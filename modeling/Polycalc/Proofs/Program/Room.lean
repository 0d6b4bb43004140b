import Polycalc.Proofs.Evaluation.FewerLive
import Polycalc.Proofs.Evaluation.Safety
import Polycalc.Proofs.Program.Limits

/-!
# Outcomes within other limits on calls

How deep calls may be nested and how many may be live depends on the machine.  It makes
no difference to a text but for the outcome that there was no room for its calls: two
runs with other room, neither of which ends in this way, have the same outcome after the
same steps (`Program.outcomeOfText_eq_of_room`).
-/

namespace Polycalc

/-- Calls were nested too deeply, or too many were live. -/
def Outcome.OutOfRoom (outcome : Outcome) : Prop :=
  outcome = .parseFailed (.parse .nestedTooDeeply) ∨ outcome = .evaluationFailed .tooManyLiveCalls

/-- The same limit on numerals, and none on nests of calls. -/
def Limits.roomy (limits : Limits) : Limits :=
  ⟨limits.digits, none, 0⟩

theorem Limits.freer_roomy (limits : Limits) (maxArguments : Option Int) :
    Settings.Freer ⟨maxArguments, limits⟩ ⟨maxArguments, limits.roomy⟩ where
  maxArguments := rfl
  nesting := fun _ _ => rfl
  digits := Or.inl rfl

namespace Program

variable {limits limits' : Limits}

/-! ## Evaluation -/

section

variable (digits : limits.digits = limits'.digits)

include digits

/-- What a call does depends on the room that is left and not on the room in the
limits. -/
theorem evaluateCall_congr (program : Program) (budget : Nat) :
    program.evaluateCall limits budget = program.evaluateCall limits' budget := by
  have written : limits.write = limits'.write := funext (Limits.write_congr digits)
  have rendered : ∀ call : Call, call.render limits = call.render limits' :=
    fun call => Expr.render_congr fun value _ _ => Limits.write_congr digits value
  have entry : ∀ (call : Call) arguments,
      call.entryText limits arguments = call.entryText limits' arguments := by
    intro call arguments
    cases arguments with
    | nil => exact rendered call
    | cons value rest => simp only [Call.entryText, written]
  have exit : ∀ (call : Call) value, call.exitText limits value = call.exitText limits' value := by
    intro call value
    rw [Call.exitText, Call.exitText, written]
  induction budget with
  | zero =>
      funext call binding
      unfold evaluateCall
      rw [rendered]
  | succ budget ih =>
      funext call binding
      unfold evaluateCall
      simp only [enterCall, rendered, entry, exit, ih]

/-- With more room a program runs in the same way, unless there was too little. -/
theorem Sound.run_eq_of_le {program : Program} (sound : program.Sound)
    (le : limits.liveCalls ≤ limits'.liveCalls)
    (room : (program.run limits).onNewMachine.1 ≠ .error (.evaluation .tooManyLiveCalls)) :
    (program.run limits).onNewMachine = (program.run limits').onNewMachine := by
  rcases sound.exists_entry with ⟨definition, _, _, entered⟩
  rw [entered] at room ⊢
  rw [entered]
  rcases exists_run limits program limits.liveCalls [] [] definition.body with
    ⟨result, steps, runs⟩
  rw [runs.onNewMachine] at room ⊢
  cases runs.sameUnless le (List.Subset.refl _) with
  | same run =>
      have ended := run.ends #[]
      rw [evaluateCall_congr digits, Array.empty_append] at ended
      exact ended.symm
  | stopped early _ =>
      cases early with
      | reentered isLive notLive => cases isLive.symm.trans notLive
      | exhausted _ => exact absurd rfl room

/-- Two runs of a program are the same if both have enough room. -/
theorem Sound.run_eq_of_room {program : Program} (sound : program.Sound)
    (room : (program.run limits).onNewMachine.1 ≠ .error (.evaluation .tooManyLiveCalls))
    (room' : (program.run limits').onNewMachine.1 ≠ .error (.evaluation .tooManyLiveCalls)) :
    (program.run limits).onNewMachine = (program.run limits').onNewMachine := by
  rcases Nat.le_total limits.liveCalls limits'.liveCalls with le | le
  · exact sound.run_eq_of_le digits le room
  · exact (sound.run_eq_of_le digits.symm le room').symm

end

/-! ## Texts -/

variable {maxArguments : Option Int} {text : String}

/-- Without a limit on nests a text is read in the same way, unless a nest was too deep. -/
theorem parse_eq_roomy
    (room : Program.parse ⟨maxArguments, limits⟩ text ≠ .error (.parse .nestedTooDeeply)) :
    Program.parse ⟨maxArguments, limits⟩ text = Program.parse ⟨maxArguments, limits.roomy⟩ text :=
  (parse_sameUnlessLimited (limits.freer_roomy maxArguments) text).eq_of_room rfl room

/-- So it is validated. -/
theorem validate_eq_roomy {program : Program}
    (room : program.validate limits ≠ .error (.parse .nestedTooDeeply)) :
    program.validate limits = program.validate limits.roomy := by
  have compares : SameUnlessLimited ⟨none, limits⟩ ⟨none, limits.roomy⟩ []
      (program.validate limits) (program.validate limits.roomy) :=
    program.validate_sameUnlessLimited (limits.freer_roomy none) rfl
  exact compares.eq_of_room rfl room

/-- A program that was read and for which there is room has one outcome. -/
theorem outcome_eq_of_room (digits : limits.digits = limits'.digits) {program : Program}
    (parsed : Program.parse ⟨maxArguments, limits⟩ text = .ok program)
    (room : ∀ ending, (program.outcome limits).1 = .ok ending → ¬ ending.OutOfRoom)
    (room' : ∀ ending, (program.outcome limits').1 = .ok ending → ¬ ending.OutOfRoom) :
    program.outcome limits = program.outcome limits' := by
  have roomy : limits.roomy = limits'.roomy := by rw [Limits.roomy, Limits.roomy, digits]
  have shallow : ∀ {limits : Limits},
      (∀ ending, (program.outcome limits).1 = .ok ending → ¬ ending.OutOfRoom) →
        program.validate limits ≠ .error (.parse .nestedTooDeeply) := by
    intro limits room refused
    apply room (.parseFailed (.parse .nestedTooDeeply)) _ (Or.inl rfl)
    rw [outcome, refused]
    rfl
  have valid : program.validate limits = program.validate limits' := by
    rw [validate_eq_roomy (shallow room), roomy, ← validate_eq_roomy (shallow room')]
  have few : ∀ {limits : Limits}, program.validate limits = .ok () →
      (∀ ending, (program.outcome limits).1 = .ok ending → ¬ ending.OutOfRoom) →
        (program.run limits).onNewMachine.1 ≠ .error (.evaluation .tooManyLiveCalls) := by
    intro limits accepted room exhausted
    apply room (.evaluationFailed .tooManyLiveCalls) _ (Or.inr rfl)
    simp only [outcome, accepted, exhausted]
    rfl
  cases accepted : program.validate limits with
  | error failure =>
      rw [outcome, outcome, ← valid, accepted]
  | ok _ =>
      have sound := sound_of_parseValid (parseValid_eq_ok_iff.mpr ⟨parsed, accepted⟩)
      have accepted' := valid.symm.trans accepted
      have same := sound.run_eq_of_room digits (few accepted room) (few accepted' room')
      simp only [outcome, accepted, accepted', same]

/-- The room for calls makes no difference to a text as long as there is enough of it. -/
theorem outcomeOfText_eq_of_room (digits : limits.digits = limits'.digits)
    (room : ∀ ending, (outcomeOfText ⟨maxArguments, limits⟩ text).1 = .ok ending →
      ¬ ending.OutOfRoom)
    (room' : ∀ ending, (outcomeOfText ⟨maxArguments, limits'⟩ text).1 = .ok ending →
      ¬ ending.OutOfRoom) :
    Program.parse ⟨maxArguments, limits⟩ text = Program.parse ⟨maxArguments, limits'⟩ text ∧
      outcomeOfText ⟨maxArguments, limits⟩ text = outcomeOfText ⟨maxArguments, limits'⟩ text := by
  have roomy : limits.roomy = limits'.roomy := by rw [Limits.roomy, Limits.roomy, digits]
  have shallow : ∀ {settings : Settings},
      (∀ ending, (outcomeOfText settings text).1 = .ok ending → ¬ ending.OutOfRoom) →
        Program.parse settings text ≠ .error (.parse .nestedTooDeeply) :=
    fun room refused => room _ (outcomeOfText_of_parse_eq_error refused) (Or.inl rfl)
  have same : Program.parse ⟨maxArguments, limits⟩ text =
      Program.parse ⟨maxArguments, limits'⟩ text := by
    rw [parse_eq_roomy (shallow room), roomy, ← parse_eq_roomy (shallow room')]
  refine ⟨same, ?_⟩
  unfold outcomeOfText at room room' ⊢
  rw [← same] at room' ⊢
  cases parsed : Program.parse ⟨maxArguments, limits⟩ text with
  | error failure => rfl
  | ok program =>
      rw [parsed] at room room'
      exact outcome_eq_of_room digits parsed room room'

end Program

end Polycalc
