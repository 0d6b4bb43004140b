import Polycalc.Proofs.Evaluation.Safety

/-!
# Recursion among functions

A program that was read is stopped by the guard exactly if some function that
the entry function reaches can reach itself in the call graph
(`guard_stops_iff_recursive`).  The graph is one of functions, whereas demands
are among calls.  A demand either stays in the body in which a call stands, and
then it is for a smaller call, or it follows an edge of the graph; so a cycle
of demands has an edge in it.  Conversely every call of a body demands all calls
of the body that it leads to.
-/

namespace Polycalc

namespace Program

variable {settings : Settings} {limits : Limits} {program : Program}

/-- The body of one function has a call of the other. -/
def Invokes (program : Program) (caller callee : String) : Prop :=
  ∃ definition, program.find? caller = some definition ∧
    ∃ call ∈ definition.body.calls, call.name = callee

/-- The call stands in the body of the function. -/
def Houses (program : Program) (name : String) (call : Call) : Prop :=
  ∃ definition, program.find? name = some definition ∧ call ∈ definition.body.calls

/-- Some function that the entry function reaches can reach itself. -/
def Recursive (program : Program) : Prop :=
  ∃ name, Relation.ReflTransGen program.Invokes entryName name ∧
    Relation.TransGen program.Invokes name name

/-! ## From demands to the graph -/

/-- What is demanded has fewer parts and is in the same body, or it stands in
the body of a function that this body calls. -/
theorem Demands.housed {call demanded : Call} (demands : program.Demands call demanded)
    {name : String} (housed : program.Houses name call) :
    (demanded.toExpr.parts.length < call.toExpr.parts.length ∧
        program.Houses name demanded) ∨
      (program.Invokes name call.name ∧ program.Houses call.name demanded) := by
  rcases housed with ⟨definition, found, inBody⟩
  rcases demands with ⟨argument, given, inArgument⟩ | ⟨callee, calleeFound, inCallee⟩
  · have inCall := Call.calls_argument_subset given inArgument
    exact Or.inl ⟨Call.length_parts_lt given inArgument, definition, found,
      Expr.calls_subset_of_mem inBody inCall⟩
  · exact Or.inr ⟨⟨definition, found, call, inBody, rfl⟩, callee, calleeFound, inCallee⟩

/-- Demands lead to bodies that the graph leads to. -/
theorem exists_houses_of_reflTransGen {call demanded : Call} {name : String}
    (housed : program.Houses name call)
    (leads : Relation.ReflTransGen program.Demands call demanded) :
    ∃ other, Relation.ReflTransGen program.Invokes name other ∧
      program.Houses other demanded := by
  induction leads with
  | refl => exact ⟨name, .refl, housed⟩
  | tail _ demands ih =>
      rcases ih with ⟨other, path, housedThere⟩
      rcases demands.housed housedThere with ⟨_, stays⟩ | ⟨invokes, moves⟩
      · exact ⟨other, path, stays⟩
      · exact ⟨_, path.tail invokes, moves⟩

/-- Demands that lead on within one body lead to something with fewer parts. -/
theorem exists_houses_of_transGen {call demanded : Call} {name : String}
    (housed : program.Houses name call)
    (leads : Relation.TransGen program.Demands call demanded) :
    (demanded.toExpr.parts.length < call.toExpr.parts.length ∧
        program.Houses name demanded) ∨
      ∃ other, Relation.TransGen program.Invokes name other ∧
        program.Houses other demanded := by
  induction leads with
  | single demands =>
      rcases demands.housed housed with stays | ⟨invokes, moves⟩
      · exact Or.inl stays
      · exact Or.inr ⟨_, .single invokes, moves⟩
  | tail _ demands ih =>
      rcases ih with ⟨shorter, housedHere⟩ | ⟨other, path, housedThere⟩
      · rcases demands.housed housedHere with ⟨shorterStill, stays⟩ | ⟨invokes, moves⟩
        · exact Or.inl ⟨by omega, stays⟩
        · exact Or.inr ⟨_, .single invokes, moves⟩
      · rcases demands.housed housedThere with ⟨_, stays⟩ | ⟨invokes, moves⟩
        · exact Or.inr ⟨other, path, stays⟩
        · exact Or.inr ⟨_, path.tail invokes, moves⟩

/-- A call of a sound program stands in the body of one function only. -/
theorem Sound.houses_unique (sound : program.Sound) {call : Call} {first second : String}
    (firstly : program.Houses first call) (secondly : program.Houses second call) :
    first = second := by
  rcases firstly with ⟨definition, found, inBody⟩
  rcases secondly with ⟨other, otherFound, inOther⟩
  rcases mem_entries_of_find? found with ⟨inForce, named⟩
  rcases mem_entries_of_find? otherFound with ⟨otherInForce, otherNamed⟩
  rw [← named, ← otherNamed, sound.owned definition inForce other otherInForce call inBody inOther]

/-- A function whose body has a call that demands itself reaches itself. -/
theorem Sound.invokes_cycle (sound : program.Sound) {call : Call} {name : String}
    (housed : program.Houses name call)
    (cycle : Relation.TransGen program.Demands call call) :
    Relation.TransGen program.Invokes name name := by
  rcases exists_houses_of_transGen housed cycle with ⟨shorter, _⟩ | ⟨other, path, housedThere⟩
  · exact absurd shorter (Nat.lt_irrefl _)
  · rwa [sound.houses_unique housedThere housed] at path

/-! ## From the graph to demands -/

/-- All calls in the body of the function are grounded. -/
def BodyGrounded (program : Program) (name : String) : Prop :=
  ∀ call, program.Houses name call → program.Grounded call

theorem BodyGrounded.of_invokes {caller callee : String} (grounded : program.BodyGrounded caller)
    (invokes : program.Invokes caller callee) : program.BodyGrounded callee := by
  rcases invokes with ⟨definition, found, call, inBody, rfl⟩
  rintro demanded ⟨callee, calleeFound, inCallee⟩
  exact (grounded call ⟨definition, found, inBody⟩).inv
    (Or.inr ⟨callee, calleeFound, inCallee⟩)

theorem BodyGrounded.of_reflTransGen {caller callee : String}
    (grounded : program.BodyGrounded caller)
    (reaches : Relation.ReflTransGen program.Invokes caller callee) :
    program.BodyGrounded callee := by
  induction reaches with
  | refl => exact grounded
  | tail _ invokes ih => exact ih.of_invokes invokes

/-- A path of the graph begins with a call that demands all calls in the body
at its end. -/
theorem exists_demands_of_transGen {caller callee : String}
    (reaches : Relation.TransGen program.Invokes caller callee) :
    ∃ call, program.Houses caller call ∧
      ∀ demanded, program.Houses callee demanded →
        Relation.TransGen program.Demands call demanded := by
  induction reaches with
  | single invokes =>
      rcases invokes with ⟨definition, found, call, inBody, rfl⟩
      refine ⟨call, ⟨definition, found, inBody⟩, ?_⟩
      rintro demanded ⟨callee, calleeFound, inCallee⟩
      exact .single (Or.inr ⟨callee, calleeFound, inCallee⟩)
  | tail _ invokes ih =>
      rcases ih with ⟨first, housed, demands⟩
      rcases invokes with ⟨definition, found, call, inBody, rfl⟩
      refine ⟨first, housed, ?_⟩
      rintro demanded ⟨callee, calleeFound, inCallee⟩
      exact (demands call ⟨definition, found, inBody⟩).tail
        (Or.inr ⟨callee, calleeFound, inCallee⟩)

/-- A function all of whose calls are grounded does not reach itself. -/
theorem BodyGrounded.not_transGen {name : String} (grounded : program.BodyGrounded name) :
    ¬ Relation.TransGen program.Invokes name name := by
  intro cycle
  rcases exists_demands_of_transGen cycle with ⟨call, housed, demands⟩
  exact (grounded call housed).not_transGen (demands call housed)

/-! ## Programs that were read -/

/-- Where a sound program is stopped: the call that is cited stands in the body
of a function that the entry function reaches and that reaches itself. -/
theorem Sound.cited_of_diverges (sound : program.Sound) {cited : Call} {quoted : String}
    (stopped : (program.run limits).onNewMachine.1 =
      .error (.evaluation (.diverges cited quoted))) :
    ∃ name, program.Houses name cited ∧
      Relation.ReflTransGen program.Invokes entryName name ∧
      Relation.TransGen program.Invokes name name := by
  rcases sound.exists_entry with ⟨definition, found, _, same⟩
  rw [same] at stopped
  rcases exists_runs_onNewMachine limits program [] definition.body with ⟨steps, runs⟩
  obtain ⟨⟨call, inBody, path⟩, back⟩ := runs.leadToCycle (List.Subset.refl _) sound.identified
    stopped (calls_body_subset found) (fun _ isLive => absurd isLive List.not_mem_nil)
  obtain ⟨name, reaches, housed⟩ :=
    exists_houses_of_reflTransGen ⟨definition, found, inBody⟩ path
  exact ⟨name, housed, reaches, sound.invokes_cycle housed back⟩

/-- A recursive sound program has no value. -/
theorem Sound.not_recursive_of_ok (sound : program.Sound) {value : Int}
    (returned : (program.run limits).onNewMachine.1 = .ok value) : ¬ program.Recursive := by
  rcases sound.exists_entry with ⟨definition, found, _, same⟩
  rw [same] at returned
  rcases exists_runs_onNewMachine limits program [] definition.body with ⟨steps, runs⟩
  rw [returned] at runs
  have grounded : program.BodyGrounded entryName := by
    rintro call ⟨definition', found', inBody⟩
    cases found.symm.trans found'
    exact (runs.evaluates (settled_ok value)).grounded call inBody
  rintro ⟨name, reaches, cycle⟩
  exact (grounded.of_reflTransGen reaches).not_transGen cycle

/-- A program that has passed validation is stopped by the guard exactly if a
function that its entry function reaches can reach itself; otherwise it has a
value.  The call that is cited stands in the body of such a function. -/
theorem guard_stops_iff_recursive {text : String}
    (accepted : parseValid settings text = .ok program)
    (ample : limits.Ample program.bodyCalls) :
    ((∃ cited quoted, (program.run limits).onNewMachine.1 =
        .error (.evaluation (.diverges cited quoted))) ↔ program.Recursive) ∧
      (¬ program.Recursive → ∃ value, (program.run limits).onNewMachine.1 = .ok value) ∧
      ∀ cited quoted, (program.run limits).onNewMachine.1 =
          .error (.evaluation (.diverges cited quoted)) →
        ∃ name, program.Houses name cited ∧
          Relation.ReflTransGen program.Invokes entryName name ∧
          Relation.TransGen program.Invokes name name := by
  have sound := sound_of_parseValid accepted
  have recursive : ∀ {cited quoted}, (program.run limits).onNewMachine.1 =
      .error (.evaluation (.diverges cited quoted)) → program.Recursive := by
    intro cited quoted stopped
    rcases sound.cited_of_diverges stopped with ⟨name, _, reaches, cycle⟩
    exact ⟨name, reaches, cycle⟩
  constructor
  · constructor
    · rintro ⟨_, _, stopped⟩
      exact recursive stopped
    · intro cyclic
      rcases sound.run_settled_or_diverges ample with settled | stopped
      · rcases sound.ok_of_settled settled with ⟨_, _, returned⟩
        exact absurd cyclic (sound.not_recursive_of_ok returned)
      · exact stopped
  · constructor
    · intro notRecursive
      rcases sound.run_settled_or_diverges ample with settled | ⟨_, _, stopped⟩
      · rcases sound.ok_of_settled settled with ⟨value, _, returned⟩
        exact ⟨value, returned⟩
      · exact absurd (recursive stopped) notRecursive
    · intro cited quoted stopped
      exact sound.cited_of_diverges stopped

theorem endless_recursive : endless.Recursive := by
  rcases guard_stops_iff_recursive endless_read endless_ample with ⟨stops, _, _⟩
  exact stops.mp ⟨innerCall, "F(x)", by cbv⟩

end Program

end Polycalc
