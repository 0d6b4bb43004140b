import Polycalc.Program.Printer
import Polycalc.Proofs.Evaluation.Transparency
import Polycalc.Proofs.Expr.Places

/-!
# Programs that differ in places

Two programs are alike if their tables differ in positions, sites and lines
only.  They are printed alike, their calls fit alike, and what has a value in
one of them has it in the other (`Program.Evaluates.alike`).  If both are sound,
they end alike (`Program.Sound.run_alike`).
-/

namespace Polycalc

/-! ## Expressions without places -/

namespace Expr

variable {other : Expr}

theorem of_bare_eq_number {value : Int} (same : other.bare = number value .unplaced) :
    ∃ place, other = number value place := by
  cases other with
  | number _ place =>
      cases same
      exact ⟨place, rfl⟩
  | _ => cases same

theorem of_bare_eq_parameter {name : String} (same : other.bare = parameter name .unplaced) :
    ∃ place, other = parameter name place := by
  cases other with
  | parameter _ place =>
      cases same
      exact ⟨place, rfl⟩
  | _ => cases same

theorem of_bare_eq_foreign {kind shown : String} (same : other.bare = foreign kind shown) :
    other = foreign kind shown := by
  cases other with
  | foreign _ _ => exact same
  | _ => cases same

theorem of_bare_eq_call {site : Site} {name : String} {arguments : List Expr}
    {position : Position} (same : other.bare = (call site name arguments position).bare) :
    ∃ site' arguments' place, other = call site' name arguments' place ∧
      (⟨site', name, arguments', place⟩ : Call).bare =
        Call.bare ⟨site, name, arguments, position⟩ := by
  cases other with
  | call site' _ arguments' place =>
      rw [bare_call, bare_call, call.injEq] at same
      rcases same with ⟨_, rfl, sameArguments, _⟩
      exact ⟨site', arguments', place, rfl, by simp only [Call.bare, sameArguments]⟩
  | _ => cases same

theorem of_bare_eq_binary {operator : Operator} {left right : Expr} {position : Position}
    (same : other.bare = (binary operator left right position).bare) :
    ∃ left' right' place, other = binary operator left' right' place ∧
      (binary operator left' right' place).operands.map bare =
        (binary operator left right position).operands.map bare := by
  cases other with
  | binary _ left' right' place =>
      rw [bare_binary, bare_binary, binary.injEq] at same
      rcases same with ⟨rfl, sameLeft, sameRight, _⟩
      refine ⟨left', right', place, rfl, ?_⟩
      rw [← operands_bare _ _ _ place .unplaced, sameLeft, sameRight, operands_bare]
  | _ => cases same

end Expr

/-! ## Alike programs -/

namespace Definition

theorem bare_eq_iff {definition other : Definition} :
    definition.bare = other.bare ↔
      definition.name = other.name ∧ definition.parameters = other.parameters ∧
        definition.body.bare = other.body.bare := by
  simp [bare]

/-- A definition is printed without regard to its places. -/
theorem source_bare (limits : Limits) (definition : Definition) :
    definition.bare.source limits = definition.source limits := by
  rw [source, bare, Expr.render_bare]
  rfl

end Definition

namespace Program

/-- The tables of the programs differ in places only. -/
def Alike (program other : Program) : Prop :=
  other.functions.entries.map Definition.bare = program.functions.entries.map Definition.bare

namespace Alike

variable {program other : Program}

theorem symm (alike : program.Alike other) : other.Alike program :=
  Eq.symm alike

/-- What does not regard places is the same for all definitions. -/
theorem map_entries {α : Type} (alike : program.Alike other) {f : Definition → α}
    (blind : ∀ definition : Definition, f definition.bare = f definition) :
    other.functions.entries.map f = program.functions.entries.map f := by
  have each : ∀ definitions : List Definition,
      (definitions.map Definition.bare).map f = definitions.map f := by
    intro definitions
    rw [List.map_map]
    exact List.map_congr_left fun definition _ => blind definition
  rw [← each, alike, each]

theorem names (alike : program.Alike other) : other.functions.names = program.functions.names :=
  alike.map_entries fun _ => rfl

theorem source (alike : program.Alike other) (limits : Limits) :
    other.source limits = program.source limits := by
  have each : ∀ definitions : List Definition,
      (definitions.map Definition.bare).mapM (Definition.source limits) =
        definitions.mapM (Definition.source limits) := by
    intro definitions
    rw [List.mapM_map]
    exact mapM_congr_of_forall fun definition _ => definition.source_bare limits
  rw [Program.source, Program.source, ← each, ← each program.functions.entries, alike]

theorem bodyCalls (alike : program.Alike other) :
    other.bodyCalls.map Call.bare = program.bodyCalls.map Call.bare := by
  have each : ∀ program : Program, program.bodyCalls.map Call.bare =
      (program.functions.entries.map Definition.bare).flatMap fun definition =>
        definition.body.calls := by
    intro program
    rw [Program.bodyCalls, bodies, List.flatMap_map, List.map_flatMap, List.flatMap_map]
    exact List.flatMap_congr fun definition _ => (Expr.calls_bare definition.body).symm
  rw [each, each, alike]

/-- A name means the same in both. -/
theorem find? (alike : program.Alike other) {name : String} {definition : Definition}
    (found : program.find? name = some definition) :
    ∃ definition', other.find? name = some definition' ∧
      definition'.bare = definition.bare := by
  have each : ∀ program : Program,
      (program.functions.entries.map Definition.bare).find? (·.name = name) =
        (program.find? name).map Definition.bare := by
    intro program
    rw [List.find?_map]
    rfl
  have same := each other
  rw [alike, each program, found, Option.map_some, Eq.comm, Option.map_eq_some_iff] at same
  exact same

/-- The same names mean something. -/
theorem contains (alike : program.Alike other) (name : String) :
    other.contains name = program.contains name := by
  have defined : ∀ {program other : Program}, program.Alike other →
      program.contains name = true → other.contains name = true := by
    intro program other alike defined
    rcases Option.isSome_iff_exists.mp defined with ⟨definition, found⟩
    rcases alike.find? found with ⟨definition', found', _⟩
    exact Option.isSome_iff_exists.mpr ⟨definition', found'⟩
  exact Bool.eq_iff_iff.mpr ⟨defined alike.symm, defined alike⟩

theorem accepts (alike : program.Alike other) {call call' : Call} (same : call'.bare = call.bare)
    (accepts : program.Accepts call) : other.Accepts call' := by
  rcases accepts with ⟨callee, found, fits⟩
  rcases alike.find? found with ⟨callee', found', sameCallee⟩
  rw [Call.bare, Call.bare, Call.mk.injEq] at same
  rw [Definition.bare_eq_iff] at sameCallee
  have lengths := congrArg List.length same.2.2.1
  rw [List.length_map, List.length_map] at lengths
  refine ⟨callee', by rw [same.2.1, found'], ?_⟩
  rw [lengths, fits, Definition.arity, Definition.arity, sameCallee.2.1]

theorem accepts_all (alike : program.Alike other)
    (accepted : ∀ call ∈ program.bodyCalls, program.Accepts call) :
    ∀ call ∈ other.bodyCalls, other.Accepts call := by
  intro call member
  have inBody := List.mem_map_of_mem (f := Call.bare) member
  rw [alike.bodyCalls] at inBody
  rcases List.mem_map.mp inBody with ⟨call', member', same⟩
  exact alike.accepts same.symm (accepted call' member')

end Alike

/-! ## Evaluations -/

variable {limits limits' : Limits} {program other : Program}

/-- What has a value in a program has it in one that is alike. -/
theorem Evaluates.alike (alike : program.Alike other) {binding : Binding}
    {expr expr' : Expr} {value : Int} (same : expr'.bare = expr.bare)
    (evaluates : Evaluates limits program binding expr (.ok value)) :
    Evaluates limits' other binding expr' (.ok value) := by
  generalize ended : Except.ok value = result at evaluates
  induction evaluates using @Evaluates.rec limits program _
    (fun binding exprs result _ => ∀ exprs' values, .ok values = result →
      exprs'.map Expr.bare = exprs.map Expr.bare →
        EvaluatesAll limits' other binding exprs' (.ok values))
    (fun binding call result _ => ∀ call' value, .ok value = result →
      call'.bare = call.bare → EvaluatesCall limits' other binding call' (.ok value))
    generalizing expr' value with
  | number =>
      cases ended
      rcases Expr.of_bare_eq_number same with ⟨place, rfl⟩
      exact .number
  | parameter bound =>
      cases ended
      rcases Expr.of_bare_eq_parameter same with ⟨place, rfl⟩
      exact .parameter bound
  | unbound _ => cases ended
  | call _ ih =>
      rcases Expr.of_bare_eq_call same with ⟨site, arguments, place, rfl, sameCall⟩
      subst ended
      exact .call (ih _ _ rfl sameCall)
  | chain _ ih =>
      cases ended
      rcases Expr.of_bare_eq_binary same with ⟨left, right, place, rfl, sameOperands⟩
      exact .chain (ih _ _ rfl sameOperands)
  | operandFails _ _ => cases ended
  | foreign => cases ended
  | nil exprs' values ended same =>
      cases ended
      rw [List.map_nil, List.map_eq_nil_iff] at same
      rw [same]
      exact .nil
  | cons _ _ firstIh othersIh exprs' values ended same =>
      cases ended
      rw [List.map_cons, List.map_eq_cons_iff] at same
      rcases same with ⟨first, rest, rfl, sameFirst, sameRest⟩
      exact .cons (firstIh sameFirst rfl) (othersIh _ _ rfl sameRest)
  | firstFails _ _ _ _ ended => cases ended
  | laterFails _ _ _ _ _ _ ended => cases ended
  | argumentFails _ _ _ _ ended => cases ended
  | unknownFunction _ _ _ _ _ ended => cases ended
  | wrongArgumentCount _ _ _ _ _ _ ended => cases ended
  | body _ found fits _ ih bodyIh call' value ended same =>
      rcases alike.find? found with ⟨callee, found', sameCallee⟩
      rw [Call.bare, Call.bare, Call.mk.injEq] at same
      rw [Definition.bare_eq_iff] at sameCallee
      have given := ih call'.arguments _ rfl same.2.2.1
      rw [← same.2.1] at found'
      subst ended
      refine .body given found' (fits.trans ?_) ?_
      · rw [Definition.arity, Definition.arity, sameCallee.2.1]
      · rw [sameCallee.2.1]
        exact bodyIh sameCallee.2.2 rfl

/-- A sound program that no limit stops has the derivable values. -/
theorem Sound.run_eq_ok_iff (sound : program.Sound) (ample : limits.Ample program.bodyCalls)
    {definition : Definition} (found : program.find? entryName = some definition) {value : Int} :
    (program.run limits).onNewMachine.1 = .ok value ↔
      Evaluates limits program [] definition.body (.ok value) := by
  rcases sound.exists_entry with ⟨definition', found', _, same⟩
  rw [found, Option.some.injEq] at found'
  subst found'
  have outcomes := sound.run_settled_or_diverges ample
  have values : ∀ value, (program.run limits).onNewMachine.1 = .ok value →
      Evaluates limits program [] definition.body (.ok value) := by
    intro value returned
    rcases exists_runs_onNewMachine limits program [] definition.body with ⟨steps, runs⟩
    rw [← same limits, returned] at runs
    exact runs.evaluates (settled_ok value)
  constructor
  · exact values value
  · intro evaluates
    rcases outcomes with settled | ⟨cited, text, stopped⟩
    · rcases sound.ok_of_settled settled with ⟨other, _, returned⟩
      rw [returned, (values other returned).unique evaluates]
    · rcases exists_runs_onNewMachine limits program [] definition.body with ⟨steps, runs⟩
      rw [← same limits] at runs
      have cycle := runs.leadToCycle (List.Subset.refl _) sound.identified stopped
        (calls_body_subset found) (fun _ isLive => absurd isLive List.not_mem_nil)
      exact absurd evaluates cycle.not_evaluates

/-- Sound programs that are alike end alike. -/
theorem Sound.run_alike (sound : program.Sound) (otherSound : other.Sound)
    (alike : program.Alike other) (ample : limits.Ample program.bodyCalls)
    (otherAmple : limits'.Ample other.bodyCalls) :
    (∃ value, (program.run limits).onNewMachine.1 = .ok value ∧
        (other.run limits').onNewMachine.1 = .ok value) ∨
      (∃ call text, (program.run limits).onNewMachine.1 =
          .error (.evaluation (.diverges call text))) ∧
        ∃ call text, (other.run limits').onNewMachine.1 =
          .error (.evaluation (.diverges call text)) := by
  rcases sound.entry with ⟨entry, found, _⟩
  rcases alike.find? found with ⟨otherEntry, otherFound, sameEntry⟩
  rw [Definition.bare_eq_iff] at sameEntry
  have values : ∀ value, (program.run limits).onNewMachine.1 = .ok value ↔
      (other.run limits').onNewMachine.1 = .ok value := by
    intro value
    rw [sound.run_eq_ok_iff ample found, otherSound.run_eq_ok_iff otherAmple otherFound]
    exact ⟨Evaluates.alike alike sameEntry.2.2,
      Evaluates.alike alike.symm sameEntry.2.2.symm⟩
  rcases sound.run_settled_or_diverges ample with settled | stopped
  · rcases sound.ok_of_settled settled with ⟨value, _, returned⟩
    exact Or.inl ⟨value, returned, (values value).mp returned⟩
  · right
    refine ⟨stopped, ?_⟩
    rcases otherSound.run_settled_or_diverges otherAmple with settled | otherStopped
    · rcases otherSound.ok_of_settled settled with ⟨value, _, returned⟩
      rcases stopped with ⟨call, text, stopped⟩
      rw [(values value).mpr returned] at stopped
      cases stopped
    · exact otherStopped

end Program

end Polycalc
