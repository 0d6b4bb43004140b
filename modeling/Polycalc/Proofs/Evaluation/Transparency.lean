import Polycalc.Proofs.Evaluation.Safety

/-!
# The guard changes no result

What the evaluator gives is compared with evaluation without a guard.  A value
or an error of the program is what a derivation gives, too, and it is the only
one.  Where the guard stops an evaluation there is no derivation of a value,
because the refused call demands itself.  In a sound program there is no
derivation at all (`Runs.no_derivation`): on the way to the refused call
everything to its left has a value, and no derivation of a function body ends
with an error.
-/

namespace Polycalc

namespace Program

variable {limits : Limits} {program : Program} {known : List Call}

/-- The results of several evaluations are determined. -/
theorem EvaluatesAll.unique {binding : Binding} {exprs : List Expr}
    {first second : Except Failure (List Int)}
    (firstly : EvaluatesAll limits program binding exprs first)
    (secondly : EvaluatesAll limits program binding exprs second) : first = second := by
  induction exprs generalizing first second with
  | nil =>
      cases firstly with
      | nil =>
          cases secondly with
          | nil => rfl
  | cons expr rest ih =>
      cases firstly with
      | cons firstOk firstRest =>
          cases secondly with
          | cons secondOk secondRest =>
              cases firstOk.unique secondOk
              cases ih firstRest secondRest
              rfl
          | firstFails failed => cases firstOk.unique failed
          | laterFails _ failed => cases ih firstRest failed
      | firstFails firstFailed =>
          cases secondly with
          | cons secondOk _ => cases firstFailed.unique secondOk
          | firstFails failed =>
              cases firstFailed.unique failed
              rfl
          | laterFails secondOk _ => cases firstFailed.unique secondOk
      | laterFails firstOk firstFailed =>
          cases secondly with
          | cons _ secondRest => cases ih firstFailed secondRest
          | firstFails failed => cases firstOk.unique failed
          | laterFails _ failed =>
              cases ih firstFailed failed
              rfl

/-! ## Refused evaluations -/

/-- What leads to a cycle has no value. -/
theorem LeadToCycle.not_evaluates {expr : Expr} {cited : Call}
    (cycle : LeadToCycle program expr.calls cited) {binding : Binding} {value : Int} :
    ¬ Evaluates limits program binding expr (.ok value) := by
  intro evaluates
  rcases cycle with ⟨⟨call, member, path⟩, back⟩
  exact ((evaluates.grounded call member).of_reflTransGen path).not_transGen back

/-- The live calls enclose the expression. -/
def Encloses (known : List Call) (live : List Expr) (size : Nat) : Prop :=
  ∀ entry ∈ live, ∃ call ∈ known, entry = call.toExpr ∧ size < sizeOf entry

/-- A call that is not part of a function body is not refused: only calls that
enclose it are live. -/
theorem Encloses.isLive_eq_false {live : List Expr} {call : Call}
    (encloses : Encloses known live (sizeOf call.toExpr)) (identified : IdentifiedBySite known)
    (isKnown : call ∈ known) : call.isLive live = false := by
  rw [isLive_eq_false_iff]
  intro isLive
  rcases List.mem_filterMap.mp isLive with ⟨entry, inLive, site⟩
  rcases encloses entry inLive with ⟨other, otherKnown, rfl, larger⟩
  have same : other = call := identified other otherKnown call isKnown (Option.some.inj site)
  subst same
  exact Nat.lt_irrefl _ larger

theorem Encloses.smaller {live : List Expr} {size smaller : Nat}
    (encloses : Encloses known live size) (le : smaller ≤ size) :
    Encloses known live smaller := by
  intro entry isLive
  rcases encloses entry isLive with ⟨call, isKnown, same, larger⟩
  exact ⟨call, isKnown, same, by omega⟩

theorem Encloses.push {live : List Expr} {size : Nat} {call : Call}
    (encloses : Encloses known live (sizeOf call.toExpr)) (isKnown : call ∈ known)
    (lt : size < sizeOf call.toExpr) : Encloses known (call.toExpr :: live) size := by
  intro entry isLive
  rcases List.mem_cons.mp isLive with rfl | earlier
  · exact ⟨call, isKnown, rfl, lt⟩
  · exact encloses.smaller (Nat.le_of_lt lt) entry earlier

theorem RunsAll.evaluates {budget : Nat} {live : List Expr} {binding : Binding}
    {exprs : List Expr} {values : List Int} {steps : List Step}
    (runs : RunsAll limits program budget live binding exprs (.ok values) steps) :
    EvaluatesAll limits program binding exprs (.ok values) := by
  induction exprs generalizing values steps with
  | nil =>
      cases runs with
      | nil => exact .nil
  | cons expr rest ih =>
      cases runs with
      | cons first others => exact .cons (first.evaluates (settled_ok _)) (ih others)

/-- In a sound program, where the guard stops an evaluation there is no
derivation. -/
theorem Runs.no_derivation (sound : program.Sound) (bodies : program.bodyCalls ⊆ known)
    (identified : IdentifiedBySite known) {budget : Nat} {live : List Expr}
    {binding : Binding} {expr : Expr} {result : Except Failure Int} {steps : List Step}
    (runs : Runs limits program budget live binding expr result steps)
    {cited : Call} {text : String}
    (refused : result = .error (.evaluation (.diverges cited text)))
    (calls : expr.calls ⊆ known) (leads : LiveLeadTo program known live expr.calls)
    (encloses : Encloses known live (sizeOf expr)) (other : Except Failure Int) :
    ¬ Evaluates limits program binding expr other := by
  induction runs using @Runs.rec limits program _
    (fun _ live binding exprs result _ _ =>
      result = .error (.evaluation (.diverges cited text)) →
      (∀ expr ∈ exprs, expr.calls ⊆ known) →
      LiveLeadTo program known live (exprs.flatMap Expr.calls) →
      (∀ expr ∈ exprs, Encloses known live (sizeOf expr)) →
      ∀ other, ¬ EvaluatesAll limits program binding exprs other)
    (fun _ live binding call result _ _ =>
      result = .error (.evaluation (.diverges cited text)) →
      call.toExpr.calls ⊆ known → LiveLeadTo program known live call.toExpr.calls →
      Encloses known live (sizeOf call.toExpr) →
      ∀ other, ¬ EvaluatesCall limits program binding call other)
    generalizing other with
  | number => cases refused
  | parameter _ => cases refused
  | unbound _ => cases refused
  | call _ ih =>
      intro evaluates
      cases evaluates with
      | call called => exact ih refused calls leads encloses other called
  | chain _ _ => cases refused
  | operandFails _ ih =>
      cases refused
      rw [Expr.calls_operands] at ih
      have noDerivation := ih rfl
        (fun operand inChain => List.Subset.trans (Expr.calls_operands_subset inChain) calls)
        leads
        (fun operand inChain =>
          encloses.smaller (Nat.le_of_lt (Expr.sizeOf_mem_operands_lt inChain)))
      intro evaluates
      cases evaluates with
      | chain operands => exact noDerivation _ operands
      | operandFails operands => exact noDerivation _ operands
  | foreign => cases refused
  | nil refused => cases refused
  | cons _ _ _ _ refused => cases refused
  | firstFails _ ih refused calls leads encloses other =>
      cases refused
      rw [List.flatMap_cons] at leads
      have noDerivation := ih rfl (calls _ List.mem_cons_self)
        (leads.mono (List.subset_append_left _ _)) (encloses _ List.mem_cons_self)
      intro evaluates
      cases evaluates with
      | cons first _ => exact noDerivation _ first
      | firstFails first => exact noDerivation _ first
      | laterFails first _ => exact noDerivation _ first
  | laterFails firstRuns _ _ ih refused calls leads encloses other =>
      rw [List.flatMap_cons] at leads
      have noDerivation := ih refused
        (fun expr later => calls expr (List.mem_cons_of_mem _ later))
        (leads.mono (List.subset_append_right _ _))
        (fun expr later => encloses expr (List.mem_cons_of_mem _ later))
      intro evaluates
      cases evaluates with
      | cons _ others => exact noDerivation _ others
      | firstFails failed => cases (firstRuns.evaluates (settled_ok _)).unique failed
      | laterFails _ others => exact noDerivation _ others
  | reentered isLive _ calls _ encloses other =>
      rw [encloses.isLive_eq_false identified (calls (Call.self_mem_calls _))] at isLive
      cases isLive
  | exhausted _ refused => cases refused
  | @argumentFails _ _ _ call _ _ _ _ ih refused calls leads encloses other =>
      cases refused
      have itself := call.self_mem_calls
      have noDerivation := ih rfl
        (fun argument given => List.Subset.trans (Call.calls_argument_subset given) calls)
        (leads.push itself (calls itself) fun demanded member =>
          Or.inl (List.mem_flatMap.mp member))
        (fun argument given => encloses.push (calls itself) (call.sizeOf_argument_lt given))
      intro evaluates
      cases evaluates with
      | argumentFails failed => exact noDerivation _ failed
      | unknownFunction given _ => exact noDerivation _ given
      | wrongArgumentCount given _ _ => exact noDerivation _ given
      | body given _ _ _ => exact noDerivation _ given
  | unknownFunction _ _ _ _ refused =>
      simp [Failure.quoting_eq_evaluation_iff] at refused
  | entryFault _ _ _ _ _ refused => cases refused
  | wrongArgumentCount _ _ _ _ _ _ refused => cases refused
  | @bodyFails _ _ _ call _ _ _ callee _ _ _ given found _ fits body _ _ refused calls leads
      encloses other =>
      have itself := call.self_mem_calls
      have cycle := body.leadToCycle bodies identified refused
        (List.Subset.trans (calls_body_subset found) bodies)
        (leads.push itself (calls itself) fun demanded member => Or.inr ⟨callee, found, member⟩)
      have values := given.evaluates
      intro evaluates
      cases evaluates with
      | argumentFails failed => cases values.unique failed
      | unknownFunction _ unknown => simp [found] at unknown
      | wrongArgumentCount given' found' mismatch =>
          cases values.unique given'
          cases found.symm.trans found'
          exact mismatch fits
      | body given' found' _ bodyEvaluates =>
          cases values.unique given'
          cases found.symm.trans found'
          obtain ⟨value, equal, _⟩ := sound.exists_value bodyEvaluates (sound.body_fits found)
            (Binding.covers_ofArguments fits)
          rw [equal] at bodyEvaluates
          exact cycle.not_evaluates bodyEvaluates
  | exitFault _ _ _ _ _ _ _ _ _ refused => cases refused
  | returns _ _ _ _ _ _ _ _ _ refused => cases refused

/-! ## Transparency -/

/-- The guard never changes a result, if a site tells which call it is and no
limit is reached: values are the derivable ones, errors of the program are
derivable, and where the guard stops an evaluation no value is derivable, nor
anything at all if the program was read from a text. -/
theorem guard_transparent {binding : Binding} {expr : Expr}
    (genuine : ∀ part ∈ expr :: program.bodies, part.Genuine)
    (identified : IdentifiedBySite (expr.calls ++ program.bodyCalls))
    (ample : limits.Ample (expr.calls ++ program.bodyCalls)) :
    (∀ value, (program.evaluate limits binding expr).onNewMachine.1 = .ok value ↔
        Evaluates limits program binding expr (.ok value)) ∧
      (∀ failure, (program.evaluate limits binding expr).onNewMachine.1 = .error failure →
        (∀ call text, failure ≠ .evaluation (.diverges call text)) →
          Evaluates limits program binding expr (.error failure)) ∧
      ∀ call text, (program.evaluate limits binding expr).onNewMachine.1 =
          .error (.evaluation (.diverges call text)) →
        (∀ value, ¬ Evaluates limits program binding expr (.ok value)) ∧
          ((∃ settings source, parseValid settings source = .ok program) →
            ∀ result, ¬ Evaluates limits program binding expr result) := by
  rcases List.forall_mem_cons.mp genuine with ⟨exprGenuine, bodiesGenuine⟩
  have exprKnown : expr.calls ⊆ expr.calls ++ program.bodyCalls := List.subset_append_left _ _
  have bodiesKnown : program.bodyCalls ⊆ expr.calls ++ program.bodyCalls :=
    List.subset_append_right _ _
  have outcomes := evaluate_settled_or_diverges ample bodiesKnown bodiesGenuine exprKnown
    exprGenuine binding
  rcases exists_runs_onNewMachine limits program binding expr with ⟨steps, runs⟩
  generalize (program.evaluate limits binding expr).onNewMachine.1 = result at *
  have nothingLive : LiveLeadTo program (expr.calls ++ program.bodyCalls) [] expr.calls :=
    fun entry isLive => absurd isLive List.not_mem_nil
  have noValue : ∀ {call text}, result = .error (.evaluation (.diverges call text)) →
      ∀ value, ¬ Evaluates limits program binding expr (.ok value) := by
    intro call text refused value
    exact (runs.leadToCycle bodiesKnown identified refused exprKnown nothingLive).not_evaluates
  constructor
  · intro value
    constructor
    · intro returned
      rw [returned] at runs
      exact runs.evaluates (settled_ok value)
    · intro evaluates
      rcases outcomes with settled | ⟨call, text, refused⟩
      · exact (runs.evaluates settled).unique evaluates
      · exact absurd evaluates (noValue refused value)
  · constructor
    · intro failure failed notDiverges
      rcases outcomes with settled | ⟨call, text, refused⟩
      · rw [failed] at runs settled
        exact runs.evaluates settled
      · rw [failed, Except.error.injEq] at refused
        exact absurd refused (notDiverges call text)
    · intro call text refused
      constructor
      · exact noValue refused
      · rintro ⟨settings, source, accepted⟩ other
        exact runs.no_derivation (sound_of_parseValid accepted) bodiesKnown identified refused
          exprKnown nothingLive (fun entry isLive => absurd isLive List.not_mem_nil) other

theorem endless_genuine : ∀ part ∈ outerCall.toExpr :: endless.bodies, part.Genuine := by
  simp [endless_bodies, Expr.Genuine, innerCall, outerCall]

theorem endless_identified :
    IdentifiedBySite (outerCall.toExpr.calls ++ endless.bodyCalls) := by
  simp [IdentifiedBySite, endless_bodyCalls, innerCall, outerCall]

theorem endless_not_derivable :
    ¬ ∃ result, Evaluates ⟨none, none, 2⟩ endless [] outerCall.toExpr result := by
  rintro ⟨result, evaluates⟩
  have transparent := @guard_transparent ⟨none, none, 2⟩ endless [] outerCall.toExpr
    endless_genuine endless_identified ⟨rfl, by decide⟩
  exact (transparent.2.2 innerCall "F(x)" (by cbv)).2 ⟨{}, endlessText, endless_read⟩ result
    evaluates

end Program

end Polycalc
