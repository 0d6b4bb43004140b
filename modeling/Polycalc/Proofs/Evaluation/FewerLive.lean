import Polycalc.Proofs.Evaluation.Guard
import Polycalc.Proofs.Evaluation.Restoring

/-!
# Fewer live calls

Where fewer calls are live and more may become live, an evaluation goes the same
way, unless it was stopped early: the guard refused a call that is live only
there, or no more calls could become live (`Runs.sameUnless`).  The two
evaluations note the same steps up to that point.

So a value does not depend on what is live around it (`Runs.underFewer`).  In
particular the value of an argument or of a function body is what evaluation from
an empty stack gives (`Runs.ends_fromEmpty`).  On a machine, taking live calls off
changes nothing but evaluations that the guard stopped at one of them
(`evaluate_underFewer`).
-/

namespace Polycalc

namespace Program

variable {limits : Limits} {program : Program}

/-- What is not live is not live among fewer calls. -/
theorem isLive_eq_false_of_subset {call : Call} {live fewer : List Expr}
    (notLive : call.isLive live = false) (subset : liveSites fewer ⊆ liveSites live) :
    call.isLive fewer = false :=
  isLive_eq_false_iff.mpr fun isLive => isLive_eq_false_iff.mp notLive (subset isLive)

/-- A call that can become live can become live among fewer calls, and where it is
live there are still fewer calls and more may become live. -/
theorem exists_smaller_of_notLive {budget larger : Nat} {live fewer : List Expr} {call : Call}
    (notLive : call.isLive live = false) (le : budget + 1 ≤ larger)
    (subset : liveSites fewer ⊆ liveSites live) :
    ∃ smaller, larger = smaller + 1 ∧ budget ≤ smaller ∧ call.isLive fewer = false ∧
      liveSites (call.toExpr :: fewer) ⊆ liveSites (call.toExpr :: live) := by
  obtain ⟨smaller, rfl⟩ : ∃ smaller, larger = smaller + 1 := ⟨larger - 1, by omega⟩
  refine ⟨smaller, rfl, Nat.le_of_succ_le_succ le, isLive_eq_false_of_subset notLive subset, ?_⟩
  rw [liveSites_cons, liveSites_cons]
  exact List.cons_subset_cons _ subset

/-! ## Stopping early -/

/-- Why an evaluation stops although it would go on with fewer live calls and more
room. -/
inductive StopsEarly (limits : Limits) (budget larger : Nat) (live fewer : List Expr) :
    Failure → Prop
  | reentered {call : Call} (isLive : call.isLive live = true)
      (notLive : call.isLive fewer = false) :
      StopsEarly limits budget larger live fewer
        (.quoting (call.render limits) (.diverges call))
  | exhausted (less : budget < larger) :
      StopsEarly limits budget larger live fewer (.evaluation .tooManyLiveCalls)

/-- A call that is live in either case is not why. -/
theorem StopsEarly.pop {budget larger : Nat} {live fewer : List Expr} {call : Call}
    {failure : Failure}
    (early : StopsEarly limits budget larger (call.toExpr :: live) (call.toExpr :: fewer)
      failure) :
    StopsEarly limits (budget + 1) (larger + 1) live fewer failure := by
  cases early with
  | reentered isLive notLive =>
      rw [isLive_iff, liveSites_cons] at isLive
      rw [isLive_eq_false_iff, liveSites_cons, List.mem_cons, not_or] at notLive
      have wasLive := List.mem_of_ne_of_mem notLive.1 isLive
      exact .reentered (isLive_iff.mpr wasLive) (isLive_eq_false_iff.mpr notLive.2)
  | exhausted less => exact .exhausted (Nat.succ_lt_succ less)

/-- The result and the steps are those of a run, or they are those of an evaluation
that stopped early on the way of a run. -/
inductive SameUnless {α : Type} (stops : Failure → Prop)
    (runs : Except Failure α → List Step → Prop) : Except Failure α → List Step → Prop
  | same {result : Except Failure α} {steps : List Step} (run : runs result steps) :
      SameUnless stops runs result steps
  | stopped {failure : Failure} {other : Except Failure α} {steps later : List Step}
      (early : stops failure) (run : runs other (steps ++ later)) :
      SameUnless stops runs (.error failure) steps

/-- What gives a value has not stopped. -/
theorem SameUnless.of_ok {α : Type} {stops : Failure → Prop}
    {runs : Except Failure α → List Step → Prop} {value : α} {steps : List Step}
    (same : SameUnless stops runs (.ok value) steps) : runs (.ok value) steps := by
  cases same with
  | same run => exact run

/-- However the others end, several expressions have a run if the first one gives a
value. -/
theorem Runs.exists_runAll_cons {budget : Nat} {live : List Expr} {binding : Binding} {expr : Expr}
    {rest : List Expr} {value : Int} {result : Except Failure (List Int)}
    {steps moreSteps : List Step}
    (first : Runs limits program budget live binding expr (.ok value) steps)
    (others : RunsAll limits program budget live binding rest result moreSteps) :
    ∃ other, RunsAll limits program budget live binding (expr :: rest) other
      (steps ++ moreSteps) := by
  cases result with
  | error failure => exact ⟨_, .laterFails first others⟩
  | ok values => exact ⟨_, .cons first others⟩

/-- With fewer live calls and more room, an evaluation ends as it does otherwise,
unless it stopped early.  By induction on the run; where a part of it stopped early,
what the other evaluation does after that part is any run that there is. -/
theorem Runs.sameUnless {budget larger : Nat} {live fewer : List Expr} {binding : Binding}
    {expr : Expr} {result : Except Failure Int} {steps : List Step}
    (runs : Runs limits program budget live binding expr result steps)
    (le : budget ≤ larger) (subset : liveSites fewer ⊆ liveSites live) :
    SameUnless (StopsEarly limits budget larger live fewer)
      (Runs limits program larger fewer binding expr) result steps := by
  induction runs using @Runs.rec limits program _
    (fun budget live binding exprs result steps _ => ∀ larger fewer, budget ≤ larger →
      liveSites fewer ⊆ liveSites live →
      SameUnless (StopsEarly limits budget larger live fewer)
        (RunsAll limits program larger fewer binding exprs) result steps)
    (fun budget live binding call result steps _ => ∀ larger fewer, budget ≤ larger →
      liveSites fewer ⊆ liveSites live →
      SameUnless (StopsEarly limits budget larger live fewer)
        (RunsCall limits program larger fewer binding call) result steps)
    generalizing larger fewer with
  | number => exact .same .number
  | parameter bound => exact .same (.parameter bound)
  | unbound free => exact .same (.unbound free)
  | call _ ih =>
      cases ih larger fewer le subset with
      | same run => exact .same (.call run)
      | stopped early run => exact .stopped early (.call run)
  | chain _ ih => exact .same (.chain (ih larger fewer le subset).of_ok)
  | operandFails _ ih =>
      cases ih larger fewer le subset with
      | same run => exact .same (.operandFails run)
      | @stopped _ other _ _ early run =>
          cases other with
          | error failure => exact .stopped early (.operandFails run)
          | ok values => exact .stopped early (.chain run)
  | foreign => exact .same .foreign
  | nil => exact .same .nil
  | cons _ _ firstIh othersIh larger fewer le subset =>
      exact .same (.cons (firstIh le subset).of_ok (othersIh larger fewer le subset).of_ok)
  | @firstFails _ _ binding _ rest _ _ _ ih larger fewer le subset =>
      cases ih le subset with
      | same run => exact .same (.firstFails run)
      | @stopped _ other _ _ early run =>
          cases other with
          | error failure => exact .stopped early (.firstFails run)
          | ok value =>
              obtain ⟨_, _, others⟩ :=
                exists_runAll fun (expr : Expr) (_ : expr ∈ rest) =>
                  exists_run limits program larger fewer binding expr
              obtain ⟨other, both⟩ := run.exists_runAll_cons others
              rw [List.append_assoc] at both
              exact .stopped early both
  | laterFails _ _ firstIh othersIh larger fewer le subset =>
      have first := (firstIh le subset).of_ok
      cases othersIh larger fewer le subset with
      | same run => exact .same (.laterFails first run)
      | stopped early run =>
          obtain ⟨other, both⟩ := first.exists_runAll_cons run
          rw [← List.append_assoc] at both
          exact .stopped early both
  | @reentered _ _ binding call isLive larger fewer le subset =>
      cases liveness : call.isLive fewer with
      | true => exact .same (.reentered liveness)
      | false =>
          obtain ⟨other, later, called⟩ :=
            exists_runCall limits program larger fewer binding call
          exact .stopped (.reentered isLive liveness) called
  | @exhausted _ binding call notLive larger fewer le subset =>
      cases larger with
      | zero => exact .same (.exhausted (isLive_eq_false_of_subset notLive subset))
      | succ larger =>
          obtain ⟨other, later, called⟩ :=
            exists_runCall limits program (larger + 1) fewer binding call
          exact .stopped (.exhausted (Nat.succ_pos larger)) called
  | argumentFails notLive _ ih larger fewer le subset =>
      obtain ⟨larger, rfl, le, notLive, pushed⟩ := exists_smaller_of_notLive notLive le subset
      cases ih larger _ le pushed with
      | same run => exact .same (.argumentFails notLive run)
      | stopped early run =>
          obtain ⟨other, later, called⟩ :=
            exists_runCall_of_given (exists_run limits program larger) notLive run
          rw [List.append_assoc] at called
          exact .stopped early.pop called
  | unknownFunction notLive _ unknown ih larger fewer le subset =>
      obtain ⟨larger, rfl, le, notLive, pushed⟩ := exists_smaller_of_notLive notLive le subset
      exact .same (.unknownFunction notLive (ih larger _ le pushed).of_ok unknown)
  | entryFault notLive _ found unwritten ih larger fewer le subset =>
      obtain ⟨larger, rfl, le, notLive, pushed⟩ := exists_smaller_of_notLive notLive le subset
      exact .same (.entryFault notLive (ih larger _ le pushed).of_ok found unwritten)
  | wrongArgumentCount notLive _ found written mismatch ih larger fewer le subset =>
      obtain ⟨larger, rfl, le, notLive, pushed⟩ := exists_smaller_of_notLive notLive le subset
      have given := (ih larger _ le pushed).of_ok
      exact .same (.wrongArgumentCount notLive given found written mismatch)
  | bodyFails notLive _ found written fits _ ih bodyIh larger fewer le subset =>
      obtain ⟨larger, rfl, le, notLive, pushed⟩ := exists_smaller_of_notLive notLive le subset
      have given := (ih larger _ le pushed).of_ok
      cases bodyIh le pushed with
      | same run => exact .same (.bodyFails notLive given found written fits run)
      | stopped early run =>
          obtain ⟨other, later, called⟩ :=
            exists_runCall_of_body notLive given found written fits run
          rw [← List.append_assoc [_], ← List.append_assoc, List.append_assoc _ _ later] at called
          exact .stopped early.pop called
  | exitFault notLive _ found written fits _ unwritten ih bodyIh larger fewer le subset =>
      obtain ⟨larger, rfl, le, notLive, pushed⟩ := exists_smaller_of_notLive notLive le subset
      have given := (ih larger _ le pushed).of_ok
      have body := (bodyIh le pushed).of_ok
      exact .same (.exitFault notLive given found written fits body unwritten)
  | returns notLive _ found written fits _ leaving ih bodyIh larger fewer le subset =>
      obtain ⟨larger, rfl, le, notLive, pushed⟩ := exists_smaller_of_notLive notLive le subset
      have given := (ih larger _ le pushed).of_ok
      have body := (bodyIh le pushed).of_ok
      exact .same (.returns notLive given found written fits body leaving)

/-! ## Values -/

/-- An evaluation that returns a value does so where fewer calls are live and
more may become live. -/
theorem Runs.underFewer {budget larger : Nat} {live fewer : List Expr} {binding : Binding}
    {expr : Expr} {value : Int} {steps : List Step}
    (runs : Runs limits program budget live binding expr (.ok value) steps)
    (le : budget ≤ larger) (subset : liveSites fewer ⊆ liveSites live) :
    Runs limits program larger fewer binding expr (.ok value) steps :=
  (runs.sameUnless le subset).of_ok

theorem RunsAll.underFewer {budget larger : Nat} {live fewer : List Expr} {binding : Binding}
    {exprs : List Expr} {values : List Int} {steps : List Step}
    (runs : RunsAll limits program budget live binding exprs (.ok values) steps)
    (le : budget ≤ larger) (subset : liveSites fewer ⊆ liveSites live) :
    RunsAll limits program larger fewer binding exprs (.ok values) steps := by
  induction exprs generalizing values steps with
  | nil =>
      cases runs with
      | nil => exact .nil
  | cons expr rest ih =>
      cases runs with
      | cons first others => exact .cons (first.underFewer le subset) (ih others)

/-! ## From an empty stack -/

/-- Several evaluations end as their run says. -/
theorem RunsAll.ends {budget : Nat} {live : List Expr} {binding : Binding} {exprs : List Expr}
    {values : List Int} {steps : List Step}
    (runs : RunsAll limits program budget live binding exprs (.ok values) steps) :
    (exprs.mapM (Expr.evaluateWith (program.evaluateCall limits budget) binding)).Ends live
      (.ok values) steps := by
  induction exprs generalizing values steps with
  | nil =>
      cases runs with
      | nil => exact Eval.Ends.pure _ _
  | cons expr rest ih =>
      cases runs with
      | cons first others =>
          rw [List.mapM_cons]
          exact first.ends.bind ((ih others).bind_quiet (Eval.Ends.pure _ _))

/-- A value that is returned somewhere within the limits is what evaluation
from an empty stack gives. -/
theorem Runs.ends_fromEmpty {budget : Nat} {live : List Expr} {binding : Binding} {expr : Expr}
    {value : Int} {steps : List Step}
    (runs : Runs limits program budget live binding expr (.ok value) steps)
    (le : budget ≤ limits.liveCalls) :
    (program.evaluate limits binding expr).Ends [] (.ok value) steps :=
  (runs.underFewer le (List.nil_subset _)).ends

theorem RunsAll.ends_fromEmpty {budget : Nat} {live : List Expr} {binding : Binding}
    {exprs : List Expr} {values : List Int} {steps : List Step}
    (runs : RunsAll limits program budget live binding exprs (.ok values) steps)
    (le : budget ≤ limits.liveCalls) :
    (exprs.mapM (program.evaluate limits binding)).Ends [] (.ok values) steps :=
  (runs.underFewer le (List.nil_subset _)).ends

/-! ## On a machine -/

/-- A run tells the answer of a machine that has noted nothing. -/
theorem Runs.answerAfresh {live : List Expr} {binding : Binding} {expr : Expr}
    {result : Except Failure Int} {steps : List Step}
    (runs : Runs limits program limits.liveCalls live binding expr result steps) :
    (Request.evaluate expr binding).answerAfresh limits program live =
      (result, ⟨live, steps.toArray⟩) := by
  have ended := runs.ends #[]
  rwa [Array.empty_append] at ended

/-- Evaluation is monotone in the calls that are live from the start.  Numerals may
have any length and nothing is foreign.  If an evaluation gives a value, or an error
other than that of the guard, so it does where fewer calls are live, and it notes the
same steps.  If anything differs, the guard stopped the evaluation at a call that is
live from the start and not among the fewer, and the steps up to there are the first
steps of the other evaluation. -/
theorem evaluate_underFewer {binding : Binding} {expr : Expr} {live fewer : List Expr}
    (unbounded : limits.digits = none)
    (genuine : ∀ part ∈ expr :: program.bodies, part.Genuine)
    (subset : liveSites fewer ⊆ liveSites live) :
    let answer := (Request.evaluate expr binding).answerAfresh limits program
    (∀ value, (answer live).1 = .ok value →
        (answer fewer).1 = .ok value ∧ (answer fewer).2.steps = (answer live).2.steps) ∧
      (∀ failure, (answer live).1 = .error failure →
        (∀ call text, failure ≠ .evaluation (.diverges call text)) →
          (answer fewer).1 = .error failure ∧
            (answer fewer).2.steps = (answer live).2.steps) ∧
      ((answer fewer).1 ≠ (answer live).1 ∨ (answer fewer).2.steps ≠ (answer live).2.steps →
        ∃ call text, (answer live).1 = .error (.evaluation (.diverges call text)) ∧
          call.isLive live = true ∧ call.isLive fewer = false ∧
            (answer live).2.steps.toList <+: (answer fewer).2.steps.toList) := by
  intro answer
  rcases List.forall_mem_cons.mp genuine with ⟨exprGenuine, bodiesGenuine⟩
  rcases exists_run limits program limits.liveCalls live binding expr with ⟨result, steps, runs⟩
  have noFault := runs.ne_fault unbounded bodiesGenuine exprGenuine
  have answered : answer live = (result, ⟨live, steps.toArray⟩) := runs.answerAfresh
  rw [answered]
  cases runs.sameUnless (Nat.le_refl _) subset with
  | same run =>
      have same : answer fewer = (result, ⟨fewer, steps.toArray⟩) := run.answerAfresh
      rw [same]
      refine ⟨fun value returned => ⟨returned, rfl⟩, fun failure failed _ => ⟨failed, rfl⟩, ?_⟩
      rintro (different | different)
      · exact absurd rfl different
      · exact absurd rfl different
  | @stopped _ other _ later early run =>
      cases early with
      | exhausted less => exact absurd less (Nat.lt_irrefl _)
      | @reentered call isLive notLive =>
          have longer : answer fewer = (other, ⟨fewer, (steps ++ later).toArray⟩) :=
            run.answerAfresh
          cases written : call.render limits with
          | error fault =>
              rw [written] at noFault
              exact absurd rfl (noFault fault)
          | ok text =>
              rw [longer]
              refine ⟨nofun, ?_, ?_⟩
              · intro failure failed otherwise
                cases failed
                exact absurd rfl (otherwise call text)
              · intro _
                exact ⟨call, text, rfl, isLive, notLive, List.prefix_append steps later⟩

/-- A function that returns its argument. -/
def identity : Program :=
  empty.define ⟨"F", ["x"], .parameter "x" .unplaced, 1⟩

/-- A call of the function. -/
def identityCall (index : Nat) (value : Int) : Call :=
  ⟨.built index, "F", [.number value .unplaced], .unplaced⟩

/-- A call that is not live returns its argument. -/
theorem exists_runs_identityCall (live : List Expr) (index : Nat) (value : Int)
    (notLive : (identityCall index value).isLive live = false) :
    ∃ steps, Runs ⟨none, none, 1⟩ identity 1 live [] (identityCall index value).toExpr
      (.ok value) steps :=
  ⟨_, .call (.returns notLive (.cons .number .nil) rfl rfl rfl (.parameter rfl) rfl)⟩

/-- Two calls of the function. -/
def twoCalls : Expr :=
  .join .sum (identityCall 0 1).toExpr (identityCall 1 2).toExpr

/-- With nothing live the two calls have a value.  If the second one is live already,
the guard stops there, after the first one has returned. -/
theorem twoCalls_underFewer :
    liveSites [] ⊆ liveSites [(identityCall 1 2).toExpr] ∧
      (∀ part ∈ twoCalls :: identity.bodies, part.Genuine) ∧
      ((Request.evaluate twoCalls []).answerAfresh ⟨none, none, 1⟩ identity []).1 = .ok 3 ∧
      ∃ call text,
        ((Request.evaluate twoCalls []).answerAfresh ⟨none, none, 1⟩ identity
            [(identityCall 1 2).toExpr]).1 = .error (.evaluation (.diverges call text)) ∧
          call.isLive [(identityCall 1 2).toExpr] = true ∧
          ((Request.evaluate twoCalls []).answerAfresh ⟨none, none, 1⟩ identity
              [(identityCall 1 2).toExpr]).2.steps.toList <+:
            ((Request.evaluate twoCalls []).answerAfresh ⟨none, none, 1⟩ identity
              []).2.steps.toList := by
  have subset : liveSites [] ⊆ liveSites [(identityCall 1 2).toExpr] := List.nil_subset _
  have genuine : ∀ part ∈ twoCalls :: identity.bodies, part.Genuine := by
    have bodies : identity.bodies = [.parameter "x" .unplaced] := rfl
    simp [bodies, twoCalls, identityCall, Call.toExpr, Expr.Genuine, Expr.join]
  have value : ((Request.evaluate twoCalls []).answerAfresh ⟨none, none, 1⟩ identity []).1 =
      .ok 3 := by
    obtain ⟨_, first⟩ := exists_runs_identityCall [] 0 1 rfl
    obtain ⟨_, second⟩ := exists_runs_identityCall [] 1 2 rfl
    have operands : RunsAll ⟨none, none, 1⟩ identity 1 [] [] twoCalls.operands (.ok [1, 2]) _ :=
      .cons first (.cons second .nil)
    exact congrArg Prod.fst (Runs.chain operands).answerAfresh
  have stopped : ((Request.evaluate twoCalls []).answerAfresh ⟨none, none, 1⟩ identity
      [(identityCall 1 2).toExpr]).1 =
        .error (.quoting ((identityCall 1 2).render ⟨none, none, 1⟩)
          (.diverges (identityCall 1 2))) := by
    obtain ⟨_, first⟩ := exists_runs_identityCall [(identityCall 1 2).toExpr] 0 1 rfl
    have second : RunsCall ⟨none, none, 1⟩ identity 1 [(identityCall 1 2).toExpr] []
        (identityCall 1 2) _ [] := .reentered rfl
    have operands : RunsAll ⟨none, none, 1⟩ identity 1 [(identityCall 1 2).toExpr] []
        twoCalls.operands _ _ := .laterFails first (.firstFails (.call second))
    exact congrArg Prod.fst (Runs.operandFails operands).answerAfresh
  have unbounded : Limits.digits ⟨none, none, 1⟩ = none := rfl
  rcases evaluate_underFewer unbounded genuine subset with ⟨_, _, differs⟩
  have different : ((Request.evaluate twoCalls []).answerAfresh ⟨none, none, 1⟩ identity []).1 ≠
      ((Request.evaluate twoCalls []).answerAfresh ⟨none, none, 1⟩ identity
        [(identityCall 1 2).toExpr]).1 := by
    rw [value, stopped]
    intro same
    cases same
  rcases differs (Or.inl different) with ⟨call, text, refused, isLive, _, begins⟩
  exact ⟨subset, genuine, value, call, text, refused, isLive, begins⟩

end Program

end Polycalc
