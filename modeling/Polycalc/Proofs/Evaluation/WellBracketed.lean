import Polycalc.Proofs.Evaluation.FailurePoint

/-!
# The steps of an evaluation are well bracketed

`Program.steps_wellBracketed` says of every evaluation that begins where nothing
is live what its steps look like.  If it returns a value they are balanced.  If
it fails they are the beginning of balanced steps, and what is open then are the
entries of those live calls whose functions have been entered.  In either case
every return closes an entry, and entries and returns tell the truth.
-/

namespace Polycalc

namespace Program

open Activation Trace Stepwise

/-- The steps of an evaluation are well bracketed, and they tell the truth. -/
theorem steps_wellBracketed (limits : Limits) (program : Program) (binding : Binding)
    (expr : Expr) :
    ∃ result steps, (program.evaluate limits binding expr).Ends [] result steps ∧
      (∀ value, result = .ok value → Balanced steps) ∧
      (∀ failure, result = .error failure → ∃ stack state,
        FailsAt limits program limits.liveCalls [] binding expr failure stack steps ∧
          Reaches limits program (State.start expr binding) state ∧
          state.FailsWith limits program failure ⟨exprs stack, steps.toArray⟩ ∧
          Trace.unclosed [] steps = some (openings stack) ∧
          ((openings stack).map Opening.call).Sublist (stack.map Activation.call) ∧
          ∃ rest, Balanced (steps ++ rest)) ∧
      (∀ before leaving value exit after, steps = before ++ .leave leaving value exit :: after →
        ∃ (opening : Opening) (entry : String) (outer inside : List Step),
          before = outer ++ .enter opening.call opening.arguments entry :: inside ∧
            Balanced inside) ∧
      (∀ opening inside leaving value exit, Closes steps opening inside leaving value exit →
        program.ReturnsTruly limits opening inside leaving value exit) ∧
      ∀ before opening entry, Enters steps before opening entry →
        program.EntersTruly limits binding expr.calls before opening entry := by
  rcases exists_run limits program limits.liveCalls [] binding expr with ⟨result, steps, runs⟩
  rcases runs.traced (Nat.le_refl _) (List.Subset.refl _) with ⟨opened, traced, closed⟩
  refine ⟨result, steps, runs.ends, ?_, ?_, ?_, traced.returns, traced.enters⟩
  · intro value returned
    rw [closed value returned] at traced
    exact traced.read
  · rintro failure rfl
    obtain ⟨stack, fails⟩ : ∃ stack, FailsAt limits program limits.liveCalls [] binding expr
        failure stack steps := runs.exists_failsAt
    rcases fails.reaches rfl #[] [] with ⟨state, reached, failed⟩
    rw [Array.empty_append] at failed
    have read := fails.unclosed (Nat.le_refl _)
    exact ⟨stack, state, fails, reached, failed, read, openings_sublist stack,
      exists_balanced read⟩
  · rintro before leaving value exit after rfl
    exact exists_entry_of_return traced.read

end Program

end Polycalc
