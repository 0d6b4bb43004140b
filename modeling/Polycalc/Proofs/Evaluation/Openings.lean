import Polycalc.Evaluation
import Mathlib.Data.List.Basic

/-!
# Steps as brackets

An entry opens a bracket, and a return closes the innermost bracket that is
open, which must be an entry of the same function.  `Trace.unclosed` reads steps
in this way, and steps are balanced if nothing is open at either end
(`Trace.Balanced`).

Reading does not look below the brackets that were open before
(`Trace.unclosed_append_below`).  Hence whatever can be read is the beginning of
balanced steps (`Trace.exists_balanced`), and an entry and the return that closes
it lie on the same side of any point at which nothing is open
(`Trace.not_balanced_of_entered`).
-/

namespace Polycalc

/-- An entry that no return has closed yet. -/
structure Opening where
  call : Call
  arguments : List Int

/-- Read a step where some entries are open, innermost first. -/
def Step.read : List Opening → Step → Option (List Opening)
  | opened, .enter call arguments _ => some (⟨call, arguments⟩ :: opened)
  | [], .leave _ _ _ => none
  | innermost :: outer, .leave call _ _ =>
    if innermost.call.name = call.name then some outer else none

namespace Trace

/-- The entries that are open after some steps, innermost first, if every return
closes one. -/
def unclosed (opened : List Opening) (steps : List Step) : Option (List Opening) :=
  steps.foldlM Step.read opened

/-- Every return closes an entry of the same function, and every entry is
closed. -/
def Balanced (steps : List Step) : Prop :=
  unclosed [] steps = some []

variable {opened later : List Opening} {steps more : List Step} {call : Call}
  {arguments : List Int} {text : String}

@[simp]
theorem unclosed_nil (opened : List Opening) : unclosed opened [] = some opened :=
  rfl

@[simp]
theorem unclosed_enter (opened : List Opening) (steps : List Step) :
    unclosed opened (.enter call arguments text :: steps) =
      unclosed (⟨call, arguments⟩ :: opened) steps :=
  rfl

theorem unclosed_append (opened : List Opening) (steps more : List Step) :
    unclosed opened (steps ++ more) = (unclosed opened steps).bind (unclosed · more) :=
  List.foldlM_append

/-- Steps that can be read can be read up to any point. -/
theorem exists_of_unclosed_append (read : unclosed opened (steps ++ more) = some later) :
    ∃ between, unclosed opened steps = some between ∧ unclosed between more = some later := by
  rw [unclosed_append] at read
  exact Option.bind_eq_some_iff.mp read

theorem unclosed_append_of_eq {between : List Opening}
    (first : unclosed opened steps = some between) (second : unclosed between more = some later) :
    unclosed opened (steps ++ more) = some later := by
  rw [unclosed_append, first]
  exact second

/-- What is open below is not touched. -/
theorem unclosed_append_below (read : unclosed opened steps = some later)
    (below : List Opening) : unclosed (opened ++ below) steps = some (later ++ below) := by
  induction steps generalizing opened with
  | nil =>
      rw [unclosed_nil, Option.some.injEq] at read
      rw [read, unclosed_nil]
  | cons step steps ih =>
      cases step with
      | enter call arguments text => exact ih read
      | leave call value text =>
          cases opened with
          | nil => cases read
          | cons innermost outer =>
              by_cases same : innermost.call.name = call.name
              · simp only [unclosed, List.foldlM_cons, Step.read, same, if_true,
                  List.cons_append] at read ⊢
                exact ih read
              · simp [unclosed, Step.read, same] at read

namespace Balanced

theorem nil : Balanced [] :=
  rfl

/-- Balanced steps leave open what was open. -/
theorem unclosed (balanced : Balanced steps) (opened : List Opening) :
    Trace.unclosed opened steps = some opened :=
  unclosed_append_below balanced opened

theorem append (balanced : Balanced steps) (next : Balanced more) : Balanced (steps ++ more) :=
  unclosed_append_of_eq balanced next

/-- Balanced steps between an entry and a return of one function. -/
theorem enclose {leaving : Call} {value : Int} {exit : String} (balanced : Balanced steps)
    (same : call.name = leaving.name) :
    Balanced (.enter call arguments text :: (steps ++ [.leave leaving value exit])) := by
  rw [Balanced, unclosed_enter]
  apply unclosed_append_of_eq (balanced.unclosed _)
  simp [Trace.unclosed, Step.read, same]

/-- No return follows balanced steps at which nothing else is open. -/
theorem unclosed_append_leave (balanced : Balanced steps) (leaving : Call) (value : Int)
    (exit : String) (after : List Step) :
    Trace.unclosed [] (steps ++ .leave leaving value exit :: after) = none := by
  rw [unclosed_append, balanced]
  rfl

end Balanced

/-- Where an entry is open whose inside goes on, steps are not balanced. -/
theorem not_balanced_of_entered {before inside : List Step}
    (balanced : Balanced (inside ++ more)) :
    ¬ Balanced (before ++ .enter call arguments text :: inside) := by
  intro whole
  rcases exists_of_unclosed_append whole with ⟨outer, _, entered⟩
  rcases exists_of_unclosed_append balanced with ⟨inner, begun, _⟩
  have stillOpen := unclosed_append_below begun (⟨call, arguments⟩ :: outer)
  rw [unclosed_enter] at entered
  rw [List.nil_append, entered, Option.some.injEq] at stillOpen
  cases inner <;> cases stillOpen

/-- The return that closes an entry is determined. -/
theorem matching_unique {inside inside' after after' : List Step} {leaving leaving' : Call}
    {value value' : Int} {exit exit' : String} (balanced : Balanced inside)
    (balanced' : Balanced inside')
    (same : inside ++ .leave leaving value exit :: after =
      inside' ++ .leave leaving' value' exit' :: after') :
    inside = inside' ∧ Step.leave leaving value exit = .leave leaving' value' exit' ∧
      after = after' := by
  rcases List.append_eq_append_iff.mp same with ⟨between, rfl, tail⟩ | ⟨between, rfl, tail⟩
  · cases between with
    | nil =>
        rcases List.cons.inj tail with ⟨sameStep, sameAfter⟩
        exact ⟨(List.append_nil _).symm, sameStep, sameAfter⟩
    | cons step between =>
        rcases List.cons.inj tail with ⟨rfl, _⟩
        rw [Balanced, balanced.unclosed_append_leave] at balanced'
        cases balanced'
  · cases between with
    | nil =>
        rcases List.cons.inj tail with ⟨sameStep, sameAfter⟩
        exact ⟨List.append_nil _, sameStep.symm, sameAfter.symm⟩
    | cons step between =>
        rcases List.cons.inj tail with ⟨rfl, _⟩
        rw [Balanced, balanced'.unclosed_append_leave] at balanced
        cases balanced

/-! ## Entries and the returns that close them -/

/-- An entry in some steps, and the steps before it. -/
def Enters (steps before : List Step) (opening : Opening) (entry : String) : Prop :=
  ∃ after, steps = before ++ .enter opening.call opening.arguments entry :: after

/-- An entry in some steps and the return that closes it, with the steps in
between. -/
def Closes (steps : List Step) (opening : Opening) (inside : List Step) (leaving : Call)
    (value : Int) (exit : String) : Prop :=
  Balanced inside ∧ ∃ before entry after,
    steps = before ++ .enter opening.call opening.arguments entry ::
      (inside ++ .leave leaving value exit :: after)

/-- A step of a sequence in two parts is in one of them. -/
theorem append_eq_iff_of_step {before after : List Step} {step : Step} :
    steps ++ more = before ++ step :: after ↔
      (∃ between, steps = before ++ step :: between ∧ after = between ++ more) ∨
        ∃ between, before = steps ++ between ∧ more = between ++ step :: after := by
  rw [List.append_eq_append_iff]
  constructor
  · rintro (⟨between, rfl, rfl⟩ | ⟨between, rfl, tail⟩)
    · exact Or.inr ⟨between, rfl, rfl⟩
    · cases between with
      | nil => exact Or.inr ⟨[], by simp, tail.symm⟩
      | cons first between =>
          rcases List.cons.inj tail with ⟨rfl, rfl⟩
          exact Or.inl ⟨between, rfl, rfl⟩
  · rintro (⟨between, rfl, rfl⟩ | ⟨between, rfl, rfl⟩)
    · exact Or.inr ⟨step :: between, rfl, rfl⟩
    · exact Or.inl ⟨between, rfl, rfl⟩

theorem Enters.of_append {before : List Step} {opening : Opening} {entry : String}
    (enters : Enters (steps ++ more) before opening entry) :
    Enters steps before opening entry ∨
      ∃ between, before = steps ++ between ∧ Enters more between opening entry := by
  rcases enters with ⟨after, split⟩
  rcases append_eq_iff_of_step.mp split with ⟨between, inSteps, _⟩ | ⟨between, same, inMore⟩
  · exact Or.inl ⟨between, inSteps⟩
  · exact Or.inr ⟨between, same, after, inMore⟩

namespace Closes

variable {opening : Opening} {inside : List Step} {leaving : Call} {value : Int}
  {exit : String}

/-- An entry in balanced steps is closed in them. -/
theorem of_append (balanced : Balanced steps)
    (closes : Closes (steps ++ more) opening inside leaving value exit) :
    Closes steps opening inside leaving value exit ∨
      Closes more opening inside leaving value exit := by
  rcases closes with ⟨within, before, entry, after, split⟩
  rcases append_eq_iff_of_step.mp split with ⟨rest, inSteps, tail⟩ | ⟨between, _, inMore⟩
  · rcases append_eq_iff_of_step.mp tail.symm with ⟨between, inRest, _⟩ | ⟨between, rfl, _⟩
    · rw [inRest] at inSteps
      exact Or.inl ⟨within, before, entry, between, inSteps⟩
    · rw [inSteps] at balanced
      exact absurd balanced (not_balanced_of_entered within)
  · exact Or.inr ⟨within, between, entry, after, inMore⟩

/-- The first step is closed, or what is closed stands behind it. -/
theorem cases_cons {first : Step}
    (closes : Closes (first :: steps) opening inside leaving value exit) :
    (Balanced inside ∧ (∃ entry, first = .enter opening.call opening.arguments entry) ∧
        ∃ after, steps = inside ++ .leave leaving value exit :: after) ∨
      Closes steps opening inside leaving value exit := by
  rcases closes with ⟨within, before, entry, after, split⟩
  cases before with
  | nil =>
      rcases List.cons.inj split with ⟨sameEntry, tail⟩
      exact Or.inl ⟨within, ⟨entry, sameEntry⟩, after, tail⟩
  | cons other before => exact Or.inr ⟨within, before, entry, after, (List.cons.inj split).2⟩

/-- An entry behind which steps can be read on their own is not closed by them. -/
theorem of_enter (read : unclosed [] steps = some later)
    (closes : Closes (.enter call arguments text :: steps) opening inside leaving value exit) :
    Closes steps opening inside leaving value exit := by
  rcases closes.cases_cons with ⟨within, _, after, rfl⟩ | further
  · rw [within.unclosed_append_leave] at read
    cases read
  · exact further

/-- The last return closes the first entry if everything in between is
balanced. -/
theorem of_enclose {last : Call} {result : Int} {final : String} (balanced : Balanced steps)
    (closes : Closes (.enter call arguments text :: (steps ++ [.leave last result final]))
      opening inside leaving value exit) :
    (opening = ⟨call, arguments⟩ ∧ inside = steps ∧
        Step.leave leaving value exit = .leave last result final) ∨
      Closes steps opening inside leaving value exit := by
  rcases closes.cases_cons with ⟨within, ⟨entry, sameEntry⟩, after, tail⟩ | further
  · cases sameEntry
    rcases matching_unique balanced within tail with ⟨sameInside, sameReturn, _⟩
    exact Or.inl ⟨rfl, sameInside.symm, sameReturn.symm⟩
  · rcases of_append balanced further with inSteps | ⟨_, before, entry, after, split⟩
    · exact Or.inr inSteps
    · rw [List.singleton_eq_append_iff] at split
      simp at split

end Closes

/-- The innermost open entry has balanced steps behind it. -/
theorem exists_entry_of_unclosed {innermost : Opening} {outer : List Opening}
    (read : unclosed [] steps = some (innermost :: outer)) :
    ∃ before entry inside,
      steps = before ++ .enter innermost.call innermost.arguments entry :: inside ∧
        Balanced inside ∧ unclosed [] before = some outer := by
  -- behind a return, the search goes on before the entry that it closes
  induction length : steps.length using Nat.strongRecOn generalizing steps innermost outer with
  | ind _ ih =>
      subst length
      rcases List.eq_nil_or_concat' steps with rfl | ⟨shorter, step, rfl⟩
      · cases read
      rcases exists_of_unclosed_append read with ⟨opened, begun, last⟩
      cases step with
      | enter call arguments text =>
          cases last
          exact ⟨shorter, text, [], rfl, .nil, begun⟩
      | leave call value text =>
          cases opened with
          | nil => cases last
          | cons closed rest =>
              by_cases same : closed.call.name = call.name
              · have left : rest = innermost :: outer := by
                  simpa [unclosed, Step.read, same] using last
                subst left
                rcases ih shorter.length (by simp) begun rfl with
                  ⟨between, entry, inside, rfl, balanced, readBetween⟩
                rcases ih between.length (by simp) readBetween rfl with
                  ⟨before, entry', inside', rfl, balanced', readBefore⟩
                refine ⟨before, entry', inside' ++ .enter closed.call closed.arguments entry ::
                  (inside ++ [.leave call value text]), by simp, ?_, readBefore⟩
                exact balanced'.append (balanced.enclose same)
              · simp [unclosed, Step.read, same] at last

/-- Every return closes an entry. -/
theorem exists_entry_of_return {before after : List Step} {leaving : Call} {value : Int}
    {exit : String}
    (read : unclosed [] (before ++ .leave leaving value exit :: after) = some opened) :
    ∃ (opening : Opening) (entry : String) (outer inside : List Step),
      before = outer ++ .enter opening.call opening.arguments entry :: inside ∧
        Balanced inside := by
  rcases exists_of_unclosed_append read with ⟨opened, begun, rest⟩
  cases opened with
  | nil => cases rest
  | cons innermost others =>
      rcases exists_entry_of_unclosed begun with ⟨outer, entry, inside, split, balanced, _⟩
      exact ⟨innermost, entry, outer, inside, split, balanced⟩

/-! ## Completion -/

/-- Whatever can be read is the beginning of balanced steps: the entries that are
open are closed, innermost first. -/
theorem exists_balanced (read : unclosed [] steps = some opened) :
    ∃ rest, Balanced (steps ++ rest) := by
  suffices closing : ∃ rest, unclosed opened rest = some [] by
    rcases closing with ⟨rest, closed⟩
    exact ⟨rest, unclosed_append_of_eq read closed⟩
  clear read
  induction opened with
  | nil => exact ⟨[], rfl⟩
  | cons innermost outer ih =>
      rcases ih with ⟨rest, closed⟩
      refine ⟨.leave innermost.call 0 "" :: rest, ?_⟩
      simpa [unclosed, Step.read] using closed

end Trace

end Polycalc
