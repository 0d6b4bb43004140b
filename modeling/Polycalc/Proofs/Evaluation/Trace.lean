import Polycalc.Proofs.Evaluation.FewerLive
import Polycalc.Proofs.Evaluation.Openings

/-!
# What the steps of an evaluation tell

The steps of an evaluation are true in two ways.  An entry shows the values of
the arguments of a call that stands where evaluation is, and the steps of those
arguments come right before it (`Program.EntersTruly`).  An entry and the return
that closes it belong to one call, the number of arguments is that of the
function, and the value is that of its body where each parameter is bound to the
argument at its last occurrence (`Program.ReturnsTruly`).

Both hold for every run, whatever it ends with (`Program.Runs.traced`), and the
steps of a run that returns a value are balanced.
-/

namespace Polycalc

/-! ## Bindings -/

/-- Each parameter is bound to the argument at its last occurrence, and nothing
else is bound. -/
def Binding.BindsLast (binding : Binding) (parameters : List String) (arguments : List Int) :
    Prop :=
  ∀ name value, binding.lookup name = some value ↔
    ∃ before after, parameters.zip arguments = before ++ (name, value) :: after ∧
      name ∉ after.map Prod.fst

theorem Binding.ofArguments_bindsLast (parameters : List String) (arguments : List Int) :
    (Binding.ofArguments parameters arguments).BindsLast parameters arguments := by
  intro name value
  rw [ofArguments, List.lookup_eq_some_iff]
  constructor
  · rintro ⟨later, earlier, split, fresh⟩
    refine ⟨earlier.reverse, later.reverse, ?_, ?_⟩
    · rw [← List.reverse_reverse (parameters.zip arguments), split]
      simp
    · rw [List.map_reverse, List.mem_reverse, List.mem_map]
      rintro ⟨pair, member, rfl⟩
      simpa using fresh pair member
  · rintro ⟨before, after, split, fresh⟩
    refine ⟨after.reverse, before.reverse, ?_, ?_⟩
    · rw [split]
      simp
    · intro pair member
      rw [List.mem_reverse] at member
      rw [bne_iff_ne]
      rintro rfl
      exact fresh (List.mem_map_of_mem member)

namespace Program

open Trace

variable {limits : Limits} {program : Program} {binding : Binding} {calls : List Call}
  {steps more : List Step} {opened later : List Opening}

/-! ## Truth -/

/-- The binding and the calls among which evaluation is when some entries are
open: outside of all, or in the body of the function that was entered last. -/
inductive Within (program : Program) (binding : Binding) (calls : List Call) :
    List Opening → Binding → List Call → Prop
  | outside : Within program binding calls [] binding calls
  | body {innermost : Opening} {outer : List Opening} {callee : Definition}
      (found : program.find? innermost.call.name = some callee) :
      Within program binding calls (innermost :: outer)
        (.ofArguments callee.parameters innermost.arguments) callee.body.calls

/-- An entry is of a call that stands where evaluation is, and behind the steps
of the arguments of that call; it shows their values. -/
def EntersTruly (limits : Limits) (program : Program) (binding : Binding) (calls : List Call)
    (before : List Step) (opening : Opening) (entry : String) : Prop :=
  ∃ earlier own opened inner innerCalls,
    before = earlier ++ own ∧ unclosed [] earlier = some opened ∧
      program.Within binding calls opened inner innerCalls ∧ opening.call ∈ innerCalls ∧
      (opening.call.arguments.mapM (program.evaluate limits inner)).Ends []
        (.ok opening.arguments) own ∧
      opening.call.entryText limits opening.arguments = .ok entry

/-- A return is of the call whose entry it closes, with the value and the steps
of the body of the function, which takes as many arguments as were given. -/
def ReturnsTruly (limits : Limits) (program : Program) (opening : Opening)
    (inside : List Step) (leaving : Call) (value : Int) (exit : String) : Prop :=
  leaving = opening.call ∧ leaving.exitText limits value = .ok exit ∧
    ∃ callee bound, program.find? opening.call.name = some callee ∧
      opening.arguments.length = callee.arity ∧
      bound.BindsLast callee.parameters opening.arguments ∧
      (program.evaluate limits bound callee.body).Ends [] (.ok value) inside

/-- Steps that tell the truth and after which these entries are open. -/
structure Traced (limits : Limits) (program : Program) (binding : Binding) (calls : List Call)
    (steps : List Step) (opened : List Opening) : Prop where
  read : unclosed [] steps = some opened
  enters : ∀ before opening entry, Enters steps before opening entry →
    program.EntersTruly limits binding calls before opening entry
  returns : ∀ opening inside leaving value exit,
    Closes steps opening inside leaving value exit →
    program.ReturnsTruly limits opening inside leaving value exit

/-- What is inside of an entry is inside of it also where more is open. -/
theorem Within.under {arguments : List Int} {call : Call} {callee : Definition}
    {inner : Binding} {innerCalls : List Call}
    (within : program.Within (.ofArguments callee.parameters arguments) callee.body.calls opened
      inner innerCalls)
    (found : program.find? call.name = some callee) :
    program.Within binding calls (opened ++ [⟨call, arguments⟩]) inner innerCalls := by
  cases within with
  | outside => exact .body found
  | body found => exact .body found

namespace Traced

theorem nil : Traced limits program binding calls [] [] where
  read := rfl
  enters := by
    rintro before opening entry ⟨after, split⟩
    simp at split
  returns := by
    rintro opening inside leaving value exit ⟨_, before, entry, after, split⟩
    simp at split

/-- Evaluation goes on where nothing is open. -/
theorem append (first : Traced limits program binding calls steps [])
    (second : Traced limits program binding calls more opened) :
    Traced limits program binding calls (steps ++ more) opened where
  read := unclosed_append_of_eq first.read second.read
  enters := by
    intro before opening entry enters
    rcases enters.of_append with inSteps | ⟨between, rfl, inMore⟩
    · exact first.enters _ _ _ inSteps
    · rcases second.enters _ _ _ inMore with
        ⟨earlier, own, opened, inner, innerCalls, rfl, read, rest⟩
      exact ⟨steps ++ earlier, own, opened, inner, innerCalls, (List.append_assoc _ _ _).symm,
        unclosed_append_of_eq first.read read, rest⟩
  returns := by
    intro opening inside leaving value exit closes
    rcases closes.of_append first.read with inSteps | inMore
    · exact first.returns _ _ _ _ _ inSteps
    · exact second.returns _ _ _ _ _ inMore

/-- The entry of a call behind the steps of its arguments, and what was noted in
the body of the function. -/
theorem enter {call : Call} {arguments : List Int} {entry : String} {callee : Definition}
    (given : Traced limits program binding calls steps []) (among : call ∈ calls)
    (values : (call.arguments.mapM (program.evaluate limits binding)).Ends [] (.ok arguments)
      steps)
    (written : call.entryText limits arguments = .ok entry)
    (found : program.find? call.name = some callee)
    (body : Traced limits program (.ofArguments callee.parameters arguments) callee.body.calls
      more opened) :
    Traced limits program binding calls (steps ++ .enter call arguments entry :: more)
      (opened ++ [⟨call, arguments⟩]) where
  read := by
    apply unclosed_append_of_eq given.read
    rw [unclosed_enter]
    exact unclosed_append_below body.read [⟨call, arguments⟩]
  enters := by
    intro before opening entry' enters
    rcases enters.of_append with inSteps | ⟨between, rfl, after, split⟩
    · exact given.enters _ _ _ inSteps
    · cases between with
      | nil =>
          cases split
          exact ⟨[], steps, [], binding, calls, List.append_nil _, rfl, .outside, among, values,
            written⟩
      | cons first between =>
          rcases List.cons.inj split with ⟨rfl, inBody⟩
          rcases body.enters _ _ _ ⟨after, inBody⟩ with
            ⟨earlier, own, opened, inner, innerCalls, rfl, read, within, rest⟩
          refine ⟨steps ++ .enter call arguments entry :: earlier, own, _, inner, innerCalls,
            by simp, ?_, within.under found, rest⟩
          apply unclosed_append_of_eq given.read
          rw [unclosed_enter]
          exact unclosed_append_below read [⟨call, arguments⟩]
  returns := by
    intro opening inside leaving value exit closes
    rcases closes.of_append given.read with inSteps | inMore
    · exact given.returns _ _ _ _ _ inSteps
    · exact body.returns _ _ _ _ _ (inMore.of_enter body.read)

/-- The return of a call whose function has returned a value. -/
theorem leave {call : Call} {arguments : List Int} {entry exit : String} {callee : Definition}
    {value : Int} (given : Traced limits program binding calls steps [])
    (among : call ∈ calls)
    (values : (call.arguments.mapM (program.evaluate limits binding)).Ends [] (.ok arguments)
      steps)
    (written : call.entryText limits arguments = .ok entry)
    (found : program.find? call.name = some callee) (fits : arguments.length = callee.arity)
    (body : Traced limits program (.ofArguments callee.parameters arguments) callee.body.calls
      more [])
    (returned : (program.evaluate limits (.ofArguments callee.parameters arguments)
      callee.body).Ends [] (.ok value) more)
    (leaving : call.exitText limits value = .ok exit) :
    Traced limits program binding calls
      (steps ++ .enter call arguments entry :: (more ++ [.leave call value exit])) [] where
  read := unclosed_append_of_eq given.read (Balanced.enclose body.read rfl)
  enters := by
    intro before opening entry' enters
    rw [← List.cons_append, ← List.append_assoc] at enters
    rcases enters.of_append with inside | ⟨between, _, after, split⟩
    · exact (given.enter among values written found body).enters _ _ _ inside
    · rw [List.singleton_eq_append_iff] at split
      simp at split
  returns := by
    intro opening inside other value' exit' closes
    rcases closes.of_append given.read with inSteps | inMore
    · exact given.returns _ _ _ _ _ inSteps
    · rcases inMore.of_enclose body.read with ⟨rfl, rfl, sameReturn⟩ | inBody
      · cases sameReturn
        exact ⟨rfl, leaving, callee, _, found, fits, Binding.ofArguments_bindsLast _ _, returned⟩
      · exact body.returns _ _ _ _ _ inBody

end Traced

/-! ## Runs -/

theorem calls_arguments_subset {call : Call} (among : call.toExpr.calls ⊆ calls) :
    ∀ argument ∈ call.arguments, argument.calls ⊆ calls :=
  fun _ given => List.Subset.trans (Call.calls_argument_subset given) among

/-- The steps of a run tell the truth, and nothing is open when a value is
returned. -/
theorem Runs.traced {budget : Nat} {live : List Expr} {expr : Expr}
    {result : Except Failure Int}
    (runs : Runs limits program budget live binding expr result steps)
    (le : budget ≤ limits.liveCalls) (among : expr.calls ⊆ calls) :
    ∃ opened, Traced limits program binding calls steps opened ∧
      ∀ value, result = .ok value → opened = [] := by
  induction runs using @Runs.rec limits program _
    (fun budget _ binding exprs result steps _ => ∀ calls, budget ≤ limits.liveCalls →
      (∀ expr ∈ exprs, expr.calls ⊆ calls) →
      ∃ opened, Traced limits program binding calls steps opened ∧
        ∀ values, result = .ok values → opened = [])
    (fun budget _ binding call result steps _ => ∀ calls, budget ≤ limits.liveCalls →
      call.toExpr.calls ⊆ calls →
      ∃ opened, Traced limits program binding calls steps opened ∧
        ∀ value, result = .ok value → opened = [])
    generalizing calls with
  | number => exact ⟨[], .nil, by simp⟩
  | parameter _ => exact ⟨[], .nil, by simp⟩
  | unbound _ => exact ⟨[], .nil, by simp⟩
  | call _ ih => exact ih calls le among
  | chain _ ih =>
      rcases ih calls le (fun operand inChain =>
        List.Subset.trans (Expr.calls_operands_subset inChain) among) with ⟨opened, traced, closed⟩
      exact ⟨opened, traced, fun _ _ => closed _ rfl⟩
  | operandFails _ ih =>
      rcases ih calls le (fun operand inChain =>
        List.Subset.trans (Expr.calls_operands_subset inChain) among) with ⟨opened, traced, _⟩
      exact ⟨opened, traced, by simp⟩
  | foreign => exact ⟨[], .nil, by simp⟩
  | nil => exact ⟨[], .nil, by simp⟩
  | cons _ _ firstIh othersIh calls le among =>
      rw [List.forall_mem_cons] at among
      rcases firstIh le among.1 with ⟨_, first, closed⟩
      rcases othersIh calls le among.2 with ⟨opened, others, othersClosed⟩
      rw [closed _ rfl] at first
      exact ⟨opened, first.append others, fun _ _ => othersClosed _ rfl⟩
  | firstFails _ ih calls le among =>
      rw [List.forall_mem_cons] at among
      rcases ih le among.1 with ⟨opened, first, _⟩
      exact ⟨opened, first, by simp⟩
  | laterFails _ _ firstIh othersIh calls le among =>
      rw [List.forall_mem_cons] at among
      rcases firstIh le among.1 with ⟨_, first, closed⟩
      rcases othersIh calls le among.2 with ⟨opened, others, _⟩
      rw [closed _ rfl] at first
      exact ⟨opened, first.append others, by simp⟩
  | reentered _ => exact ⟨[], .nil, by simp⟩
  | exhausted _ => exact ⟨[], .nil, by simp⟩
  | argumentFails _ _ ih calls le among =>
      rcases ih calls (by omega) (calls_arguments_subset among) with ⟨opened, given, _⟩
      exact ⟨opened, given, by simp⟩
  | unknownFunction _ _ _ ih calls le among =>
      rcases ih calls (by omega) (calls_arguments_subset among) with ⟨opened, given, _⟩
      exact ⟨opened, given, by simp⟩
  | entryFault _ _ _ _ ih calls le among =>
      rcases ih calls (by omega) (calls_arguments_subset among) with ⟨opened, given, _⟩
      exact ⟨opened, given, by simp⟩
  | wrongArgumentCount _ given found written _ ih calls le among =>
      have le := Nat.le_of_succ_le le
      rcases ih calls le (calls_arguments_subset among) with ⟨_, arguments, closed⟩
      rw [closed _ rfl] at arguments
      exact ⟨_, arguments.enter (among (Call.self_mem_calls _)) (given.ends_fromEmpty le) written
        found .nil, by simp⟩
  | bodyFails _ given found written _ _ ih bodyIh calls le among =>
      have le := Nat.le_of_succ_le le
      rcases ih calls le (calls_arguments_subset among) with ⟨_, arguments, closed⟩
      rcases bodyIh le (List.Subset.refl _) with ⟨opened, body, _⟩
      rw [closed _ rfl] at arguments
      exact ⟨_, arguments.enter (among (Call.self_mem_calls _)) (given.ends_fromEmpty le) written
        found body, by simp⟩
  | exitFault _ given found written _ _ _ ih bodyIh calls le among =>
      have le := Nat.le_of_succ_le le
      rcases ih calls le (calls_arguments_subset among) with ⟨_, arguments, closed⟩
      rcases bodyIh le (List.Subset.refl _) with ⟨opened, body, _⟩
      rw [closed _ rfl] at arguments
      exact ⟨_, arguments.enter (among (Call.self_mem_calls _)) (given.ends_fromEmpty le) written
        found body, by simp⟩
  | returns _ given found written fits body leaving ih bodyIh calls le among =>
      have le := Nat.le_of_succ_le le
      rcases ih calls le (calls_arguments_subset among) with ⟨_, arguments, closed⟩
      rcases bodyIh le (List.Subset.refl _) with ⟨_, inBody, bodyClosed⟩
      rw [closed _ rfl] at arguments
      rw [bodyClosed _ rfl] at inBody
      exact ⟨[], arguments.leave (among (Call.self_mem_calls _)) (given.ends_fromEmpty le) written
        found fits inBody (body.ends_fromEmpty le) leaving, fun _ _ => rfl⟩

end Program

end Polycalc
