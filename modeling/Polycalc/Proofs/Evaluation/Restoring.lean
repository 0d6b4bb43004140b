import Polycalc.Proofs.Evaluation.Run

/-!
# Live calls are restored

A machine may be asked for the value of an expression, of a call, of a function
at arguments or of the program, again and again.  However an answer ends, with a
value, an error or a fault, the live calls are those of before
(`Request.exists_ends`), whatever was put among them by hand.  Hence requests do
not disturb each other: each of them is answered as on a machine that holds the
same live calls and has noted nothing (`Request.live_restored`).
-/

namespace Polycalc

namespace Program

variable {limits : Limits} {program : Program}

/-- However the evaluation of a call ends, the live calls are those of before. -/
theorem exists_evaluateCall_ends (budget : Nat) (call : Call) (binding : Binding)
    (live : List Expr) :
    ∃ result steps, (program.evaluateCall limits budget call binding).Ends live result steps := by
  rcases exists_run limits program budget live binding call.toExpr with ⟨result, steps, runs⟩
  have ends := runs.ends
  rw [Call.toExpr, Expr.evaluateWith] at ends
  exact ⟨result, steps, ends⟩

/-- The same for a function, which need not be in the program's table. -/
theorem exists_invoke_ends (definition : Definition) (arguments : List Int) (live : List Expr) :
    ∃ result steps, (program.invoke limits definition arguments).Ends live result steps := by
  by_cases fits : arguments.length = definition.arity
  · rcases exists_run limits program limits.liveCalls live
      (Binding.ofArguments definition.parameters arguments) definition.body with
      ⟨result, steps, runs⟩
    exact ⟨result, steps, invokeWith_ends fits runs.ends⟩
  · rw [invoke, Definition.invokeWith, if_neg fits]
    exact ⟨_, _, Eval.Ends.throw live _⟩

end Program

/-- What a machine may be asked for. -/
inductive Request
  /-- the value of an expression -/
  | evaluate (expr : Expr) (binding : Binding)
  /-- the value of a call -/
  | call (called : Call) (binding : Binding)
  /-- the value of a function at arguments -/
  | invoke (definition : Definition) (arguments : List Int)
  /-- the value of the program -/
  | run

namespace Request

/-- The evaluation that a request asks for. -/
def evaluation (limits : Limits) (program : Program) : Request → Eval Int
  | evaluate expr binding => program.evaluate limits binding expr
  | call called binding => program.evaluateCall limits limits.liveCalls called binding
  | invoke definition arguments => program.invoke limits definition arguments
  | run => program.run limits

/-- What a request gives on a machine, and the machine afterwards. -/
def answer (limits : Limits) (program : Program) (request : Request) (machine : Machine) :
    Except Failure Int × Machine :=
  (ExceptT.run (request.evaluation limits program)).run machine

/-- Requests one after the other on one machine.  A request that fails does not
keep the next one from being answered. -/
def answerAll (limits : Limits) (program : Program) :
    List Request → Machine → List (Except Failure Int) × Machine
  | [], machine => ([], machine)
  | request :: rest, machine =>
    let (result, after) := request.answer limits program machine
    let (results, final) := answerAll limits program rest after
    (result :: results, final)

/-- What a request gives on a machine with these live calls that has noted
nothing. -/
def answerAfresh (limits : Limits) (program : Program) (live : List Expr) (request : Request) :
    Except Failure Int × Machine :=
  request.answer limits program ⟨live, #[]⟩

variable (limits : Limits) (program : Program)

/-- However a request ends, the live calls are those of before. -/
theorem exists_ends (request : Request) (live : List Expr) :
    ∃ result steps, (request.evaluation limits program).Ends live result steps := by
  cases request with
  | evaluate expr binding =>
      rcases Program.exists_run limits program limits.liveCalls live binding expr with
        ⟨result, steps, runs⟩
      exact ⟨result, steps, runs.ends⟩
  | call called binding => exact Program.exists_evaluateCall_ends _ called binding live
  | invoke definition arguments => exact Program.exists_invoke_ends definition arguments live
  | run =>
      rw [evaluation, Program.run, Program.invokeNamed]
      cases program.find? entryName with
      | none => exact ⟨_, _, Eval.Ends.throw live _⟩
      | some definition => exact Program.exists_invoke_ends definition [] live

/-- A request is answered as on a machine that has noted nothing. -/
theorem answer_eq (request : Request) (machine : Machine) :
    request.answer limits program machine =
      ((request.answerAfresh limits program machine.live).1,
        ⟨machine.live,
          machine.steps ++ (request.answerAfresh limits program machine.live).2.steps⟩) := by
  rcases request.exists_ends limits program machine.live with ⟨result, steps, ends⟩
  have afresh : request.answerAfresh limits program machine.live =
      (result, ⟨machine.live, steps.toArray⟩) := by
    have ended := ends #[]
    rwa [Array.empty_append] at ended
  rw [afresh]
  exact ends machine.steps

/-- After a request, whether it is answered by a value, an error or a fault, the
live calls are exactly those of before, also if some of them are no calls or are
there more than once.  The program is only read, so of several requests on one
machine each is answered as on a machine that holds those live calls and has
noted nothing, and its steps are noted behind those of the requests before
it. -/
theorem live_restored (machine : Machine) :
    (∀ request : Request, (request.answer limits program machine).2.live = machine.live) ∧
      ∀ requests : List Request,
        answerAll limits program requests machine =
          (requests.map fun request => (request.answerAfresh limits program machine.live).1,
            ⟨machine.live,
              requests.foldl
                (fun steps request =>
                  steps ++ (request.answerAfresh limits program machine.live).2.steps)
                machine.steps⟩) := by
  constructor
  · intro request
    rw [answer_eq]
  · intro requests
    -- The machine that the other requests are put to has the same live calls.
    induction requests generalizing machine with
    | nil => rfl
    | cons request rest ih =>
        rw [answerAll, answer_eq]
        simp only [ih, List.map_cons, List.foldl_cons]

end Request

end Polycalc
