import Polycalc.Diagnostic.Wording
import Polycalc.Evaluation
import Polycalc.Program.Validation

/-!
# Outcomes

Running a text has one of four outcomes: it is evaluated, it is no program, it
would never end, or its evaluation fails.  Only a fault is none of them.
-/

namespace Polycalc

/-- How running a text ends. -/
inductive Outcome
  | evaluated (value : Int)
  | parseFailed (error : SourceError)
  | diverged (call : Call) (text : String)
  | evaluationFailed (error : EvalError)
  deriving Repr

namespace Outcome

/-- The exit status that tells of an outcome. -/
def status : Outcome → Int
  | evaluated _ => 0
  | parseFailed _ => 1
  | diverged _ _ => 2
  | evaluationFailed _ => 3

/-- What is said about an outcome other than a value. -/
def diagnostic? : Outcome → Option Diagnostic
  | evaluated _ => none
  | parseFailed error => some error.diagnostic
  | diverged call text => some (divergenceDiagnostic call text)
  | evaluationFailed error => some error.diagnostic

/-- The outcome that a value or a failure amounts to. -/
def ofResult : Except Failure Int → Except Fault Outcome
  | .ok value => .ok (evaluated value)
  | .error (.source error) => .ok (parseFailed error)
  | .error (.evaluation (.diverges call text)) => .ok (diverged call text)
  | .error (.evaluation error) => .ok (evaluationFailed error)
  | .error (.fault fault) => .error fault

end Outcome

namespace Eval

/-- Run an evaluation on a new machine. -/
def onNewMachine {α : Type} (evaluation : Eval α) : Except Failure α × Machine :=
  (ExceptT.run evaluation).run {}

end Eval

namespace Program

/-- The outcome of validating and evaluating a program, and the steps of the
evaluation. -/
def outcome (limits : Limits) (program : Program) : Except Fault Outcome × Array Step :=
  match program.validate limits with
  | .error failure => (Outcome.ofResult (.error failure), #[])
  | .ok () =>
    let (result, machine) := (program.run limits).onNewMachine
    (Outcome.ofResult result, machine.steps)

/-- The outcome of running a text, and the steps of the evaluation. -/
def outcomeOfText (settings : Settings) (text : String) :
    Except Fault Outcome × Array Step :=
  match Program.parse settings text with
  | .error failure => (Outcome.ofResult (.error failure), #[])
  | .ok program => program.outcome settings.limits

end Program

end Polycalc
