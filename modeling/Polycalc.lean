import Polycalc.Main
import Polycalc.Diagnostic.Template
import Polycalc.Proofs.Evaluation.Transparency
import Polycalc.Proofs.Evaluation.Recursion
import Polycalc.Proofs.Grammar.Acceptance
import Polycalc.Proofs.Grammar.Normal
import Polycalc.Proofs.Grammar.Printing
import Polycalc.Proofs.Evaluation.Places
import Polycalc.Proofs.Program.Reprinting
import Polycalc.Proofs.Evaluation.LivePath
import Polycalc.Proofs.Expr.Moving
import Polycalc.Proofs.Program.Moving
import Polycalc.Proofs.Program.Concatenation
import Polycalc.Proofs.Program.Origins
import Polycalc.Proofs.Evaluation.Numerals
import Polycalc.Proofs.Program.Numerals
import Polycalc.Proofs.Evaluation.Lockstep
import Polycalc.Proofs.Program.Replacement
import Polycalc.Proofs.Diagnostic.Lines
import Polycalc.Proofs.Diagnostic.Places
import Polycalc.Proofs.Diagnostic.Excerpt
import Polycalc.Proofs.CommandLine.Agreement
import Polycalc.Proofs.Program.Pieces
import Polycalc.Proofs.Shell.Reactions
import Polycalc.Proofs.Shell.Session
import Polycalc.Proofs.Shell.Returning
import Polycalc.Proofs.Token.LineEnds
import Polycalc.Proofs.Program.LineEnds
import Polycalc.Proofs.CommandLine.LineEnds
import Polycalc.Proofs.Evaluation.ControlFlow
import Polycalc.Proofs.Evaluation.Restoring
import Polycalc.Proofs.Evaluation.Sides
import Polycalc.Proofs.Evaluation.FewerLive
import Polycalc.Proofs.Evaluation.Openings
import Polycalc.Proofs.Evaluation.Trace
import Polycalc.Proofs.Evaluation.FailurePoint
import Polycalc.Proofs.Evaluation.WellBracketed
import Polycalc.Proofs.Text.Brackets
import Polycalc.Proofs.Expr.Unambiguous
import Polycalc.Proofs.Program.Completion
import Polycalc.Proofs.Program.Widening
import Polycalc.Proofs.Token.Offsets
import Polycalc.Proofs.Token.Offences
import Polycalc.Proofs.Token.Exact
import Polycalc.Proofs.Program.Beginnings
import Polycalc.Proofs.Program.DeadEnds
import Polycalc.Proofs.Program.CorrectPrefix
import Polycalc.Proofs.Program.Registry
import Polycalc.Proofs.Diagnostic.Underlined
import Polycalc.Proofs.Diagnostic.WholeLine
import Polycalc.Proofs.Diagnostic.Templates
import Polycalc.Proofs.Program.Numbering
import Polycalc.Proofs.CommandLine.Warnings
