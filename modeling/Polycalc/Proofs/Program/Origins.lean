import Polycalc.Proofs.Program.Reading

/-!
# Where expressions come from

What is read stems from the tokens of the text: a number has the value of the
digits of a token and its position, a parameter and a call have the name and the
position of one, and a sum or a product stands where its left operand does
(`Expr.ReadFrom`).  So whatever holds of the tokens on a path is known of the
bodies of the definitions that are completed there
(`ProgramReader.Path.readFrom`) and of the calls that are registered
(`Program.calls_readFrom`).
-/

namespace Polycalc

/-! ## Expressions -/

/-- One of the tokens names a function at a position. -/
def NamedBy (tokens : Token → Prop) (name : String) (position : Position) : Prop :=
  ∃ lexeme : Lexeme, lexeme.callee? = some name ∧ tokens ⟨lexeme, position⟩

namespace Expr

/-- A part that one of the tokens gave. -/
def PartFrom (tokens : Token → Prop) : Expr → Prop
  | number value position =>
    ∃ digits, tokens ⟨.number digits, position⟩ ∧ value = Text.Numeral.value digits
  | parameter name position => tokens ⟨.parameter name, position⟩
  | call _ name _ position => NamedBy tokens name position
  | binary _ left _ position => position = left.position
  | foreign _ _ => False

/-- An expression all of whose parts the tokens gave. -/
def ReadFrom (tokens : Token → Prop) (expr : Expr) : Prop :=
  ∀ part ∈ expr.parts, PartFrom tokens part

namespace ReadFrom

variable {tokens : Token → Prop}

theorem number {digits : String} {position : Position}
    (token : tokens ⟨.number digits, position⟩) :
    ReadFrom tokens (.number (Text.Numeral.value digits) position) := by
  rw [ReadFrom, parts_number, List.forall_mem_singleton]
  exact ⟨digits, token, rfl⟩

theorem parameter {name : String} {position : Position}
    (token : tokens ⟨.parameter name, position⟩) :
    ReadFrom tokens (.parameter name position) := by
  rw [ReadFrom, parts_parameter, List.forall_mem_singleton]
  exact token

theorem join {left right : Expr} (leftRead : ReadFrom tokens left)
    (rightRead : ReadFrom tokens right) (operator : Operator) :
    ReadFrom tokens (Expr.join operator left right) :=
  forall_mem_parts_binary_iff.mpr ⟨leftRead, rightRead, rfl⟩

theorem call {name : String} {arguments : List Expr} {position : Position}
    (named : NamedBy tokens name position)
    (argumentsRead : ∀ argument ∈ arguments, ReadFrom tokens argument) (site : Site) :
    ReadFrom tokens (.call site name arguments position) :=
  forall_mem_parts_call_iff.mpr ⟨argumentsRead, named⟩

theorem genuine {expr : Expr} (read : ReadFrom tokens expr) : expr.Genuine :=
  fun kind shown member => read (.foreign kind shown) member

theorem of_mem_calls {expr : Expr} (read : ReadFrom tokens expr) {call : Call}
    (member : call ∈ expr.calls) : call.toExpr.ReadFrom tokens :=
  fun part inCall => read part ((parts_within expr (mem_calls_iff.mp member)).subset inCall)

end ReadFrom

end Expr

/-! ## Readers of expressions -/

variable {tokens : Token → Prop}

/-- What an open call holds comes from the tokens. -/
structure OpenCall.ReadFrom (tokens : Token → Prop) (call : OpenCall) : Prop where
  named : NamedBy tokens call.name call.position
  arguments : ∀ argument ∈ call.arguments, argument.ReadFrom tokens
  outer : ∀ expr ∈ call.outer.held, expr.ReadFrom tokens

/-- What is expected next comes after these tokens. -/
def Awaiting.ReadFrom (tokens : Token → Prop) : Awaiting → Prop
  | .parenthesis name position => NamedBy tokens name position
  | .continuation read => read.ReadFrom tokens
  | _ => True

/-- What a reader holds comes from the tokens. -/
structure ExprReader.ReadFrom (tokens : Token → Prop) (reader : ExprReader) : Prop where
  stack : ∀ call ∈ reader.stack, call.ReadFrom tokens
  pending : ∀ expr ∈ reader.pending.held, expr.ReadFrom tokens
  awaiting : reader.awaiting.ReadFrom tokens

namespace Pending

variable {pending : Pending} {operand : Expr}

theorem readFrom_closeProduct (waiting : ∀ expr ∈ pending.held, expr.ReadFrom tokens)
    (last : operand.ReadFrom tokens) : (pending.closeProduct operand).ReadFrom tokens :=
  closeProduct_of_join (fun operator _ _ left right => left.join right operator) waiting last

theorem readFrom_closeSum (waiting : ∀ expr ∈ pending.held, expr.ReadFrom tokens)
    (last : operand.ReadFrom tokens) : (pending.closeSum operand).ReadFrom tokens :=
  closeSum_of_join (fun operator _ _ left right => left.join right operator) waiting last

end Pending

namespace ExprReader.ReadFrom

variable {settings : Settings} {scope : List String} {reader reader' : ExprReader}
  {token : Token}

theorem start (calls : List Call) : (ExprReader.start calls).ReadFrom tokens where
  stack := by simp [ExprReader.start]
  pending := by simp [ExprReader.start]
  awaiting := trivial

/-- A call is completed. -/
theorem closeCall {innermost : OpenCall} {outer : List OpenCall} {arguments : List Expr}
    (opened : ∀ call ∈ innermost :: outer, call.ReadFrom tokens)
    (each : ∀ argument ∈ arguments, argument.ReadFrom tokens) :
    (reader.closeCall innermost outer arguments).ReadFrom tokens := by
  rw [List.forall_mem_cons] at opened
  constructor
  · exact opened.2
  · exact opened.1.outer
  · exact .call opened.1.named each _

/-- A token that is read adds nothing that does not come from it. -/
theorem step (readFrom : reader.ReadFrom tokens) (here : tokens token)
    (reads : Reads settings scope reader token reader') : reader'.ReadFrom tokens := by
  rcases readFrom with ⟨stack, pending, awaiting⟩
  cases reads with
  | number _ => exact ⟨stack, pending, .number here⟩
  | parameter _ _ => exact ⟨stack, pending, .parameter here⟩
  | name _ names => exact ⟨stack, pending, _, names, here⟩
  | openParen _ =>
      constructor
      · rw [List.forall_mem_cons]
        exact ⟨⟨awaiting, by simp, pending⟩, stack⟩
      · simp
      · trivial
  | plus =>
      constructor
      · exact stack
      · rw [Pending.held_plus, List.forall_mem_singleton]
        exact Pending.readFrom_closeSum pending awaiting
      · trivial
  | times =>
      have waiting := pending
      simp only [Pending.held, List.forall_mem_append] at waiting
      constructor
      · exact stack
      · rw [Pending.held_times, List.forall_mem_append, List.forall_mem_singleton]
        exact ⟨waiting.1, Pending.readFrom_closeProduct pending awaiting⟩
      · trivial
  | space =>
      rw [List.forall_mem_cons] at stack
      rcases stack with ⟨⟨named, arguments, outer⟩, others⟩
      constructor
      · rw [List.forall_mem_cons]
        refine ⟨⟨named, ?_, outer⟩, others⟩
        rw [List.forall_mem_append, List.forall_mem_singleton]
        exact ⟨arguments, Pending.readFrom_closeSum pending awaiting⟩
      · simp
      · trivial
  | closeParen =>
      apply closeCall stack
      rw [List.forall_mem_append, List.forall_mem_singleton]
      exact ⟨(stack _ List.mem_cons_self).arguments, Pending.readFrom_closeSum pending awaiting⟩
  | closeEmpty => exact closeCall stack (by simp)

theorem finished {next : Lexeme} {expr : Expr} (readFrom : reader.ReadFrom tokens)
    (finished : reader.finished? next = some expr) : expr.ReadFrom tokens := by
  rcases exists_of_finished?_eq_some finished with ⟨pending, operand, calls, rfl, rfl⟩
  exact Pending.readFrom_closeSum readFrom.pending readFrom.awaiting

end ExprReader.ReadFrom

/-! ## Readers of programs -/

/-- What has been read of a body comes from the tokens. -/
def Phase.ReadFrom (tokens : Token → Prop) : Phase → Prop
  | .body _ reader => reader.ReadFrom tokens
  | .bodyEnd _ expr | .closed _ expr | .statementEnd _ expr => expr.ReadFrom tokens
  | _ => True

theorem Phase.ReadFrom.step {settings : Settings} {reader reader' : ProgramReader}
    {token : Token} (readFrom : reader.phase.ReadFrom tokens) (here : tokens token)
    (reads : ProgramReader.Reads settings reader token reader') :
    reader'.phase.ReadFrom tokens ∧
      ∀ definition ∈ reader.completed token, definition.body.ReadFrom tokens := by
  cases reads with
  | braceSpace => exact ⟨.start _, by simp [ProgramReader.completed]⟩
  | body _ reads =>
      exact ⟨ExprReader.ReadFrom.step readFrom here reads, by simp [ProgramReader.completed]⟩
  | bodySpace finished =>
      exact ⟨ExprReader.ReadFrom.finished readFrom finished, by simp [ProgramReader.completed]⟩
  | closeBrace => exact ⟨readFrom, by simp [ProgramReader.completed]⟩
  | closedSpace => exact ⟨readFrom, by simp [ProgramReader.completed]⟩
  | endOfStatement =>
      constructor
      · trivial
      · rw [ProgramReader.completed, List.forall_mem_singleton]
        exact readFrom
  | _ => exact ⟨trivial, by simp [ProgramReader.completed]⟩

/-! ## Places of a text -/

namespace Cursor

/-- The token stands at a place that is reached from the cursor, and if it is a
number, it is not too long. -/
def Meets (limits : Limits) (cursor : Cursor) (token : Token) : Prop :=
  token.checkDigits limits = .ok () ∧
    ∃ here after, cursor.Reaches here ∧ here.rest ≠ [] ∧ here.next = .ok (token, after)

theorem Meets.head {limits : Limits} {cursor after : Cursor} {token : Token}
    (advances : cursor.Advances after) (meets : after.Meets limits token) :
    cursor.Meets limits token := by
  rcases meets with ⟨short, here, next, reaches, found⟩
  exact ⟨short, here, next, reaches.head advances, found⟩

end Cursor

variable {settings : Settings}

namespace ProgramReader

/-- The tokens on a path give the bodies of the definitions that it
completes. -/
theorem Path.readFrom {cursor final : Cursor} {reader last : ProgramReader}
    {definitions : List Definition}
    (path : Path settings cursor reader definitions final last)
    (readFrom : reader.phase.ReadFrom tokens)
    (met : ∀ token, cursor.Meets settings.limits token → tokens token) :
    ∀ definition ∈ definitions, definition.body.ReadFrom tokens := by
  induction path with
  | refl => simp
  | step more next short reads _ ih =>
      have here := met _ ⟨short, _, _, .refl, more, next⟩
      rcases readFrom.step here reads with ⟨readFrom', completes⟩
      rw [List.forall_mem_append]
      constructor
      · exact completes
      · apply ih readFrom'
        intro token meets
        exact met token (meets.head ⟨more, _, next⟩)

end ProgramReader

namespace Program

variable {text : String} {program : Program}

/-- The calls that are registered, those in replaced definitions too, come from
the tokens of the text. -/
theorem calls_readFrom (parsed : Program.parse settings text = .ok program) :
    ∀ call ∈ program.calls,
      call.toExpr.ReadFrom ((Cursor.start text).Meets settings.limits) := by
  obtain ⟨definitions, final, last, path, _, complete, rfl⟩ := Program.parse_eq_ok_iff.mp parsed
  have bodies := path.readFrom trivial fun _ meets => meets
  rw [(path.program_eq complete).1]
  intro call member
  rcases List.mem_flatMap.mp member with ⟨definition, inText, inBody⟩
  exact (bodies definition inText).of_mem_calls inBody

end Program

end Polycalc
