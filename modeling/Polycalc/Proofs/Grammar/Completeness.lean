import Polycalc.Proofs.Grammar.Spelling

/-!
# Expressions of the grammar are read

A text with a derivation is read, whatever follows it that does not begin with
a letter or digit, and what is read has the derived tree (`sumIsRead_of_isSum`).
There is one lemma for every rule of the grammar; each says which tokens the
rule adds and what the reader holds after them.
-/

namespace Polycalc

open Grammar

/-! ## Tokens at a place -/

theorem Lexeme.Formed.text_ne_nil {lexeme : Lexeme} (formed : lexeme.Formed)
    (isText : lexeme ≠ .endOfInput) : lexeme.text.toList ≠ [] := by
  cases lexeme with
  | function name => exact formed.1.1.1
  | parameter name => exact formed.1
  | number digits => exact formed.1
  | endOfStatement carriageReturn => cases carriageReturn <;> simp [text]
  | endOfInput => exact absurd rfl isText
  | _ => simp [text, entryName]

/-- A lexeme at a place that does not go on is the next token. -/
theorem Cursor.next_of_endsAt {cursor : Cursor} (lexeme : Lexeme) {rest : List Char}
    (here : cursor.rest = lexeme.text.toList ++ rest) (formed : lexeme.Formed)
    (isText : lexeme ≠ .endOfInput) (ends : lexeme.EndsAt rest) :
    cursor.rest ≠ [] ∧ ∃ after, cursor.next = .ok (⟨lexeme, cursor.position⟩, after) ∧
      after.rest = rest := by
  constructor
  · rw [here]
    exact List.append_ne_nil_of_left_ne_nil (formed.text_ne_nil isText) rest
  · refine ⟨⟨rest, cursor.offset + lexeme.length, lexeme.after cursor.position⟩, ?_, rfl⟩
    rw [Cursor.next, here, Lexeme.scan_of_endsAt formed isText ends]

/-- So is one that is apart from what follows it. -/
theorem Cursor.next_complete {cursor : Cursor} (lexeme : Lexeme) {rest : List Char}
    (here : cursor.rest = lexeme.text.toList ++ rest) (formed : lexeme.Formed)
    (isText : lexeme ≠ .endOfInput) (apart : lexeme.IsWord → Apart rest) :
    cursor.rest ≠ [] ∧ ∃ after, cursor.next = .ok (⟨lexeme, cursor.position⟩, after) ∧
      after.rest = rest :=
  next_of_endsAt lexeme here formed isText (Lexeme.endsAt_of_apart apart)

/-- A function name is a word that may be called. -/
theorem Lexeme.ofCapitals_of_isFunctionName {name : String} (isName : IsFunctionName name) :
    ∃ lexeme : Lexeme, lexeme.callee? = some name ∧ lexeme.text = name ∧ lexeme.Formed ∧
      lexeme ≠ .endOfInput := by
  by_cases isEntry : name = entryName
  · subst isEntry
    exact ⟨.entry, rfl, rfl, trivial, by simp⟩
  · exact ⟨.function name, rfl, rfl, ⟨isName, isEntry⟩, by simp⟩

theorem apart_nil : Apart [] := by
  intro c member
  cases member

theorem apart_cons {c : Char} {rest : List Char}
    (symbol : c.isUpper = false ∧ c.isLower = false ∧ c.isDigit = false) : Apart (c :: rest) := by
  intro first isFirst
  cases isFirst
  exact symbol

namespace ExprReader

/-- A token takes a reader and the place where it reads further. -/
def Advances (settings : Settings) (scope : List String) (before after : Cursor × ExprReader) :
    Prop :=
  ∃ token, before.1.rest ≠ [] ∧ before.1.next = .ok (token, after.1) ∧
    token.checkDigits settings.limits = .ok () ∧ before.2.finished? token.lexeme = none ∧
    Reads settings scope before.2 token after.2

/-- `Reaches settings scope cursor reader rest reader'`: the tokens up to the
rest of the text take the reader from one state to the other. -/
def Reaches (settings : Settings) (scope : List String) (cursor : Cursor) (reader : ExprReader)
    (rest : List Char) (reader' : ExprReader) : Prop :=
  ∃ after, after.rest = rest ∧
    Relation.ReflTransGen (Advances settings scope) (cursor, reader) (after, reader')

variable {settings : Settings} {scope : List String} {cursor : Cursor}
  {reader between reader' : ExprReader} {rest : List Char}

theorem Reaches.token (lexeme : Lexeme) (here : cursor.rest = lexeme.text.toList ++ rest)
    (formed : lexeme.Formed) (isText : lexeme ≠ .endOfInput) (apart : lexeme.IsWord → Apart rest)
    (short : Token.checkDigits settings.limits ⟨lexeme, cursor.position⟩ = .ok ())
    (unfinished : reader.finished? lexeme = none)
    (reads : Reads settings scope reader ⟨lexeme, cursor.position⟩ reader') :
    Reaches settings scope cursor reader rest reader' := by
  rcases Cursor.next_complete _ here formed isText apart with ⟨more, after, next, left⟩
  exact ⟨after, left, .single ⟨_, more, next, short, unfinished, reads⟩⟩

/-- What is reached after a path is reached. -/
theorem Reaches.after {middle : Cursor}
    (reaches : Reaches settings scope middle between rest reader')
    (path : Relation.ReflTransGen (Advances settings scope) (cursor, reader) (middle, between)) :
    Reaches settings scope cursor reader rest reader' := by
  rcases reaches with ⟨last, left, path'⟩
  exact ⟨last, left, path.trans path'⟩

theorem finished?_of_ready (ready : reader.Ready settings) (next : Lexeme) :
    reader.finished? next = none := by
  rcases reader with ⟨stack, pending, awaiting, calls⟩
  rcases ready with ready | ⟨ready | ready, _⟩
  all_goals
    simp only at ready
    subst ready
    cases stack <;> rfl

theorem finished?_of_open {call : OpenCall} {outer : List OpenCall} {pending : Pending}
    {awaiting : Awaiting} {calls : List Call} (next : Lexeme) :
    finished? ⟨call :: outer, pending, awaiting, calls⟩ next = none :=
  rfl

theorem finished?_of_operator {stack : List OpenCall} {pending : Pending} {operand : Expr}
    {calls : List Call} {next : Lexeme} (operator : next = .plus ∨ next = .times) :
    finished? ⟨stack, pending, .continuation operand, calls⟩ next = none := by
  cases stack with
  | nil => simp [finished?, operator]
  | cons call outer => rfl

end ExprReader

/-! ## What is read of each part of the grammar -/

section

variable (settings : Settings) (bounds : Bounds) (scope : List String)

/-- Where an operand may come, an atom is read as one. -/
def AtomIsRead (text : List Char) (expr : Expr) : Prop :=
  ∀ (cursor : Cursor) (rest : List Char) (reader : ExprReader),
    cursor.rest = text ++ rest → Apart rest → reader.Ready settings →
      settings.limits.AllowsAt reader.stack.length expr →
        ∃ read calls, read.bare = expr.bare ∧
          ExprReader.Reaches settings scope cursor reader rest
            { reader with awaiting := .continuation read, calls }

/-- Where no product waits, a product is read up to its last operand. -/
def ProductIsRead (text : List Char) (expr : Expr) : Prop :=
  ∀ (cursor : Cursor) (rest : List Char) (reader : ExprReader),
    cursor.rest = text ++ rest → Apart rest → reader.Ready settings →
      reader.pending.product = none → settings.limits.AllowsAt reader.stack.length expr →
        ∃ pending operand calls, pending.sum = reader.pending.sum ∧
          (pending.closeProduct operand).bare = expr.bare ∧
          ExprReader.Reaches settings scope cursor reader rest
            ⟨reader.stack, pending, .continuation operand, calls⟩

/-- Where nothing waits, a sum is read up to its last operand. -/
def SumIsRead (text : List Char) (expr : Expr) : Prop :=
  ∀ (cursor : Cursor) (rest : List Char) (reader : ExprReader),
    cursor.rest = text ++ rest → Apart rest → reader.Ready settings →
      reader.pending = .nothing → settings.limits.AllowsAt reader.stack.length expr →
        ∃ pending operand calls, (pending.closeSum operand).bare = expr.bare ∧
          ExprReader.Reaches settings scope cursor reader rest
            ⟨reader.stack, pending, .continuation operand, calls⟩

/-- After an opening parenthesis, arguments are read up to the last operand of
the last one. -/
def ArgumentsAreRead (text : List Char) (arguments : List Expr) : Prop :=
  arguments ≠ [] → ∀ (cursor : Cursor) (rest : List Char) (call : OpenCall)
    (outer : List OpenCall) (calls : List Call),
    cursor.rest = text ++ rest → Apart rest → call.arguments = [] →
      arguments.length ≤ bounds.arguments →
        (∀ argument ∈ arguments, settings.limits.AllowsAt (outer.length + 1) argument) →
          ∃ complete pending operand calls',
            (complete ++ [pending.closeSum operand]).map Expr.bare = arguments.map Expr.bare ∧
            ExprReader.Reaches settings scope cursor
              ⟨call :: outer, .nothing, .firstArgument, calls⟩ rest
              ⟨{ call with arguments := complete } :: outer, pending, .continuation operand,
                calls'⟩

end

section

variable {settings : Settings} {bounds : Bounds} {scope : List String}

theorem atomIsRead_number (imposes : settings.Imposes bounds) {digits : List Char}
    {position : Position} (numeral : IsRun Char.isDigit digits)
    (short : digits.length ≤ bounds.digits) :
    AtomIsRead settings scope digits (.number (decimal digits) position) := by
  intro cursor rest reader here apart ready _
  refine ⟨.number (Text.Numeral.value (String.ofList digits)) cursor.position, reader.calls, ?_,
    .token (.number (String.ofList digits)) ?_ ?_ ?_ ?_ ?_ ?_ (.number ready)⟩
  · rw [Text.Numeral.value, String.toList_ofList, ofDigitChars_eq_decimal]
    rfl
  · rw [Lexeme.text, String.toList_ofList]
    exact here
  · rwa [Lexeme.Formed, String.toList_ofList]
  · simp
  · exact fun _ => apart
  · rw [imposes.checkDigits_number_iff, String.toList_ofList]
    exact short
  · exact ExprReader.finished?_of_ready ready _

theorem atomIsRead_parameter {name : String} {position : Position}
    (word : IsParameterName name) (declared : name ∈ scope) :
    AtomIsRead settings scope name.toList (.parameter name position) := by
  intro cursor rest reader here apart ready _
  exact ⟨.parameter name cursor.position, reader.calls, rfl,
    .token (.parameter name) here word (by simp) (fun _ => apart) rfl
      (ExprReader.finished?_of_ready ready _) (.parameter ready declared)⟩

theorem productIsRead_atom {text : List Char} {expr : Expr}
    (isRead : AtomIsRead settings scope text expr) :
    ProductIsRead settings scope text expr := by
  intro cursor rest reader here apart ready noProduct allowed
  rcases isRead cursor rest reader here apart ready allowed with ⟨read, calls, same, reaches⟩
  refine ⟨reader.pending, read, calls, rfl, ?_, reaches⟩
  rw [Pending.closeProduct, noProduct]
  exact same

/-- After a sign that joins operands, another operand may come. -/
theorem reaches_operator {after : Cursor} {stack : List OpenCall} {pending next : Pending}
    {operand : Expr} {calls : List Call} (sign : Lexeme) {rest : List Char}
    (isSign : sign = .plus ∧ next = pending.plus operand ∨
      sign = .times ∧ next = pending.times operand)
    (here : after.rest = sign.text.toList ++ rest) :
    ExprReader.Reaches settings scope after ⟨stack, pending, .continuation operand, calls⟩ rest
      ⟨stack, next, .operand, calls⟩ := by
  rcases isSign with ⟨rfl, rfl⟩ | ⟨rfl, rfl⟩
  · exact .token .plus here trivial (by simp) False.elim rfl
      (ExprReader.finished?_of_operator (Or.inl rfl)) .plus
  · exact .token .times here trivial (by simp) False.elim rfl
      (ExprReader.finished?_of_operator (Or.inr rfl)) .times

/-- After the last operand of an argument, another argument may come. -/
theorem reaches_space {after : Cursor} {call : OpenCall} {outer : List OpenCall}
    {pending : Pending} {operand : Expr} {calls : List Call} {rest : List Char}
    (here : after.rest = ' ' :: rest) :
    ExprReader.Reaches settings scope after
      ⟨call :: outer, pending, .continuation operand, calls⟩ rest
      ⟨{ call with arguments := call.arguments ++ [pending.closeSum operand] } :: outer,
        .nothing, .nextArgument, calls⟩ :=
  .token .space here trivial (by simp) False.elim rfl (ExprReader.finished?_of_open _) .space

theorem reaches_name {cursor : Cursor} {stack : List OpenCall} {pending : Pending}
    {awaiting : Awaiting} {calls : List Call} {name : String} {rest : List Char}
    (callee : IsFunctionName name)
    (ready : ExprReader.Ready settings ⟨stack, pending, awaiting, calls⟩)
    (here : cursor.rest = name.toList ++ rest) (apart : Apart rest) :
    ExprReader.Reaches settings scope cursor ⟨stack, pending, awaiting, calls⟩ rest
      ⟨stack, pending, .parenthesis name cursor.position, calls⟩ := by
  obtain ⟨lexeme, names, spelled, formed, isText⟩ :=
    Lexeme.ofCapitals_of_isFunctionName callee
  rw [← spelled] at here
  refine .token lexeme here formed isText (fun _ => apart) ?_
    (ExprReader.finished?_of_ready ready lexeme) (.name ready names)
  cases lexeme <;> cases names <;> rfl

theorem reaches_openParen {after : Cursor} {stack : List OpenCall} {pending : Pending}
    {name : String} {place : Position} {calls : List Call} {rest : List Char}
    (shallow : settings.limits.allowsNesting (stack.length + 1) = true)
    (here : after.rest = '(' :: rest) :
    ExprReader.Reaches settings scope after ⟨stack, pending, .parenthesis name place, calls⟩ rest
      ⟨⟨name, place, [], pending⟩ :: stack, .nothing, .firstArgument, calls⟩ := by
  refine .token .openParen here trivial (by simp) False.elim rfl ?_ (.openParen shallow)
  cases stack <;> rfl

/-- A name and an opening parenthesis open a call. -/
theorem reaches_opened {cursor : Cursor} {reader : ExprReader} {name : String}
    {rest : List Char} (callee : IsFunctionName name) (ready : reader.Ready settings)
    (shallow : settings.limits.allowsNesting (reader.stack.length + 1) = true)
    (here : cursor.rest = name.toList ++ '(' :: rest) :
    ExprReader.Reaches settings scope cursor reader rest
      ⟨⟨name, cursor.position, [], reader.pending⟩ :: reader.stack, .nothing, .firstArgument,
        reader.calls⟩ := by
  rcases reaches_name callee ready here (apart_cons (by decide)) with ⟨after, left, path⟩
  exact (reaches_openParen shallow left).after path

theorem reaches_closeParen {after : Cursor} {call : OpenCall} {outer : List OpenCall}
    {pending : Pending} {operand : Expr} {calls : List Call} {rest : List Char}
    (here : after.rest = ')' :: rest) :
    ∃ site calls', ExprReader.Reaches settings scope after
      ⟨call :: outer, pending, .continuation operand, calls⟩ rest
      ⟨outer, call.outer, .continuation (.call site call.name
        (call.arguments ++ [pending.closeSum operand]) call.position), calls'⟩ :=
  ⟨_, _, .token .closeParen here trivial (by simp) False.elim rfl
    (ExprReader.finished?_of_open _) .closeParen⟩

theorem reaches_closeEmpty {after : Cursor} {call : OpenCall} {outer : List OpenCall}
    {pending : Pending} {calls : List Call} {rest : List Char}
    (here : after.rest = ')' :: rest) :
    ∃ site calls', ExprReader.Reaches settings scope after
      ⟨call :: outer, pending, .firstArgument, calls⟩ rest
      ⟨outer, call.outer, .continuation (.call site call.name [] call.position), calls'⟩ :=
  ⟨_, _, .token .closeParen here trivial (by simp) False.elim rfl
    (ExprReader.finished?_of_open _) .closeEmpty⟩

theorem productIsRead_times {first second : List Char} {left right : Expr}
    {position : Position} (leftIsRead : ProductIsRead settings scope first left)
    (rightIsRead : AtomIsRead settings scope second right) :
    ProductIsRead settings scope (first ++ '*' :: second)
      (.binary .product left right position) := by
  intro cursor rest reader here apart ready noProduct allowed
  rw [List.append_assoc, List.cons_append] at here
  rcases Limits.allowsAt_binary_iff.mp allowed with ⟨leftAllowed, rightAllowed⟩
  obtain ⟨pending, operand, calls, sameSum, sameLeft, middle, left, path⟩ :=
    leftIsRead cursor _ reader here (apart_cons (by decide)) ready noProduct leftAllowed
  rcases reaches_operator .times (Or.inr ⟨rfl, rfl⟩) left with ⟨next, left', path'⟩
  obtain ⟨read, calls', sameRight, reaches⟩ := rightIsRead next rest
    ⟨reader.stack, pending.times operand, .operand, calls⟩ left' apart (Or.inl rfl) rightAllowed
  refine ⟨pending.times operand, read, calls', sameSum, ?_, (reaches.after path').after path⟩
  have joined : (pending.times operand).closeProduct read =
      Expr.join .product (pending.closeProduct operand) read := rfl
  rw [joined, Expr.bare_join, Expr.bare_binary, sameLeft, sameRight]

theorem sumIsRead_product {text : List Char} {expr : Expr}
    (isRead : ProductIsRead settings scope text expr) : SumIsRead settings scope text expr := by
  intro cursor rest reader here apart ready nothing allowed
  obtain ⟨pending, operand, calls, sameSum, same, reaches⟩ :=
    isRead cursor rest reader here apart ready (by rw [nothing]; rfl) allowed
  refine ⟨pending, operand, calls, ?_, reaches⟩
  rw [nothing] at sameSum
  rw [Pending.closeSum, sameSum]
  exact same

theorem sumIsRead_plus {first second : List Char} {left right : Expr} {position : Position}
    (leftIsRead : SumIsRead settings scope first left)
    (rightIsRead : ProductIsRead settings scope second right) :
    SumIsRead settings scope (first ++ '+' :: second) (.binary .sum left right position) := by
  intro cursor rest reader here apart ready nothing allowed
  rw [List.append_assoc, List.cons_append] at here
  rcases Limits.allowsAt_binary_iff.mp allowed with ⟨leftAllowed, rightAllowed⟩
  obtain ⟨pending, operand, calls, sameLeft, middle, left, path⟩ :=
    leftIsRead cursor _ reader here (apart_cons (by decide)) ready nothing leftAllowed
  rcases reaches_operator .plus (Or.inl ⟨rfl, rfl⟩) left with ⟨next, left', path'⟩
  obtain ⟨pending', operand', calls', sameSum, sameRight, reaches⟩ := rightIsRead next rest
    ⟨reader.stack, pending.plus operand, .operand, calls⟩ left' apart (Or.inl rfl) rfl
    rightAllowed
  refine ⟨pending', operand', calls', ?_, (reaches.after path').after path⟩
  have joined : pending'.closeSum operand' =
      Expr.join .sum (pending.closeSum operand) (pending'.closeProduct operand') := by
    rw [Pending.closeSum, sameSum]
    rfl
  rw [joined, Expr.bare_join, Expr.bare_binary, sameLeft, sameRight]

theorem argumentsAreRead_one (imposes : settings.Imposes bounds) {text : List Char}
    {argument : Expr} (isRead : SumIsRead settings scope text argument) :
    ArgumentsAreRead settings bounds scope text [argument] := by
  intro _ cursor rest call outer calls here apart none few allowed
  have ready : ExprReader.Ready settings
      ⟨call :: outer, .nothing, .firstArgument, calls⟩ := by
    refine Or.inr ⟨Or.inl rfl, ?_⟩
    rintro _ ⟨rfl⟩
    rw [imposes.hasRoom_iff, none]
    exact few
  obtain ⟨pending, operand, calls', same, reaches⟩ := isRead cursor rest _ here apart ready rfl
    (List.forall_mem_singleton.mp allowed)
  refine ⟨[], pending, operand, calls', by simp [same], ?_⟩
  rw [← none]
  exact reaches

theorem argumentsAreRead_more (imposes : settings.Imposes bounds) {first second : List Char}
    {arguments : List Expr} {argument : Expr} (nonempty : arguments ≠ [])
    (areRead : ArgumentsAreRead settings bounds scope first arguments)
    (isRead : SumIsRead settings scope second argument) :
    ArgumentsAreRead settings bounds scope (first ++ ' ' :: second) (arguments ++ [argument]) := by
  intro _ cursor rest call outer calls here apart none few allowed
  rw [List.append_assoc, List.cons_append] at here
  rw [List.length_append, List.length_singleton] at few
  rw [List.forall_mem_append, List.forall_mem_singleton] at allowed
  obtain ⟨complete, pending, operand, calls', same, middle, left, path⟩ :=
    areRead nonempty cursor _ call outer calls here (apart_cons (by decide)) none (by omega)
      allowed.1
  have sameLength := congrArg List.length same
  rw [List.length_map, List.length_map] at sameLength
  rcases reaches_space left with ⟨next, left', path'⟩
  have ready : ExprReader.Ready settings
      ⟨{ call with arguments := complete ++ [pending.closeSum operand] } :: outer, .nothing,
        .nextArgument, calls'⟩ := by
    refine Or.inr ⟨Or.inr rfl, ?_⟩
    rintro _ ⟨rfl⟩
    rw [imposes.hasRoom_iff, sameLength]
    exact few
  obtain ⟨pending', operand', calls'', sameLast, reaches⟩ :=
    isRead next rest _ left' apart ready rfl allowed.2
  refine ⟨complete ++ [pending.closeSum operand], pending', operand', calls'', ?_,
    (reaches.after path').after path⟩
  rw [List.map_append, same, List.map_append, List.map_singleton, List.map_singleton, sameLast]

theorem atomIsRead_call {site : Site} {name : String} {position : Position} {text : List Char}
    {arguments : List Expr} (callee : IsFunctionName name)
    (given : AreArguments bounds scope text arguments)
    (few : arguments.length ≤ bounds.arguments)
    (areRead : ArgumentsAreRead settings bounds scope text arguments) :
    AtomIsRead settings scope (name.toList ++ '(' :: text ++ [')'])
      (.call site name arguments position) := by
  intro cursor rest reader here apart ready allowed
  have here' : cursor.rest = name.toList ++ '(' :: (text ++ ')' :: rest) := by
    rw [here]
    simp
  rcases Limits.allowsAt_call_iff.mp allowed with ⟨shallow, argumentsAllowed⟩
  rcases reaches_opened callee ready shallow here' with ⟨opened, left, path⟩
  by_cases none : arguments = []
  · rw [given.eq_nil none, List.nil_append] at left
    rcases reaches_closeEmpty left with ⟨site', calls, reaches⟩
    refine ⟨_, calls, ?_, reaches.after path⟩
    rw [none, Expr.bare_call, Expr.bare_call]
  · obtain ⟨complete, pending, operand, calls, same, last, left', path'⟩ :=
      areRead none opened _ ⟨name, cursor.position, [], reader.pending⟩ reader.stack
        reader.calls left (apart_cons (by decide)) rfl few argumentsAllowed
    rcases reaches_closeParen left' with ⟨site', calls', reaches⟩
    refine ⟨_, calls', ?_, (reaches.after path').after path⟩
    rw [Expr.bare_call, Expr.bare_call, same]

/-! ## Derivations -/

/-- A sum of the grammar is read as one. -/
theorem sumIsRead_of_isSum (imposes : settings.Imposes bounds) {text : List Char} {expr : Expr}
    (isSum : IsSum bounds scope text expr) : SumIsRead settings scope text expr := by
  induction isSum using @IsSum.rec bounds scope
    (fun text expr _ => AtomIsRead settings scope text expr)
    (fun text expr _ => ProductIsRead settings scope text expr) _
    (fun text arguments _ => ArgumentsAreRead settings bounds scope text arguments) with
  | number numeral short => exact atomIsRead_number imposes numeral short
  | parameter word declared => exact atomIsRead_parameter word declared
  | call callee given few areRead => exact atomIsRead_call callee given few areRead
  | atom _ isRead => exact productIsRead_atom isRead
  | times _ _ leftIsRead rightIsRead => exact productIsRead_times leftIsRead rightIsRead
  | product _ isRead => exact sumIsRead_product isRead
  | plus _ _ leftIsRead rightIsRead => exact sumIsRead_plus leftIsRead rightIsRead
  | none => exact fun nonempty => absurd rfl nonempty
  | one _ isRead => exact argumentsAreRead_one imposes isRead
  | more nonempty _ _ areRead isRead => exact argumentsAreRead_more imposes nonempty areRead isRead

end

end Polycalc
