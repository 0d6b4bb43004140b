import Polycalc.Proofs.Grammar.Completeness
import Polycalc.Proofs.Grammar.Soundness

/-!
# The parser accepts the grammar

A definition of the grammar is read as one (`reaches_definition`), and so is a
program.  Since the reader never has a choice, a text is a program of the
grammar in one way only (`IsProgram.unique`).  With what is known about the
texts that are read this makes the parser decide the grammar and compute its
trees (`parse_iff_isProgram`).
-/

namespace Polycalc

open Grammar

variable {settings : Settings} {bounds : Bounds}

namespace ProgramReader

/-- `Reaches settings cursor reader definitions rest reader'`: the tokens up to
the rest of the text take the reader from one state to the other and complete
these definitions. -/
def Reaches (settings : Settings) (cursor : Cursor) (reader : ProgramReader)
    (definitions : List Definition) (rest : List Char) (reader' : ProgramReader) : Prop :=
  ∃ after, after.rest = rest ∧ Path settings cursor reader definitions after reader'

variable {cursor : Cursor} {reader reader' : ProgramReader} {rest : List Char}

theorem Reaches.token (lexeme : Lexeme) (here : cursor.rest = lexeme.text.toList ++ rest)
    (formed : lexeme.Formed) (isText : lexeme ≠ .endOfInput) (apart : lexeme.IsWord → Apart rest)
    (short : Token.checkDigits settings.limits ⟨lexeme, cursor.position⟩ = .ok ())
    (reads : Reads settings reader ⟨lexeme, cursor.position⟩ reader') :
    Reaches settings cursor reader (reader.completed ⟨lexeme, cursor.position⟩) rest reader' := by
  rcases Cursor.next_complete _ here formed isText apart with ⟨more, after, next, left⟩
  have path := Path.step more next short reads .refl
  rw [List.append_nil] at path
  exact ⟨after, left, path⟩

/-- A token that completes no definition. -/
theorem Reaches.quiet (lexeme : Lexeme) (here : cursor.rest = lexeme.text.toList ++ rest)
    (formed : lexeme.Formed) (isText : lexeme ≠ .endOfInput) (apart : lexeme.IsWord → Apart rest)
    (short : Token.checkDigits settings.limits ⟨lexeme, cursor.position⟩ = .ok ())
    (reads : Reads settings reader ⟨lexeme, cursor.position⟩ reader')
    (nothing : reader.completed ⟨lexeme, cursor.position⟩ = []) :
    Reaches settings cursor reader [] rest reader' := by
  rw [← nothing]
  exact .token lexeme here formed isText apart short reads

/-- What is reached after tokens that complete no definition is reached. -/
theorem Reaches.trans {between : ProgramReader} {middle : List Char}
    {definitions : List Definition} (first : Reaches settings cursor reader [] middle between)
    (second : ∀ {after : Cursor}, after.rest = middle →
      Reaches settings after between definitions rest reader') :
    Reaches settings cursor reader definitions rest reader' := by
  rcases first with ⟨after, left, path⟩
  rcases second left with ⟨final, left', path'⟩
  exact ⟨final, left', path.trans path'⟩

/-- The path of a reader of expressions is one within a body. -/
theorem path_of_advances {program : Program} {count : Nat} {heading : Heading}
    {before after : Cursor × ExprReader}
    (path : Relation.ReflTransGen (ExprReader.Advances settings heading.parameters) before
      after) :
    Path settings before.1 ⟨program, count, .body heading before.2⟩ [] after.1
      ⟨program, count, .body heading after.2⟩ := by
  induction path with
  | refl => exact .refl
  | tail _ advances ih =>
      rcases advances with ⟨token, more, next, short, unfinished, reads⟩
      exact ih.trans (.step more next short (.body unfinished reads) .refl)

variable {program : Program} {count : Nat} {heading : Heading}

/-- A space leads from one phase to another. -/
theorem reaches_space {phase phase' : Phase} (here : cursor.rest = ' ' :: rest)
    (reads : Reads settings ⟨program, count, phase⟩ ⟨.space, cursor.position⟩
      ⟨program, count, phase'⟩) :
    Reaches settings cursor ⟨program, count, phase⟩ [] rest ⟨program, count, phase'⟩ := by
  apply Reaches.quiet .space here trivial (by simp) False.elim rfl reads
  cases phase <;> rfl

/-- The beginning of a definition up to its name. -/
theorem reaches_name {name : String} (named : IsFunctionName name)
    (here : cursor.rest = "DEF ".toList ++ name.toList ++ rest) (apart : Apart rest) :
    Reaches settings cursor ⟨program, count, .start⟩ [] rest
      ⟨program, count, .word ⟨name, []⟩⟩ := by
  have here' : cursor.rest = Lexeme.define.text.toList ++ ' ' :: (name.toList ++ rest) := by
    rw [here]
    simp [Lexeme.text]
  rcases Lexeme.ofCapitals_of_isFunctionName named with
    ⟨lexeme, names, spelled, formed, isText⟩
  apply (Reaches.quiet .define here' trivial (by simp) (fun _ => apart_cons (by decide)) rfl
    .define rfl).trans
  intro first left
  apply (reaches_space left .defineSpace).trans
  intro second left'
  rw [← spelled] at left'
  have short : Token.checkDigits settings.limits ⟨lexeme, second.position⟩ = .ok () := by
    cases lexeme <;> cases names <;> rfl
  exact .quiet lexeme left' formed isText (fun _ => apart) short (.name names) rfl

/-- Parameters are kept apart from the word before them. -/
theorem apart_parameters (parameters : List String) (apart : Apart rest) :
    Apart ((parameters.flatMap fun parameter => ' ' :: parameter.toList) ++ rest) := by
  cases parameters with
  | nil => exact apart
  | cons parameter parameters => exact apart_cons (by decide)

/-- More parameters of a function that may have them. -/
theorem reaches_parameters (ordinary : heading.name ≠ entryName) {parameters : List String}
    (words : ∀ parameter ∈ parameters, IsParameterName parameter)
    (here : cursor.rest =
      (parameters.flatMap fun parameter => ' ' :: parameter.toList) ++ rest)
    (apart : Apart rest) :
    Reaches settings cursor ⟨program, count, .word heading⟩ [] rest
      ⟨program, count, .word ⟨heading.name, heading.parameters ++ parameters⟩⟩ := by
  induction parameters generalizing cursor heading with
  | nil =>
      rw [List.append_nil]
      exact ⟨cursor, here, .refl⟩
  | cons parameter parameters ih =>
      rw [List.forall_mem_cons] at words
      rw [List.flatMap_cons, List.cons_append, List.cons_append, List.append_assoc] at here
      apply (reaches_space here .wordSpace).trans
      intro first left
      apply (Reaches.quiet (.parameter parameter) left words.1 (by simp)
        (fun _ => apart_parameters parameters apart) rfl (.parameter ordinary) rfl).trans
      intro second left'
      have others := @ih second ⟨heading.name, heading.parameters ++ [parameter]⟩ ordinary
        words.2 left'
      rw [List.append_assoc, List.singleton_append] at others
      exact others

/-- A heading that the grammar allows is read as one. -/
theorem reaches_heading {name : String} {parameters : List String}
    (named : IsFunctionName name)
    (words : ∀ parameter ∈ parameters, IsParameterName parameter)
    (entry : name = entryName → parameters = [])
    (here : cursor.rest = "DEF ".toList ++ headingText name parameters ++ rest)
    (apart : Apart rest) :
    Reaches settings cursor ⟨program, count, .start⟩ [] rest
      ⟨program, count, .word ⟨name, parameters⟩⟩ := by
  rw [headingText, ← List.append_assoc, List.append_assoc] at here
  by_cases isEntry : name = entryName
  · rw [entry isEntry, List.flatMap_nil, List.nil_append] at here
    rw [entry isEntry]
    exact reaches_name named here apart
  · apply (reaches_name named here (apart_parameters parameters apart)).trans
    intro first left
    exact reaches_parameters isEntry words left apart

theorem reaches_openBrace (here : cursor.rest = " \x7b ".toList ++ rest) :
    Reaches settings cursor ⟨program, count, .word heading⟩ [] rest
      ⟨program, count, .body heading (.start program.calls)⟩ := by
  have here' : cursor.rest = ' ' :: '\x7b' :: ' ' :: rest := by
    rw [here]
    rfl
  apply (reaches_space here' .wordSpace).trans
  intro first left
  apply (Reaches.quiet .openBrace left trivial (by simp) False.elim rfl .openBrace rfl).trans
  intro second left'
  exact reaches_space left' .braceSpace

/-- A body of the grammar is read as one, up to the space after it. -/
theorem reaches_body (heading : Heading) (imposes : settings.Imposes bounds)
    {text : List Char} {expr : Expr} (isSum : IsSum bounds heading.parameters text expr)
    (shallow : settings.limits.allowsNesting expr.nesting = true)
    (here : cursor.rest = text ++ ' ' :: rest) :
    ∃ read program', read.bare = expr.bare ∧
      Reaches settings cursor ⟨program, count, .body heading (.start program.calls)⟩ [] rest
        ⟨program', count, .bodyEnd heading read⟩ := by
  have allowed : settings.limits.AllowsAt 0 expr := by
    rwa [Limits.AllowsAt, Nat.zero_add]
  rcases sumIsRead_of_isSum imposes isSum cursor _ (.start program.calls) here
    (apart_cons (by decide)) (Or.inl rfl) rfl allowed with
    ⟨pending, operand, calls, same, middle, left, path⟩
  refine ⟨pending.closeSum operand, { program with calls }, same, ?_⟩
  apply Reaches.trans ⟨middle, left, path_of_advances path⟩
  intro first left'
  exact .quiet .space left' trivial (by simp) False.elim rfl (.bodySpace rfl) rfl

theorem reaches_end {expr : Expr} {lineEnd : List Char}
    (ended : lineEnd = ['\n'] ∨ lineEnd = ['\r', '\n'])
    (here : cursor.rest = "\x7d ;".toList ++ lineEnd ++ rest) :
    Reaches settings cursor ⟨program, count, .bodyEnd heading expr⟩
      [⟨heading.name, heading.parameters, expr, (count + 1 : Nat)⟩] rest
      (endDefinition ⟨program, count, .statementEnd heading expr⟩ heading expr) := by
  have here' : cursor.rest =
      Lexeme.closeBrace.text.toList ++ ' ' :: ';' :: (lineEnd ++ rest) := by
    rw [here]
    simp [Lexeme.text]
  apply (Reaches.quiet .closeBrace here' trivial (by simp) False.elim rfl .closeBrace rfl).trans
  intro first left
  apply (reaches_space left .closedSpace).trans
  intro second left'
  have spelled : ∃ carriageReturn, second.rest =
      (Lexeme.endOfStatement carriageReturn).text.toList ++ rest := by
    rcases ended with rfl | rfl
    · exact ⟨false, left'⟩
    · exact ⟨true, left'⟩
  rcases spelled with ⟨carriageReturn, here''⟩
  exact .token (.endOfStatement carriageReturn) here'' trivial (by simp) False.elim rfl
    .endOfStatement

/-- A definition of the grammar is read as one. -/
theorem reaches_definition (imposes : settings.Imposes bounds) {text : List Char}
    {definition : Definition} (isDefinition : IsDefinition bounds text definition)
    (shallow : settings.limits.allowsNesting definition.body.nesting = true)
    (here : cursor.rest = text ++ rest) (program : Program) (count : Nat) :
    ∃ read program', read.bare = definition.bare ∧
      Reaches settings cursor ⟨program, count, .start⟩ [read] rest
        ⟨program', count + 1, .start⟩ := by
  cases isDefinition with
  | @intro name parameters text lineEnd body line named words entry isSum ended =>
      have here' : cursor.rest = "DEF ".toList ++ headingText name parameters ++
          (" \x7b ".toList ++ (text ++ ' ' :: ("\x7d ;".toList ++ lineEnd ++ rest))) := by
        rw [here]
        simp
      obtain ⟨first, left, path⟩ :
          Reaches settings cursor ⟨program, count, .start⟩ [] _
            ⟨program, count, .word ⟨name, parameters⟩⟩ :=
        reaches_heading named words entry here' (apart_cons (by decide))
      obtain ⟨second, left', path'⟩ :
          Reaches settings first ⟨program, count, .word ⟨name, parameters⟩⟩ [] _
            ⟨program, count, .body ⟨name, parameters⟩ (.start program.calls)⟩ :=
        reaches_openBrace left
      obtain ⟨read, program', same, third, left'', path''⟩ :=
        reaches_body ⟨name, parameters⟩ imposes isSum shallow left'
      rcases reaches_end ended left'' with ⟨fourth, left''', path'''⟩
      refine ⟨_, _, ?_, fourth, left''', path.trans (path'.trans (path''.trans path'''))⟩
      rw [Definition.bare, Definition.bare, same]

/-- A program of the grammar is read as one. -/
theorem reaches_program (imposes : settings.Imposes bounds) {texts : List (List Char)}
    {definitions : List Definition}
    (each : List.Forall₂ (IsDefinition bounds) texts definitions)
    (shallow : ∀ definition ∈ definitions,
      settings.limits.allowsNesting definition.body.nesting = true)
    (here : cursor.rest = texts.flatten) (program : Program) (count : Nat) :
    ∃ read last, read.map Definition.bare = definitions.map Definition.bare ∧
      last.phase = .start ∧ Reaches settings cursor ⟨program, count, .start⟩ read [] last := by
  induction each generalizing cursor program count with
  | nil => exact ⟨[], ⟨program, count, .start⟩, rfl, rfl, cursor, here, .refl⟩
  | cons isDefinition _ ih =>
      rw [List.forall_mem_cons] at shallow
      rw [List.flatten_cons] at here
      obtain ⟨first, program', sameFirst, middle, left, path⟩ :=
        reaches_definition imposes isDefinition shallow.1 here program count
      obtain ⟨others, last, sameOthers, complete, final, left', path'⟩ :=
        ih shallow.2 left program' (count + 1)
      refine ⟨first :: others, last, ?_, complete, final, left', path.trans path'⟩
      rw [List.map_cons, List.map_cons, sameFirst, sameOthers]

end ProgramReader

/-! ## Texts -/

/-- Reading a program of the grammar completes its definitions. -/
theorem exists_path_of_isProgram (imposes : settings.Imposes bounds) {text : String}
    {definitions : List Definition} (isProgram : IsProgram bounds text.toList definitions)
    (shallow : ∀ definition ∈ definitions,
      settings.limits.allowsNesting definition.body.nesting = true) :
    ∃ read final last, read.map Definition.bare = definitions.map Definition.bare ∧
      ProgramReader.Path settings (.start text) .start read final last ∧
      final.rest = [] ∧ last.phase = .start := by
  rcases isProgram with ⟨texts, whole, each⟩
  have here : (Cursor.start text).rest = texts.flatten := whole
  obtain ⟨read, last, same, complete, final, atEnd, path⟩ :=
    ProgramReader.reaches_program imposes each shallow here .empty 0
  exact ⟨read, final, last, same, path, atEnd, complete⟩

/-- Settings that allow what the grammar allows, however calls are nested. -/
def Grammar.Bounds.loosest (bounds : Bounds) : Settings where
  maxArguments := some bounds.arguments
  limits := ⟨some bounds.digits, none, 0⟩

theorem Grammar.Bounds.loosest_imposes (bounds : Bounds) : bounds.loosest.Imposes bounds :=
  ⟨⟨bounds.arguments, rfl, Int.toNat_natCast _⟩, rfl⟩

/-- A text is a program of the grammar in one way only. -/
theorem Grammar.IsProgram.unique {text : String} {definitions others : List Definition}
    (isProgram : IsProgram bounds text.toList definitions)
    (isProgram' : IsProgram bounds text.toList others) :
    others.map Definition.bare = definitions.map Definition.bare := by
  have imposes := bounds.loosest_imposes
  obtain ⟨read, final, last, same, path, atEnd, _⟩ :=
    exists_path_of_isProgram imposes isProgram fun _ _ => rfl
  obtain ⟨read', final', last', same', path', atEnd', _⟩ :=
    exists_path_of_isProgram imposes isProgram' fun _ _ => rfl
  rw [← same, ← same', path.definitions_unique atEnd path' atEnd']

/-- The parser accepts exactly the programs of the grammar whose calls are not
nested too deeply, and the program that it gives is made of the definitions of
the one derivation of the text. -/
theorem parse_iff_isProgram (maxArguments : Int) (nesting : Option Nat) (liveCalls : Nat)
    (text : String) :
    ((∃ program,
        Program.parse ⟨some maxArguments, ⟨some 4300, nesting, liveCalls⟩⟩ text = .ok program) ↔
      ∃ definitions, IsProgram ⟨maxArguments.toNat, 4300⟩ text.toList definitions ∧
        ∀ definition ∈ definitions,
          Limits.allowsNesting ⟨some 4300, nesting, liveCalls⟩ definition.body.nesting = true) ∧
      ∀ program,
        Program.parse ⟨some maxArguments, ⟨some 4300, nesting, liveCalls⟩⟩ text = .ok program →
          ∃ definitions, program = .ofDefinitions definitions ∧
            IsProgram ⟨maxArguments.toNat, 4300⟩ text.toList definitions ∧
            ∀ others, IsProgram ⟨maxArguments.toNat, 4300⟩ text.toList others →
              others.map Definition.bare = definitions.map Definition.bare := by
  have imposes : Settings.Imposes ⟨some maxArguments, ⟨some 4300, nesting, liveCalls⟩⟩
      ⟨maxArguments.toNat, 4300⟩ := ⟨⟨maxArguments, rfl, rfl⟩, rfl⟩
  have derived : ∀ program,
      Program.parse ⟨some maxArguments, ⟨some 4300, nesting, liveCalls⟩⟩ text = .ok program →
        ∃ definitions, program = .ofDefinitions definitions ∧
          IsProgram ⟨maxArguments.toNat, 4300⟩ text.toList definitions ∧
          ∀ definition ∈ definitions,
            Limits.allowsNesting ⟨some 4300, nesting, liveCalls⟩ definition.body.nesting =
              true := by
    intro program parsed
    obtain ⟨definitions, final, last, path, atEnd, complete, rfl⟩ :=
      Program.parse_eq_ok_iff.mp parsed
    exact ⟨definitions, (path.program_eq complete).1,
      path.isProgram imposes atEnd complete .start, path.shallow trivial⟩
  constructor
  · constructor
    · rintro ⟨program, parsed⟩
      rcases derived program parsed with ⟨definitions, _, isProgram, shallow⟩
      exact ⟨definitions, isProgram, shallow⟩
    · rintro ⟨definitions, isProgram, shallow⟩
      obtain ⟨read, final, last, _, path, atEnd, complete⟩ :=
        exists_path_of_isProgram imposes isProgram shallow
      exact ⟨last.program,
        Program.parse_eq_ok_iff.mpr ⟨read, final, last, path, atEnd, complete, rfl⟩⟩
  · intro program parsed
    rcases derived program parsed with ⟨definitions, same, isProgram, _⟩
    exact ⟨definitions, same, isProgram, fun others => isProgram.unique⟩

theorem sampleText_isProgram :
    ∃ definitions, IsProgram ⟨1, 4300⟩ "DEF F x \x7b 1+2*F(x) \x7d ;\r\n".toList definitions ∧
      ∀ definition ∈ definitions,
        Limits.allowsNesting ⟨some 4300, some 250, 320⟩ definition.body.nesting = true := by
  apply (parse_iff_isProgram 1 (some 250) 320 "DEF F x \x7b 1+2*F(x) \x7d ;\r\n").1.mp
  refine ⟨.ofDefinitions [⟨"F", ["x"], .binary .sum (.number 1 ⟨1, 11⟩)
    (.binary .product (.number 2 ⟨1, 13⟩)
      (.call (.parsed 0) "F" [.parameter "x" ⟨1, 17⟩] ⟨1, 15⟩) ⟨1, 13⟩) ⟨1, 11⟩, 1⟩], ?_⟩
  cbv

end Polycalc
