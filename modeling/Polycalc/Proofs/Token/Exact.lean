import Polycalc.Proofs.Token.Offences

/-!
# The lexer is exact

The lexer is asked for one token after the other.  `Cursor.call` is one request: an
error leaves the lexer where it is, and so does the end of the input.
`lexer_exact` says what the answers are for every text: where each token stands,
that letters and digits are taken as far as they go, and that the lexer stops at
the first character that offends, or at the end of the text if there is none.
-/

namespace Polycalc

/-- The characters of several tokens. -/
def Token.spelled (tokens : List Token) : List Char :=
  tokens.flatMap fun token => token.lexeme.text.toList

theorem Token.spelled_append (tokens more : List Token) :
    spelled (tokens ++ more) = spelled tokens ++ spelled more :=
  List.flatMap_append

theorem Token.spelled_cons (token : Token) (tokens : List Token) :
    spelled (token :: tokens) = token.lexeme.text.toList ++ spelled tokens :=
  List.flatMap_cons

/-! ## Requests -/

namespace Cursor

/-- What the lexer answers at a place, and the place after that. -/
def call (cursor : Cursor) : Except LexError Token × Cursor :=
  match cursor.next with
  | .error error => (.error error, cursor)
  | .ok (token, after) => (.ok token, after)

/-- The place after so many requests. -/
def afterCalls (cursor : Cursor) : Nat → Cursor
  | 0 => cursor
  | count + 1 => cursor.call.2.afterCalls count

variable {cursor after : Cursor} {token : Token}

theorem call_of_next_eq_ok (next : cursor.next = .ok (token, after)) :
    cursor.call = (.ok token, after) := by
  rw [call, next]

theorem call_of_next_eq_error {error : LexError} (next : cursor.next = .error error) :
    cursor.call = (.error error, cursor) := by
  rw [call, next]

/-- At the end of the text the lexer stays where it is. -/
theorem call_of_rest_eq_nil (atEnd : cursor.rest = []) :
    cursor.call = (.ok ⟨.endOfInput, cursor.position⟩, cursor) := by
  rcases cursor with ⟨rest, offset, position⟩
  subst atEnd
  exact call_of_next_eq_ok (next_of_rest_eq_nil rfl)

theorem afterCalls_of_stays (stays : cursor.call.2 = cursor) (count : Nat) :
    cursor.afterCalls count = cursor := by
  induction count with
  | zero => rfl
  | succ count ih => rw [afterCalls, stays, ih]

/-- A scan stops at once where the lexer stays, or it begins with the next token. -/
theorem scanAll_cases (cursor : Cursor) :
    (cursor.scanAll = ⟨[], cursor⟩ ∧ cursor.call.2 = cursor) ∨
      ∃ token after, cursor.rest ≠ [] ∧ cursor.next = .ok (token, after) ∧
        cursor.scanAll = ⟨token :: after.scanAll.tokens, after.scanAll.stop⟩ := by
  by_cases more : cursor.rest = []
  · left
    exact ⟨scanAll_of_rest_eq_nil more, by rw [call_of_rest_eq_nil more]⟩
  · cases next : cursor.next with
    | error error =>
        left
        exact ⟨scanAll_of_next_eq_error more next, by rw [call_of_next_eq_error next]⟩
    | ok read =>
        right
        exact ⟨read.1, read.2, more, rfl, scanAll_of_next_eq_ok more next⟩

/-- The first answers are the tokens of the scan, and then the lexer is where the
scan stops. -/
theorem calls_scanAll (cursor : Cursor) :
    (∀ count token, cursor.scanAll.tokens[count]? = some token →
        (cursor.afterCalls count).call.1 = .ok token) ∧
      ∀ count, cursor.scanAll.tokens.length ≤ count →
        cursor.afterCalls count = cursor.scanAll.stop := by
  induction remaining : cursor.rest.length using Nat.strongRecOn generalizing cursor with
  | ind remaining ih =>
      subst remaining
      rcases cursor.scanAll_cases with ⟨scanned, stays⟩ | ⟨token, after, more, next, scanned⟩
      · rw [scanned]
        exact ⟨by simp, fun count _ => afterCalls_of_stays stays count⟩
      · rcases ih _ (length_rest_next_lt next more) after rfl with ⟨answers, stopped⟩
        have called := call_of_next_eq_ok next
        rw [scanned]
        constructor
        · intro count other answer
          cases count with
          | zero =>
              rw [List.getElem?_cons_zero, Option.some.injEq] at answer
              rw [afterCalls, called, answer]
          | succ count =>
              rw [List.getElem?_cons_succ] at answer
              rw [afterCalls, called]
              exact answers count other answer
        · intro count past
          cases count with
          | zero => cases past
          | succ count =>
              rw [afterCalls, called]
              exact stopped count (Nat.le_of_succ_le_succ past)

/-- Each token of a scan is what the lexer reads behind the texts of the tokens
before it. -/
theorem exists_reaches_of_scanAll {before rest : List Token}
    (scanned : cursor.scanAll.tokens = before ++ rest) :
    ∃ here, cursor.Reaches here ∧
      cursor.rest = Token.spelled before ++ here.rest ∧
      here.scanAll = ⟨rest, cursor.scanAll.stop⟩ := by
  induction before generalizing cursor with
  | nil => exact ⟨cursor, .refl, rfl, by rw [← List.nil_append rest, ← scanned]⟩
  | cons token before ih =>
      rcases cursor.scanAll_cases with ⟨stopped, _⟩ | ⟨first, after, more, next, split⟩
      · rw [stopped] at scanned
        cases scanned
      · rw [split] at scanned ⊢
        rcases List.cons.inj scanned with ⟨rfl, further⟩
        rcases ih further with ⟨here, reached, behind, scan⟩
        refine ⟨here, .head ⟨more, first, next⟩ reached, ?_, scan⟩
        rw [Token.spelled_cons, List.append_assoc, ← behind]
        exact (next_sound next).2

/-- A scan without tokens stops where it begins. -/
theorem eq_stop_of_scanAll {stop : Cursor} (scanned : cursor.scanAll = ⟨[], stop⟩) :
    cursor = stop := by
  rcases cursor.scanAll_cases with ⟨stopped, _⟩ | ⟨_, _, _, _, split⟩
  · rw [stopped] at scanned
    exact (Scan.mk.inj scanned).2
  · rw [split] at scanned
    cases scanned

/-- The first token of a scan is read where it begins. -/
theorem exists_next_of_scanAll {rest : List Token} {stop : Cursor}
    (scanned : cursor.scanAll = ⟨token :: rest, stop⟩) :
    ∃ after, cursor.rest ≠ [] ∧ cursor.next = .ok (token, after) := by
  rcases cursor.scanAll_cases with ⟨stopped, _⟩ | ⟨first, after, more, next, split⟩
  · rw [stopped] at scanned
    cases scanned
  · rw [split] at scanned
    rcases List.cons.inj (Scan.mk.inj scanned).1 with ⟨rfl, _⟩
    exact ⟨after, more, next⟩

/-- The texts of the tokens lead to the place where the scan stops. -/
theorem reaches_stop (cursor : Cursor) :
    cursor.Reaches cursor.scanAll.stop ∧
      cursor.rest = Token.spelled cursor.scanAll.tokens ++ cursor.scanAll.stop.rest := by
  rcases exists_reaches_of_scanAll (List.append_nil cursor.scanAll.tokens).symm with
    ⟨here, reached, split, stopped⟩
  cases eq_stop_of_scanAll stopped
  exact ⟨reached, split⟩

/-- At its stop the lexer answers that the text has ended, or why no lexeme begins
there; either way it stays. -/
theorem call_stop (cursor : Cursor) :
    cursor.scanAll.stop.call = (cursor.scanAll.ending, cursor.scanAll.stop) ∧
      ((cursor.scanAll.stop.rest = [] ∧
          cursor.scanAll.ending = .ok ⟨.endOfInput, cursor.scanAll.stop.position⟩) ∨
        ∃ cause, Lexeme.scan cursor.scanAll.stop.rest = .error cause ∧
          cursor.scanAll.ending = .error ⟨cause, cursor.scanAll.stop.position⟩) := by
  rcases cursor.scanAll_stop with atEnd | ⟨error, next⟩
  · have ended : cursor.scanAll.ending = .ok ⟨.endOfInput, cursor.scanAll.stop.position⟩ := by
      rw [Scan.ending, next_of_rest_eq_nil atEnd]
      rfl
    rw [ended]
    exact ⟨call_of_rest_eq_nil atEnd, Or.inl ⟨atEnd, rfl⟩⟩
  · have failed : cursor.scanAll.ending = .error error := by
      rw [Scan.ending, next]
      rfl
    rcases error with ⟨cause, position⟩
    rcases next_eq_error_iff.mp next with ⟨scanned, place⟩
    rw [failed]
    exact ⟨call_of_next_eq_error next, Or.inr ⟨cause, scanned, by rw [← place]⟩⟩

/-- Before the end of a text every token has characters. -/
theorem text_ne_nil_of_next (next : cursor.next = .ok (token, after))
    (more : cursor.rest ≠ []) : token.lexeme.text.toList ≠ [] := by
  rw [← List.length_pos_iff, String.length_toList]
  exact length_pos_of_next next more

end Cursor

/-! ## Lines and columns -/

/-- The line on which the character at an offset stands begins at `start`. -/
structure BeginsLine (text : List Char) (start offset : Nat) : Prop where
  before : start ≤ offset
  fresh : start = 0 ∨ text[start - 1]? = some '\n'
  unbroken : '\n' ∉ (text.take offset).drop start

/-- The line of a position counts the line feeds before an offset, and its column
counts the characters from the beginning of the line on. -/
def Position.Locates (text : List Char) (position : Position) (offset : Nat) : Prop :=
  position.line = 1 + (text.take offset).count '\n' ∧
    ∃ start, BeginsLine text start offset ∧ position.col = offset - start + 1

theorem Position.past_locates (read rest : List Char) :
    (Position.start.past read).Locates (read ++ rest) read.length := by
  rw [Locates, List.take_left]
  induction read using List.reverseRecOn generalizing rest with
  | nil => exact ⟨rfl, 0, ⟨Nat.le_refl _, Or.inl rfl, by simp⟩, rfl⟩
  | append_singleton read c ih =>
      rcases ih (c :: rest) with ⟨line, start, begins, col⟩
      have before := begins.before
      have unbroken := begins.unbroken
      rw [List.take_left] at unbroken
      have past : Position.start.past (read ++ [c]) =
          if c = '\n' then (Position.start.past read).nextLine
          else (Position.start.past read).advance 1 := past_append _ _ _
      rw [past, List.count_append, List.length_append, List.append_assoc, List.singleton_append]
      by_cases lineFeed : c = '\n'
      · rw [if_pos lineFeed]
        subst lineFeed
        refine ⟨?_, read.length + 1, ⟨Nat.le_refl _, Or.inr (by simp), by simp⟩, ?_⟩
        · simp only [nextLine, line, List.count_singleton_self]
          omega
        · simp [nextLine]
      · rw [if_neg lineFeed]
        refine ⟨?_, start, ⟨Nat.le_succ_of_le before, begins.fresh, ?_⟩, ?_⟩
        · have none : [c].count '\n' = 0 :=
            List.count_eq_zero_of_not_mem (by simp [Ne.symm lineFeed])
          rw [none]
          exact line
        · have taken : (read ++ c :: rest).take (read.length + 1) = read ++ [c] := by
            rw [List.take_length_add_append]
            rfl
          rw [List.length_singleton, taken, List.drop_append_of_le_length before]
          simp [unbroken, Ne.symm lineFeed]
        · simp only [advance, col, List.length_singleton]
          omega

/-! ## Runs -/

namespace Lexeme

/-- The characters that a lexeme is a run of, if it is one. -/
def runOf? : Lexeme → Option (Char → Bool)
  | define | entry | function _ => some Char.isUpper
  | parameter _ => some Char.isLower
  | number _ => some Char.isDigit
  | _ => none

variable {lexeme : Lexeme} {kind : Char → Bool}

theorem isRun_of_runOf? (formed : lexeme.Formed) (run : lexeme.runOf? = some kind) :
    Grammar.IsRun kind lexeme.text.toList := by
  cases lexeme with
  | define =>
      cases run
      simp [Grammar.IsRun, text]
  | entry =>
      cases run
      simp [Grammar.IsRun, text, entryName]
  | function name =>
      cases run
      exact formed.1.1
  | parameter name =>
      cases run
      exact formed
  | number digits =>
      cases run
      exact formed
  | _ => cases run

/-- A run does not go on in the text after it. -/
theorem EndsAt.of_runOf? {rest : List Char} (ends : lexeme.EndsAt rest)
    (run : lexeme.runOf? = some kind) : ∀ c ∈ rest.head?, kind c = false := by
  cases lexeme with
  | define | entry | function name | parameter name | number digits =>
      cases run
      exact ends
  | _ => cases run

/-- A character is of one kind only. -/
theorem kind_unique {c : Char} {other : Char → Bool}
    (among : kind ∈ [Char.isUpper, Char.isLower, Char.isDigit])
    (among' : other ∈ [Char.isUpper, Char.isLower, Char.isDigit]) (holds : kind c = true)
    (holds' : other c = true) : kind = other := by
  have lower : c.isLower = true → c.isUpper = false := isUpper_eq_false_of_isLower
  have digit : c.isDigit = true → c.isUpper = false ∧ c.isLower = false := not_letter_of_isDigit
  simp only [List.mem_cons, List.not_mem_nil, or_false] at among among'
  rcases among with rfl | rfl | rfl
  all_goals
    rcases among' with rfl | rfl | rfl
    all_goals
      first
        | rfl
        | simp_all

/-- A lexeme that is no run has no letters or digits. -/
theorem not_kind_of_runOf?_eq_none (run : lexeme.runOf? = none)
    (among : kind ∈ [Char.isUpper, Char.isLower, Char.isDigit]) :
    ∀ c ∈ lexeme.text.toList, kind c = false := by
  simp only [List.mem_cons, List.not_mem_nil, or_false] at among
  rcases among with rfl | rfl | rfl
  all_goals
    cases lexeme with
    | define | entry | function name | parameter name | number digits => cases run
    | endOfStatement carriageReturn => cases carriageReturn <;> simp [text]
    | _ => simp [text]

theorem runOf?_among (run : lexeme.runOf? = some kind) :
    kind ∈ [Char.isUpper, Char.isLower, Char.isDigit] := by
  cases lexeme with
  | define | entry | function name | parameter name | number digits =>
      cases run
      simp
  | _ => cases run

/-- A letter or digit is only in a run of its kind. -/
theorem runOf?_eq_of_mem {c : Char} (formed : lexeme.Formed) (member : c ∈ lexeme.text.toList)
    (among : kind ∈ [Char.isUpper, Char.isLower, Char.isDigit]) (holds : kind c = true) :
    lexeme.runOf? = some kind := by
  cases run : lexeme.runOf? with
  | none =>
      rw [not_kind_of_runOf?_eq_none run among c member] at holds
      cases holds
  | some other =>
      rw [kind_unique (runOf?_among run) among ((isRun_of_runOf? formed run).2 c member) holds]

/-- A run of capital letters is the lexeme that the whole run makes. -/
theorem eq_ofCapitals (formed : lexeme.Formed) (run : lexeme.runOf? = some Char.isUpper) :
    lexeme = ofCapitals lexeme.text := by
  cases lexeme with
  | define => rfl
  | entry => rfl
  | function name => rw [text, ofCapitals, if_neg formed.1.2, if_neg formed.2]
  | parameter name =>
      have same := congrFun (Option.some.inj run) 'a'
      cases same
  | number digits =>
      have same := congrFun (Option.some.inj run) '0'
      cases same
  | _ => cases run

/-- A keyword is a whole run of capital letters. -/
theorem eq_keyword_iff {keyword : Lexeme} (isKeyword : keyword = define ∨ keyword = entry)
    (formed : lexeme.Formed) : lexeme = keyword ↔ lexeme.text = keyword.text := by
  constructor
  · rintro rfl
    rfl
  · intro spelled
    have run : lexeme.runOf? = some Char.isUpper := by
      rcases isKeyword with rfl | rfl
      · have member : 'D' ∈ lexeme.text.toList := by
          rw [spelled]
          simp [text]
        exact runOf?_eq_of_mem formed member (by simp) (by decide)
      · have member : 'M' ∈ lexeme.text.toList := by
          rw [spelled]
          simp [text, entryName]
        exact runOf?_eq_of_mem formed member (by simp) (by decide)
    rw [eq_ofCapitals formed run, spelled]
    rcases isKeyword with rfl | rfl
    · rfl
    · rfl

end Lexeme

/-- A token between two parts of a text: it stands where its position says, and if
it is a run it goes on on neither side. -/
structure Token.StandsBetween (token : Token) (front back : List Char) : Prop where
  position : token.position.Locates (front ++ (token.lexeme.text.toList ++ back)) front.length
  nonempty : token.lexeme.text.toList ≠ []
  run : ∀ kind, token.lexeme.runOf? = some kind →
    Grammar.IsRun kind token.lexeme.text.toList ∧ (∀ c ∈ front.getLast?, kind c = false) ∧
      ∀ c ∈ back.head?, kind c = false
  letters : ∀ kind ∈ [Char.isUpper, Char.isLower, Char.isDigit],
    ∀ c ∈ token.lexeme.text.toList, kind c = true → token.lexeme.runOf? = some kind
  define : token.lexeme = .define ↔ token.lexeme.text = "DEF"
  entry : token.lexeme = .entry ↔ token.lexeme.text = "MAIN"

namespace Cursor

variable {cursor here after : Cursor} {token : Token} {kind : Char → Bool}

/-- A run that begins at a place does not begin before it. -/
theorem Reaches.not_kind_before {read : List Char} {c : Char} (reaches : cursor.Reaches here)
    (split : cursor.rest = read ++ here.rest)
    (among : kind ∈ [Char.isUpper, Char.isLower, Char.isDigit])
    (first : c ∈ here.rest.head?) (holds : kind c = true) :
    ∀ last ∈ read.getLast?, kind last = false := by
  cases reaches with
  | refl =>
      rw [List.self_eq_append_left.mp split]
      rintro last ⟨⟩
  | @tail prior _ reached advances =>
      rcases Reaches.exists_past reached with ⟨earlier, splitBefore, _⟩
      rcases advances with ⟨more, token, next⟩
      rcases next_sound next with ⟨formed, spelled⟩
      have nonempty := text_ne_nil_of_next next more
      rw [splitBefore, spelled, ← List.append_assoc] at split
      rw [← List.append_cancel_right split, List.getLast?_append_of_ne_nil _ nonempty]
      intro last isLast
      by_contra goesOn
      rw [Bool.not_eq_false] at goesOn
      have run := Lexeme.runOf?_eq_of_mem formed (List.mem_of_getLast? isLast) among goesOn
      rw [(endsAt_of_next next).of_runOf? run c first] at holds
      cases holds

/-- What is read at a place stands there. -/
theorem Reaches.standsBetween {text : String} {read : List Char}
    (reaches : (Cursor.start text).Reaches here) (split : text.toList = read ++ here.rest)
    (more : here.rest ≠ []) (next : here.next = .ok (token, after)) :
    token.StandsBetween read after.rest := by
  rcases next_sound next with ⟨formed, spelled⟩
  have nonempty := text_ne_nil_of_next next more
  constructor
  · rcases reaches.exists_past with ⟨read', split', _, place⟩
    have same : read' = read := List.append_cancel_right (split'.symm.trans split)
    subst same
    rw [token_position_of_next next, place]
    exact Position.past_locates read' _
  · exact nonempty
  · intro kind run
    have isRun := Lexeme.isRun_of_runOf? formed run
    refine ⟨isRun, ?_, (endsAt_of_next next).of_runOf? run⟩
    rcases List.exists_cons_of_ne_nil nonempty with ⟨c, rest, begins⟩
    have first : c ∈ here.rest.head? := by
      rw [spelled, begins]
      rfl
    exact reaches.not_kind_before split (Lexeme.runOf?_among run) first
      (isRun.2 c (by simp [begins]))
  · exact fun kind among c member => Lexeme.runOf?_eq_of_mem formed member among
  · exact Lexeme.eq_keyword_iff (Or.inl rfl) formed
  · exact Lexeme.eq_keyword_iff (Or.inr rfl) formed

end Cursor

/-! ## Every text -/

section

variable (text : String)

/-- What was read where the lexer stops. -/
theorem settled_stop :
    (Cursor.start text).scanAll.stop.offset =
        (Token.spelled (Cursor.start text).scanAll.tokens).length ∧
      Settled text.toList (Token.spelled (Cursor.start text).scanAll.tokens) := by
  rcases (Cursor.start text).reaches_stop with ⟨reached, split⟩
  rcases reached.settled with ⟨read, splitRead, offset, settled⟩
  cases List.append_cancel_right (splitRead.symm.trans split)
  exact ⟨offset, settled⟩

theorem stop_locates :
    (Cursor.start text).scanAll.stop.position.Locates text.toList
      (Cursor.start text).scanAll.stop.offset := by
  rcases (Cursor.start text).reaches_stop with ⟨reached, split⟩
  rcases reached.exists_past with ⟨read, splitRead, offset, place⟩
  have whole : text.toList = read ++ (Cursor.start text).scanAll.stop.rest := splitRead
  rw [whole, offset, place, Cursor.start, Nat.zero_add]
  exact Position.past_locates _ _

theorem token_standsBetween {before after : List Token} {token : Token}
    (divided : (Cursor.start text).scanAll.tokens = before ++ token :: after) :
    token.StandsBetween (Token.spelled before)
      (Token.spelled after ++ (Cursor.start text).scanAll.stop.rest) := by
  rcases Cursor.exists_reaches_of_scanAll divided with ⟨here, reached, splitHere, scanned⟩
  rcases Cursor.exists_next_of_scanAll scanned with ⟨next, more, read⟩
  have behind : next.rest = Token.spelled after ++ (Cursor.start text).scanAll.stop.rest := by
    have split := (Cursor.start text).reaches_stop.2
    rw [divided, Token.spelled_append, Token.spelled_cons] at split
    rw [split, (Cursor.next_sound read).2] at splitHere
    simpa using splitHere.symm
  rw [← behind]
  exact reached.standsBetween splitHere more read

end

/-- Everything that the lexer answers for a text. -/
structure Scan.IsExact (scan : Scan) (text : String) : Prop where
  /-- the first answers are the tokens -/
  answers : ∀ count token, scan.tokens[count]? = some token →
    ((Cursor.start text).afterCalls count).call.1 = .ok token
  /-- after that the lexer has stopped -/
  stopped : ∀ count, scan.tokens.length ≤ count →
    (Cursor.start text).afterCalls count = scan.stop
  /-- where it has stopped, its answer is always the same and it stays there -/
  stays : scan.stop.call = (scan.ending, scan.stop)
  /-- this is the list of tokens, if the text has one -/
  tokenized : tokenize text = scan.ending.map fun last => scan.tokens ++ [last]
  /-- the texts of the tokens are the text up to the stop -/
  spelled : text.toList = Token.spelled scan.tokens ++ scan.stop.rest
  offset : scan.stop.offset = (Token.spelled scan.tokens).length
  located : scan.stop.position.Locates text.toList scan.stop.offset
  /-- every token stands where its position says, and runs are maximal -/
  tokens : ∀ before token after, scan.tokens = before ++ token :: after →
    token.StandsBetween (Token.spelled before) (Token.spelled after ++ scan.stop.rest)
  /-- the end of the input is answered at the end of the text -/
  atEnd : ∀ last, scan.ending = .ok last →
    last = ⟨.endOfInput, scan.stop.position⟩ ∧ scan.stop.offset = text.length
  /-- that happens if and only if nothing offends -/
  lawful : (∃ last, scan.ending = .ok last) ↔ ∀ offset, ¬ Offends text.toList offset
  /-- an error is at the first character that offends -/
  leftmost : ∀ error, scan.ending = .error error →
    error.position = scan.stop.position ∧ Offends text.toList scan.stop.offset ∧
      ∀ offset < scan.stop.offset, ¬ Offends text.toList offset

/-- The lexer is exact on every text. -/
theorem lexer_exact (text : String) : (Cursor.start text).scanAll.IsExact text := by
  rcases (Cursor.start text).calls_scanAll with ⟨answers, stopped⟩
  rcases (Cursor.start text).call_stop with ⟨stays, ending⟩
  rcases settled_stop text with ⟨offset, settled⟩
  have spelled : text.toList = Token.spelled (Cursor.start text).scanAll.tokens ++
      (Cursor.start text).scanAll.stop.rest := (Cursor.start text).reaches_stop.2
  refine ⟨answers, stopped, stays, ?_, spelled, offset, stop_locates text,
    fun _ _ _ divided => token_standsBetween text divided, ?_, ?_, ?_⟩
  · rw [tokenize]
    cases (Cursor.start text).scanAll.ending <;> rfl
  · intro token answer
    rcases ending with ⟨finished, last⟩ | ⟨cause, _, last⟩
    · rw [last] at answer
      rw [offset, ← String.length_toList, spelled, finished, List.append_nil]
      exact ⟨(Except.ok.inj answer).symm, rfl⟩
    · rw [last] at answer
      cases answer
  · rcases ending with ⟨finished, last⟩ | ⟨cause, failed, last⟩
    · rw [last]
      refine ⟨?_, fun _ => ⟨_, rfl⟩⟩
      rintro _ place ⟨c, here, offence⟩
      rcases List.getElem?_eq_some_iff.mp here with ⟨within, _⟩
      rw [spelled, finished, List.append_nil] at within
      exact settled.lawful place within ⟨c, here, offence⟩
    · rw [last]
      refine ⟨?_, fun lawful => absurd (settled.offends spelled failed) (lawful _)⟩
      rintro ⟨token, ⟨⟩⟩
  · intro error answer
    rcases ending with ⟨_, last⟩ | ⟨cause, failed, last⟩
    · rw [last] at answer
      cases answer
    · rw [last, Except.error.injEq] at answer
      rw [← answer, offset]
      exact ⟨rfl, settled.offends spelled failed, settled.lawful⟩

end Polycalc
