import Polycalc.Proofs.Program.Completion
import Polycalc.Proofs.Program.Widening
import Polycalc.Proofs.Token.Offsets

/-!
# Beginnings of programs

The tokens on a path stay what they are when another text follows them, as long as
no letter or digit follows a word (`ProgramReader.Path.redirect`).  So the text that
completes what was begun may follow whatever was read, and what was read is the
beginning of a program (`Program.begins_of_path`).

The missing part may have a call in it where the calls are nested as deeply as
allowed, and another argument of a call that is full.  The program is therefore read
with more arguments and with one call more in a nest.
-/

namespace Polycalc

open Grammar

/-! ## Another text behind a path -/

/-- The last token of the expression may be a word. -/
def Awaiting.FollowsWord : Awaiting → Prop
  | parenthesis _ _ | continuation _ => True
  | _ => False

/-- The last token that was read may be a word. -/
def Phase.FollowsWord : Phase → Prop
  | define | word _ => True
  | body _ reader => reader.awaiting.FollowsWord
  | _ => False

/-- No letter or digit is missing behind a word. -/
theorem Phase.FollowsWord.apart_completion {phase : Phase} (follows : phase.FollowsWord) :
    Apart phase.completion := by
  cases phase with
  | define => exact apart_cons (by decide)
  | word heading => exact apart_cons (by decide)
  | body heading reader =>
      rcases reader with ⟨stack, pending, awaiting, calls⟩
      cases awaiting with
      | parenthesis name position => exact apart_cons (by decide)
      | continuation operand =>
          cases stack with
          | nil => exact apart_cons (by decide)
          | cons innermost outer => exact apart_cons (by decide)
      | _ => exact follows.elim
  | _ => exact follows.elim

namespace ProgramReader

variable {settings : Settings} {cursor cursor' final : Cursor} {reader reader' last : ProgramReader}
  {token : Token} {definitions : List Definition}

theorem Reads.followsWord (reads : Reads settings reader token reader')
    (isWord : token.lexeme.IsWord) : reader'.phase.FollowsWord := by
  cases reads with
  | define => trivial
  | name _ => trivial
  | parameter _ => trivial
  | body _ reads =>
      cases reads with
      | number _ => trivial
      | parameter _ _ => trivial
      | name _ _ => trivial
      | _ => exact isWord.elim
  | _ => exact isWord.elim

/-- A path on which nothing is read stays where it is. -/
theorem Path.eq_of_rest_eq (path : Path settings cursor reader definitions final last)
    (same : cursor.rest = final.rest) : last = reader := by
  cases path with
  | refl => rfl
  | step more next _ _ later =>
      rcases later.reaches.exists_past with ⟨read, split, _⟩
      have shorter := Cursor.length_rest_next_lt next more
      rw [same, split, List.length_append] at shorter
      omega

/-- The token in front of a path ends where it does when another text follows the
path: behind it is the next token, or the new text. -/
theorem Path.endsAt {after : Cursor} {further more : List Char}
    (later : Path settings after reader' definitions final last)
    (next : cursor.next = .ok (token, after)) (reads : Reads settings reader token reader')
    (left : after.rest = further ++ final.rest) (apart : last.phase.FollowsWord → Apart more) :
    token.lexeme.EndsAt (further ++ more) := by
  by_cases isLast : further = []
  · subst isLast
    have same : last = reader' := later.eq_of_rest_eq left
    rw [same] at apart
    exact Lexeme.endsAt_of_apart fun isWord => apart (reads.followsWord isWord)
  · have scanned := Cursor.endsAt_of_next next
    rw [left] at scanned
    apply scanned.of_head?
    rw [List.head?_append_of_ne_nil _ isLast, List.head?_append_of_ne_nil _ isLast]

/-- Another text may follow what is read on a path, as long as no letter or digit
follows a word. -/
theorem Path.redirect {read more : List Char}
    (path : Path settings cursor reader definitions final last)
    (split : cursor.rest = read ++ final.rest) (apart : last.phase.FollowsWord → Apart more)
    (here : cursor'.rest = read ++ more) (place : cursor'.position = cursor.position) :
    ∃ final', Path settings cursor' reader definitions final' last ∧ final'.rest = more ∧
      final'.position = final.position := by
  induction path generalizing cursor' read with
  | refl =>
      have nothing : read = [] := List.self_eq_append_left.mp split
      rw [nothing] at here
      exact ⟨cursor', .refl, here, place⟩
  | @step cursor after _ _ _ _ token _ _ next short reads later ih =>
      rcases later.reaches.exists_further next split with ⟨further, rfl, left⟩
      rw [List.append_assoc] at here
      rcases Cursor.next_of_endsAt token.lexeme here (Cursor.next_sound next).1
        reads.ne_endOfInput (later.endsAt next reads left apart) with ⟨more', after', next', left'⟩
      have same : (⟨token.lexeme, cursor'.position⟩ : Token) = token := by
        rw [place, ← Cursor.token_position_of_next next]
      rw [same] at next'
      have place' : after'.position = after.position := by
        rw [Cursor.position_next next', Cursor.position_next next, place]
      rcases ih left apart left' place' with ⟨final', path', ended⟩
      exact ⟨final', .step more' next' short reads path', ended⟩

/-! ## What was read -/

variable {bounds : Bounds}

/-- On a path the text of the definition that was begun is taken along. -/
theorem Path.spells (imposes : settings.Imposes bounds)
    (path : Path settings cursor reader definitions final last) {text read : List Char}
    (spells : reader.phase.Spells bounds text) (split : cursor.rest = read ++ final.rest) :
    ∃ before begun, text ++ read = before ++ begun ∧ last.phase.Spells bounds begun := by
  induction path generalizing text read with
  | refl =>
      have nothing : read = [] := List.self_eq_append_left.mp split
      exact ⟨[], text, by rw [nothing, List.append_nil, List.nil_append], spells⟩
  | @step _ _ _ _ _ _ token _ _ next short reads later ih =>
      rcases later.reaches.exists_further next split with ⟨further, rfl, left⟩
      rw [← List.append_assoc]
      rcases spells.step imposes (Cursor.next_sound next).1 short reads with
        ⟨_, spells'⟩ | ⟨_, _, _, spells'⟩
      · exact ih spells' left
      · rcases ih spells' left with ⟨before, begun, whole, spells''⟩
        rw [List.nil_append] at whole
        refine ⟨text ++ token.lexeme.text.toList ++ before, begun, ?_, spells''⟩
        rw [whole, List.append_assoc _ before]

theorem Path.shallow_last (path : Path settings cursor reader definitions final last)
    (shallow : reader.phase.Shallow settings.limits) : last.phase.Shallow settings.limits := by
  induction path with
  | refl => exact shallow
  | step _ _ _ reads _ ih => exact ih (shallow.step reads).1

end ProgramReader

/-! ## Completing a path -/

/-- The limits under which calls may be nested one deeper. -/
def Limits.deeper (limits : Limits) : Limits :=
  { limits with nesting := limits.nesting.map (· + 1) }

theorem Limits.allowsNesting_deeper {limits : Limits} {depth : Nat}
    (allowed : limits.allowsNesting depth = true) :
    limits.deeper.allowsNesting (depth + 1) = true := by
  unfold deeper allowsNesting at *
  cases nesting : limits.nesting <;> simp_all

/-- Settings that leave room for this many arguments and for a deeper nest. -/
def Settings.roomier (settings : Settings) (allowed : Int) : Settings :=
  ⟨some allowed, settings.limits.deeper⟩

/-- The text is the beginning of one that is read as a program. -/
def Program.Begins (limits : Limits) (text : List Char) : Prop :=
  ∃ maxArguments suffix program,
    Program.parse ⟨some maxArguments, limits⟩ (String.ofList (text ++ suffix)) = .ok program

section

variable {settings wider : Settings} {bounds : Bounds} {scope : List String}

/-- An expression that was begun is completed under settings that leave room. -/
theorem ExprReader.Spells.completable {reader : ExprReader} {text : List Char}
    (spells : reader.Spells bounds scope text) (shallow : reader.Shallow settings.limits)
    (digit : wider.limits.checkDigits "0" = .ok ())
    (deeper : ∀ depth, settings.limits.allowsNesting depth = true →
      wider.limits.allowsNesting (depth + 1) = true)
    (room : ∀ innermost ∈ reader.stack.head?, innermost.HasRoom wider) :
    reader.Completable wider where
  digit := digit
  nesting := fun _ _ _ => deeper _ shallow.stack.allowed
  opened := by
    intro awaiting
    cases spells with
    | firstArgument _ _ _ => simp
    | _ => cases awaiting
  room := fun _ => room

/-- There is room for one more argument of the innermost open call. -/
theorem ProgramReader.exists_room (reader : ProgramReader) (least : Int) :
    ∃ allowed, least ≤ allowed ∧ ∀ heading body, reader.phase = .body heading body →
      ∀ innermost ∈ body.stack.head?, (innermost.arguments.length : Int) < allowed := by
  rcases reader with ⟨program, count, phase⟩
  cases phase with
  | body heading body =>
      rcases body with ⟨stack, pending, awaiting, calls⟩
      cases stack with
      | nil =>
          refine ⟨least, Int.le_refl _, ?_⟩
          rintro _ _ ⟨⟩ innermost ⟨⟩
      | cons call outer =>
          refine ⟨max least (call.arguments.length + 1), Int.le_max_left _ _, ?_⟩
          rintro _ _ ⟨⟩ innermost ⟨⟩
          exact Int.lt_of_lt_of_le (Int.lt_succ _) (Int.le_max_right _ _)
  | _ =>
      refine ⟨least, Int.le_refl _, ?_⟩
      rintro _ _ ⟨⟩

/-- What was read on a path is the beginning of a program. -/
theorem Program.begins_of_path {text : String} {definitions : List Definition} {final : Cursor}
    {last : ProgramReader} (imposes : settings.Imposes bounds) (positive : 0 < bounds.digits)
    (path : ProgramReader.Path settings (.start text) .start definitions final last)
    {read : List Char} (split : text.toList = read ++ final.rest) :
    Begins settings.limits.deeper read := by
  rcases imposes.arguments with ⟨bound, given, _⟩
  rcases last.exists_room bound with ⟨allowed, enough, room⟩
  have digit : (settings.roomier allowed).limits.checkDigits "0" = .ok () := by
    simp only [Settings.roomier, Limits.checkDigits, Limits.deeper, imposes.digits]
    exact if_pos positive
  have within : settings.Within (settings.roomier allowed) := by
    apply Settings.within_of_le rfl
    · rw [given]
      exact enough
    · intro depth shallow
      exact Limits.allowsNesting_mono (Nat.le_succ _) (Limits.allowsNesting_deeper shallow)
  rcases path.spells imposes .start split with ⟨_, _, _, spells⟩
  have shallow := path.shallow_last trivial
  have completes : last.Completes (settings.roomier allowed) := by
    apply ProgramReader.completes digit
    intro heading body phase
    rw [phase] at spells shallow
    cases spells with
    | body _ spells =>
        apply spells.completable shallow digit fun _ => Limits.allowsNesting_deeper
        intro innermost member
        exact ⟨allowed, rfl, room heading body phase innermost member⟩
  have whole : (Cursor.start (String.ofList (read ++ last.phase.completion))).rest =
      read ++ last.phase.completion := String.toList_ofList
  obtain ⟨middle, path', left, _⟩ :=
    (path.widen within fun _ => id).redirect split (fun follows => follows.apart_completion)
      whole rfl
  rcases completes middle left with ⟨others, final', last', path'', atEnd, complete⟩
  exact ⟨allowed, last.phase.completion, last'.program,
    Program.parse_eq_ok_iff.mpr ⟨_, final', last', path'.trans path'', atEnd, complete, rfl⟩⟩

end

end Polycalc
