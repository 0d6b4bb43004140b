import Polycalc.Proofs.Grammar.Lexemes

/-!
# The normal form of a text

The grammar leaves two things open that a tree does not record: how many zeros
stand in front of a number, and whether the line feed at the end of a statement
has a carriage return before it.  `Grammar.normalize` settles both and leaves
everything else as it is.

The normal form of a text with a derivation has a derivation of the same tree
(`Grammar.IsSum.normalize`, `Grammar.IsDefinition.normalize`).
-/

namespace Polycalc

open Grammar

/-- An initial part is split off a text at a run that the rest does not go on
with. -/
theorem splitRun_append {kind : Char → Bool} (text : List Char) {rest : List Char}
    (stops : ∀ c ∈ rest.head?, kind c = false) :
    (text ++ rest).takeWhile kind = text.takeWhile kind ∧
      (text ++ rest).dropWhile kind = text.dropWhile kind ++ rest := by
  induction text with
  | nil =>
      cases rest with
      | nil => exact ⟨rfl, rfl⟩
      | cons c tail =>
          have different : kind c = false := stops c rfl
          simp [different]
  | cons c tail ih =>
      cases holds : kind c with
      | false => simp [holds]
      | true => simp [holds, ih]

namespace Grammar

/-! ## Numbers -/

/-- A run of digits without the zeros in front of it; of zeros alone, one is
kept. -/
def stripZeros : List Char → List Char
  | '0' :: next :: rest => stripZeros (next :: rest)
  | digits => digits

theorem isRun_stripZeros {digits : List Char} (numeral : IsRun Char.isDigit digits) :
    IsRun Char.isDigit (stripZeros digits) := by
  fun_induction stripZeros digits with
  | case1 next rest ih =>
      apply ih
      exact ⟨by simp, fun c member => numeral.2 c (List.mem_cons_of_mem _ member)⟩
  | case2 digits _ => exact numeral

theorem length_stripZeros_le (digits : List Char) :
    (stripZeros digits).length ≤ digits.length := by
  fun_induction stripZeros digits with
  | case1 next rest ih => exact Nat.le_succ_of_le ih
  | case2 digits _ => exact Nat.le_refl _

theorem decimal_stripZeros (digits : List Char) : decimal (stripZeros digits) = decimal digits := by
  fun_induction stripZeros digits with
  | case1 next rest ih =>
      rw [ih, ← ofDigitChars_eq_decimal, ← ofDigitChars_eq_decimal]
      rfl
  | case2 digits _ => rfl

/-- A digit is how its value is written. -/
theorem toDigits_of_isDigit {c : Char} (digit : c.isDigit = true) :
    c.toNat - '0'.toNat < 10 ∧ Nat.toDigits 10 (c.toNat - '0'.toNat) = [c] := by
  simp only [Char.isDigit, Bool.and_eq_true, decide_eq_true_eq, ge_iff_le,
    UInt32.le_iff_toNat_le] at digit
  have range : '0'.toNat ≤ c.toNat ∧ c.toNat ≤ '9'.toNat := digit
  have zero : '0'.toNat = 48 := rfl
  have nine : '9'.toNat = 57 := rfl
  have small : c.toNat - '0'.toNat < 10 := by omega
  refine ⟨small, ?_⟩
  rw [Nat.toDigits_of_lt_base small, List.singleton_inj]
  apply Char.toNat_inj.mp
  rw [Nat.toNat_digitChar_of_lt_ten small]
  omega

/-- Digits behind a positive number are written behind it. -/
theorem toDigits_append {digits : List Char} (numeral : ∀ c ∈ digits, c.isDigit = true)
    {value : Nat} (positive : 0 < value) :
    Nat.toDigits 10 value ++ digits = Nat.toDigits 10 (Nat.ofDigitChars 10 digits value) := by
  induction digits generalizing value with
  | nil => rw [List.append_nil, Nat.ofDigitChars_nil]
  | cons c rest ih =>
      rw [List.forall_mem_cons] at numeral
      rcases toDigits_of_isDigit numeral.1 with ⟨small, written⟩
      have further : 0 < 10 * value + (c.toNat - '0'.toNat) := by omega
      rw [Nat.ofDigitChars_cons, ← ih numeral.2 further,
        ← Nat.toDigits_append_toDigits (by decide) positive small, written, List.append_assoc,
        List.singleton_append]

/-- Without the zeros in front, a run of digits is how its value is written. -/
theorem stripZeros_eq_toDigits {digits : List Char} (numeral : IsRun Char.isDigit digits) :
    stripZeros digits = Nat.toDigits 10 (decimal digits) := by
  fun_induction stripZeros digits with
  | case1 next rest ih =>
      rw [ih ⟨by simp, fun c member => numeral.2 c (List.mem_cons_of_mem _ member)⟩,
        ← ofDigitChars_eq_decimal, ← ofDigitChars_eq_decimal]
      rfl
  | case2 digits kept =>
      rcases digits with _ | ⟨c, rest⟩
      · exact absurd rfl numeral.1
      · rcases List.forall_mem_cons.mp numeral.2 with ⟨digit, others⟩
        rcases toDigits_of_isDigit digit with ⟨_, written⟩
        rw [← ofDigitChars_eq_decimal, Nat.ofDigitChars_cons, Nat.mul_zero, Nat.zero_add]
        cases rest with
        | nil => rw [Nat.ofDigitChars_nil, written]
        | cons next rest =>
            have positive : 0 < c.toNat - '0'.toNat := by
              apply Nat.pos_of_ne_zero
              intro zero
              rw [zero] at written
              cases written
              exact kept next rest rfl
            rw [← toDigits_append others positive, written, List.singleton_append]

/-! ## Texts -/

/-- A text in which no number begins with a zero that could be left out, and
every line feed stands without a carriage return. -/
def normalize : List Char → List Char
  | [] => []
  | '\r' :: '\n' :: rest => '\n' :: normalize rest
  | c :: rest =>
    if c.isDigit then
      stripZeros (c :: rest.takeWhile Char.isDigit) ++ normalize (rest.dropWhile Char.isDigit)
    else c :: normalize rest
termination_by text => text.length
decreasing_by
  · simp
  · have shorter := (List.dropWhile_sublist Char.isDigit (l := rest)).length_le
    simp only [List.length_cons]
    omega
  · simp

/-- The text begins neither with a digit nor with a line feed, so that what
stands before it is normalized by itself. -/
def Detached (text : List Char) : Prop :=
  ∀ c ∈ text.head?, c.isDigit = false ∧ c ≠ '\n'

theorem detached_cons {c : Char} {rest : List Char} (breaks : c.isDigit = false ∧ c ≠ '\n') :
    Detached (c :: rest) := by
  intro first isFirst
  cases isFirst
  exact breaks

theorem normalize_lineEnd (rest : List Char) :
    normalize ('\r' :: '\n' :: rest) = '\n' :: normalize rest := by
  rw [normalize]

theorem normalize_cons {c : Char} (rest : List Char) (plain : c.isDigit = false ∧ c ≠ '\r') :
    normalize (c :: rest) = c :: normalize rest := by
  rw [normalize, plain.1]
  · rfl
  · intro tail begins
    exact absurd begins plain.2

theorem normalize_digit_cons {c : Char} (digit : c.isDigit = true) (rest : List Char) :
    normalize (c :: rest) =
      stripZeros (c :: rest.takeWhile Char.isDigit) ++
        normalize (rest.dropWhile Char.isDigit) := by
  rw [normalize, if_pos digit]
  rintro tail rfl
  cases digit

/-- A word without digits and carriage returns is normal. -/
theorem normalize_plain_append {word : List Char}
    (plain : ∀ c ∈ word, c.isDigit = false ∧ c ≠ '\r') (rest : List Char) :
    normalize (word ++ rest) = word ++ normalize rest := by
  induction word with
  | nil => rfl
  | cons c word ih =>
      rw [List.forall_mem_cons] at plain
      rw [List.cons_append, normalize_cons _ plain.1, ih plain.2, List.cons_append]

/-- A text is normalized piece by piece. -/
theorem normalize_append (text : List Char) {rest : List Char} (detached : Detached rest) :
    normalize (text ++ rest) = normalize text ++ normalize rest := by
  fun_induction normalize text with
  | case1 => rfl
  | case2 tail ih =>
      rw [List.cons_append, List.cons_append, normalize_lineEnd, ih, List.cons_append]
  | case3 c tail _ digit ih =>
      rcases splitRun_append tail fun first isFirst => (detached first isFirst).1 with
        ⟨run, others⟩
      rw [List.cons_append, normalize_digit_cons digit, run, others, ih, List.append_assoc]
  | case4 c tail noLineEnd noDigit ih =>
      rw [List.cons_append, normalize, if_neg noDigit, ih, List.cons_append]
      intro others isReturn begins
      cases tail with
      | nil => exact (detached '\n' (by simp_all)).2 rfl
      | cons next tail =>
          cases begins
          exact noLineEnd tail isReturn rfl

theorem normalize_digits {digits : List Char} (numeral : IsRun Char.isDigit digits) :
    normalize digits = stripZeros digits := by
  rcases digits with _ | ⟨c, rest⟩
  · exact absurd rfl numeral.1
  · rcases List.forall_mem_cons.mp numeral.2 with ⟨digit, others⟩
    rw [normalize_digit_cons digit, List.takeWhile_eq_self_iff.mpr others,
      List.dropWhile_eq_nil_iff.mpr others, normalize, List.append_nil]

/-! ## Derivations -/

theorem plain_of_isUpper {c : Char} (upper : c.isUpper = true) : c.isDigit = false ∧ c ≠ '\r' := by
  constructor
  · by_contra digit
    rw [Bool.not_eq_false] at digit
    rw [(Lexeme.not_letter_of_isDigit digit).1] at upper
    cases upper
  · rintro rfl
    cases upper

theorem plain_of_isLower {c : Char} (lower : c.isLower = true) : c.isDigit = false ∧ c ≠ '\r' := by
  constructor
  · by_contra digit
    rw [Bool.not_eq_false] at digit
    rw [(Lexeme.not_letter_of_isDigit digit).2] at lower
    cases lower
  · rintro rfl
    cases lower

variable {bounds : Bounds} {scope : List String}

theorem normalize_functionName_append {name : String} (named : IsFunctionName name)
    (rest : List Char) : normalize (name.toList ++ rest) = name.toList ++ normalize rest :=
  normalize_plain_append (fun c member => plain_of_isUpper (named.1.2 c member)) rest

theorem normalize_parameterName {name : String} (word : IsParameterName name) :
    normalize name.toList = name.toList := by
  have whole := normalize_plain_append (fun c member => plain_of_isLower (word.2 c member)) []
  rwa [List.append_nil, normalize, List.append_nil] at whole

/-- Two texts with a sign between them are normalized apart. -/
theorem normalize_separated (first : List Char) {sign : Char} (second : List Char)
    (isSign : sign.isDigit = false ∧ sign ≠ '\n' ∧ sign ≠ '\r') :
    normalize (first ++ sign :: second) = normalize first ++ sign :: normalize second := by
  rw [normalize_append first (detached_cons ⟨isSign.1, isSign.2.1⟩),
    normalize_cons second ⟨isSign.1, isSign.2.2⟩]

theorem normalize_call {name : String} (callee : IsFunctionName name) (text : List Char) :
    normalize (name.toList ++ '(' :: text ++ [')']) =
      name.toList ++ '(' :: normalize text ++ [')'] := by
  rw [List.append_assoc, normalize_functionName_append callee, List.cons_append,
    normalize_cons _ (by decide), normalize_separated text [] (by decide), normalize]
  simp

/-- The normal form of a sum is a sum with the same tree. -/
theorem IsSum.normalize {text : List Char} {expr : Expr} (isSum : IsSum bounds scope text expr) :
    IsSum bounds scope (normalize text) expr := by
  induction isSum using @IsSum.rec bounds scope
    (fun text expr _ => IsAtom bounds scope (Grammar.normalize text) expr)
    (fun text expr _ => IsProduct bounds scope (Grammar.normalize text) expr) _
    (fun text arguments _ => AreArguments bounds scope (Grammar.normalize text) arguments) with
  | @number digits _ numeral short =>
      rw [normalize_digits numeral, ← decimal_stripZeros digits]
      exact .number (isRun_stripZeros numeral) (Nat.le_trans (length_stripZeros_le digits) short)
  | parameter word declared =>
      rw [normalize_parameterName word]
      exact .parameter word declared
  | call callee _ few given =>
      rw [normalize_call callee]
      exact .call callee given few
  | atom _ isAtom => exact .atom isAtom
  | times _ _ isProduct isAtom =>
      rw [normalize_separated _ _ (by decide)]
      exact .times isProduct isAtom
  | product _ isProduct => exact .product isProduct
  | plus _ _ isSum isProduct =>
      rw [normalize_separated _ _ (by decide)]
      exact .plus isSum isProduct
  | none =>
      rw [Grammar.normalize]
      exact .none
  | one _ isSum => exact .one isSum
  | more nonempty _ _ areArguments isSum =>
      rw [normalize_separated _ _ (by decide)]
      exact .more nonempty areArguments isSum

theorem plain_headingText {name : String} {parameters : List String}
    (named : IsFunctionName name)
    (words : ∀ parameter ∈ parameters, IsParameterName parameter) :
    ∀ c ∈ headingText name parameters, c.isDigit = false ∧ c ≠ '\r' := by
  rw [headingText, List.forall_mem_append]
  constructor
  · exact fun c member => plain_of_isUpper (named.1.2 c member)
  · intro c member
    rcases List.mem_flatMap.mp member with ⟨parameter, declared, inWord⟩
    rcases List.mem_cons.mp inWord with rfl | inName
    · decide
    · exact plain_of_isLower ((words parameter declared).2 c inName)

/-- The text of a definition is normal but for its body and its line end. -/
theorem normalize_definition {name : String} {parameters : List String} (text : List Char)
    {lineEnd : List Char} (named : IsFunctionName name)
    (words : ∀ parameter ∈ parameters, IsParameterName parameter)
    (ended : lineEnd = ['\n'] ∨ lineEnd = ['\r', '\n']) :
    normalize ("DEF ".toList ++ headingText name parameters ++ " \x7b ".toList ++ text ++
        " \x7d ;".toList ++ lineEnd) =
      "DEF ".toList ++ headingText name parameters ++ " \x7b ".toList ++ normalize text ++
        " \x7d ;".toList ++ ['\n'] := by
  have front : ∀ c ∈ "DEF ".toList ++ headingText name parameters ++ " \x7b ".toList,
      c.isDigit = false ∧ c ≠ '\r' := by
    rw [List.forall_mem_append, List.forall_mem_append]
    exact ⟨⟨by simp, plain_headingText named words⟩, by simp⟩
  have back : normalize (" \x7d ;".toList ++ lineEnd) = " \x7d ;".toList ++ ['\n'] := by
    rw [normalize_plain_append (by simp)]
    rcases ended with rfl | rfl
    · rw [normalize_cons [] (by decide), normalize]
    · rw [normalize_lineEnd, normalize]
  have detached : Detached (" \x7d ;".toList ++ lineEnd) := detached_cons (by decide)
  rw [List.append_assoc _ text, List.append_assoc _ (text ++ _), normalize_plain_append front,
    List.append_assoc text, normalize_append text detached, back]
  simp only [List.append_assoc]

/-- The normal form of the text of a definition is one of the same
definition. -/
theorem IsDefinition.normalize {text : List Char} {definition : Definition}
    (isDefinition : IsDefinition bounds text definition) :
    IsDefinition bounds (normalize text) definition := by
  cases isDefinition with
  | intro named words entry isSum ended =>
      rw [normalize_definition _ named words ended]
      exact .intro named words entry isSum.normalize (Or.inl rfl)

theorem IsDefinition.detached {text : List Char} {definition : Definition}
    (isDefinition : IsDefinition bounds text definition) (rest : List Char) :
    Detached (text ++ rest) := by
  cases isDefinition with
  | intro _ _ _ _ _ => exact detached_cons (by decide)

/-- The texts of definitions are normalized one by one. -/
theorem normalize_flatten {texts : List (List Char)} {definitions : List Definition}
    (each : List.Forall₂ (IsDefinition bounds) texts definitions) :
    Grammar.normalize texts.flatten = (texts.map Grammar.normalize).flatten := by
  have split : normalize texts.flatten = (texts.map normalize).flatten ∧
      Detached texts.flatten := by
    induction each with
    | nil => exact ⟨by rw [List.flatten_nil, normalize]; rfl, by simp [Detached]⟩
    | @cons text _ texts _ isDefinition _ ih =>
        rw [List.flatten_cons, List.map_cons, List.flatten_cons]
        exact ⟨by rw [normalize_append text ih.2, ih.1], isDefinition.detached _⟩
  exact split.1

/-- The normal form of a program is a program with the same definitions. -/
theorem IsProgram.normalize {text : List Char} {definitions : List Definition}
    (isProgram : IsProgram bounds text definitions) :
    IsProgram bounds (normalize text) definitions := by
  rcases isProgram with ⟨texts, rfl, each⟩
  refine ⟨texts.map Grammar.normalize, normalize_flatten each, ?_⟩
  rw [List.forall₂_map_left_iff]
  exact each.imp fun _ _ => IsDefinition.normalize

end Grammar

end Polycalc
