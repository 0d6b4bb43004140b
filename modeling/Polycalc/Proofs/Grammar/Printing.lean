import Polycalc.Program.Printer
import Polycalc.Proofs.Expr.Sides
import Polycalc.Proofs.Grammar.Acceptance
import Polycalc.Proofs.Grammar.Normal
import Polycalc.Proofs.Program.Performing

/-!
# Printing gives the normal form

A tree with a derivation needs no parentheses, and what is printed of it is the
normal form of the derived text (`Grammar.IsSum.render_eq_ok`); so it is with a
definition and, if no function is defined twice, with a whole program
(`source_eq_normalize`).
-/

namespace Polycalc

open Grammar

/-- A value with few enough digits can be written. -/
theorem Limits.write_eq_ok_of_lt {limits : Limits} {value : Int} {digits : Nat}
    (limited : limits.digits = some digits) (short : value.natAbs < 10 ^ digits) :
    limits.write value = .ok (toString value) := by
  rw [write, limited]
  exact if_pos short

/-- Only too many digits keep a value from being written. -/
theorem Limits.of_write_eq_error {limits : Limits} {value : Int} {fault : Fault}
    (failed : limits.write value = .error fault) :
    ∃ digits, limits.digits = some digits ∧ 10 ^ digits ≤ value.natAbs ∧
      fault = .valueTooLong digits := by
  cases limited : limits.digits with
  | none =>
      rw [write_eq_ok limited] at failed
      cases failed
  | some digits =>
      rw [write, limited] at failed
      by_cases short : value.natAbs < 10 ^ digits
      · cases (if_pos short).symm.trans failed
      · cases (if_neg short).symm.trans failed
        exact ⟨digits, rfl, Nat.le_of_not_lt short, rfl⟩

namespace Grammar

variable {limits : Limits} {bounds : Bounds} {scope : List String}

/-! ## Expressions -/

/-- A number that may be read may be written. -/
theorem write_decimal (wide : limits.digits = some bounds.digits) {digits : List Char}
    (numeral : IsRun Char.isDigit digits) (short : digits.length ≤ bounds.digits) :
    limits.write (decimal digits) = .ok (String.ofList (normalize digits)) := by
  have stripped := stripZeros_eq_toDigits numeral
  have some : 0 < bounds.digits :=
    Nat.lt_of_lt_of_le (List.length_pos_of_ne_nil numeral.1) short
  have small : decimal digits < 10 ^ bounds.digits := by
    rw [← Nat.length_toDigits_le_iff (by decide) some, ← stripped]
    exact Nat.le_trans (length_stripZeros_le digits) short
  rw [normalize_digits numeral, stripped]
  exact Limits.write_eq_ok_of_lt wide small

/-- What is printed of a sum that was derived is the normal form of its
text. -/
theorem IsSum.render_eq_ok (wide : limits.digits = some bounds.digits) {text : List Char}
    {expr : Expr} (isSum : IsSum bounds scope text expr) :
    expr.render limits = .ok (String.ofList (Grammar.normalize text)) := by
  induction isSum using @IsSum.rec bounds scope
    (fun text expr _ => expr.render limits = .ok (String.ofList (Grammar.normalize text)) ∧
      expr.precedence = 3)
    (fun text expr _ => expr.render limits = .ok (String.ofList (Grammar.normalize text)) ∧
      Operator.product.precedence ≤ expr.precedence) _
    (fun text arguments _ => ∃ texts, arguments.mapM (Expr.render limits) = .ok texts ∧
      " ".intercalate texts = String.ofList (Grammar.normalize text)) with
  | number numeral short =>
      rw [Expr.render]
      exact ⟨write_decimal wide numeral short, rfl⟩
  | parameter word _ =>
      rw [Expr.render, normalize_parameterName word, String.ofList_toList]
      exact ⟨rfl, rfl⟩
  | @call _ name _ text _ callee _ _ given =>
      rcases given with ⟨texts, written, joined⟩
      rw [Expr.render_call, written, normalize_call callee]
      refine ⟨congrArg Except.ok (String.ext ?_), rfl⟩
      rw [joined]
      simp
  | atom _ isAtom =>
      refine ⟨isAtom.1, ?_⟩
      rw [isAtom.2]
      decide
  | @times _ _ _ second position _ _ left right =>
      have binds : Operator.product.precedence < second.precedence := by
        rw [right.2]
        decide
      rw [Expr.render_binary_eq_ok left.1 right.1 left.2 binds position,
        normalize_separated _ _ (by decide)]
      refine ⟨congrArg Except.ok (String.ext ?_), Nat.le_refl 2⟩
      simp [Operator.symbol]
  | product _ isProduct => exact isProduct.1
  | @plus _ _ first _ position _ _ left right =>
      rw [Expr.render_binary_eq_ok left right.1 first.sum_precedence_le right.2 position,
        normalize_separated _ _ (by decide)]
      refine congrArg Except.ok (String.ext ?_)
      simp [Operator.symbol]
  | none =>
      rw [Grammar.normalize]
      exact ⟨[], rfl, rfl⟩
  | one _ written =>
      exact ⟨[_], mapM_eq_ok_iff.mpr (.cons written .nil), String.intercalate_singleton⟩
  | @more first second _ _ nonempty _ _ areArguments written =>
      rcases areArguments with ⟨texts, given, joined⟩
      rw [mapM_eq_ok_iff] at given
      have some : texts ≠ [] := by
        rintro rfl
        exact nonempty (List.forall₂_nil_right_iff.mp given)
      refine ⟨texts ++ [_], mapM_eq_ok_iff.mpr (List.rel_append given (.cons written .nil)), ?_⟩
      rw [String.intercalate_append_of_ne_nil some (by simp), joined, String.intercalate_singleton,
        normalize_separated _ _ (by decide)]
      apply String.ext
      simp

/-! ## Definitions -/

/-- The name and the parameters of a definition as they are printed. -/
theorem toList_intercalate_heading (name : String) (parameters : List String) :
    (" ".intercalate (name :: parameters)).toList = headingText name parameters := by
  induction parameters generalizing name with
  | nil => simp [headingText]
  | cons parameter rest ih =>
      rw [String.intercalate_cons_cons, String.toList_append, String.toList_append, ih]
      simp [headingText]

/-- What is printed of a definition that was derived is the normal form of its
text, but for the line end. -/
theorem IsDefinition.source_eq_ok (wide : limits.digits = some bounds.digits)
    {text : List Char} {definition : Definition}
    (isDefinition : IsDefinition bounds text definition) :
    ∃ source, definition.source limits = .ok source ∧
      (source ++ "\n").toList = Grammar.normalize text := by
  cases isDefinition with
  | @intro name parameters text _ _ _ named words _ isSum ended =>
      refine ⟨_, by rw [Definition.source, isSum.render_eq_ok wide]; rfl, ?_⟩
      rw [normalize_definition text named words ended]
      simp only [String.toList_append, String.toList_ofList, toList_intercalate_heading]
      simp

/-- Definitions that were derived are printed as the normal form of their
texts. -/
theorem source_eq_ok_of_forall₂ (wide : limits.digits = some bounds.digits)
    {texts : List (List Char)} {definitions : List Definition}
    (each : List.Forall₂ (IsDefinition bounds) texts definitions) :
    ∃ sources, definitions.mapM (Definition.source limits) = .ok sources ∧
      (String.join (sources.map (· ++ "\n"))).toList = (texts.map Grammar.normalize).flatten := by
  simp only [mapM_eq_ok_iff]
  induction each with
  | nil => exact ⟨[], .nil, rfl⟩
  | cons isDefinition _ ih =>
      rcases isDefinition.source_eq_ok wide with ⟨source, written, spelled⟩
      rcases ih with ⟨sources, others, joined⟩
      refine ⟨source :: sources, .cons written others, ?_⟩
      rw [List.map_cons, String.join_cons, String.toList_append, spelled, joined, List.map_cons,
        List.flatten_cons]

/-- A program whose table has the definitions of a text is printed as the normal
form of the text. -/
theorem IsProgram.source_eq_ok (wide : limits.digits = some bounds.digits)
    {text : List Char} {program : Program}
    (isProgram : IsProgram bounds text program.functions.entries) :
    program.source limits = .ok (String.ofList (Grammar.normalize text)) := by
  rcases isProgram with ⟨texts, rfl, each⟩
  rcases source_eq_ok_of_forall₂ wide each with ⟨sources, written, joined⟩
  rw [Program.source, written, normalize_flatten each, ← joined, String.ofList_toList]
  rfl

end Grammar

/-! ## Texts -/

/-- Places have no part in names. -/
theorem Definition.map_name_eq_of_map_bare_eq {definitions others : List Definition}
    (same : definitions.map bare = others.map bare) :
    definitions.map name = others.map name := by
  have names := congrArg (List.map name) same
  rwa [List.map_map, List.map_map] at names

/-- If no function is defined twice in a text, the program that is read is
printed as the normal form of the text: without zeros in front of its numbers
and without carriage returns, and otherwise as it stands. -/
theorem source_eq_normalize (maxArguments : Int) (digits : Nat) (nesting : Option Nat)
    (liveCalls : Nat) {text : String} {program : Program}
    (parsed : Program.parse ⟨some maxArguments, ⟨some digits, nesting, liveCalls⟩⟩ text =
      .ok program)
    {definitions : List Definition}
    (isProgram : IsProgram ⟨maxArguments.toNat, digits⟩ text.toList definitions)
    (once : (definitions.map Definition.name).Nodup) :
    program.source ⟨some digits, nesting, liveCalls⟩ =
      .ok (String.ofList (normalize text.toList)) := by
  obtain ⟨read, final, last, path, atEnd, complete, rfl⟩ := Program.parse_eq_ok_iff.mp parsed
  have imposes : Settings.Imposes ⟨some maxArguments, ⟨some digits, nesting, liveCalls⟩⟩
      ⟨maxArguments.toNat, digits⟩ := ⟨⟨maxArguments, rfl, rfl⟩, rfl⟩
  have readIsProgram : IsProgram ⟨maxArguments.toNat, digits⟩ text.toList read :=
    path.isProgram imposes atEnd complete .start
  have distinct : (read.map Definition.name).Nodup := by
    rw [Definition.map_name_eq_of_map_bare_eq (isProgram.unique readIsProgram)]
    exact once
  have inForce : last.program.functions.entries = read := by
    rw [(path.program_eq complete).1, Program.entries_ofDefinitions distinct]
  rw [← inForce] at readIsProgram
  exact readIsProgram.source_eq_ok rfl

/-- Two functions whose text is not normal. -/
def paddedText : String :=
  "DEF F x \x7b 007+x*0 \x7d ;\r\nDEF MAIN \x7b F(00)*010 \x7d ;\n"

/-- What the text is read as. -/
def padded : Program :=
  .ofDefinitions
    [⟨"F", ["x"], .join .sum (.number 7 ⟨1, 11⟩)
        (.join .product (.parameter "x" ⟨1, 15⟩) (.number 0 ⟨1, 17⟩)), 1⟩,
      ⟨entryName, [], .join .product
        (.call (.parsed 0) "F" [.number 0 ⟨2, 14⟩] ⟨2, 12⟩) (.number 10 ⟨2, 18⟩), 2⟩]

theorem paddedText_printed :
    Program.parse {} paddedText = .ok padded ∧ padded.redefined = [] ∧
      padded.source .standard =
        .ok "DEF F x \x7b 7+x*0 \x7d ;\nDEF MAIN \x7b F(0)*10 \x7d ;\n" := by
  have parsed : Program.parse {} paddedText = .ok padded := by cbv
  obtain ⟨definitions, final, last, path, atEnd, complete, same⟩ :=
    Program.parse_eq_ok_iff.mp parsed
  have isProgram : IsProgram ⟨1, 4300⟩ paddedText.toList definitions :=
    path.isProgram ⟨⟨1, rfl, rfl⟩, rfl⟩ atEnd complete .start
  have noted : last.program.redefined = [] := by
    rw [same]
    rfl
  rw [(path.program_eq complete).1, Program.redefined_ofDefinitions_eq_nil_iff] at noted
  have printed := source_eq_normalize 1 4300 (some 250) 320 parsed isProgram noted
  have normal : String.ofList (normalize paddedText.toList) =
      "DEF F x \x7b 7+x*0 \x7d ;\nDEF MAIN \x7b F(0)*10 \x7d ;\n" := by
    cbv
  exact ⟨parsed, rfl, printed.trans (congrArg Except.ok normal)⟩

end Polycalc
