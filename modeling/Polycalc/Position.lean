/-!
# Positions in a source text

A position names a character by its line and its column, both counted from
one.  Expressions that were put together by hand may carry any integers, so
neither coordinate is restricted.
-/

namespace Polycalc

/-- A line and a column of a source text. -/
structure Position where
  line : Int
  col : Int
  deriving DecidableEq, Repr, Inhabited

namespace Position

/-- The position of the first character of a text. -/
def start : Position := ⟨1, 1⟩

/-- The position that an expression has when nobody says where it stands. -/
def unplaced : Position := ⟨0, 0⟩

/-- The position `count` characters further on the same line. -/
def advance (position : Position) (count : Nat) : Position :=
  { position with col := position.col + count }

/-- The first position of the following line. -/
def nextLine (position : Position) : Position :=
  ⟨position.line + 1, 1⟩

end Position

end Polycalc
