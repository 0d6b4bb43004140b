/-!
# Painting text on a terminal

A terminal shows text bold, dark or coloured between control sequences.  Which
sequences these are is not known here: a painting is whatever puts a text between
control sequences and leaves it as it is.  Without colours nothing is put around a
text.
-/

namespace Polycalc.Text

/-- How heavy a text is drawn. -/
inductive Weight
  | bold
  | dark
  deriving DecidableEq, Repr

/-- The colours in use. -/
inductive Colour
  | red
  | magenta
  | cyan
  deriving DecidableEq, Repr

/-- The control sequence that selects how the text behind it is drawn, by a
number. -/
def controlSequence (code : Nat) : String :=
  "\x1b[" ++ toString code ++ "m"

/-- Several control sequences. -/
def controlSequences (codes : List Nat) : String :=
  String.join (codes.map controlSequence)

/-- How texts are painted. -/
structure Painting where
  /-- a text in a weight and perhaps a colour -/
  paint : Weight → Option Colour → String → String
  /-- the text stands as it is between control sequences, and these do not depend
  on it -/
  encloses : ∀ weight colour, ∃ opening closing, ∀ text,
    paint weight colour text = controlSequences opening ++ text ++ controlSequences closing

namespace Painting

/-- Texts are left as they are. -/
def plain : Painting where
  paint _ _ text := text
  encloses _ _ := ⟨[], [], fun text => by simp [controlSequences]⟩

/-- The number of a weight on a terminal of the usual kind. -/
def codeOfWeight : Weight → Nat
  | .bold => 1
  | .dark => 2

/-- The number of a colour on a terminal of the usual kind. -/
def codeOfColour : Colour → Nat
  | .red => 31
  | .magenta => 35
  | .cyan => 36

/-- Texts are painted for a terminal of the usual kind: the sequence of the weight
comes before that of the colour, and both are written even around an empty
text. -/
def ofTerminal : Painting where
  paint weight colour text :=
    controlSequences (codeOfWeight weight :: (colour.map codeOfColour).toList) ++ text
      ++ controlSequences [0]
  encloses _ _ := ⟨_, _, fun _ => rfl⟩

/-- Texts are painted, or left as they are. -/
instance : Coe Bool Painting where
  coe colours := if colours then ofTerminal else plain

end Painting

end Polycalc.Text
