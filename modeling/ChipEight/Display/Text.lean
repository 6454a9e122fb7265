import ChipEight.Display

/-! # Displays as text
One line a row and one piece of text a pixel. The pieces may be any texts, and the picture ends with a
line break. -/
namespace ChipEight

/-- The pieces of text for lit and dark pixels. -/
structure Pens where
  lit : String := "*"
  dark : String := " "
deriving DecidableEq, Repr

namespace Pens

def line (p : Pens) (row : List Bool) : String :=
  String.join (row.map fun b => if b then p.lit else p.dark)

def picture (p : Pens) (d : Display) : String :=
  "\n".intercalate (d.rows.map p.line) ++ "\n"

end Pens

end ChipEight
