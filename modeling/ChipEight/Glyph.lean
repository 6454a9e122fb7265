import ChipEight.Byte
import ChipEight.Double.Text
import ChipEight.Text.Quoted

/-! # Built-in glyphs
Every hexadecimal digit has a picture eight pixels wide and five rows high, one byte a row. The table
starts at address 0, so the glyph of digit `d` starts at `5 * d`. -/
namespace ChipEight

def glyphRows : Nat := 5

def glyphTable : List Byte := [
  0xf0, 0x90, 0x90, 0x90, 0xf0,
  0x20, 0x60, 0x20, 0x20, 0x70,
  0xf0, 0x10, 0xf0, 0x80, 0xf0,
  0xf0, 0x10, 0xf0, 0x10, 0xf0,
  0x90, 0x90, 0xf0, 0x10, 0x10,
  0xf0, 0x80, 0xf0, 0x10, 0xf0,
  0xf0, 0x80, 0xf0, 0x90, 0xf0,
  0xf0, 0x10, 0x20, 0x40, 0x40,
  0xf0, 0x90, 0xf0, 0x90, 0xf0,
  0xf0, 0x90, 0xf0, 0x10, 0xf0,
  0xf0, 0x90, 0xf0, 0x90, 0x90,
  0xe0, 0x90, 0xe0, 0x90, 0xe0,
  0xf0, 0x80, 0x80, 0x80, 0xf0,
  0xe0, 0x90, 0x90, 0x90, 0xe0,
  0xf0, 0x80, 0xf0, 0x80, 0xf0,
  0xf0, 0x80, 0xf0, 0x80, 0x80]

/-- What a caller may name a glyph by. Only numbers and truth values can name a digit. -/
inductive GlyphName where
  | number (n : Int)
  | truth (b : Bool)
  | absent
  | real (x : Double)
  | text (s : String)
deriving DecidableEq, Repr

namespace GlyphName

def digit? : GlyphName → Option Nat
  | .number n => if 0 ≤ n ∧ n ≤ 0xf then some n.toNat else none
  | .truth b => some b.toNat
  | .absent | .real _ | .text _ => none

def written : GlyphName → String
  | .number n => toString n
  | .truth b => Text.truth b
  | .absent => "None"
  | .real x => x.text
  | .text s => Text.quoted s

end GlyphName

end ChipEight
