import ChipEight.Byte

/-! # Display
A picture of lit and dark pixels. Coordinates are integers and wrap around both edges. A sprite is
drawn by toggling pixels, and drawing reports whether it turned a lit pixel dark. -/
namespace ChipEight

inductive Resolution where
  | low | high
deriving DecidableEq, Repr

namespace Resolution

def width : Resolution → Nat
  | .low => 64
  | .high => 128

def height : Resolution → Nat
  | .low => 32
  | .high => 64

theorem width_pos (r : Resolution) : 0 < r.width := by cases r <;> decide

theorem height_pos (r : Resolution) : 0 < r.height := by cases r <;> decide

end Resolution

structure Display where
  resolution : Resolution
  pixels : Vector (Vector Bool resolution.width) resolution.height

namespace Display

def blank (r : Resolution) : Display :=
  ⟨r, Vector.replicate r.height (Vector.replicate r.width false)⟩

def width (d : Display) : Nat := d.resolution.width

def height (d : Display) : Nat := d.resolution.height

/-- The coordinate within `size` that `c` wraps around to. -/
def wrapped (size : Nat) (positive : 0 < size) (c : Int) : Fin size :=
  ⟨(c % size).toNat, by have := Int.emod_lt_of_pos c (Int.natCast_pos.mpr positive); omega⟩

def column (d : Display) (x : Int) : Fin d.resolution.width :=
  wrapped _ d.resolution.width_pos x

def line (d : Display) (y : Int) : Fin d.resolution.height :=
  wrapped _ d.resolution.height_pos y

def lit (d : Display) (x y : Int) : Bool := d.pixels[d.line y][d.column x]

def toggle (d : Display) (x y : Int) : Display :=
  let pixels := d.pixels.set (d.line y) (d.pixels[d.line y].set (d.column x) !d.lit x y)
  { d with pixels }

/-- Toggles the pixels of one sprite row, the highest bit leftmost. -/
def drawRow (d : Display) (x y : Int) (row : Byte) : Display × Bool :=
  (List.range 8).foldl (fun (d, erased) (i : Nat) =>
    if row.getMsbD i then (d.toggle (x + i) y, erased || d.lit (x + i) y) else (d, erased)) (d, false)

/-- Draws the rows of a sprite below one another and tells whether a lit pixel was erased. -/
def drawSprite (d : Display) (x y : Int) : List Byte → Display × Bool
  | [] => (d, false)
  | row :: rest =>
    let (d, erased) := d.drawRow x y row
    let (d, erasedBelow) := d.drawSprite x (y + 1) rest
    (d, erased || erasedBelow)

def clear (d : Display) : Display := blank d.resolution

def rows (d : Display) : List (List Bool) := d.pixels.toList.map Vector.toList

/-- The columns and lines of the lit pixels, line by line from the top and each from the left. -/
def litPixels (d : Display) : List (Nat × Nat) :=
  (List.finRange d.resolution.height).flatMap fun y =>
    ((List.finRange d.resolution.width).filter fun x => d.pixels[y][x]).map fun x => (x.val, y.val)

end Display

end ChipEight
