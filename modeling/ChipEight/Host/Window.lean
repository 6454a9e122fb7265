import ChipEight.Display

/-! # Windows
The window system is asked to do one thing after the other and may fail at each of them; what it makes
of a request is not known here. A screen asks it for a surface on which every pixel of the display is a
square of `scale` surface pixels. -/
namespace ChipEight

structure Colour where
  red : Nat
  green : Nat
  blue : Nat
  alpha : Nat
deriving DecidableEq, Repr

def Colour.blueViolet : Colour := ⟨80, 69, 155, 255⟩
def Colour.lightBlue : Colour := ⟨136, 126, 203, 255⟩

/-- An integer, or none where an option was given an empty value. Multiples of none are none. -/
abbrev Measure := Option Int

inductive WindowRequest where
  | clock
  | caption (title : String)
  | mode (width height : Measure)
  | fill (c : Colour)
  | rectangle (left top width height : Measure) (c : Colour)
  | flip
  | tick (speed : Measure)
deriving DecidableEq, Repr

/-- An error of the window system by its name and its wording. -/
structure WindowError where
  name : String
  message : String
deriving DecidableEq, Repr

abbrev WindowM (ω : Type) := EStateM WindowError ω

/-- A window system with states in `ω`. Starting and stopping it always succeeds. The surface of the
window has a size, and each of its pixels a colour. -/
structure WindowSystem (ω : Type) where
  start : ω → ω
  stop : ω → ω
  answer : WindowRequest → WindowM ω Unit
  size : ω → Nat × Nat
  pixel : ω → Nat → Nat → Colour

/-- Anything that a window system is called for. -/
inductive Call where
  | start
  | stop
  | request (r : WindowRequest)
deriving DecidableEq, Repr

namespace Call

def speed? : Call → Option Measure
  | .request (.tick speed) => some speed
  | _ => none

def window? : Call → Option (Measure × Measure)
  | .request (.mode width height) => some (width, height)
  | _ => none

def caption? : Call → Option String
  | .request (.caption title) => some title
  | _ => none

end Call

/-- A window system that keeps the calls it has had, the latest first. -/
def WindowSystem.recorded {ω : Type} (system : WindowSystem ω) : WindowSystem (ω × List Call) where
  start := fun (s, calls) => (system.start s, .start :: calls)
  stop := fun (s, calls) => (system.stop s, .stop :: calls)
  answer r := fun (s, calls) => match system.answer r s with
    | .ok _ s => .ok () (s, .request r :: calls)
    | .error e s => .error e (s, .request r :: calls)
  size := fun (s, _) => system.size s
  pixel := fun (s, _) => system.pixel s

structure Screen where
  scale : Measure
  background : Colour := .blueViolet
  foreground : Colour := .lightBlue

namespace Screen
variable {ω : Type} (s : Screen) (system : WindowSystem ω)

/-- The length of a row of squares. -/
def measure (squares : Int) : Measure := s.scale.map (squares * ·)

/-- Makes a window of `width` by `height` squares in the background colour. -/
def makeWindow (width height : Int) : WindowM ω Unit := do
  system.answer (.mode (s.measure width) (s.measure height))
  system.answer (.fill s.background)

def writePixel (x y : Int) (on : Bool) : WindowM ω Unit :=
  system.answer (.rectangle (s.measure x) (s.measure y) s.scale s.scale
    (if on then s.foreground else s.background))

def present (d : Display) : WindowM ω Unit := do
  system.answer (.fill s.background)
  d.litPixels.forM fun (x, y) => s.writePixel system x y true
  system.answer .flip

end Screen

end ChipEight
