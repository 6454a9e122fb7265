import ChipEight.Keys

/-! # Keyboards
Physical keys stand for the sixteen hexadecimal keys, and one of them leaves the program. The usual
map lays the keypad `123C 456D 789E A0BF` over the left block of a typewriter keyboard. -/
namespace ChipEight

/-- What may happen to a window between two looks at the keyboard. Other events have a number. -/
inductive Event where
  | quit | keyDown | mouse
  | other (kind : Nat)
deriving DecidableEq, Repr

structure Keyboard where
  map : List (String × Int)
  exitKey : String
deriving DecidableEq, Repr

namespace Keyboard

def bind (map : List (String × Int)) (name : String) (key : Int) : List (String × Int) :=
  if map.any (·.1 == name) then map.map fun p => if p.1 == name then (name, key) else p
  else map ++ [(name, key)]

def mapOf (pairs : List (String × Int)) : List (String × Int) :=
  pairs.foldl (fun map p => bind map p.1 p.2) []

def usualMap : List (String × Int) := [
  ("1", 0x1), ("2", 0x2), ("3", 0x3), ("4", 0xc),
  ("q", 0x4), ("w", 0x5), ("e", 0x6), ("r", 0xd),
  ("a", 0x7), ("s", 0x8), ("d", 0x9), ("f", 0xe),
  ("z", 0xa), ("x", 0x0), ("c", 0xb), ("v", 0xf)]

def usual : Keyboard := ⟨usualMap, "escape"⟩

/-- The keys that the held physical keys stand for, and whether the user wants to leave. -/
def poll (k : Keyboard) (held : List String) (events : List Event) : Except KeyFault Keys :=
  Keys.ofPressed ((k.map.filter fun p => held.contains p.1).map Prod.snd)
    (events.contains .quit || held.contains k.exitKey)

end Keyboard

end ChipEight
