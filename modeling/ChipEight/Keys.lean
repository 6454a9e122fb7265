import ChipEight.Text.Numeral

/-! # Keys
Which of the sixteen hexadecimal keys are down, and whether the user wants to leave. A list of pressed
keys may count keys from the end with negative numbers; a query may not. -/
namespace ChipEight

/-- Why a list of pressed keys is refused. -/
inductive KeyFault where
  | noSuchKey
  | tooWide
deriving DecidableEq, Repr

def KeyFault.message : KeyFault → String
  | .noSuchKey => "list assignment index out of range"
  | .tooWide => "cannot fit 'int' into an index-sized integer"

structure Keys where
  down : Vector Bool 16
  exit : Bool
deriving DecidableEq

namespace Keys

def released : Keys := ⟨Vector.replicate 16 false, false⟩

/-- The key that a pressed number stands for. Numbers beyond 64 bits are refused for their size. -/
def key (k : Int) : Except KeyFault (Fin 16) :=
  if -16 ≤ k ∧ k < 16 then .ok ⟨(k % 16).toNat, by omega⟩
  else if -0x8000000000000000 ≤ k ∧ k < 0x8000000000000000 then .error .noSuchKey
  else .error .tooWide

def press (s : Keys) (k : Int) : Except KeyFault Keys :=
  (key k).map fun i : Fin 16 => { s with down := s.down.set i true }

def ofPressed (pressed : List Int) (exit : Bool) : Except KeyFault Keys :=
  pressed.foldlM press { released with exit }

def isDown (s : Keys) (k : Int) : Bool :=
  if h : 0 ≤ k ∧ k < 16 then s.down[k.toNat] else false

/-- The keys that are down, in ascending order. -/
def active (s : Keys) : List Nat := (List.range 16).filter fun k => s.isDown k

def untouched (s : Keys) : Bool := !s.down.toList.any id

def first? (s : Keys) : Option Nat := s.active.head?

def text (s : Keys) : String :=
  "InputState(pressed=" ++ Text.bracketed (s.active.map toString) ++ ", exit=" ++
    Text.truth s.exit ++ ")"

end Keys

end ChipEight
