import ChipEight.Fault
import ChipEight.Text.Numeral

/-! # Call stack
Sixteen slots and the number of return addresses in use. A slot above the addresses in use may hold a
stale address, which nothing reads. -/
namespace ChipEight

def stackCapacity : Nat := 16

structure CallStack where
  slots : Vector Int stackCapacity
  depth : Nat
  depth_le : depth ≤ stackCapacity
deriving DecidableEq

namespace CallStack

def empty : CallStack where
  slots := Vector.replicate stackCapacity 0
  depth := 0
  depth_le := Nat.zero_le _

/-- The addresses in use, the oldest first. -/
def toList (s : CallStack) : List Int := s.slots.toList.take s.depth

def push (s : CallStack) (address : Int) : CallStack × Except Fault Unit :=
  if h : s.depth < stackCapacity then
    (⟨s.slots.set s.depth address, s.depth + 1, h⟩, .ok ())
  else (s, .error .stackOverflow)

def pop (s : CallStack) : CallStack × Except Fault Int :=
  if h : 0 < s.depth then
    have inside : s.depth - 1 < stackCapacity := by have := s.depth_le; omega
    (⟨s.slots, s.depth - 1, Nat.le_of_lt inside⟩, .ok s.slots[s.depth - 1])
  else (s, .error .stackUnderflow)

def text (s : CallStack) : String :=
  Text.bracketed (s.toList.map fun a => "'0x" ++ Text.hex 3 a ++ "'")

end CallStack

end ChipEight
