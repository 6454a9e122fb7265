import ChipEight.Byte

/-! # Random bytes
An endless stream together with a place in it. The stream itself never changes, so two machines with
equal noise draw equal bytes. -/
namespace ChipEight

/-- An endless stream of random bytes and how many of them have been drawn. -/
structure Noise where
  stream : Nat → Byte
  drawn : Nat

namespace Noise

def next (n : Noise) : Byte := n.stream n.drawn

def advance (n : Noise) : Noise := { n with drawn := n.drawn + 1 }

def repeating (bytes : List Byte) : Noise :=
  let all := bytes.toArray
  ⟨fun i => all.getD (i % all.size) 0, 0⟩

/-- A stream that a seed determines and that looks random: each place is scrambled by itself. -/
def scrambled (seed : UInt64) : Noise where
  stream i :=
    let z := seed + 0x9e3779b97f4a7c15 * (UInt64.ofNat i + 1)
    let z := (z ^^^ (z >>> 30)) * 0xbf58476d1ce4e5b9
    let z := (z ^^^ (z >>> 27)) * 0x94d049bb133111eb
    BitVec.ofNat 8 (z ^^^ (z >>> 31)).toNat
  drawn := 0

end Noise

end ChipEight
