/-! # Rounded reals
The reals `significand * 2 ^ exponent` with a significand of at most 53 bits and an exponent from -1074
to 971. A quotient of naturals is rounded once, to the nearest of them; a half goes to the even
significand, and a quotient that would need a larger exponent is infinite. -/
namespace ChipEight

/-- A finite real without its sign. A significand of fewer than 53 bits has the least exponent. -/
structure Magnitude where
  significand : Nat
  exponent : Int
deriving DecidableEq, Repr

namespace Magnitude

def precision : Nat := 53
def minExponent : Int := -1074
def maxExponent : Int := 971

def zero : Magnitude := ⟨0, minExponent⟩

def numerator (m : Magnitude) : Nat := m.significand * Nat.pow 2 m.exponent.toNat

def denominator (m : Magnitude) : Nat := Nat.pow 2 (-m.exponent).toNat

/-- The integer nearest to `num / den`, a half going to the even one. -/
def roundedQuotient (num den : Nat) : Nat :=
  let q := num / den
  let r := num % den
  if 2 * r < den then q else if den < 2 * r then q + 1 else q + q % 2

/-- The largest `k` with `2 ^ k ≤ num / den`. -/
def binaryLog (num den : Nat) : Int :=
  let k : Int := (num.log2 : Int) - den.log2
  if den * Nat.pow 2 k.toNat ≤ num * Nat.pow 2 (-k).toNat then k else k - 1

/-- The magnitude nearest to `num / den`, unless that is too large. -/
def nearest? (num den : Nat) : Option Magnitude :=
  if num = 0 then some zero
  else
    let exponent := max minExponent (binaryLog num den + 1 - precision)
    let significand :=
      roundedQuotient (num * Nat.pow 2 (-exponent).toNat) (den * Nat.pow 2 exponent.toNat)
    let rounded : Magnitude :=
      if significand = Nat.pow 2 precision then ⟨Nat.pow 2 (precision - 1), exponent + 1⟩
      else ⟨significand, exponent⟩
    if rounded.exponent ≤ maxExponent then some rounded else none

end Magnitude

inductive Double where
  | notANumber
  | infinite (negative : Bool)
  | finite (negative : Bool) (magnitude : Magnitude)
deriving DecidableEq, Repr

namespace Double

def ofQuotient (negative : Bool) (num den : Nat) : Double :=
  ((Magnitude.nearest? num den).map (.finite negative)).getD (.infinite negative)

/-- An exponent of ten beyond which numbers are infinite and below whose negative they are zero. -/
def decimalLimit : Int := 400

def ofDecimal (negative : Bool) (n : Nat) (exponent : Int) : Double :=
  let size := exponent + (Nat.toDigits 10 n).length
  if n = 0 ∨ size < -decimalLimit then .finite negative .zero
  else if decimalLimit < size then .infinite negative
  else ofQuotient negative (n * Nat.pow 10 exponent.toNat) (Nat.pow 10 (-exponent).toNat)

end Double

end ChipEight
