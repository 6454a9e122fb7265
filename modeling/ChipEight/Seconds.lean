import ChipEight.Countdown
import ChipEight.Double.Basic

/-! # Readings in seconds
Clock readings as the machine's own reals. A quotient of integers is rounded once, to the nearest. -/
namespace ChipEight

/-- The reading nearest to `num / den`. -/
def seconds (num den : Int) : Float :=
  let magnitude := match Magnitude.nearest? num.natAbs den.natAbs with
    | some m => (Float.ofNat m.significand).scaleB m.exponent
    | none => 1 / 0
  if (num < 0) != (den < 0) then -magnitude else magnitude

/-- How long a countdown stays at a value. -/
def period : Float := seconds 1 60

instance : Clock Float where
  periodPassed earlier later := !(later - earlier < period)

end ChipEight
