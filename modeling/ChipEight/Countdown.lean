import ChipEight.Byte

/-! # Countdowns
A byte that goes down by one at most sixty times a second. The time is measured from the last load or
decrement, or from the last look at a countdown that stood at zero, so it does not matter how often
the countdown is looked at. -/
namespace ChipEight

/-- Readings of a clock, and whether a sixtieth of a second has passed from one to a later one. -/
class Clock (τ : Type) where
  periodPassed : τ → τ → Bool

structure Countdown (τ : Type) where
  value : Byte
  since : τ
deriving DecidableEq

namespace Countdown
variable {τ : Type}

def stopped (now : τ) : Countdown τ := ⟨0, now⟩

def load (value : Byte) (now : τ) : Countdown τ := ⟨value, now⟩

/-- Whether a look at the clock lowers the countdown. -/
def due [Clock τ] (c : Countdown τ) (now : τ) : Bool :=
  c.value != 0 && Clock.periodPassed c.since now

/-- The countdown after a look at the clock. -/
def tick [Clock τ] (c : Countdown τ) (now : τ) : Countdown τ :=
  if c.value = 0 then ⟨0, now⟩
  else if Clock.periodPassed c.since now then ⟨c.value - 1, now⟩
  else c

end Countdown

end ChipEight
