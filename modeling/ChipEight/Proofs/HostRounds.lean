import ChipEight.Machine.Execute
import Mathlib.Data.Nat.Notation
import Mathlib.Data.Rat.Init
import Mathlib.Order.Basic

/-!
# Rounds of a host

A host runs a machine in rounds. In each round it installs keys, runs one cycle and lets both
countdowns look at the clock. The clock may move on in between, so a round has a reading of its own
for the cycle and for either countdown.
-/
namespace ChipEight

/-- One round: the keys that are installed, and the readings of the clock during the cycle and when
the countdowns look at it. -/
structure Round (τ : Type) where
  keys : Keys
  cycleNow : τ
  delayNow : τ
  soundNow : τ

namespace Machine
variable {τ : Type} [Clock τ]

def afterRounds (m : Machine τ) (rounds : ℕ → Round τ) : ℕ → Machine τ
  | 0 => m
  | n + 1 =>
    let installed := { m.afterRounds rounds n with keys := (rounds n).keys }
    (installed.cycle (rounds n).cycleNow).1.tickTimers (rounds n).delayNow (rounds n).soundNow

def installed (m : Machine τ) (rounds : ℕ → Round τ) (n : ℕ) : Machine τ :=
  { m.afterRounds rounds n with keys := (rounds n).keys }

/-- The cycle of round `n`: the machine after it, and what it returns or which fault it raises. -/
def roundCycle (m : Machine τ) (rounds : ℕ → Round τ) (n : ℕ) : Machine τ × Except Fault Bool :=
  (m.installed rounds n).cycle (rounds n).cycleNow

theorem afterRounds_succ (m : Machine τ) (rounds : ℕ → Round τ) (n : ℕ) :
    m.afterRounds rounds (n + 1) =
      (m.roundCycle rounds n).1.tickTimers (rounds n).delayNow (rounds n).soundNow := rfl

def Completes (m : Machine τ) (rounds : ℕ → Round τ) (n : ℕ) : Prop :=
  ∃ redraw, (m.roundCycle rounds n).2 = .ok redraw

theorem not_completes_iff {m : Machine τ} {rounds : ℕ → Round τ} {n : ℕ} :
    ¬ m.Completes rounds n ↔ ∃ f, (m.roundCycle rounds n).2 = .error f := by
  rw [Completes]
  cases (m.roundCycle rounds n).2 <;> simp

/-- Among some first rounds either all complete or there is a first one that faults. -/
theorem completes_or_first_fault (m : Machine τ) (rounds : ℕ → Round τ) (n : ℕ) :
    (∀ k < n, m.Completes rounds k) ∨
      ∃ k < n, (∀ j < k, m.Completes rounds j) ∧ ∃ f, (m.roundCycle rounds k).2 = .error f := by
  induction n with
  | zero => exact .inl nofun
  | succ n ih =>
    rcases ih with hall | ⟨k, hk, hfirst⟩
    · by_cases hn : m.Completes rounds n
      · exact .inl (Nat.forall_lt_succ_right.mpr ⟨hall, hn⟩)
      · exact .inr ⟨n, Nat.lt_succ_self n, hall, not_completes_iff.mp hn⟩
    · exact .inr ⟨k, Nat.lt_succ_of_lt hk, hfirst⟩

end Machine

/-- Readings in exact seconds. -/
instance : Clock ℚ where
  periodPassed earlier later := !decide (later - earlier < 1 / 60)

end ChipEight
