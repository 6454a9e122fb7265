import ChipEight.Proofs.HostRounds
import ChipEight.Proofs.WrittenParts
import Mathlib.Algebra.Order.Field.Rat
import Mathlib.Tactic.Linarith

/-!
# The spacing of countdown steps

However many instructions a program runs and however often it loads a countdown, the countdown is
lowered at most once in a period. What carries this over a run is the reading from which a countdown
measures the time: once the countdown has been lowered, that reading is never an earlier one.
-/
namespace ChipEight

/-- On such a clock no less time passes if one starts earlier and ends later. -/
class MonotoneClock (τ : Type) [Preorder τ] [Clock τ] : Prop where
  periodPassed_mono : ∀ {first earlier later last : τ}, first ≤ earlier → later ≤ last →
    Clock.periodPassed earlier later = true → Clock.periodPassed first last = true

namespace Countdown
variable {τ : Type} [Clock τ] {c : Countdown τ} {now : τ}

/-- A look lowers a countdown by one or leaves its value, and the time is measured from this look on
if the value has changed. -/
theorem tick_cases (c : Countdown τ) (now : τ) :
    c.tick now = c ∨ c.value = 0 ∧ c.tick now = ⟨0, now⟩ ∨
      c.value ≠ 0 ∧ Clock.periodPassed c.since now = true ∧ c.tick now = ⟨c.value - 1, now⟩ := by
  by_cases hzero : c.value = 0
  · exact .inr (.inl ⟨hzero, by rw [tick, if_pos hzero]⟩)
  · cases hpassed : Clock.periodPassed c.since now with
    | true => exact .inr (.inr ⟨hzero, rfl, by rw [tick, if_neg hzero, if_pos hpassed]⟩)
    | false => exact .inl (by rw [tick, if_neg hzero, if_neg (hpassed ▸ Bool.false_ne_true)])

theorem toNat_sub_one {b : Byte} (h : b ≠ 0) : (b - 1).toNat + 1 = b.toNat := by
  bv_omega

theorem value_tick_le (c : Countdown τ) (now : τ) :
    (c.tick now).value.toNat ≤ c.value.toNat ∧ c.value.toNat ≤ (c.tick now).value.toNat + 1 := by
  rcases c.tick_cases now with h | ⟨hzero, h⟩ | ⟨hvalue, -, h⟩
  · rw [h]; omega
  · rw [h, hzero]; exact ⟨Nat.le_refl _, Nat.le_succ _⟩
  · rw [h]
    have := toNat_sub_one hvalue
    simp only
    omega

/-- A countdown goes down only when a period has passed, and the next one starts then. -/
theorem of_value_tick_lt (h : (c.tick now).value < c.value) :
    Clock.periodPassed c.since now = true ∧ (c.tick now).since = now := by
  rcases c.tick_cases now with heq | ⟨hzero, heq⟩ | ⟨-, hpassed, heq⟩
  · rw [heq] at h
    exact absurd h (BitVec.lt_irrefl _)
  · rw [hzero] at h
    exact absurd h BitVec.not_lt_zero
  · exact ⟨hpassed, by rw [heq]⟩

theorem value_tick_of_zero (h : c.value = 0) (now : τ) : (c.tick now).value = 0 := by
  rw [tick, if_pos h]

variable [Preorder τ] {t : τ}

theorem le_since_tick (h : t ≤ c.since) (hnow : t ≤ now) : t ≤ (c.tick now).since := by
  rcases c.tick_cases now with heq | ⟨-, heq⟩ | ⟨-, -, heq⟩
  · rwa [heq]
  · rwa [heq]
  · rwa [heq]

end Countdown

inductive CountdownName where
  | delay | sound
deriving DecidableEq

namespace CountdownName
variable {τ : Type}

def part : CountdownName → Part
  | .delay => .delay
  | .sound => .sound

/-- The reading at which a countdown looks at the clock. -/
def look (r : Round τ) : CountdownName → τ
  | .delay => r.delayNow
  | .sound => r.soundNow

end CountdownName

/-- In the first `n` rounds the clock never goes back. -/
structure Steady {τ : Type} [LE τ] (rounds : ℕ → Round τ) (n : ℕ) : Prop where
  cycle_le_delay : ∀ k < n, (rounds k).cycleNow ≤ (rounds k).delayNow
  delay_le_sound : ∀ k < n, (rounds k).delayNow ≤ (rounds k).soundNow
  sound_le_next : ∀ k, k + 1 < n → (rounds k).soundNow ≤ (rounds (k + 1)).cycleNow

namespace Steady
variable {τ : Type} [Preorder τ] {rounds : ℕ → Round τ} {i j n : ℕ}

theorem cycle_le_look (h : Steady rounds n) (hi : i < n) (w : CountdownName) :
    (rounds i).cycleNow ≤ w.look (rounds i) := by
  cases w with
  | delay => exact h.cycle_le_delay i hi
  | sound => exact (h.cycle_le_delay i hi).trans (h.delay_le_sound i hi)

theorem look_le_next (h : Steady rounds n) (hi : i + 1 < n) (w : CountdownName) :
    w.look (rounds i) ≤ (rounds (i + 1)).cycleNow := by
  have hsound := h.sound_le_next i hi
  cases w with
  | delay => exact (h.delay_le_sound i (by omega)).trans hsound
  | sound => exact hsound

theorem look_le_cycle (h : Steady rounds n) (hij : i < j) (hj : j < n) (w : CountdownName) :
    w.look (rounds i) ≤ (rounds j).cycleNow := by
  induction j, hij using Nat.le_induction with
  | base => exact h.look_le_next hj w
  | succ j hij ih =>
    exact (ih (by omega)).trans ((h.cycle_le_look (by omega) w).trans (h.look_le_next hj w))

end Steady

namespace Machine
variable {τ : Type} {m : Machine τ} {now t : τ} {w : CountdownName}

def countdown (m : Machine τ) : CountdownName → Countdown τ
  | .delay => m.delay
  | .sound => m.sound

/-- The next instruction loads a countdown. -/
def Loads (m : Machine τ) (w : CountdownName) : Prop := m.Writes w.part

theorem since_of_loads (h : m.Loads w) (now : τ) : ((m.cycle now).1.countdown w).since = now := by
  cases w with
  | delay =>
    have hi : Instruction.ofOpcode? m.fetch = some (.setDelay m.fetch.x) :=
      Instruction.ofOpcode?_eq_some_iff.mpr ⟨h.1, rfl, h.2⟩
    rw [cycle_of_ok hi rfl]
    rfl
  | sound =>
    have hi : Instruction.ofOpcode? m.fetch = some (.setSound m.fetch.x) :=
      Instruction.ofOpcode?_eq_some_iff.mpr ⟨h.1, rfl, h.2⟩
    rw [cycle_of_ok hi rfl]
    rfl

theorem countdown_of_not_loads (h : ¬ m.Loads w) (now : τ) :
    (m.cycle now).1.countdown w = m.countdown w := by
  cases hr : (m.cycle now).2 with
  | ok redraw =>
    have hsame := same_of_cycle hr h
    cases w <;> exact hsame
  | error f =>
    rw [cycle_of_fault hr]
    cases w <;> rfl

variable [Clock τ] {rounds : ℕ → Round τ} {i j n : ℕ}

/-- The countdown goes down in round `n`, when it looks at the clock. -/
def LowersIn (m : Machine τ) (rounds : ℕ → Round τ) (w : CountdownName) (n : ℕ) : Prop :=
  ((m.afterRounds rounds (n + 1)).countdown w).value <
    ((m.roundCycle rounds n).1.countdown w).value

theorem countdown_afterRounds_succ (m : Machine τ) (rounds : ℕ → Round τ) (n : ℕ)
    (w : CountdownName) : (m.afterRounds rounds (n + 1)).countdown w =
      ((m.roundCycle rounds n).1.countdown w).tick (w.look (rounds n)) := by
  cases w <;> rfl

theorem countdown_installed (m : Machine τ) (rounds : ℕ → Round τ) (n : ℕ) (w : CountdownName) :
    (m.installed rounds n).countdown w = (m.afterRounds rounds n).countdown w := by
  cases w <;> rfl

theorem value_afterRounds_succ (hzero : ((m.afterRounds rounds n).countdown w).value = 0)
    (hload : ¬ (m.installed rounds n).Loads w) :
    ((m.afterRounds rounds (n + 1)).countdown w).value = 0 := by
  rw [countdown_afterRounds_succ]
  apply Countdown.value_tick_of_zero
  rw [roundCycle, countdown_of_not_loads hload, countdown_installed, hzero]

variable [Preorder τ]

theorem le_since_roundCycle (h : t ≤ ((m.afterRounds rounds n).countdown w).since)
    (hcycle : t ≤ (rounds n).cycleNow) : t ≤ ((m.roundCycle rounds n).1.countdown w).since := by
  rw [roundCycle]
  by_cases hload : (m.installed rounds n).Loads w
  · rwa [since_of_loads hload]
  · rwa [countdown_of_not_loads hload, countdown_installed]

theorem le_since_afterRounds_succ (h : t ≤ ((m.afterRounds rounds n).countdown w).since)
    (hcycle : t ≤ (rounds n).cycleNow) (hlook : t ≤ w.look (rounds n)) :
    t ≤ ((m.afterRounds rounds (n + 1)).countdown w).since := by
  rw [countdown_afterRounds_succ]
  exact Countdown.le_since_tick (le_since_roundCycle h hcycle) hlook

/-- Once a countdown has been lowered, the time is never again measured from an earlier reading. -/
theorem look_le_since (hsteady : Steady rounds n) (hlower : m.LowersIn rounds w i) (hij : i < j)
    (hj : j ≤ n) : w.look (rounds i) ≤ ((m.afterRounds rounds j).countdown w).since := by
  induction j, hij using Nat.le_induction with
  | base =>
    rw [LowersIn, countdown_afterRounds_succ] at hlower
    rw [countdown_afterRounds_succ, (Countdown.of_value_tick_lt hlower).2]
  | succ j hij ih =>
    have hcycle := hsteady.look_le_cycle hij (by omega) w
    exact le_since_afterRounds_succ (ih (by omega)) hcycle
      (hcycle.trans (hsteady.cycle_le_look (by omega) w))

variable [MonotoneClock τ]

/-- Between two rounds that lower a countdown a period passes. -/
theorem periodPassed_of_lowersIn (hsteady : Steady rounds n) (hij : i < j) (hj : j < n)
    (hi : m.LowersIn rounds w i) (hlower : m.LowersIn rounds w j) :
    Clock.periodPassed (w.look (rounds i)) (w.look (rounds j)) = true := by
  have hsince := look_le_since hsteady hi hij hj.le
  have hcycle := le_since_roundCycle hsince (hsteady.look_le_cycle hij hj w)
  rw [LowersIn, countdown_afterRounds_succ] at hlower
  exact MonotoneClock.periodPassed_mono hcycle le_rfl (Countdown.of_value_tick_lt hlower).1

/-- The spacing of countdown steps. In a run in which the clock never goes back, a period passes
between any two readings that lower a countdown, also if it is loaded in between. So readings less than
a period apart lower it at most once. No look lowers it by more than one or raises it, and at zero it
stays until it is loaded. -/
theorem countdown_spaced (hsteady : Steady rounds n) (m : Machine τ) (w : CountdownName) :
    (∀ i j, i < j → j < n → m.LowersIn rounds w i → m.LowersIn rounds w j →
      Clock.periodPassed (w.look (rounds i)) (w.look (rounds j)) = true) ∧
    (∀ first last, Clock.periodPassed first last = false → ∀ i < n, ∀ j < n,
      first ≤ w.look (rounds i) → w.look (rounds i) ≤ last →
      first ≤ w.look (rounds j) → w.look (rounds j) ≤ last →
      m.LowersIn rounds w i → m.LowersIn rounds w j → i = j) ∧
    (∀ k, let cycled := ((m.roundCycle rounds k).1.countdown w).value.toNat
      let ticked := ((m.afterRounds rounds (k + 1)).countdown w).value.toNat
      ticked ≤ cycled ∧ cycled ≤ ticked + 1) ∧
    ∀ i j, i ≤ j → ((m.afterRounds rounds i).countdown w).value = 0 →
      (∀ k, i ≤ k → k < j → ¬ (m.installed rounds k).Loads w) →
      ((m.afterRounds rounds j).countdown w).value = 0 := by
  have hspaced : ∀ i j, i < j → j < n → m.LowersIn rounds w i → m.LowersIn rounds w j →
      Clock.periodPassed (w.look (rounds i)) (w.look (rounds j)) = true :=
    fun i j hij hj => periodPassed_of_lowersIn hsteady hij hj
  refine ⟨hspaced, ?_, fun k => ?_, ?_⟩
  · intro first last hshort i hi j hj hfi hil hfj hjl hlowi hlowj
    have hno : ∀ i j, i < j → j < n → first ≤ w.look (rounds i) → w.look (rounds j) ≤ last →
        m.LowersIn rounds w i → ¬ m.LowersIn rounds w j := by
      intro i j hij hj hfirst hlast hlowi hlowj
      have hlong := MonotoneClock.periodPassed_mono hfirst hlast (hspaced i j hij hj hlowi hlowj)
      exact Bool.false_ne_true (hshort.symm.trans hlong)
    rcases Nat.lt_trichotomy i j with hij | hij | hij
    · exact absurd hlowj (hno i j hij hj hfi hjl hlowi)
    · exact hij
    · exact absurd hlowi (hno j i hij hi hfj hil hlowj)
  · simp only [countdown_afterRounds_succ]
    exact Countdown.value_tick_le _ _
  · intro i j hij hzero hloads
    induction j, hij using Nat.le_induction with
    | base => exact hzero
    | succ j hij ih =>
      exact value_afterRounds_succ (ih fun k hik hkj => hloads k hik (by omega))
        (hloads j hij (by omega))

end Machine

instance : MonotoneClock ℚ where
  periodPassed_mono hfirst hlast h := by
    simp only [Clock.periodPassed, Bool.not_eq_true', decide_eq_false_iff_not, not_lt] at h ⊢
    linarith

namespace Machine

instance {τ : Type} [Clock τ] (m : Machine τ) (rounds : ℕ → Round τ) (w : CountdownName) (n : ℕ) :
    Decidable (m.LowersIn rounds w n) :=
  inferInstanceAs (Decidable (_ < _))

/-- Loads the delay countdown with 3, jumps on, loads it once more and stays in a loop. -/
def reloading : Machine ℚ :=
  { initial .low ⟨fun _ => 0, 0⟩ 0 with
    memory := Memory.zeros.writeBytes programStart
      [0x60, 0x03, 0xf0, 0x15, 0x12, 0x06, 0xf0, 0x15, 0x12, 0x08] }

theorem countdown_spaced_reloading :
    let rounds : ℕ → Round ℚ := fun k => ⟨Keys.released, k / 50, k / 50, k / 50⟩
    Steady rounds 5 ∧ reloading.LowersIn rounds .delay 2 ∧ reloading.LowersIn rounds .delay 4 ∧
    (reloading.installed rounds 3).fetch = 0xf015 ∧
    Clock.periodPassed (CountdownName.delay.look (rounds 2)) (CountdownName.delay.look (rounds 4)) =
      true := by
  intro rounds
  have hsteady : Steady rounds 5 :=
    { cycle_le_delay := fun _ _ => le_rfl
      delay_le_sound := fun _ _ => le_rfl
      sound_le_next := fun k _ => by
        simp only [rounds, Nat.cast_succ]
        linarith }
  have hfirst : reloading.LowersIn rounds .delay 2 := by decide +kernel
  have hsecond : reloading.LowersIn rounds .delay 4 := by decide +kernel
  have hreload : (reloading.installed rounds 3).fetch = 0xf015 := by decide +kernel
  obtain ⟨hspaced, -⟩ := countdown_spaced hsteady reloading .delay
  exact ⟨hsteady, hfirst, hsecond, hreload, hspaced 2 4 (by decide) (by decide) hfirst hsecond⟩

end Machine

end ChipEight
