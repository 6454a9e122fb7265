import ChipEight.Machine.Execute
import Mathlib.Data.Nat.Notation

/-!
# Runs of a machine

A run is a sequence of beats. In each beat the surroundings first act on the machine: keys are
installed and the countdowns look at the clock, in any order and any number of times. Then one cycle
is run, and the run goes on after it whether the cycle ends or faults.
-/
namespace ChipEight

/-- What the surroundings do to a machine between two cycles. -/
inductive HostAct (τ : Type) where
  | keys (keys : Keys)
  | timers (delayNow soundNow : τ)

/-- One cycle: what the surroundings do before it, and the reading of the clock during it. -/
structure Beat (τ : Type) where
  acts : List (HostAct τ)
  now : τ

namespace Machine
variable {τ : Type} [Clock τ]

def host (m : Machine τ) : HostAct τ → Machine τ
  | .keys keys => { m with keys }
  | .timers delayNow soundNow => m.tickTimers delayNow soundNow

def hostAll (m : Machine τ) (acts : List (HostAct τ)) : Machine τ := acts.foldl host m

def after (m : Machine τ) (beats : ℕ → Beat τ) : ℕ → Machine τ
  | 0 => m
  | n + 1 => (((m.after beats n).hostAll (beats n).acts).cycle (beats n).now).1

/-- The machine that the cycle of beat `n` starts from. -/
def before (m : Machine τ) (beats : ℕ → Beat τ) (n : ℕ) : Machine τ :=
  (m.after beats n).hostAll (beats n).acts

/-- What the cycle of beat `n` returns or which fault it raises. -/
def result (m : Machine τ) (beats : ℕ → Beat τ) (n : ℕ) : Except Fault Bool :=
  ((m.before beats n).cycle (beats n).now).2

def opcode (m : Machine τ) (beats : ℕ → Beat τ) (n : ℕ) : Opcode := (m.before beats n).fetch

theorem after_succ (m : Machine τ) (beats : ℕ → Beat τ) (n : ℕ) :
    m.after beats (n + 1) = ((m.before beats n).cycle (beats n).now).1 := rfl

/-- The surroundings reach the keys and the countdowns only. -/
theorem hostAll_eq (m : Machine τ) (acts : List (HostAct τ)) :
    ∃ keys delay sound, m.hostAll acts = { m with keys, delay, sound } := by
  induction acts generalizing m with
  | nil => exact ⟨m.keys, m.delay, m.sound, rfl⟩
  | cons a rest ih =>
    obtain ⟨keys, delay, sound, h⟩ := ih (m.host a)
    refine ⟨keys, delay, sound, h.trans ?_⟩
    cases a <;> rfl

variable {m : Machine τ} {acts : List (HostAct τ)}

@[simp] theorem stack_hostAll : (m.hostAll acts).stack = m.stack := by
  obtain ⟨keys, delay, sound, h⟩ := m.hostAll_eq acts
  rw [h]

@[simp] theorem memory_hostAll : (m.hostAll acts).memory = m.memory := by
  obtain ⟨keys, delay, sound, h⟩ := m.hostAll_eq acts
  rw [h]

@[simp] theorem pc_hostAll : (m.hostAll acts).pc = m.pc := by
  obtain ⟨keys, delay, sound, h⟩ := m.hostAll_eq acts
  rw [h]

@[simp] theorem registers_hostAll : (m.hostAll acts).registers = m.registers := by
  obtain ⟨keys, delay, sound, h⟩ := m.hostAll_eq acts
  rw [h]

@[simp] theorem index_hostAll : (m.hostAll acts).index = m.index := by
  obtain ⟨keys, delay, sound, h⟩ := m.hostAll_eq acts
  rw [h]

@[simp] theorem display_hostAll : (m.hostAll acts).display = m.display := by
  obtain ⟨keys, delay, sound, h⟩ := m.hostAll_eq acts
  rw [h]

theorem stack_before (m : Machine τ) (beats : ℕ → Beat τ) (n : ℕ) :
    (m.before beats n).stack = (m.after beats n).stack := stack_hostAll

@[simp] theorem fetch_hostAll : (m.hostAll acts).fetch = m.fetch := by
  obtain ⟨keys, delay, sound, h⟩ := m.hostAll_eq acts
  rw [h]
  rfl

end Machine

end ChipEight
