import ChipEight.Proofs.CycleOutcomes
import ChipEight.Proofs.Runs
import ChipEight.Seconds
import Mathlib.Tactic.IntervalCases

/-!
# Calls and returns match

From a call on, the addresses that were on the stack and the return address above them stay where
they are, until a return takes the return address away. So the first cycle that brings the stack
back to its old depth is a return to the place after the call, whatever was called in between.
-/
namespace ChipEight.Machine
variable {τ : Type} {m : Machine τ} {now : τ} {beats : ℕ → Beat τ}

/-- The addresses on the stack once a call is done: those from before and the one after the call. -/
def called (m : Machine τ) : List Int := m.stack.toList ++ [(m.pc + 2) % memorySize]

theorem toList_of_call (hcall : m.fetch.firstDigit = 0x2) (room : m.stack.depth < stackCapacity)
    (now : τ) :
    (m.cycle now).1.stack.toList = m.called := by
  have hi : Instruction.ofOpcode? m.fetch = some (.call m.fetch.nnn) :=
    Instruction.ofOpcode?_eq_some_iff.mpr ⟨hcall, rfl⟩
  rcases he : m.fetched.execute now (.call m.fetch.nnn) with ⟨a, f | _⟩
  · exact absurd (execute_call_eq_error_iff.mp he).1 (Nat.ne_of_lt room)
  · obtain ⟨stack, hpush, rfl⟩ := exists_of_call_ok he
    rw [cycle_of_ok hi he]
    exact CallStack.toList_of_push hpush

/-- A successful cycle keeps the addresses up to and including `a`, or returns to `a`. -/
theorem prefix_or_return {base : List Int} {a : Int} {redraw : Bool}
    (h : base ++ [a] <+: m.stack.toList) (hok : (m.cycle now).2 = .ok redraw) :
    base ++ [a] <+: (m.cycle now).1.stack.toList ∨
      m.fetch = 0x00ee ∧ (m.cycle now).1.stack.toList = base ∧ (m.cycle now).1.pc = a := by
  obtain ⟨i, hi, he⟩ := exists_of_cycle_ok hok
  have hstep := stackStep_of_execute he
  cases i with
  | call nnn =>
    have hpush := CallStack.toList_of_push hstep
    exact .inl (hpush ▸ h.trans (List.prefix_append _ _))
  | ret =>
    have hpop : m.stack.toList = _ := CallStack.toList_of_pop hstep
    rw [hpop, List.prefix_concat_iff] at h
    rcases h with h | h
    · obtain ⟨hbase, ha⟩ := List.append_inj' h rfl
      exact .inr ⟨Instruction.ofOpcode?_eq_some_iff.mp hi, hbase.symm, (List.singleton_inj.mp ha).symm⟩
    · exact .inl h
  | _ =>
    have hkeep : (m.cycle now).1.stack = m.stack := hstep
    exact .inl (hkeep ▸ h)

variable [Clock τ]

theorem after_one_of_call (hcall : m.fetch.firstDigit = 0x2)
    (room : m.stack.depth < stackCapacity) :
    (m.after beats 1).stack.toList = m.called := by
  rw [after_succ, toList_of_call]
  · simp only [called, before, after, stack_hostAll, pc_hostAll]
  · simpa only [before, after, fetch_hostAll] using hcall
  · simpa only [before, after, stack_hostAll] using room

/-- While the stack is not back at its depth before the call, it still begins with the addresses
from before the call and the return address. -/
theorem called_prefix_after {n : ℕ} (hcall : m.fetch.firstDigit = 0x2)
    (room : m.stack.depth < stackCapacity)
    (ok : ∀ k, 0 < k → k < n → ∃ redraw, m.result beats k = .ok redraw)
    (inside : ∀ k, 0 < k → k ≤ n → (m.after beats k).stack.depth ≠ m.stack.depth) (hn : 0 < n) :
    m.called <+: (m.after beats n).stack.toList := by
  induction n, hn using Nat.le_induction with
  | base => exact after_one_of_call hcall room ▸ List.prefix_refl _
  | succ n hn ih =>
    have hprefix := ih (fun k hk hkn => ok k hk (by omega)) fun k hk hkn => inside k hk (by omega)
    obtain ⟨redraw, hok⟩ := ok n hn (by omega)
    rw [← stack_before] at hprefix
    rcases prefix_or_return hprefix hok with h | ⟨-, hback, -⟩
    · exact h
    · refine absurd ?_ (inside (n + 1) (by omega) (Nat.le_refl _))
      rw [after_succ, ← CallStack.length_toList, hback, CallStack.length_toList]

/-- Calls and returns match. The machine is about to call a subroutine, and there is room on its
stack. The cycles after the call succeed, and beat `n` is the first one after the call that ends
with as many addresses on the stack as before it. Then that beat executes a return, goes on after
the call and leaves the addresses that were on the stack before. -/
theorem return_matches_call {n : ℕ} (hcall : m.fetch.firstDigit = 0x2)
    (room : m.stack.depth < stackCapacity)
    (ok : ∀ k, 0 < k → k ≤ n → ∃ redraw, m.result beats k = .ok redraw)
    (inside : ∀ k, 0 < k → k ≤ n → (m.after beats k).stack.depth ≠ m.stack.depth)
    (back : (m.after beats (n + 1)).stack.depth = m.stack.depth) :
    m.opcode beats n = 0x00ee ∧ (m.after beats (n + 1)).pc = (m.pc + 2) % memorySize ∧
      (m.after beats (n + 1)).stack.toList = m.stack.toList := by
  have hshort : ¬ m.called <+: (m.after beats (n + 1)).stack.toList := by
    intro h
    have hlen := h.length_le
    simp only [called, List.length_append, CallStack.length_toList, List.length_singleton,
      back] at hlen
    omega
  rcases Nat.eq_zero_or_pos n with rfl | hn
  · exact absurd (after_one_of_call hcall room ▸ List.prefix_refl _) hshort
  have hprefix := called_prefix_after hcall room (fun k hk hkn => ok k hk (by omega)) inside hn
  obtain ⟨redraw, hok⟩ := ok n hn (Nat.le_refl _)
  rw [← stack_before] at hprefix
  rcases prefix_or_return hprefix hok with h | ⟨hop, hback, hpc⟩
  · exact absurd h hshort
  · exact ⟨hop, hpc, hback⟩

/-- A call at 0x200 of a subroutine at 0x206, which calls another one at 0x20a before it returns. -/
def nestedCalls : Machine Float :=
  { initial .low ⟨fun _ => 0, 0⟩ 0 with
    memory := Memory.zeros.writeBytes programStart
      [0x22, 0x06, 0x00, 0x00, 0x00, 0x00, 0x22, 0x0a, 0x00, 0xee, 0x00, 0xee] }

/-- Nothing is pressed, and the countdowns look at the clock before every cycle. -/
def quietBeats : ℕ → Beat Float := fun _ => ⟨[.keys Keys.released, .timers 0 0], 0⟩

theorem return_matches_call_nested :
    nestedCalls.fetch.firstDigit = 0x2 ∧ nestedCalls.stack.depth < stackCapacity ∧
    (∀ k, 0 < k → k ≤ 3 → ∃ redraw, nestedCalls.result quietBeats k = .ok redraw) ∧
    (∀ k, 0 < k → k ≤ 3 →
      (nestedCalls.after quietBeats k).stack.depth ≠ nestedCalls.stack.depth) ∧
    (nestedCalls.after quietBeats (3 + 1)).stack.depth = nestedCalls.stack.depth ∧
    nestedCalls.opcode quietBeats 3 = 0x00ee ∧
    (nestedCalls.after quietBeats (3 + 1)).pc = (nestedCalls.pc + 2) % memorySize ∧
    (nestedCalls.after quietBeats (3 + 1)).stack.toList = nestedCalls.stack.toList := by
  have hcall : nestedCalls.fetch.firstDigit = 0x2 := by decide +kernel
  have room : nestedCalls.stack.depth < stackCapacity := by decide
  have ok : ∀ k, 0 < k → k ≤ 3 → ∃ redraw, nestedCalls.result quietBeats k = .ok redraw := by
    intro k hk hk3
    refine ⟨false, ?_⟩
    interval_cases k <;> decide +kernel
  have inside : ∀ k, 0 < k → k ≤ 3 →
      (nestedCalls.after quietBeats k).stack.depth ≠ nestedCalls.stack.depth := by
    intro k hk hk3
    interval_cases k <;> decide +kernel
  have back : (nestedCalls.after quietBeats (3 + 1)).stack.depth = nestedCalls.stack.depth := by
    decide +kernel
  have matched := return_matches_call (n := 3) hcall room ok inside back
  exact ⟨hcall, room, ok, inside, back, matched⟩

end ChipEight.Machine
