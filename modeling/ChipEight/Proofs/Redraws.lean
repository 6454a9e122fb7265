import ChipEight.Proofs.HostRounds
import ChipEight.Proofs.WrittenParts

/-!
# What asks for a redraw

A cycle asks for a redraw exactly if it draws a sprite. Of the other instructions only the one that
clears the screen changes the display, and it asks for none.
-/
namespace ChipEight.Machine
variable {τ : Type} {m a : Machine τ} {now : τ} {i : Instruction} {redraw : Bool}

theorem skipIf_redraw (m : Machine τ) (c : Bool) : (m.skipIf c).redraw = m.redraw := by
  rw [skipIf]
  split <;> rfl

theorem waitKey_redraw (m : Machine τ) (x : Register) : (m.waitKey x).redraw = m.redraw := by
  rw [waitKey]
  split <;> rfl

/-- Only an instruction that draws sets the mark for a redraw. -/
theorem redraw_of_execute (he : m.execute now i = (a, .ok ())) (h : ∀ x y n, i ≠ .draw x y n) :
    a.redraw = m.redraw := by
  cases i with
  | draw x y n => exact absurd rfl (h x y n)
  | call nnn =>
    obtain ⟨stack, -, rfl⟩ := exists_of_call_ok he
    rfl
  | ret =>
    obtain ⟨address, stack, -, rfl⟩ := exists_of_ret_ok he
    rfl
  | skipEqByte | skipNeByte | skipEq | skipNe | skipKey | skipNoKey =>
    obtain rfl := (Prod.mk.inj he).1
    exact skipIf_redraw m _
  | waitKey x =>
    obtain rfl := (Prod.mk.inj he).1
    exact waitKey_redraw m x
  | _ =>
    obtain rfl := (Prod.mk.inj he).1
    rfl

theorem cycle_draws (h : m.fetch.firstDigit = 0xd) (now : τ) : (m.cycle now).2 = .ok true := by
  have hi : Instruction.ofOpcode? m.fetch = some (.draw m.fetch.x m.fetch.y m.fetch.n) :=
    Instruction.ofOpcode?_eq_some_iff.mpr ⟨h, rfl, rfl, rfl⟩
  rw [cycle_of_ok hi rfl]
  rfl

/-- A cycle that succeeds asks for a redraw exactly if its opcode draws. -/
theorem redraw_iff (h : (m.cycle now).2 = .ok redraw) :
    redraw = true ↔ m.fetch.firstDigit = 0xd := by
  constructor
  · rintro rfl
    by_contra hd
    obtain ⟨i, hi, he⟩ := exists_of_cycle_ok h
    have hdraws : ∀ x y n, i ≠ .draw x y n := by
      rintro x y n rfl
      exact hd (Instruction.ofOpcode?_eq_some_iff.mp hi).1
    have hkeep : (m.cycle now).1.redraw = false := redraw_of_execute he hdraws
    rw [cycle_of_ok hi he, Except.ok.injEq, hkeep] at h
    exact Bool.false_ne_true h
  · intro hd
    exact Except.ok.inj (h.symm.trans (cycle_draws hd now))

/-- A cycle that asks for no redraw leaves the display alone, unless it clears the screen. -/
theorem display_of_ok_false (h : (m.cycle now).2 = .ok false) (hclear : m.fetch ≠ 0x00e0) :
    (m.cycle now).1.display = m.display := by
  have hwrites : ¬ m.Writes .display := by
    rintro (hw | hw)
    · exact hclear hw
    · exact Bool.false_ne_true ((redraw_iff h).mpr hw)
  exact same_of_cycle h hwrites

theorem cycle_clears (h : m.fetch = 0x00e0) (now : τ) :
    (m.cycle now).2 = .ok false ∧
      (m.cycle now).1.display = Display.blank m.display.resolution := by
  have hi : Instruction.ofOpcode? m.fetch = some .clearScreen :=
    Instruction.ofOpcode?_eq_some_iff.mpr h
  rw [cycle_of_ok hi rfl]
  exact ⟨rfl, rfl⟩

theorem keys_cycle (m : Machine τ) (now : τ) : (m.cycle now).1.keys = m.keys := by
  cases hr : (m.cycle now).2 with
  | ok redraw => exact same_of_cycle (p := .keys) hr id
  | error f => rw [cycle_of_fault hr, fetched]

variable [Clock τ]

/-- The displays right after the cycles that draw among the first `n` rounds, in their order. -/
def drawn (m : Machine τ) (rounds : ℕ → Round τ) (n : ℕ) : List Display :=
  ((List.range n).filter fun k => (m.installed rounds k).fetch.firstDigit = 0xd).map fun k =>
    (m.roundCycle rounds k).1.display

theorem drawn_succ (m : Machine τ) (rounds : ℕ → Round τ) (n : ℕ) :
    m.drawn rounds (n + 1) = m.drawn rounds n ++
      if (m.installed rounds n).fetch.firstDigit = 0xd then [(m.roundCycle rounds n).1.display]
      else [] := by
  rw [drawn, List.range_succ, List.filter_append, List.map_append, List.filter_singleton, ← drawn]
  by_cases h : (m.installed rounds n).fetch.firstDigit = 0xd
  · rw [if_pos h, decide_eq_true h]
    rfl
  · rw [if_neg h, decide_eq_false h]
    rfl

end ChipEight.Machine
