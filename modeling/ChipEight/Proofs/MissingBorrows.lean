import ChipEight.Proofs.FlagArithmetic

/-!
# Missing borrows

A subtraction of two bytes borrows 256 if the second one is larger, and sets the flag if the first one
is. So a set flag means that no borrow was needed, but a clear one does not mean that there was a borrow:
equal bytes leave zero without one and clear the flag all the same. Only for different bytes is the flag
the missing borrow that the next higher byte of a longer number has to know of. The difference itself can
still be told, since no other bytes leave zero.
-/
namespace ChipEight.Machine
variable {τ : Type} {m : Machine τ} {a b : Int}

/-- The next instruction subtracts `b` from `a`, which are the values of its two registers in one order
or the other. -/
def Subtracts (m : Machine τ) (a b : Int) : Prop :=
  m.fetch.firstDigit = 0x8 ∧
    (m.fetch.n = 0x5 ∧ a = m.register m.fetch.x ∧ b = m.register m.fetch.y ∨
      m.fetch.n = 0x7 ∧ a = m.register m.fetch.y ∧ b = m.register m.fetch.x)

theorem Subtracts.isByte (h : m.Subtracts a b) (hbytes : m.registers.Bytes) :
    IsByte a ∧ IsByte b := by
  obtain ⟨-, ⟨-, rfl, rfl⟩ | ⟨-, rfl, rfl⟩⟩ := h
  · exact ⟨hbytes m.fetch.x, hbytes m.fetch.y⟩
  · exact ⟨hbytes m.fetch.y, hbytes m.fetch.x⟩

/-- A cycle that subtracts has the remainder of the difference and its flag from both values. -/
theorem Subtracts.exists_flag (h : m.Subtracts a b) (hbytes : m.registers.Bytes) (now : τ) :
    ∃ flag : Bool, (if flag then 1 else 0) = (if b < a then (1 : Int) else 0) ∧
      m.cycle now = (m.fetched.setWithFlag m.fetch.x flag ((a - b) % 256), .ok false) := by
  obtain ⟨hfirst, ⟨hn, rfl, rfl⟩ | ⟨hn, rfl, rfl⟩⟩ := h
  · have hsub : FlagOperation.sub ∈ FlagOperation.all := by simp [FlagOperation.all]
    exact exists_of_flagOperation hsub hfirst hn hbytes now
  · have hsub : FlagOperation.subFrom ∈ FlagOperation.all := by simp [FlagOperation.all]
    exact exists_of_flagOperation hsub hfirst hn hbytes now

/-- What a subtraction tells. The result is the difference with 256 borrowed if the second byte is
larger, and the flag is set if the first one is. The flag is the missing borrow, so that a higher byte of
a longer number can be subtracted with it, exactly if the bytes differ. Result and flag together
determine the difference, if a result of zero is told apart from the others. -/
theorem flag_missing_borrow_iff_ne (hbytes : m.registers.Bytes) (hx : m.fetch.x ≠ 0xf)
    (hsub : m.Subtracts a b) (now : τ) :
    let c := m.cycle now
    let result := c.1.register m.fetch.x
    let flag := c.1.register 0xf
    c.2 = .ok false ∧
    result = a - b + (if a < b then 256 else 0) ∧
    flag = (if b < a then 1 else 0) ∧
    (result = a - b + 256 * (1 - flag) ↔ a ≠ b) ∧
    (∀ p q : Int,
      256 * (p - q - (1 - flag)) + result = (256 * p + a) - (256 * q + b) ↔ a ≠ b) ∧
    a - b = if result = 0 then 0 else result - 256 * (1 - flag) := by
  obtain ⟨flag, hflag, hcycle⟩ := hsub.exists_flag hbytes now
  obtain ⟨ha, hb⟩ := hsub.isByte hbytes
  rw [IsByte] at ha hb
  intro c result f
  have hresult : result = (a - b) % 256 := by
    simp only [result, c, hcycle, register_setWithFlag, if_true]
  have hf : f = if b < a then 1 else 0 := by
    simp only [f, c, hcycle, register_setWithFlag, if_neg hx, if_true]
    exact hflag
  have hborrow : result = a - b + (if a < b then 256 else 0) := by
    rw [hresult]
    split <;> omega
  refine ⟨congrArg Prod.snd hcycle, hborrow, hf, ?_, fun p q => ?_, ?_⟩
  all_goals
    rw [hborrow, hf]
    split <;> split <;> omega

/-- Subtracts the flag register, which holds 200, from the register 3, which holds 100. -/
def subtractingFlag : Machine Float :=
  { addingFlag with memory := Memory.zeros.writeBytes programStart [0x83, 0xf5] }

theorem flag_missing_borrow_iff_ne_borrowing :
    let c := subtractingFlag.cycle 0
    subtractingFlag.registers.Bytes ∧ subtractingFlag.fetch.x ≠ 0xf ∧
    subtractingFlag.Subtracts 100 200 ∧
    c.2 = .ok false ∧ c.1.register 3 = 156 ∧ c.1.register 0xf = 0 ∧
    c.1.register 3 = 100 - 200 + 256 * (1 - c.1.register 0xf) := by
  intro c
  have hbytes : subtractingFlag.registers.Bytes :=
    (Registers.bytes_zeros.set 3 ⟨by decide, by decide⟩).set 0xf ⟨by decide, by decide⟩
  have hfetch : subtractingFlag.fetch = 0x83f5 := by decide +kernel
  have hx : subtractingFlag.fetch.x ≠ 0xf := by rw [hfetch]; decide
  have hsub : subtractingFlag.Subtracts 100 200 := by
    rw [Subtracts, hfetch]
    exact ⟨by decide, .inl ⟨by decide, by decide, by decide⟩⟩
  obtain ⟨hok, hresult, hflag, hborrow, -⟩ := flag_missing_borrow_iff_ne hbytes hx hsub 0
  rw [hfetch] at hresult hborrow
  exact ⟨hbytes, hx, hsub, hok, hresult, hflag, hborrow.mpr (by decide)⟩

/-- Subtracts two registers that both hold 5. -/
def subtractingEqual : Machine Float :=
  { initial .low ⟨fun _ => 0, 0⟩ 0 with
    memory := Memory.zeros.writeBytes programStart [0x80, 0x15]
    registers := (Registers.zeros.set 0 5).set 1 5 }

/-- Equal bytes need no borrow, but the flag is clear as if they did. -/
theorem equal_bytes_clear_flag :
    let c := subtractingEqual.cycle 0
    subtractingEqual.registers.Bytes ∧ subtractingEqual.fetch = 0x8015 ∧
    c.1.register 0xf = 0 ∧
    c.1.register 0 ≠
      subtractingEqual.register 0 - subtractingEqual.register 1 + 256 * (1 - c.1.register 0xf) :=
  ⟨(Registers.bytes_zeros.set 0 ⟨by decide, by decide⟩).set 1 ⟨by decide, by decide⟩,
    by decide +kernel, by decide +kernel, by decide +kernel⟩

end ChipEight.Machine
