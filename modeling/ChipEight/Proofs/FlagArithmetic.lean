import ChipEight.Proofs.ByteRegisters
import ChipEight.Proofs.CycleOutcomes
import ChipEight.Seconds

/-!
# Arithmetic with a flag

Five instructions compute a byte from one or two registers and leave in the flag register a carry, a
missing borrow or the bit that was shifted out. Result and flag both come from what the registers held
before, also if an operand is the flag register. The flag is set first, so if the result goes to the
flag register too, the result stands.
-/
namespace ChipEight

/-- What an instruction makes of the values of its two registers, told by the last digit of its opcode:
the result and the flag as integers, and both again as eight-bit words give them. -/
structure FlagOperation where
  lastDigit : BitVec 4
  result : Int → Int → Int
  flag : Int → Int → Int
  onBytes : Byte → Byte → Byte × Bool

namespace FlagOperation

def add : FlagOperation where
  lastDigit := 0x4
  result a b := (a + b) % 256
  flag a b := if 255 < a + b then 1 else 0
  onBytes a b := (a + b, BitVec.uaddOverflow a b)

def sub : FlagOperation where
  lastDigit := 0x5
  result a b := (a - b) % 256
  flag a b := if b < a then 1 else 0
  onBytes a b := (a - b, b < a)

def shiftRight : FlagOperation where
  lastDigit := 0x6
  result a _ := a / 2
  flag a _ := a % 2
  onBytes a _ := (a >>> 1, a.getLsbD 0)

def subFrom : FlagOperation where
  lastDigit := 0x7
  result a b := (b - a) % 256
  flag a b := if a < b then 1 else 0
  onBytes a b := (b - a, a < b)

def shiftLeft : FlagOperation where
  lastDigit := 0xe
  result a _ := 2 * a % 256
  flag a _ := a / 128
  onBytes a _ := (a <<< 1, a.msb)

def all : List FlagOperation := [add, sub, shiftRight, subFrom, shiftLeft]

theorem natCast_toNat_decide (p : Prop) [Decidable p] :
    ((decide p).toNat : Int) = if p then 1 else 0 := by
  by_cases h : p <;> simp [h]

theorem toNat_sub_emod (a b : Byte) : ((a.toNat : Int) - b.toNat) % 256 = (a - b).toNat := by
  have ha := a.isLt
  have hb := b.isLt
  rw [BitVec.toNat_sub]
  omega

/-- On bytes the integers are those of eight-bit words, which drop carries and wrap around below zero. -/
theorem eq_onBytes {op : FlagOperation} (hop : op ∈ all) (a b : Byte) :
    op.result a.toNat b.toNat = (op.onBytes a b).1.toNat ∧
      op.flag a.toNat b.toNat = (op.onBytes a b).2.toNat := by
  have ha := a.isLt
  simp only [all, List.mem_cons, List.not_mem_nil, or_false] at hop
  rcases hop with rfl | rfl | rfl | rfl | rfl
  · refine ⟨by simp [add], ?_⟩
    simp only [add, BitVec.uaddOverflow, natCast_toNat_decide]
    split <;> split <;> omega
  · refine ⟨toNat_sub_emod a b, ?_⟩
    simp only [sub, natCast_toNat_decide, BitVec.lt_def, Int.ofNat_lt]
  · refine ⟨by simp [shiftRight, Nat.shiftRight_eq_div_pow], ?_⟩
    simp only [shiftRight, BitVec.getLsbD, Nat.toNat_testBit]
    omega
  · refine ⟨toNat_sub_emod b a, ?_⟩
    simp only [subFrom, natCast_toNat_decide, BitVec.lt_def, Int.ofNat_lt]
  · refine ⟨by simp [shiftLeft, Nat.shiftLeft_eq, Nat.mul_comm], ?_⟩
    simp only [shiftLeft, BitVec.msb_eq_decide, natCast_toNat_decide]
    split <;> omega

end FlagOperation

namespace Machine
variable {τ : Type} {m : Machine τ} {op : FlagOperation}

theorem register_setWithFlag (m : Machine τ) (x z : Register) (flag : Bool) (v : Int) :
    (m.setWithFlag x flag v).register z =
      if x = z then v else if 0xf = z then if flag then 1 else 0 else m.register z := by
  rw [register, setWithFlag, Registers.get_set, Registers.get_set]
  rfl

theorem register_setRegister (m : Machine τ) (x z : Register) (v : Int) :
    (m.setRegister x v).register z = if x = z then v else m.register z :=
  m.registers.get_set x z v

/-- A cycle that sets the flag register has its result and its flag from the registers before it. -/
theorem exists_of_flagOperation (hop : op ∈ FlagOperation.all) (hfirst : m.fetch.firstDigit = 0x8)
    (hn : m.fetch.n = op.lastDigit) (hbytes : m.registers.Bytes) (now : τ) :
    ∃ flag : Bool,
      (if flag then 1 else 0) = op.flag (m.register m.fetch.x) (m.register m.fetch.y) ∧
      m.cycle now = (m.fetched.setWithFlag m.fetch.x flag
        (op.result (m.register m.fetch.x) (m.register m.fetch.y)), .ok false) := by
  have ha : IsByte (m.register m.fetch.x) := hbytes m.fetch.x
  rw [IsByte] at ha
  have hcycle {i : Instruction} (hi : i.WrittenAs m.fetch) {a : Machine τ}
      (he : m.fetched.execute now i = (a, .ok ())) : m.cycle now = (a, .ok a.redraw) :=
    cycle_of_ok (Instruction.ofOpcode?_of_writtenAs hi) he
  simp only [FlagOperation.all, List.mem_cons, List.not_mem_nil, or_false] at hop
  rcases hop with rfl | rfl | rfl | rfl | rfl
  · refine ⟨_, ?_, hcycle (i := .add m.fetch.x m.fetch.y) ⟨hfirst, rfl, rfl, hn⟩ rfl⟩
    simp only [decide_eq_true_eq]
    rfl
  · refine ⟨_, ?_, hcycle (i := .sub m.fetch.x m.fetch.y) ⟨hfirst, rfl, rfl, hn⟩ rfl⟩
    simp only [decide_eq_true_eq]
    rfl
  · refine ⟨_, ?_, hcycle (i := .shiftRight m.fetch.x) ⟨hfirst, rfl, hn⟩ rfl⟩
    simp only [decide_eq_true_eq, FlagOperation.shiftRight]
    change (if m.register m.fetch.x % 2 = 1 then 1 else 0) = _
    split <;> omega
  · refine ⟨_, ?_, hcycle (i := .subFrom m.fetch.x m.fetch.y) ⟨hfirst, rfl, rfl, hn⟩ rfl⟩
    simp only [decide_eq_true_eq]
    rfl
  · refine ⟨_, ?_, hcycle (i := .shiftLeft m.fetch.x) ⟨hfirst, rfl, hn⟩ rfl⟩
    simp only [decide_eq_true_eq, FlagOperation.shiftLeft]
    change (if m.register m.fetch.x / 128 % 2 = 1 then 1 else 0) = _
    split <;> omega

/-- Arithmetic with a flag, on registers that hold bytes and whichever registers the opcode names. The
result is computed from what both registers held before, as in eight-bit words, and so is the flag, but
if the result goes to the flag register the flag is lost. No other register changes and nothing else but
the addresses of the instructions. Adding an immediate byte wraps around as well and sets no flag. -/
theorem arithmetic_of_originals (hbytes : m.registers.Bytes) (now : τ) :
    let w := m.fetch
    let a := m.register w.x
    let b := m.register w.y
    let c := m.cycle now
    (∀ op ∈ FlagOperation.all, w.firstDigit = 0x8 → w.n = op.lastDigit →
      c.2 = .ok false ∧ c.1.register w.x = op.result a b ∧
      (w.x ≠ 0xf → c.1.register 0xf = op.flag a b) ∧
      (∀ z, z ≠ w.x → z ≠ 0xf → c.1.register z = m.register z) ∧
      c.1 = { m.fetched with registers := c.1.registers } ∧
      let words := op.onBytes (Byte.ofInt a) (Byte.ofInt b)
      op.result a b = words.1.toNat ∧ op.flag a b = words.2.toNat) ∧
    (w.firstDigit = 0x7 →
      c.2 = .ok false ∧ c.1.register w.x = (a + w.kk.toNat) % 256 ∧
      (∀ z, z ≠ w.x → c.1.register z = m.register z) ∧
      c.1 = { m.fetched with registers := c.1.registers }) := by
  intro w a b c
  constructor
  · intro op hop hfirst hn
    obtain ⟨flag, hflag, hcycle⟩ := exists_of_flagOperation hop hfirst hn hbytes now
    have hc : c = (m.fetched.setWithFlag w.x flag (op.result a b), .ok false) := hcycle
    rw [hc]
    refine ⟨rfl, ?_, fun hx => ?_, fun z hzx hzf => ?_, rfl, ?_⟩
    · rw [register_setWithFlag, if_pos rfl]
    · rw [register_setWithFlag, if_neg hx, if_pos rfl]
      exact hflag
    · rw [register_setWithFlag, if_neg hzx.symm, if_neg hzf.symm]
      rfl
    · have ha : IsByte a := hbytes w.x
      have hb : IsByte b := hbytes w.y
      have hwords := FlagOperation.eq_onBytes hop (Byte.ofInt a) (Byte.ofInt b)
      rwa [ha.toNat_ofInt, hb.toNat_ofInt] at hwords
  · intro hfirst
    have hi : Instruction.ofOpcode? w = some (.addByte w.x w.kk) :=
      Instruction.ofOpcode?_of_writtenAs ⟨hfirst, rfl, rfl⟩
    have hc : c = (m.fetched.setRegister w.x ((a + w.kk.toNat) % 256), .ok false) :=
      cycle_of_ok hi rfl
    rw [hc]
    refine ⟨rfl, ?_, fun z hz => ?_, rfl⟩
    · rw [register_setRegister, if_pos rfl]
    · rw [register_setRegister, if_neg hz.symm]
      rfl

def addingFlag : Machine Float :=
  { initial .low ⟨fun _ => 0, 0⟩ 0 with
    memory := Memory.zeros.writeBytes programStart [0x83, 0xf4]
    registers := (Registers.zeros.set 3 100).set 0xf 200 }

theorem arithmetic_of_originals_adding_flag :
    let c := addingFlag.cycle 0
    addingFlag.registers.Bytes ∧ addingFlag.fetch = 0x83f4 ∧
    c.2 = .ok false ∧ c.1.register 3 = 44 ∧ c.1.register 0xf = 1 ∧
    ∀ z, z ≠ 3 → z ≠ 0xf → c.1.register z = addingFlag.register z := by
  intro c
  have hbytes : addingFlag.registers.Bytes :=
    (Registers.bytes_zeros.set 3 ⟨by decide, by decide⟩).set 0xf ⟨by decide, by decide⟩
  have hfetch : addingFlag.fetch = 0x83f4 := by decide +kernel
  have hmem : FlagOperation.add ∈ FlagOperation.all := List.mem_cons_self
  have hadd := (arithmetic_of_originals hbytes (0 : Float)).1 .add hmem
  rw [hfetch] at hadd
  obtain ⟨hok, hresult, hflag, hrest, -⟩ := hadd (by decide) (by decide)
  exact ⟨hbytes, hfetch, hok, hresult, hflag (by decide), hrest⟩

end Machine
end ChipEight
