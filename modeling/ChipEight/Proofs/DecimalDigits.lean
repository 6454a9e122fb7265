import ChipEight.Proofs.ReachableMachines
import ChipEight.Proofs.SavedRegisters

/-!
# Decimal digits

The decimal digits of a register are written to the index and the two addresses after it, which wrap
around, the hundreds first. Whatever register they come from, and however its own value is overwritten
then, restoring three registers from the same place gives the digits of what was converted.
-/
namespace ChipEight

def digitsOf (v : Int) : List Int := [v / 100, v / 10 % 10, v % 10]

/-- Those of a byte are digits. -/
theorem IsByte.digit_bounds {v digit : Int} (h : IsByte v) (hdigit : digit ∈ digitsOf v) :
    0 ≤ digit ∧ digit ≤ 9 := by
  rw [IsByte] at h
  simp only [digitsOf, List.mem_cons, List.not_mem_nil, or_false] at hdigit
  omega

namespace Machine
variable {τ : Type} {m : Machine τ} {x : Register} {a : Int}

/-- The number in memory so many addresses after the index. -/
def atIndex (m : Machine τ) (j : ℕ) : ℕ := (m.memory.read ((m.index + j) % memorySize)).toNat

theorem cycle_of_decimal (h : (Instruction.decimal x).WrittenAs m.fetch) (now : τ) :
    m.cycle now = ({ m.fetched with
      memory := m.memory.writeBytes m.index (decimalDigits (m.register x)) }, .ok false) :=
  cycle_of_ok (Instruction.ofOpcode?_of_writtenAs h) rfl

theorem register_of_restore_eq_atIndex {z : Register} (hz : z.toNat ≤ x.toNat)
    (h : (Instruction.restore x).WrittenAs m.fetch) (now : τ) :
    (m.cycle now).1.register z = m.atIndex z.toNat := by
  rw [register_of_restore_read h, if_pos hz, atIndex, Memory.read_emod]

theorem opcodeAt_eq_append_iff {high low : Byte} :
    m.opcodeAt a = high ++ low ↔ m.memory.read a = high ∧ m.memory.read (a + 1) = low := by
  rw [opcodeAt, Memory.read_emod, Memory.read_emod]
  exact Opcode.append_inj

theorem read_decimal_of_not_inCells (h : (Instruction.decimal x).WrittenAs m.fetch) (now : τ)
    (hout : ¬ InCells m.index 3 a) : (m.cycle now).1.memory.read a = m.memory.read a := by
  rw [cycle_of_decimal h]
  exact Memory.read_writeBytes_of_ne fun j hj hreach => hout ⟨j, hj, hreach⟩

section Converted
variable (hx : IsByte (m.register x)) (h : (Instruction.decimal x).WrittenAs m.fetch) (now : τ)
include hx h

theorem atIndex_of_decimal {j : ℕ} {digit : Int}
    (hdigit : (digitsOf (m.register x))[j]? = some digit) :
    ((m.cycle now).1.atIndex j : Int) = digit := by
  have hj : j < (decimalDigits (m.register x)).length := (List.getElem?_eq_some_iff.mp hdigit).1
  have hfew : (decimalDigits (m.register x)).length ≤ memorySize := by
    simp [decimalDigits, memorySize]
  have hread := Memory.getElem?_eq_read_writeBytes hj hfew m.memory m.index
  obtain ⟨hpos, hle⟩ := hx.digit_bounds (List.mem_of_getElem? hdigit)
  rw [decimalDigits, ← digitsOf, List.getElem?_map, hdigit, Option.map_some,
    Option.some.injEq] at hread
  rw [cycle_of_decimal h, atIndex, Memory.read_emod]
  simp only [fetched]
  rw [decimalDigits, ← digitsOf, ← hread, Byte.toNat_ofInt]
  omega

theorem atIndex_le_of_decimal {j : ℕ} (hj : j < 3) : (m.cycle now).1.atIndex j ≤ 9 := by
  have hlength : j < (digitsOf (m.register x)).length := hj
  have hplace := atIndex_of_decimal hx h now (List.getElem?_eq_getElem hlength)
  have hle := (hx.digit_bounds (List.getElem_mem hlength)).2
  omega

theorem value_of_decimal :
    100 * ((m.cycle now).1.atIndex 0 : Int) + 10 * (m.cycle now).1.atIndex 1 +
      (m.cycle now).1.atIndex 2 = m.register x := by
  have hhundreds := atIndex_of_decimal hx h now (j := 0) rfl
  have htens := atIndex_of_decimal hx h now (j := 1) rfl
  have hones := atIndex_of_decimal hx h now (j := 2) rfl
  omega

/-- No digit is so large a byte, so where one is read afterwards no digit has been written. -/
theorem read_decimal_eq_iff {b : Byte} (hb : 9 < b.toNat) :
    (m.cycle now).1.memory.read a = b ↔ m.memory.read a = b ∧ ¬ InCells m.index 3 a := by
  by_cases hin : InCells m.index 3 a
  · refine iff_of_false (fun hread => ?_) fun hboth => hboth.2 hin
    obtain ⟨j, hj, hreach⟩ := hin
    have hdigit : (m.cycle now).1.atIndex j ≤ 9 := atIndex_le_of_decimal hx h now hj
    have hindex : (m.cycle now).1.index = m.index := by rw [cycle_of_decimal h]; rfl
    rw [atIndex, hindex, ← hreach, Memory.read_emod, hread] at hdigit
    omega
  · rw [read_decimal_of_not_inCells h now hin, and_iff_left hin]

/-- Restoring three registers comes next if and only if it stands there already and no digit falls on
either of its bytes. -/
theorem fetch_decimal_eq_iff :
    (m.cycle now).1.fetch = 0xf265 ↔
      m.opcodeAt (m.pc + 2) = 0xf265 ∧
        ¬ InCells m.index 3 (m.pc + 2) ∧ ¬ InCells m.index 3 (m.pc + 3) := by
  have hpc : (m.cycle now).1.pc = (m.pc + 2) % memorySize := by rw [cycle_of_decimal h]; rfl
  have hbytes : (0xf265 : Opcode) = (0xf2 : Byte) ++ (0x65 : Byte) := rfl
  have hsecond : m.pc + 2 + 1 = m.pc + 3 := by omega
  rw [fetch_eq_opcodeAt, hpc, opcodeAt_emod, hbytes, opcodeAt_eq_append_iff, opcodeAt_eq_append_iff,
    hsecond, read_decimal_eq_iff hx h now (by decide), read_decimal_eq_iff hx h now (by decide)]
  exact and_and_and_comm

end Converted

variable [Clock τ]

/-- Decimal digits. An instruction that converts a register to decimal digits succeeds. At the index and
the two addresses after it stand then the hundreds, tens and ones of the register, and nothing else has
changed. The next instruction restores the first three registers from there if it did so before and no
digit falls on its bytes. Whatever the surroundings do meanwhile, these registers then hold
the digits of what was converted. -/
theorem decimal_digits_restored (hwf : m.WellFormed)
    (h : (Instruction.decimal x).WrittenAs m.fetch) (now : τ) :
    let stored := (m.cycle now).1
    (m.cycle now).2 = .ok false ∧
    ((∀ j < 3, stored.atIndex j ≤ 9) ∧
      100 * stored.atIndex 0 + 10 * stored.atIndex 1 + stored.atIndex 2 = m.register x) ∧
    (∀ address, ¬ InCells m.index 3 address →
      stored.memory.read address = m.memory.read address) ∧
    stored.index = m.index ∧ stored.registers = m.registers ∧
    stored = { m.fetched with memory := stored.memory } ∧
    (stored.fetch = 0xf265 ↔
      m.opcodeAt (m.pc + 2) = 0xf265 ∧
        ¬ InCells m.index 3 (m.pc + 2) ∧ ¬ InCells m.index 3 (m.pc + 3)) ∧
    (stored.fetch = 0xf265 → ∀ (acts : List (HostAct τ)) (now' : τ),
      let restored := (stored.hostAll acts).cycle now'
      restored.2 = .ok false ∧
      100 * restored.1.register 0 + 10 * restored.1.register 1 + restored.1.register 2 =
        m.register x) := by
  intro stored
  have hx := hwf.register x
  have hcycle : m.cycle now = _ := cycle_of_decimal h now
  have hstored : stored = _ := congrArg Prod.fst hcycle
  refine ⟨congrArg Prod.snd hcycle,
    ⟨fun j hj => atIndex_le_of_decimal hx h now hj, value_of_decimal hx h now⟩,
    fun address hout => read_decimal_of_not_inCells h now hout, by rw [hstored]; rfl,
    by rw [hstored]; rfl, by rw [hstored], fetch_decimal_eq_iff hx h now,
    fun hnext acts now' => ?_⟩
  have hrestore : (Instruction.restore 2).WrittenAs (stored.hostAll acts).fetch := by
    rw [fetch_hostAll, hnext]
    exact ⟨rfl, rfl, rfl⟩
  have hregister (z : Register) (hz : z.toNat ≤ 2) :
      ((stored.hostAll acts).cycle now').1.register z = stored.atIndex z.toNat := by
    rw [register_of_restore_eq_atIndex (x := 2) hz hrestore, atIndex, memory_hostAll, index_hostAll,
      atIndex]
  intro restored
  refine ⟨congrArg Prod.snd (cycle_of_restore hrestore now'), ?_⟩
  rw [hregister 0 (by decide), hregister 1 (by decide), hregister 2 (by decide)]
  exact value_of_decimal hx h now

/-- Converts the second register to digits on both sides of the end of memory, with an index beyond it,
and restores the first three registers, the second one among them. -/
def converting : Machine Float :=
  { initial .low ⟨fun _ => 0, 0⟩ 0 with
    memory := Memory.zeros.writeBytes programStart [0xf1, 0x33, 0xf2, 0x65]
    registers := Registers.zeros.set 1 0xfb
    index := 0xfffe }

theorem decimal_digits_restored_around_end :
    let stored := (converting.cycle 0).1
    let restored := (stored.hostAll [.timers 0 0]).cycle 1
    converting.WellFormed ∧ (Instruction.decimal 1).WrittenAs converting.fetch ∧
    stored.fetch = 0xf265 ∧ stored.memory.read 0x001 = converting.memory.read 0x001 ∧
    restored.2 = .ok false ∧
    100 * restored.1.register 0 + 10 * restored.1.register 1 + restored.1.register 2 = 0xfb := by
  intro stored restored
  have hstoring := (wellFormed_initial .low ⟨fun _ => 0, 0⟩ (0 : Float)).storing
    [0xf1, 0x33, 0xf2, 0x65]
  have hwf : converting.WellFormed :=
    { hstoring.setRegister 1 ⟨by decide, by decide⟩ with index := ⟨by decide, by decide⟩ }
  have hconvert : (Instruction.decimal 1).WrittenAs converting.fetch := by
    rw [show converting.fetch = 0xf133 by decide +kernel]
    exact ⟨rfl, rfl, rfl⟩
  obtain ⟨-, -, hkeep, -, -, -, hnext, hrestored⟩ := decimal_digits_restored hwf hconvert 0
  have hfetch : stored.fetch = 0xf265 :=
    hnext.mpr ⟨by decide +kernel, by decide, by decide⟩
  obtain ⟨hresult, hvalue⟩ := hrestored hfetch [.timers 0 0] 1
  exact ⟨hwf, hconvert, hfetch, hkeep 0x001 (by decide), hresult, hvalue⟩

end Machine
end ChipEight
