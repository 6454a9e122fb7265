import ChipEight.Proofs.KeyStates
import ChipEight.Proofs.WrittenParts

/-!
# Opposite skips

Six instructions may skip the next one. They come in pairs that test the same condition: one skips if it
holds and the other if it does not. Wherever the two are placed, also at the end of memory, one moves on
by one instruction and the other by two, and neither changes anything else.
-/
namespace ChipEight

theorem Keys.isDown_iff_exists {s : Keys} {v : Int} :
    s.isDown v = true ↔ ∃ k : Fin 16, v = k.val ∧ s.down.get k = true := by
  rw [isDown]
  split
  case isTrue h =>
    obtain ⟨k, rfl⟩ := Int.eq_ofNat_of_zero_le h.1
    constructor
    · intro hdown
      exact ⟨⟨k, by omega⟩, rfl, hdown⟩
    · rintro ⟨⟨j, hj⟩, heq, hdown⟩
      obtain rfl : k = j := Int.ofNat_inj.mp heq
      exact hdown
  case isFalse h =>
    refine iff_of_false Bool.false_ne_true ?_
    rintro ⟨k, rfl, -⟩
    have := k.isLt
    omega

/-- What an instruction that may skip the next one tests. -/
inductive SkipTest where
  | eqByte (x : Register) (kk : Byte)
  | eq (x y : Register)
  | key (x : Register)

namespace SkipTest
variable {τ : Type} {m : Machine τ}

def skip : SkipTest → Instruction
  | .eqByte x kk => .skipEqByte x kk
  | .eq x y => .skipEq x y
  | .key x => .skipKey x

def opposite : SkipTest → Instruction
  | .eqByte x kk => .skipNeByte x kk
  | .eq x y => .skipNe x y
  | .key x => .skipNoKey x

/-- A register has a value, two registers have the same one, or a key that is down is the value of a
register. A value above fifteen is that of no key. -/
def Holds (m : Machine τ) : SkipTest → Prop
  | .eqByte x kk => m.register x = kk.toNat
  | .eq x y => m.register x = m.register y
  | .key x => ∃ k : Fin 16, m.register x = k.val ∧ m.keys.down.get k = true

def check (m : Machine τ) : SkipTest → Bool
  | .eqByte x kk => m.register x == kk.toNat
  | .eq x y => m.register x == m.register y
  | .key x => m.keys.isDown (m.register x)

theorem check_iff (test : SkipTest) : test.check m = true ↔ test.Holds m := by
  cases test with
  | eqByte x kk => exact beq_iff_eq
  | eq x y => exact beq_iff_eq
  | key x => exact Keys.isDown_iff_exists

theorem execute_skip (test : SkipTest) (m : Machine τ) (now : τ) :
    m.execute now test.skip = (m.skipIf (test.check m), .ok ()) := by
  cases test <;> rfl

theorem execute_opposite (test : SkipTest) (m : Machine τ) (now : τ) :
    m.execute now test.opposite = (m.skipIf (!test.check m), .ok ()) := by
  cases test <;> rfl

end SkipTest

namespace Machine
variable {τ : Type} {m : Machine τ} {w : Opcode} {now : τ}

/-- The machine with an opcode placed where it is fetched from next. -/
def placing (m : Machine τ) (w : Opcode) : Machine τ :=
  { m with memory := m.memory.writeBytes m.pc [w.extractLsb' 8 8, w.extractLsb' 0 8] }

theorem fetch_placing (m : Machine τ) (w : Opcode) : (m.placing w).fetch = w := by
  have hnext : m.pc % memorySize ≠ (m.pc + 1) % memorySize := by
    rw [memorySize]
    omega
  simp only [fetch, placing, Memory.writeBytes, Memory.read_write, if_true, if_neg hnext]
  exact BitVec.extractLsb'_append_extractLsb'

/-- A cycle with an opcode placed at the program counter moves the program counter and changes nothing
else. -/
structure OnlyMoves (m : Machine τ) (w : Opcode) (pc : Int) (c : Machine τ × Except Fault Bool) :
    Prop where
  result : c.2 = .ok false
  machine : c.1 = { m.placing w with pc, opcodeAddress := m.pc, redraw := false }
  memory : ∀ address, ¬ InCells m.pc 2 address →
    c.1.memory.read address = m.memory.read address

theorem onlyMoves_of_skipIf {i : Instruction} {skips : Bool} (hi : i.WrittenAs w)
    (he : (m.placing w).fetched.execute now i = ((m.placing w).fetched.skipIf skips, .ok ())) :
    m.OnlyMoves w ((m.pc + if skips then 4 else 2) % memorySize) ((m.placing w).cycle now) := by
  have hfetch : Instruction.ofOpcode? (m.placing w).fetch = some i := by
    rw [fetch_placing, Instruction.ofOpcode?_of_writtenAs hi]
  have hmachine : (m.placing w).fetched.skipIf skips =
      { m.placing w with
        pc := (m.pc + if skips then 4 else 2) % memorySize
        opcodeAddress := m.pc, redraw := false } := by
    cases skips with
    | false => rfl
    | true =>
      have hpc : ((m.pc + 2) % memorySize + 2) % memorySize = (m.pc + 4) % memorySize := by
        rw [Int.emod_add_emod, Int.add_assoc]
        rfl
      rw [if_pos rfl, ← hpc]
      rfl
  rw [cycle_of_ok hfetch he, hmachine]
  exact {
    result := rfl
    machine := rfl
    memory := fun address houtside =>
      Memory.read_writeBytes_of_ne fun j hj heq => houtside ⟨j, hj, heq⟩ }

/-- Skips come in exact opposites. Of two opposite opcodes, placed at the program counter one at a time,
exactly one skips the next instruction and the other moves on to it: the first one skips if and only if
the test holds. Nothing else changes, in memory nothing but the two bytes of the opcode itself. -/
theorem skips_opposite (m : Machine τ) (test : SkipTest) {v w : Opcode}
    (hv : test.skip.WrittenAs v) (hw : test.opposite.WrittenAs w) (now now' : τ) :
    let next := (m.pc + 2) % memorySize
    let skipped := (m.pc + 4) % memorySize
    let first := (m.placing v).cycle now
    let second := (m.placing w).cycle now'
    next ≠ skipped ∧
    (test.Holds m ∧ m.OnlyMoves v skipped first ∧ m.OnlyMoves w next second ∨
      ¬ test.Holds m ∧ m.OnlyMoves v next first ∧ m.OnlyMoves w skipped second) := by
  have hfirst := onlyMoves_of_skipIf hv (test.execute_skip (m.placing v).fetched now)
  have hsecond := onlyMoves_of_skipIf hw (test.execute_opposite (m.placing w).fetched now')
  -- placing an opcode and fetching it leave what is tested
  have hv' : test.check (m.placing v).fetched = test.check m := by cases test <;> rfl
  have hw' : test.check (m.placing w).fetched = test.check m := by cases test <;> rfl
  rw [hv'] at hfirst
  rw [hw'] at hsecond
  intro next skipped first second
  refine ⟨by simp only [next, skipped, memorySize]; omega, ?_⟩
  rw [← test.check_iff]
  cases hcheck : test.check m with
  | true =>
    rw [hcheck] at hfirst hsecond
    exact .inl ⟨rfl, hfirst, hsecond⟩
  | false =>
    rw [hcheck] at hfirst hsecond
    exact .inr ⟨Bool.false_ne_true, hfirst, hsecond⟩

/-- All keys are down, but the register 5 holds the number of none. The next instruction is the last but
one in memory. -/
def skippingAtEnd : Machine Float :=
  { initial .low ⟨fun _ => 0, 0⟩ 0 with
    registers := Registers.zeros.set 5 0x1a
    pc := 0xffc
    keys := { Keys.released with down := Vector.replicate 16 true } }

theorem skips_opposite_at_end :
    let test : SkipTest := .key 5
    let v : Opcode := 0xe59e
    let w : Opcode := 0xe5a1
    test.skip.WrittenAs v ∧ test.opposite.WrittenAs w ∧ ¬ test.Holds skippingAtEnd ∧
    ((skippingAtEnd.placing v).cycle 0).1.pc = 0xffe ∧
    ((skippingAtEnd.placing w).cycle 0).1.pc = 0x000 := by
  intro test v w
  have hv : test.skip.WrittenAs v := ⟨by decide, by decide, by decide⟩
  have hw : test.opposite.WrittenAs w := ⟨by decide, by decide, by decide⟩
  have htest : ¬ test.Holds skippingAtEnd := by
    rw [← test.check_iff]
    decide
  obtain ⟨-, ⟨hholds, -⟩ | ⟨-, hnext, hskip⟩⟩ := skips_opposite skippingAtEnd test hv hw 0 0
  · exact absurd hholds htest
  · exact ⟨hv, hw, htest, congrArg pc hnext.machine, congrArg pc hskip.machine⟩

end Machine

end ChipEight
