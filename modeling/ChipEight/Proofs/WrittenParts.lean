import ChipEight.Proofs.ByteRegisters
import ChipEight.Proofs.CycleOutcomes
import ChipEight.Proofs.Runs
import ChipEight.Seconds
import Mathlib.Tactic.IntervalCases

/-!
# What a cycle writes

A machine consists of parts: single memory cells and registers, and the other fields whole. Every
opcode writes a few of them, which can be told from its digits and the index. A cycle leaves all other
parts as they were, and so a memory cell keeps its byte over any run that never writes it.
-/
namespace ChipEight

/-- The parts of a machine that instructions write. A cell goes by any of its addresses. -/
inductive Part where
  | cell (address : Int)
  | register (z : Register)
  | index | pc | stack | display | delay | sound | keys | noise

/-- An address reaches one of so many cells from a first address on. -/
def InCells (first : Int) (count : ℕ) (address : Int) : Prop :=
  ∃ j < count, address % memorySize = (first + j) % memorySize

instance (first : Int) (count : ℕ) (address : Int) : Decidable (InCells first count address) :=
  inferInstanceAs (Decidable (∃ j < count, _))

namespace Part

/-- The parts that an opcode writes, given the index. The program counter counts as written if it
need not move on to the next instruction. -/
def WrittenBy (w : Opcode) (index : Int) : Part → Prop
  | .cell address => w.firstDigit = 0xf ∧
      (w.kk = 0x33 ∧ InCells index 3 address ∨
        w.kk = 0x55 ∧ InCells index (w.x.toNat + 1) address)
  | .register z =>
      z = w.x ∧ (w.firstDigit = 0x6 ∨ w.firstDigit = 0x7 ∨
        w.firstDigit = 0x8 ∧ (w.n = 0x0 ∨ w.n = 0x1 ∨ w.n = 0x2 ∨ w.n = 0x3) ∨
        w.firstDigit = 0xc ∨ w.firstDigit = 0xf ∧ (w.kk = 0x07 ∨ w.kk = 0x0a)) ∨
      (z = w.x ∨ z = 0xf) ∧ w.firstDigit = 0x8 ∧
        (w.n = 0x4 ∨ w.n = 0x5 ∨ w.n = 0x6 ∨ w.n = 0x7 ∨ w.n = 0xe) ∨
      z = 0xf ∧ w.firstDigit = 0xd ∨
      z.toNat ≤ w.x.toNat ∧ w.firstDigit = 0xf ∧ w.kk = 0x65
  | .index => w.firstDigit = 0xa ∨ w.firstDigit = 0xf ∧ (w.kk = 0x1e ∨ w.kk = 0x29)
  | .pc => w = 0x00ee ∨ w.firstDigit = 0x1 ∨ w.firstDigit = 0x2 ∨ w.firstDigit = 0x3 ∨
      w.firstDigit = 0x4 ∨ w.firstDigit = 0x5 ∧ w.n = 0x0 ∨ w.firstDigit = 0x9 ∧ w.n = 0x0 ∨
      w.firstDigit = 0xb ∨ w.firstDigit = 0xe ∧ (w.kk = 0x9e ∨ w.kk = 0xa1) ∨
      w.firstDigit = 0xf ∧ w.kk = 0x0a
  | .stack => w.firstDigit = 0x2 ∨ w = 0x00ee
  | .display => w = 0x00e0 ∨ w.firstDigit = 0xd
  | .delay => w.firstDigit = 0xf ∧ w.kk = 0x15
  | .sound => w.firstDigit = 0xf ∧ w.kk = 0x18
  | .keys => False
  | .noise => w.firstDigit = 0xc

instance (w : Opcode) (index : Int) : (p : Part) → Decidable (p.WrittenBy w index)
  | .cell _ | .delay | .sound => inferInstanceAs (Decidable (_ ∧ _))
  | .register _ | .index | .pc | .stack | .display => inferInstanceAs (Decidable (_ ∨ _))
  | .keys => inferInstanceAs (Decidable False)
  | .noise => inferInstanceAs (Decidable (_ = _))

variable {τ : Type}

/-- A part is the same in two machines. -/
def Same (m a : Machine τ) : Part → Prop
  | .cell address => a.memory.read address = m.memory.read address
  | .register z => a.register z = m.register z
  | .index => a.index = m.index
  | .pc => a.pc = m.pc
  | .stack => a.stack.toList = m.stack.toList
  | .display => a.display = m.display
  | .delay => a.delay = m.delay
  | .sound => a.sound = m.sound
  | .keys => a.keys = m.keys
  | .noise => a.noise = m.noise

end Part

/-- The parts that an instruction writes, given the index. -/
def Instruction.Writes (index : Int) (p : Part) : Instruction → Prop
  | .system _ => False
  | .clearScreen => p = .display
  | .ret | .call _ => p = .stack ∨ p = .pc
  | .jump _ | .jumpOffset _ | .skipEqByte _ _ | .skipNeByte _ _ | .skipEq _ _ | .skipNe _ _
  | .skipKey _ | .skipNoKey _ => p = .pc
  | .loadByte x _ | .addByte x _ | .copy x _ | .or x _ | .and x _ | .xor x _ | .loadDelay x =>
    p = .register x
  | .add x _ | .sub x _ | .subFrom x _ | .shiftRight x | .shiftLeft x =>
    p = .register x ∨ p = .register 0xf
  | .loadIndex _ | .addIndex _ | .selectGlyph _ => p = .index
  | .random x _ => p = .register x ∨ p = .noise
  | .draw _ _ _ => p = .display ∨ p = .register 0xf
  | .waitKey x => p = .register x ∨ p = .pc
  | .setDelay _ => p = .delay
  | .setSound _ => p = .sound
  | .decimal _ => ∃ address, p = .cell address ∧ InCells index 3 address
  | .save x => ∃ address, p = .cell address ∧ InCells index (x.toNat + 1) address
  | .restore x => ∃ z, z.toNat ≤ x.toNat ∧ p = .register z

variable {τ : Type} {m a : Machine τ} {p : Part} {now : τ} {i : Instruction} {w : Opcode}
variable {index : Int}

/-- The opcodes of an instruction write what the instruction writes. -/
theorem Instruction.Writes.writtenBy (h : i.Writes index p)
    (hi : Instruction.ofOpcode? w = some i) : p.WrittenBy w index := by
  rw [ofOpcode?_eq_some_iff] at hi
  cases i with
  | system => cases h
  | clearScreen => obtain rfl := h; exact .inl hi
  | ret =>
    rcases h with rfl | rfl
    · exact .inr hi
    · exact .inl hi
  | call => rcases h with rfl | rfl <;> simp [Part.WrittenBy, hi.1]
  | jump | jumpOffset | skipEqByte | skipNeByte =>
    obtain rfl := h
    simp [Part.WrittenBy, hi.1]
  | skipEq | skipNe =>
    obtain rfl := h
    simp [Part.WrittenBy, hi.1, hi.2.2.2]
  | skipKey | skipNoKey =>
    obtain rfl := h
    simp [Part.WrittenBy, hi.1, hi.2.2]
  | loadByte | addByte =>
    obtain rfl := h
    simp [Part.WrittenBy, hi.1, hi.2.1]
  | copy | or | and | xor =>
    obtain rfl := h
    simp [Part.WrittenBy, hi.1, hi.2.1, hi.2.2.2]
  | loadDelay =>
    obtain rfl := h
    simp [Part.WrittenBy, hi.1, hi.2.1, hi.2.2]
  | add | sub | subFrom =>
    rcases h with rfl | rfl <;> simp [Part.WrittenBy, hi.1, hi.2.1, hi.2.2.2]
  | shiftRight | shiftLeft =>
    rcases h with rfl | rfl <;> simp [Part.WrittenBy, hi.1, hi.2.1, hi.2.2]
  | loadIndex => obtain rfl := h; exact .inl hi.1
  | addIndex | selectGlyph =>
    obtain rfl := h
    simp [Part.WrittenBy, hi.1, hi.2.2]
  | random => rcases h with rfl | rfl <;> simp [Part.WrittenBy, hi.1, hi.2.1]
  | draw => rcases h with rfl | rfl <;> simp [Part.WrittenBy, hi.1]
  | waitKey => rcases h with rfl | rfl <;> simp [Part.WrittenBy, hi.1, hi.2.1, hi.2.2]
  | setDelay | setSound => obtain rfl := h; exact ⟨hi.1, hi.2.2⟩
  | decimal =>
    obtain ⟨address, rfl, hcell⟩ := h
    exact ⟨hi.1, .inl ⟨hi.2.2, hcell⟩⟩
  | save =>
    obtain ⟨address, rfl, hcell⟩ := h
    exact ⟨hi.1, .inr ⟨hi.2.2, hi.2.1 ▸ hcell⟩⟩
  | restore =>
    obtain ⟨z, hz, rfl⟩ := h
    exact .inr (.inr (.inr ⟨hi.2.1 ▸ hz, hi.1, hi.2.2⟩))

namespace Part

theorem same_self (m : Machine τ) (p : Part) : p.Same m m := by
  cases p <;> rfl

theorem same_pc (h : p ≠ .pc) (pc : Int) : p.Same m { m with pc } := by
  cases p with
  | pc => exact absurd rfl h
  | _ => rfl

theorem same_stack (h : ¬ (p = .stack ∨ p = .pc)) (pc : Int) (stack : CallStack) :
    p.Same m { m with stack, pc } := by
  cases p with
  | stack => exact absurd (.inl rfl) h
  | pc => exact absurd (.inr rfl) h
  | _ => rfl

theorem same_registers {registers : Registers}
    (h : ∀ z, p = .register z → registers.get z = m.registers.get z) :
    p.Same m { m with registers } := by
  cases p with
  | register z => exact h z rfl
  | _ => rfl

theorem same_memory {bytes : List Byte}
    (h : ¬ ∃ address, p = .cell address ∧ InCells m.index bytes.length address) :
    p.Same m { m with memory := m.memory.writeBytes m.index bytes } := by
  cases p with
  | cell address =>
    refine Memory.read_writeBytes_of_ne fun j hj heq => h ⟨address, rfl, j, hj, heq⟩
  | _ => rfl

theorem same_setRegister {x : Register} (h : p ≠ .register x) (v : Int) :
    p.Same m (m.setRegister x v) := by
  refine same_registers fun z hz => ?_
  rw [Registers.get_set, if_neg]
  rintro rfl
  exact h hz

theorem same_setWithFlag {x : Register} (h : ¬ (p = .register x ∨ p = .register 0xf)) (flag : Bool)
    (v : Int) : p.Same m (m.setWithFlag x flag v) := by
  obtain ⟨hx, hflag⟩ := not_or.mp h
  refine same_registers fun z hz => ?_
  rw [Registers.get_set, if_neg, Registers.get_set, if_neg]
  · rintro rfl
    exact hflag hz
  · rintro rfl
    exact hx hz

theorem same_setUpTo {x : Register} (h : ¬ ∃ z, z.toNat ≤ x.toNat ∧ p = .register z)
    {values : List Int} (hlength : values.length = x.toNat + 1) :
    p.Same m { m with registers := m.registers.setUpTo x values hlength } := by
  refine same_registers fun z hz => ?_
  have hout : values.length ≤ z.toNat := by
    rw [hlength]
    exact Nat.not_le.mp fun hle => h ⟨z, hle, hz⟩
  rw [Registers.get_setUpTo, List.getElem?_eq_none hout, Option.getD_none]

theorem same_skipIf (h : p ≠ .pc) (c : Bool) : p.Same m (m.skipIf c) := by
  rw [Machine.skipIf]
  split
  · exact same_pc h _
  · exact same_self m p

theorem same_waitKey {x : Register} (h : ¬ (p = .register x ∨ p = .pc)) :
    p.Same m (m.waitKey x) := by
  obtain ⟨hx, hpc⟩ := not_or.mp h
  rw [Machine.waitKey]
  split
  · exact same_setRegister hx _
  · exact same_pc hpc _

theorem same_random {x : Register} (h : ¬ (p = .register x ∨ p = .noise)) (v : Int) (noise : Noise) :
    p.Same m { m.setRegister x v with noise } := by
  obtain ⟨hx, hnoise⟩ := not_or.mp h
  have hset := same_setRegister (m := m) hx v
  cases p with
  | noise => exact absurd rfl hnoise
  | _ => exact hset

theorem same_drawSprite (h : ¬ (p = .display ∨ p = .register 0xf)) (x y : Register) (n : BitVec 4) :
    p.Same m (m.drawSprite x y n) := by
  obtain ⟨hdisplay, hflag⟩ := not_or.mp h
  cases p with
  | display => exact absurd rfl hdisplay
  | register z =>
    refine (m.registers.get_set 0xf z _).trans (if_neg ?_)
    rintro rfl
    exact hflag rfl
  | _ => rfl

/-- An instruction leaves the parts that it does not write as they were. -/
theorem same_of_execute (he : m.execute now i = (a, .ok ())) (h : ¬ i.Writes m.index p) :
    p.Same m a := by
  cases i with
  | call nnn =>
    obtain ⟨stack, -, rfl⟩ := Machine.exists_of_call_ok he
    exact same_stack h _ _
  | ret =>
    obtain ⟨address, stack, -, rfl⟩ := Machine.exists_of_ret_ok he
    exact same_stack h _ _
  | system => obtain rfl := (Prod.mk.inj he).1; exact same_self m p
  | jump | jumpOffset => obtain rfl := (Prod.mk.inj he).1; exact same_pc h _
  | skipEqByte | skipNeByte | skipEq | skipNe | skipKey | skipNoKey =>
    obtain rfl := (Prod.mk.inj he).1
    exact same_skipIf h _
  | loadByte | addByte | copy | or | and | xor | loadDelay =>
    obtain rfl := (Prod.mk.inj he).1
    exact same_setRegister h _
  | add | sub | subFrom | shiftRight | shiftLeft =>
    obtain rfl := (Prod.mk.inj he).1
    exact same_setWithFlag h _ _
  | random => obtain rfl := (Prod.mk.inj he).1; exact same_random h _ _
  | draw => obtain rfl := (Prod.mk.inj he).1; exact same_drawSprite h _ _ _
  | waitKey => obtain rfl := (Prod.mk.inj he).1; exact same_waitKey h
  | clearScreen | loadIndex | addIndex | selectGlyph | setDelay | setSound =>
    obtain rfl := (Prod.mk.inj he).1
    -- one field is set, and it is either the part itself, which is written, or another one
    cases p <;> first | exact absurd rfl h | rfl
  | decimal => obtain rfl := (Prod.mk.inj he).1; exact same_memory h
  | save x =>
    obtain rfl := (Prod.mk.inj he).1
    have hlength : ((m.registers.upTo x).map Byte.ofInt).length = x.toNat + 1 := by
      rw [List.length_map, Registers.length_upTo]
    exact same_memory fun ⟨address, hp, hcell⟩ => h ⟨address, hp, hlength ▸ hcell⟩
  | restore => obtain rfl := (Prod.mk.inj he).1; exact same_setUpTo h _

end Part

namespace Machine
variable {address : Int} {redraw : Bool}

def Writes (m : Machine τ) (p : Part) : Prop := p.WrittenBy m.fetch m.index

instance (m : Machine τ) (p : Part) : Decidable (m.Writes p) :=
  inferInstanceAs (Decidable (p.WrittenBy m.fetch m.index))

theorem same_of_cycle (hok : (m.cycle now).2 = .ok redraw) (h : ¬ m.Writes p) :
    p.Same m.fetched (m.cycle now).1 := by
  obtain ⟨i, hi, he⟩ := exists_of_cycle_ok hok
  exact Part.same_of_execute he fun hwrites => h (hwrites.writtenBy hi)

/-- A random instruction draws one byte and keeps the bits of it that the mask lets through. -/
theorem cycle_random (h : m.fetch.firstDigit = 0xc) (now : τ) :
    (m.cycle now).1.noise.stream = m.noise.stream ∧
      (m.cycle now).1.noise.drawn = m.noise.drawn + 1 ∧
      (m.cycle now).1.register m.fetch.x =
        (m.noise.stream m.noise.drawn &&& m.fetch.kk).toNat := by
  have hi : Instruction.ofOpcode? m.fetch = some (.random m.fetch.x m.fetch.kk) :=
    Instruction.ofOpcode?_eq_some_iff.mpr ⟨h, rfl, rfl⟩
  rw [cycle_of_ok hi rfl]
  exact ⟨rfl, rfl, (Registers.get_set _ _ _ _).trans (if_pos rfl)⟩

/-- A cycle keeps the cells that it does not write, also if it faults. -/
theorem read_cycle (h : ¬ m.Writes (.cell address)) (now : τ) :
    (m.cycle now).1.memory.read address = m.memory.read address := by
  cases hr : (m.cycle now).2 with
  | ok redraw => exact same_of_cycle hr h
  | error f => rw [cycle_of_fault hr, fetched]

variable [Clock τ] {beats : ℕ → Beat τ}

/-- A run keeps the cells that none of its instructions writes. -/
theorem read_after {n : ℕ} (h : ∀ k < n, ¬ (m.before beats k).Writes (.cell address)) :
    (m.after beats n).memory.read address = m.memory.read address := by
  induction n with
  | zero => rfl
  | succ n ih =>
    have hn := ih fun k hk => h k (Nat.lt_succ_of_lt hk)
    rw [after_succ, read_cycle (h n (Nat.lt_succ_self n)), before, memory_hostAll, hn]

/-- A cycle that succeeds leaves every part that its opcode does not write as it was; the program
counter has moved on to the next instruction. A random instruction draws the next byte of the stream and
no other. Over any run a cell keeps its byte for as long as no instruction that is executed writes it. -/
theorem cycles_keep_unwritten (m : Machine τ) :
    (∀ now redraw, (m.cycle now).2 = .ok redraw →
      (∀ p, ¬ m.Writes p → p.Same { m with pc := (m.pc + 2) % memorySize } (m.cycle now).1) ∧
      (m.fetch.firstDigit = 0xc → (m.cycle now).1.noise.stream = m.noise.stream ∧
        (m.cycle now).1.noise.drawn = m.noise.drawn + 1 ∧
        (m.cycle now).1.register m.fetch.x =
          (m.noise.stream m.noise.drawn &&& m.fetch.kk).toNat)) ∧
    ∀ (beats : ℕ → Beat τ) (n : ℕ) (address : Int),
      (∀ k < n, ¬ (m.before beats k).Writes (.cell address)) →
      (m.after beats n).memory.read address = m.memory.read address := by
  refine ⟨fun now redraw hok => ⟨fun p hp => ?_, fun h => cycle_random h now⟩,
    fun beats n address => read_after⟩
  have hsame := same_of_cycle hok hp
  cases p <;> exact hsame

/-- Stores the digits of a byte and then two registers, from two cells before the end of memory, and
draws a random byte. -/
def storing : Machine Float :=
  { initial .low ⟨fun place => if place = 0 then 0x3c else 0xff, 0⟩ 0 with
    memory := Memory.zeros.writeBytes programStart [0xf0, 0x33, 0xf1, 0x55, 0xc2, 0x0f]
    registers := Registers.zeros.set 0 0xff
    index := 0xffe }

theorem cycles_keep_unwritten_storing :
    let idle : ℕ → Beat Float := fun _ => ⟨[], 0⟩
    let drawing := storing.before idle 2
    (storing.cycle 0).2 = .ok false ∧ ¬ storing.Writes (.register 0) ∧ ¬ storing.Writes .pc ∧
    ¬ storing.Writes .noise ∧ (∀ k < 2, ¬ (storing.before idle k).Writes (.cell 0x001)) ∧
    (storing.cycle 0).1.register 0 = 0xff ∧ (storing.cycle 0).1.pc = 0x202 ∧
    (storing.cycle 0).1.noise.drawn = 0 ∧
    (storing.after idle 2).memory.read 0x001 = storing.memory.read 0x001 ∧
    (drawing.cycle 0).2 = .ok false ∧ drawing.fetch = 0xc20f ∧
    (drawing.cycle 0).1.noise.drawn = 1 ∧ (drawing.cycle 0).1.register 2 = 0x0c := by
  intro idle drawing
  have hok : (storing.cycle 0).2 = .ok false := by decide +kernel
  have hregister : ¬ storing.Writes (.register 0) := by decide +kernel
  have hpc : ¬ storing.Writes .pc := by decide +kernel
  have hnoise : ¬ storing.Writes .noise := by decide +kernel
  have hcell : ∀ k < 2, ¬ (storing.before idle k).Writes (.cell 0x001) := by
    intro k hk
    interval_cases k <;> decide +kernel
  obtain ⟨hcycle, hrun⟩ := cycles_keep_unwritten storing
  obtain ⟨hsame, -⟩ := hcycle 0 false hok
  have hkept : (storing.cycle 0).1.noise.drawn = 0 := congrArg Noise.drawn (hsame _ hnoise)
  have hrandom : (drawing.cycle 0).2 = .ok false := by decide +kernel
  have hfetch : drawing.fetch = 0xc20f := by decide +kernel
  obtain ⟨-, hdraw⟩ := (cycles_keep_unwritten drawing).1 0 false hrandom
  have hdigit : drawing.fetch.firstDigit = 0xc := by rw [hfetch]; rfl
  obtain ⟨-, hdrawn, hvalue⟩ := hdraw hdigit
  have hstart : drawing.noise.drawn = 0 := by decide +kernel
  have hbyte : (drawing.noise.stream 0 &&& 0x0f).toNat = 0x0c := by decide +kernel
  rw [hstart] at hdrawn hvalue
  rw [hfetch] at hvalue
  exact ⟨hok, hregister, hpc, hnoise, hcell, hsame _ hregister, hsame _ hpc, hkept,
    hrun idle 2 0x001 hcell, hrandom, hfetch, hdrawn, hvalue.trans (congrArg Nat.cast hbyte)⟩

end Machine

end ChipEight
