import ChipEight.Proofs.ByteRegisters
import ChipEight.Proofs.CycleOutcomes

/-!
# Well-formed machines

The types of a machine leave open how many cells its memory has and how large its integers are. In a
well-formed machine the memory has its exact size, the registers hold bytes, the index has sixteen
bits, and every address that is kept lies in memory. A cycle keeps a machine well-formed, also when
it faults.
-/
namespace ChipEight

/-- An address from the start to the end of memory. -/
def IsAddress (a : Int) : Prop := 0 ≤ a ∧ a ≤ 0xfff

theorem IsAddress.exists_nat {a : Int} (h : IsAddress a) : ∃ n : ℕ, n < 0x1000 ∧ a = n := by
  obtain ⟨h0, h1⟩ := h
  exact ⟨a.toNat, by omega, by omega⟩

theorem isAddress_emod (a : Int) : IsAddress (a % memorySize) := by
  rw [IsAddress, memorySize]
  omega

theorem isAddress_toNat (nnn : BitVec 12) : IsAddress nnn.toNat := by
  have := nnn.isLt
  rw [IsAddress]
  omega

theorem Keys.first?_lt {s : Keys} {k : ℕ} (h : s.first? = some k) : k < 16 := by
  have hmem : k ∈ s.active := List.mem_of_mem_head? h
  simp only [active, List.mem_filter, List.mem_range] at hmem
  exact hmem.1

namespace Machine
variable {τ : Type} {m a : Machine τ} {now : τ} {i : Instruction}

/-- The bounds that every instruction counts on and keeps. -/
structure WellFormed (m : Machine τ) : Prop where
  memory_size : m.memory.cells.size = memorySize
  registers : m.registers.Bytes
  index : 0 ≤ m.index ∧ m.index ≤ 0xffff
  pc : IsAddress m.pc
  opcodeAddress : IsAddress m.opcodeAddress
  slots : ∀ a ∈ m.stack.slots, IsAddress a

namespace WellFormed

theorem register (h : m.WellFormed) (x : Register) : IsByte (m.register x) := h.registers x

theorem fetched (h : m.WellFormed) : m.fetched.WellFormed :=
  { h with pc := isAddress_emod _, opcodeAddress := h.pc }

theorem setRegister (h : m.WellFormed) (x : Register) {v : Int} (hv : IsByte v) :
    (m.setRegister x v).WellFormed :=
  { h with registers := h.registers.set x hv }

theorem setUpTo (h : m.WellFormed) (x : Register) {values : List Int}
    (hlength : values.length = x.toNat + 1) (hv : ∀ v ∈ values, IsByte v) :
    { m with registers := m.registers.setUpTo x values hlength }.WellFormed :=
  { h with registers := h.registers.setUpTo x hlength hv }

theorem setWithFlag (h : m.WellFormed) (x : Register) (flag : Bool) {v : Int} (hv : IsByte v) :
    (m.setWithFlag x flag v).WellFormed :=
  { h with registers := (h.registers.set 0xf (.ite flag)).set x hv }

theorem skipIf (h : m.WellFormed) (c : Bool) : (m.skipIf c).WellFormed := by
  rw [Machine.skipIf]
  split
  · exact { h with pc := isAddress_emod _ }
  · exact h

theorem drawSprite (h : m.WellFormed) (x y : Register) (n : BitVec 4) :
    (m.drawSprite x y n).WellFormed :=
  { h with registers := h.registers.set 0xf (.ite _) }

theorem waitKey (h : m.WellFormed) (x : Register) : (m.waitKey x).WellFormed := by
  rw [Machine.waitKey]
  split
  case h_1 k hk =>
    have := Keys.first?_lt hk
    exact h.setRegister x (.of_lt (by omega))
  case h_2 => exact { h with pc := isAddress_emod _ }

theorem writeBytes (h : m.WellFormed) (address : Int) (bytes : List Byte) :
    { m with memory := m.memory.writeBytes address bytes }.WellFormed :=
  { h with memory_size := (Memory.size_writeBytes _ _ _).trans h.memory_size }

theorem call (h : m.WellFormed) (nnn : BitVec 12) {stack : CallStack}
    (hpush : m.stack.push m.pc = (stack, .ok ())) :
    { m with stack, pc := nnn.toNat }.WellFormed := by
  refine { h with pc := isAddress_toNat nnn, slots := fun v hv => ?_ }
  rcases CallStack.mem_slots_of_push hpush hv with hold | rfl
  · exact h.slots v hold
  · exact h.pc

theorem ret (h : m.WellFormed) {address : Int} {stack : CallStack}
    (hpop : m.stack.pop = (stack, .ok address)) :
    { m with stack, pc := address }.WellFormed := by
  obtain ⟨hslots, hmem⟩ := CallStack.slots_of_pop hpop
  refine { h with pc := h.slots address hmem, slots := fun v hv => h.slots v ?_ }
  rw [← hslots]
  exact hv

theorem execute (h : m.WellFormed) (he : m.execute now i = (a, .ok ())) : a.WellFormed := by
  cases i with
  | call nnn =>
    obtain ⟨stack, hpush, rfl⟩ := exists_of_call_ok he
    exact h.call nnn hpush
  | ret =>
    obtain ⟨address, stack, hpop, rfl⟩ := exists_of_ret_ok he
    exact h.ret hpop
  | system => obtain rfl := (Prod.mk.inj he).1; exact h
  | clearScreen => obtain rfl := (Prod.mk.inj he).1; exact { h with }
  | jump nnn => obtain rfl := (Prod.mk.inj he).1; exact { h with pc := isAddress_toNat nnn }
  | jumpOffset => obtain rfl := (Prod.mk.inj he).1; exact { h with pc := isAddress_emod _ }
  | skipEqByte | skipNeByte | skipEq | skipNe | skipKey | skipNoKey =>
    obtain rfl := (Prod.mk.inj he).1
    exact h.skipIf _
  | loadByte x kk => obtain rfl := (Prod.mk.inj he).1; exact h.setRegister x (.toNat kk)
  | addByte x => obtain rfl := (Prod.mk.inj he).1; exact h.setRegister x (.emod _)
  | copy x y => obtain rfl := (Prod.mk.inj he).1; exact h.setRegister x (h.register y)
  | or x y =>
    obtain rfl := (Prod.mk.inj he).1
    exact h.setRegister x ((h.register x).or (h.register y))
  | and x y =>
    obtain rfl := (Prod.mk.inj he).1
    exact h.setRegister x ((h.register x).and (h.register y))
  | xor x y =>
    obtain rfl := (Prod.mk.inj he).1
    exact h.setRegister x ((h.register x).xor (h.register y))
  | add x | sub x | subFrom x | shiftLeft x =>
    obtain rfl := (Prod.mk.inj he).1
    exact h.setWithFlag x _ (.emod _)
  | shiftRight x =>
    obtain rfl := (Prod.mk.inj he).1
    have hx := h.register x
    refine h.setWithFlag x _ ?_
    rw [IsByte] at hx ⊢
    omega
  | loadIndex nnn =>
    obtain rfl := (Prod.mk.inj he).1
    have := nnn.isLt
    exact { h with index := ⟨by simp, by simp only; omega⟩ }
  | addIndex => obtain rfl := (Prod.mk.inj he).1; exact { h with index := by simp only; omega }
  | selectGlyph x =>
    obtain rfl := (Prod.mk.inj he).1
    have hx := h.register x
    rw [IsByte] at hx
    exact { h with index := by simp only [glyphRows]; omega }
  | random x => obtain rfl := (Prod.mk.inj he).1; exact { h.setRegister x (.toNat _) with }
  | draw x y n => obtain rfl := (Prod.mk.inj he).1; exact h.drawSprite x y n
  | loadDelay x => obtain rfl := (Prod.mk.inj he).1; exact h.setRegister x (.toNat _)
  | waitKey x => obtain rfl := (Prod.mk.inj he).1; exact h.waitKey x
  | setDelay | setSound => obtain rfl := (Prod.mk.inj he).1; exact { h with }
  | decimal | save => obtain rfl := (Prod.mk.inj he).1; exact h.writeBytes _ _
  | restore x =>
    obtain rfl := (Prod.mk.inj he).1
    refine h.setUpTo x _ fun v hv => ?_
    obtain ⟨b, -, rfl⟩ := List.mem_map.mp hv
    exact .toNat b

theorem cycle (h : m.WellFormed) (now : τ) : (m.cycle now).1.WellFormed := by
  rcases m.cycle_fetched_or_executed now with hf | ⟨i, he⟩
  · rw [hf]
    exact h.fetched
  · exact h.fetched.execute he

end WellFormed

theorem isAddress_programStart : IsAddress programStart := ⟨by decide, by decide⟩

theorem wellFormed_initial (resolution : Resolution) (noise : Noise) (now : τ) :
    (initial resolution noise now).WellFormed where
  memory_size := Memory.size_initial
  registers := Registers.bytes_zeros
  index := ⟨Int.le_refl 0, Int.natCast_nonneg 0xffff⟩
  pc := isAddress_programStart
  opcodeAddress := isAddress_programStart
  slots := by
    intro a ha
    obtain rfl : a = 0 := Vector.eq_of_mem_replicate ha
    exact ⟨by decide, by decide⟩

end Machine

end ChipEight
