import ChipEight.Proofs.SpritesDrawnTwice
import ChipEight.Proofs.WrittenParts

/-!
# Saved registers

Saving writes the registers up to a given one to the index and the addresses after it, which wrap around,
and restoring reads them back from there. So restored registers have the values that were saved, however
long after, if the cycles in between leave the index and the saved bytes alone, whatever becomes of the
registers. Registers that are restored and saved again at once leave memory as it was.
-/
namespace ChipEight

namespace Memory

theorem write_read (m : Memory) (address : Int) : m.write address (m.read address) = m := by
  simp only [write, read, Array.set_getElem_self]

theorem readBytes_succ (m : Memory) (address : Int) (count : ℕ) :
    m.readBytes address (count + 1) = m.read address :: m.readBytes (address + 1) count := by
  simp only [readBytes, List.range_succ_eq_map, List.map_cons, List.map_map, Int.natCast_zero,
    Int.add_zero]
  refine congrArg _ (List.map_congr_left fun i _ => congrArg m.read ?_)
  omega

theorem writeBytes_readBytes (m : Memory) (address : Int) (count : ℕ) :
    m.writeBytes address (m.readBytes address count) = m := by
  induction count generalizing address with
  | zero => rfl
  | succ count ih => rw [readBytes_succ, writeBytes, write_read, ih]

end Memory

namespace Registers

theorem getElem?_upTo (r : Registers) {x z : Register} (h : z.toNat ≤ x.toNat) :
    (r.upTo x)[z.toNat]? = some (r.get z) := by
  rw [upTo, List.getElem?_take_of_lt (by omega)]
  exact List.getElem?_eq_getElem (by simpa using z.isLt)

end Registers

namespace Machine
variable {τ : Type} {m a b : Machine τ} {x : Register} {r : Registers}

/-- The values of the registers up to `x` stand at the index and the addresses after it. -/
def Saves (m : Machine τ) (x : Register) (r : Registers) : Prop :=
  ∀ z : Register, z.toNat ≤ x.toNat →
    ((m.memory.read ((m.index + z.toNat) % memorySize)).toNat : Int) = r.get z

/-- From one machine to another the index stays and so do the bytes at the addresses from it on that
registers up to `x` are saved at. -/
structure Spares (x : Register) (a b : Machine τ) : Prop where
  index : b.index = a.index
  read : ∀ j ≤ x.toNat, b.memory.read (a.index + j) = a.memory.read (a.index + j)

theorem Saves.spared (h : a.Saves x r) (hab : Spares x a b) : b.Saves x r := by
  intro z hz
  have hz' := h z hz
  rw [Memory.read_emod] at hz' ⊢
  rw [hab.index, hab.read z.toNat hz, hz']

theorem cycle_of_save (h : (Instruction.save x).WrittenAs m.fetch) (now : τ) :
    m.cycle now = ({ m.fetched with
      memory := m.memory.writeBytes m.index ((m.registers.upTo x).map Byte.ofInt) }, .ok false) :=
  cycle_of_ok (Instruction.ofOpcode?_of_writtenAs h) rfl

theorem cycle_of_restore (h : (Instruction.restore x).WrittenAs m.fetch) (now : τ) :
    m.cycle now = ({ m.fetched with
      registers := m.registers.setUpTo x
        ((m.memory.readBytes m.index (x.toNat + 1)).map fun b : Byte => (b.toNat : Int))
        (by simp) }, .ok false) :=
  cycle_of_ok (Instruction.ofOpcode?_of_writtenAs h) rfl

/-- The registers are too few to overwrite one another, so each of them is saved. -/
theorem saves_of_save (hbytes : m.registers.Bytes) (h : (Instruction.save x).WrittenAs m.fetch)
    (now : τ) : (m.cycle now).1.Saves x m.registers := by
  intro z hz
  have hx := x.isLt
  have hlength : ((m.registers.upTo x).map Byte.ofInt).length = x.toNat + 1 := by simp
  have hread := Memory.getElem?_eq_read_writeBytes (by rw [hlength]; omega)
    (by rw [hlength, memorySize]; omega) m.memory m.index (i := z.toNat)
  rw [List.getElem?_map, Registers.getElem?_upTo _ hz, Option.map_some, Option.some.injEq] at hread
  rw [cycle_of_save h, Memory.read_emod]
  simp only [fetched]
  rw [← hread, (hbytes z).toNat_ofInt]

theorem register_of_restore_read (h : (Instruction.restore x).WrittenAs m.fetch) (now : τ)
    (z : Register) : (m.cycle now).1.register z =
      if z.toNat ≤ x.toNat then ((m.memory.read (m.index + z.toNat)).toNat : Int)
      else m.register z := by
  rw [cycle_of_restore h, register, Registers.get_setUpTo, List.getElem?_map]
  split
  case isTrue hz =>
    rw [Memory.getElem?_readBytes.mpr ⟨Nat.lt_succ_of_le hz, rfl⟩]
    rfl
  case isFalse hz =>
    rw [List.getElem?_eq_none (by rw [Memory.length_readBytes]; omega)]
    rfl

theorem register_of_restore (hsaves : m.Saves x r) (h : (Instruction.restore x).WrittenAs m.fetch)
    (now : τ) (z : Register) :
    (m.cycle now).1.register z = if z.toNat ≤ x.toNat then r.get z else m.register z := by
  rw [register_of_restore_read h]
  split
  case isTrue hz => rw [← hsaves z hz, Memory.read_emod]
  case isFalse => rfl

theorem memory_of_registers {n : Machine τ} (h : n = { m.fetched with registers := r }) :
    n.memory = m.memory := by
  rw [h]
  rfl

theorem fetch_of_next {n : Machine τ} (hpc : n.pc = (m.pc + 2) % memorySize)
    (hmemory : n.memory = m.memory) : n.fetch = m.opcodeAt (m.pc + 2) := by
  rw [fetch_eq_opcodeAt, opcodeAt, hpc, hmemory]
  exact m.opcodeAt_emod (m.pc + 2)

theorem memory_of_restore_save (hrestore : (Instruction.restore x).WrittenAs m.fetch)
    (hsave : (Instruction.save x).WrittenAs (m.opcodeAt (m.pc + 2))) (now now' : τ) :
    let restored := m.cycle now
    let saved := restored.1.cycle now'
    restored.2 = .ok false ∧ saved.2 = .ok false ∧ saved.1.memory = m.memory := by
  intro restored saved
  have hfirst : restored = _ := cycle_of_restore hrestore now
  have hnext : restored.1.fetch = m.opcodeAt (m.pc + 2) :=
    fetch_of_next (by rw [hfirst]; rfl) (memory_of_registers (congrArg Prod.fst hfirst))
  rw [← hnext] at hsave
  have hsecond : saved = _ := cycle_of_save hsave now'
  refine ⟨congrArg Prod.snd hfirst, congrArg Prod.snd hsecond, ?_⟩
  have hbytes (b : Byte) : Byte.ofInt b.toNat = b := by simp [Byte.ofInt]
  rw [hsecond, hfirst]
  simp only [fetched, Registers.upTo_setUpTo, List.map_map, Function.comp_def, hbytes, List.map_id']
  exact m.memory.writeBytes_readBytes m.index _

variable [Clock τ] {beats : ℕ → Beat τ} {n : ℕ}

/-- What is saved stays so over a run of cycles that spare it. -/
theorem Saves.before (h : m.Saves x r)
    (hspare : ∀ k < n, Spares x (m.before beats k) (m.after beats (k + 1))) :
    (m.before beats n).Saves x r := by
  have hosts (s : Machine τ) (acts : List (HostAct τ)) : Spares x s (s.hostAll acts) :=
    ⟨index_hostAll, fun j _ => by rw [memory_hostAll]⟩
  induction n with
  | zero => exact h.spared (hosts m _)
  | succ n ih =>
    have hn := ih fun k hk => hspare k (Nat.lt_succ_of_lt hk)
    exact (hn.spared (hspare n (Nat.lt_succ_self n))).spared (hosts _ _)

/-- Restoring after saving. If the next instruction saves the registers up to `x`, each of them is stored
at its address and nothing else changes. If after any run of cycles, each of which leaves the index and
the saved bytes alone, the next instruction restores the registers up to `x`, they have the values that
were saved, and nothing else changes. The other way round, if the next two instructions restore and save
the registers up to `x`, memory is as it was after both. -/
theorem restored_as_saved (hbytes : m.registers.Bytes) (x : Register) :
    ((Instruction.save x).WrittenAs m.fetch → ∀ now,
      let saved := (m.cycle now).1
      (m.cycle now).2 = .ok false ∧ saved.Saves x m.registers ∧
      (∀ address, ¬ InCells m.index (x.toNat + 1) address →
        saved.memory.read address = m.memory.read address) ∧
      saved = { m.fetched with memory := saved.memory } ∧
      ∀ (beats : ℕ → Beat τ) (n : ℕ),
        (∀ k < n, Spares x (saved.before beats k) (saved.after beats (k + 1))) →
        (Instruction.restore x).WrittenAs (saved.opcode beats n) →
        let last := saved.before beats n
        let restored := saved.after beats (n + 1)
        saved.result beats n = .ok false ∧
        (∀ z, z.toNat ≤ x.toNat → restored.register z = m.register z) ∧
        (∀ z, x.toNat < z.toNat → restored.register z = last.register z) ∧
        restored = { last.fetched with registers := restored.registers }) ∧
    ((Instruction.restore x).WrittenAs m.fetch →
      (Instruction.save x).WrittenAs (m.opcodeAt (m.pc + 2)) → ∀ now now',
      let restored := m.cycle now
      let saved := restored.1.cycle now'
      restored.2 = .ok false ∧ saved.2 = .ok false ∧ saved.1.memory = m.memory) := by
  refine ⟨fun hsave now => ?_, memory_of_restore_save⟩
  intro saved
  have hcycle := cycle_of_save hsave now
  have hsaves : saved.Saves x m.registers := saves_of_save hbytes hsave now
  have hsaved : saved = _ := congrArg Prod.fst hcycle
  refine ⟨congrArg Prod.snd hcycle, hsaves, fun address houtside => ?_, by rw [hsaved], ?_⟩
  · rw [hsaved]
    refine Memory.read_writeBytes_of_ne fun j hj heq => houtside ⟨j, ?_, heq⟩
    simpa using hj
  · intro beats n hspare hrestore last restored
    have hlast : last.Saves x m.registers := hsaves.before hspare
    have hregister := register_of_restore hlast hrestore (beats n).now
    have hcycle' := cycle_of_restore hrestore (beats n).now
    have hrestored : restored = _ := congrArg Prod.fst hcycle'
    refine ⟨congrArg Prod.snd hcycle', fun z hz => ?_, fun z hz => ?_, by rw [hrestored]⟩
    · exact (hregister z).trans (if_pos hz)
    · exact (hregister z).trans (if_neg (Nat.not_le.mpr hz))

/-- Saves four registers across the end of memory, with an index beyond it, changes one of them, and then
restores all four and saves them again. -/
def savingAcrossEnd : Machine Float :=
  { initial .low ⟨fun _ => 0, 0⟩ 0 with
    memory := Memory.zeros.writeBytes programStart [0xf3, 0x55, 0x62, 0x07, 0xf3, 0x65, 0xf3, 0x55]
    registers := (Registers.zeros.set 0 11).set 2 0xff
    index := 0xfffe }

theorem restored_as_saved_across_end :
    let idle : ℕ → Beat Float := fun _ => ⟨[], 0⟩
    let saved := (savingAcrossEnd.cycle 0).1
    let last := saved.before idle 1
    savingAcrossEnd.registers.Bytes ∧ (Instruction.save 3).WrittenAs savingAcrossEnd.fetch ∧
    (∀ k < 1, Spares 3 (saved.before idle k) (saved.after idle (k + 1))) ∧
    (Instruction.restore 3).WrittenAs (saved.opcode idle 1) ∧
    saved.Saves 3 savingAcrossEnd.registers ∧ last.register 2 = 7 ∧
    (saved.after idle 2).register 2 = 0xff ∧ (saved.after idle 2).memory = last.memory ∧
    last.registers.Bytes ∧ (Instruction.restore 3).WrittenAs last.fetch ∧
    (Instruction.save 3).WrittenAs (last.opcodeAt (last.pc + 2)) ∧
    ((last.cycle 0).1.cycle 0).1.memory = last.memory := by
  intro idle saved last
  have hbytes : savingAcrossEnd.registers.Bytes :=
    (Registers.bytes_zeros.set 0 ⟨by decide, by decide⟩).set 2 ⟨by decide, by decide⟩
  have hsave : (Instruction.save 3).WrittenAs savingAcrossEnd.fetch := by
    rw [show savingAcrossEnd.fetch = 0xf355 by decide +kernel]
    exact ⟨rfl, rfl, rfl⟩
  have hdecode : Instruction.ofOpcode? saved.fetch = some (.loadByte 2 7) := by decide +kernel
  have hload : saved.cycle 0 = (saved.fetched.setRegister 2 7, .ok false) :=
    cycle_of_ok hdecode rfl
  have hspare : ∀ k < 1, Spares 3 (saved.before idle k) (saved.after idle (k + 1)) := by
    intro k hk
    obtain rfl : k = 0 := by omega
    have hset (s : Machine Float) : Spares 3 s (s.fetched.setRegister 2 7) :=
      ⟨rfl, fun _ _ => rfl⟩
    show Spares 3 saved (saved.cycle 0).1
    rw [hload]
    exact hset saved
  have hrestore : (Instruction.restore 3).WrittenAs (saved.opcode idle 1) := by
    rw [show saved.opcode idle 1 = 0xf365 by decide +kernel]
    exact ⟨rfl, rfl, rfl⟩
  have hagain : (Instruction.save 3).WrittenAs (last.opcodeAt (last.pc + 2)) := by
    rw [show last.opcodeAt (last.pc + 2) = 0xf355 by decide +kernel]
    exact ⟨rfl, rfl, rfl⟩
  have hlast : last.registers.Bytes := by
    have hregisters : last.registers = savingAcrossEnd.registers.set 2 7 := by decide +kernel
    rw [hregisters]
    exact hbytes.set 2 ⟨by decide, by decide⟩
  obtain ⟨-, hsaves, -, -, hlater⟩ := (restored_as_saved hbytes 3).1 hsave 0
  obtain ⟨-, hregister, -, hkeep⟩ := hlater idle 1 hspare hrestore
  obtain ⟨-, -, hmemory⟩ := (restored_as_saved hlast 3).2 hrestore hagain 0 0
  have hfull : (saved.after idle 2).register 2 = savingAcrossEnd.register 2 :=
    hregister 2 (by decide)
  have hkept : (saved.after idle 2).memory = last.memory := memory_of_registers hkeep
  exact ⟨hbytes, hsave, hspare, hrestore, hsaves, by decide +kernel, hfull, hkept, hlast, hrestore,
    hagain, hmemory⟩

end Machine

end ChipEight
