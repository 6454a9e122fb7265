import ChipEight.Proofs.DisplayShape
import ChipEight.Proofs.Runs
import ChipEight.Proofs.WellFormedMachines

/-!
# Reachable machines

Whatever is loaded into a new machine, written to its memory, shown to it by the surroundings and run
on it, in any order and with any faults on the way, it stays well-formed and keeps its resolution.
-/
namespace ChipEight

/-- Anything that changes a machine. Bytes are written as integers and cut down. -/
inductive Change (τ : Type) where
  | load (program : List Byte) (address : ℕ)
  | write (address value : Int)
  | writeRange (start stop : Option Int) (values : List Int)
  | clearMemory
  | clearDisplay
  | host (act : HostAct τ)
  | cycle (now : τ)

namespace Machine
variable {τ : Type}

theorem skipIf_display (m : Machine τ) (c : Bool) : (m.skipIf c).display = m.display := by
  rw [skipIf]
  split <;> rfl

theorem waitKey_display (m : Machine τ) (x : Register) : (m.waitKey x).display = m.display := by
  rw [waitKey]
  split <;> rfl

theorem execute_resolution {m a : Machine τ} {now : τ} {i : Instruction}
    (he : m.execute now i = (a, .ok ())) : a.display.resolution = m.display.resolution := by
  cases i with
  | call nnn =>
    obtain ⟨stack, -, rfl⟩ := exists_of_call_ok he
    rfl
  | ret =>
    obtain ⟨address, stack, -, rfl⟩ := exists_of_ret_ok he
    rfl
  | draw x y n =>
    obtain rfl := (Prod.mk.inj he).1
    exact m.display.resolution_drawSprite _ _ _
  | skipEqByte | skipNeByte | skipEq | skipNe | skipKey | skipNoKey =>
    obtain rfl := (Prod.mk.inj he).1
    rw [skipIf_display]
  | waitKey x =>
    obtain rfl := (Prod.mk.inj he).1
    rw [waitKey_display]
  | _ =>
    obtain rfl := (Prod.mk.inj he).1
    rfl

theorem cycle_resolution (m : Machine τ) (now : τ) :
    (m.cycle now).1.display.resolution = m.display.resolution := by
  rcases m.cycle_fetched_or_executed now with hf | ⟨i, he⟩
  · rw [hf]
    rfl
  · rw [execute_resolution he]
    rfl

theorem WellFormed.load {m : Machine τ} (h : m.WellFormed) (program : List Byte)
    (address : ℕ) : (m.load program address).1.WellFormed :=
  { h with memory_size := Memory.size_load (Int.natCast_nonneg address) h.memory_size }

variable [Clock τ]

/-- The machine that a change leaves behind, whether it succeeds or fails. -/
def perform (m : Machine τ) : Change τ → Machine τ
  | .load program address => (m.load program address).1
  | .write address value => { m with memory := m.memory.write address (Byte.ofInt value) }
  | .writeRange start stop values =>
    { m with memory := m.memory.writeRange start stop (values.map Byte.ofInt) }
  | .clearMemory => { m with memory := Memory.zeros }
  | .clearDisplay => { m with display := m.display.clear }
  | .host act => m.host act
  | .cycle now => (m.cycle now).1

def performAll (m : Machine τ) (changes : List (Change τ)) : Machine τ := changes.foldl perform m

variable {m : Machine τ}

theorem WellFormed.host (h : m.WellFormed) (act : HostAct τ) : (m.host act).WellFormed := by
  cases act with
  | keys keys => exact { h with }
  | timers delayNow soundNow => exact { h with }

theorem WellFormed.hostAll (h : m.WellFormed) (acts : List (HostAct τ)) :
    (m.hostAll acts).WellFormed := by
  obtain ⟨keys, delay, sound, heq⟩ := m.hostAll_eq acts
  rw [heq]
  exact { h with }

/-- The machines that the cycles of a run start from are well-formed. -/
theorem WellFormed.before (h : m.WellFormed) (beats : ℕ → Beat τ) (n : ℕ) :
    (m.before beats n).WellFormed := by
  have hafter : (m.after beats n).WellFormed := by
    induction n with
    | zero => exact h
    | succ n ih => exact (ih.hostAll _).cycle _
  exact hafter.hostAll _

theorem WellFormed.perform (h : m.WellFormed) (c : Change τ) : (m.perform c).WellFormed := by
  cases c with
  | load program address => exact h.load program address
  | write address value =>
    exact { h with memory_size := (Memory.size_write _ _ _).trans h.memory_size }
  | writeRange start stop values =>
    exact { h with memory_size := (Memory.size_writeRange _ _ _ _).trans h.memory_size }
  | clearMemory => exact { h with memory_size := Array.size_replicate }
  | clearDisplay => exact { h with }
  | host act => exact h.host act
  | cycle now => exact h.cycle now

theorem WellFormed.storing (h : m.WellFormed) (program : List Byte) :
    { m with memory := Memory.zeros.writeBytes programStart program }.WellFormed :=
  (h.perform .clearMemory).writeBytes programStart program

theorem perform_resolution (m : Machine τ) (c : Change τ) :
    (m.perform c).display.resolution = m.display.resolution := by
  cases c with
  | host act => cases act <;> rfl
  | cycle now => exact m.cycle_resolution now
  | load | write | writeRange | clearMemory | clearDisplay => rfl

theorem WellFormed.performAll (h : m.WellFormed) (changes : List (Change τ)) :
    (m.performAll changes).WellFormed := by
  induction changes generalizing m with
  | nil => exact h
  | cons c rest ih => exact ih (h.perform c)

theorem performAll_resolution (m : Machine τ) (changes : List (Change τ)) :
    (m.performAll changes).display.resolution = m.display.resolution := by
  induction changes generalizing m with
  | nil => rfl
  | cons c rest ih => exact (ih (m.perform c)).trans (m.perform_resolution c)

/-- The bounds that hold in every machine that can be reached from a new one. -/
theorem reachable_bounds (resolution : Resolution) (noise : Noise) (now : τ)
    (changes : List (Change τ)) :
    let m := (initial resolution noise now).performAll changes
    (m.memory.cells.size = 4096 ∧ ∀ b ∈ m.memory.cells, b.toNat ≤ 0xff) ∧
    (m.registers.values.toList.length = 16 ∧ ∀ v ∈ m.registers.values.toList, 0 ≤ v ∧ v ≤ 0xff) ∧
    (0 ≤ m.index ∧ m.index ≤ 0xffff) ∧
    (0 ≤ m.pc ∧ m.pc ≤ 0xfff) ∧
    (0 ≤ m.opcodeAddress ∧ m.opcodeAddress ≤ 0xfff) ∧
    (m.stack.depth ≤ 16 ∧ m.stack.slots.toList.length = 16 ∧
      ∀ a ∈ m.stack.slots.toList, 0 ≤ a ∧ a ≤ 0xfff) ∧
    (m.delay.value.toNat ≤ 0xff ∧ m.sound.value.toNat ≤ 0xff) ∧
    m.display.resolution = resolution ∧ m.display.rows.length = resolution.height ∧
      ∀ row ∈ m.display.rows, row.length = resolution.width := by
  have hwf := (wellFormed_initial resolution noise now).performAll changes
  have hres := (initial resolution noise now).performAll_resolution changes
  intro m
  change m.WellFormed at hwf
  change m.display.resolution = resolution at hres
  refine ⟨⟨hwf.memory_size, fun b _ => by have := b.isLt; omega⟩,
    ⟨m.registers.values.length_toList, fun v hv => hwf.registers.of_mem hv⟩, hwf.index, hwf.pc,
    hwf.opcodeAddress, ⟨m.stack.depth_le, m.stack.slots.length_toList, fun a ha => ?_⟩,
    ⟨?_, ?_⟩, hres, ?_, fun row hrow => ?_⟩
  · exact hwf.slots a (Vector.mem_toList_iff.mp ha)
  · have := m.delay.value.isLt
    omega
  · have := m.sound.value.isLt
    omega
  · rw [Display.length_rows, hres]
  · rw [Display.length_of_mem_rows hrow, hres]

end Machine

end ChipEight
