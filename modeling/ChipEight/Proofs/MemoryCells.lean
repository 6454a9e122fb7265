import ChipEight.Memory.Basic
import Mathlib.Order.Bounds.Defs
import Mathlib.Tactic.Common

/-!
# The cells of a memory

Addresses that are equal modulo the size of the memory reach the same cell. Writing never changes
the number of cells, and neither does loading a program that fits between address zero and the end.
-/
namespace ChipEight.Memory

@[simp] theorem slot_emod (address : Int) : slot (address % memorySize) = slot address := by
  simp [slot]

@[simp] theorem read_emod (m : Memory) (address : Int) :
    m.read (address % memorySize) = m.read address := by
  simp [read]

theorem getElem?_readBytes {m : Memory} {address : Int} {count r : ℕ} {b : Byte} :
    (m.readBytes address count)[r]? = some b ↔ r < count ∧ m.read (address + r) = b := by
  simp [readBytes, List.getElem?_eq_some_iff]

theorem slot_eq_iff {a b : Int} : slot a = slot b ↔ a % memorySize = b % memorySize := by
  simp only [slot, memorySize]
  omega

theorem getElem?_slot (m : Memory) (address : Int) :
    m.cells[slot address]? = some (m.read address) :=
  Array.getElem?_eq_getElem (m.slot_lt_size address)

theorem getElem?_eq_read (m : Memory) {p : ℕ} (hp : p < memorySize) :
    m.cells[p]? = some (m.read p) := by
  have hslot : slot p = p := by
    simp only [slot, memorySize] at hp ⊢
    omega
  rw [← getElem?_slot, hslot]

theorem ext_cells {m n : Memory} (h : m.cells = n.cells) : m = n := by
  cases m
  cases n
  cases h
  rfl

/-- Memories without surplus cells are equal if every address reads the same in both. -/
theorem ext_read {m n : Memory} (hm : m.cells.size = memorySize) (hn : n.cells.size = memorySize)
    (h : ∀ address, m.read address = n.read address) : m = n := by
  refine ext_cells (Array.ext_getElem? fun p => ?_)
  by_cases hp : p < memorySize
  · rw [getElem?_eq_read m hp, getElem?_eq_read n hp, h]
  · rw [Array.getElem?_eq_none (by omega), Array.getElem?_eq_none (by omega)]

theorem read_write (m : Memory) (a address : Int) (b : Byte) :
    (m.write address b).read a =
      if a % memorySize = address % memorySize then b else m.read a := by
  simp only [read, write, Array.getElem_set, ← slot_eq_iff, eq_comm]

theorem read_write_of_ne {m : Memory} {a address : Int} {b : Byte}
    (h : a % memorySize ≠ address % memorySize) : (m.write address b).read a = m.read a :=
  (m.read_write a address b).trans (if_neg h)

theorem read_writeBytes_of_ne {m : Memory} {a address : Int} {bytes : List Byte}
    (h : ∀ j < bytes.length, a % memorySize ≠ (address + j) % memorySize) :
    (m.writeBytes address bytes).read a = m.read a := by
  induction bytes generalizing m address with
  | nil => rfl
  | cons b rest ih =>
    have hrest : ∀ j < rest.length, a % memorySize ≠ (address + 1 + j) % memorySize := by
      intro j hj
      have hj1 := h (j + 1) (by simpa using hj)
      rwa [Int.natCast_succ, Int.add_comm j, ← Int.add_assoc] at hj1
    have hfirst := h 0 (by simp)
    rw [Int.natCast_zero, Int.add_zero] at hfirst
    rw [writeBytes, ih hrest, read_write_of_ne hfirst]

theorem writeBytes_append (m : Memory) (address : Int) (before after : List Byte) :
    m.writeBytes address (before ++ after) =
      (m.writeBytes address before).writeBytes (address + before.length) after := by
  induction before generalizing m address with
  | nil => simp [writeBytes]
  | cons b rest ih =>
    rw [List.cons_append, writeBytes, ih, writeBytes, List.length_cons, Int.natCast_succ,
      Int.add_comm (rest.length : Int) 1, Int.add_assoc]

/-- The places of those bytes, of so many written from a first address on, that reach the cell of
an address. -/
def writers (first : Int) (count : ℕ) (address : Int) : Set ℕ :=
  {i | i < count ∧ (first + i) % memorySize = address % memorySize}

/-- Of all bytes that reach a cell the last one stays there. -/
theorem read_writeBytes_of_isGreatest {first address : Int} {bytes : List Byte} {i : ℕ}
    (h : IsGreatest (writers first bytes.length address) i) (m : Memory) :
    bytes[i]? = some ((m.writeBytes first bytes).read address) := by
  obtain ⟨⟨hi, hreach⟩, hlast⟩ := h
  have hsplit : bytes = bytes.take i ++ bytes[i] :: bytes.drop (i + 1) := by
    rw [← List.drop_eq_getElem_cons hi, List.take_append_drop]
  have hlength : (bytes.take i).length = i := by
    rw [List.length_take, Nat.min_eq_left (Nat.le_of_lt hi)]
  -- a byte after the last one that reaches the cell does not reach it
  have hmiss : ∀ j < (bytes.drop (i + 1)).length,
      address % memorySize ≠ (first + i + 1 + j) % memorySize := by
    intro j hj heq
    rw [List.length_drop] at hj
    have hplace : first + ((i + 1 + j : ℕ) : Int) = first + i + 1 + j := by omega
    have hle : i + 1 + j ≤ i := hlast ⟨by omega, by rw [hplace, heq]⟩
    omega
  rw [List.getElem?_eq_getElem hi]
  conv_rhs => rw [hsplit, writeBytes_append, hlength, writeBytes, read_writeBytes_of_ne hmiss]
  rw [read_write, if_pos hreach.symm]

/-- Bytes that are too few to come back to a cell are all read where they have been written. -/
theorem getElem?_eq_read_writeBytes {bytes : List Byte} {i : ℕ} (hi : i < bytes.length)
    (hfew : bytes.length ≤ memorySize) (m : Memory) (first : Int) :
    bytes[i]? = some ((m.writeBytes first bytes).read (first + i)) := by
  refine read_writeBytes_of_isGreatest ⟨⟨hi, rfl⟩, fun j hj => ?_⟩ m
  obtain ⟨hj, hreach⟩ := hj
  rw [memorySize] at hfew hreach
  omega

@[simp] theorem size_write (m : Memory) (address : Int) (b : Byte) :
    (m.write address b).cells.size = m.cells.size := by
  simp [write]

@[simp] theorem size_writeBytes (m : Memory) (address : Int) (bytes : List Byte) :
    (m.writeBytes address bytes).cells.size = m.cells.size := by
  induction bytes generalizing m address with
  | nil => rfl
  | cons b rest ih => rw [writeBytes, ih, size_write]

@[simp] theorem size_writeRange (m : Memory) (start stop : Option Int) (bytes : List Byte) :
    (m.writeRange start stop bytes).cells.size = m.cells.size :=
  size_writeBytes m _ _

/-- Cells that no address reaches are never written. -/
theorem getElem?_writeBytes_of_le {p : ℕ} (hp : memorySize ≤ p) (m : Memory) (address : Int)
    (bytes : List Byte) : (m.writeBytes address bytes).cells[p]? = m.cells[p]? := by
  induction bytes generalizing m address with
  | nil => rfl
  | cons b rest ih =>
    have hslot : slot address ≠ p := Nat.ne_of_lt (Nat.lt_of_lt_of_le (slot_lt address) hp)
    rw [writeBytes, ih, write, Array.getElem?_set_ne _ hslot]

theorem position_le (size : ℕ) (bound : Int) : position size bound ≤ size := by
  rw [position]
  split <;> omega

theorem size_place_eq (m : Memory) (address : Int) (program : List Byte) :
    (m.place address program).cells.size =
      position m.cells.size address + program.length + (m.cells.size -
        max (position m.cells.size address) (position m.cells.size (address + program.length))) := by
  have hfirst := position_le m.cells.size address
  simp only [place, Array.size_append, Array.size_extract, List.size_toArray]
  omega

/-- A program put between address zero and the end replaces as many cells as it has bytes. -/
theorem size_place {m : Memory} {address : Int} {bytes : List Byte} (h : 0 ≤ address)
    (hfit : address + bytes.length ≤ m.cells.size) :
    (m.place address bytes).cells.size = m.cells.size := by
  rw [size_place_eq]
  simp only [position]
  split <;> split <;> omega

theorem size_initial : initial.cells.size = memorySize := by
  have hz : zeros.cells.size = memorySize := by simp [zeros]
  rw [initial, withGlyphs, size_place (Int.le_refl 0) (by rw [hz]; decide), hz]

theorem load_eq_ok_iff {m n : Memory} {program : List Byte} {address : Int} :
    m.load program address = (n, .ok ()) ↔
      address + program.length ≤ memorySize ∧ n = m.place address program := by
  rw [load, checkLength]
  by_cases hlong : memorySize < address + program.length
  · simp [hlong, Int.not_le.mpr hlong]
  · simp [hlong, Int.not_lt.mp hlong, eq_comm]

/-- A program that does not fit leaves the memory as it is. -/
theorem load_eq_error_iff {m n : Memory} {program : List Byte} {address : Int} {f : Fault} :
    m.load program address = (n, .error f) ↔
      memorySize < address + program.length ∧ n = m ∧
        f = .programTooLarge program.length address := by
  rw [load, checkLength]
  by_cases hlong : memorySize < address + program.length
  · simp [hlong, eq_comm]
  · simp [hlong]

theorem size_load {m : Memory} {program : List Byte} {address : Int} (h : 0 ≤ address)
    (hm : m.cells.size = memorySize) : (m.load program address).1.cells.size = memorySize := by
  rcases hload : m.load program address with ⟨n, f | _⟩
  · obtain ⟨-, rfl, -⟩ := load_eq_error_iff.mp hload
    exact hm
  · obtain ⟨hfit, rfl⟩ := load_eq_ok_iff.mp hload
    rw [size_place h (by rwa [hm]), hm]

end ChipEight.Memory
