import ChipEight.Machine.Basic
import ChipEight.Proofs.MemoryCells

/-!
# Loaded programs

Loading replaces a range of cells between two positions, and a position below zero counts from the end
of memory. So a program that is loaded at an address below zero and ends before the last cell lies
where the same bytes would be written. A program that ends exactly at the last cell does not: its end
counts from the front again, no cell lies between the two positions, and memory grows by the program.
-/
namespace ChipEight

namespace Memory
variable {m : Memory} {program : List Byte} {address : Int} {p : ℕ}

private theorem size_extract_position (m : Memory) (address : Int) :
    (m.cells.extract 0 (position m.cells.size address)).size =
      position m.cells.size address := by
  rw [Array.size_extract_of_le (position_le _ _), Nat.sub_zero]

private theorem size_until_end (m : Memory) (address : Int) (program : List Byte) :
    (m.cells.extract 0 (position m.cells.size address) ++ program.toArray).size =
      position m.cells.size address + program.length := by
  rw [Array.size_append, size_extract_position]
  rfl

theorem getElem?_place_of_lt (hp : p < position m.cells.size address + program.length) :
    (m.place address program).cells[p]? =
      if p < position m.cells.size address then m.cells[p]?
      else program[p - position m.cells.size address]? := by
  have hfirst := position_le m.cells.size address
  rw [place, Array.getElem?_append_left (by rwa [size_until_end]), Array.getElem?_append,
    size_extract_position]
  split
  case isTrue h =>
    rw [Array.getElem?_extract, if_pos (by omega), Nat.zero_add]
  case isFalse => rw [List.getElem?_toArray]

theorem getElem?_place_of_le
    (hlast : position m.cells.size (address + program.length) =
      position m.cells.size address + program.length)
    (hp : position m.cells.size address + program.length ≤ p) :
    (m.place address program).cells[p]? = m.cells[p]? := by
  rw [place, Array.getElem?_append_right (by rwa [size_until_end]), size_until_end, hlast,
    Nat.max_eq_right (Nat.le_add_right _ _), Array.getElem?_extract]
  split
  case isTrue => rw [Nat.add_sub_cancel' hp]
  case isFalse h => rw [Array.getElem?_eq_none (by omega)]

theorem writeRange_eq_writeBytes (m : Memory) (address : Int) (bytes : List Byte) :
    m.writeRange (some address) (some (address + bytes.length)) bytes =
      m.writeBytes address bytes := by
  have hcount : (address + bytes.length - address).toNat = bytes.length := by omega
  simp only [writeRange, Option.getD_some, hcount, List.take_length]

/-- A program that is put at the cell of its address and ends no later than the last cell is read as if
its bytes had been written. -/
theorem read_place (hm : m.cells.size = memorySize) (hstart : -memorySize ≤ address)
    (hfirst : position m.cells.size address = slot address)
    (hend : slot address + program.length ≤ memorySize) (k : Int) :
    (m.place address program).read k = (m.writeBytes address program).read k := by
  have hk := getElem?_slot (m.place address program) k
  have hreach : ∀ i < program.length,
      (address + i) % memorySize = k % memorySize ↔ slot address + i = slot k := by
    intro i hi
    simp only [slot, memorySize] at hend ⊢
    omega
  by_cases hbefore : slot k < slot address
  · -- before the program
    rw [getElem?_place_of_lt (by omega), hfirst, if_pos hbefore, getElem?_slot] at hk
    rw [← Option.some.inj hk, read_writeBytes_of_ne]
    intro j hj heq
    have := (hreach j hj).mp heq.symm
    omega
  by_cases hinside : slot k < slot address + program.length
  · -- inside the program, where only one of its bytes is written to each cell
    rw [getElem?_place_of_lt (by omega), hfirst, if_neg hbefore] at hk
    have hlast : IsGreatest (writers address program.length k) (slot k - slot address) := by
      have hi : slot k - slot address < program.length := by omega
      refine ⟨⟨hi, (hreach _ hi).mpr (by omega)⟩, fun j hj => ?_⟩
      have := (hreach j hj.1).mp hj.2
      omega
    exact Option.some.inj (hk.symm.trans (read_writeBytes_of_isGreatest hlast m))
  · -- after the program, which then does not end at the last cell
    have hslot := slot_lt k
    have hlast : position m.cells.size (address + program.length) =
        position m.cells.size address + program.length := by
      rw [hm] at hfirst ⊢
      simp only [position, slot, memorySize] at hstart hinside hslot hfirst ⊢
      split at hfirst <;> split <;> omega
    rw [getElem?_place_of_le hlast (by omega), getElem?_slot] at hk
    rw [← Option.some.inj hk, read_writeBytes_of_ne]
    intro j hj heq
    have := (hreach j hj).mp heq.symm
    omega

/-- Putting a program between address zero and the end is writing its bytes. -/
theorem place_eq_writeBytes (hm : m.cells.size = memorySize) (hstart : 0 ≤ address)
    (hin : address < memorySize) (hfit : address + program.length ≤ memorySize) :
    m.place address program = m.writeBytes address program := by
  have hslot : (slot address : Int) = address := by
    simp only [slot, memorySize] at hin ⊢
    omega
  have hfirst : position m.cells.size address = slot address := by
    rw [hm, position, if_neg (by omega)]
    omega
  refine ext_read ?_ ?_ (read_place hm (by omega) hfirst (by omega))
  · rw [size_place hstart (by rwa [hm]), hm]
  · rw [size_writeBytes, hm]

section FromEnd
variable (hm : m.cells.size = memorySize) (hstart : -memorySize ≤ address) (hneg : address < 0)
include hm hstart hneg

theorem size_place_of_neg (hend : address + program.length ≤ 0) :
    (m.place address program).cells.size =
      memorySize + if address + program.length = 0 then program.length else 0 := by
  have hposition : position m.cells.size address = address + memorySize := by
    rw [hm, position, if_pos hneg]
    omega
  rw [size_place_eq, hm]
  rw [hm] at hposition
  split
  case isTrue hzero =>
    -- the end counts from the front
    rw [hzero, show position memorySize 0 = 0 from rfl]
    omega
  case isFalse =>
    rw [position.eq_def memorySize (address + program.length), if_pos (by omega)]
    omega

theorem read_place_of_neg (hend : address + program.length ≤ 0) (k : Int) :
    (m.place address program).read k = (m.writeBytes address program).read k := by
  have hslot : (slot address : Int) = address + memorySize := by
    simp only [slot, memorySize] at hstart ⊢
    omega
  have hfirst : position m.cells.size address = slot address := by
    rw [hm, position, if_pos hneg]
    omega
  exact read_place hm hstart hfirst (by omega) k

/-- A program at an address below zero that ends no later than the last cell can always be loaded, and
is read back as if its bytes had been written there with all addresses wrapping around. But memory
keeps its size, and is the memory that such a write leaves, exactly if the program ends before the last
cell. Otherwise memory grows by the length of the program. -/
theorem load_from_end (hend : address + program.length ≤ 0) :
    ∃ loaded, m.load program address = (loaded, .ok ()) ∧
      (∀ k, loaded.read k =
        (m.writeRange (some address) (some (address + program.length)) program).read k) ∧
      loaded.cells.size =
        memorySize + (if address + program.length = 0 then program.length else 0) ∧
      (loaded.cells.size = memorySize ∧
          loaded = m.writeRange (some address) (some (address + program.length)) program ↔
        address + program.length < 0) := by
  have hload : m.load program address = (m.place address program, .ok ()) :=
    load_eq_ok_iff.mpr ⟨by rw [memorySize]; omega, rfl⟩
  have hsize := size_place_of_neg hm hstart hneg hend
  refine ⟨m.place address program, hload, fun k => ?_, hsize, ?_⟩
  · rw [writeRange_eq_writeBytes, read_place_of_neg hm hstart hneg hend]
  · constructor
    · rintro ⟨hsame, -⟩
      rw [hsize] at hsame
      split at hsame <;> omega
    · intro hbefore
      rw [if_neg (by omega), Nat.add_zero] at hsize
      refine ⟨hsize, ext_read hsize (by rw [size_writeRange, hm]) fun k => ?_⟩
      rw [writeRange_eq_writeBytes, read_place_of_neg hm hstart hneg hend]

end FromEnd

/-- Three bytes that end one cell before the last. -/
theorem load_from_end_gap :
    let program : List Byte := [0x12, 0x34, 0x56]
    initial.cells.size = memorySize ∧ -memorySize ≤ (-4 : Int) ∧ (-4 : Int) < 0 ∧
    (-4 : Int) + program.length ≤ 0 ∧
    ∃ loaded, initial.load program (-4) = (loaded, .ok ()) ∧ loaded.cells.size = memorySize ∧
      loaded = initial.writeRange (some (-4)) (some (-1)) program := by
  intro program
  have hstart : -memorySize ≤ (-4 : Int) := by decide
  have hend : (-4 : Int) + program.length ≤ 0 := by decide
  obtain ⟨loaded, hload, -, -, hwritten⟩ := load_from_end size_initial hstart (by decide) hend
  obtain ⟨hsize, heq⟩ := hwritten.mpr (by decide)
  exact ⟨size_initial, hstart, by decide, hend, loaded, hload, hsize, heq⟩

/-- Two bytes that end at the last cell make memory grow. It is not the memory that writing them
leaves, and the next program that is loaded at their address misses the cells that they are read from. -/
theorem load_up_to_end_grows :
    ∃ loaded, initial.load [0xaa, 0xbb] (-2) = (loaded, .ok ()) ∧ loaded.cells.size = 4098 ∧
      loaded ≠ initial.writeRange (some (-2)) (some 0) [0xaa, 0xbb] ∧
      ∃ again, loaded.load [0xcc] (-2) = (again, .ok ()) ∧ again.read (-2) = 0xaa := by
  have hsize : (initial.place (-2) [0xaa, 0xbb]).cells.size = 4098 :=
    size_place_of_neg size_initial (by decide) (by decide) (by decide)
  refine ⟨initial.place (-2) [0xaa, 0xbb], rfl, hsize, fun heq => ?_, _, rfl, ?_⟩
  · rw [heq, size_writeRange, size_initial] at hsize
    exact absurd hsize (by decide)
  · have hread := getElem?_slot ((initial.place (-2) [0xaa, 0xbb]).place (-2) [0xcc]) (-2)
    -- the second program is put after the cells of the first that can be reached
    rw [getElem?_place_of_lt (by rw [hsize]; decide), hsize, if_pos (by decide),
      getElem?_place_of_lt (by rw [size_initial]; decide), size_initial] at hread
    exact (Option.some.inj hread).symm

end Memory

namespace Machine
variable {τ : Type} {m n : Machine τ} {program : List Byte} {address : Int}

theorem load_eq_ok_iff : m.load program address = (n, .ok ()) ↔
    address + program.length ≤ memorySize ∧
      n = { m with memory := m.memory.place address program } := by
  rw [load]
  rcases hload : m.memory.load program address with ⟨memory, f | _⟩
  · obtain ⟨hlong, -⟩ := Memory.load_eq_error_iff.mp hload
    simp [Int.not_le.mpr hlong]
  · obtain ⟨hfit, rfl⟩ := Memory.load_eq_ok_iff.mp hload
    simp [hfit, eq_comm]

theorem load_eq_error_iff {f : Fault} : m.load program address = (n, .error f) ↔
    memorySize < address + program.length ∧ n = m ∧
      f = .programTooLarge program.length address := by
  rw [load]
  rcases hload : m.memory.load program address with ⟨memory, g | _⟩
  · obtain ⟨hlong, rfl, rfl⟩ := Memory.load_eq_error_iff.mp hload
    change (m, _) = (n, _) ↔ _
    simp [hlong, eq_comm]
  · obtain ⟨hfit, -⟩ := Memory.load_eq_ok_iff.mp hload
    simp [Int.not_lt.mpr hfit]

end Machine

end ChipEight
