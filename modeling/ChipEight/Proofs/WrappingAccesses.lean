import ChipEight.Proofs.ByteRegisters
import ChipEight.Proofs.MemoryCells

/-!
# Accesses that wrap around

To whoever reads and writes it, memory is a map from all integers to bytes that repeats itself after
the last address. A range of addresses may start below zero and run past the end, and a range longer
than memory comes back to cells that it has reached before: what is read there is read again, and of
several bytes that are written there the last one stays.
-/
namespace ChipEight

/-- A way of reaching memory by integers. Bounds may be left out, and values are cut down to bytes. -/
inductive Access where
  | get (address : Int)
  | set (address value : Int)
  | getRange (start stop : Option Int)
  | setRange (start stop : Option Int) (values : List Int)

namespace Access

/-- What an access to a map from the integers to bytes answers, and which map it leaves. -/
def Turns (f : Int → Byte) (answer : List Byte) (g : Int → Byte) : Access → Prop
  | .get address => answer = [f (address % memorySize)] ∧ g = f
  | .set address value => answer = [] ∧ ∀ p,
      (p % memorySize = address % memorySize → ((g p).toNat : Int) = value % 256) ∧
      (p % memorySize ≠ address % memorySize → g p = f p)
  | .getRange start stop =>
    let first := start.getD 0
    let last := stop.getD memorySize
    g = f ∧ answer.length = (last - first).toNat ∧
      ∀ i < answer.length, answer[i]? = some (f ((first + i) % memorySize))
  | .setRange start stop values =>
    let first := start.getD 0
    let last := stop.getD memorySize
    let count := min values.length (last - first).toNat
    answer = [] ∧ ∀ p,
      (∀ i, IsGreatest (Memory.writers first count p) i →
        ∃ value, values[i]? = some value ∧ ((g p).toNat : Int) = value % 256) ∧
      ((∀ i, i ∉ Memory.writers first count p) → g p = f p)

/-- A course of accesses to a map: what each of them answers, and the map that the last one leaves. -/
inductive Course : (Int → Byte) → List Access → List (List Byte) → (Int → Byte) → Prop
  | nil (f : Int → Byte) : Course f [] [] f
  | cons {f g h : Int → Byte} {access : Access} {answer : List Byte} {rest : List Access}
      {answers : List (List Byte)} (first : access.Turns f answer g)
      (others : Course g rest answers h) : Course f (access :: rest) (answer :: answers) h

end Access

namespace Memory

def answer (m : Memory) : Access → List Byte
  | .get address => [m.read address]
  | .getRange start stop => m.readRange start stop
  | .set _ _ | .setRange _ _ _ => []

def accessed (m : Memory) : Access → Memory
  | .get _ | .getRange _ _ => m
  | .set address value => m.write address (Byte.ofInt value)
  | .setRange start stop values => m.writeRange start stop (values.map Byte.ofInt)

def answers (m : Memory) : List Access → List (List Byte)
  | [] => []
  | access :: rest => m.answer access :: (m.accessed access).answers rest

def accessedAll (m : Memory) (accesses : List Access) : Memory := accesses.foldl accessed m

variable {m : Memory}

/-- A range that is written takes as many values as both sides have. -/
theorem read_writeRange_of_isGreatest {start stop : Option Int} {values : List Int} {p : Int}
    {i : ℕ} (m : Memory)
    (h : IsGreatest (writers (start.getD 0)
      (min values.length (stop.getD memorySize - start.getD 0).toNat) p) i) :
    ∃ value, values[i]? = some value ∧
      (((m.writeRange start stop (values.map Byte.ofInt)).read p).toNat : Int) = value % 256 := by
  have hi := h.1.1
  rw [← List.length_map (f := Byte.ofInt), Nat.min_comm, ← List.length_take] at h
  have hread := read_writeBytes_of_isGreatest h m
  rw [List.getElem?_take_of_lt (by omega), List.getElem?_map] at hread
  obtain ⟨value, hvalue, hbyte⟩ := Option.map_eq_some_iff.mp hread
  refine ⟨value, hvalue, ?_⟩
  rw [writeRange, ← hbyte, Byte.toNat_ofInt]

theorem read_writeRange_of_not_mem {start stop : Option Int} {values : List Int} {p : Int}
    (m : Memory)
    (h : ∀ i, i ∉ writers (start.getD 0)
      (min values.length (stop.getD memorySize - start.getD 0).toNat) p) :
    (m.writeRange start stop (values.map Byte.ofInt)).read p = m.read p := by
  refine read_writeBytes_of_ne fun j hj heq => h j ⟨?_, heq.symm⟩
  rw [List.length_take, List.length_map] at hj
  omega

/-- Each access turns the map of the bytes that are read into that of the memory it leaves. -/
theorem turns_accessed (m : Memory) (access : Access) :
    access.Turns m.read (m.answer access) (m.accessed access).read := by
  cases access with
  | get address => exact ⟨by rw [read_emod]; rfl, rfl⟩
  | set address value =>
    refine ⟨rfl, fun p => ⟨fun h => ?_, fun h => read_write_of_ne h⟩⟩
    rw [accessed, read_write, if_pos h, Byte.toNat_ofInt]
  | getRange start stop =>
    refine ⟨rfl, length_readBytes m _ _, fun i hi => ?_⟩
    rw [answer, readRange, length_readBytes] at hi
    rw [answer, readRange, read_emod]
    exact getElem?_readBytes.mpr ⟨hi, rfl⟩
  | setRange start stop values =>
    exact ⟨rfl, fun p => ⟨fun i => m.read_writeRange_of_isGreatest, m.read_writeRange_of_not_mem⟩⟩

theorem course_accessedAll (m : Memory) (accesses : List Access) :
    Access.Course m.read accesses (m.answers accesses) (m.accessedAll accesses).read := by
  induction accesses generalizing m with
  | nil => exact .nil m.read
  | cons access rest ih => exact .cons (m.turns_accessed access) (ih (m.accessed access))

theorem getElem?_accessed_of_le {p : ℕ} (hp : memorySize ≤ p) (m : Memory) (access : Access) :
    (m.accessed access).cells[p]? = m.cells[p]? := by
  cases access with
  | get | getRange => rfl
  | set address value => exact getElem?_writeBytes_of_le hp m address [Byte.ofInt value]
  | setRange start stop values => exact getElem?_writeBytes_of_le hp m _ _

theorem size_accessed (m : Memory) (access : Access) :
    (m.accessed access).cells.size = m.cells.size := by
  cases access with
  | get | getRange => rfl
  | set address value => exact size_write m address _
  | setRange start stop values => exact size_writeRange m start stop _

theorem accessedAll_keeps (m : Memory) (accesses : List Access) :
    (m.accessedAll accesses).cells.size = m.cells.size ∧
      ∀ p, memorySize ≤ p → (m.accessedAll accesses).cells[p]? = m.cells[p]? := by
  induction accesses generalizing m with
  | nil => exact ⟨rfl, fun p _ => rfl⟩
  | cons access rest ih =>
    obtain ⟨hsize, hbeyond⟩ := ih (m.accessed access)
    exact ⟨hsize.trans (m.size_accessed access),
      fun p hp => (hbeyond p hp).trans (getElem?_accessed_of_le hp m access)⟩

/-- Memory is a periodic map from the integers to bytes. An address reads the cell that it reaches
modulo the size of memory, and accesses of any number and kind take their course as accesses to such a
map do. They neither add nor remove cells, nor change one that no address reaches. -/
theorem accesses_wrap (m : Memory) (accesses : List Access) :
    (∀ address : Int, m.cells[(address % memorySize).toNat]? = some (m.read address) ∧
      m.read address = m.read (address % memorySize)) ∧
    Access.Course m.read accesses (m.answers accesses) (m.accessedAll accesses).read ∧
    (m.accessedAll accesses).cells.size = m.cells.size ∧
    ∀ p, memorySize ≤ p → (m.accessedAll accesses).cells[p]? = m.cells[p]? :=
  ⟨fun address => ⟨m.getElem?_slot address, (m.read_emod address).symm⟩,
    m.course_accessedAll accesses, m.accessedAll_keeps accesses⟩

end Memory

end ChipEight
