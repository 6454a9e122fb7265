import ChipEight.Host.Rom
import ChipEight.Proofs.GlyphsInMemory

/-!
# Attempts to load

A program is loaded whole or not at all. If it would run past the end of memory it is refused and nothing
has been touched. Otherwise its bytes stand from the address on, in just as many cells as it has bytes,
and no other cell has changed. A file is opened, read and then loaded as any program, so whatever the
operating system objects to changes nothing either.
-/
namespace ChipEight

section Attempts
variable {σ ε : Type}

/-- An attempt that starts from a state is all or nothing. It fails on one condition only, with one error,
and then it leaves the state behind that it has started from. Otherwise it leaves one with a property. -/
structure AllOrNothing (before : σ) (refused : Prop) (error : ε) (made : σ → Prop)
    (attempt : σ × Except ε Unit) : Prop where
  error_iff : ∀ e, attempt.2 = .error e ↔ refused ∧ e = error
  unchanged : refused → attempt.1 = before
  made : ¬ refused → attempt.2 = .ok () ∧ made attempt.1

variable {before after : σ} {refused : Prop} {error : ε} {made : σ → Prop}

theorem AllOrNothing.nothing (h : refused) :
    AllOrNothing before refused error made (before, .error error) where
  error_iff e := by simp [h, eq_comm]
  unchanged _ := rfl
  made hfit := absurd h hfit

theorem AllOrNothing.all (h : ¬ refused) (hmade : made after) :
    AllOrNothing before refused error made (after, .ok ()) where
  error_iff e := by simp [h]
  unchanged hlong := absurd hlong h
  made _ := ⟨rfl, hmade⟩

end Attempts

namespace Memory
variable {m n : Memory} {program : List Byte} {address : ℕ}

/-- The memory `n` is `m` with a program loaded at an address. -/
structure Receives (m : Memory) (program : List Byte) (address : ℕ) (n : Memory) : Prop where
  size : n.cells.size = m.cells.size
  inside : ∀ i (hi : i < program.length), n.cells[address + i]? = some program[i]
  outside : ∀ p, p < address ∨ address + program.length ≤ p → n.cells[p]? = m.cells[p]?
  /-- The program is read back from the range of its addresses. -/
  readRange : n.readRange (some address) (some (address + program.length)) = program
  /-- A program behind the table of glyphs does not disturb them. -/
  glyph : glyphTable.length ≤ address → ∀ name, n.glyph name = m.glyph name

theorem position_natCast {size p : ℕ} (h : p ≤ size) : position size p = p := by
  rw [position, if_neg (by omega), Int.toNat_natCast, Nat.min_eq_left h]

/-- Glyphs are read from the cells of their table only. -/
theorem glyph_congr (h : ∀ p < glyphTable.length, n.cells[p]? = m.cells[p]?) (name : GlyphName) :
    n.glyph name = m.glyph name := by
  rw [glyph, glyph, glyphAddress]
  cases hd : name.digit? with
  | none => rfl
  | some d =>
    have hd16 : d < 16 := GlyphName.digit?_lt hd
    refine congrArg Except.ok (List.map_congr_left fun i hi => ?_)
    have hi5 : i < 5 := List.mem_range.mp hi
    have hp : d * glyphRows + i < 80 := by
      rw [glyphRows]
      omega
    have hcell := h (d * glyphRows + i) hp
    rw [getElem?_eq_read n (Nat.lt_trans hp (by decide)),
      getElem?_eq_read m (Nat.lt_trans hp (by decide)), Int.natCast_add] at hcell
    exact Option.some.inj hcell

/-- A program that fits is read back from cells that hold its bytes. -/
theorem readRange_of_inside (hfit : address + program.length ≤ memorySize)
    (hinside : ∀ i (hi : i < program.length), n.cells[address + i]? = some program[i]) :
    n.readRange (some address) (some (address + program.length)) = program := by
  have hcount : ((address : Int) + program.length - address).toNat = program.length := by omega
  simp only [Memory.readRange, Option.getD_some, hcount]
  refine List.ext_getElem (length_readBytes n _ _) fun i hi hi' => ?_
  have hcell := hinside i hi'
  rw [getElem?_eq_read n (by omega), Int.natCast_add] at hcell
  exact Option.some.inj ((List.getElem?_eq_getElem hi).symm.trans
    ((getElem?_readBytes.mpr ⟨hi', rfl⟩).trans hcell))

theorem receives_place (m : Memory) (hfit : address + program.length ≤ memorySize) :
    m.Receives program address (m.place address program) := by
  have hsize := m.size_le
  have hfirst : position m.cells.size address = address := position_natCast (by omega)
  have hlast : position m.cells.size (address + program.length) =
      position m.cells.size address + program.length := by
    rw [hfirst, ← Int.natCast_add, position_natCast (by omega)]
  have hinside : ∀ i (hi : i < program.length),
      (m.place address program).cells[address + i]? = some program[i] := by
    intro i hi
    rw [getElem?_place_of_lt (by omega), hfirst, if_neg (by omega), Nat.add_sub_cancel_left,
      List.getElem?_eq_getElem hi]
  have houtside : ∀ p, p < address ∨ address + program.length ≤ p →
      (m.place address program).cells[p]? = m.cells[p]? := by
    rintro p (hbefore | hafter)
    · rw [getElem?_place_of_lt (by omega), hfirst, if_pos hbefore]
    · exact getElem?_place_of_le hlast (by omega)
  exact {
    size := size_place (Int.natCast_nonneg address) (by omega)
    inside := hinside
    outside := houtside
    readRange := readRange_of_inside hfit hinside
    glyph := fun hbehind => glyph_congr fun p hp => houtside p (.inl (by omega)) }

end Memory

namespace Machine
variable {τ : Type} {m : Machine τ} {program : List Byte}

theorem loadFile_of_le (hfit : programStart + program.length ≤ memorySize) :
    m.loadFile (.ok ⟨.ok program⟩) =
      ({ m with memory := m.memory.place programStart program }, .ok ()) := by
  simp only [loadFile, load_eq_ok_iff.mpr ⟨hfit, rfl⟩]
  rfl

theorem loadFile_of_lt (hlong : memorySize < programStart + program.length) :
    m.loadFile (.ok ⟨.ok program⟩) =
      (m, .error (.fault (.programTooLarge program.length programStart))) := by
  simp only [loadFile, load_eq_error_iff.mpr ⟨hlong, rfl, rfl⟩]
  rfl

/-- A file that is not loaded leaves the machine as it was, whichever step has failed. -/
theorem loadFile_of_error {opened : Except OpenError OpenFile} {e : LoadError}
    (h : (m.loadFile opened).2 = .error e) : (m.loadFile opened).1 = m := by
  rcases opened with _ | ⟨_ | program⟩
  · rfl
  · rfl
  · by_cases hfit : programStart + program.length ≤ memorySize
    · rw [loadFile_of_le hfit] at h
      cases h
    · rw [loadFile_of_lt (Int.not_le.mp hfit)]

/-- What opening or reading a file objects to is passed on. Loading has no other error of its kind. -/
theorem loadFile_passes_on (m : Machine τ) (opened : Except OpenError OpenFile) :
    (∀ e, (m.loadFile opened).2 = .error (.unopened e) ↔ opened = .error e) ∧
      ∀ e, (m.loadFile opened).2 = .error (.unread e) ↔ opened = .ok ⟨.error e⟩ := by
  rcases opened with _ | ⟨_ | program⟩
  · simp [loadFile]
  · simp [loadFile]
  · by_cases hfit : programStart + program.length ≤ memorySize
    · simp [loadFile_of_le hfit]
    · simp [loadFile_of_lt (Int.not_le.mp hfit)]

/-- Loading is all or nothing. A program that would run past the end of memory is refused, with its
length and its address, and leaves everything as it was; any other one is received by the memory and
changes nothing besides. Loading a file does the same where programs start. If it cannot be opened or
read, for whatever reason, that is the error, and whatever error there is leaves everything as it was. -/
theorem loads_all_or_nothing (m : Machine τ) :
    (∀ (memory : Memory) (program : List Byte) (address : ℕ),
      AllOrNothing memory (4096 < address + program.length)
        (.programTooLarge program.length address) (memory.Receives program address)
        (memory.load program address)) ∧
    (∀ program : List Byte,
      AllOrNothing m (4096 < 0x200 + program.length)
        (.fault (.programTooLarge program.length 0x200))
        (fun after => ∃ loaded, after = { m with memory := loaded } ∧
          m.memory.Receives program 0x200 loaded)
        (m.loadFile (.ok ⟨.ok program⟩))) ∧
    ∀ opened : Except OpenError OpenFile,
      (∀ e, (m.loadFile opened).2 = .error (.unopened e) ↔ opened = .error e) ∧
      (∀ e, (m.loadFile opened).2 = .error (.unread e) ↔ opened = .ok ⟨.error e⟩) ∧
      ∀ e, (m.loadFile opened).2 = .error e → (m.loadFile opened).1 = m := by
  refine ⟨fun memory program address => ?_, fun program => ?_, fun opened => ?_⟩
  · by_cases hlong : 4096 < address + program.length
    · rw [Memory.load_eq_error_iff.mpr ⟨by rw [memorySize]; omega, rfl, rfl⟩]
      exact .nothing hlong
    · have hfit : address + program.length ≤ memorySize := Nat.not_lt.mp hlong
      rw [Memory.load_eq_ok_iff.mpr ⟨by omega, rfl⟩]
      exact .all hlong (memory.receives_place hfit)
  · by_cases hlong : 4096 < 0x200 + program.length
    · rw [loadFile_of_lt (by rw [programStart, memorySize]; omega)]
      exact .nothing hlong
    · have hfit : 0x200 + program.length ≤ memorySize := Nat.not_lt.mp hlong
      rw [loadFile_of_le (by rw [programStart]; omega)]
      exact .all hlong ⟨_, rfl, m.memory.receives_place hfit⟩
  · obtain ⟨hopened, hread⟩ := m.loadFile_passes_on opened
    exact ⟨hopened, hread, fun e => loadFile_of_error⟩

end Machine

end ChipEight
