import ChipEight.Memory.Dump
import ChipEight.Proofs.MemoryCells
import ChipEight.Proofs.Numerals
import ChipEight.Proofs.SeparatedTexts
import Mathlib.Algebra.Order.Floor.Div

/-!
# Dumps can be read back

A row of a dump is an address of three digits, a colon, and bytes of two digits each with single blanks
between them. All rows are equally long except the last one, which ends with memory. The bytes of the
rows, one row after the other, are the bytes of memory.
-/
namespace ChipEight.Memory
open Text
variable {m n : Memory} {width address : ℕ}

/-- A row of a dump: an address and the bytes that stand from there on. -/
def IsRow (address : ℕ) (bytes : List Byte) (row : List Char) : Prop :=
  ∃ digits words, row = "0x".toList ++ (digits ++ (": ".toList ++ [' '].intercalate words)) ∧
    IsNumeral 3 address digits ∧ List.Forall₂ (fun b w => IsNumeral 2 b.toNat w) bytes words

/-- The bytes in a row, whose address takes up seven characters. -/
def readRow (row : List Char) : List Byte :=
  ((row.drop 7).splitOn ' ').map fun w => BitVec.ofNat 8 (ofHex w)

def readDump (text : String) : List Byte := (lines text).flatMap readRow

def rowBytes (m : Memory) (width address : ℕ) : List Byte := (m.cells.toList.drop address).take width

theorem blank_not_mem_byteText (b : Byte) : ' ' ∉ (byteText b).toList := not_mem_hex (by decide)

theorem toList_dumpRow (m : Memory) (width address : ℕ) :
    (m.dumpRow width address).toList = "0x".toList ++ ((hex 3 address).toList ++ (": ".toList ++
      [' '].intercalate ((m.rowBytes width address).map fun b => (byteText b).toList))) := by
  have hbytes : (m.cells.extract address (address + width)).toList = m.rowBytes width address := by
    rw [Array.toList_extract, List.extract_eq_take_drop, Nat.add_sub_cancel_left, rowBytes]
  rw [dumpRow, hbytes]
  simp only [String.toList_append, String.toList_intercalate, List.map_map, List.append_assoc]
  rfl

theorem isRow_dumpRow (h : address < memorySize) :
    IsRow address (m.rowBytes width address) (m.dumpRow width address).toList := by
  refine ⟨_, _, m.toList_dumpRow width address, isNumeral_hex h (by decide), ?_⟩
  rw [List.forall₂_map_right_iff, List.forall₂_same]
  exact fun b _ => isNumeral_hex b.isLt (by decide)

theorem readRow_dumpRow (h : address < memorySize) (hbytes : m.rowBytes width address ≠ []) :
    readRow (m.dumpRow width address).toList = m.rowBytes width address := by
  have hdigits : (hex 3 address).toList.length = 3 := length_hex h (by decide)
  have hdrop : (m.dumpRow width address).toList.drop 7 =
      [' '].intercalate ((m.rowBytes width address).map fun b => (byteText b).toList) := by
    rw [toList_dumpRow, ← List.append_assoc, ← List.append_assoc]
    exact List.drop_left' (by simp [hdigits])
  have hblank : ∀ w ∈ (m.rowBytes width address).map (fun b => (byteText b).toList), ' ' ∉ w := by
    intro w hw
    obtain ⟨b, -, rfl⟩ := List.mem_map.mp hw
    exact blank_not_mem_byteText b
  rw [readRow, hdrop, List.splitOn_intercalate ' ' hblank (by simpa using hbytes), List.map_map]
  refine List.map_id'' (fun b => ?_) _
  rw [Function.comp_apply, byteText, ofHex_hex, BitVec.ofNat_toNat, BitVec.setWidth_eq]

theorem newline_not_mem_dumpRow (m : Memory) (width address : ℕ) :
    '\n' ∉ (m.dumpRow width address).toList := by
  rw [toList_dumpRow]
  intro h
  rcases List.mem_append.mp h with h | h
  · exact absurd h (by decide)
  rcases List.mem_append.mp h with h | h
  · exact newline_not_mem_hex h
  rcases List.mem_append.mp h with h | h
  · exact absurd h (by decide)
  rcases mem_of_mem_intercalate h with h | ⟨w, hw, h⟩
  · exact absurd h (by decide)
  · obtain ⟨b, -, rfl⟩ := List.mem_map.mp hw
    exact newline_not_mem_hex h

/-! ## All rows -/

theorem length_dumpRows (m : Memory) (width : ℕ) :
    (m.dumpRows width).length = memorySize ⌈/⌉ width := by
  rw [dumpRows, List.length_map, List.length_range, Nat.ceilDiv_eq_add_pred_div]

theorem flatMap_rowBytes (m : Memory) (width k : ℕ) :
    (List.range k).flatMap (fun i => m.rowBytes width (i * width)) =
      m.cells.toList.take (k * width) := by
  induction k with
  | zero => simp
  | succ k ih =>
    rw [List.range_succ, List.flatMap_append, ih, List.flatMap_singleton, Nat.succ_mul, List.take_add,
      rowBytes]

theorem length_rowBytes (hm : m.cells.size = memorySize) (width address : ℕ) :
    (m.rowBytes width address).length = min width (memorySize - address) := by
  rw [rowBytes, List.length_take, List.length_drop, Array.length_toList, hm]

section Rows
variable (hwidth : 0 < width)
include hwidth

theorem mul_lt_iff {i : ℕ} : i * width < memorySize ↔ i < memorySize ⌈/⌉ width := by
  rw [← Nat.not_le, ← Nat.not_le, ceilDiv_le_iff_le_mul hwidth, Nat.mul_comm]

theorem dump_eq (m : Memory) : m.dump width = .ok ("\n".intercalate (m.dumpRows width)) := by
  rw [dump, if_neg (by omega), if_neg (by omega), Int.toNat_natCast]

theorem lines_dumpRows (m : Memory) :
    lines ("\n".intercalate (m.dumpRows width)) = (m.dumpRows width).map String.toList := by
  refine lines_intercalate (fun row hrow => ?_) ?_
  · obtain ⟨i, -, rfl⟩ := List.mem_map.mp hrow
    exact m.newline_not_mem_dumpRow width _
  · have hfirst : 0 < memorySize ⌈/⌉ width := (mul_lt_iff hwidth).mp (by rw [Nat.zero_mul]; decide)
    rw [← length_dumpRows m] at hfirst
    exact List.ne_nil_of_length_pos hfirst

theorem readDump_dumpRows (hm : m.cells.size = memorySize) :
    readDump ("\n".intercalate (m.dumpRows width)) = m.cells.toList := by
  have hrow : ∀ i ∈ List.range (memorySize ⌈/⌉ width),
      readRow (m.dumpRow width (i * width)).toList = m.rowBytes width (i * width) := by
    intro i hi
    have hinside := (mul_lt_iff hwidth).mpr (List.mem_range.mp hi)
    refine readRow_dumpRow hinside (List.ne_nil_of_length_pos ?_)
    rw [length_rowBytes hm]
    omega
  have hall : memorySize ≤ (memorySize ⌈/⌉ width) * width := by
    have hle := le_smul_ceilDiv (b := memorySize) hwidth
    rwa [smul_eq_mul, Nat.mul_comm] at hle
  calc readDump ("\n".intercalate (m.dumpRows width))
      = (List.range (memorySize ⌈/⌉ width)).flatMap fun i =>
          readRow (m.dumpRow width (i * width)).toList := by
        rw [readDump, lines_dumpRows hwidth, List.flatMap_map, dumpRows, List.flatMap_map,
          Nat.ceilDiv_eq_add_pred_div]
    _ = (List.range (memorySize ⌈/⌉ width)).flatMap fun i => m.rowBytes width (i * width) :=
        List.flatMap_congr hrow
    _ = m.cells.toList.take ((memorySize ⌈/⌉ width) * width) := m.flatMap_rowBytes width _
    _ = m.cells.toList := List.take_of_length_le (by rwa [Array.length_toList, hm])

end Rows

/-- A dump shows memory and can be read back. It has as many lines as rows of a width are needed. Each
line shows its address and the bytes from there on, as many as the width says or as there are up to the
end of memory. What is read from all lines is memory, so memories with the same dump are the same. -/
theorem dump_reads_back (hm : m.cells.size = 4096) (hwidth : 1 ≤ width) :
    (∃ text, m.dump width = .ok text ∧ (lines text).length = 4096 ⌈/⌉ width ∧
      (∀ (i : ℕ) (hi : i < (lines text).length),
        (m.rowBytes width (i * width)).length = min width (4096 - i * width) ∧
        IsRow (i * width) (m.rowBytes width (i * width)) (lines text)[i]) ∧
      readDump text = m.cells.toList) ∧
    ∀ n : Memory, n.cells.size = 4096 → n.dump width = m.dump width → n = m := by
  have hlines := lines_dumpRows hwidth m
  have hlength : (lines ("\n".intercalate (m.dumpRows width))).length = memorySize ⌈/⌉ width := by
    rw [hlines, List.length_map, length_dumpRows]
  refine ⟨⟨_, dump_eq hwidth m, hlength, fun i hi => ⟨length_rowBytes hm _ _, ?_⟩,
    readDump_dumpRows hwidth hm⟩, fun n hn heq => ?_⟩
  · have hinside := (mul_lt_iff hwidth).mpr (hlength ▸ hi)
    rw [List.getElem_of_eq hlines hi, List.getElem_map]
    simp only [dumpRows, List.getElem_map, List.getElem_range]
    exact isRow_dumpRow hinside
  · rw [dump_eq hwidth, dump_eq hwidth, Except.ok.injEq] at heq
    refine ext_cells (Array.toList_inj.mp ?_)
    rw [← readDump_dumpRows hwidth hn, ← readDump_dumpRows hwidth hm, heq]

/-- Rows of a thousand bytes, the last of which is short. -/
theorem dump_reads_back_short_row :
    initial.cells.size = 4096 ∧ 1 ≤ 1000 ∧ ∃ text, initial.dump 1000 = .ok text ∧
      (lines text).length = 5 ∧ (∃ bytes last, bytes.length = 96 ∧ (lines text)[4]? = some last ∧
        IsRow 4000 bytes last) ∧ readDump text = initial.cells.toList := by
  have hwidth : 1 ≤ 1000 := by decide
  obtain ⟨⟨text, hdump, hlength, hrows, hread⟩, -⟩ := dump_reads_back size_initial hwidth
  have hlast : 4 < (lines text).length := by rw [hlength]; decide
  obtain ⟨hbytes, hrow⟩ := hrows 4 hlast
  exact ⟨size_initial, hwidth, text, hdump, hlength,
    ⟨_, _, hbytes, List.getElem?_eq_getElem hlast, hrow⟩,
    hread⟩

end ChipEight.Memory
