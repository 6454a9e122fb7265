import ChipEight.Bitwise
import ChipEight.Machine.Basic
import Mathlib.Tactic.Common

/-!
# Registers that hold bytes

Registers are integers, and a value is a byte if it lies between 0 and 255. Setting registers to
bytes keeps all of them bytes, and the operations on the bits of bytes give bytes.
-/
namespace ChipEight

theorem Byte.toNat_ofInt (v : Int) : ((Byte.ofInt v).toNat : Int) = v % 256 := by
  rw [Byte.ofInt, BitVec.toNat_ofInt]
  omega

/-- An integer that one byte can hold. -/
def IsByte (v : Int) : Prop := 0 ≤ v ∧ v ≤ 0xff

namespace IsByte
variable {a b : Int}

theorem emod (v : Int) : IsByte (v % 256) := by
  rw [IsByte]
  omega

theorem toNat (b : Byte) : IsByte b.toNat := by
  have := b.isLt
  rw [IsByte]
  omega

theorem toNat_ofInt (h : IsByte a) : ((Byte.ofInt a).toNat : Int) = a := by
  rw [Byte.toNat_ofInt]
  rw [IsByte] at h
  omega

/-- A byte is a natural number of eight bits. -/
theorem exists_nat (h : IsByte a) : ∃ n : ℕ, n < 256 ∧ a = n := by
  obtain ⟨h0, h1⟩ := h
  exact ⟨a.toNat, by omega, by omega⟩

theorem of_lt {n : ℕ} (h : n < 256) : IsByte n := by
  rw [IsByte]
  omega

theorem or (ha : IsByte a) (hb : IsByte b) : IsByte (Bitwise.or a b) := by
  obtain ⟨m, hm, rfl⟩ := ha.exists_nat
  obtain ⟨n, hn, rfl⟩ := hb.exists_nat
  exact of_lt (Nat.or_lt_two_pow (n := 8) hm hn)

theorem and (ha : IsByte a) (hb : IsByte b) : IsByte (Bitwise.and a b) := by
  obtain ⟨m, hm, rfl⟩ := ha.exists_nat
  obtain ⟨n, hn, rfl⟩ := hb.exists_nat
  exact of_lt (Nat.and_lt_two_pow (n := 8) m hn)

theorem xor (ha : IsByte a) (hb : IsByte b) : IsByte (Bitwise.xor a b) := by
  obtain ⟨m, hm, rfl⟩ := ha.exists_nat
  obtain ⟨n, hn, rfl⟩ := hb.exists_nat
  exact of_lt (Nat.xor_lt_two_pow (n := 8) hm hn)

theorem ite (c : Bool) : IsByte (if c then 1 else 0) := by
  cases c <;> exact ⟨by decide, by decide⟩

end IsByte

namespace Registers

theorem get_zeros (x : Register) : zeros.get x = 0 := by
  simp [get, zeros]

theorem get_set (r : Registers) (x y : Register) (v : Int) :
    (r.set x v).get y = if x = y then v else r.get y := by
  have hxy : x.toFin.val = y.toFin.val ↔ x = y := BitVec.toNat_inj
  simp only [get, set, Fin.getElem_fin, Vector.getElem_set, hxy]

theorem getElem?_toArray (r : Registers) (y : Register) :
    r.values.toArray[y.toNat]? = some (r.get y) :=
  Array.getElem?_eq_getElem _

/-- The values stand in the first registers, and the registers behind them keep theirs. -/
theorem get_setUpTo (r : Registers) (x y : Register) (values : List Int)
    (h : values.length = x.toNat + 1) :
    (r.setUpTo x values h).get y = values[y.toNat]?.getD (r.get y) := by
  have hy : y.toNat < 16 := y.isLt
  refine Option.some.inj ((getElem?_toArray _ y).symm.trans ?_)
  change (values.toArray ++ r.values.toArray.extract (x.toNat + 1) 16)[y.toNat]? = _
  rw [Array.getElem?_append, List.size_toArray]
  split
  case isTrue hin => simp [hin]
  case isFalse hout =>
    have hplace : x.toNat + 1 + (y.toNat - values.length) = y.toNat := by omega
    rw [List.getElem?_eq_none (Nat.not_lt.mp hout), Option.getD_none, Array.getElem?_extract,
      hplace, getElem?_toArray, Vector.size_toArray]
    exact if_pos (by omega)

@[simp] theorem length_upTo (r : Registers) (x : Register) :
    (r.upTo x).length = x.toNat + 1 := by
  have hx := x.isLt
  simp only [upTo, List.length_take, Vector.length_toList]
  omega

/-- The registers that a list of values has replaced hold that list. -/
theorem upTo_setUpTo (r : Registers) (x : Register) (values : List Int)
    (h : values.length = x.toNat + 1) : (r.setUpTo x values h).upTo x = values := by
  have hlist : (r.setUpTo x values h).values.toList =
      values ++ (r.values.toArray.extract (x.toNat + 1) 16).toList :=
    Array.toList_append
  rw [upTo, hlist, List.take_left' h]

/-- All sixteen registers hold bytes. -/
def Bytes (r : Registers) : Prop := ∀ x, IsByte (r.get x)

variable {r : Registers}

theorem Bytes.of_mem (h : r.Bytes) {v : Int} (hv : v ∈ r.values.toList) : IsByte v := by
  obtain ⟨i, hi, rfl⟩ := Vector.mem_iff_getElem.mp (Vector.mem_toList_iff.mp hv)
  exact h (BitVec.ofFin ⟨i, hi⟩)

theorem Bytes.set (h : r.Bytes) (x : Register) {v : Int} (hv : IsByte v) : (r.set x v).Bytes := by
  intro y
  rw [get_set]
  split
  · exact hv
  · exact h y

theorem Bytes.setUpTo (h : r.Bytes) (x : Register) {values : List Int}
    (hlength : values.length = x.toNat + 1) (hv : ∀ v ∈ values, IsByte v) :
    (r.setUpTo x values hlength).Bytes := by
  intro y
  rw [get_setUpTo]
  cases hy : values[y.toNat]? with
  | some v => exact hv v (List.mem_of_getElem? hy)
  | none => exact h y

theorem bytes_zeros : zeros.Bytes := by
  intro x
  rw [get_zeros]
  exact ⟨by decide, by decide⟩

end Registers

end ChipEight
