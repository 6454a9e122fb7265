import ChipEight.Text.Numeral
import Mathlib.Data.Nat.Notation
import Mathlib.Tactic.IntervalCases

/-!
# Reading numerals

A hexadecimal numeral of some width has exactly that many digits if the number fits, and the number can
be read back from the digits, zeros in front or not. All digits are letters or decimal digits.
-/
namespace ChipEight.Text

def hexValue (c : Char) : ℕ := if c.isDigit then c.toNat - '0'.toNat else c.toNat - 'a'.toNat + 10

def hexDigits : List Char :=
  ['0', '1', '2', '3', '4', '5', '6', '7', '8', '9', 'a', 'b', 'c', 'd', 'e', 'f']

def ofHex (digits : List Char) : ℕ := digits.foldl (fun n c => 16 * n + hexValue c) 0

theorem hexValue_digitChar {d : ℕ} (h : d < 16) : hexValue d.digitChar = d := by
  interval_cases d <;> rfl

theorem digitChar_mem_hexDigits {d : ℕ} (h : d < 16) : d.digitChar ∈ hexDigits := by
  interval_cases d <;> decide

theorem ofHex_append_singleton (digits : List Char) (c : Char) :
    ofHex (digits ++ [c]) = 16 * ofHex digits + hexValue c := by
  simp [ofHex]

theorem ofHex_toDigits (n : ℕ) : ofHex (Nat.toDigits 16 n) = n := by
  induction n using Nat.strongRecOn with
  | _ n ih =>
    rw [Nat.toDigits_eq_if (by decide)]
    split
    case isTrue h => simp [ofHex, hexValue_digitChar h]
    case isFalse h =>
      rw [ofHex_append_singleton, ih (n / 16) (by omega), hexValue_digitChar (by omega)]
      omega

theorem mem_hexDigits_of_mem_toDigits {n : ℕ} {c : Char} (h : c ∈ Nat.toDigits 16 n) :
    c ∈ hexDigits := by
  induction n using Nat.strongRecOn with
  | _ n ih =>
    rw [Nat.toDigits_eq_if (by decide)] at h
    split at h
    case isTrue hn =>
      obtain rfl := List.mem_singleton.mp h
      exact digitChar_mem_hexDigits hn
    case isFalse hn =>
      rcases List.mem_append.mp h with h | h
      · exact ih (n / 16) (by omega) h
      · obtain rfl := List.mem_singleton.mp h
        exact digitChar_mem_hexDigits (by omega)

theorem ofHex_zeroPadded (width : ℕ) (digits : List Char) :
    ofHex (zeroPadded width digits) = ofHex digits := by
  have hzeros (k : ℕ) : ofHex (List.replicate k '0') = 0 := by
    induction k with
    | zero => rfl
    | succ k ih => rw [List.replicate_succ', ofHex_append_singleton, ih]; rfl
  rw [zeroPadded, ofHex, List.foldl_append]
  exact congrArg (digits.foldl _) (hzeros _)

variable {width n : ℕ}

theorem toList_hex (width n : ℕ) :
    (hex width n).toList = zeroPadded width (Nat.toDigits 16 n) := by
  rw [hex, if_neg (by omega), String.toList_ofList, Int.natAbs_natCast]

theorem ofHex_hex (width n : ℕ) : ofHex (hex width n).toList = n := by
  rw [toList_hex, ofHex_zeroPadded, ofHex_toDigits]

theorem length_hex (h : n < 16 ^ width) (hwidth : 0 < width) :
    (hex width n).toList.length = width := by
  have hdigits := (Nat.length_toDigits_le_iff (by decide) hwidth).mpr h
  rw [toList_hex, zeroPadded, List.length_append, List.length_replicate]
  omega

theorem mem_hexDigits_of_mem_hex {c : Char} (h : c ∈ (hex width n).toList) : c ∈ hexDigits := by
  rw [toList_hex, zeroPadded, List.mem_append, List.mem_replicate] at h
  rcases h with ⟨-, rfl⟩ | h
  · decide
  · exact mem_hexDigits_of_mem_toDigits h

theorem not_mem_hex {c : Char} (h : c ∉ hexDigits) : c ∉ (hex width n).toList :=
  fun hc => h (mem_hexDigits_of_mem_hex hc)

theorem newline_not_mem_hex : '\n' ∉ (hex width n).toList := not_mem_hex (by decide)

theorem isAlphanum_of_mem_hex {c : Char} (h : c ∈ (hex width n).toList) : c.isAlphanum = true := by
  have hdigits : hexDigits.all Char.isAlphanum = true := by decide
  exact List.all_eq_true.mp hdigits c (mem_hexDigits_of_mem_hex h)

theorem isDigit_of_mem_repr {c : Char} (h : c ∈ n.repr.toList) : c.isDigit = true := by
  rw [Nat.toList_repr] at h
  exact Nat.isDigit_of_mem_toDigits (by decide) (by decide) h

theorem toString_ne_nil (n : ℕ) : (toString n).toList ≠ [] :=
  fun h => Nat.repr_ne_empty (String.toList_eq_nil_iff.mp h)

theorem not_mem_toString {c : Char} (h : c.isDigit = false) : c ∉ (toString n).toList :=
  fun hc => Bool.false_ne_true (h.symm.trans (isDigit_of_mem_repr hc))

theorem ofDigitChars_toString (n : ℕ) : Nat.ofDigitChars 10 (toString n).toList 0 = n := by
  rw [Nat.toString_eq_repr, Nat.toList_repr, Nat.ofDigitChars_ten_toDigits]

theorem toString_inj {m : ℕ} : toString m = toString n ↔ m = n := by
  constructor
  case mp => intro h; rw [← ofDigitChars_toString m, h, ofDigitChars_toString]
  case mpr => exact congrArg toString

theorem hex_inj {a b : Int} (ha : 0 ≤ a) (hb : 0 ≤ b) (h : hex width a = hex width b) : a = b := by
  obtain ⟨m, rfl⟩ := Int.eq_ofNat_of_zero_le ha
  obtain ⟨n, rfl⟩ := Int.eq_ofNat_of_zero_le hb
  rw [← ofHex_hex width m, h, ofHex_hex]

theorem truth_inj : ∀ {a b : Bool}, truth a = truth b → a = b := by decide

/-- Hexadecimal digits, as many as they have to be, that write a number. -/
structure IsNumeral (width n : ℕ) (digits : List Char) : Prop where
  length_eq : digits.length = width
  mem_hexDigits : ∀ c ∈ digits, c ∈ hexDigits
  ofHex_eq : ofHex digits = n

theorem isNumeral_hex (h : n < 16 ^ width) (hwidth : 0 < width) :
    IsNumeral width n (hex width n).toList :=
  ⟨length_hex h hwidth, fun _ => mem_hexDigits_of_mem_hex, ofHex_hex width n⟩

end ChipEight.Text
