import ChipEight.Proofs.Numerals
import ChipEight.Text.Integer

/-!
# Decimal integers

An integer is written as its decimal digits, behind a minus sign if it is below zero. What is written
so is read back, as long as it has no more digits than are read.
-/
namespace ChipEight.Text
variable {c : Char} {ds s : List Char}

theorem toList_toString (n : ℤ) :
    (toString n).toList =
      if n < 0 then '-' :: (toString n.natAbs).toList else (toString n.natAbs).toList := by
  cases n with
  | ofNat n => rfl
  | negSucc n =>
    rw [if_pos (Int.negSucc_lt_zero n)]
    have hsign : (toString (Int.negSucc n)).toList = ("-" ++ toString (n + 1)).toList := rfl
    rw [hsign, String.toList_append]
    rfl

theorem toNat_of_isDigit (h : c.isDigit = true) : 48 ≤ c.toNat ∧ c.toNat < 58 := by
  simp only [Char.isDigit, Bool.and_eq_true, decide_eq_true_eq] at h
  exact ⟨h.1, Nat.lt_succ_of_le h.2⟩

theorem digitValue?_of_isDigit (h : c.isDigit = true) :
    digitValue? c = some (c.toNat - '0'.toNat) := by
  obtain ⟨hlow, hhigh⟩ := toNat_of_isDigit h
  simp [digitValue?, zeroDigits, hlow, hhigh]

theorem isBlank_of_isDigit (h : c.isDigit = true) : isBlank c = false := by
  obtain ⟨hlow, hhigh⟩ := toNat_of_isDigit h
  simp [isBlank, blanks]
  omega

theorem digits?_of_isDigit (hne : ds ≠ []) (h : ∀ c ∈ ds, c.isDigit = true) :
    digits? ds = some (ds.map fun c => c.toNat - '0'.toNat) := by
  fun_induction digits? ds with
  | case1 => exact absurd rfl hne
  | case2 c => simp [digitValue?_of_isDigit (h c List.mem_cons_self)]
  | case3 c rest ih => exact absurd (h '_' (by simp)) (by decide)
  | case4 c rest hrest hunderscore ih =>
    have hd := digitValue?_of_isDigit (h c List.mem_cons_self)
    have hds := ih hrest fun d hd => h d (List.mem_cons_of_mem c hd)
    simp [hd, hds]

theorem ofDigits_map (ds : List Char) :
    ofDigits (ds.map fun c => c.toNat - '0'.toNat) = Nat.ofDigitChars 10 ds 0 := by
  rw [ofDigits, List.foldl_map]
  rfl

theorem natural?_toString {n : ℕ} (h : (Nat.toDigits 10 n).length ≤ maxDigits) :
    natural? (toString n).toList = some n := by
  have hdigits : digits? (Nat.toDigits 10 n) = some _ :=
    digits?_of_isDigit Nat.toDigits_ne_nil fun c hc =>
      Nat.isDigit_of_mem_toDigits (by decide) (by decide) hc
  rw [Nat.toString_eq_repr, Nat.toList_repr, natural?, hdigits, Option.bind_eq_bind, Option.bind_some,
    List.length_map, if_pos h, ofDigits_map, Nat.ofDigitChars_ten_toDigits]
  rfl

theorem trimBlanks_eq_self (h : ∀ c ∈ s, isBlank c = false) : trimBlanks s = s := by
  have hdrop {t : List Char} (ht : ∀ c ∈ t, isBlank c = false) : t.dropWhile isBlank = t := by
    cases t with
    | nil => rfl
    | cons c t => rw [List.dropWhile_cons_of_neg (by simp [ht c List.mem_cons_self])]
  rw [trimBlanks, hdrop h, hdrop fun c hc => h c (List.mem_reverse.mp hc), List.reverse_reverse]

theorem integer?_toString {n : ℤ} (h : (Nat.toDigits 10 n.natAbs).length ≤ maxDigits) :
    integer? (toString n).toList = some n := by
  have hdigit : ∀ c ∈ (toString n.natAbs).toList, c.isDigit = true := fun c hc =>
    isDigit_of_mem_repr hc
  have hblank : ∀ c ∈ (toString n.natAbs).toList, isBlank c = false := fun c hc =>
    isBlank_of_isDigit (hdigit c hc)
  have hnatural := natural?_toString h
  rw [toList_toString]
  split
  case isTrue hneg =>
    have htrim : trimBlanks ('-' :: (toString n.natAbs).toList) = _ :=
      trimBlanks_eq_self (List.forall_mem_cons.mpr ⟨by decide, hblank⟩)
    have habs : -(n.natAbs : ℤ) = n := by omega
    simp only [integer?, htrim, hnatural, Option.bind_eq_bind, Option.bind_some, Option.pure_def,
      Option.map_some, habs]
  case isFalse hneg =>
    rw [integer?, trimBlanks_eq_self hblank]
    split
    case h_1 heq => exact absurd (hdigit '-' (heq ▸ List.mem_cons_self)) (by decide)
    case h_2 heq => exact absurd (hdigit '+' (heq ▸ List.mem_cons_self)) (by decide)
    case h_3 =>
      have habs : Int.ofNat n.natAbs = n := Int.natAbs_of_nonneg (Int.not_lt.mp hneg)
      rw [hnatural, Option.map_some, habs]

end ChipEight.Text
