import ChipEight.Proofs.KeyStates
import ChipEight.Proofs.PressedKeys

/-!
# Keys from a list of presses

A list of pressed numbers is refused, or it tells which keys are down. Whatever is asked of the keys
then, the list of those that are down has the answer: whether a number is among them, whether there
are any, which one is the lowest. A press may count keys from the end, but a question may not, so it
finds no key for a negative number.
-/
namespace ChipEight.Keys
variable {s : Keys} {exit : Bool} {pressed others : List Int} {n : ℕ} {q : Int}

@[simp] theorem mem_active : n ∈ s.active ↔ s.isDown n = true := by
  rw [active, List.mem_filter, List.mem_range, and_iff_right_iff_imp]
  intro hdown
  exact (isDown_iff.mp hdown).1

/-- The keys that are down are listed in ascending order, each of them once. -/
theorem pairwise_active (s : Keys) : s.active.Pairwise (· < ·) := List.pairwise_lt_range.filter _

theorem isDown_eq_false (h : q < 0 ∨ 15 < q) : s.isDown q = false := by
  rw [isDown, dif_neg (by omega)]

theorem isDown_iff_mem_active : s.isDown q = true ↔ ∃ n ∈ s.active, q = (n : ℕ) := by
  constructor
  · intro hdown
    have hq : 0 ≤ q := by
      by_contra hneg
      rw [isDown_eq_false (.inl (Int.not_le.mp hneg))] at hdown
      cases hdown
    obtain ⟨n, rfl⟩ := Int.eq_ofNat_of_zero_le hq
    exact ⟨n, mem_active.mpr hdown, rfl⟩
  · rintro ⟨n, hn, rfl⟩
    exact mem_active.mp hn

theorem untouched_iff_active : s.untouched = true ↔ s.active = [] := by
  simp only [untouched_iff, List.eq_nil_iff_forall_not_mem, mem_active]

theorem first?_eq_min? (s : Keys) : s.first? = s.active.min? := by
  refine (List.min?_eq_head? (s.pairwise_active.imp fun hlt => ?_)).symm
  exact Nat.min_eq_left (Nat.le_of_lt hlt)

/-- A list of pressed numbers is refused for a number that is not that of a key. -/
theorem exists_ofPressed_eq_error_iff :
    (∃ f, ofPressed pressed exit = .error f) ↔ ∃ p ∈ pressed, ¬ IsNumber p := by
  cases h : ofPressed pressed exit with
  | ok s =>
    obtain ⟨hnumbers, -⟩ := ofPressed_eq_ok_iff.mp h
    refine iff_of_false nofun ?_
    rintro ⟨p, hp, hout⟩
    exact hout (hnumbers p hp)
  | error f =>
    refine iff_of_true ⟨f, rfl⟩ ?_
    by_contra hnone
    have hnumbers : ∀ p ∈ pressed, IsNumber p := by simpa using hnone
    rw [ofPressed_eq_ok_iff.mpr ⟨hnumbers, rfl⟩] at h
    cases h

theorem mem_active_of_ofPressed (h : ofPressed pressed exit = .ok s) :
    n ∈ s.active ↔ ∃ p ∈ pressed, p % 16 = n := by
  obtain ⟨-, rfl⟩ := ofPressed_eq_ok_iff.mp h
  simp only [mem_active, isDown_iff, andNumbered, released, Vector.getElem_mapIdx,
    Vector.getElem_replicate, Bool.false_or, List.any_eq_true, decide_eq_true_eq]
  constructor
  · rintro ⟨-, hp⟩
    exact hp
  · rintro ⟨p, hp, hn⟩
    exact ⟨by omega, p, hp, hn⟩

theorem exit_of_ofPressed (h : ofPressed pressed exit = .ok s) : s.exit = exit := by
  obtain ⟨-, rfl⟩ := ofPressed_eq_ok_iff.mp h
  rfl

/-- Neither the order of the pressed numbers matters nor how often one of them is listed. -/
theorem ofPressed_of_same_members (hsame : ∀ p, p ∈ others ↔ p ∈ pressed)
    (h : ofPressed pressed exit = .ok s) : ofPressed others exit = .ok s := by
  obtain ⟨hnumbers, rfl⟩ := ofPressed_eq_ok_iff.mp h
  refine ofPressed_eq_ok_iff.mpr ⟨fun p hp => hnumbers p ((hsame p).mp hp), ?_⟩
  have hany (k : ℕ) : (others.any fun p => p % 16 = k) = pressed.any fun p => p % 16 = k := by
    rw [Bool.eq_iff_iff]
    simp only [List.any_eq_true, hsame]
  simp only [andNumbered, hany]

/-- All views of the keys agree. A list of pressed numbers is refused if and only if one of them is not
the number of a key, counted from either end. Otherwise the keys that are down are listed in ascending
order, and they are those of the pressed numbers modulo sixteen, in whatever order and however often
these were listed. A question about any integer is answered by that list, so that nothing outside the
keys is down; no key is touched if the list is empty; and the lowest key is its least one, if any. -/
theorem views_agree (pressed : List Int) (exit : Bool) :
    ((∃ f, ofPressed pressed exit = .error f) ↔ ∃ p ∈ pressed, p < -16 ∨ 15 < p) ∧
    ∀ s, ofPressed pressed exit = .ok s →
      s.active.Pairwise (· < ·) ∧
      (∀ n : ℕ, n ∈ s.active ↔ ∃ p ∈ pressed, p % 16 = n) ∧
      (∀ others, (∀ p, p ∈ others ↔ p ∈ pressed) → ofPressed others exit = .ok s) ∧
      (∀ q : Int, s.isDown q = true ↔ ∃ n ∈ s.active, q = (n : ℕ)) ∧
      (∀ q : Int, q < 0 ∨ 15 < q → s.isDown q = false) ∧
      (s.untouched = true ↔ s.active = []) ∧
      s.first? = s.active.min? ∧ (s.first? = none ↔ s.untouched = true) ∧
      s.exit = exit := by
  refine ⟨?_, fun s h => ?_⟩
  · simp only [exists_ofPressed_eq_error_iff, not_isNumber_iff]
  · exact ⟨s.pairwise_active, fun n => mem_active_of_ofPressed h,
      fun others hsame => ofPressed_of_same_members hsame h, fun q => isDown_iff_mem_active,
      fun q hq => isDown_eq_false hq, untouched_iff_active, s.first?_eq_min?,
      first?_eq_none_iff, exit_of_ofPressed h⟩

theorem views_agree_from_either_end :
    ∃ s, ofPressed [-1, 3, 15, -13] true = .ok s ∧ ofPressed [15, -13, 3, -1, 3] true = .ok s ∧
      15 ∈ s.active ∧ s.isDown 15 = true ∧ s.isDown (-1) = false ∧ s.first? = s.active.min? ∧
      s.exit = true := by
  obtain ⟨hrefused, hviews⟩ := views_agree [-1, 3, 15, -13] true
  cases h : ofPressed [-1, 3, 15, -13] true with
  | error f =>
    have hnumbers : ¬ ∃ p ∈ [-1, 3, 15, -13], p < (-16 : Int) ∨ 15 < p := by decide
    exact absurd (hrefused.mp ⟨f, h⟩) hnumbers
  | ok s =>
    obtain ⟨-, hmem, horder, hquery, houtside, -, hfirst, -, hexit⟩ := hviews s h
    have hlast : 15 ∈ s.active := (hmem 15).mpr ⟨-1, by decide, by decide⟩
    have hsame (p : Int) : p ∈ [15, -13, 3, -1, 3] ↔ p ∈ [-1, 3, 15, -13] := by
      simp only [List.mem_cons, List.not_mem_nil, or_false]
      omega
    exact ⟨s, rfl, horder _ hsame, hlast, (hquery 15).mpr ⟨15, hlast, rfl⟩,
      houtside (-1) (.inl (by decide)), hfirst, hexit⟩

end ChipEight.Keys
