import ChipEight.Keys
import Mathlib.Data.Nat.Notation
import Mathlib.Tactic.Common

/-!
# Views of the keys

The keys can be asked whether none of them is down and which one is the lowest. The answers agree with
what is said of the single keys.
-/
namespace ChipEight.Keys
variable {s : Keys} {k : ℕ}

theorem isDown_iff : s.isDown k = true ↔ ∃ h : k < 16, s.down[k] = true := by
  rw [isDown]
  split
  case isTrue h => exact ⟨fun hk => ⟨by omega, hk⟩, fun ⟨_, hk⟩ => hk⟩
  case isFalse h => exact ⟨nofun, fun ⟨hk, _⟩ => absurd ⟨by omega, by omega⟩ h⟩

theorem first?_eq_some_iff :
    s.first? = some k ↔ s.isDown k = true ∧ ∀ j : ℕ, s.isDown j = true → k ≤ j := by
  rw [first?, active, List.head?_filter, List.find?_range_eq_some]
  constructor
  · rintro ⟨hk, -, hbelow⟩
    refine ⟨hk, fun j hj => Nat.le_of_not_lt fun hjk => ?_⟩
    simpa [hj] using hbelow j hjk
  · rintro ⟨hk, hlowest⟩
    obtain ⟨h16, -⟩ := isDown_iff.mp hk
    refine ⟨hk, List.mem_range.mpr h16, fun j hjk => ?_⟩
    by_contra hj
    have hkj := hlowest j (by simpa using hj)
    omega

theorem untouched_iff : s.untouched = true ↔ ∀ k : ℕ, ¬ s.isDown k = true := by
  simp only [untouched, Bool.not_eq_true', List.any_eq_false, Vector.mem_toList_iff,
    Vector.mem_iff_getElem, isDown_iff]
  constructor
  · rintro h k ⟨hk, hdown⟩
    exact h _ ⟨k, hk, rfl⟩ hdown
  · rintro h _ ⟨k, hk, rfl⟩ hdown
    exact h k ⟨hk, hdown⟩

theorem first?_eq_none_iff : s.first? = none ↔ s.untouched = true := by
  rw [untouched_iff, first?, active, List.head?_filter, List.find?_range_eq_none]
  constructor
  · intro h k hk
    obtain ⟨h16, -⟩ := isDown_iff.mp hk
    simpa [hk] using h k h16
  · intro h k _
    simpa using h k

end ChipEight.Keys
