import ChipEight.CallStack
import Mathlib.Data.List.Basic

/-!
# The contents of the call stack

Adding an address puts it at the end of the addresses in use and removing one takes it from there,
whatever stale addresses the slots above hold. Adding fails exactly on a full stack, removing on an
empty one, and neither has then changed anything.
-/
namespace ChipEight.CallStack
variable {s t : CallStack} {a : Int}

@[simp] theorem length_toList (s : CallStack) : s.toList.length = s.depth := by
  have h := s.depth_le
  simp [toList, Nat.min_eq_left h]

theorem exists_of_push (h : s.push a = (t, .ok ())) :
    ∃ hd : s.depth < stackCapacity, t = ⟨s.slots.set s.depth a, s.depth + 1, hd⟩ := by
  rw [push] at h
  split at h
  case isTrue hd => exact ⟨hd, (Prod.mk.inj h).1.symm⟩
  case isFalse => cases (Prod.mk.inj h).2

theorem exists_of_pop (h : s.pop = (t, .ok a)) :
    ∃ hd : s.depth - 1 < stackCapacity, 0 < s.depth ∧ a = s.slots[s.depth - 1] ∧
      t = ⟨s.slots, s.depth - 1, Nat.le_of_lt hd⟩ := by
  rw [pop] at h
  split at h
  case isTrue hd =>
    have hle := s.depth_le
    obtain ⟨rfl, haddress⟩ := Prod.mk.inj h
    exact ⟨by omega, hd, (Except.ok.inj haddress).symm, rfl⟩
  case isFalse => cases (Prod.mk.inj h).2

theorem toList_of_push (h : s.push a = (t, .ok ())) : t.toList = s.toList ++ [a] := by
  obtain ⟨hd, rfl⟩ := exists_of_push h
  have hlen : s.depth < (s.slots.toList.set s.depth a).length := by simpa using hd
  rw [toList, Vector.toList_set, List.take_succ_eq_append_getElem hlen, List.getElem_set_self,
    List.take_set_of_le (Nat.le_refl _), toList]

theorem toList_of_pop (h : s.pop = (t, .ok a)) : s.toList = t.toList ++ [a] := by
  obtain ⟨hd, hpos, rfl, rfl⟩ := exists_of_pop h
  have hlen : s.depth - 1 < s.slots.toList.length := by simpa using hd
  have htake := List.take_succ_eq_append_getElem hlen
  rw [Nat.sub_add_cancel hpos, Vector.getElem_toList] at htake
  exact htake

theorem mem_slots_of_push (h : s.push a = (t, .ok ())) {v : Int} (hv : v ∈ t.slots) :
    v ∈ s.slots ∨ v = a := by
  obtain ⟨hd, rfl⟩ := exists_of_push h
  have hset : v ∈ s.slots.set s.depth a hd := hv
  exact Vector.mem_or_eq_of_mem_set hset

theorem slots_of_pop (h : s.pop = (t, .ok a)) : t.slots = s.slots ∧ a ∈ s.slots := by
  obtain ⟨hd, -, rfl, rfl⟩ := exists_of_pop h
  exact ⟨rfl, Vector.getElem_mem _⟩

/-- Adding fails on a full stack only, and then leaves it as it is. -/
theorem push_eq_error_iff {f : Fault} : s.push a = (t, .error f) ↔
    s.depth = stackCapacity ∧ t = s ∧ f = .stackOverflow := by
  have h := s.depth_le
  rw [push]
  split
  case isTrue hd =>
    refine iff_of_false (fun heq => ?_) (by omega)
    cases (Prod.mk.inj heq).2
  case isFalse hd =>
    rw [Prod.mk.injEq, Except.error.injEq]
    exact ⟨fun ⟨hs, hf⟩ => ⟨by omega, hs.symm, hf.symm⟩, fun ⟨_, hs, hf⟩ => ⟨hs.symm, hf.symm⟩⟩

/-- Removing fails on an empty stack only, and then leaves it as it is. -/
theorem pop_eq_error_iff {f : Fault} : s.pop = (t, .error f) ↔
    s.depth = 0 ∧ t = s ∧ f = .stackUnderflow := by
  rw [pop]
  split
  case isTrue hd =>
    refine iff_of_false (fun heq => ?_) (by omega)
    cases (Prod.mk.inj heq).2
  case isFalse hd =>
    rw [Prod.mk.injEq, Except.error.injEq]
    exact ⟨fun ⟨hs, hf⟩ => ⟨by omega, hs.symm, hf.symm⟩, fun ⟨_, hs, hf⟩ => ⟨hs.symm, hf.symm⟩⟩

end ChipEight.CallStack
