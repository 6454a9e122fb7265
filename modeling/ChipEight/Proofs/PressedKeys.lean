import ChipEight.Host.Keyboard
import Mathlib.Data.Nat.Notation
import Mathlib.Tactic.Common

/-!
# Pressed keys

A list of pressed numbers is accepted if each of them is the number of a key, counted from either end.
Then a key is down if one of them is its number modulo sixteen, however often and in whatever place of
the list. A keyboard lists the numbers of the mapped keys that are held.
-/
namespace ChipEight

namespace Keys
variable {s t : Keys} {exit : Bool} {pressed : List Int} {p : Int}

/-- The number of a key, counted from the first one or back from the last one. -/
def IsNumber (p : Int) : Prop := -16 ≤ p ∧ p < 16

theorem not_isNumber_iff : ¬ IsNumber p ↔ p < -16 ∨ 15 < p := by
  rw [IsNumber]
  omega

def andNumbered (s : Keys) (pressed : List Int) : Keys :=
  { s with down := s.down.mapIdx fun k down => down || pressed.any fun p => p % 16 = k }

theorem andNumbered_nil (s : Keys) : s.andNumbered [] = s := by
  have hdown : s.down.mapIdx (fun k down => down || [].any fun p : Int => p % 16 = k) = s.down := by
    apply Vector.ext
    simp
  rw [andNumbered, hdown]

theorem andNumbered_cons (s : Keys) (p : Int) (rest : List Int) :
    s.andNumbered (p :: rest) = (s.andNumbered [p]).andNumbered rest := by
  simp [andNumbered, Function.comp_def, Bool.or_assoc]

theorem press_of_isNumber (s : Keys) (h : IsNumber p) : s.press p = .ok (s.andNumbered [p]) := by
  have hkey : key p = .ok ⟨(p % 16).toNat, by omega⟩ := if_pos h
  have hdown : s.down.set (p % 16).toNat true (by omega) = (s.andNumbered [p]).down := by
    apply Vector.ext
    intro k hk
    have hp : (p % 16).toNat = k ↔ p % 16 = k := by omega
    simp only [andNumbered, Vector.getElem_set, Vector.getElem_mapIdx, hp]
    by_cases hpk : p % 16 = k <;> simp [hpk]
  rw [press, hkey]
  exact congrArg (fun down => Except.ok { s with down }) hdown

theorem exists_press_eq_error (s : Keys) (h : ¬ IsNumber p) : ∃ f, s.press p = .error f := by
  rw [press, key, if_neg (show ¬(-16 ≤ p ∧ p < 16) from h)]
  split
  · exact ⟨_, rfl⟩
  · exact ⟨_, rfl⟩

theorem foldlM_press_eq_ok_iff :
    pressed.foldlM press s = .ok t ↔ (∀ p ∈ pressed, IsNumber p) ∧ t = s.andNumbered pressed := by
  induction pressed generalizing s with
  | nil =>
    rw [andNumbered_nil, List.foldlM_nil]
    exact ⟨fun h => ⟨nofun, (Except.ok.inj h).symm⟩, fun h => congrArg Except.ok h.2.symm⟩
  | cons p rest ih =>
    rw [List.foldlM_cons, List.forall_mem_cons, andNumbered_cons]
    by_cases hp : IsNumber p
    · rw [press_of_isNumber s hp, and_iff_right hp]
      exact ih
    · obtain ⟨f, hf⟩ := s.exists_press_eq_error hp
      rw [hf]
      exact ⟨nofun, fun h => absurd h.1.1 hp⟩

/-- Which lists of pressed numbers are accepted, and which keys are down then. -/
theorem ofPressed_eq_ok_iff : ofPressed pressed exit = .ok s ↔
    (∀ p ∈ pressed, IsNumber p) ∧ s = { released with exit }.andNumbered pressed :=
  foldlM_press_eq_ok_iff

end Keys

namespace Keyboard
variable {s : Keys}

/-- The numbers of the mapped keys that are held. -/
def pressed (k : Keyboard) (held : List String) : List Int :=
  (k.map.filter fun p => held.contains p.1).map Prod.snd

/-- The keys with the numbers of the mapped keys that are held. The user leaves with a quit event or by
holding the exit key. -/
def keys (k : Keyboard) (held : List String) (events : List Event) : Keys where
  down := Vector.ofFn fun i : Fin 16 =>
    k.map.any fun p => held.contains p.1 && p.2 % 16 = i.val
  exit := events.contains .quit || held.contains k.exitKey

/-- What a look at a keyboard finds. It fails if a held key stands for what is not the number of a
key. -/
theorem poll_eq_ok_iff (k : Keyboard) (held : List String) (events : List Event) :
    k.poll held events = .ok s ↔
      (∀ p ∈ k.map, p.1 ∈ held → Keys.IsNumber p.2) ∧ s = k.keys held events := by
  have hnumbers : (∀ n ∈ k.pressed held, Keys.IsNumber n) ↔
      ∀ p ∈ k.map, p.1 ∈ held → Keys.IsNumber p.2 := by
    simp only [pressed, List.forall_mem_map, List.mem_filter, List.contains_iff_mem, and_imp]
  have hdown : (Keys.released.andNumbered (k.pressed held)).down = (k.keys held events).down := by
    apply Vector.ext
    simp [pressed, Keys.andNumbered, keys, Keys.released]
  have hkeys : { Keys.released with exit := (k.keys held events).exit }.andNumbered
      (k.pressed held) = k.keys held events :=
    congrArg (fun down => { k.keys held events with down }) hdown
  rw [poll, ← pressed, Keys.ofPressed_eq_ok_iff, hnumbers, ← hkeys]
  rfl

theorem poll_usual (held : List String) (events : List Event) :
    usual.poll held events = .ok (usual.keys held events) := by
  have hnumbers : ∀ p ∈ usualMap, Keys.IsNumber p.2 := by
    unfold Keys.IsNumber
    decide
  exact (usual.poll_eq_ok_iff held events).mpr ⟨fun p hp _ => hnumbers p hp, rfl⟩

end Keyboard

end ChipEight
