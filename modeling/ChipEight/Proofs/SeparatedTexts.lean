import Mathlib.Data.Nat.Notation
import Mathlib.Tactic.Common

/-!
# Texts with separators

Pieces of text that hold no separator can be told apart again once they have been put together with
separators between them. Lines are such pieces, apart by line breaks, and so are the items of a list.
-/
namespace ChipEight.Text
variable {c s : Char} {sep : List Char} {vs ws : List (List Char)}

/-- A character between separators belongs to one of them or to a piece. -/
theorem mem_of_mem_intercalate (h : c ∈ sep.intercalate ws) : c ∈ sep ∨ ∃ w ∈ ws, c ∈ w := by
  induction ws with
  | nil => cases h
  | cons w rest ih =>
    by_cases hrest : rest = []
    · rw [hrest, List.intercalate_singleton] at h
      exact .inr ⟨w, List.mem_cons_self, h⟩
    · rw [List.intercalate_cons_of_ne_nil hrest, List.mem_append, List.mem_append] at h
      rcases h with (h | h) | h
      · exact .inr ⟨w, List.mem_cons_self, h⟩
      · exact .inl h
      · exact (ih h).imp_right fun ⟨v, hv, hc⟩ => ⟨v, List.mem_cons_of_mem _ hv, hc⟩

/-- The first separator of a text tells the piece before it from the rest. -/
theorem append_cons_inj {v w x y : List Char} (hv : s ∉ v) (hw : s ∉ w)
    (h : v ++ s :: x = w ++ s :: y) : v = w ∧ x = y := by
  have hpieces := congrArg (List.splitOn s) h
  rw [List.splitOn_append_cons_self_of_not_mem hv,
    List.splitOn_append_cons_self_of_not_mem hw] at hpieces
  obtain rfl := (List.cons.inj hpieces).1
  exact ⟨rfl, (List.cons.inj (List.append_cancel_left h)).2⟩

/-- With one more separator at the end there is one after each piece. -/
theorem intercalate_append (h : ws ≠ []) : sep.intercalate ws ++ sep = ws.flatMap (· ++ sep) := by
  induction ws with
  | nil => exact absurd rfl h
  | cons w rest ih =>
    by_cases hrest : rest = []
    · simp [hrest]
    · rw [List.intercalate_cons_of_ne_nil hrest, List.append_assoc, ih hrest, List.flatMap_cons]

theorem pieces_inj (hv : ∀ v ∈ vs, s ∉ v) (hw : ∀ w ∈ ws, s ∉ w)
    (h : vs.flatMap (· ++ s :: sep) = ws.flatMap (· ++ s :: sep)) : vs = ws := by
  induction vs generalizing ws with
  | nil => cases ws with
    | nil => rfl
    | cons w ws => simp at h
  | cons v vs ih => cases ws with
    | nil => simp at h
    | cons w ws =>
      simp only [List.flatMap_cons, List.append_assoc, List.cons_append] at h
      obtain ⟨rfl, hrest⟩ := append_cons_inj (hv v List.mem_cons_self) (hw w List.mem_cons_self) h
      rw [ih (fun u hu => hv u (List.mem_cons_of_mem _ hu))
        (fun u hu => hw u (List.mem_cons_of_mem _ hu)) (List.append_cancel_left hrest)]

/-- The items of a list, none of them empty, can be told apart. -/
theorem items_inj (hv : ∀ v ∈ vs, v ≠ [] ∧ s ∉ v) (hw : ∀ w ∈ ws, w ≠ [] ∧ s ∉ w)
    (h : (s :: sep).intercalate vs = (s :: sep).intercalate ws) : vs = ws := by
  have hnil {us : List (List Char)} (hu : ∀ u ∈ us, u ≠ [] ∧ s ∉ u) :
      (s :: sep).intercalate us = [] ↔ us = [] := by
    rcases us with - | ⟨- | ⟨c, u⟩, us⟩
    · simp
    · exact absurd rfl (hu [] List.mem_cons_self).1
    · simp
  by_cases hvs : vs = []
  · rw [hvs, List.intercalate_nil, eq_comm, hnil hw] at h
    rw [hvs, h]
  · have hws : ws ≠ [] := fun hws => hvs ((hnil hv).mp (by rw [h, hws, List.intercalate_nil]))
    have hpieces : vs.flatMap (· ++ s :: sep) = ws.flatMap (· ++ s :: sep) := by
      rw [← intercalate_append hvs, ← intercalate_append hws, h]
    exact pieces_inj (fun v hmem => (hv v hmem).2) (fun w hmem => (hw w hmem).2) hpieces

theorem take_drop_append {a b c : List Char} {k l : ℕ} (ha : a.length = k) (hb : b.length = l) :
    ((a ++ (b ++ c)).drop k).take l = b := by
  rw [List.drop_left' ha, List.take_left' hb]

/-! ## Lines -/

/-- The lines of a text, the last of which may be empty. -/
def lines (text : String) : List (List Char) := text.toList.splitOn '\n'

theorem lines_cons {line : String} (h : '\n' ∉ line.toList) (rest : String) :
    lines (line ++ "\n" ++ rest) = line.toList :: lines rest := by
  rw [lines, String.toList_append, String.toList_append, List.append_assoc]
  exact List.splitOn_append_cons_self_of_not_mem h _

theorem lines_join {ls : List String} (h : ∀ l ∈ ls, '\n' ∉ l.toList) :
    lines (String.join (ls.map fun l => l ++ "\n")) = ls.map String.toList ++ [[]] := by
  induction ls with
  | nil => rfl
  | cons l rest ih =>
    rw [List.map_cons, String.join_cons, lines_cons (h l List.mem_cons_self),
      ih fun l hl => h l (List.mem_cons_of_mem _ hl)]
    rfl

theorem lines_intercalate {ls : List String} (h : ∀ l ∈ ls, '\n' ∉ l.toList) (hne : ls ≠ []) :
    lines ("\n".intercalate ls) = ls.map String.toList := by
  rw [lines, String.toList_intercalate]
  refine List.splitOn_intercalate '\n' (fun l hl => ?_) (by simpa using hne)
  obtain ⟨line, hline, rfl⟩ := List.mem_map.mp hl
  exact h line hline

end ChipEight.Text
