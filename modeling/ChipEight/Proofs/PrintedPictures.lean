import ChipEight.Host.Session
import ChipEight.Proofs.DisplayShape
import ChipEight.Proofs.SeparatedTexts

/-!
# Printed pictures

A display is printed line by line and pixel by pixel, each pixel as one of two pieces of text. If the
pieces are different, equally long and hold no line break, every pixel can be read off its place in the
picture, so no two displays of one resolution are printed alike.
-/
namespace ChipEight
open Text

namespace Pens
variable {p : Pens} {k : ℕ}

/-- Pens whose pictures can be read: they write different pieces of `k` characters without line breaks. -/
structure Legible (p : Pens) (k : ℕ) : Prop where
  lit_ne_dark : p.lit ≠ p.dark
  length_lit : p.lit.length = k
  length_dark : p.dark.length = k
  newline_not_mem_lit : '\n' ∉ p.lit.toList
  newline_not_mem_dark : '\n' ∉ p.dark.toList

def piece (p : Pens) (b : Bool) : List Char := (if b then p.lit else p.dark).toList

theorem toList_line (p : Pens) (row : List Bool) : (p.line row).toList = row.flatMap p.piece := by
  rw [line, String.toList_join, List.flatMap_map]
  rfl

namespace Legible
variable (h : p.Legible k) {row row' : List Bool} {d e : Display}
include h

theorem length_piece (b : Bool) : (p.piece b).length = k := by
  cases b
  · exact h.length_dark
  · exact h.length_lit

theorem newline_not_mem_piece (b : Bool) : '\n' ∉ p.piece b := by
  cases b
  · exact h.newline_not_mem_dark
  · exact h.newline_not_mem_lit

theorem piece_injective : Function.Injective p.piece := by
  have hne : p.piece true ≠ p.piece false := fun heq => h.lit_ne_dark (String.toList_inj.mp heq)
  intro a b hab
  cases a <;> cases b
  · rfl
  · exact absurd hab.symm hne
  · exact absurd hab hne
  · rfl

theorem length_line (row : List Bool) : (p.line row).toList.length = row.length * k := by
  rw [toList_line]
  induction row with
  | nil => simp
  | cons b row ih =>
    rw [List.flatMap_cons, List.length_append, ih, h.length_piece, List.length_cons, Nat.succ_mul,
      Nat.add_comm]

theorem piece_of_line {x : ℕ} (hx : x < row.length) :
    ((p.line row).toList.drop (x * k)).take k = p.piece row[x] := by
  rw [toList_line]
  induction row generalizing x with
  | nil => cases hx
  | cons b row ih =>
    rw [List.flatMap_cons]
    cases x with
    | zero => simpa using List.take_left' (h.length_piece b)
    | succ x =>
      rw [Nat.succ_mul, Nat.add_comm, ← List.drop_drop, List.drop_left' (h.length_piece b)]
      exact ih (Nat.lt_of_succ_lt_succ hx)

theorem line_inj (hlength : row.length = row'.length) (heq : p.line row = p.line row') :
    row = row' := by
  refine List.ext_getElem hlength fun x hx hx' => h.piece_injective ?_
  rw [← h.piece_of_line hx, ← h.piece_of_line hx', heq]

theorem newline_not_mem_line (row : List Bool) : '\n' ∉ (p.line row).toList := by
  rw [toList_line, List.mem_flatMap]
  rintro ⟨b, -, hb⟩
  exact h.newline_not_mem_piece b hb

/-- The lines of a picture are the rows of the display, and after them nothing. -/
theorem lines_picture (d : Display) :
    lines (p.picture d) = d.rows.map (fun row => (p.line row).toList) ++ [[]] := by
  have hrows : d.rows.map p.line ≠ [] := by
    have hheight := d.resolution.height_pos
    rw [← d.length_rows] at hheight
    simpa using List.ne_nil_of_length_pos hheight
  have hpicture : p.picture d = "\n".intercalate (d.rows.map p.line ++ [""]) := by
    rw [String.intercalate_append_of_ne_nil hrows (List.cons_ne_nil _ _),
      String.intercalate_singleton, String.append_empty, picture]
  have hlines : ∀ l ∈ d.rows.map p.line ++ [""], '\n' ∉ l.toList := by
    intro l hl
    rcases List.mem_append.mp hl with hl | hl
    · obtain ⟨row, -, rfl⟩ := List.mem_map.mp hl
      exact h.newline_not_mem_line row
    · obtain rfl := List.mem_singleton.mp hl
      exact List.not_mem_nil
  rw [hpicture, lines_intercalate hlines (by simp), List.map_append, List.map_map]
  rfl

theorem picture_inj (hresolution : d.resolution = e.resolution) (heq : p.picture d = p.picture e) :
    d = e := by
  have hlines := congrArg lines heq
  rw [h.lines_picture, h.lines_picture, List.append_cancel_right_eq] at hlines
  have hlength : d.rows.length = e.rows.length := by rw [d.length_rows, e.length_rows, hresolution]
  refine Display.ext_rows hresolution (List.ext_getElem hlength fun y hy hy' => ?_)
  have hline := List.getElem_of_eq hlines (by simpa using hy)
  rw [List.getElem_map, List.getElem_map] at hline
  refine h.line_inj ?_ (String.toList_inj.mp hline)
  rw [Display.length_of_mem_rows (List.getElem_mem hy),
    Display.length_of_mem_rows (List.getElem_mem hy'), hresolution]

end Legible

end Pens

/-- A session in which displays have been shown one after the other, up to the first that ends it. -/
def Session.presentAll {τ ω : Type} (s : Session τ ω) (viewer : Viewer ω) :
    List Display → Session τ ω × Option Ending
  | [] => (s, none)
  | d :: rest => match { s with machine := { s.machine with display := d } }.present viewer with
    | (s, none) => s.presentAll viewer rest
    | (s, some ending) => (s, some ending)

theorem Session.presentAll_text {τ ω : Type} (s : Session τ ω) (p : Pens) (ds : List Display) :
    ∃ t, s.presentAll (.text p) ds = (t, none) ∧
      t.shown = s.shown ++ String.join (ds.map p.picture) := by
  induction ds generalizing s with
  | nil => exact ⟨s, rfl, by simp⟩
  | cons d rest ih =>
    obtain ⟨t, ht, hshown⟩ := ih { s with
      machine := { s.machine with display := d }, shown := s.shown ++ p.picture d }
    refine ⟨t, ht, ?_⟩
    rw [hshown, List.map_cons, String.join_cons, String.append_assoc]

namespace Pens
variable {p : Pens} {k : ℕ}

/-- A picture shows every pixel at its place. It has a line for every row, and after the last line
nothing. A line has `k` characters for every pixel, which are those of the lit or of the dark piece. So
displays of one resolution with the same picture are the same, and displays that are shown one after
the other leave their pictures one after the other. -/
theorem picture_shows_pixels {τ ω : Type} (h : p.Legible k) :
    (∀ d : Display, ∃ ls, lines (p.picture d) = ls ++ [[]] ∧ ls.length = d.height ∧
      ∀ (y : ℕ) (hy : y < ls.length), ls[y].length = d.width * k ∧ ∀ x < d.width,
        (ls[y].drop (x * k)).take k = (if d.lit x y then p.lit else p.dark).toList) ∧
    (∀ d e : Display, d.resolution = e.resolution → p.picture d = p.picture e → d = e) ∧
    ∀ (s : Session τ ω) (ds : List Display), ∃ t, s.presentAll (.text p) ds = (t, none) ∧
      t.shown = s.shown ++ String.join (ds.map p.picture) := by
  refine ⟨fun d => ?_, fun d e => h.picture_inj, fun s => s.presentAll_text p⟩
  refine ⟨_, h.lines_picture d, by rw [List.length_map, d.length_rows, Display.height], ?_⟩
  intro y hy
  rw [List.length_map] at hy
  have hwidth : d.rows[y].length = d.width := Display.length_of_mem_rows (List.getElem_mem hy)
  rw [List.getElem_map]
  refine ⟨by rw [h.length_line, hwidth], fun x hx => ?_⟩
  have hx' : x < d.rows[y].length := by rwa [hwidth]
  rw [h.piece_of_line hx', Display.getElem_rows hy hx']
  rfl

/-- Four pixels that lie around the right edge, with two characters for each pixel. -/
theorem picture_shows_pixels_around_edge :
    let p : Pens := ⟨"[]", " ."⟩
    let d := ((Display.blank .low).drawSprite 62 31 [0xf0]).1
    p.Legible 2 ∧ ∃ ls last, lines (p.picture d) = ls ++ [[]] ∧ ls.length = 32 ∧ ls[31]? = some last ∧
      last.length = 128 ∧ last.take 2 = p.lit.toList ∧ (last.drop 4).take 2 = p.dark.toList ∧
      (last.drop 126).take 2 = p.lit.toList := by
  intro p d
  have hp : p.Legible 2 := ⟨by decide, by decide, by decide, by decide, by decide⟩
  have hlit : d.lit 0 31 = true ∧ d.lit 2 31 = false ∧ d.lit 63 31 = true := by decide +kernel
  obtain ⟨ls, hlines, hlength, hpixels⟩ := (picture_shows_pixels (τ := Unit) (ω := Unit) hp).1 d
  have hlast : 31 < ls.length := by rw [hlength]; decide
  obtain ⟨hlong, hcells⟩ := hpixels 31 hlast
  have hfirst := hcells 0 (by decide)
  have hthird := hcells 2 (by decide)
  have hend := hcells 63 (by decide)
  rw [show d.lit (0 : ℕ) (31 : ℕ) = true from hlit.1] at hfirst
  rw [show d.lit (2 : ℕ) (31 : ℕ) = false from hlit.2.1] at hthird
  rw [show d.lit (63 : ℕ) (31 : ℕ) = true from hlit.2.2] at hend
  exact ⟨hp, ls, ls[31], hlines, hlength, List.getElem?_eq_getElem hlast, hlong, hfirst, hthird, hend⟩

end Pens

end ChipEight
