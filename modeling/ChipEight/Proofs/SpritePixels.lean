import ChipEight.Proofs.DisplayShape
import Mathlib.Data.Nat.Bits
import Mathlib.Data.Int.ModEq
import Mathlib.Data.List.Count
import Mathlib.Data.List.Nodup

/-!
# The pixels of a sprite

Drawing a sprite toggles one point for every set bit. A point lies on a pixel once its coordinates
have wrapped around the edges, and several points may lie on one pixel. In the end a pixel has changed
if an odd number of points lie on it, and something was erased if a point lies on a lit pixel or two
points lie on the same one.
-/
namespace ChipEight

/-- A pair of coordinates, on the display or beyond its edges. -/
abbrev Point := Int × Int

def Resolution.pixel (r : Resolution) (p : Point) : Point := (p.1 % r.width, p.2 % r.height)

/-- How many points of a list lie on the pixel of a point. -/
def Resolution.hits (r : Resolution) (ps : List Point) (q : Point) : ℕ :=
  (ps.map r.pixel).count (r.pixel q)

theorem Resolution.hits_cons (r : Resolution) (p : Point) (ps : List Point) (q : Point) :
    r.hits (p :: ps) q = r.hits ps q + if r.pixel p = r.pixel q then 1 else 0 := by
  simp only [hits, List.map_cons, List.count_cons, beq_iff_eq]

theorem Resolution.hits_pos_iff {r : Resolution} {ps : List Point} {q : Point} :
    0 < r.hits ps q ↔ ∃ p ∈ ps, r.pixel p = r.pixel q := by
  rw [hits, List.count_pos_iff, List.mem_map]

theorem Resolution.hits_congr {r : Resolution} {ps : List Point} {p q : Point}
    (h : r.pixel p = r.pixel q) : r.hits ps p = r.hits ps q := by
  rw [hits, hits, h]

namespace Display
variable {d : Display} {p q : Point} {ps qs : List Point}

theorem wrapped_eq_iff {size : ℕ} {positive : 0 < size} {a b : Int} :
    (wrapped size positive a).val = (wrapped size positive b).val ↔ a % size = b % size := by
  have ha := Int.emod_nonneg a (show (size : Int) ≠ 0 by omega)
  have hb := Int.emod_nonneg b (show (size : Int) ≠ 0 by omega)
  simp only [wrapped]
  omega

theorem lit_congr (h : d.resolution.pixel p = d.resolution.pixel q) :
    d.lit p.1 p.2 = d.lit q.1 q.2 := by
  obtain ⟨hx, hy⟩ := Prod.mk.inj h
  have hcolumn : d.column p.1 = d.column q.1 := Fin.ext (wrapped_eq_iff.mpr hx)
  have hline : d.line p.2 = d.line q.2 := Fin.ext (wrapped_eq_iff.mpr hy)
  simp only [lit, hcolumn, hline]

theorem ext_lit {d d' : Display} (hr : d.resolution = d'.resolution)
    (h : ∀ x y, d.lit x y = d'.lit x y) : d = d' := by
  obtain ⟨r, pixels⟩ := d
  obtain ⟨r', pixels'⟩ := d'
  obtain rfl : r = r' := hr
  congr
  ext j hj i hi
  have hline : ((j : Int) % r.height).toNat = j := by
    rw [Int.emod_eq_of_lt] <;> omega
  have hcolumn : ((i : Int) % r.width).toNat = i := by
    rw [Int.emod_eq_of_lt] <;> omega
  simpa [lit, line, column, wrapped, hline, hcolumn] using h i j

theorem lit_toggle (d : Display) (p q : Point) :
    (d.toggle p.1 p.2).lit q.1 q.2 =
      if d.resolution.pixel p = d.resolution.pixel q then !d.lit q.1 q.2 else d.lit q.1 q.2 := by
  have hpixel : d.resolution.pixel p = d.resolution.pixel q ↔
      (d.line p.2).val = (d.line q.2).val ∧ (d.column p.1).val = (d.column q.1).val := by
    rw [line, line, column, column, wrapped_eq_iff, wrapped_eq_iff, Resolution.pixel,
      Resolution.pixel, Prod.mk.injEq, and_comm]
  have hget : (d.toggle p.1 p.2).lit q.1 q.2 =
      (d.pixels.set (d.line p.2) (d.pixels[d.line p.2].set (d.column p.1) !d.lit p.1 p.2))[
        d.line q.2][d.column q.1] := rfl
  rw [hget]
  by_cases hline : (d.line p.2).val = (d.line q.2).val
  · by_cases hcolumn : (d.column p.1).val = (d.column q.1).val
    · rw [if_pos (hpixel.mpr ⟨hline, hcolumn⟩), ← lit_congr (hpixel.mpr ⟨hline, hcolumn⟩)]
      simp [hline, hcolumn]
    · rw [if_neg (fun h => hcolumn (hpixel.mp h).2)]
      simp [hline, hcolumn, lit]
  · rw [if_neg (fun h => hline (hpixel.mp h).1)]
    simp [hline, lit]

/-- Toggles points one after the other and tells whether a lit pixel was erased. -/
def toggleAll (d : Display) : List Point → Display × Bool
  | [] => (d, false)
  | p :: rest =>
    let (after, erased) := (d.toggle p.1 p.2).toggleAll rest
    (after, d.lit p.1 p.2 || erased)

@[simp] theorem resolution_toggleAll (d : Display) (ps : List Point) :
    (d.toggleAll ps).1.resolution = d.resolution := by
  induction ps generalizing d with
  | nil => rfl
  | cons p rest ih => exact ih (d.toggle p.1 p.2)

/-- A pixel changes if an odd number of points lie on it. -/
theorem lit_toggleAll (d : Display) (ps : List Point) (q : Point) :
    (d.toggleAll ps).1.lit q.1 q.2 = (d.lit q.1 q.2 ^^ (d.resolution.hits ps q).bodd) := by
  induction ps generalizing d with
  | nil => simp [toggleAll, Resolution.hits]
  | cons p rest ih =>
    have hrest := ih (d.toggle p.1 p.2)
    rw [resolution_toggle, lit_toggle] at hrest
    rw [toggleAll, hrest, Resolution.hits_cons]
    split
    · simp
    · simp

/-- Toggling erases something if a point lies on a lit pixel or two points lie on one pixel. -/
theorem erased_toggleAll (d : Display) (ps : List Point) :
    (d.toggleAll ps).2 = true ↔
      ∃ p ∈ ps, d.lit p.1 p.2 = true ∨ 2 ≤ d.resolution.hits ps p := by
  induction ps generalizing d with
  | nil => simp [toggleAll]
  | cons p rest ih =>
    have hrest := ih (d.toggle p.1 p.2)
    rw [resolution_toggle] at hrest
    rw [toggleAll, Bool.or_eq_true, hrest]
    constructor
    · rintro (hp | ⟨q, hq, hlit | hq2⟩)
      · exact ⟨p, List.mem_cons_self, .inl hp⟩
      · refine ⟨q, List.mem_cons_of_mem _ hq, ?_⟩
        rw [lit_toggle] at hlit
        split at hlit
        case isTrue h =>
          -- the first point and this one lie on one pixel
          have hpos : 0 < d.resolution.hits rest q := Resolution.hits_pos_iff.mpr ⟨q, hq, rfl⟩
          rw [Resolution.hits_cons, if_pos h]
          exact .inr (by omega)
        case isFalse => exact .inl hlit
      · refine ⟨q, List.mem_cons_of_mem _ hq, .inr ?_⟩
        rw [Resolution.hits_cons]
        omega
    · rintro ⟨q, hq, h⟩
      by_cases hpq : d.resolution.pixel p = d.resolution.pixel q
      · rw [Resolution.hits_cons, if_pos hpq, ← lit_congr hpq] at h
        cases hlit : d.lit p.1 p.2 with
        | true => exact .inl rfl
        | false =>
          rw [hlit] at h
          have hpos : 0 < d.resolution.hits rest q := by simp at h; omega
          obtain ⟨q', hq', hq'q⟩ := Resolution.hits_pos_iff.mp hpos
          refine .inr ⟨q', hq', .inl ?_⟩
          rw [lit_toggle, if_pos (hpq.trans hq'q.symm), ← lit_congr (hpq.trans hq'q.symm), hlit]
          rfl
      · rw [Resolution.hits_cons, if_neg hpq] at h
        have hmem : q ∈ rest := by
          rcases List.mem_cons.mp hq with rfl | hmem
          · exact absurd rfl hpq
          · exact hmem
        refine .inr ⟨q, hmem, ?_⟩
        rwa [lit_toggle, if_neg hpq]

/-- Toggling the same points twice brings every pixel back. -/
theorem toggleAll_toggleAll (d : Display) (ps : List Point) :
    ((d.toggleAll ps).1.toggleAll ps).1 = d := by
  refine ext_lit (by simp) fun x y => ?_
  have h := lit_toggleAll (d.toggleAll ps).1 ps (x, y)
  rw [lit_toggleAll d ps (x, y), resolution_toggleAll] at h
  simpa using h

/-- The points of those of some bits that are set in a sprite row. -/
def bitPoints (x y : Int) (row : Byte) (bits : List ℕ) : List Point :=
  (bits.filter fun b => row.getMsbD b).map fun b : ℕ => (x + b, y)

/-- The points of the set bits of a sprite, row by row. -/
def spritePoints (x y : Int) : List Byte → List Point
  | [] => []
  | row :: rest => bitPoints x y row (List.range 8) ++ spritePoints x (y + 1) rest

theorem toggleAll_append (d : Display) (ps qs : List Point) :
    d.toggleAll (ps ++ qs) = (((d.toggleAll ps).1.toggleAll qs).1,
      (d.toggleAll ps).2 || ((d.toggleAll ps).1.toggleAll qs).2) := by
  induction ps generalizing d with
  | nil => simp [toggleAll]
  | cons p rest ih => simp only [List.cons_append, toggleAll, ih, Bool.or_assoc]

/-- Going through the bits of a row, after some of them have been drawn already. -/
theorem foldl_bits (x y : Int) (row : Byte) (bits : List ℕ) (d : Display) (erased : Bool) :
    bits.foldl (fun (d, erased) (b : ℕ) =>
      if row.getMsbD b then (d.toggle (x + b) y, erased || d.lit (x + b) y) else (d, erased))
        (d, erased) =
      ((d.toggleAll (bitPoints x y row bits)).1,
        erased || (d.toggleAll (bitPoints x y row bits)).2) := by
  induction bits generalizing d erased with
  | nil => simp [bitPoints, toggleAll]
  | cons b rest ih =>
    cases hb : row.getMsbD b with
    | true => simp [bitPoints, hb, ih, toggleAll, Bool.or_assoc]
    | false => simp [bitPoints, hb, ih]

/-- Drawing a sprite toggles the points of its set bits. -/
theorem drawSprite_eq (d : Display) (x y : Int) (rows : List Byte) :
    d.drawSprite x y rows = d.toggleAll (spritePoints x y rows) := by
  induction rows generalizing d y with
  | nil => rfl
  | cons row rest ih =>
    rw [drawSprite, drawRow, foldl_bits, spritePoints, toggleAll_append, ← ih, Bool.false_or]

theorem mem_bitPoints {x y : Int} {row : Byte} {bits : List ℕ} :
    p ∈ bitPoints x y row bits ↔ ∃ b ∈ bits, row.getMsbD b ∧ p = (x + b, y) := by
  simp only [bitPoints, List.mem_map, List.mem_filter, and_assoc, eq_comm (a := p)]

/-- The points of a sprite, by the places of their bits. -/
theorem mem_spritePoints {x y : Int} {rows : List Byte} :
    p ∈ spritePoints x y rows ↔ ∃ (r : ℕ) (row : Byte), rows[r]? = some row ∧
      ∃ b < 8, row.getMsbD b ∧ p = (x + (b : ℕ), y + r) := by
  induction rows generalizing y with
  | nil => simp [spritePoints]
  | cons row rest ih =>
    rw [spritePoints, List.mem_append, mem_bitPoints, ih]
    constructor
    · rintro (⟨b, hb, hbit, rfl⟩ | ⟨r, row', hrow', b, hb, hbit, rfl⟩)
      · exact ⟨0, row, rfl, b, List.mem_range.mp hb, hbit, by simp⟩
      · refine ⟨r + 1, row', by simpa using hrow', b, hb, hbit, ?_⟩
        rw [Int.add_assoc, Int.add_comm 1, Int.natCast_succ]
    · rintro ⟨r, row', hrow', b, hb, hbit, rfl⟩
      cases r with
      | zero =>
        obtain rfl : row = row' := by simpa using hrow'
        exact .inl ⟨b, List.mem_range.mpr hb, hbit, by simp⟩
      | succ r =>
        refine .inr ⟨r, row', by simpa using hrow', b, hb, hbit, ?_⟩
        rw [Int.add_assoc, Int.add_comm 1, Int.natCast_succ]

/-- Steps from one number to numbers that are equal modulo a size are equal, if they are shorter
than the size. -/
theorem add_emod_inj {size i j : ℕ} {a : Int} (hi : i < size) (hj : j < size)
    (h : (a + i) % size = (a + j) % size) : i = j := by
  have hij : (i : Int) ≡ j [ZMOD size] := Int.ModEq.add_left_cancel' a h
  exact (Int.natCast_modEq_iff.mp hij).eq_of_lt_of_lt hi hj

/-- A sprite that is no higher than the display has no two points on one pixel. -/
theorem nodup_spritePoints (r : Resolution) (x y : Int) {rows : List Byte}
    (h : rows.length ≤ r.height) : ((spritePoints x y rows).map r.pixel).Nodup := by
  have hwidth : 8 ≤ r.width := by cases r <;> decide
  induction rows generalizing y with
  | nil => exact List.nodup_nil
  | cons row rest ih =>
    rw [List.length_cons] at h
    rw [spritePoints, List.map_append, List.nodup_append]
    refine ⟨?_, ih (y + 1) (by omega), ?_⟩
    · -- two bits of one row lie in different columns
      rw [bitPoints, List.map_map]
      refine List.Nodup.map_on (fun b hb b' hb' heq => ?_) (List.nodup_range.filter _)
      have hb8 := List.mem_range.mp (List.mem_of_mem_filter hb)
      have hb'8 := List.mem_range.mp (List.mem_of_mem_filter hb')
      exact add_emod_inj (by omega) (by omega) (Prod.mk.inj heq).1
    · -- a later row lies in a different line
      intro p hp q hq heq
      obtain ⟨point, hpoint, rfl⟩ := List.mem_map.mp hp
      obtain ⟨point', hpoint', rfl⟩ := List.mem_map.mp hq
      obtain ⟨b, -, -, rfl⟩ := mem_bitPoints.mp hpoint
      obtain ⟨k, row', hrow', b', -, -, rfl⟩ := mem_spritePoints.mp hpoint'
      have hk : k < rest.length := (List.getElem?_eq_some_iff.mp hrow').1
      have hline : (y + (0 : ℕ)) % r.height = (y + (k + 1 : ℕ)) % r.height := by
        rw [Int.natCast_succ, Int.add_comm k, ← Int.add_assoc, Int.natCast_zero, Int.add_zero]
        exact (Prod.mk.inj heq).2
      have hzero : 0 = k + 1 := add_emod_inj (by omega) (by omega) hline
      omega

/-- On every pixel of such a sprite lies exactly one of its points. -/
theorem hits_spritePoints (r : Resolution) (x y : Int) {rows : List Byte}
    (h : rows.length ≤ r.height) (hp : p ∈ spritePoints x y rows) :
    r.hits (spritePoints x y rows) p = 1 := by
  have hpos : 0 < r.hits (spritePoints x y rows) p := Resolution.hits_pos_iff.mpr ⟨p, hp, rfl⟩
  have hle : r.hits (spritePoints x y rows) p ≤ 1 :=
    List.nodup_iff_count_le_one.mp (nodup_spritePoints r x y h) (r.pixel p)
  exact Nat.le_antisymm hle hpos

variable {x y : Int} {rows : List Byte}

theorem lit_drawSprite_ne_iff (h : rows.length ≤ d.resolution.height) (q : Point) :
    (d.drawSprite x y rows).1.lit q.1 q.2 ≠ d.lit q.1 q.2 ↔
      ∃ p ∈ spritePoints x y rows, d.resolution.pixel p = d.resolution.pixel q := by
  rw [drawSprite_eq, lit_toggleAll, ← Resolution.hits_pos_iff]
  constructor
  · intro hne
    refine Nat.pos_of_ne_zero fun hzero => hne ?_
    rw [hzero, Nat.bodd_zero, Bool.xor_false]
  · intro hpos
    obtain ⟨p, hp, hpq⟩ := Resolution.hits_pos_iff.mp hpos
    rw [← Resolution.hits_congr hpq, hits_spritePoints _ x y h hp, Nat.bodd_one, Bool.xor_true]
    exact Bool.not_ne_self _

theorem erased_drawSprite (h : rows.length ≤ d.resolution.height) :
    (d.drawSprite x y rows).2 = true ↔ ∃ p ∈ spritePoints x y rows, d.lit p.1 p.2 = true := by
  rw [drawSprite_eq, erased_toggleAll]
  refine exists_congr fun p => and_congr_right fun hp => ?_
  rw [hits_spritePoints d.resolution x y h hp]
  exact or_iff_left (by decide)

/-- Drawing a sprite a second time brings every pixel back. -/
theorem drawSprite_drawSprite (d : Display) (x y : Int) (rows : List Byte) :
    ((d.drawSprite x y rows).1.drawSprite x y rows).1 = d := by
  rw [drawSprite_eq, drawSprite_eq, toggleAll_toggleAll]

/-- The second time something is erased exactly if a point lies on a pixel that was dark before. -/
theorem erased_drawSprite_drawSprite (h : rows.length ≤ d.resolution.height) :
    ((d.drawSprite x y rows).1.drawSprite x y rows).2 = true ↔
      ∃ p ∈ spritePoints x y rows, d.lit p.1 p.2 = false := by
  rw [drawSprite_eq _ x y rows, drawSprite_eq _ x y rows, erased_toggleAll, resolution_toggleAll]
  refine exists_congr fun p => and_congr_right fun hp => ?_
  have hone := hits_spritePoints d.resolution x y h hp
  rw [lit_toggleAll, hone, Nat.bodd_one, Bool.xor_true, Bool.not_eq_true']
  simp

end Display
end ChipEight
