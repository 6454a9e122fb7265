import ChipEight.Bitwise
import ChipEight.Proofs.SpritePixels
import Mathlib.Algebra.BigOperators.Fin
import Mathlib.Algebra.Ring.Parity
import Mathlib.Data.Int.Bitwise
import Mathlib.Data.Nat.Bitwise

/-!
# Counting the bits of a sprite

A sprite may be higher than the display, and then it folds over itself. What drawing it does to a pixel
depends only on how many of its set bits fall there once both coordinates have wrapped around. The
points of a sprite are listed row by row; the number of those on a pixel is the number of places in
the sprite that hold such a bit.
-/
namespace ChipEight

/-- A mask with a single bit lets through that bit of any integer. -/
theorem Bitwise.and_two_pow_ne_zero_iff (v : Int) (k : ℕ) :
    Bitwise.and v (2 ^ k : ℕ) ≠ 0 ↔ v.testBit k = true := by
  cases v with
  | ofNat m =>
    have hand : Bitwise.and (.ofNat m) (2 ^ k : ℕ) = .ofNat (m &&& 2 ^ k) := rfl
    rw [hand, Int.testBit, Nat.and_two_pow]
    cases m.testBit k <;> simp
  | negSucc m =>
    have hand : Bitwise.and (.negSucc m) (2 ^ k : ℕ) = .ofNat (2 ^ k ^^^ (2 ^ k &&& m)) := rfl
    rw [hand, Int.testBit, Nat.two_pow_and]
    cases m.testBit k <;> simp

theorem Byte.getLsbD_ofInt (v : Int) {k : ℕ} (hk : k < 8) :
    (Byte.ofInt v).getLsbD k = v.testBit k := by
  cases v with
  | ofNat m =>
    rw [Byte.ofInt, Int.ofNat_eq_natCast, BitVec.ofInt_natCast, BitVec.getLsbD_ofNat, decide_eq_true hk]
    rfl
  | negSucc m =>
    rw [Byte.ofInt, BitVec.ofInt_negSucc_eq_not_ofNat, BitVec.getLsbD_not, BitVec.getLsbD_ofNat,
      decide_eq_true hk]
    rfl

/-- Bit `b` of a sprite row is set. The row is any integer, and its eight lowest bits count from the
left. -/
def HasSpriteBit (row : Int) (b : Fin 8) : Prop := Bitwise.and row (0x80 >>> b.val : ℕ) ≠ 0
deriving Decidable

theorem Byte.getMsbD_ofInt_iff (row : Int) (b : Fin 8) :
    (Byte.ofInt row).getMsbD b = true ↔ HasSpriteBit row b := by
  have hmask : 0x80 >>> b.val = 2 ^ (7 - b.val) := by
    revert b
    decide
  have hb : 8 - 1 - b.val < 8 := by omega
  rw [HasSpriteBit, hmask, Bitwise.and_two_pow_ne_zero_iff, BitVec.getMsbD, Byte.getLsbD_ofInt row hb,
    decide_eq_true b.isLt, Bool.true_and]

namespace Resolution

/-- The places of the set bits of a sprite, by row and bit, that fall on a pixel if the first place
falls on `(x, y)`. -/
def bitsOn (r : Resolution) (x y : Int) (sprite : List Int) (pixel : Point) :
    Finset (Fin sprite.length × Fin 8) :=
  {p | HasSpriteBit sprite[p.1] p.2 ∧ r.pixel (x + p.2.val, y + p.1.val) = pixel}

theorem card_bitsOn_cons (r : Resolution) (x y row : Int) (rest : List Int) (pixel : Point) :
    (r.bitsOn x y (row :: rest) pixel).card =
      (∑ b : Fin 8, if HasSpriteBit row b ∧ r.pixel (x + b.val, y) = pixel then 1 else 0) +
        (r.bitsOn x (y + 1) rest pixel).card := by
  have hnext (k : Fin rest.length) : y + (k.succ.val : Int) = y + 1 + k.val := by
    rw [Fin.val_succ]
    omega
  rw [bitsOn, bitsOn, Finset.card_filter, Finset.card_filter, Fintype.sum_prod_type,
    Fintype.sum_prod_type]
  refine (Fin.sum_univ_succ (n := rest.length) _).trans ?_
  simp only [hnext]
  congr 1
  simp

theorem pixel_of_lt (r : Resolution) {i j : ℕ} (hi : i < r.width) (hj : j < r.height) :
    r.pixel (i, j) = ((i : Int), (j : Int)) :=
  Prod.ext (Int.emod_eq_of_lt (by omega) (by omega)) (Int.emod_eq_of_lt (by omega) (by omega))

/-- Every point lies on a pixel within the display. -/
theorem exists_pixel (r : Resolution) (p : Point) :
    ∃ i < r.width, ∃ j < r.height, r.pixel (i, j) = r.pixel p := by
  have hwidth : (0 : Int) < r.width := Int.natCast_pos.mpr r.width_pos
  have hheight : (0 : Int) < r.height := Int.natCast_pos.mpr r.height_pos
  obtain ⟨i, hi⟩ := Int.eq_ofNat_of_zero_le (Int.emod_nonneg p.1 (Int.ne_of_gt hwidth))
  obtain ⟨j, hj⟩ := Int.eq_ofNat_of_zero_le (Int.emod_nonneg p.2 (Int.ne_of_gt hheight))
  have hi' := Int.emod_lt_of_pos p.1 hwidth
  have hj' := Int.emod_lt_of_pos p.2 hheight
  refine ⟨i, by omega, j, by omega, ?_⟩
  rw [r.pixel_of_lt (by omega) (by omega)]
  exact Prod.ext hi.symm hj.symm

theorem hits_append (r : Resolution) (ps qs : List Point) (q : Point) :
    r.hits (ps ++ qs) q = r.hits ps q + r.hits qs q := by
  rw [hits, List.map_append, List.count_append]
  rfl

end Resolution

namespace Display

theorem hits_bitPoints (r : Resolution) (x y : Int) (row : Byte) (bits : List ℕ) (q : Point) :
    r.hits (bitPoints x y row bits) q =
      (bits.map fun b : ℕ =>
        if row.getMsbD b = true ∧ r.pixel (x + b, y) = r.pixel q then 1 else 0).sum := by
  induction bits with
  | nil => rfl
  | cons b rest ih =>
    rw [List.map_cons, List.sum_cons, ← ih]
    cases hb : row.getMsbD b with
    | true => simp [bitPoints, hb, Resolution.hits_cons, Nat.add_comm]
    | false => simp [bitPoints, hb]

/-- As many points of a sprite lie on a pixel as set bits fall there. -/
theorem hits_eq_card_bitsOn (r : Resolution) (x y : Int) (sprite : List Int) (q : Point) :
    r.hits (spritePoints x y (sprite.map Byte.ofInt)) q =
      (r.bitsOn x y sprite (r.pixel q)).card := by
  induction sprite generalizing y with
  | nil => rfl
  | cons row rest ih =>
    have hrow : (List.range 8).map (fun b : ℕ =>
        if (Byte.ofInt row).getMsbD b = true ∧ r.pixel (x + b, y) = r.pixel q then 1 else 0) =
        List.ofFn fun b : Fin 8 =>
          if HasSpriteBit row b ∧ r.pixel (x + b.val, y) = r.pixel q then 1 else 0 := by
      simp only [← Byte.getMsbD_ofInt_iff]
      rfl
    rw [List.map_cons, spritePoints, Resolution.hits_append, hits_bitPoints, hrow, List.sum_ofFn, ih,
      Resolution.card_bitsOn_cons]

theorem bodd_eq_decide_odd (n : ℕ) : n.bodd = decide (Odd n) := by
  rw [Bool.eq_iff_iff, decide_eq_true_iff, Nat.odd_iff, Nat.mod_two_of_bodd]
  cases n.bodd <;> decide

/-- What drawing a sprite of any height does. A pixel is toggled once for every set bit that falls on
it, so in the end it has changed if their number is odd. Something was erased exactly if a bit fell on
a pixel that was lit at first, or two bits fell on one pixel. -/
theorem drawSprite_counts (d : Display) (x y : Int) (sprite : List Int) :
    let drawn := d.drawSprite x y (sprite.map Byte.ofInt)
    let count (i : Fin d.width) (j : Fin d.height) : ℕ :=
      (d.resolution.bitsOn x y sprite (i.val, j.val)).card
    drawn.1.resolution = d.resolution ∧
    (∀ (i : Fin d.width) (j : Fin d.height),
      drawn.1.lit i.val j.val = (d.lit i.val j.val ^^ decide (Odd (count i j)))) ∧
    (drawn.2 = true ↔ ∃ (i : Fin d.width) (j : Fin d.height),
      1 ≤ count i j ∧ d.lit i.val j.val = true ∨ 2 ≤ count i j) := by
  intro drawn count
  let points := spritePoints x y (sprite.map Byte.ofInt)
  have hdrawn : drawn = d.toggleAll points := drawSprite_eq d x y _
  have hcount (i : Fin d.width) (j : Fin d.height) :
      d.resolution.hits points (i.val, j.val) = count i j := by
    rw [hits_eq_card_bitsOn, d.resolution.pixel_of_lt i.isLt j.isLt]
  rw [hdrawn]
  refine ⟨resolution_toggleAll d points, fun i j => ?_, ?_⟩
  · rw [← bodd_eq_decide_odd, ← hcount]
    exact lit_toggleAll d points (i.val, j.val)
  · rw [erased_toggleAll]
    constructor
    · rintro ⟨p, hp, h⟩
      obtain ⟨i, hi, j, hj, hpixel⟩ := d.resolution.exists_pixel p
      have hn : d.resolution.hits points p = count ⟨i, hi⟩ ⟨j, hj⟩ :=
        (Resolution.hits_congr hpixel).symm.trans (hcount ⟨i, hi⟩ ⟨j, hj⟩)
      have hpos : 0 < d.resolution.hits points p := Resolution.hits_pos_iff.mpr ⟨p, hp, rfl⟩
      rw [← lit_congr hpixel, hn] at h
      rw [hn] at hpos
      exact ⟨⟨i, hi⟩, ⟨j, hj⟩, h.imp_left fun hlit => ⟨hpos, hlit⟩⟩
    · rintro ⟨i, j, h⟩
      have hpos : 0 < d.resolution.hits points (i.val, j.val) := by
        rw [hcount]
        omega
      obtain ⟨p, hp, hpixel⟩ := Resolution.hits_pos_iff.mp hpos
      refine ⟨p, hp, ?_⟩
      rw [lit_congr hpixel, Resolution.hits_congr hpixel, hcount]
      exact h.imp_left And.right

/-- A column of 33 bits folds over its first pixel, which it lights and then erases again. -/
example :
    let drawn := (blank .low).drawSprite (-1) 31 ((List.replicate 33 (-128)).map Byte.ofInt)
    drawn.1.lit 63 31 = false ∧ drawn.1.lit 63 0 = true ∧ drawn.2 = true := by
  decide +kernel

end Display

end ChipEight
