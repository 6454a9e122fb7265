import ChipEight.Display
import Mathlib.Tactic.Common

/-!
# The shape of the display

Drawing toggles pixels and never changes how many there are, so a display keeps its resolution, and
with it the number of its rows and their width.
-/
namespace ChipEight.Display
variable {d e : Display} {row : List Bool}

@[simp] theorem resolution_toggle (d : Display) (x y : Int) :
    (d.toggle x y).resolution = d.resolution := rfl

@[simp] theorem resolution_drawRow (d : Display) (x y : Int) (row : Byte) :
    (d.drawRow x y row).1.resolution = d.resolution := by
  unfold drawRow
  -- each bit toggles a pixel or does nothing
  apply List.foldlRecOn (motive := fun s : Display × Bool => s.1.resolution = d.resolution)
  · rfl
  · intro s hs i _
    dsimp only
    split
    · exact hs
    · exact hs

@[simp] theorem resolution_drawSprite (d : Display) (x y : Int) (rows : List Byte) :
    (d.drawSprite x y rows).1.resolution = d.resolution := by
  induction rows generalizing d y with
  | nil => rfl
  | cons row rest ih =>
    simp only [drawSprite]
    rw [ih, resolution_drawRow]

theorem length_rows (d : Display) : d.rows.length = d.resolution.height := by
  simp [rows]

theorem length_of_mem_rows (h : row ∈ d.rows) : row.length = d.resolution.width := by
  obtain ⟨pixels, -, rfl⟩ := List.mem_map.mp h
  exact pixels.length_toList

theorem getElem_rows {x y : ℕ} (hy : y < d.rows.length) (hx : x < d.rows[y].length) :
    d.rows[y][x] = d.lit x y := by
  have hline : ((y : Int) % d.resolution.height).toNat = y := by
    rw [length_rows] at hy
    rw [Int.emod_eq_of_lt] <;> omega
  have hcolumn : ((x : Int) % d.resolution.width).toNat = x := by
    rw [length_of_mem_rows (List.getElem_mem hy)] at hx
    rw [Int.emod_eq_of_lt] <;> omega
  simp [rows, lit, line, column, wrapped, hline, hcolumn]

/-- Displays of one resolution are equal if their rows are. -/
theorem ext_rows (hr : d.resolution = e.resolution) (h : d.rows = e.rows) : d = e := by
  obtain ⟨r, pixels⟩ := d
  obtain ⟨r', pixels'⟩ := e
  obtain rfl : r = r' := hr
  have hlist : pixels.toList = pixels'.toList :=
    (List.map_inj_right fun _ _ => Vector.toList_inj.mp).mp h
  rw [Vector.toList_inj.mp hlist]

end ChipEight.Display
