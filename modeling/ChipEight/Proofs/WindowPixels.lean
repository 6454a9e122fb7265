import ChipEight.Proofs.WindowRequests

/-!
# The pixels of a window

A surface of `scale` times the size of a window in squares is divided into the squares of its pixels,
and a surface pixel belongs to the square that division by `scale` gives. Presenting a display paints
the whole surface first. So it shows that display and nothing of what has been painted before, also if
the window has another size than the display.
-/
namespace ChipEight

theorem Display.mem_litPixels {d : Display} {x y : ℕ} :
    (x, y) ∈ d.litPixels ↔ x < d.width ∧ y < d.height ∧ d.lit x y = true := by
  have hlit (j : Fin d.resolution.height) (i : Fin d.resolution.width) :
      d.lit i.val j.val = d.pixels[j][i] := by
    have hcolumn : d.column i.val = i := Fin.ext (by simp [column, wrapped, Int.emod_eq_of_lt])
    have hline : d.line j.val = j := Fin.ext (by simp [line, wrapped, Int.emod_eq_of_lt])
    simp only [lit, hcolumn, hline]
  simp only [litPixels, List.mem_flatMap, List.mem_map, List.mem_filter, List.mem_finRange, true_and,
    Prod.mk.injEq]
  constructor
  · rintro ⟨j, i, hon, rfl, rfl⟩
    exact ⟨i.isLt, j.isLt, (hlit j i).trans hon⟩
  · rintro ⟨hx, hy, hon⟩
    exact ⟨⟨y, hy⟩, ⟨x, hx⟩, (hlit ⟨y, hy⟩ ⟨x, hx⟩).symm.trans hon, rfl, rfl⟩

namespace WindowSystem
variable {ω : Type} (system : WindowSystem ω) (width height : ℕ)

/-- The surface has the size that is spoken of. -/
def Sized (s : ω) : Prop := system.size s = (width, height)

/-- On a surface of this size a request is granted, and it paints an area in a colour and nothing
else. -/
def Colours (x : WindowM ω Unit) (area : ℕ × ℕ → Prop) (c : Colour) : Prop :=
  ∀ s, system.Sized width height s → ∃ t, x s = .ok () t ∧ system.Sized width height t ∧
    ∀ i < width, ∀ j < height, (area (i, j) → system.pixel t i j = c) ∧
      (¬area (i, j) → system.pixel t i j = system.pixel s i j)

/-- What is expected of a window system whose window is to have this size. -/
structure Paints : Prop where
  /-- A window of the size that was asked for is made. -/
  mode : ∀ s, ∃ t, system.answer (.mode (width : Int) (height : Int)) s = .ok () t ∧
    system.Sized width height t
  /-- All of the surface is filled. -/
  fill : ∀ c, system.Colours width height (system.answer (.fill c)) (fun _ => True) c
  /-- Exactly the part of a rectangle that lies on the surface is painted. -/
  rectangle : ∀ (left top across down : Int) (c : Colour), 0 < across → 0 < down →
    system.Colours width height (system.answer (.rectangle left top across down c))
      (fun p => (left ≤ p.1 ∧ p.1 < left + across) ∧ top ≤ p.2 ∧ p.2 < top + down) c
  /-- The surface is shown as it is. -/
  flip : ∀ c, system.Colours width height (system.answer .flip) (fun _ => False) c

namespace Colours
variable {system width height} {x y : WindowM ω Unit} {area area' : ℕ × ℕ → Prop} {c : Colour}

theorem nothing : system.Colours width height (pure ()) (fun _ => False) c :=
  fun s hs => ⟨s, rfl, hs, fun _ _ _ _ => ⟨False.elim, fun _ => rfl⟩⟩

theorem congr (h : system.Colours width height x area c) (harea : ∀ p, area p ↔ area' p) :
    system.Colours width height x area' c := by
  obtain rfl : area = area' := funext fun p => propext (harea p)
  exact h

theorem granted (h : system.Colours width height x area c) :
    Granted (system.Sized width height) x := by
  intro s hs
  obtain ⟨t, ht, hsized, -⟩ := h s hs
  exact ⟨t, ht, hsized⟩

/-- Painting two areas one after the other paints all of both. -/
theorem bind (h : system.Colours width height x area c)
    (h' : system.Colours width height y area' c) :
    system.Colours width height (x >>= fun _ => y) (fun p => area p ∨ area' p) c := by
  intro s hs
  obtain ⟨t, ht, htsized, hfirst⟩ := h s hs
  obtain ⟨u, hu, husized, hsecond⟩ := h' t htsized
  refine ⟨u, (bind_of_ok ht).trans hu, husized, fun i hi j hj => ⟨fun hp => ?_, fun hp => ?_⟩⟩
  · by_cases hlater : area' (i, j)
    · exact (hsecond i hi j hj).1 hlater
    · rw [(hsecond i hi j hj).2 hlater]
      exact (hfirst i hi j hj).1 (hp.resolve_right hlater)
  · rw [(hsecond i hi j hj).2 fun hlater => hp (.inr hlater),
      (hfirst i hi j hj).2 fun hearlier => hp (.inl hearlier)]

end Colours
end WindowSystem

/-- A call that paints on a screen. -/
inductive ScreenCall where
  | writePixel (x y : Int) (on : Bool)
  | present (d : Display)

namespace Screen
variable {ω : Type} {system : WindowSystem ω} {width height scale : ℕ}
def call (s : Screen) (system : WindowSystem ω) : ScreenCall → WindowM ω Unit
  | .writePixel x y on => s.writePixel system x y on
  | .present d => s.present system d

/-- The pixels of a square are those that division leads to. -/
theorem mem_square_iff (hscale : 0 < scale) (x i : ℕ) :
    ((x : Int) * scale ≤ i ∧ (i : Int) < x * scale + scale) ↔ i / scale = x := by
  rw [Nat.div_eq_iff hscale]
  norm_cast
  omega

section Squares
variable (hlaws : system.Paints width height) (hscale : 0 < scale) (background foreground : Colour)
include hlaws hscale

theorem colours_writePixel (x y : ℕ) :
    system.Colours width height
      (Screen.writePixel ⟨some scale, background, foreground⟩ system x y true)
      (fun p => (p.1 / scale, p.2 / scale) = (x, y)) foreground := by
  have hside : (0 : Int) < scale := by exact_mod_cast hscale
  refine (hlaws.rectangle (x * scale) (y * scale) scale scale foreground hside hside).congr fun p => ?_
  rw [mem_square_iff hscale, mem_square_iff hscale, Prod.mk.injEq]

/-- The squares of several pixels are painted in the foreground colour. -/
theorem colours_squares (ps : List (ℕ × ℕ)) :
    system.Colours width height
      (ps.forM fun (x, y) => Screen.writePixel ⟨some scale, background, foreground⟩ system x y true)
      (fun p => (p.1 / scale, p.2 / scale) ∈ ps) foreground := by
  induction ps with
  | nil => exact WindowSystem.Colours.nothing.congr fun p => by simp
  | cons q rest ih =>
    refine ((colours_writePixel hlaws hscale background foreground q.1 q.2).bind ih).congr fun p => ?_
    rw [List.mem_cons]

/-- Presenting a display gives the squares of its lit pixels the foreground colour and everything else
the background colour. -/
theorem exists_of_present (d : Display) {s : ω} (hs : system.Sized width height s) :
    ∃ t, Screen.present ⟨some scale, background, foreground⟩ system d s = .ok () t ∧
      system.Sized width height t ∧ ∀ i < width, ∀ j < height, system.pixel t i j =
        if i / scale < d.width ∧ j / scale < d.height ∧
            d.lit (i / scale : ℕ) (j / scale : ℕ) = true then foreground else background := by
  obtain ⟨filled, hfilled, hsized, hground⟩ := hlaws.fill background s hs
  obtain ⟨drawn, hdrawn, hsized, hsquares⟩ :=
    colours_squares hlaws hscale background foreground d.litPixels filled hsized
  obtain ⟨shown, hshown, hsized, hsame⟩ := hlaws.flip foreground drawn hsized
  have hpresent : Screen.present ⟨some scale, background, foreground⟩ system d s = .ok () shown :=
    (bind_of_ok hfilled).trans ((bind_of_ok hdrawn).trans hshown)
  refine ⟨shown, hpresent, hsized, fun i hi j hj => ?_⟩
  rw [(hsame i hi j hj).2 id]
  by_cases hlit : (i / scale, j / scale) ∈ d.litPixels
  · rw [(hsquares i hi j hj).1 hlit, if_pos (Display.mem_litPixels.mp hlit)]
  · rw [(hsquares i hi j hj).2 hlit, (hground i hi j hj).1 trivial,
      if_neg fun h => hlit (Display.mem_litPixels.mpr h)]

/-- Whatever is painted on a screen, its surface keeps the size. -/
theorem granted_call (c : ScreenCall) :
    Granted (system.Sized width height)
      (Screen.call ⟨some scale, background, foreground⟩ system c) := by
  have hside : (0 : Int) < scale := by exact_mod_cast hscale
  cases c with
  | writePixel x y on =>
    exact (hlaws.rectangle (x * scale) (y * scale) scale scale _ hside hside).granted
  | present d =>
    intro s hs
    obtain ⟨t, ht, hsized, -⟩ := exists_of_present hlaws hscale background foreground d hs
    exact ⟨t, ht, hsized⟩

end Squares

/-- A screen shows the display that it presents. Its window has been made and painted on in any way,
and all of that has succeeded. Then presenting a display succeeds too, and a surface pixel has the
foreground colour if the display has a lit pixel where division by `scale` leads, and the background
colour otherwise. So the display is shown alike on every surface of that size, whatever is on it, and
presenting it again changes nothing. -/
theorem present_shows_display (hscale : 0 < scale)
    (hlaws : system.Paints (width * scale) (height * scale)) (background foreground : Colour)
    (desktop : ω) (calls : List ScreenCall) (d : Display) :
    let s : Screen := ⟨some scale, background, foreground⟩
    let sized := system.Sized (width * scale) (height * scale)
    ∃ opened painted shown, s.makeWindow system width height desktop = .ok () opened ∧
      calls.forM (s.call system) opened = .ok () painted ∧
      s.present system d painted = .ok () shown ∧ sized shown ∧
      (∀ X < width * scale, ∀ Y < height * scale, system.pixel shown X Y =
        if X / scale < d.width ∧ Y / scale < d.height ∧
            d.lit (X / scale : ℕ) (Y / scale : ℕ) = true then foreground else background) ∧
      ∀ other, sized other → ∃ again, s.present system d other = .ok () again ∧ sized again ∧
        ∀ X < width * scale, ∀ Y < height * scale,
          system.pixel again X Y = system.pixel shown X Y := by
  intro s sized
  obtain ⟨made, hmade, hsized⟩ := hlaws.mode desktop
  obtain ⟨opened, hopened, hsized, -⟩ := hlaws.fill background made hsized
  obtain ⟨painted, hpainted, hsized⟩ :=
    Granted.forM (granted_call hlaws hscale background foreground) calls opened hsized
  obtain ⟨shown, hshown, hsized, hpixels⟩ :=
    exists_of_present hlaws hscale background foreground d hsized
  have hmode : s.makeWindow system width height desktop = .ok () opened := by
    have hmeasure (n : ℕ) : s.measure n = some ((n * scale : ℕ) : Int) := rfl
    rw [makeWindow, hmeasure, hmeasure]
    exact (bind_of_ok hmade).trans hopened
  refine ⟨opened, painted, shown, hmode, hpainted, hshown, hsized, hpixels, fun other hother => ?_⟩
  obtain ⟨again, hagain, hsized', hpixels'⟩ :=
    exists_of_present hlaws hscale background foreground d hother
  refine ⟨again, hagain, hsized', fun X hX Y hY => ?_⟩
  rw [hpixels' X hX Y hY, hpixels X hX Y hY]

end Screen

/-- A surface of any size. -/
structure Sheet where
  width : ℕ
  height : ℕ
  colour : ℕ → ℕ → Colour

namespace Sheet

/-- A window that is a sheet. It cannot have a negative size. -/
def answer : WindowRequest → WindowM Sheet Unit
  | .mode (some width) (some height) => fun s =>
    if width < 0 ∨ height < 0 then .error ⟨"error", "Cannot set negative sized display mode"⟩ s
    else .ok () ⟨width.toNat, height.toNat, fun _ _ => ⟨0, 0, 0, 255⟩⟩
  | .fill c => fun s => .ok () { s with colour := fun _ _ => c }
  | .rectangle (some left) (some top) (some across) (some down) c => fun s =>
    .ok () { s with colour := fun i j =>
      if (left ≤ i ∧ i < left + across) ∧ top ≤ j ∧ j < top + down then c else s.colour i j }
  | .clock | .caption _ | .flip | .tick _ => pure ()
  | .mode .. | .rectangle .. => throw ⟨"TypeError", "size must be two numbers"⟩

def system : WindowSystem Sheet where
  start := id
  stop := id
  answer := answer
  size s := (s.width, s.height)
  pixel := Sheet.colour

theorem paints (width height : ℕ) : system.Paints width height where
  mode s := by
    have hsize : ¬((width : Int) < 0 ∨ (height : Int) < 0) := by omega
    exact ⟨⟨width, height, fun _ _ => ⟨0, 0, 0, 255⟩⟩, by simp only [system, answer, if_neg hsize]; rfl,
      rfl⟩
  fill _ _ hs := ⟨_, rfl, hs, fun _ _ _ _ => ⟨fun _ => rfl, fun h => absurd trivial h⟩⟩
  rectangle _ _ _ _ _ _ _ _ hs := ⟨_, rfl, hs, fun _ _ _ _ => ⟨fun h => if_pos h, fun h => if_neg h⟩⟩
  flip _ s hs := ⟨s, rfl, hs, fun _ _ _ _ => ⟨False.elim, fun _ => rfl⟩⟩

end Sheet

/-- A window that is smaller than the display and has a lit square of an earlier time. -/
theorem Screen.present_shows_display_smaller :
    let s : Screen := { scale := some (2 : ℕ) }
    let d := ((Display.blank .low).toggle 1 1).toggle 40 20
    0 < 2 ∧ Sheet.system.Paints (3 * 2) (2 * 2) ∧
    ∃ opened painted shown,
      s.makeWindow Sheet.system (3 : ℕ) (2 : ℕ) ⟨0, 0, fun _ _ => s.foreground⟩ = .ok () opened ∧
      [ScreenCall.writePixel 0 0 true].forM (s.call Sheet.system) opened = .ok () painted ∧
      s.present Sheet.system d painted = .ok () shown ∧
      Sheet.system.pixel shown 2 3 = s.foreground ∧ Sheet.system.pixel shown 0 0 = s.background := by
  intro s d
  have hlaws := Sheet.paints (3 * 2) (2 * 2)
  obtain ⟨opened, painted, shown, hopened, hpainted, hshown, -, hpixels, -⟩ :=
    present_shows_display (by decide) hlaws s.background s.foreground
      ⟨0, 0, fun _ _ => s.foreground⟩ [.writePixel 0 0 true] d
  have hlit := hpixels 2 (by decide) 3 (by decide)
  have hdark := hpixels 0 (by decide) 0 (by decide)
  rw [if_pos (by decide +kernel)] at hlit
  rw [if_neg (by decide +kernel)] at hdark
  exact ⟨by decide, hlaws, opened, painted, shown, hopened, hpainted, hshown, hlit, hdark⟩

end ChipEight
