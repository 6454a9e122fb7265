import ChipEight.Proofs.ReachableMachines
import ChipEight.Proofs.Redraws
import ChipEight.Proofs.SessionCourse
import ChipEight.Seconds

/-!
# Stale pictures

What a viewer was shown last is the display, as long as the display only changes by being drawn on.
Clearing the screen asks for no redraw, so the old picture stays up until the next sprite is drawn.
There is no other way for a picture to be stale, and the display itself is then blank.
-/
namespace ChipEight

/-- Any display that is shown leaves something behind. -/
theorem Viewer.records_pos {ω : Type} {fit : ω → Prop} {viewer : Viewer ω} (h : viewer.Keeps fit)
    (d : Display) : 0 < (viewer.records [d]).1.size + (viewer.records [d]).2.length := by
  cases viewer with
  | recorder | window => exact Nat.succ_pos _
  | text pens =>
    -- a picture in text ends with a line break
    have hbreak : 0 < "\n".length := by decide
    simp only [records, List.map_cons, List.map_nil, String.join_cons, String.join_nil,
      Pens.picture, String.length_append]
    omega
  | missing => exact absurd h id

namespace Session
variable {τ ω : Type} {setup : Setup τ ω} {s t u : Session τ ω} {ds : List Display} {d : Display}

/-- How much has been shown. -/
def extent (s : Session τ ω) : ℕ := s.frames.size + s.shown.length

theorem extent_eq (h : ShowsBetween setup s t ds) :
    t.extent = s.extent + ((setup.viewer.records ds).1.size + (setup.viewer.records ds).2.length) := by
  rw [extent, extent, h.1, h.2, Array.size_append, String.length_append]
  omega

variable [Clock τ] [Add τ] {m : Machine τ} {now : τ} {polls : List (Poll τ)} {poll : Poll τ}
variable {desktop : ω} {fit : ω → Prop} {k n : ℕ}

/-- A pass that does not end the session draws and shows the display after it, or it shows nothing
and either leaves the display alone or clears it. -/
theorem pass?_cases (hkeeps : setup.Keeps fit) (hfit : fit s.desktop)
    (h : s.pass? setup poll = some t) :
    s.machine.fetch.firstDigit = 0xd ∧ ShowsBetween setup s t [t.machine.display] ∨
    ShowsBetween setup s t [] ∧
      (s.machine.fetch ≠ 0x00e0 ∧ t.machine.display = s.machine.display ∨
        s.machine.fetch = 0x00e0 ∧
          t.machine.display = Display.blank s.machine.display.resolution) := by
  obtain ⟨keys, redraw, log, desktop, -, -, hok, rfl⟩ := exists_of_pass? hkeeps hfit h
  rw [polled_eq] at hok ⊢
  cases redraw with
  | true => exact .inl ⟨(Machine.redraw_iff hok).mp rfl, rfl, rfl⟩
  | false =>
    refine .inr ⟨⟨rfl, rfl⟩, ?_⟩
    by_cases hclear : s.machine.fetch = 0x00e0
    · exact .inr ⟨hclear,
        (Machine.cycle_clears (m := { s.machine with keys }) hclear _).2⟩
    · exact .inl ⟨hclear, Machine.display_of_ok_false hok hclear⟩

theorem extent_le_of_pass? (hkeeps : setup.Keeps fit) (hfit : fit s.desktop)
    (h : s.pass? setup poll = some t) : s.extent ≤ t.extent := by
  rcases pass?_cases hkeeps hfit h with ⟨-, hshows⟩ | ⟨hshows, -⟩ <;>
    exact le_trans (Nat.le_add_right _ _) (extent_eq hshows).ge

theorem extent_le_of_atPoll? (hkeeps : setup.Keeps fit) (hfit : fit s.desktop)
    (hu : s.atPoll? setup polls k = some u) (hkn : k ≤ n) (ht : s.atPoll? setup polls n = some t) :
    u.extent ≤ t.extent := by
  induction n, hkn using Nat.le_induction generalizing t with
  | base =>
    obtain rfl := Option.some.inj (hu.symm.trans ht)
    exact le_rfl
  | succ n hkn ih =>
    obtain ⟨v, poll, hv, -, hpass⟩ := atPoll?_succ_eq_some_iff.mp ht
    exact (ih hv).trans (extent_le_of_pass? hkeeps (fit_of_atPoll? hkeeps hfit hv) hpass)

theorem resolution_of_atPoll? (hkeeps : setup.Keeps fit) (hfit : fit s.desktop)
    (ht : s.atPoll? setup polls n = some t) :
    t.machine.display.resolution = s.machine.display.resolution := by
  induction n generalizing t with
  | zero =>
    obtain rfl := Option.some.inj ht
    rfl
  | succ n ih =>
    obtain ⟨u, poll, hu, -, hpass⟩ := atPoll?_succ_eq_some_iff.mp ht
    obtain ⟨keys, redraw, log, desktop, -, -, -, rfl⟩ :=
      exists_of_pass? hkeeps (fit_of_atPoll? hkeeps hfit hu) hpass
    rw [polled_eq]
    exact (Machine.cycle_resolution { u.machine with keys } _).trans (ih hu)

/-- The screen was cleared before poll `n`, and nothing has been shown since. -/
def ClearedSince (setup : Setup τ ω) (s : Session τ ω) (polls : List (Poll τ)) (n : ℕ) : Prop :=
  ∃ k < n, ∃ u t, s.atPoll? setup polls k = some u ∧ s.atPoll? setup polls n = some t ∧
    u.machine.fetch = 0x00e0 ∧ u.frames = t.frames ∧ u.shown = t.shown

theorem not_clearedSince (hkeeps : setup.Keeps fit) (hfit : fit s.desktop)
    (ht : s.atPoll? setup polls n = some t) (hu : s.atPoll? setup polls (n + 1) = some u)
    (hshows : ShowsBetween setup t u [d]) : ¬ ClearedSince setup s polls (n + 1) := by
  rintro ⟨k, hk, v, u', hv, hu', -, hframes, hshown⟩
  obtain rfl := Option.some.inj (hu.symm.trans hu')
  have hle : v.extent ≤ t.extent := extent_le_of_atPoll? hkeeps hfit hv (by omega) ht
  have hlt : t.extent < u.extent := by
    have hpos := Viewer.records_pos hkeeps.viewer d
    rw [extent_eq hshows]
    omega
  have heq : v.extent = u.extent := by rw [extent, extent, hframes, hshown]
  omega

/-- A pass that shows nothing and does not clear the screen makes no difference to that. -/
theorem clearedSince_succ_iff (ht : s.atPoll? setup polls n = some t)
    (hu : s.atPoll? setup polls (n + 1) = some u) (hshows : ShowsBetween setup t u [])
    (hclear : t.machine.fetch ≠ 0x00e0) :
    ClearedSince setup s polls (n + 1) ↔ ClearedSince setup s polls n := by
  obtain ⟨hframes, hshown⟩ := ShowsBetween.nil_iff.mp hshows
  constructor
  · rintro ⟨k, hk, v, u', hv, hu', hfetch, hframes', hshown'⟩
    obtain rfl := Option.some.inj (hu.symm.trans hu')
    rcases Nat.lt_succ_iff_lt_or_eq.mp hk with hlt | rfl
    · exact ⟨k, hlt, v, t, hv, ht, hfetch, hframes'.trans hframes, hshown'.trans hshown⟩
    · obtain rfl := Option.some.inj (ht.symm.trans hv)
      exact absurd hfetch hclear
  · rintro ⟨k, hk, v, t', hv, ht', hfetch, hframes', hshown'⟩
    obtain rfl := Option.some.inj (ht.symm.trans ht')
    exact ⟨k, by omega, v, u, hv, hu, hfetch, hframes'.trans hframes.symm,
      hshown'.trans hshown.symm⟩

theorem clearedSince_of_fetch (hkeeps : setup.Keeps fit) (hfit : fit s.desktop)
    (ht : s.atPoll? setup polls n = some t) (hu : s.atPoll? setup polls (n + 1) = some u)
    (hfetch : t.machine.fetch = 0x00e0) : ClearedSince setup s polls (n + 1) := by
  obtain ⟨t', poll, ht', -, hpass⟩ := atPoll?_succ_eq_some_iff.mp hu
  obtain rfl := Option.some.inj (ht.symm.trans ht')
  rcases pass?_cases hkeeps (fit_of_atPoll? hkeeps hfit ht) hpass with ⟨hdraws, -⟩ | ⟨hshows, -⟩
  · rw [hfetch] at hdraws
    cases hdraws
  · obtain ⟨hframes, hshown⟩ := ShowsBetween.nil_iff.mp hshows
    exact ⟨n, Nat.lt_succ_self n, t, u, ht, hu, hfetch, hframes.symm, hshown.symm⟩

/-- At every poll the display is what was shown last, or it is blank. -/
theorem picture_of_atPoll? (hkeeps : setup.Keeps fit) (hfit : fit desktop)
    (hblank : m.display = Display.blank m.display.resolution)
    (ht : (start m now desktop).atPoll? setup polls n = some t) :
    ∃ ds, HasShown setup t ds ∧
      (¬ ClearedSince setup (start m now desktop) polls n →
        t.machine.display = ds.getLast?.getD m.display) ∧
      (ClearedSince setup (start m now desktop) polls n → t.machine.display = m.display) := by
  induction n generalizing t with
  | zero =>
    obtain rfl := Option.some.inj ht
    refine ⟨[], (Viewer.records_nil _).symm, fun _ => rfl, ?_⟩
    rintro ⟨k, hk, -⟩
    omega
  | succ n ih =>
    obtain ⟨u, poll, hu, -, hpass⟩ := atPoll?_succ_eq_some_iff.mp ht
    obtain ⟨ds, hds, hfresh, hcleared⟩ := ih hu
    rcases pass?_cases hkeeps (fit_of_atPoll? hkeeps hfit hu) hpass with
      ⟨-, hshows⟩ | ⟨hshows, ⟨hfetch, hsame⟩ | ⟨hfetch, hdark⟩⟩
    · have hnot := not_clearedSince hkeeps hfit hu ht hshows
      exact ⟨_, hds.append hshows, fun _ => by simp, fun h => absurd h hnot⟩
    · rw [clearedSince_succ_iff hu ht hshows hfetch, hsame]
      exact ⟨_, hds.append hshows, by rwa [List.append_nil], hcleared⟩
    · have hnow := clearedSince_of_fetch hkeeps hfit hu ht hfetch
      have hm : Display.blank u.machine.display.resolution = m.display := by
        rw [resolution_of_atPoll? hkeeps hfit hu]
        exact hblank.symm
      exact ⟨_, hds.append hshows, fun h => absurd hnow h, fun _ => hdark.trans hm⟩

/-- When a picture is stale. A session that starts with a blank display comes to each of its polls with
a display that is what it has shown last, or blank if it has shown nothing yet. The only exception is
that the screen has been cleared since, and then the display is blank. Likewise a cycle that asks for no
redraw leaves the display alone, unless it clears the screen. -/
theorem fresh_unless_cleared (hkeeps : setup.Keeps fit) (hfit : fit desktop)
    (hblank : m.display = Display.blank m.display.resolution) :
    let blank := Display.blank m.display.resolution
    let r := (start m now desktop).run setup polls
    (∀ n < r.1.polls, ∃ t ds, (start m now desktop).atPoll? setup polls n = some t ∧ t.polls = n ∧
      r = t.run setup (polls.drop n) ∧ HasShown setup t ds ∧
      (¬ ClearedSince setup (start m now desktop) polls n →
        t.machine.display = ds.getLast?.getD blank) ∧
      (ClearedSince setup (start m now desktop) polls n → t.machine.display = blank)) ∧
    ∀ (a : Machine τ) (now : τ), (a.cycle now).2 = .ok false →
      (a.fetch ≠ 0x00e0 → (a.cycle now).1.display = a.display) ∧
      (a.fetch = 0x00e0 → (a.cycle now).1.display = Display.blank a.display.resolution) := by
  intro blank r
  constructor
  · intro n hn
    have hcount : (start m now desktop).polls + n < r.1.polls := by
      rw [show (start m now desktop).polls = 0 from rfl]
      omega
    obtain ⟨t, ht⟩ := exists_atPoll? hkeeps hfit hcount
    obtain ⟨ds, hds, hpicture⟩ := picture_of_atPoll? hkeeps hfit hblank ht
    rw [hblank] at hpicture
    exact ⟨t, ds, ht, (polls_of_atPoll? hkeeps hfit ht).trans (Nat.zero_add n), run_of_atPoll? ht, hds,
      hpicture⟩
  · intro a now hok
    exact ⟨Machine.display_of_ok_false hok, fun hclear => (Machine.cycle_clears hclear now).2⟩

/-- Draws the first byte of its program, and then clears the screen. -/
def clearing : Machine Float :=
  { Machine.initial .low ⟨fun _ => 0, 0⟩ 0 with
    memory := Memory.zeros.writeBytes programStart [0xd0, 0x01, 0x00, 0xe0]
    index := programStart }

/-- After the screen has been cleared the picture is stale, although the cycle asked for no redraw. -/
theorem stale_after_clearing :
    let setup : Setup Float Unit := ⟨.recorder, .free, false⟩
    let stay : Poll Float := { wait := none, keys := .ok Keys.released }
    let polls := [stay, stay]
    clearing.display = Display.blank .low ∧
    (¬ ∀ n < ((start clearing 0 ()).run setup polls).1.polls, ∀ t ds,
      (start clearing 0 ()).atPoll? setup polls n = some t → HasShown setup t ds →
      t.machine.display = ds.getLast?.getD (Display.blank .low)) ∧
    ¬ ∀ m : Machine Float, (m.cycle 0).2 = .ok false → (m.cycle 0).1.display = m.display := by
  intro setup stay polls
  have hpolls : 2 < ((start clearing 0 ()).run setup polls).1.polls := by decide +kernel
  refine ⟨rfl, fun hfresh => ?_, fun hsame => ?_⟩
  · -- at poll 2 the top left pixel is lit in the last frame and dark in the display
    have hpixels : ((start clearing 0 ()).atPoll? setup polls 2).map (fun t =>
        (t.shown, (t.frames.toList.getLast?.getD (Display.blank .low)).lit 0 0,
          t.machine.display.lit 0 0)) = some ("", true, false) := by decide +kernel
    obtain ⟨t, ht, hpixels⟩ := Option.map_eq_some_iff.mp hpixels
    simp only [Prod.mk.injEq] at hpixels
    obtain ⟨hshown, hlit, hdark⟩ := hpixels
    have hshows : HasShown setup t t.frames.toList := by
      rw [HasShown, hshown]
      rfl
    have hdisplay := hfresh 2 hpolls t t.frames.toList ht hshows
    rw [hdisplay, hlit] at hdark
    cases hdark
  · have h := hsame (clearing.cycle 0).1 (by decide +kernel)
    have hlit : (clearing.cycle 0).1.display.lit 0 0 = true := by decide +kernel
    have hdark : ((clearing.cycle 0).1.cycle 0).1.display.lit 0 0 = false := by decide +kernel
    rw [h, hlit] at hdark
    cases hdark

theorem fresh_unless_cleared_drawing :
    let setup : Setup Float Unit := ⟨.recorder, .free, false⟩
    let stay : Poll Float := { wait := none, keys := .ok Keys.released }
    let polls := [stay, stay]
    let fit : Unit → Prop := fun _ => True
    let s := start clearing 0 ()
    setup.Keeps fit ∧ fit () ∧ clearing.display = Display.blank .low ∧
    ¬ ClearedSince setup s polls 1 ∧ ClearedSince setup s polls 2 ∧
    (∃ t ds, s.atPoll? setup polls 1 = some t ∧ HasShown setup t ds ∧
      t.machine.display = ds.getLast?.getD (Display.blank .low)) ∧
    ∃ t, s.atPoll? setup polls 2 = some t ∧ t.machine.display = Display.blank .low := by
  intro setup stay polls fit s
  have hkeeps : setup.Keeps fit := ⟨trivial, trivial⟩
  have hfit : fit s.desktop := trivial
  have hpolls : 2 < (s.run setup polls).1.polls := by decide +kernel
  have hdrawn : ¬ ClearedSince setup s polls 1 := by
    rintro ⟨k, hk, u, -, hu, -, hfetch, -⟩
    interval_cases k
    obtain rfl := Option.some.inj hu
    exact absurd hfetch (by decide +kernel)
  have hclears : (s.atPoll? setup polls 1).map (·.machine.fetch) = some 0x00e0 := by decide +kernel
  obtain ⟨v, hv, hfetch⟩ := Option.map_eq_some_iff.mp hclears
  have hfresh := (@fresh_unless_cleared Float Unit setup _ _ clearing 0 polls () fit hkeeps hfit rfl).1
  obtain ⟨t, ds, ht, -, -, hds, hpicture, -⟩ := hfresh 1 (Nat.lt_of_succ_lt hpolls)
  obtain ⟨u, -, hu, -, -, -, -, hblank⟩ := hfresh 2 hpolls
  have hcleared := clearedSince_of_fetch hkeeps hfit hv hu hfetch
  exact ⟨hkeeps, hfit, rfl, hdrawn, hcleared, ⟨t, ds, ht, hds, hpicture hdrawn⟩, u, hu, hblank hcleared⟩

end Session

end ChipEight
