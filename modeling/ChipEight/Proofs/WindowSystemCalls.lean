import ChipEight.Proofs.ProgramSteps
import ChipEight.Proofs.SessionCourse
import ChipEight.Proofs.WindowPixels
import ChipEight.Seconds

/-!
# Starting and stopping the window system

The program starts the window system once it has loaded a file, then opens the window and holds the
session. Stopping it is bound to the session, however that ends. So if the window cannot be opened, the
window system is left running, and in no other case.
-/
namespace ChipEight

/-! ## Sessions in a window -/

/-- Showing a display and keeping the pace keep a relation between the number of paces, the frames and
the window system, whether they are granted or not. -/
structure Maintains {ω : Type} (R : ℕ → Array Display → ω → Prop)
    (present : Display → WindowM ω Unit) (tick : WindowM ω Unit) : Prop where
  shown : ∀ {n frames s} d, R n frames s → R n (frames.push d) (answered (present d) s)
  ticked : ∀ {n frames s}, R n frames s → R (n + 1) frames (answered tick s)

namespace Session
variable {τ ω : Type} {R : ℕ → Array Display → ω → Prop} {present : Display → WindowM ω Unit}
variable {tick : WindowM ω Unit} {wait? : Option τ} {tracing : Bool}

theorem ask_fst (s : Session τ ω) (x : WindowM ω Unit) :
    (s.ask x).1 = { s with desktop := answered x s.desktop } := by
  rw [ask, answered]
  cases x s.desktop <;> rfl

variable [Clock τ] [Add τ]

theorem settle_maintains (h : Maintains R present tick) {s : Session τ ω}
    (hs : R s.paces s.frames s.desktop) (lags : Lags τ) :
    let t := (s.settle (.ticked wait? tick) lags).1
    R t.paces t.frames t.desktop := by
  simp only [settle, updateTimers_eq, keepPace, wait_eq, ask_fst]
  exact h.ticked hs

/-- A pass of the loop keeps the relation, also if it is the last one. -/
theorem turn_maintains (h : Maintains R present tick) {s : Session τ ω}
    (hs : R s.paces s.frames s.desktop) (keys : Keys) (lags : Lags τ) :
    let t := (s.turn ⟨.window present, .ticked wait? tick, tracing⟩ keys lags).1
    R t.paces t.frames t.desktop := by
  have hcycle : let u := ((s.wait lags.cycle).runCycle tracing keys).1
      R u.paces u.frames u.desktop := by
    rw [wait_eq]
    exact hs
  simp only [turn]
  rcases hrun : (s.wait lags.cycle).runCycle tracing keys with ⟨u, f | redraw⟩ <;>
    rw [hrun] at hcycle
  · exact hcycle
  · cases redraw with
    | false => exact settle_maintains h hcycle lags
    | true =>
      have hshown : let v := (u.present (.window present)).1
          R v.paces v.frames v.desktop := by
        simp only [Session.present, ask_fst]
        exact h.shown _ hcycle
      rcases hview : u.present (.window present) with ⟨v, _ | ending⟩ <;> rw [hview] at hshown
      · simp only [hview]
        exact settle_maintains h hshown lags
      · simp only [hview]
        exact hshown

/-- A session keeps the relation, however it ends. -/
theorem run_maintains (h : Maintains R present tick) {s : Session τ ω}
    (hs : R s.paces s.frames s.desktop) (polls : List (Poll τ)) :
    let t := (s.run ⟨.window present, .ticked wait? tick, tracing⟩ polls).1
    R t.paces t.frames t.desktop := by
  induction polls generalizing s with
  | nil => exact hs
  | cons poll rest ih =>
    have hpolled : R (s.polled poll).paces (s.polled poll).frames (s.polled poll).desktop := by
      rw [polled_eq]
      exact hs
    cases hkeys : poll.keys with
    | error f =>
      simp only [run, hkeys]
      exact hpolled
    | ok keys =>
      cases hexit : keys.exit with
      | true =>
        simp only [run, hkeys, hexit, if_true]
        exact hpolled
      | false =>
        have hturned : let t := ((s.polled poll).turn
            ⟨.window present, .ticked wait? tick, tracing⟩ keys poll.lags).1
            R t.paces t.frames t.desktop := turn_maintains h hpolled keys poll.lags
        rcases hturn : (s.polled poll).turn ⟨.window present, .ticked wait? tick, tracing⟩ keys
          poll.lags with ⟨t, _ | ending⟩ <;> rw [hturn] at hturned
        · rw [run_cons_of_none hkeys hexit hturn]
          exact ih hturned
        · rw [run_cons_of_some hkeys hexit hturn]
          exact hturned

end Session

namespace Program
variable {τ ω : Type} {w : World τ ω} {words : List String} {o : CommandLine.Options}
variable {m : Machine τ}

def counts (calls : List Call) : ℕ × ℕ := (calls.count .start, calls.count .stop)

theorem counts_append (requests : List WindowRequest) (calls : List Call) :
    counts (callsOf requests ++ calls) = counts calls := by
  have hstart : (callsOf requests).count .start = 0 := by simp [callsOf, List.count_eq_zero]
  have hstop : (callsOf requests).count .stop = 0 := by simp [callsOf, List.count_eq_zero]
  rw [counts, List.count_append, List.count_append, hstart, hstop, Nat.zero_add, Nat.zero_add, counts]

def openingRequests (o : CommandLine.Options) : List WindowRequest :=
  [.clock, .caption (o.file.elim "" lastName),
    .mode ((screen o).measure (resolution o).width) ((screen o).measure (resolution o).height),
    .fill (screen o).background]

theorem makes_opening (system : WindowSystem ω) (o : CommandLine.Options) :
    Makes (openingRequests o) (opening system o) (opening system.recorded o) :=
  (Makes.answer system _).bind ((Makes.answer system _).bind (Screen.makes_makeWindow _ system _ _))

variable [Clock τ] [Add τ]

theorem counts_session (w : World τ ω) (o : CommandLine.Options) (m : Machine τ)
    (desktop : ω × List Call) :
    counts (session w o m desktop).1.desktop.2 = counts desktop.2 := by
  refine Session.run_maintains (R := fun _ _ (d : ω × List Call) => counts d.2 = counts desktop.2)
    ⟨?_, ?_⟩ ?_ _
  · rintro n frames ⟨s, calls⟩ d hd
    obtain ⟨made, hmade⟩ := ((screen o).makes_present w.system d).exists_answered s calls
    rw [hmade, counts_append]
    exact hd
  · rintro n frames ⟨s, calls⟩ hd
    obtain ⟨made, hmade⟩ := (Makes.answer w.system (.tick o.speed)).exists_answered s calls
    rw [hmade, counts_append]
    exact hd
  · rfl

theorem counts_of_not_opens (h : ∀ o m, ¬Opens w words o m) :
    counts (run w words).course.desktop.2 = (0, 0) := by
  cases hparse : CommandLine.parse words with
  | error s =>
    rw [run_of_stop hparse]
    rfl
  | ok o =>
    rcases hload : (Machine.initial (resolution o) w.noise w.clock).loadFile
      (w.files.open? o.file) with ⟨m, e | _⟩
    · rw [run_of_unloaded hparse hload]
      rfl
    · exact absurd ⟨hparse, hload⟩ (h o m)

/-- A program that comes to open a window starts the window system, and stops it unless the window is
refused. -/
theorem counts_of_opens (h : Opens w words o m) :
    counts (run w words).course.desktop.2 =
      match opening w.system o (w.system.start w.desktop) with
      | .ok _ _ => (1, 1)
      | .error _ _ => (1, 0) := by
  obtain ⟨made, -, -, hmade⟩ := makes_opening w.system o (w.system.start w.desktop) [.start]
  cases hopening : opening w.system o (w.system.start w.desktop) with
  | error e t =>
    rw [hopening] at hmade
    rw [run_of_refused h hmade]
    exact counts_append made [.start]
  | ok u t =>
    rw [hopening] at hmade
    rw [run_of_opened h hmade]
    have hsession := counts_session w o m (t, callsOf made ++ [.start])
    rw [counts_append] at hsession
    have hstop (calls : List Call) : counts (.stop :: calls) =
        ((counts calls).1, (counts calls).2 + 1) := by
      simp [counts]
    exact (hstop _).trans (by rw [hsession]; rfl)

/-- How often the window system is started and stopped. A program starts it exactly if it reads its
options and loads its file, and once. It stops it as often, however it ends, unless the frame clock, the
title or the window is refused, and then it never stops it. -/
theorem stopped_unless_refused (w : World τ ω) (words : List String) :
    let c := (run w words).course
    (c.starts = 0 ∨ c.starts = 1) ∧ (c.starts = 1 ↔ ∃ o m, Opens w words o m) ∧
    (c.stops = 0 ∨ c.stops = c.starts) ∧
    (c.stops = c.starts ↔ ∀ o m, Opens w words o m →
      ∃ s, opening w.system o (w.system.start w.desktop) = .ok () s) := by
  intro c
  by_cases hopens : ∃ o m, Opens w words o m
  · obtain ⟨o, m, h⟩ := hopens
    have hcounts : (c.starts, c.stops) = _ := counts_of_opens h
    have honly {o' : CommandLine.Options} {m' : Machine τ} (h' : Opens w words o' m') : o' = o :=
      Except.ok.inj (h'.parse.symm.trans h.parse)
    cases hopening : opening w.system o (w.system.start w.desktop) with
    | error e s =>
      rw [hopening] at hcounts
      obtain ⟨hstarts, hstops⟩ := Prod.mk.inj hcounts
      rw [hstarts, hstops]
      refine ⟨.inr rfl, iff_of_true rfl ⟨o, m, h⟩, .inl rfl, iff_of_false (by decide) fun hall => ?_⟩
      obtain ⟨t, ht⟩ := hall o m h
      rw [hopening] at ht
      cases ht
    | ok u s =>
      rw [hopening] at hcounts
      obtain ⟨hstarts, hstops⟩ := Prod.mk.inj hcounts
      rw [hstarts, hstops]
      refine ⟨.inr rfl, iff_of_true rfl ⟨o, m, h⟩, .inr rfl, iff_of_true rfl fun o' m' h' => ?_⟩
      rw [honly h']
      exact ⟨s, hopening⟩
  · have hnone : ∀ o m, ¬Opens w words o m := fun o m h => hopens ⟨o, m, h⟩
    have hcounts : (c.starts, c.stops) = _ := counts_of_not_opens hnone
    obtain ⟨hstarts, hstops⟩ := Prod.mk.inj hcounts
    rw [hstarts, hstops]
    exact ⟨.inl rfl, iff_of_false (by decide) hopens, .inl rfl,
      iff_of_true rfl fun o m h => absurd h (hnone o m)⟩

/-- The surroundings of a program whose files all clear the screen. -/
def clearing : World Float Sheet where
  files := fun _ => .ok ⟨.ok [0x00, 0xe0]⟩
  clock := 0
  noise := ⟨fun _ => 0, 0⟩
  polls := []
  paceWait := none
  tracing := false
  system := Sheet.system
  desktop := ⟨0, 0, fun _ _ => .blueViolet⟩

/-- A negative scale leaves the window system running. -/
theorem refused_window_unstopped :
    let r := run clearing ["-f", "r", "--scale", "-1"]
    r.outcome = .error (.window ⟨"error", "Cannot set negative sized display mode"⟩) ∧
      r.course.starts = 1 ∧ r.course.stops = 0 := by
  decide +kernel

end Program
end ChipEight
