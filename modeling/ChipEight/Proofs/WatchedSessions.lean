import ChipEight.Proofs.SessionCourse
import ChipEight.Proofs.TracedCycles
import ChipEight.Seconds

/-!
# Watched sessions

Who watches a session and how makes no difference to it. Whether the frames are recorded or written as
text, and whether the cycles are traced, the session takes the same course, and the records are all
that differs.
-/
namespace ChipEight

/-- Paces at which the clock moves on alike and that count alike. -/
structure Pace.Alike {τ ω ω' : Type} (pace : Pace τ ω) (pace' : Pace τ ω') : Prop where
  wait : pace.wait? = pace'.wait?
  calls : ∀ passes, pace.calls passes = pace'.calls passes

namespace Session
variable {τ ω ω' : Type}

/-- A session without its records and without the window system. -/
def unwatched (s : Session τ ω) : Session τ Unit :=
  { s with desktop := (), frames := #[], shown := "", log := "" }

variable {setup : Setup τ ω} {setup' : Setup τ ω'} {s : Session τ ω} {t : Session τ ω'}
variable {fit : ω → Prop} {fit' : ω' → Prop}

theorem unwatched_eq_iff : s.unwatched = t.unwatched ↔
    s.machine = t.machine ∧ s.now = t.now ∧ s.cycles = t.cycles ∧ s.polls = t.polls ∧
      s.updates = t.updates ∧ s.paces = t.paces := by
  cases s
  cases t
  simp [unwatched]

/-- Two sessions are at the same point of their course. If their viewers record frames alike, they have
recorded the same ones. -/
structure Alongside (setup : Setup τ ω) (setup' : Setup τ ω') (s : Session τ ω) (t : Session τ ω') :
    Prop where
  unwatched : s.unwatched = t.unwatched
  frames : (∀ ds, (setup.viewer.records ds).1 = (setup'.viewer.records ds).1) → s.frames = t.frames

theorem Alongside.start (m : Machine τ) (now : τ) (desktop : ω) (desktop' : ω') :
    Alongside setup setup' (start m now desktop) (start m now desktop') := ⟨rfl, fun _ => rfl⟩

theorem Alongside.polled [Add τ] (h : Alongside setup setup' s t) (poll : Poll τ) :
    Alongside setup setup' (s.polled poll) (t.polled poll) := by
  have hpolled {ω : Type} (u : Session τ ω) :
      (u.polled poll).unwatched = u.unwatched.polled poll := by
    rw [polled_eq, polled_eq]
    rfl
  constructor
  · rw [hpolled, hpolled, h.unwatched]
  · rw [polled_eq, polled_eq]
    exact h.frames

variable [Clock τ]

theorem runCycle_eq_cycleTraced (s : Session τ ω) (tracing : Bool) (keys : Keys) :
    let c := { s.machine with keys }.cycleTraced s.now tracing
    (s.runCycle tracing keys).1 = { s with machine := c.1, log := s.log ++ c.2.2 } ∧
      (s.runCycle tracing keys).2.mapError .fault = c.2.1 := by
  intro c
  simp only [c, Machine.cycleTraced_eq]
  cases tracing with
  | true => exact ⟨rfl, rfl⟩
  | false => simp [runCycle]

variable [Add τ]

theorem Alongside.turned (hpace : setup.pace.Alike setup'.pace) (h : Alongside setup setup' s t)
    (keys : Keys) (lags : Lags τ) (redraw : Bool) (log log' : String) (desktop : ω)
    (desktop' : ω') :
    Alongside setup setup' (s.turned setup keys lags redraw log desktop)
      (t.turned setup' keys lags redraw log' desktop') := by
  obtain ⟨hmachine, hnow, hcycles, hpolls, hupdates, hpaces⟩ := unwatched_eq_iff.mp h.unwatched
  constructor
  · rw [unwatched_eq_iff]
    simp only [Session.turned, hmachine, hnow, hcycles, hpolls, hupdates, hpaces, hpace.wait,
      hpace.calls, and_self]
  · intro hrecords
    simp only [Session.turned, hmachine, hnow, h.frames hrecords, hrecords]

/-- A pass of the loop does not depend on who watches it. -/
theorem Alongside.turn (h : Alongside setup setup' s t) (hkeeps : setup.Keeps fit)
    (hkeeps' : setup'.Keeps fit') (hpace : setup.pace.Alike setup'.pace) (hfit : fit s.desktop)
    (hfit' : fit' t.desktop) (keys : Keys) (lags : Lags τ) :
    Alongside setup setup' (s.turn setup keys lags).1 (t.turn setup' keys lags).1 ∧
      (s.turn setup keys lags).2 = (t.turn setup' keys lags).2 ∧
      ((s.turn setup keys lags).2 = none →
        fit (s.turn setup keys lags).1.desktop ∧ fit' (t.turn setup' keys lags).1.desktop) := by
  obtain ⟨hmachine, hnow, hcycles, hpolls, hupdates, hpaces⟩ := unwatched_eq_iff.mp h.unwatched
  rcases turn_cases hkeeps hfit keys lags with
      ⟨f, log, hs, hsturn⟩ | ⟨redraw, log, desktop, hs, hsfit, hsturn⟩ <;>
    rcases turn_cases hkeeps' hfit' keys lags with
      ⟨f', log', ht, htturn⟩ | ⟨redraw', log', desktop', ht, htfit, htturn⟩ <;>
    rw [hmachine, hnow, ht] at hs
  · obtain rfl := Except.error.inj hs
    rw [hsturn, htturn]
    refine ⟨⟨?_, h.frames⟩, rfl, nofun⟩
    rw [unwatched_eq_iff]
    simp only [hmachine, hnow, hcycles, hpolls, hupdates, hpaces, and_self]
  · cases hs
  · cases hs
  · obtain rfl := Except.ok.inj hs
    rw [hsturn, htturn]
    exact ⟨h.turned hpace keys lags _ log log' desktop desktop', rfl, fun _ => ⟨hsfit, htfit⟩⟩

theorem Alongside.run (h : Alongside setup setup' s t) (hkeeps : setup.Keeps fit)
    (hkeeps' : setup'.Keeps fit') (hpace : setup.pace.Alike setup'.pace) (hfit : fit s.desktop)
    (hfit' : fit' t.desktop) (polls : List (Poll τ)) :
    Alongside setup setup' (s.run setup polls).1 (t.run setup' polls).1 ∧
      (s.run setup polls).2 = (t.run setup' polls).2 := by
  induction polls generalizing s t with
  | nil =>
    refine ⟨⟨?_, h.frames⟩, rfl⟩
    exact congrArg (fun u : Session τ Unit => { u with polls := u.polls + 1 }) h.unwatched
  | cons poll rest ih =>
    have hpolled := h.polled poll
    cases hkeys : poll.keys with
    | error f =>
      simp only [Session.run, hkeys]
      exact ⟨hpolled, trivial⟩
    | ok keys =>
      cases hexit : keys.exit with
      | true =>
        simp only [Session.run, hkeys, hexit, if_true]
        exact ⟨hpolled, trivial⟩
      | false =>
        have hturn := hpolled.turn hkeeps hkeeps' hpace (by rwa [desktop_polled])
          (by rwa [desktop_polled]) keys poll.lags
        rcases hs : (s.polled poll).turn setup keys poll.lags with ⟨u, ending⟩
        rcases ht : (t.polled poll).turn setup' keys poll.lags with ⟨v, ending'⟩
        rw [hs, ht] at hturn
        obtain ⟨halong, hend, hfits⟩ := hturn
        obtain rfl : ending = ending' := hend
        cases ending with
        | none =>
          rw [run_cons_of_none hkeys hexit hs, run_cons_of_none hkeys hexit ht]
          exact ih halong (hfits rfl).1 (hfits rfl).2
        | some ending =>
          rw [run_cons_of_some hkeys hexit hs, run_cons_of_some hkeys hexit ht]
          exact ⟨halong, rfl⟩

/-- Watching changes nothing. Whether frames are recorded, written as text, in whatever pens, or painted
on a window, and whether cycles are traced or not, sessions with the same machine, script and pace end in
the same way with the same machine, clock and counts. Tracing cannot fail either: the cycles of a session
are traced ones, and whatever an instruction has kept fills its line. -/
theorem watching_changes_nothing (hkeeps : setup.Keeps fit) (hkeeps' : setup'.Keeps fit')
    (hpace : setup.pace.Alike setup'.pace) {desktop : ω} {desktop' : ω'} (hfit : fit desktop)
    (hfit' : fit' desktop') (m : Machine τ) (now : τ) (polls : List (Poll τ)) :
    let r := (start m now desktop).run setup polls
    let r' := (start m now desktop').run setup' polls
    (r.2 = r'.2 ∧ r.1.machine = r'.1.machine ∧ r.1.now = r'.1.now ∧ r.1.cycles = r'.1.cycles ∧
      r.1.polls = r'.1.polls ∧ r.1.updates = r'.1.updates ∧ r.1.paces = r'.1.paces) ∧
    (∀ (s : Session τ ω) (tracing : Bool) (keys : Keys),
      let c := { s.machine with keys }.cycleTraced s.now tracing
      (s.runCycle tracing keys).1 = { s with machine := c.1, log := s.log ++ c.2.2 } ∧
        (s.runCycle tracing keys).2.mapError .fault = c.2.1) ∧
    ∀ (m after : Machine τ) (address opcode : Int) (i : Instruction),
      ∃ line, Template.fill (m.kept after address opcode i) (Template.line i) = .ok line := by
  intro r r'
  have hstart : Alongside setup setup' (start m now desktop) (start m now desktop') :=
    Alongside.start m now desktop desktop'
  obtain ⟨halong, hend⟩ := hstart.run hkeeps hkeeps' hpace hfit hfit' polls
  refine ⟨⟨hend, unwatched_eq_iff.mp halong.unwatched⟩, runCycle_eq_cycleTraced, ?_⟩
  intro m after address opcode i
  obtain ⟨line, hline, -⟩ := m.fill_line after address opcode i
  exact ⟨line, hline⟩

/-- Draws a sprite, and then returns from no subroutine. -/
def drawingThenFaulting : Machine Float :=
  { Machine.initial .high ⟨fun _ => 0, 0⟩ 0 with
    memory := Memory.zeros.writeBytes programStart [0xd0, 0x05, 0x00, 0xee] }

theorem watching_changes_nothing_faulting :
    let recorder : Setup Float Unit := ⟨.recorder, .kept (some 1), false⟩
    let writer : Setup Float Unit := ⟨.text ⟨"##", ".."⟩, .kept (some 1), true⟩
    let fit : Unit → Prop := fun _ => True
    let stay : Poll Float := { wait := some 1, keys := .ok Keys.released }
    let recorded := (start drawingThenFaulting 0 ()).run recorder [stay, stay]
    let written := (start drawingThenFaulting 0 ()).run writer [stay, stay]
    recorder.Keeps fit ∧ writer.Keeps fit ∧ recorder.pace.Alike writer.pace ∧ fit () ∧
    recorded.2 = .fault .stackUnderflow ∧ written.2 = .fault .stackUnderflow ∧
    recorded.1.machine = written.1.machine ∧ recorded.1.polls = written.1.polls ∧
    recorded.1.paces = written.1.paces ∧ recorded.1.frames ≠ written.1.frames ∧
    recorded.1.log ≠ written.1.log := by
  intro recorder writer fit stay recorded written
  have hrecorder : recorder.Keeps fit := ⟨trivial, trivial⟩
  have hwriter : writer.Keeps fit := ⟨trivial, trivial⟩
  have hpace : recorder.pace.Alike writer.pace := ⟨rfl, fun _ => rfl⟩
  have hfit : fit () := trivial
  obtain ⟨⟨hend, hmachine, -, -, hpolls, -, hpaces⟩, -⟩ :=
    watching_changes_nothing hrecorder hwriter hpace hfit hfit drawingThenFaulting 0 [stay, stay]
  have hfault : recorded.2 = .fault .stackUnderflow := by decide +kernel
  have hframes : recorded.1.frames.size ≠ written.1.frames.size := by decide +kernel
  have hlog : recorded.1.log ≠ written.1.log := by decide +kernel
  exact ⟨hrecorder, hwriter, hpace, trivial, hfault, hend ▸ hfault, hmachine, hpolls, hpaces,
    fun h => hframes (congrArg Array.size h), hlog⟩

end Session

end ChipEight
