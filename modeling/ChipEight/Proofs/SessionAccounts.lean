import ChipEight.Proofs.Redraws
import ChipEight.Proofs.SessionCourse

/-!
# The accounts of a session

A session is a run of rounds, each with the readings of the clock that its poll lets it have. After `n`
rounds without a fault it has made one poll more than cycles, let the countdowns look at the clock and
kept the pace once a cycle, and it has shown the displays right after the cycles that drew. That is so
when the user leaves and also when the next cycle faults, which then has its keys installed and nothing
shown.
-/
namespace ChipEight
open Machine

/-- A poll at which keys are found. -/
structure Look (τ : Type) where
  wait : Option τ
  keys : Keys
  lags : Lags τ := {}

def Look.poll {τ : Type} (l : Look τ) : Poll τ := ⟨l.wait, .ok l.keys, l.lags⟩

variable {τ ω : Type} [Add τ]

/-- The reading of the clock before poll `n`. -/
def clockAt (pace : Pace τ ω) (now : τ) (looks : ℕ → Look τ) : ℕ → τ
  | 0 => now
  | n + 1 =>
    elapsed ((looks n).lags.soundNow (elapsed (clockAt pace now looks n) (looks n).wait)) pace.wait?

/-- The rounds of a session whose poll `k` is `looks k`. -/
def sessionRounds (pace : Pace τ ω) (now : τ) (looks : ℕ → Look τ) (n : ℕ) : Round τ :=
  let l := looks n
  let reading := elapsed (clockAt pace now looks n) l.wait
  ⟨l.keys, l.lags.cycleNow reading, l.lags.delayNow reading, l.lags.soundNow reading⟩

namespace Session
variable [Clock τ] {setup : Setup τ ω} {m : Machine τ} {now : τ} {desktop : ω}
variable {looks : ℕ → Look τ} {polls : List (Poll τ)} {n : ℕ} {s t : Session τ ω} {fit : ω → Prop}

/-- What a session has come to when it comes to poll `n`. -/
structure Accounts (setup : Setup τ ω) (m : Machine τ) (now : τ) (looks : ℕ → Look τ) (n : ℕ)
    (s : Session τ ω) : Prop where
  machine : s.machine = m.afterRounds (sessionRounds setup.pace now looks) n
  clock : s.now = clockAt setup.pace now looks n
  cycles : s.cycles = n
  polls : s.polls = n
  updates : s.updates = n
  paces : s.paces = setup.pace.calls n
  shown : HasShown setup s (m.drawn (sessionRounds setup.pace now looks) n)

namespace Accounts

theorem zero (desktop : ω) : Accounts setup m now looks 0 (start m now desktop) where
  machine := rfl
  clock := rfl
  cycles := rfl
  polls := rfl
  updates := rfl
  paces := by cases setup.pace <;> rfl
  shown := (Viewer.records_nil _).symm

variable (h : Accounts setup m now looks n s)
include h

theorem now_polled : (s.polled (looks n).poll).now =
    elapsed (clockAt setup.pace now looks n) (looks n).wait := by
  rw [polled_eq, h.clock]
  rfl

theorem cycle_polled :
    { (s.polled (looks n).poll).machine with keys := (looks n).keys }.cycle
        ((looks n).lags.cycleNow (s.polled (looks n).poll).now) =
      m.roundCycle (sessionRounds setup.pace now looks) n := by
  rw [h.now_polled, polled_eq, roundCycle, installed, h.machine]
  rfl

/-- A round without a fault leads from poll to poll. -/
theorem succ {redraw : Bool} {log : String} {desktop : ω}
    (hok : (m.roundCycle (sessionRounds setup.pace now looks) n).2 = .ok redraw) :
    Accounts setup m now looks (n + 1)
      ((s.polled (looks n).poll).turned setup (looks n).keys (looks n).lags redraw log desktop) where
  machine := by
    rw [turned, h.cycle_polled, h.now_polled]
    rfl
  clock := by
    rw [turned, h.now_polled]
    rfl
  cycles := by
    rw [turned, polled_eq, ← h.cycles]
  polls := by
    rw [turned, polled_eq, ← h.polls]
  updates := by
    rw [turned, polled_eq, ← h.updates]
  paces := by
    rw [Pace.calls_succ, ← h.paces, turned, polled_eq]
  shown := by
    have hshows := showsBetween_turned setup (s.polled (looks n).poll) (looks n).keys (looks n).lags
      redraw log desktop
    simp only [h.cycle_polled, redraw_iff hok] at hshows
    rw [drawn_succ]
    exact ((hasShown_polled s _).mpr h.shown).append hshows

end Accounts

/-- At the first `n` polls of a script the user stays, and poll `k` is `looks k`. -/
def Stays (polls : List (Poll τ)) (looks : ℕ → Look τ) (n : ℕ) : Prop :=
  ∀ k < n, polls[k]? = some (looks k).poll ∧ (looks k).keys.exit = false

/-- A script in which the user stays and no cycle faults leads to poll `n`. -/
theorem exists_accounts (hkeeps : setup.Keeps fit) (hfit : fit desktop)
    (hstay : Stays polls looks n)
    (hok : ∀ k < n, ∃ redraw,
      (m.roundCycle (sessionRounds setup.pace now looks) k).2 = .ok redraw) :
    ∃ s, (start m now desktop).atPoll? setup polls n = some s ∧ fit s.desktop ∧
      Accounts setup m now looks n s := by
  induction n with
  | zero => exact ⟨_, rfl, hfit, .zero desktop⟩
  | succ n ih =>
    obtain ⟨s, hs, hfits, hacc⟩ := ih (fun k hk => hstay k (by omega)) fun k hk => hok k (by omega)
    obtain ⟨hpoll, hexit⟩ := hstay n (by omega)
    obtain ⟨redraw, hredraw⟩ := hok n (by omega)
    have hpolled : fit (s.polled (looks n).poll).desktop := by rwa [desktop_polled]
    rcases turn_cases hkeeps hpolled (looks n).keys (looks n).lags with
      ⟨f, log, hfault, -⟩ | ⟨redraw', log, desktop', hok', hfit', hturn⟩
    · rw [hacc.cycle_polled, hredraw] at hfault
      cases hfault
    · have hpass := pass?_eq_some_iff.mpr ⟨(looks n).keys, rfl, hexit, hturn⟩
      exact ⟨_, atPoll?_succ_eq_some_iff.mpr ⟨s, _, hs, hpoll, hpass⟩, hfit',
        hacc.succ (hacc.cycle_polled ▸ hok')⟩

/-- A poll at which the user leaves. -/
def Leaves (poll : Poll τ) : Prop := ∃ keys, poll.keys = .ok keys ∧ keys.exit = true

/-- Leaving changes nothing but the clock and the number of polls, also at the end of a script. -/
theorem run_of_leaves (setup : Setup τ ω)
    (hleave : ∀ poll, polls.head? = some poll → Leaves poll) (s : Session τ ω) :
    ∃ now, s.run setup polls = ({ s with polls := s.polls + 1, now }, .left) := by
  cases polls with
  | nil => exact ⟨s.now, rfl⟩
  | cons poll rest =>
    obtain ⟨keys, hkeys, hexit⟩ := hleave poll rfl
    simp only [run, hkeys, hexit, if_true, wait_eq]
    exact ⟨_, rfl⟩

theorem Accounts.run_of_fault {f : Fault} (h : Accounts setup m now looks n s)
    (hkeeps : setup.Keeps fit) (hfit : fit s.desktop) (hstay : (looks n).keys.exit = false)
    (hfault : (m.roundCycle (sessionRounds setup.pace now looks) n).2 = .error f)
    (rest : List (Poll τ)) :
    ∃ last log, s.run setup ((looks n).poll :: rest) =
      ({ s with
          polls := s.polls + 1
          now := last
          machine := (m.roundCycle (sessionRounds setup.pace now looks) n).1
          log }, .fault f) := by
  have hpolled : fit (s.polled (looks n).poll).desktop := by rwa [desktop_polled]
  rcases turn_cases hkeeps hpolled (looks n).keys (looks n).lags with
    ⟨f', log, herror, hturn⟩ | ⟨_, _, _, hok, -⟩
  · rw [h.cycle_polled, hfault] at herror
    obtain rfl := Except.error.inj herror
    refine ⟨(looks n).lags.cycleNow (s.polled (looks n).poll).now, log,
      (run_cons_of_some rfl hstay hturn rest).trans ?_⟩
    rw [h.cycle_polled, polled_eq]
  · rw [h.cycle_polled, hfault] at hok
    cases hok

section Endings
variable (hkeeps : setup.Keeps fit) (hfit : fit desktop)
variable (hok : ∀ k < n, ∃ redraw,
  (m.roundCycle (sessionRounds setup.pace now looks) k).2 = .ok redraw)
include hkeeps hfit hok

theorem exists_run_eq_left (hstay : Stays polls looks n)
    (hleave : ∀ poll, polls[n]? = some poll → Leaves poll) :
    ∃ s last, Accounts setup m now looks n s ∧
      (start m now desktop).run setup polls =
        ({ s with polls := s.polls + 1, now := last }, .left) := by
  obtain ⟨s, hs, -, hacc⟩ := exists_accounts hkeeps hfit hstay hok
  have hhead : ∀ poll, (polls.drop n).head? = some poll → Leaves poll := by
    rw [List.head?_drop]
    exact hleave
  obtain ⟨last, hlast⟩ := run_of_leaves setup hhead s
  exact ⟨s, last, hacc, (run_of_atPoll? hs).trans hlast⟩

theorem exists_run_eq_fault {f : Fault} (hstay : Stays polls looks (n + 1))
    (hfault : (m.roundCycle (sessionRounds setup.pace now looks) n).2 = .error f) :
    ∃ s last log, Accounts setup m now looks n s ∧
      (start m now desktop).run setup polls =
        ({ s with
            polls := s.polls + 1
            now := last
            machine := (m.roundCycle (sessionRounds setup.pace now looks) n).1
            log }, .fault f) := by
  obtain ⟨s, hs, hfits, hacc⟩ := exists_accounts hkeeps hfit (fun k hk => hstay k (by omega)) hok
  obtain ⟨hpoll, hexit⟩ := hstay n (Nat.lt_succ_self n)
  have hdrop : polls.drop n = (looks n).poll :: polls.drop (n + 1) := by
    rw [List.drop_eq_getElem?_toList_append, hpoll]
    rfl
  obtain ⟨last, log, hrun⟩ := hacc.run_of_fault hkeeps hfits hexit hfault (polls.drop (n + 1))
  exact ⟨s, last, log, hacc, by rw [run_of_atPoll? hs, hdrop, hrun]⟩

end Endings

/-- The accounts of a session. The user stays at the first `n` polls, and the first `n` cycles end
without a fault. If the user leaves at poll `n` or the script ends there, the session returns `n` after
`n + 1` polls; it has let the countdowns look at the clock `n` times and kept the pace as often. If the
user stays at poll `n` too and its cycle faults, the session ends with that fault after as many polls,
right after the cycle. Either way what has been shown are the displays after the cycles that drew. -/
theorem run_accounts (hkeeps : setup.Keeps fit) (hfit : fit desktop) (hstay : Stays polls looks n)
    (hok : ∀ k < n, ∃ redraw,
      (m.roundCycle (sessionRounds setup.pace now looks) k).2 = .ok redraw) :
    let rounds := sessionRounds setup.pace now looks
    let r := (start m now desktop).run setup polls
    ((∀ poll, polls[n]? = some poll → Leaves poll) →
      r.2 = .left ∧ r.1.cycles = n ∧ r.1.polls = n + 1 ∧ r.1.updates = n ∧
      r.1.paces = setup.pace.calls n ∧ r.1.machine = m.afterRounds rounds n ∧
      (n = 0 → r.1.machine.keys = m.keys) ∧
      (∀ k, n = k + 1 → r.1.machine.keys = (looks k).keys) ∧
      HasShown setup r.1 (m.drawn rounds n)) ∧
    ∀ f, Stays polls looks (n + 1) → (m.roundCycle rounds n).2 = .error f →
      r.2 = .fault f ∧ r.1.cycles = n ∧ r.1.polls = n + 1 ∧ r.1.updates = n ∧
      r.1.paces = setup.pace.calls n ∧ r.1.machine = (m.roundCycle rounds n).1 ∧
      r.1.machine.keys = (looks n).keys ∧ HasShown setup r.1 (m.drawn rounds n) := by
  intro rounds r
  constructor
  · intro hleave
    obtain ⟨s, last, hacc, hrun⟩ := exists_run_eq_left hkeeps hfit hok hstay hleave
    have hr : r = _ := hrun
    rw [hr]
    refine ⟨rfl, hacc.cycles, congrArg (· + 1) hacc.polls, hacc.updates, hacc.paces, hacc.machine,
      ?_, ?_, hacc.shown⟩
    · rintro rfl
      rw [hacc.machine]
      rfl
    · rintro k rfl
      rw [hacc.machine, afterRounds_succ]
      exact keys_cycle _ _
  · intro f hstay' hfault
    obtain ⟨s, last, log, hacc, hrun⟩ := exists_run_eq_fault hkeeps hfit hok hstay' hfault
    have hr : r = _ := hrun
    rw [hr]
    exact ⟨rfl, hacc.cycles, congrArg (· + 1) hacc.polls, hacc.updates, hacc.paces, rfl,
      keys_cycle _ _, hacc.shown⟩

/-- Draws the first byte of its program, and then comes to an opcode that stands for nothing. Both of its
countdowns are running. -/
def faulting : Machine ℚ :=
  { Machine.initial .low ⟨fun _ => 0, 0⟩ 0 with
    memory := Memory.zeros.writeBytes programStart [0xd0, 0x01, 0xff, 0xff]
    index := programStart
    delay := Countdown.load 9 0
    sound := Countdown.load 5 0 }

theorem run_accounts_faulting :
    let setup : Setup ℚ Unit := ⟨.recorder, .kept (some 1), false⟩
    let fit : Unit → Prop := fun _ => True
    let pressed : Keys := ⟨Vector.replicate 16 true, false⟩
    let look : Look ℚ := { wait := some 1, keys := pressed, lags := { sound := some 1 } }
    let leave : Poll ℚ := { wait := none, keys := .ok { Keys.released with exit := true } }
    let left := (start faulting 0 ()).run setup [look.poll, leave]
    let failed := (start faulting 0 ()).run setup [look.poll, look.poll]
    setup.Keeps fit ∧ fit () ∧ Stays [look.poll, leave] (fun _ => look) 1 ∧ Leaves leave ∧
    Stays [look.poll, look.poll] (fun _ => look) 2 ∧
    left.2 = .left ∧ left.1.cycles = 1 ∧ left.1.polls = 2 ∧ left.1.updates = 1 ∧
    left.1.machine.keys = pressed ∧ left.1.frames.size = 1 ∧
    left.1.machine.delay = ⟨8, 1⟩ ∧ left.1.machine.sound = ⟨4, 2⟩ ∧
    failed.2 = .fault (.unsupportedInstruction 0xffff 0x202) ∧ failed.1.cycles = 1 ∧
    failed.1.polls = 2 ∧ failed.1.updates = 1 ∧ failed.1.paces = 1 ∧ failed.1.frames.size = 1 := by
  intro setup fit pressed look leave left failed
  have hkeeps : setup.Keeps fit := ⟨trivial, trivial⟩
  have hstay : Stays [look.poll, leave] (fun _ => look) 1 := by
    intro k hk
    interval_cases k
    exact ⟨rfl, rfl⟩
  have hstays : Stays [look.poll, look.poll] (fun _ => look) 2 := by
    intro k hk
    interval_cases k <;> exact ⟨rfl, rfl⟩
  have hleave : Leaves leave := ⟨_, rfl, rfl⟩
  let rounds : ℕ → Round ℚ := sessionRounds setup.pace 0 fun _ => look
  have hdraws : (faulting.roundCycle rounds 0).2 = .ok true := by decide +kernel
  have hfails : (faulting.roundCycle rounds 1).2 = .error (.unsupportedInstruction 0xffff 0x202) := by
    decide +kernel
  have hdrawn : (faulting.drawn rounds 1).length = 1 := by decide +kernel
  -- the delay has looked at the clock at 1 and the sound at 2
  have hdelay : (faulting.afterRounds rounds 1).delay = ⟨8, 1⟩ := by decide +kernel
  have hsound : (faulting.afterRounds rounds 1).sound = ⟨4, 2⟩ := by decide +kernel
  have hok : ∀ k < 1, ∃ redraw, (faulting.roundCycle rounds k).2 = .ok redraw := by
    intro k hk
    interval_cases k
    exact ⟨true, hdraws⟩
  have hsize {r : Session ℚ Unit} (h : HasShown setup r (faulting.drawn rounds 1)) :
      r.frames.size = 1 := by
    rw [(Prod.mk.inj h).1]
    exact hdrawn
  obtain ⟨hend, hcycles, hpolls, hupdates, -, hmachine, -, hkeys, hframes⟩ :=
    (run_accounts hkeeps trivial hstay hok).1 (by rintro poll ⟨⟩; exact hleave)
  obtain ⟨hend', hcycles', hpolls', hupdates', hpaces', -, -, hframes'⟩ :=
    (run_accounts hkeeps trivial (fun k hk => hstays k (by omega)) hok).2 _ hstays hfails
  exact ⟨hkeeps, trivial, hstay, hleave, hstays, hend, hcycles, hpolls, hupdates, hkeys 0 rfl,
    hsize hframes, (congrArg Machine.delay hmachine).trans hdelay,
    (congrArg Machine.sound hmachine).trans hsound, hend', hcycles', hpolls', hupdates', hpaces',
    hsize hframes'⟩

end Session

end ChipEight
