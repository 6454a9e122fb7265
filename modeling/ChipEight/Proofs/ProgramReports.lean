import ChipEight.Host.Directory
import ChipEight.Proofs.LoadAttempts
import ChipEight.Proofs.PressedKeys
import ChipEight.Proofs.SessionAccounts
import ChipEight.Proofs.WindowSessions

/-!
# What the program reports

The program either ends before the window system is started, with nothing seen, shown or counted, or it
holds a session with its file loaded and with the usual keyboard. The rounds of that session are known
before it begins: there is one for every look at the keyboard up to the one at which the user leaves. If
none of their cycles faults, the program runs them all; otherwise it ends with the first fault, and its
text shows the machine that this cycle left.
-/
namespace ChipEight

namespace World
variable {τ ω : Type} (w : World τ ω)

/-- What look `n` at the usual keyboard finds, and how the clock moves around it. -/
def looks (n : ℕ) : Look τ :=
  w.polls[n]?.elim { wait := none, keys := .released } fun p =>
    { wait := p.wait, keys := Keyboard.usual.keys p.held p.events, lags := p.lags }

/-- At how many looks at the usual keyboard the user stays before leaving. -/
def stays : ℕ := w.polls.findIdx fun p => (Keyboard.usual.keys p.held p.events).exit

/-- A session that records its frames and is kept at the pace of the program. -/
def recording : Setup τ Unit := ⟨.recorder, .kept w.paceWait, w.tracing⟩

/-- The session with that setup and the usual keyboard, and how it ends. -/
def recorded [Clock τ] [Add τ] (m : Machine τ) : Session τ Unit × Ending :=
  (Session.start m w.clock ()).run w.recording (Keyboard.usual.script w.polls)

def rounds [Add τ] : ℕ → Round τ := sessionRounds w.recording.pace w.clock w.looks

theorem keeps_recording : w.recording.Keeps fun _ => True := ⟨trivial, trivial⟩

theorem getElem?_script (n : ℕ) :
    (Keyboard.usual.script w.polls)[n]? = w.polls[n]?.map fun _ => (w.looks n).poll := by
  rw [Keyboard.script, List.getElem?_map]
  cases h : w.polls[n]? with
  | none => rfl
  | some p => simp [looks, h, Look.poll, Keyboard.poll_usual]

theorem stays_script {n : ℕ} (hn : n ≤ w.stays) :
    Session.Stays (Keyboard.usual.script w.polls) w.looks n := by
  intro k hk
  have hstay : k < w.stays := Nat.lt_of_lt_of_le hk hn
  have hlength : k < w.polls.length := Nat.lt_of_lt_of_le hstay List.findIdx_le_length
  have hexit := List.not_of_lt_findIdx hstay
  rw [getElem?_script, List.getElem?_eq_getElem hlength]
  refine ⟨rfl, ?_⟩
  rw [looks, List.getElem?_eq_getElem hlength]
  simpa using hexit

theorem leaves_script {poll : Poll τ}
    (hpoll : (Keyboard.usual.script w.polls)[w.stays]? = some poll) : Session.Leaves poll := by
  rw [getElem?_script, Option.map_eq_some_iff] at hpoll
  obtain ⟨p, hp, rfl⟩ := hpoll
  refine ⟨_, rfl, ?_⟩
  obtain ⟨hlength, rfl⟩ := List.getElem?_eq_some_iff.mp hp
  rw [looks, hp]
  exact List.findIdx_getElem (w := hlength)

variable [Clock τ] [Add τ] {m : Machine τ}

/-- A session that has ended after `n` completed rounds. -/
structure EndedAfter (m : Machine τ) (n : ℕ) (s : Session τ Unit) : Prop where
  cycles : s.cycles = n
  polls : s.polls = n + 1
  paces : s.paces = n
  frames : s.frames = (m.drawn w.rounds n).toArray

variable {w}

theorem EndedAfter.of_accounts {n : ℕ} {s t : Session τ Unit}
    (h : Session.Accounts w.recording m w.clock w.looks n s) (hcycles : t.cycles = s.cycles)
    (hpolls : t.polls = s.polls + 1) (hpaces : t.paces = s.paces) (hframes : t.frames = s.frames) :
    w.EndedAfter m n t where
  cycles := hcycles.trans h.cycles
  polls := hpolls.trans (congrArg (· + 1) h.polls)
  paces := hpaces.trans h.paces
  frames := hframes.trans (Prod.mk.inj h.shown).1

theorem recorded_of_completes (hall : ∀ k < w.stays, m.Completes w.rounds k) :
    w.EndedAfter m w.stays (w.recorded m).1 ∧ (w.recorded m).2 = .left ∧
      (w.recorded m).1.machine = m.afterRounds w.rounds w.stays := by
  obtain ⟨s, last, hacc, hrun⟩ := Session.exists_run_eq_left w.keeps_recording trivial hall
    (w.stays_script le_rfl) fun _ hpoll => w.leaves_script hpoll
  have hrecorded : w.recorded m = _ := hrun
  rw [hrecorded]
  exact ⟨.of_accounts hacc rfl rfl rfl rfl, rfl, hacc.machine⟩

theorem recorded_of_fault {k : ℕ} {f : Fault} (hk : k < w.stays)
    (hok : ∀ j < k, m.Completes w.rounds j) (hfault : (m.roundCycle w.rounds k).2 = .error f) :
    w.EndedAfter m k (w.recorded m).1 ∧ (w.recorded m).2 = .fault f ∧
      (w.recorded m).1.machine = (m.roundCycle w.rounds k).1 := by
  obtain ⟨s, last, log, hacc, hrun⟩ := Session.exists_run_eq_fault w.keeps_recording trivial hok
    (w.stays_script hk) hfault
  have hrecorded : w.recorded m = _ := hrun
  rw [hrecorded]
  exact ⟨.of_accounts hacc rfl rfl rfl rfl, rfl, rfl⟩

theorem exists_endedAfter (w : World τ ω) (m : Machine τ) :
    ∃ n, w.EndedAfter m n (w.recorded m).1 := by
  rcases m.completes_or_first_fault w.rounds w.stays with hall | ⟨k, hk, hok, f, hfault⟩
  · exact ⟨_, (recorded_of_completes hall).1⟩
  · exact ⟨k, (recorded_of_fault hk hok hfault).1⟩

end World

namespace Machine
variable {τ : Type} {r : Resolution} {noise : Noise} {now : τ} {program : List Byte}

/-- A machine that has just been switched on, with a program where programs start. -/
def holding (r : Resolution) (noise : Noise) (now : τ) (program : List Byte) : Machine τ :=
  { Machine.initial r noise now with memory := Memory.initial.writeBytes programStart program }

theorem loadFile_initial_of_le (h : program.length ≤ 3584) :
    (Machine.initial r noise now).loadFile (.ok ⟨.ok program⟩) =
      (holding r noise now program, .ok ()) := by
  have hfit : programStart + program.length ≤ memorySize := by
    simp only [programStart, memorySize]
    omega
  have hplace : (Machine.initial r noise now).memory.place programStart program =
      Memory.initial.writeBytes programStart program :=
    Memory.place_eq_writeBytes Memory.size_initial (by decide) (by decide) hfit
  rw [loadFile_of_le hfit, hplace]
  rfl

theorem loadFile_initial_of_lt (h : 3584 < program.length) :
    (Machine.initial r noise now).loadFile (.ok ⟨.ok program⟩) =
      (Machine.initial r noise now,
        .error (.fault (.programTooLarge program.length programStart))) := by
  refine loadFile_of_lt ?_
  simp only [programStart, memorySize]
  omega

theorem read_holding (h : program.length ≤ 3584) {k : ℕ} (hk : k < program.length) :
    (holding r noise now program).memory.read (programStart + k) = program[k] := by
  have hlast : IsGreatest (Memory.writers programStart program.length (programStart + k)) k := by
    refine ⟨⟨hk, rfl⟩, fun i hi => ?_⟩
    obtain ⟨hi, hreach⟩ := hi
    simp only [programStart, memorySize] at hreach
    omega
  have hread := Memory.read_writeBytes_of_isGreatest hlast Memory.initial
  rw [List.getElem?_eq_getElem hk] at hread
  exact (Option.some.inj hread).symm

theorem isAnnounced_of_cycle {m : Machine τ} {f : Fault} (h : (m.cycle now).2 = .error f) :
    f.isAnnounced = true := by
  rcases cycle_error_iff.mp h with ⟨-, rfl⟩ | ⟨-, -, rfl⟩ | ⟨-, -, rfl⟩ <;> rfl

end Machine

namespace Program
variable {τ ω : Type} {w : World τ ω} {words : List String} {o : CommandLine.Options}
variable {file : String} {m : Machine τ} {program : List Byte} {ready fit : ω → Prop}

/-- The window system has been left alone, and nothing has been looked at, shown or printed. -/
structure Report.Idle (w : World τ ω) (r : Report τ ω) : Prop where
  desktop : r.course.desktop = (w.desktop, [])
  polls : r.course.polls = 0
  frames : r.course.frames = #[]
  stdout : r.course.stdout = ""
  stderr : r.course.stderr = ""

variable [Clock τ] [Add τ]

/-- The report of a program that has held its session with a machine. -/
structure Report.Held (w : World τ ω) (o : CommandLine.Options) (m : Machine τ) (r : Report τ ω) :
    Prop where
  /-- The window system is started first and stopped last, and both happens once. -/
  first : r.course.desktop.2.getLast? = some .start
  last : r.course.desktop.2.head? = some .stop
  starts : r.course.starts = 1
  stops : r.course.stops = 1
  captions : r.course.captions = [o.file.elim "" lastName]
  windows : r.course.windows = [windowSize o]
  /-- The session takes the course of one that only records its frames. -/
  machine : r.course.machine = some (w.recorded m).1.machine
  frames : r.course.frames = (w.recorded m).1.frames
  polls : r.course.polls = (w.recorded m).1.polls
  speeds : r.course.speeds = List.replicate (w.recorded m).1.cycles o.speed
  polls_eq : r.course.polls = r.course.speeds.length + 1
  /-- The window is cleared, and then all frames are painted one after the other. -/
  paintings : r.course.desktop.2.reverse.filterMap painting? =
    .fill (screen o).background :: r.course.frames.toList.flatMap (screen o).requests
  finished_iff : r.outcome = .ok () ↔ ∀ k < w.stays, m.Completes w.rounds k
  of_completes : (∀ k < w.stays, m.Completes w.rounds k) →
    r.course.speeds.length = w.stays ∧ r.course.frames = (m.drawn w.rounds w.stays).toArray ∧
    r.course.machine = some (m.afterRounds w.rounds w.stays)
  of_fault : ∀ k < w.stays, ∀ f, (∀ j < k, m.Completes w.rounds j) →
    (m.roundCycle w.rounds k).2 = .error f →
    r.outcome = .error (.text ("********** THE EMULATOR CRASHED: " ++ f.message ++ "\n" ++
      (m.roundCycle w.rounds k).1.text)) ∧
    r.course.speeds.length = k ∧ r.course.frames = (m.drawn w.rounds k).toArray ∧
    r.course.machine = some (m.roundCycle w.rounds k).1

/-- The program comes to its end exactly if no round faults before the user leaves. -/
theorem outcome_recorded_eq_ok_iff :
    outcome (w.recorded m).1.machine (w.recorded m).2 = .ok () ↔
      ∀ k < w.stays, m.Completes w.rounds k := by
  constructor
  · intro hfinished
    rcases m.completes_or_first_fault w.rounds w.stays with hall | ⟨k, hk, hok, f, hfault⟩
    · exact hall
    · rw [(World.recorded_of_fault hk hok hfault).2.1, outcome] at hfinished
      split at hfinished <;> cases hfinished
  · intro hall
    rw [(World.recorded_of_completes hall).2.1]
    rfl

section Served
variable (hserves : Serves w.system o ready fit) {scale : Int}
variable (hscale : o.scale = some scale) (hpos : 0 < scale)
include hserves hscale hpos

/-- The session in a window takes the course of one that only records its frames. -/
theorem alongside_recorded (m : Machine τ) {desktop : ω} (hfit : fit desktop) (calls : List Call) :
    Session.Alongside (setup w o) w.recording (session w o m (desktop, calls)).1 (w.recorded m).1 ∧
      (session w o m (desktop, calls)).2 = (w.recorded m).2 := by
  have hstart : Session.Alongside (setup w o) w.recording (.start m w.clock (desktop, calls))
      (.start m w.clock ()) := .start m w.clock (desktop, calls) ()
  exact hstart.run (keeps_setup hserves hscale hpos) w.keeps_recording ⟨rfl, fun _ => rfl⟩ hfit
    trivial _

/-- A program whose window system serves it reports its session. -/
theorem held_of_opens (h : Opens w words o m) : (run w words).Held w o m := by
  obtain ⟨desktop, hopening, hfit⟩ := exists_opening hserves
  have hrun := run_of_opened h hopening
  have hasked := asked_session hserves hscale hpos hfit (.opened o) m
  obtain ⟨halong, hending⟩ := alongside_recorded hserves hscale hpos m hfit
    (callsOf (openingRequests o) ++ [.start])
  obtain ⟨hmachine, -, -, hpolls, -, hpaces⟩ := Session.unwatched_eq_iff.mp halong.unwatched
  have hframes := halong.frames fun _ => rfl
  simp only [hmachine, hending, hpolls, hframes] at hrun
  simp only [hpaces, hframes] at hasked
  obtain ⟨n, hended⟩ := World.exists_endedAfter w m
  have hticks : (w.recorded m).1.paces = (w.recorded m).1.cycles :=
    hended.paces.trans hended.cycles.symm
  have hspeeds := congrArg List.length hasked.speeds
  rw [List.length_replicate] at hspeeds
  obtain ⟨hstarts, hstops⟩ := Prod.mk.inj hasked.counts
  rw [hrun]
  exact {
    first := (List.getLast?_cons_of_ne_nil hasked.ne_nil).trans hasked.first
    last := rfl
    starts := (List.count_cons_of_ne (by decide)).trans hstarts
    stops := List.count_cons_self.trans (congrArg (· + 1) hstops)
    captions := hasked.captions
    windows := hasked.windows
    machine := rfl
    frames := rfl
    polls := rfl
    speeds := hticks ▸ hasked.speeds
    polls_eq := hended.polls.trans (congrArg (· + 1) (hended.paces.symm.trans hspeeds.symm))
    paintings := by
      refine (congrArg (List.filterMap painting?) List.reverse_cons).trans ?_
      rw [List.filterMap_append, hasked.paintings]
      exact List.append_nil _
    finished_iff := outcome_recorded_eq_ok_iff
    of_completes := fun hall => by
      obtain ⟨hend, -, hmachine⟩ := World.recorded_of_completes hall
      exact ⟨hspeeds.trans hend.paces, hend.frames, congrArg some hmachine⟩
    of_fault := fun k hk f hok hfault => by
      obtain ⟨hend, hf, hmachine⟩ := World.recorded_of_fault hk hok hfault
      refine ⟨?_, hspeeds.trans hend.paces, hend.frames, congrArg some hmachine⟩
      simp only [hf, outcome, hmachine, Machine.isAnnounced_of_cycle hfault, if_true] }

end Served

/-- A file that cannot be loaded leaves the program idle. -/
theorem idle_of_unloaded (hparse : CommandLine.parse words = .ok o)
    {opened : Except OpenError OpenFile} (hopen : w.files.open? o.file = opened) {e : LoadError}
    (hload : (Machine.initial (resolution o) w.noise w.clock).loadFile opened = (m, .error e)) :
    (run w words).Idle w ∧ (run w words).outcome = .error (unloaded o.file e) := by
  rw [run_of_unloaded hparse (hopen ▸ hload)]
  exact ⟨⟨rfl, rfl, rfl, rfl, rfl⟩, rfl⟩

theorem told_of_unloaded (hparse : CommandLine.parse words = .ok o) (hfile : o.file = some file)
    {opened : Except OpenError OpenFile} (hopen : w.files file = opened) {e : LoadError}
    (hload : (Machine.initial (resolution o) w.noise w.clock).loadFile opened = (m, .error e))
    (hexpected : e.isExpected = true) :
    (run w words).Idle w ∧
      (run w words).outcome = .error (.text ("Cannot load " ++ file ++ ": " ++ e.message)) := by
  have hopen' : w.files.open? o.file = opened := by rw [hfile, ← hopen]; rfl
  obtain ⟨hidle, houtcome⟩ := idle_of_unloaded hparse hopen' hload
  refine ⟨hidle, houtcome.trans ?_⟩
  rw [unloaded, if_pos hexpected, hfile]
  rfl

/-- What the program reports, if it can read its options. If opening the file that they name fails with
anything but an error of the operating system, it ends with that and without a text. If the operating
system refuses to open or to read the file, or the file is too long, its text says so. In all these cases
the window system is left alone. Otherwise the program holds its session with the bytes of the file where
programs start, if it has a scale that is not zero and a window system that serves it. -/
theorem run_reports (hparse : CommandLine.parse words = .ok o) (w : World τ ω) :
    let r := run w words
    (∀ e, w.files.open? o.file = .error e → (∀ s, e ≠ .system s) →
      r.Idle w ∧ r.outcome = .error (.load (.unopened e))) ∧
    ∀ file, o.file = some file →
      (∀ e, w.files file = .error (.system e) ∨ w.files file = .ok ⟨.error e⟩ →
        r.Idle w ∧ r.outcome = .error (.text ("Cannot load " ++ file ++ ": " ++ e.message))) ∧
      ∀ program, w.files file = .ok ⟨.ok program⟩ →
        (3584 < program.length →
          r.Idle w ∧ r.outcome = .error (.text ("Cannot load " ++ file ++ ": " ++
            (Fault.programTooLarge program.length programStart).message))) ∧
        (program.length ≤ 3584 → ∀ scale, 1 ≤ scale → o.scale = some scale →
          ∀ ready fit, Serves w.system o ready fit →
            r.Held w o (.holding (resolution o) w.noise w.clock program)) := by
  intro r
  constructor
  · intro e he hsystem
    obtain ⟨hidle, houtcome⟩ := idle_of_unloaded (w := w) hparse he rfl
    refine ⟨hidle, houtcome.trans ?_⟩
    cases e with
    | system s => exact absurd rfl (hsystem s)
    | nulByte => rfl
    | noPath => rfl
  refine fun file hfile => ⟨?_, fun program hprogram => ⟨fun hlong => ?_, ?_⟩⟩
  · rintro e (he | he)
    · exact told_of_unloaded hparse hfile he rfl rfl
    · exact told_of_unloaded hparse hfile he rfl rfl
  · exact told_of_unloaded hparse hfile hprogram (Machine.loadFile_initial_of_lt hlong) rfl
  · intro hfits scale hpos hscale ready fit hserves
    refine held_of_opens hserves hscale hpos ⟨hparse, ?_⟩
    rw [hfile]
    exact (congrArg _ hprogram).trans (Machine.loadFile_initial_of_le hfits)

/-- The bytes of a program that draws a row of a glyph and then returns from a subroutine that was never
called. -/
def strayReturn : List Byte := [0xd0, 0x01, 0x00, 0xee]

omit [Add τ] in
theorem rounds_strayReturn {rounds : ℕ → Round τ} (hpc : m.pc = programStart)
    (hdepth : m.stack.depth = 0)
    (hread : ∀ (k : ℕ) (hk : k < strayReturn.length),
      m.memory.read (programStart + k) = strayReturn[k]) :
    m.Completes rounds 0 ∧ (m.roundCycle rounds 1).2 = .error .stackUnderflow := by
  have hdraw : (m.installed rounds 0).fetch = 0xd001 := by
    have hfetch : (m.installed rounds 0).fetch =
        m.memory.read m.pc ++ m.memory.read (m.pc + 1) := rfl
    rw [hfetch, hpc]
    exact congrArg₂ (· ++ ·) (hread 0 (by decide)) (hread 1 (by decide))
  have hcycle : m.roundCycle rounds 0 =
      ((m.installed rounds 0).fetched.drawSprite 0 0 1, .ok true) :=
    Machine.cycle_of_ok (i := .draw 0 0 1) (by rw [hdraw]; decide +kernel) rfl
  -- the next round finds the memory and the stack as they were
  have hreturn : (m.installed rounds 1).fetch = 0x00ee := by
    have hfetch : (m.installed rounds 1).fetch =
        m.memory.read ((m.pc + 2) % memorySize) ++ m.memory.read ((m.pc + 2) % memorySize + 1) := by
      rw [Machine.installed, Machine.afterRounds_succ, hcycle]
      rfl
    rw [hfetch, hpc]
    exact congrArg₂ (· ++ ·) (hread 2 (by decide)) (hread 3 (by decide))
  have hempty : (m.installed rounds 1).stack.depth = 0 := by
    rw [Machine.installed, Machine.afterRounds_succ, hcycle]
    exact hdepth
  exact ⟨⟨true, congrArg Prod.snd hcycle⟩,
    Machine.cycle_error_iff.mpr (.inr (.inr ⟨hreturn, hempty, rfl⟩))⟩

/-- The surroundings of a program whose files all make a stray return, while the user looks on. -/
def onlooking : World Float Sheet where
  files := fun _ => .ok ⟨.ok strayReturn⟩
  clock := 0
  noise := ⟨fun _ => 0, 0⟩
  polls := List.replicate 3 { wait := some 1, held := ["q"], events := [.keyDown] }
  paceWait := some 1
  tracing := false
  system := Sheet.system
  desktop := ⟨0, 0, fun _ _ => .blueViolet⟩

/-- The surroundings of a program whose files can be opened and not read. -/
def unreadable : World Float Sheet :=
  { onlooking with files := fun _ => .ok ⟨.error ⟨5, "Input/output error", none⟩⟩ }

theorem serves_sheet {scale : Int} (hscale : o.scale = some scale) (hpos : 0 ≤ scale) :
    Serves Sheet.system o (fun _ => True) fun _ => True where
  start _ := trivial
  clock s _ := ⟨s, rfl, trivial⟩
  caption _ s _ := ⟨s, rfl, trivial⟩
  mode s _ := by
    have hsize : ¬((resolution o).width * scale < 0 ∨ (resolution o).height * scale < 0) := by
      cases resolution o <;> simp only [Resolution.width, Resolution.height] <;> omega
    simp only [windowSize, Screen.measure, screen, hscale, Option.map_some, Sheet.system,
      Sheet.answer, if_neg hsize]
    exact ⟨_, rfl, trivial⟩
  fill _ _ _ := ⟨_, rfl, trivial⟩
  square _ _ _ _ _ _ _ := ⟨_, rfl, trivial⟩
  flip s _ := ⟨s, rfl, trivial⟩
  tick s _ := ⟨s, rfl, trivial⟩

theorem run_reports_onlooking :
    let words := ["-f", "r"]
    let o : CommandLine.Options := { file := some "r" }
    let fit : Sheet → Prop := fun _ => True
    let r := run onlooking words
    CommandLine.parse words = .ok o ∧ o.scale = some 15 ∧ Serves Sheet.system o fit fit ∧
    (∃ text, r.outcome = .error (.text ("********** THE EMULATOR CRASHED: " ++
      "Return without a matching call, the CHIP-8 stack is empty" ++ "\n" ++ text))) ∧
    r.outcome ≠ .ok () ∧ r.course.starts = 1 ∧ r.course.stops = 1 ∧
    r.course.windows = [(some 960, some 480)] ∧ r.course.speeds = [some 500] ∧
    r.course.polls = 2 ∧
    (run unreadable words).outcome =
      .error (.text "Cannot load r: [Errno 5] Input/output error") := by
  intro words o fit r
  have hparse : CommandLine.parse words = .ok o := by decide +kernel
  have hserves : Serves Sheet.system o fit fit := serves_sheet rfl (by decide)
  have hstays : onlooking.stays = 3 := by decide +kernel
  obtain ⟨m, hm⟩ : ∃ m : Machine Float, m = .holding .low onlooking.noise 0 strayReturn := ⟨_, rfl⟩
  have hheld : r.Held onlooking o m := by
    rw [hm]
    exact (((run_reports hparse onlooking).2 "r" rfl).2 _ rfl).2 (by decide) 15 (by decide) rfl
      fit fit hserves
  obtain ⟨hdraws, hfails⟩ : m.Completes onlooking.rounds 0 ∧
      (m.roundCycle onlooking.rounds 1).2 = .error .stackUnderflow := by
    apply rounds_strayReturn
    · rw [hm]; rfl
    · rw [hm]; rfl
    · rw [hm]
      exact fun k hk => Machine.read_holding (by decide) hk
  have hfirst : ∀ j < 1, m.Completes onlooking.rounds j := by
    intro j hj
    obtain rfl : j = 0 := by omega
    exact hdraws
  obtain ⟨htext, hticks, -, -⟩ := hheld.of_fault 1 (by omega) _ hfirst hfails
  have hcycles : (onlooking.recorded m).1.cycles = 1 := by
    rw [← hticks, hheld.speeds, List.length_replicate]
  have hspeeds : r.course.speeds = [some 500] := by
    rw [hheld.speeds, hcycles]
    rfl
  obtain ⟨-, hunread⟩ := ((run_reports hparse unreadable).2 "r" rfl).1 _ (.inr rfl)
  refine ⟨hparse, rfl, hserves, ⟨_, htext⟩, ?_, hheld.starts, hheld.stops, hheld.windows, hspeeds,
    ?_, hunread⟩
  · intro hfinished
    exact Machine.not_completes_iff.mpr ⟨_, hfails⟩ (hheld.finished_iff.mp hfinished 1 (by omega))
  · rw [hheld.polls_eq, hticks]

/-- The surroundings of a program without any file. -/
def deserted : World Float Sheet := { onlooking with files := (Directory.ofFiles []).files }

/-- A path that no file could have ends the program without a text, although it has read its options and
its window system serves it. -/
theorem unreported_nul_path :
    let words := ["-f", "nul\x00"]
    let o : CommandLine.Options := { file := some "nul\x00" }
    let fit : Sheet → Prop := fun _ => True
    let r := run deserted words
    CommandLine.parse words = .ok o ∧ o.scale = some 15 ∧ Serves Sheet.system o fit fit ∧
    r.outcome = .error (.load (.unopened .nulByte)) ∧ (∀ text, r.outcome ≠ .error (.text text)) ∧
    r.course.starts = 0 ∧ r.course.polls = 0 ∧ r.course.speeds = [] ∧
    r.course.polls ≠ r.course.speeds.length + 1 := by
  intro words o fit r
  have hparse : CommandLine.parse words = .ok o := by decide +kernel
  have hpath : deserted.files.open? o.file = .error .nulByte := by
    have hnul : "nul\x00".contains '\x00' = true := by simp
    simp only [deserted, FileSystem.open?, o, Directory.files, hnul, if_true]
  obtain ⟨hidle, houtcome⟩ := idle_of_unloaded (w := deserted) hparse hpath rfl
  have houtcome' : r.outcome = .error (.load (.unopened .nulByte)) := houtcome
  have hspeeds : r.course.speeds = [] := by rw [Course.speeds, hidle.desktop]; rfl
  refine ⟨hparse, rfl, serves_sheet rfl (by decide), houtcome', ?_, ?_, hidle.polls,
    hspeeds, ?_⟩
  · rw [houtcome']
    nofun
  · rw [Course.starts, hidle.desktop]
    rfl
  · rw [hidle.polls]
    exact (Nat.succ_ne_zero _).symm

end Program

end ChipEight
