import ChipEight.Proofs.AssemblyTexts
import ChipEight.Proofs.ReachableMachines
import ChipEight.Proofs.SessionCourse
import ChipEight.Proofs.TracedCycles
import ChipEight.Seconds

/-!
# The lines of a trace

A cycle that succeeds adds one line to the trace, and the address and the opcode can be read off the
line at fixed places. A cycle that faults adds the beginning of a line. So the trace of a run splits
into one line for each cycle, and they tell what has been executed and where.
-/
namespace ChipEight
open Text

def readEntry (line : List Char) : Int × Opcode :=
  (ofHex ((line.drop 30).take 4), BitVec.ofNat 16 (ofHex ((line.drop 10).take 4)))

/-- The addresses and opcodes in the complete lines of a trace. -/
def entries (trace : String) : List (Int × Opcode) := (lines trace).dropLast.map readEntry

namespace Machine
variable {τ : Type} {m : Machine τ} {now : τ}

def entry (m : Machine τ) : Int × Opcode := (m.pc, m.fetch)

def line (m : Machine τ) : String :=
  "opcode: 0x" ++ hex 4 m.fetch.toNat ++ "    mem_addr: 0x" ++ hex 4 m.pc ++ "    instruction: " ++
    ((Instruction.ofOpcode? m.fetch).map Instruction.text).getD ""

theorem line_eq (m : Machine τ) : m.line = "opcode: 0x" ++ hex 4 m.fetch.toNat ++
    "    mem_addr: 0x" ++ hex 4 m.pc ++ "    instruction: " ++
      ((Instruction.ofOpcode? m.fetch).map Instruction.text).getD "" := rfl

theorem decode_of_some {w : Opcode} {i : Instruction} (h : Instruction.ofOpcode? w = some i) :
    m.decode w.toNat = .ok i := by
  rw [decode_toNat, h]

theorem trace_of_ok {redraw : Bool} (h : (m.cycle now).2 = .ok redraw) :
    m.trace (m.cycle now).2 = m.line ++ "\n" := by
  obtain ⟨i, hi, -⟩ := exists_of_cycle_ok h
  simp [trace, h, hi, line_eq, opcodeTrace, instructionTrace, ← String.toList_inj]

theorem trace_of_error {f : Fault} (h : (m.cycle now).2 = .error f) :
    m.trace (m.cycle now).2 = opcodeTrace m.fetch.toNat := by
  simp only [trace, h, String.append_empty]

theorem newline_not_mem_line (hpc : 0 ≤ m.pc) : '\n' ∉ m.line.toList := by
  obtain ⟨pc, hpc⟩ := Int.eq_ofNat_of_zero_le hpc
  have htext : '\n' ∉ (((Instruction.ofOpcode? m.fetch).map Instruction.text).getD "").toList := by
    cases Instruction.ofOpcode? m.fetch with
    | none => simp
    | some i => exact i.newline_not_mem_text
  simp [line_eq, hpc, newline_not_mem_hex, htext]

/-- The address and the opcode stand at fixed places of the line. -/
theorem readEntry_line (hpc : IsAddress m.pc) : readEntry m.line.toList = m.entry := by
  obtain ⟨pc, hlt, hpc'⟩ := hpc.exists_nat
  have hopcode : (hex 4 m.fetch.toNat).toList.length = 4 := length_hex (by omega) (by decide)
  have haddress : (hex 4 pc).toList.length = 4 := length_hex (by omega) (by decide)
  have hline : m.line.toList = "opcode: 0x".toList ++ ((hex 4 m.fetch.toNat).toList ++
      ("    mem_addr: 0x".toList ++ ((hex 4 pc).toList ++ ("    instruction: ".toList ++
        (((Instruction.ofOpcode? m.fetch).map Instruction.text).getD "").toList)))) := by
    rw [line_eq, hpc']
    simp only [String.toList_append, List.append_assoc]
  have hsecond : (m.line.toList.drop 30).take 4 = (hex 4 pc).toList := by
    rw [hline, ← List.append_assoc, ← List.append_assoc]
    exact take_drop_append (by simp [hopcode]) haddress
  have hfirst : (m.line.toList.drop 10).take 4 = (hex 4 m.fetch.toNat).toList := by
    rw [hline]
    exact take_drop_append rfl hopcode
  rw [readEntry, hfirst, hsecond, ofHex_hex, ofHex_hex, entry, hpc', BitVec.ofNat_toNat,
    BitVec.setWidth_eq]

/-- The lines of some machines, each at its next cycle. -/
def listing (ms : List (Machine τ)) : String := String.join (ms.map fun m => m.line ++ "\n")

theorem listing_append (ms ms' : List (Machine τ)) :
    listing (ms ++ ms') = listing ms ++ listing ms' := by
  rw [listing, List.map_append, String.join_append, listing, listing]

theorem listing_singleton (m : Machine τ) : listing [m] = m.line ++ "\n" := by
  simp [listing, String.join]

theorem lines_listing {ms : List (Machine τ)} (h : ∀ m ∈ ms, m.WellFormed) :
    lines (listing ms) = ms.map (fun m => m.line.toList) ++ [[]] := by
  have hlines : ∀ l ∈ ms.map line, '\n' ∉ l.toList := by
    intro l hl
    obtain ⟨m, hm, rfl⟩ := List.mem_map.mp hl
    exact newline_not_mem_line (h m hm).pc.1
  have hjoin := lines_join hlines
  rw [List.map_map, List.map_map] at hjoin
  exact hjoin

theorem entries_listing {ms : List (Machine τ)} (h : ∀ m ∈ ms, m.WellFormed) :
    entries (listing ms) = ms.map entry := by
  rw [entries, lines_listing h, List.dropLast_concat, List.map_map]
  exact List.map_congr_left fun m hm => readEntry_line (h m hm).pc

theorem cycleTraced_of_ok {redraw : Bool} (h : (m.cycleTraced now true).2.1 = .ok redraw) :
    ∃ i, Instruction.ofOpcode? m.fetch = some i ∧ (m.cycleTraced now true).2.2 = m.line ++ "\n" := by
  rw [cycleTraced_eq] at h ⊢
  cases hr : (m.cycle now).2 with
  | error f =>
    rw [hr] at h
    cases h
  | ok redraw' =>
    obtain ⟨i, hi, -⟩ := exists_of_cycle_ok hr
    refine ⟨i, hi, ?_⟩
    rw [← hr]
    exact trace_of_ok hr

theorem cycleTraced_of_error {f : TracedFault} (h : (m.cycleTraced now true).2.1 = .error f) :
    (m.cycleTraced now true).2.2 = opcodeTrace m.fetch.toNat := by
  rw [cycleTraced_eq] at h ⊢
  cases hr : (m.cycle now).2 with
  | error g =>
    rw [← hr]
    exact trace_of_error hr
  | ok redraw =>
    rw [hr] at h
    cases h

/-! ## Runs -/

variable [Clock τ] {beats : ℕ → Beat τ} {n : ℕ}

/-- What the first `n` beats of a run print when its cycles are traced. -/
def printed (m : Machine τ) (beats : ℕ → Beat τ) (n : ℕ) : String :=
  String.join ((List.range n).map fun k => ((m.before beats k).cycleTraced (beats k).now true).2.2)

theorem printed_eq_listing (hok : ∀ k < n, ∃ redraw, m.result beats k = .ok redraw) :
    m.printed beats n = listing ((List.range n).map (m.before beats)) := by
  rw [printed, listing, List.map_map]
  refine congrArg String.join (List.map_congr_left fun k hk => ?_)
  obtain ⟨redraw, hredraw⟩ := hok k (List.mem_range.mp hk)
  rw [result] at hredraw
  simp only [cycleTraced_eq, if_true]
  exact trace_of_ok hredraw

end Machine

/-! ## Sessions -/

namespace Session
open Machine
variable {τ ω : Type} {setup : Setup τ ω} {s t : Session τ ω} {poll : Poll τ}
variable {polls : List (Poll τ)} {n : ℕ} {fit : ω → Prop}

@[simp] theorem log_wait [Add τ] (s : Session τ ω) (step? : Option τ) : (s.wait step?).log = s.log := by
  rw [wait_eq]

@[simp] theorem log_ask (s : Session τ ω) (x : WindowM ω Unit) : (s.ask x).1.log = s.log := by
  rw [ask]
  cases x s.desktop <;> rfl

@[simp] theorem log_present (s : Session τ ω) (viewer : Viewer ω) :
    (s.present viewer).1.log = s.log := by
  cases viewer <;> simp [present]

variable [Clock τ] [Add τ]

@[simp] theorem log_settle (s : Session τ ω) (pace : Pace τ ω) (lags : Lags τ) :
    (s.settle pace lags).1.log = s.log := by
  rw [settle, updateTimers_eq]
  cases pace <;> simp [keepPace]

theorem log_turn (htrace : setup.tracing = true) (s : Session τ ω) (keys : Keys) (lags : Lags τ) :
    (s.turn setup keys lags).1.log = s.log ++
      { s.machine with keys }.trace ({ s.machine with keys }.cycle (lags.cycleNow s.now)).2 := by
  have hrun : ((s.wait lags.cycle).runCycle setup.tracing keys).1.log = s.log ++
      { s.machine with keys }.trace ({ s.machine with keys }.cycle (lags.cycleNow s.now)).2 := by
    rw [htrace, wait_eq]
    rfl
  rw [← hrun, turn]
  rcases (s.wait lags.cycle).runCycle setup.tracing keys with ⟨u, f | redraw⟩
  · rfl
  · cases redraw with
    | false => exact log_settle u setup.pace lags
    | true =>
      have hlog := log_present u setup.viewer
      rcases hpresent : u.present setup.viewer with ⟨v, _ | ending⟩ <;> rw [hpresent] at hlog
      · simpa [hpresent] using hlog
      · simpa [hpresent] using hlog

theorem log_of_pass? (hkeeps : setup.Keeps fit) (hfit : fit s.desktop)
    (htrace : setup.tracing = true) (hs : s.machine.WellFormed)
    (h : s.pass? setup poll = some t) :
    t.machine.WellFormed ∧ t.log = s.log ++ listing [s.machine] := by
  obtain ⟨keys, hkeys, -, hturn⟩ := pass?_eq_some_iff.mp h
  obtain ⟨keys', redraw, log, desktop, hkeys', -, hok, ht⟩ := exists_of_pass? hkeeps hfit h
  obtain rfl := Except.ok.inj (hkeys.symm.trans hkeys')
  rw [polled_eq] at hok hturn ht
  constructor
  · have hcycle := WellFormed.cycle (m := { s.machine with keys }) { hs with }
      (poll.lags.cycleNow (elapsed s.now poll.wait))
    rw [ht]
    exact { hcycle with }
  · have hlog := log_turn htrace
      { s with polls := s.polls + 1, now := elapsed s.now poll.wait } keys poll.lags
    rw [hturn, trace_of_ok hok] at hlog
    rw [listing_singleton]
    exact hlog

/-- The log of a session tells what each of its cycles so far has executed and where. -/
theorem exists_listing_of_atPoll? (hkeeps : setup.Keeps fit) (hfit : fit s.desktop)
    (htrace : setup.tracing = true) (hs : s.machine.WellFormed)
    (h : s.atPoll? setup polls n = some t) :
    t.machine.WellFormed ∧ ∃ us : List (Session τ ω),
      us.length = n ∧ (∀ k u, us[k]? = some u → s.atPoll? setup polls k = some u) ∧
      (∀ u ∈ us, u.machine.WellFormed) ∧ t.log = s.log ++ listing (us.map (·.machine)) := by
  induction n generalizing t with
  | zero =>
    obtain rfl := Option.some.inj h
    exact ⟨hs, [], rfl, by simp, by simp, String.append_empty.symm⟩
  | succ n ih =>
    obtain ⟨u, poll, hu, -, hpass⟩ := atPoll?_succ_eq_some_iff.mp h
    obtain ⟨hwf, us, hlength, hus, hall, hlog⟩ := ih hu
    obtain ⟨hwf', hlog'⟩ := log_of_pass? hkeeps (fit_of_atPoll? hkeeps hfit hu) htrace hwf hpass
    refine ⟨hwf', us ++ [u], by simp [hlength], ?_, ?_, ?_⟩
    · intro k v hv
      rcases Nat.lt_or_ge k us.length with hk | hk
      · rw [List.getElem?_append_left hk] at hv
        exact hus k v hv
      · rw [List.getElem?_append_right hk, List.getElem?_singleton] at hv
        split at hv
        case isTrue hzero =>
          obtain rfl := Option.some.inj hv
          obtain rfl : k = n := by omega
          exact hu
        case isFalse => cases hv
    · simpa [or_imp, forall_and] using ⟨hall, hwf⟩
    · rw [hlog', hlog, List.map_append, listing_append, String.append_assoc]
      rfl

end Session

namespace Machine
variable {τ ω : Type} [Clock τ] [Add τ] {m : Machine τ}

/-- A trace tells what has been executed and where. A cycle that succeeds prints one line, which shows
the opcode, the address that it was fetched from and the text of the instruction; a cycle that faults
prints the opcode only. So from what a run prints in `n` cycles that succeed the addresses and opcodes
of these cycles can be read, and from the log of a session those of its cycles so far. Opcodes that are
shown with the same text do the same. -/
theorem trace_disassembles (hm : m.WellFormed) :
    (∀ now, let c := m.cycleTraced now true
      (∀ redraw, c.2.1 = .ok redraw → ∃ i, Instruction.ofOpcode? m.fetch = some i ∧
        c.2.2 = "opcode: 0x" ++ hex 4 m.fetch.toNat ++ "    mem_addr: 0x" ++ hex 4 m.pc ++
          "    instruction: " ++ i.text ++ "\n" ∧
        (lines c.2.2).getLast? = some [] ∧ entries c.2.2 = [(m.pc, m.fetch)]) ∧
      ∀ f, c.2.1 = .error f →
        c.2.2 = "opcode: 0x" ++ hex 4 m.fetch.toNat ++ "    " ∧ entries c.2.2 = []) ∧
    (∀ beats n, (∀ k < n, ∃ redraw, m.result beats k = .ok redraw) →
      (lines (m.printed beats n)).getLast? = some [] ∧
      entries (m.printed beats n) =
        (List.range n).map fun k => ((m.before beats k).pc, (m.before beats k).fetch)) ∧
    (∀ (setup : Setup τ ω) fit now desktop polls n s, setup.Keeps fit → fit desktop →
      setup.tracing = true → (Session.start m now desktop).atPoll? setup polls n = some s →
      ∃ us : List (Session τ ω), us.length = n ∧
        (∀ k u, us[k]? = some u → (Session.start m now desktop).atPoll? setup polls k = some u) ∧
        (lines s.log).getLast? = some [] ∧
        entries s.log = us.map fun u => (u.machine.pc, u.machine.fetch)) ∧
    ∀ (v w : Opcode) text, (Instruction.ofOpcode? v).map Instruction.text = some text →
      (Instruction.ofOpcode? w).map Instruction.text = some text → ∀ (a : Machine τ) now,
      ∃ i j, a.decode v.toNat = .ok i ∧ a.decode w.toNat = .ok j ∧
        a.execute now i = a.execute now j := by
  refine ⟨fun now => ⟨fun redraw hok => ?_, fun f herror => ?_⟩, ?_, ?_, ?_⟩
  · obtain ⟨i, hi, hprinted⟩ := cycleTraced_of_ok hok
    have hone : ∀ a ∈ [m], a.WellFormed := by simpa using hm
    rw [hprinted, ← listing_singleton, lines_listing hone, entries_listing hone, listing_singleton]
    exact ⟨i, hi, by simp [line_eq, hi], rfl, rfl⟩
  · rw [cycleTraced_of_error herror]
    refine ⟨rfl, ?_⟩
    have hline : '\n' ∉ (opcodeTrace m.fetch.toNat).toList := by
      simp [opcodeTrace, newline_not_mem_hex]
    rw [entries, lines, List.splitOn_eq_singleton hline]
    rfl
  · intro beats n hok
    have hwf : ∀ a ∈ (List.range n).map (m.before beats), a.WellFormed := by
      intro a ha
      obtain ⟨k, -, rfl⟩ := List.mem_map.mp ha
      exact hm.before beats k
    rw [printed_eq_listing hok, lines_listing hwf, entries_listing hwf]
    exact ⟨List.getLast?_concat, List.map_map⟩
  · intro setup fit now desktop polls n s hkeeps hfit htrace hs
    obtain ⟨-, us, hlength, hus, hall, hlog⟩ :=
      Session.exists_listing_of_atPoll? hkeeps hfit htrace hm hs
    have hwf : ∀ a ∈ us.map (·.machine), a.WellFormed := by
      intro a ha
      obtain ⟨u, hu, rfl⟩ := List.mem_map.mp ha
      exact hall u hu
    have hlisting : s.log = listing (us.map (·.machine)) := hlog.trans String.empty_append
    rw [hlisting, lines_listing hwf, entries_listing hwf]
    exact ⟨us, hlength, hus, List.getLast?_concat, List.map_map⟩
  · intro v w text hv hw a now
    obtain ⟨i, hi, hitext⟩ := Option.map_eq_some_iff.mp hv
    obtain ⟨j, hj, hjtext⟩ := Option.map_eq_some_iff.mp hw
    obtain rfl : i = j := Instruction.text_injective (hitext.trans hjtext.symm)
    exact ⟨i, i, decode_of_some hi, decode_of_some hj, rfl⟩

/-- Jumps, and then waits for a key. -/
def jumpingThenWaiting : Machine Float :=
  { Machine.initial .low ⟨fun _ => 0, 0⟩ 0 with
    memory := Memory.zeros.writeBytes programStart [0x12, 0x04, 0x00, 0x00, 0xf3, 0x0a] }

theorem trace_disassembles_jumping :
    let beats : ℕ → Beat Float := fun _ => ⟨[], 0⟩
    jumpingThenWaiting.WellFormed ∧
    (∀ k < 3, ∃ redraw, jumpingThenWaiting.result beats k = .ok redraw) ∧
    entries (jumpingThenWaiting.printed beats 3) =
      [(0x200, 0x1204), (0x204, 0xf30a), (0x204, 0xf30a)] := by
  intro beats
  have hwf : jumpingThenWaiting.WellFormed :=
    (wellFormed_initial .low ⟨fun _ => 0, 0⟩ 0).storing _
  have hok : ∀ k < 3, ∃ redraw, jumpingThenWaiting.result beats k = .ok redraw := by
    intro k hk
    interval_cases k <;> exact ⟨false, by decide +kernel⟩
  obtain ⟨-, hrun, -⟩ := trace_disassembles (ω := Unit) hwf
  refine ⟨hwf, hok, ?_⟩
  rw [(hrun beats 3 hok).2]
  decide +kernel

end Machine
end ChipEight
