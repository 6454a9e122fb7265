import ChipEight.Proofs.CycleOutcomes
import ChipEight.Proofs.Runs
import ChipEight.Seconds
import Mathlib.Tactic.IntervalCases

/-!
# The flow from channels to instructions

A machine is connected to its surroundings by four channels: the countdowns and the clock, the keys,
the random bytes, and the display. Each one is read by a few instructions only. Two runs that differ
in one channel, at the start and in what the surroundings do, agree on everything else for as long as
the first run executes no instruction that reads the channel.
-/
namespace ChipEight

inductive Channel where
  | timers | keys | noise | display
deriving DecidableEq

/-- The opcodes of the instructions that read a channel. -/
def Channel.ReadBy (w : Opcode) : Channel → Prop
  | .timers => w.firstDigit = 0xf ∧ w.kk = 0x07
  | .keys => w.firstDigit = 0xe ∧ (w.kk = 0x9e ∨ w.kk = 0xa1) ∨ w.firstDigit = 0xf ∧ w.kk = 0x0a
  | .noise => w.firstDigit = 0xc
  | .display => w.firstDigit = 0xd

instance (w : Opcode) : (c : Channel) → Decidable (c.ReadBy w)
  | .timers => inferInstanceAs (Decidable (_ ∧ _))
  | .keys => inferInstanceAs (Decidable (_ ∨ _))
  | .noise => inferInstanceAs (Decidable (_ = _))
  | .display => inferInstanceAs (Decidable (_ = _))

def Instruction.Reads (c : Channel) : Instruction → Prop
  | .loadDelay _ => c = .timers
  | .skipKey _ | .skipNoKey _ | .waitKey _ => c = .keys
  | .random _ _ => c = .noise
  | .draw _ _ _ => c = .display
  | _ => False

def HostAct.channel {τ : Type} : HostAct τ → Channel
  | .keys _ => .keys
  | .timers _ _ => .timers

/-- Two beats that differ at most in one channel: the surroundings act alike on the other channels,
and the clock may only differ along with the countdowns. -/
structure Beat.AgreeOutside {τ : Type} (c : Channel) (b b' : Beat τ) : Prop where
  acts : b.acts.filter (·.channel ≠ c) = b'.acts.filter (·.channel ≠ c)
  now : c ≠ .timers → b.now = b'.now

namespace Machine
variable {τ : Type}

/-- Two machines that differ at most in one channel. -/
structure AgreeOutside (c : Channel) (m m' : Machine τ) : Prop where
  memory : m.memory = m'.memory
  stack : m.stack = m'.stack
  registers : m.registers = m'.registers
  pc : m.pc = m'.pc
  opcodeAddress : m.opcodeAddress = m'.opcodeAddress
  index : m.index = m'.index
  redraw : m.redraw = m'.redraw
  timers : c ≠ .timers → m.delay = m'.delay ∧ m.sound = m'.sound
  keys : c ≠ .keys → m.keys = m'.keys
  noise : c ≠ .noise → m.noise = m'.noise
  display : c ≠ .display → m.display = m'.display

end Machine

variable {τ : Type} {c : Channel}

/-- An opcode of an instruction that reads a channel is one of the channel's. -/
theorem Instruction.Reads.readBy {i : Instruction} {w : Opcode} (h : i.Reads c)
    (hi : Instruction.ofOpcode? w = some i) : c.ReadBy w := by
  rw [ofOpcode?_eq_some_iff] at hi
  cases i with
  | loadDelay => obtain rfl := h; exact ⟨hi.1, hi.2.2⟩
  | skipKey => obtain rfl := h; exact .inl ⟨hi.1, .inl hi.2.2⟩
  | skipNoKey => obtain rfl := h; exact .inl ⟨hi.1, .inr hi.2.2⟩
  | waitKey => obtain rfl := h; exact .inr ⟨hi.1, hi.2.2⟩
  | random => obtain rfl := h; exact hi.1
  | draw => obtain rfl := h; exact hi.1
  | _ => cases h

namespace Machine.AgreeOutside
variable {m m' m'' : Machine τ} {now now' : τ} {i : Instruction}

theorem refl (c : Channel) (m : Machine τ) : AgreeOutside c m m :=
  ⟨rfl, rfl, rfl, rfl, rfl, rfl, rfl, fun _ => ⟨rfl, rfl⟩, fun _ => rfl, fun _ => rfl, fun _ => rfl⟩

theorem symm (h : AgreeOutside c m m') : AgreeOutside c m' m where
  memory := h.memory.symm
  stack := h.stack.symm
  registers := h.registers.symm
  pc := h.pc.symm
  opcodeAddress := h.opcodeAddress.symm
  index := h.index.symm
  redraw := h.redraw.symm
  timers hc := ⟨(h.timers hc).1.symm, (h.timers hc).2.symm⟩
  keys hc := (h.keys hc).symm
  noise hc := (h.noise hc).symm
  display hc := (h.display hc).symm

theorem trans (h : AgreeOutside c m m') (h' : AgreeOutside c m' m'') : AgreeOutside c m m'' where
  memory := h.memory.trans h'.memory
  stack := h.stack.trans h'.stack
  registers := h.registers.trans h'.registers
  pc := h.pc.trans h'.pc
  opcodeAddress := h.opcodeAddress.trans h'.opcodeAddress
  index := h.index.trans h'.index
  redraw := h.redraw.trans h'.redraw
  timers hc := ⟨(h.timers hc).1.trans (h'.timers hc).1, (h.timers hc).2.trans (h'.timers hc).2⟩
  keys hc := (h.keys hc).trans (h'.keys hc)
  noise hc := (h.noise hc).trans (h'.noise hc)
  display hc := (h.display hc).trans (h'.display hc)

theorem register (h : AgreeOutside c m m') (x : Register) : m.register x = m'.register x :=
  congrArg (·.get x) h.registers

theorem fetch (h : AgreeOutside c m m') : m.fetch = m'.fetch := by
  rw [Machine.fetch, Machine.fetch, h.memory, h.pc]

theorem fetched (h : AgreeOutside c m m') : AgreeOutside c m.fetched m'.fetched :=
  { h with redraw := rfl, opcodeAddress := h.pc, pc := congrArg (fun a => (a + 2) % _) h.pc }

/-! ## Instructions -/

theorem setRegister (h : AgreeOutside c m m') (x : Register) {v v' : Int} (hv : v = v') :
    AgreeOutside c (m.setRegister x v) (m'.setRegister x v') := by
  refine { h with registers := ?_ }
  simp only [Machine.setRegister, h.registers, hv]

theorem setWithFlag (h : AgreeOutside c m m') (x : Register) {flag flag' : Bool} {v v' : Int}
    (hflag : flag = flag') (hv : v = v') :
    AgreeOutside c (m.setWithFlag x flag v) (m'.setWithFlag x flag' v') := by
  refine { h with registers := ?_ }
  simp only [Machine.setWithFlag, h.registers, hflag, hv]

theorem skipIf (h : AgreeOutside c m m') {p p' : Bool} (hp : p = p') :
    AgreeOutside c (m.skipIf p) (m'.skipIf p') := by
  subst hp
  unfold Machine.skipIf
  split
  · exact { h with pc := congrArg (fun a => (a + 2) % _) h.pc }
  · exact h

theorem drawSprite (h : AgreeOutside c m m') (hc : c ≠ .display) (x y : Register) (n : BitVec 4) :
    AgreeOutside c (m.drawSprite x y n) (m'.drawSprite x y n) := by
  unfold Machine.drawSprite
  rw [h.memory, h.index, h.register, h.register, h.display hc, h.registers]
  exact { h with memory := rfl, index := rfl, registers := rfl, redraw := rfl, display := fun _ => rfl }

theorem waitKey (h : AgreeOutside c m m') (hc : c ≠ .keys) (x : Register) :
    AgreeOutside c (m.waitKey x) (m'.waitKey x) := by
  have hfirst : m.keys.first? = m'.keys.first? := congrArg _ (h.keys hc)
  unfold Machine.waitKey
  rw [hfirst]
  split
  · exact h.setRegister x rfl
  · exact { h with pc := congrArg (fun a => (a - 2) % _) h.pc }

/-- Executions that end alike, in machines that differ at most in one channel. -/
structure Outcomes (c : Channel) (e e' : Machine τ × Except Fault Unit) : Prop where
  machine : AgreeOutside c e.1 e'.1
  result : e.2 = e'.2

theorem ok (h : AgreeOutside c m m') : Outcomes c (m, .ok ()) (m', .ok ()) := ⟨h, rfl⟩

theorem call (h : AgreeOutside c m m') (nnn : BitVec 12) :
    Outcomes c (m.execute now (.call nnn)) (m'.execute now' (.call nnn)) := by
  simp only [Machine.execute, h.stack, h.pc]
  rcases m'.stack.push m'.pc with ⟨stack, f | _⟩
  · exact ⟨{ h with stack := rfl, pc := rfl }, rfl⟩
  · exact ok { h with pc := rfl, stack := rfl }

theorem ret (h : AgreeOutside c m m') :
    Outcomes c (m.execute now .ret) (m'.execute now' .ret) := by
  simp only [Machine.execute, h.stack]
  rcases m'.stack.pop with ⟨stack, f | address⟩
  · exact ⟨{ h with stack := rfl }, rfl⟩
  · exact ok { h with pc := rfl, stack := rfl }

/-- An instruction that does not read a channel carries nothing from it to the rest. -/
theorem execute (h : AgreeOutside c m m') (hnow : c ≠ .timers → now = now')
    (hr : ¬ i.Reads c) : Outcomes c (m.execute now i) (m'.execute now' i) := by
  have hx := h.register
  cases i with
  | call nnn => exact h.call nnn
  | ret => exact h.ret
  | system => exact ok h
  | clearScreen => exact ok { h with display := fun hc => congrArg Display.clear (h.display hc) }
  | jump => exact ok { h with pc := rfl }
  | jumpOffset nnn => exact ok { h with pc := by simp only [hx] }
  | skipEqByte | skipNeByte | skipEq | skipNe => exact ok (h.skipIf (by simp only [hx]))
  | skipKey | skipNoKey => exact ok (h.skipIf (by simp only [hx, h.keys hr]))
  | loadByte x kk => exact ok (h.setRegister x rfl)
  | addByte x | copy x | or x | and x | xor x => exact ok (h.setRegister x (by simp only [hx]))
  | add x | sub x | subFrom x | shiftRight x | shiftLeft x =>
    exact ok (h.setWithFlag x (by simp only [hx]) (by simp only [hx]))
  | loadIndex => exact ok { h with index := rfl }
  | addIndex x => exact ok { h with index := by simp only [hx, h.index] }
  | selectGlyph x => exact ok { h with index := by simp only [hx] }
  | random x kk =>
    have hn := h.noise hr
    exact ok { h.setRegister x (by rw [hn]) with noise := fun _ => congrArg Noise.advance hn }
  | draw x y n => exact ok (h.drawSprite hr x y n)
  | loadDelay x => exact ok (h.setRegister x (by rw [(h.timers hr).1]))
  | waitKey x => exact ok (h.waitKey hr x)
  | setDelay x =>
    refine ok { h with timers := fun hc => ⟨?_, (h.timers hc).2⟩ }
    simp only [hx, hnow hc]
  | setSound x =>
    refine ok { h with timers := fun hc => ⟨(h.timers hc).1, ?_⟩ }
    simp only [hx, hnow hc]
  | decimal x => exact ok { h with memory := by simp only [hx, h.memory, h.index] }
  | save x => exact ok { h with memory := by simp only [h.registers, h.memory, h.index] }
  | restore x => exact ok { h with registers := by simp only [h.registers, h.memory, h.index] }

/-- A cycle whose opcode does not read a channel ends alike and carries nothing from it to the
rest. -/
theorem cycle (h : AgreeOutside c m m') (hnow : c ≠ .timers → now = now')
    (hr : ¬ c.ReadBy m.fetch) :
    AgreeOutside c (m.cycle now).1 (m'.cycle now').1 ∧ (m.cycle now).2 = (m'.cycle now').2 := by
  have hf := h.fetch
  cases hi : Instruction.ofOpcode? m.fetch with
  | none =>
    rw [cycle_of_none hi, cycle_of_none (hf ▸ hi), hf, h.pc]
    exact ⟨h.fetched, rfl⟩
  | some i =>
    have hreads : ¬ i.Reads c := fun hread => hr (hread.readBy hi)
    obtain ⟨ha, hresult⟩ : Outcomes c (m.fetched.execute now i) (m'.fetched.execute now' i) :=
      h.fetched.execute hnow hreads
    rcases he : m.fetched.execute now i with ⟨a, f | _⟩ <;>
      rcases he' : m'.fetched.execute now' i with ⟨a', f' | _⟩ <;>
      rw [he, he'] at ha hresult
    · rw [cycle_of_error hi he, cycle_of_error (hf ▸ hi) he']
      exact ⟨ha, congrArg Except.error (Except.error.inj hresult)⟩
    · cases hresult
    · cases hresult
    · rw [cycle_of_ok hi he, cycle_of_ok (hf ▸ hi) he']
      exact ⟨ha, congrArg Except.ok ha.redraw⟩

/-! ## The surroundings -/

variable [Clock τ] {acts acts' : List (HostAct τ)} {a : HostAct τ}

theorem host (h : AgreeOutside c m m') (a : HostAct τ) : AgreeOutside c (m.host a) (m'.host a) := by
  cases a with
  | keys => exact { h with keys := fun _ => rfl }
  | timers delayNow soundNow =>
    refine { h with timers := fun hc => ?_ }
    simp only [Machine.host, tickTimers, (h.timers hc).1, (h.timers hc).2, and_self]

/-- What the surroundings do to a channel is not seen outside it. -/
theorem host_left (h : AgreeOutside c m m') (ha : a.channel = c) :
    AgreeOutside c (m.host a) m' := by
  subst ha
  cases a with
  | keys => exact { h with keys := fun hc => absurd rfl hc }
  | timers => exact { h with timers := fun hc => absurd rfl hc }

theorem hostAll_filter (h : AgreeOutside c m m') (acts : List (HostAct τ)) :
    AgreeOutside c (m.hostAll acts) (m'.hostAll (acts.filter (·.channel ≠ c))) := by
  induction acts generalizing m m' with
  | nil => exact h
  | cons a rest ih =>
    by_cases ha : a.channel = c
    · rw [List.filter_cons_of_neg (by simp [ha])]
      exact ih (h.host_left ha)
    · rw [List.filter_cons_of_pos (by simp [ha])]
      exact ih (h.host a)

theorem hostAll (h : AgreeOutside c m m')
    (hacts : acts.filter (·.channel ≠ c) = acts'.filter (·.channel ≠ c)) :
    AgreeOutside c (m.hostAll acts) (m'.hostAll acts') := by
  have hleft := h.hostAll_filter acts
  have hright := (refl c m').hostAll_filter acts'
  rw [hacts] at hleft
  exact hleft.trans hright.symm

end Machine.AgreeOutside

namespace Machine
variable [Clock τ] {m m' : Machine τ} {beats beats' : ℕ → Beat τ}

theorem AgreeOutside.beat {k : ℕ} (h : AgreeOutside c (m.after beats k) (m'.after beats' k))
    (hb : (beats k).AgreeOutside c (beats' k)) (hr : ¬ c.ReadBy (m.opcode beats k)) :
    AgreeOutside c (m.after beats (k + 1)) (m'.after beats' (k + 1)) ∧
      m.result beats k = m'.result beats' k ∧ m.opcode beats k = m'.opcode beats' k := by
  have hbefore : AgreeOutside c (m.before beats k) (m'.before beats' k) := h.hostAll hb.acts
  obtain ⟨hafter, hresult⟩ := hbefore.cycle hb.now hr
  exact ⟨hafter, hresult, hbefore.fetch⟩

/-- Two runs that differ in one channel agree outside it for as long as the first one executes no
instruction that reads the channel, and then neither does the second one. -/
theorem runs_agreeOutside (h : AgreeOutside c m m') (n : ℕ)
    (hbeats : ∀ k < n, (beats k).AgreeOutside c (beats' k))
    (hread : ∀ k < n, ¬ c.ReadBy (m.opcode beats k)) :
    (∀ k ≤ n, AgreeOutside c (m.after beats k) (m'.after beats' k)) ∧
      ∀ k < n, m.result beats k = m'.result beats' k ∧
        m.opcode beats k = m'.opcode beats' k ∧ ¬ c.ReadBy (m'.opcode beats' k) := by
  have hafter : ∀ k ≤ n, AgreeOutside c (m.after beats k) (m'.after beats' k) := by
    intro k hk
    induction k with
    | zero => exact h
    | succ k ih => exact ((ih (by omega)).beat (hbeats k hk) (hread k hk)).1
  refine ⟨hafter, fun k hk => ?_⟩
  obtain ⟨-, hresult, hopcode⟩ := (hafter k hk.le).beat (hbeats k hk) (hread k hk)
  refine ⟨hresult, hopcode, ?_⟩
  rw [← hopcode]
  exact hread k hk

/-- Loads a number, starts the delay countdown with it, compares it and reads the countdown. -/
def delayed : Machine Float :=
  { initial .low ⟨fun _ => 0, 0⟩ 0 with
    memory := Memory.zeros.writeBytes programStart
      [0x60, 0x05, 0xf0, 0x15, 0x30, 0x06, 0xf0, 0x07] }

def idleBeats : ℕ → Beat Float := fun _ => ⟨[.keys Keys.released], 0⟩

def tickingBeats : ℕ → Beat Float := fun _ => ⟨[.timers 1 1, .keys Keys.released, .timers 2 2], 3⟩

theorem runs_agreeOutside_countdowns :
    let running : Machine Float := { delayed with delay := ⟨9, 0⟩ }
    AgreeOutside .timers delayed running ∧
    (∀ k < 3, (idleBeats k).AgreeOutside .timers (tickingBeats k)) ∧
    (∀ k < 3, ¬ Channel.timers.ReadBy (delayed.opcode idleBeats k)) ∧
    (∀ k ≤ 3, AgreeOutside .timers (delayed.after idleBeats k) (running.after tickingBeats k)) ∧
    ∀ k < 3, delayed.result idleBeats k = running.result tickingBeats k ∧
      delayed.opcode idleBeats k = running.opcode tickingBeats k ∧
        ¬ Channel.timers.ReadBy (running.opcode tickingBeats k) := by
  intro running
  have h : AgreeOutside .timers delayed running :=
    { AgreeOutside.refl .timers delayed with timers := fun hc => absurd rfl hc }
  have hbeats : ∀ k < 3, (idleBeats k).AgreeOutside .timers (tickingBeats k) :=
    fun _ _ => ⟨rfl, fun hc => absurd rfl hc⟩
  have hread : ∀ k < 3, ¬ Channel.timers.ReadBy (delayed.opcode idleBeats k) := by
    intro k hk
    interval_cases k <;> decide +kernel
  exact ⟨h, hbeats, hread, runs_agreeOutside h 3 hbeats hread⟩

end Machine

end ChipEight
