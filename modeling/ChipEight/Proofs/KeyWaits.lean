import ChipEight.Proofs.HostRounds
import ChipEight.Proofs.KeyStates
import ChipEight.Proofs.WellFormedMachines
import Mathlib.Tactic.Common

/-!
# Waiting for a key

An instruction that waits for a key stays where it is while no key is down: each round moves the
program counter on and back again, also across the end of memory, and only the countdowns go on. The
first cycle with a key down keeps the lowest key and moves on.
-/
namespace ChipEight.Machine
variable {τ : Type} {m : Machine τ} {now : τ}

/-- The next instruction waits for a key. -/
def AwaitsKey (m : Machine τ) : Prop := m.fetch.firstDigit = 0xf ∧ m.fetch.kk = 0x0a

instance (m : Machine τ) : Decidable m.AwaitsKey := inferInstanceAs (Decidable (_ ∧ _))

theorem cycle_of_awaitsKey (h : m.AwaitsKey) (now : τ) :
    m.cycle now = (m.fetched.waitKey m.fetch.x, .ok (m.fetched.waitKey m.fetch.x).redraw) := by
  have hi : Instruction.ofOpcode? m.fetch = some (.waitKey m.fetch.x) :=
    Instruction.ofOpcode?_eq_some_iff.mpr ⟨h.1, rfl, h.2⟩
  exact cycle_of_ok hi rfl

/-- Two steps forward and two back lead to the same address. -/
theorem pc_back {pc : Int} (h : IsAddress pc) : ((pc + 2) % memorySize - 2) % memorySize = pc := by
  rw [IsAddress] at h
  rw [memorySize]
  omega

theorem cycle_of_untouched (h : m.AwaitsKey) (hpc : IsAddress m.pc)
    (hkeys : m.keys.untouched = true) (now : τ) :
    m.cycle now = ({ m with opcodeAddress := m.pc, redraw := false }, .ok false) := by
  have hfirst : m.fetched.keys.first? = none := Keys.first?_eq_none_iff.mpr hkeys
  have hwait : m.fetched.waitKey m.fetch.x = { m with opcodeAddress := m.pc, redraw := false } := by
    simp only [waitKey, hfirst]
    simp only [fetched, pc_back hpc]
  rw [cycle_of_awaitsKey h, hwait]

theorem cycle_of_touched (h : m.AwaitsKey) (hkeys : m.keys.untouched = false) (now : τ) :
    let c := m.cycle now
    c.2 = .ok false ∧ c.1.pc = (m.pc + 2) % memorySize ∧
    (∃ k : ℕ, m.keys.isDown k = true ∧ (∀ j : ℕ, m.keys.isDown j = true → k ≤ j) ∧
      c.1.register m.fetch.x = (k : Int)) ∧
    (∀ y, y ≠ m.fetch.x → c.1.register y = m.register y) ∧
    c.1.memory = m.memory ∧ c.1.display = m.display := by
  obtain ⟨k, hfirst⟩ : ∃ k, m.fetched.keys.first? = some k := by
    refine Option.ne_none_iff_exists'.mp fun hnone => ?_
    rw [Keys.first?_eq_none_iff] at hnone
    exact Bool.false_ne_true (hkeys.symm.trans hnone)
  have hwait : m.fetched.waitKey m.fetch.x = m.fetched.setRegister m.fetch.x k := by
    simp only [waitKey, hfirst]
  obtain ⟨hk, hlowest⟩ := Keys.first?_eq_some_iff.mp hfirst
  have hregister : ∀ y, (m.fetched.setRegister m.fetch.x k).register y =
      if m.fetch.x = y then (k : Int) else m.register y :=
    fun y => m.registers.get_set m.fetch.x y k
  have hc : m.cycle now = (m.fetched.setRegister m.fetch.x k, .ok false) := by
    rw [cycle_of_awaitsKey h, hwait]
    rfl
  rw [hc]
  refine ⟨rfl, rfl, ⟨k, hk, hlowest, ?_⟩, fun y hy => ?_, rfl, rfl⟩
  · rw [hregister, if_pos rfl]
  · rw [hregister, if_neg hy.symm]

variable [Clock τ] {rounds : ℕ → Round τ} {n : ℕ}

/-- The machine if the countdowns look at the clock in so many rounds and nothing else happens. -/
def afterLooks (m : Machine τ) (rounds : ℕ → Round τ) : ℕ → Machine τ
  | 0 => m
  | n + 1 => (m.afterLooks rounds n).tickTimers (rounds n).delayNow (rounds n).soundNow

theorem afterLooks_eq (m : Machine τ) (rounds : ℕ → Round τ) (n : ℕ) :
    ∃ delay sound, m.afterLooks rounds n = { m with delay, sound } := by
  induction n with
  | zero => exact ⟨m.delay, m.sound, rfl⟩
  | succ n ih =>
    obtain ⟨delay, sound, h⟩ := ih
    rw [afterLooks, h]
    exact ⟨_, _, rfl⟩

/-- So many rounds have done nothing to the machine except that its countdowns looked at the clock. The
keys and the marks of the last cycle may have changed besides. -/
def OnlyLooked (m : Machine τ) (rounds : ℕ → Round τ) (n : ℕ) : Prop :=
  ∃ keys opcodeAddress redraw,
    m.afterRounds rounds n = { m.afterLooks rounds n with keys, opcodeAddress, redraw }

namespace OnlyLooked

theorem exists_eq (h : m.OnlyLooked rounds n) : ∃ keys opcodeAddress redraw,
    m.afterRounds rounds n =
      { m with
        keys, opcodeAddress, redraw
        delay := (m.afterLooks rounds n).delay
        sound := (m.afterLooks rounds n).sound } := by
  obtain ⟨keys, opcodeAddress, redraw, hn⟩ := h
  obtain ⟨delay, sound, hlooks⟩ := m.afterLooks_eq rounds n
  exact ⟨keys, opcodeAddress, redraw, by rw [hn, hlooks]⟩

theorem awaitsKey_with (h : m.OnlyLooked rounds n) (hwait : m.AwaitsKey) (keys : Keys) :
    { m.afterRounds rounds n with keys }.AwaitsKey := by
  obtain ⟨_, _, _, hn⟩ := h.exists_eq
  rw [hn]
  exact hwait

theorem pc_eq (h : m.OnlyLooked rounds n) : (m.afterRounds rounds n).pc = m.pc := by
  obtain ⟨_, _, _, hn⟩ := h.exists_eq
  rw [hn]

theorem roundCycle (h : m.OnlyLooked rounds n) (hwait : m.AwaitsKey) (hpc : IsAddress m.pc)
    (hkeys : (rounds n).keys.untouched = true) :
    m.roundCycle rounds n =
      ({ m.installed rounds n with
          opcodeAddress := (m.installed rounds n).pc
          redraw := false }, .ok false) := by
  have hstart : IsAddress (m.installed rounds n).pc := h.pc_eq.symm ▸ hpc
  exact cycle_of_untouched (h.awaitsKey_with hwait _) hstart hkeys _

end OnlyLooked

/-- While a machine waits, nothing but its countdowns goes on. -/
theorem onlyLooked_of_untouched (hwait : m.AwaitsKey) (hpc : IsAddress m.pc)
    (hkeys : ∀ k < n, (rounds k).keys.untouched = true) : m.OnlyLooked rounds n := by
  induction n with
  | zero => exact ⟨m.keys, m.opcodeAddress, m.redraw, rfl⟩
  | succ n ih =>
    have h := ih fun k hk => hkeys k (by omega)
    have hcycle := h.roundCycle hwait hpc (hkeys n (by omega))
    obtain ⟨_, _, _, hn⟩ := h
    rw [OnlyLooked, afterRounds_succ, hcycle, installed, hn]
    exact ⟨_, _, _, rfl⟩

/-- Waiting for a key. The machine is about to wait, at any address, and in the first `n` rounds no key
is down. Then every cycle asks for no redraw, the machine stays at its instruction, and nothing but
the countdowns goes on; these are as if they alone had looked at the clock. The next cycle with a key
down puts the lowest one into the register, moves on and leaves the other registers, the memory and
the display alone. -/
theorem waits_until_key (hwait : m.AwaitsKey) (hpc : IsAddress m.pc)
    (hkeys : ∀ k < n, (rounds k).keys.untouched = true) :
    let w := m.afterRounds rounds n
    (∀ k < n, (m.roundCycle rounds k).2 = .ok false) ∧
    w.pc = m.pc ∧ w.registers = m.registers ∧ w.index = m.index ∧ w.memory = m.memory ∧
    w.stack = m.stack ∧ w.display = m.display ∧ w.noise = m.noise ∧
    w.delay = (m.afterLooks rounds n).delay ∧ w.sound = (m.afterLooks rounds n).sound ∧
    ∀ (keys : Keys) (now : τ), keys.untouched = false →
      let c := { w with keys }.cycle now
      c.2 = .ok false ∧ c.1.pc = (m.pc + 2) % memorySize ∧
      (∃ k : ℕ, keys.isDown k = true ∧ (∀ j : ℕ, keys.isDown j = true → k ≤ j) ∧
        c.1.register m.fetch.x = (k : Int)) ∧
      (∀ y, y ≠ m.fetch.x → c.1.register y = m.register y) ∧
      c.1.memory = m.memory ∧ c.1.display = m.display := by
  intro w
  have h : m.OnlyLooked rounds n := onlyLooked_of_untouched hwait hpc hkeys
  have hresults : ∀ k < n, (m.roundCycle rounds k).2 = .ok false := by
    intro k hk
    have hk' : m.OnlyLooked rounds k :=
      onlyLooked_of_untouched hwait hpc fun j hj => hkeys j (by omega)
    rw [hk'.roundCycle hwait hpc (hkeys k hk)]
  have hawaits := h.awaitsKey_with hwait
  obtain ⟨_, _, _, hw⟩ := h.exists_eq
  change w = _ at hw
  refine ⟨hresults, h.pc_eq, by rw [hw], by rw [hw], by rw [hw], by rw [hw], by rw [hw], by rw [hw],
    by rw [hw], by rw [hw], fun keys now hdown => ?_⟩
  have hkept := cycle_of_touched (m := { w with keys }) (hawaits keys) hdown now
  rw [hw] at hkept ⊢
  exact hkept

/-- Waits for a key at the last address, where the second byte of the opcode is the first of memory,
while both countdowns are running. -/
def waitingAtEnd : Machine ℚ :=
  { initial .low ⟨fun _ => 0, 0⟩ 0 with
    memory := Memory.zeros.writeBytes 0xfff [0xf5, 0x0a]
    pc := 0xfff
    delay := Countdown.load 9 0
    sound := Countdown.load 2 0 }

theorem waits_until_key_at_end :
    let rounds : ℕ → Round ℚ := fun k => ⟨Keys.released, k, k + 1 / 2, k + 3 / 4⟩
    let keys : Keys := { Keys.released with down := (Keys.released.down.set 9 true).set 7 true }
    let w := waitingAtEnd.afterRounds rounds 4
    waitingAtEnd.AwaitsKey ∧ IsAddress waitingAtEnd.pc ∧
    (∀ k < 4, (rounds k).keys.untouched = true) ∧ keys.untouched = false ∧
    (∀ k < 4, (waitingAtEnd.roundCycle rounds k).2 = .ok false) ∧ w.pc = 0xfff ∧
    w.delay = ⟨5, 3 + 1 / 2⟩ ∧ w.sound = ⟨0, 3 + 3 / 4⟩ ∧
    ({ w with keys }.cycle 4).2 = .ok false ∧ ({ w with keys }.cycle 4).1.pc = 1 ∧
    ({ w with keys }.cycle 4).1.register 5 = 7 := by
  intro rounds keys w
  have hwait : waitingAtEnd.AwaitsKey := by decide +kernel
  have hpc : IsAddress waitingAtEnd.pc := ⟨by decide, by decide⟩
  have hkeys : ∀ k < 4, (rounds k).keys.untouched = true := fun _ _ => rfl
  have hdown : keys.untouched = false := by decide
  obtain ⟨hresults, hstay, -, -, -, -, -, -, hdelay, hsound, hnext⟩ :=
    waits_until_key (n := 4) hwait hpc hkeys
  have hlooks : (waitingAtEnd.afterLooks rounds 4).delay = ⟨5, 3 + 1 / 2⟩ ∧
      (waitingAtEnd.afterLooks rounds 4).sound = ⟨0, 3 + 3 / 4⟩ := by
    decide +kernel
  obtain ⟨hresult, hmove, ⟨k, hk, hlowest, hregister⟩, -⟩ := hnext keys 4 hdown
  have hbelow : ∀ j : ℕ, j < 7 → keys.isDown j = false := by decide
  obtain rfl : k = 7 := by
    refine le_antisymm (hlowest 7 (by decide)) (Nat.le_of_not_lt fun hlt => ?_)
    exact Bool.false_ne_true ((hbelow k hlt).symm.trans hk)
  have hx : waitingAtEnd.fetch.x = 5 := by decide +kernel
  rw [hx] at hregister
  exact ⟨hwait, hpc, hkeys, hdown, hresults, hstay, hdelay.trans hlooks.1, hsound.trans hlooks.2,
    hresult, hmove, hregister⟩

end ChipEight.Machine
