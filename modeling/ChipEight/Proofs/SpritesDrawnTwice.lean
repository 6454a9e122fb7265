import ChipEight.Proofs.ByteRegisters
import ChipEight.Proofs.CycleOutcomes
import ChipEight.Proofs.SpritePixels
import ChipEight.Seconds

/-!
# Sprites drawn twice

Two cycles that draw the same sprite at the same place leave the display as it was. The second one
reports a collision exactly if the first one lit a pixel. For the sprite to be the same, the flag
register, which the first cycle sets, must not be one of the coordinates.
-/
namespace ChipEight.Machine
variable {τ : Type} {m : Machine τ} {w : Opcode}

/-- The opcode at an address, its second byte at the next one. -/
def opcodeAt (m : Machine τ) (address : Int) : Opcode :=
  m.memory.read (address % memorySize) ++ m.memory.read ((address + 1) % memorySize)

theorem fetch_eq_opcodeAt (m : Machine τ) : m.fetch = m.opcodeAt m.pc := by
  simp only [fetch, opcodeAt, Memory.read_emod]

theorem opcodeAt_emod (m : Machine τ) (address : Int) :
    m.opcodeAt (address % memorySize) = m.opcodeAt address := by
  rw [opcodeAt, opcodeAt, Int.emod_emod, Int.emod_add_emod]

theorem cycle_of_draw (hop : m.opcodeAt m.pc = w) (hdraw : w.firstDigit = 0xd) (now : τ) :
    m.cycle now = (m.fetched.drawSprite w.x w.y w.n, .ok true) := by
  rw [← fetch_eq_opcodeAt] at hop
  subst hop
  have hi : Instruction.ofOpcode? m.fetch = some (.draw m.fetch.x m.fetch.y m.fetch.n) :=
    Instruction.ofOpcode?_eq_some_iff.mpr ⟨hdraw, rfl, rfl, rfl⟩
  exact cycle_of_ok hi rfl

/-- Bit `b` of row `r` is set in the sprite that an opcode draws. The rows stand at the index and
the addresses after it, which wrap around. -/
def SpriteBit (m : Machine τ) (w : Opcode) (r b : ℕ) : Prop :=
  r < w.n.toNat ∧ b < 8 ∧ (m.memory.read ((m.index + r) % memorySize)).getMsbD b

def spriteRows (m : Machine τ) (w : Opcode) : List Byte := m.memory.readBytes m.index w.n.toNat

theorem mem_spritePoints_iff {x y : Int} {p : Point} :
    p ∈ Display.spritePoints x y (m.spriteRows w) ↔
      ∃ r b : ℕ, m.SpriteBit w r b ∧ p = (x + b, y + r) := by
  rw [Display.mem_spritePoints]
  constructor
  · rintro ⟨r, row, hrow, b, hb, hbit, rfl⟩
    obtain ⟨hr, rfl⟩ := Memory.getElem?_readBytes.mp hrow
    exact ⟨r, b, ⟨hr, hb, by rwa [Memory.read_emod]⟩, rfl⟩
  · rintro ⟨r, b, ⟨hr, hb, hbit⟩, rfl⟩
    rw [Memory.read_emod] at hbit
    exact ⟨r, _, Memory.getElem?_readBytes.mpr ⟨hr, rfl⟩, b, hb, hbit, rfl⟩

theorem length_spriteRows_le (m : Machine τ) (w : Opcode) (r : Resolution) :
    (m.spriteRows w).length ≤ r.height := by
  have hn := w.n.isLt
  rw [spriteRows, Memory.length_readBytes]
  cases r <;> simp only [Resolution.height] <;> omega

theorem lit_drawSprite_ne (m : Machine τ) (w : Opcode) (p q : Int) :
    (m.drawSprite w.x w.y w.n).display.lit p q ≠ m.display.lit p q ↔
      ∃ r b : ℕ, m.SpriteBit w r b ∧
        (m.register w.x + b) % m.display.width = p % m.display.width ∧
        (m.register w.y + r) % m.display.height = q % m.display.height := by
  have h := Display.lit_drawSprite_ne_iff (x := m.register w.x) (y := m.register w.y)
    (m.length_spriteRows_le w m.display.resolution) (p, q)
  refine Iff.trans h ?_
  simp only [mem_spritePoints_iff]
  constructor
  · rintro ⟨-, ⟨r, b, hbit, rfl⟩, hpixel⟩
    exact ⟨r, b, hbit, Prod.mk.inj hpixel⟩
  · rintro ⟨r, b, hbit, hx, hy⟩
    exact ⟨_, ⟨r, b, hbit, rfl⟩, Prod.ext hx hy⟩

theorem register_drawSprite (m : Machine τ) (x y : Register) (n : BitVec 4) {z : Register}
    (hz : z ≠ 0xf) : (m.drawSprite x y n).register z = m.register z :=
  (m.registers.get_set 0xf z _).trans (if_neg hz.symm)

theorem flag_drawSprite (m : Machine τ) (w : Opcode) :
    (m.drawSprite w.x w.y w.n).register 0xf = 1 ↔
      (m.display.drawSprite (m.register w.x) (m.register w.y) (m.spriteRows w)).2 = true := by
  rw [drawSprite, register, Registers.get_set, if_pos rfl]
  split
  case isTrue h => exact iff_of_true rfl h
  case isFalse h => exact iff_of_false (by decide) h

theorem flag_drawSprite_iff (m : Machine τ) (w : Opcode) :
    (m.drawSprite w.x w.y w.n).register 0xf = 1 ↔
      ∃ r b : ℕ, m.SpriteBit w r b ∧
        m.display.lit (m.register w.x + b) (m.register w.y + r) = true := by
  have h := Display.erased_drawSprite (x := m.register w.x) (y := m.register w.y)
    (m.length_spriteRows_le w m.display.resolution)
  rw [flag_drawSprite]
  refine Iff.trans h ?_
  simp only [mem_spritePoints_iff]
  constructor
  · rintro ⟨-, ⟨r, b, hbit, rfl⟩, hlit⟩
    exact ⟨r, b, hbit, hlit⟩
  · rintro ⟨r, b, hbit, hlit⟩
    exact ⟨_, ⟨r, b, hbit, rfl⟩, hlit⟩

section Redrawn
variable (hx : w.x ≠ 0xf) (hy : w.y ≠ 0xf)
include hx hy

/-- What is drawn the second time is the same sprite at the same place. -/
theorem display_fetched_drawSprite :
    ((m.drawSprite w.x w.y w.n).fetched.drawSprite w.x w.y w.n).display = m.display := by
  have hsecond : ((m.drawSprite w.x w.y w.n).fetched.drawSprite w.x w.y w.n).display =
      ((m.drawSprite w.x w.y w.n).display.drawSprite ((m.drawSprite w.x w.y w.n).register w.x)
        ((m.drawSprite w.x w.y w.n).register w.y) (m.spriteRows w)).1 := rfl
  rw [hsecond, register_drawSprite _ _ _ _ hx, register_drawSprite _ _ _ _ hy]
  exact m.display.drawSprite_drawSprite _ _ _

/-- The second time there is a collision if a set bit fell on a dark pixel the first time. -/
theorem flag_fetched_drawSprite :
    ((m.drawSprite w.x w.y w.n).fetched.drawSprite w.x w.y w.n).register 0xf = 1 ↔
      ∃ r b : ℕ, m.SpriteBit w r b ∧
        m.display.lit (m.register w.x + b) (m.register w.y + r) = false := by
  have hkeep : ∀ z, z ≠ 0xf → (m.drawSprite w.x w.y w.n).fetched.register z = m.register z :=
    fun z hz => m.register_drawSprite w.x w.y w.n hz
  have h := Display.erased_drawSprite_drawSprite (x := m.register w.x) (y := m.register w.y)
    (m.length_spriteRows_le w m.display.resolution)
  rw [flag_drawSprite, hkeep _ hx, hkeep _ hy]
  refine Iff.trans h ?_
  simp only [mem_spritePoints_iff]
  constructor
  · rintro ⟨-, ⟨r, b, hbit, rfl⟩, hdark⟩
    exact ⟨r, b, hbit, hdark⟩
  · rintro ⟨r, b, hbit, hdark⟩
    exact ⟨_, ⟨r, b, hbit, rfl⟩, hdark⟩

end Redrawn

/-- Drawing twice erases. The same opcode, which draws a sprite and takes neither coordinate from the
flag register, stands at the program counter and after it. Then both cycles ask for a redraw, and the
first one toggles the pixels that the set bits of the sprite fall on once they have wrapped around.
After the second one the display is as it was, the flag is set exactly if a set bit fell on a pixel
that was dark at first, and nothing else has changed but the addresses of the instructions. -/
theorem draw_twice (hfirst : m.opcodeAt m.pc = w) (hsecond : m.opcodeAt (m.pc + 2) = w)
    (hdraw : w.firstDigit = 0xd) (hx : w.x ≠ 0xf) (hy : w.y ≠ 0xf) (now now' : τ) :
    let once := m.cycle now
    let twice := once.1.cycle now'
    let x := m.register w.x
    let y := m.register w.y
    once.2 = .ok true ∧ twice.2 = .ok true ∧
    (∀ p q : Int, once.1.display.lit p q ≠ m.display.lit p q ↔
      ∃ r b : ℕ, m.SpriteBit w r b ∧ (x + b) % m.display.width = p % m.display.width ∧
        (y + r) % m.display.height = q % m.display.height) ∧
    (twice.1.register 0xf = 1 ↔
      ∃ r b : ℕ, m.SpriteBit w r b ∧ m.display.lit (x + b) (y + r) = false) ∧
    (∀ z, z ≠ 0xf → twice.1.register z = m.register z) ∧
    twice.1 = { m with
      registers := twice.1.registers, pc := (m.pc + 4) % memorySize,
      opcodeAddress := (m.pc + 2) % memorySize, redraw := true } := by
  have honce := cycle_of_draw hfirst hdraw now
  have hnext : (m.fetched.drawSprite w.x w.y w.n).opcodeAt ((m.pc + 2) % memorySize) = w :=
    (m.opcodeAt_emod (m.pc + 2)).trans hsecond
  have htwice := cycle_of_draw hnext hdraw now'
  simp only [honce, htwice]
  refine ⟨trivial, trivial, m.fetched.lit_drawSprite_ne w, flag_fetched_drawSprite hx hy,
    fun z hz => ?_, ?_⟩
  · exact (register_drawSprite _ _ _ _ hz).trans (register_drawSprite _ _ _ _ hz)
  · have hdisplay : _ = m.display := display_fetched_drawSprite (m := m.fetched) hx hy
    have hpc : ((m.pc + 2) % memorySize + 2) % memorySize = (m.pc + 4) % memorySize := by
      rw [Int.emod_add_emod, Int.add_assoc]
      rfl
    rw [← hdisplay, ← hpc]
    rfl

/-- A sprite that wraps around the end of memory is drawn across a corner of the screen, where one of
its bits falls on a lit pixel. -/
def cornered : Machine Float :=
  { initial .low ⟨fun _ => 0, 0⟩ 0 with
    memory := Memory.zeros.writeBytes 0xffd [0x81, 0xd0, 0x15, 0xd0, 0x15]
    registers := (Registers.zeros.set 0 62).set 1 30
    pc := 0xffe
    index := 0xffd
    display := (Display.blank .low).toggle 62 30 }

theorem draw_twice_cornered :
    let w : Opcode := 0xd015
    let twice := (cornered.cycle 0).1.cycle 0
    cornered.opcodeAt cornered.pc = w ∧ cornered.opcodeAt (cornered.pc + 2) = w ∧
    w.firstDigit = 0xd ∧ w.x ≠ 0xf ∧ w.y ≠ 0xf ∧
    twice.2 = .ok true ∧ twice.1.register 0xf = 1 ∧ twice.1.display = cornered.display := by
  intro w twice
  have hfirst : cornered.opcodeAt cornered.pc = w := by decide +kernel
  have hsecond : cornered.opcodeAt (cornered.pc + 2) = w := by decide +kernel
  have hdraw : w.firstDigit = 0xd := by decide
  have hx : w.x ≠ 0xf := by decide
  have hy : w.y ≠ 0xf := by decide
  obtain ⟨-, hredraw, -, hflag, -, hkeep⟩ := draw_twice hfirst hsecond hdraw hx hy 0 0
  -- the lowest bit of the first row lights a pixel on the other side
  have hbit : cornered.SpriteBit w 0 7 := ⟨by decide, by decide, by decide +kernel⟩
  have hdark : cornered.display.lit (cornered.register w.x + (7 : ℕ))
      (cornered.register w.y + (0 : ℕ)) = false := by decide +kernel
  have hdisplay : twice.1.display = cornered.display := by rw [hkeep]
  exact ⟨hfirst, hsecond, hdraw, hx, hy, hredraw, hflag.mpr ⟨0, 7, hbit, hdark⟩, hdisplay⟩

end ChipEight.Machine
