import ChipEight.Proofs.LoadedPrograms
import ChipEight.Proofs.SpritesDrawnTwice
import ChipEight.Proofs.WrittenParts

/-!
# Glyphs in memory

A new machine has the table of glyphs at the start of its memory, and a program that is loaded where
execution starts lies behind it. The table stays there over any run that writes none of its cells.
Selecting the glyph of a digit and drawing five rows then draws that glyph.
-/
namespace ChipEight

def glyphOf (d : ℕ) : List Byte := (glyphTable.drop (d * glyphRows)).take glyphRows

/-- Bit `b` of row `r` is set in the glyph of a digit. -/
def GlyphBit (d r b : ℕ) : Prop := b < 8 ∧ ∃ row, (glyphOf d)[r]? = some row ∧ row.getMsbD b

theorem GlyphName.digit?_lt {name : GlyphName} {d : ℕ} (h : name.digit? = some d) : d < 16 := by
  cases name with
  | number n =>
    simp only [digit?, Option.ite_none_right_eq_some, Option.some.injEq] at h
    omega
  | truth b =>
    obtain rfl := Option.some.inj h
    exact Nat.lt_of_lt_of_le (Bool.toNat_lt b) (by decide)
  | absent | real | text => cases h

namespace Memory
variable {m : Memory} {d : ℕ}

/-- The table of glyphs stands at the start of memory. -/
def HasGlyphs (m : Memory) : Prop := ∀ a < glyphTable.length, glyphTable[a]? = some (m.read a)

theorem hasGlyphs_initial : initial.HasGlyphs := by
  intro a ha
  have hfirst : position zeros.cells.size 0 = 0 := by
    rw [position, if_neg (Int.lt_irrefl 0)]
    exact Nat.zero_min _
  have hcell : initial.cells[a]? = glyphTable[a]? := by
    rw [initial, withGlyphs, getElem?_place_of_lt (by omega), hfirst, if_neg (Nat.not_lt_zero a),
      Nat.sub_zero]
  rw [← hcell, getElem?_eq_read _ (Nat.lt_trans ha (by decide))]

/-- A program that is loaded behind the table leaves it as it is. -/
theorem HasGlyphs.place (h : m.HasGlyphs) (hm : m.cells.size = memorySize) (program : List Byte) :
    (m.place programStart program).HasGlyphs := by
  intro a ha
  have hfirst : position m.cells.size programStart = 0x200 := by
    rw [hm]
    rfl
  have hsmall : a < 0x200 := Nat.lt_trans ha (by decide)
  have hcell : (m.place programStart program).cells[a]? = m.cells[a]? := by
    rw [getElem?_place_of_lt (by omega), hfirst, if_pos hsmall]
  rw [getElem?_eq_read _ (Nat.lt_trans ha (by decide)),
    getElem?_eq_read _ (Nat.lt_trans ha (by decide))] at hcell
  rw [hcell, h a ha]

/-- The rows of a digit stand one after the other from the address of its glyph on. -/
theorem readBytes_eq_glyphOf (h : m.HasGlyphs) (hd : d < 16) :
    m.readBytes (d * glyphRows : ℕ) glyphRows = glyphOf d := by
  refine List.ext_getElem? fun r => ?_
  rw [glyphOf]
  by_cases hr : r < glyphRows
  · have hinside : d * glyphRows + r < glyphTable.length := by
      rw [glyphRows] at hr ⊢
      exact Nat.lt_of_lt_of_le (m := 80) (by omega) (by decide)
    rw [List.getElem?_take_of_lt hr, List.getElem?_drop, h _ hinside, Int.natCast_add]
    exact getElem?_readBytes.mpr ⟨hr, rfl⟩
  · rw [List.getElem?_eq_none (by rw [length_readBytes]; omega),
      List.getElem?_take_eq_none (by omega)]

theorem glyph_eq_glyphOf (h : m.HasGlyphs) {name : GlyphName} (hname : name.digit? = some d) :
    m.glyph name = .ok (glyphOf d) := by
  rw [← readBytes_eq_glyphOf h (GlyphName.digit?_lt hname), glyph, glyphAddress, hname]
  rfl

end Memory

namespace Machine
variable {τ : Type} {m : Machine τ} {d : ℕ} {w : Opcode}

/-- A sprite of five rows at the address of a glyph is that glyph. -/
theorem spriteBit_iff (h : m.memory.HasGlyphs) (hd : d < 16)
    (hindex : m.index = (d * glyphRows : ℕ)) (hn : w.n = 5) (r b : ℕ) :
    m.SpriteBit w r b ↔ GlyphBit d r b := by
  have hrows : w.n.toNat = glyphRows := by rw [hn]; rfl
  rw [SpriteBit, GlyphBit, ← Memory.readBytes_eq_glyphOf h hd, hrows, hindex, Memory.read_emod]
  simp only [Memory.getElem?_readBytes]
  constructor
  · rintro ⟨hr, hb, hbit⟩
    exact ⟨hb, _, ⟨hr, rfl⟩, hbit⟩
  · rintro ⟨hb, row, ⟨hr, rfl⟩, hbit⟩
    exact ⟨hr, hb, hbit⟩

theorem lit_drawSprite_glyph (h : m.memory.HasGlyphs) (hd : d < 16)
    (hindex : m.index = (d * glyphRows : ℕ)) (hn : w.n = 5) (p q : Int) :
    (m.drawSprite w.x w.y w.n).display.lit p q ≠ m.display.lit p q ↔
      ∃ r b : ℕ, GlyphBit d r b ∧
        (m.register w.x + b) % m.display.width = p % m.display.width ∧
        (m.register w.y + r) % m.display.height = q % m.display.height := by
  rw [lit_drawSprite_ne]
  simp only [spriteBit_iff h hd hindex hn]

theorem flag_drawSprite_glyph (h : m.memory.HasGlyphs) (hd : d < 16)
    (hindex : m.index = (d * glyphRows : ℕ)) (hn : w.n = 5) :
    (m.drawSprite w.x w.y w.n).register 0xf = 1 ↔
      ∃ r b : ℕ, GlyphBit d r b ∧
        m.display.lit (m.register w.x + b) (m.register w.y + r) = true := by
  rw [flag_drawSprite_iff]
  simp only [spriteBit_iff h hd hindex hn]

theorem cycle_of_selectGlyph (hfirst : m.fetch.firstDigit = 0xf) (hkk : m.fetch.kk = 0x29) (now : τ) :
    m.cycle now =
      ({ m.fetched with index := m.register m.fetch.x * glyphRows }, .ok false) := by
  have hi : Instruction.ofOpcode? m.fetch = some (.selectGlyph m.fetch.x) :=
    Instruction.ofOpcode?_eq_some_iff.mpr ⟨hfirst, rfl, hkk⟩
  exact cycle_of_ok hi rfl

theorem flag_drawSprite_eq (m : Machine τ) (x y : Register) (n : BitVec 4) :
    (m.drawSprite x y n).register 0xf = 0 ∨ (m.drawSprite x y n).register 0xf = 1 := by
  have hflag := m.registers.get_set 0xf 0xf
  rw [drawSprite, register, hflag, if_pos rfl]
  split
  · exact .inr rfl
  · exact .inl rfl

variable [Clock τ] {beats : ℕ → Beat τ} {n : ℕ}

theorem hasGlyphs_after (h : m.memory.HasGlyphs)
    (hkeep : ∀ k < n, ∀ address : Int, 0 ≤ address → address ≤ 0x4f →
      ¬ (m.before beats k).Writes (.cell address)) :
    (m.after beats n).memory.HasGlyphs := by
  intro a ha
  have hlast : a < 80 := ha
  rw [h a ha, read_after fun k hk => hkeep k hk a (by omega) (by omega)]

/-- After an instruction that selects a glyph, up to the next cycle, the index is the address of the
glyph and nothing else has changed that drawing looks at. -/
theorem before_of_selectGlyph (hfirst : (m.opcode beats n).firstDigit = 0xf)
    (hkk : (m.opcode beats n).kk = 0x29) :
    let selected := m.before beats (n + 1)
    selected.index = (m.after beats n).register (m.opcode beats n).x * glyphRows ∧
    selected.memory = (m.after beats n).memory ∧
    selected.registers = (m.after beats n).registers ∧
    selected.display = (m.after beats n).display := by
  have hcycle := cycle_of_selectGlyph (m := m.before beats n) hfirst hkk (beats n).now
  intro selected
  have hselected : selected = (m.after beats (n + 1)).hostAll (beats (n + 1)).acts := rfl
  rw [hselected, index_hostAll, memory_hostAll, registers_hostAll, display_hostAll, after_succ,
    hcycle]
  refine ⟨?_, memory_hostAll, registers_hostAll, display_hostAll⟩
  rw [register, register, before, registers_hostAll]
  rfl

/-- The table of glyphs survives every run of a new machine with a program in which no instruction
writes a cell of the table: each digit still has its glyph. If the next two instructions select the
glyph of a digit and draw five rows, then the index is the address of that glyph, and just the pixels
change that its set bits fall on once they have wrapped around. The flag is set exactly if a set bit
fell on a lit pixel, and the second cycle asks for a redraw. -/
theorem glyphs_survive {resolution : Resolution} {noise : Noise} {start : τ} {program : List Byte}
    (hload : (initial resolution noise start).load program programStart = (m, .ok ()))
    (hkeep : ∀ k < n, ∀ address : Int, 0 ≤ address → address ≤ 0x4f →
      ¬ (m.before beats k).Writes (.cell address)) :
    let s := m.after beats n
    (∀ (name : GlyphName) (d : ℕ), name.digit? = some d →
      s.memory.glyph name = .ok (glyphOf d)) ∧
    ∀ d : ℕ, d ≤ 0xf →
      (m.opcode beats n).firstDigit = 0xf → (m.opcode beats n).kk = 0x29 →
      s.register (m.opcode beats n).x = d →
      (m.opcode beats (n + 1)).firstDigit = 0xd → (m.opcode beats (n + 1)).n = 5 →
      let drawn := m.after beats (n + 2)
      let x := s.register (m.opcode beats (n + 1)).x
      let y := s.register (m.opcode beats (n + 1)).y
      (∃ address : ℕ, Memory.glyphAddress (.number d) = .ok address ∧
        (m.before beats (n + 1)).index = address) ∧
      m.result beats n = .ok false ∧ m.result beats (n + 1) = .ok true ∧
      (∀ p q : Int, drawn.display.lit p q ≠ s.display.lit p q ↔
        ∃ r b : ℕ, GlyphBit d r b ∧ (x + b) % s.display.width = p % s.display.width ∧
          (y + r) % s.display.height = q % s.display.height) ∧
      (drawn.register 0xf = 1 ↔
        ∃ r b : ℕ, GlyphBit d r b ∧ s.display.lit (x + b) (y + r) = true) ∧
      (drawn.register 0xf = 0 ∨ drawn.register 0xf = 1) := by
  have hnew : m.memory.HasGlyphs := by
    obtain ⟨-, rfl⟩ := load_eq_ok_iff.mp hload
    exact Memory.hasGlyphs_initial.place Memory.size_initial program
  have hglyphs := hasGlyphs_after hnew hkeep
  intro s
  refine ⟨fun name d => Memory.glyph_eq_glyphOf hglyphs, ?_⟩
  intro d hd hfirst hkk hdigit hdraw hrows drawn x y
  have hd16 : d < 16 := Nat.lt_succ_of_le hd
  obtain ⟨hindex, hmemory, hregisters, hdisplay⟩ := before_of_selectGlyph hfirst hkk
  rw [hdigit, ← Int.natCast_mul] at hindex
  have haddress : Memory.glyphAddress (.number d) = .ok (d * glyphRows) := by
    rw [Memory.glyphAddress, GlyphName.digit?, if_pos (by omega), Int.toNat_natCast]
  -- what the second instruction finds once it has been fetched
  have hfetched : (m.before beats (n + 1)).fetched.memory.HasGlyphs := by
    rw [← hmemory] at hglyphs
    exact hglyphs
  have hcycle := cycle_of_draw (fetch_eq_opcodeAt (m.before beats (n + 1))).symm hdraw
    (beats (n + 1)).now
  have hdrawn : drawn = (m.before beats (n + 1)).fetched.drawSprite (m.opcode beats (n + 1)).x
      (m.opcode beats (n + 1)).y (m.opcode beats (n + 1)).n := congrArg Prod.fst hcycle
  have hscreen : (m.before beats (n + 1)).fetched.display = s.display := hdisplay
  have hregister (z : Register) : (m.before beats (n + 1)).fetched.register z = s.register z := by
    rw [register, register, ← hregisters]
    rfl
  have hlit := lit_drawSprite_glyph hfetched hd16 hindex hrows
  have hflag := flag_drawSprite_glyph hfetched hd16 hindex hrows
  rw [← hdrawn, hscreen, hregister, hregister] at hflag
  rw [← hdrawn] at hlit
  simp only [hscreen, hregister] at hlit
  refine ⟨⟨d * glyphRows, haddress, hindex⟩, ?_, congrArg Prod.snd hcycle, ?_, ?_, ?_⟩
  · exact congrArg Prod.snd (cycle_of_selectGlyph (m := m.before beats n) hfirst hkk _)
  · exact hlit
  · exact hflag
  · rw [hdrawn]
    exact flag_drawSprite_eq _ _ _ _

/-- A program that stores two registers in the last two cells of memory, right before the table as
addresses wrap around, and then draws the glyph of the digit 10 at the position (10, 0). -/
def storingBelowGlyphs : List Byte := [0xaf, 0xfe, 0xf1, 0x55, 0x60, 0x0a, 0xf0, 0x29, 0xd0, 0x15]

theorem glyphs_survive_storing_below :
    let m := { initial .low ⟨fun _ => 0, 0⟩ (0 : Float) with
      memory := (Memory.zeros.writeBytes 0 glyphTable).writeBytes programStart storingBelowGlyphs }
    let idle : ℕ → Beat Float := fun _ => ⟨[], 0⟩
    (initial .low ⟨fun _ => 0, 0⟩ 0).load storingBelowGlyphs programStart = (m, .ok ()) ∧
    (∀ k < 3, ∀ address : Int, 0 ≤ address → address ≤ 0x4f →
      ¬ (m.before idle k).Writes (.cell address)) ∧
    (m.after idle 3).memory.glyph (.number 0xf) = .ok (glyphOf 0xf) ∧
    m.result idle 4 = .ok true ∧
    (m.after idle 5).display.lit 13 4 ≠ (m.after idle 3).display.lit 13 4 := by
  intro m idle
  have hload : (initial .low ⟨fun _ => 0, 0⟩ (0 : Float)).load storingBelowGlyphs programStart =
      (m, .ok ()) := by
    have hzeros : Memory.zeros.cells.size = memorySize := Array.size_replicate
    have hglyphs : Memory.initial = Memory.zeros.writeBytes 0 glyphTable :=
      Memory.place_eq_writeBytes hzeros (by decide) (by decide) (by decide)
    have hprogram : Memory.initial.place programStart storingBelowGlyphs = m.memory := by
      rw [Memory.place_eq_writeBytes Memory.size_initial (by decide) (by decide) (by decide),
        hglyphs]
    exact load_eq_ok_iff.mpr ⟨by decide, congrArg (fun memory => { m with memory }) hprogram.symm⟩
  have hindex : (m.before idle 1).index = 0xffe := by decide +kernel
  obtain ⟨hopcode0, hopcode1, hopcode2, hopcode3, hopcode4⟩ :
      (m.before idle 0).fetch = 0xaffe ∧ (m.before idle 1).fetch = 0xf155 ∧
      (m.before idle 2).fetch = 0x600a ∧ m.opcode idle 3 = 0xf029 ∧ m.opcode idle 4 = 0xd015 := by
    decide +kernel
  have hkeep : ∀ k < 3, ∀ address : Int, 0 ≤ address → address ≤ 0x4f →
      ¬ (m.before idle k).Writes (.cell address) := by
    intro k hk address hfirst hlast hwrites
    interval_cases k
    · rw [Writes, hopcode0] at hwrites
      exact absurd hwrites.1 (by decide)
    · rw [Writes, hopcode1, hindex] at hwrites
      obtain ⟨-, ⟨hkk, -⟩ | ⟨-, j, hj, hcell⟩⟩ := hwrites
      · exact absurd hkk (by decide)
      · have hj1 : j < 2 := hj
        rw [memorySize] at hcell
        omega
    · rw [Writes, hopcode2] at hwrites
      exact absurd hwrites.1 (by decide)
  obtain ⟨hglyph, hdraws⟩ := glyphs_survive hload hkeep
  have hdraw := hdraws 0xa (by decide)
  rw [hopcode3, hopcode4] at hdraw
  obtain ⟨-, -, hredraw, hlit, -⟩ :=
    hdraw (by decide) (by decide) (by decide +kernel) (by decide) (by decide)
  have hbit : GlyphBit 0xa 4 3 := ⟨by decide, by decide⟩
  have hlights := (hlit 13 4).mpr ⟨4, 3, hbit, by decide +kernel, by decide +kernel⟩
  exact ⟨hload, hkeep, hglyph _ _ rfl, hredraw, hlights⟩

end Machine

end ChipEight
