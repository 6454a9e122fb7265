import ChipEight.Instruction.Decode
import Mathlib.Tactic.Common
import Mathlib.Tactic.FinCases

/-!
# The written forms of the instructions

Every instruction is written with a first digit and, unless that settles it, with fixed last digits.
Decoding an opcode gives an instruction exactly if the opcode is one of its written forms. An opcode
agrees with one key only, except for the two opcodes without operands, which also have the form of a
system call, and there is a handler for every key.
-/
namespace ChipEight

namespace Opcode

def firstDigit (w : Opcode) : BitVec 4 := (w >>> 12).setWidth 4

private theorem exists_append (k l : ℕ) (w : BitVec (k + l)) :
    ∃ (a : BitVec k) (b : BitVec l), w = a ++ b :=
  ⟨_, _, BitVec.extractLsb'_append_extractLsb'.symm⟩

theorem append_inj {k l : ℕ} {a c : BitVec k} {b d : BitVec l} :
    a ++ b = c ++ d ↔ a = c ∧ b = d := by
  constructor
  · intro h
    constructor
    · simpa only [BitVec.extractLsb'_append_eq_left] using congrArg (·.extractLsb' l k) h
    · simpa only [BitVec.extractLsb'_append_eq_right] using congrArg (·.extractLsb' 0 l) h
  · rintro ⟨rfl, rfl⟩
    rfl

private theorem shift_blocks {k l m : ℕ} (a : BitVec k) (b : BitVec l) (c : BitVec m) :
    ((a ++ b ++ c) >>> (m + l)).setWidth k = a := by
  ext i hi
  have hm : ¬ m + (l + i) < m := by omega
  have hl : ¬ l + i < l := by omega
  simp [BitVec.getLsbD_append, Nat.add_assoc, hm, hl, BitVec.getLsbD_eq_getElem hi]

/-- A mask that keeps the first and the last of three blocks compares both. -/
private theorem and_blocks {k l m : ℕ} (a c : BitVec k) (b d : BitVec l) (x y : BitVec m) :
    (a ++ b ++ x) &&& (BitVec.allOnes k ++ 0#l ++ BitVec.allOnes m) =
      (c ++ d ++ y) &&& (BitVec.allOnes k ++ 0#l ++ BitVec.allOnes m) ↔ a = c ∧ x = y := by
  simp only [BitVec.and_append, append_inj, BitVec.and_allOnes, BitVec.and_zero, and_true]

private theorem exists_blocks (k l m : ℕ) (w : BitVec (k + l + m)) :
    ∃ (a : BitVec k) (b : BitVec l) (c : BitVec m), w = a ++ b ++ c := by
  obtain ⟨ab, c, rfl⟩ := exists_append (k + l) m w
  obtain ⟨a, b, rfl⟩ := exists_append k l ab
  exact ⟨a, b, c, rfl⟩

theorem and_f000 (v w : Opcode) :
    w &&& 0xf000 = v &&& 0xf000 ↔ w.firstDigit = v.firstDigit := by
  obtain ⟨a, b, x, rfl⟩ := exists_blocks 4 12 0 w
  obtain ⟨c, d, y, rfl⟩ := exists_blocks 4 12 0 v
  rw [show Opcode.firstDigit (a ++ b ++ x) = a from shift_blocks a b x,
    show Opcode.firstDigit (c ++ d ++ y) = c from shift_blocks c d y]
  exact (and_blocks a c b d x y).trans (by simp [BitVec.of_length_zero])

theorem and_f00f (v w : Opcode) :
    w &&& 0xf00f = v &&& 0xf00f ↔ w.firstDigit = v.firstDigit ∧ w.n = v.n := by
  obtain ⟨a, b, x, rfl⟩ := exists_blocks 4 8 4 w
  obtain ⟨c, d, y, rfl⟩ := exists_blocks 4 8 4 v
  rw [show Opcode.firstDigit (a ++ b ++ x) = a from shift_blocks a b x,
    show Opcode.firstDigit (c ++ d ++ y) = c from shift_blocks c d y,
    show Opcode.n (a ++ b ++ x) = x from BitVec.setWidth_append_eq_right,
    show Opcode.n (c ++ d ++ y) = y from BitVec.setWidth_append_eq_right]
  exact and_blocks a c b d x y

theorem and_f0ff (v w : Opcode) :
    w &&& 0xf0ff = v &&& 0xf0ff ↔ w.firstDigit = v.firstDigit ∧ w.kk = v.kk := by
  obtain ⟨a, b, x, rfl⟩ := exists_blocks 4 4 8 w
  obtain ⟨c, d, y, rfl⟩ := exists_blocks 4 4 8 v
  rw [show Opcode.firstDigit (a ++ b ++ x) = a from shift_blocks a b x,
    show Opcode.firstDigit (c ++ d ++ y) = c from shift_blocks c d y,
    show Opcode.kk (a ++ b ++ x) = x from BitVec.setWidth_append_eq_right,
    show Opcode.kk (c ++ d ++ y) = y from BitVec.setWidth_append_eq_right]
  exact and_blocks a c b d x y

end Opcode

/-- The opcodes that an instruction is written as. The second operand of a shift is free. -/
def Instruction.WrittenAs (w : Opcode) : Instruction → Prop
  | .clearScreen => w = 0x00e0
  | .ret => w = 0x00ee
  | .system nnn => w.firstDigit = 0x0 ∧ w.nnn = nnn ∧ w ≠ 0x00e0 ∧ w ≠ 0x00ee
  | .jump nnn => w.firstDigit = 0x1 ∧ w.nnn = nnn
  | .call nnn => w.firstDigit = 0x2 ∧ w.nnn = nnn
  | .skipEqByte x kk => w.firstDigit = 0x3 ∧ w.x = x ∧ w.kk = kk
  | .skipNeByte x kk => w.firstDigit = 0x4 ∧ w.x = x ∧ w.kk = kk
  | .skipEq x y => w.firstDigit = 0x5 ∧ w.x = x ∧ w.y = y ∧ w.n = 0x0
  | .loadByte x kk => w.firstDigit = 0x6 ∧ w.x = x ∧ w.kk = kk
  | .addByte x kk => w.firstDigit = 0x7 ∧ w.x = x ∧ w.kk = kk
  | .copy x y => w.firstDigit = 0x8 ∧ w.x = x ∧ w.y = y ∧ w.n = 0x0
  | .or x y => w.firstDigit = 0x8 ∧ w.x = x ∧ w.y = y ∧ w.n = 0x1
  | .and x y => w.firstDigit = 0x8 ∧ w.x = x ∧ w.y = y ∧ w.n = 0x2
  | .xor x y => w.firstDigit = 0x8 ∧ w.x = x ∧ w.y = y ∧ w.n = 0x3
  | .add x y => w.firstDigit = 0x8 ∧ w.x = x ∧ w.y = y ∧ w.n = 0x4
  | .sub x y => w.firstDigit = 0x8 ∧ w.x = x ∧ w.y = y ∧ w.n = 0x5
  | .shiftRight x => w.firstDigit = 0x8 ∧ w.x = x ∧ w.n = 0x6
  | .subFrom x y => w.firstDigit = 0x8 ∧ w.x = x ∧ w.y = y ∧ w.n = 0x7
  | .shiftLeft x => w.firstDigit = 0x8 ∧ w.x = x ∧ w.n = 0xe
  | .skipNe x y => w.firstDigit = 0x9 ∧ w.x = x ∧ w.y = y ∧ w.n = 0x0
  | .loadIndex nnn => w.firstDigit = 0xa ∧ w.nnn = nnn
  | .jumpOffset nnn => w.firstDigit = 0xb ∧ w.nnn = nnn
  | .random x kk => w.firstDigit = 0xc ∧ w.x = x ∧ w.kk = kk
  | .draw x y n => w.firstDigit = 0xd ∧ w.x = x ∧ w.y = y ∧ w.n = n
  | .skipKey x => w.firstDigit = 0xe ∧ w.x = x ∧ w.kk = 0x9e
  | .skipNoKey x => w.firstDigit = 0xe ∧ w.x = x ∧ w.kk = 0xa1
  | .loadDelay x => w.firstDigit = 0xf ∧ w.x = x ∧ w.kk = 0x07
  | .waitKey x => w.firstDigit = 0xf ∧ w.x = x ∧ w.kk = 0x0a
  | .setDelay x => w.firstDigit = 0xf ∧ w.x = x ∧ w.kk = 0x15
  | .setSound x => w.firstDigit = 0xf ∧ w.x = x ∧ w.kk = 0x18
  | .addIndex x => w.firstDigit = 0xf ∧ w.x = x ∧ w.kk = 0x1e
  | .selectGlyph x => w.firstDigit = 0xf ∧ w.x = x ∧ w.kk = 0x29
  | .decimal x => w.firstDigit = 0xf ∧ w.x = x ∧ w.kk = 0x33
  | .save x => w.firstDigit = 0xf ∧ w.x = x ∧ w.kk = 0x55
  | .restore x => w.firstDigit = 0xf ∧ w.x = x ∧ w.kk = 0x65

namespace Opcode
variable {w : Opcode} {opcode key : Int} {entries : List (Int × List Int)} {test : Int × Int}

/-! ## Masks and their keys -/

/-- The keys of a list of masks, each after its mask. -/
def tests (entries : List (Int × List Int)) : List (Int × Int) :=
  entries.flatMap fun entry => entry.2.map fun key => (entry.1, key)

theorem mem_tests : test ∈ tests entries ↔ ∃ entry ∈ entries, test.2 ∈ entry.2 ∧ test.1 = entry.1 := by
  obtain ⟨mask, key⟩ := test
  simp [tests, eq_comm]

theorem keyUnder?_eq_some_iff {entry : Int × List Int} :
    keyUnder? opcode entry = some key ↔ key ∈ entry.2 ∧ Bitwise.and opcode entry.1 = key := by
  simp only [keyUnder?, Option.ite_none_right_eq_some, Option.some.injEq]
  constructor <;> rintro ⟨hmem, rfl⟩ <;> exact ⟨hmem, rfl⟩

/-- The key of an opcode is what one of the masks leaves of it. -/
theorem exists_of_firstKey? (h : firstKey? entries opcode = some key) :
    ∃ test ∈ tests entries, Bitwise.and opcode test.1 = test.2 ∧ test.2 = key := by
  obtain ⟨entry, hentry, hkey⟩ := List.exists_of_findSome?_eq_some h
  obtain ⟨hmem, hand⟩ := keyUnder?_eq_some_iff.mp hkey
  exact ⟨(entry.1, key), mem_tests.mpr ⟨entry, hentry, hmem, rfl⟩, hand, rfl⟩

theorem firstKey?_eq_none_iff : firstKey? entries opcode = none ↔
    ∀ test ∈ tests entries, Bitwise.and opcode test.1 ≠ test.2 := by
  rw [firstKey?, List.findSome?_eq_none_iff]
  constructor
  · intro h test htest hand
    obtain ⟨entry, hentry, hkey, hmask⟩ := mem_tests.mp htest
    have hsome : keyUnder? opcode entry = some test.2 :=
      keyUnder?_eq_some_iff.mpr ⟨hkey, hmask ▸ hand⟩
    rw [h entry hentry] at hsome
    cases hsome
  · intro h entry hentry
    cases hsome : keyUnder? opcode entry with
    | none => rfl
    | some key =>
      obtain ⟨hmem, hand⟩ := keyUnder?_eq_some_iff.mp hsome
      exact absurd hand (h (entry.1, key) (mem_tests.mpr ⟨entry, hentry, hmem, rfl⟩))

/-- An opcode without a key has no key under any of the masks. -/
theorem key?_eq_none_iff : key? opcode = none ↔
    ∀ mask keys, (mask, keys) ∈ masks → Bitwise.and opcode mask ∉ keys := by
  simp [key?, firstKey?, keyUnder?]

/-! ## Masks of sixteen bits -/

/-- A mask and a key have sixteen bits, and the key has no others than the mask. -/
theorem tests_masks_bits : ∀ test ∈ tests masks,
    test.1 = (ofInt test.1).toNat ∧ test.2 = (ofInt test.2).toNat ∧
      ofInt test.2 &&& ofInt test.1 = ofInt test.2 := by
  decide +kernel

/-- An opcode agrees with a key under its mask. -/
theorem and_eq_iff (h : test ∈ tests masks) (w : Opcode) : Bitwise.and w.toNat test.1 = test.2 ↔
    w &&& ofInt test.1 = ofInt test.2 &&& ofInt test.1 := by
  obtain ⟨hmask, hkey, hbits⟩ := tests_masks_bits test h
  have hand : Bitwise.and w.toNat test.1 = (w &&& ofInt test.1).toNat := by
    conv_lhs => rw [hmask]
    rfl
  rw [hand, hbits]
  conv_lhs => rw [hkey, Int.natCast_inj, BitVec.toNat_inj]

theorem mem_tests_masks : test ∈ tests masks ↔
    test.1 = 0xffff ∧ test.2 ∈ plain ∨ test.1 = 0xf0ff ∧ test.2 ∈ oneRegister ∨
      test.1 = 0xf00f ∧ test.2 ∈ twoRegisters ∨ test.1 = 0xf000 ∧ test.2 ∈ oneDigit := by
  simp only [mem_tests, masks, List.mem_cons, List.not_mem_nil, or_false, exists_eq_or_imp,
    exists_eq_left]
  simp only [and_comm]

theorem mem_tests_of_plain (hk : key ∈ plain) : (0xffff, key) ∈ tests masks :=
  mem_tests_masks.mpr (.inl ⟨rfl, hk⟩)

theorem mem_tests_of_oneRegister (hk : key ∈ oneRegister) : (0xf0ff, key) ∈ tests masks :=
  mem_tests_masks.mpr (.inr (.inl ⟨rfl, hk⟩))

theorem mem_tests_of_twoRegisters (hk : key ∈ twoRegisters) : (0xf00f, key) ∈ tests masks :=
  mem_tests_masks.mpr (.inr (.inr (.inl ⟨rfl, hk⟩)))

theorem mem_tests_of_oneDigit (hk : key ∈ oneDigit) : (0xf000, key) ∈ tests masks :=
  mem_tests_masks.mpr (.inr (.inr (.inr ⟨rfl, hk⟩)))

theorem passes_plain (hk : key ∈ plain) :
    Bitwise.and w.toNat 0xffff = key ↔ w = ofInt key := by
  rw [and_eq_iff (mem_tests_of_plain hk)]
  exact iff_of_eq (congrArg₂ _ BitVec.and_allOnes BitVec.and_allOnes)

theorem passes_oneRegister (hk : key ∈ oneRegister) : Bitwise.and w.toNat 0xf0ff = key ↔
    w.firstDigit = (ofInt key).firstDigit ∧ w.kk = (ofInt key).kk := by
  rw [and_eq_iff (mem_tests_of_oneRegister hk)]
  exact and_f0ff _ _

theorem passes_twoRegisters (hk : key ∈ twoRegisters) : Bitwise.and w.toNat 0xf00f = key ↔
    w.firstDigit = (ofInt key).firstDigit ∧ w.n = (ofInt key).n := by
  rw [and_eq_iff (mem_tests_of_twoRegisters hk)]
  exact and_f00f _ _

theorem passes_oneDigit (hk : key ∈ oneDigit) : Bitwise.and w.toNat 0xf000 = key ↔
    w.firstDigit = (ofInt key).firstDigit := by
  rw [and_eq_iff (mem_tests_of_oneDigit hk)]
  exact and_f000 _ _

/-! ## At most one key -/

/-- Keys that agree on the bits of both masks are equal, unless one of them stands for an opcode
without operands. -/
theorem tests_masks_apart : ∀ p ∈ tests masks, ∀ q ∈ tests masks,
    ofInt p.2 &&& ofInt q.1 = ofInt q.2 &&& ofInt p.1 →
      p.2 = q.2 ∨ p.1 = 0xffff ∨ q.1 = 0xffff := by
  decide +kernel

theorem eq_plain_of_passes (h : test ∈ tests masks) (hmask : test.1 = 0xffff)
    (hand : Bitwise.and w.toNat test.1 = test.2) : w = 0x00e0 ∨ w = 0x00ee := by
  have hkey : test.2 ∈ plain := by
    rcases mem_tests_masks.mp h with ⟨-, hk⟩ | ⟨hm, -⟩ | ⟨hm, -⟩ | ⟨hm, -⟩
    · exact hk
    all_goals exact absurd (hmask.symm.trans hm) (by decide)
  rw [hmask, passes_plain hkey] at hand
  have hplain : ∀ key ∈ plain, ofInt key = 0x00e0 ∨ ofInt key = 0x00ee := by
    decide
  rw [hand]
  exact hplain _ hkey

/-- An opcode with operands agrees with one key only. -/
theorem key_unique {p q : Int × Int} (hp : p ∈ tests masks) (hq : q ∈ tests masks)
    (hpand : Bitwise.and w.toNat p.1 = p.2) (hqand : Bitwise.and w.toNat q.1 = q.2)
    (hw : w ≠ 0x00e0 ∧ w ≠ 0x00ee) : p.2 = q.2 := by
  have hpw := (and_eq_iff hp w).mp hpand
  have hqw := (and_eq_iff hq w).mp hqand
  rw [(tests_masks_bits p hp).2.2] at hpw
  rw [(tests_masks_bits q hq).2.2] at hqw
  have hcomm : ofInt p.2 &&& ofInt q.1 =
      ofInt q.2 &&& ofInt p.1 := by
    rw [← hpw, ← hqw, BitVec.and_assoc, BitVec.and_assoc, BitVec.and_comm (ofInt p.1)]
  rcases tests_masks_apart p hp q hq hcomm with h | h | h
  · exact h
  · exact absurd (eq_plain_of_passes hp h hpand) (not_or.mpr hw)
  · exact absurd (eq_plain_of_passes hq h hqand) (not_or.mpr hw)

/-- However the masks and their keys are put in order, an opcode with operands has the key that it
agrees with. -/
theorem firstKey?_of_perm (ht : (tests entries).Perm (tests masks)) (h : test ∈ tests masks)
    (hand : Bitwise.and w.toNat test.1 = test.2) (hw : w ≠ 0x00e0 ∧ w ≠ 0x00ee) :
    firstKey? entries w.toNat = some test.2 := by
  cases hkey : firstKey? entries w.toNat with
  | none => exact absurd hand (firstKey?_eq_none_iff.mp hkey test (ht.mem_iff.mpr h))
  | some key =>
    obtain ⟨found, hfound, hfoundand, rfl⟩ := exists_of_firstKey? hkey
    rw [key_unique (ht.mem_iff.mp hfound) h hfoundand hand hw]

/-! ## Handlers -/

theorem isSome_handler? : ∀ test ∈ tests masks, (handler? test.2).isSome := by
  decide +kernel

theorem exists_handler_of_key? (h : key? opcode = some key) :
    ∃ handler, handler? key = some handler := by
  obtain ⟨test, htest, -, rfl⟩ := exists_of_firstKey? h
  exact Option.isSome_iff_exists.mp (isSome_handler? test htest)

/-- Each key leads to an instruction that is written as the opcodes with the key. -/
theorem writtenAs_of_passes {handler : Opcode → Instruction} (h : test ∈ tests masks)
    (hand : Bitwise.and w.toNat test.1 = test.2) (hhandler : handler? test.2 = some handler)
    (hw : w ≠ 0x00e0 ∧ w ≠ 0x00ee) : (handler w).WrittenAs w := by
  obtain ⟨mask, key⟩ := test
  rcases mem_tests_masks.mp h with ⟨hmask, hk⟩ | ⟨hmask, hk⟩ | ⟨hmask, hk⟩ | ⟨hmask, hk⟩
  · exact absurd (eq_plain_of_passes h hmask hand) (not_or.mpr hw)
  · obtain rfl : mask = 0xf0ff := hmask
    obtain ⟨ha, hkk⟩ := (passes_oneRegister hk).mp hand
    fin_cases hk <;> obtain rfl := Option.some.inj hhandler <;> exact ⟨ha, rfl, hkk⟩
  · obtain rfl : mask = 0xf00f := hmask
    have hdigits := (passes_twoRegisters hk).mp hand
    fin_cases hk <;> obtain rfl := Option.some.inj hhandler <;>
      simp only [Instruction.WrittenAs, true_and] <;> exact hdigits
  · obtain rfl : mask = 0xf000 := hmask
    have ha := (passes_oneDigit hk).mp hand
    fin_cases hk <;> obtain rfl := Option.some.inj hhandler <;>
      simp only [Instruction.WrittenAs, hw.1, hw.2, ne_eq, not_false_eq_true, and_true] <;>
      exact ha

variable {i : Instruction} {handler : Opcode → Instruction}

theorem ofOpcode?_of_passes (h : test ∈ tests masks) (hand : Bitwise.and w.toNat test.1 = test.2)
    (hhandler : handler? test.2 = some handler) (hw : w ≠ 0x00e0 ∧ w ≠ 0x00ee) :
    Instruction.ofOpcode? w = some (handler w) := by
  have hkey : key? w.toNat = some test.2 := firstKey?_of_perm (.refl _) h hand hw
  simp [Instruction.ofOpcode?, hkey, hhandler]

theorem ofOpcode?_oneRegister (key : Int) (hk : key ∈ oneRegister)
    (hhandler : handler? key = some handler) (ha : w.firstDigit = (ofInt key).firstDigit)
    (hkk : w.kk = (ofInt key).kk) (hw : w ≠ 0x00e0 ∧ w ≠ 0x00ee) :
    Instruction.ofOpcode? w = some (handler w) :=
  ofOpcode?_of_passes (mem_tests_of_oneRegister hk)
    ((passes_oneRegister hk).mpr ⟨ha, hkk⟩) hhandler hw

theorem ofOpcode?_twoRegisters (key : Int) (hk : key ∈ twoRegisters)
    (hhandler : handler? key = some handler) (ha : w.firstDigit = (ofInt key).firstDigit)
    (hn : w.n = (ofInt key).n) (hw : w ≠ 0x00e0 ∧ w ≠ 0x00ee) :
    Instruction.ofOpcode? w = some (handler w) :=
  ofOpcode?_of_passes (mem_tests_of_twoRegisters hk)
    ((passes_twoRegisters hk).mpr ⟨ha, hn⟩) hhandler hw

theorem ofOpcode?_oneDigit (key : Int) (hk : key ∈ oneDigit)
    (hhandler : handler? key = some handler) (ha : w.firstDigit = (ofInt key).firstDigit)
    (hw : w ≠ 0x00e0 ∧ w ≠ 0x00ee) : Instruction.ofOpcode? w = some (handler w) :=
  ofOpcode?_of_passes (mem_tests_of_oneDigit hk)
    ((passes_oneDigit hk).mpr ha) hhandler hw

end Opcode

namespace Instruction
open Opcode
variable {w : Opcode} {i : Instruction}

private theorem operands {b : BitVec 4} (ha : w.firstDigit = b) (hb : b ≠ 0 := by decide) :
    w ≠ 0x00e0 ∧ w ≠ 0x00ee := by
  constructor <;> rintro rfl <;> exact hb ha.symm

theorem ofOpcode?_of_writtenAs (h : i.WrittenAs w) : ofOpcode? w = some i := by
  cases i with
  | clearScreen => subst h; rfl
  | ret => subst h; rfl
  | system nnn =>
    obtain ⟨ha, rfl, hw⟩ := h
    exact ofOpcode?_oneDigit 0x0000 (by decide) rfl ha hw
  | skipKey x =>
    obtain ⟨ha, rfl, hk⟩ := h
    exact ofOpcode?_oneRegister 0xe09e (by decide) rfl ha hk (operands ha)
  | skipNoKey x =>
    obtain ⟨ha, rfl, hk⟩ := h
    exact ofOpcode?_oneRegister 0xe0a1 (by decide) rfl ha hk (operands ha)
  | loadDelay x =>
    obtain ⟨ha, rfl, hk⟩ := h
    exact ofOpcode?_oneRegister 0xf007 (by decide) rfl ha hk (operands ha)
  | waitKey x =>
    obtain ⟨ha, rfl, hk⟩ := h
    exact ofOpcode?_oneRegister 0xf00a (by decide) rfl ha hk (operands ha)
  | setDelay x =>
    obtain ⟨ha, rfl, hk⟩ := h
    exact ofOpcode?_oneRegister 0xf015 (by decide) rfl ha hk (operands ha)
  | setSound x =>
    obtain ⟨ha, rfl, hk⟩ := h
    exact ofOpcode?_oneRegister 0xf018 (by decide) rfl ha hk (operands ha)
  | addIndex x =>
    obtain ⟨ha, rfl, hk⟩ := h
    exact ofOpcode?_oneRegister 0xf01e (by decide) rfl ha hk (operands ha)
  | selectGlyph x =>
    obtain ⟨ha, rfl, hk⟩ := h
    exact ofOpcode?_oneRegister 0xf029 (by decide) rfl ha hk (operands ha)
  | decimal x =>
    obtain ⟨ha, rfl, hk⟩ := h
    exact ofOpcode?_oneRegister 0xf033 (by decide) rfl ha hk (operands ha)
  | save x =>
    obtain ⟨ha, rfl, hk⟩ := h
    exact ofOpcode?_oneRegister 0xf055 (by decide) rfl ha hk (operands ha)
  | restore x =>
    obtain ⟨ha, rfl, hk⟩ := h
    exact ofOpcode?_oneRegister 0xf065 (by decide) rfl ha hk (operands ha)
  | skipEq x y =>
    obtain ⟨ha, rfl, rfl, hn⟩ := h
    exact ofOpcode?_twoRegisters 0x5000 (by decide) rfl ha hn (operands ha)
  | copy x y =>
    obtain ⟨ha, rfl, rfl, hn⟩ := h
    exact ofOpcode?_twoRegisters 0x8000 (by decide) rfl ha hn (operands ha)
  | or x y =>
    obtain ⟨ha, rfl, rfl, hn⟩ := h
    exact ofOpcode?_twoRegisters 0x8001 (by decide) rfl ha hn (operands ha)
  | and x y =>
    obtain ⟨ha, rfl, rfl, hn⟩ := h
    exact ofOpcode?_twoRegisters 0x8002 (by decide) rfl ha hn (operands ha)
  | xor x y =>
    obtain ⟨ha, rfl, rfl, hn⟩ := h
    exact ofOpcode?_twoRegisters 0x8003 (by decide) rfl ha hn (operands ha)
  | add x y =>
    obtain ⟨ha, rfl, rfl, hn⟩ := h
    exact ofOpcode?_twoRegisters 0x8004 (by decide) rfl ha hn (operands ha)
  | sub x y =>
    obtain ⟨ha, rfl, rfl, hn⟩ := h
    exact ofOpcode?_twoRegisters 0x8005 (by decide) rfl ha hn (operands ha)
  | shiftRight x =>
    obtain ⟨ha, rfl, hn⟩ := h
    exact ofOpcode?_twoRegisters 0x8006 (by decide) rfl ha hn (operands ha)
  | subFrom x y =>
    obtain ⟨ha, rfl, rfl, hn⟩ := h
    exact ofOpcode?_twoRegisters 0x8007 (by decide) rfl ha hn (operands ha)
  | shiftLeft x =>
    obtain ⟨ha, rfl, hn⟩ := h
    exact ofOpcode?_twoRegisters 0x800e (by decide) rfl ha hn (operands ha)
  | skipNe x y =>
    obtain ⟨ha, rfl, rfl, hn⟩ := h
    exact ofOpcode?_twoRegisters 0x9000 (by decide) rfl ha hn (operands ha)
  | jump nnn =>
    obtain ⟨ha, rfl⟩ := h
    exact ofOpcode?_oneDigit 0x1000 (by decide) rfl ha (operands ha)
  | call nnn =>
    obtain ⟨ha, rfl⟩ := h
    exact ofOpcode?_oneDigit 0x2000 (by decide) rfl ha (operands ha)
  | skipEqByte x kk =>
    obtain ⟨ha, rfl, rfl⟩ := h
    exact ofOpcode?_oneDigit 0x3000 (by decide) rfl ha (operands ha)
  | skipNeByte x kk =>
    obtain ⟨ha, rfl, rfl⟩ := h
    exact ofOpcode?_oneDigit 0x4000 (by decide) rfl ha (operands ha)
  | loadByte x kk =>
    obtain ⟨ha, rfl, rfl⟩ := h
    exact ofOpcode?_oneDigit 0x6000 (by decide) rfl ha (operands ha)
  | addByte x kk =>
    obtain ⟨ha, rfl, rfl⟩ := h
    exact ofOpcode?_oneDigit 0x7000 (by decide) rfl ha (operands ha)
  | loadIndex nnn =>
    obtain ⟨ha, rfl⟩ := h
    exact ofOpcode?_oneDigit 0xa000 (by decide) rfl ha (operands ha)
  | jumpOffset nnn =>
    obtain ⟨ha, rfl⟩ := h
    exact ofOpcode?_oneDigit 0xb000 (by decide) rfl ha (operands ha)
  | random x kk =>
    obtain ⟨ha, rfl, rfl⟩ := h
    exact ofOpcode?_oneDigit 0xc000 (by decide) rfl ha (operands ha)
  | draw x y n =>
    obtain ⟨ha, rfl, rfl, rfl⟩ := h
    exact ofOpcode?_oneDigit 0xd000 (by decide) rfl ha (operands ha)

/-- Decoding gives an instruction exactly on its written forms. -/
theorem ofOpcode?_eq_some_iff : ofOpcode? w = some i ↔ i.WrittenAs w := by
  refine ⟨fun h => ?_, ofOpcode?_of_writtenAs⟩
  by_cases hclear : w = 0x00e0
  · subst hclear
    obtain rfl : clearScreen = i := Option.some.inj h
    rfl
  by_cases hret : w = 0x00ee
  · subst hret
    obtain rfl : ret = i := Option.some.inj h
    rfl
  obtain ⟨key, hkey, hrest⟩ := Option.bind_eq_some_iff.mp h
  obtain ⟨handler, hhandler, hi⟩ := Option.bind_eq_some_iff.mp hrest
  obtain rfl := Option.some.inj hi
  obtain ⟨test, htest, hand, rfl⟩ := exists_of_firstKey? hkey
  exact writtenAs_of_passes htest hand hhandler ⟨hclear, hret⟩

theorem ofOpcode?_of_key? {key : Int} {handler : Opcode → Instruction}
    (hkey : key? w.toNat = some key) (hhandler : handler? key = some handler) :
    ofOpcode? w = some (handler w) := by
  simp [ofOpcode?, hkey, hhandler]

/-- No opcode fails to be decoded for want of a handler. -/
theorem ofOpcode?_eq_none_iff : ofOpcode? w = none ↔ key? w.toNat = none := by
  cases hkey : key? w.toNat with
  | none => simp [ofOpcode?, hkey]
  | some key =>
    obtain ⟨handler, hhandler⟩ := exists_handler_of_key? hkey
    simp [ofOpcode?_of_key? hkey hhandler]

end Instruction
end ChipEight
