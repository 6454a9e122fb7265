import ChipEight.Machine.Execute
import ChipEight.Proofs.OpcodeForms
import Mathlib.Tactic.SplitIfs

/-!
# Decoding by digits

Which key an opcode has can be told from the four digits of its low sixteen bits, without masks and
without an order among them. Every key has a handler, and every handler is reached.
-/
namespace ChipEight

/-- The key that the digits of a number of sixteen bits select. Some first digits settle it, the others
need one or two more digits, and two numbers select themselves. -/
def digitKey? (low : ℕ) : Option ℕ :=
  let first := low / 0x1000
  if low = 0x00e0 ∨ low = 0x00ee then some low
  else if first ∈ [0x0, 0x1, 0x2, 0x3, 0x4, 0x6, 0x7, 0xa, 0xb, 0xc, 0xd] then some (0x1000 * first)
  else if first = 0x5 ∨ first = 0x9 then if low % 0x10 = 0x0 then some (0x1000 * first) else none
  else if first = 0x8 then
    if low % 0x10 ≤ 0x7 ∨ low % 0x10 = 0xe then some (0x8000 + low % 0x10) else none
  else if first = 0xe then
    if low % 0x100 ∈ [0x9e, 0xa1] then some (0xe000 + low % 0x100) else none
  else if low % 0x100 ∈ [0x07, 0x0a, 0x15, 0x18, 0x1e, 0x29, 0x33, 0x55, 0x65] then
    some (0xf000 + low % 0x100)
  else none

/-- A mask of sixteen bits only looks at the low sixteen bits, those of a negative integer too. -/
theorem Bitwise.and_emod {mask : ℕ} (hmask : mask < 0x10000) (v : Int) :
    Bitwise.and (v % 0x10000) mask = Bitwise.and v mask := by
  have hbit {i : ℕ} (hi : ¬ i < 16) : mask.testBit i = false := by
    have hpow : 2 ^ 16 ≤ 2 ^ i := Nat.pow_le_pow_right (by decide) (by omega)
    exact Nat.testBit_lt_two_pow (Nat.lt_of_lt_of_le hmask hpow)
  cases v with
  | ofNat n =>
    refine congrArg Int.ofNat (Nat.eq_of_testBit_eq fun i => ?_)
    change (n % 2 ^ 16 &&& mask).testBit i = (n &&& mask).testBit i
    rw [Nat.testBit_and, Nat.testBit_and, Nat.testBit_mod_two_pow]
    by_cases hi : i < 16 <;> simp [hi, hbit]
  | negSucc n =>
    have hlow : Int.negSucc n % 0x10000 = Int.ofNat (2 ^ 16 - (n % 2 ^ 16 + 1)) := by
      rw [Int.ofNat_eq_natCast]
      omega
    rw [hlow]
    refine congrArg Int.ofNat (Nat.eq_of_testBit_eq fun i => ?_)
    change (_ &&& mask).testBit i = (mask ^^^ (mask &&& n)).testBit i
    rw [Nat.testBit_and, Nat.testBit_xor, Nat.testBit_and,
      Nat.testBit_two_pow_sub_succ (Nat.mod_lt n (Nat.two_pow_pos 16)), Nat.testBit_mod_two_pow]
    by_cases hi : i < 16
    · cases mask.testBit i <;> simp [hi]
    · simp [hi, hbit]

namespace Opcode
variable {w : Opcode} {test : Int × Int} {k : ℕ}

theorem toNat_firstDigit (w : Opcode) : w.firstDigit.toNat = w.toNat / 0x1000 := by
  have := w.isLt
  simp [firstDigit, BitVec.toNat_setWidth, Nat.shiftRight_eq_div_pow]
  omega

theorem toNat_n (w : Opcode) : w.n.toNat = w.toNat % 0x10 := by
  simp [n, BitVec.toNat_setWidth]

theorem toNat_kk (w : Opcode) : w.kk.toNat = w.toNat % 0x100 := by
  simp [kk, BitVec.toNat_setWidth]

/-! ## The digits of the keys -/

theorem toNat_ofInt_key (h : test ∈ tests masks) (hk : test.2 = k) : (ofInt test.2).toNat = k := by
  have hkey := (tests_masks_bits test h).2.1
  rw [hk] at hkey ⊢
  exact (Int.natCast_inj.mp hkey).symm

theorem passes_oneRegister_iff (hk : (k : Int) ∈ oneRegister) : Bitwise.and w.toNat 0xf0ff = k ↔
    w.toNat / 0x1000 = k / 0x1000 ∧ w.toNat % 0x100 = k % 0x100 := by
  rw [passes_oneRegister hk, ← BitVec.toNat_inj, ← BitVec.toNat_inj, toNat_firstDigit,
    toNat_firstDigit, toNat_kk, toNat_kk, toNat_ofInt_key (mem_tests_of_oneRegister hk) rfl]

theorem passes_twoRegisters_iff (hk : (k : Int) ∈ twoRegisters) : Bitwise.and w.toNat 0xf00f = k ↔
    w.toNat / 0x1000 = k / 0x1000 ∧ w.toNat % 0x10 = k % 0x10 := by
  rw [passes_twoRegisters hk, ← BitVec.toNat_inj, ← BitVec.toNat_inj, toNat_firstDigit,
    toNat_firstDigit, toNat_n, toNat_n, toNat_ofInt_key (mem_tests_of_twoRegisters hk) rfl]

theorem passes_oneDigit_iff (hk : (k : Int) ∈ oneDigit) : Bitwise.and w.toNat 0xf000 = k ↔
    w.toNat / 0x1000 = k / 0x1000 := by
  rw [passes_oneDigit hk, ← BitVec.toNat_inj, toNat_firstDigit, toNat_firstDigit,
    toNat_ofInt_key (mem_tests_of_oneDigit hk) rfl]

theorem digits_oneRegister : ∀ key ∈ oneRegister,
    key.toNat / 0x1000 = 0xe ∧ key.toNat % 0x100 ∈ [0x9e, 0xa1] ∨ key.toNat / 0x1000 = 0xf ∧
      key.toNat % 0x100 ∈ [0x07, 0x0a, 0x15, 0x18, 0x1e, 0x29, 0x33, 0x55, 0x65] := by
  decide

theorem digits_twoRegisters : ∀ key ∈ twoRegisters,
    (key.toNat / 0x1000 = 0x5 ∨ key.toNat / 0x1000 = 0x9) ∧ key.toNat % 0x10 = 0x0 ∨
      key.toNat / 0x1000 = 0x8 ∧ (key.toNat % 0x10 ≤ 0x7 ∨ key.toNat % 0x10 = 0xe) := by
  decide

theorem digits_oneDigit : ∀ key ∈ oneDigit,
    key.toNat / 0x1000 ∈ [0x0, 0x1, 0x2, 0x3, 0x4, 0x6, 0x7, 0xa, 0xb, 0xc, 0xd] := by
  decide

/-- The digits of an opcode that agrees with a key select some key. -/
theorem isSome_digitKey? (h : test ∈ tests masks) (hand : Bitwise.and w.toNat test.1 = test.2) :
    (digitKey? w.toNat).isSome := by
  by_cases hw : w.toNat = 0x00e0 ∨ w.toNat = 0x00ee
  · simp [digitKey?, hw]
  obtain ⟨mask, key⟩ := test
  obtain ⟨k, rfl⟩ : ∃ k : ℕ, key = k := ⟨_, (tests_masks_bits _ h).2.1⟩
  rcases mem_tests_masks.mp h with ⟨hmask, hk⟩ | ⟨hmask, hk⟩ | ⟨hmask, hk⟩ | ⟨hmask, hk⟩
  all_goals obtain rfl := hmask
  · rcases eq_plain_of_passes h rfl hand with rfl | rfl
    · exact absurd (.inl rfl) hw
    · exact absurd (.inr rfl) hw
  · obtain ⟨ha, hkk⟩ := (passes_oneRegister_iff hk).mp hand
    have hdigits := digits_oneRegister k hk
    rw [Int.toNat_natCast, ← ha, ← hkk] at hdigits
    rcases hdigits with ⟨hfirst, hlast⟩ | ⟨hfirst, hlast⟩
    · simpa [digitKey?, hw, hfirst] using hlast
    · simpa [digitKey?, hw, hfirst] using hlast
  · obtain ⟨ha, hn⟩ := (passes_twoRegisters_iff hk).mp hand
    have hdigits := digits_twoRegisters k hk
    rw [Int.toNat_natCast, ← ha, ← hn] at hdigits
    rcases hdigits with ⟨hfirst | hfirst, hlast⟩ | ⟨hfirst, hlast⟩
    · simpa [digitKey?, hw, hfirst] using hlast
    · simpa [digitKey?, hw, hfirst] using hlast
    · simpa [digitKey?, hw, hfirst] using hlast
  · have hdigits := digits_oneDigit k hk
    rw [Int.toNat_natCast, ← (passes_oneDigit_iff hk).mp hand] at hdigits
    simp only [digitKey?, if_neg hw, if_pos hdigits, Option.isSome_some]

/-- The key that the digits of an opcode select is its key. -/
theorem key?_of_digitKey? (h : digitKey? w.toNat = some k) : key? w.toNat = some (k : Int) := by
  have hlt := w.isLt
  -- an opcode with operands has any key that it agrees with
  have hkey {test : Int × Int} (hw : ¬ (w.toNat = 0x00e0 ∨ w.toNat = 0x00ee))
      (htest : test ∈ tests masks) (hand : Bitwise.and w.toNat test.1 = test.2) :
      key? w.toNat = some test.2 := by
    refine firstKey?_of_perm (.refl _) htest hand ⟨?_, ?_⟩
    · rintro rfl
      exact hw (.inl rfl)
    · rintro rfl
      exact hw (.inr rfl)
  rw [digitKey?] at h
  split_ifs at h with hw hone hsame hn height hn he hk hk
  all_goals obtain rfl := Option.some.inj h
  · rcases hw with hw | hw
    · obtain rfl : w = 0x00e0 := BitVec.eq_of_toNat_eq hw
      rfl
    · obtain rfl : w = 0x00ee := BitVec.eq_of_toNat_eq hw
      rfl
  · have hkeys : ∀ a ∈ [0x0, 0x1, 0x2, 0x3, 0x4, 0x6, 0x7, 0xa, 0xb, 0xc, 0xd],
        ((0x1000 * a : ℕ) : Int) ∈ oneDigit := by decide
    have hmem := hkeys _ hone
    exact hkey hw (mem_tests_of_oneDigit hmem) ((passes_oneDigit_iff hmem).mpr (by omega))
  · have hkeys : ∀ a ∈ [0x5, 0x9], ((0x1000 * a : ℕ) : Int) ∈ twoRegisters := by decide
    have hmem := hkeys _ (by simpa using hsame)
    exact hkey hw (mem_tests_of_twoRegisters hmem) ((passes_twoRegisters_iff hmem).mpr (by omega))
  · have hkeys : ∀ n < 0x10, n ≤ 0x7 ∨ n = 0xe → ((0x8000 + n : ℕ) : Int) ∈ twoRegisters := by
      decide
    have hmem := hkeys _ (by omega) hn
    exact hkey hw (mem_tests_of_twoRegisters hmem) ((passes_twoRegisters_iff hmem).mpr (by omega))
  · have hkeys : ∀ kk ∈ [0x9e, 0xa1], ((0xe000 + kk : ℕ) : Int) ∈ oneRegister := by decide
    have hmem := hkeys _ hk
    exact hkey hw (mem_tests_of_oneRegister hmem) ((passes_oneRegister_iff hmem).mpr (by omega))
  · have hkeys : ∀ kk ∈ [0x07, 0x0a, 0x15, 0x18, 0x1e, 0x29, 0x33, 0x55, 0x65],
        ((0xf000 + kk : ℕ) : Int) ∈ oneRegister := by decide
    have hmem := hkeys _ hk
    -- no other first digit is left
    have hfirst : w.toNat / 0x1000 = 0xf := by
      simp only [List.mem_cons, List.not_mem_nil, or_false, not_or] at hone
      omega
    exact hkey hw (mem_tests_of_oneRegister hmem) ((passes_oneRegister_iff hmem).mpr (by omega))

theorem key?_toNat (w : Opcode) : key? w.toNat = (digitKey? w.toNat).map (Nat.cast : ℕ → Int) := by
  cases hk : digitKey? w.toNat with
  | some k => exact key?_of_digitKey? hk
  | none =>
    refine firstKey?_eq_none_iff.mpr fun test htest hand => ?_
    have hsome := isSome_digitKey? htest hand
    rw [hk] at hsome
    cases hsome

/-! ## Opcodes of any size and sign -/

variable {t : List (Int × List Int)} {opcode key : Int}

theorem toNat_ofInt (opcode : Int) : ((ofInt opcode).toNat : Int) = opcode % 0x10000 := by
  rw [ofInt, BitVec.toNat_ofInt]
  omega

theorem firstKey?_toNat_ofInt (ht : (tests t).Perm (tests masks)) (opcode : Int) :
    firstKey? t (ofInt opcode).toNat = firstKey? t opcode := by
  have hand : ∀ test ∈ tests t,
      Bitwise.and (ofInt opcode).toNat test.1 = Bitwise.and opcode test.1 := by
    intro test htest
    have hmask := (tests_masks_bits test (ht.mem_iff.mp htest)).1
    rw [hmask, toNat_ofInt]
    exact Bitwise.and_emod (ofInt test.1).isLt opcode
  -- a mask without keys finds none
  have hentry : ∀ entry ∈ t,
      keyUnder? (ofInt opcode).toNat entry = keyUnder? opcode entry := by
    intro entry hentry
    cases hkeys : entry.2 with
    | nil => simp [keyUnder?, hkeys]
    | cons key keys =>
      have htest : (entry.1, key) ∈ tests t := mem_tests.mpr ⟨entry, hentry, by simp [hkeys], rfl⟩
      rw [keyUnder?, keyUnder?, hand _ htest]
  clear hand ht
  induction t with
  | nil => rfl
  | cons entry t ih =>
    obtain ⟨hfirst, hrest⟩ := List.forall_mem_cons.mp hentry
    rw [firstKey?, firstKey?, List.findSome?_cons, List.findSome?_cons, hfirst]
    cases keyUnder? opcode entry with
    | none => exact ih hrest
    | some key => rfl

theorem key?_ofInt (opcode : Int) : key? (ofInt opcode).toNat = key? opcode :=
  firstKey?_toNat_ofInt (.refl _) opcode

/-- In any order the masks find the same key for an opcode with operands. -/
theorem firstKey?_eq_key? (ht : (tests t).Perm (tests masks))
    (hw : ofInt opcode ≠ 0x00e0 ∧ ofInt opcode ≠ 0x00ee) : firstKey? t opcode = key? opcode := by
  rw [← firstKey?_toNat_ofInt ht, ← key?_ofInt]
  cases hkey : firstKey? t (ofInt opcode).toNat with
  | some key =>
    obtain ⟨test, htest, hand, rfl⟩ := exists_of_firstKey? hkey
    exact (firstKey?_of_perm (.refl _) (ht.mem_iff.mp htest) hand hw).symm
  | none =>
    refine (firstKey?_eq_none_iff.mpr fun test htest => ?_).symm
    exact firstKey?_eq_none_iff.mp hkey test (ht.mem_iff.mpr htest)

/-- The system call is the only other key that the opcodes without operands agree with. -/
theorem key_of_passes_plain : ∀ w : Opcode, w = 0x00e0 ∨ w = 0x00ee →
    ∀ test ∈ tests masks, Bitwise.and w.toNat test.1 = test.2 →
      key? w.toNat = some test.2 ∨ test.2 = 0x0000 := by
  rintro w (rfl | rfl) <;> decide +kernel

theorem key?_or_zero_of_perm (ht : (tests t).Perm (tests masks))
    (hkey : firstKey? t opcode = some key) : key? opcode = some key ∨ key = 0x0000 := by
  by_cases hw : ofInt opcode = 0x00e0 ∨ ofInt opcode = 0x00ee
  · rw [← firstKey?_toNat_ofInt ht] at hkey
    obtain ⟨test, htest, hand, rfl⟩ := exists_of_firstKey? hkey
    rw [← key?_ofInt]
    exact key_of_passes_plain _ hw test (ht.mem_iff.mp htest) hand
  · rw [firstKey?_eq_key? ht (not_or.mp hw)] at hkey
    exact .inl hkey

/-- With the mask of the first digit in front, clearing the screen and returning would be system
calls. -/
theorem exists_perm_firstKey?_ne (hw : ofInt opcode = 0x00e0 ∨ ofInt opcode = 0x00ee) :
    ∃ t : List (Int × List Int), t.Perm masks ∧ firstKey? t opcode ≠ key? opcode := by
  have hperm : masks.reverse.Perm masks := List.reverse_perm masks
  refine ⟨masks.reverse, hperm, ?_⟩
  rw [← firstKey?_toNat_ofInt (hperm.flatMap_right _), ← key?_ofInt]
  rcases hw with hw | hw <;> rw [hw] <;> decide

/-! ## Handlers -/

theorem nodup_handlers : (handlers.map Prod.fst).Nodup := by decide

theorem handler?_of_mem {handler : Opcode → Instruction} (h : (key, handler) ∈ handlers) :
    handler? key = some handler := by
  obtain ⟨before, after, hsplit⟩ := List.append_of_mem h
  refine List.lookup_eq_some_iff.mpr ⟨before, after, hsplit, fun entry hentry => ?_⟩
  have hnodup := nodup_handlers
  rw [hsplit, List.map_append, List.map_cons] at hnodup
  have hne := List.nodup_append.mp hnodup |>.2.2 entry.1 (List.mem_map_of_mem hentry) key (by simp)
  simpa using hne.symm

/-- A key is an opcode that has it, and it finds its own handler. -/
theorem key?_handlers : ∀ entry ∈ handlers, key? entry.1 = some entry.1 := by
  decide +kernel

end Opcode

namespace Machine
open Opcode
variable {τ : Type}

theorem decode_of_key? {opcode key : Int} {handler : Opcode → Instruction}
    (hkey : key? opcode = some key) (hhandler : handler? key = some handler) (m : Machine τ) :
    m.decode opcode = .ok (handler (ofInt opcode)) := by
  simp only [decode, hkey, hhandler]

/-- Decoding an integer of any size and sign goes by the digits of its low sixteen bits. If they select
a key, there is a handler for it, and that handler gives the instruction; otherwise the opcode is
unsupported. All thirty-five keys are different and each handler is reached. The order of the masks
matters for 00e0 and 00ee only, and only by putting the system calls in front of them, even if each
key is tried for itself. -/
theorem decode_by_digits (m : Machine τ) :
    (∀ opcode : Int,
      match digitKey? (opcode % 0x10000).toNat with
      | some k => key? opcode = some (k : Int) ∧ ∃ handler, handler? k = some handler ∧
          (handler (.ofInt opcode)).WrittenAs (.ofInt opcode) ∧
          m.decode opcode = .ok (handler (.ofInt opcode))
      | none => m.decode opcode = .error (.unsupportedInstruction opcode m.opcodeAddress)) ∧
    (handlers.length = 35 ∧ (handlers.map Prod.fst).Nodup ∧
      ∀ key handler, (key, handler) ∈ handlers → ∃ opcode : Int,
        key? opcode = some key ∧ m.decode opcode = .ok (handler (.ofInt opcode))) ∧
    (∀ opcode : Int, (∃ t, t.Perm masks ∧ firstKey? t opcode ≠ key? opcode) ↔
      opcode % 0x10000 = 0x00e0 ∨ opcode % 0x10000 = 0x00ee) ∧
    ∀ (t : List (Int × List Int)) (opcode : Int), (tests t).Perm (tests masks) →
      (firstKey? t opcode ≠ key? opcode →
        opcode % 0x10000 = 0x00e0 ∨ opcode % 0x10000 = 0x00ee) ∧
      ∀ key, firstKey? t opcode = some key → key? opcode = some key ∨ key = 0x0000 := by
  have hlow (opcode : Int) : opcode % 0x10000 = (ofInt opcode).toNat := (toNat_ofInt opcode).symm
  have hplain (opcode : Int) : opcode % 0x10000 = 0x00e0 ∨ opcode % 0x10000 = 0x00ee ↔
      ofInt opcode = 0x00e0 ∨ ofInt opcode = 0x00ee := by
    rw [hlow, ← BitVec.toNat_inj, ← BitVec.toNat_inj]
    exact or_congr Int.natCast_inj Int.natCast_inj
  have horder {t : List (Int × List Int)} {opcode : Int} (ht : (tests t).Perm (tests masks))
      (hne : firstKey? t opcode ≠ key? opcode) :
      ofInt opcode = 0x00e0 ∨ ofInt opcode = 0x00ee := by
    by_contra hw
    exact hne (firstKey?_eq_key? ht (not_or.mp hw))
  refine ⟨fun opcode => ?_, ⟨rfl, nodup_handlers, fun key handler h => ?_⟩, fun opcode => ?_,
    fun t opcode ht => ⟨?_, fun key => key?_or_zero_of_perm ht⟩⟩
  · rw [hlow, Int.toNat_natCast]
    have hkey := key?_toNat (ofInt opcode)
    rw [key?_ofInt] at hkey
    cases hk : digitKey? (ofInt opcode).toNat with
    | some k =>
      rw [hk, Option.map_some] at hkey
      obtain ⟨handler, hhandler⟩ := exists_handler_of_key? hkey
      refine ⟨hkey, handler, hhandler, ?_, decode_of_key? hkey hhandler m⟩
      rw [← key?_ofInt] at hkey
      exact Instruction.ofOpcode?_eq_some_iff.mp (Instruction.ofOpcode?_of_key? hkey hhandler)
    | none =>
      rw [hk, Option.map_none] at hkey
      simp only [decode, hkey]
  · have hkey := key?_handlers (key, handler) h
    exact ⟨key, hkey, decode_of_key? hkey (handler?_of_mem h) m⟩
  · rw [hplain]
    constructor
    · rintro ⟨t, ht, hne⟩
      exact horder (ht.flatMap_right _) hne
    · exact exists_perm_firstKey?_ne
  · rw [hplain]
    exact horder ht

end Machine
end ChipEight
