import ChipEight.Machine.Tracing
import ChipEight.Proofs.CycleOutcomes

/-!
# Traced cycles

Every instruction keeps what its template asks for: small numbers in decimal places and integers where
numerals stand. So the line of an instruction can always be written, and a traced cycle does what a
cycle does and prints its trace.
-/
namespace ChipEight

namespace Template
variable {kept : List (String × Kept)} {s t : Template} {a b name operand : String}

theorem fill_cons {piece : Piece} (hp : fillPiece kept piece = .ok a) (ht : fill kept t = .ok b) :
    fill kept (piece :: t) = .ok (a ++ b) := by
  rw [fill, hp, ht]
  rfl

theorem fill_append (hs : fill kept s = .ok a) (ht : fill kept t = .ok b) :
    fill kept (s ++ t) = .ok (a ++ b) := by
  induction s generalizing a with
  | nil =>
    obtain rfl := Except.ok.inj hs
    rw [List.nil_append, ht, String.empty_append]
  | cons piece rest ih =>
    cases hp : fillPiece kept piece with
    | error e =>
      rw [fill, hp] at hs
      cases hs
    | ok p =>
      cases hr : fill kept rest with
      | error e =>
        rw [fill, hp, hr] at hs
        cases hs
      | ok r =>
        obtain rfl := Except.ok.inj ((fill_cons hp hr).symm.trans hs)
        rw [String.append_assoc]
        exact fill_cons hp (ih hr)

theorem fill_singleton {piece : Piece} (hp : fillPiece kept piece = .ok a) :
    fill kept [piece] = .ok a := by
  rw [fill_cons hp (show fill kept [] = .ok "" from rfl), String.append_empty]

theorem fill_fixed (text : String) : fill kept [.fixed text] = .ok text := fill_singleton rfl

theorem find_eq {value : Kept} (h : kept.lookup name = some value) :
    find kept name = .ok value := by
  rw [find, h]

theorem writePlain_natCast {n : ℕ} (hn : n < 256) :
    writePlain name (.integer n) = .ok (toString n) := by
  have hsmall : (Nat.toDigits 10 n).length ≤ Text.maxDigits :=
    calc (Nat.toDigits 10 n).length ≤ 3 :=
          (Nat.length_toDigits_le_iff (by decide) (by decide)).mpr (by omega)
      _ ≤ Text.maxDigits := by decide
  simp only [writePlain, Int.natAbs_natCast, if_pos hsmall]
  rfl

theorem fill_value {n : ℕ} (h : kept.lookup name = some (.integer n)) (hn : n < 256) :
    fill kept [.value name] = .ok (toString n) := by
  apply fill_singleton
  rw [fillPiece, find_eq h, Except.bind, writePlain_natCast hn]

theorem fill_numeral {n : Int} (h : kept.lookup name = some (.integer n)) (width : ℕ) :
    fill kept [.numeral name width] = .ok (Text.hex width n) := by
  apply fill_singleton
  rw [fillPiece, find_eq h, Except.bind, writeNumeral]

/-! ## The shapes of the lines -/

theorem fill_unary {x : Register} (h : kept.lookup operand = some (.integer x.toNat)) :
    fill kept (unary name operand) = .ok (Instruction.unary name x) := by
  have htext : Instruction.unary name x = name ++ " V" ++ toString x.toNat := by
    simp [Instruction.unary, Instruction.registerText, ← String.toList_inj]
  rw [htext]
  exact fill_append (fill_fixed _) (fill_value h (by omega))

theorem fill_unary_append {x : Register} (h : kept.lookup "x" = some (.integer x.toNat))
    (ht : fill kept t = .ok (", " ++ b)) :
    fill kept (unary name "x" ++ t) = .ok (Instruction.binary name x b) := by
  have htext : Instruction.binary name x b = Instruction.unary name x ++ (", " ++ b) :=
    String.append_assoc
  rw [htext]
  exact fill_append (fill_unary h) ht

theorem fill_immediate {x : Register} {kk : Byte} (hx : kept.lookup "x" = some (.integer x.toNat))
    (h : kept.lookup operand = some (.integer kk.toNat)) :
    fill kept (immediate name operand) =
      .ok (Instruction.binary name x (Instruction.byteText kk)) :=
  fill_unary_append hx (fill_append (fill_fixed _) (fill_value h (by omega)))

theorem fill_binary {x y : Register} (hx : kept.lookup "x" = some (.integer x.toNat))
    (hy : kept.lookup "y" = some (.integer y.toNat)) :
    fill kept (binary name) = .ok (Instruction.binary name x (Instruction.registerText y)) := by
  have htext : ", " ++ Instruction.registerText y = ", V" ++ toString y.toNat := by
    simp [Instruction.registerText, ← String.toList_inj]
  refine fill_unary_append hx ?_
  rw [htext]
  exact fill_append (fill_fixed _) (fill_value hy (by omega))

theorem fill_counted {x y : Register} {n : BitVec 4}
    (hx : kept.lookup "x" = some (.integer x.toNat))
    (hy : kept.lookup "y" = some (.integer y.toNat))
    (h : kept.lookup operand = some (.integer n.toNat)) :
    fill kept (binary name ++ [.fixed ", ", .value operand]) =
      .ok (Instruction.binary name x (Instruction.registerText y ++ ", " ++ toString n.toNat)) := by
  have htext : Instruction.binary name x (Instruction.registerText y ++ ", " ++ toString n.toNat) =
      Instruction.binary name x (Instruction.registerText y) ++ (", " ++ toString n.toNat) := by
    simp only [Instruction.binary, String.append_assoc]
  rw [htext]
  exact fill_append (fill_binary hx hy) (fill_append (fill_fixed _) (fill_value h (by omega)))

theorem fill_addressed {nnn : BitVec 12} (h : kept.lookup operand = some (.integer nnn.toNat)) :
    fill kept (addressed name operand) = .ok (name ++ " " ++ Instruction.addressText nnn) := by
  have htext : name ++ " " ++ Instruction.addressText nnn =
      name ++ " 0x" ++ Text.hex 4 nnn.toNat := by
    simp [Instruction.addressText, ← String.toList_inj]
  rw [htext]
  exact fill_append (fill_fixed _) (fill_numeral h 4)

end Template

namespace Machine
open Template
variable {τ : Type}

/-- Every instruction keeps what its template asks for. -/
theorem fill_ofInstruction (m after : Machine τ) (address opcode : Int) (i : Instruction) :
    fill (m.kept after address opcode i) (ofInstruction i) = .ok i.text := by
  cases i with
  | clearScreen | ret => exact fill_fixed _
  | system | jump | call => exact fill_addressed rfl
  | loadIndex | jumpOffset => exact fill_addressed rfl
  | skipEqByte | skipNeByte | loadByte | addByte => exact fill_immediate rfl rfl
  | skipEq | skipNe | copy | or | and | xor | add | sub | subFrom => exact fill_binary rfl rfl
  | shiftRight | shiftLeft | skipKey | skipNoKey => exact fill_unary rfl
  | setDelay | setSound | addIndex | selectGlyph | decimal | save => exact fill_unary rfl
  | loadDelay | waitKey | restore => exact fill_unary_append rfl (fill_fixed _)
  | random x kk =>
    exact fill_unary_append rfl (fill_append (fill_fixed _) (fill_numeral rfl 2))
  | draw x y n => exact fill_counted rfl rfl rfl

theorem fill_line (m after : Machine τ) (address opcode : Int) (i : Instruction) :
    ∃ line, fill (m.kept after address opcode i) (Template.line i) = .ok line ∧
      line ++ "\n" = instructionTrace address i := by
  have hmem : (m.kept after address opcode i).lookup "mem_addr" = some (.integer address) := rfl
  have hhead := fill_append (fill_fixed "mem_addr: 0x")
    (fill_append (fill_numeral hmem 4) (fill_fixed "    instruction: "))
  refine ⟨_, fill_append hhead (m.fill_ofInstruction after address opcode i), ?_⟩
  simp only [instructionTrace, String.append_assoc]

/-- A traced cycle is a cycle that also prints its trace. -/
theorem cycleTraced_eq (m : Machine τ) (now : τ) (tracing : Bool) :
    m.cycleTraced now tracing =
      ((m.cycle now).1, (m.cycle now).2.mapError .fault,
        if tracing then m.trace (m.cycle now).2 else "") := by
  cases hi : Instruction.ofOpcode? m.fetch with
  | none =>
    simp only [cycle_of_none hi, cycleTraced, decode_toNat, hi, trace, String.append_empty]
    rfl
  | some i =>
    rcases he : m.fetched.execute now i with ⟨a, f | _⟩
    · simp only [cycle_of_error hi he, cycleTraced, decode_toNat, hi, he, trace,
        String.append_empty]
      rfl
    · obtain ⟨line, hline, htrace⟩ := m.fetched.fill_line a m.pc m.fetch.toNat i
      have haddress : m.fetched.opcodeAddress = m.pc := rfl
      cases tracing with
      | false =>
        simp only [cycle_of_ok hi he, cycleTraced, decode_toNat, hi, he, Bool.false_eq_true,
          if_false]
        rfl
      | true =>
        simp only [cycle_of_ok hi he, cycleTraced, decode_toNat, hi, he, haddress, hline, trace,
          if_true, String.append_assoc, htrace]
        rfl

end Machine
end ChipEight
