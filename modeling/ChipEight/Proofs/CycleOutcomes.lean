import ChipEight.Machine.Execute
import ChipEight.Proofs.CallStackContents
import ChipEight.Proofs.MemoryCells
import ChipEight.Proofs.OpcodeForms

/-!
# The outcomes of a cycle

A cycle decodes the opcode at the program counter and executes it. Only a call on a full stack and a
return on an empty one fault once they are decoded. Both ask the stack first and jump afterwards, so a
fault leaves nothing behind but the fetch.
-/
namespace ChipEight.Machine
variable {τ : Type} {m a : Machine τ} {now : τ} {i : Instruction} {f : Fault}

/-- Decoding an opcode of sixteen bits always finds a handler for its key. -/
theorem decode_toNat (m : Machine τ) (w : Opcode) :
    m.decode w.toNat = match Instruction.ofOpcode? w with
      | some i => .ok i
      | none => .error (.unsupportedInstruction w.toNat m.opcodeAddress) := by
  cases hkey : Opcode.key? w.toNat with
  | none => simp only [decode, hkey, Instruction.ofOpcode?_eq_none_iff.mpr hkey]
  | some key =>
    obtain ⟨handler, hhandler⟩ := Opcode.exists_handler_of_key? hkey
    have hw : Opcode.ofInt w.toNat = w := by simp [Opcode.ofInt]
    simp only [decode, hkey, hhandler, hw, Instruction.ofOpcode?_of_key? hkey hhandler]

theorem cycle_of_none (h : Instruction.ofOpcode? m.fetch = none) (now : τ) :
    m.cycle now = (m.fetched, .error (.unsupportedInstruction m.fetch.toNat m.pc)) := by
  simp only [cycle, decode_toNat, h]
  rfl

theorem cycle_of_ok (h : Instruction.ofOpcode? m.fetch = some i)
    (he : m.fetched.execute now i = (a, .ok ())) : m.cycle now = (a, .ok a.redraw) := by
  simp only [cycle, decode_toNat, h, he]

theorem cycle_of_error (h : Instruction.ofOpcode? m.fetch = some i)
    (he : m.fetched.execute now i = (a, .error f)) : m.cycle now = (a, .error f) := by
  simp only [cycle, decode_toNat, h, he]

theorem skipIf_stack (m : Machine τ) (c : Bool) : (m.skipIf c).stack = m.stack := by
  rw [skipIf]
  split <;> rfl

theorem waitKey_stack (m : Machine τ) (x : Register) : (m.waitKey x).stack = m.stack := by
  rw [waitKey]
  split <;> rfl

/-- A cycle that succeeds has decoded an instruction and run it to its end. -/
theorem exists_of_cycle_ok {redraw : Bool} (h : (m.cycle now).2 = .ok redraw) :
    ∃ i, Instruction.ofOpcode? m.fetch = some i ∧
      m.fetched.execute now i = ((m.cycle now).1, .ok ()) := by
  cases hi : Instruction.ofOpcode? m.fetch with
  | none =>
    rw [cycle_of_none hi] at h
    cases h
  | some i =>
    refine ⟨i, rfl, ?_⟩
    rcases he : m.fetched.execute now i with ⟨a, f | _⟩
    · rw [cycle_of_error hi he] at h
      cases h
    · rw [cycle_of_ok hi he]

theorem exists_of_call_ok {nnn : BitVec 12} (h : m.execute now (.call nnn) = (a, .ok ())) :
    ∃ stack, m.stack.push m.pc = (stack, .ok ()) ∧ a = { m with stack, pc := nnn.toNat } := by
  rw [execute] at h
  rcases hpush : m.stack.push m.pc with ⟨stack, f | _⟩ <;> rw [hpush] at h
  · cases (Prod.mk.inj h).2
  · exact ⟨stack, rfl, (Prod.mk.inj h).1.symm⟩

theorem exists_of_ret_ok (h : m.execute now .ret = (a, .ok ())) :
    ∃ address stack, m.stack.pop = (stack, .ok address) ∧
      a = { m with stack, pc := address } := by
  rw [execute] at h
  rcases hpop : m.stack.pop with ⟨stack, f | address⟩ <;> rw [hpop] at h
  · cases (Prod.mk.inj h).2
  · exact ⟨address, stack, rfl, (Prod.mk.inj h).1.symm⟩

/-- How an instruction takes the stack of a machine to that of the machine after it. -/
def StackStep (m a : Machine τ) : Instruction → Prop
  | .call _ => m.stack.push m.pc = (a.stack, .ok ())
  | .ret => m.stack.pop = (a.stack, .ok a.pc)
  | _ => a.stack = m.stack

theorem stackStep_of_execute (h : m.execute now i = (a, .ok ())) : m.StackStep a i := by
  cases i with
  | call nnn =>
    obtain ⟨stack, hpush, rfl⟩ := exists_of_call_ok h
    exact hpush
  | ret =>
    obtain ⟨address, stack, hpop, rfl⟩ := exists_of_ret_ok h
    exact hpop
  | skipEqByte | skipNeByte | skipEq | skipNe | skipKey | skipNoKey =>
    obtain rfl := (Prod.mk.inj h).1
    exact skipIf_stack m _
  | waitKey x =>
    obtain rfl := (Prod.mk.inj h).1
    exact waitKey_stack m x
  | _ =>
    obtain rfl := (Prod.mk.inj h).1
    rfl

/-- A call faults on a full stack only. It has then neither added an address nor jumped. -/
theorem execute_call_eq_error_iff {nnn : BitVec 12} : m.execute now (.call nnn) = (a, .error f) ↔
    m.stack.depth = stackCapacity ∧ a = m ∧ f = .stackOverflow := by
  rw [execute]
  rcases hpush : m.stack.push m.pc with ⟨stack, g | _⟩
  · obtain ⟨hfull, rfl, rfl⟩ := CallStack.push_eq_error_iff.mp hpush
    change (m, _) = (a, _) ↔ _
    simp [hfull, eq_comm]
  · have hfits := (CallStack.exists_of_push hpush).1
    simp [Nat.ne_of_lt hfits]

/-- A return faults on an empty stack only. It has then neither removed an address nor jumped. -/
theorem execute_ret_eq_error_iff : m.execute now .ret = (a, .error f) ↔
    m.stack.depth = 0 ∧ a = m ∧ f = .stackUnderflow := by
  rw [execute]
  rcases hpop : m.stack.pop with ⟨stack, g | address⟩
  · obtain ⟨hempty, rfl, rfl⟩ := CallStack.pop_eq_error_iff.mp hpop
    change (m, _) = (a, _) ↔ _
    simp [hempty, eq_comm]
  · obtain ⟨-, hpos, -⟩ := CallStack.exists_of_pop hpop
    simp [Nat.ne_of_gt hpos]

/-- The faults of instructions that were decoded. An instruction that faults changes nothing. -/
theorem execute_eq_error_iff : m.execute now i = (a, .error f) ↔
    a = m ∧ ((∃ nnn, i = .call nnn) ∧ m.stack.depth = stackCapacity ∧ f = .stackOverflow ∨
      i = .ret ∧ m.stack.depth = 0 ∧ f = .stackUnderflow) := by
  cases i with
  | call nnn =>
    rw [execute_call_eq_error_iff]
    simp [and_left_comm]
  | ret =>
    rw [execute_ret_eq_error_iff]
    simp [and_left_comm]
  | _ => simp [execute]

/-- The two bytes of the opcode, the second one at the address after the program counter, which
wraps around at the end of memory. -/
theorem fetch_eq (m : Machine τ) : m.fetch =
    m.memory.read m.pc ++ m.memory.read ((m.pc + 1) % memorySize) := by
  rw [Memory.read_emod]
  rfl

/-- A fault, told by the opcode and the number of addresses on the stack. -/
theorem cycle_error_iff : (m.cycle now).2 = .error f ↔
    Instruction.ofOpcode? m.fetch = none ∧ f = .unsupportedInstruction m.fetch.toNat m.pc ∨
    m.fetch.firstDigit = 0x2 ∧ m.stack.depth = stackCapacity ∧ f = .stackOverflow ∨
    m.fetch = 0x00ee ∧ m.stack.depth = 0 ∧ f = .stackUnderflow := by
  have hcall : m.fetch.firstDigit = 0x2 ↔
      ∃ nnn, Instruction.ofOpcode? m.fetch = some (.call nnn) := by
    simp [Instruction.ofOpcode?_eq_some_iff, Instruction.WrittenAs]
  have hret : m.fetch = 0x00ee ↔ Instruction.ofOpcode? m.fetch = some .ret := by
    simp [Instruction.ofOpcode?_eq_some_iff, Instruction.WrittenAs]
  rw [hcall, hret]
  cases hi : Instruction.ofOpcode? m.fetch with
  | none => simp [cycle_of_none hi, eq_comm]
  | some i =>
    have hexec : (m.cycle now).2 = .error f ↔ ∃ a, m.fetched.execute now i = (a, .error f) := by
      rcases he : m.fetched.execute now i with ⟨a, g | _⟩
      · simp [cycle_of_error hi he]
      · simp [cycle_of_ok hi he]
    simp only [hexec, execute_eq_error_iff, exists_eq_left]
    simp [fetched]

/-- A fault leaves nothing behind but the fetch. -/
theorem cycle_of_fault (h : (m.cycle now).2 = .error f) : (m.cycle now).1 = m.fetched := by
  cases hi : Instruction.ofOpcode? m.fetch with
  | none => rw [cycle_of_none hi]
  | some i =>
    rcases he : m.fetched.execute now i with ⟨a, g | _⟩
    · rw [cycle_of_error hi he]
      exact (execute_eq_error_iff.mp he).1
    · rw [cycle_of_ok hi he] at h
      cases h

/-- A cycle leaves the machine as it is after the fetch or as an instruction makes it from there. -/
theorem cycle_fetched_or_executed (m : Machine τ) (now : τ) :
    (m.cycle now).1 = m.fetched ∨ ∃ i, m.fetched.execute now i = ((m.cycle now).1, .ok ()) := by
  cases hr : (m.cycle now).2 with
  | error f => exact .inl (cycle_of_fault hr)
  | ok redraw =>
    obtain ⟨i, -, he⟩ := exists_of_cycle_ok hr
    exact .inr ⟨i, he⟩

/-- The faults of a cycle and when they occur. The opcode is read at the program counter and the
address after it. An opcode that has a key under no mask is reported with its address, a call faults
exactly on a full stack and a return on an empty one, and no key is without a handler. After a fault
only the fetch has happened. -/
theorem cycle_faults (m : Machine τ) (now : τ) :
    let w : Opcode := m.memory.read m.pc ++ m.memory.read ((m.pc + 1) % memorySize)
    (∀ opcode address, (m.cycle now).2 = .error (.unsupportedInstruction opcode address) ↔
      (∀ mask keys, (mask, keys) ∈ Opcode.masks → Bitwise.and w.toNat mask ∉ keys) ∧
        opcode = w.toNat ∧ address = m.pc) ∧
    ((m.cycle now).2 = .error .stackOverflow ↔
      w.firstDigit = 0x2 ∧ m.stack.toList.length = 16) ∧
    ((m.cycle now).2 = .error .stackUnderflow ↔ w = 0x00ee ∧ m.stack.toList = []) ∧
    ∀ fault, (m.cycle now).2 = .error fault →
      ((∃ opcode address, fault = .unsupportedInstruction opcode address) ∨
        fault = .stackOverflow ∨ fault = .stackUnderflow) ∧
      (m.cycle now).1 =
        { m with opcodeAddress := m.pc, pc := (m.pc + 2) % memorySize, redraw := false } := by
  have hempty : m.stack.toList = [] ↔ m.stack.depth = 0 := by
    rw [← CallStack.length_toList, List.length_eq_zero_iff]
  rw [← fetch_eq, hempty, CallStack.length_toList]
  intro w
  refine ⟨fun opcode address => ?_, ?_, ?_, fun fault h => ⟨?_, cycle_of_fault h⟩⟩
  · rw [cycle_error_iff, Instruction.ofOpcode?_eq_none_iff, Opcode.key?_eq_none_iff]
    simp [w]
  · rw [cycle_error_iff]
    simp [w, stackCapacity]
  · rw [cycle_error_iff]
    simp [w]
  · rcases cycle_error_iff.mp h with ⟨-, rfl⟩ | ⟨-, -, rfl⟩ | ⟨-, -, rfl⟩
    · exact .inl ⟨_, _, rfl⟩
    · exact .inr (.inl rfl)
    · exact .inr (.inr rfl)

end ChipEight.Machine
