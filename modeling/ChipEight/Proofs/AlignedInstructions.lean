import ChipEight.Proofs.ReachableMachines
import ChipEight.Proofs.WrittenParts
import Mathlib.Algebra.Group.Int.Even

/-!
# Aligned instructions

Instructions are two bytes long, and memory has an even number of cells. So if a machine starts at an even
address with even return addresses and whatever names an address to go on at leads to an even one, then
the program counter stays even, also across the end of memory, and no two opcodes that are fetched
share just one of their bytes.
-/
namespace ChipEight

theorem even_emod_memorySize {a : Int} : Even (a % memorySize) ↔ Even a := by
  rw [Int.even_iff, Int.even_iff, memorySize]
  omega

/-- Opcodes at even addresses stand in the same two cells or have none in common. -/
theorem eq_or_disjoint_of_even {p q : Int} (hp : IsAddress p) (hq : IsAddress q) (hpeven : Even p)
    (hqeven : Even q) : p = q ∨ ∀ address, ¬ (InCells p 2 address ∧ InCells q 2 address) := by
  rw [Int.even_iff] at hpeven hqeven
  refine or_iff_not_imp_left.mpr fun hne address => ?_
  rintro ⟨⟨i, hi, hpi⟩, ⟨j, hj, hqj⟩⟩
  have hcell := hpi.symm.trans hqj
  rw [IsAddress] at hp hq
  rw [memorySize] at hcell
  omega

/-- Where an instruction names the address to go on at, it is even. -/
def Instruction.LeadsEvenly {τ : Type} (m : Machine τ) : Instruction → Prop
  | .jump nnn | .call nnn => Even nnn.toNat
  | .jumpOffset nnn => Even (nnn.toNat + m.register 0)
  | _ => True

namespace Machine
variable {τ : Type} {m a : Machine τ} {now : τ} {i : Instruction}

/-- The program counter and the return addresses in use are even. -/
structure Aligned (m : Machine τ) : Prop where
  pc : Even m.pc
  returns : ∀ address ∈ m.stack.toList, Even address

/-- The next instruction, if it is a jump or a call, names an even address, and if it is a jump by an
offset, its address and the offset together are even. -/
def LeadsEvenly (m : Machine τ) : Prop :=
  (m.fetch.firstDigit = 0x1 ∨ m.fetch.firstDigit = 0x2 → Even m.fetch.nnn.toNat) ∧
    (m.fetch.firstDigit = 0xb → Even (m.fetch.nnn.toNat + m.register 0))

instance (m : Machine τ) : Decidable m.LeadsEvenly :=
  inferInstanceAs (Decidable ((_ → _) ∧ (_ → _)))

theorem LeadsEvenly.instruction (h : m.LeadsEvenly) (hi : Instruction.ofOpcode? m.fetch = some i) :
    i.LeadsEvenly m := by
  rw [Instruction.ofOpcode?_eq_some_iff] at hi
  cases i with
  | jump nnn => exact hi.2 ▸ h.1 (.inl hi.1)
  | call nnn => exact hi.2 ▸ h.1 (.inr hi.1)
  | jumpOffset nnn => exact hi.2 ▸ h.2 hi.1
  | _ => trivial

namespace Aligned

theorem goto (h : m.Aligned) {pc : Int} (hpc : Even pc) : { m with pc }.Aligned :=
  ⟨hpc, h.returns⟩

theorem fetched (h : m.Aligned) : m.fetched.Aligned :=
  ⟨even_emod_memorySize.mpr (h.pc.add even_two), h.returns⟩

theorem skipIf (h : m.Aligned) (c : Bool) : (m.skipIf c).Aligned := by
  rw [Machine.skipIf]
  split
  · exact h.goto (even_emod_memorySize.mpr (h.pc.add even_two))
  · exact h

/-- Going back to wait keeps the address even, also at the start of memory. -/
theorem waitKey (h : m.Aligned) (x : Register) : (m.waitKey x).Aligned := by
  rw [Machine.waitKey]
  split
  · exact ⟨h.pc, h.returns⟩
  · exact h.goto (even_emod_memorySize.mpr (h.pc.sub even_two))

theorem call (h : m.Aligned) {pc : Int} {stack : CallStack}
    (hpush : m.stack.push m.pc = (stack, .ok ())) (hpc : Even pc) :
    { m with stack, pc }.Aligned := by
  refine ⟨hpc, fun address hmem => ?_⟩
  rw [CallStack.toList_of_push hpush, List.mem_append, List.mem_singleton] at hmem
  rcases hmem with hmem | rfl
  · exact h.returns address hmem
  · exact h.pc

theorem ret (h : m.Aligned) {pc : Int} {stack : CallStack}
    (hpop : m.stack.pop = (stack, .ok pc)) : { m with stack, pc }.Aligned := by
  have hlist := CallStack.toList_of_pop hpop
  refine ⟨h.returns pc ?_, fun address hmem => h.returns address ?_⟩
  · rw [hlist]
    exact List.mem_append_right _ (List.mem_singleton_self pc)
  · rw [hlist]
    exact List.mem_append_left _ hmem

theorem execute (h : m.Aligned) (hi : i.LeadsEvenly m) (he : m.execute now i = (a, .ok ())) :
    a.Aligned := by
  cases i with
  | call nnn =>
    obtain ⟨stack, hpush, rfl⟩ := exists_of_call_ok he
    exact h.call hpush hi.natCast
  | ret =>
    obtain ⟨address, stack, hpop, rfl⟩ := exists_of_ret_ok he
    exact h.ret hpop
  | jump nnn => obtain rfl := (Prod.mk.inj he).1; exact h.goto hi.natCast
  | jumpOffset nnn => obtain rfl := (Prod.mk.inj he).1; exact h.goto (even_emod_memorySize.mpr hi)
  | skipEqByte | skipNeByte | skipEq | skipNe | skipKey | skipNoKey =>
    obtain rfl := (Prod.mk.inj he).1
    exact h.skipIf _
  | waitKey x => obtain rfl := (Prod.mk.inj he).1; exact h.waitKey x
  | _ => obtain rfl := (Prod.mk.inj he).1; exact ⟨h.pc, h.returns⟩

theorem cycle (h : m.Aligned) (heven : (∃ redraw, (m.cycle now).2 = .ok redraw) → m.LeadsEvenly) :
    (m.cycle now).1.Aligned := by
  cases hr : (m.cycle now).2 with
  | error f =>
    rw [cycle_of_fault hr]
    exact h.fetched
  | ok redraw =>
    obtain ⟨i, hi, he⟩ := exists_of_cycle_ok hr
    exact h.fetched.execute ((heven ⟨redraw, hr⟩).instruction hi) he

variable [Clock τ] {beats : ℕ → Beat τ} {n : ℕ}

theorem hostAll (h : m.Aligned) (acts : List (HostAct τ)) : (m.hostAll acts).Aligned := by
  refine ⟨?_, ?_⟩
  · rw [pc_hostAll]
    exact h.pc
  · rw [stack_hostAll]
    exact h.returns

theorem after (h : m.Aligned)
    (heven : ∀ k < n, (∃ redraw, m.result beats k = .ok redraw) →
      (m.before beats k).LeadsEvenly) :
    (m.after beats n).Aligned := by
  induction n with
  | zero => exact h
  | succ n ih =>
    have hn := ih fun k hk => heven k (Nat.lt_succ_of_lt hk)
    exact (hn.hostAll _).cycle (heven n (Nat.lt_succ_self n))

end Aligned

variable [Clock τ]

/-- Instructions stay aligned. A well-formed machine starts at an even address, and the return addresses
on its stack are even. In each of its first `n` cycles that succeeds, a jump or a call leads to an even
address. Then up to there the program counter and all return addresses on the stack are even, through
faults as well, and any two opcodes that are fetched either stand at the same address or share
no byte. -/
theorem fetches_stay_aligned (hwf : m.WellFormed) (haligned : m.Aligned) {beats : ℕ → Beat τ}
    {n : ℕ}
    (heven : ∀ k < n, (∃ redraw, m.result beats k = .ok redraw) →
      (m.before beats k).LeadsEvenly) :
    (∀ k ≤ n, Even (m.after beats k).pc ∧
      ∀ address ∈ (m.after beats k).stack.toList, Even address) ∧
    ∀ i ≤ n, ∀ j ≤ n,
      let p := (m.before beats i).pc
      let q := (m.before beats j).pc
      p = q ∨ ∀ address, ¬ (InCells p 2 address ∧ InCells q 2 address) := by
  have hafter (k : ℕ) (hk : k ≤ n) : (m.after beats k).Aligned :=
    haligned.after fun j hj => heven j (Nat.lt_of_lt_of_le hj hk)
  have hbefore (k : ℕ) (hk : k ≤ n) : Even (m.before beats k).pc := ((hafter k hk).hostAll _).pc
  refine ⟨fun k hk => ⟨(hafter k hk).pc, (hafter k hk).returns⟩, fun i hi j hj => ?_⟩
  exact eq_or_disjoint_of_even (hwf.before beats i).pc (hwf.before beats j).pc (hbefore i hi)
    (hbefore j hj)

/-- Calls a subroutine from the last two cells of memory, which returns to the first two. -/
def callingAtEnd : Machine Float :=
  { initial .low ⟨fun _ => 0, 0⟩ 0 with
    memory := Memory.zeros.writeBytes 0xffe [0x20, 0x02, 0xff, 0xff, 0x00, 0xee]
    pc := 0xffe }

theorem fetches_stay_aligned_at_end :
    let idle : ℕ → Beat Float := fun _ => ⟨[], 0⟩
    callingAtEnd.WellFormed ∧ callingAtEnd.Aligned ∧
    (∀ k < 2, (∃ redraw, callingAtEnd.result idle k = .ok redraw) →
      (callingAtEnd.before idle k).LeadsEvenly) ∧
    (callingAtEnd.before idle 2).pc = 0x000 ∧
    (∀ address ∈ (callingAtEnd.after idle 1).stack.toList, Even address) ∧
    ∀ address, ¬ (InCells 0xffe 2 address ∧ InCells 0x000 2 address) := by
  intro idle
  have hcleared := (wellFormed_initial .low ⟨fun _ => 0, 0⟩ (0 : Float)).perform .clearMemory
  have hwritten := hcleared.writeBytes 0xffe [0x20, 0x02, 0xff, 0xff, 0x00, 0xee]
  have hwf : callingAtEnd.WellFormed := { hwritten with pc := ⟨by decide, by decide⟩ }
  have haligned : callingAtEnd.Aligned := ⟨by decide, nofun⟩
  have heven : ∀ k < 2, (∃ redraw, callingAtEnd.result idle k = .ok redraw) →
      (callingAtEnd.before idle k).LeadsEvenly := by
    intro k hk _
    interval_cases k <;> decide +kernel
  have hback : (callingAtEnd.before idle 2).pc = 0x000 := by decide +kernel
  obtain ⟨hafter, hdisjoint⟩ := fetches_stay_aligned hwf haligned heven
  have hcells := hdisjoint 0 (by decide) 2 (by decide)
  rw [hback] at hcells
  exact ⟨hwf, haligned, heven, hback, (hafter 1 (by decide)).2,
    hcells.resolve_left fun hsame => absurd hsame (by decide)⟩

end Machine
end ChipEight
