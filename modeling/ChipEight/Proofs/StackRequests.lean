import ChipEight.Machine.Execute
import ChipEight.Proofs.CallStackContents

/-!
# Requests to the call stack

Whoever adds and removes addresses, and looks at the stack in between, cannot tell it from a list of at
most sixteen addresses: what slots above those in use still hold from earlier never shows. A request
that faults is as good as one that was never made.
-/
namespace ChipEight

namespace CallStack

inductive Request where
  | push (address : Int)
  | pop
deriving DecidableEq, Repr

/-- What can be seen of a request: the address it returns or the fault it raises, and afterwards the
number of addresses and their text. -/
structure Sight where
  outcome : Except Fault (Option Int)
  length : ℕ
  text : String

/-- The stack after a request, and what the request returns. -/
def serve (s : CallStack) : Request → CallStack × Except Fault (Option Int)
  | .push address => ((s.push address).1, (s.push address).2.map fun _ => none)
  | .pop => (s.pop.1, s.pop.2.map some)

def serveAll (s : CallStack) (requests : List Request) : CallStack :=
  requests.foldl (fun s request => (s.serve request).1) s

/-- What can be seen of requests one after the other. -/
def sights (s : CallStack) : List Request → List Sight
  | [] => []
  | request :: rest =>
    let served := s.serve request
    ⟨served.2, served.1.depth, served.1.text⟩ :: served.1.sights rest

end CallStack

/-- At most sixteen addresses, the oldest first. -/
abbrev AddressList := List Int

namespace AddressList
open CallStack (Request Sight)

/-- The list after a request: an address is added at the end, and the one at the end is removed. -/
def serve (l : AddressList) : Request → AddressList × Except Fault (Option Int)
  | .push address =>
    if l.length < stackCapacity then (l ++ [address], .ok none) else (l, .error .stackOverflow)
  | .pop => match l.getLast? with
    | some address => (l.dropLast, .ok (some address))
    | none => (l, .error .stackUnderflow)

def text (l : AddressList) : String :=
  Text.bracketed (l.map fun a => "'0x" ++ Text.hex 3 a ++ "'")

def sights (l : AddressList) : List Request → List Sight
  | [] => []
  | request :: rest =>
    let served := serve l request
    ⟨served.2, served.1.length, text served.1⟩ :: sights served.1 rest

end AddressList

namespace CallStack
variable {s : CallStack} {request : Request} {fault : Fault}

theorem serve_push (s : CallStack) (address : Int) :
    ((s.serve (.push address)).1.toList, (s.serve (.push address)).2) =
      AddressList.serve s.toList (.push address) := by
  rw [AddressList.serve, length_toList]
  rcases hpush : s.push address with ⟨after, fault | _⟩
  · obtain ⟨hfull, hsame, rfl⟩ := push_eq_error_iff.mp hpush
    rw [hsame] at hpush
    rw [if_neg (by omega), serve, hpush]
    rfl
  · obtain ⟨hdepth, -⟩ := exists_of_push hpush
    rw [if_pos hdepth, ← toList_of_push hpush, serve, hpush]
    rfl

theorem serve_pop (s : CallStack) :
    ((s.serve .pop).1.toList, (s.serve .pop).2) = AddressList.serve s.toList .pop := by
  rw [AddressList.serve]
  rcases hpop : s.pop with ⟨after, fault | address⟩
  · obtain ⟨hdepth, hsame, rfl⟩ := pop_eq_error_iff.mp hpop
    have hempty : s.toList = [] := by
      rw [← List.length_eq_zero_iff, length_toList, hdepth]
    rw [hsame] at hpop
    rw [serve, hpop, hempty, List.getLast?_nil]
    rfl
  · rw [toList_of_pop hpop, List.getLast?_concat, List.dropLast_concat, serve, hpop]
    rfl

/-- A request takes the addresses in use where it takes the list of them, with the same outcome. -/
theorem toList_serve (s : CallStack) (request : Request) :
    ((s.serve request).1.toList, (s.serve request).2) = AddressList.serve s.toList request := by
  cases request with
  | push address => exact s.serve_push address
  | pop => exact s.serve_pop

theorem sights_eq (s : CallStack) (requests : List Request) :
    s.sights requests = AddressList.sights s.toList requests := by
  induction requests generalizing s with
  | nil => rfl
  | cons request rest ih =>
    rw [sights, AddressList.sights, ← toList_serve, ih, ← length_toList]
    rfl

/-- A request that faults leaves the stack as it was. -/
theorem serve_of_error (h : (s.serve request).2 = .error fault) : (s.serve request).1 = s := by
  cases request with
  | push address =>
    rcases hpush : s.push address with ⟨after, fault' | _⟩
    · rw [serve, hpush]
      exact (push_eq_error_iff.mp hpush).2.1
    · rw [serve, hpush] at h
      cases h
  | pop =>
    rcases hpop : s.pop with ⟨after, fault' | address⟩
    · rw [serve, hpop]
      exact (pop_eq_error_iff.mp hpop).2.1
    · rw [serve, hpop] at h
      cases h

theorem length_sights (s : CallStack) (requests : List Request) :
    (s.sights requests).length = requests.length := by
  induction requests generalizing s with
  | nil => rfl
  | cons request rest ih => rw [sights, List.length_cons, ih, List.length_cons]

theorem sights_append (s : CallStack) (before after : List Request) :
    s.sights (before ++ after) = s.sights before ++ (s.serveAll before).sights after := by
  induction before generalizing s with
  | nil => rfl
  | cons request rest ih =>
    rw [List.cons_append, sights, sights, ih, List.cons_append]
    rfl

/-- Leaving out a request that faults leaves out its own sight and changes no other. -/
theorem sights_without_fault (s : CallStack) (before rest : List Request)
    (h : ((s.serveAll before).serve request).2 = .error fault) :
    (s.sights (before ++ request :: rest)).eraseIdx before.length = s.sights (before ++ rest) := by
  have hsame := serve_of_error h
  rw [sights_append, sights_append, ← length_sights s before,
    List.eraseIdx_append_of_length_le (Nat.le_refl _), Nat.sub_self, sights, hsame]
  rfl

/-- A stack is seen as the list of the addresses in use, a new one as the empty list, whatever is
requested of it. Adding faults exactly on sixteen addresses, removing exactly on none and otherwise it
returns the address that was added last. After a fault all goes on as if the request had not been made. -/
theorem requests_refine_list :
    (∀ requests, empty.sights requests = AddressList.sights [] requests) ∧
    ∀ s : CallStack,
      (∀ requests, s.sights requests = AddressList.sights s.toList requests) ∧
      (∀ address, (s.serve (.push address)).2 =
        if s.toList.length = 16 then .error .stackOverflow else .ok none) ∧
      (s.toList = [] → (s.serve .pop).2 = .error .stackUnderflow) ∧
      (∀ older address, s.toList = older ++ [address] → (s.serve .pop).2 = .ok (some address)) ∧
      ∀ before request rest fault, ((s.serveAll before).serve request).2 = .error fault →
        (s.sights (before ++ request :: rest)).eraseIdx before.length =
          s.sights (before ++ rest) := by
  refine ⟨empty.sights_eq, fun s => ⟨s.sights_eq, fun address => ?_, fun hempty => ?_,
    fun older address hlast => ?_, fun before request rest fault => s.sights_without_fault before rest⟩⟩
  · have hpush := congrArg Prod.snd (s.serve_push address)
    have hdepth := s.depth_le
    have hlength := s.length_toList
    rw [stackCapacity] at hdepth
    rw [hpush, AddressList.serve, stackCapacity]
    by_cases hfull : s.toList.length = 16
    · rw [if_neg (by omega), if_pos hfull]
    · rw [if_pos (by omega), if_neg hfull]
  · have hpop := congrArg Prod.snd s.serve_pop
    rw [hpop, hempty]
    rfl
  · have hpop := congrArg Prod.snd s.serve_pop
    rw [hpop, hlast, AddressList.serve, List.getLast?_concat]

end CallStack

end ChipEight
