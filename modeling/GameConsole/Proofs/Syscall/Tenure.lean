import GameConsole.Proofs.Syscall.Footprint
import Mathlib.Data.Set.Card

/-! Which handler services a call. A number belongs to the handler that was last registered for it,
by itself or with a module, until it is given up; the counts are those of the calls since they were
last set to zero. All of it can be read off what has been done to the dispatcher. -/
namespace GameConsole

namespace Directory

variable {κ α : Type} [DecidableEq κ]

theorem containsIff (d : Directory κ α) (key : κ) :
    d.contains key = true ↔ key ∈ d.entries.map Prod.fst := by
  simp [contains, find?]

theorem sizeCounts (d : Directory κ α) : d.size = {key | d.contains key = true}.ncard := by
  have keys : {key | d.contains key = true} = ((d.entries.map Prod.fst).toFinset : Set κ) := by
    ext key
    rw [Set.mem_ofPred_eq, containsIff, Finset.mem_coe, List.mem_toFinset]
  rw [keys, Set.ncard_coe_finset, List.toFinset_card_of_nodup d.distinct, List.length_map, size]

end Directory

namespace Syscall

variable {δ : Type}

inductive Operation (δ : Type) where
  | register (number : UInt64) (handler : Handler δ)
  | unregister (number : UInt64)
  | install (m : Module δ)
  | dispatch (g : Guest δ)
  | resetCounts

def Operation.perform (d : Dispatcher δ) : Operation δ → Dispatcher δ
  | .register number handler => (d.register number handler).1
  | .unregister number => (d.unregister number).1
  | .install m => (d.install m).1
  | .dispatch g => (d.dispatch g).1
  | .resetCounts => d.resetCounts

abbrev Past (δ : Type) := List (Operation δ)

namespace Past

def dispatcher : Past δ → Dispatcher δ
  | [] => .empty
  | operation :: past => operation.perform (dispatcher past)

/- The handler that a number was given last, unless it has been taken away since. Of the entries of
a module the last one counts. -/
def inForce (number : UInt64) : Past δ → Option (Handler δ)
  | [] => none
  | .register other handler :: past => if other = number then some handler else inForce number past
  | .unregister other :: past => if other = number then none else inForce number past
  | .install m :: past => (m.handlers.reverse.lookup number).or (inForce number past)
  | .dispatch _ :: past => inForce number past
  | .resetCounts :: past => inForce number past

def calls : Past δ → List (Option (Handler δ))
  | [] => []
  | .dispatch g :: past => inForce (g.registers.get .rax) past :: calls past
  | .resetCounts :: _ => []
  | .register .. :: past => calls past
  | .unregister _ :: past => calls past
  | .install _ :: past => calls past

end Past

namespace Dispatcher

theorem registerFinds (d : Dispatcher δ) (number other : UInt64) (handler : Handler δ) :
    (d.register other handler).1.handlers.find? number =
      if other = number then some handler else d.handlers.find? number :=
  d.handlers.findPut other number handler

theorem registerAllLookup (d : Dispatcher δ) (entries : List (UInt64 × Handler δ))
    (number : UInt64) :
    (d.registerAll entries).1.handlers.find? number =
      (entries.reverse.lookup number).or (d.handlers.find? number) := by
  induction entries generalizing d with
  | nil => rfl
  | cons entry rest ih =>
    have first : (if entry.1 = number then some entry.2 else d.handlers.find? number) =
        (List.lookup number [entry]).or (d.handlers.find? number) := by
      obtain ⟨key, handler⟩ := entry
      by_cases same : key = number
      · rw [if_pos same, same, List.lookup_cons_self]
        rfl
      · rw [if_neg same, List.lookup_cons, beq_false_of_ne (Ne.symm same)]
        rfl
    rw [List.reverse_cons, List.lookup_append, Option.or_assoc, ← first, ← registerFinds]
    exact ih (d.register entry.1 entry.2).1

end Dispatcher

namespace Past

theorem findsInForce (past : Past δ) (number : UInt64) :
    (dispatcher past).handlers.find? number = inForce number past := by
  induction past with
  | nil => rfl
  | cons operation past ih =>
    cases operation with
    | register other handler =>
      rw [inForce, ← ih]
      exact (dispatcher past).registerFinds number other handler
    | unregister other =>
      rw [inForce, ← ih]
      exact (dispatcher past).handlers.findErase other number
    | install m =>
      rw [inForce, ← ih]
      exact (dispatcher past).registerAllLookup m.handlers number
    | dispatch g =>
      rw [inForce, ← ih]
      exact congrArg (Directory.find? · number) ((dispatcher past).dispatchHandlers g)
    | resetCounts => exact ih

theorem countsCalls (past : Past δ) :
    (dispatcher past).total = (calls past).length ∧
      (dispatcher past).unimplemented = (calls past).countP Option.isNone := by
  induction past with
  | nil => exact ⟨rfl, rfl⟩
  | cons operation past ih =>
    obtain ⟨total, unimplemented⟩ := ih
    cases operation with
    | register number handler => exact ⟨total, unimplemented⟩
    | unregister number => exact ⟨total, unimplemented⟩
    | install m =>
      have same := (dispatcher past).registerAllCounts m.handlers
      exact ⟨same.1.trans total, same.2.trans unimplemented⟩
    | resetCounts => exact ⟨rfl, rfl⟩
    | dispatch g =>
      have place := findsInForce past (g.registers.get .rax)
      rw [dispatcher, Operation.perform, calls, List.length_cons, List.countP_cons, ← total,
        ← unimplemented]
      cases found : inForce (g.registers.get .rax) past with
      | none =>
        rw [Dispatcher.dispatchMissing (place.trans found)]
        exact ⟨rfl, rfl⟩
      | some handler =>
        rw [Dispatcher.dispatchFound (place.trans found)]
        exact ⟨rfl, rfl⟩

theorem handlersCounted (past : Past δ) :
    (dispatcher past).handlerCount = {number | (inForce number past).isSome = true}.ncard := by
  rw [Dispatcher.handlerCount, Directory.sizeCounts]
  simp only [Directory.contains, findsInForce]

end Past

theorem latestServices (past : Past δ) (g : Guest δ) :
    let d := Past.dispatcher past
    let s := g.registers
    let after := (d.dispatch g).2
    (∀ handler, Past.inForce (s.get .rax) past = some handler →
      let served := handler ⟨s.get .rdi, s.get .rsi, s.get .rdx, s.get .r10, s.get .r8, s.get .r9⟩
        (g.note (Dispatcher.call s))
      after.registers = served.2.registers.set .rax served.1.value.toUInt64 ∧
        after.memory = served.2.memory ∧ after.devices = served.2.devices) ∧
    (Past.inForce (s.get .rax) past = none →
      after.registers = s.set .rax 0 ∧ after.memory = g.memory ∧ after.devices = g.devices) ∧
    d.handlerCount = {number | (Past.inForce number past).isSome = true}.ncard ∧
    d.total = (Past.calls past).length ∧
    d.unimplemented = (Past.calls past).countP Option.isNone ∧ d.unimplemented ≤ d.total := by
  intro d s after
  have place := Past.findsInForce past (s.get .rax)
  obtain ⟨total, unimplemented⟩ := Past.countsCalls past
  refine ⟨fun handler found => Dispatcher.dispatchServes (place.trans found), fun missing => ?_,
    Past.handlersCounted past, total, unimplemented, ?_⟩
  · have done : d.dispatch g = _ := Dispatcher.dispatchMissing (place.trans missing)
    simp only [after, done]
    exact ⟨rfl, rfl, rfl⟩
  · rw [total, unimplemented]
    exact List.countP_le_length

end Syscall

end GameConsole
