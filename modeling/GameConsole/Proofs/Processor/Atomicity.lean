import GameConsole.Proofs.Processor.Execution

/-! Instructions are atomic. A fault can only come while the guest is as the instruction found
it: after the first change that an instruction makes, nothing is left of it that can fail. -/
namespace GameConsole

namespace Work
open Instruction (Opening readOperands)

variable {δ α β : Type}

def Quiet (work : Work δ α) : Prop :=
  ∀ g, (∃ value, work.run g = .ok value g) ∨ ∃ e, work.run g = .error e g

def Certain (work : Work δ α) : Prop := ∀ g, ∃ value after, work.run g = .ok value after

def Atomic (work : Work δ α) : Prop := ∀ g e after, work.run g = .error e after → after = g

theorem quietGet : Quiet (get : Work δ (Guest δ)) := fun g => .inl ⟨g, rfl⟩

theorem quietOfExcept (x : Except MemoryFault α) : Quiet (ofExcept x : Work δ α) := by
  intro g
  rw [runOfExcept]
  cases x with
  | ok value => exact .inl ⟨value, rfl⟩
  | error e => exact .inr ⟨e, rfl⟩

theorem certainPure (value : α) : Certain (pure value : Work δ α) := fun g => ⟨value, g, rfl⟩

theorem certainModifyGet (f : Guest δ → α × Guest δ) : Certain (modifyGet f : Work δ α) :=
  fun g => ⟨(f g).1, (f g).2, rfl⟩

theorem certainModify (f : Guest δ → Guest δ) : Certain (modify f : Work δ PUnit) :=
  fun g => ⟨⟨⟩, f g, rfl⟩

theorem certainGet : Certain (get : Work δ (Guest δ)) := fun g => ⟨g, g, rfl⟩

theorem certainBind {first : Work δ α} {rest : α → Work δ β} (hf : Certain first)
    (hr : ∀ value, Certain (rest value)) : Certain (first >>= rest) := by
  intro g
  obtain ⟨value, between, done⟩ := hf g
  rw [EStateM.run_bind, done]
  exact hr value between

theorem Certain.atomic {work : Work δ α} (certain : Certain work) : Atomic work := by
  intro g e after broken
  obtain ⟨value, other, done⟩ := certain g
  rw [done] at broken
  contradiction

theorem Quiet.atomic {work : Work δ α} (quiet : Quiet work) : Atomic work := by
  intro g e after broken
  obtain ⟨value, done⟩ | ⟨fault, same⟩ := quiet g
  · rw [done] at broken
    contradiction
  · rw [same] at broken
    cases broken
    rfl

/- There are two ways to be atomic: what comes first changes nothing, or the rest cannot fail. -/
theorem quietThen {first : Work δ α} {rest : α → Work δ β} (hf : Quiet first)
    (hr : ∀ value, Atomic (rest value)) : Atomic (first >>= rest) := by
  intro g e after broken
  rw [EStateM.run_bind] at broken
  obtain ⟨value, done⟩ | ⟨fault, same⟩ := hf g
  · rw [done] at broken
    exact hr value g e after broken
  · rw [same] at broken
    cases broken
    rfl

theorem thenCertain {first : Work δ α} {rest : α → Work δ β} (hf : Atomic first)
    (hr : ∀ value, Certain (rest value)) : Atomic (first >>= rest) := by
  intro g e after broken
  rw [EStateM.run_bind] at broken
  cases done : first.run g with
  | ok value between =>
    rw [done] at broken
    exact absurd broken (by obtain ⟨_, _, h⟩ := hr value between; simp [h])
  | error fault between =>
    rw [done] at broken
    cases broken
    exact hf g e after done

theorem pushAtomic (value : UInt64) : Atomic (push value : Work δ Unit) :=
  quietThen quietGet fun _ => quietThen quietGet fun _ =>
    thenCertain (quietOfExcept _).atomic fun _ =>
      certainBind (certainModify _) fun _ => certainModify _

theorem popAtomic : Atomic (pop : Work δ UInt64) :=
  quietThen quietGet fun _ => quietThen quietGet fun _ =>
    thenCertain (quietOfExcept _).atomic fun _ =>
      certainBind (certainModify _) fun _ => certainPure _

section Instructions
variable {handler other : Option (TrapHandler δ)} {control elsewhere : Control}
  {opcode : UInt8} {next : UInt64} {instruction : Instruction}

theorem syscallCertain : Certain (perform handler control opcode next .syscall) :=
  certainBind (certainModify _) fun _ => certainBind (certainModifyGet _) fun _ =>
    certainBind certainGet fun _ => certainPure _

theorem performAtomic : Atomic (perform handler control opcode next instruction) := by
  cases instruction with
  | nop => exact (certainPure _).atomic
  | halt => exact (certainPure _).atomic
  | syscall => exact syscallCertain.atomic
  | ret => exact thenCertain popAtomic fun _ => certainPure _
  | jump target => exact (certainPure _).atomic
  | call target => exact thenCertain (pushAtomic next) fun _ => certainPure _
  | push source =>
    exact quietThen quietGet fun g =>
      thenCertain (pushAtomic (g.registers.get source)) fun _ => certainPure _
  | pop target =>
    exact thenCertain popAtomic fun _ => certainBind (certainModify _) fun _ => certainPure _
  | move target value => exact (certainBind (certainModify _) fun _ => certainPure _).atomic
  | skip form => exact (certainBind (certainModify _) fun _ => certainPure _).atomic

theorem carryOutAtomic : Atomic (carryOut handler control opcode next instruction) :=
  thenCertain performAtomic fun _ => certainBind (certainModify _) fun _ => certainPure _

theorem instructAtomic : Atomic (instruct handler control) :=
  quietThen quietGet fun _ => quietThen (quietOfExcept _) fun _ =>
    quietThen (quietOfExcept _) fun _ => thenCertain carryOutAtomic fun _ => certainPure _

theorem performWithoutHandler (plain : instruction ≠ .syscall) :
    perform other elsewhere opcode next instruction =
      perform handler control opcode next instruction := by
  cases instruction <;> first | rfl | contradiction

theorem carryOutBroken {g after : Guest δ} {e : MemoryFault}
    (broken : (carryOut handler control opcode next instruction).run g = .error e after) :
    carryOut other elsewhere opcode next instruction =
      carryOut handler control opcode next instruction := by
  have plain : instruction ≠ .syscall := by
    rintro rfl
    have certain : Certain (carryOut handler control opcode next .syscall) :=
      certainBind syscallCertain fun _ => certainBind (certainModify _) fun _ => certainPure _
    obtain ⟨_, _, done⟩ := certain g
    rw [done] at broken
    contradiction
  rw [carryOut, performWithoutHandler plain, carryOut]

theorem instructBroken {g after : Guest δ} {e : MemoryFault}
    (broken : (instruct handler control).run g = .error e after) :
    (instruct other elsewhere).run g = .error e after := by
  rw [← broken]
  simp only [instruct, EStateM.run_bind, EStateM.run_get, EStateM.run_pure, runOfExcept]
    at broken ⊢
  cases begun : Opening.read g.memory g.registers.rip with
  | error fault => rfl
  | ok opening =>
    rw [begun] at broken
    dsimp only at broken ⊢
    cases operands : readOperands g.memory opening with
    | error fault => rfl
    | ok read =>
      rw [operands] at broken
      dsimp only at broken ⊢
      cases carried : (carryOut handler control opening.opcode read.2 read.1).run g with
      | ok signals between => rw [carried] at broken; contradiction
      | error fault between => rw [carryOutBroken carried, carried]

end Instructions

end Work

theorem executeRetires {δ : Type} (handler : Option (TrapHandler δ)) (control : Control)
    (c : Core δ) :
    ((c.execute handler control).2.1 = .faulted →
      (c.execute handler control).1.registers = c.registers ∧
        (c.execute handler control).1.retired = c.retired) ∧
    ((c.execute handler control).2.1 ≠ .faulted →
      (c.execute handler control).1.retired = c.retired + 1) := by
  obtain ⟨opening, found⟩ := openingFound c.memory c.registers.rip
  cases worked : (Work.instruct handler control).run c.toGuest with
  | error fault g =>
    obtain rfl : g = c.toGuest := Work.instructAtomic _ _ _ worked
    rw [executeBroken found worked]
    exact ⟨fun _ => ⟨rfl, rfl⟩, fun other => absurd rfl other⟩
  | ok result g =>
    obtain ⟨journal, done⟩ := executeDone found worked
    rw [done]
    refine ⟨fun faulted => ?_, fun _ => rfl⟩
    dsimp only at faulted
    split at faulted <;> cases faulted

namespace Control

theorem signalAllFaulted {c : Control} {signals : List Signal}
    (faulted : (c.signalAll signals).mode = .faulted) : c.mode = .faulted := by
  induction signals generalizing c with
  | nil => exact faulted
  | cons s rest ih =>
    have after : (c.signal s).mode = .faulted := ih faulted
    cases s <;> simp only [signal, pause, resume, requestStop, exchange] at after <;>
      grind

end Control

namespace Machine

variable {δ : Type}

theorem faultedStepChangesNothing (handler : Option (TrapHandler δ)) {m : Machine δ}
    (active : m.mode.isFinal = false) :
    let after := (m.step handler).1
    (after.mode = .faulted →
      (m.step handler).2 = 0 ∧
      after.core.registers = m.core.registers ∧ after.core.memory = m.core.memory ∧
      after.core.devices = m.core.devices ∧ after.core.retired = m.core.retired ∧
      (∀ other, m.step other = m.step handler) ∧
      ∃ fault, (Work.instruct handler (m.control.enter .running)).run m.core.toGuest =
          .error fault m.core.toGuest ∧
        after.core.lastFault = some ⟨m.core.registers.rip, fault⟩) ∧
    (after.mode ≠ .faulted → after.core.retired = m.core.retired + 1) := by
  obtain ⟨opening, found⟩ := openingFound m.core.memory m.core.registers.rip
  cases worked : (Work.instruct handler (m.control.enter .running)).run m.core.toGuest with
  | error fault g =>
    have same : g = m.core.toGuest := Work.instructAtomic _ _ _ worked
    subst same
    have stepped (other : Option (TrapHandler δ)) : m.step other = _ :=
      stepBroken active found (Work.instructBroken worked)
    rw [stepped handler]
    exact ⟨fun _ => ⟨rfl, rfl, rfl, rfl, rfl, stepped, fault, rfl, rfl⟩,
      fun unbroken => absurd rfl unbroken⟩
  | ok result g =>
    obtain ⟨journal, stepped⟩ := stepDone active found worked
    have goesOn : ((m.control.enter .running).signalAll result.2).mode ≠ .faulted :=
      fun faulted => absurd (Control.signalAllFaulted faulted) (by simp [Control.enter])
    rw [stepped]
    refine ⟨fun faulted => absurd faulted ?_, fun _ => rfl⟩
    simp only [Machine.mode]
    split
    · simp [Control.enter]
    · exact goesOn

theorem faultedPopChangesNothing :
    let memory := (Memory.zeros 4 (by decide) false).store 0 [0x41, 0x5F]
    let m : Machine Unit := start memory () .empty
    let m := { m with core.registers := m.core.registers.set .rsp 15 }
    m.mode.isFinal = false ∧ (m.step none).1.mode = .faulted ∧ (m.step none).2 = 0 ∧
      (m.step none).1.core.registers = m.core.registers ∧
      (m.step none).1.core.lastFault = some ⟨0, .outOfBounds 15 8 16⟩ := by
  intro memory start m
  have active : m.mode.isFinal = false := rfl
  have faults : (m.step none).1.mode = .faulted := by decide +kernel
  obtain ⟨cycles, registers, _⟩ := (faultedStepChangesNothing none active).1 faults
  exact ⟨active, faults, cycles, registers, by decide +kernel⟩

end Machine

end GameConsole
