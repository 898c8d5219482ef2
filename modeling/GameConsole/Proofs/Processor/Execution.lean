import GameConsole.Processor.Machine
import GameConsole.Proofs.Memory.Transfer

/-! An instruction as one piece of work, from its first byte to the jump that ends it. A step of
the machine is that work, and what is noted of how it ended. -/
namespace GameConsole

namespace Work
open Instruction (Opening readOperands)

variable {δ : Type}

@[simp] theorem runOfExcept {α : Type} (x : Except MemoryFault α) (g : Guest δ) :
    (ofExcept x : Work δ α).run g =
      match x with
      | .ok value => .ok value g
      | .error e => .error e g := by
  cases x <;> rfl

theorem runPush (value : UInt64) (g : Guest δ) :
    (push value).run g =
      match g.memory.writeU64 (g.registers.get .rsp - 8) value with
      | .ok memory => .ok () ({ g with memory }.set .rsp (g.registers.get .rsp - 8))
      | .error e => .error e g := by
  simp only [push, EStateM.run_bind, EStateM.run_get, EStateM.run_modify, runOfExcept]
  cases g.memory.writeU64 (g.registers.get .rsp - 8) value <;> rfl

theorem runPop (g : Guest δ) :
    (pop : Work δ UInt64).run g =
      match g.memory.readU64 (g.registers.get .rsp) with
      | .ok value => .ok value (g.set .rsp (g.registers.get .rsp + 8))
      | .error e => .error e g := by
  simp only [pop, EStateM.run_bind, EStateM.run_get, EStateM.run_modify, EStateM.run_pure,
    runOfExcept]
  cases g.memory.readU64 (g.registers.get .rsp) <;> rfl

def instruct (handler : Option (TrapHandler δ)) (control : Control) :
    Work δ (Instruction × List Signal) := do
  let g ← get
  let opening ← ofExcept (Opening.read g.memory g.registers.rip)
  let (instruction, next) ← ofExcept (readOperands g.memory opening)
  let signals ← carryOut handler control opening.opcode next instruction
  return (instruction, signals)

end Work

theorem openingFound (m : Memory) (rip : UInt64) :
    ∃ opening, Instruction.Opening.read m rip = .ok opening := by
  unfold Instruction.Opening.read
  simp only [Memory.readU8Ok, bind, Except.bind, pure, Except.pure]
  split <;> split <;> exact ⟨_, rfl⟩

section Execute
variable {δ : Type} {handler : Option (TrapHandler δ)} {control : Control} {c : Core δ}
  {opening : Instruction.Opening} {g : Guest δ}

theorem executeBroken {e : MemoryFault}
    (found : Instruction.Opening.read c.memory c.registers.rip = .ok opening)
    (broken : (Work.instruct handler control).run c.toGuest = .error e g) :
    c.execute handler control =
      ({ c with toGuest := g, lastOpcode := opening.opcode }.fault e, .faulted, []) := by
  simp only [Work.instruct, EStateM.run_bind, EStateM.run_get, EStateM.run_pure, Work.runOfExcept,
    found] at broken
  cases operands : Instruction.readOperands c.memory opening with
  | error fault =>
    rw [operands] at broken
    cases broken
    simp only [Core.execute, found, operands]
  | ok read =>
    rw [operands] at broken
    dsimp only at broken
    cases carried : (Work.carryOut handler control opening.opcode read.2 read.1).run c.toGuest with
    | ok signals after => rw [carried] at broken; cases broken
    | error fault after =>
      rw [carried] at broken
      cases broken
      simp only [Core.execute, found, operands, carried]

theorem executeDone {instruction : Instruction} {signals : List Signal}
    (found : Instruction.Opening.read c.memory c.registers.rip = .ok opening)
    (done : (Work.instruct handler control).run c.toGuest = .ok (instruction, signals) g) :
    ∃ journal, c.execute handler control =
      ({ c with
          toGuest := { g with journal }
          retired := c.retired + 1
          lastOpcode := opening.opcode },
        if instruction = .halt then .halted else .continued, signals) := by
  simp only [Work.instruct, EStateM.run_bind, EStateM.run_get, EStateM.run_pure, Work.runOfExcept,
    found] at done
  cases operands : Instruction.readOperands c.memory opening with
  | error fault => rw [operands] at done; cases done
  | ok read =>
    rw [operands] at done
    dsimp only at done
    cases carried : (Work.carryOut handler control opening.opcode read.2 read.1).run c.toGuest with
    | error fault after => rw [carried] at done; cases done
    | ok sent after =>
      rw [carried] at done
      cases done
      simp only [Core.execute, found, operands, carried]
      by_cases halts : read.1 = .halt
      · rw [if_pos halts, if_pos halts]
        exact ⟨_, rfl⟩
      · rw [if_neg halts, if_neg halts]
        exact ⟨_, rfl⟩

end Execute

section Step
variable {δ : Type} {handler : Option (TrapHandler δ)} {m : Machine δ}
  {opening : Instruction.Opening} {g : Guest δ}

theorem stepFinal (final : m.mode.isFinal = true) : m.step handler = (m, 0) := if_pos final

theorem stepActive (active : m.mode.isFinal = false) :
    m.step handler =
      let (core, ending, signals) := m.core.execute handler (m.control.enter .running)
      let control := (m.control.enter .running).signalAll signals
      match ending with
      | .continued => (⟨core, control⟩, 1)
      | .halted => (⟨core, control.enter .halted⟩, 0)
      | .faulted => (⟨core, control.enter .faulted⟩, 0) := by
  rcases executed : m.core.execute handler (m.control.enter .running) with ⟨core, ending, signals⟩
  simp only [Machine.step, active, Machine.advance, Machine.enter, executed]
  cases ending <;> rfl

theorem stepBroken (active : m.mode.isFinal = false) {e : MemoryFault}
    (found : Instruction.Opening.read m.core.memory m.core.registers.rip = .ok opening)
    (broken : (Work.instruct handler (m.control.enter .running)).run m.core.toGuest =
      .error e g) :
    m.step handler =
      ({ core := { m.core with toGuest := g, lastOpcode := opening.opcode }.fault e
         control := m.control.enter .faulted }, 0) := by
  rw [stepActive active, executeBroken found broken]
  rfl

theorem stepDone (active : m.mode.isFinal = false) {instruction : Instruction}
    {signals : List Signal}
    (found : Instruction.Opening.read m.core.memory m.core.registers.rip = .ok opening)
    (done : (Work.instruct handler (m.control.enter .running)).run m.core.toGuest =
      .ok (instruction, signals) g) :
    let control := (m.control.enter .running).signalAll signals
    ∃ journal, m.step handler =
      ({ core := { m.core with
          toGuest := { g with journal }
          retired := m.core.retired + 1
          lastOpcode := opening.opcode }
         control := if instruction = .halt then control.enter .halted else control },
        if instruction = .halt then 0 else 1) := by
  obtain ⟨journal, executed⟩ := executeDone found done
  refine ⟨journal, ?_⟩
  rw [stepActive active, executed]
  by_cases halts : instruction = .halt
  · simp only [if_pos halts]
  · simp only [if_neg halts]

end Step

def Machine.steps {δ : Type} (handler : Option (TrapHandler δ)) (m : Machine δ) : Nat → Machine δ
  | 0 => m
  | n + 1 => ((m.steps handler n).step handler).1

theorem Machine.stepsAdd {δ : Type} (handler : Option (TrapHandler δ)) (m : Machine δ)
    (first later : Nat) :
    m.steps handler (first + later) = (m.steps handler first).steps handler later := by
  induction later with
  | zero => rfl
  | succ later ih => exact congrArg (fun m => (Machine.step handler m).1) ih

end GameConsole
