import GameConsole.Journal
import GameConsole.Processor.Control
import GameConsole.Processor.Instruction

/-! Executing one instruction. A fault breaks it off where it occurs; what a system call does is
up to the handler that is passed in. -/
namespace GameConsole

/- What a system call may read and change; `δ` is the state of the devices behind it. -/
structure Guest (δ : Type) where
  registers : Registers
  memory : Memory
  devices : δ
  journal : Journal

abbrev TrapHandler (δ : Type) := Control → Guest δ → Guest δ × List Signal

structure ProcessorFault where
  rip : UInt64
  fault : MemoryFault
  deriving DecidableEq, Repr

def ProcessorFault.message (f : ProcessorFault) : String :=
  "memory fault at rip=" ++ Text.hexPadded 16 f.rip.toNat

structure Core (δ : Type) extends Guest δ where
  retired : Nat
  lastOpcode : UInt8
  lastFault : Option ProcessorFault

inductive Ending where
  | continued | halted | faulted
  deriving DecidableEq, Repr

namespace Guest

variable {δ : Type}

def note (g : Guest δ) (e : Event) : Guest δ := { g with journal := g.journal.add e }

def jump (g : Guest δ) (target : UInt64) : Guest δ :=
  { g with registers := g.registers.jump target }

def set (g : Guest δ) (r : Register) (value : UInt64) : Guest δ :=
  { g with registers := g.registers.set r value }

def skipped (opcode : UInt8) (rip : UInt64) : Unsupported → Event
  | .opcode => .of .warn "unrecognized opcode"
      [("opcode", .hex 2 opcode.toNat), ("rip", .hex 16 rip.toNat)]
  | .twoByte second => .of .warn "unrecognized opcode"
      [("opcode", .text ("0x0f " ++ Text.hexPadded 2 second.toNat)), ("rip", .hex 16 rip.toNat)]
  | .move modrm => .of .warn "unsupported MOV r/m form, skipping"
      [("opcode", .hex 2 opcode.toNat), ("modrm", .hex 2 modrm.toNat), ("rip", .hex 16 rip.toNat)]

def trap (handler : Option (TrapHandler δ)) (control : Control) (g : Guest δ) :
    Guest δ × List Signal :=
  match handler with
  | some handle => handle control g
  | none => (g.note (.of .debug "SYSCALL with no handler"
      [("rax", .count (g.registers.get .rax).toNat)]), [])

end Guest

/- Work on a guest that a memory fault can break off. What it had done by then stays done. -/
abbrev Work (δ : Type) := EStateM MemoryFault (Guest δ)

namespace Work

variable {δ : Type}

def push (value : UInt64) : Work δ Unit := do
  let rsp := (← get).registers.get .rsp - 8
  let memory ← ofExcept ((← get).memory.writeU64 rsp value)
  modify fun g => { g with memory }
  modify fun g => g.set .rsp rsp

def pop : Work δ UInt64 := do
  let rsp := (← get).registers.get .rsp
  let value ← ofExcept ((← get).memory.readU64 rsp)
  modify fun g => g.set .rsp (rsp + 8)
  return value

def perform (handler : Option (TrapHandler δ)) (control : Control) (opcode : UInt8)
    (next : UInt64) : Instruction → Work δ (UInt64 × List Signal)
  | .nop | .halt => return (next, [])
  | .syscall => do
    modify fun g => g.jump next
    let signals ← modifyGet fun g => (g.trap handler control).swap
    return ((← get).registers.rip, signals)
  | .ret => return (← pop, [])
  | .jump target => return (target, [])
  | .call target => do
    push next
    return (target, [])
  | .push source => do
    push ((← get).registers.get source)
    return (next, [])
  | .pop target => do
    let value ← pop
    modify fun g => g.set target value
    return (next, [])
  | .move target value => do
    modify fun g => g.set target value
    return (next, [])
  | .skip form => do
    modify fun g => g.note (Guest.skipped opcode g.registers.rip form)
    return (next, [])

def carryOut (handler : Option (TrapHandler δ)) (control : Control) (opcode : UInt8)
    (next : UInt64) (instruction : Instruction) : Work δ (List Signal) := do
  let (target, signals) ← perform handler control opcode next instruction
  modify fun g => g.jump target
  return signals

end Work

namespace Core

variable {δ : Type}

def note (c : Core δ) (e : Event) : Core δ := { c with toGuest := c.toGuest.note e }

def reset (c : Core δ) : Core δ :=
  { c with registers := .powerOn, retired := 0, lastOpcode := 0, lastFault := none }

def fault (c : Core δ) (fault : MemoryFault) : Core δ :=
  let rip := c.registers.rip
  { c with lastFault := some ⟨rip, fault⟩ }.note
    (.of .error "memory fault" [("rip", .hex 16 rip.toNat), ("error", .text fault.message)])

def retire (c : Core δ) (g : Guest δ) : Core δ :=
  { c with toGuest := g, retired := c.retired + 1 }

def execute (handler : Option (TrapHandler δ)) (control : Control) (c : Core δ) :
    Core δ × Ending × List Signal :=
  match Instruction.Opening.read c.memory c.registers.rip with
  | .error e => (c.fault e, .faulted, [])
  | .ok opening =>
    let c := { c with lastOpcode := opening.opcode }
    match Instruction.readOperands c.memory opening with
    | .error e => (c.fault e, .faulted, [])
    | .ok (instruction, next) =>
      match (Work.carryOut handler control opening.opcode next instruction).run c.toGuest with
      | .error e g => ({ c with toGuest := g }.fault e, .faulted, [])
      | .ok signals g =>
        let c := c.retire g
        if instruction = .halt then
          (c.note (.of .info "HLT, stopping"
            [("rip", .hex 16 c.registers.rip.toNat), ("instructions", .count c.retired)]),
            .halted, signals)
        else (c, .continued, signals)

end Core

end GameConsole
