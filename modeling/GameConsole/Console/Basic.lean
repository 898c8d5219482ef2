import GameConsole.Configuration
import GameConsole.Console.Lifecycle
import GameConsole.Processor.Machine
import GameConsole.Syscall.Devices

/-! A console: what its controller owns, what a thread that executes a program owns, and what
both see. The core, which is memory and registers, is with one of the two at a time; the devices
stay where both can reach them. -/
namespace GameConsole

open Graphics (Delivery RenderQueue)
open Syscall (Devices Hosted)

inductive Exit where
  | stopped
  | halted
  | faulted (fault : Option ProcessorFault)
  | panicked (words : LastWords)
  deriving DecidableEq, Repr

inductive Phase where
  | askStop
  | askState
  | hold
  | release
  | askMode
  | begin
  | confirmMode
  | confirmStop
  | execute
  | settle (mode : Mode)
  | deliver (pending : List Delivery)
  | showRegisters (ran : Bool)
  | showCount (ran : Bool)
  | goOn
  | judge
  | leave (exit : Exit)
  | leaveCount (exit : Exit)
  | unload
  | conclude (after : Lifecycle)
  | announce (before after : Lifecycle)
  deriving DecidableEq

/- A thread at work: the core, and how many slices are left before it looks at the state of the
console again. -/
structure Job where
  core : Core Unit
  left : Nat
  phase : Phase

inductive Worker where
  | busy (job : Job)
  | finished (core : Core Unit)
  | died

structure Observer where
  heard : Array Lifecycle := #[]
  fearsome : Option Lifecycle := none
  lastWords : String := "observer"

structure Console where
  config : Configuration
  state : Lifecycle
  programLoaded : Bool
  snapshot : Registers
  instructions : Nat
  control : Control
  devices : Hosted Devices
  queue : RenderQueue
  observer : Observer
  journal : Journal
  initialized : Bool
  core : Option (Core Unit)
  worker : Option Worker
  entry : Option UInt64

def Core.attach {δ ε : Type} (c : Core δ) (devices : ε) (journal : Journal) : Core ε where
  registers := c.registers
  memory := c.memory
  devices := devices
  journal := journal
  retired := c.retired
  lastOpcode := c.lastOpcode
  lastFault := c.lastFault

def Core.detach {δ : Type} (c : Core δ) : Core Unit := c.attach () .empty

namespace Console

def new (config : Configuration) (observer : Observer) : Console where
  config := config
  state := .idle
  programLoaded := false
  snapshot := .powerOn
  instructions := 0
  control := {}
  devices := ⟨.empty, .initial config.decoder.maxIndirectDepth⟩
  queue := .empty
  observer := observer
  journal := .empty
  initialized := false
  core := none
  worker := none
  entry := none

def note (c : Console) (e : Event) : Console := { c with journal := c.journal.add e }

def tell (c : Console) (before after : Lifecycle) : Console :=
  { c with observer := { c.observer with heard := c.observer.heard.push after } }.note
    (.of .info "emulator state changed" [("from", .text before.name), ("to", .text after.name)])

/- Whether the execution thread has changed the state and not yet told the observer. -/
def announcing (c : Console) : Bool :=
  match c.worker with
  | some (.busy ⟨_, _, .announce ..⟩) => true
  | _ => false

def settled (c : Console) : Bool := c.state ≠ .running && !c.announcing

def tick (c : Console) : Nat := max c.config.stepsPerTick.toNat 1

end Console

end GameConsole
