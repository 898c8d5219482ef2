import GameConsole.Console.Execution
import GameConsole.Procedure

/-! What can be asked of a console. Each call is a procedure of the controller; the execution
thread may move between any two of its steps. Calls are made one after the other. -/
namespace GameConsole.Console

open Graphics (RenderQueue)
open Syscall (Devices Hosted)

abbrev Call (α : Type) := Procedure Console α

namespace Call
open Procedure (look alter update await)

def report (e : Event) : Call Unit := alter fun c => c.note e

def refuse (message : String) : Call Unit := do
  let state ← look state
  report (.of .warn message [("state", .text state.name)])

def announce (before after : Lifecycle) : Call Unit := alter fun c => c.tell before after

def enter (after : Lifecycle) : Call Unit := do
  let before ← update fun c => (c.state, { c with state := after })
  if before ≠ after then announce before after

def move (origins : List Lifecycle) (after : Lifecycle) : Call Bool := do
  let before ← update fun c =>
    (c.state, if c.state ∈ origins then { c with state := after } else c)
  if before ∈ origins then
    announce before after
    return true
  else return false

def publish (core : Core Unit) : Call Unit := do
  alter fun c => { c with snapshot := core.registers }
  alter fun c => { c with instructions := core.retired }

def join (c : Console) : Option (Option (Core Unit) × Console) :=
  match c.worker with
  | some (.finished core) => some (some core, { c with worker := none })
  | some .died => some (none, { c with worker := none })
  | _ => none

def reclaim : Call Unit := do
  if (← look worker).isNone then return ()
  match ← await join with
  | some core => alter fun c => { c with core := some core }
  | none =>
    let words ← look fun c => c.observer.lastWords
    report (.of .error "execution thread died without returning the core" [("panic", .text words)])
    enter .error

def control (f : Control → Control) : Call Unit := do
  if ← look initialized then alter fun c => { c with control := f c.control }

def haltWorker : Call Unit := do
  if (← look worker).isSome then
    enter .stopping
    control Control.requestStop
  reclaim

def unload : Call Unit := do
  if let some core ← look core then
    alter fun c => { c with core := some core.reset, control := {} }
    publish core.reset
  alter fun c => { c with programLoaded := false }
  alter fun c => { c with entry := none }
  alter fun c => { c with queue := c.queue.clear }

def build (config : Configuration) : Provision →
    Except ConsoleError (Core Unit × Hosted Devices) × List Event
  | .broken words => (.error (.crashed .setUp words), [])
  | .memory granted =>
    let creation := Memory.creation config.memory granted
    match Memory.create config.memory granted with
    | .error e => (.error (.memory e), creation)
    | .ok memory =>
      let (dispatcher, installed) := Devices.dispatcher config.neoMode
      let devices : Hosted Devices := ⟨dispatcher, .initial config.decoder.maxIndirectDepth⟩
      (.ok ((Machine.start memory () .empty).core, devices),
        creation ++ installed ++
          [.of .debug "syscall table ready" [("handlers", .count dispatcher.handlerCount)]])

def setUp (host : Provision) : Call (Except ConsoleError Unit) := do
  if ← look initialized then return .ok ()
  enter .booting
  let config ← look config
  let (built, events) := build config host
  alter fun c => { c with journal := c.journal.addAll events }
  match built with
  | .ok (core, devices) =>
    report (.of .info "emulator initialized"
      [("memory_bytes", .count core.memory.size.toNat),
       ("max_indirect_depth", .count config.decoder.maxIndirectDepth.toNat)])
    publish core
    alter fun c => { c with core := some core, devices, control := {}, initialized := true }
    enter .idle
    return .ok ()
  | .error error =>
    report (.of .error "initialization failed" [("error", .text error.message)])
    enter .error
    return .error error

def dismantle : Call Unit := alter fun c => { c with core := none, initialized := false }

def reset (host : Provision) : Call (Except ConsoleError Unit) := do
  let state ← look state
  report (.of .info "resetting emulator" [("state", .text state.name)])
  haltWorker
  unload
  dismantle
  alter fun c => { c with instructions := 0 }
  alter fun c => { c with snapshot := .powerOn }
  setUp host

def shutdown : Call Unit := do
  haltWorker
  unload
  dismantle
  enter .idle

def startRegisters (entry stack : UInt64) : Registers :=
  ((Registers.powerOn.jump entry).set .rsp stack).set .rbp stack

/- Takes over a loaded program: the processor goes to power-on except for the registers with
which the program starts, and the screen is to be cleared. -/
def accept (core : Core Unit) (image : LoadedImage) (stack : UInt64) : Call Unit := do
  let core := { core.reset with registers := startRegisters image.entry stack }
  alter fun c => { c with core := some core, control := {} }
  publish core
  alter fun c => { c with queue := c.queue.clear }
  alter fun c => { c with queue := c.queue.push .clearBlack }
  alter fun c => { c with entry := some image.entry }
  alter fun c => { c with programLoaded := true }
  report (.of .info "program loaded"
    [("image", .text image.description), ("entry", .hex 1 image.entry.toNat)])
  enter .idle

def place (core : Core Unit) (loader : Loader) (stack : UInt64) :
    Call (Except ConsoleError UInt64) := do
  enter .booting
  alter fun c => { c with programLoaded := false }
  alter fun c => { c with entry := none }
  let (memory, result) := loader core.memory
  let core := { core with memory }
  alter fun c => { c with core := some core }
  match result with
  | .loaded image =>
    accept core image stack
    return .ok image.entry
  | .failed e =>
    report (.of .warn "program load failed" [("error", .text e.message)])
    enter .idle
    return .error (.load e)
  | .crashed words =>
    let error := ConsoleError.crashed .load words
    report (.of .error "program load crashed" [("error", .text error.message)])
    enter .error
    return .error error

def load (loader : Loader) : Call (Except ConsoleError UInt64) := do
  let state ← look state
  if state ≠ .idle then
    report (.of .warn "load rejected" [("state", .text state.name)])
    return .error (.invalidState .loadProgram state)
  reclaim
  match ← look core with
  | none => return .error .notInitialized
  | some core =>
    let config ← look config
    let reserve := config.stackReserve
    if AddressSpace.stackTop < reserve then
      report (.of .warn "load rejected: stack reserve exceeds the stack top"
        [("stack_reserve", .hex 1 reserve.toNat)])
      return .error (.stackReserve reserve)
    place core loader (AddressSpace.stackTop - reserve)

def spawn (core : Core Unit) (c : Console) : Console :=
  { c with core := none, worker := some (.busy ⟨core, c.tick, .askStop⟩) }.note
    (.of .info "execution thread started" [("rip", .hex 16 core.registers.rip.toNat)])

def startWorker : Call Bool := do
  reclaim
  match ← look core with
  | none =>
    report (.of .warn "run rejected: emulator is not initialized" [])
    return false
  | some core =>
    if ← move [.idle] .running then
      alter (spawn core)
      return true
    else return false

def pause : Call Bool := do
  if ← move [.running] .paused then
    control fun c => c.pause.1
    return true
  else
    refuse "pause rejected"
    return false

def resume : Call Bool := do
  if ← move [.paused] .running then
    control fun c => c.resume.1
    return true
  else
    refuse "resume rejected"
    return false

def togglePause : Call Bool := do
  match ← look state with
  | .running => pause
  | .paused => resume
  | state =>
    report (.of .warn "toggle pause rejected" [("state", .text state.name)])
    return false

def run : Call Bool := do
  if !(← look programLoaded) then
    report (.of .warn "run rejected: no program loaded" [])
    return false
  match ← look state with
  | .paused => resume
  | .idle => startWorker
  | state =>
    report (.of .warn "run rejected" [("state", .text state.name)])
    return false

def stop : Call Bool := do
  if ← move [.running, .paused] .stopping then
    control Control.requestStop
    reclaim
    unload
    enter .idle
    return true
  else
    refuse "stop rejected"
    reclaim
    return false

def statistics : Call Statistics := do
  let instructions ← look instructions
  let frames ← look fun c => c.queue.frames
  if ← look initialized then
    let dispatcher ← look fun c => c.devices.dispatcher
    let decoded ← look fun c => c.devices.devices.graphics.counts
    return {
      instructions, frames
      syscalls := dispatcher.total
      unimplementedSyscalls := dispatcher.unimplemented
      packets := decoded.packets
      draws := decoded.draws
      dispatches := decoded.dispatches }
  else return { instructions, frames }

def readMemory (address length : UInt64) : Call (Except ConsoleError (List UInt8)) := do
  let state ← look state
  if state ∈ [.running, .paused, .stopping] then
    return .error (.invalidState .readMemory state)
  reclaim
  match ← look core with
  | none => return .error .notInitialized
  | some core => return (core.memory.readBlock address length).mapError .fault

end Call

end GameConsole.Console
