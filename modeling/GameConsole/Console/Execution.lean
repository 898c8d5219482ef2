import GameConsole.Console.Basic

/-! The thread that executes a program, one atomic step at a time. It runs slices of a single
instruction and publishes the registers after each; after a number of slices, and before the
first, it looks for a request to stop and at the state of the console. -/
namespace GameConsole.Console

open Graphics (Delivery RenderQueue)
open Syscall (Devices Hosted)

def busy (c : Console) (job : Job) : Console := { c with worker := some (.busy job) }

def next (c : Console) (job : Job) (phase : Phase) : Console := c.busy { job with phase }

def finish (c : Console) (job : Job) : Console :=
  { c with worker := some (.finished job.core) }.note
    (.of .info "execution thread exiting"
      [("instructions", .count job.core.retired), ("cpu", .text c.control.mode.name)])

def takeOutbox (c : Console) : List Delivery × Console :=
  let devices := c.devices.devices
  let (pending, graphics) := devices.graphics.takeOutbox
  (pending.toList, { c with devices := { c.devices with devices := { devices with graphics } } })

def perform (c : Console) (job : Job) : Console :=
  let (core, ending, signals) :=
    (job.core.attach c.devices c.journal).execute (some Hosted.handler) c.control
  let job := { job with core := core.detach }
  let c := { c with
    devices := core.devices, journal := core.journal, control := c.control.signalAll signals }
  match ending with
  | .continued => let (pending, c) := c.takeOutbox; c.next job (.deliver pending)
  | .halted => c.next job (.settle .halted)
  | .faulted => c.next job (.settle .faulted)

def depart (c : Console) (job : Job) : Exit → Console
  | .stopped => c.finish job
  | .halted => c.next job .unload
  | .faulted (some f) => (c.note (.of .error "guest faulted"
      [("rip", .hex 16 f.rip.toNat), ("error", .text f.fault.message)])).next job (.conclude .error)
  | .faulted none => (c.note (.of .error "guest faulted" [])).next job (.conclude .error)
  | .panicked words => (c.note (.of .error "execution thread panicked"
      [("panic", .text words.text)])).next job (.conclude .error)

def advanceJob (c : Console) (job : Job) : Console :=
  match job.phase with
  | .askStop => c.next job (if c.control.stopRequested then .leave .stopped else .askState)
  | .askState =>
    match c.state with
    | .running => c.next job .release
    | .paused => c.next job .hold
    | _ => c.next job (.leave .stopped)
  | .hold => { c with control := c.control.pause.1 }.next job .askStop
  | .release => { c with control := c.control.resume.1 }.busy
      { job with left := c.tick, phase := .askMode }
  | .askMode =>
    match c.control.mode with
    | .stopped => c.next job .begin
    | .running => c.next job .confirmMode
    | _ => c.next job (.showRegisters false)
  | .begin => { c with control := c.control.enter .running }.next job .confirmMode
  | .confirmMode =>
    c.next job (if c.control.mode = .running then .confirmStop else .showRegisters false)
  | .confirmStop => c.next job (if c.control.stopRequested then .showRegisters false else .execute)
  | .execute => c.perform job
  | .settle mode =>
    { c with control := c.control.enter mode }.next job (.showRegisters (mode == Mode.halted))
  | .deliver [] => c.next job (.showRegisters true)
  | .deliver (first :: rest) => { c with queue := c.queue.deliver first }.next job (.deliver rest)
  | .showRegisters ran => { c with snapshot := job.core.registers }.next job (.showCount ran)
  | .showCount ran =>
    { c with instructions := job.core.retired }.next job (if ran then .goOn else .judge)
  | .goOn =>
    if c.control.mode = .running ∧ 1 < job.left then
      c.busy { job with left := job.left - 1, phase := .askMode }
    else c.next job .judge
  | .judge =>
    match c.control.mode with
    | .halted => c.next job (.leave .halted)
    | .faulted => c.next job (.leave (.faulted job.core.lastFault))
    | _ => c.next job .askStop
  | .leave exit => { c with snapshot := job.core.registers }.next job (.leaveCount exit)
  | .leaveCount exit => { c with instructions := job.core.retired }.depart job exit
  | .unload => { c with programLoaded := false }.next job (.conclude .idle)
  | .conclude after =>
    if c.state = .running ∨ c.state = .paused then
      { c with state := after }.next job (.announce c.state after)
    else c.finish job
  | .announce before after =>
    let c := c.tell before after
    if c.observer.fearsome = some after then { c with worker := some .died } else c.finish job

def advance (c : Console) : Option Console :=
  match c.worker with
  | some (.busy job) => some (c.advanceJob job)
  | _ => none

/- What is there after the host has broken down in the middle of an instruction. -/
structure Wreck where
  core : Core Unit
  control : Control
  devices : Hosted Devices
  queue : RenderQueue
  journal : Journal
  words : LastWords

def breakDown (c : Console) (wreck : Wreck) : Option Console :=
  match c.worker with
  | some (.busy ⟨_, left, .execute⟩) | some (.busy ⟨_, left, .deliver _⟩) =>
    let ⟨core, control, devices, queue, journal, words⟩ := wreck
    some ({ c with control, devices, queue, journal }.busy ⟨core, left, .leave (.panicked words)⟩)
  | _ => none

end GameConsole.Console
