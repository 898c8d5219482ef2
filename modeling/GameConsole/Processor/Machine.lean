import GameConsole.Processor.Execution

/-! A processor with its memory and devices, driven a step, a slice or a whole run at a time. -/
namespace GameConsole

structure Machine (δ : Type) where
  core : Core δ
  control : Control

namespace Machine

variable {δ : Type}

def start (memory : Memory) (devices : δ) (journal : Journal) : Machine δ where
  core := {
    registers := .powerOn, memory, devices, journal
    retired := 0, lastOpcode := 0, lastFault := none }
  control := {}

def mode (m : Machine δ) : Mode := m.control.mode

def note (m : Machine δ) (e : Event) : Machine δ := { m with core := m.core.note e }

def enter (m : Machine δ) (mode : Mode) : Machine δ := { m with control := m.control.enter mode }

def pause (m : Machine δ) : Machine δ × Bool :=
  let (control, done) := m.control.pause
  ({ m with control }, done)

def resume (m : Machine δ) : Machine δ × Bool :=
  let (control, done) := m.control.resume
  ({ m with control }, done)

def requestStop (m : Machine δ) : Machine δ := { m with control := m.control.requestStop }

def stop (m : Machine δ) : Machine δ := m.requestStop.enter .stopped

def reset (m : Machine δ) : Machine δ := ⟨m.core.reset, {}⟩

def advance (handler : Option (TrapHandler δ)) (m : Machine δ) : Machine δ × Bool :=
  let (core, ending, signals) := m.core.execute handler m.control
  let m := { core, control := m.control.signalAll signals }
  match ending with
  | .continued => (m, true)
  | .halted => (m.enter .halted, false)
  | .faulted => (m.enter .faulted, false)

/- One instruction, unless the machine has halted or faulted. A paused or stopped one starts
running. The result is the cycles used, zero if the machine cannot go on. -/
def step (handler : Option (TrapHandler δ)) (m : Machine δ) : Machine δ × Nat :=
  if m.mode.isFinal then (m, 0)
  else
    let (m, goesOn) := (m.enter .running).advance handler
    (m, if goesOn then 1 else 0)

def stepFrom (handler : Option (TrapHandler δ)) (made : Nat) : Nat → Machine δ → Machine δ × Nat
  | 0, m => (m, made)
  | limit + 1, m =>
    let (m, cycles) := m.step handler
    if cycles = 0 then (m, made + 1) else m.stepFrom handler (made + 1) limit

def stepUpTo (handler : Option (TrapHandler δ)) (limit : Nat) (m : Machine δ) : Machine δ × Nat :=
  m.stepFrom handler 0 limit

def runWithin (handler : Option (TrapHandler δ)) : Nat → Machine δ → Machine δ
  | 0, m => m
  | budget + 1, m =>
    if m.mode ≠ .running ∨ m.control.stopRequested then m
    else
      let (m, goesOn) := m.advance handler
      if goesOn then runWithin handler budget m else m

def runSlice (handler : Option (TrapHandler δ)) (budget : Nat) (m : Machine δ) : Machine δ × Nat :=
  match m.mode with
  | .stopped | .running =>
    let after := (m.enter .running).runWithin handler budget
    (after, after.core.retired - m.core.retired)
  | _ => (m, 0)

def runOn (handler : Option (TrapHandler δ)) : Nat → Machine δ → Option (Machine δ)
  | 0, _ => none
  | turns + 1, m =>
    if m.control.stopRequested then some m
    else if m.mode = .paused then runOn handler turns m
    else
      let (m, goesOn) := m.advance handler
      if goesOn then runOn handler turns m else some m

/- A whole run, if it ends within the given number of turns; the result is how many
instructions were carried out. A request to stop is used up by the run that it ends. -/
def runLoop (handler : Option (TrapHandler δ)) (turns : Nat) (m : Machine δ) :
    Option (Machine δ × Nat) :=
  if m.mode.isFinal then some (m, 0)
  else
    let m := m.note (.of .info "starting execution" [("rip", .hex 16 m.core.registers.rip.toNat)])
    let begun := if m.mode = .paused then m else m.enter .running
    match begun.runOn handler turns with
    | none => none
    | some after =>
      let after := { after with control := { after.control with stopRequested := false } }
      let after := if after.mode.isFinal then after else after.enter .stopped
      let executed := after.core.retired - m.core.retired
      some (after.note (.of .info "execution stopped"
        [("executed", .count executed), ("state", .text after.mode.name)]), executed)

end Machine

end GameConsole
