/-! The part of a processor that other threads see: what it is doing, and whether it has been
asked to stop. -/
namespace GameConsole

inductive Mode where
  | stopped | running | paused | halted | faulted
  deriving DecidableEq, Repr

namespace Mode

def name : Mode → String
  | .stopped => "Stopped"
  | .running => "Running"
  | .paused => "Paused"
  | .halted => "Halted"
  | .faulted => "Faulted"

def isFinal (mode : Mode) : Bool := mode == .halted || mode == .faulted

theorem activeIff {mode : Mode} :
    mode.isFinal = false ↔ mode ≠ .halted ∧ mode ≠ .faulted := by
  cases mode <;> decide

end Mode

structure Control where
  mode : Mode := .stopped
  stopRequested : Bool := false
  deriving DecidableEq, Repr

inductive Signal where
  | pause | resume | requestStop
  deriving DecidableEq, Repr

namespace Control

def exchange (c : Control) (before after : Mode) : Control × Bool :=
  if c.mode = before then ({ c with mode := after }, true) else (c, false)

def pause (c : Control) : Control × Bool := c.exchange .running .paused
def resume (c : Control) : Control × Bool := c.exchange .paused .running
def requestStop (c : Control) : Control := { c with stopRequested := true }
def enter (c : Control) (mode : Mode) : Control := { c with mode := mode }

def signal (c : Control) : Signal → Control
  | .pause => c.pause.1
  | .resume => c.resume.1
  | .requestStop => c.requestStop

def signalAll (c : Control) (signals : List Signal) : Control := signals.foldl signal c

end Control

end GameConsole
