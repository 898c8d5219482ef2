import GameConsole.Program.Loader

/-! The states of a console, why it refuses or fails what it is asked for, and its statistics. -/
namespace GameConsole

inductive Lifecycle where
  | idle | booting | running | paused | stopping
  | error
  deriving DecidableEq, Repr

def Lifecycle.name : Lifecycle → String
  | .idle => "IDLE"
  | .booting => "BOOTING"
  | .running => "RUNNING"
  | .paused => "PAUSED"
  | .stopping => "STOPPING"
  | .error => "ERROR"

inductive ConsoleAction where
  | loadProgram | readMemory
  deriving DecidableEq, Repr

def ConsoleAction.phrase : ConsoleAction → String
  | .loadProgram => "load a program"
  | .readMemory => "read guest memory"

inductive Undertaking where
  | setUp | load
  deriving DecidableEq, Repr

def Undertaking.name : Undertaking → String
  | .setUp => "initialize"
  | .load => "load"

abbrev LastWords := Option String

def LastWords.text (words : LastWords) : String := words.getD "non-string panic payload"

/- What becomes of a request for guest memory: the host grants it or not, or breaks down. -/
inductive Provision where
  | memory (granted : Bool)
  | broken (words : LastWords)
  deriving DecidableEq, Repr

inductive ConsoleError where
  | memory (error : Memory.SizeError)
  | fault (fault : MemoryFault)
  | load (error : LoadError)
  | stackReserve (reserve : UInt64)
  | notInitialized
  | invalidState (action : ConsoleAction) (state : Lifecycle)
  | crashed (during : Undertaking) (words : LastWords)
  deriving DecidableEq, Repr

namespace ConsoleError

def message : ConsoleError → String
  | .memory error => "failed to set up guest memory: " ++ error.message
  | .fault f => f.message
  | .load error => "failed to load program: " ++ error.message
  | .stackReserve reserve =>
    "stack reserve " ++ Text.hex reserve.toNat ++ " is larger than the stack top"
  | .notInitialized => "emulator is not initialized"
  | .invalidState action state => "cannot " ++ action.phrase ++ " while " ++ state.name
  | .crashed during words => "panic during " ++ during.name ++ ": " ++ words.text

def causes (e : ConsoleError) : List String :=
  match e with
  | .memory error => [e.message, error.message]
  | .load error => [e.message, error.message]
  | _ => [e.message]

end ConsoleError

structure Statistics where
  instructions : Nat := 0
  syscalls : Nat := 0
  unimplementedSyscalls : Nat := 0
  packets : Nat := 0
  draws : Nat := 0
  dispatches : Nat := 0
  frames : Nat := 0
  deriving DecidableEq, Repr

end GameConsole
