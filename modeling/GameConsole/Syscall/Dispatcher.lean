import GameConsole.Directory
import GameConsole.Processor.Execution
import GameConsole.Syscall.Number

/-! System calls: arguments and outcomes, the table of handlers, and the servicing of one call.
Handlers come in modules; what they act on is a guest with devices of any type. -/
namespace GameConsole.Syscall

structure Arguments where
  first : UInt64
  second : UInt64
  third : UInt64
  fourth : UInt64
  fifth : UInt64
  sixth : UInt64
  deriving DecidableEq, Repr

namespace Arguments

def registers : List Register := [.rdi, .rsi, .rdx, .r10, .r8, .r9]

def ofRegisters (s : Registers) : Arguments :=
  ⟨s.get .rdi, s.get .rsi, s.get .rdx, s.get .r10, s.get .r8, s.get .r9⟩

def toList (a : Arguments) : List UInt64 :=
  [a.first, a.second, a.third, a.fourth, a.fifth, a.sixth]

end Arguments

structure Outcome where
  value : Int64
  success : Bool
  error : Option String
  deriving DecidableEq, Repr

namespace Outcome

def ok (value : Int64) : Outcome := ⟨value, true, none⟩

def failed (value : Int64) (error : String) : Outcome := ⟨value, false, some error⟩

def status (value : Int64) : Outcome := ⟨value, value == 0, none⟩

def badAddress : Int64 := -14

def faulted (fault : MemoryFault) : Outcome := failed badAddress fault.message

end Outcome

abbrev Handler (δ : Type) := Arguments → Guest δ → Outcome × Guest δ

structure Module (δ : Type) where
  name : String
  handlers : List (UInt64 × Handler δ)

structure Part (δ α : Type) where
  get : δ → α
  put : α → δ → δ

structure Dispatcher (δ : Type) where
  handlers : Directory UInt64 (Handler δ)
  total : Nat
  unimplemented : Nat

namespace Dispatcher

variable {δ : Type}

def empty : Dispatcher δ := ⟨.empty, 0, 0⟩

def handlerCount (d : Dispatcher δ) : Nat := d.handlers.size

def isRegistered (d : Dispatcher δ) (number : UInt64) : Bool := d.handlers.contains number

def register (d : Dispatcher δ) (number : UInt64) (handler : Handler δ) :
    Dispatcher δ × List Event :=
  ({ d with handlers := d.handlers.put number handler },
    if d.isRegistered number then
      [.of .debug "replaced syscall handler"
        [("syscall", .text (name number)), ("num", .count number.toNat)]]
    else [])

def unregister (d : Dispatcher δ) (number : UInt64) : Dispatcher δ × Bool :=
  ({ d with handlers := d.handlers.erase number }, d.isRegistered number)

def registerAll (d : Dispatcher δ) : List (UInt64 × Handler δ) → Dispatcher δ × List Event
  | [] => (d, [])
  | (number, handler) :: rest =>
    let (d, events) := d.register number handler
    let (d, more) := d.registerAll rest
    (d, events ++ more)

def install (d : Dispatcher δ) (m : Module δ) : Dispatcher δ × List Event :=
  let (after, events) := d.registerAll m.handlers
  (after, events ++ [.of .debug "registered HLE module"
    [("module", .text m.name), ("added", .count (after.handlerCount - d.handlerCount))]])

def installAll (d : Dispatcher δ) : List (Module δ) → Dispatcher δ × List Event
  | [] => (d, [])
  | m :: rest =>
    let (d, events) := d.install m
    let (d, more) := d.installAll rest
    (d, events ++ more)

def resetCounts (d : Dispatcher δ) : Dispatcher δ := { d with total := 0, unimplemented := 0 }

/- Services one call: the number is in RAX, and so is the result afterwards. A number without
a handler is counted, reported and answered with zero. -/
def dispatch (d : Dispatcher δ) (g : Guest δ) : Dispatcher δ × Guest δ :=
  let number := g.registers.get .rax
  let arguments := Arguments.ofRegisters g.registers
  let d := { d with total := d.total + 1 }
  match d.handlers.find? number with
  | none =>
    let g := g.note (.of .warn "unimplemented syscall"
      [("syscall", .text (name number)), ("num", .count number.toNat)])
    ({ d with unimplemented := d.unimplemented + 1 }, g.set .rax 0)
  | some handler =>
    let g := g.note (.of .trace "syscall"
      [("syscall", .text (name number)), ("args", .counts (arguments.toList.map UInt64.toNat))])
    let (outcome, g) := handler arguments g
    let g := if outcome.success then g else g.note (.of .warn "syscall failed"
      [("syscall", .text (name number)), ("value", .signed outcome.value.toInt),
        ("error", .text (outcome.error.getD ""))])
    (d, g.set .rax outcome.value.toUInt64)

end Dispatcher

structure Hosted (δ : Type) where
  dispatcher : Dispatcher δ
  devices : δ

namespace Hosted

variable {δ : Type}

def dispatch (g : Guest (Hosted δ)) : Guest (Hosted δ) :=
  let (dispatcher, after) := g.devices.dispatcher.dispatch
    { registers := g.registers, memory := g.memory, journal := g.journal,
      devices := g.devices.devices }
  { registers := after.registers, memory := after.memory, journal := after.journal,
    devices := ⟨dispatcher, after.devices⟩ }

def handler : TrapHandler (Hosted δ) := fun _ g => (dispatch g, [])

end Hosted

end GameConsole.Syscall
