import GameConsole.Syscall.Dispatcher
import GameConsole.Text

/-! Calls on the process, its console output and its memory map. -/
namespace GameConsole.Syscall

structure Kernel where
  nextMapping : UInt64 := AddressSpace.heapBase
  nextModule : Int64 := 100
  deriving DecidableEq, Repr

namespace Kernel

variable {δ : Type}

def processId : Int64 := 1000
def temperature : UInt32 := 45
def writeLimit : Nat := 4096
def debugLimit : Nat := 1024
def pathLimit : Nat := 256

def textOf (raw : List UInt8) : String := String.ofList (Text.Utf8.decode raw)

def exit : Handler δ := fun a g =>
  (.ok 0, g.note (.of .info "guest called exit"
    [("status", .signed a.first.toUInt32.toInt32.toInt)]))

def write : Handler δ := fun a g =>
  match g.memory.readCString a.second (min a.third.toNat writeLimit) with
  | .error fault => (.faulted fault, g)
  | .ok raw =>
    let g := if a.first = 1 ∨ a.first = 2 then
        g.note (.said (String.ofList (Text.trimEnd (Text.Utf8.decode raw)))
          [("fd", .count a.first.toNat)])
      else g
    (.ok raw.length.toInt64, g)

/- Maps at the address asked for, or else at the next free one. The next free address moves on
by whole pages in either case. -/
def mmap (kernel : Part δ Kernel) : Handler δ := fun a g =>
  let k := kernel.get g.devices
  let mapped := if a.first ≠ 0 then a.first else k.nextMapping
  let k := { k with nextMapping := k.nextMapping + AddressSpace.pageAlignUp a.second }
  (.ok mapped.toInt64, { g with devices := kernel.put k g.devices }.note
    (.of .debug "sys_mmap" [("addr", .hex 1 a.first.toNat), ("len", .count a.second.toNat),
      ("mapped", .hex 1 mapped.toNat)]))

def constant (value : Int64) : Handler δ := fun _ g => (.ok value, g)

def debugOut : Handler δ := fun a g =>
  match g.memory.readCString a.first debugLimit with
  | .error fault => (.faulted fault, g)
  | .ok raw => (.ok 0, g.note (.said ("[debug] " ++ textOf raw) []))

def getCpuTemperature : Handler δ := fun a g =>
  if a.first = 0 then (.ok 0, g)
  else match g.memory.writeU32 a.first temperature with
    | .error fault => (.faulted fault, g)
    | .ok memory => (.ok 0, { g with memory })

def loadStartModule (kernel : Part δ Kernel) : Handler δ := fun a g =>
  match g.memory.readCString a.first pathLimit with
  | .error fault => (.failed (-1) fault.message, g)
  | .ok raw =>
    let k := kernel.get g.devices
    let g := { g with devices := kernel.put { k with nextModule := k.nextModule + 1 } g.devices }
    (.ok k.nextModule, g.note (.of .info "load start module"
      [("path", .text (textOf raw)), ("id", .signed k.nextModule.toInt)]))

def module (kernel : Part δ Kernel) (neoMode : Bool) : Module δ where
  name := "kernel"
  handlers :=
    [(Number.exit, exit), (Number.write, write), (Number.mmap, mmap kernel),
     (Number.getpid, constant processId), (Number.getuid, constant 0),
     (Number.debugOut, debugOut), (Number.isNeoMode, constant (if neoMode then 1 else 0)),
     (Number.getCpuTemperature, getCpuTemperature),
     (Number.loadStartModule, loadStartModule kernel)]

end Kernel

end GameConsole.Syscall
