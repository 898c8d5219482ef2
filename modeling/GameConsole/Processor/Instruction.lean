import GameConsole.Memory.Access
import GameConsole.Processor.Registers

/-! Instructions of the processor and how they are read from memory: optional prefixes, an
opcode, and the operands that the opcode calls for. Opcode bytes are folded one by one;
immediate operands are read in one piece and need no alignment. -/
namespace GameConsole

inductive Unsupported where
  | opcode
  | twoByte (second : UInt8)
  | move (modrm : UInt8)
  deriving DecidableEq, Repr

inductive Instruction where
  | nop
  | halt
  | syscall
  | ret
  | jump (target : UInt64)
  | call (target : UInt64)
  | push (source : Register)
  | pop (target : Register)
  | move (target : Register) (value : UInt64)
  | skip (form : Unsupported)
  deriving DecidableEq, Repr

namespace Instruction

structure Opening where
  repeated : Bool
  rex : UInt8
  opcode : UInt8
  next : UInt64
  deriving DecidableEq, Repr

namespace Opening

def wide (o : Opening) : Bool := o.rex &&& (0x08 : UInt8) != 0

def register (o : Opening) (low : UInt8) : Register :=
  .numbered ((low &&& 7) ||| ((o.rex &&& (1 : UInt8)) <<< (3 : UInt8)))

def read (m : Memory) (rip : UInt64) : Except MemoryFault Opening := do
  let first ← m.readU8 rip
  let repeated := first == 0xF3
  let rip := if repeated then rip + 1 else rip
  let second ← if repeated then m.readU8 rip else pure first
  if second &&& 0xF0 == 0x40 then
    return ⟨repeated, second, ← m.readU8 (rip + 1), rip + 2⟩
  else
    return ⟨repeated, 0, second, rip + 1⟩

end Opening

def signExtend (value : UInt32) : UInt64 := value.toInt32.toInt64.toUInt64

def readTarget (m : Memory) (next : UInt64) : Except MemoryFault UInt64 := do
  let displacement : UInt32 ← m.readPacked next
  return next + 4 + signExtend displacement

def readOperands (m : Memory) (o : Opening) : Except MemoryFault (Instruction × UInt64) := do
  if o.opcode &&& 0xF8 = 0x50 then return (.push (o.register o.opcode), o.next)
  else if o.opcode &&& 0xF8 = 0x58 then return (.pop (o.register o.opcode), o.next)
  else if o.opcode &&& 0xF8 = 0xB8 then
    if o.wide then
      let value : UInt64 ← m.readPacked o.next
      return (.move (o.register o.opcode) value, o.next + 8)
    else
      let value : UInt32 ← m.readPacked o.next
      return (.move (o.register o.opcode) value.toUInt64, o.next + 4)
  else if o.opcode = 0x0F then
    let second ← m.readU8 o.next
    return (if second = 0x05 then .syscall else .skip (.twoByte second), o.next + 1)
  else if o.opcode = 0x90 then return (.nop, o.next)
  else if o.opcode = 0xC3 then return (.ret, o.next)
  else if o.opcode = 0xC7 then
    let modrm ← m.readU8 o.next
    if modrm &&& 0xF8 = 0xC0 then
      let value : UInt32 ← m.readPacked (o.next + 1)
      let value := if o.wide then signExtend value else value.toUInt64
      return (.move (o.register modrm) value, o.next + 5)
    else return (.skip (.move modrm), o.next + 1)
  else if o.opcode = 0xE8 then return (.call (← readTarget m o.next), o.next + 4)
  else if o.opcode = 0xE9 then return (.jump (← readTarget m o.next), o.next + 4)
  else if o.opcode = 0xF4 then return (.halt, o.next)
  else return (.skip .opcode, o.next)

def read (m : Memory) (rip : UInt64) : Except MemoryFault (Instruction × UInt64) := do
  readOperands m (← Opening.read m rip)

end Instruction

end GameConsole
