/-! The framing of command packets. Each starts with a header word: two bits of type, fourteen
of payload length less one, eight of opcode and eight of shader type. Only packets of type 3
have an opcode, and not every opcode that has a name does anything here; packets of type 1 and 2
are a header alone. -/
namespace GameConsole.Graphics

inductive PacketType where
  | type0 | type1 | type2 | type3
  deriving DecidableEq, Repr

def PacketType.name : PacketType → String
  | .type0 => "Type0"
  | .type1 => "Type1"
  | .type2 => "Type2"
  | .type3 => "Type3"

structure PacketHeader where
  raw : UInt32
  deriving DecidableEq, Repr

namespace PacketHeader

def type (h : PacketHeader) : PacketType :=
  let bits := h.raw >>> 30
  if bits = 0 then .type0 else if bits = 1 then .type1 else if bits = 2 then .type2 else .type3

def count (h : PacketHeader) : UInt32 := (h.raw >>> 16) &&& 0x3FFF

def payloadWords (h : PacketHeader) : Nat := h.count.toNat + 1

def opcode (h : PacketHeader) : UInt8 := (h.raw >>> 8).toUInt8

def shaderType (h : PacketHeader) : UInt8 := h.raw.toUInt8

def build (opcode : UInt8) (payloadWords : UInt32) (shaderType : UInt8) : PacketHeader :=
  let length : UInt32 := (payloadWords - 1) &&& 0x3FFF
  ⟨(0xC0000000 : UInt32) ||| (length <<< 16) ||| (opcode.toUInt32 <<< 8) ||| shaderType.toUInt32⟩

theorem countLt (h : PacketHeader) : h.count.toNat < 0x4000 := by
  have bound := Nat.and_le_right (n := (h.raw >>> 16).toNat) (m := 0x3FFF)
  have same : h.count.toNat = (h.raw >>> 16).toNat &&& 0x3FFF := by
    rw [count, UInt32.toNat_and]; rfl
  omega

end PacketHeader

namespace Opcode

def nop : UInt8 := 0x10
def clearState : UInt8 := 0x12
def dispatchDirect : UInt8 := 0x15
def drawIndex2 : UInt8 := 0x27
def contextControl : UInt8 := 0x28
def indexType : UInt8 := 0x2A
def drawIndexAuto : UInt8 := 0x2D
def numInstances : UInt8 := 0x2F
def drawIndexOffset2 : UInt8 := 0x35
def waitRegMem : UInt8 := 0x3C
def indirectBuffer : UInt8 := 0x3F
def surfaceSync : UInt8 := 0x43
def eventWrite : UInt8 := 0x46
def eventWriteEop : UInt8 := 0x47
def eventWriteEos : UInt8 := 0x48
def releaseMem : UInt8 := 0x49
def acquireMem : UInt8 := 0x58
def setContextReg : UInt8 := 0x69
def setShReg : UInt8 := 0x76
def setUconfigReg : UInt8 := 0x79

def names : List (UInt8 × String) :=
  [(nop, "NOP"), (clearState, "CLEAR_STATE"), (dispatchDirect, "DISPATCH_DIRECT"),
   (0x16, "DISPATCH_INDIRECT"), (drawIndex2, "DRAW_INDEX_2"),
   (contextControl, "CONTEXT_CONTROL"), (indexType, "INDEX_TYPE"), (0x2B, "DRAW_INDEX"),
   (drawIndexAuto, "DRAW_INDEX_AUTO"), (numInstances, "NUM_INSTANCES"), (0x30, "SET_BASE"),
   (0x34, "STRMOUT_BUFFER_UPDATE"), (drawIndexOffset2, "DRAW_INDEX_OFFSET_2"),
   (0x37, "WRITE_DATA"), (0x38, "DRAW_INDEX_INDIRECT"), (0x39, "MEM_SEMAPHORE"),
   (waitRegMem, "WAIT_REG_MEM"), (indirectBuffer, "INDIRECT_BUFFER"), (0x40, "COPY_DATA"),
   (surfaceSync, "SURFACE_SYNC"), (eventWrite, "EVENT_WRITE"),
   (eventWriteEop, "EVENT_WRITE_EOP"), (eventWriteEos, "EVENT_WRITE_EOS"),
   (releaseMem, "RELEASE_MEM"), (0x50, "DMA_DATA"), (acquireMem, "ACQUIRE_MEM"),
   (setContextReg, "SET_CONTEXT_REG"), (0x6A, "LOAD_CONTEXT_REG"), (setShReg, "SET_SH_REG"),
   (0x77, "LOAD_SH_REG"), (setUconfigReg, "SET_UCONFIG_REG")]

def name? (opcode : UInt8) : Option String := names.lookup opcode

def name (opcode : UInt8) : String := (name? opcode).getD "UNKNOWN"

def isSync (opcode : UInt8) : Bool :=
  [eventWrite, eventWriteEop, eventWriteEos, releaseMem, acquireMem, surfaceSync, waitRegMem,
    contextControl].contains opcode

end Opcode

end GameConsole.Graphics
