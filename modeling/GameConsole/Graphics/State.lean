import GameConsole.SparseTable

/-! The state that packets build up before a draw: three banks of registers, and the typed
fields that some registers stand for. A register write refreshes the field it belongs to. -/
namespace GameConsole.Graphics

inductive RegisterBank where
  | context | sh | uconfig
  deriving DecidableEq, Repr

def RegisterBank.name : RegisterBank → String
  | .context => "Context"
  | .sh => "Sh"
  | .uconfig => "Uconfig"

structure IndexBuffer where
  address : UInt64 := 0
  size : UInt32 := 0
  type : UInt32 := 0
  deriving DecidableEq, Repr

structure ColorTarget where
  address : UInt64 := 0
  format : UInt32 := 0
  deriving DecidableEq, Repr

structure Viewport where
  x : Float32
  y : Float32
  width : Float32
  height : Float32
  minZ : Float32
  maxZ : Float32

namespace Viewport

def initial : Viewport := ⟨0, 0, 1920, 1080, 0, 1⟩

/- Equality of numbers: a value that is not a number equals nothing, the two zeros are equal. -/
def same (a b : Viewport) : Bool :=
  a.x == b.x && a.y == b.y && a.width == b.width && a.height == b.height &&
  a.minZ == b.minZ && a.maxZ == b.maxZ

end Viewport

abbrev RegisterFile := SparseTable (Option UInt32) 32

structure GpuState where
  indexBuffer : IndexBuffer
  colorTargets : Vector ColorTarget 8
  depthTarget : UInt64
  vertexShader : UInt64
  pixelShader : UInt64
  computeShader : UInt64
  primitive : UInt32
  instances : UInt32
  viewport : Viewport
  context : RegisterFile
  sh : RegisterFile
  uconfig : RegisterFile

namespace Offset

def pixelShaderLow : UInt32 := 0x008
def pixelShaderHigh : UInt32 := 0x009
def vertexShaderLow : UInt32 := 0x048
def vertexShaderHigh : UInt32 := 0x049
def computeShaderLow : UInt32 := 0x20C
def computeShaderHigh : UInt32 := 0x20D

def depthBase : UInt32 := 0x012
def viewportXScale : UInt32 := 0x10F
def viewportXOffset : UInt32 := 0x110
def viewportYScale : UInt32 := 0x111
def viewportYOffset : UInt32 := 0x112
def viewportZScale : UInt32 := 0x113
def viewportZOffset : UInt32 := 0x114

def colorBase : UInt32 := 0x318
def colorStride : UInt32 := 0x0F
def colorFormat : UInt32 := 4

def primitiveType : UInt32 := 0x242

end Offset

namespace GpuState

def triangleList : UInt32 := 4

def initial : GpuState where
  indexBuffer := {}
  colorTargets := Vector.replicate 8 {}
  depthTarget := 0
  vertexShader := 0
  pixelShader := 0
  computeShader := 0
  primitive := triangleList
  instances := 1
  viewport := .initial
  context := .uniform none
  sh := .uniform none
  uconfig := .uniform none

def bank (s : GpuState) : RegisterBank → RegisterFile
  | .context => s.context
  | .sh => s.sh
  | .uconfig => s.uconfig

def register (s : GpuState) (bank : RegisterBank) (offset : UInt32) : Option UInt32 :=
  (s.bank bank).get offset.toNat

def registerOrZero (s : GpuState) (bank : RegisterBank) (offset : UInt32) : UInt32 :=
  (s.register bank offset).getD 0

def shaderAddress (low high : UInt32) : UInt64 :=
  (low.toUInt64 <<< 8) ||| ((high &&& 0xFF).toUInt64 <<< 40)

def shader (s : GpuState) (low high : UInt32) : UInt64 :=
  shaderAddress (s.registerOrZero .sh low) (s.registerOrZero .sh high)

def viewportRegister (s : GpuState) (offset : UInt32) (implied : Float32) : Float32 :=
  (s.register .context offset).elim implied Float32.ofBits

def refreshX (s : GpuState) : GpuState :=
  let half := s.viewport.width / 2
  let scale := s.viewportRegister Offset.viewportXScale half
  let offset := s.viewportRegister Offset.viewportXOffset (s.viewport.x + half)
  { s with viewport := { s.viewport with x := offset - scale, width := scale * 2 } }

def refreshY (s : GpuState) : GpuState :=
  let half := s.viewport.height / 2
  let scale := s.viewportRegister Offset.viewportYScale half
  let offset := s.viewportRegister Offset.viewportYOffset (s.viewport.y + half)
  { s with viewport := { s.viewport with y := offset - scale, height := scale * 2 } }

def refreshZ (s : GpuState) : GpuState :=
  let range := s.viewport.maxZ - s.viewport.minZ
  let scale := s.viewportRegister Offset.viewportZScale range
  let offset := s.viewportRegister Offset.viewportZOffset s.viewport.minZ
  { s with viewport := { s.viewport with minZ := offset, maxZ := offset + scale } }

def colorSlot? (offset : UInt32) : Option (Fin 8 × UInt32) :=
  if Offset.colorBase ≤ offset then
    let distance := offset - Offset.colorBase
    let slot := (distance / Offset.colorStride).toNat
    if h : slot < 8 then some (⟨slot, h⟩, distance % Offset.colorStride) else none
  else none

def setColor (s : GpuState) (slot : Fin 8) (place value : UInt32) : GpuState :=
  let target := s.colorTargets[slot.val]
  if place = 0 then
    let target := { target with address := value.toUInt64 <<< 8 }
    { s with colorTargets := s.colorTargets.set slot target }
  else if place = Offset.colorFormat then
    { s with colorTargets := s.colorTargets.set slot { target with format := value } }
  else s

def store (s : GpuState) (bank : RegisterBank) (offset value : UInt32) : GpuState :=
  match bank with
  | .context => { s with context := s.context.set offset.toNat (some value) }
  | .sh => { s with sh := s.sh.set offset.toNat (some value) }
  | .uconfig => { s with uconfig := s.uconfig.set offset.toNat (some value) }

def refresh (s : GpuState) (bank : RegisterBank) (offset value : UInt32) : GpuState :=
  match bank with
  | .sh =>
    if offset = Offset.pixelShaderLow ∨ offset = Offset.pixelShaderHigh then
      { s with pixelShader := s.shader Offset.pixelShaderLow Offset.pixelShaderHigh }
    else if offset = Offset.vertexShaderLow ∨ offset = Offset.vertexShaderHigh then
      { s with vertexShader := s.shader Offset.vertexShaderLow Offset.vertexShaderHigh }
    else if offset = Offset.computeShaderLow ∨ offset = Offset.computeShaderHigh then
      { s with computeShader := s.shader Offset.computeShaderLow Offset.computeShaderHigh }
    else s
  | .context =>
    if offset = Offset.depthBase then { s with depthTarget := value.toUInt64 <<< 8 }
    else if offset = Offset.viewportXScale ∨ offset = Offset.viewportXOffset then s.refreshX
    else if offset = Offset.viewportYScale ∨ offset = Offset.viewportYOffset then s.refreshY
    else if offset = Offset.viewportZScale ∨ offset = Offset.viewportZOffset then s.refreshZ
    else match colorSlot? offset with
      | some (slot, place) => s.setColor slot place value
      | none => s
  | .uconfig => if offset = Offset.primitiveType then { s with primitive := value } else s

def setRegister (s : GpuState) (bank : RegisterBank) (offset value : UInt32) : GpuState :=
  (s.store bank offset value).refresh bank offset value

def setRegisters (s : GpuState) (bank : RegisterBank) (start : UInt32) : List UInt32 → GpuState
  | [] => s
  | value :: rest => (s.setRegister bank start value).setRegisters bank (start + 1) rest

def same (a b : GpuState) : Bool :=
  a.indexBuffer == b.indexBuffer && a.colorTargets == b.colorTargets &&
  a.depthTarget == b.depthTarget && a.vertexShader == b.vertexShader &&
  a.pixelShader == b.pixelShader && a.computeShader == b.computeShader &&
  a.primitive == b.primitive && a.instances == b.instances && a.viewport.same b.viewport &&
  a.context == b.context && a.sh == b.sh && a.uconfig == b.uconfig

theorem registerStore (s : GpuState) (b c : RegisterBank) (offset o value : UInt32) :
    (s.store b offset value).register c o =
      if b = c ∧ offset = o then some value else s.register c o := by
  cases b <;> cases c <;> simp [store, register, bank, SparseTable.getSet, UInt32.toNat_inj]

end GpuState

end GameConsole.Graphics
