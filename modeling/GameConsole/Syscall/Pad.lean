import GameConsole.Syscall.Dispatcher

/-! Game pads: the state that the host gives, its layout in guest memory, the calls that read
it, and a backend for a single virtual pad. Floats are kept as their bits throughout. -/
namespace GameConsole.Syscall

abbrev FloatBits := UInt32

def stickCenter : UInt8 := 128

structure PadState where
  buttons : UInt32 := 0
  leftStick : UInt8 × UInt8 := (stickCenter, stickCenter)
  rightStick : UInt8 × UInt8 := (stickCenter, stickCenter)
  l2 : UInt8 := 0
  r2 : UInt8 := 0
  accel : Vector FloatBits 3 := #v[0, 0xBF800000, 0]
  gyro : Vector FloatBits 3 := #v[0, 0, 0]
  deriving DecidableEq

structure PadData where
  buttons : UInt32
  leftStickX : UInt8
  leftStickY : UInt8
  rightStickX : UInt8
  rightStickY : UInt8
  analogL2 : UInt8
  analogR2 : UInt8
  padding1 : UInt16
  orientation : Vector FloatBits 4
  accel : Vector FloatBits 3
  gyro : Vector FloatBits 3
  touch : Vector UInt8 24
  connected : UInt8
  padding2 : Vector UInt8 3
  timestamp : UInt64
  extension : Vector UInt8 12
  connectedCount : UInt8
  padding3 : Vector UInt8 3
  deriving DecidableEq

namespace PadData

def ofState (s : PadState) (timestamp : UInt64) : PadData where
  buttons := s.buttons
  leftStickX := s.leftStick.1
  leftStickY := s.leftStick.2
  rightStickX := s.rightStick.1
  rightStickY := s.rightStick.2
  analogL2 := s.l2
  analogR2 := s.r2
  padding1 := 0
  orientation := #v[0, 0, 0, 0x3F800000]
  accel := s.accel
  gyro := s.gyro
  touch := Vector.replicate 24 0
  connected := 1
  padding2 := Vector.replicate 3 0
  timestamp := timestamp
  extension := Vector.replicate 12 0
  connectedCount := 1
  padding3 := Vector.replicate 3 0

def encode (d : PadData) : List UInt8 :=
  PlainData.encode d.buttons ++
    [d.leftStickX, d.leftStickY, d.rightStickX, d.rightStickY, d.analogL2, d.analogR2] ++
    PlainData.encode d.padding1 ++ PlainData.encode d.orientation ++ PlainData.encode d.accel ++
    PlainData.encode d.gyro ++ d.touch.toList ++ [d.connected] ++ d.padding2.toList ++
    PlainData.encode d.timestamp ++ d.extension.toList ++ [d.connectedCount] ++ d.padding3.toList

def field {α : Type} [PlainData α] (raw : List UInt8) (offset : Nat) : α :=
  PlainData.decode ((raw.drop offset).take (PlainData.size α))

def decode (raw : List UInt8) : PadData where
  buttons := field raw 0x00
  leftStickX := field raw 0x04
  leftStickY := field raw 0x05
  rightStickX := field raw 0x06
  rightStickY := field raw 0x07
  analogL2 := field raw 0x08
  analogR2 := field raw 0x09
  padding1 := field raw 0x0A
  orientation := field raw 0x0C
  accel := field raw 0x1C
  gyro := field raw 0x28
  touch := field raw 0x34
  connected := field raw 0x4C
  padding2 := field raw 0x4D
  timestamp := field raw 0x50
  extension := field raw 0x58
  connectedCount := field raw 0x64
  padding3 := field raw 0x65

instance : PlainData PadData := ⟨0x68, 8, encode, decode⟩

end PadData

/- The pads of a host. `clock` counts the microseconds since the calls were installed. -/
structure PadBackend (δ : Type) where
  state : Int32 → δ → PadState × δ
  setVibration : Int32 → UInt8 → UInt8 → δ → δ
  clock : δ → UInt64

structure NullPad where
  state : PadState := {}
  vibration : UInt8 × UInt8 := (0, 0)
  clock : UInt64 := 0
  deriving DecidableEq

def NullPad.backend {δ : Type} (pad : Part δ NullPad) : PadBackend δ where
  state _ d := ((pad.get d).state, d)
  setVibration _ large small d := pad.put { pad.get d with vibration := (large, small) } d
  clock d := (pad.get d).clock

namespace Pad

variable {δ : Type}

def read (backend : PadBackend δ) : Handler δ := fun a g =>
  if a.second = 0 then (.failed (-1) "null output pointer", g)
  else
    let (state, devices) := backend.state a.first.toUInt32.toInt32 g.devices
    let g := { g with devices }
    match g.memory.write a.second (PadData.ofState state (backend.clock devices)) with
    | .error fault => (.faulted fault, g)
    | .ok memory => (.ok 0, { g with memory })

def openPad : Handler δ := fun a g =>
  (.ok 0, g.note (.of .debug "scePadOpen" [("user", .signed a.first.toUInt32.toInt32.toInt),
    ("kind", .signed a.second.toUInt32.toInt32.toInt),
    ("index", .signed a.third.toUInt32.toInt32.toInt)]))

def acknowledge : Handler δ := fun _ g => (.ok 0, g)

def setVibration (backend : PadBackend δ) : Handler δ := fun a g =>
  let large := a.second.toUInt8
  let small := a.third.toUInt8
  let g := if 0 < large ∨ 0 < small then g.note (.of .debug "scePadSetVibration"
      [("large", .count large.toNat), ("small", .count small.toNat)])
    else g
  (.ok 0, { g with
    devices := backend.setVibration a.first.toUInt32.toInt32 large small g.devices })

def module (backend : PadBackend δ) : Module δ where
  name := "libpad"
  handlers :=
    [(Number.padReadState, read backend), (Number.padRead, read backend),
     (Number.padOpen, openPad), (Number.padGetHandle, acknowledge),
     (Number.padClose, acknowledge), (Number.padSetVibration, setVibration backend)]

end Pad

end GameConsole.Syscall
