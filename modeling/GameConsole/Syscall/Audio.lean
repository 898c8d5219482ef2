import GameConsole.Syscall.Dispatcher

/-! Audio output: the calls, what a backend has to offer them, and a backend that discards the
sound and keeps count. -/
namespace GameConsole.Syscall

structure PortParams where
  type : Int32
  index : Int32
  sampleCount : UInt32
  frequency : UInt32
  format : UInt32
  deriving DecidableEq, Repr

def PortParams.describe (p : PortParams) : String :=
  "PortParams \x7b port_type: " ++ toString p.type.toInt ++ ", index: " ++ toString p.index.toInt ++
    ", sample_count: " ++ toString p.sampleCount.toNat ++ ", frequency: " ++
    toString p.frequency.toNat ++ ", format: " ++ toString p.format.toNat ++ " \x7d"

/- The audio device of a host. Where the result is a status, zero is success and a negative
number an error; `openPort` gives a handle that is not negative, or an error. -/
structure AudioBackend (δ : Type) where
  init : δ → Bool × δ
  openPort : PortParams → δ → Int32 × δ
  closePort : Int32 → δ → Int32 × δ
  sampleCount : Int32 → δ → Option UInt32
  output : Int32 → Memory.Slice → δ → Int32 × δ
  setVolume : Int32 → Float32 → δ → Int32 × δ

structure NullAudio where
  initialized : Bool
  ports : Directory Int32 PortParams
  volumes : Directory Int32 Float32
  lastHandle : Int32
  bytesOutput : UInt64

namespace NullAudio

def initial : NullAudio := ⟨false, .empty, .empty, 0, 0⟩

def invalidPort : Int32 := -1

def openPort (a : NullAudio) (params : PortParams) : Int32 × NullAudio :=
  let handle := a.lastHandle + 1
  (handle, { a with
    lastHandle := handle
    ports := a.ports.put handle params
    volumes := a.volumes.put handle 1 })

def closePort (a : NullAudio) (handle : Int32) : Int32 × NullAudio :=
  (if a.ports.contains handle then 0 else invalidPort,
    { a with ports := a.ports.erase handle, volumes := a.volumes.erase handle })

def sampleCount (a : NullAudio) (handle : Int32) : Option UInt32 :=
  (a.ports.find? handle).map PortParams.sampleCount

def output (a : NullAudio) (handle : Int32) (bytes : Nat) : Int32 × NullAudio :=
  if a.ports.contains handle then (0, { a with bytesOutput := a.bytesOutput + bytes.toUInt64 })
  else (invalidPort, a)

def setVolume (a : NullAudio) (handle : Int32) (volume : Float32) : Int32 × NullAudio :=
  if a.volumes.contains handle then (0, { a with volumes := a.volumes.put handle volume })
  else (invalidPort, a)

variable {δ : Type}

def backend (audio : Part δ NullAudio) : AudioBackend δ where
  init d := (true, audio.put { audio.get d with initialized := true } d)
  openPort params d := let (r, a) := (audio.get d).openPort params; (r, audio.put a d)
  closePort handle d := let (r, a) := (audio.get d).closePort handle; (r, audio.put a d)
  sampleCount handle d := (audio.get d).sampleCount handle
  output handle pcm d := let (r, a) := (audio.get d).output handle pcm.length; (r, audio.put a d)
  setVolume handle volume d :=
    let (r, a) := (audio.get d).setVolume handle volume
    (r, audio.put a d)

end NullAudio

namespace Audio

variable {δ : Type}

def bytesPerFrame : Nat := 4

def defaultSampleCount : UInt32 := 256

def unityVolume : Float32 := 32767

def init (backend : AudioBackend δ) : Handler δ := fun _ g =>
  let (ok, devices) := backend.init g.devices
  let g := { g with devices }.note (.of .debug "sceAudioOutInit" [("ok", .flag ok)])
  (if ok then .ok 0 else .failed (-1) "audio backend failed to initialise", g)

def openPort (backend : AudioBackend δ) : Handler δ := fun a g =>
  let params : PortParams := ⟨a.second.toUInt32.toInt32, a.third.toUInt32.toInt32,
    a.fourth.toUInt32, a.fifth.toUInt32, a.sixth.toUInt32⟩
  let (handle, devices) := backend.openPort params g.devices
  (⟨handle.toInt64, 0 ≤ handle, none⟩, { g with devices }.note (.of .debug "sceAudioOutOpen"
    [("params", .text params.describe), ("handle", .signed handle.toInt)]))

def closePort (backend : AudioBackend δ) : Handler δ := fun a g =>
  let (status, devices) := backend.closePort a.first.toUInt32.toInt32 g.devices
  (.status status.toInt64, { g with devices })

def output (backend : AudioBackend δ) : Handler δ := fun a g =>
  let handle := a.first.toUInt32.toInt32
  if a.second = 0 then (.failed (-1) "null PCM pointer", g)
  else
    let samples := (backend.sampleCount handle g.devices).getD defaultSampleCount
    match g.memory.slice a.second (samples.toNat * bytesPerFrame).toUInt64 with
    | .error fault => (.failed (-1) fault.message, g)
    | .ok pcm =>
      let (status, devices) := backend.output handle pcm g.devices
      (.status status.toInt64, { g with devices })

def setVolumeTo (backend : AudioBackend δ) (handle : Int32) (volume : Float32) (g : Guest δ) :
    Outcome × Guest δ :=
  let (status, devices) := backend.setVolume handle volume g.devices
  (.status status.toInt64, { g with devices })

def setVolume (backend : AudioBackend δ) : Handler δ := fun a g =>
  let handle := a.first.toUInt32.toInt32
  if a.third = 0 then setVolumeTo backend handle 1 g
  else match g.memory.readU32 a.third with
    | .error fault => (.faulted fault, g)
    | .ok raw => setVolumeTo backend handle (raw.toInt32.toFloat32 / unityVolume) g

def getPortState : Handler δ := fun a g =>
  if a.second = 0 then (.ok 0, g)
  else match g.memory.writeU32 a.second 1 with
    | .error fault => (.faulted fault, g)
    | .ok memory =>
      match memory.writeU32 (a.second + 4) 0 with
      | .error fault => (.faulted fault, { g with memory })
      | .ok memory => (.ok 0, { g with memory })

def getSystemState : Handler δ := fun a g =>
  if a.first = 0 then (.ok 0, g)
  else match g.memory.writeU32 a.first 1 with
    | .error fault => (.faulted fault, g)
    | .ok memory => (.ok 0, { g with memory })

def module (backend : AudioBackend δ) : Module δ where
  name := "libaudio"
  handlers :=
    [(Number.audioOutInit, init backend), (Number.audioOutOpen, openPort backend),
     (Number.audioOutClose, closePort backend), (Number.audioOutOutput, output backend),
     (Number.audioOutOutputs, output backend), (Number.audioOutSetVolume, setVolume backend),
     (Number.audioOutGetPortState, getPortState),
     (Number.audioOutGetSystemState, getSystemState)]

end Audio

end GameConsole.Syscall
