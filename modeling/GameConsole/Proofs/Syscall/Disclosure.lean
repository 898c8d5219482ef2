import GameConsole.Proofs.Syscall.Resemblance
import GameConsole.Syscall.Devices

/-! What calls disclose of the devices: addresses and numbers that are next to be given out, the
ports that are open, the registers of the graphics, and the pad as its host has it. What has been
counted, and how loud a port is, nobody learns. -/
namespace GameConsole.Syscall

structure NullAudio.Resembles (a b : NullAudio) : Prop where
  ports : ∀ handle, a.ports.find? handle = b.ports.find? handle
  volumes : ∀ handle, a.volumes.contains handle = b.volumes.contains handle
  lastHandle : a.lastHandle = b.lastHandle

namespace NullAudio

variable {a b : NullAudio}

namespace Resembles

theorem found (h : a.Resembles b) (handle : Int32) :
    a.ports.contains handle = b.ports.contains handle :=
  congrArg Option.isSome (h.ports handle)

theorem openPort (h : a.Resembles b) (params : PortParams) :
    (a.openPort params).1 = (b.openPort params).1 ∧
      (a.openPort params).2.Resembles (b.openPort params).2 := by
  refine ⟨congrArg (· + 1) h.lastHandle, fun handle => ?_, fun handle => ?_,
    congrArg (· + 1) h.lastHandle⟩
  · simp only [NullAudio.openPort, Directory.findPut, h.lastHandle, h.ports]
  · simp only [NullAudio.openPort, Directory.containsPut, h.lastHandle, h.volumes]

theorem closePort (h : a.Resembles b) (handle : Int32) :
    (a.closePort handle).1 = (b.closePort handle).1 ∧
      (a.closePort handle).2.Resembles (b.closePort handle).2 := by
  refine ⟨?_, fun other => ?_, fun other => ?_, h.lastHandle⟩
  · simp only [NullAudio.closePort, h.found]
  · simp only [NullAudio.closePort, Directory.findErase, h.ports]
  · simp only [NullAudio.closePort, Directory.containsErase, h.volumes]

theorem output (h : a.Resembles b) (handle : Int32) (bytes : Nat) :
    (a.output handle bytes).1 = (b.output handle bytes).1 ∧
      (a.output handle bytes).2.Resembles (b.output handle bytes).2 := by
  unfold NullAudio.output
  rw [h.found]
  split
  · exact ⟨rfl, h.ports, h.volumes, h.lastHandle⟩
  · exact ⟨rfl, h⟩

theorem setVolume (h : a.Resembles b) (handle : Int32) (volume : Float32) :
    (a.setVolume handle volume).1 = (b.setVolume handle volume).1 ∧
      (a.setVolume handle volume).2.Resembles (b.setVolume handle volume).2 := by
  unfold NullAudio.setVolume
  rw [h.volumes]
  split
  · refine ⟨rfl, h.ports, fun other => ?_, h.lastHandle⟩
    simp only [Directory.containsPut, h.volumes]
  · exact ⟨rfl, h⟩

end Resembles

theorem backendRespects {δ : Type} {R : δ → δ → Prop} {audio : Part δ NullAudio}
    (parts : audio.Respects R Resembles) : (backend audio).Respects R where
  init _ _ h := ⟨rfl, parts.put _ _ _ _ h
    ⟨(parts.get _ _ h).ports, (parts.get _ _ h).volumes, (parts.get _ _ h).lastHandle⟩⟩
  openPort params _ _ h :=
    have opened := (parts.get _ _ h).openPort params
    ⟨opened.1, parts.put _ _ _ _ h opened.2⟩
  closePort handle _ _ h :=
    have closed := (parts.get _ _ h).closePort handle
    ⟨closed.1, parts.put _ _ _ _ h closed.2⟩
  sampleCount handle _ _ h :=
    congrArg (Option.map PortParams.sampleCount) ((parts.get _ _ h).ports handle)
  output handle pcm _ _ h :=
    have played := (parts.get _ _ h).output handle pcm.length
    ⟨played.1, parts.put _ _ _ _ h played.2⟩
  setVolume handle volume _ _ h :=
    have turned := (parts.get _ _ h).setVolume handle volume
    ⟨turned.1, parts.put _ _ _ _ h turned.2⟩

end NullAudio

structure NullPad.Resembles (p q : NullPad) : Prop where
  state : p.state = q.state
  clock : p.clock = q.clock

theorem NullPad.backendRespects {δ : Type} {R : δ → δ → Prop} {pad : Part δ NullPad}
    (parts : pad.Respects R Resembles) : (backend pad).Respects R where
  state _ _ _ h := ⟨(parts.get _ _ h).state, h⟩
  setVibration _ _ _ _ _ h :=
    parts.put _ _ _ _ h ⟨(parts.get _ _ h).state, (parts.get _ _ h).clock⟩
  clock _ _ h := (parts.get _ _ h).clock

structure GraphicsDevice.Resembles (g h : GraphicsDevice) : Prop where
  limit : g.limit = h.limit
  state : g.state = h.state
  outbox : g.outbox = h.outbox

theorem GraphicsDevice.decodesAlike :
    GraphicsDevice.Decodes Resembles fun _ => Graphics.Decoder.Resembles where
  congruence _ := Graphics.Decoder.resemblesCongruence
  limit _ _ h := h.limit
  decoder _ _ _ _ h := ⟨h.state, rfl⟩
  absorb _ _ _ _ h same := ⟨h.limit, same.state, by simp only [absorb, h.outbox, same.commands]⟩
  frame _ _ h := ⟨h.limit, h.state, congrArg (Array.push · .frame) h.outbox⟩

structure Devices.Resembles (d e : Devices) : Prop where
  kernel : d.kernel = e.kernel
  audio : d.audio.Resembles e.audio
  pad : d.pad.Resembles e.pad
  graphics : d.graphics.Resembles e.graphics

/- What a program finds of those that were executed before it. -/
structure Devices.Legacy (d e : Devices) : Prop where
  kernel : d.kernel = e.kernel
  audio : d.audio.Resembles e.audio
  registers : d.graphics.state = e.graphics.state

namespace Devices

theorem kernelPartRespects : kernelPart.Respects Resembles Eq :=
  ⟨fun _ _ h => h.kernel, fun _ _ _ _ h same => ⟨same, h.audio, h.pad, h.graphics⟩⟩

theorem audioPartRespects : audioPart.Respects Resembles NullAudio.Resembles :=
  ⟨fun _ _ h => h.audio, fun _ _ _ _ h same => ⟨h.kernel, same, h.pad, h.graphics⟩⟩

theorem padPartRespects : padPart.Respects Resembles NullPad.Resembles :=
  ⟨fun _ _ h => h.pad, fun _ _ _ _ h same => ⟨h.kernel, h.audio, same, h.graphics⟩⟩

theorem graphicsPartRespects : graphicsPart.Respects Resembles GraphicsDevice.Resembles :=
  ⟨fun _ _ h => h.graphics, fun _ _ _ _ h same => ⟨h.kernel, h.audio, h.pad, same⟩⟩

theorem dispatcherRespects (neoMode : Bool) : (dispatcher neoMode).1.Respects Resembles := by
  refine Dispatcher.installAllEach Dispatcher.emptyEach ?_
  simp only [modules, List.forall_mem_cons]
  exact ⟨Kernel.moduleRespects kernelPartRespects neoMode,
    Audio.moduleRespects (NullAudio.backendRespects audioPartRespects),
    Pad.moduleRespects (NullPad.backendRespects padPartRespects),
    GraphicsDriver.moduleRespects graphicsPartRespects GraphicsDevice.decodesAlike, by simp⟩

end Devices

end GameConsole.Syscall
