import GameConsole.Proofs.Processor.Reports
import GameConsole.Proofs.Syscall.Resemblance

/-! No system call looks at what has been reported before it. -/
namespace GameConsole.Syscall

variable {δ : Type}

def Handler.Deaf (h : Handler δ) : Prop :=
  ∀ a g (journal : Journal), (h a g).1 = (h a { g with journal }).1 ∧
    (h a g).2.Agrees (h a { g with journal }).2

theorem Handler.deafRespects {h : Handler δ} : h.Deaf ↔ h.Respects Eq := by
  constructor
  · intro deaf
    refine .paired fun a registers memory d e journal journal' same => ?_
    subst same
    obtain ⟨outcome, after⟩ := deaf a ⟨registers, memory, d, journal⟩ journal'
    exact ⟨outcome, after.registers, after.memory, after.devices⟩
  · intro respects a g journal
    obtain ⟨outcome, after⟩ := respects a g { g with journal } ⟨rfl, rfl, rfl⟩
    exact ⟨outcome, after.registers, after.memory, after.devices⟩

def Dispatcher.Deaf (d : Dispatcher δ) : Prop :=
  ∀ number handler, d.handlers.find? number = some handler → handler.Deaf

namespace Dispatcher

theorem emptyDeaf : (empty : Dispatcher δ).Deaf := emptyEach

theorem deafRespects {d : Dispatcher δ} : d.Deaf ↔ d.Respects Eq :=
  forall₃_congr fun _ _ _ => Handler.deafRespects

end Dispatcher

theorem Hosted.handlerDiscreet (table : Directory UInt64 (Handler δ)) :
    TrapHandler.Discreet (fun h : Hosted δ => h.dispatcher.handlers = table ∧ h.dispatcher.Deaf)
      Hosted.handler := by
  rintro control other ⟨registers, memory, ⟨dispatcher, devices⟩, journal⟩ ⟨_, _, _, journal'⟩
    ⟨rfl, rfl, rfl⟩ ⟨rfl, deaf⟩
  obtain ⟨kept, same⟩ := dispatcher.dispatchCounts
    (g := ⟨registers, memory, devices, journal⟩) (h := ⟨registers, memory, devices, journal'⟩) rfl
  obtain ⟨registers, memory, -, respects, after⟩ := dispatchRelated (R := Eq)
    (g := ⟨registers, memory, ⟨dispatcher, devices⟩, journal⟩)
    (h := ⟨registers, memory, ⟨dispatcher, devices⟩, journal'⟩)
    ⟨rfl, rfl, rfl, Dispatcher.deafRespects.mp deaf, rfl⟩
  exact ⟨⟨registers, memory, congrArg₂ Hosted.mk same after⟩,
    ⟨kept, Dispatcher.deafRespects.mpr respects⟩, rfl, rfl⟩

theorem GraphicsDriver.absorbAgrees (g : GraphicsDevice) {d e : Graphics.Decoder}
    (agrees : d.Agrees e) : g.absorb d = g.absorb e := by
  simp only [GraphicsDevice.absorb, agrees.state, agrees.counts, agrees.commands]

namespace Devices

section Keeping
variable {F : GraphicsDevice → Prop}

structure Same (F : GraphicsDevice → Prop) (d e : Devices) : Prop where
  same : d = e
  known : F d.graphics

theorem audioKeeps : (NullAudio.backend audioPart).Respects (Same F) := by
  constructor
  case sampleCount =>
    rintro _ _ _ ⟨rfl, -⟩
    rfl
  case init =>
    rintro _ _ ⟨rfl, known⟩
    exact ⟨rfl, rfl, known⟩
  case output | setVolume =>
    rintro _ _ _ _ ⟨rfl, known⟩
    exact ⟨rfl, rfl, known⟩
  all_goals
    rintro _ _ _ ⟨rfl, known⟩
    exact ⟨rfl, rfl, known⟩

theorem padKeeps : (NullPad.backend padPart).Respects (Same F) where
  state _ _ _ h := ⟨congrArg (NullPad.state ∘ pad) h.same, h⟩
  setVibration := by
    rintro _ _ _ _ _ ⟨rfl, known⟩
    exact ⟨rfl, known⟩
  clock _ _ h := congrArg (NullPad.clock ∘ pad) h.same

theorem dispatcherKeeps {Q : GraphicsDevice → Graphics.Decoder → Graphics.Decoder → Prop}
    (decodes : GraphicsDevice.Decodes (fun g h => g = h ∧ F g) Q) (neoMode : Bool) :
    (dispatcher neoMode).1.Respects (Same F) := by
  have kernels : kernelPart.Respects (Same F) Eq :=
    ⟨fun _ _ h => congrArg kernel h.same,
      fun _ _ _ _ h value => ⟨by rw [h.same, value], h.known⟩⟩
  have graphic : graphicsPart.Respects (Same F) fun g h => g = h ∧ F g :=
    ⟨fun _ _ h => ⟨congrArg graphics h.same, h.known⟩,
      fun _ _ _ _ h value => ⟨by rw [h.same, value.1], value.2⟩⟩
  refine Dispatcher.installAllEach Dispatcher.emptyEach ?_
  simp only [modules, List.forall_mem_cons]
  exact ⟨Kernel.moduleRespects kernels neoMode, Audio.moduleRespects audioKeeps,
    Pad.moduleRespects padKeeps, GraphicsDriver.moduleRespects graphic decodes, by simp⟩

end Keeping

theorem limitKept (limit : UInt32) :
    GraphicsDevice.Decodes (fun g h => g = h ∧ g.limit = limit) fun _ =>
      Graphics.Decoder.Agrees where
  congruence _ := Graphics.Decoder.agreesCongruence
  limit _ _ h := congrArg GraphicsDevice.limit h.1
  decoder _ _ _ _ h := h.1 ▸ ⟨rfl, rfl, rfl⟩
  absorb _ _ _ _ h agrees := ⟨h.1 ▸ GraphicsDriver.absorbAgrees _ agrees, h.2⟩
  frame _ _ h := ⟨h.1 ▸ rfl, h.2⟩

theorem dispatcherDeaf (neoMode : Bool) : (dispatcher neoMode).1.Deaf := by
  intro number handler place a g journal
  obtain ⟨outcome, after⟩ := dispatcherKeeps (limitKept g.devices.graphics.limit) neoMode number
    handler place a g { g with journal } ⟨rfl, rfl, rfl, rfl⟩
  exact ⟨outcome, after.registers, after.memory, after.devices.same⟩

end Devices

end GameConsole.Syscall
