import GameConsole.Proofs.Graphics.Execution
import GameConsole.Proofs.Processor.Related
import GameConsole.Proofs.Syscall.Table

/-! System calls on two guests side by side. A relation between devices that the operations of the
devices keep is kept by every call, and both guests get the same reply. -/
namespace GameConsole.Syscall

variable {δ α : Type} {R : δ → δ → Prop}

def Handler.Respects (R : δ → δ → Prop) (h : Handler δ) : Prop :=
  ∀ a (g g' : Guest δ), g.Related R g' →
    (h a g).1 = (h a g').1 ∧ (h a g).2.Related R (h a g').2

theorem Handler.Respects.paired {h : Handler δ}
    (pairs : ∀ a registers memory d e journal journal', R d e →
      (h a ⟨registers, memory, d, journal⟩).1 = (h a ⟨registers, memory, e, journal'⟩).1 ∧
        (h a ⟨registers, memory, d, journal⟩).2.Related R
          (h a ⟨registers, memory, e, journal'⟩).2) : h.Respects R := by
  rintro a ⟨registers, memory, d, journal⟩ ⟨_, _, e, journal'⟩ ⟨rfl, rfl, related⟩
  exact pairs a registers memory d e journal journal' related

def Module.Respects (R : δ → δ → Prop) (m : Module δ) : Prop :=
  ∀ entry ∈ m.handlers, entry.2.Respects R

structure Part.Respects (R : δ → δ → Prop) (S : α → α → Prop) (part : Part δ α) : Prop where
  get : ∀ d e, R d e → S (part.get d) (part.get e)
  put : ∀ d e a b, R d e → S a b → R (part.put a d) (part.put b e)

namespace Kernel

theorem writeRespects : (write : Handler δ).Respects R := by
  refine .paired fun a registers memory d e journal journal' related => ?_
  unfold write
  dsimp only
  split
  · exact ⟨rfl, rfl, rfl, related⟩
  · split <;> exact ⟨rfl, rfl, rfl, related⟩

theorem debugOutRespects : (debugOut : Handler δ).Respects R := by
  refine .paired fun a registers memory d e journal journal' related => ?_
  unfold debugOut
  dsimp only
  split <;> exact ⟨rfl, rfl, rfl, related⟩

theorem getCpuTemperatureRespects : (getCpuTemperature : Handler δ).Respects R := by
  refine .paired fun a registers memory d e journal journal' related => ?_
  unfold getCpuTemperature
  dsimp only
  split
  · exact ⟨rfl, rfl, rfl, related⟩
  · split <;> exact ⟨rfl, rfl, rfl, related⟩

section Part
variable {kernel : Part δ Kernel}

theorem mmapRespects (parts : kernel.Respects R Eq) : (mmap kernel).Respects R := by
  refine .paired fun a registers memory d e journal journal' related => ?_
  have same : kernel.get d = kernel.get e := parts.get _ _ related
  unfold mmap
  dsimp only
  rw [← same]
  exact ⟨rfl, rfl, rfl, parts.put _ _ _ _ related rfl⟩

theorem loadStartModuleRespects (parts : kernel.Respects R Eq) :
    (loadStartModule kernel).Respects R := by
  refine .paired fun a registers memory d e journal journal' related => ?_
  have same : kernel.get d = kernel.get e := parts.get _ _ related
  unfold loadStartModule
  dsimp only
  rw [← same]
  split
  · exact ⟨rfl, rfl, rfl, related⟩
  · exact ⟨rfl, rfl, rfl, parts.put _ _ _ _ related rfl⟩

theorem moduleRespects (parts : kernel.Respects R Eq) (neoMode : Bool) :
    (module kernel neoMode).Respects R := by
  have plain (value : Int64) : (constant value : Handler δ).Respects R := fun _ _ _ h => ⟨rfl, h⟩
  simp only [Module.Respects, module, List.forall_mem_cons]
  exact ⟨fun _ _ _ h => ⟨rfl, h.notes _ _⟩, writeRespects, mmapRespects parts, plain _, plain _,
    debugOutRespects, plain _, getCpuTemperatureRespects, loadStartModuleRespects parts, by simp⟩

end Part

end Kernel

structure AudioBackend.Respects (R : δ → δ → Prop) (b : AudioBackend δ) : Prop where
  init : ∀ d e, R d e → (b.init d).1 = (b.init e).1 ∧ R (b.init d).2 (b.init e).2
  openPort : ∀ params d e, R d e →
    (b.openPort params d).1 = (b.openPort params e).1 ∧
      R (b.openPort params d).2 (b.openPort params e).2
  closePort : ∀ handle d e, R d e →
    (b.closePort handle d).1 = (b.closePort handle e).1 ∧
      R (b.closePort handle d).2 (b.closePort handle e).2
  sampleCount : ∀ handle d e, R d e → b.sampleCount handle d = b.sampleCount handle e
  output : ∀ handle pcm d e, R d e →
    (b.output handle pcm d).1 = (b.output handle pcm e).1 ∧
      R (b.output handle pcm d).2 (b.output handle pcm e).2
  setVolume : ∀ handle volume d e, R d e →
    (b.setVolume handle volume d).1 = (b.setVolume handle volume e).1 ∧
      R (b.setVolume handle volume d).2 (b.setVolume handle volume e).2

namespace Audio

section Backend
variable {backend : AudioBackend δ}

theorem initRespects (backs : backend.Respects R) : (init backend).Respects R := by
  refine .paired fun a registers memory d e journal journal' related => ?_
  obtain ⟨same, after⟩ := backs.init _ _ related
  unfold init
  dsimp only
  rw [← same]
  exact ⟨rfl, rfl, rfl, after⟩

theorem openPortRespects (backs : backend.Respects R) : (openPort backend).Respects R := by
  refine .paired fun a registers memory d e journal journal' related => ?_
  obtain ⟨same, after⟩ := backs.openPort _ _ _ related
  unfold openPort
  dsimp only
  rw [← same]
  exact ⟨rfl, rfl, rfl, after⟩

theorem closePortRespects (backs : backend.Respects R) : (closePort backend).Respects R := by
  refine .paired fun a registers memory d e journal journal' related => ?_
  obtain ⟨same, after⟩ := backs.closePort _ _ _ related
  unfold closePort
  dsimp only
  rw [← same]
  exact ⟨rfl, rfl, rfl, after⟩

theorem outputRespects (backs : backend.Respects R) : (output backend).Respects R := by
  refine .paired fun a registers memory d e journal journal' related => ?_
  unfold output
  dsimp only
  rw [← backs.sampleCount _ _ _ related]
  split
  · exact ⟨rfl, rfl, rfl, related⟩
  · split
    · exact ⟨rfl, rfl, rfl, related⟩
    · obtain ⟨same, after⟩ := backs.output _ _ _ _ related
      exact ⟨by rw [same], rfl, rfl, after⟩

theorem setVolumeToRespects (backs : backend.Respects R) (handle : Int32) (volume : Float32)
    {g g' : Guest δ} (related : g.Related R g') :
    (setVolumeTo backend handle volume g).1 = (setVolumeTo backend handle volume g').1 ∧
      (setVolumeTo backend handle volume g).2.Related R
        (setVolumeTo backend handle volume g').2 := by
  obtain ⟨same, after⟩ := backs.setVolume handle volume _ _ related.devices
  unfold setVolumeTo
  dsimp only
  rw [← same]
  exact ⟨rfl, related.registers, related.memory, after⟩

theorem setVolumeRespects (backs : backend.Respects R) : (setVolume backend).Respects R := by
  intro a g g' related
  unfold setVolume
  dsimp only
  rw [← related.memory]
  split
  · exact setVolumeToRespects backs _ _ related
  · split
    · exact ⟨rfl, related⟩
    · exact setVolumeToRespects backs _ _ related

end Backend

theorem getPortStateRespects : (getPortState : Handler δ).Respects R := by
  refine .paired fun a registers memory d e journal journal' related => ?_
  unfold getPortState
  dsimp only
  split
  · exact ⟨rfl, rfl, rfl, related⟩
  · split
    · exact ⟨rfl, rfl, rfl, related⟩
    · split <;> exact ⟨rfl, rfl, rfl, related⟩

theorem getSystemStateRespects : (getSystemState : Handler δ).Respects R := by
  refine .paired fun a registers memory d e journal journal' related => ?_
  unfold getSystemState
  dsimp only
  split
  · exact ⟨rfl, rfl, rfl, related⟩
  · split <;> exact ⟨rfl, rfl, rfl, related⟩

theorem moduleRespects {backend : AudioBackend δ} (backs : backend.Respects R) :
    (module backend).Respects R := by
  simp only [Module.Respects, module, List.forall_mem_cons]
  exact ⟨initRespects backs, openPortRespects backs, closePortRespects backs,
    outputRespects backs, outputRespects backs, setVolumeRespects backs, getPortStateRespects,
    getSystemStateRespects, by simp⟩

end Audio

structure PadBackend.Respects (R : δ → δ → Prop) (b : PadBackend δ) : Prop where
  state : ∀ handle d e, R d e →
    (b.state handle d).1 = (b.state handle e).1 ∧ R (b.state handle d).2 (b.state handle e).2
  setVibration : ∀ handle large small d e, R d e →
    R (b.setVibration handle large small d) (b.setVibration handle large small e)
  clock : ∀ d e, R d e → b.clock d = b.clock e

namespace Pad

section Backend
variable {backend : PadBackend δ}

theorem readRespects (backs : backend.Respects R) : (read backend).Respects R := by
  refine .paired fun a registers memory d e journal journal' related => ?_
  obtain ⟨same, after⟩ := backs.state a.first.toUInt32.toInt32 _ _ related
  unfold read
  dsimp only
  rw [← same, ← backs.clock _ _ after]
  split
  · exact ⟨rfl, rfl, rfl, related⟩
  · cases memory.write a.second (PadData.ofState _ _) <;> exact ⟨rfl, rfl, rfl, after⟩

theorem setVibrationRespects (backs : backend.Respects R) : (setVibration backend).Respects R := by
  refine .paired fun a registers memory d e journal journal' related => ?_
  unfold setVibration
  dsimp only
  split <;> exact ⟨rfl, rfl, rfl, backs.setVibration _ _ _ _ _ related⟩

theorem moduleRespects (backs : backend.Respects R) : (module backend).Respects R := by
  simp only [Module.Respects, module, List.forall_mem_cons]
  exact ⟨readRespects backs, readRespects backs, fun _ _ _ h => ⟨rfl, h.notes _ _⟩,
    fun _ _ _ h => ⟨rfl, h⟩, fun _ _ _ h => ⟨rfl, h⟩, setVibrationRespects backs, by simp⟩

end Backend

end Pad

open Graphics (Decoder)

/- A relation between graphics devices under which they decode alike. What is known of two decoders
may depend on the device that has begun to decode. -/
structure GraphicsDevice.Decodes (S : GraphicsDevice → GraphicsDevice → Prop)
    (Q : GraphicsDevice → Decoder → Decoder → Prop) : Prop where
  congruence : ∀ g, Decoder.Congruence (Q g)
  limit : ∀ g h, S g h → g.limit = h.limit
  decoder : ∀ g h journal other, S g h → Q g (g.decoder journal) (h.decoder other)
  absorb : ∀ g h d e, S g h → Q g d e → S (g.absorb d) (h.absorb e)
  frame : ∀ g h, S g h →
    S { g with outbox := g.outbox.push .frame } { h with outbox := h.outbox.push .frame }

namespace GraphicsDriver

section Part
variable {device : Part δ GraphicsDevice} {S : GraphicsDevice → GraphicsDevice → Prop}
  {Q : GraphicsDevice → Decoder → Decoder → Prop}

theorem submitRespects (parts : device.Respects R S) (decodes : GraphicsDevice.Decodes S Q) :
    (submit device).Respects R := by
  refine .paired fun a registers memory d e journal journal' related => ?_
  have part := parts.get _ _ related
  obtain ⟨decoded, same⟩ := Decoder.submitKeeps (decodes.congruence _) memory
    (device.get d).limit a.first.toUInt32 a.second a.third
    (decodes.decoder _ _ journal journal' part)
  have after := parts.put _ _ _ _ related (decodes.absorb _ _ _ _ part decoded)
  unfold submit
  dsimp only
  rw [← decodes.limit _ _ part, ← same]
  split <;> exact ⟨rfl, rfl, rfl, after⟩

theorem submitDoneRespects (parts : device.Respects R S) (decodes : GraphicsDevice.Decodes S Q) :
    (submitDone device).Respects R := fun _ _ _ related =>
  ⟨rfl, related.registers, related.memory, parts.put _ _ _ _ related.devices
    (decodes.frame _ _ (parts.get _ _ related.devices))⟩

theorem moduleRespects (parts : device.Respects R S) (decodes : GraphicsDevice.Decodes S Q) :
    (module device).Respects R := by
  simp only [Module.Respects, module, List.forall_mem_cons]
  exact ⟨submitRespects parts decodes, submitDoneRespects parts decodes,
    fun _ _ _ h => ⟨rfl, h⟩, by simp⟩

end Part

end GraphicsDriver

abbrev Dispatcher.Respects (R : δ → δ → Prop) (d : Dispatcher δ) : Prop :=
  d.Each fun _ handler => handler.Respects R

namespace Dispatcher

def missing (s : Registers) : Event :=
  .of .warn "unimplemented syscall"
    [("syscall", .text (name (s.get .rax))), ("num", .count (s.get .rax).toNat)]

def call (s : Registers) : Event :=
  .of .trace "syscall" [("syscall", .text (name (s.get .rax))),
    ("args", .counts ((Arguments.ofRegisters s).toList.map UInt64.toNat))]

def answer (number : UInt64) (outcome : Outcome) (g : Guest δ) : Guest δ :=
  let failure : Event := .of .warn "syscall failed"
    [("syscall", .text (name number)), ("value", .signed outcome.value.toInt),
      ("error", .text (outcome.error.getD ""))]
  (if outcome.success then g else g.note failure).set .rax outcome.value.toUInt64

theorem answerRelated {first second : Outcome} {g h : Guest δ} (same : first = second)
    (related : g.Related R h) (number : UInt64) :
    (answer number first g).Related R (answer number second h) := by
  subst same
  refine Guest.Related.set ?_ _ _
  split
  · exact related
  · exact related.notes _ _

theorem dispatchMissing {d : Dispatcher δ} {g : Guest δ}
    (place : d.handlers.find? (g.registers.get .rax) = none) :
    d.dispatch g = ({ d with total := d.total + 1, unimplemented := d.unimplemented + 1 },
      (g.note (missing g.registers)).set .rax 0) := by
  simp only [dispatch, place, missing]

theorem dispatchFound {d : Dispatcher δ} {g : Guest δ} {handler : Handler δ}
    (place : d.handlers.find? (g.registers.get .rax) = some handler) :
    d.dispatch g = ({ d with total := d.total + 1 }, answer (g.registers.get .rax)
      (handler (Arguments.ofRegisters g.registers) (g.note (call g.registers))).1
      (handler (Arguments.ofRegisters g.registers) (g.note (call g.registers))).2) := by
  unfold dispatch
  dsimp only
  rw [place]
  dsimp only [answer, call]

theorem dispatchCounts (d : Dispatcher δ) {g h : Guest δ} (same : g.registers = h.registers) :
    (d.dispatch g).1.handlers = d.handlers ∧ (d.dispatch g).1 = (d.dispatch h).1 := by
  cases place : d.handlers.find? (g.registers.get .rax) with
  | none =>
    rw [dispatchMissing place, dispatchMissing (same ▸ place)]
    exact ⟨rfl, rfl⟩
  | some handler =>
    rw [dispatchFound place, dispatchFound (same ▸ place)]
    exact ⟨rfl, rfl⟩

theorem dispatchRelated {d e : Dispatcher δ} (same : d.handlers = e.handlers)
    (respects : d.Respects R) {g h : Guest δ} (related : g.Related R h) :
    (d.dispatch g).2.Related R (e.dispatch h).2 := by
  have number := congrArg (Registers.get · .rax) related.registers
  cases place : d.handlers.find? (g.registers.get .rax) with
  | none =>
    have other : e.handlers.find? (h.registers.get .rax) = none := by rw [← same, ← number, place]
    rw [dispatchMissing place, dispatchMissing other]
    exact (related.notes _ _).set .rax 0
  | some handler =>
    have other : e.handlers.find? (h.registers.get .rax) = some handler := by
      rw [← same, ← number, place]
    obtain ⟨outcome, after⟩ := respects _ _ place (Arguments.ofRegisters g.registers) _ _
      (related.notes (call g.registers) (call g.registers))
    rw [dispatchFound place, dispatchFound other, ← related.registers]
    exact answerRelated outcome after _

end Dispatcher

namespace Hosted

structure Related (R : δ → δ → Prop) (first second : Hosted δ) : Prop where
  handlers : first.dispatcher.handlers = second.dispatcher.handlers
  respects : first.dispatcher.Respects R
  devices : R first.devices second.devices

theorem dispatchRelated {g h : Guest (Hosted δ)} (related : g.Related (Related R) h) :
    (dispatch g).Related (Related R) (dispatch h) := by
  obtain ⟨registers, memory, ⟨d, devices⟩, journal⟩ := g
  obtain ⟨_, _, ⟨e, others⟩, journal'⟩ := h
  obtain ⟨rfl, rfl, handlers, respects, related⟩ := related
  have after := Dispatcher.dispatchRelated handlers respects
    (g := ⟨registers, memory, devices, journal⟩) (h := ⟨registers, memory, others, journal'⟩)
    ⟨rfl, rfl, related⟩
  have first := (d.dispatchCounts (g := ⟨registers, memory, devices, journal⟩) rfl).1
  have second := (e.dispatchCounts (g := ⟨registers, memory, others, journal'⟩) rfl).1
  refine ⟨after.registers, after.memory, first.trans (handlers.trans second.symm), ?_,
    after.devices⟩
  exact fun number handler place => respects number handler (first ▸ place)

theorem trapsRelated (control control' : Control) :
    TrapsRelated (Related R) Eq (Guest.trap (some (handler : TrapHandler (Hosted δ))) control)
      (Guest.trap (some handler) control') :=
  fun _ _ related => ⟨dispatchRelated related, rfl⟩

end Hosted

end GameConsole.Syscall
