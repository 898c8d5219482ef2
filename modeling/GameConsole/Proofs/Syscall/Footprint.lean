import GameConsole.Proofs.Memory.Alignment
import GameConsole.Proofs.Memory.Confinement
import GameConsole.Proofs.Syscall.Reports

/-! What a system call can change beside its devices. Few calls write memory, and each of them in
ranges that its number and its arguments name; the only register that changes is the one with the
result. A call that fails leaves memory as it was, but for one that writes two words. -/
namespace GameConsole.Syscall

open Memory (Reach)

variable {δ : Type}

namespace Number

def writers : List UInt64 :=
  [audioOutGetPortState, audioOutGetSystemState, padRead, padReadState, getCpuTemperature]

end Number

def written (number : UInt64) (a : Arguments) : List Reach :=
  if number = Number.audioOutGetSystemState ∨ number = Number.getCpuTemperature then
    [⟨a.first, 4, 4⟩]
  else if number = Number.audioOutGetPortState then [⟨a.second, 4, 4⟩, ⟨a.second + 4, 4, 4⟩]
  else if number = Number.padRead ∨ number = Number.padReadState then
    [⟨a.second, PlainData.size PadData, PlainData.align PadData⟩]
  else []

theorem writtenNothing {number : UInt64} (other : number ∉ Number.writers) (a : Arguments) :
    written number a = [] := by
  simp only [Number.writers, List.mem_cons, List.not_mem_nil, or_false, not_or] at other
  obtain ⟨port, system, read, readState, temperature⟩ := other
  simp only [written, port, system, read, readState, temperature, or_self, if_false]

def Handler.Stays (h : Handler δ) (ranges : Arguments → List Reach) : Prop :=
  ∀ a g, (h a g).2.registers = g.registers ∧ g.memory.Confined (h a g).2.memory (ranges a)

def Handler.Undoes (h : Handler δ) : Prop :=
  ∀ a g, (h a g).1.success = false → (h a g).2.memory = g.memory

def Handler.Spares (h : Handler δ) : Prop :=
  ∀ a g, (h a g).2.registers = g.registers ∧ (h a g).2.memory = g.memory

structure Handler.Tidy (h : Handler δ) (ranges : Arguments → List Reach) : Prop where
  stays : h.Stays ranges
  undoes : h.Undoes

theorem Handler.Spares.tidy {h : Handler δ} (spares : h.Spares) (ranges : Arguments → List Reach) :
    h.Tidy ranges where
  stays a g := by
    obtain ⟨registers, memory⟩ := spares a g
    rw [memory]
    exact ⟨registers, .refl _ _⟩
  undoes a g _ := (spares a g).2

namespace Kernel

theorem writeSpares : (write : Handler δ).Spares := by
  intro a g
  unfold write
  dsimp only
  split
  · exact ⟨rfl, rfl⟩
  · split <;> exact ⟨rfl, rfl⟩

theorem debugOutSpares : (debugOut : Handler δ).Spares := by
  intro a g
  unfold debugOut
  split <;> exact ⟨rfl, rfl⟩

theorem loadStartModuleSpares (kernel : Part δ Kernel) : (loadStartModule kernel).Spares := by
  intro a g
  unfold loadStartModule
  split <;> exact ⟨rfl, rfl⟩

end Kernel

namespace Audio

theorem outputSpares (backend : AudioBackend δ) : (output backend).Spares := by
  intro a g
  unfold output
  dsimp only
  split
  · exact ⟨rfl, rfl⟩
  · split <;> exact ⟨rfl, rfl⟩

theorem setVolumeSpares (backend : AudioBackend δ) : (setVolume backend).Spares := by
  intro a g
  unfold setVolume
  dsimp only
  split
  · exact ⟨rfl, rfl⟩
  · split <;> exact ⟨rfl, rfl⟩

end Audio

theorem Pad.setVibrationSpares (backend : PadBackend δ) : (setVibration backend).Spares := by
  intro a g
  unfold setVibration
  dsimp only
  split <;> exact ⟨rfl, rfl⟩

theorem GraphicsDriver.submitSpares (device : Part δ GraphicsDevice) : (submit device).Spares := by
  intro a g
  unfold submit
  dsimp only
  split <;> exact ⟨rfl, rfl⟩

section Writing

def conclude (g : Guest δ) : Except MemoryFault Memory → Outcome × Guest δ
  | .error fault => (.faulted fault, g)
  | .ok memory => (.ok 0, { g with memory })

theorem concludeUndoes (g : Guest δ) (attempt : Except MemoryFault Memory)
    (fails : (conclude g attempt).1.success = false) :
    (conclude g attempt).2.memory = g.memory := by
  cases attempt with
  | error fault => rfl
  | ok memory => cases fails

theorem concludeStays (g : Guest δ) {attempt : Except MemoryFault Memory} {r : Reach}
    (written : ∀ {memory}, attempt = .ok memory → g.memory.Confined memory [r]) :
    (conclude g attempt).2.registers = g.registers ∧
      g.memory.Confined (conclude g attempt).2.memory [r] := by
  cases attempt with
  | error fault => exact ⟨rfl, .refl _ _⟩
  | ok memory => exact ⟨rfl, written rfl⟩

end Writing

theorem Kernel.getCpuTemperatureTidy :
    (getCpuTemperature : Handler δ).Tidy fun a => [⟨a.first, 4, 4⟩] := by
  have ends (a : Arguments) (g : Guest δ) : getCpuTemperature a g =
      if a.first = 0 then (.ok 0, g)
      else conclude g (g.memory.writeU32 a.first temperature) := rfl
  constructor <;> intro a g <;> rw [ends] <;> split
  · exact ⟨rfl, .refl _ _⟩
  · exact concludeStays g Memory.writeU32Confined
  · exact fun _ => rfl
  · exact concludeUndoes g _

theorem Audio.getSystemStateTidy :
    (getSystemState : Handler δ).Tidy fun a => [⟨a.first, 4, 4⟩] := by
  have ends (a : Arguments) (g : Guest δ) : getSystemState a g =
      if a.first = 0 then (.ok 0, g) else conclude g (g.memory.writeU32 a.first 1) := rfl
  constructor <;> intro a g <;> rw [ends] <;> split
  · exact ⟨rfl, .refl _ _⟩
  · exact concludeStays g Memory.writeU32Confined
  · exact fun _ => rfl
  · exact concludeUndoes g _

theorem PadData.encodeLength (d : PadData) :
    (PlainData.encode d).length = PlainData.size PadData := by
  change d.encode.length = 0x68
  simp only [PadData.encode, List.length_append, List.length_cons, List.length_nil,
    Vector.length_toList, PlainData.Lawful.encodeLength]
  rfl

theorem Pad.readTidy (backend : PadBackend δ) :
    (read backend).Tidy fun a =>
      [⟨a.second, PlainData.size PadData, PlainData.align PadData⟩] := by
  have ends (a : Arguments) (g : Guest δ) : ∃ (devices : δ) (data : PadData), read backend a g =
      if a.second = 0 then (.failed (-1) "null output pointer", g)
      else conclude { g with devices } (g.memory.write a.second data) := ⟨_, _, rfl⟩
  constructor <;> intro a g <;> obtain ⟨devices, data, same⟩ := ends a g <;> rw [same] <;> split
  · exact ⟨rfl, .refl _ _⟩
  · exact concludeStays { g with devices } (Memory.writeConfined (by decide) data.encodeLength)
  · exact fun _ => rfl
  · exact concludeUndoes { g with devices } _

def Audio.HalfStored (a : Arguments) (g after : Guest δ) : Prop :=
  ∃ memory fault, g.memory.writeU32 a.second 1 = .ok memory ∧
    memory.writeU32 (a.second + 4) 0 = .error fault ∧ after = { g with memory }

namespace Audio

theorem getPortStateDevices (a : Arguments) (g : Guest δ) :
    (getPortState a g).2.devices = g.devices := by
  unfold getPortState
  split
  · rfl
  · split
    · rfl
    · split <;> rfl

theorem getSystemStateDevices (a : Arguments) (g : Guest δ) :
    (getSystemState a g).2.devices = g.devices := by
  unfold getSystemState
  split
  · rfl
  · split <;> rfl

theorem getPortStateStays :
    (getPortState : Handler δ).Stays fun a => [⟨a.second, 4, 4⟩, ⟨a.second + 4, 4, 4⟩] := by
  intro a g
  unfold getPortState
  split
  · exact ⟨rfl, .refl _ _⟩
  cases first : g.memory.writeU32 a.second 1 with
  | error fault => exact ⟨rfl, .refl _ _⟩
  | ok memory =>
    have half := Memory.writeU32Confined first
    dsimp only
    cases second : memory.writeU32 (a.second + 4) 0 with
    | error fault => exact ⟨rfl, half.widen (by simp)⟩
    | ok after => exact ⟨rfl, half.trans (Memory.writeU32Confined second)⟩

theorem getPortStateFails (a : Arguments) (g : Guest δ)
    (fails : (getPortState a g).1.success = false) :
    (getPortState a g).2.memory = g.memory ∨ HalfStored a g (getPortState a g).2 := by
  unfold getPortState at fails ⊢
  by_cases null : a.second = 0
  · rw [if_pos null] at fails
    cases fails
  rw [if_neg null] at fails ⊢
  cases first : g.memory.writeU32 a.second 1 with
  | error fault => exact .inl rfl
  | ok memory =>
    rw [first] at fails
    dsimp only at fails ⊢
    cases second : memory.writeU32 (a.second + 4) 0 with
    | error fault => exact .inr ⟨memory, fault, first, second, rfl⟩
    | ok after =>
      rw [second] at fails
      cases fails

theorem halfStoredLenient {a : Arguments} {g after : Guest δ} (half : HalfStored a g after) :
    g.memory.enforceAlignment = false := by
  obtain ⟨memory, fault, first, second, -⟩ := half
  by_contra enforced
  obtain ⟨granted, -⟩ := Memory.writeWordOkIff.mp first
  have next := Memory.nextWordGranted (by simpa using enforced) granted
  obtain ⟨bytes, rfl⟩ := (Memory.writeU32Confined first).shape
  cases second.symm.trans (Memory.writeWordOkIff.mpr ⟨next, rfl⟩)

end Audio

structure Handler.Bounded (number : UInt64) (h : Handler δ) : Prop where
  stays : h.Stays (written number)
  fails : ∀ a g, (h a g).1.success = false → (h a g).2.memory = g.memory ∨
    number = Number.audioOutGetPortState ∧ Audio.HalfStored a g (h a g).2

theorem Handler.Tidy.bounded {h : Handler δ} {number : UInt64} (tidy : h.Tidy (written number)) :
    h.Bounded number :=
  ⟨tidy.stays, fun a g fails => .inl (tidy.undoes a g fails)⟩

theorem Handler.Spares.bounded {h : Handler δ} {number : UInt64} (spares : h.Spares) :
    h.Bounded number :=
  (spares.tidy _).bounded

theorem Kernel.moduleBounded (kernel : Part δ Kernel) (neoMode : Bool) :
    (module kernel neoMode).Each Handler.Bounded := by
  have plain (value : Int64) : (constant value : Handler δ).Spares := fun _ _ => ⟨rfl, rfl⟩
  have exits : (exit : Handler δ).Spares := fun _ _ => ⟨rfl, rfl⟩
  have maps : (mmap kernel).Spares := fun _ _ => ⟨rfl, rfl⟩
  simp only [Module.Each, module, List.forall_mem_cons]
  exact ⟨exits.bounded, writeSpares.bounded, maps.bounded, (plain _).bounded, (plain _).bounded,
    debugOutSpares.bounded, (plain _).bounded,
    Handler.Tidy.bounded getCpuTemperatureTidy,
    (loadStartModuleSpares kernel).bounded, by simp⟩

theorem Audio.moduleBounded (backend : AudioBackend δ) :
    (module backend).Each Handler.Bounded := by
  have inits : (init backend).Spares := fun _ _ => ⟨rfl, rfl⟩
  have opens : (openPort backend).Spares := fun _ _ => ⟨rfl, rfl⟩
  have closes : (closePort backend).Spares := fun _ _ => ⟨rfl, rfl⟩
  simp only [Module.Each, module, List.forall_mem_cons]
  exact ⟨inits.bounded, opens.bounded, closes.bounded, (outputSpares backend).bounded,
    (outputSpares backend).bounded, (setVolumeSpares backend).bounded,
    ⟨getPortStateStays, fun a g fails =>
      (getPortStateFails a g fails).imp id fun half => ⟨rfl, half⟩⟩,
    Handler.Tidy.bounded getSystemStateTidy, by simp⟩

theorem Pad.moduleBounded (backend : PadBackend δ) : (module backend).Each Handler.Bounded := by
  have opens : (openPad : Handler δ).Spares := fun _ _ => ⟨rfl, rfl⟩
  have acknowledges : (acknowledge : Handler δ).Spares := fun _ _ => ⟨rfl, rfl⟩
  simp only [Module.Each, module, List.forall_mem_cons]
  exact ⟨Handler.Tidy.bounded (readTidy backend), Handler.Tidy.bounded (readTidy backend),
    opens.bounded, acknowledges.bounded, acknowledges.bounded,
    (setVibrationSpares backend).bounded, by simp⟩

theorem GraphicsDriver.moduleBounded (device : Part δ GraphicsDevice) :
    (module device).Each Handler.Bounded := by
  have done : (submitDone device).Spares := fun _ _ => ⟨rfl, rfl⟩
  have clock : (coreClock : Handler δ).Spares := fun _ _ => ⟨rfl, rfl⟩
  simp only [Module.Each, module, List.forall_mem_cons]
  exact ⟨(submitSpares device).bounded, done.bounded, clock.bounded, by simp⟩

namespace Dispatcher

theorem dispatchHandlers (d : Dispatcher δ) (g : Guest δ) :
    (d.dispatch g).1.handlers = d.handlers := by
  cases place : d.handlers.find? (g.registers.get .rax) with
  | none => rw [dispatchMissing place]
  | some handler => rw [dispatchFound place]

def serve (d : Dispatcher δ) (guests : List (Guest δ)) : Dispatcher δ :=
  guests.foldl (fun d g => (d.dispatch g).1) d

theorem serveHandlers (d : Dispatcher δ) (guests : List (Guest δ)) :
    (d.serve guests).handlers = d.handlers := by
  induction guests generalizing d with
  | nil => rfl
  | cons g rest ih => exact (ih (d.dispatch g).1).trans (d.dispatchHandlers g)

theorem dispatchServes {d : Dispatcher δ} {g : Guest δ} {handler : Handler δ}
    (place : d.handlers.find? (g.registers.get .rax) = some handler) :
    let served := handler (.ofRegisters g.registers) (g.note (call g.registers))
    (d.dispatch g).2.registers = served.2.registers.set .rax served.1.value.toUInt64 ∧
      (d.dispatch g).2.memory = served.2.memory ∧ (d.dispatch g).2.devices = served.2.devices := by
  intro served
  rw [dispatchFound place]
  unfold answer
  dsimp only
  split <;> exact ⟨rfl, rfl, rfl⟩

theorem dispatchBounded {d : Dispatcher δ} (bounded : d.Each Handler.Bounded) (g : Guest δ) :
    (∃ value, (d.dispatch g).2.registers = g.registers.set .rax value) ∧
      g.memory.Confined (d.dispatch g).2.memory
        (written (g.registers.get .rax) (.ofRegisters g.registers)) := by
  cases place : d.handlers.find? (g.registers.get .rax) with
  | none =>
    rw [dispatchMissing place]
    exact ⟨⟨0, rfl⟩, .refl _ _⟩
  | some handler =>
    obtain ⟨registers, memory⟩ := (bounded _ _ place).stays (.ofRegisters g.registers)
      (g.note (call g.registers))
    obtain ⟨result, same, -⟩ := dispatchServes place
    rw [result, registers, same]
    exact ⟨⟨_, rfl⟩, memory⟩

end Dispatcher

section BuiltIn
variable (kernel : Part δ Kernel) (neoMode : Bool) (audio : AudioBackend δ) (pad : PadBackend δ)
  (graphics : Part δ GraphicsDevice)

def builtIn : List (Module δ) :=
  [Kernel.module kernel neoMode, Audio.module audio, Pad.module pad, GraphicsDriver.module graphics]

theorem builtInDistinct :
    (((builtIn kernel neoMode audio pad graphics).flatMap Module.handlers).map Prod.fst).Nodup := by
  open Number in
  change List.Nodup [exit, write, mmap, getpid, getuid, debugOut, isNeoMode, getCpuTemperature,
    loadStartModule, audioOutInit, audioOutOpen, audioOutClose, audioOutOutput, audioOutOutputs,
    audioOutSetVolume, audioOutGetPortState, audioOutGetSystemState, padReadState, padRead, padOpen,
    padGetHandle, padClose, padSetVibration, submitCommandBuffers, submitDone,
    getGpuCoreClockFrequency]
  decide

theorem builtInFinds {order : List (Module δ)}
    (installed : order.Subperm (builtIn kernel neoMode audio pad graphics)) {m : Module δ}
    (present : m ∈ order) {entry : UInt64 × Handler δ} (listed : entry ∈ m.handlers) :
    (Dispatcher.empty.installAll order).1.handlers.find? entry.1 = some entry.2 := by
  obtain ⟨chosen, same, among⟩ := installed
  refine Dispatcher.installAllFinds _ ?_ present listed
  refine ((same.flatMap_right _).map _).nodup_iff.mp ?_
  exact (builtInDistinct kernel neoMode audio pad graphics).sublist ((among.flatMap _).map _)

theorem builtInBounded :
    ∀ m ∈ builtIn kernel neoMode audio pad graphics, m.Each Handler.Bounded := by
  simp only [builtIn, List.forall_mem_cons]
  exact ⟨Kernel.moduleBounded kernel neoMode, Audio.moduleBounded audio, Pad.moduleBounded pad,
    GraphicsDriver.moduleBounded graphics, by simp⟩

/- Whatever the modules have been through, which is what the devices of the guest tell, a call
changes RAX, and memory in the ranges of its number only. -/
theorem dispatchStaysInside {order : List (Module δ)}
    (installed : order.Perm (builtIn kernel neoMode audio pad graphics))
    (earlier : List (Guest δ)) (g : Guest δ) :
    let after := (((Dispatcher.empty.installAll order).1.serve earlier).dispatch g).2
    let number := g.registers.get .rax
    (∃ value, after.registers = g.registers.set .rax value) ∧
      g.memory.Confined after.memory (written number (.ofRegisters g.registers)) ∧
      (number ∉ Number.writers → after.memory = g.memory) := by
  intro after number
  have each : (Dispatcher.empty.installAll order).1.Each Handler.Bounded :=
    Dispatcher.installAllEach Dispatcher.emptyEach fun m member =>
      builtInBounded kernel neoMode audio pad graphics m (installed.subset member)
  have bounded : ((Dispatcher.empty.installAll order).1.serve earlier).Each Handler.Bounded := by
    intro number handler found
    rw [Dispatcher.serveHandlers] at found
    exact each number handler found
  obtain ⟨result, confined⟩ := Dispatcher.dispatchBounded bounded g
  refine ⟨result, confined, fun other => ?_⟩
  rw [writtenNothing other] at confined
  exact confined.same

theorem dispatchStaysInsideGetpid :
    let order := (Devices.modules true).reverse
    let g : Guest Devices := ⟨Registers.powerOn.set .rax Number.getpid,
      (Memory.zeros 4 (by decide) false).store 5 [7], .initial 8, .empty⟩
    order.Perm (Devices.modules true) ∧ g.registers.get .rax ∉ Number.writers ∧
      ((Dispatcher.empty.installAll order).1.dispatch g).2.memory = g.memory := by
  intro order g
  have turned : order.Perm (Devices.modules true) := List.reverse_perm _
  have other : g.registers.get .rax ∉ Number.writers := by decide
  exact ⟨turned, other, (dispatchStaysInside _ _ _ _ _ turned [] g).2.2 other⟩

/- A handler that reports failure has left memory alone, but for the one that stores two words: it
has stored the first if only the second lies across the end of the buffer. Where alignment is
enforced there are no such words. -/
theorem failureKeepsMemory {m : Module δ} (builtin : m ∈ builtIn kernel neoMode audio pad graphics)
    {number : UInt64} {handler : Handler δ} (listed : (number, handler) ∈ m.handlers)
    (a : Arguments) (g : Guest δ) (fails : (handler a g).1.success = false) :
    (handler a g).2.memory = g.memory ∨ number = Number.audioOutGetPortState ∧
      g.memory.enforceAlignment = false ∧ Audio.HalfStored a g (handler a g).2 := by
  have bounded := builtInBounded kernel neoMode audio pad graphics m builtin _ listed
  refine (bounded.fails a g fails).imp id fun half => ?_
  exact ⟨half.1, Audio.halfStoredLenient half.2, half.2⟩

theorem failureKeepsMemoryUnlessHalfStored :
    let g : Guest Devices := ⟨.powerOn, Memory.zeros 4 (by decide) false, .initial 8, .empty⟩
    let a : Arguments := ⟨0, 0x40000A, 0, 0, 0, 0⟩
    (Audio.getPortState a g).1.success = false ∧
      Audio.HalfStored a g (Audio.getPortState a g).2 := by
  intro g a
  have fails : (Audio.getPortState a g).1.success = false := by decide +kernel
  have changed : (Audio.getPortState a g).2.memory ≠ g.memory := fun same => by
    have byte := congrArg (fun m : Memory => m.byte 10) same
    revert byte
    decide +kernel
  have builtin : Devices.audioModule ∈ builtIn Devices.kernelPart true
      (NullAudio.backend Devices.audioPart) (NullPad.backend Devices.padPart)
      Devices.graphicsPart := .tail _ (.head _)
  have listed : (Number.audioOutGetPortState, Audio.getPortState) ∈
      Devices.audioModule.handlers := by
    simp [Devices.audioModule, Audio.module]
  obtain same | ⟨-, -, half⟩ := failureKeepsMemory _ _ _ _ _ builtin listed a g fails
  · exact absurd same changed
  · exact ⟨fails, half⟩

end BuiltIn

theorem portStateHalfStored :
    let g : Guest Devices :=
      ⟨.powerOn, Memory.zeros 16 (by decide) false, .initial 8, .empty⟩
    let a : Arguments := ⟨0, 0x40FFFA, 0, 0, 0, 0⟩
    (Audio.getPortState a g).1.value = -14 ∧ (Audio.getPortState a g).1.success = false ∧
      g.memory.byte 0xFFFA = 0 ∧ (Audio.getPortState a g).2.memory.byte 0xFFFA = 1 := by
  decide +kernel

end GameConsole.Syscall
