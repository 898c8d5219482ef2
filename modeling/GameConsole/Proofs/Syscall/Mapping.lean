import GameConsole.Proofs.Syscall.Footprint

/-! The memory map that a guest is given. The next free address moves on by whole pages with every
call, also with one that asks for an address of its own, and it wraps; so what is given out is
always aligned, and two mappings are apart exactly as long as the addresses between them have not
been gone through more than once. -/
namespace GameConsole

namespace AddressSpace

theorem pageBelow (value : UInt64) :
    (value &&& ~~~(pageSize - 1)).toNat = value.toNat / 4096 * 4096 := by
  have mask : (~~~(pageSize - 1)).toNat = (2 ^ 52 - 1) * 2 ^ 12 := by decide
  rw [UInt64.toNat_and, mask, show 4096 = 2 ^ 12 from rfl]
  apply Nat.eq_of_testBit_eq
  intro i
  rw [Nat.testBit_and, Nat.testBit_mul_two_pow, Nat.testBit_mul_two_pow, Nat.testBit_div_two_pow,
    Nat.testBit_two_pow_sub_one]
  by_cases kept : 12 ≤ i
  · rw [Nat.sub_add_cancel kept]
    by_cases inside : i < 64
    · have short : i - 12 < 52 := by omega
      simp [kept, short]
    · have beyond : value.toNat < 2 ^ i :=
        Nat.lt_of_lt_of_le value.toNat_lt (Nat.pow_le_pow_right (by decide) (by omega))
      simp [Nat.testBit_lt_two_pow beyond]
  · simp [kept]

theorem pageAlignUpToNat (value : UInt64) :
    (pageAlignUp value).toNat =
      if value.toNat + 4095 < 2 ^ 64 then (value.toNat + 4095) / 4096 * 4096
      else 2 ^ 64 - 4096 := by
  have bound := value.toNat_lt
  have raised : (value + (pageSize - 1)).toNat = (value.toNat + 4095) % 2 ^ 64 := by
    rw [UInt64.toNat_add]
    rfl
  have wraps : value + (pageSize - 1) < value ↔ 2 ^ 64 ≤ value.toNat + 4095 := by
    rw [UInt64.lt_iff_toNat_lt, raised]
    omega
  rw [pageAlignUp, pageBelow]
  by_cases fits : value.toNat + 4095 < 2 ^ 64
  · rw [if_neg (by rw [wraps]; omega), if_pos fits, raised, Nat.mod_eq_of_lt fits]
  · rw [if_pos (by rw [wraps]; omega), if_neg fits]
    rfl

end AddressSpace

namespace Syscall

open AddressSpace (pageSize pageAlignUp pageAlignUpToNat heapBase)

structure Mapping where
  wanted : UInt64
  length : UInt64
  start : UInt64
  deriving DecidableEq, Repr

namespace Mapping

def Anonymous (m : Mapping) : Prop := m.wanted = 0 ∧ m.length ≠ 0

def Holds (m : Mapping) (address : Nat) : Prop :=
  m.start.toNat ≤ address ∧ address < m.start.toNat + m.length.toNat

def Overlaps (a b : Mapping) : Prop := ∃ address, a.Holds address ∧ b.Holds address

def extent (m : Mapping) : Nat := (pageAlignUp m.length).toNat

def extents (maps : List Mapping) : Nat := (maps.map extent).sum

/- Mappings given out one after the other from an address on. -/
inductive Placed : UInt64 → List Mapping → Prop where
  | done (next : UInt64) : Placed next []
  | mapping {next : UInt64} {m : Mapping} {later : List Mapping}
      (start : m.start = if m.wanted = 0 then next else m.wanted)
      (tail : Placed (next + pageAlignUp m.length) later) : Placed next (m :: later)

theorem startPlaced {next : UInt64} {before after : List Mapping} {m : Mapping}
    (placed : Placed next (before ++ m :: after)) (anonymous : m.wanted = 0) :
    m.start.toNat = (next.toNat + extents before) % 2 ^ 64 := by
  induction before generalizing next with
  | nil =>
    cases placed with
    | mapping start _ =>
      rw [start, if_pos anonymous]
      exact (Nat.mod_eq_of_lt next.toNat_lt).symm
  | cons first rest ih =>
    cases placed with
    | mapping _ tail =>
      rw [ih tail, UInt64.toNat_add, Nat.mod_add_mod, Nat.add_assoc]
      rfl

theorem extentAligned (m : Mapping) : pageSize.toNat ∣ m.extent := by
  change 4096 ∣ (pageAlignUp m.length).toNat
  rw [pageAlignUpToNat]
  split
  · exact Nat.dvd_mul_left _ _
  · decide

theorem extentsAligned (maps : List Mapping) : pageSize.toNat ∣ extents maps := by
  induction maps with
  | nil => exact Nat.dvd_zero _
  | cons m rest ih => exact Nat.dvd_add m.extentAligned ih

theorem extentEnough (m : Mapping) : m.length.toNat ≤ m.extent ∨ m.extent = 2 ^ 64 - 4096 := by
  unfold extent
  rw [pageAlignUpToNat]
  split
  · left
    omega
  · exact .inr rfl

theorem startAligned {next : UInt64} {before after : List Mapping} {m : Mapping}
    (placed : Placed next (before ++ m :: after)) (aligned : pageSize.toNat ∣ next.toNat)
    (anonymous : m.wanted = 0) : pageSize.toNat ∣ m.start.toNat := by
  have whole : pageSize.toNat ∣ 2 ^ 64 := by decide
  rw [startPlaced placed anonymous, Nat.dvd_mod_iff whole]
  exact Nat.dvd_add aligned (extentsAligned before)

theorem overlapsIff {a b : Mapping} (first : 0 < a.length.toNat) (second : 0 < b.length.toNat) :
    a.Overlaps b ↔ a.start.toNat < b.start.toNat + b.length.toNat ∧
      b.start.toNat < a.start.toNat + a.length.toNat := by
  constructor
  · rintro ⟨address, ⟨_, _⟩, ⟨_, _⟩⟩
    omega
  · rintro ⟨_, _⟩
    refine ⟨max a.start.toNat b.start.toNat, ?_, ?_⟩
    · exact ⟨Nat.le_max_left _ _, by omega⟩
    · exact ⟨Nat.le_max_right _ _, by omega⟩

def distance (a : Mapping) (between : List Mapping) : Nat := extents (a :: between) % 2 ^ 64

theorem apartIff {next : UInt64} {before between after : List Mapping} {a b : Mapping}
    (placed : Placed next (before ++ a :: (between ++ b :: after))) (first : a.Anonymous)
    (second : b.Anonymous) :
    ¬ a.Overlaps b ↔
      if a.start.toNat + distance a between < 2 ^ 64 then a.length.toNat ≤ distance a between
      else distance a between + b.length.toNat ≤ 2 ^ 64 := by
  have positive {m : Mapping} (anonymous : m.Anonymous) : 0 < m.length.toNat := by
    have other := mt UInt64.toNat_inj.mp anonymous.2
    exact Nat.pos_of_ne_zero other
  have behind : b.start.toNat = (a.start.toNat + distance a between) % 2 ^ 64 := by
    have again : Placed next ((before ++ a :: between) ++ b :: after) := by simpa using placed
    rw [startPlaced again second.1, startPlaced placed first.1]
    simp only [distance, extents, List.map_append, List.sum_append, ← Nat.add_assoc,
      Nat.mod_add_mod, Nat.add_mod_mod]
  have inside : distance a between < 2 ^ 64 := Nat.mod_lt _ (by decide)
  have bound := a.start.toNat_lt
  rw [overlapsIff (positive first) (positive second), behind]
  have := positive first
  have := positive second
  split <;> omega

theorem apartBeforeWrap {next : UInt64} {before between after : List Mapping} {a b : Mapping}
    (placed : Placed next (before ++ a :: (between ++ b :: after))) (first : a.Anonymous)
    (second : b.Anonymous) (base : pageSize.toNat ≤ next.toNat)
    (room : next.toNat + extents (before ++ a :: between) < 2 ^ 64) : ¬ a.Overlaps b := by
  have paged : 4096 ≤ next.toNat := base
  have total : extents (before ++ a :: between) = extents before + extents (a :: between) := by
    simp [extents]
  have own : extents (a :: between) = a.extent + extents between := rfl
  have start := startPlaced placed first.1
  rw [apartIff placed first second, distance]
  rw [total] at room
  rw [Nat.mod_eq_of_lt (by omega)] at start
  rw [Nat.mod_eq_of_lt (by omega), if_pos (by omega), own]
  obtain enough | huge := a.extentEnough <;> omega

end Mapping

def Handler.Keeps {δ β : Type} (f : δ → β) (h : Handler δ) : Prop :=
  ∀ a g, f (h a g).2.devices = f g.devices

namespace Devices

def nextMapping (d : Devices) : UInt64 := d.kernel.nextMapping

def SparesMappings (number : UInt64) (h : Handler Devices) : Prop :=
  number ≠ Number.mmap → h.Keeps nextMapping

theorem kernelKeepsMappings (neoMode : Bool) : (kernelModule neoMode).Each SparesMappings := by
  have writes : (Kernel.write : Handler Devices).Keeps nextMapping := by
    intro a g
    unfold Kernel.write
    dsimp only
    split
    · rfl
    · split <;> rfl
  have prints : (Kernel.debugOut : Handler Devices).Keeps nextMapping := by
    intro a g
    unfold Kernel.debugOut
    split <;> rfl
  have measures : (Kernel.getCpuTemperature : Handler Devices).Keeps nextMapping := by
    intro a g
    unfold Kernel.getCpuTemperature
    split
    · rfl
    · split <;> rfl
  have loads : (Kernel.loadStartModule kernelPart).Keeps nextMapping := by
    intro a g
    unfold Kernel.loadStartModule
    split <;> rfl
  simp only [Module.Each, kernelModule, Kernel.module, List.forall_mem_cons]
  exact ⟨fun _ _ _ => rfl, fun _ => writes, fun other => absurd rfl other, fun _ _ _ => rfl,
    fun _ _ _ => rfl, fun _ => prints, fun _ _ _ => rfl, fun _ => measures, fun _ => loads, by simp⟩

theorem audioKeepsMappings : audioModule.Each SparesMappings := by
  have plays : (Audio.output (NullAudio.backend audioPart)).Keeps nextMapping := by
    intro a g
    unfold Audio.output
    dsimp only
    split
    · rfl
    · split <;> rfl
  have tunes : (Audio.setVolume (NullAudio.backend audioPart)).Keeps nextMapping := by
    intro a g
    unfold Audio.setVolume
    dsimp only
    split
    · rfl
    · split <;> rfl
  have describes : (Audio.getPortState : Handler Devices).Keeps nextMapping :=
    fun a g => congrArg nextMapping (Audio.getPortStateDevices a g)
  have surveys : (Audio.getSystemState : Handler Devices).Keeps nextMapping :=
    fun a g => congrArg nextMapping (Audio.getSystemStateDevices a g)
  simp only [Module.Each, audioModule, Audio.module, List.forall_mem_cons]
  exact ⟨fun _ _ _ => rfl, fun _ _ _ => rfl, fun _ _ _ => rfl, fun _ => plays, fun _ => plays,
    fun _ => tunes, fun _ => describes, fun _ => surveys, by simp⟩

theorem padKeepsMappings : padModule.Each SparesMappings := by
  have reads : (Pad.read (NullPad.backend padPart)).Keeps nextMapping := by
    intro a g
    unfold Pad.read
    dsimp only
    split
    · rfl
    · split <;> rfl
  have shakes : (Pad.setVibration (NullPad.backend padPart)).Keeps nextMapping := by
    intro a g
    unfold Pad.setVibration
    dsimp only
    split <;> rfl
  simp only [Module.Each, padModule, Pad.module, List.forall_mem_cons]
  exact ⟨fun _ => reads, fun _ => reads, fun _ _ _ => rfl, fun _ _ _ => rfl, fun _ _ _ => rfl,
    fun _ => shakes, by simp⟩

theorem graphicsKeepsMappings : graphicsModule.Each SparesMappings := by
  have submits : (GraphicsDriver.submit graphicsPart).Keeps nextMapping := by
    intro a g
    unfold GraphicsDriver.submit
    dsimp only
    split <;> rfl
  simp only [Module.Each, graphicsModule, GraphicsDriver.module, List.forall_mem_cons]
  exact ⟨fun _ => submits, fun _ _ _ => rfl, fun _ _ _ => rfl, by simp⟩

theorem modulesKeepMappings (neoMode : Bool) : ∀ m ∈ modules neoMode, m.Each SparesMappings := by
  simp only [modules, List.forall_mem_cons]
  exact ⟨kernelKeepsMappings neoMode, audioKeepsMappings, padKeepsMappings, graphicsKeepsMappings,
    by simp⟩

end Devices

namespace Dispatcher

def mappings (d : Dispatcher Devices) (kernel : Kernel) : List (Guest Devices) → List Mapping
  | [] => []
  | g :: later =>
    let (d, after) := d.dispatch { g with devices := { g.devices with kernel } }
    let rest := d.mappings after.devices.kernel later
    if g.registers.get .rax = Number.mmap then
      ⟨g.registers.get .rdi, g.registers.get .rsi, after.registers.get .rax⟩ :: rest
    else rest

theorem dispatchDevices {d : Dispatcher Devices} (spares : d.Each Devices.SparesMappings)
    (g : Guest Devices) (other : g.registers.get .rax ≠ Number.mmap) :
    (d.dispatch g).2.devices.nextMapping = g.devices.nextMapping := by
  cases place : d.handlers.find? (g.registers.get .rax) with
  | none =>
    rw [dispatchMissing place]
    rfl
  | some handler =>
    obtain ⟨-, -, devices⟩ := dispatchServes place
    rw [devices]
    exact spares _ _ place other _ _

theorem dispatchMaps {d : Dispatcher Devices}
    (found : d.handlers.find? Number.mmap = some (Kernel.mmap Devices.kernelPart))
    (g : Guest Devices) (call : g.registers.get .rax = Number.mmap) :
    (d.dispatch g).2.registers.get .rax =
        (if g.registers.get .rdi = 0 then g.devices.nextMapping else g.registers.get .rdi) ∧
      (d.dispatch g).2.devices.nextMapping =
        g.devices.nextMapping + pageAlignUp (g.registers.get .rsi) := by
  obtain ⟨registers, -, devices⟩ := dispatchServes (g := g) (call ▸ found)
  rw [registers, devices, Registers.getSetSelf]
  refine ⟨?_, rfl⟩
  simp only [Kernel.mmap, Outcome.ok, UInt64.toUInt64_toInt64, Arguments.ofRegisters]
  exact ite_not ..

theorem mappingsPlaced {d : Dispatcher Devices}
    (found : d.handlers.find? Number.mmap = some (Kernel.mmap Devices.kernelPart))
    (spares : d.Each Devices.SparesMappings) (kernel : Kernel) (guests : List (Guest Devices)) :
    Mapping.Placed kernel.nextMapping (d.mappings kernel guests) := by
  induction guests generalizing d kernel with
  | nil => exact .done _
  | cons g later ih =>
    let before : Guest Devices := { g with devices := { g.devices with kernel } }
    have handlers := d.dispatchHandlers before
    have rest := ih (d := (d.dispatch before).1) (by rw [handlers]; exact found)
      (fun number handler place => spares number handler (by rwa [handlers] at place))
      (d.dispatch before).2.devices.kernel
    unfold mappings
    dsimp only
    by_cases call : g.registers.get .rax = Number.mmap
    · obtain ⟨start, moved⟩ := dispatchMaps found before call
      rw [if_pos call]
      rw [show (d.dispatch before).2.devices.kernel.nextMapping = _ from moved] at rest
      exact .mapping start rest
    · have stays := dispatchDevices spares before call
      rw [if_neg call]
      rwa [show (d.dispatch before).2.devices.kernel.nextMapping = _ from stays] at rest

end Dispatcher

open Mapping (extents distance)

theorem anonymousMappings (neoMode : Bool) {order : List (Module Devices)}
    (installed : order.Subperm (Devices.modules neoMode))
    (kernel : Devices.kernelModule neoMode ∈ order) (guests : List (Guest Devices)) :
    let maps := (Dispatcher.empty.installAll order).1.mappings {} guests
    (∀ m ∈ maps, m.wanted = 0 → pageSize.toNat ∣ m.start.toNat) ∧
    ∀ before a between b after, maps = before ++ a :: (between ++ b :: after) →
      a.Anonymous → b.Anonymous →
        (¬ a.Overlaps b ↔
          if a.start.toNat + distance a between < 2 ^ 64 then a.length.toNat ≤ distance a between
          else distance a between + b.length.toNat ≤ 2 ^ 64) ∧
        (heapBase.toNat + extents (before ++ a :: between) < 2 ^ 64 → ¬ a.Overlaps b) := by
  intro maps
  have listed : (Number.mmap, Kernel.mmap Devices.kernelPart) ∈
      (Devices.kernelModule neoMode).handlers := by simp [Devices.kernelModule, Kernel.module]
  have found : (Dispatcher.empty.installAll order).1.handlers.find? Number.mmap =
      some (Kernel.mmap Devices.kernelPart) :=
    builtInFinds Devices.kernelPart neoMode (NullAudio.backend Devices.audioPart)
      (NullPad.backend Devices.padPart) Devices.graphicsPart installed kernel listed
  have spares : (Dispatcher.empty.installAll order).1.Each Devices.SparesMappings :=
    Dispatcher.installAllEach Dispatcher.emptyEach fun m member =>
      Devices.modulesKeepMappings neoMode m (installed.subset member)
  have placed : Mapping.Placed heapBase maps := Dispatcher.mappingsPlaced found spares {} guests
  constructor
  · intro m member anonymous
    obtain ⟨before, after, parts⟩ := List.append_of_mem member
    exact Mapping.startAligned (parts ▸ placed) (by decide) anonymous
  · intro before a between b after parts first second
    rw [parts] at placed
    exact ⟨Mapping.apartIff placed first second,
      Mapping.apartBeforeWrap placed first second (by decide)⟩

def mapRequest (address length : UInt64) : Guest Devices where
  registers := ((Registers.powerOn.set .rax Number.mmap).set .rdi address).set .rsi length
  memory := .zeros 4 (by decide) false
  devices := .initial 8
  journal := .empty

theorem anonymousMappingsAround :
    let maps := (Dispatcher.empty.installAll [Devices.kernelModule true]).1.mappings {}
      [mapRequest 0 100, mapRequest 0x50000000 16, mapRequest 0 1]
    maps = [⟨0, 100, 0x200000000⟩, ⟨0x50000000, 16, 0x50000000⟩, ⟨0, 1, 0x200002000⟩] ∧
      ¬ (Mapping.mk 0 100 0x200000000).Overlaps ⟨0, 1, 0x200002000⟩ := by
  intro maps
  have given : maps =
      [⟨0, 100, 0x200000000⟩, ⟨0x50000000, 16, 0x50000000⟩, ⟨0, 1, 0x200002000⟩] := by
    decide +kernel
  have alone : [Devices.kernelModule true].Subperm (Devices.modules true) :=
    List.singleton_subperm_iff.mpr (.head _)
  have apart := (anonymousMappings true alone (.head _) _).2 [] _
    [⟨0x50000000, 16, 0x50000000⟩] _ [] given ⟨rfl, by decide⟩ ⟨rfl, by decide⟩
  exact ⟨given, apart.2 (by decide)⟩

/- A request at an address of its own takes the next one once around the address space, less a page:
to the second page of what was given before. -/
theorem mappingsReused :
    let maps := (Devices.dispatcher true).1.mappings {}
      [mapRequest 0 0x2000, mapRequest 0x50000000 0xFFFFFFFFFFFFFFFF, mapRequest 0 0x1000]
    maps = [⟨0, 0x2000, 0x200000000⟩, ⟨0x50000000, 0xFFFFFFFFFFFFFFFF, 0x50000000⟩,
        ⟨0, 0x1000, 0x200001000⟩] ∧
      (Mapping.mk 0 0x2000 0x200000000).Anonymous ∧ (Mapping.mk 0 0x1000 0x200001000).Anonymous ∧
      (Mapping.mk 0 0x2000 0x200000000).Overlaps ⟨0, 0x1000, 0x200001000⟩ := by
  refine ⟨by decide +kernel, ⟨rfl, by decide⟩, ⟨rfl, by decide⟩, 0x200001000, ?_, ?_⟩
  · exact ⟨by decide, by decide⟩
  · exact ⟨by decide, by decide⟩

end Syscall

end GameConsole
