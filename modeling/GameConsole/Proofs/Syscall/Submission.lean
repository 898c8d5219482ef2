import GameConsole.Proofs.Graphics.Packets
import GameConsole.Proofs.Syscall.Footprint

/-! Submitting command buffers. The buffers are listed in two arrays of guest memory; they are
decoded one after the other as far as the list can be read, whatever comes of each. -/
namespace GameConsole

namespace Graphics

structure Listed where
  address : UInt64
  words : UInt32
  deriving DecidableEq, Repr

def entryAt (m : Memory) (buffers sizes : UInt64) (i : Nat) : Except MemoryFault Listed := do
  let address ← m.readU64 (buffers + (8 * i).toUInt64)
  let bytes ← m.readU32 (sizes + (4 * i).toUInt64)
  return ⟨address, bytes / 4⟩

/- What is listed from entry number `first` on, `count` entries of it at most, and the fault that
ends the list early, if one does. -/
structure Listing (m : Memory) (buffers sizes : UInt64) (first count : Nat) (entries : List Listed)
    (result : Except MemoryFault Unit) : Prop where
  read : ∀ i (inside : i < entries.length), entryAt m buffers sizes (first + i) = .ok entries[i]
  ends : (entries.length = count ∧ result = .ok ()) ∨
    ∃ fault, entries.length < count ∧
      entryAt m buffers sizes (first + entries.length) = .error fault ∧ result = .error fault

section Listing
variable {m : Memory} {buffers sizes : UInt64} {first : Nat}

theorem listingNone : Listing m buffers sizes first 0 [] (.ok ()) where
  read i inside := absurd inside (Nat.not_lt_zero i)
  ends := .inl ⟨rfl, rfl⟩

theorem listingFault (count : Nat) {fault : MemoryFault}
    (unreadable : entryAt m buffers sizes first = .error fault) :
    Listing m buffers sizes first (count + 1) [] (.error fault) where
  read i inside := absurd inside (Nat.not_lt_zero i)
  ends := .inr ⟨fault, Nat.succ_pos count, unreadable, rfl⟩

theorem listingEntry {count : Nat} {entry : Listed} {entries : List Listed}
    {result : Except MemoryFault Unit} (found : entryAt m buffers sizes first = .ok entry)
    (rest : Listing m buffers sizes (first + 1) count entries result) :
    Listing m buffers sizes first (count + 1) (entry :: entries) result := by
  have place (i : Nat) : first + 1 + i = first + (i + 1) := by omega
  obtain ⟨read, ends⟩ := rest
  refine ⟨fun i inside => ?_, ?_⟩
  · cases i with
    | zero => exact found
    | succ i => exact place i ▸ read i (Nat.lt_of_succ_lt_succ inside)
  · obtain ⟨all, ok⟩ | ⟨fault, short, unreadable, failed⟩ := ends
    · exact .inl ⟨congrArg Nat.succ all, ok⟩
    · exact .inr ⟨fault, Nat.succ_lt_succ short, place entries.length ▸ unreadable, failed⟩

theorem Listing.lengthLe {count : Nat} {entries : List Listed} {result : Except MemoryFault Unit}
    (listing : Listing m buffers sizes first count entries result) : entries.length ≤ count := by
  obtain ⟨all, -⟩ | ⟨_, short, -, -⟩ := listing.ends
  · exact Nat.le_of_eq all
  · exact Nat.le_of_lt short

theorem Listing.notLonger {count : Nat} {entries others : List Listed}
    {result other : Except MemoryFault Unit}
    (listing : Listing m buffers sizes first count entries result)
    (longer : Listing m buffers sizes first count others other) :
    others.length ≤ entries.length := by
  obtain ⟨all, -⟩ | ⟨fault, -, unreadable, -⟩ := listing.ends
  · exact all ▸ longer.lengthLe
  · rcases Nat.lt_or_ge entries.length others.length with inside | outside
    · cases (longer.read entries.length inside).symm.trans unreadable
    · exact outside

theorem Listing.unique {count : Nat} {entries others : List Listed}
    {result other : Except MemoryFault Unit}
    (listing : Listing m buffers sizes first count entries result)
    (second : Listing m buffers sizes first count others other) :
    entries = others ∧ result = other := by
  have length := Nat.le_antisymm (second.notLonger listing) (listing.notLonger second)
  have same : entries = others := List.ext_getElem length fun i inside also =>
    Except.ok.inj ((listing.read i inside).symm.trans (second.read i also))
  subst same
  refine ⟨rfl, ?_⟩
  obtain ⟨all, rfl⟩ | ⟨fault, short, unreadable, rfl⟩ := listing.ends
  · obtain ⟨-, rfl⟩ | ⟨_, short, -, -⟩ := second.ends
    · rfl
    · omega
  · obtain ⟨all, -⟩ | ⟨_, -, again, rfl⟩ := second.ends
    · omega
    · cases unreadable.symm.trans again
      rfl

end Listing

namespace Decoder

def processAll (m : Memory) (limit : UInt32) (d : Decoder) (entries : List Listed) : Decoder :=
  entries.foldl (fun d entry => (d.process m limit entry.address entry.words).1) d

def packetsListed (m : Memory) (entries : List Listed) : List Packet :=
  entries.flatMap fun entry => packetsOf m entry.address entry.words.toNat

theorem processAllPackets (m : Memory) (limit : UInt32) (entries : List Listed) {d e : Decoder}
    (h : d.Agrees e) :
    (d.processAll m limit entries).Agrees
      (e.performAll (followed m limit.toNat limit.toNat) (packetsListed m entries)) := by
  induction entries generalizing d e with
  | nil => exact h
  | cons entry entries ih =>
    have follows := followedAgrees m limit.toNat limit.toNat
    have decoded : (d.process m limit entry.address entry.words).1.Agrees
        (e.performAll (followed m limit.toNat limit.toNat)
          (packetsOf m entry.address entry.words.toNat)) :=
      (decodePackets ..).trans
        (performAllAgrees (fun _ _ address words _ _ _ h => follows address words _ _ h) h)
    rw [packetsListed, List.flatMap_cons, performAll, List.foldl_append]
    exact ih decoded

theorem submitFromLists (m : Memory) (limit : UInt32) (buffers sizes : UInt64) (count first : Nat)
    {d e : Decoder} (h : d.Agrees e) :
    ∃ entries, Listing m buffers sizes first count entries
        (submitFrom m limit buffers sizes count first d).2 ∧
      (submitFrom m limit buffers sizes count first d).1.Agrees (e.processAll m limit entries) := by
  induction count generalizing first d e with
  | zero => exact ⟨[], listingNone, h⟩
  | succ count ih =>
    cases found : m.readU64 (buffers + (8 * first).toUInt64) with
    | error fault =>
      rw [submitFrom, found]
      exact ⟨[], listingFault count (by simp only [entryAt, found]; rfl), h⟩
    | ok address =>
      cases length : m.readU32 (sizes + (4 * first).toUInt64) with
      | error fault =>
        rw [submitFrom, found]
        dsimp only
        rw [length]
        exact ⟨[], listingFault count (by simp only [entryAt, found, length]; rfl), h⟩
      | ok bytes =>
        rw [submitFromSettle m limit buffers sizes count first d found length]
        have decoded := decodeAgrees m limit.toNat limit.toNat address (bytes / 4).toNat (h.note
          (.of .trace "command buffer" [("buffer", .count first), ("addr", .hex 1 address.toNat),
            ("dwords", .count (bytes / 4).toNat)]))
        obtain ⟨entries, listing, same⟩ := ih (first + 1) ((settleAgrees _ _).trans decoded.1)
        exact ⟨⟨address, bytes / 4⟩ :: entries,
          listingEntry (by simp only [entryAt, found, length]; rfl) listing, same⟩

theorem submitLists (m : Memory) (limit count : UInt32) (buffers sizes : UInt64) {d e : Decoder}
    (h : d.Agrees e) :
    ∃ entries, Listing m buffers sizes 0 count.toNat entries
        (d.submit m limit count buffers sizes).2 ∧
      (d.submit m limit count buffers sizes).1.Agrees (e.processAll m limit entries) :=
  submitFromLists m limit buffers sizes count.toNat 0 (h.note _)

end Decoder

end Graphics

namespace Syscall
open Graphics

def submitStatus : Except MemoryFault Unit → Int64
  | .ok () => 0
  | .error _ => -14

theorem submitLists {δ : Type} (device : Part δ GraphicsDevice) (a : Arguments) (g : Guest δ)
    (journal : Journal) :
    let gpu := device.get g.devices
    ∃ entries result, Listing g.memory a.second a.third 0 a.first.toUInt32.toNat entries result ∧
      (GraphicsDriver.submit device a g).1.value = submitStatus result ∧
      (GraphicsDriver.submit device a g).2.devices = device.put
        (gpu.absorb ((gpu.decoder journal).processAll g.memory gpu.limit entries)) g.devices ∧
      (GraphicsDriver.submit device a g).2.memory = g.memory ∧
      (GraphicsDriver.submit device a g).2.registers = g.registers := by
  intro gpu
  have agrees : (gpu.decoder g.journal).Agrees (gpu.decoder journal) := ⟨rfl, rfl, rfl⟩
  obtain ⟨entries, listing, same⟩ :=
    Decoder.submitLists g.memory gpu.limit a.first.toUInt32 a.second a.third agrees
  refine ⟨entries, _, listing, ?_⟩
  rw [← GraphicsDriver.absorbAgrees gpu same]
  unfold GraphicsDriver.submit
  dsimp only
  split
  case h_1 ok =>
    rw [show (Decoder.submit _ _ _ _ _ (gpu.decoder g.journal)).2 = _ from ok]
    exact ⟨rfl, rfl, rfl, rfl⟩
  case h_2 fault failed =>
    rw [show (Decoder.submit _ _ _ _ _ (gpu.decoder g.journal)).2 = _ from failed]
    exact ⟨rfl, rfl, rfl, rfl⟩

theorem submissionExact (neoMode : Bool) {order : List (Module Devices)}
    (installed : order.Subperm (Devices.modules neoMode))
    (present : Devices.graphicsModule ∈ order) :
    (∀ (m : Memory) (limit count : UInt32) (buffers sizes : UInt64) (d : Decoder), ∃ entries,
      Listing m buffers sizes 0 count.toNat entries (d.submit m limit count buffers sizes).2 ∧
      (d.submit m limit count buffers sizes).1.Agrees (d.processAll m limit entries) ∧
      (d.processAll m limit entries).Agrees
        (d.performAll (Decoder.followed m limit.toNat limit.toNat)
          (Decoder.packetsListed m entries))) ∧
    ∀ g : Guest Devices, g.registers.get .rax = Number.submitCommandBuffers →
      let gpu := g.devices.graphics
      let after := ((Dispatcher.empty.installAll order).1.dispatch g).2
      ∃ entries result,
        Listing g.memory (g.registers.get .rsi) (g.registers.get .rdx) 0
          (g.registers.get .rdi).toUInt32.toNat entries result ∧
        after.devices = { g.devices with
          graphics := gpu.absorb ((gpu.decoder g.journal).processAll g.memory gpu.limit entries) } ∧
        after.memory = g.memory ∧
        after.registers = g.registers.set .rax (submitStatus result).toUInt64 := by
  have listed : (Number.submitCommandBuffers, GraphicsDriver.submit Devices.graphicsPart) ∈
      Devices.graphicsModule.handlers := by simp [Devices.graphicsModule, GraphicsDriver.module]
  have found : (Dispatcher.empty.installAll order).1.handlers.find? Number.submitCommandBuffers =
      some (GraphicsDriver.submit Devices.graphicsPart) :=
    builtInFinds Devices.kernelPart neoMode (NullAudio.backend Devices.audioPart)
      (NullPad.backend Devices.padPart) Devices.graphicsPart installed present listed
  refine ⟨fun m limit count buffers sizes d => ?_, fun g call => ?_⟩
  · obtain ⟨entries, listing, same⟩ := Decoder.submitLists m limit count buffers sizes (.refl d)
    exact ⟨entries, listing, same, Decoder.processAllPackets m limit entries (.refl d)⟩
  · intro gpu after
    obtain ⟨entries, result, listing, status, devices, memory, registers⟩ :=
      submitLists Devices.graphicsPart (.ofRegisters g.registers)
        (g.note (Dispatcher.call g.registers)) g.journal
    obtain ⟨answered, same, left⟩ := Dispatcher.dispatchServes (g := g) (call ▸ found)
    refine ⟨entries, result, listing, left.trans devices, same.trans memory, ?_⟩
    rw [registers, status] at answered
    exact answered

theorem submissionExactShort :
    let draw : UInt32 := (PacketHeader.build Opcode.drawIndexAuto 2 0).raw
    let words : List UInt32 := [0x80000000, draw, draw, 3, 2, 0, 0, 0, 8, 15, 0, 0, 0, 8, 0]
    let g : Guest Devices :=
      { registers := (((Registers.powerOn.set .rax 591).set .rdi 0x100000003).set .rsi 44).set
          .rdx 32
        memory := (Memory.zeros 6 (by decide) false).store 0 (words.flatMap PlainData.encode)
        devices := .initial 8
        journal := .empty }
    let after := ((Dispatcher.empty.installAll [Devices.graphicsModule]).1.dispatch g).2
    after.registers.get .rax = -14 ∧ after.devices.graphics.counts = ⟨2, 1, 0⟩ ∧
      after.devices.graphics.outbox = #[.command (.draw 3 1 GpuState.initial.primitive)] := by
  intro draw words g after
  have alone : [Devices.graphicsModule].Subperm (Devices.modules true) :=
    List.singleton_subperm_iff.mpr (by simp [Devices.modules])
  obtain ⟨entries, result, listing, devices, -, registers⟩ :=
    (submissionExact true alone (.head _)).2 g rfl
  have rsi : g.registers.get .rsi = 44 := by decide +kernel
  have rdx : g.registers.get .rdx = 32 := by decide +kernel
  have rdi : (g.registers.get .rdi).toUInt32.toNat = 3 := by decide +kernel
  rw [rsi, rdx, rdi] at listing
  have given : Listing g.memory 44 32 0 3 [⟨0, 2⟩, ⟨8, 3⟩] (.error (.outOfBounds 60 8 64)) :=
    listingEntry (by decide +kernel)
      (listingEntry (by decide +kernel) (listingFault 0 (by decide +kernel)))
  obtain ⟨rfl, rfl⟩ := listing.unique given
  refine ⟨?_, ?_, ?_⟩
  · rw [registers]
    decide +kernel
  · rw [devices]
    decide +kernel
  · rw [devices]
    decide +kernel

end Syscall

end GameConsole
