import GameConsole.Proofs.Memory.Alignment
import GameConsole.Proofs.Memory.Interchange
import GameConsole.Proofs.Processor.Execution

/-! Traffic with memory that cannot fault. A word at an aligned address lies inside every buffer
that has room for it, on either side of the base of user space. So a stack that is aligned once goes
on for ever, and an opcode, which is read byte by byte, can be fetched from anywhere. -/
namespace GameConsole
open Memory (Reach)

class PlainData.Word (α : Type) [PlainData α] : Prop extends PlainData.Lawful α where
  natural : align α = size α
  width : size α ∈ [1, 2, 4, 8]

namespace PlainData

instance : Word UInt8 := ⟨rfl, by decide⟩
instance : Word UInt16 := ⟨rfl, by decide⟩
instance : Word UInt32 := ⟨rfl, by decide⟩
instance : Word UInt64 := ⟨rfl, by decide⟩
instance : Word Int32 := ⟨rfl, by decide⟩
instance : Word Int64 := ⟨rfl, by decide⟩

end PlainData

namespace Memory

structure Serves {α : Type} (width : Nat) (read : UInt64 → Except MemoryFault α)
    (write : UInt64 → α → Except MemoryFault Memory) (m : Memory) (address : UInt64) : Prop where
  aligned : width ≤ m.size.toNat → width ∣ address.toNat →
    (∃ value, read address = .ok value) ∧ ∀ value, ∃ after, write address value = .ok after
  enforced : width ≤ m.size.toNat → m.enforceAlignment = true →
    ((∃ fault, read address = .error fault) ↔ ¬ width ∣ address.toNat) ∧
    ∀ value, (∃ fault, write address value = .error fault) ↔ ¬ width ∣ address.toNat

theorem faultsIff {β : Type} {x : Except MemoryFault β} {granted : Prop}
    (ok : (∃ value, x = .ok value) ↔ granted) : (∃ fault, x = .error fault) ↔ ¬ granted := by
  rw [← ok]
  cases x <;> simp

section Words
variable {α : Type} [PlainData α] [PlainData.Word α] {m : Memory} {address : UInt64}

theorem wordNatural (α : Type) [PlainData α] [PlainData.Word α] (address : UInt64) :
    (Reach.plain α address).Natural := by
  refine ⟨PlainData.Word.natural, ?_⟩
  have width : PlainData.size α ∈ [2 ^ 0, 2 ^ 1, 2 ^ 2, 2 ^ 3] := PlainData.Word.width
  simp only [List.mem_cons, List.not_mem_nil, or_false] at width
  obtain width | width | width | width := width <;> exact ⟨_, by decide, width⟩

theorem servesGranted {read : UInt64 → Except MemoryFault α}
    {write : UInt64 → α → Except MemoryFault Memory}
    (reads : (∃ value, read address = .ok value) ↔ (Reach.plain α address).Granted m)
    (writes : ∀ value, (∃ after, write address value = .ok after) ↔
      (Reach.plain α address).Granted m) :
    Serves (PlainData.size α) read write m address where
  aligned room even := by
    have granted := (alignedGranted (wordNatural α address) even).mpr room
    exact ⟨reads.mpr granted, fun value => (writes value).mpr granted⟩
  enforced room enforced := by
    have even := enforcedGranted (wordNatural α address) enforced room
    exact ⟨faultsIff (reads.trans even), fun value => faultsIff ((writes value).trans even)⟩

theorem wordsServed (α : Type) [PlainData α] [PlainData.Word α] (m : Memory) (address : UInt64) :
    Serves (α := α) (PlainData.size α) m.readWord m.writeWord m address := by
  refine servesGranted ?_ fun value => ?_
  · simp only [readWordOkIff, exists_and_left, exists_eq, and_true]
  · simp only [writeWordOkIff, exists_and_left, exists_eq, and_true]

theorem plainServed (α : Type) [PlainData α] [PlainData.Word α] (m : Memory) (address : UInt64) :
    Serves (α := α) (PlainData.size α) m.read m.write m address := by
  refine servesGranted ?_ fun value => ?_
  · simp only [readOkIff, exists_and_left, exists_eq, and_true]
  · simp only [writeOkIff, exists_and_left, exists_eq, and_true]

end Words

end Memory

namespace Guest
variable {δ : Type} {g : Guest δ}

structure Stacked (g : Guest δ) : Prop where
  room : 8 ≤ g.memory.size.toNat
  aligned : 8 ∣ (g.registers.get .rsp).toNat

theorem slotAligned {rsp : UInt64} (aligned : 8 ∣ rsp.toNat) :
    8 ∣ (rsp - 8).toNat ∧ 8 ∣ (rsp + 8).toNat := by
  rw [UInt64.toNat_sub, UInt64.toNat_add]
  change 8 ∣ (2 ^ 64 - 8 + rsp.toNat) % 2 ^ 64 ∧ 8 ∣ (rsp.toNat + 8) % 2 ^ 64
  omega

theorem pushStacked (stacked : g.Stacked) (value : UInt64) :
    ∃ after, (Work.push value).run g = .ok () after ∧ after.Stacked := by
  obtain ⟨room, aligned⟩ := stacked
  have below := (slotAligned aligned).1
  obtain ⟨memory, stored⟩ := ((Memory.wordsServed UInt64 g.memory _).aligned room below).2 value
  change g.memory.writeU64 (g.registers.get .rsp - 8) value = .ok memory at stored
  have same : memory.size = g.memory.size := by
    obtain ⟨-, rfl⟩ := Memory.writeWordOkIff.mp stored
    rfl
  refine ⟨{ g with memory }.set .rsp (g.registers.get .rsp - 8), ?_, ?_, ?_⟩
  · rw [Work.runPush, stored]
  · change 8 ≤ memory.size.toNat
    rwa [same]
  · rwa [set, Registers.getSetSelf]

theorem popStacked (stacked : g.Stacked) :
    ∃ value after, (Work.pop : Work δ UInt64).run g = .ok value after ∧ after.Stacked := by
  obtain ⟨room, aligned⟩ := stacked
  have above := (slotAligned aligned).2
  obtain ⟨value, loaded⟩ := ((Memory.wordsServed UInt64 g.memory _).aligned room aligned).1
  change g.memory.readU64 (g.registers.get .rsp) = .ok value at loaded
  refine ⟨value, g.set .rsp (g.registers.get .rsp + 8), ?_, room, ?_⟩
  · rw [Work.runPop, loaded]
  · rwa [set, Registers.getSetSelf]

end Guest

theorem alignedNeverFaults (m : Memory) (address : UInt64) :
    m.Serves 1 m.readU8 m.writeU8 address ∧ m.Serves 2 m.readU16 m.writeU16 address ∧
    m.Serves 4 m.readU32 m.writeU32 address ∧ m.Serves 8 m.readU64 m.writeU64 address ∧
    (∀ (α : Type) [PlainData α] [PlainData.Word α],
      m.Serves (α := α) (PlainData.size α) m.read m.write address) ∧
    (∃ opening, Instruction.Opening.read m address = .ok opening) ∧
    ∀ (δ : Type) (g : Guest δ), g.Stacked →
      (∀ value, ∃ after, (Work.push value).run g = .ok () after ∧ after.Stacked) ∧
      ∃ value after, (Work.pop : Work δ UInt64).run g = .ok value after ∧ after.Stacked := by
  refine ⟨Memory.plainServed UInt8 m address, Memory.wordsServed UInt16 m address,
    Memory.wordsServed UInt32 m address, Memory.wordsServed UInt64 m address,
    fun α _ _ => Memory.plainServed α m address, openingFound m address, ?stack⟩
  case stack =>
    intro δ g stacked
    exact ⟨Guest.pushStacked stacked, Guest.popStacked stacked⟩

theorem alignedNeverFaultsAtEnds :
    let m := Memory.zeros 3 (by decide) true
    let g : Guest Unit := ⟨.powerOn, m, (), .empty⟩
    (∃ value, m.readU64 0xFFFFFFFFFFFFFFF8 = .ok value) ∧
    (∃ value, m.readU64 0x3FFFF8 = .ok value) ∧
    (∃ fault, m.readU64 0x3FFFFC = .error fault) ∧
    ∃ after, (Work.push 1).run g = .ok () after := by
  intro m g
  obtain ⟨-, -, -, last, -⟩ := alignedNeverFaults m 0xFFFFFFFFFFFFFFF8
  obtain ⟨-, -, -, below, -⟩ := alignedNeverFaults m 0x3FFFF8
  obtain ⟨-, -, -, across, -, -, stack⟩ := alignedNeverFaults m 0x3FFFFC
  obtain ⟨after, pushed, -⟩ := (stack Unit g ⟨by decide, by decide⟩).1 1
  exact ⟨(last.aligned (by decide) (by decide)).1, (below.aligned (by decide) (by decide)).1,
    (across.enforced (by decide) rfl).1.mpr (by decide), after, pushed⟩

end GameConsole
