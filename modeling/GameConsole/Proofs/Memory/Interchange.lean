import GameConsole.Proofs.Memory.Refusal

/-! Two ways to a word: the accessor for words of its width and the accessor for plain data. They
make the same two checks, in different orders. A caller can tell them apart only by the fault of an
access that fails both. -/
namespace GameConsole.Memory

namespace Reach

def TwiceRefused (r : Reach) (m : Memory) : Prop :=
  m.size.toNat < r.start m + r.width ∧ m.enforceAlignment = true ∧ ¬ r.align ∣ r.address.toNat

instance (r : Reach) (m : Memory) : Decidable (r.TwiceRefused m) := by
  unfold TwiceRefused; infer_instance

variable {r : Reach} {m : Memory}

theorem rangeFaultShort (short : r.width ≤ 2 ^ 63) (outside : m.size.toNat < r.start m + r.width) :
    r.rangeFault? m = some (.outOfBounds r.address r.width m.size) := by
  have below : r.start m < 2 ^ m.bits := by
    have h := UInt64.lt_iff_toNat_lt.mp (m.translateLt r.address)
    rwa [sizeToNat] at h
  have small : 2 ^ m.bits ≤ 2 ^ 62 :=
    Nat.pow_le_pow_right (by decide) (Nat.le_of_lt_succ m.bits_lt)
  unfold rangeFault?
  dsimp only
  rw [if_neg (Nat.not_le.mpr outside), if_pos (by omega)]

theorem alignFaultOdd (odd : m.enforceAlignment = true ∧ ¬ r.align ∣ r.address.toNat) :
    r.alignFault? m = some (.misaligned r.address r.align) :=
  if_neg fun aligned => odd.2 (aligned odd.1)

theorem faultTwice (short : r.width ≤ 2 ^ 63) (twice : r.TwiceRefused m) :
    r.fault? m .alignmentFirst = some (.misaligned r.address r.align) ∧
      r.fault? m .rangeFirst = some (.outOfBounds r.address r.width m.size) := by
  obtain ⟨outside, odd⟩ := twice
  rw [fault?, fault?, rangeFaultShort short outside, alignFaultOdd odd]
  exact ⟨rfl, rfl⟩

/- The order of the checks shows just where both of them fail. -/
theorem faultOrderIff (short : r.width ≤ 2 ^ 63) :
    r.fault? m .alignmentFirst = r.fault? m .rangeFirst ↔ ¬ r.TwiceRefused m := by
  constructor
  · intro same twice
    obtain ⟨first, second⟩ := faultTwice short twice
    rw [first, second] at same
    cases same
  · intro once
    unfold fault?
    by_cases inside : r.start m + r.width ≤ m.size.toNat
    · have ranged : r.rangeFault? m = none := if_pos inside
      rw [ranged, Option.or_none, Option.none_or]
    · have even : m.enforceAlignment = true → r.align ∣ r.address.toNat := fun enforced =>
        Decidable.of_not_not fun odd => once ⟨Nat.lt_of_not_le inside, enforced, odd⟩
      rw [alignFaultNone.mpr even, Option.or_none, Option.none_or]

end Reach

theorem settledSameIff {β : Type} {value : β} {f g : Option MemoryFault} :
    f.elim (.ok value) Except.error = g.elim (.ok value) Except.error ↔ f = g := by
  cases f <;> cases g <;> simp

abbrev Reach.plain (α : Type) [PlainData α] (address : UInt64) : Reach :=
  ⟨address, PlainData.size α, PlainData.align α⟩

structure Interchangeable {α : Type} [PlainData α]
    (readWord : UInt64 → Except MemoryFault α) (writeWord : UInt64 → α → Except MemoryFault Memory)
    (m : Memory) (address : UInt64) : Prop where
  reads : readWord address = m.read address ↔ ¬ (Reach.plain α address).TwiceRefused m
  writes : ∀ value, writeWord address value = m.write address value ↔
    ¬ (Reach.plain α address).TwiceRefused m
  refused : (Reach.plain α address).TwiceRefused m →
    readWord address = .error (.misaligned address (PlainData.align α)) ∧
    m.read (α := α) address = .error (.outOfBounds address (PlainData.size α) m.size) ∧
    ∀ value, writeWord address value = .error (.misaligned address (PlainData.align α)) ∧
      m.write address value = .error (.outOfBounds address (PlainData.size α) m.size)

theorem wordsInterchangeable {α : Type} [PlainData α] [PlainData.Lawful α]
    (short : PlainData.size α ≤ 2 ^ 63) (m : Memory) (address : UInt64) :
    Interchangeable (α := α) m.readWord m.writeWord m address where
  reads := by
    rw [readWordSettled, readSettled, settledSameIff]
    exact Reach.faultOrderIff short
  writes value := by
    rw [writeWordSettled, writeSettled, settledSameIff]
    exact Reach.faultOrderIff short
  refused twice := by
    obtain ⟨first, second⟩ := Reach.faultTwice short twice
    refine ⟨?_, ?_, fun value => ⟨?_, ?_⟩⟩
    · rw [readWordSettled, first]
      rfl
    · rw [readSettled, second]
      rfl
    · rw [writeWordSettled, first]
      rfl
    · rw [writeSettled, second]
      rfl

theorem accessorsInterchangeable (m : Memory) (address : UInt64) :
    Interchangeable m.readU16 m.writeU16 m address ∧
    Interchangeable m.readU32 m.writeU32 m address ∧
    Interchangeable m.readU64 m.writeU64 m address :=
  ⟨wordsInterchangeable (by decide) m address, wordsInterchangeable (by decide) m address,
    wordsInterchangeable (by decide) m address⟩

theorem accessorsDifferAtEnd :
    let m := zeros 16 (by decide) true
    m.readU32 0xfffd = .error (.misaligned 0xfffd 4) ∧
    m.read (α := UInt32) 0xfffd = .error (.outOfBounds 0xfffd 4 0x10000) ∧
    m.readU32 0xfffd ≠ m.read 0xfffd ∧
    m.writeU32 0xfffd 1 ≠ m.write 0xfffd (1 : UInt32) := by
  decide +kernel

end GameConsole.Memory
