import GameConsole.Proofs.Memory.Transfer

/-! Changes to memory that stay within given ranges of it. Each range is folded once, as the access
that makes the change folds it. -/
namespace GameConsole.Memory

def Reach.Covers (r : Reach) (m : Memory) (i : Nat) : Prop :=
  r.start m ≤ i ∧ i < r.start m + r.width

instance (r : Reach) (m : Memory) (i : Nat) : Decidable (r.Covers m i) := by
  unfold Reach.Covers; infer_instance

structure Confined (before after : Memory) (ranges : List Reach) : Prop where
  shape : ∃ bytes, after = { before with bytes }
  outside : ∀ i < 2 ^ before.bits, (∀ r ∈ ranges, ¬ r.Covers before i) →
    after.byte i = before.byte i

namespace Confined

variable {before middle after : Memory} {first second ranges : List Reach}

theorem refl (m : Memory) (ranges : List Reach) : m.Confined m ranges :=
  ⟨⟨m.bytes, rfl⟩, fun _ _ _ => rfl⟩

theorem widen (h : before.Confined after first) (included : first ⊆ second) :
    before.Confined after second :=
  ⟨h.shape, fun i small clear => h.outside i small fun r member => clear r (included member)⟩

theorem trans (h : before.Confined middle first) (later : middle.Confined after second) :
    before.Confined after (first ++ second) := by
  obtain ⟨bytes, rfl⟩ := h.shape
  obtain ⟨bytes', rfl⟩ := later.shape
  refine ⟨⟨bytes', rfl⟩, fun i small clear => ?_⟩
  rw [List.forall_mem_append] at clear
  exact (later.outside i small clear.2).trans (h.outside i small clear.1)

theorem bytesKept (h : before.Confined after ranges) {start width : Nat}
    (inside : start + width ≤ 2 ^ before.bits)
    (apart : ∀ r ∈ ranges, r.start before + r.width ≤ start ∨ start + width ≤ r.start before) :
    after.bytesAt start width = before.bytesAt start width := by
  refine List.map_congr_left fun k member => ?_
  have small := List.mem_range.mp member
  refine h.outside (start + k) (by omega) fun r changed covers => ?_
  obtain ⟨first, last⟩ := covers
  have away := apart r changed
  omega

theorem next (h : before.Confined middle ranges) (later : middle.Confined after second)
    (included : second ⊆ ranges) : before.Confined after ranges :=
  (h.trans later).widen (List.append_subset.mpr ⟨List.Subset.refl _, included⟩)

theorem grantedIff (h : before.Confined after ranges) {r : Reach} :
    r.Granted after ↔ r.Granted before := by
  obtain ⟨⟨bytes, rfl⟩, -⟩ := h
  rfl

theorem apartIff (h : before.Confined after ranges) {r q : Reach} :
    r.Apart q after ↔ r.Apart q before := by
  obtain ⟨⟨bytes, rfl⟩, -⟩ := h
  rfl

section Values
variable {α : Type} [PlainData α] {address : UInt64} {value : α}

theorem packedKept (h : before.Confined after ranges)
    (apart : ∀ r ∈ ranges, r.Apart ⟨address, PlainData.size α, 1⟩ before)
    (read : before.readPacked address = .ok value) : after.readPacked address = .ok value := by
  obtain ⟨granted, rfl⟩ := (rangeOnly _).mp read
  have same := h.bytesKept (Reach.inside granted) apart
  obtain ⟨⟨bytes, rfl⟩, -⟩ := h
  exact (rangeOnly _).mpr ⟨granted, congrArg PlainData.decode same.symm⟩

theorem wordKept [PlainData.Lawful α] (h : before.Confined after ranges)
    (apart : ∀ r ∈ ranges, r.Apart ⟨address, PlainData.size α, PlainData.align α⟩ before)
    (read : before.readWord address = .ok value) : after.readWord address = .ok value := by
  obtain ⟨granted, rfl⟩ := readWordOkIff.mp read
  have same := h.bytesKept (Reach.inside granted) apart
  obtain ⟨⟨bytes, rfl⟩, -⟩ := h
  exact readWordOkIff.mpr ⟨granted, congrArg PlainData.decode same.symm⟩

end Values

theorem same (h : before.Confined after []) : after = before := by
  obtain ⟨bytes, rfl⟩ := h.shape
  refine congrArg (fun bytes => ({ before with bytes } : Memory)) (SparseTable.eqOfGet ?_)
  exact fun i small => h.outside i small fun r member => by cases member

end Confined

section Writing
variable {m after : Memory} {address : UInt64}

theorem storeConfined {r : Reach} {values : List UInt8} (granted : r.Granted m)
    (length : values.length = r.width) : m.Confined (m.store (r.start m) values) [r] := by
  refine ⟨⟨_, rfl⟩, fun i small clear => ?_⟩
  have apart : ¬ (r.start m ≤ i ∧ i < r.start m + r.width) := clear r List.mem_cons_self
  have inside := Reach.inside granted
  rw [byteStore m _ values i (by omega) small]
  split
  · rw [List.getElem?_eq_none (by omega)]
    rfl
  · rfl

theorem writeConfined {α : Type} [PlainData α] {value : α} (pos : 0 < PlainData.align α)
    (length : (PlainData.encode value).length = PlainData.size α)
    (written : m.write address value = .ok after) :
    m.Confined after [⟨address, PlainData.size α, PlainData.align α⟩] := by
  obtain ⟨granted, rfl⟩ := (rangeFirst pos (m.store · (PlainData.encode value))).mp written
  exact storeConfined (r := ⟨address, PlainData.size α, PlainData.align α⟩) granted length

theorem writeWordConfined {α : Type} [PlainData α] [PlainData.Lawful α] {value : α}
    (written : m.writeWord address value = .ok after) :
    m.Confined after [⟨address, PlainData.size α, PlainData.align α⟩] := by
  obtain ⟨granted, rfl⟩ := writeWordOkIff.mp written
  exact storeConfined granted (PlainData.Lawful.encodeLength value)

theorem writeU32Confined {value : UInt32} (written : m.writeU32 address value = .ok after) :
    m.Confined after [⟨address, 4, 4⟩] := writeWordConfined written

theorem writeU64Confined {value : UInt64} (written : m.writeU64 address value = .ok after) :
    m.Confined after [⟨address, 8, 8⟩] := writeWordConfined written

end Writing

end GameConsole.Memory
