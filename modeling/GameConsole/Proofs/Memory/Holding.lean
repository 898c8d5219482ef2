import GameConsole.Proofs.Memory.Confinement
import GameConsole.Proofs.Memory.Folding
import GameConsole.Proofs.Memory.History

/-! What memory holds from an address on. A block is held where it was written, as long as the
base of user space does not come between its addresses, and then every part of it is held at the
address of that part: a reader need not know what else was written around it. -/
namespace GameConsole.Memory
open AddressSpace (userBase)

/- The addresses of a range are all on one side of the base of user space, and none of them is
past the last address. -/
structure Uncrossed (address : UInt64) (length : Nat) : Prop where
  unwrapped : address.toNat + length ≤ 2 ^ 64
  oneSided : address.toNat + length ≤ userBase.toNat ∨ userBase.toNat ≤ address.toNat

instance (address : UInt64) (length : Nat) : Decidable (Uncrossed address length) :=
  decidable_of_iff (address.toNat + length ≤ 2 ^ 64 ∧
      (address.toNat + length ≤ userBase.toNat ∨ userBase.toNat ≤ address.toNat))
    ⟨fun h => ⟨h.1, h.2⟩, fun h => ⟨h.unwrapped, h.oneSided⟩⟩

theorem addUnwrapped {address : UInt64} {k : Nat} (inside : address.toNat + k < 2 ^ 64) :
    (address + k.toUInt64).toNat = address.toNat + k := by
  rw [UInt64.toNat_add, Nat.toUInt64_eq, UInt64.toNat_ofNat']
  omega

theorem Uncrossed.alike {address : UInt64} {length : Nat} (range : Uncrossed address length)
    (m : Memory) : m.AlikeWithin address length := by
  obtain ⟨unwrapped, oneSided⟩ := range
  intro k inside
  refine .inr ?_
  rw [UInt64.le_iff_toNat_le, UInt64.le_iff_toNat_le, addUnwrapped (by omega)]
  omega

theorem alikeBehind {m : Memory} {address : UInt64} {before width : Nat}
    (alike : m.AlikeWithin address (before + width)) :
    m.AlikeWithin (address + before.toUInt64) width := by
  intro k inside
  have sum : address + before.toUInt64 + k.toUInt64 = address + (before + k).toUInt64 := by
    simp only [Nat.toUInt64_eq, UInt64.ofNat_add, UInt64.add_assoc]
  have here := alike before (by omega)
  have there := alike (before + k) (by omega)
  rw [sum]
  obtain small | here := here
  · exact .inl small
  obtain small | there := there
  · exact .inl small
  exact .inr (here.symm.trans there)

theorem bytesAtAppend (m : Memory) (start first second : Nat) :
    m.bytesAt start (first + second) =
      m.bytesAt start first ++ m.bytesAt (start + first) second := by
  simp only [bytesAt, SparseTable.getFrom, List.range_add, List.map_append, List.map_map,
    Function.comp_def, Nat.add_assoc]

section Arrays
variable {α : Type} [PlainData α] [PlainData.Lawful α]

theorem encodeAllLength (values : List α) :
    (values.flatMap PlainData.encode).length = PlainData.size α * values.length := by
  induction values with
  | nil => rfl
  | cons value rest ih =>
    rw [List.flatMap_cons, List.length_append, PlainData.Lawful.encodeLength, ih,
      List.length_cons, Nat.mul_succ, Nat.add_comm]

theorem decodeAll {m : Memory} {start : Nat} {values : List α}
    (stored : m.bytesAt start (PlainData.size α * values.length) =
      values.flatMap PlainData.encode) :
    ((List.range values.length).map fun k =>
      PlainData.decode (m.bytesAt (start + PlainData.size α * k) (PlainData.size α))) = values := by
  induction values generalizing start with
  | nil => rfl
  | cons value rest ih =>
    rw [List.length_cons, Nat.mul_succ, Nat.add_comm, bytesAtAppend, List.flatMap_cons] at stored
    obtain ⟨head, tail⟩ := List.append_inj stored
      ((m.bytesAtLength _ _).trans (PlainData.Lawful.encodeLength value).symm)
    rw [List.length_cons, List.range_succ_eq_map, List.map_cons, List.map_map]
    refine congrArg₂ List.cons ?_ (Eq.trans ?_ (ih tail))
    · rw [Nat.mul_zero, Nat.add_zero, head, PlainData.Lawful.decodeEncode]
    · refine List.map_congr_left fun k _ => ?_
      rw [Function.comp, Nat.mul_succ, Nat.add_comm (_ * k), Nat.add_assoc]

end Arrays

structure Holds (m : Memory) (address : UInt64) (bytes : List UInt8) : Prop where
  fits : m.fits address bytes.length = true
  alike : m.AlikeWithin address bytes.length
  stored : m.bytesAt (m.translate address).toNat bytes.length = bytes

theorem holdsWritten {m after : Memory} {address : UInt64} {bytes : List UInt8}
    (range : Uncrossed address bytes.length) (written : m.writeBlock address bytes = .ok after) :
    after.Holds address bytes := by
  obtain ⟨granted, rfl⟩ := writeBlockOkIff.mp written
  exact ⟨granted.1, range.alike _, bytesAtStored (fitsIff.mp granted.1)⟩

namespace Holds

variable {m : Memory} {address : UInt64} {bytes : List UInt8}

theorem place (holds : m.Holds address bytes) {k : Nat} (inside : k < bytes.length) :
    (m.translate (address + k.toUInt64)).toNat = (m.translate address).toNat + k :=
  translateWithin (r := ⟨address, bytes.length, 1⟩) ⟨holds.fits, fun _ => Nat.one_dvd _⟩
    holds.alike inside

theorem byte (holds : m.Holds address bytes) {k : Nat} {value : UInt8}
    (found : bytes[k]? = some value) : m.readU8 (address + k.toUInt64) = .ok value := by
  have inside := (List.getElem?_eq_some_iff.mp found).1
  rw [← holds.stored, bytesAtGet, if_pos inside] at found
  rw [readU8Ok, holds.place inside]
  exact congrArg Except.ok (Option.some.inj found)

theorem part (before after : List UInt8) (holds : m.Holds address (before ++ (bytes ++ after))) :
    m.Holds (address + before.length.toUInt64) bytes := by
  by_cases empty : bytes = []
  · subst empty
    exact ⟨fitsIff.mpr (Nat.le_of_lt (Reach.inside (Reach.grantedOne m _))), nofun, rfl⟩
  have start := holds.place (k := before.length) (by
    rw [List.length_append, List.length_append]
    exact Nat.lt_add_of_pos_right (Nat.add_pos_left (List.length_pos_iff.mpr empty) _))
  obtain ⟨fits, alike, stored⟩ := holds
  rw [List.length_append, List.length_append] at fits alike stored
  have room := fitsIff.mp fits
  rw [bytesAtAppend, bytesAtAppend] at stored
  have rest := (List.append_inj stored (m.bytesAtLength _ _)).2
  have behind := alikeBehind alike
  refine ⟨fitsIff.mpr (by omega), fun k inside => behind k (Nat.lt_add_right _ inside), ?_⟩
  rw [start]
  exact (List.append_inj rest (m.bytesAtLength _ _)).1

theorem kept {after : Memory} {ranges : List Reach} (holds : m.Holds address bytes)
    (changed : m.Confined after ranges)
    (apart : ∀ r ∈ ranges, r.Apart ⟨address, bytes.length, 1⟩ m) : after.Holds address bytes := by
  obtain ⟨fits, alike, stored⟩ := holds
  have same := changed.bytesKept (fitsIff.mp fits) apart
  obtain ⟨⟨contents, rfl⟩, -⟩ := changed
  exact ⟨fits, alike, same.trans stored⟩

theorem folded (holds : m.Holds address bytes) :
    ((List.range bytes.length).map fun k =>
      m.byte (m.translate (address + k.toUInt64)).toNat) = bytes := by
  refine Eq.trans (List.map_congr_left fun k member => ?_) holds.stored
  exact congrArg m.byte (holds.place (List.mem_range.mp member))

theorem text (holds : m.Holds address bytes) (solid : 0 ∉ bytes) :
    m.readCString address bytes.length = .ok bytes := by
  have whole := takeWhileSolid solid []
  rw [List.append_nil, List.takeWhile_nil, List.append_nil] at whole
  rw [readCStringOk, holds.folded, whole]

theorem terminated (holds : m.Holds address (bytes ++ [0])) (solid : 0 ∉ bytes) {limit : Nat}
    (reached : bytes.length < limit) : m.readCString address limit = .ok bytes := by
  obtain ⟨more, rfl⟩ := Nat.exists_eq_add_of_lt reached
  have folded := holds.folded
  rw [List.length_append, List.length_singleton] at folded
  rw [readCStringOk, Nat.add_right_comm, List.range_add, List.map_append, folded,
    List.append_assoc, takeWhileSolid solid]
  simp

section Values
variable {α : Type} [PlainData α] [PlainData.Lawful α] {value : α}

theorem decodes (holds : m.Holds address (PlainData.encode value)) :
    PlainData.decode (m.bytesAt (m.translate address).toNat (PlainData.size α)) = value := by
  rw [← PlainData.Lawful.encodeLength value, holds.stored, PlainData.Lawful.decodeEncode]

theorem room (holds : m.Holds address (PlainData.encode value)) :
    m.fits address (PlainData.size α) = true := by
  rw [← PlainData.Lawful.encodeLength value]
  exact holds.fits

theorem packed (holds : m.Holds address (PlainData.encode value)) :
    m.readPacked address = .ok value :=
  (rangeOnly _).mpr ⟨⟨holds.room, fun _ => Nat.one_dvd _⟩, holds.decodes.symm⟩

theorem word (holds : m.Holds address (PlainData.encode value))
    (aligned : PlainData.align α ∣ address.toNat) : m.readWord address = .ok value :=
  readWordOkIff.mpr ⟨⟨holds.room, fun _ => aligned⟩, holds.decodes.symm⟩

end Values

theorem words {values : List UInt32} (holds : m.Holds address (values.flatMap PlainData.encode)) :
    m.readWords address values.length = .ok values := by
  obtain ⟨fits, -, stored⟩ := holds
  rw [encodeAllLength] at fits stored
  exact (rangeOnly _).mpr ⟨⟨fits, fun _ => Nat.one_dvd _⟩, (decodeAll stored).symm⟩

end Holds

end GameConsole.Memory
