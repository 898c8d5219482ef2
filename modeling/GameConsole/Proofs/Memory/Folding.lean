import GameConsole.Proofs.Memory.Transfer
import Mathlib.Data.Nat.ModEq

/-! Folding and address arithmetic. An access folds its address once and goes on in the buffer
from there, while code, strings and packet headers are folded byte by byte. The two agree just
where the base of user space does not come between the addresses, or where the buffer is so
small that counting from the base changes no offset. -/
namespace GameConsole.Memory
open AddressSpace (userBase)

def FoldAlike (m : Memory) (a b : UInt64) : Prop :=
  m.size ≤ userBase ∨ (userBase ≤ a ↔ userBase ≤ b)

instance (m : Memory) (a b : UInt64) : Decidable (m.FoldAlike a b) := by
  unfold FoldAlike; infer_instance

def AlikeWithin (m : Memory) (address : UInt64) (width : Nat) : Prop :=
  ∀ k < width, m.FoldAlike address (address + k.toUInt64)

instance (m : Memory) (address : UInt64) (width : Nat) :
    Decidable (m.AlikeWithin address width) := by
  unfold AlikeWithin; infer_instance

def deduction (address : UInt64) : Nat := if userBase ≤ address then userBase.toNat else 0

theorem rebaseDeduction (address : UInt64) :
    (rebase address).toNat + deduction address = address.toNat := by
  unfold rebase deduction
  split
  · rename_i above
    have le := UInt64.le_iff_toNat_le.mp above
    rw [UInt64.toNat_sub_of_le _ _ above]
    omega
  · rfl

theorem translateDeduction (m : Memory) (address : UInt64) :
    (m.translate address).toNat + deduction address ≡ address.toNat [MOD 2 ^ m.bits] := by
  rw [translateToNat]
  have h := (Nat.mod_modEq (rebase address).toNat (2 ^ m.bits)).add_right (deduction address)
  rwa [rebaseDeduction] at h

theorem addModSize (m : Memory) (address : UInt64) (k : Nat) :
    (address + k.toUInt64).toNat ≡ address.toNat + k [MOD 2 ^ m.bits] := by
  have divides : 2 ^ m.bits ∣ 2 ^ 64 :=
    Nat.pow_dvd_pow 2 (Nat.le_trans (Nat.le_of_lt m.bits_lt) (by omega))
  have wrapped : (address + k.toUInt64).toNat ≡ address.toNat + k [MOD 2 ^ 64] := by
    rw [UInt64.toNat_add, Nat.toUInt64_eq, UInt64.toNat_ofNat']
    exact (Nat.mod_modEq _ _).trans ((Nat.mod_modEq k (2 ^ 64)).add_left _)
  exact wrapped.of_dvd divides

theorem deductionModEqIff (m : Memory) (a b : UInt64) :
    deduction a ≡ deduction b [MOD 2 ^ m.bits] ↔ m.FoldAlike a b := by
  have power : userBase.toNat = 2 ^ 22 := rfl
  have small : m.size ≤ userBase ↔ 2 ^ m.bits ∣ userBase.toNat := by
    rw [UInt64.le_iff_toNat_le, sizeToNat, power, Nat.pow_dvd_pow_iff_le_right Nat.one_lt_two,
      Nat.pow_le_pow_iff_right Nat.one_lt_two]
  rw [FoldAlike, small]
  unfold deduction
  by_cases ha : userBase ≤ a <;> by_cases hb : userBase ≤ b
  · simp [ha, hb, Nat.ModEq.refl]
  · simp [ha, hb, Nat.modEq_zero_iff_dvd]
  · simp only [ha, hb, if_true, if_false, false_iff, not_true, or_false]
    rw [Nat.ModEq.comm, Nat.modEq_zero_iff_dvd]
  · simp [ha, hb, Nat.ModEq.refl]

/- The offsets of two addresses are as far apart as the addresses, just if both are folded
alike. Distances count modulo the size of the buffer. -/
theorem translateShiftIff {m : Memory} {a b : UInt64} {k : Nat}
    (distance : b.toNat ≡ a.toNat + k [MOD 2 ^ m.bits]) :
    (m.translate b).toNat = ((m.translate a).toNat + k) % 2 ^ m.bits ↔ m.FoldAlike a b := by
  have below : (m.translate b).toNat < 2 ^ m.bits := by
    have h := UInt64.lt_iff_toNat_lt.mp (m.translateLt b)
    rwa [sizeToNat] at h
  have offsets : (m.translate b).toNat + deduction b ≡
      (m.translate a).toNat + k + deduction a [MOD 2 ^ m.bits] := by
    have left := (m.translateDeduction b).trans distance
    have right := (m.translateDeduction a).add_right k
    rw [Nat.add_right_comm] at right
    exact left.trans right.symm
  rw [← deductionModEqIff]
  constructor
  · intro same
    have shifted : (m.translate b).toNat ≡ (m.translate a).toNat + k [MOD 2 ^ m.bits] := by
      rw [same]
      exact Nat.mod_modEq _ _
    exact (Nat.ModEq.add_left_cancel shifted offsets).symm
  · intro alike
    have shifted := Nat.ModEq.add_right_cancel alike.symm offsets
    rw [← shifted, Nat.mod_eq_of_lt below]

theorem translateAddIff (m : Memory) (address : UInt64) (k : Nat) :
    (m.translate (address + k.toUInt64)).toNat = ((m.translate address).toNat + k) % 2 ^ m.bits ↔
      m.FoldAlike address (address + k.toUInt64) :=
  translateShiftIff (m.addModSize address k)

theorem translateAliasIff {m : Memory} {a b : UInt64}
    (low : b.toNat % 2 ^ m.bits = a.toNat % 2 ^ m.bits) :
    m.translate b = m.translate a ↔ m.FoldAlike a b := by
  have shift := translateShiftIff (m := m) (a := a) (b := b) (k := 0) low
  have below := UInt64.lt_iff_toNat_lt.mp (m.translateLt a)
  rw [sizeToNat] at below
  rw [Nat.add_zero, Nat.mod_eq_of_lt below, UInt64.toNat_inj] at shift
  exact shift

theorem translateWithin {m : Memory} {r : Reach} {k : Nat} (granted : r.Granted m)
    (alike : m.AlikeWithin r.address r.width) (inside : k < r.width) :
    (m.translate (r.address + k.toUInt64)).toNat = r.start m + k := by
  have room := Reach.inside granted
  have h := (m.translateAddIff r.address k).mpr (alike k inside)
  rwa [Nat.mod_eq_of_lt (by unfold Reach.start at room; omega)] at h

theorem loadByBytes {l : Load} {m : Memory} {raw : List UInt8} (ok : l.attempt m = .ok raw)
    (alike : m.AlikeWithin l.reach.address l.reach.width) {k : Nat} {value : UInt8}
    (found : raw[k]? = some value) : m.readU8 (l.reach.address + k.toUInt64) = .ok value := by
  obtain ⟨granted, rfl⟩ := loadOkIff.mp ok
  rw [bytesAtGet] at found
  split at found
  · rename_i inside
    rw [readU8Ok, translateWithin granted alike inside]
    exact congrArg Except.ok (Option.some.inj found)
  · contradiction

def writeEach (m : Memory) (address : UInt64) (cells : List (UInt8 × Nat)) :
    Except MemoryFault Memory :=
  cells.foldlM (fun m cell => m.writeU8 (address + cell.2.toUInt64) cell.1) m

theorem writeEachPlace {m : Memory} {address : UInt64} {start : Nat}
    {cells : List (UInt8 × Nat)}
    (folds : ∀ cell ∈ cells, (m.translate (address + cell.2.toUInt64)).toNat = start + cell.2) :
    m.writeEach address cells = .ok (m.place start cells) := by
  induction cells generalizing m with
  | nil => rfl
  | cons cell rest ih =>
    have head := folds cell List.mem_cons_self
    have tail : ∀ other ∈ rest, ((m.store (start + cell.2) [cell.1]).translate
        (address + other.2.toUInt64)).toNat = start + other.2 :=
      fun other member => folds other (List.mem_cons_of_mem _ member)
    rw [writeEach, List.foldlM_cons, writeU8Ok, head]
    exact ih tail

theorem storeByBytes {s : Store} {m after : Memory} (ok : s.attempt m = .ok after)
    (alike : m.AlikeWithin s.reach.address s.reach.width) :
    m.writeEach s.reach.address s.cells = .ok after := by
  obtain ⟨granted, rfl⟩ := storeOkIff.mp ok
  exact writeEachPlace fun cell member => translateWithin granted alike (cellsInside member)

theorem readCStringOk (m : Memory) (address : UInt64) (limit : Nat) :
    m.readCString address limit = .ok (((List.range limit).map fun k =>
      m.byte (m.translate (address + k.toUInt64)).toNat).takeWhile (· ≠ 0)) := by
  suffices h : ∀ taken, m.readCStringFrom address taken limit = .ok (taken.reverse ++
      ((List.range limit).map fun k =>
        m.byte (m.translate (address + k.toUInt64)).toNat).takeWhile (· ≠ 0)) from h []
  induction limit generalizing address with
  | zero => intro taken; simp [readCStringFrom]
  | succ limit ih =>
    intro taken
    have shift (k : Nat) : address + 1 + k.toUInt64 = address + (k + 1).toUInt64 := by
      simp [UInt64.add_assoc, UInt64.add_comm]
    rw [readCStringFrom, readU8Ok, List.range_succ_eq_map, List.map_cons, List.map_map]
    rw [show address + (0 : Nat).toUInt64 = address from UInt64.add_zero address]
    dsimp only
    split
    · rename_i stop
      simp [stop]
    · rename_i other
      rw [ih]
      simp [other, Function.comp_def, shift]

theorem takeWhileSolid {text : List UInt8} (solid : 0 ∉ text) (rest : List UInt8) :
    (text ++ rest).takeWhile (· ≠ 0) = text ++ rest.takeWhile (· ≠ 0) := by
  refine List.takeWhile_append_of_pos fun value member => ?_
  rw [decide_eq_true_eq]
  rintro rfl
  exact solid member

theorem blockAgreesWithCString {m : Memory} {address length : UInt64} {raw : List UInt8}
    (ok : m.readBlock address length = .ok raw) (alike : m.AlikeWithin address length.toNat) :
    m.readCString address length.toNat = .ok (raw.takeWhile (· ≠ 0)) := by
  obtain ⟨granted, rfl⟩ := readBlockOkIff.mp ok
  rw [readCStringOk, bytesAt, SparseTable.getFrom]
  refine congrArg (fun bytes => Except.ok (List.takeWhile _ bytes)) (List.map_congr_left ?_)
  intro k member
  have folded := translateWithin granted alike (List.mem_range.mp member)
  exact congrArg m.byte folded

theorem readStored {m : Memory} {r : Reach} {values : List UInt8} (granted : r.Granted m)
    (length : values.length = r.width) (alike : m.AlikeWithin r.address r.width) {k : Nat}
    {value : UInt8} (found : values[k]? = some value) :
    (m.store (r.start m) values).readU8 (r.address + k.toUInt64) = .ok value := by
  have inside : k < r.width := by
    rw [← length]
    exact (List.getElem?_eq_some_iff.mp found).1
  have room : r.start m + r.width ≤ 2 ^ m.bits := Reach.inside granted
  have folded : ((m.store (r.start m) values).translate (r.address + k.toUInt64)).toNat =
      r.start m + k := translateWithin granted alike inside
  rw [readU8Ok, folded, byteStore m _ _ _ (by omega) (by omega), if_pos (by omega),
    Nat.add_sub_cancel_left, found]
  rfl

theorem readStoredU64 {m after : Memory} {address value : UInt64}
    (ok : m.writeU64 address value = .ok after) (alike : m.AlikeWithin address 8) {k : Nat}
    (inside : k < 8) :
    after.readU8 (address + k.toUInt64) = .ok (value.toNat / 256 ^ k).toUInt8 := by
  obtain ⟨granted, rfl⟩ := writeWordOkIff.mp ok
  exact readStored (r := ⟨address, 8, 8⟩) granted (PlainData.Lawful.encodeLength value) alike
    (LittleEndian.splitGet inside)

theorem foldingCommutesIffAlike (m : Memory) (address : UInt64) :
    (∀ k : Nat, (m.translate (address + k.toUInt64)).toNat =
      ((m.translate address).toNat + k) % m.size.toNat ↔
        m.FoldAlike address (address + k.toUInt64)) ∧
    (∀ other : UInt64, other.toNat % m.size.toNat = address.toNat % m.size.toNat →
      (m.translate other = m.translate address ↔ m.FoldAlike address other)) ∧
    (∀ (l : Load) (raw : List UInt8), l.reach.address = address →
      m.AlikeWithin address l.reach.width → l.attempt m = .ok raw →
      raw.length = l.reach.width ∧
        ∀ (k : Nat) (value : UInt8), raw[k]? = some value →
          m.readU8 (address + k.toUInt64) = .ok value) ∧
    (∀ (s : Store) (after : Memory), s.reach.address = address →
      m.AlikeWithin address s.reach.width → s.attempt m = .ok after →
      m.writeEach address s.cells = .ok after) ∧
    (∀ (value : UInt64) (after : Memory), m.AlikeWithin address 8 →
      m.writeU64 address value = .ok after →
      ∀ k : Nat, k < 8 →
        after.readU8 (address + k.toUInt64) = .ok (value.toNat / 256 ^ k).toUInt8) ∧
    (∀ (length : UInt64) (raw : List UInt8), m.AlikeWithin address length.toNat →
      m.readBlock address length = .ok raw →
      m.readCString address length.toNat = .ok (raw.takeWhile (· ≠ 0))) := by
  rw [sizeToNat]
  refine ⟨m.translateAddIff address, fun other low => translateAliasIff low, ?loads, ?stores,
    fun value after alike ok k inside => readStoredU64 ok alike inside,
    fun length raw alike ok => blockAgreesWithCString ok alike⟩
  case loads =>
    rintro l raw rfl alike ok
    refine ⟨?_, fun k value found => loadByBytes ok alike found⟩
    rw [(loadOkIff.mp ok).2, bytesAtLength]
  case stores =>
    rintro s after rfl alike ok
    exact storeByBytes ok alike

/- The last byte below the base of user space, in a buffer of the usual size. The next address
folds to the start of the buffer, and a word that ends above the base is not found there. -/
theorem foldingJumpsAtUserBase :
    let m := zeros 29 (by decide) false
    m.size = AddressSpace.defaultMemorySize ∧
    (m.translate (0x3FFFFF + 1)).toNat ≠ ((m.translate 0x3FFFFF).toNat + 1) % m.size.toNat ∧
    m.translate (0x3FFFFF + m.size) ≠ m.translate 0x3FFFFF ∧
    ∃ after, m.writeU64 0x3FFFFF 0xFFFFFFFFFFFFFFFF = .ok after ∧
      after.readU8 (0x3FFFFF + 1) = .ok 0 := by
  refine ⟨by decide, by decide, by decide, _, writeWordOkIff.mpr ⟨by decide, rfl⟩, ?_⟩
  rw [readU8Ok]
  decide +kernel

end GameConsole.Memory
