import GameConsole.Proofs.Memory.Transfer

/-! Which accesses are refused, and with which fault. An access is granted just if its range passes
the test that callers may make beforehand and its address is aligned where that is asked for; what
it then takes of the buffer lies inside. -/
namespace GameConsole.Memory

inductive CheckOrder where
  | rangeFirst
  | alignmentFirst
  deriving DecidableEq, Repr

namespace Reach

def rangeFault? (r : Reach) (m : Memory) : Option MemoryFault :=
  let stop := r.start m + r.width
  if stop ≤ m.size.toNat then none
  else if stop < 2 ^ 64 then some (.outOfBounds r.address r.width m.size)
  else some (.invalidAddress r.address r.width)

def alignFault? (r : Reach) (m : Memory) : Option MemoryFault :=
  if m.enforceAlignment = true → r.align ∣ r.address.toNat then none
  else some (.misaligned r.address r.align)

def fault? (r : Reach) (m : Memory) : CheckOrder → Option MemoryFault
  | .rangeFirst => (r.rangeFault? m).or (r.alignFault? m)
  | .alignmentFirst => (r.alignFault? m).or (r.rangeFault? m)

variable {r : Reach} {m : Memory}

theorem rangeFaultNone : r.rangeFault? m = none ↔ m.fits r.address r.width = true := by
  rw [fitsIff, ← sizeToNat, rangeFault?]
  split
  · simp [*]
  · split <;> simp [*]

theorem alignFaultNone :
    r.alignFault? m = none ↔ (m.enforceAlignment = true → r.align ∣ r.address.toNat) := by
  rw [alignFault?, ite_eq_left_iff]
  simp

theorem faultNone (o : CheckOrder) : r.fault? m o = none ↔ r.Granted m := by
  cases o <;> simp only [fault?, Option.or_eq_none_iff, rangeFaultNone, alignFaultNone, Granted]
  exact and_comm

theorem rangeFaultSome {fault : MemoryFault} (found : r.rangeFault? m = some fault) :
    let stop := r.start m + r.width
    fault = .invalidAddress r.address r.width ∧ 2 ^ 64 ≤ stop ∨
      fault = .outOfBounds r.address r.width m.size ∧ m.size.toNat < stop ∧ stop < 2 ^ 64 := by
  unfold rangeFault? at found
  dsimp only at found ⊢
  split at found
  case isTrue => cases found
  case isFalse outside =>
    split at found <;> cases found
    case isTrue short => exact .inr ⟨rfl, Nat.lt_of_not_le outside, short⟩
    case isFalse long => exact .inl ⟨rfl, Nat.le_of_not_lt long⟩

theorem alignFaultSome {fault : MemoryFault} (found : r.alignFault? m = some fault) :
    fault = .misaligned r.address r.align ∧
      ¬ (m.enforceAlignment = true → r.align ∣ r.address.toNat) := by
  unfold alignFault? at found
  split at found
  case isTrue => cases found
  case isFalse odd =>
    cases found
    exact ⟨rfl, odd⟩

theorem faultSome {o : CheckOrder} {fault : MemoryFault} (found : r.fault? m o = some fault) :
    r.rangeFault? m = some fault ∨ r.alignFault? m = some fault := by
  cases o with
  | rangeFirst =>
    obtain range | ⟨-, align⟩ := Option.or_eq_some_iff.mp found
    · exact .inl range
    · exact .inr align
  | alignmentFirst =>
    obtain align | ⟨-, range⟩ := Option.or_eq_some_iff.mp found
    · exact .inr align
    · exact .inl range

end Reach

section Checks
variable (m : Memory) (address : UInt64) (width align : Nat) {β : Type}

theorem offsetSettled :
    m.offset address width =
      (Reach.rangeFault? ⟨address, width, align⟩ m).elim (.ok (m.translate address).toNat)
        .error := by
  have small := m.sizeSmall
  simp only [offset, Reach.rangeFault?, Reach.start, sizeToNat, UInt64.size]
  by_cases inside : (m.translate address).toNat + width ≤ 2 ^ m.bits
  · rw [if_neg (by omega), if_neg (by omega), if_pos inside]
    rfl
  · rw [if_neg inside]
    by_cases short : (m.translate address).toNat + width < 2 ^ 64
    · rw [if_neg (by omega), if_pos (by omega), if_pos short]
      rfl
    · rw [if_pos (by omega), if_neg short]
      rfl

variable {align}

theorem alignmentSettled (pos : 0 < align) :
    m.checkAlignment address align =
      (Reach.alignFault? ⟨address, width, align⟩ m).elim (.ok ()) .error := by
  have passes : m.checkAlignment address align = .ok () ↔
      (m.enforceAlignment = true → align ∣ address.toNat) := checkAlignmentOk pos
  unfold Reach.alignFault?
  dsimp only
  split
  case isTrue aligned => exact passes.mpr aligned
  case isFalse odd =>
    unfold checkAlignment at passes ⊢
    split at passes
    · rw [if_pos (by assumption)]
      rfl
    · exact absurd (passes.mp rfl) odd

theorem rangeFirstSettled (pos : 0 < align) (value : Nat → β) :
    (do let start ← m.offset address width
        m.checkAlignment address align
        return value start : Except MemoryFault β) =
      (Reach.fault? ⟨address, width, align⟩ m .rangeFirst).elim
        (.ok (value (m.translate address).toNat)) .error := by
  rw [offsetSettled m address width align, alignmentSettled m address width pos,
    Reach.fault?]
  cases Reach.rangeFault? ⟨address, width, align⟩ m <;>
    cases Reach.alignFault? ⟨address, width, align⟩ m <;> rfl

theorem alignmentFirstSettled (pos : 0 < align) (value : Nat → β) :
    (do m.checkAlignment address align
        let start ← m.offset address width
        return value start : Except MemoryFault β) =
      (Reach.fault? ⟨address, width, align⟩ m .alignmentFirst).elim
        (.ok (value (m.translate address).toNat)) .error := by
  rw [offsetSettled m address width align, alignmentSettled m address width pos,
    Reach.fault?]
  cases Reach.rangeFault? ⟨address, width, align⟩ m <;>
    cases Reach.alignFault? ⟨address, width, align⟩ m <;> rfl

theorem rangeOnlySettled (value : Nat → β) :
    (do let start ← m.offset address width
        return value start : Except MemoryFault β) =
      (Reach.fault? ⟨address, width, 1⟩ m .rangeFirst).elim
        (.ok (value (m.translate address).toNat)) .error := by
  have aligned : Reach.alignFault? ⟨address, width, 1⟩ m = none :=
    Reach.alignFaultNone.mpr fun _ => Nat.one_dvd _
  rw [offsetSettled m address width 1, Reach.fault?, aligned, Option.or_none]
  cases Reach.rangeFault? ⟨address, width, 1⟩ m <;> rfl

end Checks

inductive Access : Type 1 where
  | store (s : Store)
  | load (l : Load)

namespace Access

def reach : Access → Reach
  | .store s => s.reach
  | .load l => l.reach

def order : Access → CheckOrder
  | .store (.u16 ..) | .store (.u32 ..) | .store (.u64 ..) => .alignmentFirst
  | .load (.u16 ..) | .load (.u32 ..) | .load (.u64 ..) => .alignmentFirst
  | _ => .rangeFirst

def attempt (a : Access) (m : Memory) : Except MemoryFault Unit :=
  match a with
  | .store s => (s.attempt m).map fun _ => ()
  | .load l => (l.attempt m).map fun _ => ()

end Access

theorem mapSettled {α β : Type} {fault : Option MemoryFault} {value : α} {x : Except MemoryFault α}
    (settled : x = fault.elim (.ok value) .error) (f : α → β) :
    x.map f = fault.elim (.ok (f value)) .error := by
  rw [settled]
  cases fault <;> rfl

section Accessors
variable {α : Type} [PlainData α] [PlainData.Lawful α] (m : Memory) (address length : UInt64)

theorem readSettled :
    (m.read address : Except MemoryFault α) =
      (Reach.fault? ⟨address, PlainData.size α, PlainData.align α⟩ m .rangeFirst).elim
        (.ok (PlainData.decode (m.bytesAt (m.translate address).toNat (PlainData.size α))))
        .error :=
  rangeFirstSettled m address _ PlainData.Lawful.alignPos _

theorem readWordSettled :
    (m.readWord address : Except MemoryFault α) =
      (Reach.fault? ⟨address, PlainData.size α, PlainData.align α⟩ m .alignmentFirst).elim
        (.ok (PlainData.decode (m.bytesAt (m.translate address).toNat (PlainData.size α))))
        .error :=
  alignmentFirstSettled m address _ PlainData.Lawful.alignPos _

theorem writeSettled (value : α) :
    m.write address value =
      (Reach.fault? ⟨address, PlainData.size α, PlainData.align α⟩ m .rangeFirst).elim
        (.ok (m.store (m.translate address).toNat (PlainData.encode value))) .error :=
  rangeFirstSettled m address _ PlainData.Lawful.alignPos _

theorem writeWordSettled (value : α) :
    m.writeWord address value =
      (Reach.fault? ⟨address, PlainData.size α, PlainData.align α⟩ m .alignmentFirst).elim
        (.ok (m.store (m.translate address).toNat (PlainData.encode value))) .error :=
  alignmentFirstSettled m address _ PlainData.Lawful.alignPos _

theorem sliceSettled :
    m.slice address length =
      (Reach.fault? ⟨address, length.toNat, 1⟩ m .rangeFirst).elim
        (.ok ⟨m, (m.translate address).toNat, length.toNat⟩) .error :=
  rangeOnlySettled m address _ _

theorem readBlockSettled :
    m.readBlock address length =
      (Reach.fault? ⟨address, length.toNat, 1⟩ m .rangeFirst).elim
        (.ok (m.bytesAt (m.translate address).toNat length.toNat)) .error := by
  have mapped : m.readBlock address length = (m.slice address length).map Slice.toList := by
    rw [readBlock]
    cases m.slice address length <;> rfl
  rw [mapped]
  exact mapSettled (sliceSettled m address length) _

end Accessors

theorem accessSettled (a : Access) (m : Memory) :
    a.attempt m = (a.reach.fault? m a.order).elim (.ok ()) .error := by
  cases a with
  | store s =>
    cases s with
    | u8 address value => exact mapSettled (writeSettled m address value) _
    | u16 address value => exact mapSettled (writeWordSettled m address value) _
    | u32 address value => exact mapSettled (writeWordSettled m address value) _
    | u64 address value => exact mapSettled (writeWordSettled m address value) _
    | plain address value => exact mapSettled (writeSettled m address value) _
    | block address values => exact mapSettled (rangeOnlySettled m address _ _) _
    | fill address length value => exact mapSettled (rangeOnlySettled m address _ _) _
    | zero address length => exact mapSettled (rangeOnlySettled m address _ _) _
    | scatter address length values => exact mapSettled (rangeOnlySettled m address _ _) _
  | load l =>
    cases l with
    | u8 address => exact mapSettled (mapSettled (readSettled m address) _) _
    | u16 address => exact mapSettled (mapSettled (readWordSettled m address) _) _
    | u32 address => exact mapSettled (mapSettled (readWordSettled m address) _) _
    | u64 address => exact mapSettled (mapSettled (readWordSettled m address) _) _
    | plain α address => exact mapSettled (mapSettled (readSettled m address) _) _
    | block address length => exact mapSettled (readBlockSettled m address length) _
    | slice address length => exact mapSettled (mapSettled (sliceSettled m address length) _) _

theorem attemptOkIff {a : Access} {m : Memory} : a.attempt m = .ok () ↔ a.reach.Granted m := by
  rw [accessSettled, ← Reach.faultNone a.order]
  cases a.reach.fault? m a.order <;> simp

theorem attemptErrorIff {a : Access} {m : Memory} {fault : MemoryFault} :
    a.attempt m = .error fault ↔ a.reach.fault? m a.order = some fault := by
  rw [accessSettled]
  cases a.reach.fault? m a.order <;> simp

theorem grantedOrRefused (m : Memory) :
    (∀ address length : UInt64, m.translate address < m.size ∧
      m.covers address length = m.fits address length.toNat ∧
      (m.fits address length.toNat = true ↔
        (m.translate address).toNat + length.toNat ≤ m.size.toNat)) ∧
    (∀ a : Access,
      let r := a.reach
      let stop := (m.translate r.address).toNat + r.width
      let aligned := m.enforceAlignment = true → r.align ∣ r.address.toNat
      (a.attempt m = .ok () ↔ m.fits r.address r.width = true ∧ aligned) ∧
      ∀ fault, a.attempt m = .error fault →
        fault = .misaligned r.address r.align ∧ ¬ aligned ∨
        fault = .invalidAddress r.address r.width ∧ 2 ^ 64 ≤ stop ∨
        fault = .outOfBounds r.address r.width m.size ∧ m.size.toNat < stop ∧ stop < 2 ^ 64) ∧
    (∀ (address : UInt64) (width start : Nat), m.offset address width = .ok start →
      start + width ≤ m.size.toNat) ∧
    (∀ (s : Store) (after : Memory), s.attempt m = .ok after →
      after = m.place (s.reach.start m) s.cells ∧
        ∀ cell ∈ s.cells, s.reach.start m + cell.2 < m.size.toNat) ∧
    ∀ (l : Load) (raw : List UInt8), l.attempt m = .ok raw →
      raw = m.bytesAt (l.reach.start m) l.reach.width ∧
        l.reach.start m + l.reach.width ≤ m.size.toNat := by
  have bits : m.size.toNat = 2 ^ m.bits := m.sizeToNat
  refine ⟨fun address length => ⟨m.translateLt address, rfl, ?asked⟩,
    fun a => ⟨attemptOkIff, fun fault refused => ?faults⟩, ?ranges, ?stores, ?loads⟩
  case asked => rw [fitsIff, bits]
  case faults =>
    obtain range | align := Reach.faultSome (attemptErrorIff.mp refused)
    · exact .inr (Reach.rangeFaultSome range)
    · exact .inl (Reach.alignFaultSome align)
  case ranges =>
    intro address width start ok
    obtain ⟨fit, rfl⟩ := offsetOkIff.mp ok
    rw [bits]
    exact fitsIff.mp fit
  case stores =>
    intro s after ok
    obtain ⟨granted, same⟩ := storeOkIff.mp ok
    rw [bits]
    exact ⟨same, offsetsInside granted⟩
  case loads =>
    intro l raw ok
    obtain ⟨granted, same⟩ := loadOkIff.mp ok
    rw [bits]
    exact ⟨same, Reach.inside granted⟩

end GameConsole.Memory
