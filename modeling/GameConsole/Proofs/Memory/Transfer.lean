import GameConsole.Memory.Access
import GameConsole.Proofs.PlainData

/-! What one access to memory does, whatever function makes it. An access asks for a range and
an alignment. If both are granted, a store puts single bytes at places of the range and a load
gives the bytes of the range; otherwise it faults. All that is said here of a store or a load
follows from the two equivalences `storeOkIff` and `loadOkIff`. -/
namespace GameConsole.Memory

theorem bindOk {ε α β : Type} {x : Except ε α} {f : α → Except ε β} {result : β} :
    x >>= f = .ok result ↔ ∃ value, x = .ok value ∧ f value = .ok result := by
  cases x with
  | error e => simp [bind, Except.bind]
  | ok value => simp [bind, Except.bind]

theorem pureOk {ε α : Type} {value result : α} :
    (pure value : Except ε α) = .ok result ↔ result = value := by
  simp only [pure, Except.pure, Except.ok.injEq, eq_comm]

theorem mapOk {ε α β : Type} {x : Except ε α} {f : α → β} {result : β} :
    x.map f = .ok result ↔ ∃ value, x = .ok value ∧ result = f value := by
  cases x with
  | error e => simp [Except.map]
  | ok value => simp [Except.map, eq_comm]

structure Reach where
  address : UInt64
  width : Nat
  align : Nat
  deriving DecidableEq, Repr

namespace Reach

abbrev start (r : Reach) (m : Memory) : Nat := (m.translate r.address).toNat

def Granted (r : Reach) (m : Memory) : Prop :=
  m.fits r.address r.width = true ∧ (m.enforceAlignment = true → r.align ∣ r.address.toNat)

instance (r : Reach) (m : Memory) : Decidable (r.Granted m) := by
  unfold Granted; infer_instance

def Apart (r q : Reach) (m : Memory) : Prop :=
  r.start m + r.width ≤ q.start m ∨ q.start m + q.width ≤ r.start m

instance (r q : Reach) (m : Memory) : Decidable (r.Apart q m) := by
  unfold Apart; infer_instance

theorem inside {r : Reach} {m : Memory} (granted : r.Granted m) :
    r.start m + r.width ≤ 2 ^ m.bits := fitsIff.mp granted.1

theorem grantedOne (m : Memory) (address : UInt64) : Granted ⟨address, 1, 1⟩ m := by
  refine ⟨fitsIff.mpr ?_, fun _ => Nat.one_dvd _⟩
  have below := m.translateLt address
  rw [UInt64.lt_iff_toNat_lt, sizeToNat] at below
  exact below

end Reach

theorem checkAlignmentOk {m : Memory} {address : UInt64} {align : Nat} (pos : 0 < align)
    {u : Unit} : m.checkAlignment address align = .ok u ↔
      (m.enforceAlignment = true → align ∣ address.toNat) := by
  rw [Nat.dvd_iff_mod_eq_zero]
  have one : ¬ 1 < align → address.toNat % align = 0 := fun h => by
    rw [show align = 1 by omega, Nat.mod_one]
  unfold checkAlignment
  split
  · rename_i refused
    simp [refused.1, refused.2.2]
  · rename_i passed
    simp only [true_iff]
    intro enforced
    by_cases wide : 1 < align
    · exact Decidable.of_not_not fun odd => passed ⟨enforced, wide, odd⟩
    · exact one wide

section Checks
variable {m : Memory} {address : UInt64} {width align : Nat} {β : Type} {result : β}

theorem rangeFirst (pos : 0 < align) (value : Nat → β) :
    (do let start ← m.offset address width
        m.checkAlignment address align
        return value start : Except MemoryFault β) = .ok result ↔
      Reach.Granted ⟨address, width, align⟩ m ∧ result = value (m.translate address).toNat := by
  simp only [bindOk, pureOk, offsetOkIff, checkAlignmentOk pos, Reach.Granted]
  constructor
  · rintro ⟨_, ⟨fit, rfl⟩, _, aligned, rfl⟩
    exact ⟨⟨fit, aligned⟩, rfl⟩
  · rintro ⟨⟨fit, aligned⟩, rfl⟩
    exact ⟨_, ⟨fit, rfl⟩, (), aligned, rfl⟩

theorem alignmentFirst (pos : 0 < align) (value : Nat → β) :
    (do m.checkAlignment address align
        let start ← m.offset address width
        return value start : Except MemoryFault β) = .ok result ↔
      Reach.Granted ⟨address, width, align⟩ m ∧ result = value (m.translate address).toNat := by
  simp only [bindOk, pureOk, offsetOkIff, checkAlignmentOk pos, Reach.Granted]
  constructor
  · rintro ⟨_, aligned, _, ⟨fit, rfl⟩, rfl⟩
    exact ⟨⟨fit, aligned⟩, rfl⟩
  · rintro ⟨⟨fit, aligned⟩, rfl⟩
    exact ⟨(), aligned, _, ⟨fit, rfl⟩, rfl⟩

theorem rangeOnly (value : Nat → β) :
    (do let start ← m.offset address width
        return value start : Except MemoryFault β) = .ok result ↔
      Reach.Granted ⟨address, width, 1⟩ m ∧ result = value (m.translate address).toNat := by
  simp only [bindOk, pureOk, offsetOkIff, Reach.Granted]
  constructor
  · rintro ⟨_, ⟨fit, rfl⟩, rfl⟩
    exact ⟨⟨fit, fun _ => Nat.one_dvd _⟩, rfl⟩
  · rintro ⟨⟨fit, _⟩, rfl⟩
    exact ⟨_, ⟨fit, rfl⟩, rfl⟩

end Checks

def contents (m : Memory) : List UInt8 := m.bytesAt 0 (2 ^ m.bits)

def place (m : Memory) (start : Nat) (cells : List (UInt8 × Nat)) : Memory :=
  cells.foldl (fun m cell => m.store (start + cell.2) [cell.1]) m

@[simp] theorem contentsLength (m : Memory) : m.contents.length = 2 ^ m.bits := by
  simp [contents]

theorem contentsGet (m : Memory) (i : Nat) :
    m.contents[i]? = if i < 2 ^ m.bits then some (m.byte i) else none := by
  rw [contents, bytesAtGet, Nat.zero_add]

theorem placeShape (m : Memory) (start : Nat) (cells : List (UInt8 × Nat)) :
    ∃ bytes, m.place start cells = { m with bytes } := by
  induction cells generalizing m with
  | nil => exact ⟨m.bytes, rfl⟩
  | cons cell rest ih => exact ih (m.store (start + cell.2) [cell.1])

@[simp] theorem bitsPlace (m : Memory) (start : Nat) (cells : List (UInt8 × Nat)) :
    (m.place start cells).bits = m.bits := by
  obtain ⟨bytes, same⟩ := m.placeShape start cells
  rw [same]

@[simp] theorem translatePlace (m : Memory) (start : Nat) (cells : List (UInt8 × Nat))
    (address : UInt64) : (m.place start cells).translate address = m.translate address := by
  obtain ⟨bytes, same⟩ := m.placeShape start cells
  rw [same]
  rfl

@[simp] theorem startPlace (m : Memory) (start : Nat) (cells : List (UInt8 × Nat)) (r : Reach) :
    r.start (m.place start cells) = r.start m :=
  congrArg UInt64.toNat (m.translatePlace start cells r.address)

@[simp] theorem grantedPlace (m : Memory) (start : Nat) (cells : List (UInt8 × Nat))
    (r : Reach) : r.Granted (m.place start cells) ↔ r.Granted m := by
  obtain ⟨bytes, same⟩ := m.placeShape start cells
  rw [same]
  rfl

theorem storePlace (m : Memory) (start : Nat) (values : List UInt8) :
    m.store start values = m.place start values.zipIdx := by
  suffices h : ∀ k, m.store (start + k) values = m.place start (values.zipIdx k) from h 0
  induction values generalizing m with
  | nil => exact fun _ => rfl
  | cons value rest ih =>
    intro k
    exact ih (m.store (start + k) [value]) (k + 1)

theorem fillStore {m : Memory} {start count : Nat} (value : UInt8)
    (inside : start + count ≤ 2 ^ m.bits) :
    { m with bytes := m.bytes.fill start (start + count) value } =
      m.store start (List.replicate count value) := by
  refine congrArg (fun bytes => { m with bytes }) (SparseTable.eqOfGet ?_)
  intro i small
  rw [SparseTable.getFill, SparseTable.getSetFrom _ _ _ _ (by simpa using inside) small,
    Nat.mod_eq_of_lt small, List.getElem?_replicate]
  grind

theorem byteSet {m : Memory} {i j : Nat} (value : UInt8) (hi : i < 2 ^ m.bits)
    (hj : j < 2 ^ m.bits) : (m.store i [value]).byte j = if i = j then value else m.byte j := by
  rw [byteStore m i [value] j hi hj]
  grind

theorem contentsSet {m : Memory} {i : Nat} (value : UInt8) (inside : i < 2 ^ m.bits) :
    (m.store i [value]).contents = m.contents.set i value := by
  apply List.ext_getElem?
  intro j
  rw [contentsGet, List.getElem?_set, contentsGet, contentsLength, bitsStore]
  by_cases small : j < 2 ^ m.bits
  · rw [if_pos small, byteSet value inside small]
    grind
  · grind

theorem contentsPlace {m : Memory} {start : Nat} {cells : List (UInt8 × Nat)}
    (inside : ∀ cell ∈ cells, start + cell.2 < 2 ^ m.bits) :
    (m.place start cells).contents =
      cells.foldl (fun buffer cell => buffer.set (start + cell.2) cell.1) m.contents := by
  induction cells generalizing m with
  | nil => rfl
  | cons cell rest ih =>
    have head := inside cell List.mem_cons_self
    have tail : ∀ other ∈ rest, start + other.2 < 2 ^ m.bits :=
      fun other member => inside other (List.mem_cons_of_mem _ member)
    have later := ih (m := m.store (start + cell.2) [cell.1]) tail
    rw [contentsSet cell.1 head] at later
    exact later

theorem eqOfContents {m : Memory} {left right : SparseTable UInt8 m.bits}
    (same : contents { m with bytes := left } = contents { m with bytes := right }) :
    ({ m with bytes := left } : Memory) = { m with bytes := right } := by
  refine congrArg (fun bytes => ({ m with bytes } : Memory)) (SparseTable.eqOfGet ?_)
  intro i small
  have h := congrArg (fun buffer => buffer[i]?) same
  simp only [contentsGet, if_pos small] at h
  exact Option.some.inj h

/- The functions that write, each with its operands. The places that `scatter` writes are counted
from the start of its range. -/
inductive Store : Type 1 where
  | u8 (address : UInt64) (value : UInt8)
  | u16 (address : UInt64) (value : UInt16)
  | u32 (address : UInt64) (value : UInt32)
  | u64 (address : UInt64) (value : UInt64)
  | plain {α : Type} [PlainData α] [PlainData.Lawful α] (address : UInt64) (value : α)
  | block (address : UInt64) (values : List UInt8)
  | fill (address length : UInt64) (value : UInt8)
  | zero (address length : UInt64)
  | scatter (address length : UInt64) (values : List (UInt8 × Fin length.toNat))

namespace Store
open LittleEndian (split)

def attempt (m : Memory) : Store → Except MemoryFault Memory
  | .u8 address value => m.writeU8 address value
  | .u16 address value => m.writeU16 address value
  | .u32 address value => m.writeU32 address value
  | .u64 address value => m.writeU64 address value
  | @plain _ _ _ address value => m.write address value
  | .block address values => m.writeBlock address values
  | .fill address length value => m.fill address length value
  | .zero address length => m.zero address length
  | .scatter address length values => m.scatter address length values

def reach : Store → Reach
  | .u8 address _ => ⟨address, 1, 1⟩
  | .u16 address _ => ⟨address, 2, 2⟩
  | .u32 address _ => ⟨address, 4, 4⟩
  | .u64 address _ => ⟨address, 8, 8⟩
  | @plain α _ _ address _ => ⟨address, PlainData.size α, PlainData.align α⟩
  | .block address values => ⟨address, values.length, 1⟩
  | .fill address length _ => ⟨address, length.toNat, 1⟩
  | .zero address length => ⟨address, length.toNat, 1⟩
  | .scatter address length _ => ⟨address, length.toNat, 1⟩

def cells : Store → List (UInt8 × Nat)
  | .u8 _ value => [(value, 0)]
  | .u16 _ value => (split 2 value.toNat).zipIdx
  | .u32 _ value => (split 4 value.toNat).zipIdx
  | .u64 _ value => (split 8 value.toNat).zipIdx
  | @plain _ _ _ _ value => (PlainData.encode value).zipIdx
  | .block _ values => values.zipIdx
  | .fill _ length value => (List.replicate length.toNat value).zipIdx
  | .zero _ length => (List.replicate length.toNat 0).zipIdx
  | .scatter _ _ values => values.map fun cell => (cell.1, cell.2.val)

end Store

inductive Load : Type 1 where
  | u8 (address : UInt64)
  | u16 (address : UInt64)
  | u32 (address : UInt64)
  | u64 (address : UInt64)
  | plain (α : Type) [PlainData α] [PlainData.Lawful α] (address : UInt64)
  | block (address length : UInt64)
  | slice (address length : UInt64)

namespace Load
open PlainData (encode)

def attempt (m : Memory) : Load → Except MemoryFault (List UInt8)
  | .u8 address => (m.readU8 address).map encode
  | .u16 address => (m.readU16 address).map encode
  | .u32 address => (m.readU32 address).map encode
  | .u64 address => (m.readU64 address).map encode
  | @plain α _ _ address => (m.read address : Except MemoryFault α).map encode
  | .block address length => m.readBlock address length
  | .slice address length => (m.slice address length).map Slice.toList

def reach : Load → Reach
  | .u8 address => ⟨address, 1, 1⟩
  | .u16 address => ⟨address, 2, 2⟩
  | .u32 address => ⟨address, 4, 4⟩
  | .u64 address => ⟨address, 8, 8⟩
  | @plain α _ _ address => ⟨address, PlainData.size α, PlainData.align α⟩
  | .block address length => ⟨address, length.toNat, 1⟩
  | .slice address length => ⟨address, length.toNat, 1⟩

end Load

section Words
variable {α : Type} [PlainData α] [PlainData.Lawful α] {m : Memory} {address : UInt64}

theorem writeOkIff {value : α} {after : Memory} :
    m.write address value = .ok after ↔
      Reach.Granted ⟨address, PlainData.size α, PlainData.align α⟩ m ∧
        after = m.store (m.translate address).toNat (PlainData.encode value) :=
  rangeFirst (PlainData.Lawful.alignPos (α := α)) (m.store · (PlainData.encode value))

theorem writeWordOkIff {value : α} {after : Memory} :
    m.writeWord address value = .ok after ↔
      Reach.Granted ⟨address, PlainData.size α, PlainData.align α⟩ m ∧
        after = m.store (m.translate address).toNat (PlainData.encode value) :=
  alignmentFirst (PlainData.Lawful.alignPos (α := α)) (m.store · (PlainData.encode value))

theorem readOkIff {value : α} :
    m.read address = .ok value ↔
      Reach.Granted ⟨address, PlainData.size α, PlainData.align α⟩ m ∧
        value = PlainData.decode (m.bytesAt (m.translate address).toNat (PlainData.size α)) :=
  rangeFirst (PlainData.Lawful.alignPos (α := α))
    fun start => PlainData.decode (m.bytesAt start (PlainData.size α))

theorem readWordOkIff {value : α} :
    m.readWord address = .ok value ↔
      Reach.Granted ⟨address, PlainData.size α, PlainData.align α⟩ m ∧
        value = PlainData.decode (m.bytesAt (m.translate address).toNat (PlainData.size α)) :=
  alignmentFirst (PlainData.Lawful.alignPos (α := α))
    fun start => PlainData.decode (m.bytesAt start (PlainData.size α))

theorem bytesOfValue {read : Except MemoryFault α} {r : Reach} {raw : List UInt8}
    (ok : ∀ {value : α}, read = .ok value ↔
      r.Granted m ∧ value = PlainData.decode (m.bytesAt (r.start m) (PlainData.size α))) :
    read.map PlainData.encode = .ok raw ↔
      r.Granted m ∧ raw = m.bytesAt (r.start m) (PlainData.size α) := by
  have back := PlainData.Lawful.encodeDecode (α := α)
    (m.bytesAt (r.start m) (PlainData.size α)) (m.bytesAtLength _ _)
  rw [mapOk]
  constructor
  · rintro ⟨value, found, rfl⟩
    obtain ⟨granted, rfl⟩ := ok.mp found
    exact ⟨granted, back⟩
  · rintro ⟨granted, rfl⟩
    exact ⟨_, ok.mpr ⟨granted, rfl⟩, back.symm⟩

end Words

theorem sliceOkIff {m : Memory} {address length : UInt64} {s : Slice} :
    m.slice address length = .ok s ↔ Reach.Granted ⟨address, length.toNat, 1⟩ m ∧
      s = ⟨m, (m.translate address).toNat, length.toNat⟩ :=
  rangeOnly (fun start => Slice.mk m start length.toNat)

theorem readBlockOkIff {m : Memory} {address length : UInt64} {raw : List UInt8} :
    m.readBlock address length = .ok raw ↔ Reach.Granted ⟨address, length.toNat, 1⟩ m ∧
      raw = m.bytesAt (m.translate address).toNat length.toNat := by
  rw [readBlock, bindOk]
  simp only [sliceOkIff, pureOk]
  constructor
  · rintro ⟨_, ⟨granted, rfl⟩, rfl⟩
    exact ⟨granted, rfl⟩
  · rintro ⟨granted, rfl⟩
    exact ⟨_, ⟨granted, rfl⟩, rfl⟩

theorem writeBlockOkIff {m after : Memory} {address : UInt64} {values : List UInt8} :
    m.writeBlock address values = .ok after ↔ Reach.Granted ⟨address, values.length, 1⟩ m ∧
      after = m.store (m.translate address).toNat values :=
  rangeOnly (fun start => m.store start values)

theorem fillOkIff {m after : Memory} {address length : UInt64} {value : UInt8} :
    m.fill address length value = .ok after ↔ Reach.Granted ⟨address, length.toNat, 1⟩ m ∧
      after = m.store (m.translate address).toNat (List.replicate length.toNat value) := by
  have filled (granted : Reach.Granted ⟨address, length.toNat, 1⟩ m) :=
    @fillStore m _ length.toNat value (fitsIff.mp granted.1)
  unfold fill
  rw [rangeOnly]
  constructor
  · rintro ⟨granted, rfl⟩
    exact ⟨granted, filled granted⟩
  · rintro ⟨granted, rfl⟩
    exact ⟨granted, (filled granted).symm⟩

theorem scatterOkIff {m after : Memory} {address length : UInt64}
    {values : List (UInt8 × Fin length.toNat)} :
    m.scatter address length values = .ok after ↔
      Reach.Granted ⟨address, length.toNat, 1⟩ m ∧
        after = m.place (m.translate address).toNat
          (values.map fun cell => (cell.1, cell.2.val)) := by
  rw [scatter, rangeOnly]
  simp only [place, List.foldl_map]

theorem readU8Ok (m : Memory) (address : UInt64) :
    m.readU8 address = .ok (m.byte (m.translate address).toNat) :=
  readOkIff.mpr ⟨Reach.grantedOne m address,
    (PlainData.decodeEncodeUInt8 (m.byte (m.translate address).toNat)).symm⟩

theorem writeU8Ok (m : Memory) (address : UInt64) (value : UInt8) :
    m.writeU8 address value = .ok (m.store (m.translate address).toNat [value]) :=
  writeOkIff.mpr ⟨Reach.grantedOne m address, rfl⟩

theorem storeOkIff {s : Store} {m after : Memory} :
    s.attempt m = .ok after ↔ s.reach.Granted m ∧ after = m.place (s.reach.start m) s.cells := by
  cases s with
  | u8 address value => exact writeOkIff
  | u16 address value => rw [Store.cells, ← storePlace]; exact writeWordOkIff
  | u32 address value => rw [Store.cells, ← storePlace]; exact writeWordOkIff
  | u64 address value => rw [Store.cells, ← storePlace]; exact writeWordOkIff
  | plain address value => rw [Store.cells, ← storePlace]; exact writeOkIff
  | block address values => rw [Store.cells, ← storePlace]; exact writeBlockOkIff
  | fill address length value => rw [Store.cells, ← storePlace]; exact fillOkIff
  | zero address length => rw [Store.cells, ← storePlace]; exact fillOkIff
  | scatter address length values => exact scatterOkIff

theorem loadOkIff {l : Load} {m : Memory} {raw : List UInt8} :
    l.attempt m = .ok raw ↔
      l.reach.Granted m ∧ raw = m.bytesAt (l.reach.start m) l.reach.width := by
  cases l with
  | u8 address => exact bytesOfValue readOkIff
  | u16 address => exact bytesOfValue readWordOkIff
  | u32 address => exact bytesOfValue readWordOkIff
  | u64 address => exact bytesOfValue readWordOkIff
  | plain α address => exact bytesOfValue readOkIff
  | block address length => exact readBlockOkIff
  | slice address length =>
    rw [Load.attempt, mapOk]
    simp only [sliceOkIff]
    constructor
    · rintro ⟨_, ⟨granted, rfl⟩, rfl⟩
      exact ⟨granted, rfl⟩
    · rintro ⟨granted, rfl⟩
      exact ⟨_, ⟨granted, rfl⟩, rfl⟩

theorem cellsInside {s : Store} {cell : UInt8 × Nat} (member : cell ∈ s.cells) :
    cell.2 < s.reach.width := by
  have bound {values : List UInt8} (member : cell ∈ values.zipIdx) : cell.2 < values.length := by
    have h := (List.mem_zipIdx member).2.1
    omega
  cases s with
  | u8 address value => exact @bound [value] member
  | u16 address value => simpa [Store.reach] using bound member
  | u32 address value => simpa [Store.reach] using bound member
  | u64 address value => simpa [Store.reach] using bound member
  | plain address value => simpa [Store.reach, PlainData.Lawful.encodeLength] using bound member
  | block address values => exact bound member
  | fill address length value => simpa [Store.reach] using bound member
  | zero address length => simpa [Store.reach] using bound member
  | scatter address length values =>
    obtain ⟨original, _, rfl⟩ := List.mem_map.mp member
    exact original.2.isLt

theorem offsetsInside {s : Store} {m : Memory} (granted : s.reach.Granted m) :
    ∀ cell ∈ s.cells, s.reach.start m + cell.2 < 2 ^ m.bits := by
  intro cell member
  have width := cellsInside member
  have inside := Reach.inside granted
  omega

end GameConsole.Memory
