import GameConsole.Proofs.Memory.Transfer

/-! Memory after any number of stores. Every byte of the buffer is the last that a successful
store has put there, and a load gives what the buffer holds. A store that faults leaves no trace.
The buffer is compared with a plain list of bytes. -/
namespace GameConsole.Memory

def overwrite (buffer : List UInt8) (cells : List (UInt8 × Nat)) : List UInt8 :=
  cells.foldl (fun buffer cell => buffer.set cell.2 cell.1) buffer

def lastAt (cells : List (UInt8 × Nat)) (i : Nat) : Option UInt8 :=
  (cells.reverse.find? fun cell => cell.2 == i).map Prod.fst

theorem lastAtCons (cell : UInt8 × Nat) (rest : List (UInt8 × Nat)) (i : Nat) :
    lastAt (cell :: rest) i = (lastAt rest i).or (if cell.2 = i then some cell.1 else none) := by
  unfold lastAt
  rw [List.reverse_cons, List.find?_append]
  cases rest.reverse.find? (fun cell => cell.2 == i) with
  | some found => rfl
  | none => by_cases here : cell.2 = i <;> simp [here]

theorem lastAtSource {cells : List (UInt8 × Nat)} {i : Nat} {value : UInt8}
    (found : lastAt cells i = some value) : (value, i) ∈ cells := by
  obtain ⟨cell, at_, rfl⟩ := Option.map_eq_some_iff.mp found
  have here : cell.2 = i := by simpa using List.find?_some at_
  subst here
  exact List.mem_reverse.mp (List.mem_of_find?_eq_some at_)

theorem lastAtNone {cells : List (UInt8 × Nat)} {i : Nat} (absent : ∀ cell ∈ cells, cell.2 ≠ i) :
    lastAt cells i = none := by
  cases found : lastAt cells i with
  | none => rfl
  | some value => exact absurd rfl (absent _ (lastAtSource found))

theorem overwriteGet (buffer : List UInt8) (cells : List (UInt8 × Nat)) (i : Nat) :
    (overwrite buffer cells)[i]? = buffer[i]?.map fun old => (lastAt cells i).getD old := by
  induction cells generalizing buffer with
  | nil => simp [overwrite, lastAt]
  | cons cell rest ih =>
    have later := ih (buffer.set cell.2 cell.1)
    rw [List.getElem?_set] at later
    change (overwrite (buffer.set cell.2 cell.1) rest)[i]? = _
    rw [later, lastAtCons]
    cases lastAt rest i <;> cases old : buffer[i]? <;> grind

theorem overwriteAppend (buffer : List UInt8) (first second : List (UInt8 × Nat)) :
    overwrite buffer (first ++ second) = overwrite (overwrite buffer first) second :=
  List.foldl_append

theorem overwriteCommute (buffer : List UInt8) {first second : List (UInt8 × Nat)}
    (apart : ∀ a ∈ first, ∀ b ∈ second, a.2 ≠ b.2) :
    overwrite (overwrite buffer first) second = overwrite (overwrite buffer second) first := by
  apply List.ext_getElem?
  intro i
  simp only [overwriteGet]
  cases buffer[i]? with
  | none => rfl
  | some old =>
    cases found : lastAt first i with
    | none => rfl
    | some value =>
      have none : lastAt second i = none :=
        lastAtNone fun cell member same => apart _ (lastAtSource found) cell member same.symm
      simp [none]

namespace Store

def writes (s : Store) (m : Memory) : List (UInt8 × Nat) :=
  s.cells.map fun cell => (cell.1, s.reach.start m + cell.2)

def perform (m : Memory) (s : Store) : Memory :=
  match s.attempt m with
  | .ok after => after
  | .error _ => m

def run (m : Memory) : List Store → Memory × List Store
  | [] => (m, [])
  | s :: rest =>
    match s.attempt m with
    | .ok after => ((run after rest).1, s :: (run after rest).2)
    | .error _ => run m rest

end Store

theorem attemptGranted {s : Store} {m : Memory} (granted : s.reach.Granted m) :
    s.attempt m = .ok (m.place (s.reach.start m) s.cells) := storeOkIff.mpr ⟨granted, rfl⟩

theorem attemptRefused {s : Store} {m : Memory} (refused : ¬ s.reach.Granted m) :
    ∃ fault, s.attempt m = .error fault := by
  cases h : s.attempt m with
  | error fault => exact ⟨fault, rfl⟩
  | ok after => exact absurd (storeOkIff.mp h).1 refused

theorem performGranted {s : Store} {m : Memory} (granted : s.reach.Granted m) :
    s.perform m = m.place (s.reach.start m) s.cells := by
  rw [Store.perform, attemptGranted granted]

theorem performRefused {s : Store} {m : Memory} (refused : ¬ s.reach.Granted m) :
    s.perform m = m := by
  obtain ⟨fault, h⟩ := attemptRefused refused
  rw [Store.perform, h]

theorem performShape (m : Memory) (s : Store) : ∃ bytes, s.perform m = { m with bytes } := by
  by_cases granted : s.reach.Granted m
  · rw [performGranted granted]
    exact m.placeShape _ _
  · rw [performRefused granted]
    exact ⟨m.bytes, rfl⟩

theorem contentsGranted {s : Store} {m : Memory} (granted : s.reach.Granted m) :
    (m.place (s.reach.start m) s.cells).contents = overwrite m.contents (s.writes m) := by
  rw [contentsPlace (offsetsInside granted), overwrite, Store.writes, List.foldl_map]

/- The run lemma. What is written where depends on the kind of memory only, so that the stores
can be looked at one by one from the memory that they all started from. -/
theorem runOverwrites (m : Memory) (stores : List Store) :
    (Store.run m stores).1.contents =
      overwrite m.contents ((Store.run m stores).2.flatMap fun s => s.writes m) := by
  induction stores generalizing m with
  | nil => rfl
  | cons s rest ih =>
    by_cases granted : s.reach.Granted m
    · have later := ih (m.place (s.reach.start m) s.cells)
      rw [contentsGranted granted] at later
      simp only [Store.writes, startPlace] at later
      rw [Store.run, attemptGranted granted, List.flatMap_cons, overwriteAppend]
      exact later
    · obtain ⟨fault, refused⟩ := attemptRefused granted
      rw [Store.run, refused]
      exact ih m

theorem runShape (m : Memory) (stores : List Store) :
    ∃ bytes, (Store.run m stores).1 = { m with bytes } := by
  induction stores generalizing m with
  | nil => exact ⟨m.bytes, rfl⟩
  | cons s rest ih =>
    rw [Store.run]
    split
    · rename_i after ok
      obtain ⟨_, rfl⟩ := storeOkIff.mp ok
      obtain ⟨between, placed⟩ := m.placeShape (s.reach.start m) s.cells
      rw [placed]
      exact ih { m with bytes := between }
    · exact ih m

theorem runSucceeds (m : Memory) (stores : List Store) :
    (Store.run m stores).2 = stores.filter fun s => s.reach.Granted m := by
  induction stores generalizing m with
  | nil => rfl
  | cons s rest ih =>
    by_cases granted : s.reach.Granted m
    · have later := ih (m.place (s.reach.start m) s.cells)
      simp only [grantedPlace] at later
      rw [Store.run, attemptGranted granted, List.filter_cons_of_pos (by simpa using granted)]
      exact congrArg (s :: ·) later
    · obtain ⟨fault, refused⟩ := attemptRefused granted
      rw [Store.run, refused, List.filter_cons_of_neg (by simpa using granted)]
      exact ih m

theorem startRun (m : Memory) (stores : List Store) (r : Reach) :
    r.start (Store.run m stores).1 = r.start m := by
  obtain ⟨bytes, same⟩ := m.runShape stores
  rw [same]
  rfl

theorem bitsRun (m : Memory) (stores : List Store) : (Store.run m stores).1.bits = m.bits := by
  obtain ⟨bytes, same⟩ := m.runShape stores
  rw [same]

theorem bytesOfContents {m : Memory} {start width : Nat} (byte : Nat → UInt8)
    (inside : start + width ≤ 2 ^ m.bits)
    (same : ∀ i, i < 2 ^ m.bits → m.contents[i]? = some (byte i)) :
    m.bytesAt start width = (List.range width).map fun k => byte (start + k) := by
  refine List.map_congr_left fun k member => ?_
  have small : start + k < 2 ^ m.bits := by
    have h := List.mem_range.mp member
    omega
  have h := same _ small
  rw [contentsGet, if_pos small] at h
  exact Option.some.inj h

theorem loadAfterRun {m : Memory} (blank : m.contents = List.replicate (2 ^ m.bits) 0)
    (stores : List Store) {l : Load} {raw : List UInt8}
    (ok : l.attempt (Store.run m stores).1 = .ok raw) :
    raw = (List.range l.reach.width).map fun k =>
      (lastAt ((Store.run m stores).2.flatMap fun s => s.writes m)
        (l.reach.start m + k)).getD 0 := by
  obtain ⟨granted, rfl⟩ := loadOkIff.mp ok
  have room := Reach.inside granted
  rw [startRun] at room ⊢
  refine bytesOfContents (fun i => (lastAt _ i).getD 0) room fun i small => ?_
  rw [bitsRun] at small
  rw [runOverwrites, overwriteGet, blank, List.getElem?_replicate, if_pos small]
  rfl

theorem bytesAtStored {m : Memory} {start : Nat} {values : List UInt8}
    (inside : start + values.length ≤ 2 ^ m.bits) :
    (m.store start values).bytesAt start values.length = values := by
  apply List.ext_getElem?
  intro k
  rw [bytesAtGet]
  split
  · rename_i small
    rw [byteStore m start values _ inside (by omega), if_pos (by omega), Nat.add_sub_cancel_left,
      List.getElem?_eq_getElem small]
    rfl
  · rename_i large
    exact (List.getElem?_eq_none (by omega)).symm

section ReadBack
variable {m after : Memory} {address : UInt64}

theorem decodeStored {α : Type} [PlainData α] [PlainData.Lawful α] {value : α}
    (granted : Reach.Granted ⟨address, PlainData.size α, PlainData.align α⟩ m) :
    PlainData.decode ((m.store (m.translate address).toNat (PlainData.encode value)).bytesAt
      (m.translate address).toNat (PlainData.size α)) = value := by
  have length := PlainData.Lawful.encodeLength value
  have room := fitsIff.mp granted.1
  rw [← length, bytesAtStored (by rw [length]; exact room), PlainData.Lawful.decodeEncode]

theorem bytesWritten {α : Type} [PlainData α] [PlainData.Lawful α] {value : α}
    (ok : m.write address value = .ok after) :
    after.bytesAt (m.translate address).toNat (PlainData.size α) = PlainData.encode value := by
  obtain ⟨granted, rfl⟩ := writeOkIff.mp ok
  have length := PlainData.Lawful.encodeLength value
  have room := fitsIff.mp granted.1
  rw [← length]
  exact bytesAtStored (by rw [length]; exact room)

theorem readWritten {α : Type} [PlainData α] [PlainData.Lawful α] {value : α}
    (ok : m.write address value = .ok after) : after.read address = .ok value := by
  obtain ⟨granted, rfl⟩ := writeOkIff.mp ok
  exact readOkIff.mpr ⟨granted, (decodeStored granted).symm⟩

theorem readWordWritten {α : Type} [PlainData α] [PlainData.Lawful α] {value : α}
    (ok : m.writeWord address value = .ok after) : after.readWord address = .ok value := by
  obtain ⟨granted, rfl⟩ := writeWordOkIff.mp ok
  exact readWordOkIff.mpr ⟨granted, (decodeStored granted).symm⟩

theorem readBlockWritten {values : List UInt8} (ok : m.writeBlock address values = .ok after) :
    after.readBlock address values.length.toUInt64 = .ok values := by
  obtain ⟨granted, rfl⟩ := writeBlockOkIff.mp ok
  have room : (m.translate address).toNat + values.length ≤ 2 ^ m.bits := fitsIff.mp granted.1
  have size := m.sizeSmall
  have length : values.length.toUInt64.toNat = values.length := by
    rw [Nat.toUInt64_eq, UInt64.toNat_ofNat', Nat.mod_eq_of_lt (by omega)]
  refine readBlockOkIff.mpr ⟨by rw [length]; exact granted, ?_⟩
  rw [length]
  exact (bytesAtStored room).symm

end ReadBack

theorem writesApart {s t : Store} {m : Memory} (apart : s.reach.Apart t.reach m) :
    ∀ a ∈ s.writes m, ∀ b ∈ t.writes m, a.2 ≠ b.2 := by
  intro a left b right
  obtain ⟨cell, inS, rfl⟩ := List.mem_map.mp left
  obtain ⟨other, inT, rfl⟩ := List.mem_map.mp right
  have hs := cellsInside inS
  have ht := cellsInside inT
  simp only [Reach.Apart] at apart
  omega

theorem performTwiceShape (m : Memory) (s t : Store) :
    ∃ bytes, t.perform (s.perform m) = { m with bytes } := by
  obtain ⟨between, same⟩ := m.performShape s
  rw [same]
  exact performShape { m with bytes := between } t

theorem performTwiceContents {s t : Store} {m : Memory} (hs : s.reach.Granted m)
    (ht : t.reach.Granted m) :
    (t.perform (s.perform m)).contents =
      overwrite (overwrite m.contents (s.writes m)) (t.writes m) := by
  have later : t.reach.Granted (m.place (s.reach.start m) s.cells) :=
    (m.grantedPlace _ _ _).mpr ht
  rw [performGranted hs, performGranted later, contentsGranted later, contentsGranted hs]
  simp only [Store.writes, startPlace]

theorem storesApartCommute {s t : Store} {m : Memory} (apart : s.reach.Apart t.reach m) :
    t.perform (s.perform m) = s.perform (t.perform m) := by
  by_cases hs : s.reach.Granted m
  · by_cases ht : t.reach.Granted m
    · have same : (t.perform (s.perform m)).contents = (s.perform (t.perform m)).contents := by
        rw [performTwiceContents hs ht, performTwiceContents ht hs,
          overwriteCommute _ (writesApart apart)]
      obtain ⟨_, left⟩ := m.performTwiceShape s t
      obtain ⟨_, right⟩ := m.performTwiceShape t s
      rw [left, right] at same ⊢
      exact eqOfContents same
    · rw [performRefused ht, performGranted hs, performRefused (by simpa using ht)]
  · rw [performRefused hs]
    by_cases ht : t.reach.Granted m
    · rw [performGranted ht, performRefused (by simpa using hs)]
    · rw [performRefused ht, performRefused hs]

theorem bytesApart {s : Store} {m : Memory} {r : Reach} (hs : s.reach.Granted m)
    (hr : r.Granted m) (apart : s.reach.Apart r m) :
    (m.place (s.reach.start m) s.cells).bytesAt (r.start m) r.width =
      m.bytesAt (r.start m) r.width := by
  refine List.map_congr_left fun k member => ?_
  have inside := List.mem_range.mp member
  have room := Reach.inside hr
  have small : r.start m + k < 2 ^ m.bits := by omega
  have untouched : lastAt (s.writes m) (r.start m + k) = none := lastAtNone fun cell written => by
    obtain ⟨original, within_, rfl⟩ := List.mem_map.mp written
    have hc := cellsInside within_
    simp only [Reach.Apart] at apart
    omega
  have h := congrArg (fun buffer => buffer[r.start m + k]?) (contentsGranted hs)
  simp only [overwriteGet, contentsGet, bitsPlace, if_pos small, untouched] at h
  exact Option.some.inj h

theorem loadApart {s : Store} {l : Load} {m : Memory} (apart : s.reach.Apart l.reach m)
    (raw : List UInt8) : l.attempt (s.perform m) = .ok raw ↔ l.attempt m = .ok raw := by
  by_cases hs : s.reach.Granted m
  · rw [performGranted hs, loadOkIff, loadOkIff, grantedPlace, startPlace]
    refine and_congr_right fun hl => ?_
    rw [bytesApart hs hl apart]
  · rw [performRefused hs]

theorem createdBlank {config : MemoryConfig} {granted : Bool} {m : Memory}
    (created : create config granted = .ok m) :
    2 ^ m.bits = config.sizeBytes.toNat ∧ m.contents = List.replicate (2 ^ m.bits) 0 := by
  unfold create at created
  dsimp only at created
  split at created
  · contradiction
  · rename_i power
    split at created
    · cases created
      refine ⟨(Decidable.of_not_not power).symm, List.ext_getElem? fun i => ?_⟩
      rw [contentsGet, List.getElem?_replicate]
      rfl
    · contradiction

theorem lastWriteWins {config : MemoryConfig} {granted : Bool} {m : Memory}
    (created : create config granted = .ok m)
    (stores : List Store) :
    let after := (Store.run m stores).1
    let done := (Store.run m stores).2
    let written := done.flatMap fun s => s.writes m
    done = stores.filter (fun s => s.reach.Granted m) ∧
    after.contents = overwrite (List.replicate config.sizeBytes.toNat 0) written ∧
    (∀ (l : Load) (raw : List UInt8), l.attempt after = .ok raw →
      raw = (List.range l.reach.width).map fun k =>
        (lastAt written (l.reach.start m + k)).getD 0) ∧
    (∀ {α : Type} [PlainData α] [PlainData.Lawful α] (address : UInt64) (value : α)
      (again : Memory),
      (after.write address value = .ok again → again.read address = .ok value) ∧
      (after.writeWord address value = .ok again → again.readWord address = .ok value)) ∧
    (∀ (address : UInt64) (values : List UInt8) (again : Memory),
      after.writeBlock address values = .ok again →
        again.readBlock address values.length.toUInt64 = .ok values) ∧
    (∀ s t : Store, s.reach.Apart t.reach m →
      t.perform (s.perform after) = s.perform (t.perform after)) ∧
    ∀ (s : Store) (l : Load), s.reach.Apart l.reach m → ∀ raw : List UInt8,
      l.attempt (s.perform after) = .ok raw ↔ l.attempt after = .ok raw := by
  obtain ⟨size, blank⟩ := createdBlank created
  have sameApart (r q : Reach) (apart : r.Apart q m) : r.Apart q (Store.run m stores).1 := by
    simpa only [Reach.Apart, startRun] using apart
  refine ⟨runSucceeds m stores, ?_, fun l raw ok => loadAfterRun blank stores ok,
    fun address value again => ⟨readWritten, readWordWritten⟩,
    fun address values again => readBlockWritten,
    fun s t apart => storesApartCommute (sameApart _ _ apart),
    fun s l apart => loadApart (sameApart _ _ apart)⟩
  rw [← size, ← blank]
  exact runOverwrites m stores

theorem lastWriteWinsOverlapping :
    let m := zeros 4 (by decide) true
    let stores : List Store :=
      [.u32 0x400008 0x11223344, .u32 6 0x55667788, .block 10 [1, 2, 3], .u8 0x40000D 9]
    create ⟨16, true⟩ true = .ok m ∧ (Store.run m stores).1.contents =
      [0, 0, 0, 0, 0, 0, 0, 0, 0x44, 0x33, 1, 2, 3, 9, 0, 0] := by
  have created : create ⟨16, true⟩ true = .ok (zeros 4 (by decide) true) := rfl
  have result := lastWriteWins created
    [.u32 0x400008 0x11223344, .u32 6 0x55667788, .block 10 [1, 2, 3], .u8 0x40000D 9]
  refine ⟨created, ?_⟩
  rw [result.2.1, result.1]
  decide +kernel

end GameConsole.Memory
