import GameConsole.Proofs.Memory.Interchange
import GameConsole.Proofs.Program.Boot
import GameConsole.Proofs.Program.Placement

/-! How much memory the built-in program asks for. Its parts go to fixed addresses, which are folded
into whatever memory there is. Where the program itself has no room, nothing is written. Where it
has, every write succeeds; but in less than the extent of the whole image the banner is folded to
where the program begins, and is put over it. -/
namespace GameConsole

namespace Memory

theorem storeAppend (m : Memory) (start : Nat) (first second : List UInt8) :
    (m.store start first).store (start + first.length) second =
      m.store start (first ++ second) := by
  induction first generalizing m start with
  | nil => rfl
  | cons value rest ih =>
    rw [List.length_cons, Nat.add_comm rest.length, ← Nat.add_assoc]
    exact ih (m.store start [value]) (start + 1)

theorem bytesAtApart {m : Memory} {start place count : Nat} {values : List UInt8}
    (inside : start + values.length ≤ 2 ^ m.bits) (within : place + count ≤ 2 ^ m.bits)
    (apart : place + count ≤ start ∨ start + values.length ≤ place) :
    (m.store start values).bytesAt place count = m.bytesAt place count := by
  refine List.map_congr_left fun k member => ?_
  have small := List.mem_range.mp member
  refine (byteStore m start values (place + k) inside (by omega)).trans ?_
  split
  case isTrue later =>
    rw [List.getElem?_eq_none (by omega)]
    rfl
  case isFalse => rfl

theorem bytesAtOverlaid {m : Memory} {start : Nat} {below above : List UInt8}
    (short : above.length ≤ below.length) (inside : start + below.length ≤ 2 ^ m.bits) :
    ((m.store start below).store start above).bytesAt start below.length =
      above ++ below.drop above.length := by
  obtain ⟨more, length⟩ := Nat.exists_eq_add_of_le short
  have stored := m.bytesAtStored inside
  rw [length, bytesAtAppend] at stored
  rw [length] at inside ⊢
  have front : ((m.store start below).store start above).bytesAt start above.length = above :=
    bytesAtStored (by rw [bitsStore]; omega)
  have behind : ((m.store start below).store start above).bytesAt (start + above.length) more =
      (m.store start below).bytesAt (start + above.length) more :=
    bytesAtApart (by rw [bitsStore]; omega) (by rw [bitsStore]; omega) (.inr (Nat.le_refl _))
  have rest := congrArg (List.drop above.length) stored
  rw [List.drop_left' (bytesAtLength _ _ _)] at rest
  rw [bytesAtAppend, front, behind, rest]

end Memory

namespace Bios
open Memory (Reach)

def bannerText : List UInt8 := bannerBytes ++ [0]

theorem lengths :
    program.length = 75 ∧ bannerBytes.length = 28 ∧ bannerText.length = 29 := by
  decide +kernel

theorem loadRefused {m : Memory} (full : m.size.toNat < program.length) :
    load m = (m, .failed (.memory (.outOfBounds entry program.length m.size))) := by
  let r : Reach := reach (entry, program)
  have short : r.width ≤ 2 ^ 63 := by
    refine lengths.1.trans_le ?_
    decide
  have outside : m.size.toNat < r.start m + r.width := Nat.lt_add_left _ full
  have refused : m.writeBlock entry program =
      .error (.outOfBounds entry program.length m.size) := by
    refine (Memory.rangeOnlySettled m entry program.length (m.store · program)).trans ?_
    have fault : Reach.rangeFault? ⟨entry, program.length, 1⟩ m = _ :=
      Reach.rangeFaultShort short outside
    rw [Reach.fault?, fault]
    rfl
  rw [load, writeAll, refused]

theorem partConfined {address : UInt64} {bytes : List UInt8} {m : Memory}
    (granted : (reach (address, bytes)).Granted m) :
    m.Confined (m.store (m.translate address).toNat bytes) [reach (address, bytes)] :=
  Memory.storeConfined (r := reach (address, bytes)) granted rfl

theorem entryStart (m : Memory) : (m.translate entry).toNat = 0 := by
  have start : (m.translate entry).toNat = (entry.toNat - entry.toNat) % 2 ^ m.bits :=
    startAbove (r := ⟨entry, 0, 1⟩) (Nat.le_refl _) m
  rw [start, Nat.sub_self, Nat.zero_mod]

section Room
variable {m : Memory} (room : program.length ≤ m.size.toNat)
include room

theorem bannerStart :
    let start := (m.translate bannerAddress).toNat
    start = (if 0x400 ≤ m.size then 0x200 else 0) ∧
      (m.translate (bannerAddress + bannerBytes.length.toUInt64)).toNat =
        start + bannerBytes.length ∧
      start + bannerText.length ≤ 2 ^ m.bits := by
  intro start
  obtain ⟨programLength, bannerLength, textLength⟩ := lengths
  have banner : start = 0x200 % 2 ^ m.bits :=
    startAbove (r := ⟨bannerAddress, 0, 1⟩) (by decide) m
  have terminator : (m.translate (bannerAddress + bannerBytes.length.toUInt64)).toNat =
      0x21c % 2 ^ m.bits := by
    rw [bannerLength]
    exact startAbove (r := ⟨bannerAddress + 28, 0, 1⟩) (by decide) m
  have size : 0x400 ≤ m.size ↔ 0x400 ≤ 2 ^ m.bits := by
    rw [UInt64.le_iff_toNat_le, Memory.sizeToNat]
    rfl
  rw [Memory.sizeToNat, programLength] at room
  rw [terminator, banner, bannerLength, textLength, if_congr size rfl rfl]
  have seven : 7 ≤ m.bits := by
    by_contra few
    have small : 2 ^ m.bits ≤ 2 ^ 6 :=
      Nat.pow_le_pow_right (by decide) (Nat.le_of_lt_succ (Nat.lt_of_not_le few))
    omega
  obtain large | small := Nat.lt_or_ge 9 m.bits
  · have wide : 0x400 ≤ 2 ^ m.bits := Nat.pow_le_pow_right Nat.two_pos large
    rw [if_pos wide, Nat.mod_eq_of_lt (by omega), Nat.mod_eq_of_lt (by omega)]
    omega
  · exact (by decide : ∀ bits < 10, 7 ≤ bits →
      0x200 % 2 ^ bits = (if 0x400 ≤ 2 ^ bits then 0x200 else 0) ∧
        0x21c % 2 ^ bits = 0x200 % 2 ^ bits + 28 ∧ 0x200 % 2 ^ bits + 29 ≤ 2 ^ bits)
      m.bits (Nat.lt_succ_of_le small) seven

theorem partsGranted :
    (reach (entry, program)).Granted m ∧ (reach (bannerAddress, bannerText)).Granted m := by
  obtain ⟨-, -, inside⟩ := bannerStart room
  have whole : (m.translate entry).toNat + program.length ≤ 2 ^ m.bits := by
    rwa [entryStart, Nat.zero_add, ← Memory.sizeToNat]
  exact ⟨⟨Memory.fitsIff.mpr whole, fun _ => Nat.one_dvd _⟩,
    ⟨Memory.fitsIff.mpr inside, fun _ => Nat.one_dvd _⟩⟩

theorem loadPlaces :
    load m = ((m.store (m.translate entry).toNat program).store
      (m.translate bannerAddress).toNat bannerText, .loaded ⟨entry, "internal BIOS"⟩) := by
  obtain ⟨-, follows, inside⟩ := bannerStart room
  rw [bannerText, List.length_append] at inside
  let start := (m.translate bannerAddress).toNat
  let first := m.store (m.translate entry).toNat program
  let second := first.store start bannerBytes
  have placed : m.writeBlock entry program = .ok first :=
    Memory.writeBlockOkIff.mpr ⟨(partsGranted room).1, rfl⟩
  have headed : first.writeBlock bannerAddress bannerBytes = .ok second :=
    Memory.writeBlockAt rfl (Nat.le_of_lt inside)
  have ended : second.writeBlock (bannerAddress + bannerBytes.length.toUInt64) [0] =
      .ok (second.store (start + bannerBytes.length) [0]) :=
    Memory.writeBlockAt follows inside
  have joined := first.storeAppend start bannerBytes [0]
  simp only [load, writeAll, placed, headed, ended]
  exact congrArg (·, LoadResult.loaded _) joined

theorem loadConfined :
    m.Confined (load m).1 [reach (entry, program), reach (bannerAddress, bannerText)] := by
  obtain ⟨placed, headed⟩ := partsGranted room
  let first := m.store (m.translate entry).toNat program
  have begun : m.Confined first [reach (entry, program)] := partConfined placed
  have finished : first.Confined (first.store (m.translate bannerAddress).toNat bannerText)
      [reach (bannerAddress, bannerText)] := partConfined headed
  rw [loadPlaces room]
  exact begun.trans finished

theorem bannerLoaded {limit : Nat} (reached : bannerBytes.length < limit) :
    (load m).1.readCString bannerAddress limit = .ok bannerBytes := by
  have near : Near (reach (bannerAddress, bannerText)) := by decide +kernel
  have solid : 0 ∉ bannerBytes := by decide +kernel
  let first := m.store (m.translate entry).toNat program
  have written : first.writeBlock bannerAddress bannerText = .ok (load m).1 := by
    rw [loadPlaces room]
    exact Memory.writeBlockOkIff.mpr ⟨(partsGranted room).2, rfl⟩
  have holds := Memory.holdsWritten (uncrossedNear near) written
  exact holds.terminated solid reached

theorem programLoaded :
    (load m).1.readBlock entry program.length.toUInt64 =
      .ok (if 0x400 ≤ m.size then program
        else bannerText ++ program.drop bannerText.length) := by
  obtain ⟨start, -, inside⟩ := bannerStart room
  obtain ⟨placed, headed⟩ := partsGranted room
  obtain ⟨programLength, -, textLength⟩ := lengths
  have whole : (m.translate entry).toNat + program.length ≤ 2 ^ m.bits :=
    Memory.fitsIff.mp placed.1
  have length : program.length.toUInt64.toNat = program.length := by
    rw [programLength]
    rfl
  have granted : Reach.Granted ⟨entry, program.length.toUInt64.toNat, 1⟩ m := by
    rw [length]
    exact placed
  rw [loadPlaces room]
  refine Memory.readBlockOkIff.mpr ⟨granted, Eq.symm ?_⟩
  let first := m.store (m.translate entry).toNat program
  have last := entryStart m
  rw [length]
  split at start
  case isTrue large =>
    have kept := Memory.bytesAtApart (m := first) inside whole (.inl (by omega))
    exact (kept.trans (Memory.bytesAtStored whole)).trans (if_pos large).symm
  case isFalse small =>
    have same : (m.translate bannerAddress).toNat = (m.translate entry).toNat :=
      start.trans last.symm
    have short : bannerText.length ≤ program.length := by omega
    rw [if_neg small, same]
    exact Memory.bytesAtOverlaid short whole

end Room

theorem loadedOrUnchanged (m : Memory) :
    let after := (load m).1
    let result := (load m).2
    (m.size.toNat < program.length →
      after = m ∧ result = .failed (.memory (.outOfBounds entry program.length m.size))) ∧
    (program.length ≤ m.size.toNat →
      result = .loaded ⟨entry, "internal BIOS"⟩ ∧
      m.Confined after [reach (entry, program), reach (bannerAddress, bannerText)] ∧
      (∀ limit > bannerBytes.length, after.readCString bannerAddress limit = .ok bannerBytes) ∧
      after.readBlock entry program.length.toUInt64 = .ok
        (if 0x400 ≤ m.size then program else bannerText ++ program.drop bannerText.length)) := by
  intro after result
  refine ⟨fun full => Prod.mk.inj (loadRefused full), fun room => ?_⟩
  exact ⟨congrArg Prod.snd (loadPlaces room), loadConfined room, fun _ => bannerLoaded room,
    programLoaded room⟩

/- In five hundred and twelve bytes it is loaded without a fault, and the first instruction is no
longer there. -/
theorem loadedOverItself :
    let m := Memory.zeros 9 (by decide) false
    (load m).2 = .loaded ⟨entry, "internal BIOS"⟩ ∧
    (load m).1.readBlock entry 75 ≠ .ok program ∧
    (load m).1.readBlock entry 29 = .ok bannerText ∧
    (load m).1.readBlock entry 3 = .ok [0x57, 0x65, 0x61] ∧
    program.take 3 = [0x48, 0xc7, 0xc0] := by
  decide +kernel

end Bios
end GameConsole
