import GameConsole.Program.Loader
import GameConsole.Proofs.Memory.History

/-! Placing an image. What a loader checks before it copies is what the copy asks for, so that an
image is in memory as a whole or not at all, and no fault of memory is left to report. -/
namespace GameConsole

namespace Memory

theorem contentsStore {m : Memory} {start : Nat} {values : List UInt8}
    (inside : start + values.length ≤ 2 ^ m.bits) :
    (m.store start values).contents =
      m.contents.take start ++ (values ++ m.contents.drop (start + values.length)) := by
  apply List.ext_getElem?
  intro i
  have before : (m.contents.take start).length = start := by
    rw [List.length_take, contentsLength]
    omega
  rw [contentsGet, bitsStore]
  obtain early | ⟨k, rfl⟩ : i < start ∨ ∃ k, i = start + k :=
    (Nat.lt_or_ge i start).imp id Nat.exists_eq_add_of_le
  · rw [List.getElem?_append_left (by omega), List.getElem?_take_of_lt early, contentsGet]
    split
    · rename_i small
      rw [byteStore m _ _ _ inside small, if_neg (by omega)]
    · rfl
  · rw [List.getElem?_append_right (by omega), before, Nat.add_sub_cancel_left]
    obtain within | ⟨j, rfl⟩ : k < values.length ∨ ∃ j, k = values.length + j :=
      (Nat.lt_or_ge k _).imp id Nat.exists_eq_add_of_le
    · have small : start + k < 2 ^ m.bits := by omega
      rw [List.getElem?_append_left within, if_pos small, byteStore m _ _ _ inside small,
        if_pos (Nat.le_add_right _ _), Nat.add_sub_cancel_left, List.getElem?_eq_getElem within]
      rfl
    · rw [List.getElem?_append_right (Nat.le_add_right _ _), Nat.add_sub_cancel_left,
        List.getElem?_drop, contentsGet, Nat.add_assoc]
      split
      · rename_i small
        rw [byteStore m _ _ _ inside small, if_pos (Nat.le_add_right _ _), Nat.add_sub_cancel_left,
          List.getElem?_eq_none (Nat.le_add_right _ _)]
        rfl
      · rfl

theorem writeBlockAt {m : Memory} {address : UInt64} {start : Nat} {values : List UInt8}
    (place : (m.translate address).toNat = start) (inside : start + values.length ≤ 2 ^ m.bits) :
    m.writeBlock address values = .ok (m.store start values) := by
  subst place
  exact writeBlockOkIff.mpr ⟨⟨fitsIff.mpr inside, fun _ => Nat.one_dvd _⟩, rfl⟩

end Memory

namespace Loader

variable {image : List UInt8} {address : UInt64} {m : Memory}

theorem writeFits (room : (m.translate address).toNat + image.length ≤ m.size.toNat) :
    m.fits address image.length = true ∧
      m.writeBlock address image = .ok (m.store (m.translate address).toNat image) := by
  rw [Memory.sizeToNat] at room
  exact ⟨Memory.fitsIff.mpr room, Memory.writeBlockAt rfl room⟩

theorem copyFits (filled : image ≠ [])
    (room : (m.translate address).toNat + image.length ≤ m.size.toNat) :
    copy image address m = .ok (m.store (m.translate address).toNat image) := by
  obtain ⟨fits, written⟩ := writeFits room
  rw [copy, List.isEmpty_eq_false_iff.mpr filled, if_neg Bool.false_ne_true, if_pos fits, written]
  rfl

theorem copyTooLarge (filled : image ≠ [])
    (full : m.size.toNat < (m.translate address).toNat + image.length) :
    copy image address m = .error (.tooLarge address image.length) := by
  have outside : ¬ m.fits address image.length = true := by
    rw [Memory.fitsIff, ← Memory.sizeToNat]
    exact Nat.not_le.mpr full
  rw [copy, List.isEmpty_eq_false_iff.mpr filled, if_neg Bool.false_ne_true, if_neg outside]

def described (description : String) : LoadResult → LoadResult
  | .loaded image => .loaded { image with description }
  | other => other

theorem placeDescribed (first second : String) :
    place image address second m =
      ((place image address first m).1, described second (place image address first m).2) := by
  unfold place
  cases copy image address m <;> rfl

theorem flatFileAgrees (path : String) (image : List UInt8) (address : UInt64) (m : Memory) :
    flatFile path (.ok image) address m =
      ((rawImage image address m).1,
        described (sized path image) (rawImage image address m).2) :=
  placeDescribed (sized "raw image" image) (sized path image)

theorem rawImageOutcome (image : List UInt8) (address : UInt64) (m : Memory) :
    let start := (m.translate address).toNat
    let stop := start + image.length
    image = [] ∧ rawImage image address m = (m, .failed .empty) ∨
    image ≠ [] ∧ stop ≤ m.size.toNat ∧ rawImage image address m =
      (m.store start image, .loaded ⟨address, sized "raw image" image⟩) ∨
    image ≠ [] ∧ m.size.toNat < stop ∧ rawImage image address m =
      (m, .failed (.tooLarge address image.length)) := by
  intro start stop
  by_cases empty : image = []
  · subst empty
    exact .inl ⟨rfl, rfl⟩
  obtain full | room := Nat.lt_or_ge m.size.toNat stop
  · refine .inr (.inr ⟨empty, full, ?_⟩)
    rw [rawImage, place, copyTooLarge empty full]
  · exact .inr (.inl ⟨empty, room, rawImageLoaded (copyFits empty room)⟩)

theorem imagePlacedOrRefused (image : List UInt8) (address : UInt64) (m : Memory) :
    let start := (m.translate address).toNat
    let stop := start + image.length
    let after := (rawImage image address m).1
    let result := (rawImage image address m).2
    (image ≠ [] ∧ stop ≤ m.size.toNat →
      result = .loaded ⟨address, sized "raw image" image⟩ ∧
      after.contents = m.contents.take start ++ (image ++ m.contents.drop stop) ∧
      (∃ bytes, after = { m with bytes }) ∧
      after.readBlock address image.length.toUInt64 = .ok image) ∧
    (image = [] → after = m ∧ result = .failed .empty) ∧
    (image ≠ [] ∧ m.size.toNat < stop →
      after = m ∧ result = .failed (.tooLarge address image.length)) ∧
    (∀ fault, result ≠ .failed (.memory fault)) ∧
    ∀ path, flatFile path (.ok image) address m = (after, described (sized path image) result) := by
  intro start stop after result
  have flat (path : String) : flatFile path (.ok image) address m =
    (after, described (sized path image) result) := flatFileAgrees path image address m
  obtain ⟨empty, outcome⟩ | ⟨filled, room, outcome⟩ | ⟨filled, full, outcome⟩ :=
    rawImageOutcome image address m
  all_goals
    have left : after = _ := congrArg Prod.fst outcome
    have told : result = _ := congrArg Prod.snd outcome
    rw [left, told] at flat ⊢
  · refine ⟨fun fits => absurd empty fits.1, fun _ => ⟨rfl, rfl⟩,
      fun large => absurd empty large.1, ?_, flat⟩
    rintro fault ⟨⟩
  · have inside : stop ≤ 2 ^ m.bits := m.sizeToNat ▸ room
    refine ⟨fun _ => ⟨rfl, Memory.contentsStore inside, ⟨_, rfl⟩,
        Memory.readBlockWritten (writeFits room).2⟩,
      fun none => absurd none filled, fun large => absurd room (Nat.not_le.mpr large.2), ?_, flat⟩
    rintro fault ⟨⟩
  · refine ⟨fun fits => absurd fits.2 (Nat.not_le.mpr full), fun none => absurd none filled,
      fun _ => ⟨rfl, rfl⟩, ?_, flat⟩
    rintro fault ⟨⟩

end Loader

end GameConsole
