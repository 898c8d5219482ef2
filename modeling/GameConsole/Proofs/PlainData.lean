import GameConsole.PlainData
import Mathlib.Algebra.BigOperators.Ring.Finset
import Mathlib.Tactic.Ring

/-! Layouts that can be relied on: values and byte strings of the right length correspond one to
one. The words have such layouts. Which byte of a number stands where is said here by division,
apart from the loops that pack and unpack it. -/
namespace GameConsole

namespace LittleEndian

theorem splitByDivision (width value : Nat) :
    split width value = (List.range width).map fun k => (value / 256 ^ k).toUInt8 := by
  induction width generalizing value with
  | zero => rfl
  | succ width ih =>
    rw [split, ih, List.range_succ_eq_map, List.map_cons, List.map_map]
    refine congrArg₂ List.cons (by simp) (List.map_congr_left ?_)
    intro k _
    simp only [Function.comp, Nat.div_div_eq_div_mul, Nat.pow_succ, Nat.mul_comm]

theorem splitGet {width value k : Nat} (inside : k < width) :
    (split width value)[k]? = some (value / 256 ^ k).toUInt8 := by
  simp [splitByDivision, inside]

theorem combineBySum (byte : Nat → UInt8) (width : Nat) :
    combine ((List.range width).map byte) = ∑ k ∈ Finset.range width, (byte k).toNat * 256 ^ k := by
  induction width generalizing byte with
  | zero => rfl
  | succ width ih =>
    rw [List.range_succ_eq_map, List.map_cons, List.map_map, combine, ih, Finset.sum_range_succ',
      Finset.mul_sum, Nat.add_comm]
    refine congrArg₂ (· + ·) (Finset.sum_congr rfl ?_) (by simp)
    intro k _
    simp only [Function.comp, Nat.pow_succ]
    ring

end LittleEndian

namespace PlainData
open LittleEndian

class Lawful (α : Type) [PlainData α] : Prop where
  alignPos : 0 < align α
  encodeLength (value : α) : (encode value).length = size α
  decodeEncode (value : α) : decode (encode value) = value
  encodeDecode (raw : List UInt8) : raw.length = size α → encode (decode raw : α) = raw

theorem splitOfCombine {raw : List UInt8} {width word : Nat} (length : raw.length = width)
    (read : word = combine raw % 256 ^ width) : split width word = raw := by
  have bound := combineBound raw
  rw [length] at bound
  rw [read, Nat.mod_eq_of_lt bound, ← length, splitCombine]

instance : Lawful UInt8 where
  alignPos := Nat.succ_pos _
  encodeLength _ := rfl
  decodeEncode := decodeEncodeUInt8
  encodeDecode raw length := by
    obtain ⟨value, rfl⟩ := List.length_eq_one_iff.mp length
    exact congrArg (fun v => [v]) (decodeEncodeUInt8 value)

instance : Lawful UInt16 where
  alignPos := Nat.succ_pos _
  encodeLength value := splitLength 2 value.toNat
  decodeEncode := decodeEncodeUInt16
  encodeDecode raw length := splitOfCombine length (by simp [decode])

instance : Lawful UInt32 where
  alignPos := Nat.succ_pos _
  encodeLength value := splitLength 4 value.toNat
  decodeEncode := decodeEncodeUInt32
  encodeDecode raw length := splitOfCombine length (by simp [decode])

instance : Lawful UInt64 where
  alignPos := Nat.succ_pos _
  encodeLength value := splitLength 8 value.toNat
  decodeEncode := decodeEncodeUInt64
  encodeDecode raw length := splitOfCombine length (by simp [decode])

instance : Lawful Int32 where
  alignPos := Nat.succ_pos _
  encodeLength value := splitLength 4 value.toUInt32.toNat
  decodeEncode value := by
    change (decode (encode value.toUInt32) : UInt32).toInt32 = value
    rw [decodeEncodeUInt32, Int32.toInt32_toUInt32]
  encodeDecode raw length := by
    change encode (decode raw : UInt32).toInt32.toUInt32 = raw
    rw [UInt32.toUInt32_toInt32]
    exact Lawful.encodeDecode (α := UInt32) raw length

instance : Lawful Int64 where
  alignPos := Nat.succ_pos _
  encodeLength value := splitLength 8 value.toUInt64.toNat
  decodeEncode value := by
    change (decode (encode value.toUInt64) : UInt64).toInt64 = value
    rw [decodeEncodeUInt64, Int64.toInt64_toUInt64]
  encodeDecode raw length := by
    change encode (decode raw : UInt64).toInt64.toUInt64 = raw
    rw [UInt64.toUInt64_toInt64]
    exact Lawful.encodeDecode (α := UInt64) raw length

theorem encodeLengthVector {α : Type} [PlainData α] [Lawful α] {n : Nat} (v : Vector α n) :
    (encode v).length = size (Vector α n) := by
  change (v.toList.flatMap encode).length = n * size α
  rw [List.length_flatMap, funext Lawful.encodeLength, List.map_const', List.sum_replicate,
    Vector.length_toList, nsmul_eq_mul, Nat.cast_id]

section Elements
variable {α : Type} [PlainData α] [Lawful α]

theorem elementEncoded {values : List α} {i : Nat} (inside : i < values.length) :
    ((values.flatMap encode).drop (i * size α)).take (size α) = encode values[i] := by
  induction values generalizing i with
  | nil => simp at inside
  | cons value rest ih =>
    have length := Lawful.encodeLength value
    cases i with
    | zero => simp [← length]
    | succ i =>
      have small : i < rest.length := by simpa using inside
      have next : (i + 1) * size α = (encode value).length + i * size α := by
        rw [length, Nat.succ_mul, Nat.add_comm]
      rw [List.flatMap_cons, next, List.drop_length_add_append, ih small]
      rfl

theorem piecesJoined (raw : List UInt8) (width count : Nat) :
    ((List.range count).flatMap fun i => (raw.drop (i * width)).take width) =
      raw.take (count * width) := by
  induction count with
  | zero => simp
  | succ count ih =>
    rw [List.range_succ, List.flatMap_append, ih, Nat.succ_mul, List.take_add]
    simp

instance {n : Nat} : Lawful (Vector α n) where
  alignPos := Lawful.alignPos (α := α)
  encodeLength := encodeLengthVector
  decodeEncode v := by
    apply Vector.ext
    intro i small
    have inside : i < v.toList.length := by simpa using small
    simp only [decode, encode, Vector.getElem_ofFn]
    rw [elementEncoded inside, Lawful.decodeEncode]
    simp
  encodeDecode raw length := by
    have total : raw.length = n * size α := length
    have piece (i : Nat) (small : i < n) :
        encode (decode ((raw.drop (i * size α)).take (size α)) : α) =
          (raw.drop (i * size α)).take (size α) := by
      apply Lawful.encodeDecode
      have room : (i + 1) * size α ≤ n * size α := Nat.mul_le_mul_right _ small
      rw [Nat.succ_mul] at room
      simp [total]
      omega
    have joined := piecesJoined raw (size α) n
    rw [← total, List.take_length, ← List.map_coe_finRange_eq_range, List.flatMap_map] at joined
    have cut : encode (decode raw : Vector α n) =
        (List.finRange n).flatMap fun i => (raw.drop (i.val * size α)).take (size α) := by
      simp only [encode, decode, Vector.toList_ofFn, List.ofFn_eq_map, List.flatMap_map]
      exact List.flatMap_congr fun i _ => piece i i.isLt
    exact cut.trans joined

end Elements

end PlainData

end GameConsole
