import GameConsole.Natural

/-! Values with a fixed memory layout: a size, an alignment, and the bytes of a value, low byte
first. Widths are counted in bytes. -/
namespace GameConsole

namespace LittleEndian

def split : Nat → Nat → List UInt8
  | 0, _ => []
  | width + 1, value => value.toUInt8 :: split width (value / 256)

def combine : List UInt8 → Nat
  | [] => 0
  | low :: rest => low.toNat + 256 * combine rest

@[simp] theorem splitLength (width value : Nat) : (split width value).length = width := by
  induction width generalizing value with
  | zero => rfl
  | succ width ih => simp [split, ih]

theorem combineBound (bytes : List UInt8) : combine bytes < 256 ^ bytes.length := by
  induction bytes with
  | nil => simp [combine]
  | cons low rest ih =>
    have hl := low.toNat_lt
    rw [combine, List.length_cons, Nat.pow_succ]
    omega

theorem combineSplit (width value : Nat) : combine (split width value) = value % 256 ^ width := by
  induction width generalizing value with
  | zero => simp [split, combine, Nat.mod_one]
  | succ width ih =>
    have power : 256 ^ (width + 1) = 256 * 256 ^ width := Nat.mul_comm (256 ^ width) 256
    rw [split, combine, ih, Nat.toUInt8_eq, UInt8.toNat_ofNat', power, Nat.mod_mul]

theorem splitCombine (bytes : List UInt8) : split bytes.length (combine bytes) = bytes := by
  induction bytes with
  | nil => rfl
  | cons low rest ih =>
    have hl := low.toNat_lt
    have head : (low.toNat + 256 * combine rest).toUInt8 = low := by
      apply UInt8.toNat_inj.mp
      rw [Nat.toUInt8_eq, UInt8.toNat_ofNat']
      omega
    have tail : (low.toNat + 256 * combine rest) / 256 = combine rest := by omega
    rw [combine, List.length_cons, split, head, tail, ih]

end LittleEndian

class PlainData (α : Type) where
  size : Nat
  align : Nat
  encode : α → List UInt8
  decode : List UInt8 → α

namespace PlainData
open LittleEndian

instance : PlainData UInt8 := ⟨1, 1, fun v => [v], fun raw => (combine raw).toUInt8⟩
instance : PlainData UInt16 := ⟨2, 2, fun v => split 2 v.toNat, fun raw => (combine raw).toUInt16⟩
instance : PlainData UInt32 := ⟨4, 4, fun v => split 4 v.toNat, fun raw => (combine raw).toUInt32⟩
instance : PlainData UInt64 := ⟨8, 8, fun v => split 8 v.toNat, fun raw => (combine raw).toUInt64⟩

instance : PlainData Int32 :=
  ⟨4, 4, fun v => encode v.toUInt32, fun raw => (decode raw : UInt32).toInt32⟩
instance : PlainData Int64 :=
  ⟨8, 8, fun v => encode v.toUInt64, fun raw => (decode raw : UInt64).toInt64⟩

instance {α : Type} [PlainData α] {n : Nat} : PlainData (Vector α n) where
  size := n * size α
  align := align α
  encode v := v.toList.flatMap encode
  decode raw := Vector.ofFn fun i => decode ((raw.drop (i.val * size α)).take (size α))

theorem decodeEncodeUInt8 (v : UInt8) : decode (encode v) = v := by
  have h := v.toNat_lt
  apply UInt8.toNat_inj.mp
  simp [encode, decode, combine]

theorem decodeEncodeUInt16 (v : UInt16) : decode (encode v) = v := by
  have h := v.toNat_lt
  apply UInt16.toNat_inj.mp
  simp only [encode, decode, combineSplit, Nat.toUInt16_eq, UInt16.toNat_ofNat']
  omega

theorem decodeEncodeUInt32 (v : UInt32) : decode (encode v) = v := by
  have h := v.toNat_lt
  apply UInt32.toNat_inj.mp
  simp only [encode, decode, combineSplit, Nat.toUInt32_eq, UInt32.toNat_ofNat']
  omega

theorem decodeEncodeUInt64 (v : UInt64) : decode (encode v) = v := by
  have h := v.toNat_lt
  apply UInt64.toNat_inj.mp
  simp only [encode, decode, combineSplit, Nat.toUInt64_eq, UInt64.toNat_ofNat']
  omega

end PlainData

end GameConsole
