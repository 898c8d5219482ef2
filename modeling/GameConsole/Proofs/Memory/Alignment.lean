import GameConsole.Proofs.Memory.Folding

/-! Aligned addresses. Folding keeps an address aligned, for the base of user space and the size of
the buffer are powers of two; so a word at an aligned address never reaches past the end. -/
namespace GameConsole.Memory
open AddressSpace (userBase)

variable {m : Memory} {address : UInt64} {k : Nat}

theorem translateAligned (low : k ≤ 22) (small : k ≤ m.bits) (aligned : 2 ^ k ∣ address.toNat) :
    2 ^ k ∣ (m.translate address).toNat := by
  have base : 2 ^ k ∣ deduction address := by
    unfold deduction
    split
    · exact Nat.pow_dvd_pow 2 low
    · exact Nat.dvd_zero _
  have counted : 2 ^ k ∣ (rebase address).toNat := by
    rw [← rebaseDeduction] at aligned
    exact (Nat.dvd_add_iff_left base).mpr aligned
  rw [translateToNat]
  exact (Nat.dvd_mod_iff (Nat.pow_dvd_pow 2 small)).mpr counted

theorem alignedFits (low : k ≤ 22) (small : k ≤ m.bits) (aligned : 2 ^ k ∣ address.toNat) :
    m.fits address (2 ^ k) = true := by
  obtain ⟨blocks, total⟩ : 2 ^ k ∣ 2 ^ m.bits := Nat.pow_dvd_pow 2 small
  obtain ⟨before, start⟩ := translateAligned low small aligned
  have inside := UInt64.lt_iff_toNat_lt.mp (m.translateLt address)
  rw [sizeToNat, start, total] at inside
  rw [fitsIff, start, total]
  exact Nat.mul_le_mul_left _ (Nat.lt_of_mul_lt_mul_left inside)

def Reach.Natural (r : Reach) : Prop := r.align = r.width ∧ ∃ k ≤ 22, r.width = 2 ^ k

section Natural
variable {r : Reach} (natural : r.Natural)
include natural

theorem alignedGranted (aligned : r.width ∣ r.address.toNat) :
    r.Granted m ↔ r.width ≤ m.size.toNat := by
  obtain ⟨same, k, low, width⟩ := natural
  rw [sizeToNat]
  constructor
  · intro granted
    exact Nat.le_trans (Nat.le_add_left _ _) (Reach.inside granted)
  · intro room
    rw [width] at aligned room
    have small := (Nat.pow_le_pow_iff_right Nat.one_lt_two).mp room
    refine ⟨?_, fun _ => ?_⟩
    · rw [width]
      exact alignedFits low small aligned
    · rwa [same, width]

theorem enforcedGranted (enforced : m.enforceAlignment = true) (room : r.width ≤ m.size.toNat) :
    r.Granted m ↔ r.width ∣ r.address.toNat := by
  constructor
  · intro granted
    rw [← natural.1]
    exact granted.2 enforced
  · intro aligned
    exact (alignedGranted natural aligned).mpr room

end Natural

theorem nextWordGranted (enforced : m.enforceAlignment = true)
    (granted : Reach.Granted ⟨address, 4, 4⟩ m) : Reach.Granted ⟨address + 4, 4, 4⟩ m := by
  have natural (address : UInt64) : Reach.Natural ⟨address, 4, 4⟩ := ⟨rfl, 2, by decide, rfl⟩
  have aligned : 4 ∣ address.toNat := granted.2 enforced
  have room : 4 ≤ m.size.toNat := (alignedGranted (natural _) aligned).mp granted
  refine (alignedGranted (natural _) ?_).mpr room
  rw [UInt64.toNat_add]
  change 4 ∣ (address.toNat + 4) % 2 ^ 64
  omega

end GameConsole.Memory
