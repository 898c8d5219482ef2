import GameConsole.Journal
import GameConsole.SparseTable

/-! The regions of the guest's address space; guest memory, which is one buffer of a power-of-two
size; the folding of guest addresses into it; and the two checks that every access makes. Access
itself is in `Memory.Access`. -/
namespace GameConsole

namespace AddressSpace

def mib : UInt64 := 1024 * 1024

def pageSize : UInt64 := 4 * 1024

def defaultMemorySize : UInt64 := 512 * mib

def userBase : UInt64 := 0x400000
def heapBase : UInt64 := 0x200000000
def stackTop : UInt64 := 0x7FFFFFFFF000

def pageAlignUp (value : UInt64) : UInt64 :=
  let raised := value + (pageSize - 1)
  (if raised < value then 0xFFFFFFFFFFFFFFFF else raised) &&& ~~~ (pageSize - 1)

end AddressSpace

inductive MemoryFault where
  | outOfBounds (address : UInt64) (length : Nat) (size : UInt64)
  | misaligned (address : UInt64) (align : Nat)
  | invalidAddress (address : UInt64) (length : Nat)
  deriving DecidableEq, Repr

namespace MemoryFault
open Text (hex)

def message : MemoryFault → String
  | .outOfBounds address length size =>
    "guest memory access out of bounds: addr=" ++ hex address.toNat ++ " len=" ++
      toString length ++ " size=" ++ hex size.toNat
  | .misaligned address align =>
    "misaligned guest memory access: addr=" ++ hex address.toNat ++ " align=" ++ toString align
  | .invalidAddress address length =>
    "invalid guest address range: addr=" ++ hex address.toNat ++ " len=" ++ toString length

end MemoryFault

structure MemoryConfig where
  sizeBytes : UInt64 := AddressSpace.defaultMemorySize
  enforceAlignment : Bool := false
  deriving DecidableEq, Repr

structure Memory where
  bits : Nat
  bits_lt : bits < 63
  enforceAlignment : Bool
  bytes : SparseTable UInt8 bits
  deriving DecidableEq

namespace Memory

inductive SizeError where
  | notPowerOfTwo (size : UInt64)
  | refused (size : UInt64)
  deriving DecidableEq, Repr

def SizeError.message : SizeError → String
  | .notPowerOfTwo size =>
    "guest memory size " ++ Text.hex size.toNat ++ " must be a non-zero power of two"
  | .refused size => "failed to allocate " ++ Text.hex size.toNat ++ " bytes of guest memory"

def zeros (bits : Nat) (small : bits < 63) (enforceAlignment : Bool) : Memory :=
  ⟨bits, small, enforceAlignment, .uniform 0⟩

def refusal (size : UInt64) : String :=
  "memory allocation failed" ++
    if size.toNat < 2 ^ 63 then " because the memory allocator returned an error"
    else " because the computed capacity exceeded the collection's maximum"

/- Whether a buffer is `granted` is up to the host each time that it is asked for one; a capacity of
2^63 bytes or more is not asked for. -/
def create (config : MemoryConfig) (granted : Bool) : Except SizeError Memory :=
  let bits := config.sizeBytes.toNat.log2
  if config.sizeBytes.toNat ≠ 2 ^ bits then .error (.notPowerOfTwo config.sizeBytes)
  else if small : bits < 63 ∧ granted then .ok (zeros bits small.1 config.enforceAlignment)
  else .error (.refused config.sizeBytes)

def creation (config : MemoryConfig) (granted : Bool) : List Event :=
  match create config granted with
  | .ok _ => [.of .debug "allocated guest memory" [("size", .count config.sizeBytes.toNat)]]
  | .error (.notPowerOfTwo _) => []
  | .error (.refused size) =>
    [.of .error "guest memory allocation failed"
      [("size", .count size.toNat), ("error", .text (refusal size))]]

def size (m : Memory) : UInt64 := 1 <<< m.bits.toUInt64

def byte (m : Memory) (offset : Nat) : UInt8 := m.bytes.get offset

def rebase (address : UInt64) : UInt64 :=
  if AddressSpace.userBase ≤ address then address - AddressSpace.userBase else address

/- The offset that an address folds to. What is at or above the base of user space is counted
from there, so that a program begins at the start of the buffer. -/
def translate (m : Memory) (address : UInt64) : UInt64 := rebase address &&& (m.size - 1)

def fits (m : Memory) (address : UInt64) (length : Nat) : Bool :=
  (m.translate address).toNat + length ≤ m.size.toNat

def covers (m : Memory) (address length : UInt64) : Bool := m.fits address length.toNat

def offset (m : Memory) (address : UInt64) (length : Nat) : Except MemoryFault Nat :=
  let start := (m.translate address).toNat
  let stop := start + length
  if UInt64.size ≤ stop then .error (.invalidAddress address length)
  else if m.size.toNat < stop then .error (.outOfBounds address length m.size)
  else .ok start

def checkAlignment (m : Memory) (address : UInt64) (align : Nat) : Except MemoryFault Unit :=
  if m.enforceAlignment ∧ 1 < align ∧ address.toNat % align ≠ 0 then
    .error (.misaligned address align)
  else .ok ()

theorem sizeToNat (m : Memory) : m.size.toNat = 2 ^ m.bits := by
  have small := m.bits_lt
  have power : 2 ^ m.bits < 2 ^ 64 := Nat.pow_lt_pow_right (by decide) (by omega)
  have amount : m.bits % 2 ^ 64 % 64 = m.bits := by omega
  rw [size, UInt64.toNat_shiftLeft, Nat.toUInt64_eq, UInt64.toNat_ofNat', amount]
  show 1 <<< m.bits % 2 ^ 64 = 2 ^ m.bits
  rw [Nat.one_shiftLeft, Nat.mod_eq_of_lt power]

theorem sizePos (m : Memory) : 0 < m.size.toNat := by
  rw [sizeToNat]; exact Nat.two_pow_pos _

theorem translateToNat (m : Memory) (address : UInt64) :
    (m.translate address).toNat = (rebase address).toNat % 2 ^ m.bits := by
  have one : (1 : UInt64) ≤ m.size := by
    rw [UInt64.le_iff_toNat_le]; exact m.sizePos
  rw [translate, UInt64.toNat_and, UInt64.toNat_sub_of_le _ _ one, sizeToNat]
  exact Nat.and_two_pow_sub_one_eq_mod _ _

theorem translateLt (m : Memory) (address : UInt64) : m.translate address < m.size := by
  rw [UInt64.lt_iff_toNat_lt, translateToNat, sizeToNat]
  exact Nat.mod_lt _ (Nat.two_pow_pos _)

theorem sizeSmall (m : Memory) : 2 ^ m.bits < 2 ^ 64 :=
  Nat.pow_lt_pow_right (by decide) (Nat.lt_of_lt_of_le m.bits_lt (by decide))

theorem fitsIff {m : Memory} {address : UInt64} {length : Nat} :
    m.fits address length = true ↔ (m.translate address).toNat + length ≤ 2 ^ m.bits := by
  simp only [fits, sizeToNat, decide_eq_true_eq]

theorem offsetFits {m : Memory} {address : UInt64} {length : Nat}
    (fit : m.fits address length = true) :
    m.offset address length = .ok (m.translate address).toNat := by
  have small := m.sizeSmall
  have inside := fitsIff.mp fit
  simp only [offset, sizeToNat, UInt64.size]
  rw [if_neg (by omega), if_neg (by omega)]

theorem offsetOkIff {m : Memory} {address : UInt64} {length start : Nat} :
    m.offset address length = .ok start ↔
      m.fits address length = true ∧ start = (m.translate address).toNat := by
  constructor
  · intro ok
    by_cases fit : m.fits address length = true
    · rw [offsetFits fit] at ok
      exact ⟨fit, (Except.ok.inj ok).symm⟩
    · have outside := fun inside => fit (fitsIff.mpr inside)
      simp only [offset, sizeToNat] at ok
      split at ok
      · contradiction
      · rw [if_pos (Nat.lt_of_not_le outside)] at ok
        contradiction
  · rintro ⟨fit, rfl⟩
    exact offsetFits fit

end Memory

end GameConsole
