import GameConsole.Memory.Basic
import GameConsole.PlainData

/-! Reading and writing guest memory. An access folds its address once and then covers
consecutive bytes of the buffer; only `readCString` folds every byte on its own. A write
either stores all its bytes or reports a fault, and then there is no new memory. -/
namespace GameConsole.Memory

variable {α : Type} [PlainData α]

def bytesAt (m : Memory) (start count : Nat) : List UInt8 := m.bytes.getFrom start count

def store (m : Memory) (start : Nat) (values : List UInt8) : Memory :=
  { m with bytes := m.bytes.setFrom start values }

def read (m : Memory) (address : UInt64) : Except MemoryFault α := do
  let start ← m.offset address (PlainData.size α)
  m.checkAlignment address (PlainData.align α)
  return PlainData.decode (m.bytesAt start (PlainData.size α))

def write (m : Memory) (address : UInt64) (value : α) : Except MemoryFault Memory := do
  let start ← m.offset address (PlainData.size α)
  m.checkAlignment address (PlainData.align α)
  return m.store start (PlainData.encode value)

/- A word of any width; the alignment is checked before the range. -/
def readWord (m : Memory) (address : UInt64) : Except MemoryFault α := do
  m.checkAlignment address (PlainData.align α)
  let start ← m.offset address (PlainData.size α)
  return PlainData.decode (m.bytesAt start (PlainData.size α))

def writeWord (m : Memory) (address : UInt64) (value : α) : Except MemoryFault Memory := do
  m.checkAlignment address (PlainData.align α)
  let start ← m.offset address (PlainData.size α)
  return m.store start (PlainData.encode value)

def readPacked (m : Memory) (address : UInt64) : Except MemoryFault α := do
  let start ← m.offset address (PlainData.size α)
  return PlainData.decode (m.bytesAt start (PlainData.size α))

def readU8 (m : Memory) (address : UInt64) : Except MemoryFault UInt8 := m.read address
def readU16 (m : Memory) (address : UInt64) : Except MemoryFault UInt16 := m.readWord address
def readU32 (m : Memory) (address : UInt64) : Except MemoryFault UInt32 := m.readWord address
def readU64 (m : Memory) (address : UInt64) : Except MemoryFault UInt64 := m.readWord address

def writeU8 (m : Memory) (address : UInt64) (value : UInt8) : Except MemoryFault Memory :=
  m.write address value
def writeU16 (m : Memory) (address : UInt64) (value : UInt16) : Except MemoryFault Memory :=
  m.writeWord address value
def writeU32 (m : Memory) (address : UInt64) (value : UInt32) : Except MemoryFault Memory :=
  m.writeWord address value
def writeU64 (m : Memory) (address : UInt64) (value : UInt64) : Except MemoryFault Memory :=
  m.writeWord address value

structure Slice where
  memory : Memory
  start : Nat
  length : Nat

def Slice.toList (s : Slice) : List UInt8 := s.memory.bytesAt s.start s.length

def slice (m : Memory) (address length : UInt64) : Except MemoryFault Slice := do
  let start ← m.offset address length.toNat
  return ⟨m, start, length.toNat⟩

def readBlock (m : Memory) (address length : UInt64) : Except MemoryFault (List UInt8) := do
  let s ← m.slice address length
  return s.toList

def writeBlock (m : Memory) (address : UInt64) (values : List UInt8) :
    Except MemoryFault Memory := do
  let start ← m.offset address values.length
  return m.store start values

def fill (m : Memory) (address length : UInt64) (value : UInt8) : Except MemoryFault Memory := do
  let start ← m.offset address length.toNat
  return { m with bytes := m.bytes.fill start (start + length.toNat) value }

def zero (m : Memory) (address length : UInt64) : Except MemoryFault Memory :=
  m.fill address length 0

def scatter (m : Memory) (address length : UInt64) (values : List (UInt8 × Fin length.toNat)) :
    Except MemoryFault Memory := do
  let start ← m.offset address length.toNat
  return values.foldl (fun m (value, place) => m.store (start + place) [value]) m

def readCStringFrom (m : Memory) (address : UInt64) (taken : List UInt8) :
    Nat → Except MemoryFault (List UInt8)
  | 0 => .ok taken.reverse
  | limit + 1 =>
    match m.readU8 address with
    | .error fault => .error fault
    | .ok value =>
      if value = 0 then .ok taken.reverse
      else m.readCStringFrom (address + 1) (value :: taken) limit

/- The bytes before the first zero byte, at most `limit` of them. Each is folded on its own,
so a string that runs off the end of the buffer goes on at its start. -/
def readCString (m : Memory) (address : UInt64) (limit : Nat) : Except MemoryFault (List UInt8) :=
  m.readCStringFrom address [] limit

def readWords (m : Memory) (address : UInt64) (count : Nat) : Except MemoryFault (List UInt32) := do
  let start ← m.offset address (4 * count)
  return (List.range count).map fun k => PlainData.decode (m.bytesAt (start + 4 * k) 4)

theorem byteStore (m : Memory) (start : Nat) (values : List UInt8) (i : Nat)
    (fits : start + values.length ≤ 2 ^ m.bits) (inside : i < 2 ^ m.bits) :
    (m.store start values).byte i =
      if start ≤ i then values[i - start]?.getD (m.byte i) else m.byte i :=
  SparseTable.getSetFrom m.bytes start i values fits inside

@[simp] theorem bitsStore (m : Memory) (start : Nat) (values : List UInt8) :
    (m.store start values).bits = m.bits := rfl

@[simp] theorem bytesAtLength (m : Memory) (start count : Nat) :
    (m.bytesAt start count).length = count := by simp [bytesAt]

theorem bytesAtGet (m : Memory) (start count k : Nat) :
    (m.bytesAt start count)[k]? = if k < count then some (m.byte (start + k)) else none :=
  SparseTable.getFromGet m.bytes start count k

end GameConsole.Memory
