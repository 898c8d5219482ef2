import GameConsole.Processor.Machine
import GameConsole.Proofs.Memory.Transfer

/-! A reference for the processor, in terms of numbers and division instead of masks and shifts:
which bytes make up an instruction, and what it does to registers and memory. A step of the
machine agrees with it in all but the journal. -/
namespace GameConsole

namespace Reference

variable {δ : Type}

def fold (m : Memory) (address : UInt64) : Nat :=
  (if 0x400000 ≤ address.toNat then address.toNat - 0x400000 else address.toNat) % 2 ^ m.bits

def byteAt (m : Memory) (address : UInt64) : Nat := (m.byte (fold m address)).toNat

def span (m : Memory) (address : UInt64) (width : Nat) : Except MemoryFault Nat :=
  if fold m address + width ≤ 2 ^ m.bits then .ok (fold m address)
  else .error (.outOfBounds address width (UInt64.ofNat (2 ^ m.bits)))

def number (m : Memory) (start width : Nat) : Nat :=
  ∑ k ∈ Finset.range width, (m.byte (start + k)).toNat * 256 ^ k

def immediate (m : Memory) (address : UInt64) (width : Nat) : Except MemoryFault Nat :=
  (span m address width).map fun start => number m start width

def slot (m : Memory) (address : UInt64) : Except MemoryFault Nat :=
  if m.enforceAlignment = true ∧ address.toNat % 8 ≠ 0 then .error (.misaligned address 8)
  else span m address 8

def loadSlot (m : Memory) (address : UInt64) : Except MemoryFault UInt64 :=
  (slot m address).map fun start => UInt64.ofNat (number m start 8)

def storeSlot (m : Memory) (address value : UInt64) : Except MemoryFault Memory :=
  (slot m address).map fun start =>
    m.store start ((List.range 8).map fun k => (value.toNat / 256 ^ k).toUInt8)

def general (s : Registers) (n : Fin 16) : UInt64 := s.general[n.val]

def withGeneral (s : Registers) (n : Fin 16) (value : UInt64) : Registers :=
  { s with general := s.general.set n value }

def signed (value : Nat) : UInt64 :=
  UInt64.ofInt (if value < 2 ^ 31 then (value : Int) else (value : Int) - 2 ^ 32)

structure Head where
  wide : Bool
  base : Nat
  opcode : Nat
  next : UInt64

def head (m : Memory) (rip : UInt64) : Head :=
  let start := if byteAt m rip = 0xF3 then rip + 1 else rip
  let rex := byteAt m start
  if 0x40 ≤ rex ∧ rex ≤ 0x4F then
    ⟨rex / 8 % 2 = 1, 8 * (rex % 2), byteAt m (start + 1), start + 2⟩
  else ⟨false, 0, rex, start + 1⟩

def Head.register (h : Head) (byte : Nat) : Fin 16 :=
  ⟨(h.base + byte % 8) % 16, Nat.mod_lt _ (Nat.succ_pos 15)⟩

def stackPointer : Fin 16 := ⟨4, by omega⟩

structure Outcome (δ : Type) where
  registers : Registers
  memory : Memory
  devices : δ
  signals : List Signal := []
  halts : Bool := false

def onward (g : Guest δ) (rip : UInt64) (s : Registers) (m : Memory) : Outcome δ :=
  ⟨{ s with rip }, m, g.devices, [], false⟩

def effect (handler : Option (TrapHandler δ)) (control : Control) (g : Guest δ) :
    Except MemoryFault (Outcome δ) := do
  let s := g.registers
  let m := g.memory
  let h := head m s.rip
  let op := h.opcode
  let rsp := general s stackPointer
  if 0x50 ≤ op ∧ op ≤ 0x57 then
    let memory ← storeSlot m (rsp - 8) (general s (h.register op))
    return onward g h.next (withGeneral s stackPointer (rsp - 8)) memory
  else if 0x58 ≤ op ∧ op ≤ 0x5F then
    let value ← loadSlot m rsp
    let popped := withGeneral (withGeneral s stackPointer (rsp + 8)) (h.register op) value
    return onward g h.next popped m
  else if 0xB8 ≤ op ∧ op ≤ 0xBF then
    let width := if h.wide then 8 else 4
    let value ← immediate m h.next width
    return onward g (h.next + UInt64.ofNat width)
      (withGeneral s (h.register op) (UInt64.ofNat value)) m
  else if op = 0x0F then
    if byteAt m h.next = 0x05 then
      match handler with
      | none => return onward g (h.next + 1) s m
      | some handle =>
        let (g, signals) := handle control { g with registers := { s with rip := h.next + 1 } }
        return ⟨g.registers, g.memory, g.devices, signals, false⟩
    else return onward g (h.next + 1) s m
  else if op = 0xC3 then
    let target ← loadSlot m rsp
    return onward g target (withGeneral s stackPointer (rsp + 8)) m
  else if op = 0xC7 then
    let modrm := byteAt m h.next
    if modrm / 64 = 3 ∧ modrm / 8 % 8 = 0 then
      let value ← immediate m (h.next + 1) 4
      return onward g (h.next + 5) (withGeneral s (h.register modrm)
        (if h.wide then signed value else UInt64.ofNat value)) m
    else return onward g (h.next + 1) s m
  else if op = 0xE8 then
    let distance ← immediate m h.next 4
    let memory ← storeSlot m (rsp - 8) (h.next + 4)
    return onward g (h.next + 4 + signed distance) (withGeneral s stackPointer (rsp - 8)) memory
  else if op = 0xE9 then
    let distance ← immediate m h.next 4
    return onward g (h.next + 4 + signed distance) s m
  else if op = 0xF4 then return { onward g h.next s m with halts := true }
  else return onward g h.next s m

/- All of a machine and the result of a step, but for the journal. -/
structure Observed (δ : Type) where
  registers : Registers
  memory : Memory
  devices : δ
  control : Control
  retired : Nat
  lastOpcode : UInt8
  lastFault : Option ProcessorFault
  cycles : Nat

def observe (result : Machine δ × Nat) : Observed δ where
  registers := result.1.core.registers
  memory := result.1.core.memory
  devices := result.1.core.devices
  control := result.1.control
  retired := result.1.core.retired
  lastOpcode := result.1.core.lastOpcode
  lastFault := result.1.core.lastFault
  cycles := result.2

def step (handler : Option (TrapHandler δ)) (m : Machine δ) : Observed δ :=
  let c := m.core
  let running := { m.control with mode := .running }
  let lastOpcode := UInt8.ofNat (head c.memory c.registers.rip).opcode
  match effect handler running c.toGuest with
  | .error fault =>
    { c with
      lastOpcode
      lastFault := some ⟨c.registers.rip, fault⟩
      control := { m.control with mode := .faulted }
      cycles := 0 }
  | .ok o =>
    let control := running.signalAll o.signals
    { o, c with
      lastOpcode
      retired := c.retired + 1
      control := if o.halts then { control with mode := .halted } else control
      cycles := if o.halts then 0 else 1 }

section Memory
variable (m : Memory) (address : UInt64)

theorem foldTranslate : (m.translate address).toNat = fold m address := by
  have above : AddressSpace.userBase ≤ address ↔ 0x400000 ≤ address.toNat :=
    UInt64.le_iff_toNat_le
  rw [Memory.translateToNat, fold, Memory.rebase]
  by_cases user : AddressSpace.userBase ≤ address
  · rw [if_pos user, if_pos (above.mp user), UInt64.toNat_sub_of_le _ _ user]
    rfl
  · rw [if_neg user, if_neg (fun h => user (above.mpr h))]

theorem byteRead : m.readU8 address = .ok (UInt8.ofNat (byteAt m address)) := by
  rw [Memory.readU8Ok, foldTranslate, byteAt, UInt8.ofNat_toNat]

theorem offsetSpan {width : Nat} (narrow : width ≤ 8) :
    m.offset address width = span m address width := by
  have below : m.bits < 63 := m.bits_lt
  have small : 2 ^ m.bits < 2 ^ 63 := Nat.pow_lt_pow_right Nat.one_lt_two below
  have inside : fold m address < 2 ^ m.bits := Nat.mod_lt _ (Nat.two_pow_pos _)
  have size : m.size = UInt64.ofNat (2 ^ m.bits) := by
    rw [← Memory.sizeToNat, UInt64.ofNat_toNat]
  rw [span, ← size]
  simp only [Memory.offset, foldTranslate, Memory.sizeToNat]
  rw [if_neg (by simp only [UInt64.size]; omega)]
  by_cases fits : fold m address + width ≤ 2 ^ m.bits
  · rw [if_pos fits, if_neg (Nat.not_lt.mpr fits)]
  · rw [if_neg fits, if_pos (Nat.lt_of_not_le fits)]

theorem numberCombine (start width : Nat) :
    LittleEndian.combine (m.bytesAt start width) = number m start width :=
  LittleEndian.combineBySum (fun k => m.byte (start + k)) width

theorem packedU32 :
    m.readPacked address = (immediate m address 4).map UInt32.ofNat := by
  change (do
    let start ← m.offset address 4
    return UInt32.ofNat (LittleEndian.combine (m.bytesAt start 4))) = _
  rw [offsetSpan m address (by omega), immediate]
  simp only [numberCombine]
  cases span m address 4 <;> rfl

theorem packedU64 :
    m.readPacked address = (immediate m address 8).map UInt64.ofNat := by
  change (do
    let start ← m.offset address 8
    return UInt64.ofNat (LittleEndian.combine (m.bytesAt start 8))) = _
  rw [offsetSpan m address (by omega), immediate]
  simp only [numberCombine]
  cases span m address 8 <;> rfl

theorem slotChecks : (do m.checkAlignment address 8; m.offset address 8) = slot m address := by
  rw [offsetSpan m address (Nat.le_refl 8), slot, Memory.checkAlignment]
  by_cases refused : m.enforceAlignment = true ∧ address.toNat % 8 ≠ 0
  · rw [if_pos ⟨refused.1, by omega, refused.2⟩, if_pos refused]
    rfl
  · rw [if_neg (fun h => refused ⟨h.1, h.2.2⟩), if_neg refused]
    rfl

theorem loadSlotRead : m.readU64 address = loadSlot m address := by
  change (do
    m.checkAlignment address 8
    let start ← m.offset address 8
    return UInt64.ofNat (LittleEndian.combine (m.bytesAt start 8))) = _
  rw [loadSlot, ← slotChecks]
  simp only [numberCombine]
  cases m.checkAlignment address 8 <;> cases m.offset address 8 <;> rfl

theorem storeSlotWrite (value : UInt64) : m.writeU64 address value = storeSlot m address value := by
  change (do
    m.checkAlignment address 8
    let start ← m.offset address 8
    return m.store start (LittleEndian.split 8 value.toNat)) = _
  rw [storeSlot, ← slotChecks, LittleEndian.splitByDivision]
  cases m.checkAlignment address 8 <;> cases m.offset address 8 <;> rfl

end Memory

theorem highBits (b : UInt8) (low : Fin 9) :
    (b &&& UInt8.ofNat (256 - 2 ^ low.val)).toNat = b.toNat / 2 ^ low.val * 2 ^ low.val := by
  have all : ∀ (low : Fin 9) (n : Fin 256),
      (UInt8.ofNat n &&& UInt8.ofNat (256 - 2 ^ low.val)).toNat =
        n / 2 ^ low.val * 2 ^ low.val := by
    decide +kernel
  simpa using all low ⟨b.toNat, b.toNat_lt⟩

theorem rowIff (b row : UInt8) (aligned : row.toNat % 8 = 0) :
    b &&& 0xF8 = row ↔ row.toNat ≤ b.toNat ∧ b.toNat ≤ row.toNat + 7 := by
  have high : (b &&& 0xF8).toNat = b.toNat / 8 * 8 := highBits b 3
  rw [← UInt8.toNat_inj, high]
  omega

theorem registerNumber (low rex : UInt8) :
    ((low &&& 7) ||| ((rex &&& (1 : UInt8)) <<< (3 : UInt8))).toNat =
      8 * (rex.toNat % 2) + low.toNat % 8 := by
  have seven : (low &&& 7).toNat = low.toNat % 8 := by
    rw [UInt8.toNat_and]
    exact Nat.and_two_pow_sub_one_eq_mod low.toNat 3
  have one : (rex &&& 1).toNat = rex.toNat % 2 := by
    rw [UInt8.toNat_and]
    exact Nat.and_two_pow_sub_one_eq_mod rex.toNat 1
  have shifted : ((rex &&& 1) <<< (3 : UInt8)).toNat = 8 * (rex.toNat % 2) := by
    rw [UInt8.toNat_shiftLeft, one]
    change (rex.toNat % 2) <<< 3 % 256 = _
    rw [Nat.shiftLeft_eq]
    omega
  rw [UInt8.toNat_or, seven, shifted, Nat.or_comm]
  exact (Nat.two_pow_add_eq_or_of_lt (i := 3) (Nat.mod_lt _ (by decide)) _).symm

theorem wideBit (rex : UInt8) : (rex &&& (0x08 : UInt8) != 0) = decide (rex.toNat / 8 % 2 = 1) := by
  have all : ∀ n : Fin 256,
      (UInt8.ofNat n &&& (0x08 : UInt8) != 0) = decide (n.val / 8 % 2 = 1) := by
    decide +kernel
  simpa using all ⟨rex.toNat, rex.toNat_lt⟩

theorem signExtendSigned (value : UInt32) : Instruction.signExtend value = signed value.toNat := by
  have extended : Instruction.signExtend value = UInt64.ofInt value.toBitVec.toInt := by
    apply UInt64.toBitVec_inj.mp
    apply BitVec.eq_of_toNat_eq
    change (BitVec.ofInt 64 value.toBitVec.toInt).toNat = (UInt64.ofNat _).toNat
    rw [BitVec.toNat_ofInt, UInt64.toNat_ofNat']
    omega
  rw [extended, BitVec.toInt_eq_toNat_cond, signed, UInt32.toNat_toBitVec]
  congr 1
  split <;> split <;> omega

section Decoding
open Instruction (Opening readOperands)

theorem byteNat (m : Memory) (address : UInt64) :
    (UInt8.ofNat (byteAt m address)).toNat = byteAt m address := by
  rw [byteAt, UInt8.ofNat_toNat]

structure Same (o : Opening) (h : Head) : Prop where
  wide : o.wide = h.wide
  base : 8 * (o.rex.toNat % 2) = h.base
  opcode : o.opcode.toNat = h.opcode
  next : o.next = h.next

theorem codeNumber {o : Opening} {h : Head} (same : Same o h) {code : UInt8}
    (found : o.opcode = code) : h.opcode = code.toNat := by
  rw [← same.opcode, found]

theorem headFrom (m : Memory) (start : UInt64) (repeated : Bool) :
    ∃ o, (if UInt8.ofNat (byteAt m start) &&& 0xF0 == 0x40 then
        .ok ⟨repeated, UInt8.ofNat (byteAt m start), UInt8.ofNat (byteAt m (start + 1)), start + 2⟩
      else .ok ⟨repeated, 0, UInt8.ofNat (byteAt m start), start + 1⟩ :
        Except MemoryFault Opening) = .ok o ∧
      Same o (if 0x40 ≤ byteAt m start ∧ byteAt m start ≤ 0x4F then
        ⟨byteAt m start / 8 % 2 = 1, 8 * (byteAt m start % 2), byteAt m (start + 1), start + 2⟩
      else ⟨false, 0, byteAt m start, start + 1⟩) := by
  have rex : (UInt8.ofNat (byteAt m start) &&& 0xF0 == 0x40) = true ↔
      0x40 ≤ byteAt m start ∧ byteAt m start ≤ 0x4F := by
    have high : (UInt8.ofNat (byteAt m start) &&& 0xF0).toNat =
      (UInt8.ofNat (byteAt m start)).toNat / 16 * 16 := highBits _ 4
    rw [beq_iff_eq, ← UInt8.toNat_inj, high, byteNat]
    change _ = 64 ↔ _
    omega
  by_cases found : 0x40 ≤ byteAt m start ∧ byteAt m start ≤ 0x4F
  · rw [if_pos found, if_pos (rex.mpr found)]
    exact ⟨_, rfl, by rw [Opening.wide, wideBit, byteNat], by rw [byteNat], byteNat m _, rfl⟩
  · rw [if_neg found, if_neg (mt rex.mp found)]
    exact ⟨_, rfl, by simp [Opening.wide], rfl, byteNat m _, rfl⟩

theorem headRead (m : Memory) (rip : UInt64) :
    ∃ o, Opening.read m rip = .ok o ∧ Same o (head m rip) := by
  have repeated : (UInt8.ofNat (byteAt m rip) == 0xF3) = true ↔ byteAt m rip = 0xF3 := by
    rw [beq_iff_eq, ← UInt8.toNat_inj, byteNat]
    rfl
  unfold Opening.read head
  rw [byteRead]
  by_cases f3 : byteAt m rip = 0xF3
  · simp only [bind, Except.bind, pure, Except.pure, repeated.mpr f3, if_true, if_pos f3, byteRead]
    exact headFrom m (rip + 1) true
  · have other : (UInt8.ofNat (byteAt m rip) == 0xF3) = false :=
      Bool.eq_false_iff.mpr (mt repeated.mp f3)
    simp only [bind, Except.bind, pure, Except.pure, other, if_false, if_neg f3,
      Bool.false_eq_true, byteRead]
    exact headFrom m rip false

theorem getGeneral (s : Registers) (r : Register) : s.get r = general s r.index := rfl

theorem setGeneral (s : Registers) (r : Register) (value : UInt64) :
    s.set r value = withGeneral s r.index value := rfl

theorem registerIndex {o : Opening} {h : Head} (same : Same o h) (low : UInt8) :
    (o.register low).index = h.register low.toNat := by
  rw [Opening.register, Register.numbered, Register.indexOfIndex]
  apply Fin.ext
  change _ % 16 = (h.base + low.toNat % 8) % 16
  rw [registerNumber, same.base]

theorem immediateSmall {m : Memory} {address : UInt64} {width value : Nat}
    (ok : immediate m address width = .ok value) : value < 256 ^ width := by
  obtain ⟨start, _, rfl⟩ := Memory.mapOk.mp ok
  rw [← numberCombine]
  simpa using LittleEndian.combineBound (m.bytesAt start width)

theorem mapImmediate {β : Type} {m : Memory} {address : UInt64} (f g : Nat → β)
    (same : ∀ value < 2 ^ 32, f value = g value) :
    (immediate m address 4).map f = (immediate m address 4).map g := by
  cases read : immediate m address 4 with
  | error e => rfl
  | ok value => exact congrArg Except.ok (same value (immediateSmall read))

theorem zeroExtendSmall {value : Nat} (small : value < 2 ^ 32) :
    (UInt32.ofNat value).toUInt64 = UInt64.ofNat value := by
  rw [← UInt64.toNat_inj, UInt32.toNat_toUInt64, UInt32.toNat_ofNat', UInt64.toNat_ofNat']
  omega

theorem signExtendSmall {value : Nat} (small : value < 2 ^ 32) :
    Instruction.signExtend (UInt32.ofNat value) = signed value := by
  rw [signExtendSigned, UInt32.toNat_ofNat', Nat.mod_eq_of_lt small]

theorem targetRead (m : Memory) (next : UInt64) :
    Instruction.readTarget m next =
      (immediate m next 4).map fun distance => next + 4 + signed distance := by
  rw [Instruction.readTarget, packedU32]
  rw [← mapImmediate _ _ fun value small => congrArg (next + 4 + ·) (signExtendSmall small)]
  cases immediate m next 4 <;> rfl

end Decoding

end Reference

end GameConsole
