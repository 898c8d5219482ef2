import GameConsole.Processor.Instruction
import GameConsole.Proofs.Memory.Confinement

/-! Code in memory, byte by byte, and how the processor finds it there: it is read as before while
all that changes lies elsewhere. An opcode may come with prefixes. -/
namespace GameConsole
open Memory (Reach)

namespace Memory

/- Each byte is folded on its own, as it is when it is fetched. None lies in one of the ranges. -/
def Spells (m : Memory) (ranges : List Reach) : UInt64 → List UInt8 → Prop
  | _, [] => True
  | address, byte :: rest =>
    let place := (m.translate address).toNat
    m.byte place = byte ∧ (∀ r ∈ ranges, ¬ r.Covers m place) ∧ m.Spells ranges (address + 1) rest

instance Spells.decidable (m : Memory) (ranges : List Reach) :
    ∀ (address : UInt64) (bytes : List UInt8), Decidable (m.Spells ranges address bytes)
  | _, [] => .isTrue trivial
  | address, _ :: rest =>
    have := Spells.decidable m ranges (address + 1) rest
    inferInstanceAs (Decidable (_ ∧ _ ∧ _))

variable {m after : Memory} {ranges : List Reach} {address : UInt64}

theorem spellsAppend (first second : List UInt8) :
    m.Spells ranges address (first ++ second) ↔ m.Spells ranges address first ∧
      m.Spells ranges (address + first.length.toUInt64) second := by
  induction first generalizing address with
  | nil =>
    rw [show address + ([] : List UInt8).length.toUInt64 = address from UInt64.add_zero address]
    exact (iff_of_eq (true_and _)).symm
  | cons byte rest ih =>
    have there : address + (byte :: rest).length.toUInt64 =
        address + 1 + rest.length.toUInt64 := by
      rw [List.length_cons, Nat.add_comm]
      simp only [Nat.toUInt64_eq, UInt64.ofNat_add, UInt64.add_assoc]
      rfl
    rw [there, List.cons_append, Spells, Spells, ih, and_assoc, and_assoc]

theorem Spells.fetched {byte : UInt8} {rest : List UInt8}
    (code : m.Spells ranges address (byte :: rest)) (changed : m.Confined after ranges) :
    after.readU8 address = .ok byte := by
  obtain ⟨here, clear, -⟩ := code
  have small : (m.translate address).toNat < 2 ^ m.bits := Reach.inside (Reach.grantedOne m address)
  have same := changed.outside _ small clear
  obtain ⟨⟨bytes, rfl⟩, -⟩ := changed
  rw [readU8Ok]
  exact congrArg Except.ok (same.trans here)

end Memory

structure Prefixes where
  repeated : Bool := false
  extension : Option (Fin 16) := none
  deriving DecidableEq, Repr

namespace Prefixes
open Instruction (Opening)

def rex (p : Prefixes) : UInt8 := p.extension.elim 0 fun low => UInt8.ofNat (0x40 + low)

def bytes (p : Prefixes) : List UInt8 :=
  (if p.repeated then [0xF3] else []) ++ (if p.extension.isSome then [p.rex] else [])

def upper (p : Prefixes) : Fin 2 := p.extension.elim 0 fun low => Fin.ofNat 2 low

theorem rexPrefixes (low : Fin 16) :
    (UInt8.ofNat (0x40 + low) == 0xF3) = false ∧
      (UInt8.ofNat (0x40 + low) &&& 0xF0 == 0x40) = true := by
  revert low
  decide

theorem openingRead (p : Prefixes) {before m : Memory} {ranges : List Reach} {rip : UInt64}
    {opcode : UInt8} (plain : (opcode == 0xF3) = false) (bare : (opcode &&& 0xF0 == 0x40) = false)
    (code : before.Spells ranges rip (p.bytes ++ [opcode])) (changed : before.Confined m ranges) :
    Opening.read m rip =
      .ok ⟨p.repeated, p.rex, opcode, rip + (p.bytes.length + 1).toUInt64⟩ := by
  obtain ⟨repeated, extension⟩ := p
  cases repeated with
  | false =>
    cases extension with
    | none =>
      have first := code.fetched changed
      simp only [Opening.read, first, bind, Except.bind, pure, Except.pure, plain, bare,
        Bool.false_eq_true, if_false]
      rfl
    | some low =>
      obtain ⟨unrepeated, extended⟩ := rexPrefixes low
      have first := code.fetched changed
      have second := code.2.2.fetched changed
      simp only [Opening.read, first, second, bind, Except.bind, pure, Except.pure, rex,
        Option.elim, unrepeated, extended, Bool.false_eq_true, if_false, if_true]
      rfl
  | true =>
    have first := code.fetched changed
    cases extension with
    | none =>
      have second := code.2.2.fetched changed
      simp only [Opening.read, first, second, bind, Except.bind, pure, Except.pure,
        beq_self_eq_true, bare, Bool.false_eq_true, if_false, if_true]
      rw [UInt64.add_assoc]
      rfl
    | some low =>
      obtain ⟨-, extended⟩ := rexPrefixes low
      have second := code.2.2.fetched changed
      have third := code.2.2.2.2.fetched changed
      simp only [Opening.read, first, second, third, bind, Except.bind, pure, Except.pure, rex,
        Option.elim, beq_self_eq_true, extended, if_true]
      rw [UInt64.add_assoc]
      rfl

end Prefixes

structure Operand where
  prefixes : Prefixes
  low : Fin 8
  deriving DecidableEq, Repr

namespace Operand

def register (o : Operand) : Register := .ofIndex ⟨8 * o.prefixes.upper + o.low, by omega⟩

def push (o : Operand) : List UInt8 := o.prefixes.bytes ++ [0x50 + UInt8.ofNat o.low]

def pop (o : Operand) : List UInt8 := o.prefixes.bytes ++ [0x58 + UInt8.ofNat o.low]

end Operand

structure CallSite where
  prefixes : Prefixes
  displacement : UInt32
  closing : Prefixes
  deriving DecidableEq, Repr

namespace CallSite

def opening (c : CallSite) : List UInt8 := c.prefixes.bytes ++ [0xE8]

def returning (c : CallSite) : List UInt8 := c.closing.bytes ++ [0xC3]

def operand (c : CallSite) (address : UInt64) : UInt64 := address + c.opening.length.toUInt64

def next (c : CallSite) (address : UInt64) : UInt64 := c.operand address + 4

def target (c : CallSite) (address : UInt64) : UInt64 :=
  c.next address + Instruction.signExtend c.displacement

end CallSite

section Reading
open Instruction (Opening readOperands)
variable {before m : Memory} {ranges : List Reach} {rip : UInt64}

theorem rowsPlain (low : Fin 8) :
    ((0x50 + UInt8.ofNat low == 0xF3) = false ∧
      (0x50 + UInt8.ofNat low &&& 0xF0 == 0x40) = false ∧
      (0x50 + UInt8.ofNat low) &&& 0xF8 = 0x50) ∧
    (0x58 + UInt8.ofNat low == 0xF3) = false ∧
      (0x58 + UInt8.ofNat low &&& 0xF0 == 0x40) = false ∧
      (0x58 + UInt8.ofNat low) &&& 0xF8 = 0x58 := by
  revert low
  decide

theorem Operand.registerFound (o : Operand) (opcode : UInt8) (next : UInt64) :
    let opening : Opening := ⟨o.prefixes.repeated, o.prefixes.rex, opcode, next⟩
    opening.register (0x50 + UInt8.ofNat o.low) = o.register ∧
      opening.register (0x58 + UInt8.ofNat o.low) = o.register := by
  obtain ⟨⟨repeated, extension⟩, low⟩ := o
  simp only [Opening.register, Operand.register, Prefixes.rex, Prefixes.upper]
  cases extension with
  | none =>
    revert repeated low
    decide
  | some extension =>
    revert repeated low extension
    decide +kernel

theorem Operand.pushRead (o : Operand) (code : before.Spells ranges rip o.push)
    (changed : before.Confined m ranges) :
    Instruction.read m rip = .ok (.push o.register, rip + o.push.length.toUInt64) := by
  obtain ⟨⟨plain, bare, row⟩, -⟩ := rowsPlain o.low
  have opened := o.prefixes.openingRead plain bare code changed
  simp only [Instruction.read, opened, bind, Except.bind, readOperands, row, if_true, pure,
    Except.pure, (o.registerFound _ _).1, Operand.push, List.length_append, List.length_singleton]

theorem Operand.popRead (o : Operand) (code : before.Spells ranges rip o.pop)
    (changed : before.Confined m ranges) :
    Instruction.read m rip = .ok (.pop o.register, rip + o.pop.length.toUInt64) := by
  obtain ⟨-, plain, bare, row⟩ := rowsPlain o.low
  have opened := o.prefixes.openingRead plain bare code changed
  simp +decide only [Instruction.read, opened, bind, Except.bind, readOperands, row, if_true,
    if_false, pure, Except.pure, (o.registerFound _ _).2, Operand.pop, List.length_append,
    List.length_singleton]

theorem CallSite.callRead (c : CallSite) (code : before.Spells ranges rip c.opening)
    (displacement : m.readPacked (c.operand rip) = .ok c.displacement)
    (changed : before.Confined m ranges) :
    Instruction.read m rip = .ok (.call (c.target rip), c.next rip) := by
  have opened := c.prefixes.openingRead rfl rfl code changed
  have length : c.opening.length = c.prefixes.bytes.length + 1 := List.length_append
  rw [← length] at opened
  rw [CallSite.operand] at displacement
  simp +decide only [Instruction.read, opened, bind, Except.bind, readOperands,
    Instruction.readTarget, displacement, if_true, if_false, pure, Except.pure, CallSite.target,
    CallSite.next, CallSite.operand]

theorem CallSite.returnRead (c : CallSite) (code : before.Spells ranges rip c.returning)
    (changed : before.Confined m ranges) :
    Instruction.read m rip = .ok (.ret, rip + c.returning.length.toUInt64) := by
  have opened := c.closing.openingRead rfl rfl code changed
  simp +decide only [Instruction.read, opened, bind, Except.bind, readOperands, if_true, if_false,
    pure, Except.pure, CallSite.returning, List.length_append, List.length_singleton]

end Reading

end GameConsole
