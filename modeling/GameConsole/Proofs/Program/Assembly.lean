import GameConsole.Program.Assembly
import GameConsole.Proofs.Memory.Holding
import GameConsole.Proofs.Processor.Atomicity
import GameConsole.Proofs.Processor.Reference

/-! The assembler and the processor agree. Every statement of a program lies in memory at its own
place, is read there as the instruction that it stands for, and takes one step to carry out. -/
namespace GameConsole

namespace Assembly

theorem sizeAppend (first second : List Statement) :
    size (first ++ second) = size first + size second := by
  induction first with
  | nil => simp [size]
  | cons s rest ih =>
    have here : size (s :: rest) = s.length + size rest := rfl
    have there : size (s :: rest ++ second) = s.length + size (rest ++ second) := rfl
    omega

section Places
variable {program : List Statement} {i : Nat} {s : Statement}

theorem startOfNext (found : program[i]? = some s) :
    startOf program (i + 1) = startOf program i + s.length := by
  rw [startOf, List.take_add_one, found, sizeAppend]
  rfl

theorem startOfLe (program : List Statement) (i : Nat) : startOf program i ≤ size program := by
  have whole := sizeAppend (program.take i) (program.drop i)
  rw [List.take_append_drop] at whole
  rw [startOf]
  omega

theorem assembleSplit (found : program[i]? = some s) :
    ∃ before after, assemble program = before ++ (encode program (startOf program i) s ++ after) ∧
      before.length = startOf program i := by
  suffices any : ∀ (rest : List Statement) (start i : Nat), rest[i]? = some s →
      ∃ before after, encodeFrom program start rest =
          before ++ (encode program (start + startOf rest i) s ++ after) ∧
        before.length = startOf rest i by
    have here := any program 0 i found
    rwa [Nat.zero_add] at here
  intro rest
  induction rest with
  | nil => intro start i none; cases none
  | cons first rest ih =>
    intro start i found
    cases i with
    | zero =>
      cases found
      exact ⟨[], encodeFrom program (start + s.length) rest, rfl, rfl⟩
    | succ i =>
      obtain ⟨before, after, split, length⟩ := ih (start + first.length) i found
      have place : startOf (first :: rest) (i + 1) = first.length + startOf rest i := rfl
      refine ⟨encode program start first ++ before, after, ?_, ?_⟩
      · rw [encodeFrom, split, place, Nat.add_assoc, List.append_assoc]
      · rw [List.length_append, encodeLength, length, place]

theorem statementHeld {m : Memory} {base : UInt64} (holds : m.Holds base (assemble program))
    (found : program[i]? = some s) :
    m.Holds (base + (startOf program i).toUInt64) (encode program (startOf program i) s) := by
  obtain ⟨before, after, split, length⟩ := assembleSplit found
  rw [split] at holds
  rw [← length] at holds ⊢
  exact holds.part before after

end Places

end Assembly

namespace Statement
open Assembly (encode startOf size)
open Instruction (Opening readOperands signExtend)

theorem displacementExact {start target : Nat} (near : start + 5 < 2 ^ 31)
    (close : target < 2 ^ 31) :
    Reference.signed (displacement start target).toNat =
      UInt64.ofInt (target - (start + 5) : Int) := by
  have number : (displacement start target).toNat =
      ((target - (start + 5) : Int) % 2 ^ 64).toNat % 2 ^ 32 := by
    change (BitVec.ofInt 64 (target - (start + 5) : Int)).toNat % 2 ^ 32 = _
    rw [BitVec.toNat_ofInt]
    rfl
  rw [Reference.signed, number]
  congr 1
  split <;> omega

theorem jumpArrives (base : UInt64) (start target : Nat) :
    base + start.toUInt64 + 5 + UInt64.ofInt (target - (start + 5) : Int) =
      base + target.toUInt64 := by
  have distance : (UInt64.ofInt (target - (start + 5) : Int)).toNat =
      ((target - (start + 5) : Int) % 2 ^ 64).toNat := by
    change (UInt64.ofNat _).toNat = _
    rw [UInt64.toNat_ofNat']
    omega
  have five : UInt64.toNat 5 = 5 := rfl
  apply UInt64.toNat_inj.mp
  simp only [UInt64.toNat_add, Nat.toUInt64_eq, UInt64.toNat_ofNat', distance, five]
  omega

def instruction (program : List Statement) (base : UInt64) : Statement → Instruction
  | .moveSigned target value => .move target (Reference.signed value.toNat)
  | .move target value => .move target value
  | .syscall => .syscall
  | .pause => .nop
  | .jump statement => .jump (base + (startOf program statement).toUInt64)

def opcode : Statement → UInt8
  | .moveSigned .. => 0xC7
  | .move target _ => 0xB8 + low target
  | .syscall => 0x0F
  | .pause => 0x90
  | .jump _ => 0xE9

theorem rexPrefix (r : Register) :
    (rex r == 0xF3) = false ∧ (rex r &&& 0xF0 == 0x40) = true ∧
      (rex r &&& (0x08 : UInt8) != 0) = true := by
  cases r <;> decide

theorem lowRow (r : Register) :
    (0xC0 ||| low r) &&& 0xF8 = 0xC0 ∧ (0xB8 + low r) &&& 0xF8 = 0xB8 := by
  cases r <;> decide

theorem registerFound (r : Register) (opcode : UInt8) (next : UInt64) :
    Opening.register ⟨false, rex r, opcode, next⟩ (0xC0 ||| low r) = r ∧
      Opening.register ⟨false, rex r, opcode, next⟩ (0xB8 + low r) = r := by
  unfold Opening.register
  dsimp only
  cases r <;> decide

def Reads (m : Memory) (rip : UInt64) (opcode : UInt8) (read : Instruction × UInt64) : Prop :=
  ∃ opening, Opening.read m rip = .ok opening ∧ opening.opcode = opcode ∧
    readOperands m opening = .ok read

section Reading
variable {m : Memory} {program : List Statement} {start : Nat} {rip : UInt64}

theorem openingPlain {opcode : UInt8} (code : m.readU8 rip = .ok opcode)
    (plain : (opcode == 0xF3) = false) (bare : (opcode &&& 0xF0 == 0x40) = false) :
    Opening.read m rip = .ok ⟨false, 0, opcode, rip + 1⟩ := by
  simp only [Opening.read, code, bind, Except.bind, pure, Except.pure, plain, bare,
    Bool.false_eq_true, if_false]

theorem openingExtended {target : Register} {opcode : UInt8}
    (extension : m.readU8 rip = .ok (rex target)) (code : m.readU8 (rip + 1) = .ok opcode) :
    Opening.read m rip = .ok ⟨false, rex target, opcode, rip + 2⟩ := by
  obtain ⟨plain, extended, -⟩ := rexPrefix target
  simp only [Opening.read, extension, code, bind, Except.bind, pure, Except.pure, plain, extended,
    if_true, Bool.false_eq_true, if_false]

theorem firstByte {bytes : List UInt8} {first : UInt8} (holds : m.Holds rip (first :: bytes)) :
    m.readU8 rip = .ok first := by
  have read := holds.byte (k := 0) rfl
  rwa [show rip + Nat.toUInt64 0 = rip from UInt64.add_zero rip] at read

theorem readMoveSigned {target : Register} {value : UInt32}
    (holds : m.Holds rip (encode program start (.moveSigned target value))) :
    Reads m rip 0xC7 (.move target (Reference.signed value.toNat), rip + 7) := by
  have modrm : m.readU8 (rip + 2) = .ok (0xC0 ||| low target) := holds.byte (k := 2) rfl
  have rest : m.readPacked (rip + 2 + 1) = .ok value := by
    rw [UInt64.add_assoc]
    refine Memory.Holds.packed (Memory.Holds.part [rex target, 0xC7, 0xC0 ||| low target] [] ?_)
    rwa [List.append_nil]
  refine ⟨_, openingExtended (firstByte holds) (holds.byte (k := 1) rfl), rfl, ?_⟩
  simp +decide only [readOperands, modrm, rest, bind, Except.bind, pure, Except.pure, if_true,
    if_false, lowRow, Opening.wide, rexPrefix, registerFound, Reference.signExtendSigned]
  rw [UInt64.add_assoc]
  rfl

theorem readMove {target : Register} {value : UInt64}
    (holds : m.Holds rip (encode program start (.move target value))) :
    Reads m rip (0xB8 + low target) (.move target value, rip + 10) := by
  have rest : m.readPacked (rip + 2) = .ok value := by
    refine Memory.Holds.packed (Memory.Holds.part [rex target, 0xB8 + low target] [] ?_)
    rwa [List.append_nil]
  refine ⟨_, openingExtended (firstByte holds) (holds.byte (k := 1) rfl), rfl, ?_⟩
  simp +decide only [readOperands, rest, bind, Except.bind, pure, Except.pure, if_true,
    if_false, lowRow, Opening.wide, rexPrefix, registerFound]
  rw [UInt64.add_assoc]
  rfl

theorem readSyscall (holds : m.Holds rip (encode program start .syscall)) :
    Reads m rip 0x0F (.syscall, rip + 2) := by
  have second : m.readU8 (rip + 1) = .ok 0x05 := holds.byte (k := 1) rfl
  refine ⟨_, openingPlain (firstByte holds) rfl rfl, rfl, ?_⟩
  simp +decide only [readOperands, second, bind, Except.bind, pure, Except.pure, if_true, if_false]
  rw [UInt64.add_assoc]
  rfl

theorem readPause (holds : m.Holds rip (encode program start .pause)) :
    Reads m rip 0x90 (.nop, rip + 2) := by
  have first : m.readU8 rip = .ok 0xF3 := firstByte holds
  have second : m.readU8 (rip + 1) = .ok 0x90 := holds.byte (k := 1) rfl
  have opening : Opening.read m rip = .ok ⟨true, 0, 0x90, rip + 1 + 1⟩ := by
    simp +decide only [Opening.read, first, second, bind, Except.bind, pure, Except.pure, if_true,
      if_false]
    rfl
  refine ⟨_, opening, rfl, ?_⟩
  simp +decide only [readOperands, pure, Except.pure, if_true, if_false]
  rw [UInt64.add_assoc]
  rfl

theorem readJump {statement : Nat} (near : start + 5 < 2 ^ 31)
    (close : startOf program statement < 2 ^ 31) (base : UInt64)
    (holds : m.Holds (base + start.toUInt64) (encode program start (.jump statement))) :
    Reads m (base + start.toUInt64) 0xE9 (.jump (base + (startOf program statement).toUInt64),
      base + start.toUInt64 + 5) := by
  have rest : m.readPacked (base + start.toUInt64 + 1) =
      .ok (displacement start (startOf program statement)) := by
    refine Memory.Holds.packed (Memory.Holds.part [0xE9] [] ?_)
    rwa [List.append_nil]
  refine ⟨_, openingPlain (firstByte holds) rfl rfl, rfl, ?_⟩
  simp +decide only [readOperands, Instruction.readTarget, rest, bind, Except.bind, pure,
    Except.pure, if_true, if_false, Reference.signExtendSigned, displacementExact near close]
  rw [UInt64.add_assoc _ 1 4]
  exact congrArg (fun target => Except.ok (Instruction.jump target, _)) (jumpArrives base start _)

theorem readAssembled {i : Nat} {s : Statement} {base : UInt64} (small : size program < 2 ^ 31)
    (holds : m.Holds base (Assembly.assemble program)) (found : program[i]? = some s) :
    Reads m (base + (startOf program i).toUInt64) s.opcode
      (s.instruction program base, base + (startOf program (i + 1)).toUInt64) := by
  have held := Assembly.statementHeld holds found
  have next := Assembly.startOfNext found
  have inside := Assembly.startOfLe program (i + 1)
  have after : base + (startOf program (i + 1)).toUInt64 =
      base + (startOf program i).toUInt64 + s.length.toUInt64 := by
    simp only [next, Nat.toUInt64_eq, UInt64.ofNat_add, UInt64.add_assoc]
  rw [after]
  cases s with
  | moveSigned target value => exact readMoveSigned held
  | move target value => exact readMove held
  | syscall => exact readSyscall held
  | pause => exact readPause held
  | jump statement =>
    have target := Assembly.startOfLe program statement
    simp only [length] at next
    exact readJump (by omega) (by omega) base held

end Reading

section Carrying
variable {δ : Type} (handler : Option (TrapHandler δ)) (control : Control)

def effect (program : List Statement) (base next : UInt64) (g : Guest δ) :
    Statement → Guest δ × List Signal
  | .moveSigned target value => ((g.set target (Reference.signed value.toNat)).jump next, [])
  | .move target value => ((g.set target value).jump next, [])
  | .syscall => (g.jump next).trap handler control
  | .pause => (g.jump next, [])
  | .jump statement => (g.jump (base + (startOf program statement).toUInt64), [])

theorem carriedOut (program : List Statement) (base next : UInt64) (g : Guest δ) (opcode : UInt8)
    (s : Statement) :
    (Work.carryOut handler control opcode next (s.instruction program base)).run g =
      .ok (s.effect handler control program base next g).2
        (s.effect handler control program base next g).1 := by
  cases s <;> rfl

theorem heldStatementExecutes {program : List Statement} {base : UInt64} {m : Machine δ}
    (small : size program < 2 ^ 31) (holds : m.core.memory.Holds base (Assembly.assemble program))
    (active : m.mode.isFinal = false) {i : Nat} {s : Statement} (found : program[i]? = some s)
    (here : m.core.registers.rip = base + (startOf program i).toUInt64) :
    let running := m.control.enter .running
    let result := s.effect handler running program base
      (base + (startOf program (i + 1)).toUInt64) m.core.toGuest
    m.step handler =
      ({ core := { m.core with
          toGuest := result.1
          retired := m.core.retired + 1
          lastOpcode := s.opcode }
         control := running.signalAll result.2 }, 1) := by
  intro running result
  obtain ⟨opening, opened, opcode, operands⟩ := readAssembled small holds found
  rw [← here] at opened
  have goesOn : s.instruction program base ≠ .halt := by
    intro halts
    cases s <;> cases halts
  have executed : m.core.execute handler running =
      ({ m.core with
          toGuest := result.1
          retired := m.core.retired + 1
          lastOpcode := s.opcode }, .continued, result.2) := by
    simp only [Core.execute, opened, operands, carriedOut, if_neg goesOn, opcode]
    rfl
  have stepped : m.step handler = _ := stepActive active
  rwa [executed] at stepped

theorem assembledStatementExecutes {program : List Statement} {base : UInt64} {before : Memory}
    {m : Machine δ} (small : size program < 2 ^ 31) (range : Memory.Uncrossed base (size program))
    (placed : before.writeBlock base (Assembly.assemble program) = .ok m.core.memory)
    (active : m.mode ≠ .halted ∧ m.mode ≠ .faulted) {i : Nat} {s : Statement}
    (found : program[i]? = some s)
    (here : m.core.registers.rip = base + (startOf program i).toUInt64) :
    let next := base + (startOf program (i + 1)).toUInt64
    let running := m.control.enter .running
    let result := s.effect handler running program base next m.core.toGuest
    m.step handler =
      ({ core := { m.core with
          toGuest := result.1
          retired := m.core.retired + 1
          lastOpcode := s.opcode }
         control := running.signalAll result.2 }, 1) ∧
    (m.step handler).1.mode ≠ .faulted := by
  intro next running result
  rw [← Assembly.assembleLength] at range
  have alive : m.mode.isFinal = false := by
    obtain ⟨notHalted, notFaulted⟩ := active
    cases mode : m.mode <;> simp_all [Mode.isFinal]
  have stepped : m.step handler = _ :=
    heldStatementExecutes handler small (Memory.holdsWritten range placed) alive found here
  refine ⟨stepped, fun faulted => ?_⟩
  rw [stepped] at faulted
  cases Control.signalAllFaulted faulted

theorem assembledJumpExecutes :
    let program : List Statement := [.moveSigned .r9 0xFFFFFFFE, .jump 0]
    let before := Memory.zeros 6 (by decide) true
    let memory := before.store (before.translate 0x400003).toNat (Assembly.assemble program)
    let m : Machine Unit := .start memory () .empty
    let m := { m with
      core.registers := m.core.registers.jump 0x40000A
      control.mode := .paused }
    Memory.Uncrossed 0x400003 (size program) ∧
      before.writeBlock 0x400003 (Assembly.assemble program) = .ok memory ∧
      (m.mode ≠ .halted ∧ m.mode ≠ .faulted) ∧ (m.step none).1.mode = .running ∧
      (m.step none).1.core.registers = m.core.registers.jump 0x400003 ∧ (m.step none).2 = 1 := by
  intro program before memory start m
  have range : Memory.Uncrossed 0x400003 (size program) := by decide
  have placed : before.writeBlock 0x400003 (Assembly.assemble program) = .ok memory :=
    Memory.writeBlockOkIff.mpr ⟨by decide +kernel, rfl⟩
  have active : m.mode ≠ .halted ∧ m.mode ≠ .faulted := by decide
  have result := assembledStatementExecutes none (m := m) (i := 1) (by decide) range placed active
    rfl rfl
  refine ⟨range, placed, active, ?_⟩
  rw [result.1]
  exact ⟨rfl, rfl, rfl⟩

end Carrying

end Statement

end GameConsole
