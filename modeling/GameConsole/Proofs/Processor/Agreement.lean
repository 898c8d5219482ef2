import GameConsole.Proofs.Processor.Atomicity
import GameConsole.Proofs.Processor.Reference

/-! A step of the machine agrees with the reference, one kind of instruction after the other. -/
namespace GameConsole.Reference
open Instruction (Opening readOperands)

variable {δ : Type}

def leaves (halts : Bool) :
    EStateM.Result MemoryFault (Guest δ) (List Signal) → Except MemoryFault (Outcome δ)
  | .ok signals g => .ok ⟨g.registers, g.memory, g.devices, signals, halts⟩
  | .error e _ => .error e

section Carrying
variable {handler : Option (TrapHandler δ)} {control : Control} {opcode : UInt8}
  {next : UInt64} {g : Guest δ}
open Work (carryOut perform runPush runPop)

theorem leavesPush (source : Register) :
    leaves false ((carryOut handler control opcode next (.push source)).run g) =
      (storeSlot g.memory (g.registers.get .rsp - 8) (g.registers.get source)).map fun memory =>
        onward g next (g.registers.set .rsp (g.registers.get .rsp - 8)) memory := by
  rw [carryOut, EStateM.run_bind, perform, EStateM.run_bind, EStateM.run_get]
  dsimp only
  rw [EStateM.run_bind, runPush, storeSlotWrite]
  cases storeSlot g.memory (g.registers.get .rsp - 8) (g.registers.get source) <;> rfl

theorem leavesCall (target : UInt64) :
    leaves false ((carryOut handler control opcode next (.call target)).run g) =
      (storeSlot g.memory (g.registers.get .rsp - 8) next).map fun memory =>
        onward g target (g.registers.set .rsp (g.registers.get .rsp - 8)) memory := by
  rw [carryOut, EStateM.run_bind, perform, EStateM.run_bind, runPush, storeSlotWrite]
  cases storeSlot g.memory (g.registers.get .rsp - 8) next <;> rfl

theorem leavesPop (target : Register) :
    leaves false ((carryOut handler control opcode next (.pop target)).run g) =
      (loadSlot g.memory (g.registers.get .rsp)).map fun value =>
        onward g next ((g.registers.set .rsp (g.registers.get .rsp + 8)).set target value)
          g.memory := by
  rw [carryOut, EStateM.run_bind, perform, EStateM.run_bind, runPop, loadSlotRead]
  cases loadSlot g.memory (g.registers.get .rsp) <;> rfl

theorem leavesRet :
    leaves false ((carryOut handler control opcode next .ret).run g) =
      (loadSlot g.memory (g.registers.get .rsp)).map fun target =>
        onward g target (g.registers.set .rsp (g.registers.get .rsp + 8)) g.memory := by
  rw [carryOut, EStateM.run_bind, perform, EStateM.run_bind, runPop, loadSlotRead]
  cases loadSlot g.memory (g.registers.get .rsp) <;> rfl

end Carrying

def carried (handler : Option (TrapHandler δ)) (control : Control) (o : Opening) (g : Guest δ) :
    Except MemoryFault (Outcome δ) := do
  let (instruction, next) ← readOperands g.memory o
  leaves (instruction = .halt) ((Work.carryOut handler control o.opcode next instruction).run g)

section Instructions
variable {handler : Option (TrapHandler δ)} {control : Control} {o : Opening} {g : Guest δ}

theorem pushAgrees (same : Same o (head g.memory g.registers.rip))
    (row : 0x50 ≤ o.opcode.toNat ∧ o.opcode.toNat ≤ 0x57) :
    carried handler control o g = effect handler control g := by
  have operands : readOperands g.memory o = .ok (.push (o.register o.opcode), o.next) := by
    rw [readOperands, if_pos ((rowIff o.opcode 0x50 rfl).mpr row)]
    rfl
  rw [carried, operands]
  refine (leavesPush _).trans ?_
  rw [same.opcode] at row
  simp only [effect, if_pos row]
  rw [getGeneral _ (o.register _), setGeneral, registerIndex same, same.opcode, same.next]
  rfl

theorem callAgrees (same : Same o (head g.memory g.registers.rip)) (code : o.opcode = 0xE8) :
    carried handler control o g = effect handler control g := by
  have op : (head g.memory g.registers.rip).opcode = 0xE8 := codeNumber same code
  have operands : readOperands g.memory o =
      (immediate g.memory o.next 4).map fun distance =>
        (.call (o.next + 4 + signed distance), o.next + 4) := by
    simp +decide only [readOperands, code, targetRead]
    cases immediate g.memory o.next 4 <;> rfl
  simp +decide only [effect, op]
  rw [carried, operands, ← same.next]
  cases immediate g.memory o.next 4 with
  | error e => rfl
  | ok distance => exact leavesCall _

theorem jumpAgrees (same : Same o (head g.memory g.registers.rip)) (code : o.opcode = 0xE9) :
    carried handler control o g = effect handler control g := by
  have op : (head g.memory g.registers.rip).opcode = 0xE9 := codeNumber same code
  have operands : readOperands g.memory o =
      (immediate g.memory o.next 4).map fun distance =>
        (.jump (o.next + 4 + signed distance), o.next + 4) := by
    simp +decide only [readOperands, code, targetRead]
    cases immediate g.memory o.next 4 <;> rfl
  simp +decide only [effect, op]
  rw [carried, operands, ← same.next]
  cases immediate g.memory o.next 4 <;> rfl

theorem popAgrees (same : Same o (head g.memory g.registers.rip))
    (row : 0x58 ≤ o.opcode.toNat ∧ o.opcode.toNat ≤ 0x5F) :
    carried handler control o g = effect handler control g := by
  have other : ¬ (0x50 ≤ o.opcode.toNat ∧ o.opcode.toNat ≤ 0x57) := by omega
  have operands : readOperands g.memory o = .ok (.pop (o.register o.opcode), o.next) := by
    rw [readOperands, if_neg (mt (rowIff o.opcode 0x50 rfl).mp other),
      if_pos ((rowIff o.opcode 0x58 rfl).mpr row)]
    rfl
  rw [carried, operands]
  refine (leavesPop _).trans ?_
  rw [same.opcode] at row other
  simp only [effect, if_neg other, if_pos row]
  simp only [setGeneral _ (o.register _), registerIndex same, same.opcode, same.next]
  rfl

theorem moveAgrees (same : Same o (head g.memory g.registers.rip))
    (row : 0xB8 ≤ o.opcode.toNat ∧ o.opcode.toNat ≤ 0xBF) :
    carried handler control o g = effect handler control g := by
  have noPush : ¬ (0x50 ≤ o.opcode.toNat ∧ o.opcode.toNat ≤ 0x57) := by omega
  have noPop : ¬ (0x58 ≤ o.opcode.toNat ∧ o.opcode.toNat ≤ 0x5F) := by omega
  let width := if o.wide then 8 else 4
  have operands : readOperands g.memory o =
      (immediate g.memory o.next width).map fun value =>
        (.move (o.register o.opcode) (UInt64.ofNat value), o.next + UInt64.ofNat width) := by
    rw [readOperands, if_neg (mt (rowIff o.opcode 0x50 rfl).mp noPush),
      if_neg (mt (rowIff o.opcode 0x58 rfl).mp noPop),
      if_pos ((rowIff o.opcode 0xB8 rfl).mpr row)]
    cases wide : o.wide with
    | true =>
      simp only [width, wide, if_true, packedU64]
      cases immediate g.memory o.next 8 <;> rfl
    | false =>
      have extended (value : Nat) (small : value < 2 ^ 32) :=
        congrArg (fun value => (Instruction.move (o.register o.opcode) value, o.next + 4))
          (zeroExtendSmall small)
      simp only [width, wide, Bool.false_eq_true, if_false, packedU32]
      refine Eq.trans ?_ (mapImmediate _ _ extended)
      cases immediate g.memory o.next 4 <;> rfl
  rw [carried, operands]
  rw [same.opcode] at row noPush noPop
  simp only [effect, if_neg noPush, if_neg noPop, if_pos row]
  simp only [width, ← same.wide, ← same.next]
  cases immediate g.memory o.next (if o.wide then 8 else 4) with
  | error e => rfl
  | ok value =>
    rw [← same.opcode, ← registerIndex same]
    rfl

theorem moveExtendedAgrees (same : Same o (head g.memory g.registers.rip))
    (code : o.opcode = 0xC7) : carried handler control o g = effect handler control g := by
  have op : (head g.memory g.registers.rip).opcode = 0xC7 := codeNumber same code
  have index := registerIndex same (UInt8.ofNat (byteAt g.memory o.next))
  have form : UInt8.ofNat (byteAt g.memory o.next) &&& 0xF8 = 0xC0 ↔
      byteAt g.memory o.next / 64 = 3 ∧ byteAt g.memory o.next / 8 % 8 = 0 := by
    have range : byteAt g.memory o.next < 256 := UInt8.toNat_lt _
    rw [rowIff _ 0xC0 rfl, byteNat]
    change 192 ≤ byteAt g.memory o.next ∧ byteAt g.memory o.next ≤ 199 ↔ _
    omega
  rw [byteNat] at index
  simp +decide only [effect, op]
  rw [← same.next]
  by_cases register : byteAt g.memory o.next / 64 = 3 ∧ byteAt g.memory o.next / 8 % 8 = 0
  · have extended (read : Nat) (small : read < 2 ^ 32) :
        (if o.wide then Instruction.signExtend (UInt32.ofNat read)
          else (UInt32.ofNat read).toUInt64) =
          if o.wide then signed read else UInt64.ofNat read := by
      rw [signExtendSmall small, zeroExtendSmall small]
    have operands : readOperands g.memory o =
        (immediate g.memory (o.next + 1) 4).map fun read =>
          (.move (o.register (UInt8.ofNat (byteAt g.memory o.next)))
            (if o.wide then signed read else UInt64.ofNat read), o.next + 5) := by
      simp +decide only [readOperands, code, byteRead, if_true, if_false]
      simp only [bind, Except.bind, if_pos (form.mpr register), packedU32]
      rw [← mapImmediate _ _ fun read small => congrArg (fun value =>
        (Instruction.move (o.register (UInt8.ofNat (byteAt g.memory o.next))) value, o.next + 5))
        (extended read small)]
      cases immediate g.memory (o.next + 1) 4 <;> rfl
    rw [carried, operands, if_pos register, ← same.wide, ← index]
    cases immediate g.memory (o.next + 1) 4 <;> rfl
  · have operands : readOperands g.memory o =
        .ok (.skip (.move (UInt8.ofNat (byteAt g.memory o.next))), o.next + 1) := by
      simp +decide only [readOperands, code, byteRead, if_true, if_false]
      simp only [bind, Except.bind, if_neg (mt form.mp register)]
      rfl
    rw [carried, operands, if_neg register]
    rfl

theorem retAgrees (same : Same o (head g.memory g.registers.rip)) (code : o.opcode = 0xC3) :
    carried handler control o g = effect handler control g := by
  have op : (head g.memory g.registers.rip).opcode = 0xC3 := codeNumber same code
  have operands : readOperands g.memory o = .ok (.ret, o.next) := by
    simp +decide only [readOperands, code]
    rfl
  simp +decide only [effect, op]
  rw [carried, operands]
  exact leavesRet

theorem haltAgrees (same : Same o (head g.memory g.registers.rip)) (code : o.opcode = 0xF4) :
    carried handler control o g = effect handler control g := by
  have op : (head g.memory g.registers.rip).opcode = 0xF4 := codeNumber same code
  have operands : readOperands g.memory o = .ok (.halt, o.next) := by
    simp +decide only [readOperands, code]
    rfl
  simp +decide only [effect, op]
  rw [carried, operands, ← same.next]
  rfl

theorem twoByteAgrees (same : Same o (head g.memory g.registers.rip)) (code : o.opcode = 0x0F) :
    carried handler control o g = effect handler control g := by
  have op : (head g.memory g.registers.rip).opcode = 0x0F := codeNumber same code
  have second : UInt8.ofNat (byteAt g.memory o.next) = 5 ↔ byteAt g.memory o.next = 5 := by
    rw [← UInt8.toNat_inj, byteNat]
    rfl
  simp +decide only [effect, op]
  rw [← same.next]
  by_cases syscall : byteAt g.memory o.next = 5
  · have operands : readOperands g.memory o = .ok (.syscall, o.next + 1) := by
      simp +decide only [readOperands, code, byteRead]
      simp only [bind, Except.bind, if_pos (second.mpr syscall)]
      rfl
    rw [carried, operands, if_pos syscall]
    cases handler <;> rfl
  · have operands : readOperands g.memory o =
        .ok (.skip (.twoByte (UInt8.ofNat (byteAt g.memory o.next))), o.next + 1) := by
      simp +decide only [readOperands, code, byteRead]
      simp only [bind, Except.bind, if_neg (mt second.mp syscall)]
      rfl
    rw [carried, operands, if_neg syscall]
    rfl

theorem otherAgrees (same : Same o (head g.memory g.registers.rip))
    (noPush : ¬ (0x50 ≤ o.opcode.toNat ∧ o.opcode.toNat ≤ 0x57))
    (noPop : ¬ (0x58 ≤ o.opcode.toNat ∧ o.opcode.toNat ≤ 0x5F))
    (noMove : ¬ (0xB8 ≤ o.opcode.toNat ∧ o.opcode.toNat ≤ 0xBF))
    (codes : ∀ code ∈ [0x0F, 0xC3, 0xC7, 0xE8, 0xE9, 0xF4], o.opcode ≠ code) :
    carried handler control o g = effect handler control g := by
  have numbers : ∀ code ∈ [0x0F, 0xC3, 0xC7, 0xE8, 0xE9, 0xF4],
      (head g.memory g.registers.rip).opcode ≠ UInt8.toNat code := by
    intro code member
    rw [← same.opcode]
    exact mt UInt8.toNat_inj.mp (codes code member)
  simp only [List.forall_mem_cons, UInt8.reduceToNat] at codes numbers
  have operands : readOperands g.memory o =
      .ok (if o.opcode = 0x90 then .nop else .skip .opcode, o.next) := by
    rw [readOperands, if_neg (mt (rowIff o.opcode 0x50 rfl).mp noPush),
      if_neg (mt (rowIff o.opcode 0x58 rfl).mp noPop),
      if_neg (mt (rowIff o.opcode 0xB8 rfl).mp noMove)]
    simp only [codes, if_false]
    split <;> rfl
  rw [same.opcode] at noPush noPop noMove
  simp only [effect, if_neg noPush, if_neg noPop, if_neg noMove, numbers, if_false]
  rw [carried, operands, ← same.next]
  by_cases nop : o.opcode = 0x90
  · rw [if_pos nop]
    rfl
  · rw [if_neg nop]
    rfl

theorem carriedEffect (same : Same o (head g.memory g.registers.rip)) :
    carried handler control o g = effect handler control g := by
  by_cases push : 0x50 ≤ o.opcode.toNat ∧ o.opcode.toNat ≤ 0x57
  · exact pushAgrees same push
  by_cases pop : 0x58 ≤ o.opcode.toNat ∧ o.opcode.toNat ≤ 0x5F
  · exact popAgrees same pop
  by_cases move : 0xB8 ≤ o.opcode.toNat ∧ o.opcode.toNat ≤ 0xBF
  · exact moveAgrees same move
  by_cases twoByte : o.opcode = 0x0F
  · exact twoByteAgrees same twoByte
  by_cases ret : o.opcode = 0xC3
  · exact retAgrees same ret
  by_cases moveExtended : o.opcode = 0xC7
  · exact moveExtendedAgrees same moveExtended
  by_cases call : o.opcode = 0xE8
  · exact callAgrees same call
  by_cases jump : o.opcode = 0xE9
  · exact jumpAgrees same jump
  by_cases halt : o.opcode = 0xF4
  · exact haltAgrees same halt
  exact otherAgrees same push pop move (by simp [twoByte, ret, moveExtended, call, jump, halt])

end Instructions

def outcome : EStateM.Result MemoryFault (Guest δ) (Instruction × List Signal) →
    Except MemoryFault (Outcome δ)
  | .ok (instruction, signals) g => leaves (instruction = .halt) (.ok signals g)
  | .error e _ => .error e

theorem outcomeCarried {handler : Option (TrapHandler δ)} {control : Control} {o : Opening}
    {g : Guest δ} (found : Opening.read g.memory g.registers.rip = .ok o) :
    outcome ((Work.instruct handler control).run g) = carried handler control o g := by
  simp only [Work.instruct, EStateM.run_bind, EStateM.run_get, EStateM.run_pure, Work.runOfExcept,
    found]
  rw [carried]
  cases operands : readOperands g.memory o with
  | error e => rfl
  | ok read =>
    simp only [bind, Except.bind]
    cases (Work.carryOut handler control o.opcode read.2 read.1).run g <;> rfl

theorem stepMatchesReference (handler : Option (TrapHandler δ)) (m : Machine δ)
    (active : m.mode = .stopped ∨ m.mode = .running ∨ m.mode = .paused) :
    observe (m.step handler) = step handler m := by
  have alive : m.mode.isFinal = false := by
    obtain h | h | h := active <;> rw [h] <;> rfl
  obtain ⟨o, found, same⟩ := headRead m.core.memory m.core.registers.rip
  have agrees : outcome ((Work.instruct handler (m.control.enter .running)).run m.core.toGuest) =
      effect handler (m.control.enter .running) m.core.toGuest :=
    (outcomeCarried found).trans (carriedEffect same)
  have opcode : UInt8.ofNat (head m.core.memory m.core.registers.rip).opcode = o.opcode := by
    rw [← same.opcode, UInt8.ofNat_toNat]
  rw [Control.enter] at agrees
  rw [step, opcode]
  dsimp only
  rw [← agrees]
  cases worked : (Work.instruct handler (m.control.enter .running)).run m.core.toGuest with
  | error fault g =>
    have unchanged : g = m.core.toGuest := Work.instructAtomic _ _ _ worked
    subst unchanged
    rw [Control.enter] at worked
    rw [stepBroken alive found worked, worked]
    rfl
  | ok result g =>
    obtain ⟨instruction, signals⟩ := result
    obtain ⟨journal, stepped⟩ := stepDone alive found worked
    rw [Control.enter] at worked
    rw [stepped, worked]
    by_cases halts : instruction = .halt
    · rw [halts]
      rfl
    · rw [if_neg halts, if_neg halts]
      simp only [outcome, leaves, halts, decide_false, Bool.false_eq_true, if_false]
      rfl

theorem pushedStackPointer :
    let memory := (Memory.zeros 6 (by decide) true).store 0 [0xF3, 0x54]
    let m : Machine Unit := .start memory () .empty
    let m := { m with
      core.registers := m.core.registers.set .rsp 0x400028
      control.mode := .paused }
    (m.mode = .stopped ∨ m.mode = .running ∨ m.mode = .paused) ∧
      observe (m.step none) = step none m ∧
      (step none m).memory.bytesAt 0x20 8 = [0x28, 0, 0x40, 0, 0, 0, 0, 0] ∧
      (step none m).registers.get .rsp = 0x400020 ∧ (step none m).registers.rip = 2 := by
  intro memory start m
  have active : m.mode = .stopped ∨ m.mode = .running ∨ m.mode = .paused := .inr (.inr rfl)
  exact ⟨active, stepMatchesReference none m active, by decide +kernel⟩

end GameConsole.Reference
