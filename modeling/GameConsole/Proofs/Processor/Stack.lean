import GameConsole.Proofs.Memory.History
import GameConsole.Proofs.Processor.Execution
import GameConsole.Proofs.Processor.Fetching

/-! The stack. What an instruction puts into a slot is there when the slot is taken back, if all
that has been done in between keeps to the slots below. -/
namespace GameConsole
open Memory (Reach)

namespace Memory

def slots (rsp : UInt64) : Nat → List Reach
  | 0 => []
  | n + 1 => ⟨rsp - 8, 8, 8⟩ :: slots (rsp - 8) n

structure Room (m : Memory) (ranges : List Reach) : Prop where
  granted : ∀ r ∈ ranges, r.Granted m
  apart : ranges.Pairwise fun r q => r.Apart q m

theorem Room.tail {m : Memory} {r : Reach} {rest : List Reach} (room : m.Room (r :: rest)) :
    m.Room rest :=
  ⟨fun q member => room.granted q (List.mem_cons_of_mem r member),
    (List.pairwise_cons.mp room.apart).2⟩

instance (m : Memory) (ranges : List Reach) : Decidable (m.Room ranges) :=
  decidable_of_iff ((∀ r ∈ ranges, r.Granted m) ∧ ranges.Pairwise fun r q => r.Apart q m)
    ⟨fun h => ⟨h.1, h.2⟩, fun h => ⟨h.granted, h.apart⟩⟩

end Memory

namespace CallSite

def resume (address : UInt64) : List CallSite → UInt64
  | [] => address
  | c :: _ => c.next address

def returns (address : UInt64) : List CallSite → List UInt64
  | [] => []
  | c :: inner => c.next address :: returns (c.target address) inner

/- What is called is another call and a return after it, but for the innermost call, where it is a
return alone. -/
def Nested (m : Memory) (ranges : List Reach) (address : UInt64) : List CallSite → Prop
  | [] => True
  | c :: inner =>
    m.Spells ranges address c.opening ∧
    m.readPacked (c.operand address) = .ok c.displacement ∧
    (∀ r ∈ ranges, r.Apart ⟨c.operand address, 4, 1⟩ m) ∧
    Nested m ranges (c.target address) inner ∧
    m.Spells ranges (resume (c.target address) inner) c.returning

instance Nested.decidable (m : Memory) (ranges : List Reach) :
    ∀ (address : UInt64) (calls : List CallSite), Decidable (Nested m ranges address calls)
  | _, [] => .isTrue trivial
  | address, c :: inner =>
    have := Nested.decidable m ranges (c.target address) inner
    inferInstanceAs (Decidable (_ ∧ _ ∧ _ ∧ _ ∧ _))

theorem returnsLength (address : UInt64) (calls : List CallSite) :
    (returns address calls).length = calls.length := by
  induction calls generalizing address with
  | nil => rfl
  | cons c inner ih => exact congrArg Nat.succ (ih (c.target address))

end CallSite

namespace Machine
variable {δ : Type} {handler : Option (TrapHandler δ)} {m : Machine δ} {n : Nat}
  {ranges : List Reach}

structure Passes (handler : Option (TrapHandler δ)) (m : Machine δ) (n : Nat)
    (ranges : List Reach) : Prop where
  unbroken : ∀ k < n, ((m.steps handler k).step handler).2 = 1 ∧
    (m.steps handler (k + 1)).mode = .running
  confined : m.core.memory.Confined (m.steps handler n).core.memory ranges
  devices : (m.steps handler n).core.devices = m.core.devices

namespace Passes

theorem none : m.Passes handler 0 [] :=
  ⟨fun _ inside => absurd inside (Nat.not_lt_zero _), .refl _ _, rfl⟩

theorem trans {first later : Nat} {ranges' : List Reach} (passes : m.Passes handler first ranges)
    (more : (m.steps handler first).Passes handler later ranges') :
    m.Passes handler (first + later) (ranges ++ ranges') := by
  refine ⟨fun k inside => ?_, ?_, ?_⟩
  · by_cases early : k < first
    · exact passes.unbroken k early
    · obtain ⟨j, rfl⟩ := Nat.exists_eq_add_of_le (Nat.le_of_not_lt early)
      rw [Nat.add_assoc, stepsAdd, stepsAdd]
      exact more.unbroken j (by omega)
  · rw [stepsAdd]
    exact passes.confined.trans more.confined
  · rw [stepsAdd]
    exact more.devices.trans passes.devices

theorem active (passes : m.Passes handler n ranges) (alive : m.mode.isFinal = false) :
    (m.steps handler n).mode.isFinal = false := by
  cases n with
  | zero => exact alive
  | succ n =>
    rw [(passes.unbroken n (Nat.lt_succ_self n)).2]
    rfl

end Passes

section Step
variable {instruction : Instruction} {next target : UInt64} {registers : Registers}
  {memory : Memory}

theorem passesStep (alive : m.mode.isFinal = false)
    (read : Instruction.read m.core.memory m.core.registers.rip = .ok (instruction, next))
    (goesOn : instruction ≠ .halt)
    (performed : ∀ control opcode,
      (Work.perform handler control opcode next instruction).run m.core.toGuest =
        .ok (target, []) { m.core.toGuest with registers, memory })
    (confined : m.core.memory.Confined memory ranges) :
    m.Passes handler 1 ranges ∧ (m.steps handler 1).core.registers = registers.jump target ∧
      (m.steps handler 1).core.memory = memory := by
  obtain ⟨opening, found, operands⟩ := Memory.bindOk.mp read
  have done : (Work.instruct handler (m.control.enter .running)).run m.core.toGuest =
      .ok (instruction, []) ({ m.core.toGuest with registers, memory }.jump target) := by
    simp only [Work.instruct, Work.carryOut, EStateM.run_bind, EStateM.run_get, EStateM.run_modify,
      EStateM.run_pure, Work.runOfExcept, found, operands, performed]
  obtain ⟨journal, stepped⟩ := stepDone alive found done
  rw [if_neg goesOn, if_neg goesOn] at stepped
  have one : m.steps handler 1 = (m.step handler).1 := rfl
  rw [one, stepped]
  refine ⟨⟨fun k inside => ?_, ?_, ?_⟩, rfl, rfl⟩
  · obtain rfl : k = 0 := by omega
    exact ⟨congrArg Prod.snd stepped, congrArg (fun result => result.1.mode) stepped⟩
  · rw [one, stepped]
    exact confined
  · rw [one, stepped]
    rfl

theorem passesSlot {value : UInt64} (alive : m.mode.isFinal = false)
    (read : Instruction.read m.core.memory m.core.registers.rip = .ok (instruction, next))
    (goesOn : instruction ≠ .halt)
    (pushes : ∀ control opcode,
      (Work.perform handler control opcode next instruction).run m.core.toGuest =
        (do Work.push value; return (target, []) : Work δ _).run m.core.toGuest)
    (granted : Reach.Granted ⟨m.core.registers.get .rsp - 8, 8, 8⟩ m.core.memory) :
    let s := m.core.registers
    m.Passes handler 1 [⟨s.get .rsp - 8, 8, 8⟩] ∧
      (m.steps handler 1).core.registers = (s.set .rsp (s.get .rsp - 8)).jump target ∧
      m.core.memory.writeU64 (s.get .rsp - 8) value = .ok (m.steps handler 1).core.memory := by
  intro s
  obtain ⟨memory, written⟩ : ∃ memory, m.core.memory.writeU64 (s.get .rsp - 8) value = .ok memory :=
    ⟨_, Memory.writeWordOkIff.mpr ⟨granted, rfl⟩⟩
  have performed (control : Control) (opcode : UInt8) :
      (Work.perform handler control opcode next instruction).run m.core.toGuest =
        .ok (target, []) { m.core.toGuest with
          registers := s.set .rsp (s.get .rsp - 8)
          memory } := by
    rw [pushes, EStateM.run_bind, Work.runPush, written]
    rfl
  obtain ⟨passes, registers, same⟩ :=
    passesStep alive read goesOn performed (Memory.writeU64Confined written)
  exact ⟨passes, registers, by rw [same]; exact written⟩

theorem passesAround {before : Memory} {later : Machine δ} {rsp value : UInt64}
    {below : List Reach} {final : Registers} (changed : before.Confined m.core.memory ranges)
    (included : ⟨rsp, 8, 8⟩ :: below ⊆ ranges) (room : before.Room (⟨rsp, 8, 8⟩ :: below))
    (opened : m.Passes handler 1 [⟨rsp, 8, 8⟩])
    (written : m.core.memory.writeU64 rsp value = .ok (m.steps handler 1).core.memory)
    (inside : (m.steps handler 1).Passes handler n below)
    (reached : m.steps handler (1 + n) = later)
    (closing : before.Confined later.core.memory ranges →
      later.core.memory.readU64 rsp = .ok value →
      later.Passes handler 1 [] ∧ (later.steps handler 1).core.registers = final) :
    m.Passes handler (n + 2) (⟨rsp, 8, 8⟩ :: below) ∧
      (m.steps handler (n + 2)).core.registers = final := by
  have passes := opened.trans inside
  have confined := changed.next passes.confined included
  have kept : later.core.memory.readU64 rsp = .ok value := by
    rw [← reached, stepsAdd]
    refine inside.confined.wordKept (fun r member => ?_) (Memory.readWordWritten written)
    have apart := (List.pairwise_cons.mp room.apart).1 r member
    exact (opened.confined.apartIff.mpr (changed.apartIff.mpr apart)).symm
  rw [reached] at confined
  obtain ⟨closed, registers⟩ := closing confined kept
  rw [← reached] at closed registers
  have whole := passes.trans closed
  rw [List.append_nil] at whole
  have total : n + 2 = 1 + n + 1 := by omega
  rw [total, stepsAdd handler m (1 + n) 1]
  exact ⟨whole, registers⟩

variable (handler)

theorem passesPush {source : Register} (alive : m.mode.isFinal = false)
    (read : Instruction.read m.core.memory m.core.registers.rip = .ok (.push source, next))
    (granted : Reach.Granted ⟨m.core.registers.get .rsp - 8, 8, 8⟩ m.core.memory) :
    let s := m.core.registers
    m.Passes handler 1 [⟨s.get .rsp - 8, 8, 8⟩] ∧
      (m.steps handler 1).core.registers = (s.set .rsp (s.get .rsp - 8)).jump next ∧
      m.core.memory.writeU64 (s.get .rsp - 8) (s.get source) =
        .ok (m.steps handler 1).core.memory := by
  refine passesSlot alive read (by rintro ⟨⟩) (fun control opcode => ?_) granted
  rw [Work.perform, EStateM.run_bind, EStateM.run_get]

theorem passesCall (alive : m.mode.isFinal = false)
    (read : Instruction.read m.core.memory m.core.registers.rip = .ok (.call target, next))
    (granted : Reach.Granted ⟨m.core.registers.get .rsp - 8, 8, 8⟩ m.core.memory) :
    let s := m.core.registers
    m.Passes handler 1 [⟨s.get .rsp - 8, 8, 8⟩] ∧
      (m.steps handler 1).core.registers = (s.set .rsp (s.get .rsp - 8)).jump target ∧
      m.core.memory.writeU64 (s.get .rsp - 8) next = .ok (m.steps handler 1).core.memory :=
  passesSlot alive read (by rintro ⟨⟩) (fun _ _ => rfl) granted

theorem passesPop {r : Register} {value : UInt64} (alive : m.mode.isFinal = false)
    (read : Instruction.read m.core.memory m.core.registers.rip = .ok (.pop r, next))
    (found : m.core.memory.readU64 (m.core.registers.get .rsp) = .ok value) :
    let s := m.core.registers
    m.Passes handler 1 [] ∧ (m.steps handler 1).core.registers =
      ((s.set .rsp (s.get .rsp + 8)).set r value).jump next := by
  intro s
  have performed (control : Control) (opcode : UInt8) :
      (Work.perform handler control opcode next (.pop r)).run m.core.toGuest =
        .ok (next, []) { m.core.toGuest with
          registers := (s.set .rsp (s.get .rsp + 8)).set r value
          memory := m.core.memory } := by
    rw [Work.perform, EStateM.run_bind, Work.runPop, found]
    rfl
  obtain ⟨passes, registers, -⟩ :=
    passesStep alive read (by rintro ⟨⟩) performed (.refl _ _)
  exact ⟨passes, registers⟩

theorem passesReturn {value : UInt64} (alive : m.mode.isFinal = false)
    (read : Instruction.read m.core.memory m.core.registers.rip = .ok (.ret, next))
    (found : m.core.memory.readU64 (m.core.registers.get .rsp) = .ok value) :
    let s := m.core.registers
    m.Passes handler 1 [] ∧
      (m.steps handler 1).core.registers = (s.set .rsp (s.get .rsp + 8)).jump value := by
  intro s
  have performed (control : Control) (opcode : UInt8) :
      (Work.perform handler control opcode next .ret).run m.core.toGuest =
        .ok (value, []) { m.core.toGuest with
          registers := s.set .rsp (s.get .rsp + 8)
          memory := m.core.memory } := by
    rw [Work.perform, EStateM.run_bind, Work.runPop, found]
    rfl
  obtain ⟨passes, registers, -⟩ :=
    passesStep alive read (by rintro ⟨⟩) performed (.refl _ _)
  exact ⟨passes, registers⟩

end Step

end Machine

def Operand.code (moves : List (Operand × Operand)) : List UInt8 :=
  moves.flatMap (fun move => move.1.push) ++ moves.reverse.flatMap fun move => move.2.pop

theorem Operand.codeCons (move : Operand × Operand) (rest : List (Operand × Operand)) :
    code (move :: rest) = move.1.push ++ (code rest ++ move.2.pop) := by
  simp only [code, List.flatMap_cons, List.reverse_cons, List.flatMap_append, List.flatMap_nil,
    List.append_nil, List.append_assoc]

theorem slotBelow (rsp : UInt64) (i : Nat) :
    rsp - 8 - 8 * i.toUInt64 = rsp - 8 * (i + 1).toUInt64 := by
  have next : (i + 1).toUInt64 = i.toUInt64 + 1 := UInt64.ofNat_add i 1
  rw [next]
  grind

structure Registers.Moved (moves : List (Operand × Operand)) (s after : Registers) : Prop where
  taken : ∀ (i : Nat) (source target : Operand), moves[i]? = some (source, target) →
    after.get target.register = if source.register = .rsp
      then s.get .rsp - 8 * i.toUInt64 else s.get source.register
  kept : ∀ r, r ∉ moves.map (fun move => move.2.register) → after.get r = s.get r
  others : ∃ general rip, after = { s with general, rip }

theorem Registers.Moved.around {source target : Operand} {rest : List (Operand × Operand)}
    {s inner : Registers} {next last : UInt64}
    (moved : Moved rest ((s.set .rsp (s.get .rsp - 8)).jump next) inner)
    (distinct : (((source, target) :: rest).map fun move => move.2.register).Nodup)
    (spared : .rsp ∉ ((source, target) :: rest).map fun move => move.2.register) :
    Moved ((source, target) :: rest) s (((inner.set .rsp (inner.get .rsp + 8)).set target.register
      (s.get source.register)).jump last) := by
  obtain ⟨fresh, -⟩ := List.nodup_cons.mp distinct
  obtain ⟨apart, rested⟩ := List.ne_and_not_mem_of_not_mem_cons spared
  have rsp := moved.kept .rsp rested
  rw [getJump, getSetSelf] at rsp
  refine ⟨fun i => ?taken, fun r other => ?kept, ?others⟩
  case taken =>
    intro source' target' found
    cases i with
    | zero =>
      cases found
      rw [getJump, getSetSelf]
      split
      case isTrue same =>
        rw [same]
        exact (UInt64.sub_zero _).symm
      case isFalse => rfl
    | succ i =>
      have later : rest[i]? = some (source', target') := found
      have member : target'.register ∈ rest.map fun move => move.2.register :=
        List.mem_map_of_mem (List.mem_of_getElem? later)
      have different : target.register ≠ target'.register := by
        intro same
        rw [← same] at member
        exact fresh member
      have spared : .rsp ≠ target'.register := fun same => rested (same ▸ member)
      rw [getJump, getSet, if_neg different, getSet, if_neg spared, moved.taken i _ _ later]
      simp only [getJump, getSet, if_true]
      split
      case isTrue => exact slotBelow (s.get .rsp) i
      case isFalse other => rw [if_neg (Ne.symm other)]
  case kept =>
    obtain ⟨different, other⟩ := List.ne_and_not_mem_of_not_mem_cons other
    rw [getJump, getSet, if_neg different.symm, getSet]
    split
    case isTrue same =>
      rw [← same, rsp, UInt64.sub_add_cancel]
    case isFalse different =>
      rw [moved.kept r other, getJump, getSet, if_neg different]
  case others =>
    obtain ⟨general, rip, same⟩ := moved.others
    exact ⟨_, _, by rw [same]; rfl⟩

section Stack
variable {δ : Type} (handler : Option (TrapHandler δ)) {before : Memory} {ranges : List Reach}

theorem movesThroughStack (moves : List (Operand × Operand)) {m : Machine δ}
    (alive : m.mode.isFinal = false) (changed : before.Confined m.core.memory ranges)
    (included : Memory.slots (m.core.registers.get .rsp) moves.length ⊆ ranges)
    (room : before.Room (Memory.slots (m.core.registers.get .rsp) moves.length))
    (code : before.Spells ranges m.core.registers.rip (Operand.code moves))
    (distinct : (moves.map fun move => move.2.register).Nodup)
    (spared : .rsp ∉ moves.map fun move => move.2.register) :
    let s := m.core.registers
    m.Passes handler (2 * moves.length) (Memory.slots (s.get .rsp) moves.length) ∧
      s.Moved moves (m.steps handler (2 * moves.length)).core.registers ∧
      (m.steps handler (2 * moves.length)).core.registers.rip =
        s.rip + (Operand.code moves).length.toUInt64 := by
  induction moves generalizing m with
  | nil =>
    exact ⟨.none, ⟨fun _ _ _ found => (by cases found), fun _ _ => rfl, _, _, rfl⟩,
      (UInt64.add_zero _).symm⟩
  | cons move rest ih =>
    obtain ⟨source, target⟩ := move
    intro s
    rw [Operand.codeCons, Memory.spellsAppend, Memory.spellsAppend] at code
    obtain ⟨first, middle, last⟩ := code
    obtain ⟨here, below⟩ := List.cons_subset.mp included
    have granted := changed.grantedIff.mpr (room.granted _ List.mem_cons_self)
    obtain ⟨opened, registers, written⟩ :=
      Machine.passesPush handler alive (source.pushRead first changed) granted
    have rested : .rsp ∉ rest.map fun move => move.2.register :=
      fun member => spared (List.mem_cons_of_mem _ member)
    have inner := ih (m := m.steps handler 1) (opened.active alive)
      (changed.next opened.confined (List.cons_subset.mpr ⟨here, List.nil_subset _⟩))
    simp only [registers, Registers.getJump, Registers.getSetSelf, Registers.ripJump] at inner
    obtain ⟨inside, moved, rip⟩ :=
      inner below room.tail middle (List.nodup_cons.mp distinct).2 rested
    have rsp := moved.kept .rsp rested
    rw [Registers.getJump, Registers.getSetSelf] at rsp
    rw [← rip] at last
    have active := inside.active (opened.active alive)
    obtain ⟨passes, ends⟩ := Machine.passesAround changed included room opened written inside
      (Machine.stepsAdd ..) fun changed found =>
        Machine.passesPop handler active (target.popRead last changed) (rsp ▸ found)
    refine ⟨passes, ?_, ?_⟩
    · exact ends ▸ moved.around distinct spared
    · refine (congrArg Registers.rip ends).trans ?_
      rw [Registers.ripJump, rip, Operand.codeCons]
      simp only [List.length_append, Nat.toUInt64_eq, UInt64.ofNat_add, UInt64.add_assoc]
      rfl

theorem callsReturn (calls : List CallSite) {m : Machine δ} (alive : m.mode.isFinal = false)
    (changed : before.Confined m.core.memory ranges)
    (included : Memory.slots (m.core.registers.get .rsp) calls.length ⊆ ranges)
    (room : before.Room (Memory.slots (m.core.registers.get .rsp) calls.length))
    (nested : CallSite.Nested before ranges m.core.registers.rip calls) :
    let s := m.core.registers
    m.Passes handler (2 * calls.length) (Memory.slots (s.get .rsp) calls.length) ∧
      (m.steps handler (2 * calls.length)).core.registers =
        s.jump (CallSite.resume s.rip calls) ∧
      ∀ (i : Nat) (address : UInt64), (CallSite.returns s.rip calls)[i]? = some address →
        (m.steps handler (2 * calls.length - i)).core.registers =
          (s.set .rsp (s.get .rsp - 8 * i.toUInt64)).jump address := by
  induction calls generalizing m with
  | nil => exact ⟨.none, rfl, fun _ _ found => (by cases found)⟩
  | cons c rest ih =>
    intro s
    obtain ⟨first, displacement, apart, middle, last⟩ := nested
    obtain ⟨here, below⟩ := List.cons_subset.mp included
    have granted := changed.grantedIff.mpr (room.granted _ List.mem_cons_self)
    obtain ⟨opened, registers, written⟩ := Machine.passesCall handler alive
      (c.callRead first (changed.packedKept apart displacement) changed) granted
    have inner := ih (m := m.steps handler 1) (opened.active alive)
      (changed.next opened.confined (List.cons_subset.mpr ⟨here, List.nil_subset _⟩))
    simp only [registers, Registers.getJump, Registers.getSetSelf, Registers.ripJump] at inner
    obtain ⟨inside, returned, passed⟩ := inner below room.tail middle
    have rsp := congrArg (Registers.get · .rsp) returned
    have rip := congrArg Registers.rip returned
    simp only [Registers.getJump, Registers.getSetSelf] at rsp
    rw [Registers.ripJump] at rip
    rw [← rip] at last
    have active := inside.active (opened.active alive)
    obtain ⟨passes, ends⟩ := Machine.passesAround changed included room opened written inside
      (Machine.stepsAdd ..) fun changed found =>
        Machine.passesReturn handler active (c.returnRead last changed) (rsp ▸ found)
    have restored : (m.steps handler (2 * rest.length + 2)).core.registers =
        s.jump (c.next s.rip) := by
      rw [ends, rsp, UInt64.sub_add_cancel, returned]
      show ((s.set .rsp (s.get .rsp - 8)).set .rsp (s.get .rsp)).jump (c.next s.rip) = _
      rw [Registers.setSet, Registers.setGet]
    refine ⟨passes, restored, fun i address found => ?_⟩
    cases i with
    | zero =>
      cases found
      show _ = (s.set .rsp (s.get .rsp - 0)).jump (c.next s.rip)
      rw [UInt64.sub_zero, Registers.setGet]
      exact restored
    | succ i =>
      have later : (CallSite.returns (c.target s.rip) rest)[i]? = some address := found
      have short := (List.getElem?_eq_some_iff.mp later).1
      rw [CallSite.returnsLength] at short
      have steps : 2 * (c :: rest).length - (i + 1) = 1 + (2 * rest.length - i) := by
        rw [List.length_cons]
        omega
      rw [steps, Machine.stepsAdd, passed i address later, slotBelow]
      show ((s.set .rsp (s.get .rsp - 8)).set .rsp _).jump address = _
      rw [Registers.setSet]

/- What comes off the stack is what has been put there last, however far the stack pointer wraps and
wherever its slots lie in the buffer. -/
theorem lastPushedFirstPopped (m : Machine δ)
    (active : m.mode ≠ .halted ∧ m.mode ≠ .faulted) :
    let s := m.core.registers
    (∀ moves : List (Operand × Operand),
      let slots := Memory.slots (s.get .rsp) moves.length
      let targets := moves.map fun move => move.2.register
      let after := (m.steps handler (2 * moves.length)).core.registers
      m.core.memory.Room slots → m.core.memory.Spells slots s.rip (Operand.code moves) →
      targets.Nodup → .rsp ∉ targets →
      m.Passes handler (2 * moves.length) slots ∧ s.Moved moves after ∧
        after.get .rsp = s.get .rsp ∧ after.rip = s.rip + (Operand.code moves).length.toUInt64) ∧
    ∀ calls : List CallSite,
      let slots := Memory.slots (s.get .rsp) calls.length
      m.core.memory.Room slots → CallSite.Nested m.core.memory slots s.rip calls →
      m.Passes handler (2 * calls.length) slots ∧
        (m.steps handler (2 * calls.length)).core.registers = s.jump (CallSite.resume s.rip calls) ∧
        ∀ (i : Nat) (address : UInt64), (CallSite.returns s.rip calls)[i]? = some address →
          (m.steps handler (2 * calls.length - i)).core.registers =
            (s.set .rsp (s.get .rsp - 8 * i.toUInt64)).jump address := by
  intro s
  have alive : m.mode.isFinal = false := Mode.activeIff.mpr active
  refine ⟨fun moves => ?moves, fun calls => ?calls⟩
  case moves =>
    intro slots targets after room code distinct spared
    obtain ⟨passes, moved, rip⟩ := movesThroughStack handler moves alive
      (.refl _ slots) (List.Subset.refl _) room code distinct spared
    exact ⟨passes, moved, moved.kept .rsp spared, rip⟩
  case calls =>
    intro slots room nested
    exact callsReturn handler calls alive (.refl _ slots) (List.Subset.refl _) room nested

theorem lastPushedFirstPoppedWrapped :
    let memory := ((Memory.zeros 6 (by decide) true).store 16
      [0xE8, 3, 0, 0, 0, 0, 0xF3, 0xC3, 0x48, 0xE8, 0xF8, 0xFF, 0xFF, 0xFF, 0xC3]).store 32
      [0x54, 0x41, 0x57, 0x48, 0x54, 0x5D, 0x58, 0xF3, 0x41, 0x59]
    let start (rip : UInt64) : Machine Unit :=
      let m : Machine Unit := .start memory () .empty
      { m with
        core.registers := ((m.core.registers.set .rsp 8).set .r15 7).jump rip
        control.mode := .paused }
    let moves : List (Operand × Operand) :=
      [(⟨{}, 4⟩, ⟨{ repeated := true, extension := some 1 }, 1⟩),
        (⟨{ extension := some 1 }, 7⟩, ⟨{}, 0⟩), (⟨{ extension := some 8 }, 4⟩, ⟨{}, 5⟩)]
    let calls : List CallSite :=
      [⟨{}, 3, {}⟩, ⟨{ extension := some 8 }, 0xFFFFFFF8, { repeated := true }⟩]
    let mover := start 32
    let caller := start 16
    let slots := fun (m : Machine Unit) => Memory.slots (m.core.registers.get .rsp)
    let moved := (mover.steps none (2 * moves.length)).core.registers
    (∀ rip, (start rip).mode ≠ .halted ∧ (start rip).mode ≠ .faulted) ∧
      mover.core.memory.Room (slots mover moves.length) ∧
      mover.core.memory.Spells (slots mover moves.length) mover.core.registers.rip
        (Operand.code moves) ∧
      (moves.map fun move => move.2.register).Nodup ∧
      .rsp ∉ (moves.map fun move => move.2.register) ∧
      caller.core.memory.Room (slots caller calls.length) ∧
      CallSite.Nested caller.core.memory (slots caller calls.length)
        caller.core.registers.rip calls ∧
      moved.get .r9 = 8 ∧ moved.get .rax = 7 ∧ moved.get .rbp = 0xFFFFFFFFFFFFFFF8 ∧
      (caller.steps none (2 * calls.length - 1)).core.registers.rip = 30 ∧
      (caller.steps none (2 * calls.length)).core.registers.rip = 21 := by
  intro memory start moves calls mover caller slots moved
  have active (rip : UInt64) : (start rip).mode ≠ .halted ∧ (start rip).mode ≠ .faulted :=
    ⟨nofun, nofun⟩
  have room : mover.core.memory.Room (slots mover moves.length) := by decide +kernel
  have code : mover.core.memory.Spells (slots mover moves.length) mover.core.registers.rip
      (Operand.code moves) := by decide +kernel
  have distinct : (moves.map fun move => move.2.register).Nodup := by decide
  have spared : .rsp ∉ moves.map fun move => move.2.register := by decide
  have roomToo : caller.core.memory.Room (slots caller calls.length) := by decide +kernel
  have nested : CallSite.Nested caller.core.memory (slots caller calls.length)
      caller.core.registers.rip calls := by decide +kernel
  obtain ⟨-, through, -⟩ :=
    (lastPushedFirstPopped none mover (active 32)).1 moves room code distinct spared
  obtain ⟨-, resumed, returned⟩ :=
    (lastPushedFirstPopped none caller (active 16)).2 calls roomToo nested
  have second : (CallSite.returns caller.core.registers.rip calls)[1]? = some 30 := by
    decide +kernel
  have first : CallSite.resume caller.core.registers.rip calls = 21 := by decide +kernel
  have r9 := through.taken 0 _ _ rfl
  have rax := through.taken 1 _ _ rfl
  have rbp := through.taken 2 _ _ rfl
  refine ⟨active, room, code, distinct, spared, roomToo, nested, ?_, ?_, ?_, ?_, ?_⟩
  · exact r9.trans (by decide +kernel)
  · exact rax.trans (by decide +kernel)
  · exact rbp.trans (by decide +kernel)
  · exact congrArg Registers.rip (returned 1 30 second)
  · rw [resumed, Registers.ripJump]
    exact first

end Stack

end GameConsole
