import GameConsole.Proofs.Processor.Atomicity

/-! Two processors side by side. If they have the same registers and the same memory, and a trap
does the same to both, then so does every instruction. What has been reported may differ, and so may
the devices, as far as the traps do not tell. -/
namespace GameConsole

variable {δ α β : Type} {R : δ → δ → Prop} {S : List Signal → List Signal → Prop}

structure Guest.Related (R : δ → δ → Prop) (g h : Guest δ) : Prop where
  registers : g.registers = h.registers
  memory : g.memory = h.memory
  devices : R g.devices h.devices

namespace Guest.Related

variable {g h : Guest δ}

theorem notes (related : g.Related R h) (first second : Event) :
    (g.note first).Related R (h.note second) :=
  ⟨related.registers, related.memory, related.devices⟩

theorem jump (related : g.Related R h) (target : UInt64) :
    (g.jump target).Related R (h.jump target) :=
  ⟨congrArg (Registers.jump · target) related.registers, related.memory, related.devices⟩

theorem set (related : g.Related R h) (r : Register) (value : UInt64) :
    (g.set r value).Related R (h.set r value) :=
  ⟨congrArg (Registers.set · r value) related.registers, related.memory, related.devices⟩

end Guest.Related

/- Two ways to service a trap that do the same to related guests; `S` is what can be said of the
signals that they send. -/
def TrapsRelated (R : δ → δ → Prop) (S : List Signal → List Signal → Prop)
    (first second : Guest δ → Guest δ × List Signal) : Prop :=
  ∀ g h, g.Related R h → (first g).1.Related R (second h).1 ∧ S (first g).2 (second h).2

namespace Work

inductive EndsRelated (R : δ → δ → Prop) (T : α → α → Prop) :
    EStateM.Result MemoryFault (Guest δ) α → EStateM.Result MemoryFault (Guest δ) α → Prop where
  | ok {value other : α} {g h : Guest δ} (related : g.Related R h) (holds : T value other) :
      EndsRelated R T (.ok value g) (.ok other h)
  | error {e : MemoryFault} {g h : Guest δ} (related : g.Related R h) :
      EndsRelated R T (.error e g) (.error e h)

section Instructions
variable {g h : Guest δ} {handler other : Option (TrapHandler δ)} {control control' : Control}

theorem pushRelated (related : g.Related R h) (value : UInt64) :
    EndsRelated R (fun _ _ => True) ((push value).run g) ((push value).run h) := by
  rw [runPush, runPush, ← related.registers, ← related.memory]
  cases g.memory.writeU64 (g.registers.get .rsp - 8) value with
  | ok memory =>
    have stored : Guest.Related R { g with memory }
        { h with registers := g.registers, memory } := ⟨rfl, rfl, related.devices⟩
    exact .ok (stored.set .rsp (g.registers.get .rsp - 8)) trivial
  | error e => exact .error related

theorem popRelated (related : g.Related R h) :
    EndsRelated R Eq ((pop : Work δ UInt64).run g) ((pop : Work δ UInt64).run h) := by
  rw [runPop, runPop, ← related.registers, ← related.memory]
  cases g.memory.readU64 (g.registers.get .rsp) with
  | ok value => exact .ok (related.set _ _) rfl
  | error e => exact .error related

theorem bindRelated {T : α → α → Prop} {U : β → β → Prop} {first second : Work δ α}
    {rest later : α → Work δ β} (firsts : EndsRelated R T (first.run g) (second.run h))
    (rests : ∀ value other g h, g.Related R h → T value other →
      EndsRelated R U ((rest value).run g) ((later other).run h)) :
    EndsRelated R U ((first >>= rest).run g) ((second >>= later).run h) := by
  rw [EStateM.run_bind, EStateM.run_bind]
  generalize first.run g = x, second.run h = y at firsts
  cases firsts with
  | ok related holds => exact rests _ _ _ _ related holds
  | error related => exact .error related

theorem runSyscall (opcode : UInt8) (next : UInt64) (g : Guest δ) :
    (perform handler control opcode next .syscall).run g =
      .ok (((g.jump next).trap handler control).1.registers.rip,
        ((g.jump next).trap handler control).2) ((g.jump next).trap handler control).1 := by
  simp only [perform, EStateM.run_bind, EStateM.run_modify, EStateM.run_modifyGet, EStateM.run_get,
    EStateM.run_pure, Prod.fst_swap, Prod.snd_swap]

theorem performRelated (silent : S [] [])
    (traps : TrapsRelated R S (Guest.trap handler control) (Guest.trap other control'))
    (related : g.Related R h) (opcode : UInt8) (next : UInt64) (i : Instruction) :
    EndsRelated R (fun a b => a.1 = b.1 ∧ S a.2 b.2) ((perform handler control opcode next i).run g)
      ((perform other control' opcode next i).run h) := by
  cases i with
  | nop | halt | jump => exact .ok related ⟨rfl, silent⟩
  | move target value => exact .ok (related.set target value) ⟨rfl, silent⟩
  | skip form => exact .ok (related.notes _ _) ⟨rfl, silent⟩
  | ret =>
    exact bindRelated (popRelated related) fun _ _ _ _ related same => .ok related ⟨same, silent⟩
  | call target =>
    exact bindRelated (pushRelated related next) fun _ _ _ _ related _ => .ok related ⟨rfl, silent⟩
  | push source =>
    have run (handler : Option (TrapHandler δ)) (control : Control) (g : Guest δ) :
        (perform handler control opcode next (.push source)).run g =
          (push (g.registers.get source) >>= fun _ => pure (next, [])).run g := by
      rw [perform, EStateM.run_bind, EStateM.run_get]
    rw [run, run, ← related.registers]
    exact bindRelated (pushRelated related _) fun _ _ _ _ related _ => .ok related ⟨rfl, silent⟩
  | pop target =>
    refine bindRelated (popRelated related) fun value other _ _ related same => ?_
    subst same
    exact .ok (related.set target value) ⟨rfl, silent⟩
  | syscall =>
    obtain ⟨after, signals⟩ := traps _ _ (related.jump next)
    rw [runSyscall, runSyscall]
    exact .ok after ⟨congrArg Registers.rip after.registers, signals⟩

theorem carryOutRelated (silent : S [] [])
    (traps : TrapsRelated R S (Guest.trap handler control) (Guest.trap other control'))
    (related : g.Related R h) (opcode : UInt8) (next : UInt64) (i : Instruction) :
    EndsRelated R S ((carryOut handler control opcode next i).run g)
      ((carryOut other control' opcode next i).run h) := by
  refine bindRelated (performRelated silent traps related opcode next i) ?_
  rintro ⟨target, signals⟩ ⟨_, signals'⟩ g h related ⟨rfl, holds⟩
  exact .ok (related.jump target) holds

end Instructions

end Work

structure Core.Related (R : δ → δ → Prop) (c d : Core δ) : Prop where
  guest : c.toGuest.Related R d.toGuest
  retired : c.retired = d.retired
  lastOpcode : c.lastOpcode = d.lastOpcode
  lastFault : c.lastFault = d.lastFault

namespace Core.Related

variable {c d : Core δ}

theorem decoded (related : c.Related R d) (opcode : UInt8) :
    Core.Related R { c with lastOpcode := opcode } { d with lastOpcode := opcode } :=
  ⟨related.guest, related.retired, rfl, related.lastFault⟩

theorem replaced (related : c.Related R d) {g h : Guest δ} (after : g.Related R h) :
    Core.Related R { c with toGuest := g } { d with toGuest := h } :=
  ⟨after, related.retired, related.lastOpcode, related.lastFault⟩

theorem retire (related : c.Related R d) {g h : Guest δ} (after : g.Related R h) :
    (c.retire g).Related R (d.retire h) :=
  ⟨after, congrArg (· + 1) related.retired, related.lastOpcode, related.lastFault⟩

theorem notes (related : c.Related R d) (first second : Event) :
    (c.note first).Related R (d.note second) :=
  ⟨related.guest.notes _ _, related.retired, related.lastOpcode, related.lastFault⟩

theorem fault (related : c.Related R d) (e : MemoryFault) :
    (c.fault e).Related R (d.fault e) :=
  ⟨related.guest.notes _ _, related.retired, related.lastOpcode,
    by simp only [Core.fault, Core.note, related.guest.registers]⟩

end Core.Related

theorem executeRelated {handler other : Option (TrapHandler δ)} {control control' : Control}
    (silent : S [] [])
    (traps : TrapsRelated R S (Guest.trap handler control) (Guest.trap other control'))
    {c d : Core δ} (related : c.Related R d) :
    ∃ ending signals signals', (c.execute handler control).2 = (ending, signals) ∧
      (d.execute other control').2 = (ending, signals') ∧ S signals signals' ∧
      (c.execute handler control).1.Related R (d.execute other control').1 := by
  obtain ⟨opening, found⟩ := openingFound c.memory c.registers.rip
  have begun := related.decoded opening.opcode
  simp only [Core.execute, ← related.guest.memory, ← related.guest.registers, found]
  cases Instruction.readOperands c.memory opening with
  | error e => exact ⟨.faulted, [], [], rfl, rfl, silent, begun.fault e⟩
  | ok read =>
    have ends := Work.carryOutRelated silent traps related.guest opening.opcode read.2 read.1
    dsimp only
    generalize (Work.carryOut handler control opening.opcode read.2 read.1).run c.toGuest = x,
      (Work.carryOut other control' opening.opcode read.2 read.1).run d.toGuest = y at ends
    cases ends with
    | @error e _ _ after =>
      exact ⟨.faulted, [], [], rfl, rfl, silent, (begun.replaced after).fault e⟩
    | @ok signals signals' _ _ after holds =>
      dsimp only
      split
      · exact ⟨.halted, signals, signals', rfl, rfl, holds, (begun.retire after).notes _ _⟩
      · exact ⟨.continued, signals, signals', rfl, rfl, holds, begun.retire after⟩

theorem Machine.stepRelated {handler other : Option (TrapHandler δ)}
    (traps : ∀ control, TrapsRelated R Eq (Guest.trap handler control) (Guest.trap other control))
    {m n : Machine δ} (related : m.core.Related R n.core) (same : m.control = n.control) :
    (m.step handler).2 = (n.step other).2 ∧
      (m.step handler).1.control = (n.step other).1.control ∧
      (m.step handler).1.core.Related R (n.step other).1.core := by
  have mode : m.mode = n.mode := congrArg Control.mode same
  cases final : m.mode.isFinal with
  | true =>
    rw [stepFinal final, stepFinal (mode ▸ final)]
    exact ⟨rfl, same, related⟩
  | false =>
    obtain ⟨ending, signals, _, first, second, rfl, after⟩ :=
      executeRelated rfl (traps (m.control.enter .running)) related
    rw [stepActive final, stepActive (mode ▸ final), ← same]
    generalize m.core.execute handler (m.control.enter .running) = x,
      n.core.execute other (m.control.enter .running) = y at first second after
    obtain ⟨core, _, _⟩ := x
    obtain ⟨core', _, _⟩ := y
    cases first
    cases second
    cases ending <;> exact ⟨rfl, rfl, after⟩

end GameConsole
