import GameConsole.Proofs.Processor.Reports

/-! A fault repeats itself: a core that an instruction has faulted on faults on it again, whoever
executes it, and is left as it was. -/
namespace GameConsole

variable {δ : Type} {handler : Option (TrapHandler δ)} {control : Control} {c d e : Core δ}

theorem Core.Agrees.refl (c : Core δ) : c.Agrees c := ⟨⟨rfl, rfl, rfl⟩, rfl, rfl, rfl⟩

theorem Core.Agrees.symm (agrees : c.Agrees d) : d.Agrees c :=
  ⟨⟨agrees.guest.registers.symm, agrees.guest.memory.symm, agrees.guest.devices.symm⟩,
    agrees.retired.symm, agrees.lastOpcode.symm, agrees.lastFault.symm⟩

theorem Core.Agrees.trans (first : c.Agrees d) (second : d.Agrees e) : c.Agrees e :=
  ⟨⟨first.guest.registers.trans second.guest.registers,
      first.guest.memory.trans second.guest.memory,
      first.guest.devices.trans second.guest.devices⟩,
    first.retired.trans second.retired, first.lastOpcode.trans second.lastOpcode,
    first.lastFault.trans second.lastFault⟩

theorem Core.Agrees.note (agrees : c.Agrees d) (event : Event) : (c.note event).Agrees d :=
  ⟨⟨agrees.guest.registers, agrees.guest.memory, agrees.guest.devices⟩, agrees.retired,
    agrees.lastOpcode, agrees.lastFault⟩

def Core.Spent (c : Core δ) : Prop :=
  ∀ handler control, ∃ d, c.execute handler control = (d, .faulted, []) ∧ d.Agrees c

theorem executeFaults (faulted : (c.execute handler control).2.1 = .faulted) :
    ∃ opening fault, Instruction.Opening.read c.memory c.registers.rip = .ok opening ∧
      ∀ other elsewhere,
        (Work.instruct other elsewhere).run c.toGuest = .error fault c.toGuest := by
  obtain ⟨opening, found⟩ := openingFound c.memory c.registers.rip
  cases worked : (Work.instruct handler control).run c.toGuest with
  | ok result g =>
    obtain ⟨journal, done⟩ := executeDone found worked
    rw [done] at faulted
    dsimp only at faulted
    split at faulted <;> cases faulted
  | error fault g =>
    obtain rfl : g = c.toGuest := Work.instructAtomic _ _ _ worked
    exact ⟨opening, fault, found, fun _ _ => Work.instructBroken worked⟩

theorem Core.Spent.ofAgrees (spent : c.Spent) (agrees : d.Agrees c) : d.Spent := by
  intro handler control
  have silent : TrapsRelated Eq (fun _ _ => True) (Guest.trap none control)
      (Guest.trap (none : Option (TrapHandler δ)) control) :=
    fun _ _ related => ⟨related.notes _ _, trivial⟩
  obtain ⟨after, executed, same⟩ := spent none control
  obtain ⟨ending, _, _, first, second, -, related⟩ :=
    executeRelated trivial silent (agrees.related agrees.guest.devices)
  rw [executed] at second related
  obtain rfl : Ending.faulted = ending := congrArg Prod.fst second
  obtain ⟨opening, fault, found, broken⟩ := executeFaults (congrArg Prod.fst first)
  rw [executeBroken found (broken none control)] at related
  exact ⟨_, executeBroken found (broken handler control),
    ((related.agrees related.guest.devices).trans same).trans agrees.symm⟩

theorem executeSpent (faulted : (c.execute handler control).2.1 = .faulted) :
    (c.execute handler control).1.Spent := by
  obtain ⟨opening, fault, found, broken⟩ := executeFaults faulted
  let marked : Core δ := { c with
    lastOpcode := opening.opcode, lastFault := some ⟨c.registers.rip, fault⟩ }
  have spent : marked.Spent := fun other elsewhere =>
    ⟨_, executeBroken found (broken other elsewhere), (Core.Agrees.refl marked).note _⟩
  rw [executeBroken found (broken handler control)]
  exact spent.ofAgrees ((Core.Agrees.refl marked).note _)

end GameConsole
