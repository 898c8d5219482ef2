import GameConsole.Proofs.Processor.Related

/-! Execution does not look at what has been reported, nor at the state of control, unless the
handler of traps does. -/
namespace GameConsole

variable {δ : Type}

structure Guest.Agrees (g h : Guest δ) : Prop where
  registers : g.registers = h.registers
  memory : g.memory = h.memory
  devices : g.devices = h.devices

/- A handler that neither looks at reports or control nor sends signals, as long as the devices are
fit for it, and they stay so. -/
def TrapHandler.Discreet (fit : δ → Prop) (handle : TrapHandler δ) : Prop :=
  ∀ control other g h, g.Agrees h → fit g.devices →
    (handle control g).1.Agrees (handle other h).1 ∧ fit (handle control g).1.devices ∧
      (handle control g).2 = [] ∧ (handle other h).2 = []

structure Core.Agrees (c d : Core δ) : Prop where
  guest : c.toGuest.Agrees d.toGuest
  retired : c.retired = d.retired
  lastOpcode : c.lastOpcode = d.lastOpcode
  lastFault : c.lastFault = d.lastFault

theorem Core.Agrees.related {R : δ → δ → Prop} {c d : Core δ} (agrees : c.Agrees d)
    (same : R c.devices d.devices) : c.Related R d :=
  ⟨⟨agrees.guest.registers, agrees.guest.memory, same⟩, agrees.retired, agrees.lastOpcode,
    agrees.lastFault⟩

theorem Core.Related.agrees {R : δ → δ → Prop} {c d : Core δ} (related : c.Related R d)
    (same : c.devices = d.devices) : c.Agrees d :=
  ⟨⟨related.guest.registers, related.guest.memory, same⟩, related.retired, related.lastOpcode,
    related.lastFault⟩

theorem executeSame {fit : δ → Prop} {handle : TrapHandler δ}
    (discreet : TrapHandler.Discreet fit handle) {c d : Core δ} (agrees : c.Agrees d)
    (fits : fit c.devices) (control other : Control) :
    ∃ ending, (c.execute (some handle) control).2 = (ending, []) ∧
      (d.execute (some handle) other).2 = (ending, []) ∧
      (c.execute (some handle) control).1.Agrees (d.execute (some handle) other).1 ∧
      fit (c.execute (some handle) control).1.devices := by
  have traps : TrapsRelated (fun d e => d = e ∧ fit d)
      (fun first second => first = [] ∧ second = []) (Guest.trap (some handle) control)
      (Guest.trap (some handle) other) := by
    intro g h related
    obtain ⟨same, fits⟩ := related.devices
    obtain ⟨after, kept, quiet, silent⟩ :=
      discreet control other g h ⟨related.registers, related.memory, same⟩ fits
    exact ⟨⟨after.registers, after.memory, after.devices, kept⟩, quiet, silent⟩
  obtain ⟨ending, _, _, first, second, ⟨rfl, rfl⟩, after⟩ := executeRelated ⟨rfl, rfl⟩ traps
    (agrees.related ⟨agrees.guest.devices, fits⟩)
  obtain ⟨same, kept⟩ := after.guest.devices
  exact ⟨ending, first, second, after.agrees same, kept⟩

theorem executeStopped {handler : Option (TrapHandler δ)} {control : Control} {c : Core δ}
    (stops : (c.execute handler control).2.1 ≠ .continued) :
    (c.execute handler control).1.devices = c.devices := by
  obtain ⟨opening, found⟩ := openingFound c.memory c.registers.rip
  simp only [Core.execute, found] at stops ⊢
  cases operands : Instruction.readOperands c.memory opening with
  | error e => rfl
  | ok read =>
    obtain ⟨instruction, next⟩ := read
    rw [operands] at stops
    dsimp only at stops ⊢
    cases carried :
        (Work.carryOut handler control opening.opcode next instruction).run c.toGuest with
    | error e g =>
      obtain rfl := Work.carryOutAtomic _ _ _ carried
      rfl
    | ok signals g =>
      rw [carried] at stops
      dsimp only at stops ⊢
      by_cases halts : instruction = .halt
      · subst halts
        cases carried
        rfl
      · rw [if_neg halts] at stops
        exact absurd rfl stops

end GameConsole
