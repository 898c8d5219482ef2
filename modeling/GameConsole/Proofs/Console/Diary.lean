import GameConsole.Proofs.Console.Readiness
import GameConsole.Proofs.Processor.Atomicity

/-! What the thread publishes, against the register files that its program has gone through.
Snapshot and counter are published one after the other when an instruction has been carried out; a
phase says which of the two still waits for the last one. -/
namespace GameConsole

/- Whether the last instruction is in the snapshot, and whether it is counted. -/
def Phase.unshown : Phase → Nat
  | .settle .halted | .deliver _ | .showRegisters true => 1
  | _ => 0

def Phase.uncounted : Phase → Nat
  | .settle .halted | .deliver _ | .showRegisters true | .showCount true => 1
  | _ => 0

namespace Console

def completes (c : Console) : Option Registers :=
  match c.worker with
  | some (.busy job) =>
    if job.phase = .execute ∧ (c.executed job).2.1 ≠ .faulted then
      some (c.executed job).1.registers
    else none
  | _ => none

/- A console with the register files that its thread has gone through: those that it was started
with, and those after each instruction that it has completed. Beside them stand the number of
instructions that had been executed before, and whether a program was loaded then. -/
structure Diary where
  console : Console
  files : List Registers
  before : Nat
  loaded : Bool

namespace Diary

def thread (w : Diary) : Diary :=
  { w with
    console := w.console.advance.getD w.console
    files := w.files ++ w.console.completes.toList }

def call (w : Diary) (after : Console) : Diary :=
  match w.console.worker, after.worker with
  | none, some (.busy job) =>
    ⟨after, [job.core.registers], job.core.retired, w.console.programLoaded⟩
  | _, _ => { w with console := after }

def completed (w : Diary) : Nat := w.files.length - 1

end Diary

def lent (c : Console) : Option (Core Unit) :=
  match c.worker with
  | some (.busy job) => some job.core
  | some (.finished core) => some core
  | _ => none

def unshown (c : Console) : Nat :=
  match c.worker with
  | some (.busy job) => job.phase.unshown
  | _ => 0

def uncounted (c : Console) : Nat :=
  match c.worker with
  | some (.busy job) => job.phase.uncounted
  | _ => 0

def Diary.shown (w : Diary) : Nat := w.completed - w.console.unshown

namespace Diary

structure Follows (w : Diary) : Prop where
  fresh : w.loaded = true → w.before = 0
  behind : w.console.uncounted < w.files.length
  shown : w.files[w.shown]? = some w.console.snapshot
  counted : w.console.instructions + w.console.uncounted = w.before + w.completed
  lent : ∀ core, w.console.lent = some core →
    w.files[w.completed]? = some core.registers ∧ core.retired = w.before + w.completed

end Diary

section Thread
variable {c d : Console} {job : Job}

theorem unshownBusy (mine : c.worker = some (.busy job)) : c.unshown = job.phase.unshown := by
  unfold unshown
  rw [mine]

theorem uncountedBusy (mine : c.worker = some (.busy job)) :
    c.uncounted = job.phase.uncounted := by
  unfold uncounted
  rw [mine]

theorem shownSooner (c : Console) : c.unshown ≤ c.uncounted ∧ c.uncounted ≤ 1 := by
  have phases (phase : Phase) : phase.unshown ≤ phase.uncounted ∧ phase.uncounted ≤ 1 := by
    cases phase with
    | settle mode => cases mode <;> exact ⟨by decide, by decide⟩
    | showRegisters ran | showCount ran => cases ran <;> exact ⟨by decide, by decide⟩
    | deliver pending => exact ⟨Nat.le_refl 1, Nat.le_refl 1⟩
    | _ => exact ⟨Nat.le_refl 0, Nat.zero_le 1⟩
  unfold unshown uncounted
  split
  case h_1 job mine => exact phases job.phase
  case h_2 => exact ⟨Nat.le_refl 0, Nat.zero_le 1⟩

structure Publishes (c : Console) (job : Job) (d : Console) : Prop where
  snapshot : d.snapshot = c.snapshot ∧ d.unshown = c.unshown ∨
    d.snapshot = job.core.registers ∧ d.unshown = 0
  instructions : d.instructions = c.instructions ∧ d.uncounted = c.uncounted ∨
    d.instructions = job.core.retired ∧ d.uncounted = 0
  lent : d.lent = none ∨ ∃ core, d.lent = some core ∧
    core.registers = job.core.registers ∧ core.retired = job.core.retired

theorem advancePublishes (mine : c.worker = some (.busy job)) (apart : job.phase ≠ .execute) :
    Publishes c job (c.advanceJob job) := by
  have here := unshownBusy mine
  have counted := uncountedBusy mine
  obtain ⟨core, left, phase⟩ := job
  have still {d : Console} {left' : Nat} {phase' : Phase} (snapshot : d.snapshot = c.snapshot)
      (instructions : d.instructions = c.instructions)
      (shows : phase'.unshown = phase.unshown) (counts : phase'.uncounted = phase.uncounted) :
      Publishes c ⟨core, left, phase⟩ (d.busy ⟨core, left', phase'⟩) :=
    ⟨.inl ⟨snapshot, shows.trans here.symm⟩, .inl ⟨instructions, counts.trans counted.symm⟩,
      .inr ⟨core, rfl, rfl, rfl⟩⟩
  cases phase with
  | execute => exact absurd rfl apart
  | askStop | askState | askMode | judge | goOn | confirmMode | confirmStop =>
    dsimp only [advanceJob]
    split <;> exact still rfl rfl rfl rfl
  | hold | release | begin | unload => exact still rfl rfl rfl rfl
  | settle mode =>
    refine still rfl rfl ?_ ?_ <;> cases mode <;> rfl
  | deliver pending => cases pending <;> exact still rfl rfl rfl rfl
  | showRegisters ran =>
    refine ⟨.inr ⟨rfl, rfl⟩, .inl ⟨rfl, ?_⟩, .inr ⟨core, rfl, rfl, rfl⟩⟩
    rw [counted]
    cases ran <;> rfl
  | showCount ran =>
    refine ⟨.inl ⟨rfl, ?_⟩, .inr ⟨rfl, ?_⟩, .inr ⟨core, rfl, rfl, rfl⟩⟩
    · rw [here]
      cases ran <;> rfl
    · cases ran <;> rfl
  | leave exit => exact ⟨.inr ⟨rfl, rfl⟩, .inl ⟨rfl, counted.symm⟩, .inr ⟨core, rfl, rfl, rfl⟩⟩
  | leaveCount exit =>
    obtain _ | _ | (_ | _) | _ := exit
    all_goals exact ⟨.inl ⟨rfl, here.symm⟩, .inr ⟨rfl, rfl⟩, .inr ⟨core, rfl, rfl, rfl⟩⟩
  | conclude after =>
    dsimp only [advanceJob]
    split
    · exact still rfl rfl rfl rfl
    · exact ⟨.inl ⟨rfl, here.symm⟩, .inl ⟨rfl, counted.symm⟩, .inr ⟨core, rfl, rfl, rfl⟩⟩
  | announce before after =>
    dsimp only [advanceJob]
    split
    · exact ⟨.inl ⟨rfl, here.symm⟩, .inl ⟨rfl, counted.symm⟩, .inl rfl⟩
    · exact ⟨.inl ⟨rfl, here.symm⟩, .inl ⟨rfl, counted.symm⟩, .inr ⟨core, rfl, rfl, rfl⟩⟩

theorem completesApart (mine : c.worker = some (.busy job)) (apart : job.phase ≠ .execute) :
    c.completes = none := by
  unfold completes
  rw [mine]
  exact if_neg fun both => apart both.1

theorem performWrites (c : Console) (job : Job) :
    (c.perform job).snapshot = c.snapshot ∧ (c.perform job).instructions = c.instructions ∧
      (c.perform job).lent = some (c.executed job).1.detach ∧
      ((c.executed job).2.1 = .faulted →
        (c.perform job).unshown = 0 ∧ (c.perform job).uncounted = 0) ∧
      ((c.executed job).2.1 ≠ .faulted →
        (c.perform job).unshown = 1 ∧ (c.perform job).uncounted = 1) := by
  rcases ran : c.executed job with ⟨core, ending, signals⟩
  have all : (job.core.attach c.devices c.journal).execute (some Syscall.Hosted.handler) c.control =
      (core, ending, signals) := ran
  unfold perform
  rw [all]
  cases ending with
  | faulted => exact ⟨rfl, rfl, rfl, fun _ => ⟨rfl, rfl⟩, fun other => absurd rfl other⟩
  | _ => exact ⟨rfl, rfl, rfl, fun faulted => (by cases faulted), fun _ => ⟨rfl, rfl⟩⟩

end Thread

namespace Diary

structure Goes (w v : Diary) : Prop extends Follows v where
  onward : w.shown ≤ v.shown
  counts : w.console.instructions ≤ v.console.instructions

section Thread
variable {w : Diary} {d : Console} {job : Job}

theorem publishesGoes (h : Follows w) (mine : w.console.worker = some (.busy job))
    (publishes : Publishes w.console job d) : Goes w { w with console := d } := by
  obtain ⟨latest, retired⟩ := h.lent job.core (by unfold lent; rw [mine])
  have behind := h.behind
  have counted := h.counted
  have shows : d.unshown ≤ w.console.unshown ∧
      w.files[w.completed - d.unshown]? = some d.snapshot := by
    obtain ⟨same, stays⟩ | ⟨same, all⟩ := publishes.snapshot
    · rw [same, stays]
      exact ⟨Nat.le_refl _, h.shown⟩
    · rw [same, all]
      exact ⟨Nat.zero_le _, latest⟩
  have counts : d.uncounted ≤ w.console.uncounted ∧
      d.instructions + d.uncounted = w.before + w.completed := by
    obtain ⟨same, stays⟩ | ⟨same, all⟩ := publishes.instructions
    · rw [same, stays]
      exact ⟨Nat.le_refl _, counted⟩
    · rw [same, all]
      exact ⟨Nat.zero_le _, retired⟩
  refine ⟨⟨h.fresh, Nat.lt_of_le_of_lt counts.1 behind, shows.2, counts.2, fun core same => ?_⟩,
    ?_, ?_⟩
  · obtain none | ⟨other, mine, registers, count⟩ := publishes.lent
    · cases none.symm.trans same
    · cases mine.symm.trans same
      exact ⟨latest.trans (congrArg some registers.symm), count.trans retired⟩
  · exact Nat.sub_le_sub_left shows.1 _
  · dsimp only
    omega

theorem completesGoes (h : Follows w) {registers : Registers}
    (nothing : w.console.unshown = 0 ∧ w.console.uncounted = 0)
    (snapshot : d.snapshot = w.console.snapshot)
    (instructions : d.instructions = w.console.instructions)
    (waits : d.unshown = 1 ∧ d.uncounted = 1)
    (lent : ∀ core, d.lent = some core →
      core.registers = registers ∧ core.retired = w.before + w.completed + 1) :
    Goes w { w with console := d, files := w.files ++ [registers] } := by
  have behind := h.behind
  have shown := h.shown
  have counted := h.counted
  rw [Diary.shown, nothing.1, Nat.sub_zero] at shown
  rw [nothing.2] at behind counted
  have length : w.files.length = w.completed + 1 := (Nat.sub_add_cancel behind).symm
  have further : ({ w with console := d, files := w.files ++ [registers] } : Diary).completed =
      w.completed + 1 := by
    change (w.files ++ [registers]).length - 1 = w.completed + 1
    rw [List.length_append, length]
    rfl
  have last : ({ w with console := d, files := w.files ++ [registers] } : Diary).shown =
      w.completed := by
    rw [Diary.shown, further, waits.1]
    rfl
  refine ⟨⟨h.fresh, ?_, ?_, ?_, fun core mine => ?_⟩, ?_, Nat.le_of_eq instructions.symm⟩
  · change d.uncounted < (w.files ++ [registers]).length
    rw [waits.2, List.length_append, length]
    exact Nat.lt_add_of_pos_left (Nat.succ_pos _)
  · rw [last, snapshot, List.getElem?_append_left (by omega)]
    exact shown
  · rw [further, instructions, waits.2, ← Nat.add_assoc]
    exact congrArg (· + 1) counted
  · obtain ⟨same, retired⟩ := lent core mine
    rw [further, same, retired, ← length, List.getElem?_concat_length, length]
    exact ⟨rfl, Nat.add_assoc _ _ _⟩
  · rw [last]
    exact Nat.sub_le _ _

theorem performGoes (h : Follows w) (mine : w.console.worker = some (.busy job))
    (executes : job.phase = .execute) :
    Goes w { w with
      console := w.console.perform job
      files := w.files ++ w.console.completes.toList } := by
  obtain ⟨snapshot, instructions, lent, faulted, completed⟩ := performWrites w.console job
  obtain ⟨keeps, counts⟩ := executeRetires (some Syscall.Hosted.handler) w.console.control
    (job.core.attach w.console.devices w.console.journal)
  have nothing : w.console.unshown = 0 ∧ w.console.uncounted = 0 := by
    rw [unshownBusy mine, uncountedBusy mine, executes]
    exact ⟨rfl, rfl⟩
  have written : w.console.completes =
      if (w.console.executed job).2.1 ≠ .faulted then some (w.console.executed job).1.registers
      else none := by
    simp only [completes, mine, executes, true_and]
  by_cases broken : (w.console.executed job).2.1 = .faulted
  · obtain ⟨unshown, uncounted⟩ := faulted broken
    obtain ⟨registers, same⟩ := keeps broken
    rw [written, if_neg (not_not_intro broken), Option.toList_none, List.append_nil]
    exact publishesGoes h mine ⟨.inl ⟨snapshot, unshown.trans nothing.1.symm⟩,
      .inl ⟨instructions, uncounted.trans nothing.2.symm⟩, .inr ⟨_, lent, registers, same⟩⟩
  · obtain ⟨-, retired⟩ := h.lent job.core (by unfold Console.lent; rw [mine])
    rw [written, if_pos broken]
    refine completesGoes h nothing snapshot instructions (completed broken) fun core mine => ?_
    cases lent.symm.trans mine
    exact ⟨rfl, (counts broken).trans (congrArg (· + 1) retired)⟩

theorem threadIdle (idle : w.console.advance = none) : w.thread = w := by
  have nothing : w.console.completes = none := by
    unfold completes
    split
    case h_1 job mine =>
      rw [advance, mine] at idle
      cases idle
    case h_2 => rfl
  rw [Diary.thread, idle, nothing]
  exact congrArg (Diary.mk _ · _ _) (List.append_nil _)

theorem threadGoes (h : Follows w) : Goes w w.thread := by
  cases goes : w.console.advance with
  | none =>
    rw [threadIdle goes]
    exact ⟨h, Nat.le_refl _, Nat.le_refl _⟩
  | some after =>
    obtain ⟨job, mine, rfl⟩ := advanceBusy goes
    rw [Diary.thread, goes, Option.getD_some]
    by_cases executes : job.phase = .execute
    · have performs : w.console.advanceJob job = w.console.perform job := by
        unfold advanceJob
        rw [executes]
      rw [performs]
      exact performGoes h mine executes
    · rw [completesApart mine executes, Option.toList_none, List.append_nil]
      exact publishesGoes h mine (advancePublishes mine executes)

end Thread

end Diary

end Console

end GameConsole
