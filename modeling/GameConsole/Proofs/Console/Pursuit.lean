import GameConsole.Proofs.Console.Solo

/-! The execution thread stays on the course of the program that it executes, whatever happens to
the state of the console between two of its steps, as long as nobody ends the run. -/
namespace GameConsole

namespace Control

theorem exchangeKeeps {before after : Mode} (going : before.isFinal = false)
    (goesOn : after.isFinal = false) (c : Control) :
    ((c.exchange before after).1.mode = c.mode ∨
        c.mode.isFinal = false ∧ (c.exchange before after).1.mode.isFinal = false) ∧
      (c.exchange before after).1.stopRequested = c.stopRequested := by
  unfold exchange
  split
  case isTrue same => exact ⟨.inr ⟨same ▸ going, goesOn⟩, rfl⟩
  case isFalse => exact ⟨.inl rfl, rfl⟩

end Control

namespace Screening
open Console
open Graphics (Delivery RenderQueue)
open Syscall (Hosted)

/- What may happen beside the program: it does not go on, it is not ended, and nothing that it has
rendered is lost. -/
structure Gentle (v w : Screening) : Prop where
  devices : w.console.devices = v.console.devices
  commands : w.commands = v.commands
  mode : w.console.control.mode = v.console.control.mode ∨
    v.console.control.mode.isFinal = false ∧ w.console.control.mode.isFinal = false
  asked : w.console.control.stopRequested = v.console.control.stopRequested
  state : w.console.state = v.console.state ∨ v.console.active ∧ w.console.active

structure Mild (v w : Screening) : Prop extends Gentle v w where
  worker : w.console.worker = v.console.worker
  snapshot : w.console.snapshot = v.console.snapshot
  instructions : w.console.instructions = v.console.instructions
  loaded : w.console.programLoaded = v.console.programLoaded

section Gentle
variable {begun s : Solo} {v w : Screening} {core : Core Unit} {waiting : List Delivery}

theorem Gentle.active (gentle : Gentle v w) (active : v.console.active) : w.console.active := by
  obtain same | both := gentle.state
  · rw [Console.active, same]
    exact active
  · exact both.2

theorem Gentle.going (gentle : Gentle v w) (going : v.console.control.mode.isFinal = false) :
    w.console.control.mode.isFinal = false := by
  obtain same | both := gentle.mode
  · rw [same]
    exact going
  · exact both.2

theorem Tracks.moved (tracks : Tracks v core waiting s)
    (devices : w.console.devices = v.console.devices) (commands : w.commands = v.commands) :
    Tracks w core waiting s where
  detached := tracks.detached
  devices := devices.trans tracks.devices
  fit := devices ▸ tracks.fit
  commands := by rw [commands, tracks.commands]

theorem Over.moved (gone : Over begun v core s)
    (devices : w.console.devices = v.console.devices) (commands : w.commands = v.commands) :
    Over begun w core s :=
  ⟨gone.toTracks.moved devices commands, gone.ends, gone.final⟩

theorem Gentle.underway (gentle : Gentle v w) (underway : Underway begun v core waiting s) :
    Underway begun w core waiting s where
  toTracks := underway.toTracks.moved gentle.devices gentle.commands
  leads := underway.leads
  going := underway.going
  mode := gentle.going underway.mode
  asked := gentle.asked.trans underway.asked
  active := gentle.active underway.active

theorem Gentle.closing (gentle : Gentle v w) (closing : Closing begun v core s) :
    Closing begun w core s :=
  ⟨closing.toOver.moved gentle.devices gentle.commands, gentle.active closing.active⟩

end Gentle

section Mild
variable {begun s : Solo} {v w : Screening} {core : Core Unit} {job : Job}

theorem Mild.published (mild : Mild v w) (published : Published v core) : Published w core :=
  ⟨mild.snapshot.trans published.1, mild.instructions.trans published.2⟩

theorem Mild.verdict (mild : Mild v w) {after : Lifecycle} {mode : Mode}
    (verdict : Verdict v.console after mode) : Verdict w.console after mode := by
  obtain ⟨halted, idle, unloaded⟩ | faulted := verdict
  · exact .inl ⟨halted, idle, mild.loaded.trans unloaded⟩
  · exact .inr faulted

theorem Mild.left (mild : Mild v w) (left : Left begun v core s) : Left begun w core s := by
  refine ⟨left.toOver.moved mild.devices mild.commands, mild.published left.published, ?_⟩
  obtain same | ⟨active, -⟩ := mild.state
  · rw [same]
    exact mild.verdict left.verdict
  · obtain ⟨-, idle, -⟩ | ⟨-, error⟩ := left.verdict
    · obtain same | same := active <;> cases idle.symm.trans same
    · obtain same | same := active <;> cases error.symm.trans same

theorem Mild.judged (mild : Mild v w) (closing : Closing begun v core s)
    (mode : v.console.control.mode = s.machine.mode) :
    Closing begun w core s ∧ w.console.control.mode = s.machine.mode := by
  refine ⟨mild.closing closing, ?_⟩
  obtain same | ⟨going, -⟩ := mild.mode
  · exact same.trans mode
  · cases closing.final.symm.trans (mode ▸ going)

theorem Mild.follows (mild : Mild v w) (follows : Follows begun v job s) :
    Follows begun w job s := by
  obtain ⟨core, left, phase⟩ := job
  cases phase with
  | settle mode => exact ⟨mild.closing follows.1, follows.2⟩
  | showRegisters | showCount | goOn | judge =>
    obtain underway | ⟨closing, mode⟩ := follows
    · exact .inl (mild.underway underway)
    · exact .inr (mild.judged closing mode)
  | leave exit => exact ⟨mild.closing follows.1, follows.2⟩
  | leaveCount exit =>
    obtain ⟨closing, departs, shown⟩ := follows
    exact ⟨mild.closing closing, departs, mild.snapshot.trans shown⟩
  | unload =>
    obtain ⟨closing, published, halted⟩ := follows
    exact ⟨mild.closing closing, mild.published published, halted⟩
  | conclude after =>
    obtain ⟨closing, published, verdict⟩ := follows
    exact ⟨mild.closing closing, mild.published published, mild.verdict verdict⟩
  | announce => exact mild.left follows
  | _ => exact mild.underway follows

theorem Mild.faithful (mild : Mild v w) (faithful : Faithful begun v) : Faithful begun w := by
  obtain ⟨s, stands⟩ := faithful
  refine ⟨s, ?_⟩
  rw [mild.worker]
  cases mine : v.console.worker with
  | none =>
    rw [mine] at stands
    exact stands
  | some worker =>
    rw [mine] at stands
    cases worker with
    | busy job => exact mild.follows stands
    | finished core => exact mild.left stands
    | died => exact stands.imp fun _ => mild.left

end Mild

def put (w : Screening) (c : Console) : Screening := { w with console := c }

section Executing
variable {begun s : Solo} {w : Screening} {job : Job} {core other : Core (Hosted Syscall.Devices)}

theorem emptiedClear {devices : Hosted Syscall.Devices}
    (clear : devices.devices.graphics.outbox = #[]) : Solo.emptied devices = devices := by
  unfold Solo.emptied Syscall.GraphicsDevice.takeOutbox
  rw [← clear]

theorem Tracks.agrees (tracks : Tracks w job.core [] s) :
    (job.core.attach w.console.devices w.console.journal).Agrees s.machine.core := by
  have detached := tracks.detached
  simp only [Core.detach, Core.attach, Core.mk.injEq, Guest.mk.injEq] at detached
  obtain ⟨⟨registers, memory, -, -⟩, retired, opcode, fault⟩ := detached
  exact ⟨⟨registers, memory, tracks.devices⟩, retired, opcode, fault⟩

theorem continuedFollows (underway : Underway begun w job.core [] s)
    (after : core.Agrees other) (deaf : core.devices.dispatcher.Deaf)
    (executed : s.machine.core.execute (some Hosted.handler) (s.machine.control.enter .running) =
      (other, .continued, [])) :
    Faithful begun (w.put (w.console.ran job core .continued)) := by
  have stepped := Solo.stepContinued underway.going executed
  have goesOn : s.step.2 ≠ 0 := by rw [stepped]; exact Nat.one_ne_zero
  have leads := underway.leads.step goesOn
  rw [stepped] at leads
  refine ⟨s.step.1, ?_⟩
  rw [stepped]
  refine ⟨⟨after.detach, ?_, ⟨deaf, rfl⟩, ?_⟩, leads, rfl, underway.mode, underway.asked,
    underway.active⟩
  · exact congrArg Solo.emptied after.guest.devices
  · have commands := underway.commands
    rw [RenderQueue.deliverAllPending, ← commands, ← after.guest.devices, List.map_nil,
      List.append_nil]
    rfl

theorem stoppedFollows (underway : Underway begun w job.core [] s)
    (after : core.Agrees other) (fit : Fit core.devices) {ending : Ending} {mode : Mode}
    (executed : s.machine.core.execute (some Hosted.handler) (s.machine.control.enter .running) =
      (other, ending, []))
    (stops : ending = .halted ∧ mode = .halted ∨ ending = .faulted ∧ mode = .faulted) :
    Faithful begun (w.put (w.console.ran job core ending)) := by
  have stepped := Solo.stepStopped underway.going executed stops
  have ends : begun.Ends s.step.1 := underway.leads _ (.last (by rw [stepped]))
  have clear : other.devices.devices.graphics.outbox = #[] := after.guest.devices ▸ fit.clear
  refine ⟨s.step.1, ?_⟩
  rw [stepped, clear, emptiedClear clear] at ends ⊢
  have commands := underway.commands
  obtain ⟨rfl, rfl⟩ | ⟨rfl, rfl⟩ := stops
  all_goals
    exact ⟨⟨⟨⟨after.detach, after.guest.devices, fit, commands⟩, ends, rfl⟩, underway.active⟩, rfl⟩

theorem performFollows (underway : Underway begun w job.core [] s) :
    Faithful begun (w.put (w.console.perform job)) := by
  obtain ⟨ending, silent, silent', after, -, deaf⟩ := executeSame (Hosted.handlerDiscreet _)
    underway.agrees ⟨rfl, underway.fit.deaf⟩ w.console.control
    (s.machine.control.enter .running)
  have executed : s.machine.core.execute (some Hosted.handler) (s.machine.control.enter .running) =
      (_, ending, []) := Prod.ext rfl silent'
  rw [performRan silent]
  cases ending with
  | continued => exact continuedFollows underway after deaf executed
  | halted =>
    have fit := executedStopped underway.fit silent (by simp)
    exact stoppedFollows underway after fit executed (.inl ⟨rfl, rfl⟩)
  | faulted =>
    have fit := executedStopped underway.fit silent (by simp)
    exact stoppedFollows underway after fit executed (.inr ⟨rfl, rfl⟩)

end Executing

section Phases
variable {begun s : Solo} {w : Screening} {c : Console} {core : Core Unit} {job : Job}
  {left : Nat}

theorem gentlePut (devices : c.devices = w.console.devices) (queue : c.queue = w.console.queue)
    (control : c.control = w.console.control) (state : c.state = w.console.state) :
    Gentle w (w.put c) where
  devices := devices
  commands := congrArg (fun q : RenderQueue => w.taken ++ q.pending.toList) queue
  mode := .inl (congrArg Control.mode control)
  asked := congrArg Control.stopRequested control
  state := .inl state

theorem gentleExchange {before after : Mode} (going : before.isFinal = false)
    (goesOn : after.isFinal = false) (job : Job) :
    Gentle w (w.put (Console.busy
      { w.console with control := (w.console.control.exchange before after).1 } job)) :=
  ⟨rfl, rfl, (Control.exchangeKeeps going goesOn _).1, (Control.exchangeKeeps going goesOn _).2,
    .inl rfl⟩

theorem approachFollows (underway : Underway begun w job.core [] s)
    (approach : job.phase ∈ [.askStop, .askState, .hold, .release, .askMode, .begin, .confirmMode,
      .confirmStop]) : Faithful begun (w.put (w.console.advanceJob job)) := by
  have onward (next : Job) (same : next.core = job.core) :
      Underway begun (w.put (w.console.busy next)) next.core [] s := by
    have gentle : Gentle w (w.put (w.console.busy next)) := gentlePut rfl rfl rfl rfl
    rw [same]
    exact gentle.underway underway
  obtain ⟨core, left, phase⟩ := job
  cases phase with
  | askStop =>
    dsimp only [advanceJob]
    rw [underway.asked]
    exact ⟨s, onward _ rfl⟩
  | askState =>
    dsimp only [advanceJob]
    obtain running | paused := underway.active
    · rw [running]
      exact ⟨s, onward _ rfl⟩
    · rw [paused]
      exact ⟨s, onward _ rfl⟩
  | hold => exact ⟨s, (gentleExchange rfl rfl _).underway underway⟩
  | release => exact ⟨s, (gentleExchange rfl rfl _).underway underway⟩
  | askMode =>
    dsimp only [advanceJob]
    split
    case h_1 => exact ⟨s, onward _ rfl⟩
    case h_2 => exact ⟨s, onward _ rfl⟩
    case h_3 => exact ⟨s, .inl (onward _ rfl)⟩
  | begin =>
    have gentle : Gentle w (w.put ({ w.console with
        control := w.console.control.enter .running }.next ⟨core, left, .begin⟩ .confirmMode)) :=
      ⟨rfl, rfl, .inr ⟨underway.mode, rfl⟩, rfl, .inl rfl⟩
    exact ⟨s, gentle.underway underway⟩
  | confirmMode =>
    dsimp only [advanceJob]
    split
    · exact ⟨s, onward _ rfl⟩
    · exact ⟨s, .inl (onward _ rfl)⟩
  | confirmStop =>
    dsimp only [advanceJob]
    rw [underway.asked]
    exact ⟨s, onward _ rfl⟩
  | _ => simp at approach

theorem deliverFollows {waiting : List Delivery} (underway : Underway begun w core waiting s) :
    Faithful begun (w.put (w.console.advanceJob ⟨core, left, .deliver waiting⟩)) := by
  cases waiting with
  | nil =>
    have gentle : Gentle w (w.put (w.console.busy ⟨core, left, .showRegisters true⟩)) :=
      gentlePut rfl rfl rfl rfl
    exact ⟨s, .inl (gentle.underway underway)⟩
  | cons first rest =>
    obtain ⟨⟨detached, devices, fit, commands⟩, leads, going, mode, asked, active⟩ := underway
    refine ⟨s, ⟨⟨detached, devices, fit, ?_⟩, leads, going, mode, asked, active⟩⟩
    have queued : (w.console.queue.deliver first).pending.toList =
        w.console.queue.pending.toList ++ [first.enqueued] := RenderQueue.deliverPending _ first
    calc w.taken ++ (w.console.queue.deliver first).pending.toList ++ rest.map Delivery.enqueued
        = w.commands ++ (first :: rest).map Delivery.enqueued := by
          rw [queued, Screening.commands, List.map_cons]
          simp only [List.append_assoc, List.singleton_append]
      _ = s.queue.pending.toList := commands

theorem goOnFollows (follows : Follows begun w ⟨core, left, .goOn⟩ s) :
    Faithful begun (w.put (w.console.advanceJob ⟨core, left, .goOn⟩)) := by
  have onward (next : Job) : Gentle w (w.put (w.console.busy next)) := gentlePut rfl rfl rfl rfl
  dsimp only [advanceJob]
  obtain underway | ⟨closing, mode⟩ := follows
  · split
    · exact ⟨s, (onward _).underway underway⟩
    · exact ⟨s, .inl ((onward _).underway underway)⟩
  · have final := closing.final
    rw [← mode] at final
    split
    case isTrue goesOn => rw [goesOn.1] at final; cases final
    case isFalse => exact ⟨s, .inr ⟨(onward _).closing closing, mode⟩⟩

theorem judgeFollows (follows : Follows begun w ⟨core, left, .judge⟩ s) :
    Faithful begun (w.put (w.console.advanceJob ⟨core, left, .judge⟩)) := by
  have onward (next : Job) : Gentle w (w.put (w.console.busy next)) := gentlePut rfl rfl rfl rfl
  dsimp only [advanceJob]
  obtain underway | ⟨closing, mode⟩ := follows
  · have going := underway.mode
    cases now : w.console.control.mode with
    | halted | faulted => rw [now] at going; cases going
    | stopped | running | paused => exact ⟨s, (onward _).underway underway⟩
  · have final := closing.final
    rw [← mode] at final
    cases now : w.console.control.mode with
    | halted => exact ⟨s, (onward _).closing closing, mode.symm.trans now⟩
    | faulted => exact ⟨s, (onward _).closing closing, mode.symm.trans now⟩
    | stopped | running | paused => rw [now] at final; cases final

theorem departFollows (job : Job) {exit : Exit} (closing : Closing begun w job.core s)
    (departs : Departs exit s.machine.mode) (published : Published w job.core) :
    Faithful begun (w.put (w.console.depart job exit)) := by
  obtain _ | _ | fault | words := exit
  · exact departs.elim
  · exact ⟨s, ⟨closing.toOver.moved rfl rfl, closing.active⟩, published, departs⟩
  · cases fault <;>
      exact ⟨s, ⟨closing.toOver.moved rfl rfl, closing.active⟩, published, .inr ⟨departs, rfl⟩⟩
  · exact departs.elim

theorem concludeFollows {after : Lifecycle} (closing : Closing begun w core s)
    (published : Published w core) (verdict : Verdict w.console after s.machine.mode) :
    Faithful begun (w.put (w.console.advanceJob ⟨core, left, .conclude after⟩)) := by
  have active : w.console.state = .running ∨ w.console.state = .paused := closing.active
  dsimp only [advanceJob]
  rw [if_pos active]
  exact ⟨s, closing.toOver.moved rfl rfl, published, verdict⟩

theorem announceFollows {before after : Lifecycle} (leaves : Left begun w core s) :
    Faithful begun (w.put (w.console.advanceJob ⟨core, left, .announce before after⟩)) := by
  dsimp only [advanceJob]
  split
  · exact ⟨s, core, leaves.toOver.moved rfl rfl, leaves.published, leaves.verdict⟩
  · exact ⟨s, leaves.toOver.moved rfl rfl, leaves.published, leaves.verdict⟩

theorem advanceJobFollows (follows : Follows begun w job s) :
    Faithful begun (w.put (w.console.advanceJob job)) := by
  obtain ⟨core, left, phase⟩ := job
  have onward (next : Job) : Gentle w (w.put (w.console.busy next)) := gentlePut rfl rfl rfl rfl
  cases phase with
  | execute => exact performFollows follows
  | settle mode =>
    obtain ⟨⟨gone, active⟩, rfl⟩ := follows
    exact ⟨s, .inr ⟨⟨gone.moved rfl rfl, active⟩, rfl⟩⟩
  | deliver waiting => exact deliverFollows follows
  | showRegisters ran =>
    have shown : Gentle w (w.put (Console.next { w.console with snapshot := core.registers }
      ⟨core, left, .showRegisters ran⟩ (.showCount ran))) := gentlePut rfl rfl rfl rfl
    obtain underway | ⟨closing, mode⟩ := follows
    · exact ⟨s, .inl (shown.underway underway)⟩
    · exact ⟨s, .inr ⟨shown.closing closing, mode⟩⟩
  | showCount ran =>
    have counted (phase : Phase) : Gentle w (w.put (Console.next
      { w.console with instructions := core.retired } ⟨core, left, .showCount ran⟩ phase)) :=
      gentlePut rfl rfl rfl rfl
    obtain underway | ⟨closing, mode⟩ := follows
    · cases ran <;> exact ⟨s, .inl ((counted _).underway underway)⟩
    · cases ran <;> exact ⟨s, .inr ⟨(counted _).closing closing, mode⟩⟩
  | goOn => exact goOnFollows follows
  | judge => exact judgeFollows follows
  | leave exit =>
    obtain ⟨⟨gone, active⟩, departs⟩ := follows
    exact ⟨s, ⟨gone.moved rfl rfl, active⟩, departs, rfl⟩
  | leaveCount exit =>
    obtain ⟨⟨gone, active⟩, departs, shown⟩ := follows
    have counted : Closing begun (w.put { w.console with instructions := core.retired }) core s :=
      ⟨gone.moved rfl rfl, active⟩
    exact departFollows ⟨core, left, .leaveCount exit⟩ counted departs ⟨shown, rfl⟩
  | unload =>
    obtain ⟨⟨gone, active⟩, published, halted⟩ := follows
    exact ⟨s, ⟨gone.moved rfl rfl, active⟩, published, .inl ⟨halted, rfl, rfl⟩⟩
  | conclude after => exact concludeFollows follows.1 follows.2.1 follows.2.2
  | announce before after => exact announceFollows follows
  | _ => exact approachFollows follows (by simp)

theorem threadFaithful (faithful : Faithful begun w) : Faithful begun (w.act .thread) := by
  have resting (same : w.console.advance = none) : w.act .thread = w := by
    rw [act, same]
    rfl
  cases mine : w.console.worker with
  | none => rw [resting (by rw [advance, mine])]; exact faithful
  | some worker =>
    cases worker with
    | finished | died => rw [resting (by rw [advance, mine])]; exact faithful
    | busy job =>
      have goes : w.act .thread = w.put (w.console.advanceJob job) := by
        rw [act, advance, mine]
        rfl
      obtain ⟨s, follows⟩ := faithful
      rw [mine] at follows
      rw [goes]
      exact advanceJobFollows follows

theorem drainMild : Mild w (w.act .drain) where
  devices := rfl
  commands := by simp [act, commands, RenderQueue.drain]
  mode := .inl rfl
  asked := rfl
  state := .inl rfl
  worker := rfl
  snapshot := rfl
  instructions := rfl
  loaded := rfl

theorem countMild : Mild w (w.act .count) :=
  ⟨⟨rfl, rfl, .inl rfl, rfl, .inl rfl⟩, rfl, rfl, rfl, rfl⟩

theorem actFaithful (b : Bystander) (faithful : Faithful begun w) : Faithful begun (w.act b) := by
  cases b with
  | thread => exact threadFaithful faithful
  | drain => exact drainMild.faithful faithful
  | count => exact countMild.faithful faithful

end Phases

end Screening

end GameConsole
