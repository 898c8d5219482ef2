import GameConsole.Proofs.Console.Thread

/-! A program that is executed one step after the other by nobody in particular, and the execution
thread seen against it: what the thread knows of the program at each of its steps, whoever pauses
it or takes commands from the queue meanwhile. -/
namespace GameConsole
open Graphics (Delivery RenderCommand RenderQueue)
open Syscall (Devices Hosted)

structure Solo where
  machine : Machine (Hosted Devices)
  queue : RenderQueue

namespace Solo

def emptied (devices : Hosted Devices) : Hosted Devices :=
  { devices with devices :=
    { devices.devices with graphics := devices.devices.graphics.takeOutbox.2 } }

def step (s : Solo) : Solo × Nat :=
  let (m, cycles) := s.machine.step (some Hosted.handler)
  (⟨{ m with core := { m.core with devices := emptied m.core.devices } },
    s.queue.deliverAll m.core.devices.devices.graphics.outbox⟩, cycles)

inductive Ends : Solo → Solo → Prop where
  | last {s : Solo} (stops : s.step.2 = 0) : Ends s s.step.1
  | more {s t : Solo} (goes : s.step.2 ≠ 0) (rest : Ends s.step.1 t) : Ends s t

theorem endsUnique {s t u : Solo} (first : Ends s t) (second : Ends s u) : t = u := by
  induction first with
  | last stops =>
    cases second with
    | last => rfl
    | more goes => exact absurd stops goes
  | more goes _ ih =>
    cases second with
    | last stops => exact absurd stops goes
    | more _ rest => exact ih rest

def Leads (s t : Solo) : Prop := ∀ u, Ends t u → Ends s u

theorem Leads.step {s t : Solo} (leads : s.Leads t) (goes : t.step.2 ≠ 0) : s.Leads t.step.1 :=
  fun _ ends => leads _ (.more goes ends)

section Step
variable {s : Solo} {core : Core (Hosted Devices)}

theorem stepContinued (going : s.machine.mode.isFinal = false)
    (executed : s.machine.core.execute (some Hosted.handler) (s.machine.control.enter .running) =
      (core, .continued, [])) :
    s.step = (⟨⟨{ core with devices := emptied core.devices }, s.machine.control.enter .running⟩,
      s.queue.deliverAll core.devices.devices.graphics.outbox⟩, 1) := by
  unfold step
  rw [stepActive going, executed]
  rfl

theorem stepStopped (going : s.machine.mode.isFinal = false) {ending : Ending} {mode : Mode}
    (executed : s.machine.core.execute (some Hosted.handler) (s.machine.control.enter .running) =
      (core, ending, []))
    (stops : ending = .halted ∧ mode = .halted ∨ ending = .faulted ∧ mode = .faulted) :
    s.step = (⟨⟨{ core with devices := emptied core.devices }, s.machine.control.enter mode⟩,
      s.queue.deliverAll core.devices.devices.graphics.outbox⟩, 0) := by
  unfold step
  rw [stepActive going, executed]
  obtain ⟨rfl, rfl⟩ | ⟨rfl, rfl⟩ := stops <;> rfl

end Step

end Solo

def Graphics.Delivery.enqueued : Delivery → RenderCommand
  | .command c => c
  | .frame => .endFrame

theorem Graphics.RenderQueue.deliverPending (q : RenderQueue) (d : Delivery) :
    (q.deliver d).pending.toList = q.pending.toList ++ [d.enqueued] := by
  cases d <;> exact Array.toList_push

theorem Graphics.RenderQueue.deliverAllPending (q : RenderQueue) (ds : Array Delivery) :
    (q.deliverAll ds).pending.toList = q.pending.toList ++ ds.toList.map Delivery.enqueued := by
  rw [RenderQueue.deliverAll, ← Array.foldl_toList]
  induction ds.toList generalizing q with
  | nil => simp
  | cons d rest ih => simp [ih, deliverPending]

structure Screening where
  console : Console
  taken : List RenderCommand
  due : Nat

/- Those who act beside the controller. To take all commands is a section under the lock of the
queue, followed by a count outside it. -/
inductive Bystander where
  | thread | drain | count

namespace Screening
open Console

def act : Bystander → Screening → Screening
  | .thread, w => { w with console := w.console.advance.getD w.console }
  | .drain, w =>
    let (taken, queue) := w.console.queue.drain
    ⟨{ w.console with queue }, w.taken ++ taken, w.due + taken.length⟩
  | .count, w =>
    ⟨{ w.console with queue := w.console.queue.countPopped w.due }, w.taken, 0⟩

def commands (w : Screening) : List RenderCommand := w.taken ++ w.console.queue.pending.toList

/- The core of the thread and the devices are those of the program at a point of its run; some
deliveries may still be on their way. -/
structure Tracks (w : Screening) (core : Core Unit) (waiting : List Delivery) (s : Solo) :
    Prop where
  detached : core.detach = s.machine.core.detach
  devices : w.console.devices = s.machine.core.devices
  fit : Fit w.console.devices
  commands : w.commands ++ waiting.map Delivery.enqueued = s.queue.pending.toList

structure Underway (begun : Solo) (w : Screening) (core : Core Unit) (waiting : List Delivery)
    (s : Solo) : Prop extends Tracks w core waiting s where
  leads : begun.Leads s
  going : s.machine.mode.isFinal = false
  mode : w.console.control.mode.isFinal = false
  asked : w.console.control.stopRequested = false
  active : w.console.active

structure Over (begun : Solo) (w : Screening) (core : Core Unit) (s : Solo) : Prop
    extends Tracks w core [] s where
  ends : begun.Ends s
  final : s.machine.mode.isFinal = true

structure Closing (begun : Solo) (w : Screening) (core : Core Unit) (s : Solo) : Prop
    extends Over begun w core s where
  active : w.console.active

def Published (w : Screening) (core : Core Unit) : Prop :=
  w.console.snapshot = core.registers ∧ w.console.instructions = core.retired

def Verdict (c : Console) (after : Lifecycle) (mode : Mode) : Prop :=
  mode = .halted ∧ after = .idle ∧ c.programLoaded = false ∨ mode = .faulted ∧ after = .error

structure Left (begun : Solo) (w : Screening) (core : Core Unit) (s : Solo) : Prop
    extends Over begun w core s where
  published : Published w core
  verdict : Verdict w.console w.console.state s.machine.mode

def Departs : Exit → Mode → Prop
  | .halted, mode => mode = .halted
  | .faulted _, mode => mode = .faulted
  | .stopped, _ | .panicked _, _ => False

def Follows (begun : Solo) (w : Screening) (job : Job) (s : Solo) : Prop :=
  match job.phase with
  | .deliver waiting => Underway begun w job.core waiting s
  | .settle mode => Closing begun w job.core s ∧ s.machine.mode = mode
  | .showRegisters _ | .showCount _ | .goOn | .judge =>
    Underway begun w job.core [] s ∨
      Closing begun w job.core s ∧ w.console.control.mode = s.machine.mode
  | .leave exit => Closing begun w job.core s ∧ Departs exit s.machine.mode
  | .leaveCount exit =>
    Closing begun w job.core s ∧ Departs exit s.machine.mode ∧
      w.console.snapshot = job.core.registers
  | .unload => Closing begun w job.core s ∧ Published w job.core ∧ s.machine.mode = .halted
  | .conclude after =>
    Closing begun w job.core s ∧ Published w job.core ∧
      Verdict w.console after s.machine.mode
  | .announce .. => Left begun w job.core s
  | _ => Underway begun w job.core [] s

def Faithful (begun : Solo) (w : Screening) : Prop :=
  ∃ s, match w.console.worker with
    | some (.busy job) => Follows begun w job s
    | some (.finished core) => Left begun w core s
    | some .died => ∃ core, Left begun w core s
    | none => False

end Screening

end GameConsole
