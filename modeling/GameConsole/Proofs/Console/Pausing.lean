import GameConsole.Proofs.Console.Pursuit
import GameConsole.Proofs.Console.Session
import GameConsole.Proofs.Console.Steps

/-! A program that is paused, resumed and watched while it runs ends as it would have ended one step
after the other. -/
namespace GameConsole
open Interplay (Meets)
open Procedure (look alter)

def screening : Interplay Console Screening Bystander where
  state := Screening.console
  other := Screening.act
  ours := Screening.put
  allowed _ _ := True
  oursIdle _ := rfl
  allowedIdle _ := trivial

def pursuit (begun : Solo) : Interplay Console Screening Bystander :=
  { screening with always := fun w => w.console.worker.isSome → w.Faithful begun }

namespace Console

inductive Pausing where
  | pause | resume | togglePause

def Pausing.call : Pausing → Call Bool
  | .pause => Call.pause
  | .resume => Call.resume
  | .togglePause => Call.togglePause

def launch (c : Console) : Interplay.Session Console Screening Bool := ⟨⟨c, [], 0⟩, Call.run⟩

def pausing (c : Console) (turns : List (Interplay.Turn Pausing Bystander)) : Screening :=
  (c.launch.play screening Pausing.call id turns).world

def solo (c : Console) (core : Core Unit) : Solo :=
  ⟨⟨core.attach c.devices c.journal, c.control⟩, c.queue⟩

end Console

namespace Screening
open Console

variable {begun : Solo}

instance : Lenient (pursuit begun) := ⟨fun _ _ _ => trivial⟩

structure Prepared (begun : Solo) (core : Core Unit) (state : Lifecycle) (w : Screening) : Prop
    extends Tracks w core [] begun where
  alone : w.console.worker = none
  held : w.console.core = some core
  ready : w.console.programLoaded = true
  here : w.console.state = state
  control : w.console.control = {}
  start : begun.machine.control = {}

theorem actAlone (b : Bystander) {w : Screening} (alone : w.console.worker = none) :
    (w.act b).commands = w.commands ∧
      ∃ queue, (w.act b).console = { w.console with queue } ∧
        (queue.pending = #[] ∨ queue.pending = w.console.queue.pending) := by
  cases b with
  | thread =>
    have idle : w.act .thread = w := congrArg (fun console => { w with console })
      (advanceAlone alone)
    rw [idle]
    exact ⟨rfl, _, rfl, .inr rfl⟩
  | drain => exact ⟨drainMild.commands, _, rfl, .inl rfl⟩
  | count => exact ⟨countMild.commands, _, rfl, .inr rfl⟩

section Assertions
variable (begun : Solo)

def prepared (core : Core Unit) (state : Lifecycle) : Assertion (pursuit begun) where
  holds := Prepared begun core state
  stable b w h := by
    obtain ⟨commands, queue, same, -⟩ := actAlone b h.alone
    change Prepared begun core state (w.act b)
    have tracks : Tracks (w.act b) core [] begun := h.toTracks.moved (by rw [same]) commands
    refine ⟨tracks, ?_, ?_, ?_, ?_, ?_, h.start⟩ <;> rw [same]
    exacts [h.alone, h.held, h.ready, h.here, h.control]
  safe w h some := by
    rw [h.alone] at some
    cases some

def faithful : Assertion (pursuit begun) where
  holds := Faithful begun
  stable b _ h := actFaithful b h
  safe _ h _ := h

end Assertions

section Starting
variable {begun : Solo} {core : Core Unit} {state : Lifecycle}

theorem spawnFollows {w : Screening} (h : Prepared begun core .running w) :
    Faithful begun (w.put (Call.spawn core w.console)) := by
  refine ⟨begun, h.toTracks.moved rfl rfl, fun _ ends => ends, ?_, ?_, ?_, .inl h.here⟩
  · rw [Machine.mode, h.start]
    rfl
  · change w.console.control.mode.isFinal = false
    rw [h.control]
    rfl
  · change w.console.control.stopRequested = false
    rw [h.control]

theorem Prepared.moved {w : Screening} (h : Prepared begun core state w) (after : Lifecycle) :
    Prepared begun core after (w.put { w.console with state := after }) :=
  ⟨h.toTracks.moved rfl rfl, h.alone, h.held, h.ready, rfl, h.control, h.start⟩

theorem Prepared.reported {w : Screening} (h : Prepared begun core state w) (observer : Observer)
    (journal : Journal) : Prepared begun core state (w.put { w.console with observer, journal }) :=
  ⟨h.toTracks.moved rfl rfl, h.alone, h.held, h.ready, h.here, h.control, h.start⟩

theorem runFollows :
    (pursuit begun).Meets (prepared begun core .idle) Call.run fun _ => faithful begun :=
  launchAllowed (R := prepared begun core .running) (fun _ h => ⟨h.ready, h.here, h.alone, h.held⟩)
    (fun _ h => ⟨trivial, h.moved .running⟩) (fun _ _ h => h.reported _ _)
    fun _ h => ⟨trivial, spawnFollows h⟩

end Starting

section Pausing
variable {begun : Solo} {w : Screening}

theorem reportMild (journal : Journal) (observer : Observer) :
    Mild w (w.put { w.console with journal, observer }) :=
  ⟨⟨rfl, rfl, .inl rfl, rfl, .inl rfl⟩, rfl, rfl, rfl, rfl⟩

theorem faithfulQuiet : Quiet (faithful begun) := fun _ journal h =>
  (reportMild journal _).faithful h

theorem activeMild (active : w.console.active) {after : Lifecycle}
    (again : after = .running ∨ after = .paused) :
    Mild w (w.put { w.console with state := after }) :=
  ⟨⟨rfl, rfl, .inl rfl, rfl, .inr ⟨active, again⟩⟩, rfl, rfl, rfl, rfl⟩

theorem exchangeMild {before after : Mode} (going : before.isFinal = false)
    (goesOn : after.isFinal = false) :
    Mild w (w.put { w.console with control := (w.console.control.exchange before after).1 }) :=
  ⟨⟨rfl, rfl, (Control.exchangeKeeps going goesOn _).1, (Control.exchangeKeeps going goesOn _).2,
    .inl rfl⟩, rfl, rfl, rfl, rfl⟩

theorem switchFollows {before after : Lifecycle} {mode other : Mode} {message : String}
    (was : before = .running ∨ before = .paused) (again : after = .running ∨ after = .paused)
    (going : mode.isFinal = false) (goesOn : other.isFinal = false) :
    (pursuit begun).Meets (faithful begun) (do
      if ← Call.move [before] after then
        Call.control fun c => (c.exchange mode other).1
        return true
      else
        Call.refuse message
        return false) fun _ => faithful begun := by
  refine .bind (Q := fun moved => cond moved (faithful begun) (faithful begun))
    (moveMeets _ _ (fun w h origin => ?_) (fun _ h _ => h) fun w first h => ?_) fun moved => ?_
  · obtain rfl := List.mem_singleton.mp origin
    exact (activeMild was again).faithful h
  · exact (reportMild _ _).faithful h
  cases moved with
  | true =>
    exact .bind (Q := fun _ => faithful begun)
      (controlMeets _ fun w h => (exchangeMild going goesOn).faithful h) fun _ => .done fun _ h => h
  | false =>
    exact .bind (Q := fun _ => faithful begun) (refuseMeets faithfulQuiet _) fun _ =>
      .done fun _ h => h

theorem pauseFollows :
    (pursuit begun).Meets (faithful begun) Call.pause fun _ => faithful begun :=
  switchFollows (.inl rfl) (.inr rfl) rfl rfl

theorem resumeFollows :
    (pursuit begun).Meets (faithful begun) Call.resume fun _ => faithful begun :=
  switchFollows (.inr rfl) (.inl rfl) rfl rfl

theorem togglePauseFollows :
    (pursuit begun).Meets (faithful begun) Call.togglePause fun _ => faithful begun := by
  refine .bind (Q := fun _ => faithful begun) (.look fun _ h => h) fun state => ?_
  have rejected : (pursuit begun).Meets (faithful begun) (do
      Call.report (.of .warn "toggle pause rejected" [("state", .text state.name)])
      return false) fun _ => faithful begun :=
    .bind (Q := fun _ => faithful begun) (reportMeets faithfulQuiet _) fun _ => .done fun _ h => h
  cases state with
  | running => exact pauseFollows
  | paused => exact resumeFollows
  | _ => exact rejected

theorem pausingFollows (call : Pausing) :
    (pursuit begun).Meets (faithful begun) call.call fun _ => faithful begun := by
  cases call with
  | pause => exact pauseFollows
  | resume => exact resumeFollows
  | togglePause => exact togglePauseFollows

end Pausing

def ended (w : Screening) : Bool :=
  match w.console.worker with
  | some (.finished _) | some .died => true
  | some (.busy _) | none => false

/- What is left of a run that is over, against the program that has been executed step by step. The
devices count the system calls and what has been decoded. -/
structure Outcome (w : Screening) (s : Solo) : Prop where
  registers : w.console.snapshot = s.machine.core.registers
  instructions : w.console.instructions = s.machine.core.retired
  memory : ∀ core, w.console.worker = some (.finished core) → core.memory = s.machine.core.memory
  devices : w.console.devices = s.machine.core.devices
  commands : w.commands = s.queue.pending.toList
  state : s.machine.mode = .halted ∧ w.console.state = .idle ∧ w.console.programLoaded = false ∨
    s.machine.mode = .faulted ∧ w.console.state = .error

theorem Left.outcome {begun s : Solo} {w : Screening} {core : Core Unit}
    (left : Left begun w core s)
    (mine : ∀ final, w.console.worker = some (.finished final) → final = core) :
    w.Outcome s := by
  have detached := left.detached
  simp only [Core.detach, Core.attach, Core.mk.injEq, Guest.mk.injEq] at detached
  obtain ⟨⟨registers, memory, -, -⟩, retired, -, -⟩ := detached
  have commands := left.commands
  rw [List.map_nil, List.append_nil] at commands
  exact ⟨left.published.1.trans registers, left.published.2.trans retired,
    fun final same => mine final same ▸ memory, left.devices, commands, left.verdict⟩

end Screening

namespace Console

/- However a program is paused and resumed, and whenever its commands are taken: once its thread is
no longer at work, all there is to see is what single steps would have left, which is one thing only
(`endsUnique`). The last call may still be under way. -/
theorem pausingChangesNothing {c : Console} {core : Core Unit} (loaded : Loaded c core)
    (turns : List (Interplay.Turn Pausing Bystander)) (ended : (c.pausing turns).ended) :
    ∃ s, (c.solo core).Ends s ∧ (c.pausing turns).Outcome s := by
  have begins : Screening.prepared (c.solo core) core .idle ⟨c, [], 0⟩ :=
    ⟨⟨rfl, rfl, loaded.fit, List.append_nil _⟩, loaded.alone, loaded.core, loaded.ready,
      loaded.state, loaded.control, loaded.control⟩
  have secured := Interplay.Session.playSecures
    (fun call _ w h => Screening.pausingFollows call w h) turns c.launch
    (Screening.runFollows _ begins)
  have follows : (c.pausing turns).console.worker.isSome →
      (c.pausing turns).Faithful (c.solo core) := secured.always
  unfold Screening.ended at ended
  cases found : (c.pausing turns).console.worker with
  | none =>
    rw [found] at ended
    cases ended
  | some worker =>
    obtain ⟨s, stands⟩ := follows (by rw [found]; rfl)
    rw [found] at stands ended
    cases worker with
    | busy job => cases ended
    | finished final =>
      refine ⟨s, stands.ends, stands.outcome fun other same => ?_⟩
      cases found.symm.trans same
      rfl
    | died =>
      obtain ⟨core, left⟩ := stands
      refine ⟨s, left.ends, left.outcome fun other same => ?_⟩
      cases found.symm.trans same

theorem haltsWhilePaused :
    let memory := (Memory.zeros 4 (by decide) false).store 0 [0xF4]
    let core := (Machine.start memory () .empty).core
    let c : Console :=
      { new {} {} with core := some core, programLoaded := true, initialized := true }
    let turns : List (Interplay.Turn Pausing Bystander) := .replicate 7 .proceed ++
      .replicate 7 (.other .thread) ++ .begin .pause :: .replicate 4 .proceed ++
      .replicate 11 (.other .thread)
    Loaded c core ∧ (c.pausing (turns.take 19)).console.state = .paused ∧
      ∃ s, (c.solo core).Ends s ∧ (c.pausing turns).Outcome s ∧
        s.machine.mode = .halted ∧ s.machine.core.retired = 1 := by
  intro memory core c turns
  have loaded : Loaded c core :=
    ⟨⟨Syscall.Dispatcher.emptyDeaf, rfl⟩, rfl, rfl, rfl, rfl, rfl⟩
  have ended : (c.pausing turns).ended := by decide +kernel
  have left : (c.pausing (turns.take 19)).console.state = .paused ∧
      (c.pausing turns).console.state = .idle ∧ (c.pausing turns).console.instructions = 1 := by
    decide +kernel
  obtain ⟨s, ends, outcome⟩ := pausingChangesNothing loaded turns ended
  refine ⟨loaded, left.1, s, ends, outcome, ?_, outcome.instructions.symm.trans left.2.2⟩
  obtain ⟨halted, -⟩ | ⟨-, error⟩ := outcome.state
  · exact halted
  · cases left.2.1.symm.trans error

end Console

end GameConsole
