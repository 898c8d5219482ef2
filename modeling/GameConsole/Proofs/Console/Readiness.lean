import GameConsole.Proofs.Console.Session
import GameConsole.Proofs.Console.Steps

/-! Whether a program that an idle console has can be started: what the execution thread leaves of
it, and what calls may do beside the thread. Beside the console stands what the call under way has
come across. -/
namespace GameConsole.Console
open Interplay (Meets)
open Procedure (look alter update await)

def Spent (c : Console) : Phase → Prop
  | .leave .halted | .leaveCount .halted | .unload => c.control.mode = .halted
  | .conclude .idle | .announce _ .idle => c.control.mode = .halted ∧ c.programLoaded = false
  | _ => True

structure Sane (c : Console) : Prop where
  owned : c.core.isSome ∨ c.worker.isSome → c.initialized = true
  busy : ∀ job, c.worker = some (.busy job) →
    c.Spent job.phase ∧ (c.state = .idle → ∃ before, job.phase = .announce before .idle)
  ended : c.worker = some .died ∨ (∃ core, c.worker = some (.finished core)) → c.state = .idle →
    c.control.mode = .halted ∧ c.programLoaded = false
  alone : c.worker = none → c.state = .idle → c.programLoaded = true → c.control.mode = .stopped

def Ready (c : Console) : Prop :=
  c.programLoaded = true ∧ c.control.mode = .stopped ∨
    c.programLoaded = false ∧ c.control.mode = .halted

section Thread
variable {c d : Console} {job : Job}

theorem Sane.ready (sane : Sane c) (idle : c.state = .idle)
    (manned : c.worker.isSome ∨ c.programLoaded = true) : Ready c := by
  cases mine : c.worker with
  | none =>
    obtain some | loaded := manned
    · rw [mine] at some
      cases some
    · exact .inl ⟨loaded, sane.alone mine idle loaded⟩
  | some worker =>
    have halted : c.control.mode = .halted ∧ c.programLoaded = false := by
      cases worker with
      | busy job =>
        obtain ⟨spent, announces⟩ := sane.busy job mine
        obtain ⟨before, phase⟩ := announces idle
        rw [phase] at spent
        exact spent
      | finished core => exact sane.ended (.inr ⟨core, mine⟩) idle
      | died => exact sane.ended (.inl mine) idle
    exact .inr halted.symm

theorem busySane (initialized : d.initialized = true) (spent : (d.busy job).Spent job.phase)
    (later : d.state = .idle → ∃ before, job.phase = .announce before .idle) :
    Sane (d.busy job) where
  owned _ := initialized
  busy _ found := by cases found; exact ⟨spent, later⟩
  ended found := by
    obtain died | ⟨core, finished⟩ := found
    · cases died
    · cases finished
  alone found := by cases found

theorem endedSane (initialized : d.initialized = true)
    (gone : d.worker = some .died ∨ ∃ core, d.worker = some (.finished core))
    (ended : d.state = .idle → d.control.mode = .halted ∧ d.programLoaded = false) : Sane d where
  owned _ := initialized
  busy _ found := by
    obtain died | ⟨core, finished⟩ := gone
    · cases died.symm.trans found
    · cases finished.symm.trans found
  ended _ := ended
  alone found := by
    obtain died | ⟨core, finished⟩ := gone
    · cases died.symm.trans found
    · cases finished.symm.trans found

structure Goes (c d : Console) : Prop where
  sane : Sane d
  loaded : d.programLoaded = true → c.programLoaded = true
  manned : d.worker.isSome

theorem busyGoes (initialized : d.initialized = true) (spent : (d.busy job).Spent job.phase)
    (active : d.state ≠ .idle)
    (loaded : d.programLoaded = true → c.programLoaded = true) : Goes c (d.busy job) :=
  ⟨busySane initialized spent fun idle => absurd idle active, loaded, rfl⟩

theorem finishGoes (initialized : d.initialized = true)
    (ended : d.state = .idle → d.control.mode = .halted ∧ d.programLoaded = false)
    (loaded : d.programLoaded = true → c.programLoaded = true) : Goes c (d.finish job) :=
  ⟨endedSane initialized (.inr ⟨_, rfl⟩) ended, loaded, rfl⟩

theorem performGoes (initialized : c.initialized = true) (active : c.state ≠ .idle) :
    Goes c (c.perform job) := by
  unfold perform
  dsimp only
  split <;> exact busyGoes initialized trivial active id

theorem departGoes (initialized : d.initialized = true) (active : d.state ≠ .idle) (exit : Exit)
    (halted : exit = .halted → d.control.mode = .halted)
    (loaded : d.programLoaded = true → c.programLoaded = true) : Goes c (d.depart job exit) := by
  obtain _ | _ | (_ | _) | _ := exit
  · exact finishGoes initialized (fun idle => absurd idle active) loaded
  · exact busyGoes initialized (halted rfl) active loaded
  all_goals exact busyGoes initialized trivial active loaded

theorem advanceGoes (sane : Sane c) (mine : c.worker = some (.busy job)) :
    Goes c (c.advanceJob job) := by
  obtain ⟨spent, announces⟩ := sane.busy job mine
  have built : c.initialized = true := sane.owned (.inr (by rw [mine]; rfl))
  obtain ⟨core, left, phase⟩ := job
  have active (silent : ∀ before, phase ≠ .announce before .idle) : c.state ≠ .idle := by
    intro idle
    obtain ⟨before, same⟩ := announces idle
    exact silent before same
  cases phase with
  | execute => exact performGoes built (active (by simp))
  | askState | askMode | goOn =>
    dsimp only [advanceJob]
    split <;> exact busyGoes built trivial (active (by simp)) id
  | askStop | confirmMode | confirmStop =>
    dsimp only [advanceJob, next]
    split <;> exact busyGoes built trivial (active (by simp)) id
  | judge =>
    dsimp only [advanceJob]
    split
    case h_1 halted => exact busyGoes built halted (active (by simp)) id
    all_goals exact busyGoes built trivial (active (by simp)) id
  | conclude after =>
    dsimp only [advanceJob]
    split
    case isTrue =>
      refine ⟨busySane built ?_ fun idle => ⟨c.state, ?_⟩, id, rfl⟩
      · cases after <;> exact spent
      · cases (idle : after = .idle)
        rfl
    case isFalse => exact finishGoes built (fun idle => absurd idle (active (by simp))) id
  | announce before after =>
    have ended (idle : c.state = .idle) : c.control.mode = .halted ∧ c.programLoaded = false := by
      obtain ⟨first, same⟩ := announces idle
      rw [same] at spent
      exact spent
    dsimp only [advanceJob]
    split
    · exact ⟨endedSane built (.inl rfl) ended, id, rfl⟩
    · exact finishGoes built ended id
  | leave exit =>
    refine busyGoes built ?_ (active (by simp)) id
    cases exit <;> exact spent
  | leaveCount exit =>
    refine departGoes (c := c) (d := { c with instructions := core.retired }) built
      (active (by simp)) exit (fun halted => ?_) id
    rw [halted] at spent
    exact spent
  | unload =>
    exact busyGoes built ⟨spent, rfl⟩ (active (by simp)) fun loaded => by cases loaded
  | showCount ran => cases ran <;> exact busyGoes built trivial (active (by simp)) id
  | deliver pending => cases pending <;> exact busyGoes built trivial (active (by simp)) id
  | _ => exact busyGoes built trivial (active (by simp)) id

end Thread

def working (c : Console) : Bool :=
  match c.worker with
  | some (.busy _) => true
  | _ => false

/- What the call under way has come across: whether a program was loaded when it began, whether it
has resumed one, and the console on which it has started a thread. -/
structure Trail where
  loaded : Bool
  resumed : Bool := false
  started : Option Console := none

def Trail.follow (t : Trail) (before after : Console) : Trail where
  loaded := t.loaded
  resumed := t.resumed || (before.state = .paused && after.state = .running)
  started := if after.working && !before.working then some before else t.started

def Trail.Fair (t : Trail) : Prop :=
  ∀ c, t.started = some c → t.loaded = true ∧ c.state = .running ∧ Ready c

structure Trial where
  console : Console
  trail : Trail

namespace Trial

def call (w : Trial) (after : Console) : Trial := ⟨after, w.trail.follow w.console after⟩

def thread (w : Trial) : Trial := { w with console := w.console.advance.getD w.console }

def fresh (w : Trial) : Trial := { w with trail := { loaded := w.console.programLoaded } }

end Trial

theorem followIdle (t : Trail) (c : Console) : t.follow c c = t := by
  unfold Trail.follow
  cases t with
  | mk loaded resumed started =>
    cases state : c.state <;> simp

theorem followFair {t : Trail} (fair : t.Fair) {before after : Console}
    (kept : after.working = true → before.working = true) : (t.follow before after).Fair := by
  have same : (t.follow before after).started = t.started := by
    unfold Trail.follow
    cases working : after.working with
    | false => rfl
    | true => simp [kept working]
  intro c started
  exact fair c (same.symm.trans started)

namespace Trial

def interplay : Interplay Console Trial Unit where
  state := Trial.console
  other _ := Trial.thread
  ours := Trial.call
  allowed before after := ∀ job, before.worker = some (.busy job) → after.worker = some (.busy job)
  always w := Sane w.console ∧ w.trail.Fair
  oursIdle w := by rw [call, followIdle]
  allowedIdle _ _ same := same

instance : Lenient Trial.interplay := ⟨fun _ _ same _ busy => same.trans busy⟩

abbrev Session := Interplay.Session Console Trial Answer

def Session.start (config : Configuration) (observer : Observer) : Session :=
  ⟨⟨.new config observer, { loaded := false }⟩, .done .nothing⟩

abbrev Session.take (s : Session) (turn : Interplay.Turn Operation Unit) : Session :=
  Interplay.Session.take Trial.interplay Operation.call fresh s turn

abbrev Session.play (s : Session) (turns : List (Interplay.Turn Operation Unit)) : Session :=
  Interplay.Session.play Trial.interplay Operation.call fresh s turns

structure Stands (vacant keen : Prop) (w : Trial) : Prop where
  sane : Sane w.console
  fair : w.trail.Fair
  keen : keen → w.trail.loaded = true ∧ (w.console.state = .idle → Ready w.console)
  alone : vacant → w.console.worker = none

section Stable
variable {vacant keen : Prop} {w : Trial}

theorem threadIdle (alone : w.console.worker = none) : w.thread = w := by
  rw [thread, advance, alone]
  rfl

theorem threadGoes (sane : Sane w.console) :
    w.thread = w ∨ w.console.worker ≠ none ∧ Goes w.console w.thread.console := by
  cases goes : w.console.advance with
  | none =>
    left
    rw [thread, goes]
    rfl
  | some after =>
    obtain ⟨job, mine, rfl⟩ := advanceBusy goes
    right
    rw [thread, goes]
    exact ⟨by simp [mine], advanceGoes sane mine⟩

theorem Stands.thread (h : Stands vacant keen w) : Stands vacant keen w.thread := by
  obtain same | ⟨busy, goes⟩ := threadGoes h.sane
  · rw [same]
    exact h
  · exact ⟨goes.sane, h.fair, fun k => ⟨(h.keen k).1, fun idle => goes.sane.ready idle
      (.inl goes.manned)⟩, fun v => absurd (h.alone v) busy⟩

end Stable

def standing (vacant keen : Prop) : Assertion Trial.interplay where
  holds := Stands vacant keen
  stable _ _ h := h.thread
  safe _ h := ⟨h.sane, h.fair⟩

def alone (keen : Prop) (f : Console → Prop) : Assertion Trial.interplay where
  holds w := Stands True keen w ∧ f w.console
  stable _ w h := by
    change Stands True keen w.thread ∧ f w.thread.console
    rw [threadIdle (h.1.alone trivial)]
    exact h
  safe _ h := ⟨h.1.sane, h.1.fair⟩

def accepted (keen : Prop) : Assertion Trial.interplay where
  holds w := Stands False keen w ∧ (w.trail.resumed = true ∨ w.trail.started.isSome)
  stable _ _ h := ⟨h.1.thread, h.2⟩
  safe _ h := ⟨h.1.sane, h.1.fair⟩

def opening : Assertion Trial.interplay where
  holds w := Stands False (w.trail.loaded = true) w ∧
    (w.console.programLoaded = true → w.trail.loaded = true)
  stable _ w h := by
    refine ⟨h.1.thread, ?_⟩
    change w.thread.console.programLoaded = true → _
    obtain same | ⟨-, goes⟩ := threadGoes h.1.sane
    · rw [same]
      exact h.2
    · exact fun loaded => h.2 (goes.loaded loaded)
  safe _ h := ⟨h.1.sane, h.1.fair⟩

theorem freshOpening {w : Trial} (h : standing False False w) : opening w.fresh :=
  ⟨⟨h.sane, fun _ started => (by cases started),
    fun loaded => ⟨loaded, fun idle => h.sane.ready idle (.inr loaded)⟩, False.elim⟩, id⟩

section Steps
variable {vacant keen : Prop} {w : Trial} {c d : Console}

/- What is allowed beside a thread at work: the mode may change only where it says nothing of a
program that has ended or not begun, and the console does not become idle. -/
class Calm (c d : Console) : Prop where
  initialized : d.initialized = c.initialized
  core : d.core = c.core
  worker : d.worker = c.worker
  loaded : d.programLoaded = c.programLoaded
  mode : c.control.mode = .halted ∨ c.control.mode = .stopped → d.control.mode = c.control.mode
  state : d.state = .idle → c.state = .idle

instance {c : Console} {snapshot : Registers} {instructions : Nat}
    {queue : Graphics.RenderQueue} {journal : Journal} {entry : Option UInt64} :
    Calm c { c with snapshot, instructions, queue, journal, entry } :=
  ⟨rfl, rfl, rfl, rfl, fun _ => rfl, id⟩

theorem Calm.sane (calm : Calm c d) (sane : Sane c) : Sane d where
  owned some := by
    rw [calm.core, calm.worker] at some
    exact calm.initialized.trans (sane.owned some)
  busy job mine := by
    obtain ⟨spent, announces⟩ := sane.busy job (calm.worker.symm.trans mine)
    refine ⟨?_, fun idle => announces (calm.state idle)⟩
    have halted (before : c.control.mode = .halted) : d.control.mode = .halted :=
      (calm.mode (.inl before)).trans before
    obtain ⟨core, left, phase⟩ := job
    cases phase with
    | unload => exact halted spent
    | leave exit | leaveCount exit =>
      cases exit with
      | halted => exact halted spent
      | _ => trivial
    | conclude after | announce before after =>
      cases after with
      | idle => exact ⟨halted spent.1, calm.loaded.trans spent.2⟩
      | _ => trivial
    | _ => trivial
  ended gone idle := by
    rw [calm.worker] at gone
    obtain ⟨halted, unloaded⟩ := sane.ended gone (calm.state idle)
    exact ⟨(calm.mode (.inl halted)).trans halted, calm.loaded.trans unloaded⟩
  alone nobody idle loaded := by
    have stopped := sane.alone (calm.worker.symm.trans nobody) (calm.state idle)
      (calm.loaded.symm.trans loaded)
    exact (calm.mode (.inr stopped)).trans stopped

theorem Calm.ready (calm : Calm c d) (ready : Ready c) : Ready d := by
  obtain ⟨loaded, stopped⟩ | ⟨unloaded, halted⟩ := ready
  · exact .inl ⟨calm.loaded.trans loaded, (calm.mode (.inr stopped)).trans stopped⟩
  · exact .inr ⟨calm.loaded.trans unloaded, (calm.mode (.inl halted)).trans halted⟩

theorem Calm.stands (calm : Calm w.console d) (h : Stands vacant keen w) :
    Stands vacant keen (w.call d) where
  sane := calm.sane h.sane
  fair := followFair h.fair fun working => by
    unfold Console.working at working ⊢
    rw [← calm.worker]
    exact working
  keen k := ⟨(h.keen k).1, fun idle => calm.ready ((h.keen k).2 (calm.state idle))⟩
  alone v := calm.worker.trans (h.alone v)

theorem noteCalm (c : Console) (observer : Observer) (journal : Journal) :
    Calm c { c with observer, journal } :=
  ⟨rfl, rfl, rfl, rfl, fun _ => rfl, id⟩

theorem standingQuiet : Quiet (standing vacant keen) := fun w journal h =>
  (noteCalm w.console _ journal).stands h

theorem lookStanding {α : Type} {f : Console → α} :
    Trial.interplay.Meets (standing vacant keen) (look f) fun _ => standing vacant keen :=
  .look fun _ h => h

theorem weaken {other : Prop} {w : Trial} (h : standing vacant keen w) (v : other → vacant) :
    standing other False w :=
  ⟨h.sane, h.fair, False.elim, fun o => h.alone (v o)⟩

theorem exchangeCalm {before after : Mode} (going : before.isFinal = false)
    (begun : before ≠ .stopped) (c : Console) :
    Calm c { c with control := (c.control.exchange before after).1 } := by
  refine ⟨rfl, rfl, rfl, rfl, fun mode => ?_, id⟩
  have other : c.control.mode ≠ before := by
    obtain halted | stopped := mode
    · rintro rfl
      rw [halted] at going
      cases going
    · exact fun same => begun (same.symm.trans stopped)
  simp [Control.exchange, other]

theorem controlStanding (f : Control → Control)
    (calm : ∀ c : Console, Calm c { c with control := f c.control }) :
    Trial.interplay.Meets (standing vacant keen) (Call.control f) fun _ => standing vacant keen :=
  controlMeets f fun _ h => (calm _).stands h

theorem stateCalm (c : Console) {after : Lifecycle} (away : after ≠ .idle) :
    Calm c { c with state := after } :=
  ⟨rfl, rfl, rfl, rfl, fun _ => rfl, fun idle => absurd idle away⟩

theorem enterStanding {after : Lifecycle} (away : after ≠ .idle) :
    Trial.interplay.Meets (standing vacant keen) (Call.enter after) fun _ =>
      standing vacant keen :=
  enterMeets after (fun _ h => (stateCalm _ away).stands h) fun _ _ h => (noteCalm _ _ _).stands h

theorem moveStanding (origins : List Lifecycle) {after : Lifecycle}
    (away : after ≠ .idle) :
    Trial.interplay.Meets (standing vacant keen) (Call.move origins after) fun moved =>
      cond moved (standing vacant keen) (standing vacant keen) :=
  moveMeets origins after (fun _ h _ => (stateCalm _ away).stands h) (fun _ h _ => h)
    fun _ _ h => (noteCalm _ _ _).stands h

end Steps

end Trial

end GameConsole.Console
