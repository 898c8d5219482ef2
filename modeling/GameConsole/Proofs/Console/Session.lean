import GameConsole.Proofs.Console.Contracts
import GameConsole.Proofs.Console.Thread

/-! Sessions with a console: calls of the controller, one after the other, while the thread that
they have started goes on. Beside the console stands what would have become of it if the last call
had not been made. -/
namespace GameConsole.Console

def Refuses {α : Type} : Except ConsoleError α → Prop
  | .error (.invalidState ..) | .error .notInitialized | .error (.stackReserve _) => True
  | _ => False

def Answer.Rejects : Answer → Prop
  | .nothing => False
  | .flag accepted => accepted = false
  | .ready result => Refuses result
  | .loaded result => Refuses result
  | .bytes result => Refuses result

def Answer.yes : Answer → Bool
  | .flag accepted => accepted
  | _ => false

theorem doneYes {p : Procedure Console Answer} (yes : p.result?.any Answer.yes = true) :
    p = .done (.flag true) := by
  cases p with
  | act change next => cases yes
  | done answer =>
    cases answer with
    | flag accepted => rw [show accepted = true from yes]
    | _ => cases yes

def brief : Configuration := { memory := { sizeBytes := 16 } }

def loadBrief : List (Interplay.Turn Operation Unit) :=
  .begin (.setUp (.memory true)) :: .replicate 11 .proceed ++
    .begin (.load (.rawImage [0xF4] 0)) :: .replicate 19 .proceed

/- A console as seen by whoever does not hear its reports. The core of a thread that has ended may
as well be with the controller. -/
def view (c : Console) : Console :=
  match c.worker with
  | some (.finished core) => { c with journal := .empty, worker := none, core := some core }
  | _ => { c with journal := .empty }

/- A console with its double, on which only the thread has acted since the last call began, and
whether a step of the call has changed the state. -/
structure Watch where
  console : Console
  alone : Console
  moved : Bool

namespace Watch

def thread (w : Watch) : Watch :=
  match w.console.advance with
  | some after => { w with console := after, alone := w.alone.advance.getD w.alone }
  | none => w

def call (w : Watch) (after : Console) : Watch :=
  { w with console := after, moved := w.moved || after.state ≠ w.console.state }

def fresh (w : Watch) : Watch := ⟨w.console, w.console, false⟩

end Watch

def interplay : Interplay Console Watch Unit where
  state := Watch.console
  other _ := Watch.thread
  ours := Watch.call
  allowed before after := ∀ job, before.worker = some (.busy job) → after.worker = some (.busy job)
  oursIdle w := by simp [Watch.call]
  allowedIdle _ _ same := same

abbrev Session := Interplay.Session Console Watch Answer

def Session.start (config : Configuration) : Session :=
  ⟨⟨.new config {}, .new config {}, false⟩, .done .nothing⟩

abbrev Session.take (s : Session) (turn : Interplay.Turn Operation Unit) : Session :=
  Interplay.Session.take interplay Operation.call Watch.fresh s turn

abbrev Session.play (s : Session) (turns : List (Interplay.Turn Operation Unit)) : Session :=
  Interplay.Session.play interplay Operation.call Watch.fresh s turns

theorem buildFit {config : Configuration} {host : Provision} {core : Core Unit}
    {devices : Syscall.Hosted Syscall.Devices}
    (built : (Call.build config host).1 = .ok (core, devices)) :
    Fit devices ∧ Installed config devices := by
  unfold Call.build at built
  split at built
  · cases built
  · dsimp only at built
    split at built
    · cases built
    · cases built
      exact ⟨⟨Syscall.Devices.dispatcherDeaf config.neoMode, rfl⟩, rfl, rfl⟩

structure Orderly (c : Console) : Prop where
  exclusive : c.core = none ∨ c.worker = none
  active : c.state = .running ∨ c.state = .paused → c.worker.isSome ∧ c.core = none
  lasting : c.state ≠ .booting ∧ c.state ≠ .stopping

structure Settled (c : Console) : Prop extends Orderly c, Sound c where
  manned : c.core.isSome ∨ c.worker.isSome → c.initialized = true

structure Grounded (c : Console) : Prop where
  fit : Fit c.devices
  calm : c.observer.fearsome = none
  alone : c.worker = none
  manned : c.core.isSome → c.initialized = true

structure Loaded (c : Console) (core : Core Unit) : Prop where
  fit : Fit c.devices
  state : c.state = .idle
  ready : c.programLoaded = true
  alone : c.worker = none
  core : c.core = some core
  control : c.control = {}

structure Halting (c : Console) : Prop extends Sound c where
  state : c.state = .stopping
  working : c.worker.isSome
  core : c.core = none
  initialized : c.initialized = true

section Thread
variable {c d : Console} {job : Job}

theorem Settled.advanced (settled : Settled c) (working : c.worker.isSome)
    (advanced : Advanced c d) : Settled d := by
  have mine : c.core = none := settled.exclusive.resolve_right fun none => by
    rw [none] at working
    cases working
  have away : d.core = none := advanced.core.trans mine
  refine ⟨⟨.inl away, fun _ => ⟨advanced.working, away⟩, ?_⟩, advanced.sound,
    fun _ => advanced.initialized.trans (settled.manned (.inr working))⟩
  obtain same | ⟨-, ends⟩ := advanced.state
  · rw [same]
    exact settled.lasting
  · constructor <;> intro same <;> rw [same] at ends <;> exact ends

theorem Halting.advanced (halting : Halting c) (advanced : Advanced c d) : Halting d where
  toSound := advanced.sound
  state := by
    obtain same | ⟨active, -⟩ := advanced.state
    · exact same.trans halting.state
    · obtain running | paused := active
      · cases halting.state.symm.trans running
      · cases halting.state.symm.trans paused
  working := advanced.working
  core := advanced.core.trans halting.core
  initialized := advanced.initialized.trans halting.initialized

theorem viewAlike (alike : c.Alike d) : c.view = d.view := by
  obtain ⟨journal, rfl⟩ := alike
  unfold view
  rfl

theorem viewBusy (busy : c.worker = some (.busy job)) (same : c.view = d.view) : c.Alike d := by
  have plain : c.view = { c with journal := .empty } := by rw [view, busy]
  rw [plain] at same
  unfold view at same
  split at same
  · have none : c.worker = none := congrArg (fun e : Console => e.worker) same
    cases busy.symm.trans none
  · refine ⟨d.journal, ?_⟩
    have fields := congrArg (fun e : Console => { e with journal := d.journal }) same
    exact fields.symm

theorem viewAdvanced (sound : Sound c) (busy : c.worker = some (.busy job))
    (same : c.view = d.view) :
    d.advance = some (d.advanceJob job) ∧ (c.advanceJob job).view = (d.advanceJob job).view := by
  have alike := viewBusy busy same
  refine ⟨?_, viewAlike (advanceJobAlike sound job alike)⟩
  obtain ⟨journal, rfl⟩ := alike
  unfold advance
  dsimp only
  rw [busy]

end Thread

structure Untouched (w : Watch) : Prop where
  unmoved : w.moved = false
  same : w.console.view = w.alone.view

section Watching
variable {w : Watch}

theorem threadIdle (alone : w.console.worker = none) : w.thread = w := by
  unfold Watch.thread advance
  rw [alone]

theorem threadTurn (sound : Sound w.console) :
    w.thread = w ∨ w.console.worker.isSome ∧ Advanced w.console w.thread.console ∧
      (Untouched w → Untouched w.thread) := by
  cases mine : w.console.worker with
  | none => exact .inl (threadIdle mine)
  | some worker =>
    obtain ⟨job, rfl, -⟩ | ⟨core, rfl⟩ := sound.worker worker mine
    · have goes : w.console.advance = some (w.console.advanceJob job) := by rw [advance, mine]
      refine .inr ⟨rfl, ?_, fun untouched => ⟨?_, ?_⟩⟩
      · rw [Watch.thread, goes]
        exact advanceJobAdvanced sound mine
      · rw [Watch.thread, goes]
        exact untouched.unmoved
      · obtain ⟨follows, same⟩ := viewAdvanced sound mine untouched.same
        rw [Watch.thread, goes, follows]
        exact same
    · left
      unfold Watch.thread advance
      rw [mine]

end Watching

def ended (rejected : Prop) : Assertion interplay where
  holds w := Settled w.console ∧ (rejected → Untouched w)
  stable _ w h := by
    obtain ⟨settled, rejects⟩ := h
    change Settled w.thread.console ∧ (rejected → Untouched w.thread)
    obtain same | ⟨working, advanced, untouched⟩ := threadTurn settled.toSound
    · rw [same]
      exact ⟨settled, rejects⟩
    · exact ⟨settled.advanced working advanced, fun r => untouched (rejects r)⟩

def undisturbed : Assertion interplay := ended True

def lapsed : Assertion interplay where
  holds w := undisturbed w ∧ ¬ w.console.active
  stable t w h := by
    refine ⟨undisturbed.stable t w h.1, ?_⟩
    change ¬ w.thread.console.active
    obtain same | ⟨-, advanced, -⟩ := threadTurn h.1.1.toSound
    · rw [same]
      exact h.2
    · obtain same | ⟨active, -⟩ := advanced.state
      · unfold active
        rw [same]
        exact h.2
      · exact absurd active h.2

def resting (f : Console → Prop) : Assertion interplay where
  holds w := undisturbed w ∧ w.console.worker = none ∧ f w.console
  stable _ w h := by
    change undisturbed w.thread ∧ w.thread.console.worker = none ∧ f w.thread.console
    rw [threadIdle h.2.1]
    exact h

def grounded (f : Console → Prop) : Assertion interplay where
  holds w := Grounded w.console ∧ f w.console
  stable _ w h := by
    change Grounded w.thread.console ∧ f w.thread.console
    rw [threadIdle h.1.alone]
    exact h

def loaded : Assertion interplay where
  holds w := Settled w.console ∧ ∃ core, Loaded w.console core
  stable _ w h := by
    obtain ⟨settled, core, isLoaded⟩ := h
    change Settled w.thread.console ∧ ∃ core, Loaded w.thread.console core
    rw [threadIdle isLoaded.alone]
    exact ⟨settled, core, isLoaded⟩

def manned : Assertion interplay where
  holds w := Settled w.console ∧ w.console.worker.isSome
  stable _ w h := by
    change Settled w.thread.console ∧ w.thread.console.worker.isSome
    obtain same | ⟨working, advanced, -⟩ := threadTurn h.1.toSound
    · rw [same]
      exact h
    · exact ⟨h.1.advanced working advanced, advanced.working⟩

def halting : Assertion interplay where
  holds w := Halting w.console
  stable _ w h := by
    change Halting w.thread.console
    obtain same | ⟨-, advanced, -⟩ := threadTurn h.toSound
    · rw [same]
      exact h
    · exact h.advanced advanced

end GameConsole.Console
