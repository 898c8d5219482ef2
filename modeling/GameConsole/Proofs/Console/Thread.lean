import GameConsole.Console.Execution
import GameConsole.Proofs.Syscall.Reports

/-! A step of the execution thread: what it leaves alone, and that it does not look at what has
been reported. -/
namespace GameConsole

theorem Core.Agrees.detach {δ : Type} {c d : Core δ} (agrees : c.Agrees d) :
    c.detach = d.detach := by
  simp only [Core.detach, Core.attach, agrees.guest.registers, agrees.guest.memory,
    agrees.retired, agrees.lastOpcode, agrees.lastFault]

namespace Console
open Syscall (Devices Hosted)

def active (c : Console) : Prop := c.state = .running ∨ c.state = .paused

def Ends : Lifecycle → Prop
  | .idle | .error => True
  | _ => False

def Concludes : Phase → Prop
  | .conclude after => Ends after
  | _ => True

theorem activeEnds {state : Lifecycle} (active : state = .running ∨ state = .paused)
    (ends : Ends state) : False := by
  obtain rfl | rfl := active <;> exact ends

def announces : Phase → Bool
  | .announce .. => true
  | _ => false

theorem announcesAnnounce {phase : Phase} (told : announces phase = true) :
    ∃ before after, phase = .announce before after := by
  cases phase with
  | announce before after => exact ⟨before, after, rfl⟩
  | _ => cases told

structure Apart (c d : Console) : Prop where
  config : d.config = c.config
  initialized : d.initialized = c.initialized
  core : d.core = c.core

/- A step of a thread that is at `phase`. It goes on with its work; or it enters the state in which
its run ends, and is to announce that; or it announces it, which it may not survive; or it leaves
with nothing to announce. -/
inductive Moves (c : Console) (phase : Phase) (d : Console) : Prop where
  | works (job : Job) (apart : Apart c d) (mine : d.worker = some (.busy job))
      (state : d.state = c.state) (observer : d.observer = c.observer)
      (before : announces phase = false) (after : announces job.phase = false)
      (concludes : Concludes job.phase)
  | enters (job : Job) (apart : Apart c d) (mine : d.worker = some (.busy job))
      (observer : d.observer = c.observer) (before : announces phase = false)
      (active : c.active) (ends : Ends d.state) (after : job.phase = .announce c.state d.state)
  | tells (before after : Lifecycle) (apart : Apart c d)
      (gone : d.worker = some .died ∨ ∃ core, d.worker = some (.finished core))
      (state : d.state = c.state) (heard : d.observer.heard = c.observer.heard.push after)
      (told : phase = .announce before after)
  | leaves (core : Core Unit) (apart : Apart c d) (gone : d.worker = some (.finished core))
      (state : d.state = c.state) (observer : d.observer = c.observer)
      (before : announces phase = false)

structure Fit (devices : Hosted Devices) : Prop where
  deaf : devices.dispatcher.Deaf
  clear : devices.devices.graphics.outbox = #[]

structure Installed (config : Configuration) (devices : Hosted Devices) : Prop where
  handlers : devices.dispatcher.handlers = (Devices.dispatcher config.neoMode).1.handlers
  limit : devices.devices.graphics.limit = config.decoder.maxIndirectDepth

theorem Installed.respects {config : Configuration} {devices : Hosted Devices}
    (installed : Installed config devices) {R : Devices → Devices → Prop}
    (respects : (Devices.dispatcher config.neoMode).1.Respects R) :
    devices.dispatcher.Respects R :=
  fun number handler place => respects number handler (installed.handlers ▸ place)

structure Sound (c : Console) : Prop where
  fit : Fit c.devices
  calm : c.observer.fearsome = none
  worker : ∀ w, c.worker = some w →
    (∃ job, w = .busy job ∧ Concludes job.phase) ∨ ∃ core, w = .finished core

structure Kept (c d : Console) : Prop where
  config : d.config = c.config
  initialized : d.initialized = c.initialized
  core : d.core = c.core
  entry : d.entry = c.entry
  fit : Fit d.devices
  calm : d.observer.fearsome = none
  state : d.state = c.state ∨ c.active ∧ Ends d.state

structure Advanced (c d : Console) : Prop extends Kept c d where
  worker : (∃ job, d.worker = some (.busy job) ∧ Concludes job.phase) ∨
    ∃ core, d.worker = some (.finished core)

def Alike (c d : Console) : Prop := ∃ journal, d = { c with journal }

def executed (c : Console) (job : Job) : Core (Hosted Devices) × Ending × List Signal :=
  (job.core.attach c.devices c.journal).execute (some Hosted.handler) c.control

def ran (c : Console) (job : Job) (core : Core (Hosted Devices)) (ending : Ending) : Console :=
  let job := { job with core := core.detach }
  let c := { c with devices := core.devices, journal := core.journal }
  match ending with
  | .continued => c.takeOutbox.2.next job (.deliver c.takeOutbox.1)
  | .halted => c.next job (.settle .halted)
  | .faulted => c.next job (.settle .faulted)

theorem performRan {c : Console} {job : Job} {ending : Ending}
    (silent : (c.executed job).2 = (ending, [])) :
    c.perform job = c.ran job (c.executed job).1 ending := by
  have all : (job.core.attach c.devices c.journal).execute (some Hosted.handler) c.control =
      ((c.executed job).1, ending, []) := by rw [← silent]; rfl
  unfold perform
  rw [all]
  cases ending <;> rfl

theorem executedAlike {c d : Console} (deaf : c.devices.dispatcher.Deaf) (job : Job)
    (same : d.devices = c.devices) :
    ∃ ending, (c.executed job).2 = (ending, []) ∧ (d.executed job).2 = (ending, []) ∧
      (c.executed job).1.Agrees (d.executed job).1 ∧
      (c.executed job).1.devices.dispatcher.handlers = c.devices.dispatcher.handlers ∧
      (c.executed job).1.devices.dispatcher.Deaf := by
  have agrees : (job.core.attach c.devices c.journal).Agrees
      (job.core.attach d.devices d.journal) := ⟨⟨rfl, rfl, same.symm⟩, rfl, rfl, rfl⟩
  exact executeSame (Hosted.handlerDiscreet _) agrees ⟨rfl, deaf⟩ c.control d.control

theorem executedKeeps {F : Syscall.GraphicsDevice → Prop} {c : Console} (job : Job)
    (respects : c.devices.dispatcher.Respects (Devices.Same F))
    (known : F c.devices.devices.graphics) : F (c.executed job).1.devices.devices.graphics := by
  have begins : Core.Related (Hosted.Related (Devices.Same F))
      (job.core.attach c.devices c.journal) (job.core.attach c.devices c.journal) :=
    ⟨⟨rfl, rfl, rfl, respects, rfl, known⟩, rfl, rfl, rfl⟩
  obtain ⟨-, -, -, -, -, -, after⟩ :=
    executeRelated rfl (Hosted.trapsRelated c.control c.control) begins
  exact after.guest.devices.devices.known

theorem executedStopped {c : Console} (fit : Fit c.devices) {job : Job} {ending : Ending}
    (silent : (c.executed job).2 = (ending, [])) (stops : ending ≠ .continued) :
    Fit (c.executed job).1.devices := by
  have same : (c.executed job).1.devices = c.devices :=
    executeStopped (by rw [← executed, silent]; exact stops)
  rw [same]
  exact fit

theorem performAlike {c d : Console} (deaf : c.devices.dispatcher.Deaf) (job : Job)
    (alike : c.Alike d) : (c.perform job).Alike (d.perform job) := by
  obtain ⟨journal, rfl⟩ := alike
  obtain ⟨ending, silent, silent', agrees, -⟩ :=
    executedAlike (d := { c with journal }) deaf job rfl
  rw [performRan silent, performRan silent']
  generalize (c.executed job).1 = core,
    (Console.executed { c with journal } job).1 = other at agrees
  have devices := agrees.guest.devices
  have detached := agrees.detach
  simp only [ran, ← devices, ← detached]
  cases ending <;> exact ⟨_, rfl⟩

theorem announceEnds (c : Console) (core : Core Unit) (left : Nat) (before after : Lifecycle) :
    c.advanceJob ⟨core, left, .announce before after⟩ =
      if c.observer.fearsome = some after then { c.tell before after with worker := some .died }
      else (c.tell before after).finish ⟨core, left, .announce before after⟩ := rfl

theorem announceCalm {c : Console} (calm : c.observer.fearsome = none) (core : Core Unit)
    (left : Nat) (before after : Lifecycle) :
    c.advanceJob ⟨core, left, .announce before after⟩ =
      (c.tell before after).finish ⟨core, left, .announce before after⟩ := by
  rw [announceEnds, calm, if_neg nofun]

theorem advanceJobAlike {c d : Console} (sound : Sound c) (job : Job) (alike : c.Alike d) :
    (c.advanceJob job).Alike (d.advanceJob job) := by
  obtain ⟨core, left, phase⟩ := job
  cases phase with
  | execute => exact performAlike sound.fit.deaf _ alike
  | askState | askMode | judge | goOn | conclude =>
    obtain ⟨journal, rfl⟩ := alike
    dsimp only [advanceJob]
    split <;> exact ⟨_, rfl⟩
  | announce before after =>
    obtain ⟨journal, rfl⟩ := alike
    have calm : ({ c with journal } : Console).observer.fearsome = none := sound.calm
    rw [announceCalm sound.calm, announceCalm calm]
    exact ⟨_, rfl⟩
  | deliver pending =>
    obtain ⟨journal, rfl⟩ := alike
    cases pending <;> exact ⟨_, rfl⟩
  | leaveCount exit =>
    obtain ⟨journal, rfl⟩ := alike
    obtain _ | _ | (_ | _) | _ := exit <;> exact ⟨_, rfl⟩
  | _ =>
    obtain ⟨journal, rfl⟩ := alike
    exact ⟨_, rfl⟩

theorem jobStays (c : Console) (job : Job) :
    Apart c (c.advanceJob job) ∧ (c.advanceJob job).worker.isSome := by
  obtain ⟨core, left, phase⟩ := job
  cases phase with
  | execute =>
    dsimp only [advanceJob, perform]
    split <;> exact ⟨⟨rfl, rfl, rfl⟩, rfl⟩
  | askState | askMode | judge | goOn | conclude | announce =>
    dsimp only [advanceJob]
    split <;> exact ⟨⟨rfl, rfl, rfl⟩, rfl⟩
  | deliver pending => cases pending <;> exact ⟨⟨rfl, rfl, rfl⟩, rfl⟩
  | leaveCount exit => obtain _ | _ | (_ | _) | _ := exit <;> exact ⟨⟨rfl, rfl, rfl⟩, rfl⟩
  | _ => exact ⟨⟨rfl, rfl, rfl⟩, rfl⟩

section Moving
variable {c d : Console} {job : Job}

theorem performMoves (before : announces job.phase = false) :
    Moves c job.phase (c.perform job) := by
  unfold perform
  dsimp only
  split <;> exact .works _ ⟨rfl, rfl, rfl⟩ rfl rfl rfl before rfl trivial

theorem departMoves (apart : Apart c d) (state : d.state = c.state)
    (observer : d.observer = c.observer) (job : Job) (before : announces job.phase = false)
    (exit : Exit) : Moves c job.phase (d.depart job exit) := by
  have still {worker : Option Worker} {journal : Journal} :
      Apart c { d with worker, journal } := ⟨apart.config, apart.initialized, apart.core⟩
  obtain _ | _ | (_ | _) | _ := exit
  · exact .leaves _ still rfl state observer before
  all_goals exact .works _ still rfl state observer before rfl trivial

theorem jobMoves (concludes : Concludes job.phase) : Moves c job.phase (c.advanceJob job) := by
  obtain ⟨core, left, phase⟩ := job
  cases phase with
  | execute => exact performMoves rfl
  | askState | askMode | judge | goOn =>
    dsimp only [advanceJob]
    split <;> exact .works _ ⟨rfl, rfl, rfl⟩ rfl rfl rfl rfl rfl trivial
  | askStop | confirmMode | confirmStop =>
    dsimp only [advanceJob, next]
    split <;> exact .works _ ⟨rfl, rfl, rfl⟩ rfl rfl rfl rfl rfl trivial
  | conclude after =>
    dsimp only [advanceJob]
    split
    case isTrue active => exact .enters _ ⟨rfl, rfl, rfl⟩ rfl rfl rfl active concludes rfl
    case isFalse => exact .leaves _ ⟨rfl, rfl, rfl⟩ rfl rfl rfl rfl
  | announce before after =>
    dsimp only [advanceJob]
    split
    · exact .tells before after ⟨rfl, rfl, rfl⟩ (.inl rfl) rfl rfl rfl
    · exact .tells before after ⟨rfl, rfl, rfl⟩ (.inr ⟨core, rfl⟩) rfl rfl rfl
  | leaveCount exit =>
    have counted : Apart c { c with instructions := core.retired } := ⟨rfl, rfl, rfl⟩
    exact departMoves counted rfl rfl ⟨core, left, .leaveCount exit⟩ rfl exit
  | showCount ran => cases ran <;> exact .works _ ⟨rfl, rfl, rfl⟩ rfl rfl rfl rfl rfl trivial
  | deliver pending => cases pending <;> exact .works _ ⟨rfl, rfl, rfl⟩ rfl rfl rfl rfl rfl trivial
  | _ => exact .works _ ⟨rfl, rfl, rfl⟩ rfl rfl rfl rfl rfl trivial

end Moving

section Advancing
variable {c d : Console} {job : Job}

theorem Kept.busy (kept : Kept c d) (concludes : Concludes job.phase) : Advanced c (d.busy job) :=
  ⟨⟨kept.config, kept.initialized, kept.core, kept.entry, kept.fit, kept.calm, kept.state⟩,
    .inl ⟨_, rfl, concludes⟩⟩

theorem Kept.finish (kept : Kept c d) : Advanced c (d.finish job) :=
  ⟨⟨kept.config, kept.initialized, kept.core, kept.entry, kept.fit, kept.calm, kept.state⟩,
    .inr ⟨_, rfl⟩⟩

theorem performAdvanced (sound : Sound c) : Advanced c (c.perform job) := by
  obtain ⟨ending, silent, -, -, -, deaf⟩ := executedAlike (d := c) sound.fit.deaf job rfl
  have stopped (stops : ending ≠ .continued) : Fit (c.executed job).1.devices :=
    executedStopped sound.fit silent stops
  rw [performRan silent]
  cases ending with
  | continued =>
    exact ⟨⟨rfl, rfl, rfl, rfl, ⟨deaf, rfl⟩, sound.calm, .inl rfl⟩, .inl ⟨_, rfl, trivial⟩⟩
  | halted =>
    exact ⟨⟨rfl, rfl, rfl, rfl, stopped (by simp), sound.calm, .inl rfl⟩, .inl ⟨_, rfl, trivial⟩⟩
  | faulted =>
    exact ⟨⟨rfl, rfl, rfl, rfl, stopped (by simp), sound.calm, .inl rfl⟩, .inl ⟨_, rfl, trivial⟩⟩

theorem departAdvanced (kept : Kept c d) (exit : Exit) : Advanced c (d.depart job exit) := by
  have noted (e : Event) : Kept c (d.note e) :=
    ⟨kept.config, kept.initialized, kept.core, kept.entry, kept.fit, kept.calm, kept.state⟩
  obtain _ | _ | (_ | _) | _ := exit
  · exact kept.finish
  · exact kept.busy trivial
  all_goals exact (noted _).busy trivial

theorem advanceJobAdvanced (sound : Sound c) (mine : c.worker = some (.busy job)) :
    Advanced c (c.advanceJob job) := by
  have concludes : Concludes job.phase := by
    obtain ⟨job', same, concludes⟩ | ⟨core, same⟩ := sound.worker _ mine
    · cases same
      exact concludes
    · cases same
  have here : Kept c c := ⟨rfl, rfl, rfl, rfl, sound.fit, sound.calm, .inl rfl⟩
  obtain ⟨core, left, phase⟩ := job
  cases phase with
  | execute => exact performAdvanced sound
  | askState | askMode | judge | goOn =>
    dsimp only [advanceJob]
    split <;> exact here.busy trivial
  | askStop | confirmMode | confirmStop =>
    refine here.busy ?_
    dsimp only
    split <;> trivial
  | conclude after =>
    dsimp only [advanceJob]
    split
    case isTrue active =>
      have ended : Kept c { c with state := after } :=
        ⟨rfl, rfl, rfl, rfl, sound.fit, sound.calm, .inr ⟨active, concludes⟩⟩
      exact ended.busy trivial
    case isFalse => exact here.finish
  | announce before after =>
    have told : Kept c (c.tell before after) :=
      ⟨rfl, rfl, rfl, rfl, sound.fit, sound.calm, .inl rfl⟩
    rw [announceCalm sound.calm]
    exact told.finish
  | leaveCount exit =>
    have counted : Kept c { c with instructions := core.retired } :=
      ⟨rfl, rfl, rfl, rfl, sound.fit, sound.calm, .inl rfl⟩
    exact departAdvanced counted exit
  | showCount ran =>
    have counted : Kept c { c with instructions := core.retired } :=
      ⟨rfl, rfl, rfl, rfl, sound.fit, sound.calm, .inl rfl⟩
    cases ran <;> exact counted.busy trivial
  | deliver pending =>
    cases pending with
    | nil => exact here.busy trivial
    | cons first rest =>
      have queued : Kept c { c with queue := c.queue.deliver first } :=
        ⟨rfl, rfl, rfl, rfl, sound.fit, sound.calm, .inl rfl⟩
      exact queued.busy trivial
  | _ =>
    exact ⟨⟨rfl, rfl, rfl, rfl, sound.fit, sound.calm, .inl rfl⟩, .inl ⟨_, rfl, trivial⟩⟩

theorem advanceBusy (goes : c.advance = some d) :
    ∃ job, c.worker = some (.busy job) ∧ c.advanceJob job = d := by
  unfold advance at goes
  split at goes
  case h_1 job mine => exact ⟨job, mine, Option.some.inj goes⟩
  case h_2 => cases goes

theorem breakDownMoves {wreck : Wreck} (breaks : c.breakDown wreck = some d) :
    ∃ job, c.worker = some (.busy job) ∧ Moves c job.phase d := by
  unfold breakDown at breaks
  split at breaks
  case h_1 mine | h_2 mine =>
    cases breaks
    exact ⟨_, mine, .works _ ⟨rfl, rfl, rfl⟩ rfl rfl rfl rfl rfl trivial⟩
  case h_3 => cases breaks

theorem advanceAlone (alone : c.worker = none) : c.advance.getD c = c := by
  rw [advance, alone]
  rfl

theorem advanceWorks (mine : c.worker = some (.busy job)) :
    c.advance.getD c = c.advanceJob job := by
  rw [advance, mine]
  rfl

theorem Advanced.sound (advanced : Advanced c d) : Sound d where
  fit := advanced.fit
  calm := advanced.calm
  worker w same := by
    obtain ⟨job, busy, concludes⟩ | ⟨core, finished⟩ := advanced.worker
    · exact .inl ⟨job, Option.some.inj (same.symm.trans busy), concludes⟩
    · exact .inr ⟨core, Option.some.inj (same.symm.trans finished)⟩

theorem Advanced.working (advanced : Advanced c d) : d.worker.isSome := by
  obtain ⟨job, busy, -⟩ | ⟨core, finished⟩ := advanced.worker
  · rw [busy]; rfl
  · rw [finished]; rfl

end Advancing

end Console

end GameConsole
