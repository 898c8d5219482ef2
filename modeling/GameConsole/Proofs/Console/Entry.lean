import GameConsole.Proofs.Console.Loading
import GameConsole.Proofs.Console.Readiness

/-! Where the program begins that a console has. The controller keeps the entry, and both threads
see whether a program is loaded; the two go together until the processor halts. A thread whose
program has halted takes the program out, and the entry stays where it is. -/
namespace GameConsole

namespace Control

theorem exchangeHalted {before after : Mode} (origin : before ≠ .halted) (goal : after ≠ .halted)
    (c : Control) : (c.exchange before after).1.mode = .halted ↔ c.mode = .halted := by
  unfold exchange
  split
  case isTrue same =>
    rw [same]
    exact ⟨fun halted => absurd halted goal, fun halted => absurd halted origin⟩
  case isFalse => exact Iff.rfl

theorem pauseHalted (c : Control) : c.pause.1.mode = .halted ↔ c.mode = .halted :=
  exchangeHalted (by decide) (by decide) c

theorem resumeHalted (c : Control) : c.resume.1.mode = .halted ↔ c.mode = .halted :=
  exchangeHalted (by decide) (by decide) c

theorem signalAllHalted (c : Control) (signals : List Signal) :
    (c.signalAll signals).mode = .halted ↔ c.mode = .halted := by
  induction signals generalizing c with
  | nil => exact Iff.rfl
  | cons signal rest ih =>
    refine (ih (c.signal signal)).trans ?_
    cases signal with
    | pause => exact c.pauseHalted
    | resume => exact c.resumeHalted
    | requestStop => exact Iff.rfl

end Control

namespace Console

def Answer.entry? : Answer → Option UInt64
  | .loaded result => result.toOption
  | _ => none

/- The entry that the last load to succeed has given. -/
def latestEntry (answers : List Answer) : Option UInt64 :=
  (answers.filterMap Answer.entry?).getLast?

namespace Entry
open Procedure (look alter)

variable {config : Configuration} {latest : Option UInt64} {c d : Console} {job : Job}

def Winds : Phase → Prop
  | .showRegisters _ | .showCount _ | .goOn | .judge => True
  | .leave .halted | .leaveCount .halted | .unload => True
  | _ => False

def Suits (halted : Prop) : Phase → Prop
  | .leave .halted | .leaveCount .halted | .unload => halted
  | .begin | .confirmStop | .execute | .settle _ => ¬ halted
  | _ => True

def Halted (c : Console) : Prop := c.control.mode = .halted

/- What a console has to say of its program, after loads of which the last to succeed has given
`latest`. -/
structure Entered (config : Configuration) (latest : Option UInt64) (c : Console) : Prop where
  config : c.config = config
  reported : ∀ entry, c.entry = some entry → latest = some entry
  named : c.programLoaded = true → c.entry.isSome
  spent : c.entry.isSome → c.programLoaded = false → Halted c
  unspent : c.programLoaded = true → Halted c →
    ∃ job, c.worker = some (.busy job) ∧ Winds job.phase
  suits : ∀ job, c.worker = some (.busy job) → Suits (Halted c) job.phase
  down : c.initialized = false → c.entry = none ∧ c.worker = none
  owned : c.core.isSome → c.initialized = true

structure Framed (c d : Console) : Prop where
  config : d.config = c.config
  entry : d.entry = c.entry
  loaded : d.programLoaded = c.programLoaded
  halted : Halted d ↔ Halted c
  initialized : d.initialized = c.initialized
  core : d.core = c.core

theorem Entered.up (h : Entered config latest c) (manned : c.worker ≠ none) :
    c.initialized = true := by
  by_contra down
  exact manned (h.down (eq_false_of_ne_true down)).2

theorem Entered.goes (h : Entered config latest c) (manned : c.worker ≠ none)
    (framed : Framed c d) (unspent : d.programLoaded = true → Halted d →
      ∃ job, d.worker = some (.busy job) ∧ Winds job.phase)
    (suits : ∀ job, d.worker = some (.busy job) → Suits (Halted d) job.phase) :
    Entered config latest d where
  config := framed.config.trans h.config
  reported entry found := h.reported entry (framed.entry.symm.trans found)
  named loaded := framed.entry ▸ h.named (framed.loaded.symm.trans loaded)
  spent named unloaded :=
    framed.halted.mpr (h.spent (framed.entry ▸ named) (framed.loaded.symm.trans unloaded))
  unspent := unspent
  suits := suits
  down out := by cases (h.up manned).symm.trans (framed.initialized.symm.trans out)
  owned _ := framed.initialized.trans (h.up manned)

theorem Entered.winds (h : Entered config latest c) (mine : c.worker = some (.busy job))
    (framed : Framed c d) (loaded : d.programLoaded = true) (halted : Halted d) :
    Winds job.phase := by
  obtain ⟨job', same, winding⟩ :=
    h.unspent (framed.loaded.symm.trans loaded) (framed.halted.mp halted)
  cases mine.symm.trans same
  exact winding

theorem Entered.works {phase : Phase} {left : Nat} {core : Core Unit}
    (h : Entered config latest c) (mine : c.worker = some (.busy job)) (framed : Framed c d)
    (suits : Suits (Halted d) phase) (winds : Winds job.phase → Halted d → Winds phase) :
    Entered config latest (d.busy ⟨core, left, phase⟩) := by
  refine h.goes (by rw [mine]; nofun)
    ⟨framed.config, framed.entry, framed.loaded, framed.halted, framed.initialized, framed.core⟩
    (fun loaded halted => ⟨_, rfl, winds (h.winds mine framed loaded halted) halted⟩) ?_
  rintro _ ⟨⟩
  exact suits

theorem Entered.ends (h : Entered config latest c) (mine : c.worker = some (.busy job))
    (framed : Framed c d) (past : ¬ Winds job.phase)
    (gone : d.worker = some .died ∨ ∃ core, d.worker = some (.finished core)) :
    Entered config latest d := by
  refine h.goes (by rw [mine]; nofun) framed
    (fun loaded halted => absurd (h.winds mine framed loaded halted) past) fun job' found => ?_
  obtain died | ⟨core, finished⟩ := gone
  · cases died.symm.trans found
  · cases finished.symm.trans found

theorem departEntered (h : Entered config latest c) (mine : c.worker = some (.busy job))
    (framed : Framed c d) {exit : Exit} (leaves : job.phase = .leaveCount exit) :
    Entered config latest (d.depart job exit) := by
  have suits := h.suits job mine
  have noted (e : Event) : Framed c (d.note e) :=
    ⟨framed.config, framed.entry, framed.loaded, framed.halted, framed.initialized, framed.core⟩
  rw [leaves] at suits
  obtain _ | _ | (_ | _) | _ := exit
  · have left : Framed c (d.finish job) :=
      ⟨framed.config, framed.entry, framed.loaded, framed.halted, framed.initialized, framed.core⟩
    exact h.ends mine left (by rw [leaves]; exact id) (.inr ⟨_, rfl⟩)
  · exact h.works mine framed (framed.halted.mpr suits) fun _ _ => trivial
  all_goals exact h.works mine (noted _) trivial (by rw [leaves]; exact False.elim)

theorem executeEntered {core : Core Unit} {left : Nat} (h : Entered config latest c)
    (mine : c.worker = some (.busy ⟨core, left, .execute⟩)) :
    Entered config latest (c.advanceJob ⟨core, left, .execute⟩) := by
  have going : ¬ Halted c := h.suits _ mine
  have framed {devices : Syscall.Hosted Syscall.Devices} {journal : Journal}
      {signals : List Signal} :
      Framed c { c with devices, journal, control := c.control.signalAll signals } :=
    ⟨rfl, rfl, rfl, Control.signalAllHalted _ _, rfl, rfl⟩
  dsimp only [advanceJob, perform]
  split
  · exact h.works mine ⟨rfl, rfl, rfl, Control.signalAllHalted _ _, rfl, rfl⟩ trivial False.elim
  · exact h.works mine framed (fun halted => going (framed.halted.mp halted)) False.elim
  · exact h.works mine framed (fun halted => going (framed.halted.mp halted)) False.elim

theorem settleEntered {core : Core Unit} {left : Nat} {mode : Mode} (h : Entered config latest c)
    (mine : c.worker = some (.busy ⟨core, left, .settle mode⟩)) :
    Entered config latest (c.advanceJob ⟨core, left, .settle mode⟩) := by
  have going : ¬ Halted c := h.suits _ mine
  refine ⟨h.config, h.reported, h.named,
    fun named unloaded => absurd (h.spent named unloaded) going,
    fun _ _ => ⟨_, rfl, trivial⟩, ?_, fun out => ?_, h.owned⟩
  · rintro _ ⟨⟩
    trivial
  · cases (h.up (by rw [mine]; nofun)).symm.trans out

theorem unloadEntered {core : Core Unit} {left : Nat} (h : Entered config latest c)
    (mine : c.worker = some (.busy ⟨core, left, .unload⟩)) :
    Entered config latest (c.advanceJob ⟨core, left, .unload⟩) := by
  have halted : Halted c := h.suits _ mine
  refine ⟨h.config, h.reported, nofun, fun _ _ => halted, nofun, ?_, fun out => ?_, h.owned⟩
  · rintro _ ⟨⟩
    trivial
  · cases (h.up (by rw [mine]; nofun)).symm.trans out

theorem advanceEntered (h : Entered config latest c) (mine : c.worker = some (.busy job)) :
    Entered config latest (c.advanceJob job) := by
  have suits := h.suits job mine
  have still : Framed c c := ⟨rfl, rfl, rfl, Iff.rfl, rfl, rfl⟩
  have goesOn {left' : Nat} {phase' : Phase} (known : Suits (Halted c) phase')
      (winds : Winds job.phase → Halted c → Winds phase') :
      Entered config latest (c.busy ⟨job.core, left', phase'⟩) := h.works mine still known winds
  obtain ⟨core, left, phase⟩ := job
  cases phase with
  | execute => exact executeEntered h mine
  | settle mode => exact settleEntered h mine
  | unload => exact unloadEntered h mine
  | begin =>
    have begun : Framed c { c with control := c.control.enter .running } :=
      ⟨rfl, rfl, rfl, ⟨nofun, fun halted => absurd halted suits⟩, rfl, rfl⟩
    exact h.works mine begun trivial False.elim
  | hold =>
    exact h.works mine ⟨rfl, rfl, rfl, Control.pauseHalted _, rfl, rfl⟩ trivial False.elim
  | release =>
    exact h.works mine ⟨rfl, rfl, rfl, Control.resumeHalted _, rfl, rfl⟩ trivial False.elim
  | askStop | confirmStop =>
    dsimp only [advanceJob, next]
    split
    · exact goesOn trivial False.elim
    · exact goesOn suits False.elim
  | askState =>
    dsimp only [advanceJob]
    split <;> exact goesOn trivial False.elim
  | askMode =>
    dsimp only [advanceJob]
    split
    case h_1 stopped => exact goesOn (fun halted => by cases stopped.symm.trans halted) False.elim
    all_goals exact goesOn trivial False.elim
  | confirmMode =>
    dsimp only [advanceJob, next]
    split
    case isTrue running =>
      exact goesOn (fun halted => by cases running.symm.trans halted) False.elim
    case isFalse => exact goesOn trivial False.elim
  | deliver pending =>
    cases pending with
    | nil => exact goesOn trivial False.elim
    | cons first rest => exact h.works mine ⟨rfl, rfl, rfl, Iff.rfl, rfl, rfl⟩ trivial False.elim
  | showRegisters ran =>
    exact h.works mine ⟨rfl, rfl, rfl, Iff.rfl, rfl, rfl⟩ trivial fun _ _ => trivial
  | showCount ran =>
    cases ran <;>
      exact h.works mine ⟨rfl, rfl, rfl, Iff.rfl, rfl, rfl⟩ trivial fun _ _ => trivial
  | goOn =>
    dsimp only [advanceJob]
    split
    case isTrue more => exact goesOn trivial fun _ halted => by cases more.1.symm.trans halted
    case isFalse => exact goesOn trivial fun _ _ => trivial
  | judge =>
    dsimp only [advanceJob]
    split
    case h_1 halted => exact goesOn halted fun _ _ => trivial
    case h_2 faulted => exact goesOn trivial fun _ halted => by cases faulted.symm.trans halted
    case h_3 going _ => exact goesOn trivial fun _ halted => absurd halted going
  | leave exit =>
    have published : Framed c { c with snapshot := core.registers } :=
      ⟨rfl, rfl, rfl, Iff.rfl, rfl, rfl⟩
    cases exit with
    | halted => exact h.works mine published suits fun _ _ => trivial
    | _ => exact h.works mine published trivial False.elim
  | leaveCount exit =>
    have counted : Framed c { c with instructions := core.retired } :=
      ⟨rfl, rfl, rfl, Iff.rfl, rfl, rfl⟩
    exact departEntered h mine counted rfl
  | conclude after =>
    dsimp only [advanceJob]
    split
    · exact h.works mine ⟨rfl, rfl, rfl, Iff.rfl, rfl, rfl⟩ trivial False.elim
    · exact h.ends mine ⟨rfl, rfl, rfl, Iff.rfl, rfl, rfl⟩ id (.inr ⟨_, rfl⟩)
  | announce before after =>
    dsimp only [advanceJob]
    split
    · exact h.ends mine ⟨rfl, rfl, rfl, Iff.rfl, rfl, rfl⟩ id (.inl rfl)
    · exact h.ends mine ⟨rfl, rfl, rfl, Iff.rfl, rfl, rfl⟩ id (.inr ⟨_, rfl⟩)

theorem Entered.beside {state : Lifecycle} {snapshot : Registers} {instructions : Nat}
    {control : Control} {devices : Syscall.Hosted Syscall.Devices} {queue : Graphics.RenderQueue}
    {observer : Observer} {journal : Journal} (h : Entered config latest c)
    (halted : control.mode = .halted ↔ Halted c) :
    Entered config latest
      { c with state, snapshot, instructions, control, devices, queue, observer, journal } where
  config := h.config
  reported := h.reported
  named := h.named
  spent named unloaded := halted.mpr (h.spent named unloaded)
  unspent loaded wound := h.unspent loaded (halted.mp wound)
  suits job mine := by
    have same : (control.mode = .halted) = Halted c := propext halted
    change Suits (control.mode = .halted) job.phase
    rw [same]
    exact h.suits job mine
  down := h.down
  owned := h.owned

def standing (config : Configuration) (latest : Option UInt64) : Assertion plain where
  holds := Entered config latest
  stable _ c h := by
    change Entered config latest (c.advance.getD c)
    cases goes : c.advance with
    | none => exact h
    | some after =>
      obtain ⟨job, mine, rfl⟩ := advanceBusy goes
      exact advanceEntered h mine

theorem standingQuiet : Quiet (standing config latest) := fun _ _ h => h.beside Iff.rfl

theorem lookStanding {α : Type} {f : Console → α} :
    plain.Meets (standing config latest) (look f) fun _ => standing config latest :=
  .look fun _ h => h

theorem enterStanding (after : Lifecycle) :
    plain.Meets (standing config latest) (Call.enter after) fun _ => standing config latest :=
  enterMeets after (fun _ h => h.beside Iff.rfl) fun _ _ h => h.beside Iff.rfl

theorem moveStanding (origins : List Lifecycle) (after : Lifecycle) :
    plain.Meets (standing config latest) (Call.move origins after) fun moved =>
      cond moved (standing config latest) (standing config latest) :=
  moveMeets origins after (fun _ h _ => h.beside Iff.rfl) (fun _ h _ => h)
    fun _ _ h => h.beside Iff.rfl

theorem controlStanding (f : Control → Control)
    (keeps : ∀ c : Control, (f c).mode = .halted ↔ c.mode = .halted) :
    plain.Meets (standing config latest) (Call.control f) fun _ => standing config latest :=
  controlMeets f fun _ h => h.beside (keeps _)

def Up (c : Console) : Prop := c.initialized = true

def Owned (c : Console) : Prop := c.core.isSome → Up c

def Unloaded (c : Console) : Prop := c.programLoaded = false

structure Cleared (c : Console) : Prop where
  unnamed : c.entry = none
  unloaded : c.programLoaded = false
  owned : Owned c

instance : Unreported Up := ⟨fun _ _ _ h => h⟩

instance : Unreported Owned := ⟨fun _ _ _ h => h⟩

instance : Unreported Unloaded := ⟨fun _ _ _ h => h⟩

instance : Unreported (Entered config latest) := ⟨fun _ _ _ h => h.beside Iff.rfl⟩

instance : Unreported Cleared := ⟨fun _ _ _ h => ⟨h.unnamed, h.unloaded, h.owned⟩⟩

theorem clearedEntered (h : Vacant config Cleared c) : Entered config latest c where
  config := h.config
  reported entry found := by cases h.fact.unnamed.symm.trans found
  named loaded := by cases h.fact.unloaded.symm.trans loaded
  spent named := by
    rw [h.fact.unnamed] at named
    cases named
  unspent loaded := by cases h.fact.unloaded.symm.trans loaded
  suits job mine := by cases h.alone.symm.trans mine
  down _ := ⟨h.fact.unnamed, h.alone⟩
  owned := h.fact.owned

theorem reclaimEntered :
    plain.Meets (standing config latest) Call.reclaim fun _ =>
      vacant config (Entered config latest) := by
  let joined : Assertion plain := vacant config fun c => Entered config latest c ∧ Up c
  have quiet : Quiet joined := fun c journal h =>
    ⟨h.config, h.alone, h.fact.1.beside Iff.rfl, h.fact.2⟩
  have fails : plain.Meets joined (Call.enter .error) fun _ =>
      vacant config (Entered config latest) := vacantEnter .error fun c h => h.1.beside Iff.rfl
  refine reclaimAllowed (H := fun _ => joined) (fun c h none => ⟨h.config, none, h⟩)
    (fun c core after h joins => ⟨trivial, ?_⟩) (fun c core h => ⟨trivial, h.config, h.alone, ?_⟩)
    quiet fails
  · obtain ⟨rfl, gone⟩ := joinGone joins
    have idle (job : Job) : c.worker ≠ some (.busy job) := fun busy => by
      obtain died | ⟨core, finished⟩ := gone
      · cases died.symm.trans busy
      · cases finished.symm.trans busy
    have manned : c.worker ≠ none := fun none => by
      obtain died | ⟨core, finished⟩ := gone
      · cases died.symm.trans none
      · cases finished.symm.trans none
    have framed : Framed c { c with worker := none } := ⟨rfl, rfl, rfl, Iff.rfl, rfl, rfl⟩
    have unspent : c.programLoaded = true → ¬ Halted c := fun loaded halted => by
      obtain ⟨job, busy, -⟩ := h.unspent loaded halted
      exact idle job busy
    have goes := h.goes manned framed (fun loaded halted => absurd halted (unspent loaded))
      (fun _ busy => by cases busy)
    exact ⟨h.config, rfl, goes, h.up manned⟩
  · obtain ⟨entered, up⟩ := h.fact
    exact ⟨entered.config, entered.reported, entered.named, entered.spent, entered.unspent,
      entered.suits, entered.down, fun _ => up⟩

theorem haltWorkerEntered :
    plain.Meets (standing config latest) Call.haltWorker fun _ =>
      vacant config (Entered config latest) :=
  haltWorkerAllowed (M := fun _ => standing config latest) lookStanding
    (fun _ => enterStanding .stopping) (controlStanding _ fun _ => Iff.rfl) reclaimEntered
    reclaimEntered

theorem unloadClears :
    plain.Meets (vacant config (Entered config latest)) Call.unload fun _ =>
      vacant config Cleared := by
  refine unloadAllowed (A := vacant config Owned)
    (M := fun core => cond core.isSome (vacant config Up) (vacant config Owned))
    (N := fun _ => vacant config Owned) (B := vacant config fun c => Owned c ∧ Unloaded c)
    (C := vacant config Cleared) (.look fun c h => ?_) (fun _ => vacantAlter fun _ up _ => up)
    (fun _ => vacantPublish fun _ _ _ h => h) (fun _ h => h) (vacantAlter fun _ h => ⟨h, rfl⟩)
    (vacantAlter fun _ h => ⟨rfl, h.2, h.1⟩)
    (vacantAlter fun _ h => ⟨h.unnamed, h.unloaded, h.owned⟩)
  cases mine : (plain.state c).core with
  | none => exact ⟨h.config, h.alone, h.fact.owned⟩
  | some core => exact ⟨h.config, h.alone, h.fact.owned (Option.isSome_of_mem mine)⟩

theorem dismantleClears :
    plain.Meets (vacant config Cleared) Call.dismantle fun _ => vacant config Cleared :=
  vacantAlter fun _ h => ⟨h.unnamed, h.unloaded, nofun⟩

theorem clearedKeeps {change : Console → Console}
    (same : ∀ {c}, (change c).entry = c.entry ∧ (change c).programLoaded = c.programLoaded ∧
      (change c).core = c.core ∧ (change c).initialized = c.initialized ∧
      (change c).config = c.config ∧ (change c).worker = c.worker :=
        by exact ⟨rfl, rfl, rfl, rfl, rfl, rfl⟩) :
    plain.Meets (vacant config Cleared) (alter change) fun _ => vacant config Cleared :=
  vacantAlter (fun c h => by
    obtain ⟨entry, loaded, core, initialized, -⟩ := same (c := c)
    refine ⟨entry.trans h.unnamed, loaded.trans h.unloaded, fun mine => ?_⟩
    unfold Up
    rw [initialized]
    exact h.owned (core ▸ mine)) fun _ => same.2.2.2.2

theorem enterCleared (after : Lifecycle) :
    plain.Meets (vacant config Cleared) (Call.enter after) fun _ => standing config latest :=
  (vacantEnter (g := Cleared) after fun _ h => ⟨h.unnamed, h.unloaded, h.owned⟩).post
    fun _ _ => clearedEntered

theorem setUpEntered {host : Provision} {P : Assertion plain}
    (up : ∀ c, P c → Up c → Entered config latest c)
    (down : ∀ c, P c → c.initialized = false → Vacant config Cleared c) :
    plain.Meets P (Call.setUp host) fun _ => standing config latest := by
  refine setUpAllowed (A := vacant config Cleared) (B := vacant config Cleared)
    (U := fun initialized => cond initialized (standing config latest) (vacant config Cleared))
    (K := fun _ => vacant config Cleared) (S := fun _ _ => vacant config Cleared)
    (.look fun c h => ?_) (fun _ h => h)
    (vacantEnter _ fun _ h => ⟨h.unnamed, h.unloaded, h.owned⟩) (.look fun _ h => h)
    (fun _ => vacantQuiet) (fun _ _ _ _ => vacantPublish fun _ _ _ h =>
      ⟨h.unnamed, h.unloaded, h.owned⟩)
    (fun _ _ _ _ => vacantAlter fun _ h => ⟨h.unnamed, h.unloaded, fun _ => rfl⟩)
    (enterCleared _) fun _ _ _ => enterCleared _
  cases initialized : (plain.state c).initialized with
  | true => exact up c h initialized
  | false => exact down c h initialized

theorem setUpStanding (host : Provision) :
    plain.Meets (standing config latest) (Call.setUp host) fun _ => standing config latest :=
  setUpEntered (fun _ h _ => h) fun c h down => by
    obtain ⟨unnamed, alone⟩ := h.down down
    refine ⟨h.config, alone, unnamed, ?_, h.owned⟩
    by_contra loaded
    have named := h.named (eq_true_of_ne_false loaded)
    rw [unnamed] at named
    cases named

structure Starting (c : Console) : Prop where
  up : Up c
  stopped : c.control.mode = .stopped

def Named (entry : UInt64) (c : Console) : Prop := c.entry = some entry

instance : Unreported Starting := ⟨fun _ _ _ h => ⟨h.up, h.stopped⟩⟩

instance {entry : UInt64} : Unreported (Named entry) := ⟨fun _ _ _ h => h⟩

theorem startingEntered {entry : UInt64}
    (h : Vacant config (fun c => Starting c ∧ Named entry c) c) :
    Entered config (some entry) { c with programLoaded := true } where
  config := h.config
  reported other found := h.fact.2.symm.trans found
  named _ := Option.isSome_of_mem h.fact.2
  spent _ unloaded := by cases unloaded
  unspent _ halted := by cases h.fact.1.stopped.symm.trans halted
  suits job mine := by cases h.alone.symm.trans mine
  down out := by cases h.fact.1.up.symm.trans out
  owned _ := h.fact.1.up

theorem acceptEnters (core : Core Unit) (image : LoadedImage) (stack : UInt64) :
    plain.Meets (vacant config Up) (Call.accept core image stack) fun _ =>
      standing config (some image.entry) := by
  have starts {change : Console → Console}
      (same : ∀ {c}, (change c).initialized = c.initialized ∧ (change c).control = c.control ∧
        (change c).config = c.config ∧ (change c).worker = c.worker :=
          by exact ⟨rfl, rfl, rfl, rfl⟩) :
      plain.Meets (vacant config Starting) (alter change) fun _ => vacant config Starting :=
    vacantAlter (fun c h => ⟨same.1.trans h.up,
      (congrArg Control.mode same.2.1).trans h.stopped⟩) fun _ => same.2.2
  refine acceptAllowed (A := vacant config Starting) (B := vacant config Starting)
    (C := vacant config Starting) (D := vacant config Starting)
    (E := vacant config fun c => Starting c ∧ Named image.entry c)
    (F := vacant config (Entered config (some image.entry)))
    (vacantAlter fun _ up => ⟨up, rfl⟩) (vacantPublish fun _ _ _ h => ⟨h.up, h.stopped⟩) starts
    starts (vacantAlter fun _ h => ⟨⟨h.up, h.stopped⟩, rfl⟩)
    (.alter fun c h => ⟨trivial, h.config, h.alone, startingEntered h⟩) vacantQuiet ?_
  exact (vacantEnter (g := Entered config _) .idle fun _ h => h.beside Iff.rfl).post
    fun _ _ h => h.fact

theorem placeEnters (core : Core Unit) (loader : Loader) (stack : UInt64) :
    plain.Meets (vacant config Up) (Call.place core loader stack) fun result =>
      standing config (result.toOption.or latest) := by
  let cleared : Assertion plain := vacant config fun c => Cleared c ∧ Up c
  exact placeAllowed (A := vacant config Up) (B := vacant config fun c => Unloaded c ∧ Up c)
    (C := cleared) (D := cleared) (vacantEnter .booting fun _ up => up)
    (vacantAlter fun _ up => ⟨rfl, up⟩) (vacantAlter fun _ h => ⟨⟨rfl, h.1, fun _ => h.2⟩, h.2⟩)
    (vacantAlter fun _ h => ⟨⟨h.1.unnamed, h.1.unloaded, fun _ => h.2⟩, h.2⟩)
    (fun image _ => (acceptEnters _ image stack).pre fun _ h => ⟨h.config, h.alone, h.fact.2⟩)
    vacantQuiet
    (fun _ _ => (enterCleared _).pre fun _ h => ⟨h.config, h.alone, h.fact.1⟩)
    fun _ _ => (enterCleared _).pre fun _ h => ⟨h.config, h.alone, h.fact.1⟩

theorem lookForCore :
    plain.Meets (vacant config (Entered config latest)) (look Console.core) fun core =>
      cond core.isSome (vacant config fun c => Entered config latest c ∧ Up c)
        (standing config latest) :=
  .look fun c h => by
    cases mine : (plain.state c).core with
    | none => exact h.fact
    | some core => exact ⟨h.config, h.alone, h.fact, h.fact.owned (Option.isSome_of_mem mine)⟩

theorem loadEnters (loader : Loader) :
    plain.Meets (standing config latest) (Call.load loader) fun result =>
      standing config (result.toOption.or latest) :=
  loadAllowed (S := fun _ => standing config latest)
    (K := fun _ _ => vacant config fun c => Entered config latest c ∧ Up c) lookStanding
    (fun _ _ => ⟨standingQuiet, fun _ h => h⟩) reclaimEntered lookForCore (fun _ h => h)
    (fun _ => .look fun _ h => h) (fun _ _ => vacantQuiet) (fun _ _ _ _ h => h.fact.1)
    fun core _ _ => (placeEnters core loader _).pre fun _ h => ⟨h.config, h.alone, h.fact.2⟩

theorem pauseStanding :
    plain.Meets (standing config latest) Call.pause fun _ => standing config latest :=
  switchAllowed (moveStanding _ _) (controlStanding _ Control.pauseHalted) standingQuiet
    fun _ h => h

theorem resumeStanding :
    plain.Meets (standing config latest) Call.resume fun _ => standing config latest :=
  switchAllowed (moveStanding _ _) (controlStanding _ Control.resumeHalted) standingQuiet
    fun _ h => h

theorem spawnEntered (core : Core Unit)
    (h : Vacant config (fun c => Entered config latest c ∧ Up c) c) :
    Entered config latest (Call.spawn core c) where
  config := h.config
  reported := h.fact.1.reported
  named := h.fact.1.named
  spent := h.fact.1.spent
  unspent loaded halted := by
    obtain ⟨job, mine, -⟩ := h.fact.1.unspent loaded halted
    cases h.alone.symm.trans mine
  suits _ mine := by
    cases mine
    trivial
  down out := by cases h.fact.2.symm.trans out
  owned some := by cases some

theorem startWorkerStanding :
    plain.Meets (standing config latest) Call.startWorker fun _ => standing config latest := by
  let ready : Assertion plain := vacant config fun c => Entered config latest c ∧ Up c
  have told (c : Console) (state : Lifecycle) (observer : Observer) (journal : Journal)
      (h : ready c) : ready { c with state, observer, journal } :=
    ⟨h.config, h.alone, h.fact.1.beside Iff.rfl, h.fact.2⟩
  have moves : plain.Meets ready (Call.move [.idle] .running) fun moved =>
      cond moved ready ready :=
    moveMeets _ _ (fun c h _ => told c _ _ _ h) (fun _ h _ => h) fun c _ h => told c _ _ _ h
  exact startWorkerAllowed (L := fun _ => ready) (N := fun _ => ready) reclaimEntered lookForCore
    standingQuiet (fun _ h => h) (fun _ => moves)
    (fun core => .alter fun c h => ⟨trivial, spawnEntered core h⟩) fun _ _ h => h.fact.1

theorem standingServes : Serves plain (fun _ => standing config latest) fun answer =>
    standing config (answer.entry?.or latest) where
  setUp host := setUpStanding host
  load loader := loadEnters loader
  run :=
    runAllowed (F := fun _ => standing config latest) (S := fun _ => standing config latest)
      lookStanding standingQuiet (fun _ h => h) lookStanding resumeStanding startWorkerStanding
      fun _ _ _ => ⟨standingQuiet, fun _ h => h⟩
  pause := pauseStanding
  resume := resumeStanding
  togglePause := togglePauseAllowed standingQuiet pauseStanding resumeStanding fun _ h => h
  stop :=
    stopAllowed (moveStanding _ _) (controlStanding _ fun _ => Iff.rfl) reclaimEntered unloadClears
      (enterCleared _) standingQuiet (reclaimEntered.post fun _ _ h => h.fact)
  readMemory _ _ :=
    readMemoryAllowed (S := fun _ => standing config latest)
      (F := fun _ => vacant config (Entered config latest)) lookStanding (fun _ _ _ h => h)
      (fun _ _ => reclaimEntered) (.look fun _ h => h) (fun _ h => h.fact) fun _ _ h => h.fact
  reset _ :=
    resetAllowed standingQuiet haltWorkerEntered unloadClears dismantleClears clearedKeeps
      clearedKeeps (setUpEntered (fun _ h _ => clearedEntered h) fun _ h _ => h)
  shutdown := shutdownAllowed haltWorkerEntered unloadClears dismantleClears (enterCleared _)

theorem latestNext (past : List Answer) (answer : Answer) :
    latestEntry (past ++ [answer]) = answer.entry?.or (latestEntry past) := by
  unfold latestEntry
  rw [List.filterMap_append, List.getLast?_append]
  cases found : answer.entry? <;> simp [found]

abbrev Session := Interplay.Session Console Console Answer

def Session.start (config : Configuration) (observer : Observer) : Session :=
  ⟨.new config observer, .done .nothing⟩

abbrev Session.play (s : Session) (turns : List (Interplay.Turn Operation Unit)) : Session :=
  Interplay.Session.play plain Operation.call id s turns

abbrev Session.answers (s : Session) (turns : List (Interplay.Turn Operation Unit)) : List Answer :=
  Interplay.Session.answers plain Operation.call id s turns

theorem sessionEntered (config : Configuration) (observer : Observer)
    (turns : List (Interplay.Turn Operation Unit)) :
    let start := Session.start config observer
    (start.play turns).rest.result?.isSome →
      Entered config (latestEntry (start.answers turns)) (start.play turns).world := by
  intro start ends
  have begins : Entered config none start.world :=
    clearedEntered ⟨rfl, rfl, rfl, rfl, nofun⟩
  have first : plain.Meets (standing config none) (pure Answer.nothing) fun answer =>
      standing config (latestEntry ([] ++ [answer])) := .done fun _ h => h
  exact Interplay.Session.playAnswers (i := plain)
    (J := fun past c => Entered config (latestEntry past) c)
    (fun call past c h => (standingServes.meets call c h).imp fun answer d left => by
      rw [latestNext]
      exact left)
    turns start (first _ begins) ends

theorem entryFollows (config : Configuration) (observer : Observer)
    (turns : List (Interplay.Turn Operation Unit)) :
    let start := Session.start config observer
    let c := (start.play turns).world
    (start.play turns).rest.result?.isSome →
    (∀ entry, c.entry = some entry → latestEntry (start.answers turns) = some entry) ∧
    (c.programLoaded = true → c.entry.isSome) ∧
    (c.control.mode ≠ .halted → (c.entry.isSome ↔ c.programLoaded = true)) ∧
    (c.control.mode = .halted → c.working = false → c.programLoaded = false) := by
  intro start c ends
  have entered := sessionEntered config observer turns ends
  refine ⟨entered.reported, entered.named, fun going => ⟨fun named => ?_, entered.named⟩,
    fun halted still => ?_⟩
  · by_contra unloaded
    exact going (entered.spent named (eq_false_of_ne_true unloaded))
  · by_contra loaded
    obtain ⟨job, busy, -⟩ := entered.unspent (eq_true_of_ne_false loaded) halted
    have mine : c.worker = some (.busy job) := busy
    rw [working, mine] at still
    cases still

def loadTwice : List (Interplay.Turn Operation Unit) :=
  loadBrief ++ .begin (.load (.rawImage [0xF4] 1)) :: .replicate 19 .proceed

theorem entryFollowsReloading :
    ((Session.start brief {}).play loadTwice).rest.result?.isSome ∧
      ((Session.start brief {}).play loadTwice).world.programLoaded = true ∧
      ((Session.start brief {}).play loadTwice).world.entry.isSome ∧
      latestEntry ((Session.start brief {}).answers loadTwice) = some 1 := by
  have ends : ((Session.start brief {}).play loadTwice).rest.result?.isSome := by decide +kernel
  have loaded : ((Session.start brief {}).play loadTwice).world.programLoaded = true := by
    decide +kernel
  have found : ((Session.start brief {}).play loadTwice).world.entry = some 1 := by
    decide +kernel
  have follows := entryFollows brief {} loadTwice ends
  exact ⟨ends, loaded, follows.2.1 loaded, follows.1 1 found⟩

theorem entryOutlastsProgram :
    let start := Session.start brief {}
    let s := start.play
      (loadBrief ++ .begin .run :: .replicate 7 .proceed ++ .replicate 18 (.other ()))
    s.rest.result?.isSome ∧ s.world.working = false ∧ s.world.state = .idle ∧
      s.world.entry = some 0 ∧ s.world.programLoaded = false := by
  decide +kernel

end Entry

end Console

end GameConsole
