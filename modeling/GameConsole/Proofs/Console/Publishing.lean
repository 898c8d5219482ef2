import GameConsole.Proofs.Console.Diary
import GameConsole.Proofs.Console.Starting

/-! Snapshot and counter follow the program that is executed, at most one instruction behind,
whatever calls are made meanwhile. No call speaks for a thread, and each that hands a core over has
published it before. -/
namespace GameConsole.Console.Diary
open Interplay (Meets)
open Procedure (look alter)

def interplay : Interplay Console Diary Unit where
  state := Diary.console
  other _ := Diary.thread
  ours := Diary.call
  allowed c d := c.worker.isSome →
    d.snapshot = c.snapshot ∧ d.instructions = c.instructions ∧
      (d.worker = c.worker ∨ d.worker = none)
  always w := w.console.worker.isSome → Follows w
  oursIdle w := by
    unfold call
    cases w.console.worker with
    | none => rfl
    | some worker => rfl
  allowedIdle _ _ := ⟨rfl, rfl, .inl rfl⟩

instance : Placid Diary.interplay := ⟨fun _ _ _ _ => ⟨rfl, rfl, .inl rfl⟩⟩

structure Published (c : Console) (core : Core Unit) : Prop where
  registers : c.snapshot = core.registers
  count : c.instructions = core.retired

def Shown (c : Console) : Prop := ∀ core, c.core = some core → Published c core

def Rested (c : Console) : Prop :=
  c.control.mode = .stopped ∧ ∀ core, c.core = some core → core.retired = 0

structure Ordered (w : Diary) : Prop where
  sane : Sane w.console
  exclusive : w.console.worker.isSome → w.console.core = none
  follows : w.console.worker.isSome → Follows w
  shown : Shown w.console
  rested : w.console.state = .idle → w.console.worker = none → w.console.programLoaded = true →
    Rested w.console

section Thread
variable {w : Diary}

theorem threadAlone (alone : w.console.worker = none) : w.thread = w :=
  threadIdle (by rw [advance, alone])

theorem Ordered.thread (h : Ordered w) : Ordered w.thread := by
  cases goes : w.console.advance with
  | none =>
    rw [threadIdle goes]
    exact h
  | some after =>
    obtain ⟨job, mine, rfl⟩ := advanceBusy goes
    have manned : w.console.worker.isSome := by rw [mine]; rfl
    have console : w.thread.console = w.console.advanceJob job := by rw [Diary.thread, goes]; rfl
    have step : Console.Goes w.console w.thread.console := console ▸ advanceGoes h.sane mine
    have core : w.thread.console.core = none := by
      rw [console, (jobStays w.console job).1.core]
      exact h.exclusive manned
    refine ⟨step.sane, fun _ => core, fun _ => (threadGoes (h.follows manned)).toFollows,
      fun other same => ?_, fun _ nobody => ?_⟩
    · cases core.symm.trans same
    · have working := step.manned
      rw [nobody] at working
      cases working

end Thread

theorem threadManned {w : Diary} (manned : w.console.worker.isSome) :
    w.thread.console.worker.isSome := by
  rw [Diary.thread]
  cases goes : w.console.advance with
  | none => exact manned
  | some after =>
    obtain ⟨job, mine, rfl⟩ := advanceBusy goes
    exact (jobStays w.console job).2

def standing (vacant : Prop) : Assertion Diary.interplay where
  holds w := Ordered w ∧ (vacant → w.console.worker = none)
  stable _ w h := by
    refine ⟨h.1.thread, fun v => ?_⟩
    change w.thread.console.worker = none
    rw [threadAlone (h.2 v)]
    exact h.2 v
  safe _ h := h.1.follows

structure Alone (f : Console → Prop) (c : Console) : Prop where
  nobody : c.worker = none
  owned : c.core.isSome → c.initialized = true
  fact : f c

def alone (f : Console → Prop) : Assertion Diary.interplay where
  holds w := Alone f w.console
  stable _ w h := by
    change Alone f w.thread.console
    rw [threadAlone h.nobody]
    exact h
  safe w h manned := by
    rw [h.nobody] at manned
    cases manned

structure Aside (c d : Console) : Prop extends Trial.Calm c d where
  snapshot : d.snapshot = c.snapshot
  instructions : d.instructions = c.instructions

section Beside
variable {vacant : Prop} {w : Diary} {d : Console}

theorem callSame (same : d.worker = w.console.worker) : w.call d = { w with console := d } := by
  unfold call
  rw [same]
  cases w.console.worker with
  | none => rfl
  | some worker => rfl

theorem callGone (gone : d.worker = none) : w.call d = { w with console := d } := by
  unfold call
  rw [gone]
  cases w.console.worker <;> rfl

theorem asideFollows (aside : Aside w.console d) (h : Follows w) :
    Follows { w with console := d } := by
  have unshown : d.unshown = w.console.unshown := by unfold Console.unshown; rw [aside.worker]
  have uncounted : d.uncounted = w.console.uncounted := by
    unfold Console.uncounted
    rw [aside.worker]
  have lent : d.lent = w.console.lent := by unfold Console.lent; rw [aside.worker]
  refine ⟨h.fresh, ?_, ?_, ?_, fun core mine => h.lent core (lent.symm.trans mine)⟩
  · exact uncounted ▸ h.behind
  · rw [aside.snapshot, ← h.shown]
    unfold Diary.shown
    rw [unshown]
    rfl
  · dsimp only
    rw [aside.instructions, uncounted]
    exact h.counted

theorem asideOrdered (aside : Aside w.console d) (h : Ordered w) : Ordered (w.call d) := by
  rw [callSame aside.worker]
  refine ⟨aside.toCalm.sane h.sane, fun manned => ?_, fun manned => ?_, fun core mine => ?_,
    fun idle nobody loaded => ?_⟩
  · rw [aside.core]
    exact h.exclusive (aside.worker ▸ manned)
  · exact asideFollows aside (h.follows (aside.worker ▸ manned))
  · obtain ⟨registers, count⟩ := h.shown core (aside.core.symm.trans mine)
    exact ⟨aside.snapshot.trans registers, aside.instructions.trans count⟩
  · obtain ⟨stopped, unspent⟩ := h.rested (aside.state idle) (aside.worker.symm.trans nobody)
      (aside.loaded.symm.trans loaded)
    exact ⟨(aside.mode (.inr stopped)).trans stopped,
      fun core mine => unspent core (aside.core.symm.trans mine)⟩

theorem asideStanding (aside : Aside w.console d) (h : standing vacant w) :
    standing vacant (w.call d) := by
  refine ⟨asideOrdered aside h.1, fun v => ?_⟩
  rw [callSame aside.worker]
  exact aside.worker.trans (h.2 v)

theorem noteAside (c : Console) (observer : Observer) (journal : Journal) :
    Aside c { c with observer, journal } :=
  ⟨Trial.noteCalm c observer journal, rfl, rfl⟩

theorem stateAside (c : Console) {after : Lifecycle} (away : after ≠ .idle) :
    Aside c { c with state := after } :=
  ⟨Trial.stateCalm c away, rfl, rfl⟩

theorem standingQuiet : Quiet (standing vacant) := fun w journal h =>
  asideStanding (noteAside w.console _ journal) h

theorem lookStanding {α : Type} {f : Console → α} :
    Diary.interplay.Meets (standing vacant) (look f) fun _ => standing vacant :=
  .look fun _ h => h

theorem controlStanding (f : Control → Control)
    (calm : ∀ c : Console, Trial.Calm c { c with control := f c.control }) :
    Diary.interplay.Meets (standing vacant) (Call.control f) fun _ => standing vacant :=
  controlAllowed f
    (fun w h => ⟨fun _ => ⟨rfl, rfl, .inl rfl⟩, asideStanding ⟨calm w.console, rfl, rfl⟩ h⟩)
    fun _ h _ => h

theorem enterStanding {after : Lifecycle} (away : after ≠ .idle) :
    Diary.interplay.Meets (standing vacant) (Call.enter after) fun _ => standing vacant :=
  enterAllowed after
    (fun w h => ⟨fun _ => ⟨rfl, rfl, .inl rfl⟩, asideStanding (stateAside w.console away) h⟩)
    fun w _ h => asideStanding (noteAside w.console _ _) h

theorem moveStanding (origins : List Lifecycle) {after : Lifecycle}
    (away : after ≠ .idle) :
    Diary.interplay.Meets (standing vacant) (Call.move origins after) fun moved =>
      cond moved (standing vacant) (standing vacant) :=
  moveAllowed origins after
    (fun w h _ => ⟨fun _ => ⟨rfl, rfl, .inl rfl⟩, asideStanding (stateAside w.console away) h⟩)
    (fun _ h _ => h) fun w _ h => asideStanding (noteAside w.console _ _) h

theorem weaken {w : Diary} (h : standing vacant w) : standing False w := ⟨h.1, False.elim⟩

end Beside

section Alone
variable {f g : Console → Prop}

theorem aloneStep {w : Diary} {d : Console} (h : alone f w) (after : Alone g d) :
    Diary.interplay.allowed w.console d ∧ alone g (w.call d) := by
  refine ⟨fun manned => ?_, ?_⟩
  · rw [h.nobody] at manned
    cases manned
  · change Alone g (w.call d).console
    rw [callGone after.nobody]
    exact after

theorem aloneAlter {change : Console → Console}
    (keeps : ∀ c, Alone f c → Alone g (change c)) :
    Diary.interplay.Meets (alone f) (alter change) fun _ => alone g :=
  .alter fun w h => aloneStep h (keeps w.console h)

theorem aloneKeeps {change : Console → Console} [same : ∀ c, Superficial c (change c)]
    (keeps : ∀ c, f c → g (change c)) :
    Diary.interplay.Meets (alone f) (alter change) fun _ => alone g :=
  aloneAlter fun c h => by
    refine ⟨(same c).worker.trans h.nobody, fun mine => ?_, keeps c h.fact⟩
    rw [(same c).initialized]
    exact h.owned ((same c).core ▸ mine)

theorem aloneHolds {change : Console → Console}
    (apart : ∀ {c}, (change c).worker = c.worker) (keeps : ∀ c, f c → g (change c))
    (built : ∀ c, Alone f c → (change c).initialized = true) :
    Diary.interplay.Meets (alone f) (alter change) fun _ => alone g :=
  aloneAlter fun c h => ⟨apart.trans h.nobody, fun _ => built c h, keeps c h.fact⟩

theorem publishAlone (core : Core Unit)
    (keeps : ∀ c snapshot instructions, f c → f { c with snapshot, instructions }) :
    Diary.interplay.Meets (alone f) (Call.publish core) fun _ =>
      alone fun c => f c ∧ Published c core :=
  .bind (Q := fun _ => alone fun c => f c ∧ c.snapshot = core.registers)
    (aloneKeeps fun c h => ⟨keeps c core.registers c.instructions h, rfl⟩) fun _ =>
    aloneKeeps fun c h => ⟨keeps c c.snapshot core.retired h.1, h.2, rfl⟩

theorem aloneQuiet (keeps : ∀ c journal, f c → f { c with journal }) : Quiet (alone f) :=
  fun w journal h =>
    (aloneStep (d := { w.console with journal }) h
      ⟨h.nobody, h.owned, keeps w.console journal h.fact⟩).2

theorem enterAlone {after : Lifecycle}
    (keeps : ∀ c state observer journal, f c → f { c with state, observer, journal }) :
    Diary.interplay.Meets (alone f) (Call.enter after) fun _ => alone f :=
  enterAllowed after
    (fun w h => aloneStep h ⟨h.nobody, h.owned, keeps w.console _ _ _ h.fact⟩)
    fun w before h =>
      (aloneStep (d := w.console.tell before after) h
        ⟨h.nobody, h.owned, keeps w.console _ _ _ h.fact⟩).2

theorem Alone.ordered {w : Diary} (h : Alone f w.console) (shown : Shown w.console)
    (rested : w.console.state = .idle → w.console.programLoaded = true → Rested w.console) :
    standing True w := by
  have none {P : Prop} (manned : w.console.worker.isSome) : P := by
    rw [h.nobody] at manned
    cases manned
  exact ⟨⟨Trial.vacantSane h.nobody h.owned fun idle loaded => (rested idle loaded).1, none, none,
    shown, fun idle _ => rested idle⟩, fun _ => h.nobody⟩

theorem callOrdered {w : Diary} {d : Console} (h : Alone f d) (shown : Shown d)
    (rested : d.state = .idle → d.programLoaded = true → Rested d) : standing True (w.call d) := by
  rw [callGone h.nobody]
  exact Alone.ordered h shown rested

theorem enterGrounded {after : Lifecycle}
    (keeps : ∀ c state observer journal, f c → f { c with state, observer, journal })
    (shown : ∀ c, f c → Shown c)
    (rested : ∀ c, f c → after = .idle → c.programLoaded = true → Rested c) :
    Diary.interplay.Meets (alone f) (Call.enter after) fun _ => standing True :=
  (enterAllowed (P := alone f) (Q := alone fun c => f c ∧ c.state = after) after
    (fun w h => aloneStep (d := { w.console with state := after }) h
      ⟨h.nobody, h.owned, keeps w.console _ _ _ h.fact, rfl⟩)
    fun w before h =>
      (aloneStep (d := w.console.tell before after) h
        ⟨h.nobody, h.owned, keeps w.console _ _ _ h.fact.1, h.fact.2⟩).2).post
      fun _ w h => h.ordered (shown _ h.fact.1) fun idle loaded =>
        rested w.console h.fact.1 (h.fact.2.symm.trans idle) loaded

def Anything (_ : Console) : Prop := True

def Unmanned (c : Console) : Prop := c.core = none

def Emptied (c : Console) : Prop := Shown c ∧ c.programLoaded = false

theorem Emptied.same {c d : Console} (h : Emptied c) (mine : d.core = c.core)
    (loaded : d.programLoaded = c.programLoaded) (snapshot : d.snapshot = c.snapshot)
    (instructions : d.instructions = c.instructions) : Emptied d :=
  ⟨fun core held =>
    have published := h.1 core (mine.symm.trans held)
    ⟨snapshot.trans published.registers, instructions.trans published.count⟩,
    loaded.trans h.2⟩

theorem unloadAlone :
    Diary.interplay.Meets (standing True) Call.unload fun _ => alone Emptied :=
  unloadAllowed (P := standing True) (M := fun core => alone fun c => c.core = core)
    (N := fun core => alone fun c => c.core = some core) (A := alone Shown) (B := alone Emptied)
    (C := alone Emptied)
    (.look fun w h => ⟨h.2 trivial, fun core => h.1.sane.owned (.inl core), rfl⟩)
    (fun _ => aloneHolds rfl (fun _ _ => rfl) fun _ h => h.owned (by rw [h.fact]; rfl))
    (fun core => (publishAlone core fun _ _ _ h => h).post fun _ _ h =>
      ⟨h.nobody, h.owned, fun other mine => by cases h.fact.1.symm.trans mine; exact h.fact.2⟩)
    (fun _ h => ⟨h.nobody, h.owned, fun core mine => by cases h.fact.symm.trans mine⟩)
    (aloneKeeps fun _ h => ⟨fun core mine => ⟨(h core mine).1, (h core mine).2⟩, rfl⟩)
    (aloneKeeps fun _ h => h.same rfl rfl rfl rfl) (aloneKeeps fun _ h => h.same rfl rfl rfl rfl)

def Dismantled (c : Console) : Prop := c.core = none ∧ c.programLoaded = false

theorem dismantleAlone :
    Diary.interplay.Meets (alone Emptied) Call.dismantle fun _ => alone Dismantled :=
  aloneAlter fun _ h => ⟨h.nobody, fun core => (by cases core), rfl, h.fact.2⟩

theorem dismantledShown {c : Console} (h : Dismantled c) : Shown c := fun core mine => by
  cases h.1.symm.trans mine

theorem builtUnspent {config : Configuration} {host : Provision} {core : Core Unit}
    {devices : Syscall.Hosted Syscall.Devices}
    (built : (Call.build config host).1 = .ok (core, devices)) : core.retired = 0 := by
  unfold Call.build at built
  split at built
  · cases built
  · dsimp only at built
    split at built
    · cases built
    · cases built
      rfl

structure Accepted (core : Core Unit) (c : Console) : Prop extends Published c core where
  placed : c.core = some core
  unspent : core.retired = 0
  stopped : c.control.mode = .stopped

theorem Accepted.same {core : Core Unit} {c d : Console} (h : Accepted core c)
    (snapshot : d.snapshot = c.snapshot) (instructions : d.instructions = c.instructions)
    (mine : d.core = c.core) (control : d.control = c.control) : Accepted core d :=
  ⟨⟨snapshot.trans h.registers, instructions.trans h.count⟩, mine.trans h.placed, h.unspent,
    control ▸ h.stopped⟩

theorem Accepted.shown {core : Core Unit} {c : Console} (h : Accepted core c) : Shown c :=
  fun other mine => by
    cases h.placed.symm.trans mine
    exact h.toPublished

theorem Accepted.rested {core : Core Unit} {c : Console} (h : Accepted core c) : Rested c :=
  ⟨h.stopped, fun other mine => by
    cases h.placed.symm.trans mine
    exact h.unspent⟩

theorem enterAccepted (core : Core Unit) :
    Diary.interplay.Meets (alone (Accepted core)) (Call.enter .idle) fun _ => standing True :=
  enterGrounded (fun _ _ _ _ h => h.same rfl rfl rfl rfl) (fun _ h => h.shown)
    fun _ h _ _ => h.rested

theorem acceptedKeeps {core : Core Unit} {change : Console → Console}
    [same : ∀ c, Superficial c (change c)]
    (published : ∀ c, (change c).snapshot = c.snapshot ∧
      (change c).instructions = c.instructions) :
    Diary.interplay.Meets (alone (Accepted core)) (alter change) fun _ => alone (Accepted core) :=
  aloneKeeps fun c h =>
    h.same (published c).1 (published c).2 (same c).core (same c).control

end Alone

section Calls
variable {vacant : Prop}

theorem setUpStanding (host : Provision) :
    Diary.interplay.Meets (standing False) (Call.setUp host) fun _ => standing False := by
  refine setUpAllowed (U := fun initialized => cond initialized (standing False) (alone Unmanned))
    (A := alone Unmanned) (K := fun _ => alone Unmanned)
    (S := fun _ core => alone fun c => Unmanned c ∧ Published c core)
    (B := alone fun c => ∃ core, Accepted core c) (.look fun w h => ?_) (fun _ h => h)
    (enterAlone fun _ _ _ _ h => h) (.look fun _ h => h) (fun _ => aloneQuiet fun _ _ h => h)
    (fun _ core _ _ => publishAlone core fun _ _ _ h => h) (fun _ core _ built => ?_)
    ((enterGrounded (fun _ _ _ _ h => ?_) (fun _ h => ?_) fun _ h _ _ => ?_).post fun _ _ => weaken)
    fun _ _ _ => ?_
  · cases up : (Interplay.state Diary.interplay w).initialized with
    | true => exact h
    | false =>
      have owned := h.1.sane.owned
      have nobody : ∀ {P : Prop}, (w.console.core.isSome ∨ w.console.worker.isSome) → P :=
        fun some => by cases up.symm.trans (owned some)
      refine ⟨?_, fun core => nobody (.inl core), ?_⟩
      · by_contra manned
        exact nobody (.inr (Option.isSome_iff_ne_none.mpr manned))
      · by_contra mine
        exact nobody (.inl (Option.isSome_iff_ne_none.mpr mine))
  · exact aloneHolds rfl (fun c h => ⟨core, ⟨h.2.registers, h.2.count⟩, rfl, builtUnspent built,
      rfl⟩) fun _ _ => rfl
  · obtain ⟨core, h⟩ := h
    exact ⟨core, h.same rfl rfl rfl rfl⟩
  · obtain ⟨core, h⟩ := h
    exact h.shown
  · obtain ⟨core, h⟩ := h
    exact h.rested
  · exact (enterGrounded (fun _ _ _ _ h => h) (fun c h core mine => by cases h.symm.trans mine)
      fun _ _ idle => by cases idle).post fun _ _ => weaken

def Returned (core : Core Unit) (c : Console) : Prop :=
  c.initialized = true ∧ Published c core ∧ (c.state = .idle → c.programLoaded = false)

theorem finishedPublished {w : Diary} {core : Core Unit} (h : Follows w)
    (mine : w.console.worker = some (.finished core)) : Published w.console core := by
  obtain ⟨latest, retired⟩ := h.lent core (by unfold Console.lent; rw [mine])
  have unshown : w.console.unshown = 0 := by unfold Console.unshown; rw [mine]
  have uncounted : w.console.uncounted = 0 := by unfold Console.uncounted; rw [mine]
  have shown := h.shown
  have counted := h.counted
  rw [Diary.shown, unshown, Nat.sub_zero, latest] at shown
  rw [uncounted, ← retired] at counted
  exact ⟨(Option.some.inj shown).symm, counted⟩

theorem joinStanding {w : Diary} {core : Option (Core Unit)} {after : Console}
    (h : Ordered w) (joined : Call.join w.console = some (core, after)) :
    (core.elim (standing True) fun core => alone (Returned core)) (w.call after) := by
  obtain ⟨rfl, taken⟩ := joinTakes joined
  have manned : w.console.worker.isSome := by
    obtain ⟨-, died⟩ | ⟨core, -, finished⟩ := taken
    · rw [died]; rfl
    · rw [finished]; rfl
  have built : w.console.initialized = true := h.sane.owned (.inr manned)
  have away : w.console.core = none := h.exclusive manned
  obtain ⟨rfl, mine⟩ | ⟨core, rfl, mine⟩ := taken
  · have gone : Alone Unmanned { w.console with worker := none } := ⟨rfl, fun _ => built, away⟩
    refine callOrdered gone (fun core mine => ?_) fun idle loaded => ?_
    · cases away.symm.trans mine
    · cases (h.sane.ended (.inl mine) idle).2.symm.trans loaded
  · change Alone (Returned core) (w.call _).console
    rw [callGone rfl]
    obtain ⟨registers, count⟩ := finishedPublished (h.follows manned) mine
    exact ⟨rfl, fun _ => built, built, ⟨registers, count⟩, fun idle =>
      (h.sane.ended (.inr ⟨core, mine⟩) idle).2⟩

theorem reclaimStanding :
    Diary.interplay.Meets (standing vacant) Call.reclaim fun _ => standing True := by
  refine reclaimAllowed
    (H := fun core => core.elim (standing True) fun core => alone (Returned core))
    (fun w h nobody => ⟨h.1, fun _ => nobody⟩) (fun w core after h joined => ?_)
    (fun w core h => ?_) standingQuiet (enterStanding nofun)
  · refine ⟨fun _ => ?_, joinStanding h.1 joined⟩
    obtain ⟨rfl, -⟩ := joinGone joined
    exact ⟨rfl, rfl, .inr rfl⟩
  · obtain ⟨nobody, owned, built, published, unloaded⟩ := h
    have after : Alone (fun c => c.core = some core) { w.console with core := some core } :=
      ⟨nobody, fun _ => built, rfl⟩
    refine ⟨fun manned => ⟨rfl, rfl, .inl rfl⟩, ?_⟩
    refine callOrdered after (fun other mine => ?_) fun idle loaded => ?_
    · cases mine
      exact ⟨published.registers, published.count⟩
    · cases (unloaded idle).symm.trans loaded

theorem haltWorkerStanding :
    Diary.interplay.Meets (standing False) Call.haltWorker fun _ => standing True :=
  haltWorkerAllowed (M := fun _ => standing False) lookStanding (fun _ => enterStanding nofun)
    (controlStanding _ Trial.requestStopCalm) reclaimStanding reclaimStanding

theorem acceptStanding (core : Core Unit) (image : LoadedImage) (stack : UInt64) :
    Diary.interplay.Meets (alone fun c => c.initialized = true) (Call.accept core image stack)
      fun _ => standing True := by
  let started : Core Unit := startCore core image stack
  exact acceptAllowed (A := alone fun c => c.core = some started ∧ c.control.mode = .stopped)
    (B := alone (Accepted started)) (C := alone (Accepted started)) (D := alone (Accepted started))
    (E := alone (Accepted started)) (F := alone (Accepted started))
    (aloneHolds rfl (fun _ _ => ⟨rfl, rfl⟩) fun _ h => h.fact)
    ((publishAlone started fun _ _ _ h => h).post fun _ _ h =>
      ⟨h.nobody, h.owned, h.fact.2, h.fact.1.1, rfl, h.fact.1.2⟩)
    (acceptedKeeps fun _ => ⟨rfl, rfl⟩) (acceptedKeeps fun _ => ⟨rfl, rfl⟩)
    (acceptedKeeps fun _ => ⟨rfl, rfl⟩) (acceptedKeeps fun _ => ⟨rfl, rfl⟩)
    (aloneQuiet fun _ _ h => h.same rfl rfl rfl rfl) (enterAccepted started)

def Handed (core : Core Unit) (c : Console) : Prop := c.initialized = true ∧ Published c core

theorem placeStanding (core : Core Unit) (loader : Loader) (stack : UInt64) :
    Diary.interplay.Meets (alone (Handed core)) (Call.place core loader stack) fun _ =>
      standing False := by
  have fails (after : Lifecycle) :
      Diary.interplay.Meets (alone fun c => c.initialized = true ∧ Emptied c) (Call.enter after)
        fun _ => standing False :=
    (enterGrounded (fun _ _ _ _ h => ⟨h.1, h.2.same rfl rfl rfl rfl⟩) (fun _ h => h.2.1)
      fun _ h _ loaded => by cases h.2.2.symm.trans loaded).post fun _ _ => weaken
  refine placeAllowed (B := alone fun c => Handed core c ∧ c.programLoaded = false)
    (C := alone fun c => Handed core c ∧ c.programLoaded = false)
    (enterAlone fun _ _ _ _ h => ⟨h.1, h.2.registers, h.2.count⟩)
    (aloneKeeps fun _ h => ⟨⟨h.1, h.2.registers, h.2.count⟩, rfl⟩)
    (aloneKeeps fun _ h => ⟨⟨h.1.1, h.1.2.registers, h.1.2.count⟩, h.2⟩)
    (aloneHolds rfl (fun c h => ?_) fun _ h => h.fact.1.1) (fun image _ => ?_)
    (aloneQuiet fun _ _ h => ⟨h.1, h.2.same rfl rfl rfl rfl⟩) (fun _ _ => fails .idle)
    fun _ _ => fails .error
  · refine ⟨h.1.1, fun other mine => ?_, h.2⟩
    cases mine
    exact ⟨h.1.2.registers, h.1.2.count⟩
  · refine Meets.pre (P := alone fun c => c.initialized = true) ?_ fun _ h =>
      ⟨h.nobody, h.owned, h.fact.1⟩
    exact (acceptStanding _ image stack).post fun _ _ => weaken

def seen (core : Option (Core Unit)) : Assertion Diary.interplay where
  holds w := Ordered w ∧ w.console.worker = none ∧ w.console.core = core
  stable _ w h := by
    change Ordered w.thread ∧ w.thread.console.worker = none ∧ w.thread.console.core = core
    rw [threadAlone h.2.1]
    exact h
  safe _ h := h.1.follows

theorem lookForCore : Diary.interplay.Meets (standing True) (look Console.core) seen :=
  .look fun _ h => ⟨h.1, h.2 trivial, rfl⟩

theorem asideSeen {w : Diary} {d : Console} {core : Option (Core Unit)}
    (aside : Aside w.console d) (h : seen core w) : seen core (w.call d) := by
  refine ⟨asideOrdered aside h.1, ?_⟩
  rw [callSame aside.worker]
  exact ⟨aside.worker.trans h.2.1, aside.core.trans h.2.2⟩

theorem seenQuiet {core : Option (Core Unit)} : Quiet (seen core) := fun w journal h =>
  asideSeen (noteAside w.console _ journal) h

theorem seenStanding {core : Option (Core Unit)} (w : Diary) (h : seen core w) :
    standing False w := ⟨h.1, False.elim⟩

theorem loadStanding (loader : Loader) :
    Diary.interplay.Meets (standing False) (Call.load loader) fun _ => standing False :=
  loadAllowed (S := fun _ => standing False) (K := fun core _ => seen (some core)) lookStanding
    (fun _ _ => ⟨standingQuiet, fun _ h => h⟩) reclaimStanding lookForCore seenStanding
    (fun _ => .look fun _ h => h) (fun _ _ => seenQuiet) (fun _ _ _ => seenStanding)
    fun core _ _ => (placeStanding core loader _).pre fun w h => by
      have built : w.console.initialized = true := h.1.sane.owned (.inl (by rw [h.2.2]; rfl))
      exact ⟨h.2.1, fun _ => built, built, h.1.shown core h.2.2⟩

structure Launching (core : Core Unit) (c : Console) : Prop extends Published c core where
  initialized : c.initialized = true
  state : c.state = .running
  fresh : c.programLoaded = true → core.retired = 0

theorem spawnFollows {w : Diary} {core : Core Unit} (h : Launching core w.console) :
    Follows
      ⟨Call.spawn core w.console, [core.registers], core.retired, w.console.programLoaded⟩ where
  fresh := h.fresh
  behind := Nat.one_pos
  shown := congrArg some h.registers.symm
  counted := h.count
  lent other mine := by
    cases mine
    exact ⟨rfl, rfl⟩

theorem spawnStanding (core : Core Unit) :
    Diary.interplay.Meets (alone (Launching core)) (alter (Call.spawn core)) fun _ =>
      standing False := by
  refine .alter fun w h => ?_
  have nobody : w.console.worker = none := h.nobody
  have started : w.call (Call.spawn core w.console) =
      ⟨Call.spawn core w.console, [core.registers], core.retired, w.console.programLoaded⟩ := by
    unfold call
    rw [nobody]
    rfl
  have active (idle : w.console.state = .idle) : False := by
    cases h.fact.state.symm.trans idle
  have sane : Sane (Call.spawn core w.console) := {
    owned := fun _ => h.fact.initialized
    busy := fun job mine => by
      cases mine
      exact ⟨trivial, fun idle => (active idle).elim⟩
    ended := fun _ idle => (active idle).elim
    alone := fun _ idle => (active idle).elim }
  refine ⟨fun manned => ?_, ?_⟩
  · rw [show (Interplay.state Diary.interplay w) = w.console from rfl, nobody] at manned
    cases manned
  · change standing False (w.call (Call.spawn core w.console))
    rw [started]
    exact ⟨⟨sane, fun _ => rfl, fun _ => spawnFollows h.fact, fun _ mine => (by cases mine),
      fun idle => (active idle).elim⟩, False.elim⟩

theorem moveLaunching (core : Core Unit) :
    Diary.interplay.Meets (seen (some core)) (Call.move [.idle] .running) fun moved =>
      cond moved (alone (Launching core)) (seen (some core)) := by
  refine moveAllowed _ _ (fun w h idle => ?_) (fun _ h _ => h) fun w before h => ?_
  · obtain ⟨ordered, nobody, mine⟩ := h
    have was : w.console.state = .idle := List.mem_singleton.mp idle
    have built : w.console.initialized = true := ordered.sane.owned (.inl (by rw [mine]; rfl))
    have published := ordered.shown core mine
    have here : alone Anything w := ⟨nobody, fun _ => built, trivial⟩
    refine aloneStep (d := { w.console with state := .running }) here ⟨nobody, fun _ => built, ?_⟩
    exact ⟨⟨published.registers, published.count⟩, built, rfl,
      fun loaded => (ordered.rested was nobody loaded).2 core mine⟩
  · refine (aloneStep (d := w.console.tell before .running) h ⟨h.nobody, h.owned, ?_⟩).2
    exact ⟨⟨h.fact.registers, h.fact.count⟩, h.fact.initialized, h.fact.state, h.fact.fresh⟩

theorem startWorkerStanding :
    Diary.interplay.Meets (standing False) Call.startWorker fun _ => standing False :=
  startWorkerAllowed reclaimStanding lookForCore seenQuiet seenStanding moveLaunching spawnStanding
    fun _ => seenStanding

theorem pauseStanding :
    Diary.interplay.Meets (standing False) Call.pause fun _ => standing False :=
  switchAllowed (moveStanding _ nofun) (controlStanding _ (Trial.exchangeCalm rfl (by simp)))
    standingQuiet fun _ h => h

theorem resumeStanding :
    Diary.interplay.Meets (standing False) Call.resume fun _ => standing False :=
  switchAllowed (moveStanding _ nofun) (controlStanding _ (Trial.exchangeCalm rfl (by simp)))
    standingQuiet fun _ h => h

theorem standingServes :
    Serves Diary.interplay (fun _ => standing False) fun _ => standing False where
  setUp host := setUpStanding host
  load loader := loadStanding loader
  run :=
    runAllowed (F := fun _ => standing False) (S := fun _ => standing False) lookStanding
      standingQuiet (fun _ h => h) lookStanding resumeStanding startWorkerStanding
      fun _ _ _ => ⟨standingQuiet, fun _ h => h⟩
  pause := pauseStanding
  resume := resumeStanding
  togglePause := togglePauseAllowed standingQuiet pauseStanding resumeStanding fun _ h => h
  stop :=
    stopAllowed (moveStanding _ nofun) (controlStanding _ Trial.requestStopCalm) reclaimStanding
      unloadAlone
      ((enterGrounded (fun _ _ _ _ h => h.same rfl rfl rfl rfl) (fun _ h => h.1)
        fun _ h _ loaded => by cases h.2.symm.trans loaded).post fun _ _ => weaken)
      standingQuiet (reclaimStanding.post fun _ _ => weaken)
  readMemory _ _ :=
    readMemoryAllowed (S := fun _ => standing False) (F := fun _ => standing True) lookStanding
      (fun _ _ _ h => h) (fun _ _ => reclaimStanding) lookStanding (fun _ => weaken)
      fun _ _ => weaken
  reset host :=
    resetAllowed (D := alone Dismantled) (E := alone Dismantled) standingQuiet haltWorkerStanding
      unloadAlone dismantleAlone (aloneKeeps fun _ h => h) (aloneKeeps fun _ h => h)
      ((setUpStanding host).pre fun w h => weaken (h.ordered (dismantledShown h.fact)
        fun _ loaded => by cases h.fact.2.symm.trans loaded))
  shutdown :=
    shutdownAllowed haltWorkerStanding unloadAlone dismantleAlone
      ((enterGrounded (fun _ _ _ _ h => h) (fun _ => dismantledShown) fun _ h _ loaded => by
        cases h.2.symm.trans loaded).post fun _ _ => weaken)

end Calls

abbrev Session := Interplay.Session Console Diary Answer

def Session.start (config : Configuration) (observer : Observer) : Session :=
  ⟨⟨.new config observer, [.powerOn], 0, false⟩, .done .nothing⟩

abbrev Session.take (s : Session) (turn : Interplay.Turn Operation Unit) : Session :=
  Interplay.Session.take Diary.interplay Operation.call id s turn

abbrev Session.play (s : Session) (turns : List (Interplay.Turn Operation Unit)) : Session :=
  Interplay.Session.play Diary.interplay Operation.call id s turns

theorem sessionStanding (config : Configuration) (observer : Observer)
    (turns : List (Interplay.Turn Operation Unit)) :
    Diary.interplay.Secures (fun _ => standing False)
      ((Session.start config observer).play turns).rest
      ((Session.start config observer).play turns).world := by
  have begins : standing False (Session.start config observer).world := by
    have empty : Alone Unmanned (Session.start config observer).world.console :=
      ⟨rfl, fun mine => (by cases mine), rfl⟩
    exact weaken (empty.ordered (fun _ mine => by cases mine) fun _ loaded => by cases loaded)
  have starts : Diary.interplay.Meets (standing False) (pure Answer.nothing) fun _ =>
      standing False := .done fun _ h => h
  exact Interplay.Session.playSecures (fun call _ w h => standingServes.meets call w h) turns _
    (starts _ begins)

def hasEnded (c : Console) : Bool :=
  match c.worker with
  | some (.finished _) | some .died => true
  | _ => false

theorem endedNothing {c : Console} (ended : hasEnded c) : c.unshown = 0 ∧ c.uncounted = 0 := by
  unfold Console.unshown Console.uncounted
  split
  case h_1 job mine =>
    unfold hasEnded at ended
    rw [mine] at ended
    cases ended
  case h_2 => exact ⟨rfl, rfl⟩

theorem callConsole (w : Diary) (after : Console) : (w.call after).console = after := by
  unfold call
  split <;> rfl

theorem proceedCalls (s : Session) :
    (s.take .proceed).world = s.world.call (s.take .proceed).world.console := by
  obtain ⟨world, rest⟩ := s
  cases rest with
  | done value => exact (Diary.interplay.oursIdle world).symm
  | act change next =>
    dsimp only [Session.take, Interplay.Session.take]
    cases change (Diary.interplay.state world) with
    | none => exact (Diary.interplay.oursIdle world).symm
    | some after => exact congrArg world.call (callConsole world after).symm

theorem turnGoes {s : Session}
    (secured : Diary.interplay.Secures (fun _ => standing False) s.rest s.world)
    (manned : s.world.console.worker.isSome) (turn : Interplay.Turn Operation Unit) :
    let v := (s.take turn).world
    (v.console.worker.isSome → s.world.shown ≤ v.shown ∧
      s.world.console.instructions ≤ v.console.instructions) ∧
    (v.console.worker = none → v.console.snapshot = s.world.console.snapshot ∧
      v.console.instructions = s.world.console.instructions) := by
  cases turn with
  | begin call =>
    have same : (s.take (.begin call)).world = s.world := by
      unfold Session.take Interplay.Session.take
      dsimp only
      split <;> rfl
    intro v
    rw [show v = s.world from same]
    exact ⟨fun _ => ⟨Nat.le_refl _, Nat.le_refl _⟩, fun _ => ⟨rfl, rfl⟩⟩
  | proceed =>
    have allowed : Diary.interplay.allowed s.world.console (s.take .proceed).world.console :=
      Interplay.Session.proceedAllowed secured callConsole
    obtain ⟨snapshot, instructions, worker⟩ := allowed manned
    refine ⟨fun stays => ?_, fun _ => ⟨snapshot, instructions⟩⟩
    have kept : (s.take .proceed).world.console.worker = s.world.console.worker :=
      worker.resolve_right fun gone => by
        rw [gone] at stays
        cases stays
    refine ⟨?_, Nat.le_of_eq instructions.symm⟩
    rw [proceedCalls s, callSame kept]
    unfold Diary.shown Console.unshown
    dsimp only
    rw [kept]
    exact Nat.le_refl _
  | other t =>
    have goes : Goes s.world s.world.thread := threadGoes (secured.always manned)
    refine ⟨fun _ => ⟨goes.onward, goes.counts⟩, fun nobody => ?_⟩
    have stays : s.world.thread.console.worker.isSome := threadManned manned
    change s.world.thread.console.worker = none at nobody
    rw [nobody] at stays
    cases stays

/- What the controller sees of a loaded program while its thread is there: a register file that the
program has gone through, the last one or the one before; and the number of instructions up to that
one, or one less. Neither goes back. Once the thread has ended both are those of the last
instruction, and the thread is joined without a change. -/
theorem snapshotFollows (config : Configuration) (observer : Observer)
    (turns : List (Interplay.Turn Operation Unit)) :
    let s := (Session.start config observer).play turns
    let w := s.world
    let n := w.files.length - 1
    w.console.worker.isSome → w.loaded = true →
    (∀ core, w.console.lent = some core →
      w.files[n]? = some core.registers ∧ core.retired = n) ∧
    (w.files[w.shown]? = some w.console.snapshot ∧ n - 1 ≤ w.shown ∧ w.shown ≤ n ∧
      (w.console.instructions = w.shown ∨ w.console.instructions + 1 = w.shown)) ∧
    (hasEnded w.console → w.files[n]? = some w.console.snapshot ∧ w.console.instructions = n) ∧
    ∀ turn, let v := (s.take turn).world
      (v.console.worker.isSome → w.shown ≤ v.shown ∧
        w.console.instructions ≤ v.console.instructions) ∧
      (v.console.worker = none → v.console.snapshot = w.console.snapshot ∧
        v.console.instructions = w.console.instructions) := by
  intro s w n manned loaded
  have secured := sessionStanding config observer turns
  have follows : Follows w := secured.always manned
  have fresh : w.before = 0 := follows.fresh loaded
  have behind := follows.behind
  have counted := follows.counted
  have sooner := shownSooner w.console
  have all : w.completed = n := rfl
  have lag : w.shown = n - w.console.unshown := rfl
  rw [fresh, Nat.zero_add, all] at counted
  refine ⟨fun core mine => ?_, ⟨follows.shown, ?_, ?_, ?_⟩, fun ended => ?_,
    turnGoes secured manned⟩
  · obtain ⟨latest, retired⟩ := follows.lent core mine
    rw [fresh, Nat.zero_add] at retired
    exact ⟨latest, retired⟩
  · omega
  · omega
  · omega
  · have none : w.console.unshown = 0 ∧ w.console.uncounted = 0 := endedNothing ended
    have shown := follows.shown
    rw [lag, none.1] at shown
    rw [none.2] at counted
    exact ⟨shown, counted⟩

def runToHalt : List (Interplay.Turn Operation Unit) :=
  loadBrief ++ .begin .run :: .replicate 7 .proceed ++ .replicate 8 (.other ())

theorem snapshotFollowsHalting :
    let w := ((Session.start brief {}).play runToHalt).world
    w.console.worker.isSome ∧ w.loaded = true ∧ w.files.length = 2 ∧
      w.shown = 0 ∧ w.files[w.shown]? = some w.console.snapshot ∧ w.console.instructions = 0 := by
  have manned : ((Session.start brief {}).play runToHalt).world.console.worker.isSome := by
    decide +kernel
  have loaded : ((Session.start brief {}).play runToHalt).world.loaded = true := by decide +kernel
  obtain ⟨-, ⟨seen, -⟩, -⟩ := snapshotFollows brief {} runToHalt manned loaded
  exact ⟨manned, loaded, by decide +kernel, by decide +kernel, seen, by decide +kernel⟩

end GameConsole.Console.Diary
