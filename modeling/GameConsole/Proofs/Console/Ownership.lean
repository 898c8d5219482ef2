import GameConsole.Proofs.Console.Session
import GameConsole.Proofs.Console.Steps

/-! Contracts of the calls, and what follows for sessions: between calls the core is with one of
controller and thread, a program executes only while there is a thread, and a call that is rejected
has left no trace. -/
namespace GameConsole.Console
open Interplay (Meets)
open Procedure (look alter update await)
open Syscall (Devices Hosted)

instance : Lenient interplay := ⟨fun _ _ same _ busy => same.trans busy⟩

section Closure
variable {w : Watch} {c d : Console}

theorem callCall (same : c.state = w.console.state) : (w.call c).call d = w.call d := by
  simp [Watch.call, same]

theorem untouchedCall (untouched : Untouched w) (state : c.state = w.console.state)
    (same : c.view = w.console.view) : Untouched (w.call c) where
  unmoved := by simp [Watch.call, untouched.unmoved, state]
  same := same.trans untouched.same

theorem Settled.noted (settled : Settled c) (journal : Journal) :
    Settled { c with journal } :=
  ⟨⟨settled.exclusive, settled.active, settled.lasting⟩,
    ⟨settled.fit, settled.calm, settled.worker⟩, settled.manned⟩

theorem Settled.told (settled : Settled c) (before after : Lifecycle) :
    Settled (c.tell before after) :=
  ⟨⟨settled.exclusive, settled.active, settled.lasting⟩,
    ⟨settled.fit, settled.calm, settled.worker⟩, settled.manned⟩

theorem Halting.told (h : Halting c) (before after : Lifecycle) : Halting (c.tell before after) :=
  ⟨⟨h.fit, h.calm, h.worker⟩, h.state, h.working, h.core, h.initialized⟩

theorem Grounded.told (h : Grounded c) (before after : Lifecycle) :
    Grounded (c.tell before after) :=
  ⟨h.fit, h.calm, h.alone, h.manned⟩

theorem Grounded.settled (h : Grounded c) (ends : Ends c.state) : Settled c := by
  have notActive : ¬ (c.state = .running ∨ c.state = .paused) := by
    rintro (same | same) <;> rw [same] at ends <;> exact ends
  refine ⟨⟨.inr h.alone, fun active => absurd active notActive, ?_⟩,
    ⟨h.fit, h.calm, fun w same => ?_⟩, ?_⟩
  · constructor <;> intro same <;> rw [same] at ends <;> exact ends
  · rw [h.alone] at same
    cases same
  · rintro (core | worker)
    · exact h.manned core
    · rw [h.alone] at worker
      cases worker

theorem endedQuiet (rejected : Prop) : Quiet (ended rejected) := fun w journal h =>
  ⟨h.1.noted journal, fun r => untouchedCall (h.2 r) rfl (viewAlike ⟨w.console.journal, rfl⟩)⟩

theorem restingQuiet {f : Console → Prop}
    (quiet : ∀ c journal, f c → f { c with journal }) : Quiet (resting f) :=
  fun w journal h => ⟨endedQuiet True w journal h.1, h.2.1, quiet _ journal h.2.2⟩

theorem groundedQuiet {f : Console → Prop}
    (quiet : ∀ c journal, f c → f { c with journal }) : Quiet (grounded f) :=
  fun _ journal h => ⟨⟨h.1.fit, h.1.calm, h.1.alone, h.1.manned⟩, quiet _ journal h.2⟩

end Closure

section Reclaiming
variable {P Q : Assertion interplay}

def handedOver (Q : Assertion interplay) (core : Option (Core Unit)) : Assertion interplay where
  holds w := w.console.worker = none ∧ core.isSome ∧ Q (w.call { w.console with core })
  stable _ w h := by
    change w.thread.console.worker = none ∧ core.isSome ∧
      Q (w.thread.call { w.thread.console with core })
    rw [threadIdle h.1]
    exact h

theorem reclaimMeets (idle : ∀ w, P w → w.console.worker = none → Q w)
    (joins : ∀ w core, P w → w.console.worker = some (.finished core) →
      Q (w.call { w.console with worker := none, core := some core }))
    (alive : ∀ w, P w → w.console.worker ≠ some .died) :
    interplay.Meets P Call.reclaim fun _ => Q := by
  refine reclaimAllowed (H := handedOver Q) idle (fun w core after holds joined => ?_)
    (fun w core holds => ⟨fun _ same => ?_, holds.2.2⟩) (fun _ _ h => absurd h.2.1 (by simp))
    fun _ h => absurd h.2.1 (by simp)
  · obtain ⟨rfl, ⟨-, died⟩ | ⟨core, rfl, mine⟩⟩ := joinTakes joined
    · exact absurd died (alive w holds)
    · have both : (w.call { w.console with worker := none }).call
          { w.console with worker := none, core := some core } =
        w.call { w.console with worker := none, core := some core } := callCall rfl
      exact ⟨fun _ same => (by cases mine.symm.trans same), rfl, rfl,
        both.symm ▸ joins w core holds mine⟩
  · cases holds.1.symm.trans same

end Reclaiming

def Anything (_ : Console) : Prop := True

def Built (c : Console) : Prop := c.initialized = true

def Unbuilt (c : Console) : Prop := c.initialized = false

section Grounded
variable {f g : Console → Prop}

theorem groundedAlter {change : Console → Console}
    (keeps : ∀ c, Grounded c → f c → Grounded (change c) ∧ g (change c)) :
    interplay.Meets (grounded f) (alter change) fun _ => grounded g :=
  .alter fun w holds => by
    refine ⟨fun _ same => ?_, keeps w.console holds.1 holds.2⟩
    cases holds.1.alone.symm.trans same

theorem groundedKeeps {change : Console → Console} [same : ∀ c, Superficial c (change c)]
    (keeps : ∀ c, f c → g (change c)) :
    interplay.Meets (grounded f) (alter change) fun _ => grounded g :=
  groundedAlter fun c h holds => by
    refine ⟨⟨(same c).devices ▸ h.fit, (same c).observer ▸ h.calm,
      (same c).worker.trans h.alone, fun mine => ?_⟩, keeps c holds⟩
    rw [(same c).initialized]
    exact h.manned ((same c).core ▸ mine)

theorem publishMeets (core : Core Unit)
    (keeps : ∀ c snapshot instructions, f c → f { c with snapshot, instructions }) :
    interplay.Meets (grounded f) (Call.publish core) fun _ => grounded f :=
  .bind (Q := fun _ => grounded f) (groundedKeeps fun c => keeps c core.registers c.instructions)
    fun _ => groundedKeeps fun c => keeps c c.snapshot core.retired

theorem groundedEnter (after : Lifecycle)
    (keeps : ∀ c state observer journal, f c → f { c with state, observer, journal }) :
    interplay.Meets (grounded f) (Call.enter after) fun _ => grounded f :=
  enterMeets after
    (fun w h => ⟨⟨h.1.fit, h.1.calm, h.1.alone, h.1.manned⟩, keeps w.console _ _ _ h.2⟩)
    fun w before h => ⟨h.1.told before after, keeps w.console _ _ _ h.2⟩

theorem unloadMeets :
    interplay.Meets (grounded Anything) Call.unload fun _ => grounded Anything :=
  unloadAllowed (M := fun core => grounded fun c => core.isSome → Built c)
    (N := fun _ => grounded Anything) (.look fun _ holds => ⟨holds.1, holds.1.manned⟩)
    (fun _ => groundedAlter fun _ h built =>
      ⟨⟨h.fit, h.calm, h.alone, fun _ => built rfl⟩, trivial⟩)
    (fun core => publishMeets core fun _ _ _ _ => trivial) (fun _ holds => ⟨holds.1, trivial⟩)
    (groundedKeeps fun _ h => h) (groundedKeeps fun _ h => h) (groundedKeeps fun _ h => h)

theorem dismantleMeets : interplay.Meets (grounded Anything) Call.dismantle fun _ =>
    grounded Unbuilt :=
  groundedAlter fun c h _ => ⟨⟨h.fit, h.calm, h.alone, fun some => by cases some⟩, rfl⟩

theorem endMeets {rejected : Prop} (accepted : ¬ rejected) (after : Lifecycle) (ends : Ends after) :
    interplay.Meets (grounded f) (Call.enter after) fun _ => ended rejected :=
  enterMeets after
    (fun _ holds => ⟨Grounded.settled
      ⟨holds.1.fit, holds.1.calm, holds.1.alone, holds.1.manned⟩ ends,
      fun r => absurd r accepted⟩)
    fun _ before holds => ⟨holds.1.told before after, fun r => absurd r accepted⟩

theorem buildBegins {config : Configuration} {host : Provision} {error : ConsoleError}
    (refused : (Call.build config host).1 = .error error) :
    ¬ Refuses (.error error : Except ConsoleError Unit) := by
  unfold Call.build at refused
  split at refused
  · cases refused
    exact id
  · dsimp only at refused
    split at refused <;> cases refused
    exact id

theorem setUpMeets {host : Provision} {P : Assertion interplay}
    (up : ∀ w, P w → w.console.initialized = true → Settled w.console)
    (down : ∀ w, P w → w.console.initialized = false → Grounded w.console) :
    interplay.Meets P (Call.setUp host) fun result => ended (Refuses result) := by
  refine setUpAllowed (A := grounded Anything) (B := grounded Anything)
    (U := fun initialized => cond initialized (ended False) (grounded Anything))
    (K := fun _ => grounded Anything) (S := fun _ _ => grounded Anything)
    (.look fun w holds => ?_) (fun _ holds => ⟨holds.1, False.elim⟩)
    (groundedEnter _ fun _ _ _ _ _ => trivial) (.look fun _ holds => holds)
    (fun _ => groundedQuiet fun _ _ _ => trivial)
    (fun _ core _ _ => publishMeets core fun _ _ _ _ => trivial)
    (fun _ _ _ built => groundedAlter fun c h _ =>
      ⟨⟨(buildFit built).1, h.calm, h.alone, fun _ => rfl⟩, trivial⟩)
    (endMeets id .idle trivial) fun _ error refused => endMeets ?_ .error trivial
  · cases built : (interplay.state w).initialized with
    | true => exact ⟨up w holds built, False.elim⟩
    | false => exact ⟨down w holds built, trivial⟩
  · exact buildBegins refused

def Placed (core : Core Unit) (c : Console) : Prop :=
  Built c ∧ c.core = some core ∧ c.control = {}

theorem acceptMeets (core : Core Unit) (image : LoadedImage) (stack : UInt64) :
    interplay.Meets (grounded Built) (Call.accept core image stack) fun _ => loaded := by
  let placed : Assertion interplay := grounded (Placed (startCore core image stack))
  refine acceptAllowed (A := placed) (B := placed) (C := placed) (D := placed) (E := placed)
    (F := grounded fun c => Placed (startCore core image stack) c ∧ c.programLoaded = true)
    (groundedAlter fun c h i => ⟨⟨h.fit, h.calm, h.alone, fun _ => i⟩, i, rfl, rfl⟩)
    (publishMeets _ fun _ _ _ i => i) (groundedKeeps fun _ i => i) (groundedKeeps fun _ i => i)
    (groundedKeeps fun _ i => i) (groundedKeeps fun _ i => ⟨i, rfl⟩)
    (groundedQuiet fun _ _ i => i) (enterMeets _ (fun w h => ?_) fun w before h => ?_)
  · obtain ⟨⟨fit, calm, alone, manned⟩, ⟨_, core, control⟩, ready⟩ := h
    exact ⟨Grounded.settled ⟨fit, calm, alone, manned⟩ trivial, _,
      ⟨fit, rfl, ready, alone, core, control⟩⟩
  · obtain ⟨settled, core, fit, state, ready, alone, held, control⟩ := h
    exact ⟨settled.told before _, core, ⟨fit, state, ready, alone, held, control⟩⟩

def loadLeaves : Except ConsoleError UInt64 → Assertion interplay
  | .ok _ => loaded
  | .error e => ended (Refuses (.error e : Except ConsoleError UInt64))

theorem placeMeets (core : Core Unit) (loader : Loader) (stack : UInt64) :
    interplay.Meets (grounded Built) (Call.place core loader stack) loadLeaves :=
  placeAllowed (A := grounded Built) (B := grounded Built) (C := grounded Built)
    (D := grounded Built) (groundedEnter _ fun _ _ _ _ i => i) (groundedKeeps fun _ i => i)
    (groundedKeeps fun _ i => i)
    (groundedAlter fun _ h i => ⟨⟨h.fit, h.calm, h.alone, fun _ => i⟩, i⟩)
    (fun image _ => acceptMeets _ image stack) (groundedQuiet fun _ _ i => i)
    (fun _ _ => endMeets id .idle trivial) fun _ _ => endMeets id .error trivial

end Grounded

section Rejections

theorem undisturbedEnded {rejected : Prop} (w : Watch) (h : undisturbed w) : ended rejected w :=
  ⟨h.1, fun _ => h.2 trivial⟩

theorem undisturbedQuiet : Quiet undisturbed := endedQuiet True

theorem lapsedQuiet : Quiet lapsed := fun w journal h => ⟨undisturbedQuiet w journal h.1, h.2⟩

theorem reclaimLapsed : interplay.Meets lapsed Call.reclaim fun _ => resting Anything := by
  refine reclaimMeets (fun w h mine => ⟨h.1, mine, trivial⟩) (fun w core h finished => ?_)
    fun w h died => ?_
  · obtain ⟨⟨settled, untouched⟩, lapsed⟩ := h
    have built : w.console.initialized = true := settled.manned (.inr (by rw [finished]; rfl))
    have same : view { w.console with worker := none, core := some core } = w.console.view := by
      rw [view, view, finished]
    exact ⟨⟨⟨⟨.inr rfl, fun active => absurd active lapsed, settled.lasting⟩,
        ⟨settled.fit, settled.calm, fun _ none => by cases none⟩, fun _ => built⟩,
      fun _ => untouchedCall (untouched trivial) rfl same⟩, rfl, trivial⟩
  · obtain ⟨job, busy, -⟩ | ⟨core, finished⟩ := h.1.1.worker _ died
    · cases busy
    · cases finished

theorem lookForCore : interplay.Meets (resting Anything) (look Console.core) fun core =>
    resting fun c => c.core = core :=
  .look fun _ h => ⟨h.1, h.2.1, rfl⟩

theorem restingGrounded {core : Core Unit} (w : Watch)
    (h : resting (fun c => c.core = some core) w) : grounded Built w :=
  ⟨⟨h.1.1.fit, h.1.1.calm, h.2.1, fun some => h.1.1.manned (.inl some)⟩,
    h.1.1.manned (.inl (by rw [h.2.2]; rfl))⟩

def seen (state : Lifecycle) : Assertion interplay where
  holds w := undisturbed w ∧ (state ≠ .running → state ≠ .paused → ¬ w.console.active)
  stable t w h := ⟨undisturbed.stable t w h.1, fun running paused =>
    (lapsed.stable t w ⟨h.1, h.2 running paused⟩).2⟩

theorem lookAtState : interplay.Meets undisturbed (look Console.state) seen :=
  .look fun _ h => ⟨h, fun running paused active => active.elim running paused⟩

theorem seenQuiet {state : Lifecycle} : Quiet (seen state) :=
  fun w journal h => ⟨undisturbedQuiet w journal h.1, h.2⟩

theorem reclaimSeen {state : Lifecycle} (running : state ≠ .running) (paused : state ≠ .paused) :
    interplay.Meets (seen state) Call.reclaim fun _ => resting Anything :=
  reclaimLapsed.pre fun _ h => ⟨h.1, h.2 running paused⟩

theorem loadMeets (loader : Loader) :
    interplay.Meets undisturbed (Call.load loader) loadLeaves :=
  loadAllowed (F := fun core => resting fun c => c.core = core)
    (K := fun core _ => resting fun c => c.core = some core) lookAtState
    (fun _ _ => ⟨seenQuiet, fun _ h => undisturbedEnded _ h.1⟩) (reclaimSeen (by simp) (by simp))
    lookForCore (fun _ h => undisturbedEnded _ h.1) (fun _ => .look fun _ h => h)
    (fun _ _ => restingQuiet fun _ _ h => h) (fun _ _ _ _ h => undisturbedEnded _ h.1)
    fun core _ _ => (placeMeets core loader _).pre restingGrounded

theorem readMemoryMeets (address length : UInt64) :
    interplay.Meets undisturbed (Call.readMemory address length) fun result =>
      ended (Refuses result) :=
  readMemoryAllowed (F := fun core => resting fun c => c.core = core) lookAtState
    (fun _ _ _ h => undisturbedEnded _ h.1)
    (fun state still => reclaimSeen (fun same => still (by simp [same]))
      fun same => still (by simp [same]))
    lookForCore (fun _ h => undisturbedEnded _ h.1) fun _ _ h => undisturbedEnded _ h.1

theorem Settled.activated {c : Console} (settled : Settled c) (active : c.active)
    (after : Lifecycle) (again : after = .running ∨ after = .paused) :
    Settled { c with state := after } :=
  ⟨⟨settled.exclusive, fun _ => settled.active active, by
      obtain rfl | rfl := again <;> constructor <;> intro same <;> cases same⟩,
    ⟨settled.fit, settled.calm, settled.worker⟩, settled.manned⟩

theorem moveActive (before after : Lifecycle) (was : before = .running ∨ before = .paused)
    (again : after = .running ∨ after = .paused) :
    interplay.Meets undisturbed (Call.move [before] after) fun moved =>
      cond moved (ended False) undisturbed := by
  refine moveMeets [before] after (fun w h origin => ?_) (fun _ h _ => h) fun w before h => ?_
  · obtain rfl := List.mem_singleton.mp origin
    exact ⟨h.1.activated was after again, False.elim⟩
  · exact ⟨h.1.told before after, False.elim⟩

theorem acceptedEnded {rejected : Prop} (accepted : ¬ rejected) (w : Watch)
    (h : ended False w) : ended rejected w :=
  ⟨h.1, fun r => absurd r accepted⟩

theorem controlSettled (f : Control → Control) :
    interplay.Meets (ended False) (Call.control f) fun _ => ended (true = false) :=
  (controlMeets (P := ended False) f fun _ h => ⟨⟨⟨h.1.exclusive, h.1.active, h.1.lasting⟩,
    ⟨h.1.fit, h.1.calm, h.1.worker⟩, h.1.manned⟩, False.elim⟩).post
      fun _ => acceptedEnded (by simp)

theorem pauseMeets :
    interplay.Meets undisturbed Call.pause fun paused => ended (paused = false) :=
  switchAllowed (moveActive .running .paused (.inl rfl) (.inr rfl)) (controlSettled _)
    undisturbedQuiet undisturbedEnded

theorem resumeMeets :
    interplay.Meets undisturbed Call.resume fun resumed => ended (resumed = false) :=
  switchAllowed (moveActive .paused .running (.inr rfl) (.inl rfl)) (controlSettled _)
    undisturbedQuiet undisturbedEnded

def Launching (c : Console) : Prop := Built c ∧ c.state = .running

theorem spawnMeets (core : Core Unit) :
    interplay.Meets (grounded Launching) (alter (Call.spawn core)) fun _ => ended False := by
  refine .alter fun w h => ⟨fun job same => ?_, ?_, False.elim⟩
  · cases h.1.alone.symm.trans same
  · obtain ⟨⟨fit, calm, -, -⟩, built, running⟩ := h
    refine ⟨⟨.inl rfl, fun _ => ⟨rfl, rfl⟩, ?_⟩, ⟨fit, calm, fun worker same => ?_⟩, fun _ => built⟩
    · constructor <;> intro same <;> cases running.symm.trans same
    · cases same
      exact .inl ⟨_, rfl, trivial⟩

theorem startWorkerMeets :
    interplay.Meets (seen .idle) Call.startWorker fun started => ended (started = false) := by
  refine startWorkerAllowed (F := fun core => resting fun c => c.core = core)
    (L := fun _ => grounded Launching) (N := fun core => resting fun c => c.core = some core)
    (reclaimSeen (by simp) (by simp)) lookForCore (restingQuiet fun _ _ h => h)
    (fun _ h => undisturbedEnded _ h.1) (fun core => ?_)
    (fun core => (spawnMeets core).post fun _ => acceptedEnded (by simp))
    fun _ _ h => undisturbedEnded _ h.1
  refine moveMeets _ _ (fun w h _ => ?_) (fun _ h _ => h) fun w before h =>
    ⟨h.1.told before _, h.2⟩
  obtain ⟨⟨fit, calm, alone, manned⟩, built⟩ := restingGrounded w h
  exact ⟨⟨fit, calm, alone, manned⟩, built, rfl⟩

theorem runMeets : interplay.Meets undisturbed Call.run fun running => ended (running = false) :=
  runAllowed (F := fun _ => undisturbed) (.look fun _ h => h) undisturbedQuiet undisturbedEnded
    lookAtState (resumeMeets.pre fun _ h => h.1) startWorkerMeets
    fun _ _ _ => ⟨seenQuiet, fun _ h => undisturbedEnded _ h.1⟩

end Rejections

section Halting

theorem haltingControl (f : Control → Control) :
    interplay.Meets halting (Call.control f) fun _ => halting :=
  controlMeets f fun _ h => ⟨⟨h.fit, h.calm, h.worker⟩, h.state, h.working, h.core, h.initialized⟩

theorem Settled.halting {c : Console} (settled : Settled c) (working : c.worker.isSome) :
    Halting { c with state := .stopping } := by
  refine ⟨⟨settled.fit, settled.calm, settled.worker⟩, rfl, working, ?_,
    settled.manned (.inr working)⟩
  exact settled.exclusive.resolve_right fun none => by
    rw [none] at working
    cases working

theorem reclaimHalting : interplay.Meets halting Call.reclaim fun _ => grounded Anything := by
  refine reclaimMeets (fun w h none => ?_) (fun w core h _ => ?_) fun w h died => ?_
  · have working := h.working
    rw [none] at working
    cases working
  · exact ⟨⟨h.fit, h.calm, rfl, fun _ => h.initialized⟩, trivial⟩
  · obtain ⟨job, busy, -⟩ | ⟨core, finished⟩ := h.worker _ died
    · cases busy
    · cases finished

theorem stopMeets :
    interplay.Meets undisturbed Call.stop fun stopped => ended (stopped = false) := by
  refine stopAllowed (A := halting) (B := halting) (H := lapsed) ?_ (haltingControl _)
    reclaimHalting unloadMeets (endMeets (by simp) .idle trivial) lapsedQuiet
    (reclaimLapsed.post fun _ _ h => undisturbedEnded _ h.1)
  refine moveMeets _ _ (fun w h origin => ?_) (fun w h other => ⟨h, ?_⟩) fun w before h =>
    Halting.told h before _
  · have active : w.console.active := by
      change w.console.state ∈ _ at origin
      simpa [active] using origin
    exact h.1.halting (h.1.active active).1
  · change w.console.state ∉ _ at other
    simpa [active] using other

theorem haltWorkerMeets :
    interplay.Meets undisturbed Call.haltWorker fun _ => grounded Anything := by
  refine haltWorkerAllowed (A := halting) (B := halting)
    (M := fun worker => cond worker.isSome manned (resting Anything)) (.look fun w h => ?_)
    (fun _ => enterMeets _ (fun w h => h.1.halting h.2) fun w before h => Halting.told h before _)
    (haltingControl _) reclaimHalting ?_
  · cases mine : (interplay.state w).worker with
    | none => exact ⟨h, mine, trivial⟩
    | some worker => exact ⟨h.1, Option.isSome_of_mem mine⟩
  · have none : interplay.Meets (resting Anything) Call.reclaim fun _ => resting Anything :=
      reclaimMeets (fun _ h _ => h) (fun w core h finished => by cases h.2.1.symm.trans finished)
        fun w h died => by cases h.2.1.symm.trans died
    exact none.post fun _ w h =>
      ⟨⟨h.1.1.fit, h.1.1.calm, h.2.1, fun core => h.1.1.manned (.inl core)⟩, trivial⟩

end Halting

theorem initializeMeets (host : Provision) :
    interplay.Meets undisturbed (Call.setUp host) fun result => ended (Refuses result) := by
  refine setUpMeets (fun w h _ => h.1) fun w h down => ?_
  have nobody (some : w.console.core.isSome ∨ w.console.worker.isSome) : False := by
    cases down.symm.trans (h.1.manned some)
  refine ⟨h.1.fit, h.1.calm, ?_, fun core => (nobody (.inl core)).elim⟩
  exact Option.not_isSome_iff_eq_none.mp fun worker => nobody (.inr worker)

def Answer.leaves : Answer → Assertion interplay
  | .loaded result => loadLeaves result
  | answer => ended answer.Rejects

theorem leavesEnded {answer : Answer} {w : Watch} (h : answer.leaves w) :
    ended answer.Rejects w := by
  cases answer with
  | loaded result =>
    cases result with
    | ok entry => exact ⟨h.1, False.elim⟩
    | error e => exact h
  | _ => exact h

theorem undisturbedServes : Serves interplay (fun _ => undisturbed) Answer.leaves where
  setUp host := initializeMeets host
  load loader := loadMeets loader
  run := runMeets
  pause := pauseMeets
  resume := resumeMeets
  togglePause := togglePauseAllowed undisturbedQuiet pauseMeets resumeMeets undisturbedEnded
  stop := stopMeets
  readMemory address length := readMemoryMeets address length
  reset host :=
    resetAllowed (D := grounded Unbuilt) (E := grounded Unbuilt) undisturbedQuiet haltWorkerMeets
      unloadMeets dismantleMeets (groundedKeeps fun _ i => i) (groundedKeeps fun _ i => i)
      (setUpMeets (fun _ h built => by cases h.2.symm.trans built) fun _ h _ => h.1)
  shutdown :=
    shutdownAllowed haltWorkerMeets unloadMeets dismantleMeets (endMeets id .idle trivial)

theorem newSettled (config : Configuration) : Settled (.new config {}) where
  exclusive := .inl rfl
  active running := by obtain same | same := running <;> cases same
  lasting := by constructor <;> intro same <;> cases same
  fit := ⟨Syscall.Dispatcher.emptyDeaf, rfl⟩
  calm := rfl
  worker _ same := by cases same
  manned some := by obtain same | same := some <;> cases same

theorem sessionSecures (config : Configuration) (turns : List (Interplay.Turn Operation Unit)) :
    interplay.Secures (fun answer => answer.leaves) ((Session.start config).play turns).rest
      ((Session.start config).play turns).world := by
  have begins : Answer.nothing.leaves (Session.start config).world :=
    ⟨newSettled config, False.elim⟩
  refine Interplay.Session.playSecures (fun call answer w h => ?_) turns _
    (Interplay.Assertion.secures begins)
  exact undisturbedServes.meets call _ ⟨(leavesEnded h).1, fun _ => ⟨rfl, rfl⟩⟩

/- A thread is never taken away from the console while it is at work, nor is another put in its
place: there is one at most. -/
theorem sessionOrderly (config : Configuration) (turns : List (Interplay.Turn Operation Unit)) :
    let s := (Session.start config).play turns
    (∀ answer, s.rest = .done answer →
      Orderly s.world.console ∧ (answer.Rejects → Untouched s.world)) ∧
    ∀ job, s.world.console.worker = some (.busy job) →
      (s.take .proceed).world.console.worker = some (.busy job) := by
  intro s
  have secured := sessionSecures config turns
  refine ⟨fun answer done => ?_, Interplay.Session.proceedAllowed secured fun _ _ => rfl⟩
  rw [done] at secured
  have left := leavesEnded secured.result
  exact ⟨left.1.toOrderly, left.2⟩

theorem sessionLoads (config : Configuration) (turns : List (Interplay.Turn Operation Unit))
    {entry : UInt64}
    (done : ((Session.start config).play turns).rest = .done (.loaded (.ok entry))) :
    ∃ core, Loaded ((Session.start config).play turns).world.console core := by
  have secured := sessionSecures config turns
  rw [done] at secured
  exact secured.result.2

end GameConsole.Console
