import GameConsole.Proofs.Console.Readiness

/-! When a thread is started. A call that runs the program looks whether one is loaded, then at the
state, and then takes the core back from the thread before; a program that halts meanwhile is no
longer loaded once its console is idle, and is started all the same. -/
namespace GameConsole.Console
open Interplay (Meets)
open Procedure (look alter update await)

namespace Trial

section Alone
variable {keen : Prop} {f g : Console → Prop} {c : Console}

theorem vacantSane (alone : c.worker = none) (owned : c.core.isSome → c.initialized = true)
    (primed : c.state = .idle → c.programLoaded = true → c.control.mode = .stopped) : Sane c where
  owned some := by
    obtain core | worker := some
    · exact owned core
    · rw [alone] at worker
      cases worker
  busy _ mine := by cases alone.symm.trans mine
  ended gone := by
    obtain died | ⟨core, finished⟩ := gone
    · cases alone.symm.trans died
    · cases alone.symm.trans finished
  alone _ := primed

theorem aloneAlter {change : Console → Console}
    (keeps : ∀ c, c.worker = none → Sane c → f c →
      (change c).worker = none ∧ Sane (change c) ∧ g (change c)) :
    Trial.interplay.Meets (alone False f) (alter change) fun _ => alone False g :=
  .alter fun w h => by
    have nobody : w.console.worker = none := h.1.alone trivial
    obtain ⟨alone, sane, fact⟩ := keeps w.console nobody h.1.sane h.2
    refine ⟨fun job busy => ?_, ⟨sane, followFair h.1.fair fun working => ?_, False.elim,
      fun _ => alone⟩, fact⟩
    · cases nobody.symm.trans busy
    · unfold Console.working at working
      rw [show (Interplay.state Trial.interplay w) = w.console from rfl, alone] at working
      cases working

theorem aloneCalm {change : Console → Console} (keeps : ∀ c, f c → f (change c))
    [calm : ∀ c, Calm c (change c)] :
    Trial.interplay.Meets (alone keen f) (alter change) fun _ => alone keen f :=
  .alter fun w h => ⟨fun _ busy => (calm w.console).worker.trans busy,
    (calm w.console).stands h.1, keeps _ h.2⟩

theorem publishAlone (core : Core Unit)
    (keeps : ∀ c snapshot instructions, f c → f { c with snapshot, instructions }) :
    Trial.interplay.Meets (alone keen f) (Call.publish core) fun _ => alone keen f :=
  .bind (aloneCalm fun c => keeps c core.registers c.instructions) fun _ =>
    aloneCalm fun c => keeps c c.snapshot core.retired

theorem aloneQuiet (keeps : ∀ c journal, f c → f { c with journal }) : Quiet (alone keen f) :=
  fun w journal h => ⟨(noteCalm _ _ journal).stands h.1, keeps w.console journal h.2⟩

theorem enterAlone {after : Lifecycle} (away : after ≠ .idle)
    (keeps : ∀ c state observer journal, f c → f { c with state, observer, journal }) :
    Trial.interplay.Meets (alone keen f) (Call.enter after) fun _ => alone keen f :=
  enterMeets after
    (fun w h => ⟨(stateCalm _ away).stands h.1, keeps w.console _ _ _ h.2⟩)
    fun w _ h => ⟨(noteCalm _ _ _).stands h.1, keeps w.console _ _ _ h.2⟩

theorem enterError :
    Trial.interplay.Meets (alone keen f) (Call.enter .error) fun _ => standing False False :=
  Meets.pre (P := standing True keen)
    (Meets.post (enterStanding nofun) fun _ _ h => weaken h False.elim) fun _ h => h.1

theorem enterIdle (primed : ∀ c, f c → c.programLoaded = true → c.control.mode = .stopped) :
    Trial.interplay.Meets (alone False f) (Call.enter .idle) fun _ => standing False False :=
  (enterMeets (Q := standing True False) .idle
    (fun w h => by
      have nobody : w.console.worker = none := h.1.alone trivial
      exact ⟨vacantSane nobody (fun core => h.1.sane.owned (.inl core))
        fun _ => primed w.console h.2, followFair h.1.fair id, False.elim, fun _ => nobody⟩)
    fun _ _ h => (noteCalm _ _ _).stands h).post fun _ _ h => weaken h False.elim

def Anything (_ : Console) : Prop := True

def Unloaded (c : Console) : Prop := c.programLoaded = false

def Rested (c : Console) : Prop := c.initialized = true ∧ c.control.mode = .stopped

def Placing (c : Console) : Prop := c.initialized = true ∧ Unloaded c

theorem unloadAlone :
    Trial.interplay.Meets (alone False Anything) Call.unload fun _ => alone False Unloaded :=
  unloadAllowed (M := fun core => alone False fun c => core.isSome → c.initialized = true)
    (N := fun _ => alone False Anything)
    (.look fun _ h => ⟨h.1, fun core => h.1.sane.owned (.inl core)⟩)
    (fun _ => aloneAlter fun _ nobody _ built => ⟨nobody, vacantSane nobody (fun _ => built rfl)
      fun _ _ => rfl, trivial⟩)
    (fun core => publishAlone core fun _ _ _ _ => trivial) (fun _ h => ⟨h.1, trivial⟩)
    (aloneAlter fun _ nobody sane _ => ⟨nobody, vacantSane nobody
      (fun core => sane.owned (.inl core)) (fun _ loaded => by cases loaded), rfl⟩)
    (aloneCalm fun _ h => h) (aloneCalm fun _ h => h)

theorem dismantleAlone :
    Trial.interplay.Meets (alone False Unloaded) Call.dismantle fun _ => alone False Unloaded :=
  aloneAlter fun _ nobody _ unloaded => ⟨nobody, vacantSane nobody (fun core => by cases core)
    fun _ loaded => (by cases unloaded.symm.trans loaded), unloaded⟩

theorem setUpStanding (host : Provision) :
    Trial.interplay.Meets (standing False False) (Call.setUp host) fun _ =>
      standing False False := by
  let vacant : Assertion Trial.interplay := alone False Anything
  refine setUpAllowed (U := fun initialized => cond initialized (standing False False) vacant)
    (A := vacant) (K := fun _ => vacant) (S := fun _ _ => vacant) (B := alone False Rested)
    (.look fun w h => ?_) (fun _ h => h) (enterAlone (by simp) fun _ _ _ _ h => h)
    (.look fun _ h => h) (fun _ => aloneQuiet fun _ _ h => h)
    (fun _ core _ _ => publishAlone core fun _ _ _ h => h)
    (fun _ _ _ _ => aloneAlter fun _ nobody _ _ => ⟨nobody, vacantSane nobody (fun _ => rfl)
      fun _ _ => rfl, rfl, rfl⟩)
    (enterIdle fun _ h _ => h.2) fun _ _ _ => enterError
  cases down : (interplay.state w).initialized with
  | true => exact h
  | false =>
    refine ⟨⟨h.sane, h.fair, False.elim, fun _ => ?_⟩, trivial⟩
    by_contra manned
    have built := h.sane.owned (.inr (Option.isSome_iff_ne_none.mpr manned))
    cases down.symm.trans built

def Initialized (c : Console) : Prop := c.initialized = true

theorem acceptAlone (core : Core Unit) (image : LoadedImage) (stack : UInt64) :
    Trial.interplay.Meets (alone False Initialized) (Call.accept core image stack) fun _ =>
      standing False False := by
  let rested : Assertion Trial.interplay := alone False Rested
  exact acceptAllowed (A := rested) (B := rested) (C := rested) (D := rested) (E := rested)
    (F := rested)
    (aloneAlter fun _ nobody _ built => ⟨nobody, vacantSane nobody (fun _ => built) fun _ _ => rfl,
      built, rfl⟩)
    (publishAlone _ fun _ _ _ h => h) (aloneCalm fun _ h => h) (aloneCalm fun _ h => h)
    (aloneCalm fun _ h => h)
    (aloneAlter fun _ nobody _ rested => ⟨nobody, vacantSane nobody (fun _ => rested.1)
      fun _ _ => rested.2, rested⟩)
    (aloneQuiet fun _ _ h => h) (enterIdle fun _ h _ => h.2)

theorem placeAlone (core : Core Unit) (loader : Loader) (stack : UInt64) :
    Trial.interplay.Meets (alone False Initialized) (Call.place core loader stack) fun _ =>
      standing False False :=
  placeAllowed (A := alone False Initialized) (B := alone False Placing) (C := alone False Placing)
    (D := alone False Placing) (enterAlone (by simp) fun _ _ _ _ h => h)
    (aloneAlter fun _ nobody _ built => ⟨nobody, vacantSane nobody (fun _ => built)
      (fun _ loaded => by cases loaded), built, rfl⟩)
    (aloneCalm fun _ h => h)
    (aloneAlter fun _ nobody _ h => ⟨nobody, vacantSane nobody (fun _ => h.1)
      (fun _ loaded => by cases h.2.symm.trans loaded), h⟩)
    (fun image _ => (acceptAlone _ image stack).pre fun _ h => ⟨h.1, h.2.1⟩)
    (aloneQuiet fun _ _ h => h)
    (fun _ _ => enterIdle fun _ h loaded => by cases h.2.symm.trans loaded)
    fun _ _ => enterError

end Alone

section Reclaiming
variable {vacant keen : Prop}

theorem joinStands {w : Trial} {core : Option (Core Unit)} {after : Console}
    (h : Stands vacant keen w) (joined : Call.join w.console = some (core, after)) :
    (∀ job, w.console.worker ≠ some (.busy job)) ∧ Stands True keen (w.call after) ∧
      after.initialized = true := by
  obtain ⟨rfl, gone⟩ := joinGone joined
  have built : w.console.initialized = true := h.sane.owned <| .inr <| by
    obtain died | ⟨core, finished⟩ := gone
    · rw [died]; rfl
    · rw [finished]; rfl
  refine ⟨fun job busy => ?_, ⟨vacantSane rfl (fun _ => built) fun idle loaded => ?_,
    followFair h.fair (fun working => by cases working), ?_, fun _ => rfl⟩, built⟩
  · obtain died | ⟨core, finished⟩ := gone
    · cases died.symm.trans busy
    · cases finished.symm.trans busy
  · cases (h.sane.ended gone idle).2.symm.trans loaded
  · exact fun k => h.keen k

theorem reclaimStanding :
    Trial.interplay.Meets (standing vacant keen) Call.reclaim fun _ => standing True keen := by
  refine reclaimAllowed (H := fun _ => alone keen Initialized)
    (fun _ h nobody => ⟨h.sane, h.fair, h.keen, fun _ => nobody⟩) (fun w core after h joined => ?_)
    (fun w core h => ?_) (aloneQuiet fun _ _ h => h) (Meets.pre (enterStanding nofun) fun _ h => h.1)
  · obtain ⟨idle, stands, built⟩ := joinStands h joined
    exact ⟨fun job busy => absurd busy (idle job), stands, built⟩
  · obtain ⟨stands, built⟩ := h
    have nobody : w.console.worker = none := stands.alone trivial
    refine ⟨fun job busy => ?_, ⟨vacantSane nobody (fun _ => built) (stands.sane.alone nobody),
      followFair stands.fair id, stands.keen, fun _ => nobody⟩⟩
    cases nobody.symm.trans busy

theorem lookForCore : Trial.interplay.Meets (standing True keen) (look Console.core) fun core =>
    alone keen fun c => core.isSome → c.initialized = true :=
  .look fun _ h => ⟨h, fun core => h.sane.owned (.inl core)⟩

theorem requestStopCalm (c : Console) : Calm c { c with control := c.control.requestStop } :=
  ⟨rfl, rfl, rfl, rfl, fun _ => rfl, id⟩

theorem haltWorkerStanding :
    Trial.interplay.Meets (standing False False) Call.haltWorker fun _ => alone False Anything :=
  haltWorkerAllowed (M := fun _ => standing False False) lookStanding (fun _ => enterStanding nofun)
    (controlStanding _ requestStopCalm) (reclaimStanding.post fun _ _ h => ⟨h, trivial⟩)
    (reclaimStanding.post fun _ _ h => ⟨h, trivial⟩)

end Reclaiming

section Calls
variable {keen : Prop}

theorem loadStanding (loader : Loader) :
    Trial.interplay.Meets (standing False False) (Call.load loader) fun _ =>
      standing False False :=
  loadAllowed (S := fun _ => standing False False) (K := fun _ _ => alone False Initialized)
    lookStanding (fun _ _ => ⟨standingQuiet, fun _ h => h⟩) reclaimStanding lookForCore
    (fun _ h => weaken h.1 False.elim) (fun _ => .look fun _ h => ⟨h.1, h.2 rfl⟩)
    (fun _ _ => aloneQuiet fun _ _ h => h) (fun _ _ _ _ h => weaken h.1 False.elim)
    fun core _ _ => placeAlone core loader _

theorem pauseStanding :
    Trial.interplay.Meets (standing False False) Call.pause fun _ => standing False False :=
  switchAllowed (moveStanding _ nofun) (controlStanding _ (exchangeCalm rfl (by simp))) standingQuiet
    fun _ h => h

def answered (keen : Prop) (going : Bool) : Assertion Trial.interplay :=
  cond going (accepted keen) (standing False keen)

theorem answeredStanding {going : Bool} (w : Trial) (h : answered keen going w) :
    standing False False w := by
  cases going with
  | true => exact weaken h.1 False.elim
  | false => exact weaken h False.elim

theorem acceptedCalm {w : Trial} {after : Console} (h : accepted keen w)
    (calm : Calm w.console after) : accepted keen (w.call after) := by
  refine ⟨calm.stands h.1, h.2.imp (fun resumed => ?_) fun started => ?_⟩
  · simp [call, Trail.follow, resumed]
  · unfold call Trail.follow
    dsimp only
    split
    · rfl
    · exact started

theorem resumeAnswered :
    Trial.interplay.Meets (standing False keen) Call.resume (answered keen) := by
  refine switchAllowed (A := accepted keen) (B := standing False keen)
    (moveMeets _ _ (fun w h paused => ⟨(stateCalm _ (by simp)).stands h, .inl ?_⟩) (fun _ h _ => h)
      fun _ _ h => acceptedCalm h (noteCalm _ _ _))
    (controlMeets _ fun _ h => acceptedCalm h (exchangeCalm rfl (by simp) _)) standingQuiet
    fun _ h => h
  have was : w.console.state = .paused := List.mem_singleton.mp paused
  change (w.trail.follow w.console { w.console with state := .running }).resumed = true
  simp [Trail.follow, was]

theorem resumeStanding :
    Trial.interplay.Meets (standing False False) Call.resume fun _ => standing False False :=
  resumeAnswered.post fun _ => answeredStanding

def Launching (c : Console) : Prop := c.initialized = true ∧ c.state = .running ∧ Ready c

theorem spawnAccepted (core : Core Unit) :
    Trial.interplay.Meets (alone True Launching) (alter (Call.spawn core)) fun _ =>
      accepted True := by
  refine .alter fun w h => ?_
  obtain ⟨stands, built, running, ready⟩ := h
  have nobody : w.console.worker = none := stands.alone trivial
  have loaded := (stands.keen trivial).1
  have started : (w.trail.follow w.console (Call.spawn core w.console)).started =
      some w.console := by
    simp [Trail.follow, working, Call.spawn, note, nobody]
  have active (idle : w.console.state = .idle) : False := by cases running.symm.trans idle
  have sane : Sane (Call.spawn core w.console) := {
    owned := fun _ => built
    busy := fun job mine => by
      cases mine
      exact ⟨trivial, fun idle => (active idle).elim⟩
    ended := fun _ idle => (active idle).elim
    alone := fun _ idle => (active idle).elim }
  refine ⟨fun job busy => ?_, ⟨sane, fun c found => ?_, fun _ => ⟨loaded, fun idle =>
    (active idle).elim⟩, False.elim⟩, .inr ?_⟩
  · cases nobody.symm.trans busy
  · cases started.symm.trans found
    exact ⟨loaded, running, ready⟩
  · exact Option.isSome_iff_exists.mpr ⟨_, started⟩

theorem startWorkerAnswered :
    Trial.interplay.Meets (standing False True) Call.startWorker (answered True) := by
  have loosen (w : Trial) (h : standing True True w) : standing False True w :=
    ⟨h.sane, h.fair, h.keen, False.elim⟩
  have moves (core : Core Unit) : Trial.interplay.Meets
      (alone True fun c => (some core).isSome → c.initialized = true) (Call.move [.idle] .running)
      fun moved => cond moved (alone True Launching) (standing True True) := by
    refine moveMeets _ _ (fun w h idle => ?_) (fun _ h _ => h.1) fun w _ h =>
      ⟨(noteCalm w.console _ _).stands h.1, h.2⟩
    have was : w.console.state = .idle := List.mem_singleton.mp idle
    exact ⟨(stateCalm _ (by simp)).stands h.1, h.2 rfl, rfl, (h.1.keen trivial).2 was⟩
  exact startWorkerAllowed reclaimStanding lookForCore (aloneQuiet fun _ _ h => h)
    (fun w h => loosen w h.1) moves spawnAccepted fun _ => loosen

theorem runAnswered :
    Trial.interplay.Meets opening Call.run fun going =>
      cond going (accepted True) (standing False False) := by
  have answers (going : Bool) (w : Trial) (h : answered True going w) :
      (cond going (accepted True) (standing False False) : Assertion Trial.interplay) w := by
    cases going with
    | true => exact h
    | false => exact weaken h id
  refine runAllowed
    (F := fun loaded => cond loaded (standing False True) (standing False False))
    (S := fun _ => standing False True) (.look fun w h => ?_) standingQuiet (fun _ h => h)
    lookStanding (resumeAnswered.post answers) (startWorkerAnswered.post answers)
    fun _ _ _ => ⟨standingQuiet, fun _ h => weaken h id⟩
  cases loaded : (interplay.state w).programLoaded with
  | false => exact ⟨h.1.sane, h.1.fair, False.elim, False.elim⟩
  | true => exact ⟨h.1.sane, h.1.fair, fun _ => h.1.keen (h.2 loaded), False.elim⟩

end Calls

def runLeaves : Answer → Assertion Trial.interplay
  | .flag true => accepted True
  | _ => standing False False

theorem runOperation : Trial.interplay.Meets opening (Operation.call .run) runLeaves :=
  .bind runAnswered fun going => .done fun _ h => by cases going <;> exact h

def begins : Operation → Assertion Trial.interplay
  | .run => opening
  | _ => standing False False

theorem standingServes : Serves Trial.interplay begins fun _ => standing False False where
  setUp host := setUpStanding host
  load loader := loadStanding loader
  run :=
    runAnswered.post fun going w h => by
      cases going with
      | true => exact weaken h.1 id
      | false => exact h
  pause := pauseStanding
  resume := resumeStanding
  togglePause := togglePauseAllowed standingQuiet pauseStanding resumeStanding fun _ h => h
  stop :=
    stopAllowed (C := alone False Anything) (moveStanding _ nofun) (controlStanding _ requestStopCalm)
      (reclaimStanding.post fun _ _ h => ⟨h, trivial⟩) unloadAlone
      (enterIdle fun _ unloaded loaded => by cases unloaded.symm.trans loaded) standingQuiet
      (reclaimStanding.post fun _ _ h => weaken h False.elim)
  readMemory _ _ :=
    readMemoryAllowed (S := fun _ => standing False False) (F := fun _ => standing True False)
      lookStanding (fun _ _ _ h => h) (fun _ _ => reclaimStanding) lookStanding
      (fun _ h => weaken h False.elim) fun _ _ h => weaken h False.elim
  reset host :=
    resetAllowed (D := alone False Unloaded) (E := alone False Unloaded) standingQuiet
      haltWorkerStanding unloadAlone dismantleAlone (aloneCalm fun _ h => h)
      (aloneCalm fun _ h => h) ((setUpStanding host).pre fun _ h => weaken h.1 False.elim)
  shutdown :=
    shutdownAllowed haltWorkerStanding unloadAlone dismantleAlone
      (enterIdle fun _ unloaded loaded => by cases unloaded.symm.trans loaded)

theorem callStanding (call : Operation) {w : Trial} (h : standing False False w) :
    Trial.interplay.Secures (fun _ => standing False False) call.call w.fresh := by
  refine standingServes.meets call w.fresh ?_
  cases call with
  | run => exact freshOpening h
  | _ => exact ⟨h.sane, fun _ started => (by cases started), False.elim, False.elim⟩

theorem sessionStanding (config : Configuration) (observer : Observer)
    (turns : List (Interplay.Turn Operation Unit)) :
    Trial.interplay.Secures (fun _ => standing False False)
      ((Session.start config observer).play turns).rest
      ((Session.start config observer).play turns).world := by
  have begins : standing False False (Session.start config observer).world :=
    ⟨vacantSane rfl (fun core => by cases core) fun _ _ => rfl, fun _ started => (by cases started),
      False.elim, False.elim⟩
  have starts : Trial.interplay.Meets (standing False False) (pure Answer.nothing) fun _ =>
      standing False False := .done fun _ h => h
  exact Interplay.Session.playSecures (fun call _ w h => callStanding call h) turns _
    (starts _ begins)

theorem proceedStarts {s : Session} (idle : s.world.console.working = false)
    (starts : (s.take .proceed).world.console.working = true) :
    (s.take .proceed).world.trail.started = some s.world.console ∧
      (s.take .proceed).world.trail.loaded = s.world.trail.loaded := by
  obtain ⟨world, rest⟩ := s
  cases rest with
  | done value => cases idle.symm.trans starts
  | act change next =>
    dsimp only [Session.take, Interplay.Session.take] at starts ⊢
    cases goes : change (Trial.interplay.state world) with
    | none =>
      rw [goes] at starts
      cases idle.symm.trans starts
    | some after =>
      rw [goes] at starts
      have works : after.working = true := starts
      refine ⟨?_, rfl⟩
      change (world.trail.follow world.console after).started = _
      simp [Trail.follow, works, idle]

end Trial

open Trial in
/- A turn of the controller starts a thread only in a call that began with a program loaded. The
processor has not executed anything of it, unless the program has halted since the call began; it
has never faulted. A thread at work stays, so that these are all the starts. A call that runs the
program is answered with yes only if it has started or resumed one. -/
theorem startsReady (config : Configuration) (observer : Observer)
    (turns : List (Interplay.Turn Operation Unit)) :
    let s := (Trial.Session.start config observer).play turns
    let t := s.take .proceed
    (s.world.console.working = false → t.world.console.working = true →
      s.world.trail.loaded = true ∧ s.world.console.state = .running ∧
        (s.world.console.programLoaded = true ∧ s.world.console.control.mode = .stopped ∨
          s.world.console.programLoaded = false ∧ s.world.console.control.mode = .halted)) ∧
    (∀ job, s.world.console.worker = some (.busy job) →
      t.world.console.worker = some (.busy job)) ∧
    ∀ answer more, s.rest = .done answer → (∀ call, .begin call ∉ more) →
      let u := (s.take (.begin .run)).play more
      u.rest = .done (.flag true) →
        u.world.trail.loaded = true ∧
          (u.world.trail.resumed = true ∨ u.world.trail.started.isSome) := by
  intro s t
  have secured := sessionStanding config observer turns
  refine ⟨fun idle starts => ?_, Interplay.Session.proceedAllowed secured fun _ _ => rfl, ?_⟩
  · have fair : t.world.trail.Fair :=
      (Interplay.Session.proceedSecures s secured).always.2
    obtain ⟨started, loaded⟩ := proceedStarts idle starts
    obtain ⟨was, running, ready⟩ := fair _ started
    exact ⟨loaded.symm.trans was, running, ready⟩
  · intro answer more done goesOn u yes
    rw [done] at secured
    have begun : s.take (.begin .run) = ⟨s.world.fresh, Operation.call .run⟩ := by
      change (if s.rest.result?.isSome then _ else s) = _
      rw [done]
      rfl
    have runs : Trial.interplay.Secures (fun answer => runLeaves answer)
        (s.take (.begin .run)).rest (s.take (.begin .run)).world := by
      rw [begun]
      exact runOperation _ (freshOpening secured.result)
    have left : Trial.interplay.Secures (fun answer => runLeaves answer) u.rest u.world :=
      Interplay.Session.goOnSecures more goesOn _ runs
    rw [yes] at left
    have accepted := left.result
    exact ⟨(accepted.1.keen trivial).1, accepted.2⟩

theorem startsReadyFirst :
    let s := (Trial.Session.start brief {}).play
      (loadBrief ++ .begin .run :: .replicate 6 .proceed)
    let u := (((Trial.Session.start brief {}).play loadBrief).take (.begin .run)).play
      (.replicate 7 .proceed)
    (s.world.trail.loaded = true ∧ s.world.console.state = .running ∧
      (s.world.console.programLoaded = true ∧ s.world.console.control.mode = .stopped ∨
        s.world.console.programLoaded = false ∧ s.world.console.control.mode = .halted)) ∧
    u.world.trail.loaded = true ∧
      (u.world.trail.resumed = true ∨ u.world.trail.started.isSome) := by
  have answered : ((Trial.Session.start brief {}).play loadBrief).rest.result?.isSome = true := by
    decide +kernel
  refine ⟨(startsReady brief {} _).1 (by decide +kernel) (by decide +kernel), ?_⟩
  cases done : ((Trial.Session.start brief {}).play loadBrief).rest with
  | act change next =>
    rw [done] at answered
    cases answered
  | done answer =>
    exact (startsReady brief {} loadBrief).2.2 answer _ done (fun _ => by simp)
      (doneYes (by decide +kernel))

/- The program halts after the second call has found it loaded, and before that looks at the
state. -/
theorem startsHalted :
    let s := (Trial.Session.start brief {}).play (loadBrief ++
      .begin .run :: .replicate 7 .proceed ++ .replicate 14 (.other ()) ++
      .begin .run :: .proceed :: .replicate 4 (.other ()) ++ .replicate 7 .proceed)
    let t := s.take .proceed
    s.world.console.programLoaded = false ∧ s.world.console.control.mode = .halted ∧
      s.world.console.working = false ∧ t.world.console.working = true ∧
      t.world.trail.resumed = false ∧ t.rest.result?.any Answer.yes = true := by
  decide +kernel

end GameConsole.Console
