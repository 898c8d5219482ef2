import GameConsole.Proofs.Console.Posture

/-! What is asked of a console in error. It stays in error, and its thread executes nothing, until
it is reset or shut down, or set up for the first time. -/
namespace GameConsole.Console.Failure
open Procedure (look alter)
open Posture (Steady Failed)

variable {strict : Prop} {ν τ : Type} {i : Interplay Console ν τ} [Supervised strict i]

def Anything (_ : Posture) : Prop := True

def Placing (p : Posture) : Prop := p.state = .booting ∧ p.initialized = true ∧ p.core.isSome

def Resting (p : Posture) : Prop := p.state = .idle ∧ p.initialized = true ∧ p.core.isSome

section Alone
variable {f g : Posture → Prop} {p : Posture}

theorem vacantSteady (nobody : p.worker = none) (owned : p.core.isSome → p.initialized = true) :
    p.Steady where
  owned some := some.elim owned fun manned => by
    rw [nobody] at manned
    cases manned
  exclusive manned := by
    rw [nobody] at manned
    cases manned
  booting _ := nobody
  concludes _ mine := by cases nobody.symm.trans mine
  resting _ mine := by cases nobody.symm.trans mine
  active _ mine := by cases nobody.symm.trans mine

theorem Vacant.at (h : Vacant f p) (state : Lifecycle) (moved : g { p with state }) :
    Vacant g { p with state } :=
  ⟨vacantSteady h.nobody fun core => h.owned (.inl core), h.nobody, moved⟩

theorem Vacant.holding (h : Vacant f p) (core : Option (Core Unit))
    (owned : core.isSome → p.initialized = true) (given : g { p with core }) :
    Vacant g { p with core } :=
  ⟨vacantSteady h.nobody owned, h.nobody, given⟩

theorem Vacant.standing (h : Vacant f p) (lasting : p.state ≠ .booting)
    (held : p.initialized = true → p.core.isSome ∨ p.state = .error) : Standing p :=
  ⟨h.toSteady, lasting, fun up => (held up).imp id .inr⟩

theorem Vacant.sound (h : Vacant Placing p) : ¬ p.Failed := by
  obtain ⟨booting, initialized, -⟩ := h.fact
  rintro (error | ⟨-, down⟩)
  · cases booting.symm.trans error
  · cases initialized.symm.trans down

theorem enterIdle (sound : ∀ p, Vacant f p → strict → ¬ p.Failed)
    (held : ∀ p, Vacant f p → p.initialized = true → p.core.isSome) :
    i.Meets (alone f) (Call.enter .idle) fun _ => standing :=
  enterSaid _ fun p h => ⟨fun strictly failed => absurd failed (sound p h strictly),
    (h.at (g := Anything) .idle trivial).standing (by simp) fun up => .inl (held p h up)⟩

theorem enterError : i.Meets (alone f) (Call.enter .error) fun _ => standing :=
  enterSaid _ fun _ h => ⟨fun _ _ => .inl rfl, (h.at (g := Anything) .error trivial).toSteady,
    by simp, fun _ => .inr (.inr rfl)⟩

theorem holdAlone {change : Console → Console} {core : Option (Core Unit)}
    (same : ∀ c, (change c).posture = { c.posture with core })
    (owned : ∀ p, f p → core.isSome → p.initialized = true)
    (keeps : ∀ p, f p → g { p with core }) :
    i.Meets (alone f) (alter change) fun _ => alone g :=
  .alter fun w here => by
    have there : Vacant f (i.state w).posture := here
    have kept : (change (i.state w)).posture = { (i.state w).posture with core } := same _
    refine ⟨Supervised.allows _ _ fun _ failed => ?_, saidPut ?_⟩
    · exact kept.symm ▸ failed
    · exact (congrArg (Vacant g) kept).mpr
        (there.holding core (owned _ there.fact) (keeps _ there.fact))

theorem unloadAlone (keeps : ∀ p core, f p → f { p with core := some core }) :
    i.Meets (alone f) Call.unload fun _ => alone f :=
  unloadAllowed (M := fun core => alone fun p => f p ∧ (core.isSome → p.initialized = true))
    (N := fun _ => alone f)
    (.look fun _ h => ⟨h.toSteady, h.nobody, h.fact, fun core => h.owned (.inl core)⟩)
    (fun _ => holdAlone (fun _ => rfl) (fun _ h _ => h.2 rfl) fun p h => keeps p _ h.1)
    publishSaid (fun _ h => ⟨h.toSteady, h.nobody, h.fact.1⟩) quietly quietly quietly

theorem dismantleAlone :
    i.Meets (alone Anything) Call.dismantle fun _ => alone fun p => p.initialized = false :=
  .alter fun _ h => ⟨Supervised.allows _ _ fun _ failed => failed.imp id fun booting =>
    ⟨booting.1, rfl⟩, saidPut ⟨vacantSteady h.nobody fun core => (by cases core), h.nobody, rfl⟩⟩

/- Not set up. If there is no way out of an error, it cannot be. -/
def Bare (strict : Prop) (host : Provision) (p : Posture) : Prop :=
  p.initialized = false ∧ (strict → ¬ Builds p.config host)

theorem setUpMeets {host : Provision} {P : Assertion i}
    (steadily : ∀ w, P w → (i.state w).posture.Steady)
    (up : ∀ w, P w → (i.state w).initialized = true → Standing (i.state w).posture)
    (vain : ∀ w, P w → (i.state w).initialized = false → strict →
      ¬ Builds (i.state w).config host) :
    i.Meets P (Call.setUp host) fun _ => standing := by
  have boots : i.Meets (alone (Bare strict host)) (Call.enter .booting) fun _ =>
      alone fun p => p.state = .booting ∧ Bare strict host p :=
    enterSaid _ fun p h => ⟨fun _ _ => .inr ⟨rfl, h.fact.1⟩, h.at _ ⟨rfl, h.fact⟩⟩
  refine setUpAllowed
    (U := fun initialized => cond initialized standing (alone (Bare strict host)))
    (K := fun config => alone fun p => p.config = config ∧ p.state = .booting ∧ Bare strict host p)
    (S := fun _ _ => alone fun p => p.state = .booting ∧ ¬ strict) (B := alone Placing)
    (.look fun w h => ?_) (fun _ h => h) boots
    (.look fun _ h => ⟨h.toSteady, h.nobody, rfl, h.fact⟩) (fun _ => saidQuiet)
    (fun config core devices built => (publishSaid core).pre fun w h => ?_)
    (fun _ _ _ _ => .alter fun w h => ⟨Supervised.allows _ _ fun strictly =>
      absurd strictly h.fact.2, saidPut ⟨vacantSteady h.nobody fun _ => rfl, h.nobody, h.fact.1,
        rfl, rfl⟩⟩)
    (enterIdle (fun _ h _ => h.sound) fun _ h _ => h.fact.2.2) fun _ _ _ => enterError
  · cases initialized : (i.state w).initialized with
    | true => exact up w h initialized
    | false =>
      have steady : (i.state w).posture.Steady := steadily w h
      refine ⟨steady, ?_, initialized, vain w h initialized⟩
      by_contra manned
      have built := steady.owned (.inr (Option.isSome_iff_ne_none.mpr manned))
      cases initialized.symm.trans built
  · obtain ⟨rfl, booting, -, vain⟩ := h.fact
    exact ⟨h.toSteady, h.nobody, booting, fun strictly => vain strictly ⟨(core, devices), built⟩⟩

theorem placeAlone (core : Core Unit) (loader : Loader) (stack : UInt64) :
    i.Meets (alone Resting) (Call.place core loader stack) fun _ => standing := by
  have holds {change : Console → Console} {core : Core Unit}
      (same : ∀ c, (change c).posture = { c.posture with core := some core }) :
      i.Meets (alone Placing) (alter change) fun _ => alone Placing :=
    holdAlone same (fun _ h _ => h.2.1) fun _ h => ⟨h.1, h.2.1, rfl⟩
  have idles : i.Meets (alone Placing) (Call.enter .idle) fun _ => standing :=
    enterIdle (fun _ h _ => h.sound) fun _ h _ => h.fact.2.2
  refine placeAllowed (A := alone Placing) (B := alone Placing) (C := alone Placing)
    (D := alone Placing) (enterSaid _ fun p h => ⟨fun _ failed => ?_, h.at _ ⟨rfl, h.fact.2⟩⟩)
    quietly quietly (holds fun _ => rfl) (fun _ _ => ?_) saidQuiet (fun _ _ => idles)
    fun _ _ => enterError
  · obtain same | ⟨same, -⟩ := failed <;> cases h.fact.1.symm.trans same
  · exact acceptAllowed (A := alone Placing) (B := alone Placing) (C := alone Placing)
      (D := alone Placing) (E := alone Placing) (F := alone Placing) (holds fun _ => rfl)
      (publishSaid _) quietly quietly quietly quietly saidQuiet idles

end Alone

section Reclaiming
variable {P : Assertion i} {f : Posture → Prop}

structure Orphaned (p : Posture) : Prop where
  state : p.state = .error
  initialized : p.initialized = true
  core : p.core = none

def HandedOver (f : Posture → Prop) (core : Option (Core Unit)) (p : Posture) : Prop :=
  p.initialized = true ∧
    match core with
    | some _ => f { p with core }
    | none => p.core = none ∧ ∀ p, Vacant Orphaned p → f p

theorem joinHanded {c d : Console} {core : Option (Core Unit)} (steady : c.posture.Steady)
    (joins : ∀ core, c.worker = some (.finished core) →
      f { c.posture with worker := none, core := some core })
    (dies : c.worker = some .died → ∀ p, Vacant Orphaned p → f p)
    (joined : Call.join c = some (core, d)) :
    Vacant (HandedOver f core) d.posture ∧ (c.posture.Failed → d.posture.Failed) := by
  obtain ⟨rfl, ⟨rfl, mine⟩ | ⟨core, rfl, mine⟩⟩ := joinTakes joined
  · obtain ⟨built, lost⟩ := steady.manned mine
    exact ⟨⟨vacantSteady rfl fun _ => built, rfl, built, lost, dies mine⟩, id⟩
  · have built : c.initialized = true := (steady.manned mine).1
    exact ⟨⟨vacantSteady rfl fun _ => built, rfl, built, joins _ mine⟩, id⟩

theorem reclaimMeets (steadily : ∀ w, P w → (i.state w).posture.Steady)
    (idle : ∀ w, P w → (i.state w).worker = none → f (i.state w).posture)
    (joins : ∀ w core, P w → (i.state w).worker = some (.finished core) →
      f { (i.state w).posture with worker := none, core := some core })
    (dies : ∀ w, P w → (i.state w).worker = some .died → ∀ p, Vacant Orphaned p → f p) :
    i.Meets P Call.reclaim fun _ => alone f := by
  refine reclaimAllowed (H := fun core => alone (HandedOver f core))
    (fun w h mine => ⟨steadily w h, mine, idle w h mine⟩) (fun w core after h joined => ?_)
    (fun w core h => ⟨Supervised.allows _ _ fun _ failed => failed,
      saidPut (h.holding (some core) (fun _ => h.fact.1) h.fact.2)⟩) saidQuiet
    (enterSaid _ fun p h => ⟨fun _ _ => .inl rfl, ?_⟩)
  · obtain ⟨handed, lasts⟩ :=
      joinHanded (steadily w h) (fun core => joins w core h) (dies w h) joined
    exact ⟨Supervised.allows _ _ fun _ => lasts, saidPut handed⟩
  · have orphaned : Vacant Orphaned { p with state := .error } :=
      h.at .error ⟨rfl, h.fact.1, h.fact.2.1⟩
    exact ⟨orphaned.toSteady, orphaned.nobody, h.fact.2.2 _ orphaned⟩

theorem Vacant.orphaned {p : Posture} (h : Vacant Orphaned p) : Standing p :=
  h.standing (by simp [h.fact.state]) fun _ => .inr h.fact.state

def Halted (p : Posture) : Prop := p.state = .stopping ∧ (p.initialized = true → p.core.isSome)

theorem reclaimHalting : i.Meets halting Call.reclaim fun _ => alone Halted :=
  reclaimMeets (fun _ h => h.toSteady)
    (fun w h none => ⟨h.state, fun up => (h.held up).resolve_right fun manned => by
      change (i.state w).worker.isSome at manned
      rw [none] at manned
      cases manned⟩)
    (fun _ _ h _ => ⟨h.state, fun _ => rfl⟩) fun _ h mine => absurd trivial (h.early _ mine)

theorem reclaimSteady : i.Meets steady Call.reclaim fun _ => alone Anything :=
  reclaimMeets (fun _ h => h) (fun _ _ _ => trivial) (fun _ _ _ _ => trivial)
    fun _ _ _ _ _ => trivial

theorem reclaimStanding : i.Meets standing Call.reclaim fun _ => standing :=
  (reclaimMeets (P := standing) (f := Standing) (fun _ h => h.toSteady) (fun _ h _ => h)
    (fun w core h mine => by
      have built : (i.state w).initialized = true := (h.toSteady.manned mine).1
      exact ⟨vacantSteady rfl fun _ => built, h.lasting, fun _ => .inl rfl⟩)
    fun _ _ _ _ h => h.orphaned).post fun _ _ h => h.fact

structure Reclaimed (p : Posture) : Prop where
  lasting : p.state ≠ .booting
  idle : p.core.isSome → p.state = .idle
  held : p.initialized = true → p.core.isSome ∨ p.state = .error

theorem Reclaimed.ofIdle {p : Posture} (idle : p.state = .idle)
    (held : p.initialized = true → p.core.isSome) : Reclaimed p :=
  ⟨by simp [idle], fun _ => idle, fun up => .inl (held up)⟩

theorem reclaimIdle : i.Meets (seen .idle) Call.reclaim fun _ => alone Reclaimed :=
  reclaimMeets (fun _ h => h.1.toSteady)
    (fun w h none => .ofIdle (h.2 rfl) fun up => by
      obtain core | worker | error := h.1.held up
      · exact core
      · change (i.state w).worker.isSome at worker
        rw [none] at worker
        cases worker
      · cases (h.2 rfl).symm.trans error)
    (fun _ _ h _ => .ofIdle (h.2 rfl) fun _ => rfl)
    fun _ _ _ p h => ⟨by simp [h.fact.state], by simp [h.fact.core], fun _ => .inr h.fact.state⟩

theorem lookForCore :
    i.Meets (alone Reclaimed) (look Console.core) fun core =>
      cond core.isSome (alone Resting) standing :=
  .look fun w h => by
    cases found : (i.state w).core with
    | none => exact h.standing h.fact.lasting h.fact.held
    | some core =>
      have mine : (i.state w).posture.core.isSome := by
        change (i.state w).core.isSome
        rw [found]
        rfl
      exact ⟨h.toSteady, h.nobody, h.fact.idle mine, h.owned (.inl mine), mine⟩

theorem haltWorkerMeets {i : Interplay Console ν τ} [Supervised False i] :
    i.Meets standing Call.haltWorker fun _ => alone Anything := by
  refine haltWorkerAllowed (M := fun _ => standing) (A := steady) (B := steady)
    (.look fun _ h => h) (fun _ => enterSaid _ fun p h => ⟨False.elim, ?_⟩) (controlSaid _)
    reclaimSteady (reclaimSteady.pre fun _ h => h.toSteady)
  exact ⟨h.owned, h.exclusive, nofun, h.concludes, fun _ _ ends => ends.elim,
    fun _ _ active => by obtain same | same := active <;> cases same⟩

end Reclaiming

section Calls

theorem Standing.tended {p : Posture} (standing : Standing p) (active : p.Active)
    (up : p.initialized = true) : p.core.isSome ∨ p.worker.isSome := by
  obtain core | worker | error := standing.held up
  · exact .inl core
  · exact .inr worker
  · obtain same | same := active <;> cases same.symm.trans error

theorem activeSteady {p : Posture} (steady : p.Steady) (active : p.Active) {after : Lifecycle}
    (lasting : after ≠ .booting) (goesOn : ¬ Ends after) : Steady { p with state := after } :=
  ⟨steady.owned, steady.exclusive, fun booting => absurd booting lasting, steady.concludes,
    fun _ _ ends => absurd ends goesOn, fun worker mine _ => steady.active worker mine active⟩

theorem swapStanding {before after : Lifecycle} (origin : before = .running ∨ before = .paused)
    (goal : after = .running ∨ after = .paused) :
    i.Meets standing (Call.move [before] after) fun moved => cond moved standing standing := by
  have lasting : after ≠ .booting := by obtain rfl | rfl := goal <;> simp
  have goesOn : ¬ Ends after := fun ends => by obtain rfl | rfl := goal <;> exact ends
  refine moveSaid _ _ (fun state same => ?_) (fun p h same => ?_) fun _ h _ => h
  · obtain rfl := List.mem_singleton.mp same
    obtain rfl | rfl := origin <;> simp
  · have active : p.Active := by
      unfold Posture.Active
      rw [List.mem_singleton.mp same]
      exact origin
    exact ⟨activeSteady h.toSteady active lasting goesOn, lasting,
      fun up => (h.tended active up).imp id .inl⟩

theorem pauseStanding : i.Meets standing Call.pause fun _ => standing :=
  switchAllowed (swapStanding (.inl rfl) (.inr rfl)) (controlSaid _) saidQuiet fun _ h => h

theorem resumeStanding : i.Meets standing Call.resume fun _ => standing :=
  switchAllowed (swapStanding (.inr rfl) (.inl rfl)) (controlSaid _) saidQuiet fun _ h => h

theorem lookAtState :
    i.Meets standing (look Console.state) fun state => seen state :=
  .look fun _ h => ⟨h, id⟩

theorem loadStanding (loader : Loader) :
    i.Meets standing (Call.load loader) fun _ => standing :=
  loadAllowed (K := fun _ _ => alone Resting) lookAtState (fun _ _ => ⟨saidQuiet, fun _ h => h.1⟩)
    reclaimIdle lookForCore (fun _ h => h) (fun _ => .look fun _ h => h) (fun _ _ => saidQuiet)
    (fun _ _ _ w h => h.standing (by simp [h.fact.1]) fun _ => .inl h.fact.2.2)
    fun core _ _ => placeAlone core loader _

def Launching (p : Posture) : Prop := p.state = .running ∧ p.initialized = true

theorem spawnStanding (core : Core Unit) :
    i.Meets (alone Launching) (alter (Call.spawn core)) fun _ => standing := by
  refine .alter fun w h => ⟨Supervised.allows _ _ fun _ failed => failed, saidPut ?_⟩
  obtain ⟨running, built⟩ := h.fact
  have lasting : (i.state w).state ≠ .booting := fun booting => by
    cases running.symm.trans booting
  refine ⟨⟨fun _ => built, fun _ => rfl, fun booting => absurd booting lasting, fun _ mine => ?_,
    fun _ _ ends => (activeEnds (.inl running) ends).elim, fun _ mine _ => ?_⟩, lasting,
    fun _ => .inr (.inl rfl)⟩
  · cases mine
    trivial
  · cases mine
    exact Bool.false_ne_true

theorem startWorkerStanding :
    i.Meets (seen .idle) Call.startWorker fun _ => standing := by
  have moves : i.Meets (alone Resting) (Call.move [.idle] .running) fun moved =>
      cond moved (alone Launching) standing :=
    moveSaid _ _ (by simp) (fun _ h _ => h.at _ ⟨rfl, h.fact.2.1⟩) fun _ h away =>
      absurd (List.mem_singleton.mpr h.fact.1) away
  have quiet : Quiet (standing : Assertion i) := saidQuiet
  exact startWorkerAllowed (L := fun _ => alone Launching) (N := fun _ => standing) reclaimIdle
    lookForCore quiet (fun _ h => h) (fun _ => moves) spawnStanding fun _ _ h => h

theorem stopStanding : i.Meets standing Call.stop fun _ => standing := by
  refine stopAllowed (A := halting) (B := halting) (H := standing)
    (moveSaid _ _ (by simp) (fun p h origin => ?_) fun _ h _ => h) (controlSaid _) reclaimHalting
    (unloadAlone fun _ _ h => ⟨h.1, fun _ => rfl⟩)
    (enterIdle (fun p h _ failed => ?_) fun _ h => h.fact.2) saidQuiet reclaimStanding
  · have active : p.Active := by simpa [Posture.Active] using origin
    exact ⟨activeSteady h.toSteady active (by simp) id, rfl, h.tended active,
      fun worker mine => h.active worker mine active⟩
  · obtain same | ⟨same, -⟩ := failed <;> cases h.fact.1.symm.trans same

theorem resetStanding {i : Interplay Console ν τ} [Supervised False i] (host : Provision) :
    i.Meets standing (Call.reset host) fun _ => standing :=
  resetAllowed saidQuiet haltWorkerMeets (unloadAlone fun _ _ h => h) dismantleAlone quietly
    quietly (setUpMeets (fun _ h => h.toSteady)
      (fun _ h built => by cases h.fact.symm.trans built) fun _ _ _ => False.elim)

theorem shutdownStanding {i : Interplay Console ν τ} [Supervised False i] :
    i.Meets standing Call.shutdown fun _ => standing :=
  shutdownAllowed haltWorkerMeets (unloadAlone fun _ _ h => h) dismantleAlone
    (enterIdle (fun _ _ => False.elim) fun _ h up => by cases h.fact.symm.trans up)

/- Calls that discard memory and processor, or provide a console with them. -/
def Revives (p : Posture) : Operation → Prop
  | .reset _ | .shutdown => True
  | .setUp host => p.initialized = false ∧ Builds p.config host
  | _ => False

instance (p : Posture) (call : Operation) : Decidable (Revives p call) :=
  match call with
  | .reset _ | .shutdown => .isTrue trivial
  | .setUp _ => inferInstanceAs (Decidable (_ ∧ _))
  | .load _ | .run | .pause | .resume | .togglePause | .stop | .readMemory .. => .isFalse id

def asked (call : Operation) : Assertion i :=
  said (fun p => Standing p ∧ (strict → ¬ Revives p call)) (fun _ h => h.1.toSteady)
    fun p q job h mine advances => ⟨h.1.advances mine advances, fun strictly => by
      have same : Revives q call = Revives p call := by cases advances <;> rfl
      rw [same]
      exact h.2 strictly⟩

theorem discarded {α : Type} {call : Operation} {p : Call α} (discards : ∀ p, Revives p call)
    (free : ¬ strict → i.Meets standing p fun _ => standing) :
    i.Meets (asked call) p fun _ => standing := by
  by_cases strictly : strict
  · exact fun _ h => absurd (discards _) (h.2 strictly)
  · exact (free strictly).pre fun _ h => h.1

theorem standingServes : Serves i asked fun _ => standing where
  setUp _ :=
    setUpMeets (fun _ h => h.1.toSteady) (fun _ h _ => h.1) fun _ h down strictly builds =>
      h.2 strictly ⟨down, builds⟩
  load loader := (loadStanding loader).pre fun _ h => h.1
  run :=
    runAllowed (F := fun _ => standing) (.look fun _ h => h.1) saidQuiet (fun _ h => h) lookAtState
      (resumeStanding.pre fun _ h => h.1) startWorkerStanding
      fun _ _ _ => ⟨saidQuiet, fun _ h => h.1⟩
  pause := pauseStanding.pre fun _ h => h.1
  resume := resumeStanding.pre fun _ h => h.1
  togglePause :=
    (togglePauseAllowed saidQuiet pauseStanding resumeStanding fun _ h => h).pre fun _ h => h.1
  stop := stopStanding.pre fun _ h => h.1
  readMemory _ _ :=
    readMemoryAllowed (F := fun _ => standing) (lookAtState.pre fun _ h => h.1)
      (fun _ _ _ h => h.1) (fun _ _ => reclaimStanding.pre fun _ h => h.1) (.look fun _ h => h)
      (fun _ h => h) fun _ _ h => h
  reset host :=
    discarded (fun _ => trivial) fun free => by
      obtain rfl : strict = False := eq_false free
      exact resetStanding host
  shutdown :=
    discarded (fun _ => trivial) fun free => by
      obtain rfl : strict = False := eq_false free
      exact shutdownStanding

end Calls

theorem callStanding {i : Interplay Console ν τ} [Supervised False i] (call : Operation) :
    i.Meets standing call.call fun _ => standing :=
  (standingServes.meets call).pre fun _ h => ⟨h, False.elim⟩

theorem newStanding (config : Configuration) (observer : Observer) :
    Standing (posture (.new config observer)) :=
  ⟨vacantSteady rfl fun core => (by cases core), nofun, nofun⟩

theorem playStanding {i : Interplay Console Console τ} [Supervised False i]
    (turns : List (Interplay.Turn Operation τ)) {start : Console}
    (begins : (standing : Assertion i) start) :
    let s := Interplay.Session.play i Operation.call id ⟨start, .done Answer.nothing⟩ turns
    i.Secures (fun _ => (standing : Assertion i).holds) s.rest s.world := by
  have stays : i.Meets standing (pure Answer.nothing) fun _ => standing := .done fun _ h => h
  exact Interplay.Session.playSecures (fun call _ c h => callStanding call c h) turns _
    (stays start begins)

abbrev Session := Interplay.Session Console Console Answer

def Session.start (config : Configuration) (observer : Observer) : Session :=
  ⟨.new config observer, .done .nothing⟩

abbrev Session.take (s : Session) (turn : Interplay.Turn Operation Unit) : Session :=
  Interplay.Session.take (interplay False) Operation.call id s turn

abbrev Session.play (s : Session) (turns : List (Interplay.Turn Operation Unit)) : Session :=
  Interplay.Session.play (interplay False) Operation.call id s turns

theorem sessionStanding (config : Configuration) (observer : Observer)
    (turns : List (Interplay.Turn Operation Unit)) :
    (interplay False).Secures (fun _ c => Standing c.posture)
      ((Session.start config observer).play turns).rest
      ((Session.start config observer).play turns).world :=
  playStanding (i := interplay False) turns (newStanding config observer)

abbrev Peril := Interplay.Turn Operation (Option Wreck)

namespace Session

abbrev risk (s : Session) (turn : Peril) : Session :=
  Interplay.Session.take (perilous False) Operation.call id s turn

abbrev brave (s : Session) (turns : List Peril) : Session :=
  Interplay.Session.play (perilous False) Operation.call id s turns

def Hopeless (s : Session) : List Peril → Prop
  | [] => True
  | .begin call :: later =>
    (s.rest.result?.isSome → ¬ Revives s.world.posture call) ∧ (s.risk (.begin call)).Hopeless later
  | turn :: later => (s.risk turn).Hopeless later

instance decidableHopeless (s : Session) : (turns : List Peril) → Decidable (s.Hopeless turns)
  | [] => .isTrue trivial
  | .begin call :: later =>
    have := decidableHopeless (s.risk (.begin call)) later
    inferInstanceAs (Decidable (_ ∧ _))
  | .proceed :: later => decidableHopeless (s.risk .proceed) later
  | .other event :: later => decidableHopeless (s.risk (.other event)) later

end Session

def Secured (s : Session) : Prop :=
  (perilous True).Secures (fun _ c => Standing c.posture) s.rest s.world

section Peril
variable {s : Session}

theorem Session.Hopeless.first {turn : Peril} {later : List Peril}
    (hopeless : s.Hopeless (turn :: later)) :
    (∀ call, turn = .begin call → s.rest.result?.isSome → ¬ Revives s.world.posture call) ∧
      (s.risk turn).Hopeless later := by
  cases turn with
  | begin call => exact ⟨fun _ same => by cases same; exact hopeless.1, hopeless.2⟩
  | proceed | other t => exact ⟨nofun, hopeless⟩

theorem riskSecured (secured : Secured s) (turn : Peril)
    (hopeless : ∀ call, turn = .begin call → s.rest.result?.isSome →
      ¬ Revives s.world.posture call) : Secured (s.risk turn) :=
  Interplay.Session.takeSecures s secured turn fun call value begins done h => by
    have idle : s.rest.result?.isSome := by rw [done]; rfl
    exact standingServes.meets (i := perilous True) call s.world
      ⟨h, fun _ => hopeless call begins idle⟩

theorem braveSecured (secured : Secured s) (turns more : List Peril)
    (hopeless : s.Hopeless (turns ++ more)) :
    Secured (s.brave turns) ∧ (s.brave turns).Hopeless more := by
  induction turns generalizing s with
  | nil => exact ⟨secured, hopeless⟩
  | cons turn turns ih =>
    obtain ⟨first, later⟩ := hopeless.first
    exact ih (riskSecured secured turn first) later

theorem riskFailed (secured : Secured s) (failed : s.world.posture.Failed) (turn : Peril) :
    (s.risk turn).world.posture.Failed := by
  cases turn with
  | begin call =>
    dsimp only [Session.risk, Interplay.Session.take]
    split <;> exact failed
  | proceed =>
    have allowed : (perilous True).allowed s.world
        (Interplay.Session.take (perilous True) Operation.call id s .proceed).world :=
      Interplay.Session.proceedAllowed secured fun _ _ => rfl
    exact allowed trivial failed
  | other event =>
    obtain same | ⟨job, mine, advances⟩ :=
      Supervised.others (i := perilous True) event s.world secured.always
    · exact same.symm ▸ failed
    · exact advances.failed failed

theorem braveFailed (secured : Secured s) (failed : s.world.posture.Failed) (turns : List Peril)
    (hopeless : s.Hopeless turns) : (s.brave turns).world.posture.Failed := by
  induction turns generalizing s with
  | nil => exact failed
  | cons turn turns ih =>
    obtain ⟨first, later⟩ := hopeless.first
    exact ih (riskSecured secured turn first) (riskFailed secured failed turn) later

end Peril

/- A console that has come to be in error, whoever has put it there, stays in error, and its thread
executes nothing any more, until it is reset or shut down, or, if it has not been set up, until the
host has what it takes to set it up. It boots at most for the time of an attempt to set it up. -/
theorem errorLasts (config : Configuration) (observer : Observer)
    (turns first second : List Peril) :
    let s := (Session.start config observer).brave turns
    let t := s.brave first
    let u := t.brave second
    s.rest.result?.isSome → s.Hopeless (first ++ second) → t.world.state = .error →
    (u.world.state = .error ∨ u.world.state = .booting ∧ u.world.initialized = false) ∧
    (u.rest.result?.isSome → u.world.state = .error) ∧
    ∀ job, u.world.worker = some (.busy job) →
      ∃ before after, job.phase = .announce before after := by
  intro s t u idle hopeless error
  have secured : Secured s := by
    obtain ⟨answer, done, stands⟩ :=
      (playStanding (i := perilous False) turns (newStanding config observer)).ended idle
    have stays : (perilous True).Meets standing (pure answer) fun _ => standing :=
      .done fun _ h => h
    unfold Secured
    rw [show s.rest = .done answer from done]
    exact stays s.world stands
  obtain ⟨reached, later⟩ := braveSecured secured first second hopeless
  have ended : Secured u := (braveSecured reached second [] (by rwa [List.append_nil])).1
  have failed : u.world.posture.Failed := braveFailed reached (.inl error) second later
  have steady : u.world.posture.Steady := ended.always
  refine ⟨failed, fun done => ?_, fun job mine => ?_⟩
  · obtain ⟨answer, -, standing⟩ := Interplay.Secures.ended ended done
    exact failed.resolve_right fun booting => standing.lasting booting.1
  · obtain error | ⟨booting, -⟩ := failed
    · refine announcesAnnounce (steady.resting job mine ?_)
      rw [error]
      trivial
    · cases mine.symm.trans (steady.booting booting)

def runTorn : List Peril :=
  .begin (.setUp (.memory true)) :: .replicate 11 .proceed ++
    .begin (.load (.rawImage [0xE9] 13)) :: .replicate 19 .proceed ++
    .begin .run :: .replicate 7 .proceed

def ruin : Wreck :=
  ⟨(Machine.start (.zeros 5 (by decide) true) () .empty).core, {}, ⟨.empty, .initial 8⟩, .empty,
    .empty, some "out of memory"⟩

theorem errorLastsTorn :
    let s := (Session.start brief {}).brave runTorn
    let torn := s.brave (.replicate 15 (.other none))
    let wrecked := s.brave (.replicate 7 (.other none) ++ .other (some ruin) ::
      .replicate 3 (.other none))
    let refused := ((Session.start brief {}).brave []).brave
      (.begin (.setUp (.memory false)) :: .replicate 7 .proceed)
    (torn.brave (.begin .stop :: .replicate 4 .proceed ++ .other none :: .replicate 2 .proceed ++
      .begin .run :: .replicate 8 .proceed)).world.state = .error ∧
    (wrecked.brave (.other none :: .begin (.setUp (.memory true)) :: .replicate 2 .proceed ++
      .begin .togglePause :: .replicate 3 .proceed)).world.state = .error ∧
    (refused.brave (.begin (.setUp (.broken none)) ::
      .replicate 8 .proceed)).world.state = .error :=
  ⟨(errorLasts brief {} runTorn (.replicate 15 (.other none)) _ (by decide +kernel)
      (by decide +kernel) (by decide +kernel)).2.1 (by decide +kernel),
    (errorLasts brief {} runTorn _ _ (by decide +kernel) (by decide +kernel)
      (by decide +kernel)).2.1 (by decide +kernel),
    (errorLasts brief {} [] _ _ (by decide +kernel) (by decide +kernel)
      (by decide +kernel)).2.1 (by decide +kernel)⟩

def executing (c : Console) : Bool :=
  match c.worker with
  | some (.busy ⟨_, _, .execute⟩) => true
  | _ => false

/- Once it is shut down, a console in error is idle, and may be set up and execute once more; so it
may if the host has refused memory before and grants it now. -/
theorem errorEnds :
    let torn := ((Session.start brief {}).brave runTorn).brave (.replicate 16 (.other none))
    let shut := torn.brave (.begin .shutdown :: .replicate 20 .proceed)
    let refused := (Session.start brief {}).brave
      (.begin (.setUp (.memory false)) :: .replicate 8 .proceed)
    let granted := refused.brave (.begin (.setUp (.memory true)) :: .replicate 11 .proceed)
    (torn.world.state = .error ∧ torn.rest.result?.isSome ∧ shut.world.state = .idle ∧
      executing (shut.brave (runTorn ++ .replicate 7 (.other none))).world) ∧
    refused.world.state = .error ∧ refused.rest.result?.isSome ∧ granted.world.state = .idle ∧
      executing (granted.brave (runTorn ++ .replicate 7 (.other none))).world := by
  decide +kernel

end GameConsole.Console.Failure
