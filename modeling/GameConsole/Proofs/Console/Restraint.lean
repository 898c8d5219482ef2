import GameConsole.Proofs.Console.Session
import GameConsole.Proofs.Console.Steps

/-! What the calls of the controller may do to a thread, whatever they find: a call that neither
starts nor resumes a program leaves the thread alone or joins it, and does not set the console
running. -/
namespace GameConsole.Console
open Interplay (Meets)
open Procedure (look alter)

structure Gentle (spawns resumes : Prop) (c d : Console) : Prop where
  config : d.config = c.config
  worker : d.worker = c.worker ∨ d.worker = none ∨
    spawns ∧ ∃ core, d.worker = some (.busy ⟨core, c.tick, .askStop⟩)
  state : d.state = .running → c.state = .running ∨ resumes

/- A thread never has more slices left than a tick has, and always one at least. -/
structure Reined (config : Configuration) (c : Console) : Prop where
  config : c.config = config
  busy : ∀ job, c.worker = some (.busy job) →
    Concludes job.phase ∧ 1 ≤ job.left ∧ job.left ≤ c.tick

section Reins
variable {config : Configuration} {spawns resumes : Prop} {c d : Console} {job : Job}

theorem tickPositive (c : Console) : 1 ≤ c.tick := Nat.le_max_right _ _

theorem tickSame (same : d.config = c.config) : d.tick = c.tick := by
  unfold tick
  rw [same]

theorem Gentle.reined (gentle : Gentle spawns resumes c d) (reined : Reined config c) :
    Reined config d where
  config := gentle.config.trans reined.config
  busy job mine := by
    rw [tickSame gentle.config]
    obtain same | gone | ⟨-, core, started⟩ := gentle.worker
    · exact reined.busy job (same.symm.trans mine)
    · cases gone.symm.trans mine
    · cases started.symm.trans mine
      exact ⟨trivial, tickPositive c, Nat.le_refl _⟩

theorem leftWithin (reined : Reined config c) (mine : c.worker = some (.busy job)) {after : Job}
    (goes : (c.advanceJob job).worker = some (.busy after)) :
    1 ≤ after.left ∧ after.left ≤ c.tick := by
  obtain ⟨-, positive, within⟩ := reined.busy job mine
  obtain ⟨core, left, phase⟩ := job
  cases phase with
  | release =>
    cases goes
    exact ⟨tickPositive c, Nat.le_refl _⟩
  | goOn =>
    simp only [advanceJob] at goes
    split at goes
    case isTrue more =>
      cases goes
      dsimp only at within ⊢
      omega
    case isFalse =>
      cases goes
      exact ⟨positive, within⟩
  | execute =>
    simp only [advanceJob, perform] at goes
    split at goes <;> cases goes <;> exact ⟨positive, within⟩
  | askState | askMode | judge =>
    simp only [advanceJob] at goes
    split at goes <;> cases goes <;> exact ⟨positive, within⟩
  | conclude after =>
    simp only [advanceJob] at goes
    split at goes <;> cases goes
    exact ⟨positive, within⟩
  | announce before after =>
    simp only [advanceJob] at goes
    split at goes <;> cases goes
  | leaveCount exit =>
    obtain _ | _ | (_ | _) | _ := exit <;> cases goes <;> exact ⟨positive, within⟩
  | deliver pending =>
    cases pending <;> cases goes <;> exact ⟨positive, within⟩
  | _ =>
    cases goes
    exact ⟨positive, within⟩

theorem stillStill (concludes : Concludes job.phase) (still : c.state ≠ .running) :
    (c.advanceJob job).state ≠ .running := by
  cases (jobMoves concludes : Moves c job.phase _) with
  | enters _ _ _ _ _ _ ends =>
    intro running
    rw [running] at ends
    exact ends
  | works _ _ _ state => rwa [state]
  | tells _ _ _ _ state => rwa [state]
  | leaves _ _ _ state => rwa [state]

theorem Reined.thread (reined : Reined config c) : Reined config (c.advance.getD c) := by
  cases goes : c.advance with
  | none => exact reined
  | some after =>
    obtain ⟨job, mine, rfl⟩ := advanceBusy goes
    have moves : Moves c job.phase (c.advanceJob job) := jobMoves (reined.busy job mine).1
    have apart : Apart c (c.advanceJob job) := (jobStays c job).1
    refine ⟨apart.config.trans reined.config, fun later works => ⟨?_, ?_⟩⟩
    · cases moves with
      | works job' _ same _ _ _ _ concludes =>
        cases same.symm.trans works
        exact concludes
      | enters job' _ same _ _ _ _ after =>
        cases same.symm.trans works
        rw [after]
        trivial
      | tells _ _ _ gone =>
        obtain died | ⟨core, finished⟩ := gone
        · cases died.symm.trans works
        · cases finished.symm.trans works
      | leaves _ _ finished => cases finished.symm.trans works
    · rw [Option.getD_some, tickSame apart.config]
      exact leftWithin reined mine works

end Reins

def restraint (spawns resumes : Prop) (config : Configuration) :
    Interplay Console Console Unit where
  state c := c
  other _ c := c.advance.getD c
  ours _ after := after
  allowed := Gentle spawns resumes
  always := Reined config
  oursIdle _ := rfl
  allowedIdle _ := ⟨rfl, .inl rfl, .inl⟩

section Calls
variable {spawns resumes : Prop} {config : Configuration}

instance : Tolerant (restraint spawns resumes config) :=
  ⟨fun _ _ worker state config _ => ⟨config, .inl worker, fun running => .inl (state ▸ running)⟩⟩

def reined : Assertion (restraint spawns resumes config) where
  holds := Reined config
  stable _ _ h := h.thread
  safe _ h := h

theorem reinedQuiet : Quiet (reined : Assertion (restraint spawns resumes config)) :=
  fun _ _ h => ⟨h.config, h.busy⟩

theorem alterReined {change : Console → Console}
    (gentle : ∀ c, Gentle spawns resumes c (change c)) :
    (restraint spawns resumes config).Meets reined (alter change) fun _ => reined :=
  .alter fun c h => ⟨gentle c, (gentle c).reined h⟩

theorem asideReined {change : Console → Console} [same : ∀ c, Marginal c (change c)] :
    (restraint spawns resumes config).Meets reined (alter change) fun _ => reined :=
  alterReined fun c => ⟨(same c).config, .inl (same c).worker,
    fun running => .inl ((same c).state.symm.trans running)⟩

theorem lookReined {α : Type} {f : Console → α} :
    (restraint spawns resumes config).Meets reined (look f) fun _ => reined :=
  .look fun _ h => h

theorem controlReined (f : Control → Control) :
    (restraint spawns resumes config).Meets reined (Call.control f) fun _ => reined :=
  controlMeets f fun _ h => ⟨h.config, h.busy⟩

theorem publishReined (core : Core Unit) :
    (restraint spawns resumes config).Meets reined (Call.publish core) fun _ => reined :=
  .bind asideReined fun _ => asideReined

theorem enterReined {after : Lifecycle} (still : after ≠ .running) :
    (restraint spawns resumes config).Meets reined (Call.enter after) fun _ => reined :=
  enterAllowed after
    (fun _ h => ⟨⟨rfl, .inl rfl, fun running => absurd running still⟩, h.config, h.busy⟩)
    fun _ _ h => ⟨h.config, h.busy⟩

theorem moveReined (origins : List Lifecycle) {after : Lifecycle}
    (still : after = .running → resumes) :
    (restraint spawns resumes config).Meets reined (Call.move origins after) fun moved =>
      cond moved reined reined :=
  moveAllowed origins after
    (fun _ h _ => ⟨⟨rfl, .inl rfl, fun running => .inr (still running)⟩, h.config, h.busy⟩)
    (fun _ h _ => h) fun _ _ h => ⟨h.config, h.busy⟩

theorem reclaimReined :
    (restraint spawns resumes config).Meets reined Call.reclaim fun _ => reined :=
  reclaimAllowed (H := fun _ => reined) (fun _ h _ => h)
    (fun c _ _ h joined => by
      obtain ⟨rfl, -⟩ := joinGone joined
      have gentle : Gentle spawns resumes c { c with worker := none } :=
        ⟨rfl, .inr (.inl rfl), .inl⟩
      exact ⟨gentle, gentle.reined h⟩)
    (fun _ _ h => ⟨⟨rfl, .inl rfl, .inl⟩, h.config, h.busy⟩) reinedQuiet (enterReined nofun)

theorem haltWorkerReined :
    (restraint spawns resumes config).Meets reined Call.haltWorker fun _ => reined :=
  haltWorkerAllowed (M := fun _ => reined) lookReined (fun _ => enterReined nofun) (controlReined _)
    reclaimReined reclaimReined

theorem unloadReined :
    (restraint spawns resumes config).Meets reined Call.unload fun _ => reined :=
  unloadAllowed (M := fun _ => reined) (N := fun _ => reined) lookReined (fun _ => asideReined)
    publishReined (fun _ h => h) asideReined asideReined asideReined

theorem setUpReined (host : Provision) :
    (restraint spawns resumes config).Meets reined (Call.setUp host) fun _ => reined :=
  setUpAllowed (U := fun _ => reined) (K := fun _ => reined) (S := fun _ _ => reined) lookReined
    (fun _ h => h) (enterReined nofun) lookReined (fun _ => reinedQuiet)
    (fun _ core _ _ => publishReined core) (fun _ _ _ _ => asideReined) (enterReined nofun)
    fun _ _ _ => enterReined nofun

theorem placeReined (core : Core Unit) (loader : Loader) (stack : UInt64) :
    (restraint spawns resumes config).Meets reined (Call.place core loader stack) fun _ =>
      reined :=
  placeAllowed (enterReined nofun) asideReined asideReined asideReined
    (fun _ _ => acceptAllowed asideReined (publishReined _) asideReined asideReined asideReined
      asideReined reinedQuiet (enterReined nofun))
    reinedQuiet (fun _ _ => enterReined nofun) fun _ _ => enterReined nofun

def slowed : Assertion (restraint spawns resumes config) where
  holds c := Reined config c ∧ c.state ≠ .running
  stable _ c h := by
    refine ⟨h.1.thread, ?_⟩
    change (c.advance.getD c).state ≠ .running
    cases goes : c.advance with
    | none => exact h.2
    | some after =>
      obtain ⟨job, mine, rfl⟩ := advanceBusy goes
      exact stillStill (h.1.busy job mine).1 h.2
  safe _ h := h.1

theorem pauseSlowed :
    (restraint spawns resumes config).Meets reined Call.pause fun paused =>
      cond paused slowed reined :=
  switchAllowed (A := slowed) (B := reined)
    (moveAllowed [.running] .paused
      (fun _ h _ => ⟨⟨rfl, .inl rfl, fun running => by cases running⟩, ⟨h.config, h.busy⟩,
        fun running => by cases running⟩)
      (fun _ h _ => h) fun _ _ h => ⟨⟨h.1.config, h.1.busy⟩, h.2⟩)
    (controlMeets _ fun _ h => ⟨⟨h.1.config, h.1.busy⟩, h.2⟩) reinedQuiet fun _ h => h

theorem pauseReined :
    (restraint spawns resumes config).Meets reined Call.pause fun _ => reined :=
  pauseSlowed.post fun paused _ h => by
    cases paused with
    | true => exact h.1
    | false => exact h

theorem resumeReined (free : resumes) :
    (restraint spawns resumes config).Meets reined Call.resume fun _ => reined :=
  switchAllowed (moveReined _ fun _ => free) (controlReined _) reinedQuiet fun _ h => h

theorem stopReined : (restraint spawns resumes config).Meets reined Call.stop fun _ => reined :=
  stopAllowed (moveReined _ nofun) (controlReined _) reclaimReined unloadReined (enterReined nofun)
    reinedQuiet reclaimReined

theorem startWorkerReined (starts : spawns) (free : resumes) :
    (restraint spawns resumes config).Meets reined Call.startWorker fun _ => reined :=
  startWorkerAllowed (F := fun _ => reined) reclaimReined lookReined reinedQuiet (fun _ h => h)
    (fun _ => moveReined _ fun _ => free)
    (fun core => alterReined fun _ => ⟨rfl, .inr (.inr ⟨starts, core, rfl⟩), .inl⟩) fun _ _ h => h

def Operation.Restarts : Operation → Prop
  | .run | .resume | .togglePause => True
  | _ => False

def Operation.Lawful (spawns resumes : Prop) (call : Operation) : Prop :=
  (call = .run → spawns) ∧ (call.Restarts → resumes)

theorem reinedServes :
    Serves (restraint spawns resumes config)
      (fun call => reined.given (call.Lawful spawns resumes)) fun _ => reined where
  setUp host := .given fun _ => setUpReined host
  load loader :=
    .given fun _ =>
      loadAllowed (S := fun _ => reined) (F := fun _ => reined) (K := fun _ _ => reined) lookReined
        (fun _ _ => ⟨reinedQuiet, fun _ h => h⟩) reclaimReined lookReined (fun _ h => h)
        (fun _ => lookReined) (fun _ _ => reinedQuiet) (fun _ _ _ _ h => h)
        fun core _ _ => placeReined core loader _
  run :=
    .given fun lawful =>
      runAllowed (F := fun _ => reined) (S := fun _ => reined) lookReined reinedQuiet
        (fun _ h => h) lookReined (resumeReined (lawful.2 trivial))
        (startWorkerReined (lawful.1 rfl) (lawful.2 trivial))
        fun _ _ _ => ⟨reinedQuiet, fun _ h => h⟩
  pause := .given fun _ => pauseReined
  resume := .given fun lawful => resumeReined (lawful.2 trivial)
  togglePause :=
    .given fun lawful =>
      togglePauseAllowed reinedQuiet pauseReined (resumeReined (lawful.2 trivial)) fun _ h => h
  stop := .given fun _ => stopReined
  readMemory _ _ :=
    .given fun _ =>
      readMemoryAllowed (S := fun _ => reined) (F := fun _ => reined) lookReined
        (fun _ _ _ h => h) (fun _ _ => reclaimReined) lookReined (fun _ h => h) fun _ _ h => h
  reset host :=
    .given fun _ =>
      resetAllowed reinedQuiet haltWorkerReined unloadReined asideReined asideReined asideReined
        (setUpReined host)
  shutdown := .given fun _ => shutdownAllowed haltWorkerReined unloadReined asideReined (enterReined nofun)

theorem callReined (call : Operation) (lawful : call.Lawful spawns resumes) :
    (restraint spawns resumes config).Meets reined call.call fun _ => reined :=
  (reinedServes.meets call).pre fun _ h => ⟨lawful, h⟩

end Calls

end GameConsole.Console
