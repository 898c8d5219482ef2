import GameConsole.Proofs.Console.Session
import GameConsole.Proofs.Lockstep

/-! Two consoles that differ in nothing but in what their queues have counted, in what their
observers have heard and in what they have reported. No call and no step of the execution thread
tells them apart. -/
namespace GameConsole.Console
open Procedure (look alter update await InStep)
open Syscall (Devices Hosted)

/- What no call and no step of the thread changes for a console that was built with `config` and is
watched by `observer`. -/
structure Constant (config : Configuration) (observer : Observer) (now : Configuration)
    (watching : Observer) (devices : Hosted Devices) (initialized : Bool) : Prop where
  config : now = config
  observer : ∃ heard, watching = { observer with heard }
  fit : Fit devices
  installed : initialized = true → Installed now devices

structure Twins (config : Configuration) (observer : Observer) (c d : Console) : Prop where
  constant : Constant config observer c.config c.observer c.devices c.initialized
  same : ∃ journal heard pushed popped frames, d = { c with
    journal
    observer := { c.observer with heard }
    queue := ⟨c.queue.pending, pushed, popped, frames⟩ }

variable {config : Configuration} {observer : Observer}

namespace Constant

variable {now : Configuration} {watching : Observer} {devices : Hosted Devices}
  {initialized : Bool}

theorem told (constant : Constant config observer now watching devices initialized)
    (after : Lifecycle) :
    Constant config observer now { watching with heard := watching.heard.push after } devices
      initialized := by
  obtain ⟨same, ⟨heard, rfl⟩, fit, installed⟩ := constant
  exact ⟨same, ⟨_, rfl⟩, fit, installed⟩

theorem replaced (constant : Constant config observer now watching devices initialized)
    {others : Hosted Devices} (fit : Fit others)
    (kept : Installed now devices → Installed now others) :
    Constant config observer now watching others initialized :=
  ⟨constant.config, constant.observer, fit, fun up => kept (constant.installed up)⟩

end Constant

section Thread
variable {c d : Console}

theorem Twins.refl
    (constant : Constant config observer c.config c.observer c.devices c.initialized) :
    Twins config observer c c :=
  ⟨constant, _, _, _, _, _, rfl⟩

theorem Twins.of {journal heard pushed popped frames}
    (constant : Constant config observer c.config c.observer c.devices c.initialized) :
    Twins config observer c { c with
      journal
      observer := { c.observer with heard }
      queue := ⟨c.queue.pending, pushed, popped, frames⟩ } :=
  ⟨constant, _, _, _, _, _, rfl⟩

theorem performTwins (twins : Twins config observer c d) (job : Job) :
    Twins config observer (c.perform job) (d.perform job) := by
  obtain ⟨constant, journal, heard, pushed, popped, frames, rfl⟩ := twins
  obtain ⟨ending, silent, silent', agrees, kept, deaf⟩ := executedAlike (d := { c with
    journal
    observer := { c.observer with heard }
    queue := ⟨c.queue.pending, pushed, popped, frames⟩ }) constant.fit.deaf job rfl
  have stopped (stops : ending ≠ .continued) := executedStopped constant.fit silent stops
  have installed (before : Installed c.config c.devices) :
      Installed c.config (c.executed job).1.devices :=
    ⟨kept.trans before.handlers,
      executedKeeps job (before.respects (Devices.dispatcherKeeps (Devices.limitKept _) _))
        before.limit⟩
  rw [performRan silent, performRan silent']
  generalize (c.executed job).1 = core, Prod.fst (executed _ job) = other
    at agrees stopped installed deaf
  have devices := agrees.guest.devices
  have detached := agrees.detach
  simp only [ran, ← devices, ← detached]
  cases ending with
  | continued =>
    exact ⟨constant.replaced ⟨deaf, rfl⟩ fun h => ⟨(installed h).handlers, (installed h).limit⟩,
      _, _, _, _, _, rfl⟩
  | halted => exact ⟨constant.replaced (stopped (by simp)) installed, _, _, _, _, _, rfl⟩
  | faulted => exact ⟨constant.replaced (stopped (by simp)) installed, _, _, _, _, _, rfl⟩

theorem advanceJobTwins (twins : Twins config observer c d) (job : Job) :
    Twins config observer (c.advanceJob job) (d.advanceJob job) := by
  obtain ⟨core, left, phase⟩ := job
  cases phase with
  | execute => exact performTwins twins _
  | askState | askMode | judge | goOn | conclude =>
    obtain ⟨constant, journal, heard, pushed, popped, frames, rfl⟩ := twins
    dsimp only [advanceJob]
    split <;> exact ⟨constant, _, _, _, _, _, rfl⟩
  | announce before after =>
    obtain ⟨constant, journal, heard, pushed, popped, frames, rfl⟩ := twins
    rw [announceEnds, announceEnds]
    dsimp only
    split <;> exact ⟨constant.told after, _, _, _, _, _, rfl⟩
  | deliver pending =>
    obtain ⟨constant, journal, heard, pushed, popped, frames, rfl⟩ := twins
    obtain _ | ⟨_ | _, _⟩ := pending <;> exact ⟨constant, _, _, _, _, _, rfl⟩
  | leaveCount exit =>
    obtain ⟨constant, journal, heard, pushed, popped, frames, rfl⟩ := twins
    obtain _ | _ | (_ | _) | _ := exit <;> exact ⟨constant, _, _, _, _, _, rfl⟩
  | _ =>
    obtain ⟨constant, journal, heard, pushed, popped, frames, rfl⟩ := twins
    exact ⟨constant, _, _, _, _, _, rfl⟩

theorem advanceTwins (twins : Twins config observer c d) :
    Option.Rel (Twins config observer) c.advance d.advance := by
  have worker : d.worker = c.worker := by
    obtain ⟨-, _, _, _, _, _, rfl⟩ := twins
    rfl
  unfold advance
  rw [worker]
  split
  · exact .some (advanceJobTwins twins _)
  · exact .none

end Thread

def Impartial {α : Type} (config : Configuration) (observer : Observer) (p : Call α) : Prop :=
  InStep (Twins config observer) Eq p p

section Impartial
variable {α β : Type}

theorem Impartial.bind {p : Call α} {k : α → Call β} (h : Impartial config observer p)
    (rest : ∀ value, Impartial config observer (k value)) : Impartial config observer (p >>= k) :=
  InStep.thenBoth h rest

theorem Impartial.done {value : α} : Impartial config observer (pure value) := rfl

theorem lookImpartial {f : Console → α}
    (same : ∀ {c journal heard queue},
      f { c with journal, observer := { c.observer with heard }, queue } = f c) :
    Impartial config observer (look f) :=
  InStep.look fun _ _ ⟨_, _, _, _, _, _, other⟩ => other ▸ same.symm

theorem configurationImpartial {k : Configuration → Call α}
    (rest : ∀ now, now = config → Impartial config observer (k now)) :
    Impartial config observer (look Console.config >>= k) := by
  refine InStep.bind (T := fun first second => first = second ∧ first = config)
    (.look fun _ _ ⟨constant, _, _, _, _, _, same⟩ => same ▸ ⟨rfl, constant.config⟩) ?_
  rintro now _ ⟨rfl, same⟩
  exact rest now same

theorem alterImpartial {f : Console → Console}
    (keeps : ∀ {c journal heard pushed popped frames},
      Constant config observer c.config c.observer c.devices c.initialized →
      Twins config observer (f c) (f { c with
        journal
        observer := { c.observer with heard }
        queue := ⟨c.queue.pending, pushed, popped, frames⟩ })) :
    Impartial config observer (alter f) :=
  InStep.alter fun _ _ ⟨constant, _, _, _, _, _, same⟩ => same ▸ keeps constant

theorem reportImpartial (e : Event) : Impartial config observer (Call.report e) :=
  alterImpartial fun h => .of h

theorem refuseImpartial (message : String) : Impartial config observer (Call.refuse message) :=
  .bind (lookImpartial rfl) fun _ => reportImpartial _

theorem announceImpartial (before after : Lifecycle) :
    Impartial config observer (Call.announce before after) :=
  alterImpartial fun constant => ⟨constant.told after, _, _, _, _, _, rfl⟩

theorem enterImpartial (after : Lifecycle) : Impartial config observer (Call.enter after) := by
  refine .bind (.update fun _ _ ⟨constant, _, _, _, _, _, same⟩ =>
    same ▸ ⟨rfl, constant, _, _, _, _, _, rfl⟩) fun before => ?_
  split
  · exact announceImpartial before after
  · exact .done

theorem moveImpartial (origins : List Lifecycle) (after : Lifecycle) :
    Impartial config observer (Call.move origins after) := by
  refine .bind (.update fun c _ ⟨constant, _, _, _, _, _, same⟩ => ?_) fun before => ?_
  · subst same
    dsimp only
    split <;> exact ⟨rfl, constant, _, _, _, _, _, rfl⟩
  · split
    · exact .bind (announceImpartial before after) fun _ => .done
    · exact .done

theorem publishImpartial (core : Core Unit) : Impartial config observer (Call.publish core) :=
  .bind (alterImpartial fun h => .of h) fun _ => alterImpartial fun h => .of h

theorem joinTwins {c d : Console} (twins : Twins config observer c d) :
    Option.Rel (fun x y => x.1 = y.1 ∧ Twins config observer x.2 y.2)
      (Call.join c) (Call.join d) := by
  obtain ⟨constant, _, _, _, _, _, rfl⟩ := twins
  unfold Call.join
  dsimp only
  split
  · exact .some ⟨rfl, constant, _, _, _, _, _, rfl⟩
  · exact .some ⟨rfl, constant, _, _, _, _, _, rfl⟩
  · exact .none

theorem reclaimImpartial : Impartial config observer Call.reclaim := by
  refine .bind (lookImpartial rfl) fun worker => ?_
  split
  · exact .done
  · refine .bind (.await fun _ _ => joinTwins) fun core => ?_
    cases core with
    | some core => exact alterImpartial fun h => .of h
    | none =>
      refine .bind (.look fun _ _ ⟨_, _, _, _, _, _, same⟩ => same ▸ rfl) fun words => ?_
      exact .bind (reportImpartial _) fun _ => enterImpartial .error

theorem controlImpartial (f : Control → Control) : Impartial config observer (Call.control f) := by
  refine .bind (lookImpartial rfl) fun initialized => ?_
  cases initialized with
  | true => exact alterImpartial fun h => .of h
  | false => exact .done

theorem haltWorkerImpartial : Impartial config observer Call.haltWorker := by
  refine .bind (lookImpartial rfl) fun worker => ?_
  cases worker with
  | some worker =>
    exact .bind (enterImpartial .stopping) fun _ => .bind (controlImpartial _) fun _ =>
      reclaimImpartial
  | none => exact reclaimImpartial

theorem unloadImpartial : Impartial config observer Call.unload := by
  have rest : Impartial config observer (do
      alter fun c : Console => { c with programLoaded := false }
      alter fun c => { c with entry := none }
      alter fun c => { c with queue := c.queue.clear }) :=
    .bind (alterImpartial fun h => .of h) fun _ => .bind (alterImpartial fun h => .of h) fun _ =>
    alterImpartial fun h => .of h
  refine .bind (lookImpartial rfl) fun core => ?_
  cases core with
  | none => exact rest
  | some core =>
    exact .bind (alterImpartial fun h => .of h) fun _ => .bind (publishImpartial _) fun _ => rest

theorem setUpImpartial (host : Provision) :
    Impartial config observer (Call.setUp host) := by
  refine .bind (lookImpartial rfl) fun initialized => ?_
  cases initialized with
  | true => exact .done
  | false =>
    refine .bind (enterImpartial .booting) fun _ => ?_
    refine configurationImpartial fun now same => ?_
    have fit core devices : (Call.build now host).1 = .ok (core, devices) →
        Fit devices ∧ Installed now devices := buildFit
    generalize Call.build now host = outcome at fit
    obtain ⟨built, events⟩ := outcome
    refine .bind (alterImpartial fun h => .of h) fun _ => ?_
    cases built with
    | ok parts =>
      obtain ⟨core, devices⟩ := parts
      refine .bind (reportImpartial _) fun _ => ?_
      refine .bind (publishImpartial core) fun _ => ?_
      obtain ⟨fit, installed⟩ := fit core devices rfl
      refine .bind (alterImpartial fun constant =>
        ⟨⟨constant.config, constant.observer, fit, fun _ =>
          by rw [constant.config, ← same]; exact installed⟩, _, _, _, _, _, rfl⟩) fun _ => ?_
      exact .bind (enterImpartial .idle) fun _ => .done
    | error e =>
      exact .bind (reportImpartial _) fun _ => .bind (enterImpartial .error) fun _ => .done

theorem dismantleImpartial : Impartial config observer Call.dismantle :=
  alterImpartial fun constant =>
    ⟨⟨constant.config, constant.observer, constant.fit, fun up => by cases up⟩, _, _, _, _, _, rfl⟩

theorem resetImpartial (host : Provision) :
    Impartial config observer (Call.reset host) := by
  refine .bind (lookImpartial rfl) fun state => ?_
  refine .bind (reportImpartial _) fun _ => ?_
  refine .bind haltWorkerImpartial fun _ => ?_
  refine .bind unloadImpartial fun _ => ?_
  refine .bind dismantleImpartial fun _ => ?_
  refine .bind (alterImpartial fun h => .of h) fun _ => ?_
  refine .bind (alterImpartial fun h => .of h) fun _ => ?_
  exact setUpImpartial host

theorem shutdownImpartial : Impartial config observer Call.shutdown :=
  .bind haltWorkerImpartial fun _ => .bind unloadImpartial fun _ =>
    .bind dismantleImpartial fun _ => enterImpartial .idle

theorem acceptImpartial (core : Core Unit) (image : LoadedImage) (stack : UInt64) :
    Impartial config observer (Call.accept core image stack) := by
  refine .bind (alterImpartial fun h => .of h) fun _ => ?_
  refine .bind (publishImpartial _) fun _ => ?_
  refine .bind (alterImpartial fun h => .of h) fun _ => ?_
  refine .bind (alterImpartial fun h => .of h) fun _ => ?_
  refine .bind (alterImpartial fun h => .of h) fun _ => ?_
  refine .bind (alterImpartial fun h => .of h) fun _ => ?_
  exact .bind (reportImpartial _) fun _ => enterImpartial .idle

theorem placeImpartial (core : Core Unit) (loader : Loader) (stack : UInt64) :
    Impartial config observer (Call.place core loader stack) := by
  refine .bind (enterImpartial .booting) fun _ => ?_
  refine .bind (alterImpartial fun h => .of h) fun _ => ?_
  refine .bind (alterImpartial fun h => .of h) fun _ => ?_
  refine .bind (alterImpartial fun h => .of h) fun _ => ?_
  dsimp only
  split
  · exact .bind (acceptImpartial _ _ stack) fun _ => .done
  · exact .bind (reportImpartial _) fun _ => .bind (enterImpartial .idle) fun _ => .done
  · exact .bind (reportImpartial _) fun _ => .bind (enterImpartial .error) fun _ => .done

theorem loadImpartial (loader : Loader) : Impartial config observer (Call.load loader) := by
  refine .bind (lookImpartial rfl) fun state => ?_
  split
  · exact .bind (reportImpartial _) fun _ => .done
  · refine .bind reclaimImpartial fun _ => ?_
    refine .bind (lookImpartial rfl) fun core => ?_
    cases core with
    | none => exact .done
    | some core =>
      refine .bind (lookImpartial rfl) fun config => ?_
      dsimp only
      split
      · exact .bind (reportImpartial _) fun _ => .done
      · exact placeImpartial core loader _

theorem startWorkerImpartial : Impartial config observer Call.startWorker := by
  refine .bind reclaimImpartial fun _ => ?_
  refine .bind (lookImpartial rfl) fun core => ?_
  cases core with
  | none => exact .bind (reportImpartial _) fun _ => .done
  | some core =>
    refine .bind (moveImpartial _ _) fun moved => ?_
    cases moved with
    | false => exact .done
    | true => exact .bind (alterImpartial fun h => .of h) fun _ => .done

theorem switchImpartial (origins : List Lifecycle) (after : Lifecycle) (f : Control → Control)
    (message : String) :
    Impartial config observer (do
      if ← Call.move origins after then
        Call.control f
        return true
      else
        Call.refuse message
        return false) := by
  refine .bind (moveImpartial _ _) fun moved => ?_
  cases moved with
  | true => exact .bind (controlImpartial f) fun _ => .done
  | false => exact .bind (refuseImpartial message) fun _ => .done

theorem pauseImpartial : Impartial config observer Call.pause := switchImpartial _ _ _ _

theorem resumeImpartial : Impartial config observer Call.resume := switchImpartial _ _ _ _

theorem togglePauseImpartial : Impartial config observer Call.togglePause := by
  refine .bind (lookImpartial rfl) fun state => ?_
  cases state with
  | running => exact pauseImpartial
  | paused => exact resumeImpartial
  | _ => exact .bind (reportImpartial _) fun _ => .done

theorem runImpartial : Impartial config observer Call.run := by
  refine .bind (lookImpartial rfl) fun ready => ?_
  cases ready with
  | false => exact .bind (reportImpartial _) fun _ => .done
  | true =>
    refine .bind (lookImpartial rfl) fun state => ?_
    cases state with
    | paused => exact resumeImpartial
    | idle => exact startWorkerImpartial
    | _ => exact .bind (reportImpartial _) fun _ => .done

theorem stopImpartial : Impartial config observer Call.stop := by
  refine .bind (moveImpartial _ _) fun moved => ?_
  cases moved with
  | true =>
    exact .bind (controlImpartial _) fun _ => .bind reclaimImpartial fun _ =>
      .bind unloadImpartial fun _ => .bind (enterImpartial .idle) fun _ => .done
  | false => exact .bind (refuseImpartial _) fun _ => .bind reclaimImpartial fun _ => .done

theorem readMemoryImpartial (address length : UInt64) :
    Impartial config observer (Call.readMemory address length) := by
  refine .bind (lookImpartial rfl) fun state => ?_
  split
  · exact .done
  · refine .bind reclaimImpartial fun _ => .bind (lookImpartial rfl) fun core => ?_
    cases core with
    | none => exact .done
    | some core => exact .done

theorem operationImpartial (operation : Operation) : Impartial config observer operation.call := by
  cases operation with
  | setUp host => exact .bind (setUpImpartial host) fun _ => .done
  | load loader => exact .bind (loadImpartial loader) fun _ => .done
  | run => exact .bind runImpartial fun _ => .done
  | pause => exact .bind pauseImpartial fun _ => .done
  | resume => exact .bind resumeImpartial fun _ => .done
  | togglePause => exact .bind togglePauseImpartial fun _ => .done
  | stop => exact .bind stopImpartial fun _ => .done
  | readMemory address length => exact .bind (readMemoryImpartial address length) fun _ => .done
  | reset host => exact .bind (resetImpartial host) fun _ => .done
  | shutdown => exact .bind shutdownImpartial fun _ => .done

end Impartial

end GameConsole.Console
