import GameConsole.Proofs.Console.Failure
import GameConsole.Proofs.Console.Restraint

/-! How soon a program stops executing: within the tick that it is in once the console is no longer
running, and with the instruction that it is at once it has been asked to stop. -/
namespace GameConsole.Console.Braking
open Failure (executing)
open Interplay (Meets)
open Procedure (look alter)

def begins (s : Failure.Session) : Interplay.Turn Operation Unit → Nat
  | .other _ => if executing s.world then 1 else 0
  | _ => 0

def begun (s : Failure.Session) : List (Interplay.Turn Operation Unit) → Nat
  | [] => 0
  | turn :: turns => begins s turn + begun (s.take turn) turns

theorem begunWithin (due : Console → Nat) (Q : Failure.Session → Prop)
    (turns : List (Interplay.Turn Operation Unit))
    (step : ∀ s turn, turn ∈ turns → Q s →
      Q (s.take turn) ∧ begins s turn + due (s.take turn).world ≤ due s.world)
    (s : Failure.Session) (h : Q s) : begun s turns ≤ due s.world := by
  induction turns generalizing s with
  | nil => exact Nat.zero_le _
  | cons turn turns ih =>
    obtain ⟨kept, falls⟩ := step s turn (.head _) h
    have later : begun (s.take turn) turns ≤ due (s.take turn).world :=
      ih (fun s other found => step s other (.tail _ found)) _ kept
    have all : begun s (turn :: turns) = begins s turn + begun (s.take turn) turns := rfl
    omega

inductive Happens (allowed : Console → Console → Prop) (s : Failure.Session)
    (turn : Interplay.Turn Operation Unit) : Prop where
  | stays (same : (s.take turn).world = s.world) (quiet : begins s turn = 0)
  | moves (step : allowed s.world (s.take turn).world) (quiet : begins s turn = 0)
  | threads (job : Job) (mine : s.world.worker = some (.busy job))
      (goes : (s.take turn).world = s.world.advanceJob job)
      (counts : begins s turn = if job.phase = .execute then 1 else 0)

theorem executingBusy {c : Console} {job : Job} (mine : c.worker = some (.busy job)) :
    executing c = decide (job.phase = .execute) := by
  obtain ⟨core, left, phase⟩ := job
  unfold executing
  rw [mine]
  cases phase <;> rfl

theorem happens {allowed : Console → Console → Prop} {s : Failure.Session}
    (step : allowed s.world (s.take .proceed).world) (turn : Interplay.Turn Operation Unit) :
    Happens allowed s turn := by
  cases turn with
  | begin call =>
    refine .stays ?_ rfl
    unfold Failure.Session.take Interplay.Session.take
    dsimp only
    split <;> rfl
  | proceed => exact .moves step rfl
  | other t =>
    have world : (s.take (.other t)).world = s.world.advance.getD s.world := rfl
    cases goes : s.world.advance with
    | none =>
      refine .stays (by rw [world, goes]; rfl) ?_
      have idle : executing s.world = false := by
        unfold executing
        split
        case h_1 mine =>
          rw [advance, mine] at goes
          cases goes
        case h_2 => rfl
      simp only [begins, idle, Bool.false_eq_true, if_false]
    | some after =>
      obtain ⟨job, mine, rfl⟩ := advanceBusy goes
      refine .threads job mine (by rw [world, goes]; rfl) ?_
      simp only [begins, executingBusy mine, decide_eq_true_eq]

/- How many instructions a thread may still begin at a phase, if it is not to take up another
tick. -/
def Phase.due (left tick : Nat) : Phase → Nat
  | .release => tick
  | .askMode | .begin | .confirmMode | .confirmStop | .execute => left
  | .settle _ | .deliver _ | .showRegisters true | .showCount true | .goOn => left - 1
  | _ => 0

def due (c : Console) : Nat :=
  match c.worker with
  | some (.busy job) => Phase.due job.left c.tick job.phase
  | _ => 0

section Due
variable {c d : Console} {job : Job} {config : Configuration}

theorem dueBusy (mine : c.worker = some (.busy job)) :
    due c = Phase.due job.left c.tick job.phase := by
  unfold due
  rw [mine]

theorem dueWithin (reined : Reined config c) : due c ≤ c.tick := by
  unfold due
  split
  case h_1 job mine =>
    have within := (reined.busy job mine).2.2
    unfold Phase.due
    split <;> omega
  case h_2 => exact Nat.zero_le _

theorem exchangeAsks (control : Control) (before after : Mode) :
    (control.exchange before after).1.stopRequested = control.stopRequested := by
  unfold Control.exchange
  split <;> rfl

theorem requestLasts {control : Control} (signals : List Signal)
    (asked : control.stopRequested = true) :
    (control.signalAll signals).stopRequested = true := by
  induction signals generalizing control with
  | nil => exact asked
  | cons signal rest ih =>
    refine ih ?_
    cases signal with
    | requestStop => rfl
    | pause | resume => exact (exchangeAsks control _ _).trans asked

theorem dueAt (same : d.config = c.config) (mine : d.worker = some (.busy job)) :
    due d = Phase.due job.left c.tick job.phase := by
  rw [dueBusy mine, tickSame same]

theorem performLeaves (c : Console) (job : Job) :
    ∃ core phase, (c.perform job).worker = some (.busy ⟨core, job.left, phase⟩) ∧
      (c.perform job).config = c.config ∧
      (c.control.stopRequested = true → (c.perform job).control.stopRequested = true) ∧
      phase ≠ .execute ∧ ∀ tick, Phase.due job.left tick phase = job.left - 1 := by
  unfold perform
  dsimp only
  split <;> exact ⟨_, _, rfl, rfl, requestLasts _, by simp, fun _ => rfl⟩

theorem gentleDue (gentle : Gentle False False c d) : due d ≤ due c := by
  obtain same | gone | ⟨starts, -⟩ := gentle.worker
  · unfold due
    rw [same, tickSame gentle.config]
  · unfold due
    rw [gone]
    exact Nat.zero_le _
  · exact starts.elim

theorem dueStays (mine : c.worker = some (.busy job))
    (still : c.state ≠ .running) (apart : job.phase ≠ .execute) :
    due (c.advanceJob job) ≤ due c := by
  rw [dueBusy mine]
  obtain ⟨core, left, phase⟩ := job
  cases phase with
  | execute => exact absurd rfl apart
  | askState =>
    dsimp only [advanceJob]
    split
    case h_1 running => exact absurd running still
    all_goals exact Nat.zero_le _
  | askStop | judge =>
    dsimp only [advanceJob]
    split <;> exact Nat.zero_le _
  | askMode =>
    dsimp only [advanceJob]
    split
    · exact Nat.le_refl left
    · exact Nat.le_refl left
    · exact Nat.zero_le _
  | confirmMode =>
    dsimp only [advanceJob]
    split
    · exact Nat.le_refl left
    · exact Nat.zero_le _
  | confirmStop =>
    dsimp only [advanceJob]
    split
    · exact Nat.zero_le _
    · exact Nat.le_refl left
  | settle mode =>
    dsimp only [advanceJob]
    cases mode == .halted with
    | true => exact Nat.le_refl (left - 1)
    | false => exact Nat.zero_le _
  | deliver pending => cases pending <;> exact Nat.le_refl (left - 1)
  | showRegisters ran | showCount ran => cases ran <;> exact Nat.le_refl _
  | goOn =>
    dsimp only [advanceJob]
    split
    · exact Nat.le_refl (left - 1)
    · exact Nat.zero_le _
  | leaveCount exit => obtain _ | _ | (_ | _) | _ := exit <;> exact Nat.zero_le _
  | conclude after | announce before after =>
    dsimp only [advanceJob]
    split <;> exact Nat.zero_le _
  | _ => exact Nat.le_refl _

theorem dueFalls (reined : Reined config c) (mine : c.worker = some (.busy job))
    (still : c.state ≠ .running) :
    (if job.phase = .execute then 1 else 0) + due (c.advanceJob job) ≤ due c := by
  split
  case isFalse apart =>
    rw [Nat.zero_add]
    exact dueStays mine still apart
  case isTrue executes =>
    obtain ⟨core, phase, later, config, -, -, spent⟩ := performLeaves c job
    have here : due c = job.left := by rw [dueBusy mine, executes]; rfl
    have goes : c.advanceJob job = c.perform job := by unfold advanceJob; rw [executes]
    have after : due (c.perform job) = job.left - 1 := (dueAt config later).trans (spent _)
    have positive := (reined.busy job mine).2.1
    rw [goes, after, here]
    omega

structure Slowed (config : Configuration) (s : Failure.Session) : Prop where
  secured : (restraint False False config).Secures (fun _ c => Reined config c) s.rest s.world
  still : s.world.state ≠ .running

theorem takeSlowed {s : Failure.Session} (slowed : Slowed config s)
    (turn : Interplay.Turn Operation Unit) (calm : ∀ call, turn = .begin call → ¬ call.Restarts) :
    Slowed config (s.take turn) ∧ begins s turn + due (s.take turn).world ≤ due s.world := by
  have reined : Reined config s.world := slowed.secured.always
  have secured : (restraint False False config).Secures (fun _ c => Reined config c)
      (s.take turn).rest (s.take turn).world :=
    Interplay.Session.takeSecures s slowed.secured turn fun call _ begins _ h => by
      have calm : ¬ call.Restarts := calm call begins
      refine callReined call ⟨fun starts => calm ?_, calm⟩ s.world h
      rw [starts]
      trivial
  have step : Gentle False False s.world
      (Interplay.Session.take (restraint False False config) Operation.call id s .proceed).world :=
    Interplay.Session.proceedAllowed slowed.secured fun _ _ => rfl
  cases happens step turn with
  | stays same quiet =>
    rw [quiet, Nat.zero_add, same]
    exact ⟨⟨secured, same ▸ slowed.still⟩, Nat.le_refl _⟩
  | moves gentle quiet =>
    rw [quiet, Nat.zero_add]
    exact ⟨⟨secured, fun running => (gentle.state running).elim slowed.still id⟩, gentleDue gentle⟩
  | threads job mine goes counts =>
    rw [counts, goes]
    refine ⟨⟨secured, ?_⟩, dueFalls reined mine slowed.still⟩
    rw [goes]
    exact stillStill (reined.busy job mine).1 slowed.still

end Due

structure Kept (c d : Console) : Prop where
  worker : d.worker = c.worker ∨ d.worker = none
  asked : ∀ job, c.worker = some (.busy job) → c.control.stopRequested = true →
    d.control.stopRequested = true

def stopping : Interplay Console Console Unit where
  state c := c
  other _ c := c.advance.getD c
  ours _ after := after
  allowed := Kept
  oursIdle _ := rfl
  allowedIdle _ := ⟨.inl rfl, fun _ _ => id⟩

instance : Placid stopping := ⟨fun _ _ _ => ⟨.inl rfl, fun _ _ => id⟩⟩

def anyway : Assertion stopping where
  holds _ := True
  stable _ _ h := h

def vacant : Assertion stopping where
  holds c := c.worker = none
  stable _ c h := by
    change (c.advance.getD c).worker = none
    rw [advance, h]
    exact h

section Stopping
variable {α : Type} {config : Configuration}

theorem vacantSecures {post : α → Console → Prop} {p : Procedure Console α} {c : Console}
    (h : (restraint False True config).Secures post p c) (nobody : vacant c) :
    stopping.Secures (fun _ => vacant) p c := by
  induction p generalizing c with
  | done result => exact Interplay.Assertion.secures nobody
  | act change next ih =>
    intro ts
    have still : vacant (stopping.others ts c) := Interplay.Assertion.others vacant ts nobody
    refine ⟨trivial, fun after goes => ?_⟩
    obtain ⟨gentle, later⟩ := (h ts).2 after goes
    have alone : vacant after := by
      obtain same | gone | ⟨starts, -⟩ := gentle.worker
      · exact same.trans still
      · exact gone
      · exact starts.elim
    refine ⟨⟨.inr alone, fun job mine => ?_⟩, ih _ later alone⟩
    cases still.symm.trans mine

theorem vacantly {p : Procedure Console α}
    (h : ∀ config, (restraint False True config).Meets reined p fun _ => reined) :
    stopping.Meets vacant p fun _ => vacant := fun c nobody =>
  vacantSecures (h c.config c ⟨rfl, fun job mine => by cases nobody.symm.trans mine⟩) nobody

theorem reclaimVacant : stopping.Meets anyway Call.reclaim fun _ => vacant :=
  reclaimAllowed (H := fun _ => vacant) (fun _ _ none => none)
    (fun c _ _ _ joined => by
      obtain ⟨rfl, gone⟩ := joinGone joined
      refine ⟨⟨.inr rfl, fun job mine => ?_⟩, rfl⟩
      obtain died | ⟨core, finished⟩ := gone
      · cases died.symm.trans mine
      · cases finished.symm.trans mine)
    (fun _ _ h => ⟨⟨.inl rfl, fun _ _ => id⟩, h⟩) (fun _ _ h => h)
    (vacantly fun _ => enterReined nofun)

theorem requestAnyway : stopping.Meets anyway (Call.control Control.requestStop) fun _ => anyway :=
  controlAllowed _ (fun _ _ => ⟨⟨.inl rfl, fun _ _ _ => rfl⟩, trivial⟩) fun _ _ _ => trivial

theorem anywayQuiet : Quiet anyway := fun _ _ _ => trivial

theorem haltWorkerVacant : stopping.Meets anyway Call.haltWorker fun _ => vacant :=
  haltWorkerAllowed (M := fun _ => anyway) (.look fun _ h => h)
    (fun _ => enterAllowed _ (fun _ _ => ⟨⟨.inl rfl, fun _ _ => id⟩, trivial⟩) fun _ _ h => h)
    requestAnyway reclaimVacant reclaimVacant

theorem unloadVacant : stopping.Meets vacant Call.unload fun _ => vacant :=
  vacantly fun _ => unloadReined

theorem dismantleVacant : stopping.Meets vacant Call.dismantle fun _ => vacant :=
  vacantly fun _ => asideReined

theorem idleVacant : stopping.Meets vacant (Call.enter .idle) fun _ => vacant :=
  vacantly fun _ => enterReined nofun

theorem stopVacant : stopping.Meets anyway Call.stop fun _ => vacant := by
  have moves : stopping.Meets anyway (Call.move [.running, .paused] .stopping) fun moved =>
      cond moved anyway anyway :=
    moveAllowed _ _ (fun _ _ _ => ⟨⟨.inl rfl, fun _ _ => id⟩, trivial⟩) (fun _ h _ => h)
      fun _ _ h => h
  exact stopAllowed moves requestAnyway reclaimVacant unloadVacant idleVacant anywayQuiet
    reclaimVacant

theorem resetVacant (host : Provision) :
    stopping.Meets anyway (Call.reset host) fun _ => vacant :=
  resetAllowed anywayQuiet haltWorkerVacant unloadVacant dismantleVacant
    (vacantly fun _ => asideReined) (vacantly fun _ => asideReined)
    (vacantly fun _ => setUpReined host)

theorem shutdownVacant : stopping.Meets anyway Call.shutdown fun _ => vacant :=
  shutdownAllowed haltWorkerVacant unloadVacant dismantleVacant idleVacant

def Halts : Operation → Prop
  | .stop | .reset _ | .shutdown => True
  | _ => False

theorem haltsVacant {call : Operation} (halts : Halts call) :
    stopping.Meets anyway call.call fun _ => vacant := by
  cases call with
  | stop => exact .bind stopVacant fun _ => .done fun _ h => h
  | reset host => exact .bind (resetVacant host) fun _ => .done fun _ h => h
  | shutdown => exact .bind shutdownVacant fun _ => .done fun _ h => h
  | _ => exact halts.elim

end Stopping

def Asked (c : Console) : Prop :=
  ∀ job, c.worker = some (.busy job) → c.control.stopRequested = true

def last (c : Console) : Nat := if executing c then 1 else 0

section Asked
variable {c d : Console} {job : Job}

theorem Kept.asks (kept : Kept c d) (asked : Asked c) : Asked d := fun job mine => by
  obtain same | gone := kept.worker
  · have mine := same.symm.trans mine
    exact kept.asked job mine (asked job mine)
  · cases gone.symm.trans mine

theorem askedEnds (mine : c.worker = some (.busy job)) (asked : Asked c) :
    Asked (c.advanceJob job) ∧ executing (c.advanceJob job) = false := by
  have request := asked job mine
  suffices (c.advanceJob job).control.stopRequested = true ∧
      executing (c.advanceJob job) = false from ⟨fun _ _ => this.1, this.2⟩
  obtain ⟨core, left, phase⟩ := job
  cases phase with
  | execute =>
    obtain ⟨core', phase, later, -, lasts, done, -⟩ := performLeaves c ⟨core, left, .execute⟩
    have ended : executing (c.perform ⟨core, left, .execute⟩) = false := by
      rw [executingBusy later]
      exact decide_eq_false done
    exact ⟨lasts request, ended⟩
  | hold | release => exact ⟨(exchangeAsks _ _ _).trans request, rfl⟩
  | confirmStop =>
    dsimp only [advanceJob]
    rw [if_pos request]
    exact ⟨request, rfl⟩
  | askStop | confirmMode | askState | askMode | judge | goOn =>
    dsimp only [advanceJob]
    split <;> exact ⟨request, rfl⟩
  | conclude after | announce before after =>
    dsimp only [advanceJob]
    split <;> exact ⟨request, rfl⟩
  | deliver pending => cases pending <;> exact ⟨request, rfl⟩
  | showRegisters ran | showCount ran => cases ran <;> exact ⟨request, rfl⟩
  | leaveCount exit => obtain _ | _ | (_ | _) | _ := exit <;> exact ⟨request, rfl⟩
  | _ => exact ⟨request, rfl⟩

theorem lastThread (mine : c.worker = some (.busy job)) (asked : Asked c) :
    (if job.phase = .execute then 1 else 0) + last (c.advanceJob job) ≤ last c := by
  unfold last
  rw [(askedEnds mine asked).2, executingBusy mine]
  simp

theorem lastKept (kept : Kept c d) : last d ≤ last c := by
  obtain same | gone := kept.worker
  · unfold last executing
    rw [same]
  · unfold last executing
    rw [gone]
    exact Nat.zero_le _

structure Braked (s : Failure.Session) : Prop where
  secured : stopping.Secures (fun _ => vacant) s.rest s.world
  asked : Asked s.world

theorem takeBraked {s : Failure.Session} (braked : Braked s)
    (turn : Interplay.Turn Operation Unit) (calm : turn ≠ .begin .run) :
    Braked (s.take turn) ∧ begins s turn + last (s.take turn).world ≤ last s.world := by
  have secured : stopping.Secures (fun _ => vacant) (s.take turn).rest (s.take turn).world :=
    Interplay.Session.takeSecures s braked.secured turn fun call _ begins _ nobody => by
      refine vacantly (fun config => callReined call ⟨fun starts => ?_, fun _ => trivial⟩) s.world
        nobody
      exact calm (begins.trans (congrArg Interplay.Turn.begin starts))
  have step : Kept s.world
      (Interplay.Session.take stopping Operation.call id s .proceed).world :=
    Interplay.Session.proceedAllowed braked.secured fun _ _ => rfl
  cases happens step turn with
  | stays same quiet =>
    rw [quiet, Nat.zero_add, same]
    exact ⟨⟨secured, same ▸ braked.asked⟩, Nat.le_refl _⟩
  | moves kept quiet =>
    rw [quiet, Nat.zero_add]
    exact ⟨⟨secured, kept.asks braked.asked⟩, lastKept kept⟩
  | threads job mine goes counts =>
    rw [counts, goes]
    refine ⟨⟨secured, ?_⟩, lastThread mine braked.asked⟩
    rw [goes]
    exact (askedEnds mine braked.asked).1

end Asked

section Sessions
variable {config : Configuration} {s : Failure.Session}

theorem sessionReined (config : Configuration) (observer : Observer)
    (turns : List (Interplay.Turn Operation Unit)) :
    (restraint True True config).Secures (fun _ c => Reined config c)
      ((Failure.Session.start config observer).play turns).rest
      ((Failure.Session.start config observer).play turns).world := by
  have starts : (restraint True True config).Meets reined (pure Answer.nothing) fun _ => reined :=
    .done fun _ h => h
  exact Interplay.Session.playSecures
    (fun call _ c h => callReined call ⟨fun _ => trivial, fun _ => trivial⟩ c h) turns _
    (starts _ ⟨rfl, fun _ mine => by cases mine⟩)

def pauseLeaves (config : Configuration) : Answer → Assertion (restraint False False config)
  | .flag true => slowed
  | _ => reined

theorem pauseOperation :
    (restraint False False config).Meets reined (Operation.call .pause) (pauseLeaves config) :=
  .bind pauseSlowed fun paused => .done fun _ h => by cases paused <;> exact h

theorem pauseSlows {during : List (Interplay.Turn Operation Unit)}
    (idle : s.rest.result?.isSome) (reins : Reined config s.world)
    (goesOn : ∀ call, .begin call ∉ during)
    (done : ((s.take (.begin .pause)).play during).rest = .done (.flag true)) :
    Slowed config ((s.take (.begin .pause)).play during) := by
  have secured : (restraint False False config).Secures (fun answer => pauseLeaves config answer)
      ((s.take (.begin .pause)).play during).rest ((s.take (.begin .pause)).play during).world :=
    Interplay.Session.callSecures idle (pauseOperation s.world reins) goesOn
  have stays : (restraint False False config).Meets reined (pure (Answer.flag true))
      fun _ => reined :=
    .done fun _ h => h
  rw [done] at secured
  have still := secured.result
  refine ⟨?_, still.2⟩
  rw [done]
  exact stays _ still.1

theorem haltsSecures {call : Operation} (halts : Halts call)
    {during : List (Interplay.Turn Operation Unit)} (idle : s.rest.result?.isSome)
    (goesOn : ∀ call, .begin call ∉ during) :
    stopping.Secures (fun _ => vacant) ((s.take (.begin call)).play during).rest
      ((s.take (.begin call)).play during).world :=
  Interplay.Session.callSecures idle (haltsVacant halts s.world trivial) goesOn

theorem slowedBegun (slowed : Slowed config s) (later : List (Interplay.Turn Operation Unit))
    (calm : ∀ call, .begin call ∈ later → ¬ call.Restarts) :
    begun s later ≤ s.world.tick := by
  refine Nat.le_trans (begunWithin due (Slowed config) later (fun s turn found slowed => ?_) s
    slowed) (dueWithin slowed.secured.always)
  refine takeSlowed slowed turn fun call begins => calm call ?_
  rw [← begins]
  exact found

theorem brakedBegun (braked : Braked s) (later : List (Interplay.Turn Operation Unit))
    (calm : .begin .run ∉ later) : begun s later ≤ last s.world :=
  begunWithin last Braked later (fun _ turn found braked => takeBraked braked turn fun begins =>
    calm (begins ▸ found)) s braked

theorem lastOne (c : Console) : last c ≤ 1 := by
  unfold last
  split
  · exact Nat.le_refl 1
  · exact Nat.zero_le 1

theorem lastVacant {c : Console} (nobody : c.worker = none) : last c = 0 := by
  unfold last executing
  rw [nobody]
  rfl

/- Once a pause has been answered with yes, the thread begins no more instructions than a tick has,
until a call sets the console running again. Once it has been asked to stop by a call that waits
for its end, it begins one more at most, which is the one that it is at; and none when that call
has been answered, until another thread is started. -/
theorem brakesInTime (config : Configuration) (observer : Observer)
    (turns : List (Interplay.Turn Operation Unit)) :
    let s := (Failure.Session.start config observer).play turns
    s.rest.result?.isSome → ∀ during, (∀ call, .begin call ∉ during) →
      let t := (s.take (.begin .pause)).play during
      (t.rest = .done (.flag true) →
        ∀ later, (∀ call, .begin call ∈ later → ¬ call.Restarts) →
          begun t later ≤ max config.stepsPerTick.toNat 1) ∧
      ∀ call, Halts call →
        let u := (s.take (.begin call)).play during
        ∀ later, .begin .run ∉ later →
          (u.world.control.stopRequested = true → begun u later ≤ 1) ∧
          (u.rest.result?.isSome → begun u later = 0) := by
  intro s idle during goesOn t
  obtain ⟨answer, -, reins⟩ := (sessionReined config observer turns).ended idle
  refine ⟨fun done later calm => ?_, fun call halts => ?_⟩
  · have slowed : Slowed config t := pauseSlows idle reins goesOn done
    have bound : begun t later ≤ t.world.tick := slowedBegun slowed later calm
    rw [tick, slowed.secured.always.config] at bound
    exact bound
  · intro u later calm
    have secured : stopping.Secures (fun _ => vacant) u.rest u.world :=
      haltsSecures halts idle goesOn
    refine ⟨fun asked => ?_, fun answered => ?_⟩
    · exact Nat.le_trans (brakedBegun ⟨secured, fun _ _ => asked⟩ later calm) (lastOne u.world)
    · obtain ⟨answer, -, nobody⟩ := secured.ended answered
      have unasked : Asked u.world := fun job mine => by cases nobody.symm.trans mine
      have none : begun u later ≤ last u.world := brakedBegun ⟨secured, unasked⟩ later calm
      rw [lastVacant nobody] at none
      exact Nat.le_zero.mp none

def runIdly : List (Interplay.Turn Operation Unit) :=
  .begin (.setUp (.memory true)) :: .replicate 11 .proceed ++
    .begin (.load (.rawImage (.replicate 16 0x90) 0)) :: .replicate 19 .proceed ++
    .begin .run :: .replicate 7 .proceed ++ .replicate 2 (.other ())

theorem brakesInTimeIdly :
    let s := (Failure.Session.start { brief with stepsPerTick := 3 } {}).play runIdly
    let t := (s.take (.begin .pause)).play (.replicate 4 .proceed)
    let r := s.play (.replicate 5 (.other ()))
    let u := (r.take (.begin .stop)).play (.replicate 4 .proceed)
    (begun t (.replicate 60 (.other ())) ≤ 3 ∧ begun t (.replicate 60 (.other ())) = 3) ∧
      u.world.control.stopRequested = true ∧ begun u (.replicate 60 (.other ())) = 1 := by
  intro s t r u
  refine ⟨⟨?_, ?_⟩, ?_, ?_⟩
  · refine (brakesInTime { brief with stepsPerTick := 3 } {} runIdly (by decide +kernel)
      (.replicate 4 .proceed) (by simp)).1 (doneYes (by decide +kernel)) _ (by simp)
  · decide +kernel
  · decide +kernel
  · decide +kernel

end Sessions

end GameConsole.Console.Braking
