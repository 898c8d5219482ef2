import GameConsole.Proofs.Console.Notices
import GameConsole.Proofs.Console.Session
import GameConsole.Proofs.Console.Steps
import Mathlib.Data.List.Infix

/-! What the observer of a console hears. A change of the state is one step and its announcement
another, for the controller and for the thread, and no lock is held over both: if the two parties
have changes to announce at the same time, either may come first. -/
namespace GameConsole.Console
open Interplay (Meets)
open Procedure (look alter update await)

def announcement (c : Console) : Option Lifecycle :=
  match c.worker with
  | some (.busy ⟨_, _, .announce _ after⟩) => some after
  | _ => none

def notices (party : Party) (before after : Console) : List Notice :=
  (if after.state = before.state then [] else [.entered party after.state]) ++
    (after.observer.heard.toList.drop before.observer.heard.size).map (.told party)

structure Account where
  console : Console
  log : List Notice

namespace Account

def record (w : Account) (party : Party) (after : Console) : Account :=
  ⟨after, w.log ++ notices party w.console after⟩

def thread (w : Account) : Account := w.record .thread (w.console.advance.getD w.console)

structure Posted (w : Account) : Prop where
  controller : (owed .controller w.log).isSome
  thread : owed .thread w.log = some w.console.announcement
  told : reports w.log = w.console.observer.heard.toList
  state : (changes w.log).getLastD .idle = w.console.state
  concludes : ∀ job, w.console.worker = some (.busy job) → Concludes job.phase

end Account

section Notices
variable {party : Party} {before after : Console} {state : Lifecycle}

theorem noticesNone (same : after.state = before.state)
    (silent : after.observer.heard = before.observer.heard) : notices party before after = [] := by
  simp [notices, same, silent]

theorem noticesEntered (changed : after.state ≠ before.state)
    (silent : after.observer.heard = before.observer.heard) :
    notices party before after = [.entered party after.state] := by
  simp [notices, changed, silent]

theorem noticesTold (same : after.state = before.state)
    (heard : after.observer.heard = before.observer.heard.push state) :
    notices party before after = [.told party state] := by
  simp [notices, same, heard]

end Notices

namespace Account

theorem recordSame (w : Account) (party : Party) : w.record party w.console = w := by
  rw [record, noticesNone rfl rfl, List.append_nil]

def interplay : Interplay Console Account Unit where
  state := Account.console
  other _ := Account.thread
  ours w := w.record .controller
  allowed _ _ := True
  always := Posted
  oursIdle w := w.recordSame .controller
  allowedIdle _ := trivial

instance : Lenient Account.interplay := ⟨fun _ _ _ => trivial⟩

abbrev Session := Interplay.Session Console Account Answer

def Session.start (config : Configuration) (observer : Observer) : Session :=
  ⟨⟨.new config { observer with heard := #[] }, []⟩, .done .nothing⟩

abbrev Session.play (s : Session) (turns : List (Interplay.Turn Operation Unit)) : Session :=
  Interplay.Session.play Account.interplay Operation.call id s turns

section Steps
variable {w : Account} {party : Party} {after : Console}

theorem recordNone (same : after.state = w.console.state)
    (silent : after.observer.heard = w.console.observer.heard) :
    w.record party after = ⟨after, w.log⟩ := by
  rw [record, noticesNone same silent, List.append_nil]

theorem logEntered (changed : after.state ≠ w.console.state)
    (silent : after.observer.heard = w.console.observer.heard) :
    (w.record party after).log = w.log ++ [.entered party after.state] :=
  congrArg (w.log ++ ·) (noticesEntered changed silent)

theorem logTold {state : Lifecycle} (same : after.state = w.console.state)
    (heard : after.observer.heard = w.console.observer.heard.push state) :
    (w.record party after).log = w.log ++ [.told party state] :=
  congrArg (w.log ++ ·) (noticesTold same heard)

theorem Posted.moved (posted : Posted w) (same : after.state = w.console.state)
    (silent : after.observer.heard = w.console.observer.heard)
    (announcement : after.announcement = w.console.announcement)
    (concludes : ∀ job, after.worker = some (.busy job) → Concludes job.phase) :
    Posted ⟨after, w.log⟩ where
  controller := posted.controller
  thread := announcement ▸ posted.thread
  told := posted.told.trans (by rw [silent])
  state := posted.state.trans same.symm
  concludes := concludes

theorem Posted.entered (posted : Posted w) (changed : after.state ≠ w.console.state)
    (silent : after.observer.heard = w.console.observer.heard)
    (controller : (owed .controller (w.log ++ [.entered party after.state])).isSome)
    (thread : owed .thread (w.log ++ [.entered party after.state]) = some after.announcement)
    (concludes : ∀ job, after.worker = some (.busy job) → Concludes job.phase) :
    Posted (w.record party after) := by
  rw [record, noticesEntered changed silent]
  refine ⟨controller, thread, ?_, ?_, concludes⟩
  · rw [reportsEntered, posted.told, silent]
  · rw [changesEntered, List.getLastD_concat]

theorem Posted.announced {state : Lifecycle} (posted : Posted w)
    (same : after.state = w.console.state)
    (heard : after.observer.heard = w.console.observer.heard.push state)
    (controller : (owed .controller (w.log ++ [.told party state])).isSome)
    (thread : owed .thread (w.log ++ [.told party state]) = some after.announcement)
    (concludes : ∀ job, after.worker = some (.busy job) → Concludes job.phase) :
    Posted (w.record party after) := by
  rw [record, noticesTold same heard]
  refine ⟨controller, thread, ?_, ?_, concludes⟩
  · rw [reportsTold, posted.told, heard, Array.toList_push]
  · rw [changesTold, posted.state, same]

end Steps

end Account

/- A step of the thread: it neither changes the state nor tells anybody, or it changes the state
and is about to announce that, or it announces what it has changed. -/
inductive Turned (c d : Console) : Prop where
  | quiet (same : d.state = c.state) (silent : d.observer.heard = c.observer.heard)
      (before : c.announcement = none) (after : d.announcement = none)
  | enters (changed : d.state ≠ c.state) (silent : d.observer.heard = c.observer.heard)
      (before : c.announcement = none) (after : d.announcement = some d.state)
  | tells {state : Lifecycle} (same : d.state = c.state)
      (heard : d.observer.heard = c.observer.heard.push state)
      (before : c.announcement = some state) (after : d.announcement = none)

section Turning
variable {c d : Console} {job : Job}

def Turns (c d : Console) : Prop :=
  Turned c d ∧ ∀ job, d.worker = some (.busy job) → Concludes job.phase

theorem announcementBusy (busy : c.worker = some (.busy job)) :
    c.announcement = match job.phase with | .announce _ after => some after | _ => none := by
  rw [announcement, busy]
  obtain ⟨core, left, phase⟩ := job
  cases phase <;> rfl

theorem announcementNone (busy : c.worker = some (.busy job))
    (silent : announces job.phase = false) : c.announcement = none := by
  rw [announcementBusy busy]
  cases phase : job.phase with
  | announce before after =>
    rw [phase] at silent
    cases silent
  | _ => rfl

theorem announcementGone
    (gone : c.worker = some .died ∨ ∃ core, c.worker = some (.finished core)) :
    c.announcement = none := by
  obtain died | ⟨core, finished⟩ := gone
  · rw [announcement, died]
  · rw [announcement, finished]

theorem Moves.turns (mine : c.worker = some (.busy job)) (moves : Moves c job.phase d) :
    Turns c d := by
  cases moves with
  | works later apart busy state observer before after concludes =>
    refine ⟨.quiet state (by rw [observer]) (announcementNone mine before)
      (announcementNone busy after), fun _ found => ?_⟩
    cases busy.symm.trans found
    exact concludes
  | enters later apart busy observer before active ends after =>
    refine ⟨.enters (fun same => activeEnds active (same ▸ ends)) (by rw [observer])
      (announcementNone mine before) ?_, fun _ found => ?_⟩
    · rw [announcementBusy busy, after]
    · cases busy.symm.trans found
      rw [after]
      trivial
  | tells before after apart gone state heard told =>
    refine ⟨.tells state heard ?_ (announcementGone gone), fun _ found => ?_⟩
    · rw [announcementBusy mine, told]
    · obtain died | ⟨core, finished⟩ := gone
      · cases died.symm.trans found
      · cases finished.symm.trans found
  | leaves core apart gone state observer before =>
    refine ⟨.quiet state (by rw [observer]) (announcementNone mine before)
      (announcementGone (.inr ⟨core, gone⟩)), fun _ found => ?_⟩
    cases gone.symm.trans found

end Turning

namespace Account

section Thread
variable {w : Account}

theorem threadIdle (idle : w.console.advance = none) : w.thread = w := by
  rw [thread, idle]
  exact w.recordSame .thread

theorem turnedPosted {after : Console} (posted : Posted w) (turns : Turns w.console after) :
    Posted (w.record .thread after) ∧
      owed .controller (w.record .thread after).log = owed .controller w.log := by
  obtain ⟨turned, concludes⟩ := turns
  have thread := posted.thread
  cases turned with
  | quiet same silent before away =>
    rw [recordNone same silent]
    exact ⟨posted.moved same silent (away.trans before.symm) concludes, rfl⟩
  | enters changed silent before away =>
    have other : owed .controller (w.log ++ [.entered .thread after.state]) =
        owed .controller w.log := owedOther (by simp [Notice.party])
    rw [before] at thread
    refine ⟨posted.entered changed silent ?_ ?_ concludes, ?_⟩
    · rw [other]
      exact posted.controller
    · rw [owedEntered thread, away]
    · rw [logEntered changed silent, other]
  | @tells state same heard before away =>
    have other : owed .controller (w.log ++ [.told .thread state]) = owed .controller w.log :=
      owedOther (by simp [Notice.party])
    rw [before] at thread
    refine ⟨posted.announced same heard ?_ ?_ concludes, ?_⟩
    · rw [other]
      exact posted.controller
    · rw [owedTold thread, away]
    · rw [logTold same heard, other]

theorem threadPosted (posted : Posted w) :
    Posted w.thread ∧ owed .controller w.thread.log = owed .controller w.log := by
  cases goes : w.console.advance with
  | none =>
    rw [threadIdle goes]
    exact ⟨posted, rfl⟩
  | some after =>
    obtain ⟨job, mine, rfl⟩ := advanceBusy goes
    rw [thread, goes]
    exact turnedPosted posted ((jobMoves (posted.concludes job mine)).turns mine)

end Thread

def standing (due : Option Lifecycle) (vacant : Prop) : Assertion Account.interplay where
  holds w := Posted w ∧ owed .controller w.log = some due ∧ (vacant → w.console.worker = none)
  stable _ w h := by
    obtain ⟨posted, owes, alone⟩ := h
    obtain ⟨posted', same⟩ := threadPosted posted
    refine ⟨posted', same.trans owes, fun v => ?_⟩
    have idle : w.console.advance = none := by rw [advance, alone v]
    change w.thread.console.worker = none
    rw [threadIdle idle]
    exact alone v
  safe _ h := h.1

structure Discreet (c d : Console) : Prop where
  state : d.state = c.state
  silent : d.observer.heard = c.observer.heard
  worker : d.worker = c.worker

section Calls
variable {due : Option Lifecycle} {vacant : Prop} {α : Type}

theorem standingMoved {other : Prop} {w : Account} {after : Console} (h : standing due other w)
    (same : after.state = w.console.state)
    (silent : after.observer.heard = w.console.observer.heard)
    (announcement : after.announcement = w.console.announcement)
    (concludes : ∀ job, after.worker = some (.busy job) → Concludes job.phase)
    (alone : vacant → after.worker = none) : standing due vacant (w.record .controller after) := by
  rw [recordNone same silent]
  exact ⟨h.1.moved same silent announcement concludes, h.2.1, alone⟩

theorem standingDiscreet {w : Account} {after : Console} (h : standing due vacant w)
    (same : Discreet w.console after) : standing due vacant (w.record .controller after) := by
  refine standingMoved h same.state same.silent ?_ ?_ fun v => same.worker.trans (h.2.2 v)
  · rw [announcement, announcement, same.worker]
  · rw [same.worker]
    exact h.1.concludes

theorem standingQuiet : Quiet (standing due vacant) := fun _ _ h =>
  standingDiscreet h ⟨rfl, rfl, rfl⟩

theorem alterDiscreet {change : Console → Console} [same : ∀ c, Marginal c (change c)] :
    Account.interplay.Meets (standing due vacant) (alter change) fun _ => standing due vacant :=
  .alter fun w h => ⟨trivial, standingDiscreet h ⟨(same w.console).state,
    congrArg Observer.heard (same w.console).observer, (same w.console).worker⟩⟩

theorem standingEntered {w : Account} {after : Lifecycle} (h : standing none vacant w)
    (changed : after ≠ w.console.state) :
    standing (some after) vacant (w.record .controller { w.console with state := after }) := by
  obtain ⟨posted, clear, alone⟩ := h
  have owes : owed .controller (w.log ++ [.entered .controller after]) = some (some after) :=
    owedEntered clear
  have log : (w.record .controller { w.console with state := after }).log =
      w.log ++ [.entered .controller after] := logEntered changed rfl
  refine ⟨posted.entered changed rfl ?_ ?_ posted.concludes, ?_, alone⟩
  · rw [owes]
    rfl
  · rw [owedOther (by simp [Notice.party])]
    exact posted.thread
  · exact (congrArg (owed .controller) log).trans owes

theorem announceStanding (before after : Lifecycle) :
    Account.interplay.Meets (standing (some after) vacant) (Call.announce before after) fun _ =>
      standing none vacant :=
  .alter fun w h => by
    obtain ⟨posted, owes, alone⟩ := h
    have clear : owed .controller (w.log ++ [.told .controller after]) = some none := owedTold owes
    have log : (w.record .controller (w.console.tell before after)).log =
        w.log ++ [.told .controller after] := logTold rfl rfl
    refine ⟨trivial, posted.announced rfl rfl ?_ ?_ posted.concludes, ?_, alone⟩
    · rw [clear]
      rfl
    · rw [owedOther (by simp [Notice.party])]
      exact posted.thread
    · exact (congrArg (owed .controller) log).trans clear

theorem enterStanding (after : Lifecycle) :
    Account.interplay.Meets (standing none vacant) (Call.enter after) fun _ =>
      standing none vacant := by
  refine .bind (Q := fun before => standing (if before ≠ after then some after else none) vacant)
    (.update fun w before later h goes => ?_) fun before => ?_
  · cases goes
    refine ⟨trivial, ?_⟩
    split
    case isTrue changed => exact standingEntered h (Ne.symm changed)
    case isFalse same =>
      exact standingDiscreet h ⟨(not_not.mp same).symm, rfl, rfl⟩
  split
  · exact announceStanding before after
  · exact .done fun _ h => h

theorem moveStanding (origins : List Lifecycle) (after : Lifecycle)
    (away : after ∉ origins) :
    Account.interplay.Meets (standing none vacant) (Call.move origins after) fun moved =>
      cond moved (standing none vacant) (standing none vacant) := by
  refine .bind (Q := fun before =>
      standing (if before ∈ origins then some after else none) vacant)
    (.update fun w before later h goes => ?_) fun before => ?_
  · cases goes
    refine ⟨trivial, ?_⟩
    split
    case isTrue origin => exact standingEntered h fun same => away (same ▸ origin)
    case isFalse => exact standingDiscreet h ⟨rfl, rfl, rfl⟩
  split
  · exact .bind (announceStanding before after) fun _ => .done fun _ h => h
  · exact .done fun _ h => h

theorem lookStanding {f : Console → α} :
    Account.interplay.Meets (standing due vacant) (look f) fun _ => standing due vacant :=
  .look fun _ h => h

theorem controlStanding (f : Control → Control) :
    Account.interplay.Meets (standing due vacant) (Call.control f) fun _ => standing due vacant :=
  controlMeets f fun _ h => standingDiscreet h ⟨rfl, rfl, rfl⟩

theorem publishStanding (core : Core Unit) :
    Account.interplay.Meets (standing due vacant) (Call.publish core) fun _ =>
      standing due vacant :=
  .bind alterDiscreet fun _ => alterDiscreet

theorem vacantStanding (w : Account) (h : standing due True w) : standing due vacant w :=
  ⟨h.1, h.2.1, fun _ => h.2.2 trivial⟩

theorem joinStanding {w : Account} {core : Option (Core Unit)} {after : Console}
    (h : standing none vacant w) (joined : Call.join w.console = some (core, after)) :
    standing none True (w.record .controller after) := by
  obtain ⟨rfl, gone⟩ := joinGone joined
  have silent : w.console.announcement = none := by
    unfold announcement
    obtain died | ⟨core, finished⟩ := gone
    · rw [died]
    · rw [finished]
  exact standingMoved h rfl rfl silent.symm (fun _ found => by cases found) fun _ => rfl

theorem reclaimStanding :
    Account.interplay.Meets (standing none vacant) Call.reclaim fun _ => standing none True :=
  reclaimAllowed (H := fun _ => standing none True)
    (fun _ h nobody => ⟨h.1, h.2.1, fun _ => nobody⟩)
    (fun _ _ _ h joined => ⟨trivial, joinStanding h joined⟩)
    (fun _ _ h => ⟨trivial, standingDiscreet h ⟨rfl, rfl, rfl⟩⟩) standingQuiet (enterStanding _)

theorem haltWorkerStanding :
    Account.interplay.Meets (standing none vacant) Call.haltWorker fun _ => standing none True :=
  haltWorkerAllowed (M := fun _ => standing none vacant) lookStanding (fun _ => enterStanding _)
    (controlStanding _) reclaimStanding reclaimStanding

theorem unloadStanding :
    Account.interplay.Meets (standing none vacant) Call.unload fun _ => standing none vacant :=
  unloadAllowed (M := fun _ => standing none vacant) (N := fun _ => standing none vacant)
    lookStanding (fun _ => alterDiscreet) publishStanding (fun _ h => h) alterDiscreet alterDiscreet
    alterDiscreet

theorem setUpStanding (host : Provision) :
    Account.interplay.Meets (standing none False) (Call.setUp host) fun _ =>
      standing none False :=
  setUpAllowed (U := fun _ => standing none False) (K := fun _ => standing none False)
    (S := fun _ _ => standing none False) lookStanding (fun _ h => h) (enterStanding _) lookStanding
    (fun _ => standingQuiet) (fun _ core _ _ => publishStanding core) (fun _ _ _ _ => alterDiscreet)
    (enterStanding _) fun _ _ _ => enterStanding _

theorem placeStanding (core : Core Unit) (loader : Loader) (stack : UInt64) :
    Account.interplay.Meets (standing none vacant) (Call.place core loader stack) fun _ =>
      standing none vacant :=
  placeAllowed (enterStanding _) alterDiscreet alterDiscreet alterDiscreet
    (fun _ _ => acceptAllowed alterDiscreet (publishStanding _) alterDiscreet alterDiscreet
      alterDiscreet alterDiscreet standingQuiet (enterStanding _))
    standingQuiet (fun _ _ => enterStanding _) fun _ _ => enterStanding _

theorem spawnStanding (core : Core Unit) :
    Account.interplay.Meets (standing none True) (alter (Call.spawn core)) fun _ =>
      standing none False :=
  .alter fun w h => by
    have silent : w.console.announcement = none := by rw [announcement, h.2.2 trivial]
    exact ⟨trivial, standingMoved h rfl rfl silent.symm
      (fun _ found => by cases found; trivial) False.elim⟩

theorem startWorkerStanding :
    Account.interplay.Meets (standing none False) Call.startWorker fun _ =>
      standing none False :=
  startWorkerAllowed (F := fun _ => standing none True) reclaimStanding lookStanding standingQuiet
    vacantStanding (fun _ => moveStanding _ _ (by decide)) spawnStanding fun _ => vacantStanding

theorem pauseStanding :
    Account.interplay.Meets (standing none False) Call.pause fun _ => standing none False :=
  switchAllowed (moveStanding _ _ (by decide)) (controlStanding _) standingQuiet fun _ h => h

theorem resumeStanding :
    Account.interplay.Meets (standing none False) Call.resume fun _ => standing none False :=
  switchAllowed (moveStanding _ _ (by decide)) (controlStanding _) standingQuiet fun _ h => h

theorem standingServes :
    Serves Account.interplay (fun _ => standing none False) fun _ => standing none False where
  setUp host := setUpStanding host
  load loader :=
    loadAllowed (S := fun _ => standing none False) (F := fun _ => standing none True)
      (K := fun _ _ => standing none True) lookStanding (fun _ _ => ⟨standingQuiet, fun _ h => h⟩)
      reclaimStanding lookStanding vacantStanding (fun _ => lookStanding)
      (fun _ _ => standingQuiet) (fun _ _ _ => vacantStanding)
      fun core _ _ => (placeStanding core loader _).post fun _ => vacantStanding
  run :=
    runAllowed (F := fun _ => standing none False) (S := fun _ => standing none False)
      lookStanding standingQuiet (fun _ h => h) lookStanding resumeStanding startWorkerStanding
      fun _ _ _ => ⟨standingQuiet, fun _ h => h⟩
  pause := pauseStanding
  resume := resumeStanding
  togglePause := togglePauseAllowed standingQuiet pauseStanding resumeStanding fun _ h => h
  stop :=
    stopAllowed (moveStanding _ _ (by decide)) (controlStanding _) reclaimStanding unloadStanding
      ((enterStanding _).post fun _ => vacantStanding) standingQuiet
      (reclaimStanding.post fun _ => vacantStanding)
  readMemory _ _ :=
    readMemoryAllowed (S := fun _ => standing none False) (F := fun _ => standing none True)
      lookStanding (fun _ _ _ h => h) (fun _ _ => reclaimStanding) lookStanding vacantStanding
      fun _ => vacantStanding
  reset host :=
    resetAllowed standingQuiet haltWorkerStanding unloadStanding alterDiscreet alterDiscreet
      alterDiscreet ((setUpStanding host).pre vacantStanding)
  shutdown :=
    shutdownAllowed haltWorkerStanding unloadStanding alterDiscreet
      ((enterStanding _).post fun _ => vacantStanding)

end Calls

theorem sessionPosted (config : Configuration) (observer : Observer)
    (turns : List (Interplay.Turn Operation Unit)) :
    let s := (Session.start config observer).play turns
    Posted s.world ∧
      ∀ answer, s.rest = .done answer → owed .controller s.world.log = some none := by
  have begins : standing none False (Session.start config observer).world :=
    ⟨⟨rfl, rfl, rfl, rfl, fun _ found => by cases found⟩, rfl, False.elim⟩
  have starts : Account.interplay.Meets (standing none False) (pure Answer.nothing) fun _ =>
      standing none False := .done fun _ h => h
  have secured : Account.interplay.Secures (fun _ => (standing none False).holds)
      ((Session.start config observer).play turns).rest
      ((Session.start config observer).play turns).world :=
    Interplay.Session.playSecures (fun call _ w h => standingServes.meets call w h) turns _
      (starts _ begins)
  refine ⟨secured.always, fun answer done => ?_⟩
  rw [done] at secured
  exact secured.result.2.1

end Account

open Account in
/- The observer hears of every change once, the last one possibly excepted for each of the two
parties. From a moment at which no announcement is in progress it hears of them in their order, as
long as there are never two announcements in progress; whenever there is none, what it has heard
last is the state of the console. -/
theorem changesAnnounced (config : Configuration) (observer : Observer)
    (turns : List (Interplay.Turn Operation Unit)) :
    let s := (Account.Session.start config observer).play turns
    let log := s.world.log
    let heard := s.world.console.observer.heard.toList
    (heard = reports log ∧ (heard ++ pending log).Perm (changes log)) ∧
    (s.world.console.state = (changes log).getLastD .idle) ∧
    (pendingOf .thread log = s.world.console.announcement.toList ∧
      ∀ answer, s.rest = .done answer → pendingOf .controller log = []) ∧
    ∀ early late, log = early ++ late → pending early = [] →
      (∀ part, part <+: late → ¬ Overlapping (early ++ part)) →
      reports late ++ pending log = changes late ∧
      (pending log = [] → late ≠ [] → heard.getLast? = some s.world.console.state) := by
  intro s log heard
  obtain ⟨posted, clear⟩ := sessionPosted config observer turns
  have told : heard = reports log := posted.told.symm
  have lawful : Lawful log := fun party => by
    cases party with
    | controller => exact posted.controller
    | thread => exact posted.thread ▸ rfl
  refine ⟨⟨told, ?_⟩, posted.state.symm, ⟨?_, fun answer done => ?_⟩, ?_⟩
  · rw [told]
    exact reportsPerm lawful
  · rw [pendingOf, posted.thread]
    rfl
  · rw [pendingOf, clear answer done]
    rfl
  · intro early late same quiet apart
    have ordered : reports late ++ pending log = changes late := by
      rw [same] at lawful ⊢
      exact reportsOrdered lawful quiet apart
    refine ⟨ordered, fun settled busy => ?_⟩
    rw [settled, List.append_nil] at ordered
    have last : (reports log).getLast? = some ((changes log).getLastD .idle) := by
      rw [same]
      exact lastReport ordered busy .idle
    rw [told, last, posted.state]

theorem changesAnnouncedHalting :
    let s := (Account.Session.start brief {}).play
      (loadBrief ++ .begin .run :: .replicate 7 .proceed ++ .replicate 18 (.other ()))
    s.world.console.state = .idle ∧
      s.world.console.observer.heard.toList.getLast? = some s.world.console.state := by
  intro s
  have calm : pending s.world.log = [] ∧ s.world.log ≠ [] ∧ s.world.console.state = .idle ∧
      ∀ part ∈ s.world.log.inits, ¬ Overlapping part := by decide +kernel
  obtain ⟨-, -, -, ordered⟩ := changesAnnounced brief {}
    (loadBrief ++ .begin .run :: .replicate 7 .proceed ++ .replicate 18 (.other ()))
  obtain ⟨-, last⟩ := ordered [] s.world.log (List.nil_append _).symm rfl fun part within =>
    calm.2.2.2 part ((List.mem_inits _ _).mpr within)
  exact ⟨calm.2.2.1, last calm.1 calm.2.1⟩

/- The controller pauses, and the thread halts before that is announced. -/
theorem changesAnnouncedReversed :
    let s := (Account.Session.start brief {}).play (loadBrief ++
      .begin .run :: .replicate 7 .proceed ++ .replicate 16 (.other ()) ++
      .begin .pause :: .proceed :: .replicate 2 (.other ()) ++ .replicate 3 .proceed)
    s.rest.result?.isSome ∧ pending s.world.log = [] ∧
      changes s.world.log = [.booting, .idle, .booting, .idle, .running, .paused, .idle] ∧
      s.world.console.observer.heard =
        #[.booting, .idle, .booting, .idle, .running, .idle, .paused] ∧
      s.world.console.state = .idle := by
  decide +kernel

end GameConsole.Console
