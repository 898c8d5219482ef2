import GameConsole.Proofs.Console.Session
import GameConsole.Proofs.Console.Steps

/-! Who is with a console, and in which state it is: what a step of the execution thread makes of
it, and what may be asserted of it while the thread goes on. -/
namespace GameConsole.Console
open Procedure (alter)

structure Posture where
  config : Configuration
  state : Lifecycle
  initialized : Bool
  core : Option (Core Unit)
  worker : Option Worker

def posture (c : Console) : Posture := ⟨c.config, c.state, c.initialized, c.core, c.worker⟩

def Builds (config : Configuration) (host : Provision) : Prop :=
  ∃ parts, (Call.build config host).1 = .ok parts

instance (config : Configuration) (host : Provision) : Decidable (Builds config host) :=
  match found : (Call.build config host).1 with
  | .ok parts => .isTrue ⟨parts, found⟩
  | .error _ => .isFalse fun ⟨_, same⟩ => by cases found.symm.trans same

def Late : Worker → Prop
  | .busy job => announces job.phase = true
  | .finished _ => False
  | .died => True

namespace Posture

def Active (p : Posture) : Prop := p.state = .running ∨ p.state = .paused

/- What is always so, whatever call is under way. Programs are executed only where the state says
so, or in a console that is about to be stopped. -/
structure Steady (p : Posture) : Prop where
  owned : p.core.isSome ∨ p.worker.isSome → p.initialized = true
  exclusive : p.worker.isSome → p.core = none
  booting : p.state = .booting → p.worker = none
  concludes : ∀ job, p.worker = some (.busy job) → Concludes job.phase
  resting : ∀ job, p.worker = some (.busy job) → Ends p.state → announces job.phase = true
  active : ∀ worker, p.worker = some worker → p.Active → ¬ Late worker

theorem Steady.manned {p : Posture} {worker : Worker} (steady : p.Steady)
    (mine : p.worker = some worker) : p.initialized = true ∧ p.core = none :=
  have manned : p.worker.isSome := by rw [mine]; rfl
  ⟨steady.owned (.inr manned), steady.exclusive manned⟩

def Failed (p : Posture) : Prop := p.state = .error ∨ p.state = .booting ∧ p.initialized = false

inductive Advances (p : Posture) (phase : Phase) : Posture → Prop where
  | works (job : Job) (before : announces phase = false) (after : announces job.phase = false)
      (concludes : Concludes job.phase) : p.Advances phase { p with worker := some (.busy job) }
  | concludes (job : Job) (after : Lifecycle) (active : p.Active) (ends : Ends after)
      (told : announces job.phase = true) :
      p.Advances phase { p with state := after, worker := some (.busy job) }
  | finishes (core : Core Unit) : p.Advances phase { p with worker := some (.finished core) }
  | dies (told : announces phase = true) : p.Advances phase { p with worker := some .died }

section Thread
variable {p q : Posture} {c : Console} {job : Job}

theorem movesAdvances {d : Console} (moves : Moves c job.phase d) :
    c.posture.Advances job.phase d.posture := by
  have whole {worker : Option Worker} (apart : Apart c d) (mine : d.worker = worker) :
      d.posture = { c.posture with state := d.state, worker } := by
    simp only [posture, apart.config, apart.initialized, apart.core, mine]
  cases moves with
  | works later apart mine state observer before after concludes =>
    rw [whole apart mine, state]
    exact .works later before after concludes
  | enters later apart mine observer before active ends after =>
    rw [whole apart mine]
    exact .concludes later d.state active ends (by rw [after]; rfl)
  | tells before after apart gone state heard told =>
    obtain died | ⟨core, finished⟩ := gone
    · rw [whole apart died, state]
      exact .dies (by rw [told]; rfl)
    · rw [whole apart finished, state]
      exact .finishes core
  | leaves core apart gone state observer before =>
    rw [whole apart gone, state]
    exact .finishes core

theorem Advances.steady (steady : p.Steady) (mine : p.worker = some (.busy job))
    (advances : p.Advances job.phase q) : q.Steady := by
  obtain ⟨built, apart⟩ := steady.manned mine
  have away : p.state ≠ .booting := fun booting => by
    cases mine.symm.trans (steady.booting booting)
  cases advances with
  | works job' before after concludes =>
    refine ⟨fun _ => built, fun _ => apart,
      fun booting => absurd booting away, fun _ same => ?_, fun _ same ends => ?_,
      fun _ same _ => ?_⟩
    · cases same
      exact concludes
    · cases before.symm.trans (steady.resting job mine ends)
    · cases same
      exact ne_true_of_eq_false after
  | concludes job' after active ends told =>
    refine ⟨fun _ => built, fun _ => apart, fun booting => ?_,
      fun _ same => ?_, fun _ same _ => ?_, fun _ same active => (activeEnds active ends).elim⟩
    · cases booting
      cases ends
    · cases same
      obtain ⟨before, after, phase⟩ := announcesAnnounce told
      rw [phase]
      trivial
    · cases same
      exact told
  | finishes core =>
    refine ⟨fun _ => built, fun _ => apart,
      fun booting => absurd booting away, fun _ same => ?_, fun _ same _ => ?_,
      fun _ same _ => ?_⟩ <;> cases same
    exact id
  | dies told =>
    refine ⟨fun _ => built, fun _ => apart,
      fun booting => absurd booting away, fun _ same => ?_, fun _ same _ => ?_,
      fun _ same active => absurd told (steady.active _ mine active)⟩ <;> cases same

theorem Advances.failed (failed : p.Failed) (advances : p.Advances job.phase q) : q.Failed := by
  cases advances with
  | concludes job' after active ends told =>
    obtain same | ⟨same, -⟩ := failed <;> obtain other | other := active <;>
      cases same.symm.trans other
  | _ => exact failed

end Thread

end Posture

namespace Failure
open Posture

def interplay (strict : Prop) : Interplay Console Console Unit where
  state c := c
  other _ c := c.advance.getD c
  ours _ after := after
  allowed before after := strict → before.posture.Failed → after.posture.Failed
  always c := c.posture.Steady
  oursIdle _ := rfl
  allowedIdle _ _ := id

/- The same with a host that may break down in the middle of any instruction. -/
def perilous (strict : Prop) : Interplay Console Console (Option Wreck) where
  state c := c
  other
    | none, c => c.advance.getD c
    | some wreck, c => (c.breakDown wreck).getD c
  ours _ after := after
  allowed before after := strict → before.posture.Failed → after.posture.Failed
  always c := c.posture.Steady
  oursIdle _ := rfl
  allowedIdle _ _ := id

theorem threadAdvances {c : Console} (steady : c.posture.Steady) :
    c.advance.getD c = c ∨ ∃ job, c.worker = some (.busy job) ∧
      c.posture.Advances job.phase (c.advance.getD c).posture := by
  cases goes : c.advance with
  | none => exact .inl rfl
  | some after =>
    obtain ⟨job, mine, rfl⟩ := advanceBusy goes
    exact .inr ⟨job, mine, movesAdvances (jobMoves (steady.concludes job mine))⟩

theorem wreckAdvances (c : Console) (wreck : Wreck) :
    (c.breakDown wreck).getD c = c ∨ ∃ job, c.worker = some (.busy job) ∧
      c.posture.Advances job.phase ((c.breakDown wreck).getD c).posture := by
  cases breaks : c.breakDown wreck with
  | none => exact .inl rfl
  | some after =>
    obtain ⟨job, mine, moves⟩ := breakDownMoves breaks
    exact .inr ⟨job, mine, movesAdvances moves⟩

class Supervised (strict : outParam Prop) {ν τ : Type} (i : Interplay Console ν τ) : Prop where
  puts : ∀ w c, i.state (i.ours w c) = c
  sound : ∀ w, (i.state w).posture.Steady → i.always w
  allows : ∀ c d, (strict → c.posture.Failed → d.posture.Failed) → i.allowed c d
  others : ∀ t w, (i.state w).posture.Steady →
    (i.state (i.other t w)).posture = (i.state w).posture ∨
      ∃ job, (i.state w).worker = some (.busy job) ∧
        (i.state w).posture.Advances job.phase (i.state (i.other t w)).posture

variable {strict : Prop}

instance : Supervised strict (interplay strict) where
  puts _ _ := rfl
  sound _ steady := steady
  allows _ _ lasts := lasts
  others _ _ steady := (threadAdvances steady).imp (congrArg posture) id

instance : Supervised strict (perilous strict) where
  puts _ _ := rfl
  sound _ steady := steady
  allows _ _ lasts := lasts
  others event c steady := by
    cases event with
    | none => exact (threadAdvances steady).imp (congrArg posture) id
    | some wreck => exact (wreckAdvances c wreck).imp (congrArg posture) id

section Supervision
variable {ν τ : Type} {i : Interplay Console ν τ} [Supervised strict i]

instance : Tolerant i := ⟨fun c d _ state _ initialized => Supervised.allows c d fun _ failed => by
  unfold Posture.Failed posture at failed ⊢
  rw [state, initialized]
  exact failed⟩

def said (f : Posture → Prop) (steady : ∀ p, f p → p.Steady)
    (lasts : ∀ p q job, f p → p.worker = some (.busy job) → p.Advances job.phase q → f q) :
    Assertion i where
  holds w := f (i.state w).posture
  stable t w h := by
    obtain same | ⟨job, mine, advances⟩ := Supervised.others t w (steady _ h)
    · rw [same]
      exact h
    · exact lasts _ _ job h mine advances
  safe w h := Supervised.sound w (steady _ h)

end Supervision

structure Standing (p : Posture) : Prop extends p.Steady where
  lasting : p.state ≠ .booting
  held : p.initialized = true → p.core.isSome ∨ p.worker.isSome ∨ p.state = .error

theorem Standing.advances {p q : Posture} {job : Job} (standing : Standing p)
    (mine : p.worker = some (.busy job)) (advances : p.Advances job.phase q) : Standing q := by
  refine ⟨advances.steady standing.toSteady mine, ?_, fun _ => .inr (.inl ?_)⟩
  · cases advances with
    | concludes job' after active ends told =>
      rintro rfl
      cases ends
    | _ => exact standing.lasting
  · cases advances <;> rfl

section Supervision
variable {ν τ : Type} {i : Interplay Console ν τ} [Supervised strict i]

def steady : Assertion i :=
  said Steady (fun _ => id) fun _ _ _ steady mine advances => advances.steady steady mine

def standing : Assertion i :=
  said Standing (fun _ h => h.toSteady) fun _ _ _ h => h.advances

def seen (state : Lifecycle) : Assertion i :=
  said (fun p => Standing p ∧ (state = .idle → p.state = .idle)) (fun _ h => h.1.toSteady)
    fun _ _ _ h mine advances => ⟨h.1.advances mine advances, fun idle => by
      cases advances with
      | concludes job after active ends told =>
        obtain other | other := active <;> cases (h.2 idle).symm.trans other
      | _ => exact h.2 idle⟩

end Supervision

structure Halting (p : Posture) : Prop extends p.Steady where
  state : p.state = .stopping
  held : p.initialized = true → p.core.isSome ∨ p.worker.isSome
  early : ∀ worker, p.worker = some worker → ¬ Late worker

theorem Halting.advances {p q : Posture} {job : Job} (halting : Halting p)
    (mine : p.worker = some (.busy job)) (advances : p.Advances job.phase q) : Halting q := by
  have early : ¬ Late (.busy job) := halting.early _ mine
  have steady : q.Steady := advances.steady halting.toSteady mine
  cases advances with
  | works job' before after concludes =>
    refine ⟨steady, halting.state, fun _ => .inr rfl, fun _ same => ?_⟩
    cases same
    exact ne_true_of_eq_false after
  | concludes job' after active ends told =>
    obtain other | other := active <;> cases halting.state.symm.trans other
  | finishes core =>
    refine ⟨steady, halting.state, fun _ => .inr rfl, fun _ same => ?_⟩
    cases same
    exact id
  | dies told => exact absurd told early

structure Vacant (f : Posture → Prop) (p : Posture) : Prop extends p.Steady where
  nobody : p.worker = none
  fact : f p

section Supervision
variable {ν τ : Type} {i : Interplay Console ν τ} [Supervised strict i]

def halting : Assertion i :=
  said Halting (fun _ h => h.toSteady) fun _ _ _ h => h.advances

def alone (f : Posture → Prop) : Assertion i :=
  said (Vacant f) (fun _ h => h.toSteady) fun _ _ _ h mine => by cases h.nobody.symm.trans mine

section Steps
variable {f g h : Posture → Prop} {fSteady : ∀ p, f p → p.Steady} {gSteady : ∀ p, g p → p.Steady}
  {hSteady : ∀ p, h p → p.Steady}
  {fLasts : ∀ p q job, f p → p.worker = some (.busy job) → p.Advances job.phase q → f q}
  {gLasts : ∀ p q job, g p → p.worker = some (.busy job) → p.Advances job.phase q → g q}
  {hLasts : ∀ p q job, h p → p.worker = some (.busy job) → p.Advances job.phase q → h q}

theorem saidPut {w : ν} {c : Console} (here : f c.posture) :
    (said f fSteady fLasts : Assertion i) (i.ours w c) := by
  change f (i.state (i.ours w c)).posture
  rw [Supervised.puts]
  exact here

theorem quietly {change : Console → Console}
    (same : ∀ c, (change c).posture = c.posture := by exact fun _ => rfl) :
    i.Meets (said f fSteady fLasts) (alter change) fun _ => said f fSteady fLasts :=
  .alter fun w here => by
    have kept : (change (i.state w)).posture = (i.state w).posture := same (i.state w)
    exact ⟨Supervised.allows _ _ fun _ failed => kept.symm ▸ failed,
      saidPut ((congrArg f kept).mpr here)⟩

theorem saidQuiet : Quiet (said f fSteady fLasts : Assertion i) := fun _ _ h => saidPut h

theorem controlSaid (change : Control → Control) :
    i.Meets (said f fSteady fLasts) (Call.control change) fun _ => said f fSteady fLasts :=
  controlMeets change fun _ h => saidPut h

theorem publishSaid (core : Core Unit) :
    i.Meets (said f fSteady fLasts) (Call.publish core) fun _ => said f fSteady fLasts :=
  .bind quietly fun _ => quietly

theorem saidTold (w : ν) (before after : Lifecycle)
    (here : (said f fSteady fLasts : Assertion i) w) :
    (said f fSteady fLasts : Assertion i) (i.ours w ((i.state w).tell before after)) :=
  saidPut here

theorem enterSaid (after : Lifecycle)
    (moves : ∀ p, f p →
      (strict → p.Failed → Failed { p with state := after }) ∧ g { p with state := after }) :
    i.Meets (said f fSteady fLasts) (Call.enter after) fun _ => said g gSteady gLasts :=
  enterAllowed after
    (fun w here => by
      obtain ⟨lasts, there⟩ := moves (i.state w).posture here
      exact ⟨Supervised.allows _ _ lasts, saidPut there⟩)
    fun w before there => saidTold w before after there

theorem moveSaid (origins : List Lifecycle) (after : Lifecycle)
    (sound : ∀ state ∈ origins, state ≠ .error ∧ state ≠ .booting)
    (moves : ∀ p, f p → p.state ∈ origins → g { p with state := after })
    (stays : ∀ p, f p → p.state ∉ origins → h p) :
    i.Meets (said f fSteady fLasts) (Call.move origins after) fun moved =>
      cond moved (said g gSteady gLasts) (said h hSteady hLasts) :=
  moveAllowed origins after
    (fun w here origin => by
      refine ⟨Supervised.allows _ _ fun _ failed => ?_,
        saidPut (moves (i.state w).posture here origin)⟩
      obtain ⟨notError, notBooting⟩ := sound _ origin
      exact failed.elim (fun same => absurd same notError) fun same => absurd same.1 notBooting)
    (fun w here away => stays (i.state w).posture here away)
    fun w before there => saidTold w before after there

end Steps

end Supervision

end Failure

end GameConsole.Console
