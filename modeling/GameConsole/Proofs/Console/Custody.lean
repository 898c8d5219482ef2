import GameConsole.Proofs.Console.Failure
import GameConsole.Proofs.Console.Renewal

/-! Who has the core of an idle console, whatever has been asked of it, and whoever has looked at it
or taken commands from it. It is with the controller, or with a thread that has come to its end and
has at most to tell so; only a thread that dies of telling takes it along. -/
namespace GameConsole.Console
open Failure (Supervised Standing standing threadAdvances quietly callStanding newStanding)

instance : Supervised False screening where
  puts _ _ := rfl
  sound _ _ := trivial
  allows _ _ _ := trivial
  others b _ steady := by
    cases b with
    | thread => exact (threadAdvances steady).imp (congrArg posture) id
    | drain | count => exact .inl rfl

namespace Custody

theorem statisticsStanding : screening.Meets standing Call.statistics fun _ => standing := by
  refine .bind (Q := fun _ => standing) (.look fun _ h => h) fun instructions => ?_
  refine .bind (Q := fun _ => standing) (.look fun _ h => h) fun frames => ?_
  refine .bind (Q := fun _ => standing) (.look fun _ h => h) fun initialized => ?_
  cases initialized with
  | false => exact .done fun _ h => h
  | true =>
    refine .bind (Q := fun _ => standing) (.look fun _ h => h) fun dispatcher => ?_
    exact .bind (Q := fun _ => standing) (.look fun _ h => h) fun decoded => .done fun _ h => h

theorem setPadStanding (pad : Syscall.NullPad) :
    screening.Meets standing (setPad pad) fun _ => standing := by
  refine .bind (Q := fun _ => standing) (.look fun _ h => h) fun initialized => ?_
  cases initialized with
  | false => exact .done fun _ h => h
  | true => exact quietly

theorem requestStanding (request : Request) :
    screening.Meets standing request.call fun _ => standing := by
  cases request with
  | operation operation =>
    exact .bind (callStanding (i := screening) operation) fun _ => .done fun _ h => h
  | statistics => exact .bind statisticsStanding fun _ => .done fun _ h => h
  | pad pad => exact .bind (setPadStanding pad) fun _ => .done fun _ h => h

theorem patronageStanding (config : Configuration) (observer : Observer)
    (turns : List (Interplay.Turn Request Bystander)) :
    screening.Secures (fun _ w => Standing w.console.posture)
      ((Patronage.start config observer).play turns).rest
      ((Patronage.start config observer).play turns).world := by
  have stays : screening.Meets standing (pure (.answer .nothing)) fun _ : Reply => standing :=
    .done fun _ h => h
  exact Interplay.Session.playSecures (fun request _ w h => requestStanding request w h) turns _
    (stays _ (newStanding config observer))

/- Nobody executes anything, and the core is to be had; at the most, the thread has to tell first
that its run is over. -/
inductive Rests (c : Console) (core : Core Unit) : Prop where
  | controller (mine : c.core = some core) (alone : c.worker = none)
  | finished (none : c.core = none) (mine : c.worker = some (.finished core))
  | telling (left : Nat) (before after : Lifecycle) (none : c.core = none)
      (mine : c.worker = some (.busy ⟨core, left, .announce before after⟩))
      (calm : c.observer.fearsome ≠ some after)

inductive Lost (c : Console) : Prop where
  | died (none : c.core = none) (mine : c.worker = some .died)
  | dying (core : Core Unit) (left : Nat) (before after : Lifecycle) (none : c.core = none)
      (mine : c.worker = some (.busy ⟨core, left, .announce before after⟩))
      (fears : c.observer.fearsome = some after)

section Idle
variable {c d : Console} {core : Core Unit} {found : Option (Core Unit)}

theorem Rests.alone (rests : Rests c core) (nobody : c.worker = none) : c.core = some core := by
  cases rests with
  | controller mine _ => exact mine
  | finished _ mine | telling _ _ _ _ mine _ => cases nobody.symm.trans mine

theorem Lost.manned (lost : Lost c) : c.worker ≠ none := fun nobody => by
  cases lost with
  | died _ mine | dying _ _ _ _ _ mine _ => cases nobody.symm.trans mine

theorem Rests.joins (rests : Rests c core) (joined : Call.join c = some (found, d)) :
    c.core = none ∧ found = some core := by
  obtain ⟨-, ⟨-, died⟩ | ⟨other, rfl, finished⟩⟩ := joinTakes joined
  · cases rests with
    | controller _ mine | finished _ mine | telling _ _ _ _ mine _ => cases mine.symm.trans died
  · cases rests with
    | controller _ mine | telling _ _ _ _ mine _ => cases mine.symm.trans finished
    | finished away mine =>
      cases mine.symm.trans finished
      exact ⟨away, rfl⟩

theorem Lost.joins (lost : Lost c) (joined : Call.join c = some (found, d)) :
    c.core = none ∧ found = none := by
  obtain ⟨-, ⟨rfl, -⟩ | ⟨core, -, finished⟩⟩ := joinTakes joined
  · cases lost with
    | died away _ | dying _ _ _ _ away _ _ => exact ⟨away, rfl⟩
  · cases lost with
    | died _ mine | dying _ _ _ _ _ mine _ => cases mine.symm.trans finished

theorem idleCustody (standing : Standing c.posture) (idle : c.state = .idle)
    (up : c.initialized = true) : Lost c ∨ ∃ core, Rests c core := by
  cases mine : c.worker with
  | none =>
    obtain held | manned | error := standing.held up
    · obtain ⟨core, held⟩ := Option.isSome_iff_exists.mp held
      exact .inr ⟨core, .controller held mine⟩
    · change c.worker.isSome at manned
      rw [mine] at manned
      cases manned
    · cases idle.symm.trans error
  | some worker =>
    have none : c.core = none := (standing.toSteady.manned mine).2
    cases worker with
    | finished core => exact .inr ⟨core, .finished none mine⟩
    | died => exact .inl (.died none mine)
    | busy job =>
      have ends : Ends c.posture.state := by
        change Ends c.state
        rw [idle]
        trivial
      obtain ⟨core, left, phase⟩ := job
      obtain ⟨before, after, rfl⟩ := announcesAnnounce (standing.resting _ mine ends)
      by_cases fears : c.observer.fearsome = some after
      · exact .inl (.dying core left before after none mine fears)
      · exact .inr ⟨core, .telling left before after none mine fears⟩

theorem downCustody (standing : Standing c.posture) (down : c.initialized = false) :
    c.core = none ∧ c.worker = none := by
  have nobody : ¬ (c.core.isSome ∨ c.worker.isSome) := fun some => by
    cases down.symm.trans (standing.owned some)
  rw [not_or] at nobody
  exact ⟨Option.not_isSome_iff_eq_none.mp nobody.1, Option.not_isSome_iff_eq_none.mp nobody.2⟩

end Idle

end Custody

end GameConsole.Console
