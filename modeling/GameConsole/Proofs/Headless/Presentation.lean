import GameConsole.Headless.Runner
import GameConsole.Proofs.Headless.Opening

/-! A headless run, whose main thread, execution thread and presenter take their steps in any order.
All that a program queues is recorded once, and the report agrees with itself. -/
namespace GameConsole.Headless
open Console (brief)
open Graphics (RenderCommand RenderQueue)
open Interplay (partly)
open Presenter (advance)
open Procedure (look alter await)
open Runner (advancePresenter)

/- A run, with what its presenter has recorded so far. -/
structure Theater where
  runner : Runner
  recorded : List RenderCommand

inductive Companion where
  | thread | presenter | clock

namespace Theater

def held (w : Theater) : List RenderCommand :=
  match w.runner.presenter with
  | some ⟨.record _ drained, _⟩ => drained
  | _ => []

def act : Companion → Theater → Theater
  | .thread, w => { w with runner :=
      { w.runner with console := w.runner.console.advance.getD w.runner.console } }
  | .presenter, w => ⟨w.runner.advancePresenter, w.recorded ++ w.held⟩
  | .clock, w => { w with runner := { w.runner with expired := true } }

def screen (w : Theater) : Screening := ⟨w.runner.console, w.recorded ++ w.held, w.held.length⟩

end Theater

def theater : Interplay Runner Theater Companion where
  state := Theater.runner
  other := Theater.act
  ours w runner := { w with runner }
  allowed _ _ := True
  oursIdle _ := rfl
  allowedIdle _ := trivial

def stage : Interplay Console Theater Companion :=
  theater.part Runner.console (fun console r => { r with console }) fun _ => rfl

abbrev Evening := Interplay.Session Runner Theater (Except Failure Report)

def Evening.start (config : Configuration) (host : Provision) (loader : Loader)
    (complaint : String) : Evening :=
  ⟨⟨{ console := .new config {} }, []⟩, Runner.session host loader complaint⟩

abbrev Evening.play (e : Evening) (turns : List (Interplay.Turn Empty Companion)) : Evening :=
  Interplay.Session.play theater Empty.elim id e turns

instance : Console.Lenient stage := ⟨fun _ _ _ _ _ => trivial⟩

theorem onConsoleSecures {α : Type} {post : α → Theater → Prop} {call : Console.Call α}
    {w : Theater} (h : stage.Secures post call w) :
    theater.Secures post (Runner.onConsole call) w :=
  h.within

theorem onConsoleMeets {α : Type} {P : Assertion theater} {Q : α → Assertion theater}
    {call : Console.Call α} (h : stage.Meets (partly P) call fun result => partly (Q result)) :
    theater.Meets P (Runner.onConsole call) Q :=
  h.within

namespace Theater

variable {w : Theater}

def Tallied (w : Theater) (phase : Presenting) : Prop :=
  w.runner.presenter = some ⟨phase, ({} : Tally).recordAll w.recorded⟩

theorem presenterActs {phase : Presenting} (tallied : w.Tallied phase) :
    (∃ later, (w.act .presenter).Tallied later) ∧
      ((w.act .presenter).screen = w.screen ∨
        ∃ b, (w.act .presenter).screen = w.screen.act b) := by
  obtain ⟨⟨console, presenter, done, expired⟩, recorded⟩ := w
  obtain rfl : presenter = some ⟨phase, ({} : Tally).recordAll recorded⟩ := tallied
  cases phase
  case' look => refine ⟨⟨.wait done, ?_⟩, .inl ?_⟩
  case' wait last =>
    cases empty : console.queue.isEmpty
    case' false => refine ⟨⟨.drain last, ?_⟩, .inl ?_⟩
    case' true => refine ⟨⟨if last then .ended else .look, ?_⟩, .inl ?_⟩ <;> cases last
  case' drain last => refine ⟨⟨.record last console.queue.pending.toList, ?_⟩, .inr ⟨.drain, ?_⟩⟩
  case' record last drained =>
    refine ⟨⟨if last then .ended else .look, ?_⟩, .inr ⟨.count, ?_⟩⟩ <;> cases last
  case' ended => refine ⟨⟨.ended, ?_⟩, .inl ?_⟩
  all_goals simp [Tallied, screen, act, held, advancePresenter, advance, Screening.act,
    RenderQueue.drain, RenderQueue.countPopped, Tally.recordAllTwice, *]

theorem endedRests (tallied : w.Tallied .ended) : w.act .presenter = w := by
  obtain ⟨⟨console, presenter, done, expired⟩, recorded⟩ := w
  obtain rfl : presenter = some ⟨.ended, ({} : Tally).recordAll recorded⟩ := tallied
  simp [act, held, advancePresenter, advance]

theorem actScreen (t : Companion) {phase : Presenting} (tallied : w.Tallied phase) :
    (∃ later, (w.act t).Tallied later) ∧
      ((w.act t).screen = w.screen ∨ ∃ b, (w.act t).screen = w.screen.act b) := by
  cases t with
  | thread => exact ⟨⟨phase, tallied⟩, .inr ⟨.thread, rfl⟩⟩
  | presenter => exact presenterActs tallied
  | clock => exact ⟨⟨phase, tallied⟩, .inl rfl⟩

/- What holds throughout, once there is a presenter. Nobody pauses. -/
structure Attended (w : Theater) : Prop where
  presenter : ∃ phase, w.Tallied phase
  accounted : w.screen.Accounted
  initialized : w.screen.console.initialized = true
  awake : w.screen.console.state ≠ .paused

def Concluding (s : Screening) : Prop :=
  ∀ job, s.console.worker = some (.busy job) → Console.Concludes job.phase

theorem Concluding.acts (b : Bystander) {s : Screening} (concluding : Concluding s) :
    (s.act b).console.initialized = s.console.initialized ∧
      ((s.act b).console.state = s.console.state ∨ Console.Ends (s.act b).console.state) := by
  cases b with
  | drain | count => exact ⟨rfl, .inl rfl⟩
  | thread =>
    cases goes : s.console.advance with
    | none =>
      rw [Screening.act, goes]
      exact ⟨rfl, .inl rfl⟩
    | some after =>
      obtain ⟨job, mine, rfl⟩ := Console.advanceBusy goes
      rw [Screening.act, goes]
      refine ⟨(Console.jobStays s.console job).1.initialized, ?_⟩
      cases Console.jobMoves (c := s.console) (concluding job mine) with
      | works _ _ _ state | tells _ _ _ _ state | leaves _ _ _ state => exact .inl state
      | enters _ _ _ _ _ _ ends => exact .inr ends

theorem Attended.act (t : Companion) (attended : w.Attended)
    (concluding : Concluding w.screen) : (w.act t).Attended := by
  obtain ⟨⟨phase, tallied⟩, accounted, initialized, awake⟩ := attended
  obtain ⟨presenter, same | ⟨b, same⟩⟩ := actScreen t tallied
  · exact ⟨presenter, same ▸ accounted, same ▸ initialized, same ▸ awake⟩
  · obtain ⟨up, state⟩ := concluding.acts b
    refine ⟨presenter, ?_, ?_, ?_⟩ <;> rw [same]
    · exact Screening.actAccounted b accounted
    · exact up.trans initialized
    · intro paused
      obtain stays | ends := state
      · exact awake (stays ▸ paused)
      · exact (paused ▸ ends : Console.Ends .paused)

end Theater

class Enduring (P : Screening → Prop) : Prop where
  endures : ∀ b s, P s → P (s.act b)
  concluding : ∀ s, P s → Theater.Concluding s

def attended (P : Screening → Prop) [Enduring P] : Assertion theater where
  holds w := P w.screen ∧ w.Attended
  stable t w h := by
    obtain ⟨holds, attended⟩ := h
    refine ⟨?_, attended.act t (Enduring.concluding _ holds)⟩
    obtain ⟨phase, tallied⟩ := attended.presenter
    change P (w.act t).screen
    obtain ⟨-, same | ⟨b, same⟩⟩ := Theater.actScreen t tallied <;> rw [same]
    · exact holds
    · exact Enduring.endures b _ holds

section Running
variable {begun : Solo} {core : Core Unit} {state : Lifecycle}

instance : Enduring (Screening.Prepared begun core state) where
  endures b s h := (Screening.prepared begun core state).stable b s h
  concluding s h job mine := by cases h.alone.symm.trans mine

instance : Enduring (Screening.Faithful begun) where
  endures _ _ h := Screening.actFaithful _ h
  concluding s h job mine := by
    obtain ⟨t, follows⟩ := h
    rw [mine] at follows
    obtain ⟨core, left, phase⟩ := job
    cases phase with
    | conclude after =>
      obtain ⟨-, -, ⟨-, rfl, -⟩ | ⟨-, rfl⟩⟩ := follows <;> trivial
    | _ => trivial

theorem Theater.Attended.put {w : Theater} {c : Console} (attended : w.Attended)
    (same : c.config = w.runner.console.config ∧ c.devices = w.runner.console.devices)
    (queue : c.queue = w.runner.console.queue)
    (waiting : c.waiting = w.runner.console.waiting)
    (initialized : c.initialized = w.runner.console.initialized) (awake : c.state ≠ .paused) :
    (stage.ours w c).Attended := by
  refine ⟨attended.presenter, attended.accounted.still same ?_ (congrArg RenderQueue.frames queue)
    waiting, initialized.trans attended.initialized, awake⟩
  exact congrArg (fun q : RenderQueue => (w.recorded ++ w.held) ++ q.pending.toList) queue

theorem runPresents :
    theater.Meets (attended (Screening.Prepared begun core .idle))
      (Runner.onConsole Console.Call.run) fun _ => attended (Screening.Faithful begun) := by
  refine onConsoleMeets (Console.launchAllowed (i := stage)
    (R := partly (attended (Screening.Prepared begun core .running)))
    (fun w h => ⟨h.1.ready, h.1.here, h.1.alone, h.1.held⟩)
    (fun w h => ⟨fun _ _ => trivial, h.1.moved .running, h.2.put ⟨rfl, rfl⟩ rfl rfl rfl nofun⟩)
    (fun w before h => ⟨h.1.reported _ _, h.2.put ⟨rfl, rfl⟩ rfl rfl rfl h.2.awake⟩)
    fun w h => ⟨fun _ _ => trivial, Screening.spawnFollows h.1,
      h.2.put ⟨rfl, rfl⟩ rfl ?_ rfl h.2.awake⟩)
  have alone : w.runner.console.worker = none := h.1.alone
  have none : w.runner.console.waiting = [] := by rw [Console.waiting, alone]
  exact none.symm

end Running

structure Tally.Matches (presented : Tally) (statistics : Statistics) : Prop where
  clears : presented.clears = 1
  draws : presented.draws = statistics.draws
  dispatches : presented.dispatches = statistics.dispatches
  frames : presented.frames = statistics.frames
  commands : presented.commands =
    1 + statistics.draws + statistics.dispatches + statistics.frames

/- How a run has ended if the program has come to its end. All commands that the program would have
queued step by step have been recorded, in that order: by the presenter first, and by the main
thread what is left. -/
structure Theater.Presented (begun : Solo) (report : Report) (left : List RenderCommand)
    (w : Theater) : Prop where
  presenter : w.runner.presenter = some ⟨.ended, ({} : Tally).recordAll w.recorded⟩
  presented : report.presented = (({} : Tally).recordAll w.recorded).recordAll left
  all : ∃ s, begun.Ends s ∧ w.recorded ++ left = s.queue.pending.toList
  agrees : report.presented.Matches report.statistics

def reported (begun : Solo) (report : Report) : Assertion theater where
  holds w := report.state ≠ .running → ∃ left, w.Presented begun report left
  stable t w h ended := by
    obtain ⟨left, presenter, presented, all, agrees⟩ := h ended
    refine ⟨left, ?_⟩
    cases t with
    | thread | clock => exact ⟨presenter, presented, all, agrees⟩
    | presenter =>
      change (w.act .presenter).Presented begun report left
      rw [Theater.endedRests presenter]
      exact ⟨presenter, presented, all, agrees⟩

namespace Theater

def Silent (c : Console) : Prop :=
  ∀ job, c.worker = some (.busy job) → Console.announces job.phase = true

theorem Silent.waiting {c : Console} (silent : Silent c) : c.waiting = [] := by
  unfold Console.waiting
  split
  case h_1 job mine =>
    obtain ⟨before, after, same⟩ := Console.announcesAnnounce (silent job mine)
    rw [same]
    rfl
  case h_2 => rfl

theorem Silent.advance {c : Console} (silent : Silent c) :
    Silent (c.advance.getD c) ∧ (c.advance.getD c).devices = c.devices ∧
      (c.advance.getD c).queue = c.queue ∧ (c.advance.getD c).initialized = c.initialized := by
  cases goes : c.advance with
  | none => exact ⟨silent, rfl, rfl, rfl⟩
  | some after =>
    obtain ⟨⟨core, left, phase⟩, mine, rfl⟩ := Console.advanceBusy goes
    obtain ⟨before, after, rfl⟩ := Console.announcesAnnounce (silent _ mine)
    rw [Option.getD_some, Console.announceEnds]
    split <;> exact ⟨fun _ busy => (by cases busy), rfl, rfl, rfl⟩

structure Finished (s : Solo) (v : Screening) : Prop where
  silent : Silent v.console
  commands : v.commands = s.queue.pending.toList

instance {s : Solo} : Enduring (Finished s) where
  endures b v h := by
    cases b with
    | drain => exact ⟨h.silent, Screening.drainMild.commands.trans h.commands⟩
    | count => exact ⟨h.silent, h.commands⟩
    | thread =>
      obtain ⟨silent, -, queue, -⟩ := h.silent.advance
      refine ⟨silent, .trans ?_ h.commands⟩
      exact congrArg (fun q : RenderQueue => v.taken ++ q.pending.toList) queue
  concluding v h job mine := by
    obtain ⟨before, after, same⟩ := Console.announcesAnnounce (h.silent job mine)
    rw [same]
    trivial

theorem faithfulFinished {begun : Solo} {v : Screening} (faithful : v.Faithful begun)
    (rests : ¬ v.console.active) : ∃ s, begun.Ends s ∧ Finished s v := by
  obtain ⟨s, follows⟩ := faithful
  have left {core : Core Unit} (left : Screening.Left begun v core s)
      (silent : Silent v.console) : ∃ s, begun.Ends s ∧ Finished s v := by
    refine ⟨s, left.ends, silent, .trans ?_ left.commands⟩
    exact (List.append_nil _).symm
  cases mine : v.console.worker with
  | none =>
    rw [mine] at follows
    exact follows.elim
  | some worker =>
    rw [mine] at follows
    cases worker with
    | finished core => exact left follows fun job busy => (by cases mine.symm.trans busy)
    | died =>
      obtain ⟨core, follows⟩ := follows
      exact left follows fun job busy => (by cases mine.symm.trans busy)
    | busy job =>
      obtain ⟨core, _, phase⟩ := job
      cases phase with
      | announce before after =>
        refine left follows fun job busy => ?_
        cases mine.symm.trans busy
        rfl
      | settle | leave | leaveCount | unload | conclude => exact absurd follows.1.active rests
      | showRegisters | showCount | goOn | judge =>
        obtain underway | ⟨closing, -⟩ := follows
        · exact absurd underway.active rests
        · exact absurd closing.active rests
      | _ => exact absurd follows.active rests

structure Sums (presented : Tally) (c : Console) : Prop where
  initialized : c.initialized = true
  draws : presented.draws = c.devices.devices.graphics.counts.draws
  dispatches : presented.dispatches = c.devices.devices.graphics.counts.dispatches
  frames : presented.frames = c.queue.frames

structure Emptied (begun : Solo) (tally : Tally) (left : List RenderCommand) (w : Theater) :
    Prop where
  presenter : w.runner.presenter = some ⟨.ended, tally⟩
  counts : tally = ({} : Tally).recordAll w.recorded
  all : ∃ s, begun.Ends s ∧ w.recorded ++ left = s.queue.pending.toList
  clears : (tally.recordAll left).clears = 1

structure Handed (begun : Solo) (tally : Tally) (left : List RenderCommand) (w : Theater) : Prop
    extends Emptied begun tally left w where
  silent : Silent w.runner.console
  sums : Sums (tally.recordAll left) w.runner.console

theorem Sums.moved {presented : Tally} {c d : Console} (h : Sums presented c)
    (devices : d.devices = c.devices) (frames : d.queue.frames = c.queue.frames)
    (initialized : d.initialized = c.initialized) : Sums presented d := by
  refine ⟨initialized.trans h.initialized, ?_, ?_, ?_⟩
  · rw [devices]
    exact h.draws
  · rw [devices]
    exact h.dispatches
  · rw [frames]
    exact h.frames

variable {w : Theater} {begun : Solo} {tally : Tally} {left : List RenderCommand}

theorem Emptied.tallied (h : w.Emptied begun tally left) : w.Tallied .ended := by
  rw [Tallied, h.presenter, h.counts]

theorem Emptied.act (h : w.Emptied begun tally left) (t : Companion) :
    (w.act t).Emptied begun tally left := by
  cases t with
  | thread | clock => exact ⟨h.presenter, h.counts, h.all, h.clears⟩
  | presenter =>
    rw [endedRests h.tallied]
    exact h

theorem Handed.act (h : w.Handed begun tally left) (t : Companion) :
    (w.act t).Handed begun tally left := by
  refine ⟨h.toEmptied.act t, ?_, ?_⟩ <;> cases t
  case refine_1.thread => exact h.silent.advance.1
  case refine_2.thread =>
    obtain ⟨-, devices, queue, initialized⟩ := h.silent.advance
    exact h.sums.moved devices (congrArg RenderQueue.frames queue) initialized
  case refine_1.clock => exact h.silent
  case refine_2.clock => exact h.sums
  all_goals
    rw [endedRests h.tallied]
  · exact h.silent
  · exact h.sums

end Theater

def concluded (begun : Solo) : Assertion theater where
  holds w := ∃ s, begun.Ends s ∧ (attended (Theater.Finished s)).holds w
  stable t w h := by
    obtain ⟨s, ends, holds⟩ := h
    exact ⟨s, ends, (attended (Theater.Finished s)).stable t w holds⟩

def unattended (begun : Solo) (tally : Tally) : Assertion theater where
  holds w := w.runner.presenter = some ⟨.ended, tally⟩ ∧ concluded begun w
  stable t w h := by
    refine ⟨?_, (concluded begun).stable t w h.2⟩
    obtain ⟨ended, _, _, _, ⟨phase, tallied⟩, -⟩ := h
    cases t with
    | thread | clock => exact ended
    | presenter =>
      cases ended.symm.trans tallied
      change (w.act .presenter).runner.presenter = _
      rw [Theater.endedRests tallied]
      exact ended

def emptied (begun : Solo) (tally : Tally) (left : List RenderCommand) : Assertion theater where
  holds := Theater.Emptied begun tally left
  stable t _ h := h.act t

def handed (begun : Solo) (tally : Tally) (left : List RenderCommand) : Assertion theater where
  holds := Theater.Handed begun tally left
  stable t _ h := h.act t

def whatever : Assertion theater := ⟨fun _ => True, fun _ _ _ => trivial, fun _ _ => trivial⟩

section Watching
variable {begun : Solo} {tally : Tally} {left : List RenderCommand} {w : Theater}

theorem screenLeft (ended : w.Tallied .ended) :
    w.screen.commands = w.recorded ++ w.runner.console.queue.pending.toList := by
  obtain ⟨⟨console, presenter, done, expired⟩, recorded⟩ := w
  obtain rfl : presenter = some ⟨.ended, ({} : Tally).recordAll recorded⟩ := ended
  exact congrArg (· ++ console.queue.pending.toList) (List.append_nil recorded)

theorem attendedSums {s : Solo} (finished : Theater.Finished s w.screen) (h : w.Attended) :
    let presented := ({} : Tally).recordAll w.screen.commands
    Theater.Sums presented w.runner.console ∧ presented.clears = 1 := by
  obtain ⟨fit, -, ⟨clears, draws, dispatches, -⟩, -, frames⟩ := h.accounted
  have waiting : w.screen.console.waiting = [] := finished.silent.waiting
  have due : w.screen.console.devices.devices.graphics.due = [] := by
    rw [Syscall.GraphicsDevice.due, fit.clear]
    rfl
  simp only [waiting, due, List.map_nil, List.append_nil] at clears draws dispatches
  simp only [Tally.recordAllCounts, Nat.zero_add]
  exact ⟨⟨h.initialized, draws.symm, dispatches.symm, frames.symm⟩, clears⟩

theorem popAllHands :
    theater.Meets (unattended begun tally) Runner.popAll fun left => handed begun tally left := by
  refine .bind (Q := fun left => handed begun tally left) (.update fun w left after h found => ?_)
    fun left => .bind (Q := fun _ => handed begun tally left) (.alter fun w h => ⟨trivial, ?_⟩)
      fun _ => .done fun _ h => h
  · obtain ⟨rfl, rfl⟩ := Prod.mk.inj found
    obtain ⟨ended, s, ends, finished, attended⟩ := h
    obtain ⟨⟨phase, tallied⟩, -⟩ := id attended
    cases ended.symm.trans tallied
    obtain ⟨sums, clears⟩ := attendedSums finished attended
    have commands := screenLeft tallied
    rw [commands, ← Tally.recordAllTwice] at sums clears
    exact ⟨trivial, ⟨ended, rfl, ⟨s, ends, commands.symm.trans finished.commands⟩, clears⟩,
      finished.silent, sums.moved rfl rfl rfl⟩
  · exact ⟨⟨h.presenter, h.counts, h.all, h.clears⟩, h.silent, h.sums.moved rfl rfl rfl⟩

theorem statisticsAgree :
    theater.Meets (handed begun tally left) (Runner.onConsole Console.Call.statistics)
      fun statistics => (emptied begun tally left).given
        ((tally.recordAll left).Matches statistics) := by
  refine onConsoleMeets ?_
  refine .bind (Q := fun _ => partly (handed begun tally left)) (.look fun _ h => h)
    fun instructions => ?_
  refine .bind (Q := fun frames => (partly (handed begun tally left)).given
    ((tally.recordAll left).frames = frames)) (.look fun _ h => ⟨h.sums.frames, h⟩)
    fun frames => .given fun framed => ?_
  refine .bind (Q := fun up => (partly (handed begun tally left)).given (up = true))
    (.look fun _ h => ⟨h.sums.initialized, h⟩) fun up => .given fun yes => ?_
  rw [yes]
  refine .bind (Q := fun _ => partly (handed begun tally left)) (.look fun _ h => h)
    fun dispatcher => ?_
  refine .bind (Q := fun decoded => (partly (handed begun tally left)).given
    ((tally.recordAll left).draws = decoded.draws ∧
      (tally.recordAll left).dispatches = decoded.dispatches))
    (.look fun _ h => ⟨⟨h.sums.draws, h.sums.dispatches⟩, h⟩) fun decoded => ?_
  refine .given fun ⟨drawn, dispatched⟩ => .done fun w h =>
    ⟨⟨h.clears, drawn, dispatched, framed, ?_⟩, h.toEmptied⟩
  rw [← h.clears, ← drawn, ← dispatched, ← framed, h.counts, Tally.recordAllTwice]
  exact Tally.commandsSum _

theorem anything {α : Type} {P : Assertion theater} (p : Runner.Run α) :
    theater.Meets P p fun _ => whatever :=
  .pre (.kept (fun _ _ _ => trivial) (fun _ _ => trivial) p) fun _ _ => trivial

theorem closingPresents {final : Lifecycle} :
    theater.Meets (concluded begun) (do
      alter fun r : Runner => { r with done := true }
      let tally ← await Runner.presenterEnded
      let left ← Runner.popAll
      let statistics ← Runner.onConsole Console.Call.statistics
      let rip ← look fun r : Runner => r.console.snapshot.rip
      Runner.onConsole Console.Call.shutdown
      return ⟨final, rip, statistics, tally.recordAll left⟩) (reported begun) := by
  refine .bind (Q := fun _ => concluded begun) (.alter fun w h => ⟨trivial, ?_⟩) fun _ => ?_
  · obtain ⟨s, ends, finished, presenter, accounted, initialized, awake⟩ := h
    exact ⟨s, ends, finished, presenter, accounted, initialized, awake⟩
  refine .bind (Q := unattended begun) (.await fun w tally after h found => ⟨trivial, ?_⟩)
    fun tally => ?_
  · unfold Runner.presenterEnded at found
    split at found
    case h_1 _ ended =>
      cases found
      exact ⟨ended, h⟩
    case h_2 => cases found
  refine .bind (Q := handed begun tally) popAllHands fun left => ?_
  refine .bind (Q := fun statistics => (emptied begun tally left).given
    ((tally.recordAll left).Matches statistics)) statisticsAgree fun statistics => ?_
  refine .given fun agrees => ?_
  refine .bind (Q := fun _ => emptied begun tally left) (.look fun _ h => h) fun rip => ?_
  refine .bind (Q := fun _ => emptied begun tally left)
    (onConsoleMeets (.kept (fun w c h => ?_) (fun _ _ _ _ => trivial) _)) fun _ => ?_
  · exact ⟨h.presenter, h.counts, h.all, h.clears⟩
  refine .done fun w h _ => ?_
  obtain ⟨presenter, rfl, all, -⟩ := h
  exact ⟨left, presenter, rfl, all, agrees⟩

theorem watchPresents :
    theater.Meets (attended (Screening.Faithful begun)) Runner.watch (reported begun) := by
  refine .bind (Q := fun _ => attended (Screening.Faithful begun)) (.act fun w after h goes => ?_)
    fun _ => ?_
  · obtain ⟨-, goes⟩ := Option.ite_none_right_eq_some.mp goes
    cases goes
    exact ⟨trivial, h⟩
  refine .bind (Q := fun final : Lifecycle => if final = .running then whatever else
      (concluded begun).given (final ≠ .paused)) (.look fun w h => ?_) fun final => ?_
  · obtain ⟨faithful, attended⟩ := h
    split
    · trivial
    case isFalse away =>
      refine ⟨attended.awake, ?_⟩
      obtain ⟨s, ends, finished⟩ := Theater.faithfulFinished faithful
        fun active => active.elim away attended.awake
      exact ⟨s, ends, finished, attended⟩
  by_cases running : final = .running
  · subst running
    simp only [if_true, true_or]
    iterate 8 refine .bind (Q := fun _ => whatever) (anything _) fun _ => ?_
    exact .done fun _ _ ended => absurd rfl ended
  · rw [if_neg running]
    refine .given fun awake => ?_
    simp only [if_neg running, if_neg (not_or.mpr ⟨running, awake⟩)]
    exact closingPresents

end Watching

structure Theater.Vacant (w : Theater) : Prop where
  presenter : w.runner.presenter = none
  recorded : w.recorded = []

theorem Theater.Vacant.act {w : Theater} (vacant : w.Vacant) (t : Companion)
    (alone : w.runner.console.worker = none) :
    (w.act t).Vacant ∧ (w.act t).runner.console = w.runner.console := by
  cases t with
  | clock => exact ⟨⟨vacant.presenter, vacant.recorded⟩, rfl⟩
  | thread => exact ⟨⟨vacant.presenter, vacant.recorded⟩, Console.advanceAlone alone⟩
  | presenter =>
    obtain ⟨⟨console, presenter, done, expired⟩, recorded⟩ := w
    obtain ⟨absent, rfl⟩ := vacant
    obtain rfl : presenter = none := absent
    exact ⟨⟨rfl, rfl⟩, rfl⟩

theorem callAlone {α : Type} {call : Console.Call α} {w : Theater} (vacant : w.Vacant) {value : α}
    {after : Console} (comes : call.alone w.runner.console = some (value, after)) :
    theater.Secures (fun result v => result = value ∧ v.Vacant ∧ v.runner.console = after)
      (Runner.onConsole call) w :=
  onConsoleSecures (Interplay.aloneSecures
    (fun t _ vacant free => vacant.act t (Option.isNone_iff_eq_none.mp free))
    (fun _ _ vacant => ⟨⟨vacant.presenter, vacant.recorded⟩, rfl⟩) (fun _ => trivial)
    (fun _ _ _ _ => trivial) vacant comes)

def vacant (c : Console) (alone : c.worker = none) : Assertion theater where
  holds w := w.Vacant ∧ w.runner.console = c
  stable t w h := by
    obtain ⟨vacant, rfl⟩ := h
    exact vacant.act t alone

def sessionLeaves (begun : Solo) : Except Failure Report → Assertion theater
  | .ok report => reported begun report
  | .error _ => whatever

section Session
variable {config : Configuration} {core : Core Unit} {c : Console}

theorem startPresents (primed : Console.Primed config core c) :
    theater.Meets (vacant c primed.alone) (do
      alter fun r : Runner => { r with presenter := some {} }
      if ← Runner.onConsole Console.Call.run then
        return .ok (← Runner.watch)
      else
        let state ← look fun r : Runner => r.console.state
        return .error ⟨"emulator refused to run (state " ++ state.name ++ ")", []⟩)
      (sessionLeaves (c.solo core)) := by
  refine .bind (Q := fun _ => attended (Screening.Prepared (c.solo core) core .idle))
    (.alter fun w h => ⟨trivial, ?_⟩) fun _ => ?_
  · obtain ⟨⟨console, presenter, done, expired⟩, recorded⟩ := w
    obtain ⟨⟨-, rfl⟩, rfl⟩ := h
    have accounted := primed.accounted
    have commands : console.queue.pending.toList ++ [] = (console.solo core).queue.pending.toList :=
      List.append_nil _
    exact ⟨⟨⟨rfl, rfl, accounted.fit, commands⟩, primed.alone, primed.held, primed.ready,
      primed.state, primed.control, primed.control⟩, ⟨.look, rfl⟩, accounted, primed.initialized,
      (primed.state ▸ nofun : console.state ≠ .paused)⟩
  refine .bind (Q := fun _ => attended (Screening.Faithful (c.solo core))) runPresents
    fun started => ?_
  cases started with
  | true => exact .bind (Q := reported (c.solo core)) watchPresents fun _ => .done fun _ h => h
  | false => exact .bind (Q := fun _ => whatever) (anything _) fun _ => .done fun _ _ => trivial

def Opens (config : Configuration) (host : Provision) (loader : Loader) (c : Console)
    (core : Core Unit) : Prop :=
  ∃ fresh entry, (Console.Call.setUp host).alone (.new config {}) = some (.ok (), fresh) ∧
    (Console.Call.load loader).alone fresh = some (.ok entry, c) ∧ c.core = some core

def Said (config : Configuration) (host : Provision) (loader : Loader) :
    Except Failure Report → Theater → Prop
  | .ok report, w => report.state ≠ .running →
    ∃ c core left, Opens config host loader c core ∧ w.Presented (c.solo core) report left
  | .error _, _ => True

theorem sessionSays (config : Configuration) (host : Provision) (loader : Loader)
    (complaint : String) :
    theater.Secures (Said config host loader) (Runner.session host loader complaint)
      (Evening.start config host loader complaint).world := by
  obtain ⟨⟨_, fresh⟩, sets, unused⟩ := Console.setUpAlone config {} host
  refine (callAlone ⟨rfl, rfl⟩ sets).bind ?_
  rintro made w ⟨rfl, vacant, here⟩
  cases made with
  | error e => exact fun _ => ⟨trivial, trivial⟩
  | ok =>
    obtain ⟨unused, core, held⟩ := unused rfl
    obtain ⟨⟨_, c⟩, loads, primed⟩ := Console.loadAlone loader unused held
    refine (callAlone vacant (here ▸ loads)).bind ?_
    rintro placed w ⟨rfl, vacant, here⟩
    cases placed with
    | error e => exact fun _ => ⟨trivial, trivial⟩
    | ok entry =>
      obtain ⟨core, primed⟩ := primed entry rfl
      refine (startPresents primed w ⟨vacant, here⟩).imp fun result w leaves => ?_
      cases result with
      | error e => trivial
      | ok report =>
        intro ended
        obtain ⟨left, presented⟩ := leaves ended
        exact ⟨c, core, left, ⟨fresh, entry, sets, loads, primed.held⟩, presented⟩

/- A program that ends before its time is up is presented as a whole, whatever the order in which
the main thread, the execution thread and the presenter take their steps. -/
theorem presentsAll (config : Configuration) (host : Provision) (loader : Loader)
    (complaint : String) (turns : List (Interplay.Turn Empty Companion)) (report : Report) :
    let e := (Evening.start config host loader complaint).play turns
    e.rest.result? = some (.ok report) → report.state ≠ .running →
      ∃ c core left, Opens config host loader c core ∧
        e.world.Presented (c.solo core) report left := by
  intro e done
  have secured : theater.Secures (Said config host loader) e.rest e.world :=
    Interplay.Session.goOnSecures turns (fun call => call.elim) _
      (sessionSays config host loader complaint)
  obtain ⟨result, rest, said⟩ := secured.ended (by rw [done]; rfl)
  rw [rest] at done
  cases done
  exact said

end Session

def showFrame : Loader := .rawImage [0xB8, 0x66, 0x02, 0x00, 0x00, 0x0F, 0x05, 0xF4] 0

def frameTurns : List (Interplay.Turn Empty Companion) :=
  .replicate 70 .proceed ++ .replicate 6 (.other .presenter) ++ .replicate 40 (.other .thread) ++
    .replicate 7 .proceed ++ .replicate 8 (.other .presenter) ++ .replicate 40 .proceed

def frameReport : Report :=
  ⟨.idle, 8, { instructions := 3, syscalls := 1, frames := 1 },
    { commands := 2, clears := 1, frames := 1 }⟩

theorem presentsAllFrame :
    let e := (Evening.start brief (.memory true) showFrame "failed").play frameTurns
    e.rest.result? = some (.ok frameReport) ∧ frameReport.state ≠ .running ∧
      ∃ c core left, Opens brief (.memory true) showFrame c core ∧
        e.world.Presented (c.solo core) frameReport left := by
  intro e
  have done : e.rest.result? = some (.ok frameReport) := by decide +kernel
  have ended : frameReport.state ≠ .running := by decide
  exact ⟨done, ended,
    presentsAll brief (.memory true) showFrame "failed" frameTurns frameReport done ended⟩

end GameConsole.Headless
