import GameConsole.Graphics.Queue
import Mathlib.Algebra.BigOperators.Group.Finset.Basic
import Mathlib.Algebra.GroupWithZero.Nat
import Mathlib.Data.Fintype.Basic

/-! Threads that share a queue of commands. A call is a visit to the queue under its lock and, for
some, an update of a counter afterwards; the visits and the updates of all threads follow each
other in any order. What comes out is what went in, visit by visit, less what was cleared away
before anyone took it; the counters lag behind only while a call is under way. -/
namespace GameConsole.Graphics

inductive QueueCall where
  | push (c : RenderCommand)
  | pushMany (cs : List RenderCommand)
  | endFrame
  | popAll
  | clear
  deriving DecidableEq

namespace QueueCall

def pushed : QueueCall → List RenderCommand
  | .push c => [c]
  | .pushMany cs => cs
  | .endFrame => [.endFrame]
  | .popAll | .clear => []

def takes : QueueCall → Bool
  | .popAll | .clear => true
  | _ => false

def alone (q : RenderQueue) : QueueCall → RenderQueue
  | .push c => q.push c
  | .pushMany cs => q.pushMany cs
  | .endFrame => q.endFrame
  | .popAll => q.popAll.2
  | .clear => q.clear

theorem pushedTakes {call : QueueCall} (takes : call.takes = true) : call.pushed = [] := by
  cases call <;> first | rfl | cases takes

end QueueCall

inductive Counter where
  | pushed | popped | frames
  deriving DecidableEq

inductive Tally where
  | pushed (n : Nat)
  | popped (n : Nat)
  | frame

def Tally.amount : Counter → Tally → Nat
  | .pushed, .pushed n => n
  | .popped, .popped n => n
  | .frames, .frame => 1
  | _, _ => 0

def owed (counter : Counter) (due : Option Tally) : Nat := due.elim 0 (Tally.amount counter)

structure Passage where
  taken : List RenderCommand
  due : Option Tally
  after : RenderQueue

namespace RenderQueue

def locked (q : RenderQueue) : QueueCall → Passage
  | .push c => ⟨[], none, q.append c⟩
  | .pushMany cs => ⟨[], if cs.length = 0 then none else some (.pushed cs.length), q.appendAll cs⟩
  | .endFrame => ⟨[], some .frame, q.append .endFrame⟩
  | .popAll => ⟨q.drain.1, some (.popped q.drain.1.length), q.drain.2⟩
  | .clear => ⟨q.pending.toList, none, q.clear⟩

def tally (q : RenderQueue) : Tally → RenderQueue
  | .pushed n => q.countPushed n
  | .popped n => q.countPopped n
  | .frame => q.countFrame

def total (q : RenderQueue) : Counter → Nat
  | .pushed => q.totalPushed
  | .popped => q.totalPopped
  | .frames => q.frames

theorem lockedTallied (q : RenderQueue) (call : QueueCall) :
    (q.locked call).due.elim (q.locked call).after (q.locked call).after.tally = call.alone q := by
  cases call with
  | pushMany cs =>
    cases cs with
    | nil => rfl
    | cons c cs => rfl
  | _ => rfl

theorem totalTally (q : RenderQueue) (tally : Tally) (counter : Counter) :
    (q.tally tally).total counter = q.total counter + tally.amount counter := by
  cases tally <;> cases counter <;> rfl

theorem pendingTally (q : RenderQueue) (tally : Tally) : (q.tally tally).pending = q.pending := by
  cases tally <;> rfl

theorem takenLocked (q : RenderQueue) (call : QueueCall) :
    (q.locked call).taken = if call.takes then q.pending.toList else [] := by
  cases call <;> rfl

theorem pendingLocked (q : RenderQueue) (call : QueueCall) :
    (q.locked call).after.pending.toList =
      if call.takes then [] else q.pending.toList ++ call.pushed := by
  cases call <;> simp [locked, append, appendAll, drain, clear, QueueCall.takes, QueueCall.pushed]

end RenderQueue

structure Visit (ι : Type) where
  thread : ι
  call : QueueCall
  taken : List RenderCommand

namespace Visit

variable {ι : Type}

def amount (counter : Counter) (v : Visit ι) : Nat :=
  match counter with
  | .pushed => v.call.pushed.length
  | .popped => if v.call = .popAll then v.taken.length else 0
  | .frames => if v.call = .endFrame then 1 else 0

theorem totalLocked (q : RenderQueue) (thread : ι) (call : QueueCall) (counter : Counter) :
    (q.locked call).after.total counter + owed counter (q.locked call).due =
      q.total counter + amount counter ⟨thread, call, (q.locked call).taken⟩ := by
  cases call with
  | pushMany cs =>
    cases cs with
    | nil => cases counter <;> rfl
    | cons c cs => cases counter <;> rfl
  | _ => cases counter <;> rfl

end Visit

section History
variable {ι : Type}

def pushes (visits : List (Visit ι)) : List RenderCommand := visits.flatMap fun v => v.call.pushed

def delivered (visits : List (Visit ι)) : List RenderCommand :=
  (visits.filter fun v => v.call = .popAll).flatMap Visit.taken

def discarded (visits : List (Visit ι)) : List RenderCommand :=
  (visits.filter fun v => v.call = .clear).flatMap Visit.taken

def cleared (later : List (Visit ι)) : Bool :=
  (later.find? fun v => v.call.takes).any fun v => v.call = .clear

def kept : List (Visit ι) → List (Visit ι)
  | [] => []
  | v :: later => if cleared later then kept later else v :: kept later

def lost : List (Visit ι) → List (Visit ι)
  | [] => []
  | v :: later => if cleared later then v :: lost later else lost later

inductive Fifo : List RenderCommand → List (Visit ι) → List RenderCommand → Prop where
  | done (pending : List RenderCommand) : Fifo pending [] pending
  | visit {pending final : List RenderCommand} {v : Visit ι} {later : List (Visit ι)}
      (taken : v.taken = if v.call.takes then pending else [])
      (tail : Fifo (if v.call.takes then [] else pending ++ v.call.pushed) later final) :
      Fifo pending (v :: later) final

theorem fifoAppend {first middle last : List RenderCommand} {visits later : List (Visit ι)}
    (earlier : Fifo first visits middle) (rest : Fifo middle later last) :
    Fifo first (visits ++ later) last := by
  induction earlier with
  | done _ => exact rest
  | visit taken _ ih => exact .visit taken (ih rest)

theorem clearedPlain {v : Visit ι} (plain : v.call.takes = false) (later : List (Visit ι)) :
    cleared (v :: later) = cleared later := by
  simp [cleared, plain]

theorem clearedTaking {v : Visit ι} (takes : v.call.takes = true) (later : List (Visit ι)) :
    cleared (v :: later) = decide (v.call = .clear) := by
  simp [cleared, takes]

theorem keptSublist (visits : List (Visit ι)) : (kept visits).Sublist visits := by
  induction visits with
  | nil => exact .slnil
  | cons v later ih =>
    rw [kept]
    split
    · exact ih.cons v
    · exact ih.cons_cons v

theorem keptLost (visits : List (Visit ι)) :
    (pushes (kept visits)).length + (pushes (lost visits)).length = (pushes visits).length := by
  induction visits with
  | nil => rfl
  | cons v later ih =>
    simp only [pushes] at ih
    rw [kept, lost]
    split <;> simp only [pushes, List.flatMap_cons, List.length_append] <;> omega

theorem pushesKeptTaking {v : Visit ι} (takes : v.call.takes = true) (later : List (Visit ι)) :
    pushes (kept (v :: later)) = pushes (kept later) ∧
      pushes (lost (v :: later)) = pushes (lost later) := by
  rw [kept, lost]
  split <;> simp [pushes, QueueCall.pushedTakes takes]

theorem fifoDelivers {first last : List RenderCommand} {visits : List (Visit ι)}
    (fifo : Fifo first visits last) :
    delivered visits ++ last = (if cleared visits then [] else first) ++ pushes (kept visits) ∧
      discarded visits = (if cleared visits then first else []) ++ pushes (lost visits) := by
  induction fifo with
  | done pending => simp [delivered, discarded, cleared, pushes, kept, lost]
  | @visit pending final v later taken tail ih =>
    obtain ⟨goes, clears⟩ := ih
    cases takes : v.call.takes with
    | false =>
      have notPop : v.call ≠ .popAll := fun same => by rw [same] at takes; cases takes
      have notClear : v.call ≠ .clear := fun same => by rw [same] at takes; cases takes
      rw [takes] at goes clears
      have plain : delivered (v :: later) = delivered later ∧
          discarded (v :: later) = discarded later := by
        simp [delivered, discarded, notPop, notClear]
      rw [plain.1, plain.2, goes, clears, clearedPlain takes, kept, lost]
      cases cleared later with
      | false => simp [pushes]
      | true => simp [pushes]
    | true =>
      rw [takes] at taken goes clears
      simp only [if_true, ite_self, List.nil_append] at taken goes clears
      obtain ⟨stays, leaves⟩ := pushesKeptTaking takes later
      rw [clearedTaking takes, stays, leaves]
      obtain pop | clear : v.call = .popAll ∨ v.call = .clear := by
        cases call : v.call <;> simp_all [QueueCall.takes]
      · simp_all [delivered, discarded]
      · simp_all [delivered, discarded]

/- Threads at one queue: the calls each has yet to make, what its last call has yet to count,
and the visits so far, oldest first. -/
structure Crowd (ι : Type) where
  queue : RenderQueue
  ahead : ι → List QueueCall
  due : ι → Option Tally
  history : List (Visit ι)

namespace Crowd

variable [DecidableEq ι]

def start (scripts : ι → List QueueCall) : Crowd ι := ⟨.empty, scripts, fun _ => none, []⟩

def turn (s : Crowd ι) (t : ι) : Crowd ι :=
  match s.due t with
  | some tally => { s with queue := s.queue.tally tally, due := Function.update s.due t none }
  | none =>
    match s.ahead t with
    | [] => s
    | call :: later =>
      let passage := s.queue.locked call
      { queue := passage.after
        ahead := Function.update s.ahead t later
        due := Function.update s.due t passage.due
        history := s.history ++ [⟨t, call, passage.taken⟩] }

def run (s : Crowd ι) (schedule : List ι) : Crowd ι := schedule.foldl turn s

inductive Turned (s : Crowd ι) (t : ι) : Crowd ι → Prop where
  | idle (quiet : s.due t = none) (finished : s.ahead t = []) : Turned s t s
  | counts {tally : Tally} (owing : s.due t = some tally) :
      Turned s t { s with queue := s.queue.tally tally, due := Function.update s.due t none }
  | visits {call : QueueCall} {later : List QueueCall} (quiet : s.due t = none)
      (next : s.ahead t = call :: later) :
      Turned s t
        { queue := (s.queue.locked call).after
          ahead := Function.update s.ahead t later
          due := Function.update s.due t (s.queue.locked call).due
          history := s.history ++ [⟨t, call, (s.queue.locked call).taken⟩] }

theorem turnCases (s : Crowd ι) (t : ι) : Turned s t (s.turn t) := by
  rw [turn]
  split
  case h_1 tally owing => exact .counts owing
  case h_2 quiet =>
    split
    case h_1 finished => exact .idle quiet finished
    case h_2 call later next => exact .visits quiet next

def program (s : Crowd ι) (t : ι) : List QueueCall :=
  (s.history.filter fun v => v.thread = t).map Visit.call ++ s.ahead t

structure Consistent [Fintype ι] (scripts : ι → List QueueCall) (s : Crowd ι) : Prop where
  fifo : Fifo [] s.history s.queue.pending.toList
  program : s.program = scripts
  counted : ∀ counter, s.queue.total counter + ∑ t, owed counter (s.due t) =
    (s.history.map (Visit.amount counter)).sum

theorem sumOwedUpdate [Fintype ι] (counter : Counter) (due : ι → Option Tally) (t : ι)
    (next : Option Tally) :
    (∑ u, owed counter (Function.update due t next u)) + owed counter (due t) =
      (∑ u, owed counter (due u)) + owed counter next := by
  have others : ∑ u ∈ Finset.univ.erase t, owed counter (Function.update due t next u) =
      ∑ u ∈ Finset.univ.erase t, owed counter (due u) := by
    refine Finset.sum_congr rfl fun u member => ?_
    rw [Function.update_of_ne (Finset.ne_of_mem_erase member)]
  rw [← Finset.add_sum_erase _ _ (Finset.mem_univ t), others, Function.update_self,
    ← Finset.add_sum_erase _ (fun u => owed counter (due u)) (Finset.mem_univ t)]
  omega

theorem programVisit (s : Crowd ι) {t : ι} {call : QueueCall} {later : List QueueCall}
    (next : s.ahead t = call :: later) (queue : RenderQueue) (due : ι → Option Tally)
    (taken : List RenderCommand) :
    (Crowd.mk queue (Function.update s.ahead t later) due
      (s.history ++ [⟨t, call, taken⟩])).program = s.program := by
  funext u
  rcases eq_or_ne u t with rfl | other
  · simp [program, next]
  · simp [program, other, other.symm]

variable [Fintype ι] {scripts : ι → List QueueCall}

theorem startConsistent : (start scripts).Consistent scripts where
  fifo := .done []
  program := rfl
  counted counter := by cases counter <;> simp [start, owed, RenderQueue.total, RenderQueue.empty]

theorem turnConsistent {s : Crowd ι} (consistent : s.Consistent scripts) (t : ι) :
    (s.turn t).Consistent scripts := by
  obtain ⟨fifo, program, counted⟩ := consistent
  have turned := s.turnCases t
  generalize s.turn t = after at turned ⊢
  cases turned with
  | idle _ _ => exact ⟨fifo, program, counted⟩
  | @counts tally owing =>
    refine ⟨?_, program, fun counter => ?_⟩
    · rwa [s.queue.pendingTally tally]
    · have count := s.queue.totalTally tally counter
      have settled := sumOwedUpdate counter s.due t none
      have before := counted counter
      simp only [owing, owed, Option.elim_some, Option.elim_none] at settled count before ⊢
      omega
  | @visits call later quiet next =>
    refine ⟨?_, (s.programVisit next _ _ _).trans program, fun counter => ?_⟩
    · refine fifoAppend fifo (.visit (s.queue.takenLocked call) ?_)
      rw [s.queue.pendingLocked call]
      exact .done _
    · have entered := Visit.totalLocked s.queue t call counter
      have owing := sumOwedUpdate counter s.due t (s.queue.locked call).due
      have before := counted counter
      rw [List.map_append, List.sum_append]
      simp only [quiet, owed, Option.elim_none, List.map_cons, List.map_nil, List.sum_cons,
        List.sum_nil] at owing entered before ⊢
      omega

theorem runConsistent {s : Crowd ι} (consistent : s.Consistent scripts) (schedule : List ι) :
    (s.run schedule).Consistent scripts := by
  induction schedule generalizing s with
  | nil => exact consistent
  | cons t schedule ih => exact ih (turnConsistent consistent t)

end Crowd

theorem amountPushed (visits : List (Visit ι)) :
    (visits.map (Visit.amount .pushed)).sum = (pushes visits).length := by
  rw [pushes, List.length_flatMap]
  rfl

theorem amountPopped (visits : List (Visit ι)) :
    (visits.map (Visit.amount .popped)).sum = (delivered visits).length := by
  induction visits with
  | nil => rfl
  | cons v later ih =>
    by_cases pop : v.call = .popAll
    · simp_all [delivered, Visit.amount]
    · simp_all [delivered, Visit.amount]

theorem amountFrames (visits : List (Visit ι)) :
    (visits.map (Visit.amount .frames)).sum = visits.countP fun v => v.call = .endFrame := by
  induction visits with
  | nil => rfl
  | cons v later ih =>
    by_cases frame : v.call = .endFrame
    · simp_all [Visit.amount, Nat.add_comm]
    · simp_all [Visit.amount]

/- Every thread's calls happen in its own order; what is taken or still pending is what was pushed,
visit by visit, less what is cleared; and the counters agree whenever no thread owes anything. -/
theorem handoffExact [Fintype ι] [DecidableEq ι] (scripts : ι → List QueueCall)
    (schedule : List ι) :
    let s := (Crowd.start scripts).run schedule
    (∀ t, (s.history.filter fun v => v.thread = t).map Visit.call ++ s.ahead t = scripts t) ∧
    delivered s.history ++ s.queue.pending.toList = pushes (kept s.history) ∧
    discarded s.history = pushes (lost s.history) ∧
    (kept s.history).Sublist s.history ∧
    ((∀ t, s.due t = none) →
      s.queue.totalPushed =
          s.queue.totalPopped + s.queue.length + (discarded s.history).length ∧
        s.queue.frames = s.history.countP fun v => v.call = .endFrame) := by
  intro s
  obtain ⟨fifo, program, counted⟩ : s.Consistent scripts :=
    Crowd.runConsistent Crowd.startConsistent schedule
  obtain ⟨goes, clears⟩ := fifoDelivers fifo
  simp only [ite_self, List.nil_append] at goes clears
  refine ⟨congrFun program, goes, clears, keptSublist s.history, fun quiet => ?_⟩
  have settled (counter : Counter) :
      s.queue.total counter = (s.history.map (Visit.amount counter)).sum := by
    have all := counted counter
    simpa [quiet, owed] using all
  have pushed := (settled .pushed).trans (amountPushed s.history)
  have popped := (settled .popped).trans (amountPopped s.history)
  have frames := (settled .frames).trans (amountFrames s.history)
  have fates := keptLost s.history
  rw [← goes, ← clears, List.length_append] at fates
  have size : s.queue.pending.toList.length = s.queue.length := Array.length_toList
  simp only [RenderQueue.total] at pushed popped frames
  exact ⟨by omega, frames⟩

end History

end GameConsole.Graphics
