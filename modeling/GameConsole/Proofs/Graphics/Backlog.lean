import GameConsole.Proofs.Graphics.Handoff

/-! The backlog of a queue, as its two totals give it while threads are at work. A push of several
commands is counted after the lock has been left, and until then others can take the commands and
count them as taken. The totals are in order just as long as such pushes do not outweigh the
backlog; they always are where commands are pushed one at a time. -/
namespace GameConsole.Graphics

theorem RenderQueue.totalGrows (q : RenderQueue) (call : QueueCall) (counter : Counter) :
    q.total counter ≤ (q.locked call).after.total counter := by
  cases call with
  | push _ | endFrame =>
    cases counter with
    | pushed => exact Nat.le_succ q.totalPushed
    | popped | frames => exact Nat.le_refl _
  | pushMany _ | popAll | clear => exact Nat.le_refl (q.total counter)

namespace Crowd
variable {ι : Type} {s : Crowd ι} {scripts : ι → List QueueCall}

def Counted (s : Crowd ι) : Prop := ∀ t n, s.due t ≠ some (.pushed n)

/- No thread pushes several commands at once, or has done so and not counted them. -/
structure Singly (s : Crowd ι) : Prop where
  ahead : ∀ t cs, .pushMany cs ∉ s.ahead t
  counted : s.Counted

theorem startSingly (single : ∀ t cs, .pushMany cs ∉ scripts t) : (start scripts).Singly :=
  ⟨single, fun _ _ owing => nomatch owing⟩

section Uncounted
variable [Fintype ι]

def uncounted (s : Crowd ι) (counter : Counter) : Nat := ∑ t, owed counter (s.due t)

theorem uncountedNone (counted : s.Counted) : s.uncounted .pushed = 0 := by
  refine Finset.sum_eq_zero fun t _ => ?_
  cases due : s.due t with
  | none => rfl
  | some tally =>
    cases tally with
    | pushed n => exact absurd due (counted t n)
    | popped _ | frame => rfl

end Uncounted

variable [DecidableEq ι]

theorem turnTotal (s : Crowd ι) (t : ι) (counter : Counter) :
    s.queue.total counter ≤ (s.turn t).queue.total counter := by
  have turned := s.turnCases t
  generalize s.turn t = after at turned ⊢
  cases turned with
  | idle _ _ => exact Nat.le_refl _
  | counts _ =>
    rw [RenderQueue.totalTally]
    exact Nat.le_add_right _ _
  | visits _ _ => exact s.queue.totalGrows _ _

theorem runTotal (s : Crowd ι) (schedule : List ι) (counter : Counter) :
    s.queue.total counter ≤ (s.run schedule).queue.total counter := by
  induction schedule generalizing s with
  | nil => exact Nat.le_refl _
  | cons t schedule ih => exact (s.turnTotal t counter).trans (ih (s.turn t))

theorem turnSingly (singly : s.Singly) (t : ι) : (s.turn t).Singly := by
  obtain ⟨ahead, counted⟩ := singly
  have turned := s.turnCases t
  generalize s.turn t = after at turned ⊢
  cases turned with
  | idle _ _ => exact ⟨ahead, counted⟩
  | counts _ =>
    refine ⟨ahead, fun u n => ?_⟩
    rcases eq_or_ne u t with rfl | other
    · simp
    · simpa [other] using counted u n
  | @visits call later _ next =>
    refine ⟨fun u cs => ?_, fun u n => ?_⟩
    · rcases eq_or_ne u t with rfl | other
      · have absent := ahead u cs
        rw [next] at absent
        simpa using fun member => absent (List.mem_cons_of_mem call member)
      · simpa [other] using ahead u cs
    · rcases eq_or_ne u t with rfl | other
      · cases call with
        | pushMany cs => exact absurd (next ▸ List.mem_cons_self) (ahead u cs)
        | _ => simp [RenderQueue.locked]
      · simpa [other] using counted u n

theorem runSingly (singly : s.Singly) (schedule : List ι) : (s.run schedule).Singly := by
  induction schedule generalizing s with
  | nil => exact singly
  | cons t schedule ih => exact ih (turnSingly singly t)

namespace Consistent
variable [Fintype ι] (consistent : s.Consistent scripts)
include consistent

theorem balanced :
    s.queue.totalPushed + s.uncounted .pushed =
      s.queue.totalPopped + s.uncounted .popped + s.queue.length +
        (discarded s.history).length := by
  obtain ⟨fifo, -, counted⟩ := consistent
  obtain ⟨goes, clears⟩ := fifoDelivers fifo
  simp only [ite_self, List.nil_append] at goes clears
  have pushed := (counted .pushed).trans (amountPushed s.history)
  have popped := (counted .popped).trans (amountPopped s.history)
  have fates := keptLost s.history
  rw [← goes, ← clears, List.length_append] at fates
  have size : s.queue.pending.toList.length = s.queue.length := Array.length_toList
  simp only [RenderQueue.total] at pushed popped
  simp only [uncounted]
  omega

theorem ordered (counted : s.Counted) (later : List ι) :
    s.queue.totalPopped ≤ (s.run later).queue.totalPushed := by
  have balanced := consistent.balanced
  have none := uncountedNone counted
  calc
    s.queue.totalPopped ≤ s.queue.totalPushed := by omega
    _ ≤ (s.run later).queue.totalPushed := s.runTotal later .pushed

end Consistent

end Crowd

theorem backlogAccounted {ι : Type} [Fintype ι] [DecidableEq ι] (scripts : ι → List QueueCall)
    (schedule : List ι) :
    let s := (Crowd.start scripts).run schedule
    s.queue.totalPushed + s.uncounted .pushed =
      s.queue.totalPopped + s.uncounted .popped + s.queue.length +
        (discarded s.history).length ∧
    (s.queue.totalPopped ≤ s.queue.totalPushed ↔
      s.uncounted .pushed ≤
        s.uncounted .popped + s.queue.length + (discarded s.history).length) ∧
    (s.Counted → ∀ later, s.queue.totalPopped ≤ (s.run later).queue.totalPushed) ∧
    ((∀ t cs, .pushMany cs ∉ scripts t) →
      ∀ later, s.queue.totalPopped ≤ (s.run later).queue.totalPushed) := by
  intro s
  have consistent : s.Consistent scripts := Crowd.runConsistent Crowd.startConsistent schedule
  have balanced := consistent.balanced
  refine ⟨balanced, ?inOrder, consistent.ordered, fun single => ?singly⟩
  case inOrder => omega
  case singly =>
    have singly : s.Singly := Crowd.runSingly (Crowd.startSingly single) schedule
    exact consistent.ordered singly.counted

theorem backlogAccountedSingly :
    let scripts : Bool → List QueueCall := fun consumer =>
      if consumer then [.popAll] else [.push .endFrame, .endFrame]
    let s := (Crowd.start scripts).run [false, true, true]
    (∀ t cs, .pushMany cs ∉ scripts t) ∧ s.queue.totalPopped = 1 ∧
    ∀ later, s.queue.totalPopped ≤ (s.run later).queue.totalPushed := by
  intro scripts s
  have single : ∀ t cs, .pushMany cs ∉ scripts t := by
    intro t cs
    cases t <;> simp [scripts]
  have accounted := backlogAccounted scripts [false, true, true]
  exact ⟨single, by decide, accounted.2.2.2 single⟩

/- A thread pushes two commands at once; before it counts them, another takes and counts them. -/
theorem backlogUnderflows :
    let scripts : Bool → List QueueCall := fun consumer =>
      if consumer then [.popAll] else [.pushMany [.endFrame, .endFrame]]
    let s := (Crowd.start scripts).run [false, true, true]
    s.queue.totalPushed = 0 ∧ s.queue.totalPopped = 2 ∧
    ¬ s.queue.totalPopped ≤ s.queue.totalPushed ∧
    s.queue.totalPushed.toUInt64 - s.queue.totalPopped.toUInt64 = 0xFFFFFFFFFFFFFFFE := by
  decide

end GameConsole.Graphics
