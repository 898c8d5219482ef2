import GameConsole.Proofs.Graphics.Unfolding
import GameConsole.Proofs.Headless.Counting
import GameConsole.Proofs.Syscall.Submission

/-! All that a decoder is given to decode in its life, buffers and submissions, each with the memory
as it is at that time. It comes down to one list of packets; the counters agree with the list and
with the commands that have gone to the queue, however many buffers have broken off. -/
namespace GameConsole.Graphics

def listed (m : Memory) (buffers sizes : UInt64) : Nat → Nat → List Listed
  | 0, _ => []
  | count + 1, i =>
    match entryAt m buffers sizes i with
    | .ok entry => entry :: listed m buffers sizes count (i + 1)
    | .error _ => []

theorem listedListing (m : Memory) (buffers sizes : UInt64) (count first : Nat) :
    ∃ result, Listing m buffers sizes first count (listed m buffers sizes count first) result := by
  induction count generalizing first with
  | zero => exact ⟨_, listingNone⟩
  | succ count ih =>
    unfold listed
    cases found : entryAt m buffers sizes first with
    | error fault => exact ⟨_, listingFault count found⟩
    | ok entry =>
      obtain ⟨result, rest⟩ := ih (first + 1)
      exact ⟨result, listingEntry found rest⟩

inductive Work where
  | buffer (m : Memory) (address : UInt64) (words : UInt32)
  | submission (m : Memory) (count : UInt32) (buffers sizes : UInt64)

def Work.packets (limit : UInt32) : Work → List Packet
  | .buffer m address words => unfolded m limit.toNat address words.toNat
  | .submission m count buffers sizes =>
    (listed m buffers sizes count.toNat 0).flatMap fun entry =>
      unfolded m limit.toNat entry.address entry.words.toNat

namespace Decoder

def work (limit : UInt32) (d : Decoder) : Work → Decoder
  | .buffer m address words => (d.process m limit address words).1
  | .submission m count buffers sizes => (d.submit m limit count buffers sizes).1

def workAll (limit : UInt32) (d : Decoder) (works : List Work) : Decoder :=
  works.foldl (work limit) d

section Working
variable {limit : UInt32} {d e : Decoder}

theorem processAllUnfolded (m : Memory) (entries : List Listed) (h : d.Agrees e) :
    (d.processAll m limit entries).Agrees (e.performAll passing (entries.flatMap fun entry =>
      unfolded m limit.toNat entry.address entry.words.toNat)) := by
  induction entries generalizing d e with
  | nil => exact h
  | cons entry entries ih =>
    rw [List.flatMap_cons, performAllAppend]
    exact ih (decodeUnfolded m _ _ entry.address entry.words.toNat h)

theorem workUnfolded (h : d.Agrees e) (work : Work) :
    (d.work limit work).Agrees (e.performAll passing (work.packets limit)) := by
  cases work with
  | buffer m address words => exact decodeUnfolded m _ _ address words.toNat h
  | submission m count buffers sizes =>
    obtain ⟨entries, listing, same⟩ := submitLists m limit count buffers sizes h
    obtain ⟨_, computed⟩ := listedListing m buffers sizes count.toNat 0
    obtain ⟨rfl, -⟩ := listing.unique computed
    exact same.trans (processAllUnfolded m _ (.refl e))

theorem workAllUnfolded (h : d.Agrees e) (works : List Work) :
    (d.workAll limit works).Agrees (e.performAll passing (works.flatMap (Work.packets limit))) := by
  induction works generalizing d e with
  | nil => exact h
  | cons work works ih =>
    rw [List.flatMap_cons, performAllAppend]
    exact ih (workUnfolded h work)

theorem workAllKeeps {Q : Decoder → Decoder → Prop} (congruence : Congruence Q) (h : Q d e)
    (works : List Work) : Q (d.workAll limit works) (e.workAll limit works) := by
  induction works generalizing d e with
  | nil => exact h
  | cons work works ih =>
    refine ih ?_
    cases work with
    | buffer m address words => exact (decodeKeeps congruence m _ _ address words.toNat h).1
    | submission m count buffers sizes =>
      exact (submitKeeps congruence m limit count buffers sizes h).1

end Working

end Decoder

/- What happens to a queue that one decoder fills. Whoever takes the commands comes in between. -/
inductive Handling where
  | push (c : RenderCommand)
  | drain
  | countPopped (n : Nat)
  | clear

def Handling.pushed : Handling → List RenderCommand
  | .push c => [c]
  | _ => []

def RenderQueue.handle (q : RenderQueue) : Handling → RenderQueue
  | .push c => q.push c
  | .drain => q.drain.2
  | .countPopped n => q.countPopped n
  | .clear => q.clear

theorem RenderQueue.handleTotal (q : RenderQueue) (steps : List Handling) :
    (steps.foldl handle q).totalPushed =
      q.totalPushed + (steps.flatMap Handling.pushed).length := by
  induction steps generalizing q with
  | nil => rfl
  | cons step steps ih =>
    have one : (q.handle step).totalPushed = q.totalPushed + step.pushed.length := by
      cases step <;> rfl
    rw [List.foldl_cons, ih, one, List.flatMap_cons, List.length_append, Nat.add_assoc]

namespace Decoder
open RenderCommand (isClear isDraw isDispatch)

theorem Balances.kinds {begun : DecodeCounts} {d : Decoder} (h : d.Balances begun)
    {c : RenderCommand} (yielded : c ∈ d.commands.toList) :
    isDraw c = true ∨ isDispatch c = true := by
  have blank : isClear c ≠ true := List.countP_eq_zero.mp h.clears c yielded
  cases c with
  | clear => exact absurd rfl blank
  | endFrame => exact absurd rfl (h.frames _ (Array.mem_def.mpr yielded))
  | draw | drawIndexed => exact .inl rfl
  | dispatch => exact .inr rfl

theorem kindsLength {commands : List RenderCommand}
    (kinds : ∀ c ∈ commands, isDraw c = true ∨ isDispatch c = true) :
    commands.length = commands.countP isDraw + commands.countP isDispatch := by
  induction commands with
  | nil => rfl
  | cons c rest ih =>
    rw [List.forall_mem_cons] at kinds
    rw [List.length_cons, ih kinds.2, List.countP_cons, List.countP_cons]
    cases c with
    | draw | drawIndexed | dispatch => simp [isDraw, isDispatch]; omega
    | clear | endFrame => simp [isDraw, isDispatch] at kinds

/- Whatever a decoder is given to decode: its counters say what has gone to the queue, and how many
packets have been decoded to their end. -/
theorem countersAgree (limit : UInt32) (state : GpuState) (counts : DecodeCounts)
    (journal : Journal) (works : List Work) :
    let after := workAll limit ⟨state, counts, #[], journal⟩ works
    let pushed := after.commands.toList
    after.counts.draws = counts.draws + pushed.countP isDraw ∧
    after.counts.dispatches = counts.dispatches + pushed.countP isDispatch ∧
    (∀ c ∈ pushed, isDraw c = true ∨ isDispatch c = true) ∧
    (∀ (q : RenderQueue) (steps : List Handling), steps.flatMap Handling.pushed = pushed →
      (steps.foldl RenderQueue.handle q).totalPushed =
        q.totalPushed + (pushed.countP isDraw + pushed.countP isDispatch)) ∧
    after.counts.packets = counts.packets + (works.flatMap (Work.packets limit)).length ∧
    ∀ (m : Memory) (address : UInt64) (size offset : Nat) (packets : List Packet),
      Framed m address size offset packets →
      (offset = size ∨ ∃ error, Defect m address size offset error) →
      packetsOf m address size = packets := by
  intro after pushed
  let begun : Decoder := ⟨state, counts, #[], journal⟩
  have balances : after.Agrees after ∧ after.Balances counts :=
    workAllKeeps (balancesCongruence counts) (d := begun) (e := begun)
      ⟨.refl begun, ⟨rfl, by simp [begun], rfl, rfl⟩⟩ works
  have kinds (c : RenderCommand) (yielded : c ∈ pushed) := balances.2.kinds yielded
  refine ⟨balances.2.draws, balances.2.dispatches, kinds, fun q steps all => ?_, ?_,
    fun m address size offset packets framed stop => ?_⟩
  · rw [q.handleTotal steps, all, kindsLength kinds]
  · have unfolds : after.Agrees (begun.performAll passing (works.flatMap (Work.packets limit))) :=
      workAllUnfolded (.refl begun) works
    rw [unfolds.counts, performAllCounts]
  · exact tilesPackets framed.tiles framed.sound stop (Nat.le_add_left size 0)

end Decoder

end GameConsole.Graphics
