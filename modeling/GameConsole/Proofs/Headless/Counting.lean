import GameConsole.Headless.Presenter
import GameConsole.Proofs.Console.Pursuit

/-! Two counts of one thing. The decoder counts draws and dispatches when it meets them, and the
queue counts frames; whoever presents commands counts those that are handed over. Whatever the
execution thread does and whenever commands are taken, the numbers are the same, but for what is
still to be delivered. -/
namespace GameConsole
open Graphics (Decoder DecodeCounts Delivery RenderCommand RenderQueue)
open Syscall (Devices GraphicsDevice Hosted)

namespace Graphics.RenderCommand

def isClear : RenderCommand → Bool
  | .clear .. => true
  | _ => false

def isDispatch : RenderCommand → Bool
  | .dispatch .. => true
  | _ => false

def isFrame : RenderCommand → Bool
  | .endFrame => true
  | _ => false

end Graphics.RenderCommand

open Graphics.RenderCommand (isClear isDraw isDispatch isFrame)

namespace Headless.Tally

theorem recordAllCounts (t : Tally) (cs : List RenderCommand) :
    t.recordAll cs = ⟨t.commands + cs.length, t.clears + cs.countP isClear,
      t.draws + cs.countP isDraw, t.dispatches + cs.countP isDispatch,
      t.frames + cs.countP isFrame⟩ := by
  induction cs generalizing t with
  | nil => rfl
  | cons c rest ih =>
    rw [recordAll, List.foldl_cons, ← recordAll, ih]
    cases c <;>
      simp [record, List.countP_cons, isClear, isDraw, isDispatch, isFrame] <;> omega

theorem recordAllTwice (t : Tally) (first second : List RenderCommand) :
    (t.recordAll first).recordAll second = t.recordAll (first ++ second) :=
  List.foldl_append.symm

theorem commandsSum (cs : List RenderCommand) :
    let t := ({} : Tally).recordAll cs
    t.commands = t.clears + t.draws + t.dispatches + t.frames := by
  simp only [recordAllCounts, Nat.zero_add]
  induction cs with
  | nil => rfl
  | cons c rest ih =>
    rw [List.length_cons, ih]
    cases c <;> simp [List.countP_cons, isClear, isDraw, isDispatch, isFrame] <;> omega

end Headless.Tally

structure Graphics.Decoder.Balances (begun : DecodeCounts) (d : Decoder) : Prop where
  clears : d.commands.toList.countP isClear = 0
  frames : ∀ c ∈ d.commands, c ≠ .endFrame
  draws : d.counts.draws = begun.draws + d.commands.toList.countP isDraw
  dispatches : d.counts.dispatches = begun.dispatches + d.commands.toList.countP isDispatch

theorem Graphics.Decoder.balancesCongruence (begun : DecodeCounts) :
    Congruence fun d e => d.Agrees e ∧ d.Balances begun where
  notes _ _ _ _ h := ⟨h.1.notes _ _, h.2.clears, h.2.frames, h.2.draws, h.2.dispatches⟩
  counted _ _ h := ⟨h.1.countPacket, h.2.clears, h.2.frames, h.2.draws, h.2.dispatches⟩
  carriedOut f g opcode request d e plain h := by
    obtain ⟨agrees, clears, frames, draws, dispatches⟩ := h
    refine ⟨agreesCongruence.carriedOut f g opcode request d e plain agrees, ?_⟩
    cases request with
    | follow address words => exact absurd rfl (plain address words)
    | draw | drawIndexed | drawIndexedFrom | dispatch =>
      constructor <;>
        simp [Decoder.carryOut, Decoder.note, Decoder.yieldIndexed, Decoder.yieldDraw, isClear,
          isDraw, isDispatch, clears, draws, dispatches, Nat.add_assoc]
      simpa [or_imp, forall_and] using frames
    | _ => exact ⟨clears, frames, draws, dispatches⟩

namespace Syscall.GraphicsDevice

def due (g : GraphicsDevice) : List RenderCommand := g.outbox.toList.map Delivery.enqueued

def stray : Delivery := .command .endFrame

structure Balances (shown : List RenderCommand) (g : GraphicsDevice) : Prop where
  clears : (shown ++ g.due).countP isClear = 1
  draws : g.counts.draws = (shown ++ g.due).countP isDraw
  dispatches : g.counts.dispatches = (shown ++ g.due).countP isDispatch
  frames : stray ∉ g.outbox

theorem absorbDue (g : GraphicsDevice) (d : Decoder) :
    (g.absorb d).due = g.due ++ d.commands.toList := by
  simp [absorb, due, Function.comp_def, Delivery.enqueued]

theorem frameDue (g : GraphicsDevice) :
    due { g with outbox := g.outbox.push .frame } = g.due ++ [.endFrame] := by
  simp [due, Delivery.enqueued]

theorem Balances.delivered {shown : List RenderCommand} {g : GraphicsDevice}
    (h : g.Balances shown) : g.takeOutbox.2.Balances (shown ++ g.due) := by
  obtain ⟨clears, draws, dispatches, -⟩ := h
  have none : shown ++ g.due ++ g.takeOutbox.2.due = shown ++ g.due := List.append_nil _
  refine ⟨?_, ?_, ?_, Array.not_mem_empty stray⟩ <;> rw [none]
  exacts [clears, draws, dispatches]

theorem balancesDecodes (shown : List RenderCommand) :
    Decodes (fun g h => g = h ∧ g.Balances shown) fun g d e =>
      d.Agrees e ∧ d.Balances g.counts where
  congruence g := Decoder.balancesCongruence g.counts
  limit _ _ h := congrArg limit h.1
  decoder g _ _ _ h := h.1 ▸ ⟨⟨rfl, rfl, rfl⟩, rfl, Array.forall_mem_empty _, rfl, rfl⟩
  absorb g _ d _ h after := by
    obtain ⟨rfl, balances⟩ := h
    refine ⟨GraphicsDriver.absorbAgrees g after.1, ?_, ?_, ?_, ?_⟩
    case refine_4 =>
      intro mine
      obtain early | late := Array.mem_append.mp mine
      · exact balances.frames early
      · obtain ⟨c, yielded, same⟩ := Array.mem_map.mp late
        cases same
        exact after.2.frames _ yielded rfl
    all_goals rw [absorbDue, ← List.append_assoc, List.countP_append]
    · rw [balances.clears, after.2.clears]
    · exact after.2.draws.trans (congrArg (· + _) balances.draws)
    · exact after.2.dispatches.trans (congrArg (· + _) balances.dispatches)
  frame g _ h := by
    obtain ⟨rfl, clears, draws, dispatches, frames⟩ := h
    refine ⟨rfl, ?_, ?_, ?_, by simpa [stray] using frames⟩ <;>
      rw [frameDue, ← List.append_assoc, List.countP_append]
    exacts [clears, draws, dispatches]

end Syscall.GraphicsDevice

def Phase.waiting : Phase → List Delivery
  | .deliver pending => pending
  | _ => []

namespace Console

def waiting (c : Console) : List Delivery :=
  match c.worker with
  | some (.busy job) => job.phase.waiting
  | _ => []

end Console

theorem Graphics.RenderQueue.deliverFrames (q : RenderQueue) {d : Delivery}
    (counted : d ≠ GraphicsDevice.stray) :
    (q.deliver d).frames = q.frames + [d.enqueued].countP isFrame := by
  cases d with
  | frame => rfl
  | command c =>
    cases c with
    | endFrame => exact absurd rfl counted
    | _ => rfl

namespace Screening
open Console

/- All that has been counted has been shown or is on its way. -/
structure Accounted (w : Screening) : Prop where
  fit : Fit w.console.devices
  installed : Installed w.console.config w.console.devices
  balances : w.console.devices.devices.graphics.Balances
    (w.commands ++ w.console.waiting.map Delivery.enqueued)
  counted : GraphicsDevice.stray ∉ w.console.waiting
  frames : w.console.queue.frames = w.commands.countP isFrame

variable {w : Screening} {job : Job}

theorem Accounted.still {v : Screening} (h : w.Accounted)
    (same : v.console.config = w.console.config ∧ v.console.devices = w.console.devices)
    (commands : v.commands = w.commands) (frames : v.console.queue.frames = w.console.queue.frames)
    (waiting : v.console.waiting = w.console.waiting) : v.Accounted := by
  obtain ⟨config, devices⟩ := same
  constructor
  · exact devices ▸ h.fit
  · exact config ▸ devices ▸ h.installed
  · exact devices ▸ commands ▸ waiting ▸ h.balances
  · exact waiting ▸ h.counted
  · exact frames.trans (commands ▸ h.frames)

theorem performAccounted (h : w.Accounted) (mine : w.console.waiting = []) :
    (w.put (w.console.perform job)).Accounted := by
  obtain ⟨ending, silent, -, -, handlers, deaf⟩ :=
    executedAlike (d := w.console) h.fit.deaf job rfl
  have stopped (stops : ending ≠ .continued) := executedStopped h.fit silent stops
  have balances := h.balances
  rw [mine, List.map_nil, List.append_nil] at balances
  have after := executedKeeps job (h.installed.respects
    (Devices.dispatcherKeeps (GraphicsDevice.balancesDecodes w.commands) _)) balances
  have limit := executedKeeps job (h.installed.respects
    (Devices.dispatcherKeeps (Devices.limitKept _) _)) h.installed.limit
  have installed : Installed w.console.config (w.console.executed job).1.devices :=
    ⟨handlers.trans h.installed.handlers, limit⟩
  rw [performRan silent]
  cases ending with
  | continued =>
    exact ⟨⟨deaf, rfl⟩, ⟨installed.handlers, installed.limit⟩, after.delivered,
      fun mine => after.frames (Array.mem_toList_iff.mp mine), h.frames⟩
  | halted | faulted =>
    refine ⟨stopped (by simp), installed, ?_, List.not_mem_nil, h.frames⟩
    exact (List.append_nil _).symm ▸ after

theorem deliverAccounted {core : Core Unit} {left : Nat} {first : Delivery}
    {rest : List Delivery} (h : w.Accounted) (mine : w.console.waiting = first :: rest) :
    (w.put (w.console.advanceJob ⟨core, left, .deliver (first :: rest)⟩)).Accounted := by
  let after := w.put (w.console.advanceJob ⟨core, left, .deliver (first :: rest)⟩)
  have queued : (w.console.queue.deliver first).pending.toList =
      w.console.queue.pending.toList ++ [first.enqueued] := RenderQueue.deliverPending _ first
  have commands : after.commands = w.commands ++ [first.enqueued] := by
    rw [Screening.commands, Screening.commands, List.append_assoc]
    exact congrArg (w.taken ++ ·) queued
  obtain ⟨fit, installed, balances, counted, frames⟩ := h
  rw [mine] at balances counted
  obtain ⟨proper, counted⟩ := not_or.mp (mt List.mem_cons.mpr counted)
  refine ⟨fit, installed, ?_, counted, ?_⟩
  · rw [commands, List.append_assoc]
    exact balances
  · rw [commands, List.countP_append, ← frames]
    exact RenderQueue.deliverFrames _ (Ne.symm proper)

theorem jobAccounted (h : w.Accounted) (mine : w.console.worker = some (.busy job)) :
    (w.put (w.console.advanceJob job)).Accounted := by
  have here : w.console.waiting = job.phase.waiting := by rw [Console.waiting, mine]
  obtain ⟨core, left, phase⟩ := job
  cases phase with
  | execute => exact performAccounted h here
  | deliver pending =>
    cases pending with
    | nil => exact h.still ⟨rfl, rfl⟩ rfl rfl here.symm
    | cons first rest => exact deliverAccounted h here
  | askStop | askState | askMode | confirmMode | confirmStop | showCount | goOn | judge | conclude
      | announce =>
    dsimp only [advanceJob]
    split <;> exact h.still ⟨rfl, rfl⟩ rfl rfl here.symm
  | leaveCount exit =>
    obtain _ | _ | (_ | _) | _ := exit <;> exact h.still ⟨rfl, rfl⟩ rfl rfl here.symm
  | _ => exact h.still ⟨rfl, rfl⟩ rfl rfl here.symm

theorem actAccounted (b : Bystander) (h : w.Accounted) : (w.act b).Accounted := by
  cases b with
  | drain => exact h.still ⟨rfl, rfl⟩ drainMild.commands rfl rfl
  | count => exact h.still ⟨rfl, rfl⟩ rfl rfl rfl
  | thread =>
    cases goes : w.console.advance with
    | none =>
      rw [act, goes]
      exact h
    | some after =>
      obtain ⟨job, mine, rfl⟩ := advanceBusy goes
      rw [act, goes]
      exact jobAccounted h mine

end Screening

end GameConsole
