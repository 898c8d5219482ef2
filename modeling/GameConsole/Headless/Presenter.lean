import GameConsole.Graphics.Queue

/-! A stand-in for a renderer: a thread that takes commands from the queue and counts them. -/
namespace GameConsole.Headless

open Graphics (RenderCommand RenderQueue)

structure Tally where
  commands : Nat := 0
  clears : Nat := 0
  draws : Nat := 0
  dispatches : Nat := 0
  frames : Nat := 0
  deriving DecidableEq, Repr

namespace Tally

def record (t : Tally) (c : RenderCommand) : Tally :=
  let t := { t with commands := t.commands + 1 }
  match c with
  | .clear .. => { t with clears := t.clears + 1 }
  | .draw .. | .drawIndexed .. => { t with draws := t.draws + 1 }
  | .dispatch .. => { t with dispatches := t.dispatches + 1 }
  | .endFrame => { t with frames := t.frames + 1 }

def recordAll (t : Tally) (cs : List RenderCommand) : Tally := cs.foldl record t

end Tally

inductive Presenting where
  | look
  | wait (last : Bool)
  | drain (last : Bool)
  | record (last : Bool) (drained : List RenderCommand)
  | ended
  deriving DecidableEq

structure Presenter where
  phase : Presenting := .look
  tally : Tally := {}

def Presenter.advance (p : Presenter) (done : Bool) (q : RenderQueue) : Presenter × RenderQueue :=
  let after (last : Bool) : Presenting := if last then .ended else .look
  match p.phase with
  | .look => ({ p with phase := .wait done }, q)
  | .wait last => ({ p with phase := if q.isEmpty then after last else .drain last }, q)
  | .drain last =>
    let (drained, q) := q.drain
    ({ p with phase := .record last drained }, q)
  | .record last drained =>
    (⟨after last, p.tally.recordAll drained⟩, q.countPopped drained.length)
  | .ended => (p, q)

end GameConsole.Headless
