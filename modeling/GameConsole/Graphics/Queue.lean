/-! Rendering and compute operations, and their hand-off from the decoder to the presenter: first
in, first out, with running totals. Every operation is a section under the queue's lock, followed,
for some, by an update of a counter outside it; the parts are separate here because other threads
may come between them. -/
namespace GameConsole.Graphics

abbrev FloatBits := UInt32

inductive RenderCommand where
  | clear (color : Vector FloatBits 4) (depth : FloatBits) (stencil : UInt32)
  | draw (vertices instances primitive : UInt32)
  | drawIndexed (indices instances : UInt32) (address : UInt64) (indexType primitive : UInt32)
  | dispatch (x y z : UInt32)
  | endFrame
  deriving DecidableEq

namespace RenderCommand

def clearBlack : RenderCommand := .clear #v[0, 0, 0, 0x3F800000] 0x3F800000 0

def isDraw : RenderCommand → Bool
  | .draw .. | .drawIndexed .. => true
  | _ => false

end RenderCommand

inductive Delivery where
  | command (c : RenderCommand)
  | frame
  deriving DecidableEq

structure RenderQueue where
  pending : Array RenderCommand
  totalPushed : Nat
  totalPopped : Nat
  frames : Nat
  deriving DecidableEq

namespace RenderQueue

def empty : RenderQueue := ⟨#[], 0, 0, 0⟩

def append (q : RenderQueue) (c : RenderCommand) : RenderQueue :=
  { q with pending := q.pending.push c, totalPushed := q.totalPushed + 1 }

def appendAll (q : RenderQueue) (cs : List RenderCommand) : RenderQueue :=
  { q with pending := q.pending.appendList cs }

def drain (q : RenderQueue) : List RenderCommand × RenderQueue :=
  (q.pending.toList, { q with pending := #[] })

def clear (q : RenderQueue) : RenderQueue := { q with pending := #[] }

def countPushed (q : RenderQueue) (n : Nat) : RenderQueue :=
  { q with totalPushed := q.totalPushed + n }

def countPopped (q : RenderQueue) (n : Nat) : RenderQueue :=
  { q with totalPopped := q.totalPopped + n }

def countFrame (q : RenderQueue) : RenderQueue := { q with frames := q.frames + 1 }

def push (q : RenderQueue) (c : RenderCommand) : RenderQueue := q.append c

def pushMany (q : RenderQueue) (cs : List RenderCommand) : RenderQueue :=
  (q.appendAll cs).countPushed cs.length

def endFrame (q : RenderQueue) : RenderQueue := (q.append .endFrame).countFrame

def popAll (q : RenderQueue) : List RenderCommand × RenderQueue :=
  let (drained, q) := q.drain
  (drained, q.countPopped drained.length)

def deliver (q : RenderQueue) : Delivery → RenderQueue
  | .command c => q.push c
  | .frame => q.endFrame

def deliverAll (q : RenderQueue) (ds : Array Delivery) : RenderQueue := ds.foldl deliver q

def length (q : RenderQueue) : Nat := q.pending.size

def isEmpty (q : RenderQueue) : Bool := q.pending.isEmpty

theorem pendingPush (q : RenderQueue) (c : RenderCommand) :
    (q.push c).pending.toList = q.pending.toList ++ [c] := by simp [push, append]

end RenderQueue

end GameConsole.Graphics
