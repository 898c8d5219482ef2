import GameConsole.Proofs.Graphics.Inlining
import Mathlib.Data.List.Basic
import Mathlib.Data.List.Flatten

/-! Nested buffers as one list of packets. All that a reference does is to have another buffer
decoded, so whatever is nested in a buffer can be written out before it, and what has been counted
can be read off the list. A limit on the nesting leaves packets out and puts none in. -/
namespace GameConsole.Graphics

/- The packets of a buffer and of those nested in it, up to `levels` deep, in the order in which
they are done with. A reference is done with when the buffer that it refers to is. -/
def unfolded (m : Memory) : Nat → UInt64 → Nat → List Packet
  | 0, base, size => packetsOf m base size
  | levels + 1, base, size => (packetsOf m base size).flatMap fun p =>
    (p.reference?.elim [] fun target => unfolded m levels target.1 target.2) ++ [p]

namespace Decoder

section Unfolding
variable {m : Memory} {shallow deep : Nat} {base : UInt64} {size : Nat}

theorem unfoldedNone : unfolded m 0 base size = (packetsOf m base size).flatMap fun p => [p] :=
  (List.flatMap_singleton' _).symm

theorem unfoldedSublist (le : shallow ≤ deep) :
    (unfolded m shallow base size).Sublist (unfolded m deep base size) := by
  induction shallow generalizing deep base size with
  | zero =>
    cases deep with
    | zero => exact .refl _
    | succ deep =>
      rw [unfoldedNone]
      exact .flatMap_right _ fun p _ => List.sublist_append_right _ _
  | succ shallow ih =>
    cases deep with
    | zero => exact absurd le (Nat.not_succ_le_zero shallow)
    | succ deep =>
      refine .flatMap_right _ fun p _ => ?_
      cases p.reference? with
      | none => exact .refl _
      | some target => exact (ih (Nat.le_of_succ_le_succ le)).append (.refl _)

theorem unfoldedWithin (within : Within m shallow base size) (le : shallow ≤ deep) :
    unfolded m shallow base size = unfolded m deep base size := by
  induction shallow generalizing deep base size with
  | zero =>
    cases deep with
    | zero => rfl
    | succ deep =>
      rw [unfoldedNone]
      refine List.flatMap_congr fun p met => ?_
      rw [within p met]
      rfl
  | succ shallow ih =>
    cases deep with
    | zero => exact absurd le (Nat.not_succ_le_zero shallow)
    | succ deep =>
      refine List.flatMap_congr fun p met => ?_
      cases refers : p.reference? with
      | none => rfl
      | some target =>
        have nested := ih (within p met target refers) (Nat.le_of_succ_le_succ le)
        exact congrArg (· ++ [p]) nested

end Unfolding

def passing : Follow := fun _ _ d => d

section Decoding
variable {d e : Decoder}

theorem passingAgrees (h : d.Agrees e) (packets : List Packet) :
    (d.performAll passing packets).Agrees (e.performAll passing packets) :=
  performAllAgrees (fun _ _ _ _ _ _ _ h => h) h

theorem performAllAppend (follow : Follow) (first second : List Packet) :
    d.performAll follow (first ++ second) = (d.performAll follow first).performAll follow second :=
  List.foldl_append

theorem performUnfolded {f : Follow} {below : UInt64 → Nat → List Packet}
    (follows : ∀ address words {d e : Decoder}, d.Agrees e →
      (f address words d).Agrees (e.performAll passing (below address words)))
    (packets : List Packet) (h : d.Agrees e) :
    (d.performAll f packets).Agrees (e.performAll passing (packets.flatMap fun p =>
      (p.reference?.elim [] fun target => below target.1 target.2) ++ [p])) := by
  have steady : FollowAgrees f f := fun address words d e h =>
    (follows address words h).trans (follows address words (.refl e)).symm
  induction packets generalizing d e with
  | nil => exact h
  | cons p packets ih =>
    rw [List.flatMap_cons, performAllAppend, performAllAppend]
    refine ih ?_
    cases refers : p.reference? with
    | none =>
      refine performAgrees (fun address words met => ?_) h
      cases refers.symm.trans met
    | some target =>
      have alone := performReference (f := passing) (fun _ _ _ _ h => h) refers
        (d := e.performAll passing (below target.1 target.2))
      refine (performReference steady refers).trans (Agrees.trans ?_ alone.symm)
      exact (follows target.1 target.2 h).countPacket

theorem decodeUnfolded (m : Memory) (limit levels : Nat) (base : UInt64) (size : Nat)
    (h : d.Agrees e) :
    (decode m limit levels base size d).1.Agrees
      (e.performAll passing (unfolded m levels base size)) := by
  induction levels generalizing base size d e with
  | zero => exact (decodePackets ..).trans (passingAgrees h _)
  | succ levels ih =>
    exact (decodePackets ..).trans
      (performUnfolded (fun address words _ _ h => ih address words h) _ h)

end Decoding

end Decoder

namespace Request

def draws : Request → Bool
  | .draw .. | .drawIndexed .. | .drawIndexedFrom .. => true
  | _ => false

def dispatches : Request → Bool
  | .dispatch .. => true
  | _ => false

end Request

def Packet.request (p : Packet) : Request :=
  if p.header.type = .type3 then .ofPacket p.header.opcode p.payload else .nothing

namespace Decoder

theorem performCounts (d : Decoder) (p : Packet) :
    (d.perform passing p).counts =
      ⟨d.counts.packets + 1, d.counts.draws + [p].countP (·.request.draws),
        d.counts.dispatches + [p].countP (·.request.dispatches)⟩ := by
  unfold perform
  by_cases command : p.header.type = .type3
  · have asks : p.request = .ofPacket p.header.opcode p.payload := if_pos command
    rw [if_pos command, execute, List.countP_singleton, List.countP_singleton, asks]
    cases Request.ofPacket p.header.opcode p.payload <;> rfl
  · have asks : p.request = .nothing := if_neg command
    rw [if_neg command, List.countP_singleton, List.countP_singleton, asks]
    rfl

theorem performAllCounts (d : Decoder) (packets : List Packet) :
    (d.performAll passing packets).counts =
      ⟨d.counts.packets + packets.length, d.counts.draws + packets.countP (·.request.draws),
        d.counts.dispatches + packets.countP (·.request.dispatches)⟩ := by
  induction packets generalizing d with
  | nil => rfl
  | cons p packets ih =>
    have both (asks : Packet → Bool) :
        (p :: packets).countP asks = [p].countP asks + packets.countP asks := by
      rw [← List.countP_append, List.singleton_append]
    rw [performAll, List.foldl_cons, ← performAll, ih, performCounts, both, both, List.length_cons]
    simp only [Nat.add_assoc, Nat.add_comm 1]

/- To allow for more nesting changes the state in which later packets are met, but neither their
number nor the result; and it changes nothing at all where no reference has been refused. -/
theorem deeperDecodesMore (m : Memory) (base : UInt64) (size : UInt32) (d : Decoder)
    {shallow deep : UInt32} (le : shallow ≤ deep) :
    let less := d.process m shallow base size
    let more := d.process m deep base size
    less.1.counts.packets ≤ more.1.counts.packets ∧
    less.1.counts.draws ≤ more.1.counts.draws ∧
    less.1.counts.dispatches ≤ more.1.counts.dispatches ∧
    less.2 = more.2 ∧
    (Within m shallow.toNat base size.toNat → less.1.Agrees more.1) := by
  intro less more
  have levels : shallow.toNat ≤ deep.toNat := UInt32.le_iff_toNat_le.mp le
  have first : less.1.Agrees (d.performAll passing (unfolded m shallow.toNat base size.toNat)) :=
    decodeUnfolded m _ _ base size.toNat (.refl d)
  have second : more.1.Agrees (d.performAll passing (unfolded m deep.toNat base size.toNat)) :=
    decodeUnfolded m _ _ base size.toNat (.refl d)
  have part : (unfolded m shallow.toNat base size.toNat).Sublist
      (unfolded m deep.toNat base size.toNat) := unfoldedSublist levels
  rw [first.counts, second.counts, performAllCounts, performAllCounts]
  refine ⟨?_, ?_, ?_, decodeResult m base size.toNat d d, fun within => ?_⟩
  · exact Nat.add_le_add_left part.length_le _
  · exact Nat.add_le_add_left part.countP_le _
  · exact Nat.add_le_add_left part.countP_le _
  · rw [unfoldedWithin within levels] at first
    exact first.trans second.symm

theorem deeperDecodesMoreOfItself :
    let draw : UInt32 := (PacketHeader.build Opcode.drawIndexAuto 2 0).raw
    let refer : UInt32 := (PacketHeader.build Opcode.indirectBuffer 3 0).raw
    let words : List UInt32 := [draw, 5, 2, refer, 0, 0, 7, refer, 44, 0, 3, draw, 7, 1]
    let m := (Memory.zeros 6 (by decide) false).store 0 (words.flatMap PlainData.encode)
    let d : Decoder := ⟨.initial, {}, #[], .empty⟩
    let less := d.process m 1 0 7
    let more := d.process m 3 0 7
    let enough := d.process m 1 28 7
    let ample := d.process m 3 28 7
    (less.1.counts = ⟨4, 2, 0⟩ ∧ more.1.counts.draws = 4 ∧
      less.1.counts.draws ≤ more.1.counts.draws ∧ more.2 = .ok ()) ∧
    Within m 1 28 7 ∧ ¬ Within m 0 28 7 ∧ ample.1.counts = ⟨3, 2, 0⟩ ∧
      enough.1.Agrees ample.1 ∧ enough.2 = ample.2 := by
  intro draw refer words m d less more enough ample
  have le : (1 : UInt32) ≤ 3 := by decide
  obtain ⟨-, draws, -, same, -⟩ := deeperDecodesMore m 0 7 d le
  obtain ⟨-, -, -, result, agrees⟩ := deeperDecodesMore m 28 7 d le
  have within : Within m 1 28 7 := by decide +kernel
  exact ⟨⟨by decide +kernel, by decide +kernel, draws, same.symm.trans (by decide +kernel)⟩,
    within, by decide +kernel, by decide +kernel, agrees within, result⟩

end Decoder

end GameConsole.Graphics
