import GameConsole.Proofs.Graphics.Nesting
import GameConsole.Proofs.Graphics.Packets

/-! A buffer that another refers to might as well stand in the place of the reference. To decode
the whole is to decode the packets before the reference, the buffer referred to and the words
after, one after the other, as long as no reference is refused. -/
namespace GameConsole.Graphics

def DecodeError.shift (words : Nat) : DecodeError → DecodeError
  | .overflow offset declared remaining => .overflow (words + offset) declared remaining
  | error => error

namespace Decoder

def Within (m : Memory) : Nat → UInt64 → Nat → Prop
  | 0, base, size => ∀ p ∈ packetsOf m base size, p.reference? = none
  | levels + 1, base, size =>
    ∀ p ∈ packetsOf m base size, ∀ target ∈ p.reference?, Within m levels target.1 target.2

instance decidableWithin (m : Memory) :
    (levels : Nat) → (base : UInt64) → (size : Nat) → Decidable (Within m levels base size)
  | 0, base, size =>
    inferInstanceAs (Decidable (∀ p ∈ packetsOf m base size, p.reference? = none))
  | levels + 1, base, size =>
    have := decidableWithin m levels
    inferInstanceAs (Decidable (∀ p ∈ packetsOf m base size, ∀ target ∈ p.reference?,
      Within m levels target.1 target.2))

theorem decodeDeeper (m : Memory) (limit : Nat) {levels : Nat} {base : UInt64} {size : Nat}
    (within : Within m levels base size) {d e : Decoder} (h : d.Agrees e) :
    (decode m limit levels base size d).1.Agrees (decode m limit (levels + 1) base size e).1 := by
  induction levels generalizing base size d e with
  | zero =>
    refine (decodePackets ..).trans (Agrees.trans ?_ (decodePackets ..).symm)
    refine performAllAgrees (fun p member address words met => ?_) h
    cases (within p member).symm.trans met
  | succ levels ih =>
    refine (decodePackets ..).trans (Agrees.trans ?_ (decodePackets ..).symm)
    exact performAllAgrees (fun p member address words met d e h =>
      ih (within p member (address, words) met) h) h

/- One packet more is counted, and nothing else tells the decoders apart but their journals. -/
def Ahead (d e : Decoder) : Prop := d.Agrees e.countPacket

def Steady (f : Follow) : Prop :=
  ∀ (address : UInt64) (words : Nat) {d e : Decoder}, d.Ahead e →
    (f address words d).Ahead (f address words e)

namespace Ahead

variable {d e : Decoder}

theorem countPacket (h : d.Ahead e) : d.countPacket.Ahead e.countPacket := Agrees.countPacket h

theorem notes (h : d.Ahead e) (first second : Event) : (d.note first).Ahead (e.note second) :=
  Agrees.notes h first second

theorem carryOut {f : Follow} (steady : Steady f) (opcode : UInt8) (request : Request)
    (h : d.Ahead e) : (d.carryOut f opcode request).Ahead (e.carryOut f opcode request) := by
  cases request with
  | follow address words => exact steady address words h
  | _ =>
    obtain ⟨state, counts, commands, journal⟩ := d
    obtain ⟨rfl, rfl, rfl⟩ := h
    exact ⟨rfl, rfl, rfl⟩

theorem execute {f : Follow} (steady : Steady f) (opcode : UInt8) (payload : List UInt32)
    (h : d.Ahead e) : (d.execute f opcode payload).Ahead (e.execute f opcode payload) :=
  carryOut steady opcode _ (h.notes _ _)

end Ahead

theorem wordAddressAdd (base : UInt64) (first second : Nat) :
    wordAddress base (first + second) = wordAddress (wordAddress base first) second := by
  simp only [wordAddress, Nat.mul_add, Nat.toUInt64_eq, UInt64.ofNat_add, UInt64.add_assoc]

theorem walkBehind {f : Follow} (steady : Steady f) (m : Memory) (base : UInt64)
    (behind size turns offset : Nat) {d e : Decoder} (h : d.Ahead e) :
    let whole := walk f m base (behind + size) turns (behind + offset) d
    let part := walk f m (wordAddress base behind) size turns offset e
    whole.1.Ahead part.1 ∧ whole.2 = part.2.mapError (·.shift behind) := by
  dsimp only
  induction turns generalizing offset d e with
  | zero => exact ⟨h, rfl⟩
  | succ turns ih =>
    have remaining : behind + size - (behind + offset) - 1 = size - offset - 1 := by omega
    unfold walk
    simp only [Nat.add_le_add_iff_left, remaining, Nat.add_assoc behind, wordAddressAdd]
    split
    · exact ⟨h, rfl⟩
    · split
      · exact ⟨h, rfl⟩
      · split
        · exact ih _ h.countPacket
        · split
          · exact ⟨h.notes _ _, rfl⟩
          · split
            · split
              · exact ⟨h, rfl⟩
              · exact ih _ (h.execute steady _ _).countPacket
            · exact ih _ (h.notes _ _).countPacket

theorem followingSteady (m : Memory) (limit levels : Nat) : Steady (following m limit levels) := by
  induction levels with
  | zero => exact fun _ _ _ _ h => h.notes _ _
  | succ levels ih =>
    intro address words d e h
    have start : wordAddress address 0 = address := UInt64.add_zero address
    have decoded := (walkBehind ih m address 0 words words 0
      (h.notes (entered address words (limit - (levels + 1)))
        (entered address words (limit - (levels + 1))))).1
    rw [Nat.zero_add, start, ← decodeWalk, ← decodeWalk] at decoded
    exact (settleAgrees _ _).trans (Agrees.trans decoded (settleAgrees _ _).symm.countPacket)

theorem walkEnough (f : Follow) (m : Memory) (base : UInt64) {size turns : Nat} (offset : Nat)
    (d : Decoder) (enough : size ≤ offset + turns) (extra : Nat) :
    walk f m base size (turns + extra) offset d = walk f m base size turns offset d := by
  induction extra with
  | zero => rfl
  | succ extra ih => exact (walkMore f m base size (turns + extra) offset d (by omega)).trans ih

theorem decodeBehind (m : Memory) (limit levels : Nat) (base : UInt64) (behind : Nat)
    {size turns : Nat} (enough : size ≤ turns) {d e : Decoder} (h : d.Ahead e) :
    let whole := walk (following m limit levels) m base (behind + size) turns behind d
    let part := decode m limit levels (wordAddress base behind) size e
    whole.1.Ahead part.1 ∧ whole.2 = part.2.mapError (·.shift behind) := by
  obtain ⟨extra, rfl⟩ := Nat.exists_eq_add_of_le enough
  have behindIt := walkBehind (followingSteady m limit levels) m base behind size (size + extra) 0 h
  rwa [walkEnough _ _ _ _ _ (Nat.le_add_left size 0), ← decodeWalk] at behindIt

theorem withinReference {m : Memory} {levels : Nat} {base : UInt64} {size : Nat}
    (within : Within m levels base size) {p : Packet} (met : p ∈ packetsOf m base size)
    {address : UInt64} {words : Nat} (refers : p.reference? = some (address, words)) :
    ∃ below, levels = below + 1 ∧ Within m below address words := by
  cases levels with
  | zero => cases (within p met).symm.trans refers
  | succ below => exact ⟨below, rfl, within p met (address, words) refers⟩

theorem performInlined (m : Memory) (limit : Nat) {levels : Nat} {p : Packet} {address : UInt64}
    {words : Nat} (refers : p.reference? = some (address, words))
    (within : Within m levels address words) {d e : Decoder} (h : d.Agrees e) :
    (d.perform (followed m limit (levels + 1)) p).Ahead
      (decode m limit (levels + 1) address words e).1 :=
  (performReference (followedAgrees m limit (levels + 1)) refers).trans
    (decodeDeeper m limit within h).countPacket

theorem referenceInlined (m : Memory) (limit : UInt32) (base : UInt64) (before rest size : UInt32)
    (d : Decoder) {packets : List Packet} {header : PacketHeader} {low high control : UInt32}
    {more : List UInt32} (framed : Framed m base before.toNat before.toNat packets)
    (sound : Packet.Sound m base size.toNat
      ⟨before.toNat, header, low :: high :: control :: more⟩)
    (command : header.type = .type3) (indirect : header.opcode = Opcode.indirectBuffer)
    (filled : before.toNat + 1 + header.follows + rest.toNat = size.toNat)
    (within : Within m limit.toNat base size.toNat) :
    let behind := before.toNat + 1 + header.follows
    let whole := d.process m limit base size
    let first := d.process m limit base before
    let second := first.1.process m limit (Request.joinWords low (high &&& 0xFFFF))
      (control &&& 0xFFFFF)
    let third := second.1.process m limit (wordAddress base behind) rest
    whole.1.Agrees third.1.countPacket ∧ whole.2 = third.2.mapError (·.shift behind) := by
  intro behind whole first second third
  let reference : Packet := ⟨before.toNat, header, low :: high :: control :: more⟩
  have refers : reference.reference? =
      some (Request.joinWords low (high &&& 0xFFFF), (control &&& 0xFFFFF).toNat) := by
    simp only [reference, Packet.reference?, command, indirect, if_true]
    rfl
  have upTo : Framed m base size.toNat behind (packets ++ [reference]) := by
    refine ⟨tilesAppend framed.tiles (.packet reference (.done behind)), ?_⟩
    refine List.forall_mem_append.mpr ⟨fun p member => ?_, by simpa using sound⟩
    exact (framed.sound p member).widen (by omega)
  have met : reference ∈ packetsOf m base size.toNat :=
    (framedPrefix upTo (by omega)).subset (by simp)
  obtain ⟨levels, depth, nested⟩ := withinReference within met refers
  have started : (d.performAll (followed m limit.toNat limit.toNat) packets).Agrees first.1 :=
    ((decodeFramed m limit.toNat limit.toNat base d framed).2.2 (.inl rfl)).symm
  obtain ⟨after, left, agrees, room, walked⟩ := walkTiles size.toNat
    (followingFollowed m limit.toNat limit.toNat) upTo.tiles upTo.sound (Nat.le_add_left _ _)
    (Agrees.refl d)
  have arrived : after.Ahead second.1 := by
    rw [performAll, List.foldl_append] at agrees
    simp only [second, process, depth] at started agrees ⊢
    exact agrees.trans (performInlined m (levels + 1) refers nested started)
  have onward := decodeBehind m limit.toNat limit.toNat base behind
    (show rest.toNat ≤ left by omega) arrived
  rw [filled, ← walked, ← decodeWalk] at onward
  exact onward

theorem referenceInlinedBroken :
    let draw : UInt32 := (PacketHeader.build Opcode.drawIndexAuto 2 0).raw
    let instances : UInt32 := (PacketHeader.build Opcode.numInstances 1 0).raw
    let header : PacketHeader := .build Opcode.indirectBuffer 3 0
    let words : List UInt32 := [0x80000000, header.raw, 48, 0, 3, draw, 5, 2, draw, 0, 0, 0,
      instances, 7, draw]
    let m := (Memory.zeros 6 (by decide) false).store 0 (words.flatMap PlainData.encode)
    let d : Decoder := ⟨.initial, {}, #[], .empty⟩
    let whole := d.process m 1 0 9
    Within m 1 0 9 ∧ whole.2 = .error (.overflow 8 2 0) ∧
      whole.1.commands = #[.draw 5 7 d.state.primitive] ∧ whole.1.counts = ⟨4, 1, 0⟩ := by
  intro draw instances header words m d whole
  have filler : Packet.Sound m 0 1 ⟨0, ⟨0x80000000⟩, []⟩ := packetAtSound 0 (by decide +kernel)
  have sound : Packet.Sound m 0 9 ⟨1, header, [48, 0, 3]⟩ := packetAtSound 1 (by decide +kernel)
  have framed : Framed m 0 1 1 [⟨0, ⟨0x80000000⟩, []⟩] :=
    ⟨.packet ⟨0, ⟨0x80000000⟩, []⟩ (.done 1), by simpa using filler⟩
  have within : Within m 1 0 9 := by decide +kernel
  have inlined := referenceInlined m 1 0 1 4 9 d framed sound (by decide) (by decide) (by decide)
    within
  refine ⟨within, inlined.2.trans (by decide +kernel), ?_, ?_⟩
  · exact inlined.1.commands.trans (by decide +kernel)
  · exact inlined.1.counts.trans (by decide +kernel)

end Decoder

end GameConsole.Graphics
