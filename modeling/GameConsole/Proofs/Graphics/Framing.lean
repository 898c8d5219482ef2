import GameConsole.Proofs.Graphics.Execution

/-! How a command buffer is cut into packets, and what decoding makes of it. The packets lie end
to end from the first word on, up to the end of the buffer or to the first that is not sound. All
of them have taken effect when decoding ends, and nothing else has. -/
namespace GameConsole.Graphics

namespace PacketHeader

def follows (h : PacketHeader) : Nat :=
  match h.type with
  | .type1 | .type2 => 0
  | .type0 | .type3 => h.payloadWords

end PacketHeader

structure Packet where
  offset : Nat
  header : PacketHeader
  payload : List UInt32
  deriving DecidableEq, Repr

/- Packets that lie end to end from the word `first` to the word `last`. -/
inductive Tiles : Nat → Nat → List Packet → Prop where
  | done (offset : Nat) : Tiles offset offset []
  | packet (p : Packet) {last : Nat} {rest : List Packet}
      (tail : Tiles (p.offset + 1 + p.header.follows) last rest) : Tiles p.offset last (p :: rest)

section Framing
open Decoder (wordAddress)
variable (m : Memory) (base : UInt64) (size : Nat)

structure Packet.Sound (p : Packet) : Prop where
  readable : m.readU32 (wordAddress base p.offset) = .ok p.header.raw
  fits : p.offset + 1 + p.header.follows ≤ size
  payload : p.header.type = .type3 →
    m.readWords (wordAddress base (p.offset + 1)) p.header.follows = .ok p.payload
  bare : p.header.type ≠ .type3 → p.payload = []

inductive Defect (offset : Nat) : DecodeError → Prop where
  | header {fault : MemoryFault} (inside : offset < size)
      (unreadable : m.readU32 (wordAddress base offset) = .error fault) :
      Defect offset (.memory fault)
  | overflow {h : PacketHeader} (inside : offset < size)
      (readable : m.readU32 (wordAddress base offset) = .ok h.raw)
      (exceeds : size - offset - 1 < h.follows) :
      Defect offset (.overflow offset h.follows (size - offset - 1))
  | payload {h : PacketHeader} {fault : MemoryFault}
      (readable : m.readU32 (wordAddress base offset) = .ok h.raw)
      (fits : offset + 1 + h.follows ≤ size) (command : h.type = .type3)
      (unreadable : m.readWords (wordAddress base (offset + 1)) h.follows = .error fault) :
      Defect offset (.memory fault)

theorem Defect.inside {m : Memory} {base : UInt64} {size offset : Nat} {error : DecodeError}
    (defect : Defect m base size offset error) : offset < size := by
  cases defect with
  | header inside _ => exact inside
  | overflow inside _ _ => exact inside
  | payload _ fits _ _ => omega

structure Framed (offset : Nat) (packets : List Packet) : Prop where
  tiles : Tiles 0 offset packets
  sound : ∀ p ∈ packets, p.Sound m base size

end Framing

namespace Decoder

def perform (follow : Follow) (d : Decoder) (p : Packet) : Decoder :=
  (if p.header.type = .type3 then d.execute follow p.header.opcode p.payload else d).countPacket

def performAll (follow : Follow) (d : Decoder) (packets : List Packet) : Decoder :=
  packets.foldl (perform follow) d

section Walking
variable {m : Memory} {base : UInt64} {size : Nat} {f g : Follow} {d e : Decoder}

theorem walkPacket (turns : Nat) (follows : FollowAgrees f g) {p : Packet}
    (sound : p.Sound m base size) (h : d.Agrees e) :
    ∃ after, after.Agrees (e.perform g p) ∧
      walk f m base size (turns + 1) p.offset d =
        walk f m base size turns (p.offset + 1 + p.header.follows) after := by
  obtain ⟨offset, ⟨raw⟩, words⟩ := p
  obtain ⟨readable, fits, payload, -⟩ := sound
  dsimp only at readable fits payload ⊢
  rw [walk, if_neg (by omega), readable]
  dsimp only
  cases type : PacketHeader.type ⟨raw⟩ with
  | type1 =>
    have other : e.perform g ⟨offset, ⟨raw⟩, words⟩ = e.countPacket := by simp [perform, type]
    rw [if_pos (.inl rfl), PacketHeader.follows, type, other]
    exact ⟨_, h.countPacket, rfl⟩
  | type2 =>
    have other : e.perform g ⟨offset, ⟨raw⟩, words⟩ = e.countPacket := by simp [perform, type]
    rw [if_pos (.inr rfl), PacketHeader.follows, type, other]
    exact ⟨_, h.countPacket, rfl⟩
  | type0 =>
    have other : e.perform g ⟨offset, ⟨raw⟩, words⟩ = e.countPacket := by simp [perform, type]
    simp only [PacketHeader.follows, type] at fits ⊢
    rw [if_neg (by simp), if_neg (by omega), if_neg (by simp), other]
    exact ⟨_, (h.note _).countPacket, rfl⟩
  | type3 =>
    have read := payload type
    have command : e.perform g ⟨offset, ⟨raw⟩, words⟩ =
        (e.execute g (PacketHeader.opcode ⟨raw⟩) words).countPacket := by simp [perform, type]
    simp only [PacketHeader.follows, type] at fits read ⊢
    rw [if_neg (by simp), if_neg (by omega), if_pos trivial, read, command]
    exact ⟨_, (h.execute follows _ _).countPacket, rfl⟩

theorem walkDefect (turns : Nat) {offset : Nat} {error : DecodeError}
    (defect : Defect m base size offset error) :
    ∃ after, after.Agrees d ∧ walk f m base size (turns + 1) offset d = (after, .error error) := by
  cases defect with
  | header inside unreadable =>
    rw [walk, if_neg (by omega), unreadable]
    exact ⟨d, .refl d, rfl⟩
  | @overflow h inside readable exceeds =>
    obtain ⟨raw⟩ := h
    have declares : ¬ (PacketHeader.type ⟨raw⟩ = .type1 ∨ PacketHeader.type ⟨raw⟩ = .type2) ∧
        PacketHeader.follows ⟨raw⟩ = PacketHeader.payloadWords ⟨raw⟩ := by
      unfold PacketHeader.follows at exceeds ⊢
      cases type : PacketHeader.type ⟨raw⟩ <;> simp_all
    rw [declares.2] at exceeds ⊢
    rw [walk, if_neg (by omega), readable]
    dsimp only
    rw [if_neg declares.1, if_pos exceeds]
    exact ⟨_, (Agrees.refl d).note _, rfl⟩
  | @payload h fault readable fits command unreadable =>
    obtain ⟨raw⟩ := h
    simp only [PacketHeader.follows, command] at fits unreadable
    rw [walk, if_neg (by omega), readable]
    dsimp only
    rw [command, if_neg (by simp), if_neg (by omega), if_pos rfl, unreadable]
    exact ⟨d, .refl d, rfl⟩

theorem walkEnd (turns : Nat) : walk f m base size turns size d = (d, .ok ()) := by
  cases turns with
  | zero => rfl
  | succ turns => rw [walk, if_pos (Nat.le_refl size)]

/- The turns are enough: each packet uses up one, and has a word at least. -/
theorem walkTiles (turns : Nat) (follows : FollowAgrees f g) {offset last : Nat}
    {packets : List Packet} (tiles : Tiles offset last packets)
    (sound : ∀ p ∈ packets, p.Sound m base size) (enough : size ≤ offset + turns) (h : d.Agrees e) :
    ∃ after rest, after.Agrees (e.performAll g packets) ∧ size ≤ last + rest ∧
      walk f m base size turns offset d = walk f m base size rest last after := by
  induction tiles generalizing turns d e with
  | done offset => exact ⟨d, turns, h, enough, rfl⟩
  | @packet p last rest tail ih =>
    have head := sound p List.mem_cons_self
    have fits := head.fits
    cases turns with
    | zero => omega
    | succ turns =>
      obtain ⟨next, agrees, stepped⟩ := walkPacket turns follows head h
      obtain ⟨after, left, done, room, walked⟩ := ih turns
        (fun q member => sound q (List.mem_cons_of_mem p member)) (by omega) agrees
      exact ⟨after, left, done, room, stepped.trans walked⟩

end Walking

end Decoder

theorem framingExists (m : Memory) (base : UInt64) (size offset : Nat) (inside : offset ≤ size) :
    ∃ packets last, Tiles offset last packets ∧ (∀ p ∈ packets, p.Sound m base size) ∧
      (last = size ∨ ∃ error, Defect m base size last error) := by
  have step (p : Packet) (sound : p.Sound m base size) (ih : p.offset < size →
      ∃ packets last, Tiles (p.offset + 1 + p.header.follows) last packets ∧
        (∀ q ∈ packets, q.Sound m base size) ∧
        (last = size ∨ ∃ error, Defect m base size last error)) :
      ∃ packets last, Tiles p.offset last packets ∧ (∀ q ∈ packets, q.Sound m base size) ∧
        (last = size ∨ ∃ error, Defect m base size last error) := by
    have fits := sound.fits
    obtain ⟨packets, last, tiles, all, stop⟩ := ih (by omega)
    exact ⟨p :: packets, last, .packet p tiles, List.forall_mem_cons.mpr ⟨sound, all⟩, stop⟩
  induction rest : size - offset using Nat.strongRecOn generalizing offset with
  | ind rest ih =>
    have stops (error : DecodeError) (defect : Defect m base size offset error) :
        ∃ packets last, Tiles offset last packets ∧ (∀ p ∈ packets, p.Sound m base size) ∧
          (last = size ∨ ∃ error, Defect m base size last error) :=
      ⟨[], offset, .done offset, by simp, .inr ⟨error, defect⟩⟩
    by_cases ended : offset = size
    · exact ⟨[], offset, .done offset, by simp, .inl ended⟩
    have within : offset < size := by omega
    cases readable : m.readU32 (Decoder.wordAddress base offset) with
    | error fault => exact stops _ (.header within readable)
    | ok raw =>
      let header : PacketHeader := ⟨raw⟩
      by_cases exceeds : size - offset - 1 < header.follows
      · exact stops _ (.overflow (h := header) within readable exceeds)
      have fits : offset + 1 + header.follows ≤ size := by omega
      have later (_ : offset < size) := ih _ (by omega) (offset + 1 + header.follows) fits rfl
      by_cases command : header.type = .type3
      · cases payload : m.readWords (Decoder.wordAddress base (offset + 1)) header.follows with
        | error fault => exact stops _ (.payload readable fits command payload)
        | ok words =>
          exact step ⟨offset, header, words⟩
            ⟨readable, fits, fun _ => payload, fun other => absurd command other⟩ later
      · exact step ⟨offset, header, []⟩
          ⟨readable, fits, fun type => absurd type command, fun _ => rfl⟩ later

namespace Decoder

theorem decodeFramed (m : Memory) (limit levels : Nat) (base : UInt64) {size offset : Nat}
    {packets : List Packet} (d : Decoder) (framed : Framed m base size offset packets) :
    (offset = size → (decode m limit levels base size d).2 = .ok ()) ∧
    (∀ error, Defect m base size offset error →
      (decode m limit levels base size d).2 = .error error) ∧
    ((offset = size ∨ ∃ error, Defect m base size offset error) →
      (decode m limit levels base size d).1.Agrees
        (d.performAll (followed m limit levels) packets)) := by
  obtain ⟨after, rest, agrees, room, walked⟩ := walkTiles size (followingFollowed m limit levels)
    framed.tiles framed.sound (Nat.le_add_left size 0) (Agrees.refl d)
  rw [decodeWalk, walked]
  have fails (error : DecodeError) (defect : Defect m base size offset error) :
      ∃ broken, broken.Agrees after ∧
        walk (following m limit levels) m base size rest offset after = (broken, .error error) := by
    cases rest with
    | zero => exact absurd defect.inside (by omega)
    | succ rest => exact walkDefect rest defect
  refine ⟨?_, ?_, ?_⟩
  · rintro rfl
    rw [walkEnd]
  · intro error defect
    obtain ⟨broken, _, stopped⟩ := fails error defect
    rw [stopped]
  · rintro (rfl | ⟨error, defect⟩)
    · rwa [walkEnd]
    · obtain ⟨broken, same, stopped⟩ := fails error defect
      rw [stopped]
      exact same.trans agrees

theorem processExecutesSoundPackets (m : Memory) (limit : UInt32) (base : UInt64) (size : UInt32)
    (d : Decoder) :
    let outcome := d.process m limit base size
    (outcome.2 = .ok () ↔ ∃ packets, Framed m base size.toNat size.toNat packets) ∧
    (∀ error, outcome.2 = .error error ↔
      ∃ packets offset, Framed m base size.toNat offset packets ∧
        Defect m base size.toNat offset error) ∧
    (∀ packets offset, Framed m base size.toNat offset packets →
      (offset = size.toNat ∨ ∃ error, Defect m base size.toNat offset error) →
      outcome.1.Agrees (d.performAll (followed m limit.toNat limit.toNat) packets)) := by
  intro outcome
  have framed {offset : Nat} {packets : List Packet}
      (h : Framed m base size.toNat offset packets) :=
    decodeFramed m limit.toNat limit.toNat base d h
  obtain ⟨packets, last, tiles, sound, stop⟩ := framingExists m base size.toNat 0 (Nat.zero_le _)
  have here : Framed m base size.toNat last packets := ⟨tiles, sound⟩
  refine ⟨⟨fun ok => ?whole, fun ⟨_, whole⟩ => (framed whole).1 rfl⟩,
    fun error => ⟨fun failed => ?broken, fun ⟨_, _, h, defect⟩ => (framed h).2.1 error defect⟩,
    fun _ _ h => (framed h).2.2⟩
  case whole =>
    obtain rfl | ⟨error, defect⟩ := stop
    · exact ⟨packets, here⟩
    · exact absurd (ok.symm.trans ((framed here).2.1 error defect)) (by simp)
  case broken =>
    obtain rfl | ⟨found, defect⟩ := stop
    · exact absurd (failed.symm.trans ((framed here).1 rfl)) (by simp)
    · obtain rfl : error = found :=
        Except.error.inj (failed.symm.trans ((framed here).2.1 found defect))
      exact ⟨packets, last, here, defect⟩

end Decoder

end GameConsole.Graphics
