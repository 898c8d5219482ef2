import GameConsole.Proofs.Graphics.Framing

/-! The packets of a buffer as a list. Decoding executes them all and no others, and what comes
of a packet depends on the rest of memory only through the buffer it refers to, if it does. -/
namespace GameConsole.Graphics

instance exceptDecidableEq {ε α : Type} [DecidableEq ε] [DecidableEq α] :
    DecidableEq (Except ε α)
  | .ok x, .ok y => decidable_of_iff (x = y) ⟨congrArg _, Except.ok.inj⟩
  | .error x, .error y => decidable_of_iff (x = y) ⟨congrArg _, Except.error.inj⟩
  | .ok _, .error _ => isFalse nofun
  | .error _, .ok _ => isFalse nofun

section Packets
open Decoder (wordAddress)
variable (m : Memory) (base : UInt64) (size : Nat)

def packetAt? (offset : Nat) : Option Packet :=
  match m.readU32 (wordAddress base offset) with
  | .error _ => none
  | .ok raw =>
    let header : PacketHeader := ⟨raw⟩
    if size < offset + 1 + header.follows then none
    else if header.type = .type3 then
      match m.readWords (wordAddress base (offset + 1)) header.follows with
      | .error _ => none
      | .ok words => some ⟨offset, header, words⟩
    else some ⟨offset, header, []⟩

def packetsFrom : Nat → Nat → List Packet
  | 0, _ => []
  | turns + 1, offset =>
    match packetAt? m base size offset with
    | none => []
    | some p => p :: packetsFrom turns (offset + 1 + p.header.follows)

/- Every packet has a word at least, so there are no more of them than words. -/
def packetsOf : List Packet := packetsFrom m base size size 0

variable {m : Memory} {base : UInt64} {size : Nat}

theorem soundPacketAt {p : Packet} (sound : p.Sound m base size) :
    packetAt? m base size p.offset = some p := by
  obtain ⟨offset, ⟨raw⟩, words⟩ := p
  obtain ⟨readable, fits, payload, bare⟩ := sound
  dsimp only at readable fits payload bare
  simp only [packetAt?, readable]
  rw [if_neg (by omega)]
  by_cases command : PacketHeader.type ⟨raw⟩ = .type3
  · rw [if_pos command, payload command]
  · rw [if_neg command, bare command]

theorem packetAtSound (offset : Nat) {p : Packet} (found : packetAt? m base size offset = some p) :
    p.Sound m base size := by
  unfold packetAt? at found
  split at found
  case h_1 => cases found
  case h_2 raw readable =>
    dsimp only at found
    split at found
    case isTrue => cases found
    case isFalse fits =>
      replace fits : offset + 1 + PacketHeader.follows ⟨raw⟩ ≤ size := by omega
      split at found
      case isFalse command =>
        cases found
        exact ⟨readable, fits, fun type => absurd type command, fun _ => rfl⟩
      case isTrue command =>
        split at found
        case h_1 => cases found
        case h_2 words payload =>
          cases found
          exact ⟨readable, fits, fun _ => payload, fun other => absurd command other⟩

theorem defectPacketAt {offset : Nat} {error : DecodeError}
    (defect : Defect m base size offset error) : packetAt? m base size offset = none := by
  cases defect with
  | header inside unreadable => simp only [packetAt?, unreadable]
  | @overflow h inside readable exceeds =>
    obtain ⟨raw⟩ := h
    simp only [packetAt?, readable]
    exact if_pos (by omega)
  | @payload h fault readable fits command unreadable =>
    obtain ⟨raw⟩ := h
    simp only [packetAt?, readable]
    rw [if_neg (by omega), if_pos command, unreadable]

theorem endPacketAt {offset : Nat} (ended : size ≤ offset) :
    packetAt? m base size offset = none := by
  unfold packetAt?
  split
  · rfl
  · exact if_pos (by omega)

theorem tilesPackets {offset last : Nat} {packets : List Packet}
    (tiles : Tiles offset last packets) (sound : ∀ p ∈ packets, p.Sound m base size)
    (stop : last = size ∨ ∃ error, Defect m base size last error) {turns : Nat}
    (enough : size ≤ offset + turns) : packetsFrom m base size turns offset = packets := by
  induction tiles generalizing turns with
  | done offset =>
    have stopped : packetAt? m base size offset = none := by
      obtain rfl | ⟨error, defect⟩ := stop
      · exact endPacketAt (Nat.le_refl _)
      · exact defectPacketAt defect
    cases turns with
    | zero => rfl
    | succ turns => simp only [packetsFrom, stopped]
  | @packet p last rest tail ih =>
    have head := sound p List.mem_cons_self
    have fits := head.fits
    cases turns with
    | zero => omega
    | succ turns =>
      simp only [packetsFrom, soundPacketAt head]
      rw [ih (fun q member => sound q (List.mem_cons_of_mem p member)) stop (by omega)]

theorem Packet.Sound.widen {p : Packet} (sound : p.Sound m base size) {larger : Nat}
    (wider : size ≤ larger) : p.Sound m base larger :=
  ⟨sound.readable, Nat.le_trans sound.fits wider, sound.payload, sound.bare⟩

theorem tilesAppend {first middle last : Nat} {packets later : List Packet}
    (tiles : Tiles first middle packets) (rest : Tiles middle last later) :
    Tiles first last (packets ++ later) := by
  induction tiles with
  | done _ => exact rest
  | packet p _ ih => exact .packet p (ih rest)

theorem framedPrefix {offset : Nat} {packets : List Packet}
    (framed : Framed m base size offset packets) (inside : offset ≤ size) :
    packets <+: packetsOf m base size := by
  obtain ⟨later, last, tiles, sound, stop⟩ := framingExists m base size offset inside
  refine ⟨later, (tilesPackets (tilesAppend framed.tiles tiles) ?_ stop (by omega)).symm⟩
  exact List.forall_mem_append.mpr ⟨framed.sound, sound⟩

end Packets

def Packet.reference? (p : Packet) : Option (UInt64 × Nat) :=
  if p.header.type = .type3 then
    match Request.ofPacket p.header.opcode p.payload with
    | .follow address words => some (address, words)
    | _ => none
  else none

namespace Decoder

section Performing
variable {f g : Follow} {d e : Decoder}

theorem performAgrees {p : Packet}
    (follows : ∀ address words, p.reference? = some (address, words) → ∀ {d e : Decoder},
      d.Agrees e → (f address words d).Agrees (g address words e)) (h : d.Agrees e) :
    (d.perform f p).Agrees (e.perform g p) := by
  unfold perform
  refine Agrees.countPacket ?_
  by_cases command : p.header.type = .type3
  · rw [if_pos command, if_pos command]
    refine Agrees.carryOutMet (fun address words asked => ?_) _ (h.notes _ _)
    exact follows address words (by simp only [Packet.reference?, command, asked, if_true])
      (h.notes _ _)
  · rwa [if_neg command, if_neg command]

theorem performReference (follows : FollowAgrees f f) {p : Packet} {address : UInt64} {words : Nat}
    (refers : p.reference? = some (address, words)) :
    (d.perform f p).Agrees (f address words d).countPacket := by
  unfold Packet.reference? at refers
  split at refers
  case isFalse => cases refers
  case isTrue command =>
    split at refers
    case h_2 => cases refers
    case h_1 address words asks =>
      cases refers
      rw [perform, if_pos command, execute, asks]
      exact (follows _ _ _ _ ((Agrees.refl d).note _)).countPacket

theorem performAllAgrees {packets : List Packet}
    (follows : ∀ p ∈ packets, ∀ address words, p.reference? = some (address, words) →
      ∀ {d e : Decoder}, d.Agrees e → (f address words d).Agrees (g address words e))
    (h : d.Agrees e) : (d.performAll f packets).Agrees (e.performAll g packets) := by
  induction packets generalizing d e with
  | nil => exact h
  | cons p packets ih =>
    obtain ⟨first, rest⟩ := List.forall_mem_cons.mp follows
    exact ih rest (performAgrees first h)

end Performing

theorem decodePackets (m : Memory) (limit levels : Nat) (base : UInt64) (size : Nat)
    (d : Decoder) :
    (decode m limit levels base size d).1.Agrees
      (d.performAll (followed m limit levels) (packetsOf m base size)) := by
  obtain ⟨packets, last, tiles, sound, stop⟩ := framingExists m base size 0 (Nat.zero_le _)
  have same : packetsOf m base size = packets :=
    tilesPackets tiles sound stop (Nat.le_add_left size 0)
  rw [same]
  exact (decodeFramed m limit levels base d ⟨tiles, sound⟩).2.2 stop

theorem decodeResult (m : Memory) {limit levels limit' levels' : Nat} (base : UInt64) (size : Nat)
    (d e : Decoder) :
    (decode m limit levels base size d).2 = (decode m limit' levels' base size e).2 := by
  obtain ⟨packets, last, tiles, sound, rfl | ⟨error, defect⟩⟩ :=
    framingExists m base size 0 (Nat.zero_le _)
  · rw [(decodeFramed m limit levels base d ⟨tiles, sound⟩).1 rfl,
      (decodeFramed m limit' levels' base e ⟨tiles, sound⟩).1 rfl]
  · rw [(decodeFramed m limit levels base d ⟨tiles, sound⟩).2.1 error defect,
      (decodeFramed m limit' levels' base e ⟨tiles, sound⟩).2.1 error defect]

end Decoder

end GameConsole.Graphics
