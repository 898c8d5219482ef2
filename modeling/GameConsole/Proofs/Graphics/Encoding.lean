import GameConsole.Proofs.Graphics.Packets
import GameConsole.Proofs.Memory.Holding

/-! Writing command buffers. A header word is what its four fields make it, so that a command can be
put together from an opcode, a shader type and a payload, and taken apart again. A list of commands
with fillers between them that is written to memory is decoded to that list. -/
namespace GameConsole.Graphics

def PacketType.bits : PacketType → UInt32
  | .type0 => 0
  | .type1 => 1
  | .type2 => 2
  | .type3 => 3

namespace PacketHeader

def ofFields (type : PacketType) (count : UInt32) (opcode shaderType : UInt8) : PacketHeader :=
  ⟨(type.bits <<< 30) ||| (count <<< 16) ||| (opcode.toUInt32 <<< 8) ||| shaderType.toUInt32⟩

theorem placedNat (field : UInt32) (place : Nat) (low : place < 32)
    (fits : field.toNat * 2 ^ place < 2 ^ 32) :
    (field <<< place.toUInt32).toNat = field.toNat * 2 ^ place := by
  rw [UInt32.toNat_shiftLeft, Nat.toUInt32_eq, UInt32.toNat_ofNat',
    Nat.mod_eq_of_lt (show place < 2 ^ 32 by omega), Nat.mod_eq_of_lt low, Nat.shiftLeft_eq,
    Nat.mod_eq_of_lt fits]

theorem joinedNat {high low : UInt32} {k : Nat} (above : 2 ^ k ∣ high.toNat)
    (below : low.toNat < 2 ^ k) : (high ||| low).toNat = high.toNat + low.toNat := by
  obtain ⟨multiple, same⟩ := above
  rw [UInt32.toNat_or, same, Nat.two_pow_add_eq_or_of_lt below]

theorem ofFieldsNat (type : PacketType) {count : UInt32} (opcode shaderType : UInt8)
    (declarable : count.toNat < 2 ^ 14) :
    (ofFields type count opcode shaderType).raw.toNat =
      type.bits.toNat * 2 ^ 30 + count.toNat * 2 ^ 16 + opcode.toNat * 2 ^ 8 +
        shaderType.toNat := by
  have kind : type.bits.toNat < 4 := by cases type <;> decide
  have code := opcode.toNat_lt
  have shader := shaderType.toNat_lt
  have first : (type.bits <<< 30).toNat = type.bits.toNat * 2 ^ 30 :=
    placedNat type.bits 30 (by omega) (by omega)
  have second : (count <<< 16).toNat = count.toNat * 2 ^ 16 :=
    placedNat count 16 (by omega) (by omega)
  have third : (opcode.toUInt32 <<< 8).toNat = opcode.toNat * 2 ^ 8 := by
    rw [← UInt8.toNat_toUInt32] at code ⊢
    exact placedNat opcode.toUInt32 8 (by omega) (by omega)
  have upper : ((type.bits <<< 30) ||| (count <<< 16)).toNat = _ :=
    joinedNat (k := 30) (by omega) (by omega)
  have middle : ((type.bits <<< 30) ||| (count <<< 16) ||| (opcode.toUInt32 <<< 8)).toNat = _ :=
    joinedNat (k := 16) (by omega) (by omega)
  rw [ofFields, joinedNat (k := 8) (by omega) (by rw [UInt8.toNat_toUInt32]; omega), middle, upper,
    first, second, third, UInt8.toNat_toUInt32]

theorem countNat (h : PacketHeader) : h.count.toNat = h.raw.toNat / 2 ^ 16 % 2 ^ 14 := by
  rw [count, UInt32.toNat_and]
  refine (Nat.and_two_pow_sub_one_eq_mod _ 14).trans ?_
  rw [UInt32.toNat_shiftRight, Nat.shiftRight_eq_div_pow]
  rfl

theorem opcodeNat (h : PacketHeader) : h.opcode.toNat = h.raw.toNat / 2 ^ 8 % 2 ^ 8 := by
  rw [opcode, UInt32.toNat_toUInt8, UInt32.toNat_shiftRight, Nat.shiftRight_eq_div_pow]
  rfl

theorem shaderTypeNat (h : PacketHeader) : h.shaderType.toNat = h.raw.toNat % 2 ^ 8 :=
  UInt32.toNat_toUInt8 h.raw

theorem typeNat (h : PacketHeader) : h.type.bits.toNat = h.raw.toNat / 2 ^ 30 := by
  have small := h.raw.toNat_lt
  have top : (h.raw >>> 30).toNat = h.raw.toNat / 2 ^ 30 := by
    rw [UInt32.toNat_shiftRight, Nat.shiftRight_eq_div_pow]
    rfl
  have bits : h.type.bits = h.raw >>> 30 := by
    have below : h.raw >>> 30 < 4 := by
      rw [UInt32.lt_iff_toNat_lt, top]
      change _ < 4
      omega
    unfold type
    generalize h.raw >>> 30 = bits at below
    grind [PacketType.bits]
  rw [bits, top]

theorem bitsInjective {a b : PacketType} (same : a.bits = b.bits) : a = b := by
  revert same
  cases a <;> cases b <;> decide

theorem ofFieldsSame (h : PacketHeader) : ofFields h.type h.count h.opcode h.shaderType = h := by
  have bound := h.raw.toNat_lt
  have number := ofFieldsNat h.type h.opcode h.shaderType h.countLt
  rw [typeNat, countNat, opcodeNat, shaderTypeNat] at number
  refine congrArg PacketHeader.mk (UInt32.toNat_inj.mp ?_)
  change (ofFields h.type h.count h.opcode h.shaderType).raw.toNat = _
  omega

theorem fieldsOfFields (type : PacketType) {count : UInt32} (opcode shaderType : UInt8)
    (declarable : count.toNat < 2 ^ 14) :
    let h := ofFields type count opcode shaderType
    h.type = type ∧ h.count = count ∧ h.opcode = opcode ∧ h.shaderType = shaderType := by
  intro h
  have kind : type.bits.toNat < 4 := by cases type <;> decide
  have code := opcode.toNat_lt
  have shader := shaderType.toNat_lt
  have number : h.raw.toNat = _ := ofFieldsNat type opcode shaderType declarable
  refine ⟨bitsInjective (UInt32.toNat_inj.mp ?_), UInt32.toNat_inj.mp ?_, UInt8.toNat_inj.mp ?_,
    UInt8.toNat_inj.mp ?_⟩
  · rw [typeNat]; omega
  · rw [countNat]; omega
  · rw [opcodeNat]; omega
  · rw [shaderTypeNat]; omega

theorem buildOfFields {words : Nat} (opcode shaderType : UInt8)
    (declarable : 1 ≤ words ∧ words ≤ 0x4000) :
    build opcode words.toUInt32 shaderType =
      ofFields .type3 (words - 1).toUInt32 opcode shaderType := by
  have length : (words.toUInt32 - 1) &&& 0x3FFF = (words - 1).toUInt32 := by
    apply UInt32.toNat_inj.mp
    rw [UInt32.toNat_and]
    refine (Nat.and_two_pow_sub_one_eq_mod _ 14).trans ?_
    have one : (1 : UInt32) ≤ words.toUInt32 := by
      rw [UInt32.le_iff_toNat_le, Nat.toUInt32_eq, UInt32.toNat_ofNat']
      change 1 ≤ _
      omega
    rw [UInt32.toNat_sub_of_le _ _ one, Nat.toUInt32_eq, Nat.toUInt32_eq, UInt32.toNat_ofNat',
      UInt32.toNat_ofNat']
    change (words % 2 ^ 32 - 1) % 2 ^ 14 = _
    omega
  rw [build, length]
  rfl

theorem buildFields {words : Nat} (opcode shaderType : UInt8)
    (declarable : 1 ≤ words ∧ words ≤ 0x4000) :
    let h := build opcode words.toUInt32 shaderType
    h.type = .type3 ∧ h.opcode = opcode ∧ h.shaderType = shaderType ∧ h.payloadWords = words := by
  intro h
  have count : (words - 1).toUInt32.toNat = words - 1 := by
    rw [Nat.toUInt32_eq, UInt32.toNat_ofNat', Nat.mod_eq_of_lt (by omega)]
  have small : (words - 1).toUInt32.toNat < 2 ^ 14 := by
    rw [count]
    omega
  have built : h = ofFields .type3 (words - 1).toUInt32 opcode shaderType :=
    buildOfFields opcode shaderType declarable
  obtain ⟨type, length, code, shader⟩ := fieldsOfFields .type3 opcode shaderType small
  rw [built, payloadWords, length, count]
  exact ⟨type, code, shader, Nat.sub_add_cancel declarable.1⟩

end PacketHeader

structure Command where
  opcode : UInt8
  shaderType : UInt8
  payload : List UInt32
  declarable : 1 ≤ payload.length ∧ payload.length ≤ 0x4000

def Command.header (c : Command) : PacketHeader :=
  .build c.opcode c.payload.length.toUInt32 c.shaderType

theorem Command.headerFields (c : Command) :
    c.header.type = .type3 ∧ c.header.opcode = c.opcode ∧ c.header.shaderType = c.shaderType ∧
      c.header.payloadWords = c.payload.length :=
  PacketHeader.buildFields c.opcode c.shaderType c.declarable

/- What a buffer is written from: commands, and single words that are not looked at. -/
inductive Entry where
  | command (c : Command)
  | filler (header : PacketHeader) (bare : header.type = .type1 ∨ header.type = .type2)

namespace Entry
open Decoder (wordAddress)

def header : Entry → PacketHeader
  | .command c => c.header
  | .filler header _ => header

def payload : Entry → List UInt32
  | .command c => c.payload
  | .filler .. => []

def words (e : Entry) : List UInt32 := e.header.raw :: e.payload

def encode (entries : List Entry) : List UInt32 := entries.flatMap words

def bytes (words : List UInt32) : List UInt8 := words.flatMap PlainData.encode

def placed : Nat → List Entry → List Packet
  | _, [] => []
  | offset, e :: rest =>
    ⟨offset, e.header, e.payload⟩ :: placed (offset + 1 + e.payload.length) rest

theorem follows (e : Entry) : e.header.follows = e.payload.length := by
  cases e with
  | command c =>
    obtain ⟨type, -, -, length⟩ := c.headerFields
    simp only [header, payload, PacketHeader.follows, type, length]
  | filler header bare =>
    obtain type | type := bare <;> simp only [Entry.header, payload, PacketHeader.follows, type,
      List.length_nil]

theorem payloadBare (e : Entry) (other : e.header.type ≠ .type3) : e.payload = [] := by
  cases e with
  | command c => exact absurd c.headerFields.1 other
  | filler => rfl

theorem placedTiles (entries : List Entry) (offset : Nat) :
    Tiles offset (offset + (encode entries).length) (placed offset entries) := by
  induction entries generalizing offset with
  | nil => exact .done offset
  | cons e rest ih =>
    have tail := ih (offset + 1 + e.payload.length)
    have total : offset + 1 + e.payload.length + (encode rest).length =
        offset + (encode (e :: rest)).length := by
      simp only [encode, words, List.flatMap_cons, List.length_append, List.length_cons]
      omega
    rw [total, ← e.follows] at tail
    rw [placed, ← e.follows]
    exact .packet ⟨offset, e.header, e.payload⟩ tail

theorem bytesLength (words : List UInt32) : (bytes words).length = 4 * words.length :=
  Memory.encodeAllLength words

section Placed
variable {m : Memory} {base : UInt64}

theorem heldWords {before words after : List UInt32}
    (holds : m.Holds base (bytes (before ++ (words ++ after)))) :
    m.Holds (wordAddress base before.length) (bytes words) := by
  rw [wordAddress, ← bytesLength]
  refine Memory.Holds.part (bytes before) (bytes after) ?_
  simpa only [bytes, List.flatMap_append] using holds

theorem placedSound (before : List UInt32) {entries : List Entry} {size : Nat}
    (holds : m.Holds base (bytes (before ++ encode entries)))
    (total : (before ++ encode entries).length = size) (aligned : 4 ∣ base.toNat)
    (unwrapped : base.toNat + 4 * size ≤ 2 ^ 64) :
    ∀ p ∈ placed before.length entries, p.Sound m base size := by
  induction entries generalizing before with
  | nil => exact fun p none => absurd none List.not_mem_nil
  | cons e rest ih =>
    have split : before ++ encode (e :: rest) =
        before ++ ([e.header.raw] ++ (e.payload ++ encode rest)) := by
      rw [encode, List.flatMap_cons, words]
      rfl
    have later : before ++ encode (e :: rest) = (before ++ e.words) ++ encode rest := by
      rw [encode, List.flatMap_cons, List.append_assoc]
      rfl
    have next : before.length + 1 + e.payload.length = (before ++ e.words).length := by
      rw [List.length_append, words, List.length_cons]
      omega
    have fits : before.length + 1 + e.payload.length ≤ size := by
      rw [← total, later, List.length_append, next]
      omega
    rw [placed, List.forall_mem_cons, next]
    refine ⟨?_, ih (before ++ e.words) (by rwa [← later]) (by rwa [← later])⟩
    rw [split] at holds
    have raw := heldWords holds
    rw [bytes, List.flatMap_singleton] at raw
    rw [← List.append_assoc] at holds
    have payload := (heldWords holds).words
    rw [List.length_append, List.length_singleton] at payload
    have place : (wordAddress base before.length).toNat = base.toNat + 4 * before.length :=
      Memory.addUnwrapped (by omega)
    exact {
      readable := raw.word (show 4 ∣ _ by rw [place]; omega)
      fits := by rw [follows]; exact fits
      payload := fun _ => by rw [follows]; exact payload
      bare := e.payloadBare }

end Placed

end Entry

def Request.Refers : Request → Prop
  | .follow .. => True
  | _ => False

theorem Request.ofPacketRefers {opcode : UInt8} {payload : List UInt32}
    (refers : (Request.ofPacket opcode payload).Refers) : opcode = Opcode.indirectBuffer := by
  by_contra other
  have registers (bank : RegisterBank) :
      ¬ (Request.ofPacket.setRegistersOf bank payload).Refers := by
    cases payload <;> exact id
  refine absurd refers ?_
  unfold Request.ofPacket
  repeat' refine iteInduction (motive := (¬ Request.Refers ·)) (fun found => ?_) (fun _ => ?_)
  all_goals first
    | exact id
    | exact registers _
    | exact absurd found other
    | split <;> exact id

namespace Decoder

theorem executeCounts (follow : Follow) {opcode : UInt8} (direct : opcode ≠ Opcode.indirectBuffer)
    (payload : List UInt32) (d : Decoder) :
    (d.execute follow opcode payload).counts.packets = d.counts.packets := by
  unfold execute
  cases asked : Request.ofPacket opcode payload with
  | follow address words =>
    exact absurd (Request.ofPacketRefers (by rw [asked]; trivial)) direct
  | _ => rfl

def performEntry (follow : Follow) (d : Decoder) : Entry → Decoder
  | .command c => (d.execute follow c.opcode c.payload).countPacket
  | .filler .. => d.countPacket

theorem performPlaced (follow : Follow) (d : Decoder) (entries : List Entry) (offset : Nat) :
    d.performAll follow (Entry.placed offset entries) = entries.foldl (performEntry follow) d := by
  induction entries generalizing d offset with
  | nil => rfl
  | cons e rest ih =>
    have head : d.perform follow ⟨offset, e.header, e.payload⟩ = d.performEntry follow e := by
      cases e with
      | command c =>
        obtain ⟨type, opcode, -⟩ := c.headerFields
        simp only [perform, performEntry, Entry.header, Entry.payload, type, opcode, if_true]
      | filler header bare =>
        obtain type | type := bare <;> simp [perform, performEntry, Entry.header, type]
    exact (congrArg (performAll follow · _) head).trans (ih _ _)

theorem performEntriesCount (follow : Follow) (d : Decoder) {entries : List Entry}
    (direct : ∀ c, .command c ∈ entries → c.opcode ≠ Opcode.indirectBuffer) :
    (entries.foldl (performEntry follow) d).counts.packets =
      d.counts.packets + entries.length := by
  induction entries generalizing d with
  | nil => rfl
  | cons e rest ih =>
    have head : (d.performEntry follow e).counts.packets = d.counts.packets + 1 := by
      cases e with
      | command c =>
        exact congrArg (· + 1) (executeCounts follow (direct c List.mem_cons_self) c.payload d)
      | filler => rfl
    rw [List.foldl_cons, ih _ fun c member => direct c (List.mem_cons_of_mem e member), head,
      List.length_cons]
    omega

section Encoded
open Entry (encode bytes placed)
variable {m after : Memory} {address : UInt64} {entries : List Entry}

theorem encodedFramed (aligned : 4 ∣ address.toNat)
    (range : Memory.Uncrossed address (4 * (encode entries).length))
    (written : m.writeBlock address (bytes (encode entries)) = .ok after) :
    Framed after address (encode entries).length (encode entries).length (placed 0 entries) := by
  have unwrapped := range.unwrapped
  rw [← Entry.bytesLength] at range
  have holds := Memory.holdsWritten range written
  refine ⟨?_, Entry.placedSound [] holds rfl aligned unwrapped⟩
  simpa only [Nat.zero_add] using Entry.placedTiles entries 0

theorem encodedPackets (framed : Framed after address (encode entries).length
    (encode entries).length (placed 0 entries)) :
    (packetsOf after address (encode entries).length).map (fun p => (p.header, p.payload)) =
      entries.map fun e => (e.header, e.payload) := by
  have found : packetsOf after address (encode entries).length = placed 0 entries :=
    tilesPackets framed.tiles framed.sound (.inl rfl) (Nat.le_add_left _ _)
  rw [found]
  suffices any : ∀ offset, (placed offset entries).map (fun p => (p.header, p.payload)) =
      entries.map fun e => (e.header, e.payload) from any 0
  clear framed found
  induction entries with
  | nil => exact fun _ => rfl
  | cons e rest ih => exact fun offset => congrArg ((e.header, e.payload) :: ·) (ih _)

theorem decodingReversesEncoding (short : (encode entries).length < 2 ^ 32)
    (aligned : 4 ∣ address.toNat)
    (range : Memory.Uncrossed address (4 * (encode entries).length))
    (written : m.writeBlock address (bytes (encode entries)) = .ok after) (limit : UInt32)
    (d : Decoder) :
    let size := (encode entries).length.toUInt32
    let outcome := d.process after limit address size
    (∀ h : PacketHeader, PacketHeader.ofFields h.type h.count h.opcode h.shaderType = h) ∧
    (∀ c : Command, c.header.type = .type3 ∧ c.header.opcode = c.opcode ∧
      c.header.shaderType = c.shaderType ∧ c.header.payloadWords = c.payload.length) ∧
    (packetsOf after address size.toNat).map (fun p => (p.header, p.payload)) =
      entries.map (fun e => (e.header, e.payload)) ∧
    outcome.2 = .ok () ∧
    outcome.1.Agrees
      (entries.foldl (performEntry (followed after limit.toNat limit.toNat)) d) ∧
    ((∀ c, .command c ∈ entries → c.opcode ≠ Opcode.indirectBuffer) →
      outcome.1.counts.packets = d.counts.packets + entries.length) := by
  intro size outcome
  have framed := encodedFramed aligned range written
  have length : size.toNat = (encode entries).length := by
    change (UInt32.ofNat _).toNat = _
    rw [UInt32.toNat_ofNat', Nat.mod_eq_of_lt short]
  obtain ⟨whole, -, executed⟩ := decodeFramed after limit.toNat limit.toNat address d framed
  have agrees := executed (.inl rfl)
  rw [performPlaced] at agrees
  have found : outcome = decode after limit.toNat limit.toNat address (encode entries).length d :=
    congrArg (fun size => decode after limit.toNat limit.toNat address size d) length
  rw [length, found]
  refine ⟨PacketHeader.ofFieldsSame, Command.headerFields, encodedPackets framed, whole rfl, agrees,
    fun direct => ?_⟩
  rw [agrees.counts, performEntriesCount _ d direct]

theorem decodingReversesEncodingDraw :
    let instances : Command := ⟨Opcode.numInstances, 1, [7], by decide⟩
    let draw : Command := ⟨Opcode.drawIndexAuto, 0xFF, [3, 0], by decide⟩
    let entries : List Entry := [.filler ⟨0x80000000⟩ (by decide), .command instances,
      .filler ⟨0x40001234⟩ (by decide), .command draw]
    let m := Memory.zeros 7 (by decide) true
    let after := m.store (m.translate 0x400010).toNat (bytes (encode entries))
    let d : Decoder := ⟨.initial, {}, #[], .empty⟩
    let outcome := d.process after 8 0x400010 (encode entries).length.toUInt32
    4 ∣ UInt64.toNat 0x400010 ∧ Memory.Uncrossed 0x400010 (4 * (encode entries).length) ∧
      m.writeBlock 0x400010 (bytes (encode entries)) = .ok after ∧ outcome.2 = .ok () ∧
      outcome.1.commands = #[.draw 3 7 d.state.primitive] ∧ outcome.1.counts.packets = 4 := by
  intro instances draw entries m after d outcome
  have range : Memory.Uncrossed 0x400010 (4 * (encode entries).length) := by decide
  have written : m.writeBlock 0x400010 (bytes (encode entries)) = .ok after :=
    Memory.writeBlockOkIff.mpr ⟨by decide +kernel, rfl⟩
  have direct : ∀ c, Entry.command c ∈ entries → c.opcode ≠ Opcode.indirectBuffer := by
    intro c member
    simp only [entries, List.mem_cons, reduceCtorEq, false_or, List.not_mem_nil, or_false,
      Entry.command.injEq] at member
    obtain rfl | rfl := member <;> decide
  obtain ⟨-, -, -, ok, agrees, counted⟩ :=
    decodingReversesEncoding (by decide) (by decide) range written 8 d
  exact ⟨by decide, range, written, ok, agrees.commands.trans (by decide +kernel), counted direct⟩

end Encoded

end Decoder

end GameConsole.Graphics
