import GameConsole.Graphics.Decoder

/-! Two decoders side by side. What single packets keep of a relation between them, buffers and
submissions keep as well, and they have the same result. So it is if they agree, that is, differ in
the journal at most, and if one resembles the other, which may have counted differently. -/
namespace GameConsole.Graphics.Decoder

structure Agrees (d e : Decoder) : Prop where
  state : d.state = e.state
  counts : d.counts = e.counts
  commands : d.commands = e.commands

abbrev Follow := UInt64 → Nat → Decoder → Decoder

def FollowAgrees (f g : Follow) : Prop :=
  ∀ (address : UInt64) (words : Nat) (d e : Decoder), d.Agrees e →
    (f address words d).Agrees (g address words e)

namespace Agrees

variable {c d e : Decoder}

@[refl] theorem refl (d : Decoder) : d.Agrees d := ⟨rfl, rfl, rfl⟩

theorem symm (h : d.Agrees e) : e.Agrees d := ⟨h.state.symm, h.counts.symm, h.commands.symm⟩

theorem trans (h : c.Agrees d) (k : d.Agrees e) : c.Agrees e :=
  ⟨h.state.trans k.state, h.counts.trans k.counts, h.commands.trans k.commands⟩

theorem note (h : d.Agrees e) (event : Event) : (d.note event).Agrees e :=
  ⟨h.state, h.counts, h.commands⟩

theorem notes (h : d.Agrees e) (first second : Event) : (d.note first).Agrees (e.note second) :=
  ⟨h.state, h.counts, h.commands⟩

theorem countPacket (h : d.Agrees e) : d.countPacket.Agrees e.countPacket :=
  ⟨h.state, by simp only [Decoder.countPacket, h.counts], h.commands⟩

theorem carryOutMet {f g : Follow} {request : Request}
    (follows : ∀ address words, request = .follow address words →
      (f address words d).Agrees (g address words e)) (opcode : UInt8) (h : d.Agrees e) :
    (d.carryOut f opcode request).Agrees (e.carryOut g opcode request) := by
  cases request with
  | follow address words => exact follows address words rfl
  | _ =>
    obtain ⟨state, counts, commands, journal⟩ := d
    obtain ⟨rfl, rfl, rfl⟩ := h
    exact ⟨rfl, rfl, rfl⟩

theorem carryOut {f g : Follow} (follows : FollowAgrees f g) (opcode : UInt8) (request : Request)
    (h : d.Agrees e) : (d.carryOut f opcode request).Agrees (e.carryOut g opcode request) :=
  carryOutMet (fun address words _ => follows address words d e h) opcode h

theorem execute {f g : Follow} (follows : FollowAgrees f g) (opcode : UInt8)
    (payload : List UInt32) (h : d.Agrees e) :
    (d.execute f opcode payload).Agrees (e.execute g opcode payload) :=
  carryOut follows opcode _ (h.notes _ _)

end Agrees

/- A relation that no report and no packet breaks which refers to no other buffer. -/
structure Congruence (Q : Decoder → Decoder → Prop) : Prop where
  notes : ∀ d e first second, Q d e → Q (d.note first) (e.note second)
  counted : ∀ d e, Q d e → Q d.countPacket e.countPacket
  carriedOut : ∀ (f g : Follow) opcode request d e,
    (∀ address words, request ≠ .follow address words) → Q d e →
    Q (d.carryOut f opcode request) (e.carryOut g opcode request)

def FollowKeeps (Q : Decoder → Decoder → Prop) (f g : Follow) : Prop :=
  ∀ (address : UInt64) (words : Nat) (d e : Decoder), Q d e →
    Q (f address words d) (g address words e)

section Congruence
variable {Q : Decoder → Decoder → Prop} {f g : Follow} {d e : Decoder}

theorem executeKeeps (congruence : Congruence Q) (follows : FollowKeeps Q f g) (opcode : UInt8)
    (payload : List UInt32) (h : Q d e) :
    Q (d.execute f opcode payload) (e.execute g opcode payload) := by
  have noted (event : Event) := congruence.notes d e event event h
  unfold execute
  cases Request.ofPacket opcode payload with
  | follow address words => exact follows address words _ _ (noted _)
  | _ => exact congruence.carriedOut f g opcode _ _ _ (fun _ _ same => by cases same) (noted _)

theorem walkKeeps (congruence : Congruence Q) (follows : FollowKeeps Q f g) (m : Memory)
    (base : UInt64) (size turns offset : Nat) (h : Q d e) :
    Q (walk f m base size turns offset d).1 (walk g m base size turns offset e).1 ∧
      (walk f m base size turns offset d).2 = (walk g m base size turns offset e).2 := by
  induction turns generalizing offset d e with
  | zero => exact ⟨h, rfl⟩
  | succ turns ih =>
    unfold walk
    split
    · exact ⟨h, rfl⟩
    · split
      · exact ⟨h, rfl⟩
      · dsimp only
        split
        · exact ih _ (congruence.counted _ _ h)
        · split
          · exact ⟨congruence.notes _ _ _ _ h, rfl⟩
          · split
            · split
              · exact ⟨h, rfl⟩
              · exact ih _ (congruence.counted _ _ (executeKeeps congruence follows _ _ h))
            · exact ih _ (congruence.counted _ _ (congruence.notes _ _ _ _ h))

end Congruence

def settle (report : DecodeError → Event) : Decoder × Except DecodeError Unit → Decoder
  | (d, .ok ()) => d
  | (d, .error e) => d.note (report e)

theorem settleAgrees (report : DecodeError → Event) (p : Decoder × Except DecodeError Unit) :
    (settle report p).Agrees p.1 := by
  obtain ⟨d, _ | _⟩ := p
  · exact (Agrees.refl d).note _
  · exact Agrees.refl d

def entered (address : UInt64) (words depth : Nat) : Event :=
  .of .debug "indirect buffer"
    [("addr", .hex 1 address.toNat), ("dwords", .count words), ("depth", .count depth)]

def aborted (address : UInt64) (e : DecodeError) : Event :=
  .of .warn "indirect buffer aborted"
    [("addr", .hex 1 address.toNat), ("error", .text e.message)]

def following (m : Memory) (limit : Nat) : Nat → Follow
  | 0, address, words, d => refuse limit address words d
  | levels + 1, address, words, d =>
    settle (aborted address)
      (decode m limit levels address words (d.note (entered address words (limit - (levels + 1)))))

theorem decodeWalk (m : Memory) (limit levels : Nat) (base : UInt64) (size : Nat) (d : Decoder) :
    decode m limit levels base size d = walk (following m limit levels) m base size size 0 d := by
  cases levels <;> rfl

def followed (m : Memory) (limit : Nat) : Nat → Follow
  | 0, _, _, d => d
  | levels + 1, address, words, d => (decode m limit levels address words d).1

section Congruence
variable {Q : Decoder → Decoder → Prop} {d e : Decoder}

theorem settleKeeps (congruence : Congruence Q) (report : DecodeError → Event)
    {p q : Decoder × Except DecodeError Unit} (h : Q p.1 q.1) (same : p.2 = q.2) :
    Q (settle report p) (settle report q) := by
  obtain ⟨d, result⟩ := p
  obtain ⟨e, _⟩ := q
  cases same
  cases result with
  | ok value => exact h
  | error fault => exact congruence.notes _ _ _ _ h

theorem followingKeeps (congruence : Congruence Q) (m : Memory) (limit levels : Nat) :
    FollowKeeps Q (following m limit levels) (following m limit levels) := by
  induction levels with
  | zero => exact fun _ _ _ _ h => congruence.notes _ _ _ _ h
  | succ levels ih =>
    intro address words d e h
    let event := entered address words (limit - (levels + 1))
    have walked := walkKeeps congruence ih m address words words 0
      (congruence.notes d e event event h)
    rw [← decodeWalk, ← decodeWalk] at walked
    exact settleKeeps congruence _ walked.1 walked.2

theorem decodeKeeps (congruence : Congruence Q) (m : Memory) (limit levels : Nat) (base : UInt64)
    (size : Nat) (h : Q d e) :
    Q (decode m limit levels base size d).1 (decode m limit levels base size e).1 ∧
      (decode m limit levels base size d).2 = (decode m limit levels base size e).2 := by
  rw [decodeWalk, decodeWalk]
  exact walkKeeps congruence (followingKeeps congruence m limit levels) m base size size 0 h

end Congruence

section Agrees

theorem agreesCongruence : Congruence Agrees where
  notes _ _ _ _ h := h.notes _ _
  counted _ _ h := h.countPacket
  carriedOut _ _ opcode _ _ _ plain h :=
    h.carryOutMet (fun address words same => absurd same (plain address words)) opcode

theorem decodeAgrees (m : Memory) (limit levels : Nat) (base : UInt64) (size : Nat)
    {d e : Decoder} (h : d.Agrees e) :
    (decode m limit levels base size d).1.Agrees (decode m limit levels base size e).1 ∧
      (decode m limit levels base size d).2 = (decode m limit levels base size e).2 :=
  decodeKeeps agreesCongruence m limit levels base size h

theorem followingFollowed (m : Memory) (limit levels : Nat) :
    FollowAgrees (following m limit levels) (followed m limit levels) := by
  intro address words d e h
  cases levels with
  | zero => exact h.note _
  | succ levels =>
    exact (settleAgrees _ _).trans (decodeAgrees m limit levels address words (h.note _)).1

theorem followedAgrees (m : Memory) (limit levels : Nat) :
    FollowAgrees (followed m limit levels) (followed m limit levels) := by
  intro address words d e h
  have follows := followingFollowed m limit levels address words
  exact (follows d d (.refl d)).symm.trans (follows d e h)

end Agrees

theorem submitFromSettle (m : Memory) (limit : UInt32) (buffers sizes : UInt64) (count i : Nat)
    (d : Decoder) {address : UInt64} {bytes : UInt32}
    (found : m.readU64 (buffers + (8 * i).toUInt64) = .ok address)
    (length : m.readU32 (sizes + (4 * i).toUInt64) = .ok bytes) :
    submitFrom m limit buffers sizes (count + 1) i d =
      submitFrom m limit buffers sizes count (i + 1)
        (settle (fun e => .of .warn "command buffer aborted" [("buffer", .count i),
            ("addr", .hex 1 address.toNat), ("error", .text e.message)])
          (process m limit address (bytes / 4)
            (d.note (.of .trace "command buffer" [("buffer", .count i),
              ("addr", .hex 1 address.toNat), ("dwords", .count (bytes / 4).toNat)])))) := by
  simp only [submitFrom, found, length]
  split <;> simp only [settle, *]

section Congruence
variable {Q : Decoder → Decoder → Prop} {d e : Decoder}

theorem submitFromKeeps (congruence : Congruence Q) (m : Memory) (limit : UInt32)
    (buffers sizes : UInt64) (count i : Nat) (h : Q d e) :
    Q (submitFrom m limit buffers sizes count i d).1
        (submitFrom m limit buffers sizes count i e).1 ∧
      (submitFrom m limit buffers sizes count i d).2 =
        (submitFrom m limit buffers sizes count i e).2 := by
  induction count generalizing i d e with
  | zero => exact ⟨h, rfl⟩
  | succ count ih =>
    cases found : m.readU64 (buffers + (8 * i).toUInt64) with
    | error fault => simpa only [submitFrom, found, and_true] using h
    | ok address =>
      cases length : m.readU32 (sizes + (4 * i).toUInt64) with
      | error fault => simpa only [submitFrom, found, length, and_true] using h
      | ok bytes =>
        rw [submitFromSettle m limit buffers sizes count i d found length,
          submitFromSettle m limit buffers sizes count i e found length]
        obtain ⟨after, same⟩ := decodeKeeps congruence m limit.toNat limit.toNat address
          (bytes / 4).toNat (congruence.notes _ _ _ _ h)
        exact ih (i + 1) (settleKeeps congruence _ after same)

theorem submitKeeps (congruence : Congruence Q) (m : Memory) (limit count : UInt32)
    (buffers sizes : UInt64) (h : Q d e) :
    Q (submit m limit count buffers sizes d).1 (submit m limit count buffers sizes e).1 ∧
      (submit m limit count buffers sizes d).2 = (submit m limit count buffers sizes e).2 :=
  submitFromKeeps congruence m limit buffers sizes count.toNat 0 (congruence.notes _ _ _ _ h)

end Congruence

structure Resembles (d e : Decoder) : Prop where
  state : d.state = e.state
  commands : d.commands = e.commands

theorem resemblesCongruence : Congruence Resembles where
  notes _ _ _ _ h := ⟨h.state, h.commands⟩
  counted _ _ h := ⟨h.state, h.commands⟩
  carriedOut f g opcode request d e plain h := by
    obtain ⟨state, counts, commands, journal⟩ := d
    obtain ⟨_, others, _, journal'⟩ := e
    obtain ⟨rfl, rfl⟩ := h
    cases request with
    | follow address words => exact absurd rfl (plain address words)
    | _ => exact ⟨rfl, rfl⟩

end GameConsole.Graphics.Decoder
