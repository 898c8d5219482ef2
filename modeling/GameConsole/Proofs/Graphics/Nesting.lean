import GameConsole.Proofs.Graphics.Execution
import Mathlib.Algebra.GroupWithZero.Nat

/-! Decoding as a machine that keeps the buffers it is in on a stack and computes in words of fixed
width, where a result that does not fit stops it. However the buffers refer to each other, it comes
to an end, with what decoding gives; on the way the stack is never higher than the limit of nesting
and every result fits. -/
namespace GameConsole.Graphics

def add? (a b : UInt32) : Option UInt32 :=
  if a.toNat + b.toNat < UInt32.size then some (a + b) else none

def sub? (a b : UInt32) : Option UInt32 := if b ≤ a then some (a - b) else none

def mul? (a b : UInt64) : Option UInt64 :=
  if a.toNat * b.toNat < UInt64.size then some (a * b) else none

theorem addFits {a b : UInt32} (fits : a.toNat + b.toNat < UInt32.size) :
    ∃ c, add? a b = some c ∧ c.toNat = a.toNat + b.toNat :=
  ⟨a + b, if_pos fits, by rw [UInt32.toNat_add, Nat.mod_eq_of_lt fits]⟩

theorem subFits {a b : UInt32} (fits : b.toNat ≤ a.toNat) :
    ∃ c, sub? a b = some c ∧ c.toNat = a.toNat - b.toNat :=
  ⟨a - b, if_pos fits, UInt32.toNat_sub_of_le a b fits⟩

theorem mulFits {a b : UInt64} (fits : a.toNat * b.toNat < UInt64.size) :
    ∃ c, mul? a b = some c ∧ c.toNat = a.toNat * b.toNat :=
  ⟨a * b, if_pos fits, by rw [UInt64.toNat_mul, Nat.mod_eq_of_lt fits]⟩

theorem bytesFit (words : UInt32) :
    ∃ bytes, mul? words.toUInt64 4 = some bytes ∧ bytes.toNat = 4 * words.toNat := by
  have bound := words.toNat_lt
  obtain ⟨bytes, computed, value⟩ := mulFits (a := words.toUInt64) (b := 4)
    (by rw [UInt32.toNat_toUInt64]; simp [UInt64.size]; omega)
  exact ⟨bytes, computed, by rw [value, UInt32.toNat_toUInt64, Nat.mul_comm]; rfl⟩

theorem remainingFits {size offset : UInt32} (inside : offset.toNat < size.toNat) :
    ∃ behind remaining, sub? size offset = some behind ∧ sub? behind 1 = some remaining ∧
      remaining.toNat = size.toNat - offset.toNat - 1 := by
  obtain ⟨behind, measured, value⟩ := subFits (Nat.le_of_lt inside)
  obtain ⟨remaining, left, rest⟩ := subFits (a := behind) (b := 1)
    (by rw [value]; exact Nat.sub_pos_of_lt inside)
  exact ⟨behind, remaining, measured, left, by rw [rest, value]; rfl⟩

theorem declaredFits (h : PacketHeader) :
    ∃ declared, add? h.count 1 = some declared ∧ declared.toNat = h.payloadWords :=
  addFits (Nat.lt_trans (Nat.add_lt_add_right h.countLt 1) (by decide))

theorem payloadFits {size offset : UInt32} (inside : offset.toNat < size.toNat)
    (declared : UInt32) :
    ∃ bytes next, mul? declared.toUInt64 4 = some bytes ∧ add? offset 1 = some next ∧
      next.toNat = offset.toNat + 1 ∧ (bytes / 4).toNat = declared.toNat := by
  have bound := size.toNat_lt
  obtain ⟨bytes, computed, length⟩ := bytesFit declared
  obtain ⟨next, following, place⟩ := addFits (a := offset) (b := 1)
    (Nat.lt_of_le_of_lt inside bound)
  refine ⟨bytes, next, computed, following, place, ?_⟩
  rw [UInt64.toNat_div, length]
  exact Nat.mul_div_cancel_left _ (by decide)

def Request.Short : Request → Prop
  | .follow _ words => words < 2 ^ 20
  | _ => True

theorem Request.ofPacketShort (opcode : UInt8) (payload : List UInt32) :
    (Request.ofPacket opcode payload).Short := by
  have masked (control : UInt32) : (control &&& 0xFFFFF).toNat < 2 ^ 20 := by
    rw [UInt32.toNat_and]
    exact Nat.and_lt_two_pow _ (by decide)
  have registers (bank : RegisterBank) : (Request.ofPacket.setRegistersOf bank payload).Short := by
    cases payload <;> trivial
  unfold Request.ofPacket
  repeat' refine iteInduction (motive := Short) (fun _ => ?_) (fun _ => ?_)
  all_goals first
    | exact True.intro
    | exact registers _
    | split <;> first
      | exact True.intro
      | exact masked _

structure Activation where
  base : UInt64
  size : UInt32
  offset : UInt32
  depth : UInt32

structure Caller extends Activation where
  declared : UInt32

structure Descent where
  current : Activation
  waiting : List Caller
  decoder : Decoder

inductive Progress where
  | going (s : Descent)
  | ended (outcome : Decoder × Except DecodeError Unit)

namespace Decoder

def visit (follow : Follow) (m : Memory) (base : UInt64) (size : Nat)
    (next : Nat → Decoder → Decoder × Except DecodeError Unit) (offset : Nat) (d : Decoder) :
    Decoder × Except DecodeError Unit :=
  match m.readU32 (wordAddress base offset) with
  | .error fault => (d, .error (.memory fault))
  | .ok raw =>
    let header : PacketHeader := ⟨raw⟩
    let remaining := size - offset - 1
    let declared := header.payloadWords
    if header.type = .type1 ∨ header.type = .type2 then next (offset + 1) d.countPacket
    else if remaining < declared then
      (d.note (.of .warn "PM4 packet overflows its buffer"
        [("offset", .count offset), ("declared", .count declared),
          ("remaining", .count remaining), ("opcode", .text (Opcode.name header.opcode))]),
        .error (.overflow offset declared remaining))
    else if header.type = .type3 then
      match m.readWords (wordAddress base (offset + 1)) declared with
      | .error fault => (d, .error (.memory fault))
      | .ok payload =>
        next (offset + 1 + declared) (d.execute follow header.opcode payload).countPacket
    else
      next (offset + 1 + declared)
        (d.note (.of .trace "skipping type-0 register write"
          [("offset", .count offset), ("dwords", .count declared)])).countPacket

theorem walkVisit (f : Follow) (m : Memory) (base : UInt64) (size turns offset : Nat)
    (d : Decoder) :
    walk f m base size (turns + 1) offset d =
      if size ≤ offset then (d, .ok ())
      else visit f m base size (walk f m base size turns) offset d :=
  rfl

theorem visitCongr (f : Follow) (m : Memory) (base : UInt64) (size offset : Nat) (d : Decoder)
    {next other : Nat → Decoder → Decoder × Except DecodeError Unit}
    (h : ∀ later d, offset < later → next later d = other later d) :
    visit f m base size next offset d = visit f m base size other offset d := by
  unfold visit
  split
  · rfl
  · dsimp only
    split
    · exact h _ _ (by omega)
    · split
      · rfl
      · split
        · split
          · rfl
          · exact h _ _ (by omega)
        · exact h _ _ (by omega)

theorem walkMore (f : Follow) (m : Memory) (base : UInt64) (size turns offset : Nat) (d : Decoder)
    (enough : size ≤ offset + turns) :
    walk f m base size (turns + 1) offset d = walk f m base size turns offset d := by
  induction turns generalizing offset d with
  | zero => rw [walk, walk, if_pos (by omega)]
  | succ turns ih =>
    rw [walkVisit, walkVisit, visitCongr]
    exact fun later d _ => ih later d (by omega)

end Decoder

namespace Descent
open Decoder (settle aborted entered refuse)

def start (base : UInt64) (size : UInt32) (d : Decoder) : Descent :=
  ⟨⟨base, size, 0, 0⟩, [], d⟩

def address (base : UInt64) (index : UInt32) : Option UInt64 := do
  return base + (← mul? index.toUInt64 4)

def advance (s : Descent) (words : UInt32) : Option Descent := do
  let offset ← add? s.current.offset words
  return { s with current := { s.current with offset }, decoder := s.decoder.countPacket }

def pass (s : Descent) (declared : UInt32) : Option Progress := do
  return .going (← s.advance (← add? 1 declared))

def leave (s : Descent) (result : Except DecodeError Unit) : Option Progress :=
  match s.waiting with
  | [] => return .ended (s.decoder, result)
  | caller :: waiting =>
    let decoder := settle (aborted s.current.base) (s.decoder, result)
    pass ⟨caller.toActivation, waiting, decoder⟩ caller.declared

def enter (s : Descent) (declared : UInt32) (address : UInt64) (words : Nat) : Option Progress := do
  let decoder := s.decoder.note (entered address words s.current.depth.toNat)
  return .going {
    current := ⟨address, words.toUInt32, 0, ← add? s.current.depth 1⟩
    waiting := ⟨s.current, declared⟩ :: s.waiting
    decoder }

def command (limit : UInt32) (s : Descent) (opcode : UInt8) (payload : List UInt32)
    (declared : UInt32) : Option Progress :=
  let s := { s with decoder := s.decoder.execute (fun _ _ d => d) opcode payload }
  match Request.ofPacket opcode payload with
  | .follow address words =>
    if s.current.depth < limit then s.enter declared address words
    else { s with decoder := refuse limit.toNat address words s.decoder }.pass declared
  | _ => s.pass declared

def step (m : Memory) (limit : UInt32) (s : Descent) : Option Progress := do
  let ⟨base, size, offset, _⟩ := s.current
  if size ≤ offset then s.leave (.ok ())
  else
    match m.readU32 (← address base offset) with
    | .error fault => s.leave (.error (.memory fault))
    | .ok raw =>
      let header : PacketHeader := ⟨raw⟩
      let remaining ← sub? (← sub? size offset) 1
      if header.type = .type1 ∨ header.type = .type2 then return .going (← s.advance 1)
      else
        let declared ← add? header.count 1
        if remaining < declared then
          let decoder := s.decoder.note (.of .warn "PM4 packet overflows its buffer"
            [("offset", .count offset.toNat), ("declared", .count declared.toNat),
              ("remaining", .count remaining.toNat),
              ("opcode", .text (Opcode.name header.opcode))])
          { s with decoder }.leave
            (.error (.overflow offset.toNat declared.toNat remaining.toNat))
        else if header.type = .type3 then
          let bytes ← mul? declared.toUInt64 4
          match m.readWords (← address base (← add? offset 1)) (bytes / 4).toNat with
          | .error fault => s.leave (.error (.memory fault))
          | .ok payload => s.command limit header.opcode payload declared
        else
          let decoder := s.decoder.note (.of .trace "skipping type-0 register write"
            [("offset", .count offset.toNat), ("dwords", .count declared.toNat)])
          { s with decoder }.pass declared

def run (m : Memory) (limit : UInt32) (s : Descent) : Nat → Option Progress
  | 0 => some (.going s)
  | turns + 1 => do
    match ← s.step m limit with
    | .going s => s.run m limit turns
    | .ended outcome => return .ended outcome

/- The buffers that wait for one at some depth, each at a packet that fits it. -/
inductive Stacked : List Caller → Nat → Prop where
  | bottom : Stacked [] 0
  | push {caller : Caller} {waiting : List Caller}
      (fits : caller.offset.toNat + 1 + caller.declared.toNat ≤ caller.size.toNat)
      (tail : Stacked waiting caller.depth.toNat) :
      Stacked (caller :: waiting) (caller.depth.toNat + 1)

theorem stackedDepth {waiting : List Caller} {depth : Nat} (h : Stacked waiting depth) :
    depth = waiting.length := by
  induction h with
  | bottom => rfl
  | push fits tail ih => rw [List.length_cons, ← ih]

structure Orderly (limit : UInt32) (s : Descent) : Prop where
  inside : s.current.offset.toNat ≤ s.current.size.toNat
  nesting : s.waiting.length ≤ limit.toNat
  stacked : Stacked s.waiting s.current.depth.toNat

end Descent

def Activation.finish (m : Memory) (limit : UInt32) (a : Activation) (offset : Nat) (d : Decoder) :
    Decoder × Except DecodeError Unit :=
  Decoder.walk (Decoder.following m limit.toNat (limit.toNat - a.depth.toNat)) m a.base
    a.size.toNat a.size.toNat offset d

namespace Descent
open Decoder

def resolve (m : Memory) (limit : UInt32) : List Caller → UInt64 →
    Decoder × Except DecodeError Unit → Decoder × Except DecodeError Unit
  | [], _, outcome => outcome
  | caller :: waiting, base, outcome =>
    resolve m limit waiting caller.base
      (caller.finish m limit (caller.offset.toNat + 1 + caller.declared.toNat)
        (settle (aborted base) outcome).countPacket)

def outcome (m : Memory) (limit : UInt32) (s : Descent) : Decoder × Except DecodeError Unit :=
  resolve m limit s.waiting s.current.base
    (s.current.finish m limit s.current.offset.toNat s.decoder)

/- Words left count for more the less deep they are, by more than a whole buffer one level down. -/
def share (limit : UInt32) (depth : UInt32) (left : Nat) : Nat :=
  (left + 1) * UInt32.size ^ (limit.toNat - depth.toNat)

def rank (limit : UInt32) (s : Descent) : Nat :=
  share limit s.current.depth (s.current.size.toNat - s.current.offset.toNat) +
    (s.waiting.map fun c =>
      share limit c.depth (c.size.toNat - (c.offset.toNat + 1 + c.declared.toNat))).sum

inductive Continues (m : Memory) (limit : UInt32) (s : Descent) : Progress → Prop where
  | going {t : Descent} (orderly : t.Orderly limit) (same : t.outcome m limit = s.outcome m limit)
      (less : t.rank limit < s.rank limit) : Continues m limit s (.going t)
  | ended : Continues m limit s (.ended (s.outcome m limit))

section Step
variable {m : Memory} {limit : UInt32} {s : Descent}

theorem shareLt {depth : UInt32} {left more : Nat} (less : left < more) :
    share limit depth left < share limit depth more :=
  Nat.mul_lt_mul_of_pos_right (by omega) (Nat.pow_pos (by decide))

theorem sharePos (depth : UInt32) (left : Nat) : 0 < share limit depth left :=
  Nat.mul_pos (Nat.succ_pos left) (Nat.pow_pos (by decide))

theorem shareNested {depth inner : UInt32} {words left more : Nat}
    (deeper : inner.toNat = depth.toNat + 1) (allowed : depth.toNat < limit.toNat)
    (short : words + 1 < UInt32.size) (less : left < more) :
    share limit inner words + share limit depth left < share limit depth more := by
  have scale : UInt32.size ^ (limit.toNat - depth.toNat) =
      UInt32.size * UInt32.size ^ (limit.toNat - inner.toNat) := by
    rw [← Nat.pow_succ']
    congr 1
    omega
  have whole : share limit inner words < UInt32.size ^ (limit.toNat - depth.toNat) := by
    rw [scale]
    exact Nat.mul_lt_mul_of_pos_right short (Nat.pow_pos (by decide))
  calc share limit inner words + share limit depth left
      < UInt32.size ^ (limit.toNat - depth.toNat) + share limit depth left :=
        Nat.add_lt_add_right whole _
    _ = (left + 1 + 1) * UInt32.size ^ (limit.toNat - depth.toNat) := by
        rw [share, Nat.succ_mul (left + 1), Nat.add_comm]
    _ ≤ share limit depth more := Nat.mul_le_mul_right _ (by omega)

theorem addressFits (base : UInt64) (index : UInt32) :
    address base index = some (wordAddress base index.toNat) := by
  obtain ⟨bytes, computed, value⟩ := bytesFit index
  have same : bytes = (4 * index.toNat).toUInt64 := by rw [← value]; exact UInt64.ofNat_toNat.symm
  simp only [address, computed, wordAddress, same, bind, Option.bind, pure]

theorem advanceFits (s : Descent) (words : UInt32)
    (fits : s.current.offset.toNat + words.toNat ≤ s.current.size.toNat) :
    ∃ offset, s.advance words = some { s with
        current := { s.current with offset }, decoder := s.decoder.countPacket } ∧
      offset.toNat = s.current.offset.toNat + words.toNat := by
  have bound := s.current.size.toNat_lt
  obtain ⟨offset, computed, value⟩ := addFits (a := s.current.offset) (b := words)
    (by simp [UInt32.size]; omega)
  exact ⟨offset, by simp only [advance, computed, bind, Option.bind, pure], value⟩

theorem passFits (s : Descent) {declared : UInt32}
    (fits : s.current.offset.toNat + 1 + declared.toNat ≤ s.current.size.toNat) :
    ∃ offset, s.pass declared = some (.going { s with
        current := { s.current with offset }, decoder := s.decoder.countPacket }) ∧
      offset.toNat = s.current.offset.toNat + 1 + declared.toNat := by
  have bound := s.current.size.toNat_lt
  obtain ⟨words, counted, value⟩ := addFits (a := 1) (b := declared)
    (by simp [UInt32.size]; omega)
  replace value : words.toNat = 1 + declared.toNat := value
  obtain ⟨offset, computed, place⟩ := advanceFits s words (by omega)
  exact ⟨offset, by simp only [pass, counted, computed, bind, Option.bind, pure], by omega⟩

theorem onwardContinues (h : s.Orderly limit) {d : Decoder} {offset : UInt32}
    (fits : offset.toNat ≤ s.current.size.toNat) (further : s.current.offset.toNat < offset.toNat)
    (goes : s.current.finish m limit s.current.offset.toNat s.decoder =
      s.current.finish m limit offset.toNat d) :
    Continues m limit s (.going { s with current := { s.current with offset }, decoder := d }) := by
  refine .going ⟨fits, h.nesting, h.stacked⟩ ?_ ?_
  · rw [outcome, outcome, goes]
    rfl
  · have less : s.current.size.toNat - offset.toNat <
        s.current.size.toNat - s.current.offset.toNat := by omega
    exact Nat.add_lt_add_right (shareLt less) _

theorem passContinues (h : s.Orderly limit) {declared : UInt32} (d : Decoder)
    (fits : s.current.offset.toNat + 1 + declared.toNat ≤ s.current.size.toNat)
    (goes : s.current.finish m limit s.current.offset.toNat s.decoder =
      s.current.finish m limit (s.current.offset.toNat + 1 + declared.toNat) d.countPacket) :
    ∃ p, { s with decoder := d }.pass declared = some p ∧ Continues m limit s p := by
  obtain ⟨offset, passed, place⟩ := passFits { s with decoder := d } fits
  dsimp only at passed place
  exact ⟨_, passed, onwardContinues h (by omega) (by omega) (by rw [goes, place])⟩

theorem leaveContinues (h : s.Orderly limit) (d : Decoder) {result : Except DecodeError Unit}
    (goes : s.current.finish m limit s.current.offset.toNat s.decoder = (d, result)) :
    ∃ p, { s with decoder := d }.leave result = some p ∧ Continues m limit s p := by
  obtain ⟨current, waiting, decoder⟩ := s
  obtain ⟨inside, nesting, stacked⟩ := h
  dsimp only at inside nesting stacked goes ⊢
  generalize deep : current.depth.toNat = depth at stacked
  cases stacked with
  | bottom =>
    have ends : (d, result) = Descent.outcome m limit ⟨current, [], decoder⟩ := goes.symm
    exact ⟨.ended (d, result), rfl, ends ▸ .ended⟩
  | @push caller waiting fits tail =>
    obtain ⟨offset, passed, place⟩ := passFits
      ⟨caller.toActivation, waiting, settle (aborted current.base) (d, result)⟩ fits
    dsimp only at passed place
    refine ⟨_, passed, .going ⟨?_, Nat.le_of_succ_le nesting, tail⟩ ?_ ?_⟩
    · dsimp only
      omega
    · simp only [outcome, resolve, goes, ← place]
      rfl
    · simp only [rank, List.map_cons, List.sum_cons, place]
      exact Nat.lt_add_of_pos_left (sharePos ..)

theorem enterContinues (h : s.Orderly limit) (d : Decoder) {declared : UInt32} {address : UInt64}
    {words : Nat} (fits : s.current.offset.toNat + 1 + declared.toNat ≤ s.current.size.toNat)
    (allowed : s.current.depth < limit) (short : words < UInt32.size - 1)
    (goes : s.current.finish m limit s.current.offset.toNat s.decoder =
      s.current.finish m limit (s.current.offset.toNat + 1 + declared.toNat)
        (following m limit.toNat (limit.toNat - s.current.depth.toNat) address words
          d).countPacket) :
    ∃ p, { s with decoder := d }.enter declared address words = some p ∧ Continues m limit s p := by
  replace allowed : s.current.depth.toNat < limit.toNat := allowed
  have bound := limit.toNat_lt
  obtain ⟨depth, computed, deeper⟩ := addFits (a := s.current.depth) (b := 1)
    (by simp [UInt32.size]; omega)
  replace deeper : depth.toNat = s.current.depth.toNat + 1 := deeper
  have words32 : words.toUInt32.toNat = words := by
    simp [UInt32.size] at short ⊢
    omega
  have went : { s with decoder := d }.enter declared address words = some (.going
      ⟨⟨address, words.toUInt32, 0, depth⟩, ⟨s.current, declared⟩ :: s.waiting,
        d.note (entered address words s.current.depth.toNat)⟩) := by
    simp only [enter, computed, bind, Option.bind, pure]
  refine ⟨_, went, .going ⟨?_, ?_, ?_⟩ ?_ ?_⟩
  · exact Nat.zero_le _
  · have := stackedDepth h.stacked
    simp only [List.length_cons]
    omega
  · simp only [deeper]
    exact .push fits h.stacked
  · obtain ⟨levels, level⟩ : ∃ levels, limit.toNat - s.current.depth.toNat = levels + 1 :=
      ⟨limit.toNat - s.current.depth.toNat - 1, by omega⟩
    have inner : limit.toNat - depth.toNat = levels := by omega
    have outer : limit.toNat - (levels + 1) = s.current.depth.toNat := by omega
    simp only [outcome, resolve, goes]
    simp only [level, following, decodeWalk, Activation.finish, inner, outer, words32]
    rfl
  · simp only [rank, List.map_cons, List.sum_cons, words32, ← Nat.add_assoc]
    refine Nat.add_lt_add_right (shareNested deeper allowed ?_ ?_) _
    · simp [UInt32.size] at short ⊢
      omega
    · omega

theorem finishStep (m : Memory) (limit : UInt32) (a : Activation) (offset : Nat) (d : Decoder) :
    a.finish m limit offset d =
      if a.size.toNat ≤ offset then (d, .ok ())
      else visit (following m limit.toNat (limit.toNat - a.depth.toNat)) m a.base a.size.toNat
        (a.finish m limit) offset d := by
  unfold Activation.finish
  rw [← walkMore _ _ _ _ _ _ _ (Nat.le_add_left ..), walkVisit]

theorem commandContinues (h : s.Orderly limit) {opcode : UInt8} {payload : List UInt32}
    {declared : UInt32}
    (fits : s.current.offset.toNat + 1 + declared.toNat ≤ s.current.size.toNat)
    (goes : s.current.finish m limit s.current.offset.toNat s.decoder =
      s.current.finish m limit (s.current.offset.toNat + 1 + declared.toNat)
        (s.decoder.execute (following m limit.toNat (limit.toNat - s.current.depth.toNat))
          opcode payload).countPacket) :
    ∃ p, s.command limit opcode payload declared = some p ∧ Continues m limit s p := by
  have short := Request.ofPacketShort opcode payload
  unfold command
  rw [execute] at goes ⊢
  cases request : Request.ofPacket opcode payload with
  | follow address words =>
    rw [request] at short goes
    by_cases allowed : s.current.depth < limit
    · simp only [if_pos allowed]
      exact enterContinues h _ fits allowed (Nat.lt_trans short (by decide)) goes
    · have none : limit.toNat - s.current.depth.toNat = 0 :=
        Nat.sub_eq_zero_of_le (Nat.not_lt.mp allowed)
      rw [none] at goes
      simp only [if_neg allowed]
      exact passContinues h _ fits goes
  | _ =>
    rw [request] at goes
    exact passContinues h _ fits goes

theorem fillerContinues (h : s.Orderly limit)
    (inside : s.current.offset.toNat < s.current.size.toNat)
    (goes : s.current.finish m limit s.current.offset.toNat s.decoder =
      s.current.finish m limit (s.current.offset.toNat + 1) s.decoder.countPacket) :
    ∃ t, s.advance 1 = some t ∧ Continues m limit s (.going t) := by
  obtain ⟨next, advanced, place⟩ := advanceFits s 1 inside
  replace place : next.toNat = s.current.offset.toNat + 1 := place
  rw [← place] at goes
  exact ⟨_, advanced, onwardContinues h (by omega) (by omega) goes⟩

theorem stepContinues (h : s.Orderly limit) :
    ∃ p, s.step m limit = some p ∧ Continues m limit s p := by
  obtain ⟨⟨base, size, offset, depth⟩, waiting, decoder⟩ := s
  have goes := finishStep m limit ⟨base, size, offset, depth⟩ offset.toNat decoder
  dsimp only at goes
  unfold step
  dsimp only
  by_cases passed : size ≤ offset
  · rw [if_pos passed]
    exact leaveContinues h decoder (by rw [goes]; exact if_pos passed)
  have inside : offset.toNat < size.toNat := Nat.not_le.mp passed
  rw [if_neg passed]
  rw [if_neg (Nat.not_le.mpr inside), visit] at goes
  simp only [addressFits, bind, Option.bind]
  cases read : m.readU32 (wordAddress base offset.toNat) with
  | error fault =>
    rw [read] at goes
    exact leaveContinues h decoder goes
  | ok raw =>
    obtain ⟨behind, remaining, measured, left, rest⟩ := remainingFits inside
    simp only [read, measured, left] at goes ⊢
    by_cases filler : PacketHeader.type ⟨raw⟩ = .type1 ∨ PacketHeader.type ⟨raw⟩ = .type2
    · rw [if_pos filler] at goes ⊢
      obtain ⟨t, advanced, continues⟩ := fillerContinues h inside goes
      rw [advanced]
      exact ⟨_, rfl, continues⟩
    rw [if_neg filler] at goes ⊢
    obtain ⟨declared, counted, words⟩ := declaredFits ⟨raw⟩
    simp only [counted]
    rw [← rest, ← words] at goes
    by_cases exceeds : remaining < declared
    · rw [if_pos exceeds]
      exact leaveContinues h _ (goes.trans (if_pos exceeds))
    rw [if_neg exceeds]
    replace goes := goes.trans (if_neg exceeds)
    have fits : offset.toNat + 1 + declared.toNat ≤ size.toNat := by
      have := UInt32.le_iff_toNat_le.mp (UInt32.not_lt.mp exceeds)
      omega
    by_cases command : PacketHeader.type ⟨raw⟩ = .type3
    · rw [if_pos command] at goes ⊢
      obtain ⟨bytes, next, computed, following, place, taken⟩ := payloadFits inside declared
      simp only [computed, following, place, taken]
      cases payload : m.readWords (wordAddress base (offset.toNat + 1)) declared.toNat with
      | error fault =>
        rw [payload] at goes
        exact leaveContinues h decoder goes
      | ok payload =>
        rw [payload] at goes
        exact commandContinues h fits goes
    · rw [if_neg command] at goes ⊢
      exact passContinues h _ fits goes

theorem runContinues (h : s.Orderly limit) (turns : Nat) :
    s.run m limit turns = some (.ended (s.outcome m limit)) ∨
      ∃ t, s.run m limit turns = some (.going t) ∧ t.Orderly limit ∧
        t.rank limit + turns ≤ s.rank limit := by
  induction turns generalizing s with
  | zero => exact .inr ⟨s, rfl, h, Nat.le_refl _⟩
  | succ turns ih =>
    obtain ⟨p, stepped, continues⟩ := stepContinues (m := m) h
    simp only [run, stepped, bind, Option.bind]
    cases continues with
    | ended => exact .inl rfl
    | @going t orderly same less =>
      rw [← same]
      obtain ended | ⟨u, reached, inOrder, fewer⟩ := ih orderly
      · exact .inl ended
      · exact .inr ⟨u, reached, inOrder, by omega⟩

end Step

theorem startOrderly (limit : UInt32) (base : UInt64) (size : UInt32) (d : Decoder) :
    (start base size d).Orderly limit :=
  ⟨Nat.zero_le _, Nat.zero_le _, .bottom⟩

theorem startOutcome (m : Memory) (limit : UInt32) (base : UInt64) (size : UInt32) (d : Decoder) :
    (start base size d).outcome m limit = d.process m limit base size :=
  (decodeWalk m limit.toNat limit.toNat base size.toNat d).symm

end Descent

theorem decodingEndsWithinBounds (m : Memory) (limit : UInt32) (base : UInt64) (size : UInt32)
    (d : Decoder) :
    let run := fun turns => (Descent.start base size d).run m limit turns
    (∃ turns, run turns = some (.ended (d.process m limit base size))) ∧
    (∀ turns, run turns ≠ none) ∧
    (∀ turns s, run turns = some (.going s) → s.Orderly limit) ∧
    (∀ turns outcome, run turns = some (.ended outcome) →
      outcome = d.process m limit base size) := by
  intro run
  have reaches (turns : Nat) := Descent.runContinues (m := m)
    (Descent.startOrderly limit base size d) turns
  simp only [Descent.startOutcome] at reaches
  refine ⟨?_, ?_, ?_, ?_⟩
  · obtain ended | ⟨s, -, -, fewer⟩ := reaches ((Descent.start base size d).rank limit + 1)
    · exact ⟨_, ended⟩
    · omega
  · intro turns stopped
    obtain ended | ⟨s, going, -, -⟩ := reaches turns
    · cases stopped.symm.trans ended
    · cases stopped.symm.trans going
  · intro turns s going
    obtain ended | ⟨t, reached, orderly, -⟩ := reaches turns
    · cases going.symm.trans ended
    · cases going.symm.trans reached
      exact orderly
  · intro turns outcome ended
    obtain result | ⟨s, going, -, -⟩ := reaches turns
    · cases ended.symm.trans result
      rfl
    · cases ended.symm.trans going

end GameConsole.Graphics
