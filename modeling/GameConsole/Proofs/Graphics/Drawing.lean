import GameConsole.Proofs.Graphics.Registers
import GameConsole.Proofs.Graphics.Workload
import Mathlib.Data.List.Basic

/-! What a draw says. It is read off the packets that came before it, and the state in between is
only a summary of them: of the last packet of each kind since everything was cleared. -/
namespace GameConsole.Graphics

structure Order where
  opcode : UInt8
  payload : List UInt32
  deriving DecidableEq

def Packet.order? (p : Packet) : Option Order :=
  if p.header.type = .type3 then some ⟨p.header.opcode, p.payload⟩ else none

def writesOf (bank : RegisterBank) (start : UInt32) (values : List UInt32) : List RegisterWrite :=
  values.mapIdx fun i value => ⟨bank, start + i.toUInt32, value⟩

def lastPrimitive (writes : List RegisterWrite) : Option UInt32 :=
  (writes.filter (·.register = (.uconfig, 0x242))).getLast?.map RegisterWrite.value

def latest {α : Type} (reading : Order → Option α) (past : List Order) : Option α :=
  (past.takeWhile fun o => o.opcode ≠ Opcode.clearState).findSome? reading

namespace Order

def instances? (o : Order) : Option UInt32 :=
  if o.opcode = Opcode.numInstances then o.payload.head? else none

def indexType? (o : Order) : Option UInt32 :=
  if o.opcode = Opcode.indexType then o.payload.head?.map (· &&& 3) else none

def address? (o : Order) : Option UInt64 :=
  if o.opcode = Opcode.drawIndex2 then
    match o.payload with
    | _ :: low :: high :: _ :: _ => some (low.toUInt64 ||| (high.toUInt64 <<< 32))
    | _ => none
  else none

def primitive? (o : Order) : Option UInt32 :=
  if o.opcode = Opcode.setUconfigReg then
    match o.payload with
    | first :: values => lastPrimitive (writesOf .uconfig (first &&& 0xFFFF) values)
    | [] => none
  else none

/- The command that comes of an order, given the orders before it. -/
def issues? (past : List Order) (o : Order) : Option RenderCommand :=
  let instances := (latest instances? past).getD 1
  let primitive := (latest primitive? past).getD 4
  let type := (latest indexType? past).getD 0
  if o.opcode = Opcode.drawIndexAuto then
    match o.payload with
    | vertices :: _ :: _ => some (.draw vertices instances primitive)
    | _ => none
  else if o.opcode = Opcode.drawIndex2 then
    match o.payload with
    | _ :: low :: high :: indices :: _ =>
      some (.drawIndexed indices instances (low.toUInt64 ||| (high.toUInt64 <<< 32)) type primitive)
    | _ => none
  else if o.opcode = Opcode.drawIndexOffset2 then
    match o.payload with
    | _ :: first :: indices :: _ =>
      let address := (latest address? past).getD 0 + first.toUInt64 * (if type = 1 then 4 else 2)
      some (.drawIndexed indices instances address type primitive)
    | _ => none
  else if o.opcode = Opcode.dispatchDirect then
    match o.payload with
    | x :: y :: z :: _ => some (.dispatch x y z)
    | _ => none
  else none

end Order

def issued (past : List Order) : List Order → List RenderCommand
  | [] => []
  | o :: rest => (o.issues? past).toList ++ issued (o :: past) rest

def Order.clears (o : Order) : Bool := o.opcode == Opcode.clearState

theorem latestCons {α : Type} (reading : Order → Option α) (o : Order) (past : List Order) :
    latest reading (o :: past) =
      if o.clears then none else (reading o).or (latest reading past) := by
  unfold latest
  by_cases clears : o.opcode = Opcode.clearState
  · rw [List.takeWhile_cons_of_neg (by simpa using clears), Order.clears, clears]
    rfl
  · have goesOn : o.clears = false := beq_eq_false_iff_ne.mpr clears
    rw [List.takeWhile_cons_of_pos (by simpa using clears), List.findSome?_cons, goesOn]
    cases reading o <;> rfl

namespace Request

def clears : Request → Bool
  | .clearState => true
  | _ => false

def instances? : Request → Option UInt32
  | .setInstances count => some count
  | _ => none

def indexType? : Request → Option UInt32
  | .setIndexType type => some type
  | _ => none

def address? : Request → Option UInt64
  | .drawIndexed _ address _ => some address
  | _ => none

def primitive? : Request → Option UInt32
  | .setRegisters .uconfig start values => lastPrimitive (writesOf .uconfig start values)
  | _ => none

def issues? (s : GpuState) : Request → Option RenderCommand
  | .draw vertices => some (.draw vertices s.instances s.primitive)
  | .drawIndexed _ address indices =>
    some (.drawIndexed indices s.instances address s.indexBuffer.type s.primitive)
  | .drawIndexedFrom first indices =>
    some (.drawIndexed indices s.instances
      (s.indexBuffer.address + first.toUInt64 * Decoder.indexStride s.indexBuffer.type)
      s.indexBuffer.type s.primitive)
  | .dispatch x y z => some (.dispatch x y z)
  | _ => none

end Request

structure Mirrors (past : List Order) (s : GpuState) : Prop where
  instances : s.instances = (latest Order.instances? past).getD 1
  primitive : s.primitive = (latest Order.primitive? past).getD 4
  indexType : s.indexBuffer.type = (latest Order.indexType? past).getD 0
  address : s.indexBuffer.address = (latest Order.address? past).getD 0

structure Order.Asks (o : Order) (r : Request) : Prop where
  clears : o.clears = r.clears
  instances : o.instances? = r.instances?
  primitive : o.primitive? = r.primitive?
  indexType : o.indexType? = r.indexType?
  address : o.address? = r.address?
  issues {past : List Order} {s : GpuState} (mirrors : Mirrors past s) :
    o.issues? past = r.issues? s

section Asking
variable {payload : List UInt32}

theorem asksDraw :
    Order.Asks ⟨Opcode.drawIndexAuto, payload⟩ (.ofPacket Opcode.drawIndexAuto payload) := by
  match payload with
  | [] | [_] => exact ⟨rfl, rfl, rfl, rfl, rfl, fun _ => rfl⟩
  | vertices :: _ :: _ =>
    refine ⟨rfl, rfl, rfl, rfl, rfl, fun {past s} mirrors => ?_⟩
    change _ = some (RenderCommand.draw vertices s.instances s.primitive)
    rw [mirrors.instances, mirrors.primitive]
    rfl

theorem asksIndexed :
    Order.Asks ⟨Opcode.drawIndex2, payload⟩ (.ofPacket Opcode.drawIndex2 payload) := by
  match payload with
  | [] | [_] | [_, _] | [_, _, _] => exact ⟨rfl, rfl, rfl, rfl, rfl, fun _ => rfl⟩
  | _ :: low :: high :: indices :: _ =>
    refine ⟨rfl, rfl, rfl, rfl, rfl, fun {past s} mirrors => ?_⟩
    change _ = some (RenderCommand.drawIndexed indices s.instances (Request.joinWords low high)
      s.indexBuffer.type s.primitive)
    rw [mirrors.instances, mirrors.primitive, mirrors.indexType]
    rfl

theorem asksIndexedFrom :
    Order.Asks ⟨Opcode.drawIndexOffset2, payload⟩ (.ofPacket Opcode.drawIndexOffset2 payload) := by
  match payload with
  | [] | [_] | [_, _] => exact ⟨rfl, rfl, rfl, rfl, rfl, fun _ => rfl⟩
  | _ :: first :: indices :: _ =>
    refine ⟨rfl, rfl, rfl, rfl, rfl, fun {past s} mirrors => ?_⟩
    change _ = some (RenderCommand.drawIndexed indices s.instances
      (s.indexBuffer.address + first.toUInt64 * Decoder.indexStride s.indexBuffer.type)
      s.indexBuffer.type s.primitive)
    rw [mirrors.instances, mirrors.primitive, mirrors.indexType, mirrors.address]
    rfl

theorem asksDispatch :
    Order.Asks ⟨Opcode.dispatchDirect, payload⟩ (.ofPacket Opcode.dispatchDirect payload) := by
  match payload with
  | [] | [_] | [_, _] => exact ⟨rfl, rfl, rfl, rfl, rfl, fun _ => rfl⟩
  | _ :: _ :: _ :: _ => exact ⟨rfl, rfl, rfl, rfl, rfl, fun _ => rfl⟩

end Asking

def speaking : List UInt8 :=
  [Opcode.clearState, Opcode.setUconfigReg, Opcode.indexType, Opcode.numInstances,
    Opcode.drawIndexAuto, Opcode.drawIndex2, Opcode.drawIndexOffset2, Opcode.dispatchDirect]

def Request.Idle : Request → Prop
  | .nothing | .follow .. | .acknowledge | .unmodeled | .unknown => True
  | .setRegisters bank .. => bank ≠ .uconfig
  | _ => False

theorem Order.Asks.idle {o : Order} (silent : o.opcode ∉ speaking) {r : Request} (idle : r.Idle) :
    o.Asks r := by
  simp only [speaking, List.mem_cons, List.not_mem_nil, or_false, not_or] at silent
  obtain ⟨clear, uconfig, type, instances, draw, indexed, indexedFrom, dispatch⟩ := silent
  have clears : o.clears = false := beq_eq_false_iff_ne.mpr clear
  have issues (past : List Order) : o.issues? past = none := by
    unfold Order.issues?
    dsimp only
    rw [if_neg draw, if_neg indexed, if_neg indexedFrom, if_neg dispatch]
  have readings : o.instances? = none ∧ o.primitive? = none ∧ o.indexType? = none ∧
      o.address? = none := ⟨if_neg instances, if_neg uconfig, if_neg type, if_neg indexed⟩
  obtain ⟨instances, primitive, type, address⟩ := readings
  cases r with
  | nothing | follow | acknowledge | unmodeled | unknown =>
    exact ⟨clears, instances, primitive, type, address, fun _ => issues _⟩
  | setRegisters bank start values =>
    cases bank with
    | uconfig => exact absurd rfl idle
    | context | sh => exact ⟨clears, instances, primitive, type, address, fun _ => issues _⟩
  | clearState | setIndexType | setInstances | draw | drawIndexed | drawIndexedFrom | dispatch =>
    exact absurd idle id

theorem Request.ofPacketIdle {opcode : UInt8} (silent : opcode ∉ speaking)
    (payload : List UInt32) : (Request.ofPacket opcode payload).Idle := by
  simp only [speaking, List.mem_cons, List.not_mem_nil, or_false, not_or] at silent
  obtain ⟨clear, uconfig, type, instances, draw, indexed, indexedFrom, dispatch⟩ := silent
  have registers {bank : RegisterBank} (other : bank ≠ .uconfig) :
      (Request.ofPacket.setRegistersOf bank payload).Idle := by
    cases payload with
    | nil => trivial
    | cons => exact other
  unfold Request.ofPacket
  rw [if_neg clear, if_neg uconfig, if_neg type, if_neg instances,
    if_neg draw, if_neg indexed, if_neg indexedFrom, if_neg dispatch]
  have otherwise {c : Prop} [Decidable c] {r q : Request} (yes : r.Idle) (no : q.Idle) :
      (if c then r else q).Idle := iteInduction (motive := Idle) (fun _ => yes) (fun _ => no)
  refine otherwise trivial (otherwise (registers nofun) (otherwise (registers nofun) ?_))
  refine otherwise ?follow (otherwise trivial (otherwise trivial trivial))
  match payload with
  | [] | [_] | [_, _] | _ :: _ :: _ :: _ => trivial

theorem Order.asks (o : Order) : o.Asks (.ofPacket o.opcode o.payload) := by
  obtain ⟨opcode, payload⟩ := o
  by_cases silent : opcode ∈ speaking
  · simp only [speaking, List.mem_cons, List.not_mem_nil, or_false] at silent
    obtain rfl | rfl | rfl | rfl | rfl | rfl | rfl | rfl := silent
    · exact ⟨rfl, rfl, rfl, rfl, rfl, fun _ => rfl⟩
    · cases payload <;> exact ⟨rfl, rfl, rfl, rfl, rfl, fun _ => rfl⟩
    · cases payload <;> exact ⟨rfl, rfl, rfl, rfl, rfl, fun _ => rfl⟩
    · cases payload <;> exact ⟨rfl, rfl, rfl, rfl, rfl, fun _ => rfl⟩
    · exact asksDraw
    · exact asksIndexed
    · exact asksIndexedFrom
    · exact asksDispatch
  · exact .idle silent (Request.ofPacketIdle silent payload)

namespace GpuState

theorem setRegistersWrites (s : GpuState) (bank : RegisterBank) (start : UInt32)
    (values : List UInt32) :
    s.setRegisters bank start values = (writesOf bank start values).foldl write s := by
  induction values generalizing s start with
  | nil => rfl
  | cons value rest ih =>
    have shifted (i : Nat) : start + (i + 1).toUInt32 = start + 1 + i.toUInt32 := by
      rw [UInt32.add_assoc, UInt32.add_comm 1]
      exact congrArg (start + ·) (UInt32.ofNat_add i 1)
    have first : start + (0 : Nat).toUInt32 = start := UInt32.add_zero start
    rw [setRegisters, ih, writesOf, writesOf, List.mapIdx_cons, List.foldl_cons, first]
    simp only [shifted]
    rfl

theorem lastPrimitiveNone {bank : RegisterBank} (other : bank ≠ .uconfig) (start : UInt32)
    (values : List UInt32) : lastPrimitive (writesOf bank start values) = none := by
  have elsewhere : (writesOf bank start values).filter (·.register = (.uconfig, 0x242)) = [] := by
    refine List.filter_eq_nil_iff.mpr fun w written => ?_
    obtain ⟨i, inside, rfl⟩ := List.mem_mapIdx.mp written
    rw [decide_eq_true_iff]
    exact fun same => other (congrArg Prod.fst same)
  rw [lastPrimitive, elsewhere]
  rfl

theorem writesRest (s : GpuState) (writes : List RegisterWrite) :
    (writes.foldl write s).indexBuffer = s.indexBuffer ∧
      (writes.foldl write s).instances = s.instances := by
  induction writes generalizing s with
  | nil => exact ⟨rfl, rfl⟩
  | cons w rest ih =>
    obtain ⟨indexBuffer, instances⟩ := restWrite s w
    rw [List.foldl_cons, (ih _).1, (ih _).2]
    exact ⟨indexBuffer, instances⟩

theorem writesPrimitive (s : GpuState) (writes : List RegisterWrite) :
    (writes.foldl write s).primitive = (lastPrimitive writes).getD s.primitive := by
  induction writes generalizing s with
  | nil => rfl
  | cons w rest ih =>
    rw [List.foldl_cons, ih, primitiveWrite, lastPrimitive, lastPrimitive]
    by_cases here : w.bank = .uconfig ∧ w.offset = Offset.primitiveType
    · have mine : w.register = (.uconfig, 0x242) := Prod.ext here.1 here.2
      rw [if_pos here, List.filter_cons_of_pos (by simpa using mine), List.getLast?_cons]
      cases (rest.filter (·.register = (.uconfig, 0x242))).getLast? <;> rfl
    · have other : w.register ≠ (.uconfig, 0x242) := fun same => here (Prod.mk.inj same)
      rw [if_neg here, List.filter_cons_of_neg (by simpa using other)]

end GpuState

theorem Mirrors.initially : Mirrors [] .initial := ⟨rfl, rfl, rfl, rfl⟩

section Keeping
open Decoder (passing)
variable {past : List Order} {s t : GpuState} {o : Order} {r : Request} {d : Decoder}

theorem Mirrors.order (mirrors : Mirrors past s) (asks : o.Asks r) (goesOn : r.clears = false)
    (instances : t.instances = r.instances?.getD s.instances)
    (primitive : t.primitive = r.primitive?.getD s.primitive)
    (indexType : t.indexBuffer.type = r.indexType?.getD s.indexBuffer.type)
    (address : t.indexBuffer.address = r.address?.getD s.indexBuffer.address) :
    Mirrors (o :: past) t := by
  have latestKept {α : Type} (reading : Order → Option α) :
      latest reading (o :: past) = (reading o).or (latest reading past) := by
    rw [latestCons, asks.clears, goesOn]
    rfl
  constructor
  · rw [latestKept, asks.instances, Option.getD_or, instances, mirrors.instances]
  · rw [latestKept, asks.primitive, Option.getD_or, primitive, mirrors.primitive]
  · rw [latestKept, asks.indexType, Option.getD_or, indexType, mirrors.indexType]
  · rw [latestKept, asks.address, Option.getD_or, address, mirrors.address]

theorem Mirrors.clear (clears : o.clears = true) : Mirrors (o :: past) .initial := by
  have forgotten {α : Type} (reading : Order → Option α) : latest reading (o :: past) = none := by
    rw [latestCons, clears]
    rfl
  constructor <;> rw [forgotten] <;> rfl

theorem Mirrors.carryOut (mirrors : Mirrors past d.state) (asks : o.Asks r) (opcode : UInt8) :
    Mirrors (o :: past) (d.carryOut passing opcode r).state := by
  cases r with
  | clearState => exact .clear asks.clears
  | setRegisters bank start values =>
    have whole : (d.carryOut passing opcode (.setRegisters bank start values)).state =
        (writesOf bank start values).foldl GpuState.write d.state :=
      d.state.setRegistersWrites bank start values
    have rest := GpuState.writesRest d.state (writesOf bank start values)
    rw [whole]
    refine mirrors.order asks rfl rest.2 ?_ (congrArg IndexBuffer.type rest.1)
      (congrArg IndexBuffer.address rest.1)
    rw [GpuState.writesPrimitive]
    by_cases own : bank = .uconfig
    · rw [own]
      rfl
    · rw [GpuState.lastPrimitiveNone own]
      cases bank with
      | uconfig => exact absurd rfl own
      | context | sh => rfl
  | nothing | setIndexType | setInstances | draw | drawIndexed | drawIndexedFrom | dispatch
  | follow | acknowledge | unmodeled | unknown => exact mirrors.order asks rfl rfl rfl rfl rfl

theorem carryOutIssues (mirrors : Mirrors past d.state) (asks : o.Asks r) (opcode : UInt8) :
    (d.carryOut passing opcode r).commands.toList =
      d.commands.toList ++ (o.issues? past).toList := by
  rw [asks.issues mirrors]
  cases r with
  | draw | drawIndexed | drawIndexedFrom | dispatch => exact Array.toList_push
  | nothing | clearState | setRegisters | setIndexType | setInstances | follow | acknowledge
  | unmodeled | unknown => exact (List.append_nil _).symm

theorem Mirrors.execute (mirrors : Mirrors past d.state) (o : Order) :
    Mirrors (o :: past) (d.execute passing o.opcode o.payload).state ∧
      (d.execute passing o.opcode o.payload).commands.toList =
        d.commands.toList ++ (o.issues? past).toList := by
  rw [Decoder.execute]
  generalize noted : d.note _ = e
  have same : Mirrors past e.state := noted ▸ mirrors
  have commands : e.commands = d.commands := noted ▸ rfl
  rw [← commands]
  exact ⟨same.carryOut o.asks _, carryOutIssues same o.asks _⟩

theorem Mirrors.perform (mirrors : Mirrors past d.state) (p : Packet) :
    Mirrors (p.order?.toList ++ past) (d.perform passing p).state ∧
      (d.perform passing p).commands.toList =
        d.commands.toList ++ issued past p.order?.toList := by
  by_cases command : p.header.type = .type3
  · have ordered : p.order? = some ⟨p.header.opcode, p.payload⟩ := if_pos command
    obtain ⟨after, commands⟩ := mirrors.execute ⟨p.header.opcode, p.payload⟩
    rw [ordered, Decoder.perform, if_pos command]
    exact ⟨after, commands.trans (congrArg (d.commands.toList ++ ·) (List.append_nil _).symm)⟩
  · have none : p.order? = none := if_neg command
    rw [none, Decoder.perform, if_neg command]
    exact ⟨mirrors, (List.append_nil _).symm⟩

theorem performAllIssues (mirrors : Mirrors past d.state) (packets : List Packet) :
    (d.performAll passing packets).commands.toList =
      d.commands.toList ++ issued past (packets.filterMap Packet.order?) := by
  induction packets generalizing d past with
  | nil => exact (List.append_nil _).symm
  | cons p rest ih =>
    obtain ⟨after, commands⟩ := mirrors.perform p
    rw [Decoder.performAll, List.foldl_cons, ← Decoder.performAll, ih after, commands]
    cases ordered : p.order? with
    | none =>
      rw [List.filterMap_cons_none ordered]
      exact congrArg (· ++ _) (List.append_nil _)
    | some o =>
      rw [List.filterMap_cons_some ordered]
      simp only [issued, Option.toList_some, List.append_nil, List.append_assoc, List.cons_append,
        List.nil_append]

end Keeping

def leastWords (opcode : UInt8) : Nat :=
  if opcode = Opcode.drawIndex2 then 4
  else if opcode = Opcode.drawIndexOffset2 ∨ opcode = Opcode.dispatchDirect then 3
  else if opcode = Opcode.drawIndexAuto then 2
  else if opcode = Opcode.indexType ∨ opcode = Opcode.numInstances then 1
  else 0

theorem Request.ofPacketTooShort {opcode : UInt8} {payload : List UInt32}
    (short : payload.length < leastWords opcode) : Request.ofPacket opcode payload = .nothing := by
  unfold leastWords at short
  split at short
  case isTrue same =>
    subst same
    match payload with
    | [] | [_] | [_, _] | [_, _, _] => rfl
  split at short
  case isTrue same =>
    obtain rfl | rfl := same <;> match payload with
    | [] | [_] | [_, _] => rfl
  split at short
  case isTrue same =>
    subst same
    match payload with
    | [] | [_] => rfl
  split at short
  case isTrue same =>
    obtain rfl | rfl := same <;> match payload with
    | [] => rfl
  case isFalse => exact absurd short (Nat.not_lt_zero _)

namespace Decoder

/- Whatever a decoder is given to decode: every command that comes of it says what the orders
before it have said, in other buffers as well as in its own. -/
theorem drawsFollowOrders (limit : UInt32) (counts : DecodeCounts)
    (commands : Array RenderCommand) (journal : Journal) (works : List Work) :
    let orders := (works.flatMap (Work.packets limit)).filterMap Packet.order?
    (workAll limit ⟨.initial, counts, commands, journal⟩ works).commands.toList =
      commands.toList ++ issued [] orders ∧
    ∀ (follow : Follow) (opcode : UInt8) (payload : List UInt32) (d : Decoder),
      payload.length < leastWords opcode → (d.execute follow opcode payload).Agrees d := by
  intro orders
  refine ⟨?_, fun follow opcode payload d short => ?_⟩
  · let begun : Decoder := ⟨.initial, counts, commands, journal⟩
    have unfolds : (workAll limit begun works).Agrees
        (begun.performAll passing (works.flatMap (Work.packets limit))) :=
      workAllUnfolded (.refl begun) works
    rw [unfolds.commands]
    exact performAllIssues .initially _
  · rw [execute, Request.ofPacketTooShort short]
    exact (Agrees.refl d).note _

example :
    let head (opcode : UInt8) (words : UInt32) : UInt32 := (PacketHeader.build opcode words 0).raw
    let first : List UInt32 :=
      [head Opcode.numInstances 1, 3, head Opcode.setUconfigReg 3, 0x241, 8, 9]
    let second : List UInt32 := [head Opcode.drawIndexAuto 2, 6, 2, head Opcode.clearState 1, 0,
      head Opcode.drawIndexAuto 2, 7, 2]
    let m := (Memory.zeros 6 (by decide) false).store 0 ((first ++ second).flatMap PlainData.encode)
    (workAll 1 ⟨.initial, {}, #[], .empty⟩ [.buffer m 0 6, .buffer m 24 8]).commands.toList =
      [.draw 6 3 9, .draw 7 1 4] := by
  decide +kernel

end Decoder

end GameConsole.Graphics
