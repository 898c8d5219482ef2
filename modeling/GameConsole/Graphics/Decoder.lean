import GameConsole.Graphics.Packet
import GameConsole.Graphics.Queue
import GameConsole.Graphics.State
import GameConsole.Journal
import GameConsole.Memory.Access

/-! Decoding command buffers. Packets are taken in order; state packets change the state, draws
and dispatches yield commands, and a reference to another buffer is decoded in its place, up to
a limit of nesting. An error ends its own buffer only. -/
namespace GameConsole.Graphics

def defaultDepthLimit : UInt32 := 8

inductive DecodeError where
  | overflow (offset declared remaining : Nat)
  | nesting (address : UInt64) (limit : Nat)
  | memory (fault : MemoryFault)
  deriving DecidableEq, Repr

def DecodeError.message : DecodeError → String
  | .overflow offset declared remaining =>
    "packet at dword " ++ toString offset ++ " declares " ++ toString declared ++
      " payload dwords but only " ++ toString remaining ++ " remain"
  | .nesting address limit =>
    "indirect buffer at " ++ Text.hex address.toNat ++ " exceeds the nesting limit of " ++
      toString limit
  | .memory fault => fault.message

structure DecodeCounts where
  packets : Nat := 0
  draws : Nat := 0
  dispatches : Nat := 0
  deriving DecidableEq, Repr

structure Decoder where
  state : GpuState
  counts : DecodeCounts
  commands : Array RenderCommand
  journal : Journal

inductive Request where
  | nothing
  | clearState
  | setRegisters (bank : RegisterBank) (start : UInt32) (values : List UInt32)
  | setIndexType (type : UInt32)
  | setInstances (count : UInt32)
  | draw (vertices : UInt32)
  | drawIndexed (size : UInt32) (address : UInt64) (indices : UInt32)
  | drawIndexedFrom (first indices : UInt32)
  | dispatch (x y z : UInt32)
  | follow (address : UInt64) (words : Nat)
  | acknowledge
  | unmodeled
  | unknown
  deriving DecidableEq, Repr

namespace Request

def joinWords (low high : UInt32) : UInt64 := low.toUInt64 ||| (high.toUInt64 <<< 32)

def ofPacket (opcode : UInt8) (payload : List UInt32) : Request :=
  if opcode = Opcode.nop then .nothing
  else if opcode = Opcode.clearState then .clearState
  else if opcode = Opcode.setContextReg then setRegistersOf .context payload
  else if opcode = Opcode.setShReg then setRegistersOf .sh payload
  else if opcode = Opcode.setUconfigReg then setRegistersOf .uconfig payload
  else if opcode = Opcode.indexType then
    match payload with | type :: _ => .setIndexType (type &&& 3) | _ => .nothing
  else if opcode = Opcode.numInstances then
    match payload with | count :: _ => .setInstances count | _ => .nothing
  else if opcode = Opcode.drawIndexAuto then
    match payload with | vertices :: _ :: _ => .draw vertices | _ => .nothing
  else if opcode = Opcode.drawIndex2 then
    match payload with
    | size :: low :: high :: indices :: _ => .drawIndexed size (joinWords low high) indices
    | _ => .nothing
  else if opcode = Opcode.drawIndexOffset2 then
    match payload with
    | _ :: first :: indices :: _ => .drawIndexedFrom first indices
    | _ => .nothing
  else if opcode = Opcode.dispatchDirect then
    match payload with | x :: y :: z :: _ => .dispatch x y z | _ => .nothing
  else if opcode = Opcode.indirectBuffer then
    match payload with
    | low :: high :: control :: _ =>
      .follow (joinWords low (high &&& 0xFFFF)) (control &&& 0xFFFFF).toNat
    | _ => .nothing
  else if Opcode.isSync opcode then .acknowledge
  else if (Opcode.name? opcode).isSome then .unmodeled
  else .unknown
where
  setRegistersOf (bank : RegisterBank) : List UInt32 → Request
    | first :: values => .setRegisters bank (first &&& 0xFFFF) values
    | [] => .nothing

end Request

def registerEvents (bank : RegisterBank) (start : UInt32) : List UInt32 → List Event
  | [] => []
  | value :: rest =>
    .of .trace "set register" [("bank", .text bank.name), ("reg", .hex 4 start.toNat),
      ("value", .hex 8 value.toNat)] :: registerEvents bank (start + 1) rest

namespace Decoder

def note (d : Decoder) (e : Event) : Decoder := { d with journal := d.journal.add e }

def countPacket (d : Decoder) : Decoder :=
  { d with counts := { d.counts with packets := d.counts.packets + 1 } }

def yieldDraw (d : Decoder) (c : RenderCommand) : Decoder :=
  { d with
    commands := d.commands.push c
    counts := { d.counts with draws := d.counts.draws + 1 } }

def yieldIndexed (d : Decoder) (indices : UInt32) (address : UInt64) : Decoder :=
  (d.note (.of .debug "draw indexed"
    [("index_count", .count indices.toNat), ("index_address", .hex 1 address.toNat)])).yieldDraw
    (.drawIndexed indices d.state.instances address d.state.indexBuffer.type d.state.primitive)

def indexStride (type : UInt32) : UInt64 := if type = 1 then 4 else 2

def carryOut (follow : UInt64 → Nat → Decoder → Decoder) (opcode : UInt8) (request : Request)
    (d : Decoder) : Decoder :=
  match request with
  | .nothing => d
  | .clearState => { d with state := .initial }
  | .setRegisters bank start values =>
    { d with
      state := d.state.setRegisters bank start values
      journal := d.journal.addAll (registerEvents bank start values) }
  | .setIndexType type =>
    { d with state := { d.state with indexBuffer := { d.state.indexBuffer with type } } }
  | .setInstances count => { d with state := { d.state with instances := count } }
  | .draw vertices =>
    (d.note (.of .debug "draw auto" [("vertex_count", .count vertices.toNat),
      ("instances", .count d.state.instances.toNat)])).yieldDraw
      (.draw vertices d.state.instances d.state.primitive)
  | .drawIndexed size address indices =>
    let indexBuffer := { d.state.indexBuffer with address, size }
    { d with state := { d.state with indexBuffer } }.yieldIndexed indices address
  | .drawIndexedFrom first indices =>
    let buffer := d.state.indexBuffer
    d.yieldIndexed indices (buffer.address + first.toUInt64 * indexStride buffer.type)
  | .dispatch x y z =>
    let d := d.note (.of .debug "dispatch direct" [("groups_x", .count x.toNat),
      ("groups_y", .count y.toNat), ("groups_z", .count z.toNat)])
    { d with
      commands := d.commands.push (.dispatch x y z)
      counts := { d.counts with dispatches := d.counts.dispatches + 1 } }
  | .follow address words => follow address words d
  | .acknowledge =>
    d.note (.of .trace "sync packet acknowledged" [("opcode", .text (Opcode.name opcode))])
  | .unmodeled =>
    d.note (.of .debug "PM4 packet not modeled, skipped" [("opcode", .text (Opcode.name opcode))])
  | .unknown =>
    d.note (.of .warn "unrecognized PM4 opcode, skipped" [("opcode", .hex 2 opcode.toNat)])

def execute (follow : UInt64 → Nat → Decoder → Decoder) (opcode : UInt8) (payload : List UInt32)
    (d : Decoder) : Decoder :=
  (d.note (.of .trace "PM4 packet" [("opcode", .text (Opcode.name opcode)),
    ("words", .count payload.length)])).carryOut follow opcode (.ofPacket opcode payload)

def wordAddress (base : UInt64) (index : Nat) : UInt64 := base + (4 * index).toUInt64

/- Decodes the words from `offset` up to `size`. Every packet takes at least one word, so
`size` turns are enough. -/
def walk (follow : UInt64 → Nat → Decoder → Decoder) (m : Memory) (base : UInt64) (size : Nat) :
    Nat → Nat → Decoder → Decoder × Except DecodeError Unit
  | 0, _, d => (d, .ok ())
  | turns + 1, offset, d =>
    if size ≤ offset then (d, .ok ())
    else
      match m.readU32 (wordAddress base offset) with
      | .error fault => (d, .error (.memory fault))
      | .ok raw =>
        let header : PacketHeader := ⟨raw⟩
        let remaining := size - offset - 1
        let declared := header.payloadWords
        if header.type = .type1 ∨ header.type = .type2 then
          walk follow m base size turns (offset + 1) d.countPacket
        else if remaining < declared then
          (d.note (.of .warn "PM4 packet overflows its buffer"
            [("offset", .count offset), ("declared", .count declared),
              ("remaining", .count remaining), ("opcode", .text (Opcode.name header.opcode))]),
            .error (.overflow offset declared remaining))
        else if header.type = .type3 then
          match m.readWords (wordAddress base (offset + 1)) declared with
          | .error fault => (d, .error (.memory fault))
          | .ok payload =>
            walk follow m base size turns (offset + 1 + declared)
              (d.execute follow header.opcode payload).countPacket
        else
          walk follow m base size turns (offset + 1 + declared)
            (d.note (.of .trace "skipping type-0 register write"
              [("offset", .count offset), ("dwords", .count declared)])).countPacket

def refuse (limit : Nat) (address : UInt64) (_words : Nat) (d : Decoder) : Decoder :=
  d.note (.of .warn "indirect buffer skipped"
    [("error", .text (DecodeError.nesting address limit).message)])

/- A buffer below which `levels` more may nest, out of `limit`. -/
def decode (m : Memory) (limit : Nat) :
    Nat → UInt64 → Nat → Decoder → Decoder × Except DecodeError Unit
  | 0, base, size, d => walk (refuse limit) m base size size 0 d
  | levels + 1, base, size, d =>
    let follow (address : UInt64) (words : Nat) (d : Decoder) : Decoder :=
      let d := d.note (.of .debug "indirect buffer" [("addr", .hex 1 address.toNat),
        ("dwords", .count words), ("depth", .count (limit - (levels + 1)))])
      match decode m limit levels address words d with
      | (d, .ok ()) => d
      | (d, .error e) => d.note (.of .warn "indirect buffer aborted"
          [("addr", .hex 1 address.toNat), ("error", .text e.message)])
    walk follow m base size size 0 d

def process (m : Memory) (limit : UInt32) (address : UInt64) (size : UInt32) (d : Decoder) :
    Decoder × Except DecodeError Unit :=
  decode m limit.toNat limit.toNat address size.toNat d

/- The buffers of a submission from number `i` on, `count` of them: their addresses are 64-bit
entries at `buffers`, their sizes in bytes 32-bit entries at `sizes`. -/
def submitFrom (m : Memory) (limit : UInt32) (buffers sizes : UInt64) :
    Nat → Nat → Decoder → Decoder × Except MemoryFault Unit
  | 0, _, d => (d, .ok ())
  | count + 1, i, d =>
    match m.readU64 (buffers + (8 * i).toUInt64) with
    | .error fault => (d, .error fault)
    | .ok address =>
      match m.readU32 (sizes + (4 * i).toUInt64) with
      | .error fault => (d, .error fault)
      | .ok bytes =>
        let d := d.note (.of .trace "command buffer" [("buffer", .count i),
          ("addr", .hex 1 address.toNat), ("dwords", .count (bytes / 4).toNat)])
        match d.process m limit address (bytes / 4) with
        | (d, .ok ()) => submitFrom m limit buffers sizes count (i + 1) d
        | (d, .error e) =>
          submitFrom m limit buffers sizes count (i + 1)
            (d.note (.of .warn "command buffer aborted" [("buffer", .count i),
              ("addr", .hex 1 address.toNat), ("error", .text e.message)]))

def submit (m : Memory) (limit count : UInt32) (buffers sizes : UInt64) (d : Decoder) :
    Decoder × Except MemoryFault Unit :=
  submitFrom m limit buffers sizes count.toNat 0
    (d.note (.of .debug "submit command buffers" [("count", .count count.toNat)]))

end Decoder

end GameConsole.Graphics
