import GameConsole.Graphics.Decoder
import GameConsole.Json.Record
import GameConsole.Memory.Basic
import GameConsole.Text

/-! What a console is built from, and its form as JSON text. -/
namespace GameConsole
open Json (Member Layout Problem Reader)

structure DecoderConfig where
  maxIndirectDepth : UInt32 := Graphics.defaultDepthLimit
  deriving DecidableEq, Repr

structure Configuration where
  memory : MemoryConfig := {}
  decoder : DecoderConfig := {}
  pausePoll : UInt64 := 10
  stepsPerTick : UInt64 := 1024
  stackReserve : UInt64 := 0x1000
  neoMode : Bool := true
  deriving DecidableEq, Repr

namespace Configuration

def memoryFields : List (Member MemoryConfig) :=
  [.of "size_bytes" Json.readU64 fun value c => { c with sizeBytes := value },
   .of "enforce_alignment" Json.readFlag fun value c => { c with enforceAlignment := value }]

def decoderFields : List (Member DecoderConfig) :=
  [.of "max_indirect_depth" Json.readU32 fun value c => { c with maxIndirectDepth := value }]

def fields : List (Member Configuration) :=
  [.of "memory" (Json.readRecord .skipped memoryFields {}) fun value c =>
     { c with memory := value },
   .of "decoder" (Json.readRecord .skipped decoderFields {}) fun value c =>
     { c with decoder := value },
   .of "pause_poll_ms" Json.readU64 fun value c => { c with pausePoll := value },
   .of "steps_per_tick" Json.readU64 fun value c => { c with stepsPerTick := value },
   .of "stack_reserve" Json.readU64 fun value c => { c with stackReserve := value },
   .of "neo_mode" Json.readFlag fun value c => { c with neoMode := value }]

def ofText (text : String) : Except Problem Configuration :=
  Json.readAll (Json.readRecord .refused fields {}) text.toList

def layout (c : Configuration) : Layout :=
  .record
    [("memory", .record [("size_bytes", .natural c.memory.sizeBytes.toNat),
       ("enforce_alignment", .flag c.memory.enforceAlignment)]),
     ("decoder", .record [("max_indirect_depth", .natural c.decoder.maxIndirectDepth.toNat)]),
     ("pause_poll_ms", .natural c.pausePoll.toNat),
     ("steps_per_tick", .natural c.stepsPerTick.toNat),
     ("stack_reserve", .natural c.stackReserve.toNat),
     ("neo_mode", .flag c.neoMode)]

def toText (c : Configuration) : String := c.layout.toText

inductive FileError where
  | unreadable (path : String)
  | problem (p : Problem)
  deriving DecidableEq, Repr

def FileError.message : FileError → String
  | .unreadable path => "failed to read configuration " ++ path
  | .problem p => "invalid emulator configuration: " ++ p.message

def ofFile (path : String) (bytes : Option (List UInt8)) : Except FileError Configuration :=
  match bytes.bind Text.Utf8.decode? with
  | none => .error (.unreadable path)
  | some text => (ofText text).mapError .problem

end Configuration

end GameConsole
