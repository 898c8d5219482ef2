import GameConsole.Proofs.Layout
import GameConsole.Proofs.Memory.History
import GameConsole.Proofs.Syscall.Footprint

/-! What the state of a pad becomes in memory. Its fields stand one after the other without a gap,
so a value and its bytes determine each other; and the calls that read a pad store either all of
these bytes or none. -/
namespace GameConsole.Syscall

open Layout (Field Lays placed)
open Memory (Reach)

variable {δ : Type}

namespace PadData
open PlainData (Lawful)

def parts (d : PadData) : List (List UInt8) :=
  [PlainData.encode d.buttons, PlainData.encode d.leftStickX, PlainData.encode d.leftStickY,
    PlainData.encode d.rightStickX, PlainData.encode d.rightStickY, PlainData.encode d.analogL2,
    PlainData.encode d.analogR2, PlainData.encode d.padding1, PlainData.encode d.orientation,
    PlainData.encode d.accel, PlainData.encode d.gyro, PlainData.encode d.touch,
    PlainData.encode d.connected, PlainData.encode d.padding2, PlainData.encode d.timestamp,
    PlainData.encode d.extension, PlainData.encode d.connectedCount, PlainData.encode d.padding3]

theorem bytesEncoded {n : Nat} (v : Vector UInt8 n) : PlainData.encode v = v.toList :=
  List.flatMap_singleton' _

theorem encodeParts (d : PadData) : PlainData.encode d = d.parts.flatten := by
  change d.encode = d.parts.flatten
  simp only [encode, parts, bytesEncoded, List.flatten_cons, List.flatten_nil, List.append_assoc,
    List.append_nil]
  rfl

theorem partsPlaced (d : PadData) : placed 0 d.parts =
    [(0x00, PlainData.encode d.buttons), (0x04, PlainData.encode d.leftStickX),
      (0x05, PlainData.encode d.leftStickY), (0x06, PlainData.encode d.rightStickX),
      (0x07, PlainData.encode d.rightStickY), (0x08, PlainData.encode d.analogL2),
      (0x09, PlainData.encode d.analogR2), (0x0A, PlainData.encode d.padding1),
      (0x0C, PlainData.encode d.orientation), (0x1C, PlainData.encode d.accel),
      (0x28, PlainData.encode d.gyro), (0x34, PlainData.encode d.touch),
      (0x4C, PlainData.encode d.connected), (0x4D, PlainData.encode d.padding2),
      (0x50, PlainData.encode d.timestamp), (0x58, PlainData.encode d.extension),
      (0x64, PlainData.encode d.connectedCount), (0x65, PlainData.encode d.padding3)] := by
  simp only [parts, placed, Lawful.encodeLength]
  rfl

section Fields
variable {α : Type} [PlainData α] [Lawful α] {offset : Nat}

theorem fieldRead {d : PadData} {value : α}
    (member : (offset, PlainData.encode value) ∈ placed 0 d.parts) :
    field (PlainData.encode d) offset = value := by
  have found : Field.In (offset, PlainData.encode value) d.parts.flatten :=
    Layout.placedFound [] member
  rw [← encodeParts] at found
  unfold Field.In at found
  rw [Lawful.encodeLength] at found
  rw [field, found, Lawful.decodeEncode]

theorem fieldWritten {raw : List UInt8} (room : offset + PlainData.size α ≤ raw.length) :
    Field.In (offset, PlainData.encode (field raw offset : α)) raw := by
  have length : ((raw.drop offset).take (PlainData.size α)).length = PlainData.size α := by
    rw [List.length_take, List.length_drop]
    omega
  unfold Field.In
  rw [Lawful.encodeLength]
  exact (Lawful.encodeDecode _ length).symm

end Fields

instance : Lawful PadData where
  alignPos := Nat.succ_pos _
  encodeLength := encodeLength
  decodeEncode d := by
    change decode (PlainData.encode d) = d
    have listed := d.partsPlaced
    cases d
    simp only [decode, mk.injEq]
    and_intros <;> exact fieldRead (by simp [listed])
  encodeDecode raw length := by
    have total : raw.length = 0x68 := length
    have found : ∀ field ∈ placed 0 (decode raw).parts, field.In raw := by
      simp only [partsPlaced, List.forall_mem_cons]
      and_intros
      all_goals first | exact fieldWritten (by rw [total]; decide) | exact List.forall_mem_nil _
    have whole : raw.length = 0 + (decode raw).parts.flatten.length := by
      rw [← encodeParts, encodeLength, Nat.zero_add, length]
    exact (encodeParts _).trans (Layout.placedDetermines whole found).symm

end PadData

def words (values : List UInt32) : List UInt8 :=
  values.flatMap fun value => LittleEndian.split 4 value.toNat

def PadState.layout (s : PadState) (timestamp : UInt64) : List Field :=
  [(0x00, words [s.buttons]), (0x04, [s.leftStick.1]), (0x05, [s.leftStick.2]),
    (0x06, [s.rightStick.1]), (0x07, [s.rightStick.2]), (0x08, [s.l2]), (0x09, [s.r2]),
    (0x0C, words [0, 0, 0, 0x3F800000]), (0x1C, words s.accel.toList),
    (0x28, words s.gyro.toList), (0x34, List.replicate 24 0), (0x4C, [1]),
    (0x50, LittleEndian.split 8 timestamp.toNat), (0x64, [1])]

theorem PadData.ofStateLays (s : PadState) (timestamp : UInt64) :
    Lays (PlainData.encode (ofState s timestamp)) (s.layout timestamp) := by
  have listed : placed 0 (ofState s timestamp).parts =
      [(0x00, words [s.buttons]), (0x04, [s.leftStick.1]), (0x05, [s.leftStick.2]),
        (0x06, [s.rightStick.1]), (0x07, [s.rightStick.2]), (0x08, [s.l2]), (0x09, [s.r2]),
        (0x0A, List.replicate 2 0), (0x0C, words [0, 0, 0, 0x3F800000]),
        (0x1C, words s.accel.toList), (0x28, words s.gyro.toList), (0x34, List.replicate 24 0),
        (0x4C, [1]), (0x4D, List.replicate 3 0), (0x50, LittleEndian.split 8 timestamp.toNat),
        (0x58, List.replicate 12 0), (0x64, [1]), (0x65, List.replicate 3 0)] := by
    rw [partsPlaced]
    simp only [ofState, bytesEncoded, Vector.toList_replicate]
    rfl
  rw [encodeParts]
  apply Layout.partsLay
  · rw [listed]
    simp [PadState.layout]
  · rw [listed]
    simp [PadState.layout]

namespace Pad

variable (backend : PadBackend δ) (a : Arguments) (g : Guest δ)

theorem readNull (null : a.second = 0) :
    (read backend a g).1.value = -1 ∧ (read backend a g).2.memory = g.memory := by
  simp [read, null, Outcome.failed]

theorem readGiven (given : a.second ≠ 0) :
    let asked := backend.state a.first.toUInt32.toInt32 g.devices
    read backend a g = conclude { g with devices := asked.2 }
      (g.memory.write a.second (PadData.ofState asked.1 (backend.clock asked.2))) := if_neg given

theorem readRefused (given : a.second ≠ 0)
    (refused : ¬ Reach.Granted ⟨a.second, 0x68, 8⟩ g.memory) :
    (read backend a g).1.value = -14 ∧ (read backend a g).2.memory = g.memory := by
  rw [readGiven backend a g given]
  cases attempt : g.memory.write a.second (PadData.ofState _ _) with
  | ok memory => exact absurd (Memory.writeOkIff.mp attempt).1 refused
  | error fault => exact ⟨rfl, rfl⟩

theorem readGranted (given : a.second ≠ 0)
    (granted : Reach.Granted ⟨a.second, 0x68, 8⟩ g.memory) :
    let asked := backend.state a.first.toUInt32.toInt32 g.devices
    (read backend a g).1.value = 0 ∧
      g.memory.write a.second (PadData.ofState asked.1 (backend.clock asked.2)) =
        .ok (read backend a g).2.memory := by
  intro asked
  let data := PadData.ofState asked.1 (backend.clock asked.2)
  have stored : g.memory.write a.second data = .ok _ := Memory.writeOkIff.mpr ⟨granted, rfl⟩
  rw [readGiven backend a g given, stored]
  exact ⟨rfl, rfl⟩

end Pad

section BuiltIn
variable (kernel : Part δ Kernel) (neoMode : Bool) (audio : AudioBackend δ) (pad : PadBackend δ)
  (graphics : Part δ GraphicsDevice)

theorem padStateArrives {order : List (Module δ)}
    (installed : order.Subperm (builtIn kernel neoMode audio pad graphics))
    (present : Pad.module pad ∈ order) (g : Guest δ)
    (call : g.registers.get .rax = Number.padRead ∨ g.registers.get .rax = Number.padReadState) :
    let after := ((Dispatcher.empty.installAll order).1.dispatch g).2
    let pointer := g.registers.get .rsi
    let range : Reach := ⟨pointer, 0x68, 8⟩
    let asked := pad.state (g.registers.get .rdi).toUInt32.toInt32 g.devices
    let timestamp := pad.clock asked.2
    (pointer = 0 →
      after.registers = g.registers.set .rax (-1 : Int64).toUInt64 ∧ after.memory = g.memory) ∧
    (pointer ≠ 0 → ¬ range.Granted g.memory →
      after.registers = g.registers.set .rax (-14 : Int64).toUInt64 ∧ after.memory = g.memory) ∧
    (pointer ≠ 0 → range.Granted g.memory →
      after.registers = g.registers.set .rax 0 ∧ g.memory.Confined after.memory [range] ∧
      Lays (after.memory.bytesAt (range.start g.memory) 0x68) (asked.1.layout timestamp) ∧
      after.memory.read pointer = .ok (PadData.ofState asked.1 timestamp)) := by
  intro after pointer range asked timestamp
  let arguments := Arguments.ofRegisters g.registers
  let called := g.note (Dispatcher.call g.registers)
  have listed : (g.registers.get .rax, (Pad.read pad : Handler δ)) ∈ (Pad.module pad).handlers := by
    rcases call with number | number <;> simp [Pad.module, number]
  obtain ⟨result, memory, -⟩ := Dispatcher.dispatchServes (g := g)
    (builtInFinds kernel neoMode audio pad graphics installed present listed)
  have registers : after.registers =
      g.registers.set .rax (Pad.read pad arguments called).1.value.toUInt64 := by
    rw [((Pad.readTidy pad).stays arguments called).1] at result
    exact result
  refine ⟨fun null => ?_, fun given refused => ?_, fun given granted => ?_⟩
  · obtain ⟨value, same⟩ := Pad.readNull pad arguments called null
    rw [value] at registers
    exact ⟨registers, memory.trans same⟩
  · obtain ⟨value, same⟩ := Pad.readRefused pad arguments called given refused
    rw [value] at registers
    exact ⟨registers, memory.trans same⟩
  · obtain ⟨value, stored⟩ := Pad.readGranted pad arguments called given granted
    have written : g.memory.write pointer (PadData.ofState asked.1 timestamp) =
        .ok after.memory := stored.trans (congrArg Except.ok memory.symm)
    have bytes : after.memory.bytesAt (range.start g.memory) 0x68 =
        PlainData.encode (PadData.ofState asked.1 timestamp) := Memory.bytesWritten written
    have lays := PadData.ofStateLays asked.1 timestamp
    rw [← bytes] at lays
    rw [value] at registers
    exact ⟨registers, Memory.writeConfined (by decide) (PadData.encodeLength _) written, lays,
      Memory.readWritten written⟩

end BuiltIn

theorem padStateArrivesAtEnd :
    let held : PadState :=
      { buttons := 0x10C021, leftStick := (3, 250), rightStick := (127, 0), l2 := 255, r2 := 64
        accel := #v[0x3F000000, 0xBF800000, 0x7FC00001]
        gyro := #v[0x40490FDB, 0x80000000, 0xFF800000] }
    let g : Guest Devices :=
      { registers := ((Registers.powerOn.set .rax 571).set .rdi 1).set .rsi 0x98
        memory := Memory.zeros 8 (by decide) true
        devices := { Devices.initial 8 with pad := { state := held, clock := 0x123456789ABCD } }
        journal := .empty }
    let after := ((Dispatcher.empty.installAll [Devices.padModule]).1.dispatch g).2
    g.registers.get .rax = Number.padReadState ∧ after.registers = g.registers.set .rax 0 ∧
      Lays (after.memory.bytesAt 0x98 0x68) (held.layout 0x123456789ABCD) ∧
      after.memory.read 0x98 = .ok (PadData.ofState held 0x123456789ABCD) := by
  intro held g after
  have alone : [Devices.padModule].Subperm (Devices.modules true) :=
    List.singleton_subperm_iff.mpr (.tail _ (.tail _ (.head _)))
  have call : g.registers.get .rax = Number.padReadState := by decide +kernel
  have pointer : g.registers.get .rsi = 0x98 := by decide +kernel
  have given : g.registers.get .rsi ≠ 0 := by decide +kernel
  have granted : Reach.Granted ⟨g.registers.get .rsi, 0x68, 8⟩ g.memory := by decide +kernel
  have start : Reach.start ⟨g.registers.get .rsi, 0x68, 8⟩ g.memory = 0x98 := by decide +kernel
  obtain ⟨registers, -, bytes, value⟩ :=
    (padStateArrives Devices.kernelPart true (NullAudio.backend Devices.audioPart)
      (NullPad.backend Devices.padPart) Devices.graphicsPart alone (.head _) g (.inr call)).2.2
      given granted
  rw [start] at bytes
  rw [pointer] at value
  exact ⟨call, registers, bytes, value⟩

end GameConsole.Syscall
