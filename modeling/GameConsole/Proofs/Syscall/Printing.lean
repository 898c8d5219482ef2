import GameConsole.Proofs.Memory.Folding
import GameConsole.Proofs.Syscall.Footprint
import Mathlib.Data.List.TakeWhile

/-! Reading strings, and the call that prints one. Every byte of a string is folded on its own and
lies in the buffer wherever it folds to, so no string is ever refused, however long it is and
wherever it starts; and so the call that prints cannot fail. -/
namespace GameConsole

namespace Memory

def foldedBytes (m : Memory) (address : UInt64) (count : Nat) : List UInt8 :=
  (List.range count).map fun k => m.byte (m.translate (address + k.toUInt64)).toNat

@[simp] theorem foldedLength (m : Memory) (address : UInt64) (count : Nat) :
    (m.foldedBytes address count).length = count := by
  simp [foldedBytes]

/- What stands before the first zero: a part from the start on without a zero in it, and no other
such part goes on beyond it. -/
structure CString (bytes text : List UInt8) : Prop where
  part : text <+: bytes
  solid : 0 ∉ text
  longest : ∀ {other : List UInt8}, other <+: bytes → 0 ∉ other → other <+: text

namespace CString

variable {bytes text other : List UInt8}

theorem unique (first : CString bytes text) (second : CString bytes other) : text = other := by
  have forth := second.longest first.part first.solid
  have back := first.longest second.part second.solid
  exact forth.eq_of_length_le back.length_le

theorem lengthLe (read : CString bytes text) : text.length ≤ bytes.length := read.part.length_le

theorem takeWhile (bytes : List UInt8) : CString bytes (bytes.takeWhile (· ≠ 0)) where
  part := List.takeWhile_prefix _
  solid member := by simpa using List.mem_takeWhile_imp member
  longest := by
    rintro other ⟨rest, rfl⟩ solid
    rw [takeWhileSolid solid]
    exact List.prefix_append _ _

end CString

theorem readCStringExact (m : Memory) (address : UInt64) (limit : Nat) :
    ∃ text, m.readCString address limit = .ok text ∧ CString (m.foldedBytes address limit) text :=
  ⟨_, m.readCStringOk address limit, .takeWhile _⟩

end Memory

namespace Syscall

open Memory (CString)

variable {δ : Type}

theorem Kernel.writeAnswers (a : Arguments) (g : Guest δ) {text : List UInt8}
    (read : g.memory.readCString a.second (min a.third.toNat writeLimit) = .ok text) :
    (write a g).1 = .ok text.length.toInt64 ∧ (write a g).2.devices = g.devices := by
  unfold write
  simp only [read]
  split <;> simp [Guest.note]

theorem Kernel.lengthAnswered {text : List UInt8} (short : text.length ≤ writeLimit) :
    text.length.toInt64.toUInt64.toNat = text.length := by
  have small : text.length ≤ 4096 := short
  simp
  omega

section BuiltIn
variable (kernel : Part δ Kernel) (neoMode : Bool) (audio : AudioBackend δ) (pad : PadBackend δ)
  (graphics : Part δ GraphicsDevice)

theorem printingSucceeds {order : List (Module δ)}
    (installed : order.Subperm (builtIn kernel neoMode audio pad graphics))
    (present : Kernel.module kernel neoMode ∈ order) :
    (∀ (m : Memory) (address : UInt64) (limit : Nat),
      ∃ text, m.readCString address limit = .ok text ∧ CString (m.foldedBytes address limit) text) ∧
    ∀ g : Guest δ, g.registers.get .rax = Number.write →
      let arguments := Arguments.ofRegisters g.registers
      let after := ((Dispatcher.empty.installAll order).1.dispatch g).2
      let limit := min (g.registers.get .rdx).toNat 4096
      ∃ text answer, CString (g.memory.foldedBytes (g.registers.get .rsi) limit) text ∧
        (∀ journal, (Kernel.write arguments { g with journal }).1 = .ok answer) ∧
        answer.toUInt64.toNat = text.length ∧
        after.registers = g.registers.set .rax answer.toUInt64 ∧
        after.memory = g.memory ∧ after.devices = g.devices := by
  refine ⟨Memory.readCStringExact, ?_⟩
  intro g call arguments after limit
  have listed : (Number.write, (Kernel.write : Handler δ)) ∈
      (Kernel.module kernel neoMode).handlers := by simp [Kernel.module]
  have found : (Dispatcher.empty.installAll order).1.handlers.find? Number.write =
      some Kernel.write := builtInFinds kernel neoMode audio pad graphics installed present listed
  obtain ⟨text, read, exact⟩ := g.memory.readCStringExact (g.registers.get .rsi) limit
  have answers (journal : Journal) := Kernel.writeAnswers arguments { g with journal } read
  have spares := Kernel.writeSpares arguments (g.note (Dispatcher.call g.registers))
  obtain ⟨registers, memory, devices⟩ := Dispatcher.dispatchServes (g := g) (call ▸ found)
  have answered := answers (g.note (Dispatcher.call g.registers)).journal
  have short : text.length ≤ Kernel.writeLimit := by
    have length := exact.lengthLe
    rw [Memory.foldedLength] at length
    exact length.trans (Nat.min_le_right _ _)
  refine ⟨text, text.length.toInt64, exact, fun journal => (answers journal).1,
    Kernel.lengthAnswered short, ?_, memory.trans spares.2, devices.trans answered.2⟩
  rw [registers, spares.1]
  exact congrArg (fun outcome => g.registers.set .rax outcome.value.toUInt64) answered.1

end BuiltIn

theorem printingSucceedsAround :
    let g : Guest Devices :=
      { registers := ((Registers.powerOn.set .rax 4).set .rsi 0xFFFFFFFFFFFFFFFE).set .rdx 40
        memory := (Memory.zeros 4 (by decide) true).store 0 (List.replicate 16 120)
        devices := .initial 8
        journal := .empty }
    let after := ((Dispatcher.empty.installAll [Devices.kernelModule true]).1.dispatch g).2
    g.registers.get .rax = Number.write ∧ (after.registers.get .rax).toNat = 40 ∧
      after.memory = g.memory := by
  intro g after
  have alone : [Devices.kernelModule true].Subperm (Devices.modules true) :=
    List.singleton_subperm_iff.mpr (.head _)
  have call : g.registers.get .rax = Number.write := by decide +kernel
  obtain ⟨text, answer, read, -, length, registers, memory, -⟩ :=
    (printingSucceeds Devices.kernelPart true (NullAudio.backend Devices.audioPart)
      (NullPad.backend Devices.padPart) Devices.graphicsPart alone (.head _)).2 g call
  have around : g.memory.foldedBytes (g.registers.get .rsi)
      (min (g.registers.get .rdx).toNat 4096) = List.replicate 40 120 := by decide +kernel
  have whole : text = List.replicate 40 120 := by
    rw [around] at read
    exact read.unique (.takeWhile _)
  refine ⟨call, ?_, memory⟩
  rw [registers, Registers.getSetSelf, length, whole]
  rfl

end Syscall

end GameConsole
