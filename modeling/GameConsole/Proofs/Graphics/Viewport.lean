import GameConsole.Proofs.Graphics.Registers

/-! Where the viewport lies. A write to one of the two registers of an axis places the axis anew,
from the registers and, as long as only one of them is written, from what the viewport implies for
the other one. What comes of this on the way depends on everything before it; once both registers
are written nothing of that is left, in whatever order they were written. -/
namespace GameConsole.Graphics

namespace Axis

def place (axis : Axis) (scale offset : Float32) : Float32 × Float32 :=
  match axis with
  | .x | .y => (offset - scale, scale * 2)
  | .z => (offset, offset + scale)

theorem fitPlaces (axis : Axis) (scale offset : UInt32) (old : Float32 × Float32) :
    axis.fit (some scale) (some offset) old = axis.place (.ofBits scale) (.ofBits offset) := by
  cases axis <;> simp [fit, place]

end Axis

namespace GpuState

/- An axis with two registers lies where they place it, and one without any where it lay at the
start. Of an axis with one register nothing is said. -/
structure Settled (s : GpuState) (axis : Axis) : Prop where
  both : ∀ {scale offset}, s.register .context axis.scale = some scale →
    s.register .context axis.offset = some offset →
      s.viewport.along axis = axis.place (.ofBits scale) (.ofBits offset)
  neither : s.register .context axis.scale = none → s.register .context axis.offset = none →
    s.viewport.along axis = Viewport.initial.along axis

theorem initialSettled (axis : Axis) : initial.Settled axis where
  both scaled := by simp [register, bank, initial] at scaled
  neither _ _ := by simp [initial]

theorem touchedWritten (s : GpuState) {w : RegisterWrite} {axis : Axis} (touched : axis.Touched w) :
    (s.write w).register .context axis.scale ≠ none ∨
      (s.write w).register .context axis.offset ≠ none := by
  rcases touched with ⟨bank, scale | offset⟩
  · left
    simp [registerWrite, bank, scale]
  · right
    simp [registerWrite, bank, offset]

theorem Settled.write {s : GpuState} {axis : Axis} (settled : s.Settled axis) (w : RegisterWrite) :
    (s.write w).Settled axis := by
  by_cases touched : axis.Touched w
  · have placed := alongWrite s w axis
    rw [if_pos touched] at placed
    constructor
    · intro scale offset scaled moved
      rw [placed, scaled, moved, axis.fitPlaces]
    · intro unscaled unmoved
      rcases touchedWritten s touched with written | written
      · exact absurd unscaled written
      · exact absurd unmoved written
  · have kept := alongWrite s w axis
    rw [if_neg touched] at kept
    have registers := axisApart s w touched
    constructor
    · intro scale offset scaled moved
      rw [registers.1] at scaled
      rw [registers.2] at moved
      rw [kept, settled.both scaled moved]
    · intro unscaled unmoved
      rw [registers.1] at unscaled
      rw [registers.2] at unmoved
      rw [kept, settled.neither unscaled unmoved]

theorem writesSettled {s : GpuState} {axis : Axis} (settled : s.Settled axis)
    (writes : List RegisterWrite) : (writes.foldl write s).Settled axis := by
  induction writes generalizing s with
  | nil => exact settled
  | cons w rest ih => exact ih (settled.write w)

def lastWritten (writes : List RegisterWrite) (offset : UInt32) : Option UInt32 :=
  (writes.filter (·.register = (.context, offset))).getLast?.map RegisterWrite.value

theorem registerLastWritten (writes : List RegisterWrite) (offset : UInt32) :
    (writes.foldl write initial).register .context offset = lastWritten writes offset := by
  rw [writesRegister, lastWritten]
  simp [register, bank, initial]

theorem viewportKept (s : GpuState) {w : RegisterWrite} (apart : ∀ axis : Axis, ¬ axis.Touched w) :
    (s.write w).viewport = s.viewport := by
  apply Viewport.eqOfAlong
  intro axis
  rw [alongWrite, if_neg (apart axis)]

theorem viewportFollowsRegisters (changes : List RegisterChange) :
    let v := (after changes).viewport
    let last := lastWritten (RegisterChange.sinceReset changes)
    let number := Float32.ofBits
    (∀ scale offset, last 0x10F = some scale → last 0x110 = some offset →
      v.x = number offset - number scale ∧ v.width = number scale * 2) ∧
    (∀ scale offset, last 0x111 = some scale → last 0x112 = some offset →
      v.y = number offset - number scale ∧ v.height = number scale * 2) ∧
    (∀ scale offset, last 0x113 = some scale → last 0x114 = some offset →
      v.minZ = number offset ∧ v.maxZ = number offset + number scale) ∧
    (last 0x10F = none → last 0x110 = none → v.x = 0 ∧ v.width = 1920) ∧
    (last 0x111 = none → last 0x112 = none → v.y = 0 ∧ v.height = 1080) ∧
    (last 0x113 = none → last 0x114 = none → v.minZ = 0 ∧ v.maxZ = 1) ∧
    ∀ (s : GpuState) (w : RegisterWrite),
      ¬ (w.bank = .context ∧ w.offset ∈ [0x10F, 0x110, 0x111, 0x112, 0x113, 0x114]) →
        (s.write w).viewport = s.viewport := by
  intro v last number
  have settled (axis : Axis) : (after changes).Settled axis := by
    rw [afterWrites]
    exact writesSettled (initialSettled axis) _
  have stored (offset : UInt32) : (after changes).register .context offset = last offset := by
    rw [afterWrites, registerLastWritten]
  have both (axis : Axis) {scale offset : UInt32} (scaled : last axis.scale = some scale)
      (moved : last axis.offset = some offset) :
      v.along axis = axis.place (number scale) (number offset) :=
    (settled axis).both ((stored _).trans scaled) ((stored _).trans moved)
  have neither (axis : Axis) (unscaled : last axis.scale = none)
      (unmoved : last axis.offset = none) : v.along axis = Viewport.initial.along axis :=
    (settled axis).neither ((stored _).trans unscaled) ((stored _).trans unmoved)
  refine ⟨fun scale offset scaled moved => Prod.mk.inj (both .x scaled moved),
    fun scale offset scaled moved => Prod.mk.inj (both .y scaled moved),
    fun scale offset scaled moved => Prod.mk.inj (both .z scaled moved),
    fun unscaled unmoved => Prod.mk.inj (neither .x unscaled unmoved),
    fun unscaled unmoved => Prod.mk.inj (neither .y unscaled unmoved),
    fun unscaled unmoved => Prod.mk.inj (neither .z unscaled unmoved), ?_⟩
  intro s w other
  refine viewportKept s fun axis touched => other ⟨touched.1, ?_⟩
  rcases touched.2 with scale | offset
  · cases axis <;> simp [scale, Axis.scale, Offset.viewportXScale, Offset.viewportYScale,
      Offset.viewportZScale]
  · cases axis <;> simp [offset, Axis.offset, Offset.viewportXOffset, Offset.viewportYOffset,
      Offset.viewportZOffset]

theorem viewportFollowsRegistersInterleaved :
    let changes : List RegisterChange :=
      [.write ⟨.context, 0x113, 7⟩, .reset, .write ⟨.context, 0x110, 0x44200000⟩,
        .write ⟨.sh, 0x10F, 9⟩, .write ⟨.context, 0x10F, 0x3F800000⟩,
        .write ⟨.context, 0x112, 0x43B40000⟩, .write ⟨.context, 0x10F, 0x44200000⟩]
    let v := (after changes).viewport
    v.x = .ofBits 0x44200000 - .ofBits 0x44200000 ∧ v.width = .ofBits 0x44200000 * 2 ∧
      v.minZ = 0 ∧ v.maxZ = 1 := by
  intro changes v
  have placed := viewportFollowsRegisters changes
  have x := placed.1 0x44200000 0x44200000 (by decide) (by decide)
  have z := placed.2.2.2.2.2.1 (by decide) (by decide)
  exact ⟨x.1, x.2, z⟩

end GpuState

end GameConsole.Graphics
