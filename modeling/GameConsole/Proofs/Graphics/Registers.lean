import GameConsole.Graphics.State

/-! The registers of the graphics state and the fields that stand for some of them. Only a write
refreshes a field, and only the field of its own register; still every field can be read off the
registers at any time, and it does not matter in which order different registers were written. -/
namespace GameConsole.Graphics

structure RegisterWrite where
  bank : RegisterBank
  offset : UInt32
  value : UInt32
  deriving DecidableEq

def RegisterWrite.register (w : RegisterWrite) : RegisterBank × UInt32 := (w.bank, w.offset)

inductive RegisterChange where
  | write (w : RegisterWrite)
  | reset
  deriving DecidableEq

namespace RegisterChange

def sinceReset : List RegisterChange → List RegisterWrite
  | [] => []
  | .reset :: rest => sinceReset rest
  | .write w :: rest => if .reset ∈ rest then sinceReset rest else w :: sinceReset rest

end RegisterChange

inductive Stage where
  | pixel | vertex | compute
  deriving DecidableEq

namespace Stage

def low : Stage → UInt32
  | .pixel => Offset.pixelShaderLow
  | .vertex => Offset.vertexShaderLow
  | .compute => Offset.computeShaderLow

def high : Stage → UInt32
  | .pixel => Offset.pixelShaderHigh
  | .vertex => Offset.vertexShaderHigh
  | .compute => Offset.computeShaderHigh

def Touched (stage : Stage) (w : RegisterWrite) : Prop :=
  w.bank = .sh ∧ (w.offset = stage.low ∨ w.offset = stage.high)

instance (stage : Stage) (w : RegisterWrite) : Decidable (stage.Touched w) := by
  unfold Touched; infer_instance

end Stage

inductive Axis where
  | x | y | z
  deriving DecidableEq

namespace Axis

def scale : Axis → UInt32
  | .x => Offset.viewportXScale
  | .y => Offset.viewportYScale
  | .z => Offset.viewportZScale

def offset : Axis → UInt32
  | .x => Offset.viewportXOffset
  | .y => Offset.viewportYOffset
  | .z => Offset.viewportZOffset

def Touched (axis : Axis) (w : RegisterWrite) : Prop :=
  w.bank = .context ∧ (w.offset = axis.scale ∨ w.offset = axis.offset)

instance (axis : Axis) (w : RegisterWrite) : Decidable (axis.Touched w) := by
  unfold Touched; infer_instance

/- Where the viewport lies along an axis: its start and its extent, or its two ends in depth. -/
def fit (axis : Axis) (scale offset : Option UInt32) (old : Float32 × Float32) :
    Float32 × Float32 :=
  match axis with
  | .x | .y =>
    let half := old.2 / 2
    let scale := scale.elim half Float32.ofBits
    (offset.elim (old.1 + half) Float32.ofBits - scale, scale * 2)
  | .z =>
    let start := offset.elim old.1 Float32.ofBits
    (start, start + scale.elim (old.2 - old.1) Float32.ofBits)

theorem fitBoth (axis : Axis) (scale offset : UInt32) (old other : Float32 × Float32) :
    axis.fit (some scale) (some offset) old = axis.fit (some scale) (some offset) other := by
  cases axis <;> simp only [fit, Option.elim_some]

end Axis

def Viewport.along (v : Viewport) : Axis → Float32 × Float32
  | .x => (v.x, v.width)
  | .y => (v.y, v.height)
  | .z => (v.minZ, v.maxZ)

theorem Viewport.eqOfAlong {v u : Viewport} (same : ∀ axis, v.along axis = u.along axis) :
    v = u := by
  have x := Prod.mk.inj (same .x)
  have y := Prod.mk.inj (same .y)
  have z := Prod.mk.inj (same .z)
  exact Viewport.mk.injEq .. ▸ ⟨x.1, y.1, x.2, y.2, z.1, z.2⟩

namespace GpuState

def write (s : GpuState) (w : RegisterWrite) : GpuState := s.setRegister w.bank w.offset w.value

def change (s : GpuState) : RegisterChange → GpuState
  | .write w => s.write w
  | .reset => .initial

def program (s : GpuState) : Stage → UInt64
  | .pixel => s.pixelShader
  | .vertex => s.vertexShader
  | .compute => s.computeShader

def part (s : GpuState) : RegisterBank → GpuState
  | .context =>
    { initial with
      context := s.context
      colorTargets := s.colorTargets
      depthTarget := s.depthTarget
      viewport := s.viewport }
  | .sh =>
    { initial with
      sh := s.sh
      pixelShader := s.pixelShader
      vertexShader := s.vertexShader
      computeShader := s.computeShader }
  | .uconfig => { initial with uconfig := s.uconfig, primitive := s.primitive }

def colorRegister (slot : Fin 8) (place : UInt32) : UInt32 :=
  Offset.colorBase + Offset.colorStride * slot.val.toUInt32 + place

theorem colorRegisterToNat (slot : Fin 8) {place : UInt32} (inside : place < Offset.colorStride) :
    (colorRegister slot place).toNat = 0x318 + 15 * slot.val + place.toNat := by
  have small : place.toNat < 15 := UInt32.lt_iff_toNat_lt.mp inside
  have number : (slot.val.toUInt32).toNat = slot.val := by
    rw [Nat.toUInt32_eq, UInt32.toNat_ofNat']
    omega
  have slots := slot.isLt
  rw [colorRegister, Offset.colorBase, Offset.colorStride]
  simp only [UInt32.toNat_add, UInt32.toNat_mul, number, UInt32.toNat_ofNat]
  omega

theorem colorSlotCases (offset : UInt32) :
    match colorSlot? offset with
    | some (slot, place) => place < Offset.colorStride ∧ offset = colorRegister slot place
    | none => offset < Offset.colorBase ∨ Offset.colorBase + Offset.colorStride * 8 ≤ offset := by
  have stride : Offset.colorStride.toNat = 15 := rfl
  have base : Offset.colorBase.toNat = 0x318 := rfl
  have blocks : (Offset.colorBase + Offset.colorStride * 8).toNat = 0x390 := rfl
  by_cases above : Offset.colorBase ≤ offset
  · have distance : (offset - Offset.colorBase).toNat = offset.toNat - 0x318 :=
      UInt32.toNat_sub_of_le _ _ above
    have number : ((offset - Offset.colorBase) / Offset.colorStride).toNat =
        (offset.toNat - 0x318) / 15 := by
      rw [UInt32.toNat_div, distance, stride]
    have remainder : ((offset - Offset.colorBase) % Offset.colorStride).toNat =
        (offset.toNat - 0x318) % 15 := by
      rw [UInt32.toNat_mod, distance, stride]
    have large : 0x318 ≤ offset.toNat := UInt32.le_iff_toNat_le.mp above
    simp only [colorSlot?, if_pos above]
    split
    case h_1 slot place found =>
      split at found
      case isTrue small =>
        cases found
        have inside : (offset - Offset.colorBase) % Offset.colorStride < Offset.colorStride := by
          rw [UInt32.lt_iff_toNat_lt, remainder, stride]
          omega
        refine ⟨inside, UInt32.toNat_inj.mp ?_⟩
        rw [colorRegisterToNat _ inside, remainder]
        simp only [number]
        omega
      case isFalse => cases found
    case h_2 found =>
      split at found
      case isTrue => cases found
      case isFalse beyond =>
        rw [number] at beyond
        right
        rw [UInt32.le_iff_toNat_le, blocks]
        omega
  · have none : colorSlot? offset = none := by rw [colorSlot?, if_neg above]
    rw [none]
    exact .inl (UInt32.not_le.mp above)

theorem colorRegisterInjective {slot other : Fin 8} {place place' : UInt32}
    (inside : place < Offset.colorStride) (inside' : place' < Offset.colorStride) :
    colorRegister slot place = colorRegister other place' ↔ slot = other ∧ place = place' := by
  constructor
  · intro same
    have numbers := congrArg UInt32.toNat same
    rw [colorRegisterToNat slot inside, colorRegisterToNat other inside'] at numbers
    have small : place.toNat < 15 := UInt32.lt_iff_toNat_lt.mp inside
    have small' : place'.toNat < 15 := UInt32.lt_iff_toNat_lt.mp inside'
    exact ⟨Fin.ext (by omega), UInt32.toNat_inj.mp (by omega)⟩
  · rintro ⟨rfl, rfl⟩
    rfl

theorem colorSlotRegister (slot : Fin 8) {place : UInt32} (inside : place < Offset.colorStride) :
    colorSlot? (colorRegister slot place) = some (slot, place) := by
  have number := colorRegisterToNat slot inside
  have small : place.toNat < 15 := UInt32.lt_iff_toNat_lt.mp inside
  have placed := colorSlotCases (colorRegister slot place)
  cases found : colorSlot? (colorRegister slot place) with
  | none =>
    rw [found, UInt32.lt_iff_toNat_lt, UInt32.le_iff_toNat_le, number] at placed
    have base : Offset.colorBase.toNat = 0x318 := rfl
    have blocks : (Offset.colorBase + Offset.colorStride * 8).toNat = 0x390 := rfl
    dsimp only at placed
    omega
  | some pair =>
    rw [found] at placed
    obtain ⟨rfl, rfl⟩ := (colorRegisterInjective inside placed.1).mp placed.2
    rfl

theorem colorSlotNumber (offset : UInt32) :
    if 0x318 ≤ offset ∧ offset < 0x318 + 15 * 8 then
      ((offset - 0x318) / 15).toNat < 8 ∧
        (colorSlot? offset).map (fun found => found.1.val) = some ((offset - 0x318) / 15).toNat
    else colorSlot? offset = none := by
  have placed := colorSlotCases offset
  cases found : colorSlot? offset with
  | none =>
    rw [found] at placed
    rw [if_neg]
    rintro ⟨above, below⟩
    obtain before | behind := placed
    · exact UInt32.not_lt.mpr above before
    · exact UInt32.not_lt.mpr behind below
  | some pair =>
    obtain ⟨slot, place⟩ := pair
    rw [found] at placed
    obtain ⟨inside, rfl⟩ := placed
    have number := colorRegisterToNat slot inside
    have small : place.toNat < 15 := UInt32.lt_iff_toNat_lt.mp inside
    have above : (0x318 : UInt32) ≤ colorRegister slot place := by
      rw [UInt32.le_iff_toNat_le, number]
      change 0x318 ≤ _
      omega
    have below : colorRegister slot place < 0x318 + 15 * 8 := by
      rw [UInt32.lt_iff_toNat_lt, number]
      change _ < 0x390
      omega
    have quotient : ((colorRegister slot place - 0x318) / 15).toNat = slot.val := by
      rw [UInt32.toNat_div, UInt32.toNat_sub_of_le _ _ above, number]
      change (0x318 + 15 * slot.val + place.toNat - 0x318) / 15 = slot.val
      omega
    rw [if_pos ⟨above, below⟩, quotient]
    exact ⟨slot.isLt, rfl⟩

section Shapes
variable (s : GpuState) (offset value : UInt32)

theorem shShape : ∃ pixelShader vertexShader computeShader,
    s.setRegister .sh offset value =
      { s.store .sh offset value with pixelShader, vertexShader, computeShader } := by
  rw [setRegister, refresh]
  dsimp only
  split
  · exact ⟨_, _, _, rfl⟩
  split
  · exact ⟨_, _, _, rfl⟩
  split
  · exact ⟨_, _, _, rfl⟩
  · exact ⟨_, _, _, rfl⟩

theorem setColorShape (slot : Fin 8) (place : UInt32) : ∃ colorTargets,
    s.setColor slot place value = { s with colorTargets } := by
  rw [setColor]
  split
  · exact ⟨_, rfl⟩
  split
  · exact ⟨_, rfl⟩
  · exact ⟨_, rfl⟩

theorem contextShape : ∃ colorTargets depthTarget viewport,
    s.setRegister .context offset value =
      { s.store .context offset value with colorTargets, depthTarget, viewport } := by
  rw [setRegister, refresh]
  dsimp only
  split
  · exact ⟨_, _, _, rfl⟩
  split
  · exact ⟨_, _, _, rfl⟩
  split
  · exact ⟨_, _, _, rfl⟩
  split
  · exact ⟨_, _, _, rfl⟩
  split
  · obtain ⟨colorTargets, same⟩ := setColorShape (s.store .context offset value) value _ _
    rw [same]
    exact ⟨_, _, _, rfl⟩
  · exact ⟨_, _, _, rfl⟩

theorem uconfigShape : ∃ primitive,
    s.setRegister .uconfig offset value = { s.store .uconfig offset value with primitive } := by
  rw [setRegister, refresh]
  dsimp only
  split
  · exact ⟨_, rfl⟩
  · exact ⟨_, rfl⟩

end Shapes

section Writing
variable (s : GpuState) (w : RegisterWrite)

theorem partOther {bank : RegisterBank} (other : w.bank ≠ bank) :
    (s.write w).part bank = s.part bank := by
  obtain ⟨own, offset, value⟩ := w
  cases own with
  | sh =>
    obtain ⟨_, _, _, same⟩ := shShape s offset value
    rw [write, same]
    cases bank with
    | sh => exact absurd rfl other
    | _ => rfl
  | context =>
    obtain ⟨_, _, _, same⟩ := contextShape s offset value
    rw [write, same]
    cases bank with
    | context => exact absurd rfl other
    | _ => rfl
  | uconfig =>
    obtain ⟨_, same⟩ := uconfigShape s offset value
    rw [write, same]
    cases bank with
    | uconfig => exact absurd rfl other
    | _ => rfl

theorem registerWrite (bank : RegisterBank) (offset : UInt32) :
    (s.write w).register bank offset =
      if w.bank = bank ∧ w.offset = offset then some w.value else s.register bank offset := by
  rw [← registerStore]
  obtain ⟨own, o, value⟩ := w
  cases own with
  | sh =>
    obtain ⟨_, _, _, same⟩ := shShape s o value
    rw [write, same]
    cases bank <;> rfl
  | context =>
    obtain ⟨_, _, _, same⟩ := contextShape s o value
    rw [write, same]
    cases bank <;> rfl
  | uconfig =>
    obtain ⟨_, same⟩ := uconfigShape s o value
    rw [write, same]
    cases bank <;> rfl

theorem programWrite (stage : Stage) :
    (s.write w).program stage =
      if stage.Touched w then
        (s.write w).shader stage.low stage.high
      else s.program stage := by
  by_cases here : w.bank = .sh
  · obtain ⟨_, offset, value⟩ := w
    subst here
    by_cases mine : offset = stage.low ∨ offset = stage.high
    · have stored (o : UInt32) : (s.write ⟨.sh, offset, value⟩).register .sh o =
          (s.store .sh offset value).register .sh o := by rw [registerWrite, registerStore]
      rw [if_pos ⟨rfl, mine⟩]
      simp only [shader, registerOrZero, stored]
      cases stage <;> obtain rfl | rfl := mine <;> rfl
    · rw [if_neg (fun both => mine both.2), write, setRegister, refresh]
      dsimp only
      cases stage <;> grind [program, Stage.low, Stage.high, store]
  · have same := partOther s w here
    rw [if_neg (fun both => here both.1)]
    cases stage with
    | pixel => exact (congrArg pixelShader same :)
    | vertex => exact (congrArg vertexShader same :)
    | compute => exact (congrArg computeShader same :)

theorem depthWrite :
    (s.write w).depthTarget =
      if w.bank = .context ∧ w.offset = Offset.depthBase then w.value.toUInt64 <<< 8
      else s.depthTarget := by
  by_cases here : w.bank = .context
  · obtain ⟨_, offset, value⟩ := w
    subst here
    by_cases mine : offset = Offset.depthBase
    · subst mine
      rfl
    · rw [if_neg (fun both => mine both.2), write, setRegister, refresh]
      dsimp only
      rw [if_neg mine]
      repeat' split
      · rfl
      · rfl
      · rfl
      · obtain ⟨_, same⟩ := setColorShape (s.store .context offset value) value _ _
        rw [same]
        rfl
      · rfl
  · rw [if_neg (fun both => here both.1)]
    exact (congrArg depthTarget (partOther s w here) :)

theorem primitiveWrite :
    (s.write w).primitive =
      if w.bank = .uconfig ∧ w.offset = Offset.primitiveType then w.value else s.primitive := by
  by_cases here : w.bank = .uconfig
  · obtain ⟨_, offset, value⟩ := w
    subst here
    rw [write, setRegister, refresh]
    dsimp only
    by_cases mine : offset = Offset.primitiveType
    · rw [if_pos mine, if_pos ⟨rfl, mine⟩]
    · rw [if_neg mine, if_neg (fun both => mine both.2)]
      rfl
  · rw [if_neg (fun both => here both.1)]
    exact (congrArg primitive (partOther s w here) :)

theorem colorWritten (slot : Fin 8) {place : UInt32} (inside : place < Offset.colorStride)
    (value : UInt32) :
    s.setRegister .context (colorRegister slot place) value =
      (s.store .context (colorRegister slot place) value).setColor slot place value := by
  have number := colorRegisterToNat slot inside
  have away {o : UInt32} (small : o.toNat < 0x318) : colorRegister slot place ≠ o := by
    rintro rfl
    omega
  have apart {first second : UInt32} (small : first.toNat < 0x318) (small' : second.toNat < 0x318) :
      ¬ (colorRegister slot place = first ∨ colorRegister slot place = second) :=
    fun same => same.elim (away small) (away small')
  simp only [setRegister, refresh, colorSlotRegister slot inside]
  rw [if_neg (away (by decide)), if_neg (apart (by decide) (by decide)),
    if_neg (apart (by decide) (by decide)), if_neg (apart (by decide) (by decide))]

theorem colorKept {offset : UInt32} (none : colorSlot? offset = none) (value : UInt32) :
    (s.setRegister .context offset value).colorTargets = s.colorTargets := by
  simp only [setRegister, refresh, none]
  repeat' split
  all_goals rfl

theorem targetSet (slot other : Fin 8) (place value : UInt32) :
    (s.setColor other place value).colorTargets.get slot =
      ⟨if other = slot ∧ place = 0 then value.toUInt64 <<< 8
        else (s.colorTargets.get slot).address,
        if other = slot ∧ place = Offset.colorFormat then value
        else (s.colorTargets.get slot).format⟩ := by
  have differ : (0 : UInt32) ≠ Offset.colorFormat := by decide
  have read (t : GpuState) : t.colorTargets.get slot = t.colorTargets[slot.val] := rfl
  simp only [read]
  unfold setColor
  by_cases same : other = slot
  · subst same
    simp only [true_and]
    by_cases first : place = 0
    · subst first
      simp [differ]
    · by_cases format : place = Offset.colorFormat
      · subst format
        simp [differ.symm]
      · simp [first, format]
  · have apart : other.val ≠ slot.val := fun h => same (Fin.ext h)
    simp only [same, false_and, if_false]
    split
    · simp [apart]
    split
    · simp [apart]
    · rfl

theorem targetWrite (slot : Fin 8) :
    (s.write w).colorTargets.get slot =
      ⟨if w.bank = .context ∧ w.offset = colorRegister slot 0 then w.value.toUInt64 <<< 8
        else (s.colorTargets.get slot).address,
        if w.bank = .context ∧ w.offset = colorRegister slot Offset.colorFormat then w.value
        else (s.colorTargets.get slot).format⟩ := by
  by_cases here : w.bank = .context
  · obtain ⟨_, offset, value⟩ := w
    subst here
    have first : (0 : UInt32) < Offset.colorStride := by decide
    have fifth : Offset.colorFormat < Offset.colorStride := by decide
    have placed := colorSlotCases offset
    change (s.setRegister .context offset value).colorTargets.get slot = _
    cases found : colorSlot? offset with
    | none =>
      have away {place : UInt32} (inside : place < Offset.colorStride) :
          offset ≠ colorRegister slot place := by
        rintro rfl
        cases found.symm.trans (colorSlotRegister slot inside)
      rw [if_neg (fun both => away first both.2), if_neg (fun both => away fifth both.2)]
      exact congrArg (fun targets => targets.get slot) (colorKept s found value)
    | some pair =>
      obtain ⟨other, place⟩ := pair
      rw [found] at placed
      obtain ⟨inside, rfl⟩ := placed
      simp only [colorWritten s other inside value, targetSet, colorRegisterInjective inside first,
        colorRegisterInjective inside fifth, true_and]
      rfl
  · rw [if_neg (fun both => here both.1), if_neg (fun both => here both.1)]
    exact congrArg (fun s => s.colorTargets.get slot) (partOther s w here)

theorem alongWrite (axis : Axis) :
    (s.write w).viewport.along axis =
      if axis.Touched w then
        axis.fit ((s.write w).register .context axis.scale)
          ((s.write w).register .context axis.offset) (s.viewport.along axis)
      else s.viewport.along axis := by
  by_cases here : w.bank = .context
  · obtain ⟨_, offset, value⟩ := w
    subst here
    by_cases mine : offset = axis.scale ∨ offset = axis.offset
    · have stored (o : UInt32) : (s.write ⟨.context, offset, value⟩).register .context o =
          (s.store .context offset value).register .context o := by
        rw [registerWrite, registerStore]
      rw [if_pos ⟨rfl, mine⟩, stored, stored]
      cases axis <;> obtain rfl | rfl := mine <;> rfl
    · rw [if_neg (fun both => mine both.2), write, setRegister, refresh]
      dsimp only
      cases axis <;> grind [Viewport.along, Axis.scale, Axis.offset, store, refreshX, refreshY,
        refreshZ, setColor]
  · rw [if_neg (fun both => here both.1)]
    exact congrArg (fun s => s.viewport.along axis) (partOther s w here)

theorem registerOrZeroWrite (bank : RegisterBank) (offset : UInt32) :
    (s.write w).registerOrZero bank offset =
      if w.bank = bank ∧ w.offset = offset then w.value else s.registerOrZero bank offset := by
  rw [registerOrZero, registerWrite]
  split <;> rfl

theorem restWrite :
    (s.write w).indexBuffer = s.indexBuffer ∧ (s.write w).instances = s.instances := by
  obtain ⟨bank, offset, value⟩ := w
  cases bank with
  | sh =>
    obtain ⟨_, _, _, same⟩ := shShape s offset value
    rw [write, same]
    exact ⟨rfl, rfl⟩
  | context =>
    obtain ⟨_, _, _, same⟩ := contextShape s offset value
    rw [write, same]
    exact ⟨rfl, rfl⟩
  | uconfig =>
    obtain ⟨_, same⟩ := uconfigShape s offset value
    rw [write, same]
    exact ⟨rfl, rfl⟩

theorem shaderApart {stage : Stage} (apart : ¬ stage.Touched w) :
    (s.write w).shader stage.low stage.high = s.shader stage.low stage.high := by
  have other (o : UInt32) (mine : o = stage.low ∨ o = stage.high) :
      ¬ (w.bank = .sh ∧ w.offset = o) := by
    rintro ⟨bank, rfl⟩
    exact apart ⟨bank, mine⟩
  rw [shader, registerOrZeroWrite, registerOrZeroWrite, if_neg (other _ (.inl rfl)),
    if_neg (other _ (.inr rfl))]
  rfl

theorem axisApart {axis : Axis} (apart : ¬ axis.Touched w) :
    (s.write w).register .context axis.scale = s.register .context axis.scale ∧
      (s.write w).register .context axis.offset = s.register .context axis.offset := by
  have other (o : UInt32) (mine : o = axis.scale ∨ o = axis.offset) :
      ¬ (w.bank = .context ∧ w.offset = o) := by
    rintro ⟨bank, rfl⟩
    exact apart ⟨bank, mine⟩
  rw [registerWrite, registerWrite, if_neg (other _ (.inl rfl)), if_neg (other _ (.inr rfl))]
  exact ⟨rfl, rfl⟩

end Writing

/- What the fields are that stand for registers. -/
structure Derived (s : GpuState) : Prop where
  program : ∀ stage : Stage, s.program stage = s.shader stage.low stage.high
  depth : s.depthTarget = (s.registerOrZero .context Offset.depthBase).toUInt64 <<< 8
  target : ∀ slot : Fin 8, s.colorTargets.get slot =
    ⟨(s.registerOrZero .context (colorRegister slot 0)).toUInt64 <<< 8,
      s.registerOrZero .context (colorRegister slot Offset.colorFormat)⟩
  primitive : s.primitive = (s.register .uconfig Offset.primitiveType).getD triangleList

theorem initialDerived : Derived initial where
  program stage := by cases stage <;> rfl
  depth := rfl
  target slot := Vector.getElem_replicate slot.isLt
  primitive := rfl

theorem Derived.write {s : GpuState} (derived : Derived s) (w : RegisterWrite) :
    Derived (s.write w) where
  program stage := by
    rw [programWrite]
    split
    case isTrue => rfl
    case isFalse apart => rw [shaderApart s w apart, derived.program]
  depth := by
    rw [depthWrite, registerOrZeroWrite]
    split
    · rfl
    · exact derived.depth
  target slot := by
    rw [targetWrite, registerOrZeroWrite, registerOrZeroWrite, derived.target]
    congr 1
    split <;> rfl
  primitive := by
    rw [primitiveWrite, registerWrite]
    split
    · rfl
    · exact derived.primitive

theorem eqOfFields {s t : GpuState}
    (rest : s.indexBuffer = t.indexBuffer ∧ s.instances = t.instances)
    (registers : ∀ bank offset, s.register bank offset = t.register bank offset)
    (programs : ∀ stage, s.program stage = t.program stage)
    (depth : s.depthTarget = t.depthTarget) (primitive : s.primitive = t.primitive)
    (targets : ∀ slot : Fin 8, s.colorTargets.get slot = t.colorTargets.get slot)
    (viewport : ∀ axis, s.viewport.along axis = t.viewport.along axis) : s = t := by
  have files (bank : RegisterBank) : s.bank bank = t.bank bank :=
    SparseTable.eqOfGet fun i small => by
      have here := registers bank i.toUInt32
      have number : i.toUInt32.toNat = i := by
        rw [Nat.toUInt32_eq, UInt32.toNat_ofNat', Nat.mod_eq_of_lt small]
      rwa [register, register, number] at here
  have context : s.context = t.context := files .context
  have sh : s.sh = t.sh := files .sh
  have uconfig : s.uconfig = t.uconfig := files .uconfig
  have pixel : s.pixelShader = t.pixelShader := programs .pixel
  have vertex : s.vertexShader = t.vertexShader := programs .vertex
  have compute : s.computeShader = t.computeShader := programs .compute
  have colors : s.colorTargets = t.colorTargets := Vector.ext fun i small => targets ⟨i, small⟩
  have seen : s.viewport = t.viewport := Viewport.eqOfAlong viewport
  exact GpuState.mk.injEq .. ▸ ⟨rest.1, colors, depth, vertex, pixel, compute, primitive, rest.2,
    seen, context, sh, uconfig⟩

section Exchange
variable (s : GpuState) {v w : RegisterWrite}

theorem onlyOne (apart : v.register ≠ w.register) {bank : RegisterBank} {offset : UInt32}
    (second : w.bank = bank ∧ w.offset = offset) : ¬ (v.bank = bank ∧ v.offset = offset) := by
  rintro ⟨rfl, rfl⟩
  exact apart (Prod.ext second.1.symm second.2.symm)

theorem fieldCommutes {α : Type} (apart : v.register ≠ w.register) (bank : RegisterBank)
    (offset : UInt32) (field : UInt32 → α) (old : α) :
    (if w.bank = bank ∧ w.offset = offset then field w.value
      else if v.bank = bank ∧ v.offset = offset then field v.value else old) =
    if v.bank = bank ∧ v.offset = offset then field v.value
      else if w.bank = bank ∧ w.offset = offset then field w.value else old := by
  split
  case isTrue second => rw [if_neg (onlyOne apart second)]
  case isFalse => rfl

theorem registersCommute (apart : v.register ≠ w.register) (bank : RegisterBank)
    (offset : UInt32) :
    ((s.write v).write w).register bank offset = ((s.write w).write v).register bank offset := by
  simp only [registerWrite]
  exact fieldCommutes apart bank offset some _

theorem shadersCommute (apart : v.register ≠ w.register) (low high : UInt32) :
    ((s.write v).write w).shader low high = ((s.write w).write v).shader low high := by
  simp only [shader, registerOrZero, registersCommute s apart]

theorem programsCommute (apart : v.register ≠ w.register) (stage : Stage) :
    ((s.write v).write w).program stage = ((s.write w).write v).program stage := by
  rw [programWrite, programWrite, programWrite, programWrite]
  by_cases first : stage.Touched v
  · by_cases second : stage.Touched w
    · rw [if_pos second, if_pos first]
      exact shadersCommute s apart _ _
    · rw [if_neg second, if_pos first, if_pos first, ← shadersCommute s apart]
      exact (shaderApart _ w second).symm
  · by_cases second : stage.Touched w
    · rw [if_pos second, if_neg first, if_pos second, shadersCommute s apart]
      exact shaderApart _ v first
    · rw [if_neg second, if_neg first, if_neg first, if_neg second]

theorem bothSet {axis : Axis} (apart : v.register ≠ w.register) (first : axis.Touched v)
    (second : axis.Touched w) : ∃ scale offset,
      ((s.write v).write w).register .context axis.scale = some scale ∧
      ((s.write v).write w).register .context axis.offset = some offset := by
  obtain ⟨here, left⟩ := first
  obtain ⟨there, right⟩ := second
  have places : v.offset ≠ w.offset := fun same => apart (Prod.ext (here.trans there.symm) same)
  simp only [registerWrite, here, there, true_and]
  obtain scale | offset := left
  · have other : w.offset = axis.offset := right.resolve_left fun same =>
      places (scale.trans same.symm)
    refine ⟨v.value, w.value, ?_, if_pos other⟩
    rw [if_neg (fun same => places (scale.trans same.symm)), if_pos scale]
  · have other : w.offset = axis.scale := right.resolve_right fun same =>
      places (offset.trans same.symm)
    refine ⟨w.value, v.value, if_pos other, ?_⟩
    rw [if_neg (fun same => places (offset.trans same.symm)), if_pos offset]

theorem alongCommutes (apart : v.register ≠ w.register) (axis : Axis) :
    ((s.write v).write w).viewport.along axis = ((s.write w).write v).viewport.along axis := by
  rw [alongWrite, alongWrite, alongWrite, alongWrite]
  by_cases first : axis.Touched v
  · by_cases second : axis.Touched w
    · obtain ⟨scale, offset, scaled, placed⟩ := bothSet s apart first second
      simp only [if_pos first, if_pos second, ← registersCommute s apart, scaled, placed]
      exact axis.fitBoth scale offset _ _
    · obtain ⟨scale, offset⟩ := axisApart (s.write v) w second
      rw [if_neg second, if_pos first, if_pos first, if_neg second, ← registersCommute s apart,
        ← registersCommute s apart, scale, offset]
  · by_cases second : axis.Touched w
    · obtain ⟨scale, offset⟩ := axisApart (s.write w) v first
      rw [if_pos second, if_neg first, if_neg first, if_pos second, registersCommute s apart,
        registersCommute s apart, scale, offset]
    · rw [if_neg second, if_neg first, if_neg first, if_neg second]

theorem writesCommute (apart : v.register ≠ w.register) :
    (s.write v).write w = (s.write w).write v := by
  refine eqOfFields ?_ (registersCommute s apart) (programsCommute s apart) ?_ ?_ (fun slot => ?_)
    (alongCommutes s apart)
  · simp only [restWrite, and_self]
  · simp only [depthWrite]
    exact fieldCommutes apart _ _ (fun value => value.toUInt64 <<< 8) _
  · simp only [primitiveWrite]
    exact fieldCommutes apart _ _ id _
  · simp only [targetWrite, ColorTarget.mk.injEq]
    exact ⟨fieldCommutes apart _ _ (fun value => value.toUInt64 <<< 8) _,
      fieldCommutes apart _ _ id _⟩

end Exchange

theorem writeFirst (s : GpuState) (w : RegisterWrite) {before : List RegisterWrite}
    (apart : ∀ v ∈ before, v.register ≠ w.register) :
    (before.foldl write s).write w = before.foldl write (s.write w) := by
  induction before generalizing s with
  | nil => rfl
  | cons v rest ih =>
    rw [List.forall_mem_cons] at apart
    rw [List.foldl_cons, List.foldl_cons, ih (s.write v) apart.2, writesCommute s apart.1]

theorem writesReordered {first second : List RegisterWrite}
    (same : ∀ register, first.filter (·.register = register) =
      second.filter (·.register = register)) (s : GpuState) :
    first.foldl write s = second.foldl write s := by
  induction first generalizing second s with
  | nil =>
    cases second with
    | nil => rfl
    | cons w rest =>
      have none := same w.register
      simp at none
  | cons w rest ih =>
    have mine := (same w.register).symm
    rw [List.filter_cons_of_pos (by simp)] at mine
    obtain ⟨before, after, rfl, apart, -, later⟩ := List.filter_eq_cons_iff.mp mine
    have others : ∀ v ∈ before, v.register ≠ w.register := fun v member => by
      simpa using apart v member
    rw [List.foldl_cons, List.foldl_append, List.foldl_cons, writeFirst s w others,
      ← List.foldl_append]
    refine ih (fun register => ?_) (s.write w)
    have whole := same register
    rw [List.filter_append] at whole ⊢
    by_cases here : w.register = register
    · subst here
      have none : before.filter (·.register = w.register) = [] :=
        List.filter_eq_nil_iff.mpr fun v member => by simpa using others v member
      rw [none, later]
      rfl
    · simpa [List.filter_cons, here] using whole

theorem writesDerived {s : GpuState} (derived : Derived s) (writes : List RegisterWrite) :
    Derived (writes.foldl write s) := by
  induction writes generalizing s with
  | nil => exact derived
  | cons w rest ih => exact ih (derived.write w)

theorem writesRegister (s : GpuState) (writes : List RegisterWrite) (bank : RegisterBank)
    (offset : UInt32) :
    (writes.foldl write s).register bank offset =
      ((writes.filter (·.register = (bank, offset))).getLast?.map RegisterWrite.value).or
        (s.register bank offset) := by
  induction writes generalizing s with
  | nil => rfl
  | cons w rest ih =>
    rw [List.foldl_cons, ih, registerWrite]
    by_cases here : w.bank = bank ∧ w.offset = offset
    · have mine : w.register = (bank, offset) := Prod.ext here.1 here.2
      rw [if_pos here, List.filter_cons_of_pos (by simpa using mine), List.getLast?_cons]
      cases (rest.filter (·.register = (bank, offset))).getLast? <;> rfl
    · have other : w.register ≠ (bank, offset) := fun same => here (Prod.mk.inj same)
      rw [if_neg here, List.filter_cons_of_neg (by simpa using other)]

theorem writesElsewhere (s : GpuState) {bank : RegisterBank} {writes : List RegisterWrite}
    (elsewhere : ∀ w ∈ writes, w.bank ≠ bank) : (writes.foldl write s).part bank = s.part bank := by
  induction writes generalizing s with
  | nil => rfl
  | cons w rest ih =>
    rw [List.forall_mem_cons] at elsewhere
    exact (ih (s.write w) elsewhere.2).trans (partOther s w elsewhere.1)

theorem writesPart (s : GpuState) (writes : List RegisterWrite) (bank : RegisterBank) :
    (writes.foldl write s).part bank =
      ((writes.filter (·.bank = bank)).foldl write s).part bank := by
  have sorted : writes.foldl write s =
      (writes.filter (·.bank = bank) ++ writes.filter (·.bank ≠ bank)).foldl write s := by
    refine writesReordered (fun register => ?_) s
    have own (w : RegisterWrite) (mine : w.register = register) : w.bank = register.1 :=
      congrArg Prod.fst mine
    rw [List.filter_append, List.filter_filter, List.filter_filter]
    by_cases here : register.1 = bank
    · have none : writes.filter (fun w => w.register = register && w.bank ≠ bank) = [] :=
        List.filter_eq_nil_iff.mpr fun w _ => by grind
      rw [none, List.append_nil]
      exact List.filter_congr fun w _ => by grind
    · have none : writes.filter (fun w => w.register = register && w.bank = bank) = [] :=
        List.filter_eq_nil_iff.mpr fun w _ => by grind
      rw [none, List.nil_append]
      exact List.filter_congr fun w _ => by grind
  rw [sorted, List.foldl_append]
  exact writesElsewhere _ fun w member => by simpa using (List.mem_filter.mp member).2

def after (changes : List RegisterChange) : GpuState := changes.foldl change initial

theorem afterWrites (changes : List RegisterChange) :
    after changes = (RegisterChange.sinceReset changes).foldl write initial := by
  suffices any : ∀ s, changes.foldl change s = if .reset ∈ changes
      then (RegisterChange.sinceReset changes).foldl write initial
      else (RegisterChange.sinceReset changes).foldl write s by
    have here := any initial
    rwa [ite_self] at here
  induction changes with
  | nil => exact fun s => rfl
  | cons c rest ih =>
    intro s
    cases c with
    | reset =>
      rw [List.foldl_cons, ih, if_pos (List.mem_cons_self ..)]
      exact ite_self _
    | write w =>
      rw [List.foldl_cons, ih, RegisterChange.sinceReset]
      by_cases again : .reset ∈ rest
      · rw [if_pos again, if_pos (.tail _ again), if_pos again]
      · rw [if_neg again, if_neg (by simpa using again), if_neg again]
        rfl

theorem fieldsFollowRegisters (changes : List RegisterChange) :
    let s := after changes
    let writes := RegisterChange.sinceReset changes
    let address (low high : UInt32) : UInt64 :=
      (low.toUInt64 <<< 8) ||| ((high &&& 0xFF).toUInt64 <<< 40)
    (∀ bank offset, s.register bank offset =
      (writes.filter (·.register = (bank, offset))).getLast?.map RegisterWrite.value) ∧
    s.pixelShader = address (s.registerOrZero .sh 0x008) (s.registerOrZero .sh 0x009) ∧
    s.vertexShader = address (s.registerOrZero .sh 0x048) (s.registerOrZero .sh 0x049) ∧
    s.computeShader = address (s.registerOrZero .sh 0x20C) (s.registerOrZero .sh 0x20D) ∧
    s.depthTarget = (s.registerOrZero .context 0x012).toUInt64 <<< 8 ∧
    (∀ slot : Fin 8, s.colorTargets.get slot =
      ⟨(s.registerOrZero .context (0x318 + 15 * slot.val.toUInt32)).toUInt64 <<< 8,
        s.registerOrZero .context (0x31C + 15 * slot.val.toUInt32)⟩) ∧
    s.primitive = (s.register .uconfig 0x242).getD 4 ∧
    (∀ other : List RegisterChange, (∀ register,
        (RegisterChange.sinceReset other).filter (·.register = register) =
          writes.filter (·.register = register)) → after other = s) ∧
    (∀ bank, s.part bank = ((writes.filter (·.bank = bank)).foldl write initial).part bank) ∧
    ∀ offset : UInt32, if 0x318 ≤ offset ∧ offset < 0x318 + 15 * 8 then
        ((offset - 0x318) / 15).toNat < 8 ∧
          (colorSlot? offset).map (fun found => found.1.val) = some ((offset - 0x318) / 15).toNat
      else colorSlot? offset = none := by
  intro s writes address
  have written : s = writes.foldl write initial := afterWrites changes
  have derived : Derived s := written ▸ writesDerived initialDerived writes
  refine ⟨fun bank offset => ?_, derived.program .pixel, derived.program .vertex,
    derived.program .compute, derived.depth, fun slot => ?_, derived.primitive,
    fun other same => ?_, fun bank => ?_, fun offset => ?_⟩
  · rw [written, writesRegister]
    have blank : initial.register bank offset = none := by cases bank <;> rfl
    rw [blank, Option.or_none]
  · have places : colorRegister slot 0 = 0x318 + 15 * slot.val.toUInt32 ∧
        colorRegister slot Offset.colorFormat = 0x31C + 15 * slot.val.toUInt32 := by
      revert slot
      decide
    rw [derived.target, places.1, places.2]
  · rw [written, afterWrites]
    exact writesReordered same initial
  · rw [written]
    exact writesPart initial writes bank
  · exact colorSlotNumber offset

end GpuState

end GameConsole.Graphics
