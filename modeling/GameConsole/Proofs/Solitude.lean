import GameConsole.Proofs.Procedure

/-! Procedures with nobody else there. All there is to know of one is what it comes to. -/
namespace GameConsole

namespace Procedure

variable {ω α β : Type}

def alone (free : ω → Bool) : Procedure ω α → ω → Option (α × ω)
  | .done result, w => if free w then some (result, w) else none
  | .act change next, w =>
    if free w then (change w).bind fun after => (next w).alone free after else none

section Alone
variable {free : ω → Bool} {w : ω}

@[simp] theorem alonePure (value : α) :
    (pure value : Procedure ω α).alone free w = if free w then some (value, w) else none := rfl

@[simp] theorem aloneLook (f : ω → α) :
    (look f).alone free w = if free w then some (f w, w) else none := by
  cases here : free w <;> simp [look, alone, here]

@[simp] theorem aloneAlter (f : ω → ω) :
    (alter f).alone free w = if free w && free (f w) then some ((), f w) else none := by
  cases here : free w <;> simp [alter, alone, here]

@[simp] theorem aloneUpdate (f : ω → α × ω) :
    (update f).alone free w = if free w && free (f w).2 then some (f w) else none := by
  cases here : free w <;> simp [update, alone, here]

@[simp] theorem aloneBind (p : Procedure ω α) (k : α → Procedure ω β) :
    (p >>= k).alone free w = (p.alone free w).bind fun done => (k done.1).alone free done.2 := by
  induction p generalizing w with
  | done result =>
    change (k result).alone free w = _
    cases here : free w with
    | true => simp only [alone, here, if_true, Option.bind_some]
    | false => cases rest : k result <;> simp [alone, here]
  | act change next ih =>
    change (act change fun w => next w >>= k).alone free w = _
    cases here : free w with
    | false => simp [alone, here]
    | true => cases goes : change w <;> simp [alone, here, goes, ih]

end Alone
end Procedure

namespace Interplay

variable {ω ν τ α : Type} {i : Interplay ω ν τ} {free : ω → Bool} {calm : ν → Prop}

theorem aloneSecures
    (others : ∀ t w, calm w → free (i.state w) → calm (i.other t w) ∧
      i.state (i.other t w) = i.state w)
    (ours : ∀ w c, calm w → calm (i.ours w c) ∧ i.state (i.ours w c) = c)
    (always : ∀ w, i.always w) (allowed : ∀ c d, i.allowed c d) {p : Procedure ω α} {w : ν}
    {value : α} {after : ω} (rests : calm w)
    (comes : p.alone free (i.state w) = some (value, after)) :
    i.Secures (fun result v => result = value ∧ calm v ∧ i.state v = after) p w := by
  have resting (ts : List τ) {w : ν} (rests : calm w) (empty : free (i.state w)) :
      calm (i.others ts w) ∧ i.state (i.others ts w) = i.state w := by
    induction ts generalizing w with
    | nil => exact ⟨rests, rfl⟩
    | cons t ts ih =>
      obtain ⟨calm, same⟩ := others t w rests empty
      obtain ⟨later, kept⟩ := ih calm (same ▸ empty)
      exact ⟨later, kept.trans same⟩
  induction p generalizing w with
  | done result =>
    obtain ⟨empty, comes⟩ := Option.ite_none_right_eq_some.mp comes
    cases comes
    exact fun ts => ⟨always _, rfl, resting ts rests empty⟩
  | act change next ih =>
    obtain ⟨empty, comes⟩ := Option.ite_none_right_eq_some.mp comes
    intro ts
    refine ⟨always _, fun found goes => ⟨allowed _ _, ?_⟩⟩
    obtain ⟨calm, same⟩ := resting ts rests empty
    rw [same] at goes ⊢
    obtain ⟨later, here⟩ := ours _ found calm
    refine ih _ later ?_
    rw [here]
    rwa [goes] at comes

end Interplay

end GameConsole
