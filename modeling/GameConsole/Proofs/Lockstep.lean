import GameConsole.Proofs.Procedure

/-! Two runs of the same calls, turn by turn. If no step of a call and no turn of the others tells
one state from another, then neither do the results of the calls. -/
namespace GameConsole

variable {ω ν τ α β κ : Type} {R : ω → ω → Prop} {T : α → α → Prop} {U : β → β → Prop}

namespace Procedure

/- From related states, both procedures wait or both take a step to related states, and the results
with which they end are related. -/
def InStep (R : ω → ω → Prop) (T : α → α → Prop) : Procedure ω α → Procedure ω α → Prop
  | .done value, .done other => T value other
  | .act change next, .act other later => ∀ c d, R c d →
    Option.Rel R (change c) (other d) ∧ InStep R T (next c) (later d)
  | _, _ => False

namespace InStep

theorem ends {p q : Procedure ω α} (h : InStep R T p q) : Option.Rel T p.result? q.result? := by
  cases p <;> cases q <;> first | exact .none | exact .some h | cases h

theorem bind {p q : Procedure ω α} {k l : α → Procedure ω β} (h : InStep R T p q)
    (rest : ∀ value other, T value other → InStep R U (k value) (l other)) :
    InStep R U (p >>= k) (q >>= l) := by
  induction p generalizing q with
  | done value =>
    cases q with
    | done other => exact rest value other h
    | act => cases h
  | act change next ih =>
    cases q with
    | done => cases h
    | act other later => exact fun c d related => ⟨(h c d related).1, ih c (h c d related).2⟩

theorem thenBoth {p q : Procedure ω α} {k l : α → Procedure ω β} (h : InStep R Eq p q)
    (rest : ∀ value, InStep R U (k value) (l value)) : InStep R U (p >>= k) (q >>= l) :=
  h.bind fun value _ same => same ▸ rest value

theorem look {f : ω → α} (same : ∀ c d, R c d → T (f c) (f d)) :
    InStep R T (Procedure.look f) (Procedure.look f) :=
  fun c d related => ⟨.some related, same c d related⟩

theorem alter {f g : ω → ω} (keeps : ∀ c d, R c d → R (f c) (g d)) :
    InStep R Eq (Procedure.alter f) (Procedure.alter g) :=
  fun c d related => ⟨.some (keeps c d related), rfl⟩

theorem update {f : ω → α × ω} (keeps : ∀ c d, R c d → T (f c).1 (f d).1 ∧ R (f c).2 (f d).2) :
    InStep R T (Procedure.update f) (Procedure.update f) :=
  fun c d related => ⟨.some (keeps c d related).2, (keeps c d related).1⟩

theorem await [Inhabited α] {f : ω → Option (α × ω)}
    (keeps : ∀ c d, R c d → Option.Rel (fun x y => x.1 = y.1 ∧ R x.2 y.2) (f c) (f d)) :
    InStep R Eq (Procedure.await f) (Procedure.await f) := by
  intro c d related
  have found := keeps c d related
  dsimp only
  generalize f c = first, f d = second at found
  cases found with
  | none => exact ⟨.none, rfl⟩
  | some both => exact ⟨.some both.2, both.1⟩

end InStep

end Procedure

namespace Interplay

structure Couples (i : Interplay ω ν τ) (R : ω → ω → Prop) (W : ν → ν → Prop) : Prop where
  state : ∀ v w, W v w → R (i.state v) (i.state w)
  other : ∀ t v w, W v w → W (i.other t v) (i.other t w)
  ours : ∀ v w c d, W v w → R c d → W (i.ours v c) (i.ours w d)

namespace Session

/- Two sessions with the same call under way. -/
structure InStep (R : ω → ω → Prop) (T : α → α → Prop) (W : ν → ν → Prop)
    (s t : Session ω ν α) : Prop where
  rest : Procedure.InStep R T s.rest t.rest
  world : W s.world t.world

variable {i : Interplay ω ν τ} {W : ν → ν → Prop} {calls : κ → Procedure ω α} {fresh : ν → ν}
  {s t : Session ω ν α}

theorem InStep.take (couples : i.Couples R W)
    (calling : ∀ call, Procedure.InStep R T (calls call) (calls call))
    (freshly : ∀ v w, W v w → W (fresh v) (fresh w)) (h : InStep R T W s t) (turn : Turn κ τ) :
    InStep R T W (s.take i calls fresh turn) (t.take i calls fresh turn) := by
  obtain ⟨v, p⟩ := s
  obtain ⟨w, q⟩ := t
  obtain ⟨rest, world⟩ := h
  cases p with
  | done value =>
    cases q with
    | act => cases rest
    | done result =>
      cases turn with
      | begin call => exact ⟨calling call, freshly v w world⟩
      | proceed => exact ⟨rest, world⟩
      | other turn => exact ⟨rest, couples.other turn v w world⟩
  | act change next =>
    cases q with
    | done => cases rest
    | act other later =>
      cases turn with
      | begin call => exact ⟨rest, world⟩
      | other turn => exact ⟨rest, couples.other turn v w world⟩
      | proceed =>
        obtain ⟨steps, goesOn⟩ := rest _ _ (couples.state v w world)
        dsimp only [Session.take]
        generalize change (i.state v) = first, other (i.state w) = second at steps
        cases steps with
        | none => exact ⟨rest, world⟩
        | some related => exact ⟨goesOn, couples.ours v w _ _ world related⟩

theorem InStep.play (couples : i.Couples R W)
    (calling : ∀ call, Procedure.InStep R T (calls call) (calls call))
    (freshly : ∀ v w, W v w → W (fresh v) (fresh w)) (h : InStep R T W s t)
    (turns : List (Turn κ τ)) :
    InStep R T W (s.play i calls fresh turns) (t.play i calls fresh turns) := by
  induction turns generalizing s t with
  | nil => exact h
  | cons turn turns ih => exact ih (h.take couples calling freshly turn)

end Session

end Interplay

end GameConsole
