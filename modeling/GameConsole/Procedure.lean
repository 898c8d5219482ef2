/-! Procedures that a thread carries out on a state that it shares with others. A procedure is a
finite sequence of atomic steps; between any two of them the other threads may change the state,
and a step may have to wait until they have done so. -/
namespace GameConsole

inductive Procedure (ω α : Type) where
  | done (result : α)
  /- One atomic step. It gives the state after it, or nothing while it has to wait; what is left
  to do may depend on the state that it found. -/
  | act (change : ω → Option ω) (next : ω → Procedure ω α)

namespace Procedure

variable {ω ρ α β : Type}

def bind : Procedure ω α → (α → Procedure ω β) → Procedure ω β
  | .done result, k => k result
  | .act change next, k => .act change fun w => (next w).bind k

instance : Monad (Procedure ω) where
  pure := .done
  bind := bind

def look (f : ω → α) : Procedure ω α := .act some fun w => .done (f w)

def alter (f : ω → ω) : Procedure ω Unit := .act (fun w => some (f w)) fun _ => .done ()

def update (f : ω → α × ω) : Procedure ω α :=
  .act (fun w => some (f w).2) fun w => .done (f w).1

def await [Inhabited α] (f : ω → Option (α × ω)) : Procedure ω α :=
  .act (fun w => (f w).map Prod.snd) fun w => .done (((f w).map Prod.fst).getD default)

def waitUntil (ready : ω → Bool) : Procedure ω Unit :=
  .act (fun w => if ready w then some w else none) fun _ => .done ()

def within (get : ρ → ω) (put : ω → ρ → ρ) : Procedure ω α → Procedure ρ α
  | .done result => .done result
  | .act change next =>
    .act (fun r => (change (get r)).map fun w => put w r) fun r => (next (get r)).within get put

def result? : Procedure ω α → Option α
  | .done result => some result
  | .act .. => none

def runFor (others : ω → Option ω) : Nat → Procedure ω α → ω → Procedure ω α × ω
  | 0, p, w => (p, w)
  | _ + 1, .done result, w => (.done result, w)
  | turns + 1, .act change next, w =>
    match change w with
    | some after => runFor others turns (next w) after
    | none =>
      match others w with
      | some after => runFor others turns (.act change next) after
      | none => (.act change next, w)

end Procedure

end GameConsole
