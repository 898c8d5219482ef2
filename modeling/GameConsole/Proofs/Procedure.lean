import GameConsole.Procedure

/-! Procedures in company. Others may act before a step of a procedure, after it and once it is
done; what is said of the procedure has to hold whatever they do. A contract names an assertion that
the procedure finds and those that it leaves, and an assertion is such that the others cannot undo
it. -/
namespace GameConsole

def Procedure.after {ω α : Type} : Procedure ω α → ω → Procedure ω α
  | .done result, _ => .done result
  | .act _ next, w => next w

/- A state that a procedure and others act on. It is part of a world, which may also keep a record
of what has happened; `ours` is the world once the procedure has put a state in place. Of what is
`allowed` and `always` so, the procedure may not take leave for a single step. -/
structure Interplay (ω ν τ : Type) where
  state : ν → ω
  other : τ → ν → ν
  ours : ν → ω → ν
  allowed : ω → ω → Prop
  always : ν → Prop := fun _ => True
  oursIdle : ∀ w, ours w (state w) = w
  allowedIdle : ∀ c, allowed c c

structure Assertion {ω ν τ : Type} (i : Interplay ω ν τ) where
  holds : ν → Prop
  stable : ∀ t w, holds w → holds (i.other t w)
  safe : ∀ w, holds w → i.always w := by exact fun _ _ => trivial

def Assertion.given {ω ν τ : Type} {i : Interplay ω ν τ} (P : Assertion i) (fact : Prop) :
    Assertion i where
  holds w := fact ∧ P.holds w
  stable t w h := ⟨h.1, P.stable t w h.2⟩
  safe w h := P.safe w h.2

namespace Interplay

variable {ω ν τ α β κ : Type} (i : Interplay ω ν τ)

instance : CoeFun (Assertion i) fun _ => ν → Prop := ⟨Assertion.holds⟩

def others (ts : List τ) (w : ν) : ν := ts.foldl (fun w t => i.other t w) w

def Secures (post : α → ν → Prop) : Procedure ω α → ν → Prop
  | .done result, w => ∀ ts, i.always (i.others ts w) ∧ post result (i.others ts w)
  | .act change next, w => ∀ ts, i.always (i.others ts w) ∧
    ∀ after, change (i.state (i.others ts w)) = some after →
      i.allowed (i.state (i.others ts w)) after ∧
        Secures post (next (i.state (i.others ts w))) (i.ours (i.others ts w) after)

def Meets (P : Assertion i) (p : Procedure ω α) (Q : α → Assertion i) : Prop :=
  ∀ w, P w → i.Secures (fun result => Q result) p w

variable {i}

theorem Assertion.others (P : Assertion i) (ts : List τ) {w : ν} (h : P w) :
    P (i.others ts w) := by
  induction ts generalizing w with
  | nil => exact h
  | cons t ts ih => exact ih (P.stable t w h)

namespace Secures

variable {post : α → ν → Prop} {p : Procedure ω α} {w : ν}

theorem other (h : i.Secures post p w) (t : τ) : i.Secures post p (i.other t w) := by
  cases p with
  | done result => exact fun ts => h (t :: ts)
  | act change next => exact fun ts => h (t :: ts)

theorem always (h : i.Secures post p w) : i.always w := by
  cases p with
  | done result => exact (h []).1
  | act change next => exact (h []).1

theorem result {value : α} (h : i.Secures post (.done value) w) : post value w := (h []).2

theorem ended (h : i.Secures post p w) (done : p.result?.isSome) :
    ∃ value, p = .done value ∧ post value w := by
  cases p with
  | done value => exact ⟨value, rfl, h.result⟩
  | act change next => cases done

theorem step {change : ω → Option ω} {next : ω → Procedure ω α} {after : ω}
    (h : i.Secures post (.act change next) w) (goes : change (i.state w) = some after) :
    i.allowed (i.state w) after ∧ i.Secures post (next (i.state w)) (i.ours w after) :=
  (h []).2 after goes

theorem imp {other : α → ν → Prop} (h : i.Secures post p w)
    (weaker : ∀ result w, post result w → other result w) : i.Secures other p w := by
  induction p generalizing w with
  | done result => exact fun ts => ⟨(h ts).1, weaker _ _ (h ts).2⟩
  | act change next ih =>
    intro ts
    refine ⟨(h ts).1, fun after goes => ?_⟩
    obtain ⟨allowed, later⟩ := (h ts).2 after goes
    exact ⟨allowed, ih _ later⟩

theorem bind {later : β → ν → Prop} {k : α → Procedure ω β}
    (h : i.Secures post p w) (rest : ∀ value w, post value w → i.Secures later (k value) w) :
    i.Secures later (p >>= k) w := by
  induction p generalizing w with
  | done result => exact rest result w (h []).2
  | act change next ih =>
    intro ts
    refine ⟨(h ts).1, fun after goes => ?_⟩
    obtain ⟨allowed, later⟩ := (h ts).2 after goes
    exact ⟨allowed, ih _ later⟩

theorem map (f : α → β) (h : i.Secures post p w) :
    i.Secures (fun value w => ∃ result, value = f result ∧ post result w)
      (do return f (← p)) w := by
  induction p generalizing w with
  | done result => exact fun ts => ⟨(h ts).1, result, rfl, (h ts).2⟩
  | act change next ih =>
    intro ts
    refine ⟨(h ts).1, fun after goes => ?_⟩
    obtain ⟨allowed, later⟩ := (h ts).2 after goes
    exact ⟨allowed, ih _ later⟩

end Secures

theorem Assertion.secures {post : α → Assertion i} {value : α} {w : ν} (h : post value w) :
    i.Secures (fun result => post result) (.done value) w :=
  fun ts => by
    have left : post value (i.others ts w) := Assertion.others _ ts h
    exact ⟨(post value).safe _ left, left⟩

namespace Meets

variable {P P' : Assertion i} {p : Procedure ω α}

theorem done {Q : α → Assertion i} {value : α} (h : ∀ w, P w → Q value w) :
    i.Meets P (pure value) Q :=
  fun w holds => Assertion.secures (h w holds)

theorem pre {Q : α → Assertion i} (h : i.Meets P p Q) (stronger : ∀ w, P' w → P w) :
    i.Meets P' p Q :=
  fun w holds => h w (stronger w holds)

theorem post {Q R : α → Assertion i} (h : i.Meets P p Q)
    (weaker : ∀ value w, Q value w → R value w) : i.Meets P p R :=
  fun w holds => (h w holds).imp weaker

theorem bind {Q : α → Assertion i} {R : β → Assertion i} {k : α → Procedure ω β}
    (h : i.Meets P p Q) (rest : ∀ value, i.Meets (Q value) (k value) R) : i.Meets P (p >>= k) R :=
  fun w holds => (h w holds).bind fun value w holds => rest value w holds

theorem given {Q : α → Assertion i} {fact : Prop} (h : fact → i.Meets P p Q) :
    i.Meets (P.given fact) p Q :=
  fun w holds => h holds.1 w holds.2

theorem act {change : ω → Option ω} {result : ω → α} {Q : α → Assertion i}
    (h : ∀ w after, P w → change (i.state w) = some after →
      i.allowed (i.state w) after ∧ Q (result (i.state w)) (i.ours w after)) :
    i.Meets P (.act change fun c => .done (result c)) Q := by
  intro w holds ts
  have here : P (i.others ts w) := Assertion.others P ts holds
  refine ⟨P.safe _ here, fun after goes => ?_⟩
  obtain ⟨allowed, left⟩ := h _ after here goes
  exact ⟨allowed, Assertion.secures left⟩

theorem look {f : ω → α} {Q : α → Assertion i} (h : ∀ w, P w → Q (f (i.state w)) w) :
    i.Meets P (Procedure.look f) Q :=
  act fun w after holds goes => by
    cases goes
    rw [i.oursIdle]
    exact ⟨i.allowedIdle _, h w holds⟩

theorem update {f : ω → α × ω} {Q : α → Assertion i}
    (h : ∀ w value after, P w → f (i.state w) = (value, after) →
      i.allowed (i.state w) after ∧ Q value (i.ours w after)) :
    i.Meets P (Procedure.update f) Q :=
  act fun w after holds goes => by
    cases goes
    exact h w _ _ holds rfl

theorem alter {f : ω → ω} {Q : Unit → Assertion i}
    (h : ∀ w, P w → i.allowed (i.state w) (f (i.state w)) ∧ Q () (i.ours w (f (i.state w)))) :
    i.Meets P (Procedure.alter f) Q :=
  act fun w after holds goes => by
    cases goes
    exact h w holds

theorem await [Inhabited α] {f : ω → Option (α × ω)} {Q : α → Assertion i}
    (h : ∀ w value after, P w → f (i.state w) = some (value, after) →
      i.allowed (i.state w) after ∧ Q value (i.ours w after)) :
    i.Meets P (Procedure.await f) Q :=
  act fun w after holds goes => by
    obtain ⟨⟨value, _⟩, found, rfl⟩ := Option.map_eq_some_iff.mp goes
    rw [found]
    exact h w value _ holds found

theorem kept (ours : ∀ w c, P w → P (i.ours w c)) (allowed : ∀ c d, i.allowed c d)
    (p : Procedure ω α) : i.Meets P p fun _ => P := by
  induction p with
  | done value => exact done fun _ holds => holds
  | act change next ih =>
    intro w holds ts
    have here : P (i.others ts w) := Assertion.others P ts holds
    exact ⟨P.safe _ here, fun after _ => ⟨allowed _ _, ih _ _ (ours _ after here)⟩⟩

end Meets

section Part
variable {ρ : Type} {j : Interplay ρ ν τ} {get : ρ → ω} {put : ω → ρ → ρ}
  {same : ∀ r, put (get r) r = r}

def part (j : Interplay ρ ν τ) (get : ρ → ω) (put : ω → ρ → ρ) (same : ∀ r, put (get r) r = r) :
    Interplay ω ν τ where
  state w := get (j.state w)
  other := j.other
  ours w c := j.ours w (put c (j.state w))
  allowed c d := ∀ r, get r = c → j.allowed r (put d r)
  always := j.always
  oursIdle w := by rw [same, j.oursIdle]
  allowedIdle c r here := by
    subst here
    rw [same]
    exact j.allowedIdle r

def partly (P : Assertion j) : Assertion (j.part get put same) where
  holds := P.holds
  stable := P.stable
  safe := P.safe

theorem Secures.within {post : α → ν → Prop} {p : Procedure ω α} {w : ν}
    (h : (j.part get put same).Secures post p w) : j.Secures post (p.within get put) w := by
  induction p generalizing w with
  | done result => exact h
  | act change next ih =>
    intro ts
    refine ⟨(h ts).1, fun after goes => ?_⟩
    obtain ⟨found, takes, rfl⟩ := Option.map_eq_some_iff.mp goes
    obtain ⟨allowed, later⟩ := (h ts).2 found takes
    exact ⟨allowed _ rfl, ih _ later⟩

theorem Meets.within {P : Assertion j} {Q : α → Assertion j} {p : Procedure ω α}
    (h : (j.part get put same).Meets (partly P) p fun result => partly (Q result)) :
    j.Meets P (p.within get put) Q :=
  fun w holds => (h w holds).within

end Part

inductive Turn (κ τ : Type) where
  | begin (call : κ)
  | proceed
  | other (t : τ)

def Turn.other? : Turn κ τ → Option τ
  | .other t => some t
  | _ => none

def Turn.others (turns : List (Turn κ τ)) : List τ := turns.filterMap Turn.other?

structure Session (ω ν α : Type) where
  world : ν
  rest : Procedure ω α

namespace Session

variable (i : Interplay ω ν τ) (calls : κ → Procedure ω α) (fresh : ν → ν)

def take (s : Session ω ν α) : Turn κ τ → Session ω ν α
  | .begin call => if s.rest.result?.isSome then ⟨fresh s.world, calls call⟩ else s
  | .proceed =>
    match s.rest with
    | .done _ => s
    | .act change next =>
      match change (i.state s.world) with
      | some after => ⟨i.ours s.world after, next (i.state s.world)⟩
      | none => s
  | .other t => { s with world := i.other t s.world }

def play (s : Session ω ν α) (turns : List (Turn κ τ)) : Session ω ν α :=
  turns.foldl (fun s turn => s.take i calls fresh turn) s

variable {i calls fresh} {post : α → ν → Prop}

theorem proceedTakes {change : ω → Option ω} {next : ω → Procedure ω α} {w : ν} {after : ω}
    (goes : change (i.state w) = some after) :
    take i calls fresh ⟨w, .act change next⟩ .proceed = ⟨i.ours w after, next (i.state w)⟩ := by
  dsimp only [take]
  rw [goes]

theorem proceedWaits {change : ω → Option ω} {next : ω → Procedure ω α} {w : ν}
    (waits : change (i.state w) = none) :
    take i calls fresh ⟨w, .act change next⟩ .proceed = ⟨w, .act change next⟩ := by
  dsimp only [take]
  rw [waits]

theorem proceedSecures (s : Session ω ν α) (h : i.Secures post s.rest s.world) :
    i.Secures post (s.take i calls fresh .proceed).rest (s.take i calls fresh .proceed).world := by
  obtain ⟨world, rest⟩ := s
  cases rest with
  | done value => exact h
  | act change next =>
    cases goes : change (i.state world) with
    | none =>
      rw [proceedWaits goes]
      exact h
    | some after =>
      rw [proceedTakes goes]
      exact (h.step goes).2

theorem takeSecures (s : Session ω ν α) (h : i.Secures post s.rest s.world) (turn : Turn κ τ)
    (lawful : ∀ call value, turn = .begin call → s.rest = .done value → post value s.world →
      i.Secures post (calls call) (fresh s.world)) :
    i.Secures post (s.take i calls fresh turn).rest (s.take i calls fresh turn).world := by
  cases turn with
  | begin call =>
    obtain ⟨world, rest⟩ := s
    cases rest with
    | done value => exact lawful call value rfl rfl h.result
    | act change next => exact h
  | proceed => exact proceedSecures s h
  | other t => exact h.other t

theorem playAmongSecures (turns : List (Turn κ τ))
    (lawful : ∀ call value w, .begin call ∈ turns → post value w →
      i.Secures post (calls call) (fresh w))
    (s : Session ω ν α) (h : i.Secures post s.rest s.world) :
    i.Secures post (s.play i calls fresh turns).rest (s.play i calls fresh turns).world := by
  induction turns generalizing s with
  | nil => exact h
  | cons turn turns ih =>
    refine ih (fun call value w later => lawful call value w (.tail _ later)) _ ?_
    refine takeSecures s h turn fun call value first _ => lawful call value s.world ?_
    rw [first]
    exact .head _

theorem playSecures (lawful : ∀ call value w, post value w → i.Secures post (calls call) (fresh w))
    (turns : List (Turn κ τ)) (s : Session ω ν α) (h : i.Secures post s.rest s.world) :
    i.Secures post (s.play i calls fresh turns).rest (s.play i calls fresh turns).world :=
  playAmongSecures turns (fun call value w _ => lawful call value w) s h

theorem goOnSecures (turns : List (Turn κ τ)) (goesOn : ∀ call, .begin call ∉ turns)
    (s : Session ω ν α) (h : i.Secures post s.rest s.world) :
    i.Secures post (s.play i calls fresh turns).rest (s.play i calls fresh turns).world :=
  playAmongSecures turns (fun call _ _ begins => absurd begins (goesOn call)) s h

theorem callSecures {s : Session ω ν α} (idle : s.rest.result?.isSome) {call : κ}
    (h : i.Secures post (calls call) (fresh s.world)) {turns : List (Turn κ τ)}
    (goesOn : ∀ call, .begin call ∉ turns) :
    i.Secures post (s.play i calls fresh (.begin call :: turns)).rest
      (s.play i calls fresh (.begin call :: turns)).world := by
  have begun : s.take i calls fresh (.begin call) = ⟨fresh s.world, calls call⟩ := if_pos idle
  have secured : i.Secures post (s.take i calls fresh (.begin call)).rest
      (s.take i calls fresh (.begin call)).world := by
    rw [begun]
    exact h
  exact goOnSecures turns goesOn _ secured

section Answers
variable (i) (calls) (fresh)

def answers (s : Session ω ν α) : List (Turn κ τ) → List α
  | [] => s.rest.result?.toList
  | .begin call :: turns =>
    s.rest.result?.toList ++ (s.take i calls fresh (.begin call)).answers turns
  | turn :: turns => (s.take i calls fresh turn).answers turns

end Answers

/- A fact about all that has been given so far, if every call secures it of its own answer and those
before. -/
theorem playAnswers {J : List α → ν → Prop}
    (lawful : ∀ call past w, J past w →
      i.Secures (fun value => J (past ++ [value])) (calls call) (fresh w))
    (turns : List (Turn κ τ)) (s : Session ω ν α) {past : List α}
    (h : i.Secures (fun value => J (past ++ [value])) s.rest s.world)
    (ends : (s.play i calls fresh turns).rest.result?.isSome) :
    J (past ++ s.answers i calls fresh turns) (s.play i calls fresh turns).world := by
  induction turns generalizing s past with
  | nil =>
    obtain ⟨value, done, left⟩ := h.ended ends
    change J (past ++ s.rest.result?.toList) s.world
    rw [done]
    exact left
  | cons turn turns ih =>
    cases turn with
    | begin call =>
      obtain ⟨world, rest⟩ := s
      cases rest with
      | done value =>
        have later := ih ⟨fresh world, calls call⟩ (lawful call _ world h.result) ends
        rwa [List.append_assoc] at later
      | act change next => exact ih ⟨world, .act change next⟩ h ends
    | proceed => exact ih _ (proceedSecures s h) ends
    | other t => exact ih _ (h.other t) ends

theorem playOthers (ts : List τ) (s : Session ω ν α) :
    s.play i calls fresh (ts.map .other) = { s with world := i.others ts s.world } := by
  induction ts generalizing s with
  | nil => rfl
  | cons t ts ih => exact ih (s.take i calls fresh (.other t))

theorem playDone (turns : List (Turn κ τ)) (goesOn : ∀ call, .begin call ∉ turns) (w : ν)
    (value : α) :
    play i calls fresh ⟨w, .done value⟩ turns = ⟨i.others (Turn.others turns) w, .done value⟩ := by
  induction turns generalizing w with
  | nil => rfl
  | cons turn turns ih =>
    have later : ∀ call, .begin call ∉ turns := fun call found => goesOn call (.tail _ found)
    cases turn with
    | begin call => exact absurd (.head _) (goesOn call)
    | proceed => exact ih later w
    | other t => exact ih later (i.other t w)

theorem playStep {change : ω → ω} {value : α} (turns : List (Turn κ τ))
    (goesOn : ∀ call, .begin call ∉ turns) (w : ν)
    (taken : .proceed ∈ turns ∨ (play i calls fresh
      ⟨w, .act (fun c => some (change c)) fun _ => .done value⟩ turns).rest.result?.isSome) :
    ∃ first second, Turn.others turns = first ++ second ∧
      play i calls fresh ⟨w, .act (fun c => some (change c)) fun _ => .done value⟩ turns =
        ⟨i.others second (i.ours (i.others first w) (change (i.state (i.others first w)))),
          .done value⟩ := by
  induction turns generalizing w with
  | nil => cases taken <;> contradiction
  | cons turn turns ih =>
    have later : ∀ call, .begin call ∉ turns := fun call found => goesOn call (.tail _ found)
    cases turn with
    | begin call => exact absurd (.head _) (goesOn call)
    | proceed => exact ⟨[], Turn.others turns, rfl, playDone turns later _ value⟩
    | other t =>
      obtain ⟨first, second, split, same⟩ := ih later (i.other t w) <|
        taken.imp_left fun found => by cases found with | tail _ found => exact found
      exact ⟨t :: first, second, congrArg (t :: ·) split, same⟩

theorem proceedAllowed {s : Session ω ν α} (h : i.Secures post s.rest s.world)
    (kept : ∀ w after, i.state (i.ours w after) = after) :
    i.allowed (i.state s.world) (i.state (s.take i calls fresh .proceed).world) := by
  obtain ⟨world, rest⟩ := s
  cases rest with
  | done value => exact i.allowedIdle _
  | act change next =>
    cases goes : change (i.state world) with
    | none =>
      rw [proceedWaits goes]
      exact i.allowedIdle _
    | some after =>
      rw [proceedTakes goes, kept]
      exact (h.step goes).1

end Session

end Interplay

end GameConsole
