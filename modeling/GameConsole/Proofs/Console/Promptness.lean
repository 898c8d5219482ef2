import GameConsole.Proofs.Console.Renewal

/-! How soon a call comes to its end that waits for nothing but the end of a thread, if the thread
has only to tell the observer that its run is over: a load is one. -/
namespace GameConsole.Console.Promptness
open Interplay (Turn)
open Interplay.Session (proceedTakes proceedWaits take)
open Procedure (look alter update await)
open scoped List

def Rested (c : Console) : Prop := ∀ job, c.worker ≠ some (.busy job)

def Winding (c : Console) : Prop := ∀ job, c.worker = some (.busy job) → announces job.phase = true

def Discreet (c d : Console) : Prop := d.worker = c.worker ∨ d.worker = none

section Steps
variable {c d : Console}

theorem Discreet.rested (discreet : Discreet c d) (rested : Rested c) : Rested d := by
  obtain same | gone := discreet <;> intro job mine
  · exact rested job (same.symm.trans mine)
  · cases gone.symm.trans mine

theorem Discreet.winding (discreet : Discreet c d) (winding : Winding c) : Winding d := by
  obtain same | gone := discreet <;> intro job mine
  · exact winding job (same.symm.trans mine)
  · cases gone.symm.trans mine

theorem restedAdvance (rested : Rested c) : c.advance.getD c = c := by
  cases goes : c.advance with
  | none => rfl
  | some after =>
    obtain ⟨job, mine, -⟩ := advanceBusy goes
    exact absurd mine (rested job)

theorem windingAdvance (winding : Winding c) : Rested (c.advance.getD c) := by
  by_cases rested : Rested c
  case pos =>
    rw [restedAdvance rested]
    exact rested
  case neg =>
    obtain ⟨⟨core, left, phase⟩, mine⟩ := not_forall_not.mp rested
    obtain ⟨before, after, rfl⟩ := announcesAnnounce (winding _ mine)
    rw [advanceWorks mine, announceEnds]
    split <;> exact fun job busy => by cases busy

end Steps

/- At most `n` steps are left of a call, whatever the others do. None of them starts a thread, and
the call need not wait where none is at work. -/
def Prompt {α : Type} : Nat → Call α → Screening → Prop
  | _, .done _, _ => True
  | 0, .act .., _ => False
  | n + 1, .act change next, w => ∀ ts,
    (Rested (screening.others ts w).console → (change (screening.others ts w).console).isSome) ∧
    ∀ after, change (screening.others ts w).console = some after →
      Discreet (screening.others ts w).console after ∧
        Prompt n (next (screening.others ts w).console) ((screening.others ts w).put after)

section Prompt
variable {α β : Type} {n m : Nat} {p : Call α} {w : Screening}

theorem Prompt.pure {value : α} : Prompt n (.done value) w := by
  cases n <;> trivial

theorem Prompt.other (prompt : Prompt n p w) (b : Bystander) : Prompt n p (w.act b) := by
  cases p with
  | done result => exact .pure
  | act change next =>
    cases n with
    | zero => exact prompt
    | succ n => exact fun ts => prompt (b :: ts)

theorem Prompt.mono (prompt : Prompt n p w) (within : n ≤ m) : Prompt m p w := by
  induction n generalizing m p w with
  | zero =>
    cases p with
    | done result => exact .pure
    | act change next => exact prompt.elim
  | succ n ih =>
    cases p with
    | done result => exact .pure
    | act change next =>
      cases m with
      | zero => exact absurd within (Nat.not_succ_le_zero n)
      | succ m =>
        intro ts
        refine ⟨(prompt ts).1, fun after goes => ?_⟩
        obtain ⟨discreet, later⟩ := (prompt ts).2 after goes
        exact ⟨discreet, ih later (Nat.le_of_succ_le_succ within)⟩

theorem Prompt.bind {k : α → Call β} (prompt : Prompt m p w)
    (rest : ∀ value w, Prompt n (k value) w) : Prompt (n + m) (p >>= k) w := by
  induction m generalizing p w with
  | zero =>
    cases p with
    | done result => exact rest result w
    | act change next => exact prompt.elim
  | succ m ih =>
    cases p with
    | done result => exact (rest result w).mono (Nat.le_add_right n _)
    | act change next =>
      intro ts
      refine ⟨(prompt ts).1, fun after goes => ?_⟩
      obtain ⟨discreet, later⟩ := (prompt ts).2 after goes
      exact ⟨discreet, ih later⟩

theorem Prompt.map (f : α → β) (prompt : Prompt n p w) : Prompt n (do return f (← p)) w := by
  have mapped : Prompt (0 + n) (do return f (← p)) w := .bind prompt fun _ _ => trivial
  rw [Nat.zero_add] at mapped
  exact mapped

theorem lookPrompt {f : Console → α} : Prompt 1 (look f) w :=
  fun _ => ⟨fun _ => rfl, fun _ goes => by cases goes; exact ⟨.inl rfl, trivial⟩⟩

theorem updatePrompt {f : Console → α × Console}
    (leaves : ∀ c, (f c).2.worker = c.worker := by exact fun _ => rfl) :
    Prompt 1 (update f) w :=
  fun _ => ⟨fun _ => rfl, fun _ goes => by cases goes; exact ⟨.inl (leaves _), trivial⟩⟩

theorem alterPrompt {f : Console → Console}
    (leaves : ∀ c, (f c).worker = c.worker := by exact fun _ => rfl) :
    Prompt 1 (alter f) w :=
  fun _ => ⟨fun _ => rfl, fun _ goes => by cases goes; exact ⟨.inl (leaves _), trivial⟩⟩

theorem enterPrompt (after : Lifecycle) : Prompt 2 (Call.enter after) w := by
  refine .bind (n := 1) updatePrompt fun before w => ?_
  split
  · exact alterPrompt
  · trivial

theorem publishPrompt (core : Core Unit) : Prompt 2 (Call.publish core) w :=
  .bind (n := 1) alterPrompt fun _ _ => alterPrompt

def manned : Assertion screening where
  holds w := w.console.worker.isSome
  stable b w h := by
    cases b with
    | thread =>
      change (w.console.advance.getD w.console).worker.isSome
      cases goes : w.console.advance with
      | none => exact h
      | some after =>
        obtain ⟨job, -, rfl⟩ := advanceBusy goes
        exact (jobStays w.console job).2
    | drain | count => exact h

theorem joinPrompt (here : manned w) : Prompt 1 (await Call.join) w := by
  intro ts
  have still : manned (screening.others ts w) := Interplay.Assertion.others manned ts here
  refine ⟨fun rested => ?_, fun after goes => ?_⟩
  · obtain ⟨worker, mine⟩ := Option.isSome_iff_exists.mp still
    rw [Option.isSome_map, Call.join, mine]
    cases worker with
    | busy job => exact absurd mine (rested job)
    | finished core | died => rfl
  · obtain ⟨⟨core, d⟩, joined, rfl⟩ := Option.map_eq_some_iff.mp goes
    obtain ⟨rfl, -⟩ := joinTakes joined
    exact ⟨.inr rfl, trivial⟩

theorem reclaimPrompt : Prompt 6 Call.reclaim w := by
  intro ts
  refine ⟨fun _ => rfl, fun after goes => ?_⟩
  cases goes
  refine ⟨.inl rfl, ?_⟩
  generalize screening.others ts w = v
  change Prompt 5 (if v.console.worker.isNone then pure () else _) v
  cases mine : v.console.worker with
  | none => trivial
  | some worker =>
    have here : manned v := congrArg Option.isSome mine
    refine .bind (n := 4) (joinPrompt here) fun core w => ?_
    cases core with
    | some core => exact .mono alterPrompt (by decide)
    | none =>
      refine .bind (n := 3) lookPrompt fun words w => ?_
      exact .bind (n := 2) alterPrompt fun _ w => enterPrompt .error

theorem acceptPrompt (core : Core Unit) (image : LoadedImage) (stack : UInt64) :
    Prompt 10 (Call.accept core image stack) w := by
  refine .bind (n := 9) alterPrompt fun _ w => ?_
  refine .bind (n := 7) (publishPrompt _) fun _ w => ?_
  refine .bind (n := 6) alterPrompt fun _ w => ?_
  refine .bind (n := 5) alterPrompt fun _ w => ?_
  refine .bind (n := 4) alterPrompt fun _ w => ?_
  refine .bind (n := 3) alterPrompt fun _ w => ?_
  refine .bind (n := 2) alterPrompt fun _ w => ?_
  exact enterPrompt .idle

theorem placePrompt (core : Core Unit) (loader : Loader) (stack : UInt64) :
    Prompt 15 (Call.place core loader stack) w := by
  refine .bind (n := 13) (enterPrompt _) fun _ w => ?_
  refine .bind (n := 12) alterPrompt fun _ w => ?_
  refine .bind (n := 11) alterPrompt fun _ w => ?_
  cases loader core.memory with
  | mk memory result =>
    refine .bind (n := 10) alterPrompt fun _ w => ?_
    cases result with
    | loaded image => exact .bind (n := 0) (acceptPrompt _ image stack) fun _ _ => trivial
    | failed e | crashed words =>
      refine .mono (n := 3) ?_ (by decide)
      refine .bind (n := 2) alterPrompt fun _ w => ?_
      exact .bind (n := 0) (enterPrompt _) fun _ _ => trivial

theorem loadPrompt (loader : Loader) (c : Console) : Prompt 23 ((Call.load loader).after c) w := by
  change Prompt 23 (if c.state ≠ .idle then _ else _) w
  split
  · exact .mono (.bind (n := 0) alterPrompt fun _ _ => trivial) (by decide)
  refine .bind (n := 17) reclaimPrompt fun _ w => ?_
  refine .bind (n := 16) lookPrompt fun core w => ?_
  cases core with
  | none => trivial
  | some core =>
    refine .bind (n := 15) lookPrompt fun config w => ?_
    dsimp only
    split
    · exact .mono (.bind (n := 0) alterPrompt fun _ _ => trivial) (by decide)
    · exact placePrompt core loader _

end Prompt

section Sessions
variable {n : Nat} {w : Screening}

theorem restedAct (rested : Rested w.console) (b : Bystander) : Rested (w.act b).console := by
  cases b with
  | thread =>
    change Rested (w.console.advance.getD w.console)
    rw [restedAdvance rested]
    exact rested
  | drain | count => exact rested

theorem windingAct (winding : Winding w.console) (b : Bystander) : Winding (w.act b).console := by
  cases b with
  | thread => exact fun job mine => absurd mine (windingAdvance winding job)
  | drain | count => exact winding

theorem takePrompt {s : Patronage} (prompt : Prompt n s.rest s.world)
    {turn : Turn Request Bystander} (goesOn : ∀ call, turn ≠ .begin call) :
    let t := take screening Request.call id s turn
    Prompt n t.rest t.world ∧ (Rested s.world.console → Rested t.world.console) ∧
      (Winding s.world.console → Winding t.world.console) := by
  intro t
  cases turn with
  | begin call => exact absurd rfl (goesOn call)
  | other b => exact ⟨prompt.other b, (restedAct · b), (windingAct · b)⟩
  | proceed =>
    obtain ⟨w, rest⟩ := s
    cases rest with
    | done reply => exact ⟨prompt, id, id⟩
    | act change next =>
      cases goes : change (screening.state w) with
      | none =>
        rw [show t = _ from proceedWaits goes]
        exact ⟨prompt, id, id⟩
      | some after =>
        rw [show t = _ from proceedTakes goes]
        cases n with
        | zero => exact prompt.elim
        | succ n =>
          obtain ⟨discreet, left⟩ := (prompt []).2 after goes
          exact ⟨left.mono (Nat.le_succ n), discreet.rested, discreet.winding⟩

theorem proceedPrompt {s : Patronage} (prompt : Prompt (n + 1) s.rest s.world)
    (rested : Rested s.world.console) :
    let t := take screening Request.call id s .proceed
    Prompt n t.rest t.world := by
  intro t
  obtain ⟨w, rest⟩ := s
  cases rest with
  | done reply => exact Prompt.pure
  | act change next =>
    obtain ⟨goes, steps⟩ := prompt []
    obtain ⟨after, found⟩ := Option.isSome_iff_exists.mp (goes rested)
    rw [show t = _ from proceedTakes found]
    exact (steps after found).2

theorem promptEnds {s : Patronage} {turns : List (Turn Request Bystander)}
    (prompt : Prompt n s.rest s.world) (rested : Rested s.world.console)
    (goesOn : ∀ call, .begin call ∉ turns) (enough : List.replicate n .proceed <+ turns) :
    (s.play turns).rest.result?.isSome := by
  induction turns generalizing n s with
  | nil =>
    obtain ⟨w, rest⟩ := s
    rw [List.sublist_nil, List.replicate_eq_nil_iff] at enough
    subst enough
    cases rest with
    | done reply => rfl
    | act change next => exact prompt.elim
  | cons turn turns ih =>
    have later : ∀ call, .begin call ∉ turns := fun call found => goesOn call (.tail _ found)
    obtain ⟨left, rests, -⟩ := takePrompt prompt fun call same => goesOn call (same ▸ .head _)
    cases n with
    | zero => exact ih left (rests rested) later (List.nil_sublist _)
    | succ n =>
      cases enough with
      | cons _ enough => exact ih left (rests rested) later enough
      | cons_cons _ enough => exact ih (proceedPrompt prompt rested) (rests rested) later enough

theorem promptSettles {s : Patronage} {turns : List (Turn Request Bystander)}
    (prompt : Prompt n s.rest s.world) (winding : Winding s.world.console)
    (goesOn : ∀ call, .begin call ∉ turns)
    (enough : .other .thread :: List.replicate n .proceed <+ turns) :
    (s.play turns).rest.result?.isSome := by
  induction turns generalizing s with
  | nil => cases enough
  | cons turn turns ih =>
    have later : ∀ call, .begin call ∉ turns := fun call found => goesOn call (.tail _ found)
    obtain ⟨left, -, winds⟩ := takePrompt prompt fun call same => goesOn call (same ▸ .head _)
    cases enough with
    | cons _ enough => exact ih left (winds winding) later enough
    | cons_cons _ enough =>
      exact promptEnds (s := ⟨s.world.act .thread, s.rest⟩) left (windingAdvance winding) later
        enough

end Sessions

end GameConsole.Console.Promptness
