import GameConsole.Proofs.Processor.Relapse

/-! A machine that has halted or faulted stays at rest, whatever it is asked to do short of a reset
or a stop. A stop lets it start again, but not by itself: nothing is executed until a later call
makes the machine run, and the request to stop holds off runs until one of them has used it up. A
machine that has faulted executes nothing even then. -/
namespace GameConsole

namespace Machine

variable {δ : Type}

/- What a machine can be asked to do, but for a reset. A whole run is given one turn at least, and
is not waited for any longer when `patience` more have passed. -/
inductive Call where
  | step
  | runSlice (budget : Nat)
  | runLoop (patience : Nat)
  | pause
  | resume
  | requestStop
  | stop
  deriving DecidableEq, Repr

def Call.attempt (handler : Option (TrapHandler δ)) (m : Machine δ) : Call → Option (Machine δ)
  | .step => some (m.step handler).1
  | .runSlice budget => some (m.runSlice handler budget).1
  | .runLoop patience => (m.runLoop handler (patience + 1)).map Prod.fst
  | .pause => some m.pause.1
  | .resume => some m.resume.1
  | .requestStop => some m.requestStop
  | .stop => some m.stop

def attemptAll (handler : Option (TrapHandler δ)) (m : Machine δ) (calls : List Call) :
    Option (Machine δ) :=
  calls.foldlM (Call.attempt handler) m

/- Why a machine does not execute anything at the moment: it has halted or faulted, it has been
asked to stop, or it is stopped and waits for a call that starts it. -/
inductive Rest where
  | ended
  | requested
  | stopped
  deriving DecidableEq, Repr

namespace Rest

def after : Rest → Call → Option Rest
  | .ended, .stop => some .requested
  | .ended, _ => some .ended
  | .requested, .step => none
  | .requested, .runLoop _ => some .stopped
  | .requested, _ => some .requested
  | .stopped, .step | .stopped, .runSlice _ | .stopped, .runLoop _ => none
  | .stopped, .pause | .stopped, .resume => some .stopped
  | .stopped, .requestStop | .stopped, .stop => some .requested

def afterAll (rest : Rest) (calls : List Call) : Option Rest := calls.foldlM after rest

def Describes (m : Machine δ) : Rest → Prop
  | .ended => m.mode.isFinal = true
  | .requested => m.mode.isFinal = false ∧ m.control.stopRequested = true
  | .stopped => m.mode = .stopped

end Rest

section Calls
variable {handler : Option (TrapHandler δ)} {m : Machine δ}

theorem pauseIdle (idle : m.mode ≠ .running) : m.pause.1 = m := by
  have same : m.control.pause = (m.control, false) := if_neg idle
  rw [pause, same]

theorem resumeIdle (idle : m.mode ≠ .paused) : m.resume.1 = m := by
  have same : m.control.resume = (m.control, false) := if_neg idle
  rw [resume, same]

theorem pauseCases (m : Machine δ) : m.pause.1 = m ∨ m.pause.1 = m.enter .paused := by
  by_cases running : m.mode = .running
  · have moved : m.control.pause = (m.control.enter .paused, true) := if_pos running
    exact .inr (by rw [pause, moved]; rfl)
  · exact .inl (pauseIdle running)

theorem resumeCases (m : Machine δ) : m.resume.1 = m ∨ m.resume.1 = m.enter .running := by
  by_cases paused : m.mode = .paused
  · have moved : m.control.resume = (m.control.enter .running, true) := if_pos paused
    exact .inr (by rw [resume, moved]; rfl)
  · exact .inl (resumeIdle paused)

theorem finalIdle (final : m.mode.isFinal = true) :
    m.mode ≠ .stopped ∧ m.mode ≠ .running ∧ m.mode ≠ .paused := by
  refine ⟨?_, ?_, ?_⟩ <;> intro same <;> rw [same] at final <;> contradiction

theorem endedCall (final : m.mode.isFinal = true) {c : Call} (other : c ≠ .stop) :
    ∃ after, c.attempt handler m = some after ∧ after.core = m.core ∧ after.mode = m.mode := by
  obtain ⟨notStopped, notRunning, notPaused⟩ := finalIdle final
  cases c with
  | step => exact ⟨m, by rw [Call.attempt, step, if_pos final], rfl, rfl⟩
  | runSlice budget =>
    refine ⟨m, congrArg some ?_, rfl, rfl⟩
    unfold runSlice
    split
    · contradiction
    · contradiction
    · rfl
  | runLoop patience => exact ⟨m, by rw [Call.attempt, runLoop, if_pos final]; rfl, rfl, rfl⟩
  | pause => exact ⟨m, congrArg some (pauseIdle notRunning), rfl, rfl⟩
  | resume => exact ⟨m, congrArg some (resumeIdle notPaused), rfl, rfl⟩
  | requestStop => exact ⟨m.requestStop, rfl, rfl, rfl⟩
  | stop => contradiction

theorem withinBlocked (blocked : m.mode ≠ .running ∨ m.control.stopRequested = true)
    (budget : Nat) : m.runWithin handler budget = m := by
  cases budget with
  | zero => rfl
  | succ budget => rw [runWithin, if_pos blocked]

def begun (m : Machine δ) : Machine δ :=
  let noted := m.note (.of .info "starting execution"
    [("rip", .hex 16 m.core.registers.rip.toNat)])
  if noted.mode = .paused then noted else noted.enter .running

theorem begunAgrees (active : m.mode.isFinal = false) :
    m.begun.core.Agrees m.core ∧ m.begun.mode.isFinal = false ∧
      m.begun.control.stopRequested = m.control.stopRequested := by
  have agrees := (Core.Agrees.refl m.core).note
    (.of .info "starting execution" [("rip", .hex 16 m.core.registers.rip.toNat)])
  unfold begun
  dsimp only
  split
  · exact ⟨agrees, active, rfl⟩
  · exact ⟨agrees, rfl, rfl⟩

def concluded (m after : Machine δ) : Machine δ :=
  let after := { after with control := { after.control with stopRequested := false } }
  let after := if after.mode.isFinal then after else after.enter .stopped
  after.note (.of .info "execution stopped"
    [("executed", .count (after.core.retired - m.core.retired)), ("state", .text after.mode.name)])

theorem loopBegins (active : m.mode.isFinal = false) (patience : Nat) :
    Call.attempt handler m (.runLoop patience) =
      (m.begun.runOn handler (patience + 1)).map m.concluded := by
  unfold begun
  simp only [Call.attempt, runLoop, active, Bool.false_eq_true, if_false]
  split <;> rename_i runs <;> rw [runs] <;> rfl

theorem concludedAgrees (m after : Machine δ) :
    (m.concluded after).core.Agrees after.core ∧
      (m.concluded after).mode = if after.mode.isFinal then after.mode else .stopped := by
  have agrees (event : Event) : (after.core.note event).Agrees after.core :=
    (Core.Agrees.refl _).note event
  have mode : ({ after with control := { after.control with stopRequested := false } } :
    Machine δ).mode = after.mode := rfl
  unfold concluded
  dsimp only
  rw [mode]
  split
  · exact ⟨agrees _, rfl⟩
  · exact ⟨agrees _, rfl⟩

theorem loopRequested (active : m.mode.isFinal = false)
    (requested : m.control.stopRequested = true) (patience : Nat) :
    ∃ after, Call.attempt handler m (.runLoop patience) = some after ∧
      after.core.Agrees m.core ∧ after.mode = .stopped := by
  obtain ⟨agrees, alive, same⟩ := begunAgrees active
  have left : m.begun.runOn handler (patience + 1) = some m.begun := by
    rw [runOn, if_pos (same.trans requested)]
  obtain ⟨core, mode⟩ := concludedAgrees m m.begun
  refine ⟨m.concluded m.begun, by rw [loopBegins active, left]; rfl, core.trans agrees, ?_⟩
  rw [mode, alive]
  rfl

theorem requestedCall (active : m.mode.isFinal = false)
    (requested : m.control.stopRequested = true) {c : Call} {rest : Rest}
    (next : Rest.requested.after c = some rest) :
    ∃ after, c.attempt handler m = some after ∧ after.core.Agrees m.core ∧
      rest.Describes after := by
  have stays : Rest.requested.Describes m := ⟨active, requested⟩
  have moves {mode : Mode} (other : mode.isFinal = false) :
      Rest.requested.Describes (m.enter mode) := ⟨other, requested⟩
  cases c with
  | step => cases next
  | runSlice budget =>
    cases next
    refine ⟨_, rfl, ?_⟩
    have slice : (m.enter .running).runWithin handler budget = m.enter .running :=
      withinBlocked (m := m.enter .running) (.inr requested) budget
    unfold runSlice
    split
    · rw [slice]
      exact ⟨.refl _, moves rfl⟩
    · rw [slice]
      exact ⟨.refl _, moves rfl⟩
    · exact ⟨.refl _, stays⟩
  | runLoop patience =>
    cases next
    exact loopRequested active requested patience
  | pause =>
    cases next
    obtain same | paused := m.pauseCases
    · exact ⟨m, congrArg some same, .refl _, stays⟩
    · exact ⟨m.enter .paused, congrArg some paused, .refl _, moves rfl⟩
  | resume =>
    cases next
    obtain same | running := m.resumeCases
    · exact ⟨m, congrArg some same, .refl _, stays⟩
    · exact ⟨m.enter .running, congrArg some running, .refl _, moves rfl⟩
  | requestStop =>
    cases next
    exact ⟨m.requestStop, rfl, .refl _, active, rfl⟩
  | stop =>
    cases next
    exact ⟨m.stop, rfl, .refl _, rfl, rfl⟩

theorem stoppedCall (stopped : m.mode = .stopped) {c : Call} {rest : Rest}
    (next : Rest.stopped.after c = some rest) :
    ∃ after, c.attempt handler m = some after ∧ after.core.Agrees m.core ∧
      rest.Describes after := by
  cases c with
  | step => cases next
  | runSlice budget => cases next
  | runLoop patience => cases next
  | pause =>
    cases next
    exact ⟨m, congrArg some (pauseIdle (by rw [stopped]; decide)), .refl _, stopped⟩
  | resume =>
    cases next
    exact ⟨m, congrArg some (resumeIdle (by rw [stopped]; decide)), .refl _, stopped⟩
  | requestStop =>
    cases next
    have active : m.mode.isFinal = false := by rw [stopped]; rfl
    exact ⟨m.requestStop, rfl, .refl _, active, rfl⟩
  | stop =>
    cases next
    exact ⟨m.stop, rfl, .refl _, rfl, rfl⟩

theorem callRests {rest later : Rest} (describes : rest.Describes m) {c : Call}
    (next : rest.after c = some later) :
    ∃ after, c.attempt handler m = some after ∧ after.core.Agrees m.core ∧
      later.Describes after := by
  cases rest with
  | ended =>
    by_cases stops : c = .stop
    · subst stops
      cases next
      exact ⟨m.stop, rfl, .refl _, rfl, rfl⟩
    · have still : later = .ended := by
        cases c <;> first | contradiction | exact (Option.some.inj next).symm
      subst still
      obtain ⟨after, attempted, core, mode⟩ := endedCall describes stops
      refine ⟨after, attempted, ?_, ?_⟩
      · rw [core]
        exact .refl _
      · rw [Rest.Describes, mode]
        exact describes
  | requested => exact requestedCall describes.1 describes.2 next
  | stopped => exact stoppedCall describes next

theorem callsRest {rest later : Rest} (describes : rest.Describes m) {calls : List Call}
    (follows : rest.afterAll calls = some later) :
    ∃ after, m.attemptAll handler calls = some after ∧ after.core.Agrees m.core ∧
      later.Describes after := by
  induction calls generalizing m rest with
  | nil =>
    cases follows
    exact ⟨m, rfl, .refl _, describes⟩
  | cons c calls ih =>
    simp only [Rest.afterAll, List.foldlM_cons, Option.bind_eq_bind, Option.bind_eq_some_iff]
      at follows
    obtain ⟨between, next, others⟩ := follows
    obtain ⟨first, attempted, agrees, holds⟩ := callRests describes next
    obtain ⟨after, rests, same, final⟩ := ih holds others
    refine ⟨after, ?_, same.trans agrees, final⟩
    rw [attemptAll, List.foldlM_cons, attempted]
    exact rests

theorem endedCalls (final : m.mode.isFinal = true) {calls : List Call} (others : .stop ∉ calls) :
    ∃ after, m.attemptAll handler calls = some after ∧ after.core = m.core ∧
      after.mode = m.mode := by
  induction calls generalizing m with
  | nil => exact ⟨m, rfl, rfl, rfl⟩
  | cons c calls ih =>
    obtain ⟨head, tail⟩ := not_or.mp (mt List.mem_cons.mpr others)
    obtain ⟨first, attempted, core, mode⟩ := endedCall final (Ne.symm head)
    obtain ⟨after, rests, same, still⟩ := ih (by rw [mode]; exact final) tail
    refine ⟨after, ?_, same.trans core, still.trans mode⟩
    rw [attemptAll, List.foldlM_cons, attempted]
    exact rests

def Marked (m : Machine δ) : Prop := m.mode = .faulted → m.core.Spent

theorem advanceMarked (handler : Option (TrapHandler δ)) (going : m.mode ≠ .faulted) :
    (m.advance handler).1.Marked ∧
      ((m.advance handler).2 = true → (m.advance handler).1.mode ≠ .faulted) := by
  have executed : (m.core.execute handler m.control).2.1 = .faulted →
      (m.core.execute handler m.control).1.Spent := executeSpent
  unfold advance
  generalize m.core.execute handler m.control = outcome at executed
  obtain ⟨core, ending, signals⟩ := outcome
  have still : (m.control.signalAll signals).mode ≠ .faulted := fun faulted =>
    going (Control.signalAllFaulted faulted)
  cases ending with
  | continued => exact ⟨fun faulted => absurd faulted still, fun _ => still⟩
  | halted => exact ⟨nofun, nofun⟩
  | faulted => exact ⟨fun _ => executed rfl, nofun⟩

theorem withinMarked (marked : m.Marked) (budget : Nat) : (m.runWithin handler budget).Marked := by
  induction budget generalizing m with
  | zero => exact marked
  | succ budget ih =>
    unfold runWithin
    split
    case isTrue => exact marked
    case isFalse free =>
      have running : m.mode = .running := by
        by_contra other
        exact free (.inl other)
      obtain ⟨after, -⟩ := advanceMarked handler (m := m) (by rw [running]; simp)
      dsimp only
      split
      · exact ih after
      · exact after

theorem onMarked (going : m.mode ≠ .faulted) {turns : Nat} {after : Machine δ}
    (runs : m.runOn handler turns = some after) : after.Marked := by
  induction turns generalizing m with
  | zero => cases runs
  | succ turns ih =>
    unfold runOn at runs
    split at runs
    · cases runs
      exact fun faulted => absurd faulted going
    split at runs
    · exact ih going runs
    · obtain ⟨marked, goesOn⟩ := advanceMarked handler going
      dsimp only at runs
      split at runs
      case isTrue more => exact ih (goesOn more) runs
      case isFalse =>
        cases runs
        exact marked

theorem loopMarked (marked : m.Marked) {patience : Nat} {after : Machine δ}
    (returns : Call.attempt handler m (.runLoop patience) = some after) : after.Marked := by
  cases final : m.mode.isFinal with
  | true =>
    rw [Call.attempt, runLoop, if_pos final] at returns
    cases returns
    exact marked
  | false =>
    rw [loopBegins final] at returns
    obtain ⟨left, runs, rfl⟩ := Option.map_eq_some_iff.mp returns
    obtain ⟨-, alive, -⟩ := m.begunAgrees final
    obtain ⟨core, mode⟩ := concludedAgrees m left
    have going : m.begun.mode ≠ .faulted := fun faulted => by
      rw [faulted] at alive
      cases alive
    have before : left.Marked := onMarked going runs
    intro faulted
    refine Core.Spent.ofAgrees (before ?_) core
    rw [mode] at faulted
    split at faulted
    · exact faulted
    · cases faulted

theorem attemptMarked (marked : m.Marked) {c : Call} {after : Machine δ}
    (returns : c.attempt handler m = some after) : after.Marked := by
  cases c with
  | step =>
    cases returns
    unfold step
    split
    · exact marked
    · exact (advanceMarked handler (m := m.enter .running) nofun).1
  | runSlice budget =>
    cases returns
    unfold runSlice
    split
    · exact withinMarked (m := m.enter .running) nofun budget
    · exact withinMarked (m := m.enter .running) nofun budget
    · exact marked
  | runLoop patience => exact loopMarked marked returns
  | pause =>
    cases returns
    obtain same | paused := m.pauseCases
    · rw [same]; exact marked
    · rw [paused]; exact nofun
  | resume =>
    cases returns
    obtain same | running := m.resumeCases
    · rw [same]; exact marked
    · rw [running]; exact nofun
  | requestStop =>
    cases returns
    exact marked
  | stop =>
    cases returns
    exact nofun

theorem attemptsMarked (marked : m.Marked) {calls : List Call} {after : Machine δ}
    (returns : m.attemptAll handler calls = some after) : after.Marked := by
  induction calls generalizing m with
  | nil =>
    cases returns
    exact marked
  | cons c calls ih =>
    rw [attemptAll, List.foldlM_cons] at returns
    obtain ⟨first, attempted, others⟩ := Option.bind_eq_some_iff.mp returns
    exact ih (attemptMarked marked attempted) others

theorem advanceRelapses (handler : Option (TrapHandler δ)) (spent : m.core.Spent) :
    (m.advance handler).1.core.Agrees m.core ∧ (m.advance handler).2 = false := by
  obtain ⟨d, executed, agrees⟩ := spent handler m.control
  unfold advance
  rw [executed]
  exact ⟨agrees, rfl⟩

theorem withinRelapses (handler : Option (TrapHandler δ)) (spent : m.core.Spent) (budget : Nat) :
    (m.runWithin handler budget).core.Agrees m.core := by
  cases budget with
  | zero => exact .refl _
  | succ budget =>
    obtain ⟨agrees, stops⟩ := advanceRelapses handler spent
    unfold runWithin
    split
    · exact .refl _
    · dsimp only
      rw [stops]
      exact agrees

theorem onRelapses (handler : Option (TrapHandler δ)) (spent : m.core.Spent) (turns : Nat) :
    (∃ after, m.runOn handler (turns + 1) = some after ∧ after.core.Agrees m.core) ∨
      m.mode = .paused ∧ m.control.stopRequested = false := by
  obtain ⟨agrees, stops⟩ := advanceRelapses handler spent
  cases free : m.control.stopRequested with
  | true => exact .inl ⟨m, by rw [runOn, if_pos free], .refl _⟩
  | false =>
    by_cases paused : m.mode = .paused
    · exact .inr ⟨paused, rfl⟩
    · refine .inl ⟨_, ?_, agrees⟩
      rw [runOn, free, if_neg Bool.false_ne_true, if_neg paused]
      dsimp only
      rw [stops, if_neg Bool.false_ne_true]

theorem loopRelapses (handler : Option (TrapHandler δ)) (spent : m.core.Spent) (patience : Nat) :
    (∃ after, Call.attempt handler m (.runLoop patience) = some after ∧
      after.core.Agrees m.core) ∨
      m.mode = .paused ∧ m.control.stopRequested = false := by
  cases final : m.mode.isFinal with
  | true => exact .inl ⟨m, by rw [Call.attempt, runLoop, if_pos final]; rfl, .refl _⟩
  | false =>
    obtain ⟨agrees, -, same⟩ := m.begunAgrees final
    obtain ⟨after, runs, relapsed⟩ | ⟨paused, free⟩ :=
      onRelapses handler (spent.ofAgrees agrees) patience
    · refine .inl ⟨m.concluded after, by rw [loopBegins final, runs]; rfl, ?_⟩
      exact ((concludedAgrees m after).1.trans relapsed).trans agrees
    · refine .inr ⟨?_, same.symm.trans free⟩
      unfold begun at paused
      dsimp only at paused
      split at paused
      · exact paused
      · cases paused

theorem callRelapses (handler : Option (TrapHandler δ)) (spent : m.core.Spent) (c : Call) :
    (∃ after, c.attempt handler m = some after ∧ after.core.Agrees m.core) ∨
      ∃ patience, c = .runLoop patience ∧ m.mode = .paused ∧ m.control.stopRequested = false := by
  cases c with
  | step =>
    refine .inl ⟨_, rfl, ?_⟩
    unfold step
    split
    · exact .refl _
    · exact (advanceRelapses (m := m.enter .running) handler spent).1
  | runSlice budget =>
    refine .inl ⟨_, rfl, ?_⟩
    unfold runSlice
    split
    · exact withinRelapses (m := m.enter .running) handler spent budget
    · exact withinRelapses (m := m.enter .running) handler spent budget
    · exact .refl _
  | runLoop patience =>
    exact (loopRelapses handler spent patience).imp id fun waits => ⟨patience, rfl, waits⟩
  | pause | resume | requestStop | stop => exact .inl ⟨_, rfl, .refl _⟩

def Unmoved (handler : Option (TrapHandler δ)) (m : Machine δ) (calls : List Call) : Prop :=
  (∃ after, m.attemptAll handler calls = some after ∧ after.core.Agrees m.core) ∨
    ∃ first patience rest paused, calls = first ++ .runLoop patience :: rest ∧
      m.attemptAll handler first = some paused ∧ paused.core.Agrees m.core ∧
      paused.mode = .paused ∧ paused.control.stopRequested = false

theorem callsRelapse (handler : Option (TrapHandler δ)) (spent : m.core.Spent) (calls : List Call) :
    m.Unmoved handler calls := by
  induction calls generalizing m with
  | nil => exact .inl ⟨m, rfl, .refl _⟩
  | cons c calls ih =>
    obtain ⟨next, attempted, agrees⟩ | ⟨patience, rfl, paused, free⟩ :=
      callRelapses handler spent c
    · have onward (calls : List Call) :
          m.attemptAll handler (c :: calls) = next.attemptAll handler calls := by
        rw [attemptAll, List.foldlM_cons, attempted]
        rfl
      obtain ⟨after, others, same⟩ | ⟨first, patience, rest, paused, rfl, before, same, waits⟩ :=
        ih (spent.ofAgrees agrees)
      · exact .inl ⟨after, (onward _).trans others, same.trans agrees⟩
      · exact .inr ⟨c :: first, patience, rest, paused, rfl, (onward _).trans before,
          same.trans agrees, waits⟩
    · exact .inr ⟨[], patience, calls, m, rfl, rfl, .refl _, paused, free⟩

/- A machine that has halted or faulted executes nothing until it is reset or stopped, and nothing
after a stop until another call starts it. One that has become faulted, by whatever calls, executes
nothing until it is reset. -/
theorem endedRestsUntilStarted (handler : Option (TrapHandler δ))
    (ended : m.mode = .halted ∨ m.mode = .faulted) :
    (∀ calls : List Call, .stop ∉ calls → ∃ after, m.attemptAll handler calls = some after ∧
      after.core = m.core ∧ after.mode = m.mode) ∧
    (∀ calls : List Call, (∃ rest, Rest.ended.afterAll calls = some rest) →
      ∃ after, m.attemptAll handler calls = some after ∧
        after.core.registers = m.core.registers ∧ after.core.memory = m.core.memory ∧
        after.core.devices = m.core.devices ∧ after.core.retired = m.core.retired ∧
        after.core.lastFault = m.core.lastFault) ∧
    ∀ (before : Machine δ) (made : List Call), before.mode ≠ .faulted →
      before.attemptAll handler made = some m → m.mode = .faulted →
      ∀ calls, m.Unmoved handler calls := by
  have final : m.mode.isFinal = true := by
    obtain mode | mode := ended <;> rw [mode] <;> rfl
  refine ⟨fun calls others => endedCalls final others, fun calls ⟨rest, follows⟩ => ?_,
    fun before made going became faulted => callsRelapse handler ?_⟩
  · have describes : Rest.ended.Describes m := final
    obtain ⟨after, attempted, agrees, -⟩ := callsRest describes follows
    exact ⟨after, attempted, agrees.guest.registers, agrees.guest.memory, agrees.guest.devices,
      agrees.retired, agrees.lastFault⟩
  · have marked : before.Marked := fun faulted => absurd faulted going
    exact attemptsMarked marked became faulted

end Calls

theorem faultedRestsUntilStarted :
    let memory := (Memory.zeros 4 (by decide) false).store 13 [0xE9]
    let m : Machine Unit := start memory () .empty
    let fresh := { m with core.registers := m.core.registers.jump 13 }
    let m := (fresh.step none).1
    let calls : List Call := [.step, .runSlice 5, .resume, .stop, .runSlice 5, .pause, .runLoop 0]
    (m.mode = .halted ∨ m.mode = .faulted) ∧ m.core.lastFault.isSome = true ∧
      (∃ after, m.attemptAll none [.step, .requestStop, .runLoop 0] = some after ∧
        after.core = m.core ∧ after.mode = m.mode) ∧
      (∃ after, m.attemptAll none calls = some after ∧
        after.core.registers = m.core.registers ∧ after.core.lastFault = m.core.lastFault) ∧
      m.Unmoved none (calls ++ [.runLoop 0, .stop, .step]) ∧
      (m.attemptAll none (calls ++ [.runLoop 0, .stop, .step])).map Machine.mode =
        some .faulted := by
  intro memory start fresh m calls
  have ended : m.mode = .halted ∨ m.mode = .faulted := .inr (by decide +kernel)
  obtain ⟨unstopped, waiting, faulted⟩ := endedRestsUntilStarted none ended
  obtain ⟨after, attempted, registers, -, -, -, lastFault⟩ := waiting calls ⟨.stopped, rfl⟩
  exact ⟨ended, by decide +kernel, unstopped _ (by decide),
    ⟨after, attempted, registers, lastFault⟩,
    faulted fresh [.step] nofun rfl (by decide +kernel) _, by decide +kernel⟩

theorem haltedGoesOnAfterStop :
    let memory := (Memory.zeros 4 (by decide) false).store 0 [0xF4, 0x90]
    let m : Machine Unit := ((start memory () .empty).step none).1
    m.mode = .halted ∧ m.core.retired = 1 ∧ ∃ after, m.attemptAll none [.stop, .step] = some after ∧
      after.core.retired = 2 ∧ after.core.registers = m.core.registers.jump 2 := by
  intro memory m
  exact ⟨by decide +kernel, by decide +kernel, ((m.stop).step none).1, rfl, by decide +kernel,
    by decide +kernel⟩

end Machine

end GameConsole
