import GameConsole.Proofs.Processor.Rest

/-! The three ways to drive a machine: single steps, slices and a whole run. Slices put end to end
are one slice. On the way to a halt or a fault that nothing interrupts, all three carry out the same
instructions. -/
namespace GameConsole

namespace Control

theorem signalAllStarted {c : Control} (started : c.mode ≠ .stopped) (signals : List Signal) :
    (c.signalAll signals).mode ≠ .stopped := by
  induction signals generalizing c with
  | nil => exact started
  | cons s rest ih =>
    refine ih ?_
    cases s <;> simp only [signal, pause, resume, requestStop, exchange] <;> grind

end Control

namespace Machine

variable {δ : Type} {handler : Option (TrapHandler δ)} {m x last : Machine δ}

section Advance

theorem advanceContinued (continues : (m.core.execute handler m.control).2.1 = .continued) :
    m.advance handler = (⟨(m.core.execute handler m.control).1,
      m.control.signalAll (m.core.execute handler m.control).2.2⟩, true) := by
  simp only [advance, continues]

theorem advanceStopped (stops : (m.core.execute handler m.control).2.1 ≠ .continued) :
    ∃ mode : Mode, mode.isFinal = true ∧
      m.advance handler = (⟨(m.core.execute handler m.control).1,
        (m.control.signalAll (m.core.execute handler m.control).2.2).enter mode⟩, false) := by
  simp only [advance]
  cases ends : (m.core.execute handler m.control).2.1 with
  | continued => exact absurd ends stops
  | halted => exact ⟨.halted, rfl, rfl⟩
  | faulted => exact ⟨.faulted, rfl, rfl⟩

theorem advanceEnds (handler : Option (TrapHandler δ)) (started : m.mode ≠ .stopped) :
    (m.advance handler).1.mode ≠ .stopped ∧
    ((m.advance handler).2 = false → (m.advance handler).1.mode.isFinal = true) ∧
    m.core.retired ≤ (m.advance handler).1.core.retired ∧
    (m.advance handler).1.core.retired ≤ m.core.retired + 1 := by
  obtain ⟨broken, done⟩ := executeRetires handler m.control m.core
  have counts : m.core.retired ≤ (m.core.execute handler m.control).1.retired ∧
      (m.core.execute handler m.control).1.retired ≤ m.core.retired + 1 := by
    by_cases faults : (m.core.execute handler m.control).2.1 = .faulted
    · have := (broken faults).2
      omega
    · have := done faults
      omega
  by_cases continues : (m.core.execute handler m.control).2.1 = .continued
  · rw [advanceContinued continues]
    exact ⟨Control.signalAllStarted started _, Bool.noConfusion, counts⟩
  · obtain ⟨mode, final, ends⟩ := advanceStopped continues
    rw [ends]
    exact ⟨(finalIdle (m := ⟨m.core, m.control.enter mode⟩) final).1, fun _ => final, counts⟩

end Advance

section Slices

theorem withinFree (running : m.mode = .running) (free : m.control.stopRequested = false)
    (budget : Nat) : m.runWithin handler (budget + 1) =
      if (m.advance handler).2 then (m.advance handler).1.runWithin handler budget
      else (m.advance handler).1 := by
  rw [runWithin, if_neg (by simp [running, free])]

theorem withinAdd (first second : Nat) (m : Machine δ) :
    (m.runWithin handler first).runWithin handler second =
      m.runWithin handler (first + second) := by
  induction first generalizing m with
  | zero => rw [Nat.zero_add, runWithin]
  | succ first ih =>
    rw [Nat.succ_add]
    by_cases blocked : m.mode ≠ .running ∨ m.control.stopRequested = true
    · rw [withinBlocked blocked, withinBlocked blocked, withinBlocked blocked]
    · obtain ⟨running, free⟩ := not_or.mp blocked
      have running := Decidable.of_not_not running
      have free := Bool.eq_false_of_not_eq_true free
      rw [withinFree running free, withinFree running free]
      cases goesOn : (m.advance handler).2 with
      | true => exact ih _
      | false =>
        have final := (advanceEnds handler (by rw [running]; decide)).2.1 goesOn
        exact withinBlocked (.inl (finalIdle final).2.1) second

theorem withinKeeps (handler : Option (TrapHandler δ)) (budget : Nat) {m : Machine δ}
    (started : m.mode ≠ .stopped) :
    (m.runWithin handler budget).mode ≠ .stopped ∧
    m.core.retired ≤ (m.runWithin handler budget).core.retired ∧
    (m.runWithin handler budget).core.retired ≤ m.core.retired + budget := by
  induction budget generalizing m with
  | zero => exact ⟨started, Nat.le_refl _, Nat.le_refl _⟩
  | succ budget ih =>
    by_cases blocked : m.mode ≠ .running ∨ m.control.stopRequested = true
    · rw [withinBlocked blocked]
      exact ⟨started, Nat.le_refl _, Nat.le_add_right _ _⟩
    · obtain ⟨running, free⟩ := not_or.mp blocked
      obtain ⟨still, -, least, most⟩ := advanceEnds handler started
      rw [withinFree (Decidable.of_not_not running) (Bool.eq_false_of_not_eq_true free)]
      cases (m.advance handler).2 with
      | true =>
        obtain ⟨after, lower, upper⟩ := ih still
        exact ⟨after, least.trans lower, by simp only [if_true]; omega⟩
      | false => exact ⟨still, least, by simp only [Bool.false_eq_true, if_false]; omega⟩

theorem sliceRuns (active : m.mode = .stopped ∨ m.mode = .running) (budget : Nat) :
    m.runSlice handler budget = ((m.enter .running).runWithin handler budget,
      ((m.enter .running).runWithin handler budget).core.retired - m.core.retired) := by
  unfold runSlice
  obtain mode | mode := active <;> rw [mode]

theorem sliceRests (rests : ¬(m.mode = .stopped ∨ m.mode = .running)) (budget : Nat) :
    m.runSlice handler budget = (m, 0) := by
  obtain ⟨notStopped, notRunning⟩ := not_or.mp rests
  unfold runSlice
  split <;> first | contradiction | rfl

theorem enterSame (running : m.mode = .running) : m.enter .running = m := by
  obtain ⟨core, mode, stop⟩ := m
  cases running
  rfl

theorem sliceCounts (handler : Option (TrapHandler δ)) (budget : Nat) (m : Machine δ) :
    (m.runSlice handler budget).2 ≤ budget ∧
    (m.runSlice handler budget).1.core.retired =
      m.core.retired + (m.runSlice handler budget).2 := by
  by_cases active : m.mode = .stopped ∨ m.mode = .running
  · obtain ⟨-, least, most⟩ :=
      withinKeeps handler budget (m := m.enter .running) Mode.noConfusion
    have same : (m.enter .running).core.retired = m.core.retired := rfl
    rw [sliceRuns active]
    dsimp only
    omega
  · rw [sliceRests active]
    exact ⟨Nat.zero_le _, rfl⟩

theorem sliceAdd (first second : Nat) (m : Machine δ) :
    let before := m.runSlice handler first
    let after := before.1.runSlice handler second
    m.runSlice handler (first + second) = (after.1, before.2 + after.2) := by
  intro before after
  have counts : (m.runSlice handler (first + second)).1 = after.1 →
      m.runSlice handler (first + second) = (after.1, before.2 + after.2) := by
    intro same
    have all := (sliceCounts handler (first + second) m).2
    have here : before.1.core.retired = m.core.retired + before.2 := (sliceCounts handler first m).2
    have there : after.1.core.retired = before.1.core.retired + after.2 :=
      (sliceCounts handler second before.1).2
    rw [same] at all
    exact Prod.ext same (show _ = before.2 + after.2 by omega)
  refine counts ?_
  by_cases active : m.mode = .stopped ∨ m.mode = .running
  · have begins : before = _ := sliceRuns active first
    obtain ⟨started, -, -⟩ :=
      withinKeeps handler first (m := m.enter .running) Mode.noConfusion
    rw [sliceRuns active, ← withinAdd]
    by_cases running : before.1.mode = .running
    · have goesOn : after = _ := sliceRuns (.inr running) second
      rw [goesOn, enterSame running, begins]
    · have rests : after = _ := sliceRests (m := before.1) (by
        rw [begins] at running ⊢
        exact not_or.mpr ⟨started, running⟩) second
      rw [rests]
      rw [begins] at running ⊢
      exact withinBlocked (.inl running) second
  · have begins : before = _ := sliceRests active first
    have rests : after = _ := sliceRests (m := before.1) (by rw [begins]; exact active) second
    rw [sliceRests active, rests, begins]

end Slices

/- The single steps of a machine up to the one that cannot be followed by another. Between them
nobody pauses the machine or asks it to stop. -/
inductive Unhindered (handler : Option (TrapHandler δ)) : Nat → Machine δ → Machine δ → Prop where
  | last {m : Machine δ} (ends : (m.step handler).2 = 0) : Unhindered handler 1 m (m.step handler).1
  | more {m last : Machine δ} {steps : Nat} (continues : (m.step handler).2 ≠ 0)
      (running : (m.step handler).1.mode = .running)
      (free : (m.step handler).1.control.stopRequested = false)
      (rest : Unhindered handler steps (m.step handler).1 last) :
      Unhindered handler (steps + 1) m last

section Unhindered

theorem stepAdvances (active : m.mode.isFinal = false) :
    m.step handler = (((m.enter .running).advance handler).1,
      if ((m.enter .running).advance handler).2 then 1 else 0) := by
  simp only [step, active, Bool.false_eq_true, if_false]

theorem stepRunning (running : m.mode = .running) :
    m.step handler = ((m.advance handler).1, if (m.advance handler).2 then 1 else 0) := by
  rw [stepAdvances (by rw [running]; rfl), enterSame running]

theorem stepEnds (running : m.mode = .running) :
    (m.step handler).2 = 0 ↔ (m.advance handler).2 = false := by
  rw [stepRunning running]
  cases (m.advance handler).2 <;> simp

theorem Unhindered.entered {steps : Nat} (active : m.mode.isFinal = false)
    (unhindered : Unhindered handler steps m last) :
    Unhindered handler steps (m.enter .running) last := by
  have same : (m.enter .running).step handler = m.step handler := by
    rw [stepAdvances active, stepRunning rfl]
  cases unhindered with
  | last ends =>
    rw [← same] at ends ⊢
    exact .last ends
  | more continues running free rest =>
    rw [← same] at continues running free rest
    exact .more continues running free rest

theorem unhinderedSteps {steps : Nat} (unhindered : Unhindered handler steps m last)
    (made : Nat) {limit : Nat} (enough : steps ≤ limit) :
    m.stepFrom handler made limit = (last, made + steps) := by
  induction unhindered generalizing made limit with
  | last ends =>
    obtain ⟨limit, rfl⟩ := Nat.exists_eq_succ_of_ne_zero (Nat.ne_of_gt enough)
    simp only [stepFrom, ends, if_true]
  | @more _ _ steps continues _ _ _ ih =>
    obtain ⟨limit, rfl⟩ := Nat.exists_eq_succ_of_ne_zero (n := limit) (by omega)
    simp only [stepFrom, if_neg continues]
    rw [ih (made + 1) (by omega)]
    congr 1
    omega

theorem unhinderedFinal {steps : Nat} (unhindered : Unhindered handler steps m last)
    (running : m.mode = .running) : last.mode.isFinal = true := by
  induction unhindered with
  | last ends =>
    have final := (advanceEnds handler (by rw [running]; decide)).2.1 ((stepEnds running).mp ends)
    rw [stepRunning running]
    exact final
  | more _ still _ _ ih => exact ih still

theorem unhinderedWithin {steps : Nat} (unhindered : Unhindered handler steps m last)
    (running : m.mode = .running) (free : m.control.stopRequested = false) {budget : Nat}
    (enough : steps ≤ budget) : m.runWithin handler budget = last := by
  induction unhindered generalizing budget with
  | last ends =>
    obtain ⟨budget, rfl⟩ := Nat.exists_eq_succ_of_ne_zero (Nat.ne_of_gt enough)
    have stops := (stepEnds running).mp ends
    rw [withinFree running free, stops, stepRunning running]
    rfl
  | @more m _ steps continues still quiet _ ih =>
    obtain ⟨budget, rfl⟩ := Nat.exists_eq_succ_of_ne_zero (n := budget) (by omega)
    have goesOn : (m.advance handler).2 = true :=
      Bool.eq_true_of_not_eq_false (mt (stepEnds running).mpr continues)
    have same : (m.step handler).1 = (m.advance handler).1 := by rw [stepRunning running]
    rw [withinFree running free, goesOn, if_pos rfl, ← same]
    exact ih still quiet (by omega)

/- The handler goes by registers, memory, devices and control, not by what has been reported. -/
def Unread (handler : Option (TrapHandler δ)) : Prop :=
  ∀ control, TrapsRelated Eq Eq (Guest.trap handler control) (Guest.trap handler control)

theorem advanceAgrees (unread : Unread handler) (agrees : x.core.Agrees m.core)
    (control : x.control = m.control) :
    (x.advance handler).1.core.Agrees (m.advance handler).1.core ∧
      (x.advance handler).1.control = (m.advance handler).1.control ∧
      (x.advance handler).2 = (m.advance handler).2 := by
  obtain ⟨ending, signals, _, first, second, rfl, related⟩ := executeRelated rfl
    (unread m.control) (agrees.related (R := Eq) agrees.guest.devices)
  have same := related.agrees related.guest.devices
  simp only [advance, control, first, second]
  cases ending with
  | continued => exact ⟨same, rfl, rfl⟩
  | halted => exact ⟨same, rfl, rfl⟩
  | faulted => exact ⟨same, rfl, rfl⟩

theorem onFree (running : m.mode = .running) (free : m.control.stopRequested = false)
    (turns : Nat) : m.runOn handler (turns + 1) =
      if (m.advance handler).2 then (m.advance handler).1.runOn handler turns
      else some (m.advance handler).1 := by
  rw [runOn, if_neg (by rw [free]; decide), if_neg (by rw [running]; decide)]

theorem unhinderedOn (unread : Unread handler) {steps : Nat}
    (unhindered : Unhindered handler steps m last) (running : m.mode = .running)
    (free : m.control.stopRequested = false) (agrees : x.core.Agrees m.core)
    (control : x.control = m.control) {turns : Nat} (enough : steps ≤ turns) :
    ∃ after, x.runOn handler turns = some after ∧ after.core.Agrees last.core ∧
      after.control = last.control := by
  induction unhindered generalizing x turns with
  | @last m ends =>
    obtain ⟨turns, rfl⟩ := Nat.exists_eq_succ_of_ne_zero (Nat.ne_of_gt enough)
    obtain ⟨core, shared, same⟩ := advanceAgrees unread agrees control
    have stops := same.trans ((stepEnds running).mp ends)
    rw [onFree (by rw [mode, control]; exact running) (by rw [control]; exact free), stops,
      stepRunning running]
    exact ⟨_, rfl, core, shared⟩
  | @more m _ steps continues still quiet _ ih =>
    obtain ⟨turns, rfl⟩ := Nat.exists_eq_succ_of_ne_zero (n := turns) (by omega)
    obtain ⟨core, shared, same⟩ := advanceAgrees unread agrees control
    have goesOn : (x.advance handler).2 = true :=
      same.trans (Bool.eq_true_of_not_eq_false (mt (stepEnds running).mpr continues))
    have stepped : (m.step handler).1 = (m.advance handler).1 := by rw [stepRunning running]
    rw [onFree (by rw [mode, control]; exact running) (by rw [control]; exact free), goesOn,
      if_pos rfl]
    rw [← stepped] at core shared
    exact ih still quiet core shared (by omega)

theorem begunControl (active : m.mode = .stopped ∨ m.mode = .running) :
    m.begun.control = (m.enter .running).control := by
  unfold begun
  dsimp only
  split
  case isTrue paused =>
    have mode : m.mode = .paused := paused
    rw [mode] at active
    obtain other | other := active <;> cases other
  case isFalse => rfl

theorem loopEnds {turns : Nat} {after : Machine δ} (active : m.mode.isFinal = false)
    (runs : m.begun.runOn handler turns = some after) (final : after.mode.isFinal = true) :
    ∃ told, m.runLoop handler turns = some (told, after.core.retired - m.core.retired) ∧
      told.core.Agrees after.core ∧ told.mode = after.mode := by
  unfold begun at runs
  simp only [runLoop, active, Bool.false_eq_true, if_false, runs]
  simp only [mode] at final ⊢
  simp only [final, if_true]
  exact ⟨_, rfl, (Core.Agrees.refl _).note _, rfl⟩

end Unhindered

theorem driversAgree (handler : Option (TrapHandler δ)) (m : Machine δ) :
    (∀ first second,
      let before := m.runSlice handler first
      let after := before.1.runSlice handler second
      m.runSlice handler (first + second) = (after.1, before.2 + after.2) ∧ before.2 ≤ first ∧
        before.1.core.retired = m.core.retired + before.2) ∧
    ∀ steps last, m.mode = .stopped ∨ m.mode = .running → m.control.stopRequested = false →
      Unhindered handler steps m last →
      last.mode.isFinal = true ∧ ∀ limit, steps ≤ limit →
        let executed := last.core.retired - m.core.retired
        m.stepUpTo handler limit = (last, steps) ∧
        m.runSlice handler limit = (last, executed) ∧
        (Unread handler → ∃ after, m.runLoop handler limit = some (after, executed) ∧
          after.core.Agrees last.core ∧ after.mode = last.mode) := by
  refine ⟨fun first second => ?_, fun steps last active free unhindered => ?_⟩
  · obtain ⟨most, growth⟩ := sliceCounts handler first m
    exact ⟨sliceAdd first second m, most, growth⟩
  · have alive : m.mode.isFinal = false := by obtain mode | mode := active <;> rw [mode] <;> rfl
    have entered := unhindered.entered alive
    have final := unhinderedFinal entered rfl
    refine ⟨final, fun limit enough => ?_⟩
    have steps := unhinderedSteps unhindered 0 enough
    have slice := unhinderedWithin entered rfl free enough
    refine ⟨?_, ?_, fun unread => ?_⟩
    · rw [stepUpTo, steps, Nat.zero_add]
    · rw [sliceRuns active, slice]
    · obtain ⟨agrees, -, -⟩ := begunAgrees alive
      obtain ⟨after, runs, same, shared⟩ := unhinderedOn unread entered rfl free agrees
        (begunControl active) enough
      have mode : after.mode = last.mode := congrArg Control.mode shared
      obtain ⟨told, loop, noted, ends⟩ := loopEnds alive runs (by rw [mode]; exact final)
      refine ⟨told, ?_, noted.trans same, ends.trans mode⟩
      rw [loop, same.retired]

theorem driversAgreeResumed :
    let memory := (Memory.zeros 4 (by decide) false).store 0 [0x90, 0x0F, 0x05, 0xF4]
    let handler : Option (TrapHandler Unit) := some fun _ g => (g.set .rax 7, [.pause, .resume])
    let m : Machine Unit := start memory () .empty
    let second := ((m.step handler).1.step handler).1
    let last := (second.step handler).1
    Unread handler ∧ m.mode = .stopped ∧ m.control.stopRequested = false ∧
      Unhindered handler 3 m last ∧ last.mode = .halted ∧ m.runSlice handler 9 = (last, 3) ∧
      ∃ after, m.runLoop handler 9 = some (after, 3) ∧ after.mode = .halted ∧
        after.core.registers = last.core.registers ∧ after.core.registers.get .rax = 7 := by
  intro memory handler m second last
  have unread : Unread handler := fun _ _ _ related => ⟨related.set .rax 7, rfl⟩
  have unhindered : Unhindered handler 3 m last :=
    .more (by decide +kernel) (by decide +kernel) (by decide +kernel)
      (.more (by decide +kernel) (by decide +kernel) (by decide +kernel)
        (.last (m := second) (by decide +kernel)))
  obtain ⟨-, ends⟩ := (driversAgree handler m).2 3 last (.inl rfl) rfl unhindered
  obtain ⟨-, slice, loops⟩ := ends 9 (by decide)
  obtain ⟨after, loop, agrees, mode⟩ := loops unread
  have halted : last.mode = .halted := by decide +kernel
  have executed : last.core.retired - m.core.retired = 3 := by decide +kernel
  rw [executed] at slice loop
  refine ⟨unread, rfl, rfl, unhindered, halted, slice, after, loop, mode.trans halted,
    agrees.guest.registers, ?_⟩
  rw [agrees.guest.registers]
  decide +kernel

end Machine

end GameConsole
