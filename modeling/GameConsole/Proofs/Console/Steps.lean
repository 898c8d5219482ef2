import GameConsole.Console.Control
import GameConsole.Proofs.Procedure

/-! Contracts of the steps that calls have in common, whatever else goes on beside them. -/
namespace GameConsole.Console
open Interplay (Meets)

variable {ν τ : Type} {i : Interplay Console ν τ} {P Q R : Assertion i}

theorem joinTakes {c d : Console} {core : Option (Core Unit)}
    (joined : Call.join c = some (core, d)) :
    d = { c with worker := none } ∧
      (core = none ∧ c.worker = some .died ∨
        ∃ mine, core = some mine ∧ c.worker = some (.finished mine)) := by
  unfold Call.join at joined
  split at joined
  case h_1 mine finished =>
    cases joined
    exact ⟨rfl, .inr ⟨mine, rfl, finished⟩⟩
  case h_2 died =>
    cases joined
    exact ⟨rfl, .inl ⟨rfl, died⟩⟩
  case h_3 => cases joined

theorem joinGone {c d : Console} {core : Option (Core Unit)}
    (joined : Call.join c = some (core, d)) :
    d = { c with worker := none } ∧
      (c.worker = some .died ∨ ∃ core, c.worker = some (.finished core)) := by
  obtain ⟨same, ⟨-, died⟩ | ⟨core, -, finished⟩⟩ := joinTakes joined
  · exact ⟨same, .inl died⟩
  · exact ⟨same, .inr ⟨core, finished⟩⟩

class Placid (i : Interplay Console ν τ) : Prop where
  tells : ∀ c observer journal, i.allowed c { c with observer, journal }

/- Steps are allowed that leave the execution thread and the state to themselves. -/
class Tolerant (i : Interplay Console ν τ) : Prop where
  tolerates : ∀ c d, d.worker = c.worker → d.state = c.state → d.config = c.config →
    d.initialized = c.initialized → i.allowed c d

class Lenient (i : Interplay Console ν τ) : Prop where
  allows : ∀ c d, d.worker = c.worker → i.allowed c d

instance [Tolerant i] : Placid i := ⟨fun _ _ _ => Tolerant.tolerates _ _ rfl rfl rfl rfl⟩

instance [Lenient i] : Tolerant i := ⟨fun c d same _ _ _ => Lenient.allows c d same⟩

class Marginal (c d : Console) : Prop where
  config : d.config = c.config
  state : d.state = c.state
  observer : d.observer = c.observer
  worker : d.worker = c.worker

class Superficial (c d : Console) : Prop extends Marginal c d where
  core : d.core = c.core
  initialized : d.initialized = c.initialized
  devices : d.devices = c.devices
  control : d.control = c.control

instance {c : Console} {programLoaded initialized : Bool} {snapshot : Registers}
    {instructions : Nat} {control : Control} {devices : Syscall.Hosted Syscall.Devices}
    {queue : Graphics.RenderQueue} {journal : Journal} {core : Option (Core Unit)}
    {entry : Option UInt64} :
    Marginal c { c with
      programLoaded, initialized, snapshot, instructions, control, devices, queue, journal, core,
      entry } :=
  ⟨rfl, rfl, rfl, rfl⟩

instance {c : Console} {programLoaded : Bool} {snapshot : Registers} {instructions : Nat}
    {queue : Graphics.RenderQueue} {journal : Journal} {entry : Option UInt64} :
    Superficial c { c with programLoaded, snapshot, instructions, queue, journal, entry } :=
  ⟨rfl, rfl, rfl, rfl⟩

def Quiet (P : Assertion i) : Prop :=
  ∀ w journal, P w → P (i.ours w { i.state w with journal })

theorem controlAllowed (f : Control → Control)
    (keeps : ∀ w, P w → i.allowed (i.state w) { i.state w with control := f (i.state w).control } ∧
      Q (i.ours w { i.state w with control := f (i.state w).control }))
    (without : ∀ w, P w → (i.state w).initialized = false → Q w) :
    i.Meets P (Call.control f) fun _ => Q := by
  refine .bind (Q := fun initialized => cond initialized P Q) (.look fun w holds => ?_)
    fun initialized => ?_
  · cases initialized : (i.state w).initialized with
    | false => exact without w holds initialized
    | true => exact holds
  cases initialized with
  | false => exact .done fun _ holds => holds
  | true => exact .alter fun w holds => keeps w holds

section Placid
variable [Placid i]

theorem journalMeets {change : Console → Journal} (quiet : Quiet P) :
    i.Meets P (Procedure.alter fun c => { c with journal := change c }) fun _ => P :=
  .alter fun w holds => ⟨Placid.tells (i.state w) (i.state w).observer _, quiet w _ holds⟩

theorem reportMeets (quiet : Quiet P) (e : Event) : i.Meets P (Call.report e) fun _ => P :=
  journalMeets quiet

theorem refuseMeets (quiet : Quiet P) (message : String) :
    i.Meets P (Call.refuse message) fun _ => P :=
  .bind (Q := fun _ => P) (.look fun _ holds => holds) fun _ => reportMeets quiet _

theorem announceMeets (before after : Lifecycle)
    (told : ∀ w, P w → P (i.ours w ((i.state w).tell before after))) :
    i.Meets P (Call.announce before after) fun _ => P :=
  .alter fun w holds => ⟨Placid.tells (i.state w) _ _, told w holds⟩

theorem enterAllowed (after : Lifecycle)
    (moves : ∀ w, P w → i.allowed (i.state w) { i.state w with state := after } ∧
      Q (i.ours w { i.state w with state := after }))
    (told : ∀ w before, Q w → Q (i.ours w ((i.state w).tell before after))) :
    i.Meets P (Call.enter after) fun _ => Q := by
  refine .bind (Q := fun _ => Q) (.update fun w _ _ holds goes => ?_) fun before => ?_
  · cases goes
    exact moves w holds
  split
  · exact announceMeets before after fun w => told w before
  · exact .done fun _ holds => holds

theorem moveAllowed (origins : List Lifecycle) (after : Lifecycle)
    (moves : ∀ w, P w → (i.state w).state ∈ origins →
      i.allowed (i.state w) { i.state w with state := after } ∧
        Q (i.ours w { i.state w with state := after }))
    (stays : ∀ w, P w → (i.state w).state ∉ origins → R w)
    (told : ∀ w before, Q w → Q (i.ours w ((i.state w).tell before after))) :
    i.Meets P (Call.move origins after) fun moved => cond moved Q R := by
  refine .bind (Q := fun before => if before ∈ origins then Q else R)
    (.update fun w before later holds goes => ?_) fun before => ?_
  · obtain ⟨rfl, found⟩ := Prod.mk.inj goes
    by_cases origin : (i.state w).state ∈ origins
    · obtain rfl := (if_pos origin).symm.trans found
      exact ⟨(moves w holds origin).1, (if_pos origin).symm ▸ (moves w holds origin).2⟩
    · obtain rfl := (if_neg origin).symm.trans found
      exact ⟨i.allowedIdle _, (if_neg origin).symm ▸
        (i.oursIdle w).symm ▸ stays w holds origin⟩
  · split
    · exact .bind (Q := fun _ => Q) (announceMeets before after fun w => told w before) fun _ =>
        .done fun _ holds => holds
    · exact .done fun _ holds => holds

theorem reclaimAllowed {H : Option (Core Unit) → Assertion i}
    (stays : ∀ w, P w → (i.state w).worker = none → R w)
    (joins : ∀ w core after, P w → Call.join (i.state w) = some (core, after) →
      i.allowed (i.state w) after ∧ H core (i.ours w after))
    (takes : ∀ w core, H (some core) w →
      i.allowed (i.state w) { i.state w with core := some core } ∧
        R (i.ours w { i.state w with core := some core }))
    (quiet : Quiet (H none))
    (fails : i.Meets (H none) (Call.enter .error) fun _ => R) :
    i.Meets P Call.reclaim fun _ => R := by
  refine .bind (Q := fun worker => if worker.isNone then R else P) (.look fun w holds => ?_)
    fun worker => ?_
  · cases mine : (i.state w).worker with
    | none => exact stays w holds mine
    | some worker => exact holds
  split
  case isTrue => exact .done fun _ holds => holds
  case isFalse =>
    refine .bind (.await joins) fun core => ?_
    cases core with
    | some core => exact .alter fun w holds => takes w core holds
    | none =>
      refine .bind (Q := fun _ => H none) (.look fun _ holds => holds) fun words => ?_
      exact .bind (reportMeets quiet _) fun _ => fails

end Placid

section Tolerant
variable [Tolerant i]

theorem controlMeets (f : Control → Control)
    (keeps : ∀ w, P w → P (i.ours w { i.state w with control := f (i.state w).control })) :
    i.Meets P (Call.control f) fun _ => P :=
  controlAllowed f (fun w holds => ⟨Tolerant.tolerates _ _ rfl rfl rfl rfl, keeps w holds⟩)
    fun _ holds _ => holds

end Tolerant

section Lenient
variable [Lenient i]

theorem enterMeets (after : Lifecycle)
    (moves : ∀ w, P w → Q (i.ours w { i.state w with state := after }))
    (told : ∀ w before, Q w → Q (i.ours w ((i.state w).tell before after))) :
    i.Meets P (Call.enter after) fun _ => Q :=
  enterAllowed after (fun w holds => ⟨Lenient.allows _ _ rfl, moves w holds⟩) told

theorem moveMeets (origins : List Lifecycle) (after : Lifecycle)
    (moves : ∀ w, P w → (i.state w).state ∈ origins →
      Q (i.ours w { i.state w with state := after }))
    (stays : ∀ w, P w → (i.state w).state ∉ origins → R w)
    (told : ∀ w before, Q w → Q (i.ours w ((i.state w).tell before after))) :
    i.Meets P (Call.move origins after) fun moved => cond moved Q R :=
  moveAllowed origins after
    (fun w holds origin => ⟨Lenient.allows _ _ rfl, moves w holds origin⟩) stays told

end Lenient

end GameConsole.Console
