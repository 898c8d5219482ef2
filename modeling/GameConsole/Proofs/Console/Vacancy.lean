import GameConsole.Proofs.Console.Steps

/-! A console with nobody but its controller, and the steps that the controller takes alone. -/
namespace GameConsole.Console
open Procedure (alter)

variable {ν τ : Type} {i : Interplay Console ν τ} {config : Configuration} {f g : Console → Prop}

/- Those who act beside the controller leave a console without a thread alone, but for its queue. -/
class Solitary (i : Interplay Console ν τ) : Prop extends Lenient i where
  puts : ∀ w c, i.state (i.ours w c) = c
  sound : ∀ w, i.always w
  others : ∀ t w, (i.state w).worker = none →
    ∃ queue, i.state (i.other t w) = { i.state w with queue }

class Enduring (i : Interplay Console ν τ) (f : Console → Prop) : Prop where
  reported : ∀ c journal observer, f c → f { c with journal, observer }
  others : ∀ t w, (i.state w).worker = none → f (i.state w) → f (i.state (i.other t w))

structure Vacant (config : Configuration) (f : Console → Prop) (c : Console) : Prop where
  config : c.config = config
  alone : c.worker = none
  fact : f c

def vacant (config : Configuration) (f : Console → Prop) [Solitary i] [Enduring i f] :
    Assertion i where
  holds w := Vacant config f (i.state w)
  stable t w h := by
    obtain ⟨queue, same⟩ := Solitary.others t w h.alone
    refine ⟨?_, ?_, Enduring.others t w h.alone h.fact⟩ <;> rw [same]
    · exact h.config
    · exact h.alone
  safe w _ := Solitary.sound w

section Steps
variable [Solitary i] [Enduring i f] [Enduring i g]

theorem vacantAlter {change : Console → Console} (facts : ∀ c, f c → g (change c))
    (same : ∀ c, (change c).config = c.config ∧ (change c).worker = c.worker :=
      by exact fun _ => ⟨rfl, rfl⟩) :
    i.Meets (vacant config f) (alter change) fun _ => vacant config g :=
  .alter fun w h => by
    obtain ⟨kept, alone⟩ := same (i.state w)
    refine ⟨Lenient.allows _ _ alone, ?_⟩
    change Vacant config g _
    rw [Solitary.puts]
    exact ⟨kept.trans h.config, alone.trans h.alone, facts _ h.fact⟩

theorem vacantQuiet : Quiet (vacant config f : Assertion i) := fun w journal h => by
  change Vacant config f _
  rw [Solitary.puts]
  exact ⟨h.config, h.alone, Enduring.reported i (i.state w) _ _ h.fact⟩

theorem vacantPublish {core : Core Unit}
    (shown : ∀ c snapshot instructions, f c → f { c with snapshot, instructions }) :
    i.Meets (vacant config f) (Call.publish core) fun _ => vacant config f :=
  .bind (vacantAlter fun c h => shown c core.registers c.instructions h) fun _ =>
    vacantAlter fun c h => shown c c.snapshot core.retired h

theorem vacantEnter (after : Lifecycle) (moves : ∀ c, f c → g { c with state := after }) :
    i.Meets (vacant config f) (Call.enter after) fun _ => vacant config g := by
  refine enterMeets after (fun w h => ?_) fun w before h => ?_ <;> change Vacant config g _ <;>
    rw [Solitary.puts]
  · exact ⟨h.config, h.alone, moves _ h.fact⟩
  · exact ⟨h.config, h.alone, Enduring.reported i (i.state w) _ _ h.fact⟩

end Steps

end GameConsole.Console
