import GameConsole.Proofs.Console.Pausing
import GameConsole.Proofs.Headless.Counting
import GameConsole.Proofs.Solitude

/-! A console that is set up and given a program while nobody else is there. -/
namespace GameConsole.Console
open Graphics (RenderCommand)
open Procedure (alone)
open Syscall (Devices Hosted)

def Call.alone {α : Type} (call : Call α) (c : Console) : Option (α × Console) :=
  Procedure.alone (fun c => c.worker.isNone) call c

def installed (config : Configuration) : Hosted Devices :=
  ⟨(Devices.dispatcher config.neoMode).1, .initial config.decoder.maxIndirectDepth⟩

structure Unused (config : Configuration) (c : Console) : Prop where
  devices : c.devices = Console.installed config
  config : c.config = config
  state : c.state = .idle
  alone : c.worker = none
  frames : c.queue.frames = 0
  initialized : c.initialized = true

structure Primed (config : Configuration) (core : Core Unit) (c : Console) : Prop
    extends Unused config c where
  ready : c.programLoaded = true
  held : c.core = some core
  control : c.control = {}
  pending : c.queue.pending = #[.clearBlack]

section Opening
variable {config : Configuration} {host : Provision}

theorem buildInstalls {core : Core Unit} {devices : Hosted Devices}
    (built : (Call.build config host).1 = .ok (core, devices)) : devices = installed config := by
  unfold Call.build at built
  split at built
  · cases built
  · dsimp only at built
    split at built
    · cases built
    · cases built
      rfl

theorem setUpAlone (config : Configuration) (observer : Observer) (host : Provision) :
    ∃ done, (Call.setUp host).alone (.new config observer) = some done ∧
      (done.1 = .ok () → Unused config done.2 ∧ ∃ core, done.2.core = some core) := by
  cases outcome : Call.build config host with
  | mk built events =>
    cases built with
    | error e =>
      simp [Call.alone, Call.setUp, Call.enter, Call.announce, Call.report, new, tell, note,
        outcome]
    | ok parts =>
      obtain ⟨core, devices⟩ := parts
      simp [Call.alone, Call.setUp, Call.enter, Call.announce, Call.report, Call.publish, new, tell,
        note, outcome]
      exact ⟨buildInstalls (congrArg Prod.fst outcome), rfl, rfl, rfl, rfl, rfl⟩

theorem loadAlone (loader : Loader) {c : Console} {core : Core Unit} (unused : Unused config c)
    (held : c.core = some core) :
    ∃ done, (Call.load loader).alone c = some done ∧
      ∀ entry, done.1 = .ok entry → ∃ core, Primed config core done.2 := by
  obtain ⟨devices, rfl, state, alone, frames, up⟩ := unused
  by_cases beyond : AddressSpace.stackTop < c.config.stackReserve
  · simp [Call.alone, Call.load, Call.reclaim, Call.report, note, state, alone, held, beyond]
  · cases outcome : loader core.memory with
    | mk memory result =>
      cases result with
      | loaded image =>
        simp [Call.alone, Call.load, Call.reclaim, Call.place, Call.accept, Call.enter,
          Call.announce, Call.report, Call.publish, tell, note, state, alone, held, beyond, outcome]
        exact ⟨_, ⟨devices, rfl, rfl, rfl, frames, up⟩, rfl, rfl, rfl, rfl⟩
      | failed e | crashed words =>
        simp [Call.alone, Call.load, Call.reclaim, Call.place, Call.enter, Call.announce,
          Call.report, tell, note, state, alone, held, beyond, outcome]

theorem Primed.accounted {core : Core Unit} {c : Console} (primed : Primed config core c) :
    Screening.Accounted ⟨c, [], 0⟩ := by
  obtain ⟨⟨devices, rfl, -, alone, frames, -⟩, -, -, -, pending⟩ := primed
  have waiting : c.waiting = [] := by rw [Console.waiting, alone]
  have commands : Screening.commands ⟨c, [], 0⟩ = [.clearBlack] :=
    congrArg Array.toList pending
  refine ⟨?_, ?_, ?_, ?_, ?_⟩ <;> dsimp only
  · rw [devices]
    exact ⟨Devices.dispatcherDeaf _, rfl⟩
  · rw [devices]
    exact ⟨rfl, rfl⟩
  · rw [commands, waiting, devices]
    exact ⟨rfl, rfl, rfl, Array.not_mem_empty _⟩
  · rw [waiting]
    exact List.not_mem_nil
  · rw [commands]
    exact frames

end Opening

end GameConsole.Console
