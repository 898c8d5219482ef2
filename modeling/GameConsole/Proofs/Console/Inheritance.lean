import GameConsole.Proofs.Console.Failure
import GameConsole.Proofs.Console.Loading
import GameConsole.Proofs.Console.Pausing
import GameConsole.Proofs.Console.Twins
import GameConsole.Proofs.Syscall.Disclosure

/-! What a program inherits from the programs that were executed before it: memory, as its image
leaves it, and the state of the devices. Nothing else makes a difference to it. -/
namespace GameConsole
open Procedure (InStep)
open Syscall (Devices Hosted)

namespace Solo

structure Alike (s t : Solo) : Prop where
  core : s.machine.core.Related (Hosted.Related Devices.Resembles) t.machine.core
  control : s.machine.control = t.machine.control
  pending : s.queue.pending.toList = t.queue.pending.toList

def after (s : Solo) : Nat → Solo
  | 0 => s
  | steps + 1 => (s.after steps).step.1

section Alike
variable {s t u v : Solo}

theorem emptiedRelated {d e : Hosted Devices} (related : d.Related Devices.Resembles e) :
    (emptied d).Related Devices.Resembles (emptied e) :=
  have ⟨kernel, audio, pad, graphics⟩ := related.devices
  ⟨related.handlers, related.respects, kernel, audio, pad, graphics.limit, graphics.state, rfl⟩

theorem Alike.step (alike : s.Alike t) : s.step.2 = t.step.2 ∧ s.step.1.Alike t.step.1 := by
  obtain ⟨cycles, control, core⟩ :=
    Machine.stepRelated (fun c => Hosted.trapsRelated c c) alike.core alike.control
  have devices := core.guest.devices
  refine ⟨cycles, ⟨⟨core.guest.registers, core.guest.memory, emptiedRelated devices⟩,
    core.retired, core.lastOpcode, core.lastFault⟩, control, ?_⟩
  unfold Solo.step
  dsimp only
  rw [Graphics.RenderQueue.deliverAllPending, Graphics.RenderQueue.deliverAllPending,
    alike.pending, devices.devices.graphics.outbox]

theorem Alike.after (alike : s.Alike t) (steps : Nat) : (s.after steps).Alike (t.after steps) := by
  induction steps with
  | zero => exact alike
  | succ steps ih => exact ih.step.2

theorem Alike.ends (alike : s.Alike t) (first : s.Ends u) (second : t.Ends v) : u.Alike v := by
  induction first generalizing t with
  | last stops =>
    obtain ⟨cycles, later⟩ := alike.step
    cases second with
    | last => exact later
    | more goes => exact absurd (cycles.symm.trans stops) goes
  | more goes _ ih =>
    obtain ⟨cycles, later⟩ := alike.step
    cases second with
    | last stops => exact absurd (cycles.trans stops) goes
    | more _ rest => exact ih later rest

end Alike

end Solo

namespace Console
open Loading (Keeps Resting Loads)

def Remembers (c : Console) (memory : Memory) : Prop := ∀ core, Keeps c core → core.memory = memory

def attended (pad : Syscall.NullPad) (c : Console) : Console :=
  { c with devices := { c.devices with devices := Devices.padPart.put pad c.devices.devices } }

section Session
variable {config : Configuration} {observer : Observer}

theorem plainCouples : plain.Couples (Twins config observer) (Twins config observer) where
  state _ _ h := h
  ours _ _ _ _ _ twins := twins
  other _ c d h := by
    have steps := advanceTwins h
    change Twins config observer (c.advance.getD c) (d.advance.getD d)
    generalize c.advance = x, d.advance = y at steps
    cases steps with
    | none => exact h
    | some later => exact later

theorem sessionFixed (turns : List (Interplay.Turn Operation Unit)) :
    let c := ((Failure.Session.start config observer).play turns).world
    Constant config observer c.config c.observer c.devices c.initialized := by
  have begins : Interplay.Session.InStep (Twins config observer) Eq (Twins config observer)
      (Failure.Session.start config observer) (Failure.Session.start config observer) :=
    ⟨rfl, .refl ⟨rfl, ⟨observer.heard, rfl⟩, ⟨Syscall.Dispatcher.emptyDeaf, rfl⟩, nofun⟩⟩
  exact (begins.play plainCouples operationImpartial (fun _ _ h => h) turns).world.constant

def answerLeaves (config : Configuration) (loader : Loader) (memory : Memory)
    (devices : Hosted Devices) : Answer → Assertion plain
  | .loaded result => Loading.loadLeaves config loader memory devices result
  | _ => ⟨fun _ => True, fun _ _ _ => trivial, fun _ _ => trivial⟩

theorem loadedProgram {before loading : List (Interplay.Turn Operation Unit)} {loader : Loader}
    {memory : Memory} {entry : UInt64} (alone : ∀ r, .begin r ∉ loading) :
    let used := (Failure.Session.start config observer).play before
    let loaded := used.play (.begin (.load loader) :: loading)
    used.rest.result?.isSome → used.world.state = .idle → used.world.Remembers memory →
    loaded.rest = .done (.loaded (.ok entry)) →
    Vacant config (Loads config loader memory used.world.devices entry) loaded.world ∧
      Constant config observer loaded.world.config loaded.world.observer loaded.world.devices
        true := by
  intro used loaded idle resting remembers done
  have constant : Constant config observer used.world.config used.world.observer
    used.world.devices used.world.initialized := sessionFixed before
  have steady : used.world.posture.Steady := (Failure.sessionStanding config observer before).always
  have rests : Resting config memory used.world.devices used.world :=
    ⟨constant.config, resting, rfl, remembers, fun job mine =>
      steady.resting job mine (by rw [posture, resting]; trivial)⟩
  have meets : plain.Meets (Loading.resting config memory used.world.devices)
      (Operation.call (.load loader)) (answerLeaves config loader memory used.world.devices) :=
    .bind (Loading.loadLoads loader) fun _ => .done fun _ h => h
  have secured : plain.Secures (fun answer => answerLeaves config loader memory used.world.devices
      answer) loaded.rest loaded.world :=
    Interplay.Session.callSecures idle (meets used.world rests) alone
  rw [done] at secured
  have loads : Vacant config (Loads config loader memory used.world.devices entry) loaded.world :=
    secured.result
  refine ⟨loads, ?_⟩
  obtain ⟨_, _, -, -, laden⟩ := loads.fact
  have joined : loaded = (Failure.Session.start config observer).play
      (before ++ .begin (.load loader) :: loading) := List.foldl_append.symm
  have fixed : Constant config observer loaded.world.config loaded.world.observer
      loaded.world.devices loaded.world.initialized := by
    rw [joined]
    exact sessionFixed _
  have stands : loaded.world.posture.Steady := by
    rw [joined]
    exact (Failure.sessionStanding config observer _).always
  have up : loaded.world.initialized = true :=
    stands.owned (.inl (congrArg Option.isSome laden.core))
  exact up ▸ fixed

end Session

structure Concur (v w : Screening) : Prop where
  registers : v.console.snapshot = w.console.snapshot
  instructions : v.console.instructions = w.console.instructions
  commands : v.commands = w.commands
  state : v.console.state = w.console.state
  memory : ∀ core other, v.console.worker = some (.finished core) →
    w.console.worker = some (.finished other) → core.memory = other.memory
  legacy : v.console.devices.devices.Legacy w.console.devices.devices

section Runs
variable {config : Configuration} {observer other : Observer} {loader : Loader} {memory : Memory}
  {devices devices' : Hosted Devices} {entry entry' : UInt64} {c d : Console}

theorem loadsLoaded (loads : Vacant config (Loads config loader memory devices entry) c)
    (fit : Fit c.devices) (pad : Syscall.NullPad) :
    ∃ (core : Core Unit) (image : LoadedImage), (loader memory).2 = .loaded image ∧
      image.entry = entry ∧
      Loaded (c.attended pad) (startCore { core with memory := (loader memory).1 } image
        (AddressSpace.stackTop - config.stackReserve)) ∧
      c.queue.pending = #[.clearBlack] := by
  obtain ⟨core, image, found, same, laden⟩ := loads.fact
  exact ⟨core, image, found, same, ⟨⟨fit.deaf, fit.clear⟩, laden.state, laden.ready, loads.alone,
    laden.core, laden.control⟩, laden.shown⟩

theorem alikeConcur {v w : Screening} {s t : Solo} (alike : s.Alike t) (first : v.Outcome s)
    (second : w.Outcome t) : Concur v w where
  registers := by rw [first.registers, second.registers, alike.core.guest.registers]
  instructions := by rw [first.instructions, second.instructions, alike.core.retired]
  commands := by rw [first.commands, second.commands, alike.pending]
  state := by
    have mode : s.machine.mode = t.machine.mode := congrArg Control.mode alike.control
    obtain ⟨halted, idle, -⟩ | ⟨faulted, error⟩ := first.state <;>
      obtain ⟨halted', idle', -⟩ | ⟨faulted', error'⟩ := second.state
    · rw [idle, idle']
    · cases halted.symm.trans (mode.trans faulted')
    · cases faulted.symm.trans (mode.trans halted')
    · rw [error, error']
  memory core other mine mine' := by
    rw [first.memory core mine, second.memory other mine', alike.core.guest.memory]
  legacy := by
    obtain ⟨kernel, audio, pad, graphics⟩ := alike.core.guest.devices.devices
    rw [first.devices, second.devices]
    exact ⟨kernel, audio, graphics.state⟩

theorem loadsAlike (first : Vacant config (Loads config loader memory devices entry) c)
    (second : Vacant config (Loads config loader memory devices' entry') d)
    (constant : Constant config observer c.config c.observer c.devices true)
    (constant' : Constant config other d.config d.observer d.devices true)
    (legacy : devices.devices.Legacy devices'.devices) (pad : Syscall.NullPad) :
    entry = entry' ∧ ∃ core core', Loaded (c.attended pad) core ∧ Loaded (d.attended pad) core' ∧
      ((c.attended pad).solo core).Alike ((d.attended pad).solo core') := by
  obtain ⟨core, image, found, same, loaded, pending⟩ := loadsLoaded first constant.fit pad
  obtain ⟨core', image', found', same', loaded', pending'⟩ :=
    loadsLoaded second constant'.fit pad
  cases found.symm.trans found'
  refine ⟨same.symm.trans same', _, _, loaded, loaded', ?_⟩
  have installed : Installed config c.devices := constant.config ▸ constant.installed rfl
  have installed' : Installed config d.devices := constant'.config ▸ constant'.installed rfl
  have left : c.devices.devices.Legacy d.devices.devices := by
    obtain ⟨_, _, -, -, laden⟩ := first.fact
    obtain ⟨_, _, -, -, laden'⟩ := second.fact
    rw [laden.devices, laden'.devices]
    exact legacy
  have devices : (c.attended pad).devices.Related Devices.Resembles (d.attended pad).devices :=
    ⟨installed.handlers.trans installed'.handlers.symm,
      installed.respects (Devices.dispatcherRespects _),
      left.kernel, left.audio, ⟨rfl, rfl⟩, installed.limit.trans installed'.limit.symm,
      left.registers, constant.fit.clear.trans constant'.fit.clear.symm⟩
  refine ⟨⟨⟨rfl, rfl, devices⟩, rfl, rfl, rfl⟩, loaded.control.trans loaded'.control.symm, ?_⟩
  exact congrArg Array.toList (pending.trans pending'.symm)

end Runs

/- Two programs that are the same image in the same memory, loaded into two consoles of one kind:
whatever was executed before, and however they are paused while they run, they take the same steps,
get the same replies to their calls and leave the same registers, memory and commands, unless the
devices have kept something of their predecessors. -/
theorem legacyDecides (config : Configuration) (observer observer' : Observer)
    (before before' loading loading' : List (Interplay.Turn Operation Unit)) (loader : Loader)
    (memory : Memory) (entry entry' : UInt64) (pad : Syscall.NullPad)
    (alone : ∀ r, .begin r ∉ loading) (alone' : ∀ r, .begin r ∉ loading') :
    let used := (Failure.Session.start config observer).play before
    let used' := (Failure.Session.start config observer').play before'
    let first := used.play (.begin (.load loader) :: loading)
    let second := used'.play (.begin (.load loader) :: loading')
    used.rest.result?.isSome → used'.rest.result?.isSome →
    used.world.state = .idle → used'.world.state = .idle →
    used.world.Remembers memory → used'.world.Remembers memory →
    used.world.devices.devices.Legacy used'.world.devices.devices →
    first.rest = .done (.loaded (.ok entry)) → second.rest = .done (.loaded (.ok entry')) →
    let c := first.world.attended pad
    let d := second.world.attended pad
    entry = entry' ∧ ∃ core core', Loaded c core ∧ Loaded d core' ∧
      (∀ steps, ((c.solo core).after steps).Alike ((d.solo core').after steps)) ∧
      ∀ turns turns', (c.pausing turns).ended → (d.pausing turns').ended →
        Concur (c.pausing turns) (d.pausing turns') := by
  intro used used' first second idle idle' rests rests' remembers remembers' legacy done done' c d
  obtain ⟨loads, constant⟩ := loadedProgram alone idle rests remembers done
  obtain ⟨loads', constant'⟩ := loadedProgram alone' idle' rests' remembers' done'
  obtain ⟨same, core, core', loaded, loaded', alike⟩ :=
    loadsAlike loads loads' constant constant' legacy pad
  refine ⟨same, core, core', loaded, loaded', alike.after, fun turns turns' ended ended' => ?_⟩
  obtain ⟨s, ends, outcome⟩ := pausingChangesNothing loaded turns ended
  obtain ⟨t, ends', outcome'⟩ := pausingChangesNothing loaded' turns' ended'
  exact alikeConcur (alike.ends ends ends') outcome outcome'

def memory? (c : Console) : Option Memory :=
  if c.worker.isNone then c.core.map fun core => core.memory else none

theorem memoryRemembered {c : Console} {memory : Memory} (found : c.memory? = some memory) :
    c.Remembers memory := by
  unfold memory? at found
  split at found
  case isTrue alone =>
    obtain ⟨core, mine, rfl⟩ := Option.map_eq_some_iff.mp found
    intro other keeps
    cases keeps with
    | controller same => rw [Option.some.inj (mine.symm.trans same)]
    | finished same => rw [same] at alone; cases alone
    | busy left phase same => rw [same] at alone; cases alone
  case isFalse => cases found

theorem bothRemember {c d : Console} (held : c.memory?.isSome) (same : c.memory? = d.memory?) :
    ∃ memory, c.Remembers memory ∧ d.Remembers memory := by
  obtain ⟨memory, found⟩ := Option.isSome_iff_exists.mp held
  exact ⟨memory, memoryRemembered found, memoryRemembered (same ▸ found)⟩

def loadOf (image : List UInt8) : List (Interplay.Turn Operation Unit) :=
  .begin (.load (.rawImage image 0)) :: .replicate 19 .proceed

def executing (steps : Nat) : List (Interplay.Turn Operation Unit) :=
  .begin .run :: .replicate 7 .proceed ++ .replicate steps (.other ()) ++
    .begin (.readMemory 0 1) :: .replicate 5 .proceed

def running (steps : Nat) : List (Interplay.Turn Pausing Bystander) :=
  .replicate 7 .proceed ++ .replicate steps (.other .thread)

theorem legacyDecidesHalted :
    let start := Failure.Session.start brief {}
    let used := start.play loadBrief
    let used' := start.play (loadBrief ++ executing 18)
    let c := (used.play (loadOf [0x90, 0xF4])).world.attended {}
    let d := (used'.play (loadOf [0x90, 0xF4])).world.attended {}
    used.world.instructions = 0 ∧ used'.world.instructions = 1 ∧
      Concur (c.pausing (running 32)) (d.pausing (running 32)) := by
  obtain ⟨memory, remembers, remembers'⟩ := bothRemember
    (c := ((Failure.Session.start brief {}).play loadBrief).world)
    (d := ((Failure.Session.start brief {}).play (loadBrief ++ executing 18)).world)
    (by decide +kernel) (by decide +kernel)
  have decides := legacyDecides brief {} {} loadBrief (loadBrief ++ executing 18)
    (.replicate 19 .proceed) (.replicate 19 .proceed) (.rawImage [0x90, 0xF4] 0) memory 0 0 {}
    (by simp) (by simp) (by decide +kernel) (by decide +kernel) (by decide +kernel)
    (by decide +kernel) remembers remembers' ⟨rfl, ⟨fun _ => rfl, fun _ => rfl, rfl⟩, rfl⟩
    rfl rfl
  obtain ⟨-, core, core', -, -, -, concur⟩ := decides
  refine ⟨by decide +kernel, by decide +kernel, ?_⟩
  exact concur (running 32) (running 32) (by decide +kernel) (by decide +kernel)

def mapping : List UInt8 := [0xB8, 0xDD, 0x01, 0, 0, 0xBE, 0, 0x40, 0, 0, 0x0F, 0x05, 0xF4]

theorem predecessorsShow :
    let start := Failure.Session.start brief {}
    let used := start.play
      (.begin (.setUp (.memory true)) :: .replicate 11 .proceed ++ loadOf mapping)
    let used' := used.play (executing 60)
    let c := (used.play (loadOf mapping)).world
    let d := (used'.play (loadOf mapping)).world
    (used.rest.result?.isSome ∧ used'.rest.result?.isSome) ∧
      (used.world.state = .idle ∧ used'.world.state = .idle) ∧
      (used.world.initialized ∧ used'.world.initialized) ∧
      (used.world.memory?.isSome ∧ used.world.memory? = used'.world.memory?) ∧
      (c.programLoaded ∧ d.programLoaded) ∧
      ((c.pausing (running 60)).console.state = .idle ∧
        (d.pausing (running 60)).console.state = .idle) ∧
      (c.pausing (running 60)).console.snapshot.get .rax = 0x200000000 ∧
      (d.pausing (running 60)).console.snapshot.get .rax = 0x200004000 := by
  decide +kernel

end Console

end GameConsole
