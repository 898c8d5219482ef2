import GameConsole.Proofs.Console.Session
import GameConsole.Proofs.Console.Vacancy

/-! Loading a program into an idle console. Of what has been executed before, only memory and the
devices are left. -/
namespace GameConsole
open Procedure (look alter)
open Syscall (Devices Hosted)

def plain : Interplay Console Console Unit where
  state c := c
  other _ c := c.advance.getD c
  ours _ after := after
  allowed _ _ := True
  oursIdle _ := rfl
  allowedIdle _ := trivial

namespace Console

instance : Solitary plain where
  allows _ _ _ := trivial
  puts _ _ := rfl
  sound _ := trivial
  others _ c alone := ⟨c.queue, advanceAlone alone⟩

class Unreported (f : Console → Prop) : Prop where
  reported : ∀ c journal observer, f c → f { c with journal, observer }

instance {f : Console → Prop} [Unreported f] : Enduring plain f where
  reported := Unreported.reported
  others _ c alone h := by
    have same : c.advance.getD c = c := advanceAlone alone
    change f (c.advance.getD c)
    rw [same]
    exact h

namespace Loading

inductive Keeps (c : Console) (core : Core Unit) : Prop where
  | controller (mine : c.core = some core)
  | finished (mine : c.worker = some (.finished core))
  | busy (left : Nat) (phase : Phase) (mine : c.worker = some (.busy ⟨core, left, phase⟩))

structure Resting (config : Configuration) (memory : Memory) (devices : Hosted Devices)
    (c : Console) : Prop where
  config : c.config = config
  state : c.state = .idle
  devices : c.devices = devices
  memory : ∀ core, Keeps c core → core.memory = memory
  announces : ∀ job, c.worker = some (.busy job) → announces job.phase = true

structure Remains (memory : Memory) (devices : Hosted Devices) (c : Console) : Prop where
  devices : c.devices = devices
  memory : ∀ core, c.core = some core → core.memory = memory

structure Aimed (core : Core Unit) (devices : Hosted Devices) (c : Console) : Prop where
  devices : c.devices = devices
  core : c.core = some core
  control : c.control = {}

def Shown (pending : Array Graphics.RenderCommand) (c : Console) : Prop :=
  c.queue.pending = pending

def Ready (c : Console) : Prop := c.programLoaded = true

/- A console with a program that has just been loaded: there is nothing to be shown but a blank
screen. -/
structure Laden (core : Core Unit) (devices : Hosted Devices) (c : Console) : Prop
    extends Aimed core devices c where
  shown : Shown #[.clearBlack] c
  ready : Ready c
  state : c.state = .idle

section Loading
variable {config : Configuration} {memory : Memory} {devices : Hosted Devices} {core : Core Unit}
  {f g : Console → Prop}

instance : Unreported (Remains memory devices) := ⟨fun _ _ _ h => ⟨h.devices, h.memory⟩⟩

instance : Unreported (Aimed core devices) := ⟨fun _ _ _ h => ⟨h.devices, h.core, h.control⟩⟩

instance {pending : Array Graphics.RenderCommand} : Unreported (Shown pending) :=
  ⟨fun _ _ _ h => h⟩

instance : Unreported Ready := ⟨fun _ _ _ h => h⟩

instance [Unreported f] [Unreported g] : Unreported fun c => f c ∧ g c :=
  ⟨fun c _ _ h => ⟨Unreported.reported c _ _ h.1, Unreported.reported c _ _ h.2⟩⟩

instance : Unreported (Laden core devices) :=
  ⟨fun _ _ _ h => ⟨⟨h.devices, h.core, h.control⟩, h.shown, h.ready, h.state⟩⟩

theorem tellStays {c d : Console} (stays : Resting config memory devices c)
    (same : d.config = c.config ∧ d.state = c.state ∧ d.devices = c.devices ∧ d.core = c.core)
    (gone : d.worker = some .died ∨
      ∃ core, d.worker = some (.finished core) ∧ core.memory = memory) :
    Resting config memory devices d := by
  obtain ⟨config, state, devices, core⟩ := same
  refine ⟨config.trans stays.config, state.trans stays.state, devices.trans stays.devices,
    fun other keeps => ?_, fun job mine => ?_⟩
  · cases keeps with
    | controller mine => exact stays.memory other (.controller (core.symm.trans mine))
    | finished mine =>
      obtain died | ⟨core, finished, here⟩ := gone
      · cases died.symm.trans mine
      · cases finished.symm.trans mine
        exact here
    | busy left phase mine =>
      obtain died | ⟨core, finished, -⟩ := gone
      · cases died.symm.trans mine
      · cases finished.symm.trans mine
  · obtain died | ⟨core, finished, -⟩ := gone
    · cases died.symm.trans mine
    · cases finished.symm.trans mine

def resting (config : Configuration) (memory : Memory) (devices : Hosted Devices) :
    Assertion plain where
  holds := Resting config memory devices
  stable _ c h := by
    change Resting config memory devices (c.advance.getD c)
    cases goes : c.advance with
    | none => exact h
    | some after =>
      obtain ⟨⟨core, left, phase⟩, mine, rfl⟩ := advanceBusy goes
      obtain ⟨before, after, rfl⟩ := announcesAnnounce (h.announces _ mine)
      change Resting config memory devices (c.advanceJob ⟨core, left, .announce before after⟩)
      rw [announceEnds]
      split
      · exact tellStays h ⟨rfl, rfl, rfl, rfl⟩ (.inl rfl)
      · exact tellStays h ⟨rfl, rfl, rfl, rfl⟩
          (.inr ⟨core, rfl, h.memory core (.busy _ _ mine)⟩)

theorem reclaimRemains :
    plain.Meets (resting config memory devices) Call.reclaim fun _ =>
      vacant config (Remains memory devices) := by
  refine reclaimAllowed (H := fun core => (vacant config (Remains memory devices)).given
      (∀ mine, core = some mine → mine.memory = memory))
    (fun c h none => ⟨h.config, none, h.devices, fun core mine => h.memory core (.controller mine)⟩)
    (fun c core after h joined => ⟨trivial, ?_⟩)
    (fun c core h => ⟨trivial, h.2.config, h.2.alone, h.2.fact.devices, fun other mine => ?_⟩)
    (fun c journal h => ⟨h.1, h.2.config, h.2.alone, h.2.fact.devices, h.2.fact.memory⟩)
    (.given fun _ => vacantEnter .error fun _ h => ⟨h.devices, h.memory⟩)
  · obtain ⟨rfl, found⟩ := joinTakes joined
    refine ⟨fun mine same => ?_, h.config, rfl, h.devices, fun core mine =>
      h.memory core (.controller mine)⟩
    obtain ⟨none, -⟩ | ⟨other, other', finished⟩ := found
    · cases none.symm.trans same
    · cases other'.symm.trans same
      exact h.memory mine (.finished finished)
  · change some core = some other at mine
    cases mine
    exact h.1 core rfl

theorem acceptLaden (core : Core Unit) (image : LoadedImage) (stack : UInt64) :
    plain.Meets (vacant config (Remains memory devices)) (Call.accept core image stack) fun _ =>
      vacant config (Laden (startCore core image stack) devices) := by
  let next := startCore core image stack
  refine acceptAllowed (A := vacant config (Aimed next devices))
    (B := vacant config (Aimed next devices))
    (C := vacant config fun c => Aimed next devices c ∧ Shown #[] c)
    (D := vacant config fun c => Aimed next devices c ∧ Shown #[.clearBlack] c)
    (E := vacant config fun c => Aimed next devices c ∧ Shown #[.clearBlack] c)
    (F := vacant config fun c => (Aimed next devices c ∧ Shown #[.clearBlack] c) ∧ Ready c)
    (vacantAlter fun _ h => ⟨h.devices, rfl, rfl⟩)
    (vacantPublish fun _ _ _ h => ⟨h.devices, h.core, h.control⟩)
    (vacantAlter fun _ h => ⟨⟨h.devices, h.core, h.control⟩, rfl⟩)
    (vacantAlter fun c ⟨h, shown⟩ => ⟨⟨h.devices, h.core, h.control⟩,
      congrArg (Array.push · Graphics.RenderCommand.clearBlack) shown⟩)
    (vacantAlter fun c ⟨h, shown⟩ => ⟨⟨h.devices, h.core, h.control⟩, shown⟩)
    (vacantAlter fun c ⟨h, shown⟩ => ⟨⟨⟨h.devices, h.core, h.control⟩, shown⟩, rfl⟩) vacantQuiet
    (vacantEnter _ fun c ⟨⟨h, shown⟩, ready⟩ => ⟨⟨h.devices, h.core, h.control⟩, shown, ready, rfl⟩)

def Loads (config : Configuration) (loader : Loader) (memory : Memory) (devices : Hosted Devices)
    (entry : UInt64) (c : Console) : Prop :=
  ∃ (core : Core Unit) (image : LoadedImage), (loader memory).2 = .loaded image ∧
    image.entry = entry ∧ Laden (startCore { core with memory := (loader memory).1 } image
      (AddressSpace.stackTop - config.stackReserve)) devices c

instance {loader : Loader} {entry : UInt64} :
    Unreported (Loads config loader memory devices entry) :=
  ⟨fun _ _ _ ⟨core, image, found, same, laden⟩ =>
    ⟨core, image, found, same, Unreported.reported _ _ _ laden⟩⟩

def loadLeaves (config : Configuration) (loader : Loader) (memory : Memory)
    (devices : Hosted Devices) : Except ConsoleError UInt64 → Assertion plain
  | .ok entry => vacant config (Loads config loader memory devices entry)
  | .error _ => ⟨fun _ => True, fun _ _ _ => trivial, fun _ _ => trivial⟩

theorem placeLoads (loader : Loader) (core : Core Unit) (here : core.memory = memory) :
    plain.Meets (vacant config (Remains memory devices))
      (Call.place core loader (AddressSpace.stackTop - config.stackReserve))
      (loadLeaves config loader memory devices) := by
  subst here
  let before : Assertion plain := vacant config (Remains core.memory devices)
  let after : Assertion plain := vacant config (Remains (loader core.memory).1 devices)
  have fails (state : Lifecycle) (error : ConsoleError) :
      plain.Meets after (Call.enter state) fun _ =>
        loadLeaves config loader core.memory devices (.error error) :=
    (vacantEnter (g := Remains (loader core.memory).1 devices) state fun _ h =>
      ⟨h.devices, h.memory⟩).post fun _ _ _ => trivial
  exact placeAllowed (A := before) (B := before) (C := before) (D := after)
    (vacantEnter _ fun _ h => ⟨h.devices, h.memory⟩)
    (vacantAlter fun _ h => ⟨h.devices, h.memory⟩) (vacantAlter fun _ h => ⟨h.devices, h.memory⟩)
    (vacantAlter fun _ h => ⟨h.devices, fun _ mine => by cases mine; rfl⟩)
    (fun image found => (acceptLaden _ image _).post fun _ c h =>
      ⟨h.config, h.alone, core, image, found, rfl, h.fact⟩)
    vacantQuiet (fun _ _ => fails .idle _) fun _ _ => fails .error _

theorem loadLoads (loader : Loader) :
    plain.Meets (resting config memory devices) (Call.load loader)
      (loadLeaves config loader memory devices) := by
  let left : Assertion plain := vacant config (Remains memory devices)
  refine loadAllowed (A := left)
    (S := fun state => (resting config memory devices).given (state = .idle))
    (F := fun found => left.given (∀ mine, found = some mine → mine.memory = memory))
    (K := fun core found => left.given (core.memory = memory ∧ found = config))
    (.look fun _ h => ⟨h.state, h⟩)
    (fun _ busy => ⟨fun _ _ h => absurd h.1 busy, fun _ h => absurd h.1 busy⟩)
    (.given fun _ => reclaimRemains) (.look fun _ h => ⟨h.fact.memory, h⟩) (fun _ _ => trivial)
    (fun core => .given fun here => .look fun _ h => ⟨⟨here core rfl, h.config⟩, h⟩)
    (fun _ _ c journal h => ⟨h.1, vacantQuiet c journal h.2⟩) (fun _ _ _ _ _ => trivial)
    fun core found _ => .given fun ⟨here, same⟩ => ?_
  subst same
  exact placeLoads loader core here

end Loading

end Loading

end Console

end GameConsole
