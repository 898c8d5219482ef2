import GameConsole.Proofs.Console.Pausing
import GameConsole.Proofs.Console.Twins
import GameConsole.Proofs.Console.Vacancy

/-! A reset that succeeds leaves a console that cannot be told from a new one that has been set up,
whatever has gone before. -/
namespace GameConsole
open Graphics (RenderCommand)
open Interplay (Meets)
open Procedure (look alter update await InStep)
open Syscall (Devices Hosted NullPad)

namespace Console

inductive Request where
  | operation (operation : Operation)
  | statistics
  | pad (pad : NullPad)

inductive Reply where
  | answer (answer : Answer)
  | statistics (statistics : Statistics)

def setPad (pad : NullPad) : Call Unit := do
  if ← look initialized then
    alter fun c => { c with devices :=
      { c.devices with devices := Devices.padPart.put pad c.devices.devices } }

def Request.call : Request → Call Reply
  | .operation asked => do return .answer (← asked.call)
  | .statistics => do return .statistics (← Call.statistics)
  | .pad now => do
    setPad now
    return .answer .nothing

/- A reply, but for the frames that have been delivered since the console was made. -/
def Reply.face : Reply → Reply
  | .statistics s => .statistics { s with frames := 0 }
  | .answer a => .answer a

def Reply.granted : Reply → Bool
  | .answer (.ready (.ok ())) => true
  | _ => false

theorem doneGranted {p : Procedure Console Reply} (granted : p.result?.any Reply.granted = true) :
    p = .done (.answer (.ready (.ok ()))) := by
  cases p with
  | act change next => cases granted
  | done reply =>
    cases reply with
    | statistics statistics => cases granted
    | answer answer =>
      cases answer with
      | ready result =>
        cases result with
        | ok value => rfl
        | error e => cases granted
      | _ => cases granted

abbrev Patronage := Interplay.Session Console Screening Reply

def Patronage.start (config : Configuration) (observer : Observer) : Patronage :=
  ⟨⟨.new config observer, [], 0⟩, .done (.answer .nothing)⟩

abbrev Patronage.play (s : Patronage) (turns : List (Interplay.Turn Request Bystander)) :
    Patronage :=
  Interplay.Session.play screening Request.call id s turns

section Company
variable {config : Configuration} {observer : Observer} {first second : List RenderCommand}

structure Company (config : Configuration) (observer : Observer)
    (first second : List RenderCommand) (v w : Screening) : Prop where
  twins : Twins config observer v.console w.console
  taken : ∃ since, v.taken = first ++ since ∧ w.taken = second ++ since

theorem companyCouples :
    screening.Couples (Twins config observer) (Company config observer first second) where
  state _ _ h := h.twins
  ours _ _ _ _ h twins := ⟨twins, h.taken⟩
  other b v w h := by
    obtain ⟨twins, since, before, after⟩ := h
    cases b with
    | thread =>
      refine ⟨?_, since, before, after⟩
      change Twins config observer (v.console.advance.getD v.console)
        (w.console.advance.getD w.console)
      have steps := advanceTwins twins
      generalize v.console.advance = x, w.console.advance = y at steps
      cases steps with
      | none => exact twins
      | some later => exact later
    | drain =>
      obtain ⟨constant, _, _, _, _, _, same⟩ := twins
      refine ⟨?_, since ++ v.console.queue.pending.toList, ?_, ?_⟩
      · change Twins config observer { v.console with queue := _ } { w.console with queue := _ }
        rw [same]
        exact ⟨constant, _, _, _, _, _, rfl⟩
      · change v.taken ++ v.console.queue.pending.toList = _
        rw [before, List.append_assoc]
      · change w.taken ++ w.console.queue.pending.toList = _
        rw [after, same, List.append_assoc]
    | count =>
      obtain ⟨constant, _, _, _, _, _, same⟩ := twins
      refine ⟨?_, since, before, after⟩
      change Twins config observer { v.console with queue := _ } { w.console with queue := _ }
      rw [same]
      exact ⟨constant, _, _, _, _, _, rfl⟩

theorem statisticsTwins :
    InStep (Twins config observer) (fun s t => { s with frames := 0 } = { t with frames := 0 })
      Call.statistics Call.statistics := by
  refine .thenBoth (lookImpartial rfl) fun instructions => ?_
  refine .bind (T := fun _ _ => True) (.look fun _ _ _ => trivial) fun frames others _ => ?_
  refine .thenBoth (lookImpartial rfl) fun initialized => ?_
  cases initialized with
  | false => exact rfl
  | true =>
    refine .thenBoth (lookImpartial rfl) fun dispatcher => ?_
    exact .thenBoth (lookImpartial rfl) fun decoded => rfl

theorem setPadImpartial (pad : NullPad) : Impartial config observer (setPad pad) := by
  refine .bind (lookImpartial rfl) fun initialized => ?_
  cases initialized with
  | false => exact .done
  | true =>
    exact alterImpartial fun constant =>
      ⟨constant.replaced ⟨constant.fit.deaf, constant.fit.clear⟩ fun h => ⟨h.handlers, h.limit⟩,
        _, _, _, _, _, rfl⟩

theorem requestTwins (request : Request) :
    InStep (Twins config observer) (fun r s => r.face = s.face) request.call request.call := by
  cases request with
  | operation operation => exact .thenBoth (operationImpartial operation) fun _ => rfl
  | statistics =>
    exact .bind statisticsTwins fun s t same => congrArg Reply.statistics same
  | pad pad => exact .thenBoth (setPadImpartial pad) fun _ => rfl

abbrev Patronage.Alike (config : Configuration) (observer : Observer)
    (first second : List RenderCommand) (s t : Patronage) : Prop :=
  Interplay.Session.InStep (Twins config observer) (fun r s => r.face = s.face)
    (Company config observer first second) s t

theorem Patronage.Alike.play {s t : Patronage} (alike : s.Alike config observer first second t)
    (turns : List (Interplay.Turn Request Bystander)) :
    (s.play turns).Alike config observer first second (t.play turns) :=
  Interplay.Session.InStep.play companyCouples requestTwins (fun _ _ h => h) alike turns

theorem Patronage.Alike.faces {s t : Patronage} (alike : s.Alike config observer first second t) :
    s.rest.result?.map Reply.face = t.rest.result?.map Reply.face := by
  have ends := alike.rest.ends
  generalize s.rest.result? = left, t.rest.result? = right at ends
  cases ends with
  | none => rfl
  | some same => exact congrArg some same

end Company

namespace Renewal

section Renewing
variable {config : Configuration} {host : Provision} {f g : Console → Prop}

instance : Lenient screening := ⟨fun _ _ _ => trivial⟩

instance : Solitary screening where
  puts _ _ := rfl
  sound _ := trivial
  others b _ alone :=
    have ⟨_, queue, same, _⟩ := Screening.actAlone b alone
    ⟨queue, same⟩

class Lasting (f : Console → Prop) : Prop where
  lasts : ∀ c journal observer queue, f c →
    queue.pending = #[] ∨ queue.pending = c.queue.pending → f { c with journal, observer, queue }

instance [Lasting f] : Enduring screening f where
  reported c _ _ h := Lasting.lasts c _ _ _ h (.inr rfl)
  others b w alone h := by
    obtain ⟨-, queue, same, pending⟩ := Screening.actAlone b alone
    change f (w.act b).console
    rw [same]
    exact Lasting.lasts _ _ _ _ h pending

def configured (config : Configuration) : Assertion screening where
  holds w := w.console.config = config
  stable b w h := by
    cases b with
    | thread =>
      change (w.console.advance.getD w.console).config = config
      cases goes : w.console.advance with
      | none => exact h
      | some after =>
        obtain ⟨job, -, rfl⟩ := advanceBusy goes
        exact (jobStays w.console job).1.config.trans h
    | drain => exact h
    | count => exact h

def whatever : Assertion screening := ⟨fun _ => True, fun _ _ _ => trivial, fun _ _ => trivial⟩

def Any (_ : Console) : Prop := True

def Unloaded (c : Console) : Prop := c.programLoaded = false

def Ejected (c : Console) : Prop := Unloaded c ∧ c.entry = none

def Blank (c : Console) : Prop := Ejected c ∧ c.queue.pending = #[]

def Dismantled (c : Console) : Prop := Blank c ∧ c.initialized = false

def Shows (core : Core Unit) (c : Console) : Prop :=
  c.snapshot = core.registers ∧ c.instructions = core.retired

structure Built (core : Core Unit) (devices : Hosted Devices) (c : Console) : Prop where
  blank : Blank c
  held : c.core = some core
  devices : c.devices = devices
  control : c.control = {}
  initialized : c.initialized = true
  shows : Shows core c

instance : Lasting Any := ⟨fun _ _ _ _ _ _ => trivial⟩

instance : Lasting Unloaded := ⟨fun _ _ _ _ h _ => h⟩

instance : Lasting Ejected := ⟨fun _ _ _ _ h _ => h⟩

instance : Lasting Blank :=
  ⟨fun _ _ _ _ h pending => ⟨h.1, pending.elim id fun same => same.trans h.2⟩⟩

instance : Lasting Dismantled :=
  ⟨fun c _ _ _ h pending => ⟨Lasting.lasts c _ _ _ h.1 pending, h.2⟩⟩

instance {registers : Registers} : Lasting fun c => c.snapshot = registers :=
  ⟨fun _ _ _ _ h _ => h⟩

instance {core : Core Unit} : Lasting (Shows core) := ⟨fun _ _ _ _ h _ => h⟩

instance {core : Core Unit} {devices : Hosted Devices} : Lasting (Built core devices) :=
  ⟨fun c _ _ _ h pending => ⟨Lasting.lasts c _ _ _ h.blank pending, h.held, h.devices, h.control,
    h.initialized, h.shows⟩⟩

instance [Lasting f] [Lasting g] : Lasting fun c => f c ∧ g c :=
  ⟨fun c _ _ _ h pending => ⟨Lasting.lasts c _ _ _ h.1 pending, Lasting.lasts c _ _ _ h.2 pending⟩⟩

theorem publishShows [Lasting f] (core : Core Unit)
    (keeps : ∀ c snapshot instructions, f c → f { c with snapshot, instructions }) :
    screening.Meets (vacant config f) (Call.publish core) fun _ =>
      vacant config fun c => f c ∧ Shows core c :=
  .bind (Q := fun _ => vacant config fun c => f c ∧ c.snapshot = core.registers)
    (vacantAlter fun c h => ⟨keeps c _ c.instructions h, rfl⟩) fun _ =>
    vacantAlter fun c h => ⟨keeps c c.snapshot _ h.1, h.2, rfl⟩

def Furnished (config : Configuration) (host : Provision) (c : Console) : Prop :=
  ∃ core devices, (Call.build config host).1 = .ok (core, devices) ∧ Built core devices c

def Renewed (config : Configuration) (host : Provision) (c : Console) : Prop :=
  c.state = .idle ∧ Furnished config host c

instance : Lasting (Furnished config host) :=
  ⟨fun c _ _ _ ⟨core, devices, found, built⟩ pending =>
    ⟨core, devices, found, Lasting.lasts c _ _ _ built pending⟩⟩

instance : Lasting (Renewed config host) :=
  ⟨fun c _ _ _ h pending => ⟨h.1, Lasting.lasts c _ _ _ h.2 pending⟩⟩

def setUpLeaves (config : Configuration) (host : Provision) :
    Except ConsoleError Unit → Assertion screening
  | .ok () => vacant config (Renewed config host)
  | .error _ => whatever.given (∀ parts, (Call.build config host).1 ≠ .ok parts)

theorem setUpRenews :
    screening.Meets (vacant config Dismantled) (Call.setUp host) (setUpLeaves config host) := by
  let dismantled : Assertion screening := vacant config Dismantled
  refine setUpAllowed (U := fun initialized => dismantled.given (initialized = false))
    (A := dismantled) (K := fun found => dismantled.given (found = config))
    (S := fun found core =>
      (vacant config fun c => Dismantled c ∧ Shows core c).given (found = config))
    (B := vacant config (Furnished config host)) (.look fun _ h => ⟨h.fact.2, h⟩)
    (fun _ h => by cases h.1) (.given fun _ => vacantEnter _ fun _ h => h)
    (.look fun _ h => ⟨h.config, h⟩) (fun found w journal h => ⟨h.1, vacantQuiet w journal h.2⟩)
    (fun _ core _ _ => .given fun same =>
      (publishShows core fun _ _ _ h => h).post fun _ _ h => ⟨same, h⟩)
    (fun found core devices built => ?_) (vacantEnter _ fun c h => ⟨rfl, ?_⟩)
    fun found error fails => .given fun same => ?_
  · refine .given fun same => ?_
    subst same
    exact vacantAlter fun _ h => ⟨core, devices, built, h.1.1, rfl, rfl, rfl, rfl, h.2⟩
  · obtain ⟨core, devices, built, h⟩ := h
    exact ⟨core, devices, built, h.blank, h.held, h.devices, h.control, h.initialized, h.shows⟩
  · subst same
    refine Meets.post (Q := fun _ => vacant found Dismantled) (vacantEnter _ fun _ h => h)
      fun _ _ _ => ⟨fun parts built => ?_, trivial⟩
    cases fails.symm.trans built

theorem haltWorkerVacates :
    screening.Meets (configured config) Call.haltWorker fun _ => vacant config Any := by
  have reclaims : screening.Meets (configured config) Call.reclaim fun _ => vacant config Any := by
    refine reclaimAllowed (H := fun _ => vacant config Any) (fun _ h none => ⟨h, none, trivial⟩)
      (fun w core after h joined => ?_) (fun _ _ h => ⟨trivial, h.config, h.alone, trivial⟩)
      vacantQuiet (vacantEnter _ fun _ h => h)
    obtain ⟨rfl, -⟩ := joinGone joined
    exact ⟨trivial, h, rfl, trivial⟩
  exact haltWorkerAllowed (M := fun _ => configured config) (.look fun _ h => h)
    (fun _ => enterMeets _ (fun _ h => h) fun _ _ h => h) (controlMeets _ fun _ h => h) reclaims
    reclaims

theorem unloadBlanks :
    screening.Meets (vacant config Any) Call.unload fun _ => vacant config Blank :=
  unloadAllowed (M := fun _ => vacant config Any) (N := fun _ => vacant config Any)
    (B := vacant config Unloaded) (C := vacant config Ejected) (.look fun _ h => h)
    (fun _ => vacantAlter fun _ _ => trivial) (fun _ => vacantPublish fun _ _ _ h => h)
    (fun _ h => h) (vacantAlter fun _ _ => rfl) (vacantAlter fun _ h => ⟨h, rfl⟩)
    (vacantAlter fun _ h => ⟨h, rfl⟩)

theorem resetRenews :
    screening.Meets (configured config) (Call.reset host) (setUpLeaves config host) :=
  resetAllowed (C := vacant config Dismantled) (D := vacant config Dismantled)
    (E := vacant config Dismantled) (fun _ _ h => h) haltWorkerVacates unloadBlanks
    (vacantAlter fun _ h => ⟨h, rfl⟩) (vacantAlter fun _ h => h) (vacantAlter fun _ h => h)
    setUpRenews

end Renewing

section Past
variable {config : Configuration} {host : Provision} {observer : Observer}

theorem sessionConstant (turns : List (Interplay.Turn Request Bystander)) :
    let c := ((Patronage.start config observer).play turns).world.console
    Constant config observer c.config c.observer c.devices c.initialized := by
  have begins : (Patronage.start config observer).Alike config observer [] []
      (Patronage.start config observer) :=
    ⟨rfl, .refl ⟨rfl, ⟨observer.heard, rfl⟩, ⟨Syscall.Dispatcher.emptyDeaf, rfl⟩, nofun⟩,
      [], rfl, rfl⟩
  exact (begins.play turns).world.twins.constant

theorem renewedTwins {c d : Console}
    (first : Constant config observer c.config c.observer c.devices c.initialized)
    (second : Constant config observer d.config d.observer d.devices d.initialized)
    (renewed : Vacant config (Renewed config host) c)
    (new : Vacant config (Renewed config host) d) :
    Twins config observer c d := by
  obtain ⟨config, vacant, state, core, devices, found, built⟩ := renewed
  obtain ⟨config', vacant', state', core', devices', found', built'⟩ := new
  obtain ⟨heard, watching⟩ := first.observer
  obtain ⟨heard', watching'⟩ := second.observer
  refine ⟨first, d.journal, d.observer.heard, d.queue.totalPushed, d.queue.totalPopped,
    d.queue.frames, ?_⟩
  obtain ⟨⟨⟨loaded, entry⟩, clear⟩, held, parts, control, up, snapshot, instructions⟩ := built
  obtain ⟨⟨⟨loaded', entry'⟩, clear'⟩, held', parts', control', up', snapshot', instructions'⟩ :=
    built'
  cases found.symm.trans found'
  obtain ⟨_, _, _, _, _, _, _, ⟨_, _, _, _⟩, _, _, _, _, _, _⟩ := c
  obtain ⟨_, _, _, _, _, _, _, ⟨_, _, _, _⟩, _, _, _, _, _, _⟩ := d
  simp_all [Unloaded]

def replyLeaves (config : Configuration) (host : Provision) : Reply → Assertion screening
  | .answer (.ready result) => setUpLeaves config host result
  | _ => whatever.given False

theorem renewalLeaves (operation : Operation) {call : Call (Except ConsoleError Unit)}
    {P : Assertion screening} (meets : screening.Meets P call (setUpLeaves config host))
    (calls : operation.call = do return .ready (← call)) :
    screening.Meets P (Request.operation operation).call (replyLeaves config host) := by
  rw [Request.call, calls]
  exact .bind (Q := fun answer => replyLeaves config host (.answer answer))
    (.bind meets fun _ => .done fun _ h => h) fun _ => .done fun _ h => h

theorem replyReady {reply : Reply} {w : Screening} (left : replyLeaves config host reply w)
    {parts : Core Unit × Hosted Devices} (built : (Call.build config host).1 = .ok parts) :
    reply = .answer (.ready (.ok ())) ∧ Vacant config (Renewed config host) w.console := by
  cases reply with
  | statistics statistics => exact left.1.elim
  | answer answer =>
    cases answer with
    | ready result =>
      cases result with
      | ok value => exact ⟨rfl, left⟩
      | error e => exact absurd built (left.1 parts)
    | _ => exact left.1.elim

/- However long a console has been in use and whatever was done with it: once it has been reset, no
replies of it, no commands taken from it and nothing else about it but its queue's counters and the
observer's memory tell it from another console of its kind that has been set up for the first
time. -/
theorem resetForgets (config : Configuration) (observer : Observer) (host : Provision)
    (before resetting starting : List (Interplay.Turn Request Bystander))
    (alone : ∀ r, .begin r ∉ resetting) (alone' : ∀ r, .begin r ∉ starting) :
    let start := Patronage.start config observer
    let used := (start.play before).play (.begin (.operation (.reset host)) :: resetting)
    let fresh := start.play (.begin (.operation (.setUp host)) :: starting)
    (start.play before).rest.result?.isSome → used.rest = .done (.answer (.ready (.ok ()))) →
    fresh.rest.result?.isSome →
    fresh.rest = .done (.answer (.ready (.ok ()))) ∧ ∀ later,
      (used.play later).rest.result?.map Reply.face =
        (fresh.play later).rest.result?.map Reply.face ∧
      Twins config observer (used.play later).world.console (fresh.play later).world.console ∧
      ∃ since, (used.play later).world.taken = used.world.taken ++ since ∧
        (fresh.play later).world.taken = fresh.world.taken ++ since := by
  intro start used fresh idle done up
  have constant (turns : List (Interplay.Turn Request Bystander)) :
      Constant config observer (start.play turns).world.console.config
        (start.play turns).world.console.observer (start.play turns).world.console.devices
        (start.play turns).world.console.initialized :=
    sessionConstant turns
  have joined : used = start.play (before ++ .begin (.operation (.reset host)) :: resetting) :=
    List.foldl_append.symm
  have resets : screening.Secures (fun reply => replyLeaves config host reply)
      (Request.operation (.reset host)).call (start.play before).world :=
    renewalLeaves (.reset host) resetRenews rfl _ (constant before).config
  have renewed :
      screening.Secures (fun reply => replyLeaves config host reply) used.rest used.world :=
    Interplay.Session.callSecures idle resets alone
  rw [done] at renewed
  have old : Vacant config (Renewed config host) used.world.console := renewed.result
  have begins : Vacant config Dismantled start.world.console := ⟨rfl, rfl, ⟨⟨rfl, rfl⟩, rfl⟩, rfl⟩
  have setsUp : screening.Secures (fun reply => replyLeaves config host reply)
      (Request.operation (.setUp host)).call start.world :=
    renewalLeaves (.setUp host) setUpRenews rfl _ begins
  have secured :
      screening.Secures (fun reply => replyLeaves config host reply) fresh.rest fresh.world :=
    Interplay.Session.callSecures rfl setsUp alone'
  obtain ⟨reply, ready, left⟩ := secured.ended up
  obtain ⟨-, core, devices, built, -⟩ := old.fact
  obtain ⟨rfl, new⟩ := replyReady left built
  have alike : used.Alike config observer used.world.taken fresh.world.taken fresh := by
    refine ⟨?_, renewedTwins (joined ▸ constant _) (constant _) old new, [],
      (List.append_nil _).symm, (List.append_nil _).symm⟩
    rw [done, show fresh.rest = _ from ready]
    rfl
  refine ⟨ready, fun later => ?_⟩
  have after := alike.play later
  exact ⟨after.faces, after.world.twins, after.world.taken⟩

def pastBrief : List (Interplay.Turn Request Bystander) :=
  .begin (.operation (.setUp (.memory true))) :: .replicate 11 .proceed ++
    .begin (.operation (.load (.rawImage [0xF4] 0))) :: .replicate 19 .proceed ++
    .begin (.operation .run) :: .replicate 7 .proceed ++
    .other .drain :: .replicate 18 (.other .thread)

theorem resetForgetsHalted :
    let start := Patronage.start brief {}
    let used := (start.play pastBrief).play
      (.begin (.operation (.reset (.memory true))) :: .replicate 40 .proceed)
    let fresh := start.play (.begin (.operation (.setUp (.memory true))) :: .replicate 11 .proceed)
    (start.play pastBrief).world.console.instructions = 1 ∧
      used.world.console.queue.totalPushed = 1 ∧ fresh.world.console.queue.totalPushed = 0 ∧
      ∀ later, Twins brief {} (used.play later).world.console (fresh.play later).world.console := by
  intro start used fresh
  have done : used.rest = .done (.answer (.ready (.ok ()))) := doneGranted (by decide +kernel)
  have forgets := resetForgets brief {} (.memory true) pastBrief (.replicate 40 .proceed)
    (.replicate 11 .proceed) (by simp) (by simp) (by decide +kernel) done (by decide +kernel)
  refine ⟨by decide +kernel, by decide +kernel, by decide +kernel, fun later => ?_⟩
  obtain ⟨-, twins, -⟩ := forgets.2 later
  exact twins

end Past

end Renewal

end Console

end GameConsole
