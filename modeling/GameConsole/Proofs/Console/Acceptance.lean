import GameConsole.Proofs.Console.Custody
import GameConsole.Proofs.Console.Promptness

/-! What a load leaves of a console, whatever the console has been through and whatever the loader
does. The console may be refused a program, fail to get one or get one; what becomes of it in each
case is said field by field, and those who take commands from the queue may do so all the time. -/
namespace GameConsole.Console
open Custody (Lost Rests downCustody idleCustody patronageStanding)
open Failure (Standing standing)
open Graphics (RenderCommand RenderQueue)
open Interplay (Meets Turn)
open Interplay.Session (goOnSecures playOthers playStep)
open Procedure (look alter)
open Promptness (Winding loadPrompt promptSettles restedAdvance)
open scoped List

namespace Acceptance

class Watched (Q : List RenderCommand → RenderQueue → Prop) : Prop where
  drains : ∀ taken q, Q taken q → Q (taken ++ q.drain.1) q.drain.2
  counts : ∀ taken q n, Q taken q → Q taken (q.countPopped n)

structure Untouched (w : Screening) (taken : List RenderCommand) (q : RenderQueue) : Prop where
  kept : w.taken <+: taken
  commands : taken ++ q.pending.toList = w.commands
  pushed : q.totalPushed = w.console.queue.totalPushed
  frames : q.frames = w.console.queue.frames

structure Replaced (w : Screening) (shown taken : List RenderCommand) (q : RenderQueue) : Prop where
  commands : ∃ before, w.taken <+: before ∧ before <+: w.commands ∧
    taken ++ q.pending.toList = before ++ shown
  pending : q.pending.toList = shown ∨ q.pending.toList = []

section Watching
variable {w : Screening} {shown taken : List RenderCommand} {q : RenderQueue}

instance : Watched (Untouched w) where
  drains _ _ h :=
    ⟨h.kept.trans (List.prefix_append _ _), (List.append_nil _).trans h.commands, h.pushed,
      h.frames⟩
  counts _ _ _ h := ⟨h.kept, h.commands, h.pushed, h.frames⟩

instance : Watched (Replaced w shown) where
  drains taken q h := by
    obtain ⟨before, first, second, commands⟩ := h.commands
    exact ⟨⟨before, first, second, (List.append_nil _).trans commands⟩, .inr rfl⟩
  counts _ _ _ h := ⟨h.commands, h.pending⟩

theorem Untouched.refl (w : Screening) : Untouched w w.taken w.console.queue :=
  ⟨List.prefix_refl _, rfl, rfl, rfl⟩

theorem Untouched.clear (h : Untouched w taken q) : Replaced w [] taken q.clear :=
  ⟨⟨taken, h.kept, h.commands ▸ List.prefix_append _ _, rfl⟩, .inl rfl⟩

theorem Replaced.push (h : Replaced w [] taken q) (c : RenderCommand) :
    Replaced w [c] taken (q.push c) := by
  have none : q.pending.toList = [] := h.pending.elim id id
  obtain ⟨before, first, second, commands⟩ := h.commands
  rw [none] at commands
  have pushed : (q.push c).pending.toList = [c] := by
    rw [RenderQueue.pendingPush, none, List.nil_append]
  refine ⟨⟨before, first, second, ?_⟩, .inl pushed⟩
  rw [pushed]
  exact congrArg (· ++ [c]) ((List.append_nil _).symm.trans (commands.trans (List.append_nil _)))

end Watching

def besides (c : Console) (journal : Journal) (heard : Array Lifecycle) (queue : RenderQueue) :
    Console :=
  { c with journal, observer := { c.observer with heard }, queue }

structure Left (c : Console) (Q : List RenderCommand → RenderQueue → Prop) (v : Screening) :
    Prop where
  console : ∃ journal heard queue, v.console = besides c journal heard queue
  queue : Q v.taken v.console.queue

section Leaving
variable {c d : Console} {Q R : List RenderCommand → RenderQueue → Prop}

theorem Left.put {v : Screening} (h : Left c Q v) (change : Console → Console)
    (same : ∀ journal heard queue, ∃ journal' heard',
      change (besides c journal heard queue) = besides d journal' heard' queue) :
    Left d Q (v.put (change v.console)) := by
  obtain ⟨⟨journal, heard, queue, here⟩, shown⟩ := h
  obtain ⟨journal', heard', there⟩ := same journal heard queue
  rw [here] at shown ⊢
  rw [there]
  exact ⟨⟨journal', heard', queue, rfl⟩, shown⟩

def left (c : Console) (Q : List RenderCommand → RenderQueue → Prop) [Watched Q]
    (alone : c.worker = none := by rfl) : Assertion screening where
  holds := Left c Q
  stable b v h := by
    obtain ⟨⟨journal, heard, queue, same⟩, shows⟩ := h
    cases b with
    | thread =>
      have idle : v.console.advance.getD v.console = v.console :=
        advanceAlone (by rw [same]; exact alone)
      change Left c Q { v with console := v.console.advance.getD v.console }
      rw [idle]
      exact ⟨⟨journal, heard, queue, same⟩, shows⟩
    | drain =>
      refine ⟨⟨journal, heard, v.console.queue.drain.2, ?_⟩, Watched.drains _ _ shows⟩
      change ({ v.console with queue := _ } : Console) = _
      rw [same]
      rfl
    | count =>
      refine ⟨⟨journal, heard, v.console.queue.countPopped v.due, ?_⟩, Watched.counts _ _ _ shows⟩
      change ({ v.console with queue := _ } : Console) = _
      rw [same]
      rfl

variable [Watched Q] [Watched R] {alone : c.worker = none}

theorem leftAlter {change : Console → Console}
    (same : ∀ journal heard queue,
      change (besides c journal heard queue) = besides d journal heard queue :=
        by exact fun _ _ _ => rfl)
    (alone' : d.worker = none := by rfl) :
    screening.Meets (left c Q alone) (alter change) fun _ => left d Q alone' :=
  .alter fun _ h => ⟨trivial, h.put change fun journal heard queue =>
    ⟨journal, heard, same journal heard queue⟩⟩

theorem leftQueue (change : RenderQueue → RenderQueue)
    (shows : ∀ taken q, Q taken q → R taken (change q)) :
    screening.Meets (left c Q alone) (alter fun c => { c with queue := change c.queue }) fun _ =>
      left c R alone :=
  .alter fun v h => by
    obtain ⟨⟨journal, heard, queue, here⟩, shown⟩ := h
    refine ⟨trivial, ⟨journal, heard, change queue, ?_⟩, shows _ _ shown⟩
    change ({ v.console with queue := change v.console.queue } : Console) = _
    rw [here]
    rfl

theorem leftQuiet : Quiet (left c Q alone) := fun _ journal h =>
  h.put ({ · with journal }) fun _ heard _ => ⟨journal, heard, rfl⟩

theorem leftEnter (after : Lifecycle) :
    screening.Meets (left c Q alone) (Call.enter after) fun _ =>
      left { c with state := after } Q alone :=
  enterMeets after
    (fun _ h => h.put ({ · with state := after }) fun journal heard _ => ⟨journal, heard, rfl⟩)
    fun _ before h => h.put (·.tell before after) fun _ heard _ => ⟨_, heard.push after, rfl⟩

theorem leftPublish (core : Core Unit) :
    screening.Meets (left c Q alone) (Call.publish core) fun _ =>
      left { c with snapshot := core.registers, instructions := core.retired } Q alone :=
  .bind (Q := fun _ => left { c with snapshot := core.registers } Q alone)
    (leftAlter (fun _ _ _ => rfl) (by exact alone)) fun _ =>
    leftAlter (fun _ _ _ => rfl) (by exact alone)

end Leaving

def holding (c : Console) (core : Core Unit) : Console :=
  { c with worker := none, core := some core }

def ejected (c : Console) (core : Core Unit) : Console :=
  { holding c core with programLoaded := false, entry := none }

def aimed (core : Core Unit) (entry stack : UInt64) : Core Unit :=
  { core with
    registers := ((Registers.powerOn.jump entry).set .rsp stack).set .rbp stack
    retired := 0, lastOpcode := 0, lastFault := none }

def started (c : Console) (core : Core Unit) (entry : UInt64) : Console :=
  { holding c core with
    state := .idle, programLoaded := true, entry := some entry, control := {}
    snapshot := core.registers, instructions := core.retired }

section Placing
variable {w : Screening} {c : Console}

theorem acceptLeaves (core : Core Unit) (image : LoadedImage) (stack : UInt64) :
    screening.Meets (left { ejected c core with state := .booting } (Untouched w))
      (Call.accept core image stack) fun _ =>
      left (started c (aimed core image.entry stack) image.entry)
        (Replaced w [.clearBlack]) := by
  let next := aimed core image.entry stack
  let aimedAt : Console := { ejected c next with state := .booting, control := {} }
  let published : Console :=
    { aimedAt with snapshot := next.registers, instructions := next.retired }
  let entered : Console := { published with entry := some image.entry }
  let ready : Console := { entered with programLoaded := true }
  exact acceptAllowed (A := left aimedAt (Untouched w)) (B := left published (Untouched w))
    (C := left published (Replaced w [])) (D := left published (Replaced w [.clearBlack]))
    (E := left entered (Replaced w [.clearBlack])) (F := left ready (Replaced w [.clearBlack]))
    leftAlter (leftPublish next) (leftQueue RenderQueue.clear fun _ _ h => h.clear)
    (leftQueue (·.push .clearBlack) fun _ _ h => h.push _) leftAlter leftAlter leftQuiet
    (leftEnter .idle)

def placed (w : Screening) (c : Console) (core : Core Unit) (loader : Loader) (stack : UInt64)
    (result : Except ConsoleError UInt64) : Assertion screening :=
  let next : Core Unit := { core with memory := (loader core.memory).1 }
  match (loader core.memory).2 with
  | .loaded image =>
    (left (started c (aimed next image.entry stack) image.entry) (Replaced w [.clearBlack])).given
      (result = .ok image.entry)
  | .failed e =>
    (left { ejected c next with state := .idle } (Untouched w)).given (result = .error (.load e))
  | .crashed words =>
    (left { ejected c next with state := .error } (Untouched w)).given
      (result = .error (.crashed .load words))

theorem placeLeaves (core : Core Unit) (loader : Loader) (stack : UInt64) :
    screening.Meets (left (holding c core) (Untouched w)) (Call.place core loader stack)
      (placed w c core loader stack) := by
  let booting : Console := { holding c core with state := .booting }
  let unloaded : Console := { booting with programLoaded := false }
  let next : Core Unit := { core with memory := (loader core.memory).1 }
  refine placeAllowed (A := left booting (Untouched w)) (B := left unloaded (Untouched w))
    (C := left { ejected c core with state := .booting } (Untouched w))
    (D := left { ejected c next with state := .booting } (Untouched w)) (leftEnter _) leftAlter
    leftAlter leftAlter (fun image loads => ?_) leftQuiet (fun e fails => ?_)
    fun words crashes => ?_
  · exact (acceptLeaves next image stack).post fun _ _ h => by
      rw [placed, loads]
      exact ⟨rfl, h⟩
  · exact (leftEnter .idle).post fun _ _ h => by
      rw [placed, fails]
      exact ⟨rfl, h⟩
  · exact (leftEnter .error).post fun _ _ h => by
      rw [placed, crashes]
      exact ⟨rfl, h⟩

end Placing

/- What is true of a console whose thread has only to tell that its run is over, if that is told or
not, and whatever becomes of the queue. -/
structure Tells (f : Console → Prop) : Prop where
  queue : ∀ c queue, f c → f { c with queue }
  thread : ∀ c, f c → f (c.advance.getD c) ∧ ∃ journal heard worker,
    c.advance.getD c = { besides c journal heard c.queue with worker }

section Reclaiming
variable {w : Screening} {core : Core Unit} {f : Console → Prop}

theorem restsTells (core : Core Unit) : Tells (Rests · core) where
  queue _ _ h := by
    cases h with
    | controller mine alone => exact .controller mine alone
    | finished none mine => exact .finished none mine
    | telling left before after none mine calm => exact .telling left before after none mine calm
  thread c h := by
    cases h with
    | controller mine alone =>
      rw [advanceAlone alone]
      exact ⟨.controller mine alone, c.journal, c.observer.heard, c.worker, rfl⟩
    | finished none mine =>
      rw [restedAdvance fun job busy => by cases mine.symm.trans busy]
      exact ⟨.finished none mine, c.journal, c.observer.heard, c.worker, rfl⟩
    | telling left before after none mine calm =>
      rw [advanceWorks mine, announceEnds, if_neg calm]
      exact ⟨.finished none rfl, _, _, _, rfl⟩

theorem lostTells : Tells Lost where
  queue _ _ h := by
    cases h with
    | died none mine => exact .died none mine
    | dying core left before after none mine fears =>
      exact .dying core left before after none mine fears
  thread c h := by
    cases h with
    | died none mine =>
      rw [restedAdvance fun job busy => by cases mine.symm.trans busy]
      exact ⟨.died none mine, c.journal, c.observer.heard, c.worker, rfl⟩
    | dying core left before after none mine fears =>
      rw [advanceWorks mine, announceEnds, if_pos fears]
      exact ⟨.died none rfl, _, _, _, rfl⟩

structure Waits (w : Screening) (f : Console → Prop) (v : Screening) : Prop where
  console : ∃ journal heard queue worker,
    v.console = { besides w.console journal heard queue with worker }
  fact : f v.console
  queue : Untouched w v.taken v.console.queue

def waits (w : Screening) (f : Console → Prop) (tells : Tells f) : Assertion screening where
  holds := Waits w f
  stable b v h := by
    obtain ⟨⟨journal, heard, queue, worker, same⟩, fact, shown⟩ := h
    cases b with
    | thread =>
      obtain ⟨later, journal', heard', worker', told⟩ := tells.thread _ fact
      refine ⟨⟨journal', heard', queue, worker', ?_⟩, later, ?_⟩
      · change v.console.advance.getD v.console = _
        rw [told, same]
        rfl
      · change Untouched w v.taken (v.console.advance.getD v.console).queue
        rw [told]
        exact shown
    | drain =>
      refine ⟨⟨journal, heard, v.console.queue.drain.2, worker, ?_⟩, tells.queue _ _ fact,
        Watched.drains _ _ shown⟩
      change ({ v.console with queue := _ } : Console) = _
      rw [same]
      rfl
    | count =>
      refine ⟨⟨journal, heard, v.console.queue.countPopped v.due, worker, ?_⟩,
        tells.queue _ _ fact, Watched.counts _ _ _ shown⟩
      change ({ v.console with queue := _ } : Console) = _
      rw [same]
      rfl

def bereft (c : Console) : Console := { c with worker := none, core := none }

theorem waitsJoins {tells : Tells f} {v : Screening} (h : waits w f tells v)
    (away : v.console.core = none) :
    Left (bereft w.console) (Untouched w) (v.put { v.console with worker := none }) := by
  obtain ⟨⟨journal, heard, queue, worker, same⟩, -, shown⟩ := h
  refine ⟨⟨journal, heard, queue, ?_⟩, shown⟩
  rw [same] at away
  change w.console.core = none at away
  change ({ v.console with worker := none } : Console) = _
  rw [same, bereft, ← away]
  rfl

theorem reclaimRests :
    screening.Meets (waits w (Rests · core) (restsTells core)) Call.reclaim fun _ =>
      left (holding w.console core) (Untouched w) := by
  refine reclaimAllowed
    (H := fun found => (left (bereft w.console) (Untouched w)).given (found = some core))
    (fun v h nobody => ?_) (fun v found after h joined => ⟨trivial, ?_⟩)
    (fun v other h => ⟨trivial, ?_⟩) (fun _ _ h => nomatch h.1) (.given nofun)
  · have mine : v.console.core = some core := h.fact.alone nobody
    obtain ⟨⟨journal, heard, queue, worker, same⟩, -, shown⟩ := h
    change v.console.worker = none at nobody
    rw [same] at mine nobody
    change w.console.core = some core at mine
    change worker = none at nobody
    refine ⟨⟨journal, heard, queue, ?_⟩, shown⟩
    rw [same, nobody, holding, ← mine]
    rfl
  · obtain ⟨away, taken⟩ := h.fact.joins joined
    obtain ⟨rfl, -⟩ := joinTakes joined
    exact ⟨taken, waitsJoins h away⟩
  · obtain ⟨same, h⟩ := h
    cases same
    exact h.put ({ · with core := some core }) fun journal heard _ => ⟨journal, heard, rfl⟩

theorem reclaimLost :
    screening.Meets (waits w Lost lostTells) Call.reclaim fun _ =>
      left { bereft w.console with state := .error } (Untouched w) := by
  refine reclaimAllowed
    (H := fun found => (left (bereft w.console) (Untouched w)).given (found = none))
    (fun v h nobody => absurd nobody h.fact.manned)
    (fun v found after h joined => ⟨trivial, ?_⟩)
    (fun _ _ h => nomatch h.1) (fun v journal h => ⟨rfl, ?_⟩) (.given fun _ => leftEnter .error)
  · obtain ⟨away, lost⟩ := h.fact.joins joined
    obtain ⟨rfl, -⟩ := joinTakes joined
    exact ⟨lost, waitsJoins h away⟩
  · exact h.2.put ({ · with journal }) fun _ heard _ => ⟨journal, heard, rfl⟩

end Reclaiming

section Loading
variable {w : Screening} {c : Console} {core : Core Unit}
  {Q : List RenderCommand → RenderQueue → Prop} [Watched Q] {P : Assertion screening}

theorem leftLook {α : Type} {f : Console → α} (value : α) {alone : c.worker = none}
    (same : ∀ journal heard queue, f (besides c journal heard queue) = value) :
    screening.Meets (left c Q alone) (look f) fun found => (left c Q alone).given (found = value) :=
  .look fun v h => by
    obtain ⟨journal, heard, queue, here⟩ := h.console
    exact ⟨(congrArg f here).trans (same journal heard queue), h⟩

theorem reclaimAlone {alone : c.worker = none} :
    screening.Meets (left c Q alone) Call.reclaim fun _ => left c Q alone := by
  refine .bind (leftLook none fun _ _ _ => alone) fun worker => .given fun nobody => ?_
  rw [nobody]
  exact .done fun _ h => h

theorem loadBereft (loader : Loader) (idle : c.state = .idle) {d : Console}
    {alone : d.worker = none} (nothing : d.core = none)
    (reclaims : screening.Meets P Call.reclaim fun _ => left d Q alone) :
    screening.Meets P ((Call.load loader).after c) fun result =>
      (left d Q alone).given (result = .error .notInitialized) := by
  change screening.Meets P (if c.state ≠ .idle then _ else _) _
  rw [if_neg (not_not_intro idle)]
  refine .bind reclaims fun _ => ?_
  refine .bind (leftLook none fun _ _ _ => nothing) fun found => .given fun none => ?_
  rw [none]
  exact .done fun _ h => ⟨rfl, h⟩

def offered (w : Screening) (core : Core Unit) (loader : Loader)
    (result : Except ConsoleError UInt64) : Assertion screening :=
  if AddressSpace.stackTop < w.console.config.stackReserve then
    (left (holding w.console core) (Untouched w)).given
      (result = .error (.stackReserve w.console.config.stackReserve))
  else placed w w.console core loader (AddressSpace.stackTop - w.console.config.stackReserve) result

theorem loadOffers (loader : Loader) (idle : w.console.state = .idle)
    (reclaims : screening.Meets P Call.reclaim fun _ =>
      left (holding w.console core) (Untouched w)) :
    screening.Meets P ((Call.load loader).after w.console) (offered w core loader) := by
  change screening.Meets P (if w.console.state ≠ .idle then _ else _) _
  rw [if_neg (not_not_intro idle)]
  refine .bind reclaims fun _ => ?_
  refine .bind (leftLook (some core) fun _ _ _ => rfl) fun found => .given fun mine => ?_
  rw [mine]
  refine .bind (leftLook w.console.config fun _ _ _ => rfl) fun config =>
    .given fun same => ?_
  rw [same]
  unfold offered
  dsimp only
  split
  · exact .bind (reportMeets leftQuiet _) fun _ => .done fun _ h => ⟨rfl, h⟩
  · exact placeLeaves core loader _

end Loading

structure Receptive (c : Console) (core : Core Unit) : Prop where
  idle : c.state = .idle
  up : c.initialized = true
  rests : Rests c core

def turnedAway (v : Screening) (state : Lifecycle) : Screening :=
  v.put (v.console.note (.of .warn "load rejected" [("state", .text state.name)]))

/- The result of a load that has found `w`, and the console that it leaves, if `seen` is what the
others have done in the meantime. -/
inductive Outcome (loader : Loader) (w : Screening) (seen : List Bystander) :
    Except ConsoleError UInt64 → Screening → Prop where
  | busy {first second : List Bystander} (active : w.console.state ≠ .idle)
      (acts : seen = first ++ second) :
      Outcome loader w seen (.error (.invalidState .loadProgram w.console.state))
        (screening.others second (turnedAway (screening.others first w) w.console.state))
  | absent {v : Screening} (idle : w.console.state = .idle) (down : w.console.initialized = false)
      (left : Left w.console (Untouched w) v) : Outcome loader w seen (.error .notInitialized) v
  | lost {v : Screening} (idle : w.console.state = .idle) (up : w.console.initialized = true)
      (lost : Lost w.console)
      (left : Left { bereft w.console with state := .error } (Untouched w) v) :
      Outcome loader w seen (.error .notInitialized) v
  | narrow {v : Screening} {core : Core Unit} (receptive : Receptive w.console core)
      (narrow : AddressSpace.stackTop < w.console.config.stackReserve)
      (left : Left (holding w.console core) (Untouched w) v) :
      Outcome loader w seen (.error (.stackReserve w.console.config.stackReserve)) v
  | failed {v : Screening} {core : Core Unit} {memory : Memory} {e : LoadError}
      (receptive : Receptive w.console core)
      (wide : w.console.config.stackReserve ≤ AddressSpace.stackTop)
      (loads : loader core.memory = (memory, .failed e))
      (left : Left { ejected w.console { core with memory } with state := .idle } (Untouched w) v) :
      Outcome loader w seen (.error (.load e)) v
  | crashed {v : Screening} {core : Core Unit} {memory : Memory} {words : LastWords}
      (receptive : Receptive w.console core)
      (wide : w.console.config.stackReserve ≤ AddressSpace.stackTop)
      (loads : loader core.memory = (memory, .crashed words))
      (left : Left { ejected w.console { core with memory } with state := .error }
        (Untouched w) v) :
      Outcome loader w seen (.error (.crashed .load words)) v
  | loaded {v : Screening} {core : Core Unit} {memory : Memory} {image : LoadedImage}
      (receptive : Receptive w.console core)
      (wide : w.console.config.stackReserve ≤ AddressSpace.stackTop)
      (loads : loader core.memory = (memory, .loaded image))
      (left : Left
        (started w.console (aimed { core with memory } image.entry
          (AddressSpace.stackTop - w.console.config.stackReserve)) image.entry)
        (Replaced w [.clearBlack]) v) :
      Outcome loader w seen (.ok image.entry) v

section Outcomes
variable {loader : Loader} {w v : Screening} {core : Core Unit} {seen : List Bystander}
  {result : Except ConsoleError UInt64}

theorem offeredOutcome (receptive : Receptive w.console core)
    (offers : offered w core loader result v) : Outcome loader w seen result v := by
  unfold offered at offers
  split at offers
  case isTrue narrow =>
    obtain ⟨rfl, left⟩ := offers
    exact .narrow receptive narrow left
  case isFalse wide =>
    have wide : w.console.config.stackReserve ≤ AddressSpace.stackTop := UInt64.not_lt.mp wide
    unfold placed at offers
    cases loads : loader core.memory with
    | mk memory outcome =>
      rw [loads] at offers
      cases outcome with
      | loaded image =>
        obtain ⟨rfl, left⟩ := offers
        exact .loaded receptive wide loads left
      | failed e =>
        obtain ⟨rfl, left⟩ := offers
        exact .failed receptive wide loads left
      | crashed words =>
        obtain ⟨rfl, left⟩ := offers
        exact .crashed receptive wide loads left

theorem waitsRefl {f : Console → Prop} {tells : Tells f} (fact : f w.console) : waits w f tells w :=
  ⟨⟨w.console.journal, w.console.observer.heard, w.console.queue, w.console.worker, rfl⟩, fact,
    .refl w⟩

theorem leftRefl {alone : w.console.worker = none} : left w.console (Untouched w) alone w :=
  ⟨⟨w.console.journal, w.console.observer.heard, w.console.queue, rfl⟩, .refl w⟩

theorem loadSecures (loader : Loader) (seen : List Bystander)
    (standing : Standing w.console.posture) (idle : w.console.state = .idle) :
    screening.Secures (Outcome loader w seen) ((Call.load loader).after w.console) w := by
  cases up : w.console.initialized with
  | false =>
    obtain ⟨nothing, alone⟩ := downCustody standing up
    have reclaims : screening.Meets (left w.console (Untouched w) alone) Call.reclaim fun _ =>
      left w.console (Untouched w) alone := reclaimAlone
    exact (loadBereft loader idle nothing reclaims w leftRefl).imp fun result v ⟨same, left⟩ =>
      same ▸ .absent idle up left
  | true =>
    obtain lost | ⟨core, rests⟩ := idleCustody standing idle up
    · exact (loadBereft loader idle rfl reclaimLost w (waitsRefl lost)).imp
        fun result v ⟨same, left⟩ => same ▸ .lost idle up lost left
    · exact (loadOffers loader idle reclaimRests w (waitsRefl rests)).imp
        fun result v offers => offeredOutcome ⟨idle, up, rests⟩ offers

def replied (p : Call (Except ConsoleError UInt64)) : Call Reply := do
  return .answer (← (do return .loaded (← p)))

theorem repliedBusy (active : w.console.state ≠ .idle) :
    let rejected := Event.of .warn "load rejected" [("state", .text w.console.state.name)]
    let error := ConsoleError.invalidState .loadProgram w.console.state
    replied ((Call.load loader).after w.console) =
      .act (fun c => some (c.note rejected)) fun _ => .done (.answer (.loaded (.error error))) := by
  change replied (if w.console.state ≠ .idle then _ else _) = _
  rw [if_pos active]
  rfl

theorem loadPlays (standing : Standing w.console.posture)
    (later : List (Turn Request Bystander)) (goesOn : ∀ call, .begin call ∉ later) :
    let t : Patronage := Patronage.play ⟨w, replied ((Call.load loader).after w.console)⟩ later
    (t.rest.result?.isSome → ∃ result, t.rest = .done (.answer (.loaded result)) ∧
      Outcome loader w (Turn.others later) result t.world) ∧
    (.other .thread :: List.replicate 23 .proceed <+ later → t.rest.result?.isSome) := by
  intro t
  by_cases idle : w.console.state = .idle
  case pos =>
    refine ⟨fun done => ?_, fun enough => ?_⟩
    · have settles := ((loadSecures loader (Turn.others later) standing idle).map
        Answer.loaded).map Reply.answer
      have secured : screening.Secures _ t.rest t.world := goOnSecures later goesOn ⟨w, _⟩ settles
      obtain ⟨reply, rest, answer, rfl, result, rfl, outcome⟩ := secured.ended done
      exact ⟨result, rest, outcome⟩
    · have winding : Winding w.console := fun job mine => standing.resting job mine (by
        change Ends w.console.state
        rw [idle]
        trivial)
      exact promptSettles (((loadPrompt loader w.console).map Answer.loaded).map Reply.answer)
        winding goesOn enough
  case neg =>
    have stepped (taken : .proceed ∈ later ∨ t.rest.result?.isSome) :
        ∃ first second, Turn.others later = first ++ second ∧ t =
          ⟨screening.others second (turnedAway (screening.others first w) w.console.state),
            .done (.answer (.loaded (.error (.invalidState .loadProgram w.console.state))))⟩ := by
      change .proceed ∈ later ∨ (Patronage.play ⟨w, _⟩ later).rest.result?.isSome at taken
      change ∃ first second, _ ∧ Patronage.play ⟨w, _⟩ later = _
      rw [repliedBusy idle] at taken ⊢
      exact playStep later goesOn w taken
    refine ⟨fun done => ?_, fun enough => ?_⟩
    · obtain ⟨first, second, acts, left⟩ := stepped (.inr done)
      rw [left]
      exact ⟨_, rfl, .busy idle acts⟩
    · obtain ⟨first, second, -, left⟩ := stepped (.inl (enough.subset (.tail _ (.head _))))
      rw [left]
      rfl

/- Whatever a console has been through, whatever a loader does and whatever others do in the
meantime, a load has one of these outcomes. It waits at most for a thread that has still to tell the
observer, and it comes to its end within two dozen steps. -/
theorem loadSettles (config : Configuration) (observer : Observer)
    (before : List (Turn Request Bystander)) (loader : Loader) (waiting : List Bystander)
    (later : List (Turn Request Bystander)) (goesOn : ∀ call, .begin call ∉ later) :
    let s := (Patronage.start config observer).play before
    let found := s.play (.begin (.operation (.load loader)) :: waiting.map .other)
    let t := found.play (.proceed :: later)
    s.rest.result?.isSome →
    (t.rest.result?.isSome → ∃ result, t.rest = .done (.answer (.loaded result)) ∧
      Outcome loader found.world (Turn.others later) result t.world) ∧
    (.other .thread :: List.replicate 23 .proceed <+ later → t.rest.result?.isSome) := by
  intro s found t done
  obtain ⟨reply, -, stands⟩ := (patronageStanding config observer before).ended done
  let request : Request := .operation (.load loader)
  have begun : found = ⟨screening.others waiting s.world, request.call⟩ := by
    have asked : s.play [.begin request] = ⟨s.world, request.call⟩ := if_pos done
    change Patronage.play (s.play [.begin request]) (waiting.map .other) = _
    rw [asked]
    exact playOthers waiting _
  have still : standing (screening.others waiting s.world) :=
    Interplay.Assertion.others standing waiting stands
  have looked : t = Patronage.play
      ⟨found.world, replied ((Call.load loader).after found.world.console)⟩ later := by
    change Patronage.play found (.proceed :: later) = _
    rw [begun]
    rfl
  rw [looked, begun]
  exact loadPlays still later goesOn

theorem loadSettlesWaiting :
    let s := (Patronage.start brief {}).play Renewal.pastBrief.dropLast
    let loader := Loader.rawImage [0xF4] 0
    let found := s.play [.begin (.operation (.load loader)), .other .drain]
    let t := found.play (.proceed ::
      (.replicate 3 .proceed ++ .other .thread :: .replicate 23 .proceed))
    found.world.console.announcing = true ∧ t.world.console.programLoaded = true ∧
      ∃ result, t.rest = .done (.answer (.loaded result)) ∧
        Outcome loader found.world [.thread] result t.world := by
  intro s loader found t
  have settles := loadSettles brief {} Renewal.pastBrief.dropLast loader [.drain]
    (.replicate 3 .proceed ++ .other .thread :: .replicate 23 .proceed) (by simp)
    (by decide +kernel)
  have done : t.rest.result?.isSome :=
    settles.2 (List.sublist_append_right _ _)
  exact ⟨by decide +kernel, by decide +kernel, settles.1 done⟩

def coreless : Reply → Bool
  | .answer (.loaded (.error .notInitialized)) => true
  | _ => false

theorem doneCoreless {p : Procedure Console Reply} (refused : p.result?.any coreless = true) :
    p = .done (.answer (.loaded (.error .notInitialized))) := by
  cases p with
  | act change next => cases refused
  | done reply =>
    change coreless reply = true at refused
    unfold coreless at refused
    split at refused
    · rfl
    · cases refused

/- An observer has not borne to hear that a program has halted. The console is idle and has been set
up, and yet no loader gets a program into it. -/
theorem loadFindsNoCore :
    let s := (Patronage.start brief { fearsome := some .idle }).play Renewal.pastBrief
    let loader : Loader := fun memory => (memory, .loaded ⟨0, "nothing"⟩)
    let t := s.play (.begin (.operation (.load loader)) :: .replicate 24 .proceed)
    s.rest.result?.isSome ∧ s.world.console.state = .idle ∧ s.world.console.initialized = true ∧
      s.world.console.config.stackReserve ≤ AddressSpace.stackTop ∧
      t.rest = .done (.answer (.loaded (.error .notInitialized))) ∧
      t.world.console.state = .error := by
  intro s loader t
  exact ⟨by decide +kernel, by decide +kernel, by decide +kernel, by decide +kernel,
    doneCoreless (by decide +kernel), by decide +kernel⟩

end Outcomes

end Acceptance

end GameConsole.Console
