import GameConsole.Proofs.Console.Steps

/-! Contracts of the calls, put together from contracts of their steps. Whoever has assertions for
the places between the steps of a call, and a contract for each step from one place to the next, has
a contract for the call; what is asserted there is a matter of who needs it. -/
namespace GameConsole.Console
open Procedure (look alter)

inductive Operation where
  | setUp (host : Provision)
  | load (loader : Loader)
  | run | pause | resume | togglePause | stop
  | readMemory (address length : UInt64)
  | reset (host : Provision)
  | shutdown

inductive Answer where
  | nothing
  | flag (accepted : Bool)
  | ready (result : Except ConsoleError Unit)
  | loaded (result : Except ConsoleError UInt64)
  | bytes (result : Except ConsoleError (List UInt8))

def Operation.call : Operation → Call Answer
  | .setUp host => do return .ready (← Call.setUp host)
  | .load loader => do return .loaded (← Call.load loader)
  | .run => do return .flag (← Call.run)
  | .pause => do return .flag (← Call.pause)
  | .resume => do return .flag (← Call.resume)
  | .togglePause => do return .flag (← Call.togglePause)
  | .stop => do return .flag (← Call.stop)
  | .readMemory address length => do return .bytes (← Call.readMemory address length)
  | .reset host => do return .ready (← Call.reset host)
  | .shutdown => do
    Call.shutdown
    return .nothing

def startCore (core : Core Unit) (image : LoadedImage) (stack : UInt64) : Core Unit :=
  { core.reset with registers := Call.startRegisters image.entry stack }

variable {ν τ : Type} {i : Interplay Console ν τ}

/- The contracts of all calls: what each of them finds, and what their answers leave. -/
structure Serves (i : Interplay Console ν τ) (P : Operation → Assertion i)
    (Q : Answer → Assertion i) : Prop where
  setUp : ∀ host, i.Meets (P (.setUp host)) (Call.setUp host) fun result => Q (.ready result)
  load : ∀ loader, i.Meets (P (.load loader)) (Call.load loader) fun result => Q (.loaded result)
  run : i.Meets (P .run) Call.run fun accepted => Q (.flag accepted)
  pause : i.Meets (P .pause) Call.pause fun accepted => Q (.flag accepted)
  resume : i.Meets (P .resume) Call.resume fun accepted => Q (.flag accepted)
  togglePause : i.Meets (P .togglePause) Call.togglePause fun accepted => Q (.flag accepted)
  stop : i.Meets (P .stop) Call.stop fun accepted => Q (.flag accepted)
  readMemory : ∀ address length,
    i.Meets (P (.readMemory address length)) (Call.readMemory address length) fun result =>
      Q (.bytes result)
  reset : ∀ host, i.Meets (P (.reset host)) (Call.reset host) fun result => Q (.ready result)
  shutdown : i.Meets (P .shutdown) Call.shutdown fun _ => Q .nothing

theorem Serves.meets {P : Operation → Assertion i} {Q : Answer → Assertion i}
    (serves : Serves i P Q) (call : Operation) : i.Meets (P call) call.call Q := by
  cases call with
  | setUp host => exact .bind (serves.setUp host) fun _ => .done fun _ h => h
  | load loader => exact .bind (serves.load loader) fun _ => .done fun _ h => h
  | run => exact .bind serves.run fun _ => .done fun _ h => h
  | pause => exact .bind serves.pause fun _ => .done fun _ h => h
  | resume => exact .bind serves.resume fun _ => .done fun _ h => h
  | togglePause => exact .bind serves.togglePause fun _ => .done fun _ h => h
  | stop => exact .bind serves.stop fun _ => .done fun _ h => h
  | readMemory address length =>
    exact .bind (serves.readMemory address length) fun _ => .done fun _ h => h
  | reset host => exact .bind (serves.reset host) fun _ => .done fun _ h => h
  | shutdown => exact .bind serves.shutdown fun _ => .done fun _ h => h

section Contracts
variable {host : Provision} {P A B C D E F H : Assertion i}

theorem haltWorkerAllowed {M : Option Worker → Assertion i}
    (looks : i.Meets P (look worker) M)
    (stops : ∀ worker, i.Meets (M (some worker)) (Call.enter .stopping) fun _ => A)
    (asks : i.Meets A (Call.control Control.requestStop) fun _ => B)
    (joins : i.Meets B Call.reclaim fun _ => C)
    (idles : i.Meets (M none) Call.reclaim fun _ => C) :
    i.Meets P Call.haltWorker fun _ => C := by
  refine .bind looks fun worker => ?_
  cases worker with
  | none => exact idles
  | some worker => exact .bind (stops worker) fun _ => .bind asks fun _ => joins

theorem unloadAllowed {M : Option (Core Unit) → Assertion i} {N : Core Unit → Assertion i}
    (looks : i.Meets P (look Console.core) M)
    (resets : ∀ core, i.Meets (M (some core))
      (alter fun c => { c with core := some core.reset, control := {} }) fun _ => N core.reset)
    (shows : ∀ core, i.Meets (N core) (Call.publish core) fun _ => A)
    (lacks : ∀ w, M none w → A w)
    (unloads : i.Meets A (alter fun c => { c with programLoaded := false }) fun _ => B)
    (forgets : i.Meets B (alter fun c => { c with entry := none }) fun _ => C)
    (clears : i.Meets C (alter fun c => { c with queue := c.queue.clear }) fun _ => D) :
    i.Meets P Call.unload fun _ => D := by
  have rest : i.Meets A (do
      alter fun c => { c with programLoaded := false }
      alter fun c => { c with entry := none }
      alter fun c => { c with queue := c.queue.clear }) fun _ => D :=
    .bind unloads fun _ => .bind forgets fun _ => clears
  refine .bind looks fun core => ?_
  cases core with
  | none => exact rest.pre lacks
  | some core => exact .bind (resets core) fun _ => .bind (shows core.reset) fun _ => rest

theorem shutdownAllowed {Q : Assertion i}
    (halts : i.Meets P Call.haltWorker fun _ => A)
    (unloads : i.Meets A Call.unload fun _ => B)
    (dismantles : i.Meets B Call.dismantle fun _ => C)
    (idles : i.Meets C (Call.enter .idle) fun _ => Q) : i.Meets P Call.shutdown fun _ => Q :=
  .bind halts fun _ => .bind unloads fun _ => .bind dismantles fun _ => idles

theorem readMemoryAllowed {address length : UInt64} {S : Lifecycle → Assertion i}
    {F : Option (Core Unit) → Assertion i}
    {Q : Except ConsoleError (List UInt8) → Assertion i}
    (looks : i.Meets P (look Console.state) S)
    (refuses : ∀ state ∈ [.running, .paused, .stopping], ∀ w, S state w →
      Q (.error (.invalidState .readMemory state)) w)
    (reclaims : ∀ state ∉ [.running, .paused, .stopping],
      i.Meets (S state) Call.reclaim fun _ => A)
    (finds : i.Meets A (look Console.core) F)
    (lacks : ∀ w, F none w → Q (.error .notInitialized) w)
    (reads : ∀ core w, F (some core) w →
      Q ((core.memory.readBlock address length).mapError .fault) w) :
    i.Meets P (Call.readMemory address length) Q := by
  refine .bind looks fun state => ?_
  split
  case isTrue busy => exact .done (refuses state busy)
  case isFalse still =>
    refine .bind (reclaims state still) fun _ => ?_
    refine .bind finds fun core => ?_
    cases core with
    | none => exact .done lacks
    | some core => exact .done (reads core)

variable [Placid i]

theorem setUpAllowed {U : Bool → Assertion i} {K : Configuration → Assertion i}
    {S : Configuration → Core Unit → Assertion i} {Q : Except ConsoleError Unit → Assertion i}
    (looks : i.Meets P (look initialized) U)
    (up : ∀ w, U true w → Q (.ok ()) w)
    (boots : i.Meets (U false) (Call.enter .booting) fun _ => A)
    (configures : i.Meets A (look config) K)
    (quiet : ∀ config, Quiet (K config))
    (shows : ∀ config core devices, (Call.build config host).1 = .ok (core, devices) →
      i.Meets (K config) (Call.publish core) fun _ => S config core)
    (takes : ∀ config core devices, (Call.build config host).1 = .ok (core, devices) →
      i.Meets (S config core)
        (alter fun c => { c with core := some core, devices, control := {}, initialized := true })
        fun _ => B)
    (idles : i.Meets B (Call.enter .idle) fun _ => Q (.ok ()))
    (fails : ∀ config error, (Call.build config host).1 = .error error →
      i.Meets (K config) (Call.enter .error) fun _ => Q (.error error)) :
    i.Meets P (Call.setUp host) Q := by
  refine .bind looks fun initialized => ?_
  cases initialized with
  | true => exact .done up
  | false =>
    refine .bind boots fun _ => ?_
    refine .bind configures fun config => ?_
    specialize shows config
    specialize takes config
    specialize fails config
    generalize Call.build config host = outcome at shows takes fails
    obtain ⟨built, events⟩ := outcome
    refine .bind (Q := fun _ => K config) (journalMeets (quiet config)) fun _ => ?_
    cases built with
    | ok parts =>
      obtain ⟨core, devices⟩ := parts
      refine .bind (Q := fun _ => K config) (reportMeets (quiet config) _) fun _ => ?_
      refine .bind (shows core devices rfl) fun _ => ?_
      refine .bind (takes core devices rfl) fun _ => ?_
      exact .bind idles fun _ => .done fun _ h => h
    | error error =>
      refine .bind (Q := fun _ => K config) (reportMeets (quiet config) _) fun _ => ?_
      exact .bind (fails error rfl) fun _ => .done fun _ h => h

theorem resetAllowed {Q : Except ConsoleError Unit → Assertion i}
    (quiet : Quiet P)
    (halts : i.Meets P Call.haltWorker fun _ => A)
    (unloads : i.Meets A Call.unload fun _ => B)
    (dismantles : i.Meets B Call.dismantle fun _ => C)
    (zeroes : i.Meets C (alter fun c => { c with instructions := 0 }) fun _ => D)
    (blanks : i.Meets D (alter fun c => { c with snapshot := .powerOn }) fun _ => E)
    (sets : i.Meets E (Call.setUp host) Q) : i.Meets P (Call.reset host) Q := by
  refine .bind (Q := fun _ => P) (.look fun _ h => h) fun state => ?_
  refine .bind (Q := fun _ => P) (reportMeets quiet _) fun _ => ?_
  refine .bind halts fun _ => ?_
  refine .bind unloads fun _ => ?_
  refine .bind dismantles fun _ => ?_
  exact .bind zeroes fun _ => .bind blanks fun _ => sets

theorem stopAllowed {Q : Bool → Assertion i}
    (moves : i.Meets P (Call.move [.running, .paused] .stopping) fun moved => cond moved A H)
    (asks : i.Meets A (Call.control Control.requestStop) fun _ => B)
    (joins : i.Meets B Call.reclaim fun _ => C)
    (unloads : i.Meets C Call.unload fun _ => D)
    (idles : i.Meets D (Call.enter .idle) fun _ => Q true)
    (quiet : Quiet H)
    (late : i.Meets H Call.reclaim fun _ => Q false) : i.Meets P Call.stop Q := by
  refine .bind moves fun moved => ?_
  cases moved with
  | true =>
    refine .bind asks fun _ => ?_
    refine .bind joins fun _ => ?_
    refine .bind unloads fun _ => ?_
    exact .bind idles fun _ => .done fun _ h => h
  | false =>
    refine .bind (Q := fun _ => H) (refuseMeets quiet _) fun _ => ?_
    exact .bind late fun _ => .done fun _ h => h

theorem acceptAllowed {core : Core Unit} {image : LoadedImage} {stack : UInt64} {Q : Assertion i}
    (places : i.Meets P
      (alter fun c => { c with core := some (startCore core image stack), control := {} })
      fun _ => A)
    (shows : i.Meets A (Call.publish (startCore core image stack)) fun _ => B)
    (clears : i.Meets B (alter fun c => { c with queue := c.queue.clear }) fun _ => C)
    (blackens : i.Meets C (alter fun c => { c with queue := c.queue.push .clearBlack }) fun _ => D)
    (names : i.Meets D (alter fun c => { c with entry := some image.entry }) fun _ => E)
    (loads : i.Meets E (alter fun c => { c with programLoaded := true }) fun _ => F)
    (quiet : Quiet F)
    (idles : i.Meets F (Call.enter .idle) fun _ => Q) :
    i.Meets P (Call.accept core image stack) fun _ => Q := by
  refine .bind places fun _ => ?_
  refine .bind shows fun _ => ?_
  refine .bind clears fun _ => ?_
  refine .bind blackens fun _ => ?_
  refine .bind names fun _ => ?_
  refine .bind loads fun _ => ?_
  exact .bind (Q := fun _ => F) (reportMeets quiet _) fun _ => idles

theorem placeAllowed {core : Core Unit} {loader : Loader} {stack : UInt64}
    {Q : Except ConsoleError UInt64 → Assertion i}
    (boots : i.Meets P (Call.enter .booting) fun _ => A)
    (unloads : i.Meets A (alter fun c => { c with programLoaded := false }) fun _ => B)
    (forgets : i.Meets B (alter fun c => { c with entry := none }) fun _ => C)
    (places : i.Meets C (alter fun c => { c with
      core := some { core with memory := (loader core.memory).1 } }) fun _ => D)
    (accepts : ∀ image, (loader core.memory).2 = .loaded image →
      i.Meets D (Call.accept { core with memory := (loader core.memory).1 } image stack) fun _ =>
        Q (.ok image.entry))
    (quiet : Quiet D)
    (idles : ∀ error, (loader core.memory).2 = .failed error →
      i.Meets D (Call.enter .idle) fun _ => Q (.error (.load error)))
    (fails : ∀ words, (loader core.memory).2 = .crashed words →
      i.Meets D (Call.enter .error) fun _ => Q (.error (.crashed .load words))) :
    i.Meets P (Call.place core loader stack) Q := by
  refine .bind boots fun _ => ?_
  refine .bind unloads fun _ => ?_
  refine .bind forgets fun _ => ?_
  refine .bind places fun _ => ?_
  dsimp only
  cases outcome : (loader core.memory).2 with
  | loaded image => exact .bind (accepts image outcome) fun _ => .done fun _ h => h
  | failed error =>
    refine .bind (Q := fun _ => D) (reportMeets quiet _) fun _ => ?_
    exact .bind (idles error outcome) fun _ => .done fun _ h => h
  | crashed words =>
    refine .bind (Q := fun _ => D) (reportMeets quiet _) fun _ => ?_
    exact .bind (fails words outcome) fun _ => .done fun _ h => h

theorem loadAllowed {loader : Loader} {S : Lifecycle → Assertion i}
    {F : Option (Core Unit) → Assertion i} {K : Core Unit → Configuration → Assertion i}
    {Q : Except ConsoleError UInt64 → Assertion i}
    (looks : i.Meets P (look Console.state) S)
    (refuses : ∀ state, state ≠ .idle → Quiet (S state) ∧
      ∀ w, S state w → Q (.error (.invalidState .loadProgram state)) w)
    (reclaims : i.Meets (S .idle) Call.reclaim fun _ => A)
    (finds : i.Meets A (look Console.core) F)
    (lacks : ∀ w, F none w → Q (.error .notInitialized) w)
    (configures : ∀ core, i.Meets (F (some core)) (look config) (K core))
    (quiet : ∀ core config, Quiet (K core config))
    (exceeds : ∀ core config, AddressSpace.stackTop < config.stackReserve →
      ∀ w, K core config w → Q (.error (.stackReserve config.stackReserve)) w)
    (places : ∀ core config, ¬ AddressSpace.stackTop < config.stackReserve →
      i.Meets (K core config)
        (Call.place core loader (AddressSpace.stackTop - config.stackReserve)) Q) :
    i.Meets P (Call.load loader) Q := by
  refine .bind looks fun state => ?_
  split
  case isTrue busy =>
    obtain ⟨quiet, leaves⟩ := refuses state busy
    exact .bind (Q := fun _ => S state) (reportMeets quiet _) fun _ => .done leaves
  case isFalse idle =>
    obtain rfl : state = .idle := Decidable.of_not_not idle
    refine .bind reclaims fun _ => ?_
    refine .bind finds fun core => ?_
    cases core with
    | none => exact .done lacks
    | some core =>
      refine .bind (configures core) fun config => ?_
      dsimp only
      split
      case isTrue beyond =>
        exact .bind (Q := fun _ => K core config) (reportMeets (quiet core config) _) fun _ =>
          .done (exceeds core config beyond)
      case isFalse within => exact places core config within

theorem startWorkerAllowed {F : Option (Core Unit) → Assertion i} {L N : Core Unit → Assertion i}
    {Q : Bool → Assertion i}
    (reclaims : i.Meets P Call.reclaim fun _ => A)
    (finds : i.Meets A (look Console.core) F)
    (quiet : Quiet (F none))
    (lacks : ∀ w, F none w → Q false w)
    (moves : ∀ core, i.Meets (F (some core)) (Call.move [.idle] .running) fun moved =>
      cond moved (L core) (N core))
    (spawns : ∀ core, i.Meets (L core) (alter (Call.spawn core)) fun _ => Q true)
    (stays : ∀ core w, N core w → Q false w) : i.Meets P Call.startWorker Q := by
  refine .bind reclaims fun _ => ?_
  refine .bind finds fun core => ?_
  cases core with
  | none => exact .bind (Q := fun _ => F none) (reportMeets quiet _) fun _ => .done lacks
  | some core =>
    refine .bind (moves core) fun moved => ?_
    cases moved with
    | true => exact .bind (spawns core) fun _ => .done fun _ h => h
    | false => exact .done (stays core)

theorem switchAllowed {before after : Lifecycle} {f : Control → Control} {message : String}
    {Q : Bool → Assertion i}
    (moves : i.Meets P (Call.move [before] after) fun moved => cond moved A B)
    (asks : i.Meets A (Call.control f) fun _ => Q true)
    (quiet : Quiet B)
    (stays : ∀ w, B w → Q false w) :
    i.Meets P (do
      if ← Call.move [before] after then
        Call.control f
        return true
      else
        Call.refuse message
        return false) Q := by
  refine .bind moves fun moved => ?_
  cases moved with
  | true => exact .bind asks fun _ => .done fun _ h => h
  | false => exact .bind (Q := fun _ => B) (refuseMeets quiet _) fun _ => .done stays

theorem togglePauseAllowed {Q : Bool → Assertion i}
    (quiet : Quiet P)
    (pauses : i.Meets P Call.pause Q)
    (resumes : i.Meets P Call.resume Q)
    (stays : ∀ w, P w → Q false w) : i.Meets P Call.togglePause Q := by
  refine .bind (Q := fun _ => P) (.look fun _ h => h) fun state => ?_
  cases state with
  | running => exact pauses
  | paused => exact resumes
  | _ => exact .bind (Q := fun _ => P) (reportMeets quiet _) fun _ => .done stays

theorem runAllowed {F : Bool → Assertion i} {S : Lifecycle → Assertion i} {Q : Bool → Assertion i}
    (looks : i.Meets P (look programLoaded) F)
    (quiet : Quiet (F false))
    (unloaded : ∀ w, F false w → Q false w)
    (finds : i.Meets (F true) (look Console.state) S)
    (resumes : i.Meets (S .paused) Call.resume Q)
    (starts : i.Meets (S .idle) Call.startWorker Q)
    (refuses : ∀ state, state ≠ .paused → state ≠ .idle →
      Quiet (S state) ∧ ∀ w, S state w → Q false w) : i.Meets P Call.run Q := by
  refine .bind looks fun loaded => ?_
  cases loaded with
  | false => exact .bind (Q := fun _ => F false) (reportMeets quiet _) fun _ => .done unloaded
  | true =>
    refine .bind finds fun state => ?_
    have refused (paused : state ≠ .paused) (idle : state ≠ .idle) : i.Meets (S state) (do
        Call.report (.of .warn "run rejected" [("state", .text state.name)])
        return false) Q :=
      .bind (Q := fun _ => S state) (reportMeets (refuses state paused idle).1 _) fun _ =>
        .done (refuses state paused idle).2
    cases state with
    | paused => exact resumes
    | idle => exact starts
    | _ => exact refused (by simp) (by simp)

theorem launchAllowed {core : Core Unit} {R Q : Assertion i}
    (ready : ∀ w, P w → (i.state w).programLoaded = true ∧ (i.state w).state = .idle ∧
      (i.state w).worker = none ∧ (i.state w).core = some core)
    (moves : ∀ w, P w → i.allowed (i.state w) { i.state w with state := .running } ∧
      R (i.ours w { i.state w with state := .running }))
    (told : ∀ w before, R w → R (i.ours w ((i.state w).tell before .running)))
    (spawns : ∀ w, R w → i.allowed (i.state w) (Call.spawn core (i.state w)) ∧
      Q (i.ours w (Call.spawn core (i.state w)))) :
    i.Meets P Call.run fun _ => Q := by
  have starts : i.Meets P Call.startWorker fun _ => Q := by
    refine startWorkerAllowed (A := P) (F := fun held => P.given (held = some core))
      (L := fun held => R.given (held = core)) (N := fun _ => P.given False) ?_
      (.look fun w h => ⟨(ready w h).2.2.2, h⟩) (fun _ _ h => by cases h.1)
      (fun _ h => by cases h.1) (fun held => .given fun mine => ?_)
      (fun held => .given fun mine => ?_) fun _ _ h => h.1.elim
    · refine .bind (Q := fun worker => P.given (worker = none))
        (.look fun w h => ⟨(ready w h).2.2.1, h⟩) fun worker => .given fun none => ?_
      rw [none]
      exact .done fun _ h => h
    · cases mine
      refine moveAllowed [.idle] .running (fun w h _ => ?_) (fun w h other => ?_)
        fun w before h => ⟨rfl, told w before h.2⟩
      · exact ⟨(moves w h).1, rfl, (moves w h).2⟩
      · exact absurd (List.mem_singleton.mpr (ready w h).2.1) other
    · cases mine
      exact .alter spawns
  refine runAllowed (F := fun loaded => P.given (loaded = true))
    (S := fun state : Lifecycle => P.given (state = .idle))
    (.look fun w h => ⟨(ready w h).1, h⟩) (fun _ _ h => by cases h.1) (fun _ h => by cases h.1)
    (.given fun _ => .look fun w h => ⟨(ready w h).2.1, h⟩) (.given nofun)
    (.given fun _ => starts) fun state _ other => ?_
  exact ⟨fun _ _ h => absurd h.1 other, fun _ h => absurd h.1 other⟩

end Contracts

end GameConsole.Console
