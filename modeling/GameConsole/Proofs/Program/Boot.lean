import GameConsole.Program.Bios
import GameConsole.Proofs.Program.Assembly
import GameConsole.Proofs.Syscall.Footprint

/-! The program that runs when no other is given runs for ever. Its calls find the arguments that
the moves before them have set, and none of them writes to where the program lies, so that the loop
comes round to where it began. -/
namespace GameConsole

namespace Bios
open Assembly (startOf size)
open Memory (Reach)
open Syscall

def image : List (UInt64 × List UInt8) :=
  [(entry, program), (bannerAddress, bannerBytes),
   (bannerAddress + bannerBytes.length.toUInt64, [0])]

def padRange : Reach := ⟨padBuffer, 0x68, 8⟩

def extent : Nat := 0x400

def Near (r : Reach) : Prop :=
  entry.toNat ≤ r.address.toNat ∧ 0 < r.width ∧ r.address.toNat + r.width ≤ entry.toNat + extent

instance (r : Reach) : Decidable (Near r) := by unfold Near; infer_instance

def reach (part : UInt64 × List UInt8) : Reach := ⟨part.1, part.2.length, 1⟩

theorem padRangeNear : Near padRange := by decide

theorem imageNear : ∀ part ∈ image, Near (reach part) := by decide +kernel

theorem imageAscends :
    image.Pairwise fun p q =>
      (reach p).address.toNat + (reach p).width ≤ (reach q).address.toNat := by
  decide +kernel

theorem imageBelowPad :
    ∀ part ∈ image, (reach part).address.toNat + (reach part).width ≤ padRange.address.toNat := by
  decide +kernel

theorem uncrossedNear {part : UInt64 × List UInt8} (near : Near (reach part)) :
    Memory.Uncrossed part.1 part.2.length := by
  obtain ⟨above, filled, inside⟩ := near
  have short : entry.toNat + extent ≤ 2 ^ 64 := by decide
  exact ⟨Nat.le_trans inside short, .inr above⟩

theorem startAbove {r : Reach} (above : entry.toNat ≤ r.address.toNat) (m : Memory) :
    r.start m = (r.address.toNat - entry.toNat) % 2 ^ m.bits := by
  have base : Memory.deduction r.address = entry.toNat :=
    if_pos (UInt64.le_iff_toNat_le.mpr above)
  have counted := Memory.rebaseDeduction r.address
  have rebased : (Memory.rebase r.address).toNat = r.address.toNat - entry.toNat := by omega
  rw [Reach.start, Memory.translateToNat, rebased]

section Room
variable {m : Memory} (room : extent ≤ m.size.toNat)
include room

theorem startNear {r : Reach} (near : Near r) : r.start m = r.address.toNat - entry.toNat := by
  obtain ⟨above, filled, inside⟩ := near
  rw [Memory.sizeToNat] at room
  rw [startAbove above, Nat.mod_eq_of_lt (by omega)]

theorem grantedNear {r : Reach} (near : Near r) (aligned : r.align ∣ r.address.toNat) :
    r.Granted m := by
  have start := startNear room near
  obtain ⟨above, filled, inside⟩ := near
  rw [Memory.sizeToNat] at room
  exact ⟨Memory.fitsIff.mpr (by unfold Reach.start at start; omega), fun _ => aligned⟩

theorem apartNear {r q : Reach} (first : Near r) (second : Near q)
    (before : r.address.toNat + r.width ≤ q.address.toNat) : r.Apart q m := by
  have low := first.1
  rw [Reach.Apart, startNear room first, startNear room second]
  omega

end Room

theorem writeAllHolds {parts : List (UInt64 × List UInt8)} {m : Memory}
    (granted : ∀ part ∈ parts, (reach part).Granted m)
    (range : ∀ part ∈ parts, Memory.Uncrossed part.1 part.2.length)
    (apart : parts.Pairwise fun p q => (reach q).Apart (reach p) m) :
    ∃ after, writeAll parts m = (after, none) ∧ m.Confined after (parts.map reach) ∧
      ∀ part ∈ parts, after.Holds part.1 part.2 := by
  induction parts generalizing m with
  | nil => exact ⟨m, rfl, .refl m _, nofun⟩
  | cons part rest ih =>
    rw [List.forall_mem_cons] at granted range
    rw [List.pairwise_cons] at apart
    have written := Memory.writeBlockOkIff.mpr ⟨granted.1, rfl⟩
    have changed := Memory.storeConfined granted.1 rfl
    obtain ⟨after, placed, confined, held⟩ := ih (m := m.store _ part.2)
      granted.2 range.2 apart.2
    refine ⟨after, ?_, changed.trans confined, ?_⟩
    · rw [writeAll, written]
      exact placed
    · rw [List.forall_mem_cons]
      refine ⟨(Memory.holdsWritten range.1 written).kept confined fun r member => ?_, held⟩
      obtain ⟨later, among, rfl⟩ := List.mem_map.mp member
      exact apart.1 later among

theorem loadHolds {m : Memory} (room : extent ≤ m.size.toNat) :
    (load m).2 = .loaded ⟨entry, "internal BIOS"⟩ ∧ (load m).1.size = m.size ∧
      ∀ part ∈ image, (load m).1.Holds part.1 part.2 := by
  have apart : image.Pairwise fun p q => (reach q).Apart (reach p) m := by
    refine imageAscends.imp_of_mem fun first second ascends => ?_
    exact (apartNear room (imageNear _ first) (imageNear _ second) ascends).symm
  obtain ⟨after, written, confined, held⟩ := writeAllHolds
    (fun part member => grantedNear room (imageNear part member) (Nat.one_dvd _))
    (fun part member => uncrossedNear (imageNear part member)) apart
  have loads : load m = (after, .loaded ⟨entry, "internal BIOS"⟩) := by
    rw [load, ← image, written]
  rw [loads]
  obtain ⟨contents, rfl⟩ := confined.shape
  exact ⟨rfl, rfl, held⟩

theorem imageKept {m after : Memory} (room : extent ≤ m.size.toNat)
    (held : ∀ part ∈ image, m.Holds part.1 part.2) (changed : m.Confined after [padRange]) :
    ∀ part ∈ image, after.Holds part.1 part.2 := by
  intro part member
  refine (held part member).kept changed fun r among => ?_
  cases List.mem_singleton.mp among
  exact (apartNear room (imageNear part member) padRangeNear (imageBelowPad part member)).symm

def turn (n : Nat) : Nat :=
  if n < startUp.length then n else startUp.length + (n - startUp.length) % poll.length

def following (i : Nat) : Nat :=
  match statements[i]? with
  | some (.jump target) => target
  | _ => i + 1

def calling (i : Nat) : Bool := statements[i]? = some .syscall

def calls (n : Nat) : Nat := (List.range n).countP fun k => calling (turn k)

theorem turnLt (n : Nat) : turn n < statements.length := by
  have lengths : startUp.length = 7 ∧ poll.length = 6 ∧ statements.length = 13 := by decide
  simp only [turn, lengths]
  split <;> omega

theorem turnNext (n : Nat) : turn (n + 1) = following (turn n) := by
  have lengths : startUp.length = 7 ∧ poll.length = 6 := by decide
  obtain ⟨starting, polling⟩ := lengths
  have first : ∀ k < 6, following k = k + 1 := by decide
  have later : ∀ k < 6, following (7 + k) = 7 + (k + 1) % 6 := by decide
  simp only [turn, starting, polling]
  obtain early | last | late : n < 6 ∨ n = 6 ∨ 6 < n := by omega
  · rw [if_pos (by omega), if_pos (by omega), first n early]
  · subst last
    rfl
  · rw [if_neg (by omega), if_neg (by omega), later _ (Nat.mod_lt _ (by decide))]
    omega

theorem turnAgain {n : Nat} (started : startUp.length ≤ n) : turn (n + poll.length) = turn n := by
  unfold turn
  rw [if_neg (by omega), if_neg (by omega), Nat.sub_add_comm started, Nat.add_mod_right]

theorem callsNext (n : Nat) : calls (n + 1) = calls n + if calling (turn n) then 1 else 0 := by
  rw [calls, List.range_succ, List.countP_append, List.countP_singleton]
  rfl

theorem callsMonotone {n k : Nat} (later : n ≤ k) : calls n ≤ calls k := by
  induction later with
  | refl => exact Nat.le_refl _
  | step _ ih =>
    rw [callsNext]
    exact Nat.le_add_right_of_le ih

theorem callsRound :
    calls startUp.length = 2 ∧ ∀ n ≥ startUp.length, calls (n + poll.length) = calls n + 1 := by
  refine ⟨by decide, fun n started => ?_⟩
  induction started with
  | refl => decide
  | step started ih =>
    rename_i n
    rw [callsNext n, Nat.succ_eq_add_one, Nat.add_right_comm, callsNext, ih, turnAgain started]
    omega

theorem callPlaces {i : Nat} (call : calling i) : i = 4 ∨ i = 6 ∨ i = 10 := by
  have inside : i < statements.length := by
    have found := of_decide_eq_true call
    exact (List.getElem?_eq_some_iff.mp found).1
  revert call
  exact (by decide : ∀ i < statements.length, calling i → i = 4 ∨ i = 6 ∨ i = 10) i inside

theorem firstCall {n : Nat} (call : calling (turn n)) : turn n = 4 ↔ calls n = 0 := by
  have starting : startUp.length = 7 := by decide
  constructor
  · intro first
    have here : n = 4 := by
      unfold turn at first
      split at first <;> omega
    subst here
    decide
  · intro none
    have early : ¬ 5 ≤ n := fun late => by
      have some := callsMonotone late
      have one : calls 5 = 1 := by decide
      omega
    have here : turn n = n := if_pos (by omega)
    obtain first | second | third := callPlaces call <;> omega

def prepared (r : Register) : Nat → Option UInt64
  | 0 => none
  | i + 1 =>
    match statements[i]? with
    | some (.moveSigned target value) =>
      if target = r then some (Reference.signed value.toNat) else prepared r i
    | some (.move target value) => if target = r then some value else prepared r i
    | some .pause => prepared r i
    | _ => none

def Ready (i : Nat) (s : Registers) : Prop := ∀ r value, prepared r i = some value → s.get r = value

theorem readySet {i : Nat} {s : Registers} {target : Register} {value : UInt64}
    (ready : Ready i s)
    (prepares : ∀ r, prepared r (i + 1) = if target = r then some value else prepared r i) :
    Ready (i + 1) (s.set target value) := by
  intro r found
  rw [prepares, Registers.getSet]
  split
  · exact Option.some.inj
  · exact ready r found

structure Answers (table : Directory UInt64 (Handler Devices)) : Prop where
  write : table.find? Number.write = some Kernel.write
  init : table.find? Number.audioOutInit = some (Audio.init (NullAudio.backend Devices.audioPart))
  read : table.find? Number.padReadState = some (Pad.read (NullPad.backend Devices.padPart))

def services (neoMode : Bool) : List (Module Devices) :=
  [Devices.kernelModule neoMode, Devices.audioModule, Devices.padModule]

theorem servicesAnswer {neoMode : Bool} {order : List (Module Devices)}
    (installed : order.Perm (services neoMode)) :
    Answers (Dispatcher.empty.installAll order).1.handlers := by
  have among : order.Subperm (Devices.modules neoMode) := by
    refine installed.subperm.trans (List.Sublist.subperm ?_)
    exact List.sublist_append_left (services neoMode) [Devices.graphicsModule]
  have finds {m : Module Devices} (present : m ∈ services neoMode)
      {entry : UInt64 × Handler Devices} (listed : entry ∈ m.handlers) :=
    builtInFinds _ _ _ _ _ among (installed.mem_iff.mpr present) listed
  exact ⟨finds (.head _) (.tail _ (.head _)), finds (.tail _ (.head _)) (.head _),
    finds (.tail _ (.tail _ (.head _))) (.head _)⟩

structure Serviced (g : Guest (Hosted Devices)) (result : UInt64) : Prop where
  registers : (Hosted.dispatch g).registers = g.registers.set .rax result
  memory : g.memory.Confined (Hosted.dispatch g).memory [padRange]
  dispatcher : (Hosted.dispatch g).devices.dispatcher =
    { g.devices.dispatcher with total := g.devices.dispatcher.total + 1 }

theorem servicedBy {g : Guest (Hosted Devices)} {handler : Handler Devices}
    {ranges : Arguments → List Reach} (result : Int64)
    (place : g.devices.dispatcher.handlers.find? (g.registers.get .rax) = some handler)
    (stays : handler.Stays ranges)
    (inside : ranges (.ofRegisters g.registers) ⊆ [padRange])
    (value : ∀ h : Guest Devices, h.memory = g.memory →
      (handler (.ofRegisters g.registers) h).1.value = result) :
    Serviced g result.toUInt64 := by
  let inner : Guest Devices := ⟨g.registers, g.memory, g.devices.devices, g.journal⟩
  have counted := Dispatcher.dispatchFound (g := inner) place
  obtain ⟨registers, memory, -⟩ := Dispatcher.dispatchServes (g := inner) place
  obtain ⟨same, confined⟩ := stays (.ofRegisters g.registers)
    (inner.note (Dispatcher.call g.registers))
  refine ⟨?_, ?_, congrArg Prod.fst counted⟩
  · refine registers.trans ?_
    rw [same, value _ rfl]
    rfl
  · refine Memory.Confined.widen ?_ inside
    have unchanged : (Hosted.dispatch g).memory = _ := memory
    rw [unchanged]
    exact confined

section Services
variable {g : Guest (Hosted Devices)} (answers : Answers g.devices.dispatcher.handlers)
include answers

theorem bannerWritten (ready : Ready 4 g.registers)
    (held : g.memory.Holds bannerAddress bannerBytes) : Serviced g 28 := by
  have number : g.registers.get .rax = Number.write := ready .rax _ rfl
  have address : g.registers.get .rsi = bannerAddress := ready .rsi _ rfl
  have length : g.registers.get .rdx = 28 := ready .rdx _ (by decide +kernel)
  have solid : 0 ∉ bannerBytes := by decide +kernel
  have whole : bannerBytes.length = 28 := by decide +kernel
  have place : g.devices.dispatcher.handlers.find? (g.registers.get .rax) = some Kernel.write :=
    number ▸ answers.write
  refine servicedBy 28 place (Kernel.writeSpares.tidy fun _ => []).stays nofun fun h same => ?_
  have said : h.memory.readCString (g.registers.get .rsi)
      (min (g.registers.get .rdx).toNat Kernel.writeLimit) = .ok bannerBytes := by
    rw [same, address, length]
    have text := held.text solid
    rw [whole] at text
    exact text
  simp only [Kernel.write, Arguments.ofRegisters, said, whole]
  rfl

theorem soundStarted (ready : Ready 6 g.registers) : Serviced g 0 := by
  have number : g.registers.get .rax = Number.audioOutInit := ready .rax _ rfl
  have spares : (Audio.init (NullAudio.backend Devices.audioPart)).Spares := fun _ _ => ⟨rfl, rfl⟩
  exact servicedBy 0 (number ▸ answers.init) (spares.tidy fun _ => []).stays nofun fun _ _ => rfl

theorem padRead (ready : Ready 10 g.registers) (room : extent ≤ g.memory.size.toNat) :
    Serviced g 0 := by
  have number : g.registers.get .rax = Number.padReadState := ready .rax _ rfl
  have address : g.registers.get .rsi = padBuffer := ready .rsi _ rfl
  refine servicedBy 0 (number ▸ answers.read) (Pad.readTidy _).stays ?_ ?_
  · intro r member
    rw [Arguments.ofRegisters, address] at member
    exact member
  · intro h same
    have granted : padRange.Granted h.memory := by
      rw [same]
      exact grantedNear room padRangeNear (by decide)
    have written (data : PadData) :
        h.memory.write padBuffer data = .ok (h.memory.store _ (PlainData.encode data)) :=
      (Memory.rangeFirst (by decide) _).mpr ⟨granted, rfl⟩
    have pointed : (Arguments.ofRegisters g.registers).second = padBuffer := address
    have there : padBuffer ≠ 0 := by decide
    simp only [Pad.read, pointed, if_neg there, written]
    rfl

end Services

/- The guest when a statement is next, so many calls after `loaded` was brought into memory. -/
structure Keeping (loaded : Memory) (i count : Nat) (g : Guest (Hosted Devices)) : Prop where
  rip : g.registers.rip = entry + (startOf statements i).toUInt64
  ready : Ready i g.registers
  memory : loaded.Confined g.memory [padRange]
  answers : Answers g.devices.dispatcher.handlers
  total : g.devices.dispatcher.total = count
  unimplemented : g.devices.dispatcher.unimplemented = 0

structure Loaded (loaded : Memory) : Prop where
  room : extent ≤ loaded.size.toNat
  image : ∀ part ∈ image, loaded.Holds part.1 part.2

theorem Loaded.kept {loaded m : Memory} (has : Loaded loaded)
    (changed : loaded.Confined m [padRange]) : Loaded m := by
  refine ⟨?_, imageKept has.room has.image changed⟩
  obtain ⟨contents, rfl⟩ := changed.shape
  exact has.room

section Step
variable {loaded : Memory} {i count : Nat} {g : Guest (Hosted Devices)}

theorem serviced (has : Loaded loaded) (memory : loaded.Confined g.memory [padRange])
    (answers : Answers g.devices.dispatcher.handlers) (ready : Ready i g.registers)
    (call : calling i) : Serviced g (if i = 4 then 28 else 0) := by
  obtain ⟨room, held⟩ := has.kept memory
  obtain rfl | rfl | rfl := callPlaces call
  · exact bannerWritten answers ready (held _ (.tail _ (.head _)))
  · exact soundStarted answers ready
  · exact padRead answers ready room

theorem jumpReady {target : Nat} (found : statements[i]? = some (.jump target))
    (s : Registers) : Ready target s := by
  have loop : target = startUp.length := by
    simpa [statements, startUp, poll] using List.mem_of_getElem? found
  subst loop
  exact fun r value none => by cases none

theorem callReady (call : statements[i]? = some .syscall) (s : Registers) : Ready (i + 1) s := by
  intro r value none
  rw [prepared, call] at none
  cases none

theorem Keeping.moveOn (keeping : Keeping loaded i count g) {k : Nat} {s : Registers}
    (rip : s.rip = entry + (startOf statements k).toUInt64) (ready : Ready k s) :
    Keeping loaded k count { g with registers := s } :=
  ⟨rip, ready, keeping.memory, keeping.answers, keeping.total, keeping.unimplemented⟩

theorem Keeping.call (keeping : Keeping loaded i count g) {result : UInt64}
    (serviced : Serviced g result) (ready : Ready i (Hosted.dispatch g).registers) :
    Keeping loaded i (count + 1) (Hosted.dispatch g) := by
  obtain ⟨registers, memory, dispatcher⟩ := serviced
  refine ⟨?_, ready, (keeping.memory.trans memory).widen (by simp), ?_, ?_, ?_⟩
  · rw [registers]
    exact keeping.rip
  · rw [dispatcher]
    exact keeping.answers
  · rw [dispatcher, ← keeping.total]
  · rw [dispatcher]
    exact keeping.unimplemented

theorem Keeping.step {s : Statement} (keeping : Keeping loaded i count g) (has : Loaded loaded)
    (found : statements[i]? = some s) (control : Control) :
    let result := s.effect (some Hosted.handler) control statements entry
      (entry + (startOf statements (i + 1)).toUInt64) g
    Keeping loaded (following i) (count + if calling i then 1 else 0) result.1 ∧
      (calling i → result.1.registers.get .rax = if i = 4 then 28 else 0) ∧ result.2 = [] := by
  unfold following calling
  rw [found]
  cases s with
  | moveSigned target value =>
    have ready := readySet keeping.ready fun r => by rw [prepared, found]
    exact ⟨keeping.moveOn rfl ready, nofun, rfl⟩
  | move target value =>
    have ready := readySet keeping.ready fun r => by rw [prepared, found]
    exact ⟨keeping.moveOn rfl ready, nofun, rfl⟩
  | syscall =>
    have moved := keeping.moveOn (k := i + 1) (s := g.registers.jump _) rfl (callReady found _)
    have served : Serviced (g.jump _) (if i = 4 then 28 else 0) :=
      serviced has moved.memory moved.answers keeping.ready (by rw [calling, found]; rfl)
    refine ⟨moved.call served (callReady found _), fun _ => ?_, rfl⟩
    exact (congrArg (Registers.get · .rax) served.registers).trans (Registers.getSetSelf _ _ _)
  | pause =>
    have ready : Ready (i + 1) g.registers := fun r value => by
      rw [prepared, found]
      exact keeping.ready r value
    exact ⟨keeping.moveOn rfl ready, nofun, rfl⟩
  | jump target => exact ⟨keeping.moveOn rfl (jumpReady found _), nofun, rfl⟩

end Step

structure Underway (loaded : Memory) (n : Nat) (m : Machine (Hosted Devices)) : Prop
    extends Keeping loaded (turn n) (calls n) m.core.toGuest where
  active : m.mode.isFinal = false
  retired : m.core.retired = n
  faultless : m.core.lastFault = none

theorem Underway.step {loaded : Memory} {n : Nat} {m : Machine (Hosted Devices)}
    (underway : Underway loaded n m) (has : Loaded loaded) :
    let after := (m.step (some Hosted.handler)).1
    Underway loaded (n + 1) after ∧ after.mode = .running ∧
      (calling (turn n) → after.core.registers.get .rax = if calls n = 0 then 28 else 0) := by
  intro after
  obtain ⟨s, found⟩ : ∃ s, statements[turn n]? = some s :=
    ⟨_, List.getElem?_eq_getElem (turnLt n)⟩
  obtain ⟨keeping, result, silent⟩ := underway.toKeeping.step has found (m.control.enter .running)
  have holds := (has.kept underway.memory).image _ (.head _)
  have small : size statements < 2 ^ 31 := by decide
  have stepped : m.step (some Hosted.handler) = _ := Statement.heldStatementExecutes
    (some Hosted.handler) small holds underway.active found underway.rip
  have here : after = _ := congrArg Prod.fst stepped
  rw [silent] at here
  rw [← turnNext, ← callsNext] at keeping
  rw [here]
  refine ⟨⟨keeping, rfl, ?_, underway.faultless⟩, rfl, fun call => ?_⟩
  · exact congrArg (· + 1) underway.retired
  · rw [if_congr (firstCall call).symm rfl rfl]
    exact result call

theorem stepsUnderway {loaded : Memory} {m : Machine (Hosted Devices)} (has : Loaded loaded)
    (begun : Underway loaded 0 m) (n : Nat) :
    Underway loaded n (m.steps (some Hosted.handler) n) := by
  induction n with
  | zero => exact begun
  | succ n ih => exact (ih.step has).1

def booted (m : Memory) (registers : Registers) (devices : Devices) (journal : Journal)
    (order : List (Module Devices)) : Machine (Hosted Devices) :=
  let fresh := Machine.start (load m).1 ⟨(Dispatcher.empty.installAll order).1, devices⟩ journal
  { fresh with core.registers := registers.jump entry }

/- Whatever memory, registers and devices there are, and in whatever order the services have been
installed: no step fails, and all that changes in memory is the state of the pad. -/
theorem pollsForEver {m : Memory} (room : 0x400 ≤ m.size) (registers : Registers)
    (devices : Devices) (journal : Journal) (neoMode : Bool) {order : List (Module Devices)}
    (installed : order.Perm (services neoMode)) :
    let after := (booted m registers devices journal order).steps (some Hosted.handler)
    (load m).2 = .loaded ⟨entry, "internal BIOS"⟩ ∧
    (∀ n ≥ 1,
      (after n).mode = .running ∧ (after n).core.lastFault = none ∧
      (after n).core.retired = n ∧
      (after n).core.registers.rip = entry + (startOf statements (turn n)).toUInt64 ∧
      (∀ part ∈ image, (after n).core.memory.Holds part.1 part.2) ∧
      (load m).1.Confined (after n).core.memory [padRange] ∧
      (after n).core.devices.dispatcher.total = calls n ∧
      (after n).core.devices.dispatcher.unimplemented = 0) ∧
    (∀ n, calling (turn n) →
      (after (n + 1)).core.registers.get .rax = if calls n = 0 then 28 else 0) ∧
    startUp.length = 7 ∧ poll.length = 6 ∧ calls startUp.length = 2 ∧
    ∀ n ≥ startUp.length, calls (n + poll.length) = calls n + 1 := by
  intro after
  have space : extent ≤ m.size.toNat := UInt64.le_iff_toNat_le.mp room
  obtain ⟨result, size, held⟩ := loadHolds space
  have has : Loaded (load m).1 := ⟨size ▸ space, held⟩
  obtain ⟨total, unimplemented⟩ := Dispatcher.empty.installAllCounts order
  have origin : Underway (load m).1 0 (booted m registers devices journal order) :=
    { rip := rfl, ready := nofun, memory := .refl _ _, answers := servicesAnswer installed
      total, unimplemented, active := rfl, retired := rfl, faultless := rfl }
  have underway := stepsUnderway has origin
  refine ⟨result, fun n positive => ?_, fun n => ((underway n).step has).2.2, rfl, rfl, callsRound⟩
  obtain ⟨before, rfl⟩ := Nat.exists_eq_add_of_le' positive
  have now := underway (before + 1)
  exact ⟨((underway before).step has).2.1, now.faultless, now.retired, now.rip,
    (has.kept now.memory).image, now.memory, now.total, now.unimplemented⟩

theorem pollsForEverInLittleRoom :
    let m := Memory.zeros 10 (by decide) true
    let order := (services true).reverse
    let after := (booted m .powerOn (.initial 8) .empty order).steps (some Hosted.handler) 25
    0x400 ≤ m.size ∧ order.Perm (services true) ∧ after.mode = .running ∧
      after.core.registers.rip = entry + 42 ∧ after.core.devices.dispatcher.total = 5 := by
  intro m order
  have room : 0x400 ≤ m.size := by decide
  have installed : order.Perm (services true) := List.reverse_perm _
  have runs := (pollsForEver room .powerOn (.initial 8) .empty true installed).2.1
  obtain ⟨running, -, -, rip, -, -, total, -⟩ := runs 25 (by decide)
  have place : (startOf statements (turn 25)).toUInt64 = 42 := by decide
  have counted : calls 25 = 5 := by decide
  refine ⟨room, installed, running, rip.trans ?_, total.trans counted⟩
  rw [place]

end Bios
end GameConsole
