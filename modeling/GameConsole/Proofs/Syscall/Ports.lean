import GameConsole.Proofs.Syscall.Footprint

/-! The accounts of the audio device. Which ports are open, with how many samples each, and how
many bytes have been played is told from the calls alone; the device, which counts the bytes in 64
bits, agrees with it, whatever the calls were and whatever memory the guests had. -/
namespace GameConsole.Syscall

open Memory (Reach)

namespace Number

def audio : List UInt64 :=
  [audioOutInit, audioOutOpen, audioOutClose, audioOutOutput, audioOutOutputs, audioOutSetVolume,
    audioOutGetPortState, audioOutGetSystemState]

end Number

namespace Audio

variable {g : Guest Devices} {past : List (Guest Devices)} {now next : NullAudio}

section Requests
variable (g : Guest Devices)

def Opens : Prop := g.registers.get .rax = Number.audioOutOpen
def Closes : Prop := g.registers.get .rax = Number.audioOutClose
def Plays : Prop :=
  g.registers.get .rax = Number.audioOutOutput ∨ g.registers.get .rax = Number.audioOutOutputs
def Tunes : Prop := g.registers.get .rax = Number.audioOutSetVolume

instance : Decidable (Opens g) := by unfold Opens; infer_instance
instance : Decidable (Closes g) := by unfold Closes; infer_instance
instance : Decidable (Plays g) := by unfold Plays; infer_instance

def handle : Int32 := (g.registers.get .rdi).toUInt32.toInt32

def samplesAsked : UInt32 := (g.registers.get .r10).toUInt32

def soundGiven (samples : Option UInt32) : Option Nat :=
  samples.bind fun count =>
    if g.registers.get .rsi ≠ 0 ∧ g.memory.fits (g.registers.get .rsi) (4 * count.toNat) then
      some (4 * count.toNat)
    else none

def volumeAsked : Except MemoryFault Float32 :=
  if g.registers.get .rdx = 0 then .ok 1
  else (g.memory.readU32 (g.registers.get .rdx)).map fun raw => raw.toInt32.toFloat32 / 32767

end Requests

def openings (past : List (Guest Devices)) : Nat := past.countP fun g => Opens g

/- The samples of one output on a port, if the port has been opened and not closed since. The first
port that is opened is number one, and each further one gets the next number. -/
def portSamples (port : Int32) : List (Guest Devices) → Option UInt32
  | [] => none
  | g :: past =>
    if Opens g ∧ port.toInt = openings past + 1 then some (samplesAsked g)
    else if Closes g ∧ port = handle g then none
    else portSamples port past

def played : List (Guest Devices) → Nat
  | [] => 0
  | g :: past =>
    if Plays g then played past + (soundGiven g (portSamples (handle g) past)).getD 0
    else played past

theorem openingsMore (opening : Opens g) : openings (g :: past) = openings past + 1 := by
  simp [openings, opening]

theorem openingsSame (other : ¬ Opens g) : openings (g :: past) = openings past := by
  simp [openings, other]

theorem openingsMonotone : openings past ≤ openings (g :: past) := by
  unfold openings
  rw [List.countP_cons]
  exact Nat.le_add_right _ _

structure Agrees (past : List (Guest Devices)) (now : NullAudio) : Prop where
  last : now.lastHandle.toInt = openings past
  ports : ∀ port, now.sampleCount port = portSamples port past
  volumes : ∀ port, now.volumes.contains port = (portSamples port past).isSome
  bytes : now.bytesOutput = (played past).toUInt64

theorem initialAgrees : Agrees [] .initial where
  last := rfl
  ports _ := rfl
  volumes _ := rfl
  bytes := rfl

structure Serves (g : Guest Devices) (samples : Option UInt32) (now next : NullAudio)
    (answer : Int64) : Prop where
  opening : Opens g → ∃ params : PortParams, params.sampleCount = samplesAsked g ∧
    answer = (now.lastHandle + 1).toInt64 ∧ next = (now.openPort params).2
  closing : Closes g → answer = (if samples.isSome then 0 else -1) ∧
    next = (now.closePort (handle g)).2
  playing : Plays g → ∀ bytes, soundGiven g samples = some bytes →
    answer = 0 ∧ next = { now with bytesOutput := now.bytesOutput + bytes.toUInt64 }
  silent : Plays g → soundGiven g samples = none → answer = -1 ∧ next = now
  faulting : Tunes g → ∀ fault, volumeAsked g = .error fault → answer = -14 ∧ next = now
  tuning : Tunes g → ∀ volume, volumeAsked g = .ok volume → samples.isSome = true → answer = 0 ∧
    ∃ volumes, next = { now with volumes } ∧ ∀ port, volumes.find? port =
      if handle g = port then some volume else now.volumes.find? port
  idle : Tunes g → ∀ volume, volumeAsked g = .ok volume → samples = none → answer = -1 ∧ next = now
  other : ¬ Opens g → ¬ Closes g → ¬ Plays g → ¬ Tunes g →
    ∃ initialized, next = { now with initialized }

theorem containsSampled (now : NullAudio) (port : Int32) :
    now.ports.contains port = (now.sampleCount port).isSome := by
  simp [Directory.contains, NullAudio.sampleCount]

section Handlers

variable (g : Guest Devices) (journal : Journal)

theorem outputAnswers (given : g.registers.get .rsi ≠ 0) :
    let samples := (g.devices.audio.sampleCount (handle g)).getD defaultSampleCount
    let after := output (NullAudio.backend Devices.audioPart) (.ofRegisters g.registers)
      { g with journal }
    (after.1.value, after.2.devices.audio) =
      match g.memory.slice (g.registers.get .rsi) (samples.toNat * bytesPerFrame).toUInt64 with
      | .error _ => (-1, g.devices.audio)
      | .ok pcm => ((g.devices.audio.output (handle g) pcm.length).1.toInt64,
        (g.devices.audio.output (handle g) pcm.length).2) := by
  intro samples after
  have served : after =
      match g.memory.slice (g.registers.get .rsi) (samples.toNat * bytesPerFrame).toUInt64 with
      | .error fault => (.failed (-1) fault.message, { g with journal })
      | .ok pcm =>
        let (status, devices) :=
          (NullAudio.backend Devices.audioPart).output (handle g) pcm g.devices
        (.status status.toInt64, { g with devices, journal }) := if_neg given
  rw [served]
  cases g.memory.slice (g.registers.get .rsi) (samples.toNat * bytesPerFrame).toUInt64 with
  | error fault => rfl
  | ok pcm => rfl

theorem soundSliced (given : g.registers.get .rsi ≠ 0) (count : UInt32) :
    soundGiven g (some count) =
      match g.memory.slice (g.registers.get .rsi) (count.toNat * bytesPerFrame).toUInt64 with
      | .error _ => none
      | .ok pcm => some pcm.length := by
  have length : (count.toNat * bytesPerFrame).toUInt64.toNat = 4 * count.toNat := by
    have small := count.toNat_lt
    simp [bytesPerFrame]
    omega
  cases slice : g.memory.slice (g.registers.get .rsi) (count.toNat * bytesPerFrame).toUInt64 with
  | error fault =>
    have outside : ¬ g.memory.fits (g.registers.get .rsi) (4 * count.toNat) = true := by
      intro fits
      rw [← length] at fits
      have granted : Reach.Granted ⟨g.registers.get .rsi, _, 1⟩ g.memory :=
        ⟨fits, fun _ => Nat.one_dvd _⟩
      cases slice.symm.trans (Memory.sliceOkIff.mpr ⟨granted, rfl⟩)
    simp [soundGiven, outside]
  | ok pcm =>
    obtain ⟨⟨fits, -⟩, rfl⟩ := Memory.sliceOkIff.mp slice
    simp only [length] at fits ⊢
    simp [soundGiven, given, fits]

theorem outputPlays :
    let after := output (NullAudio.backend Devices.audioPart) (.ofRegisters g.registers)
      { g with journal }
    (after.1.value, after.2.devices.audio) =
      match soundGiven g (g.devices.audio.sampleCount (handle g)) with
      | none => (-1, g.devices.audio)
      | some bytes =>
        (0, { g.devices.audio with
          bytesOutput := g.devices.audio.bytesOutput + bytes.toUInt64 }) := by
  intro after
  by_cases null : g.registers.get .rsi = 0
  · have served : after = (.failed (-1) "null PCM pointer", { g with journal }) := if_pos null
    have nothing : soundGiven g (g.devices.audio.sampleCount (handle g)) = none := by
      simp [soundGiven, null]
    rw [served, nothing]
    rfl
  have known := containsSampled g.devices.audio (handle g)
  rw [outputAnswers g journal null]
  cases samples : g.devices.audio.sampleCount (handle g) with
  | none =>
    have refused (bytes : Nat) : g.devices.audio.output (handle g) bytes =
        (NullAudio.invalidPort, g.devices.audio) := by
      simp [NullAudio.output, known, samples]
    simp only [refused]
    split <;> rfl
  | some count =>
    have taken (bytes : Nat) : g.devices.audio.output (handle g) bytes =
        (0, { g.devices.audio with
          bytesOutput := g.devices.audio.bytesOutput + bytes.toUInt64 }) := by
      simp [NullAudio.output, known, samples]
    simp only [taken, Option.getD_some, soundSliced g null]
    split <;> rfl

theorem setVolumeTunes :
    let after := setVolume (NullAudio.backend Devices.audioPart) (.ofRegisters g.registers)
      { g with journal }
    (after.1.value, after.2.devices.audio) =
      match volumeAsked g with
      | .error _ => (-14, g.devices.audio)
      | .ok volume => ((g.devices.audio.setVolume (handle g) volume).1.toInt64,
        (g.devices.audio.setVolume (handle g) volume).2) := by
  intro after
  by_cases null : g.registers.get .rdx = 0
  · have asked : volumeAsked g = .ok 1 := if_pos null
    have served : after = setVolumeTo (NullAudio.backend Devices.audioPart) (handle g) 1
        { g with journal } := if_pos null
    rw [asked, served]
    rfl
  · have asked : volumeAsked g = (g.memory.readU32 (Arguments.ofRegisters g.registers).third).map
        fun raw => raw.toInt32.toFloat32 / 32767 := if_neg null
    have given : (Arguments.ofRegisters g.registers).third ≠ 0 := null
    simp only [after, asked, setVolume, given, if_false]
    cases g.memory.readU32 (Arguments.ofRegisters g.registers).third with
    | error fault => rfl
    | ok raw => rfl

end Handlers

section Dispatch
variable {d : Dispatcher Devices}

def result (d : Dispatcher Devices) (g : Guest Devices) : Int64 × NullAudio :=
  (((d.dispatch g).2.registers.get .rax).toInt64, (d.dispatch g).2.devices.audio)

theorem resultServed {handler : Handler Devices}
    (place : d.handlers.find? (g.registers.get .rax) = some handler) :
    let after := handler (.ofRegisters g.registers) (g.note (Dispatcher.call g.registers))
    result d g = (after.1.value, after.2.devices.audio) := by
  obtain ⟨registers, -, devices⟩ := Dispatcher.dispatchServes place
  rw [result, registers, devices, Registers.getSetSelf, Int64.toInt64_toUInt64]

section Found
variable
  (found : ∀ entry ∈ Devices.audioModule.handlers, d.handlers.find? entry.1 = some entry.2)
include found

theorem openServed (opening : Opens g) : ∃ params : PortParams,
    params.sampleCount = samplesAsked g ∧
      result d g = ((g.devices.audio.lastHandle + 1).toInt64,
        (g.devices.audio.openPort params).2) := by
  have place := found (Number.audioOutOpen, openPort (NullAudio.backend Devices.audioPart))
    (by simp [Devices.audioModule, module])
  exact ⟨_, rfl, resultServed (opening ▸ place)⟩

theorem closeServed (closing : Closes g) :
    result d g = (if (g.devices.audio.sampleCount (handle g)).isSome then 0 else -1,
      (g.devices.audio.closePort (handle g)).2) := by
  have place := found (Number.audioOutClose, closePort (NullAudio.backend Devices.audioPart))
    (by simp [Devices.audioModule, module])
  rw [resultServed (closing ▸ place), ← containsSampled]
  refine Prod.ext ?_ rfl
  change (if g.devices.audio.ports.contains (handle g) then 0
    else NullAudio.invalidPort).toInt64 = _
  split <;> rfl

theorem outputServed (playing : Plays g) :
    result d g = match soundGiven g (g.devices.audio.sampleCount (handle g)) with
      | none => (-1, g.devices.audio)
      | some bytes =>
        (0, { g.devices.audio with
          bytesOutput := g.devices.audio.bytesOutput + bytes.toUInt64 }) := by
  rcases playing with one | several
  · have place := found (Number.audioOutOutput, output (NullAudio.backend Devices.audioPart))
      (by simp [Devices.audioModule, module])
    exact (resultServed (one ▸ place)).trans (outputPlays g _)
  · have place := found (Number.audioOutOutputs, output (NullAudio.backend Devices.audioPart))
      (by simp [Devices.audioModule, module])
    exact (resultServed (several ▸ place)).trans (outputPlays g _)

theorem volumeServed (tuning : Tunes g) :
    result d g = match volumeAsked g with
      | .error _ => (-14, g.devices.audio)
      | .ok volume => ((g.devices.audio.setVolume (handle g) volume).1.toInt64,
        (g.devices.audio.setVolume (handle g) volume).2) := by
  have place := found (Number.audioOutSetVolume, setVolume (NullAudio.backend Devices.audioPart))
    (by simp [Devices.audioModule, module])
  exact (resultServed (tuning ▸ place)).trans (setVolumeTunes g _)

theorem otherServed (call : g.registers.get .rax ∈ Number.audio) (opening : ¬ Opens g)
    (closing : ¬ Closes g) (playing : ¬ Plays g) (tuning : ¬ Tunes g) :
    ∃ initialized, (result d g).2 = { g.devices.audio with initialized } := by
  simp only [Number.audio, List.mem_cons, List.not_mem_nil, or_false] at call
  rcases call with number | number | number | number | number | number | number | number
  · have place := found (Number.audioOutInit, init (NullAudio.backend Devices.audioPart))
      (by simp [Devices.audioModule, module])
    exact ⟨true, congrArg Prod.snd (resultServed (number ▸ place))⟩
  · exact absurd number opening
  · exact absurd number closing
  · exact absurd (.inl number) playing
  · exact absurd (.inr number) playing
  · exact absurd number tuning
  · have place := found (Number.audioOutGetPortState, getPortState)
      (by simp [Devices.audioModule, module])
    rw [resultServed (number ▸ place)]
    exact ⟨_, congrArg Devices.audio (getPortStateDevices _ _)⟩
  · have place := found (Number.audioOutGetSystemState, getSystemState)
      (by simp [Devices.audioModule, module])
    rw [resultServed (number ▸ place)]
    exact ⟨_, congrArg Devices.audio (getSystemStateDevices _ _)⟩

theorem resultServes (call : g.registers.get .rax ∈ Number.audio)
    (same : g.devices.audio.volumes.contains (handle g) =
      (g.devices.audio.sampleCount (handle g)).isSome) :
    Serves g (g.devices.audio.sampleCount (handle g)) g.devices.audio (result d g).2
      (result d g).1 where
  opening opening := by
    obtain ⟨params, samples, served⟩ := openServed found opening
    rw [served]
    exact ⟨params, samples, rfl, rfl⟩
  closing closing := by
    rw [closeServed found closing]
    exact ⟨rfl, rfl⟩
  playing playing bytes given := by
    rw [outputServed found playing, given]
    exact ⟨rfl, rfl⟩
  silent playing given := by
    rw [outputServed found playing, given]
    exact ⟨rfl, rfl⟩
  faulting tuning fault asked := by
    rw [volumeServed found tuning, asked]
    exact ⟨rfl, rfl⟩
  tuning tuning volume asked known := by
    have present : g.devices.audio.volumes.contains (handle g) = true := same.trans known
    rw [volumeServed found tuning, asked]
    simp only [NullAudio.setVolume, present, if_true]
    exact ⟨rfl, _, rfl, fun port => Directory.findPut _ _ _ _⟩
  idle tuning volume asked unknown := by
    have absent : g.devices.audio.volumes.contains (handle g) = false := by
      rw [same, unknown]
      rfl
    rw [volumeServed found tuning, asked]
    simp only [NullAudio.setVolume, absent]
    exact ⟨rfl, rfl⟩
  other := otherServed found call

end Found

end Dispatch

theorem opensOnly (opening : Opens g) : ¬ Closes g ∧ ¬ Plays g := by
  unfold Opens at opening
  unfold Closes Plays
  rw [opening]
  decide

theorem closesOnly (closing : Closes g) : ¬ Opens g ∧ ¬ Plays g := by
  unfold Closes at closing
  unfold Opens Plays
  rw [closing]
  decide

theorem samplesOther (opening : ¬ Opens g) (closing : ¬ Closes g) (port : Int32) :
    portSamples port (g :: past) = portSamples port past := by
  simp [portSamples, opening, closing]

theorem playedOther (playing : ¬ Plays g) : played (g :: past) = played past := by
  simp [played, playing]

theorem Agrees.steady (agrees : Agrees past now) (opening : ¬ Opens g) (closing : ¬ Closes g)
    (last : next.lastHandle = now.lastHandle) (ports : next.ports = now.ports)
    (volumes : ∀ port, next.volumes.contains port = now.volumes.contains port)
    (bytes : next.bytesOutput = (played (g :: past)).toUInt64) : Agrees (g :: past) next where
  last := by rw [last, agrees.last, openingsSame opening]
  ports port := by
    rw [samplesOther opening closing, ← agrees.ports, NullAudio.sampleCount, ports]
    rfl
  volumes port := by rw [samplesOther opening closing, volumes, agrees.volumes]
  bytes := bytes

theorem Agrees.nextHandle (agrees : Agrees past now) (few : openings past + 1 < 2 ^ 31 - 1) :
    (now.lastHandle + 1).toInt = openings past + 1 := by
  have one : (1 : Int32).toInt = 1 := rfl
  rw [Int32.toInt_add, agrees.last, one]
  exact Int.bmod_eq_of_le (by omega) (by omega)

theorem Agrees.opened (agrees : Agrees past now) (opening : Opens g)
    (few : openings (g :: past) < 2 ^ 31 - 1) {params : PortParams}
    (samples : params.sampleCount = samplesAsked g) :
    Agrees (g :: past) (now.openPort params).2 := by
  obtain ⟨closing, playing⟩ := opensOnly opening
  have number := agrees.nextHandle (openingsMore opening ▸ few)
  have new (port : Int32) : now.lastHandle + 1 = port ↔ port.toInt = openings past + 1 := by
    rw [← number, ← Int32.toInt_inj, eq_comm]
  have told (port : Int32) : portSamples port (g :: past) =
      if now.lastHandle + 1 = port then some params.sampleCount else portSamples port past := by
    simp [portSamples, opening, closing, new, samples]
  constructor
  case last =>
    rw [openingsMore opening]
    exact number
  case ports =>
    intro port
    rw [told, ← agrees.ports]
    simp only [NullAudio.openPort, NullAudio.sampleCount, Directory.findPut]
    split <;> rfl
  case volumes =>
    intro port
    rw [told]
    simp only [NullAudio.openPort, Directory.containsPut, agrees.volumes]
    by_cases same : now.lastHandle + 1 = port <;> simp [same]
  case bytes => rw [playedOther playing, ← agrees.bytes]; rfl

theorem Agrees.closed (agrees : Agrees past now) (closing : Closes g) :
    Agrees (g :: past) (now.closePort (handle g)).2 := by
  obtain ⟨opening, playing⟩ := closesOnly closing
  have told (port : Int32) : portSamples port (g :: past) =
      if handle g = port then none else portSamples port past := by
    simp [portSamples, opening, closing, eq_comm]
  constructor
  case last =>
    rw [openingsSame opening]
    exact agrees.last
  case ports =>
    intro port
    rw [told, ← agrees.ports]
    simp only [NullAudio.closePort, NullAudio.sampleCount, Directory.findErase]
    split <;> rfl
  case volumes =>
    intro port
    rw [told]
    simp only [NullAudio.closePort, Directory.containsErase, agrees.volumes]
    by_cases same : handle g = port <;> simp [same]
  case bytes => rw [playedOther playing, ← agrees.bytes]; rfl

theorem Agrees.step (agrees : Agrees past now) (few : openings (g :: past) < 2 ^ 31 - 1)
    {answer : Int64} (serves : Serves g (portSamples (handle g) past) now next answer) :
    Agrees (g :: past) next := by
  by_cases opening : Opens g
  · obtain ⟨params, samples, -, rfl⟩ := serves.opening opening
    exact agrees.opened opening few samples
  by_cases closing : Closes g
  · obtain ⟨-, rfl⟩ := serves.closing closing
    exact agrees.closed closing
  by_cases playing : Plays g
  · cases given : soundGiven g (portSamples (handle g) past) with
    | none =>
      obtain ⟨-, rfl⟩ := serves.silent playing given
      refine agrees.steady opening closing rfl rfl (fun _ => rfl) ?_
      simp [played, playing, given, agrees.bytes]
    | some bytes =>
      obtain ⟨-, rfl⟩ := serves.playing playing bytes given
      refine agrees.steady opening closing rfl rfl (fun _ => rfl) ?_
      simp [played, playing, given, agrees.bytes]
  have bytes : now.bytesOutput = (played (g :: past)).toUInt64 := by
    rw [playedOther playing, agrees.bytes]
  by_cases tuning : Tunes g
  · cases asked : volumeAsked g with
    | error fault =>
      obtain ⟨-, rfl⟩ := serves.faulting tuning fault asked
      exact agrees.steady opening closing rfl rfl (fun _ => rfl) bytes
    | ok volume =>
      by_cases known : (portSamples (handle g) past).isSome = true
      · obtain ⟨-, volumes, rfl, set⟩ := serves.tuning tuning volume asked known
        refine agrees.steady opening closing rfl rfl (fun port => ?_) bytes
        simp only [Directory.contains, set]
        split
        · rename_i same
          have present := agrees.volumes port
          rw [← same, known, Directory.contains] at present
          rw [← same, present]
          rfl
        · rfl
      · obtain ⟨-, rfl⟩ := serves.idle tuning volume asked (Option.not_isSome_iff_eq_none.mp known)
        exact agrees.steady opening closing rfl rfl (fun _ => rfl) bytes
  · obtain ⟨initialized, rfl⟩ := serves.other opening closing playing tuning
    exact agrees.steady opening closing rfl rfl (fun _ => rfl) bytes

def attach (g : Guest Devices) (audio : NullAudio) : Guest Devices :=
  { g with devices := { g.devices with audio } }

def following (d : Dispatcher Devices) : List (Guest Devices) → Dispatcher Devices × NullAudio
  | [] => (d, .initial)
  | g :: past =>
    let (d, audio) := following d past
    ((d.dispatch (attach g audio)).1, (result d (attach g audio)).2)

def answer (d : Dispatcher Devices) (past : List (Guest Devices)) (g : Guest Devices) : Int64 :=
  (result (following d past).1 (attach g (following d past).2)).1

theorem Serves.ofAttached {samples : Option UInt32} {audio : NullAudio} {answer : Int64}
    (serves : Serves (attach g audio) samples now next answer) :
    Serves g samples now next answer := { serves with }

theorem followingHandlers (d : Dispatcher Devices) (past : List (Guest Devices)) :
    (following d past).1.handlers = d.handlers := by
  induction past with
  | nil => rfl
  | cons g past ih => exact (Dispatcher.dispatchHandlers _ _).trans ih

section Run
variable {d : Dispatcher Devices}
  (found : ∀ entry ∈ Devices.audioModule.handlers, d.handlers.find? entry.1 = some entry.2)
include found

theorem followingServes (agrees : Agrees past (following d past).2)
    (call : g.registers.get .rax ∈ Number.audio) :
    Serves g (portSamples (handle g) past) (following d past).2 (following d (g :: past)).2
      (answer d past g) := by
  have same := followingHandlers d past
  rw [← agrees.ports]
  refine (resultServes (g := attach g (following d past).2) ?_ call ?_).ofAttached
  · rw [same]
    exact found
  · exact (agrees.volumes _).trans (congrArg Option.isSome (agrees.ports _).symm)

theorem followingAgrees (calls : ∀ g ∈ past, g.registers.get .rax ∈ Number.audio)
    (few : openings past < 2 ^ 31 - 1) : Agrees past (following d past).2 := by
  induction past with
  | nil => exact initialAgrees
  | cons g past ih =>
    rw [List.forall_mem_cons] at calls
    have agrees := ih calls.2 (Nat.lt_of_le_of_lt openingsMonotone few)
    exact agrees.step few (followingServes found agrees calls.1)

theorem answerNumbered (calls : ∀ g ∈ past, g.registers.get .rax ∈ Number.audio)
    (opening : Opens g) (few : openings past + 1 < 2 ^ 31 - 1) :
    (answer d past g).toInt = openings past + 1 := by
  have agrees := followingAgrees found calls (Nat.lt_of_succ_lt few)
  have call : g.registers.get .rax ∈ Number.audio := opening ▸ .tail _ (.head _)
  obtain ⟨-, -, told, -⟩ := (followingServes found agrees call).opening opening
  rw [told, Int32.toInt_toInt64]
  exact agrees.nextHandle few

end Run

theorem samplesNumbered {port : Int32} (known : (portSamples port past).isSome = true) :
    0 < port.toInt ∧ port.toInt ≤ openings past := by
  induction past with
  | nil => simp [portSamples] at known
  | cons g past ih =>
    have more : openings past ≤ openings (g :: past) := openingsMonotone
    unfold portSamples at known
    split at known
    · rename_i new
      have one : openings (g :: past) = openings past + 1 := openingsMore new.1
      omega
    split at known
    · simp at known
    · have earlier := ih known
      omega

/- Whatever guests have called, one after the other, the device agrees with the accounts of these
calls and serves the next one as they say; and no port gets the number of an earlier one. -/
theorem portsAccounted (neoMode : Bool) {order : List (Module Devices)}
    (installed : order.Subperm (Devices.modules neoMode)) (present : Devices.audioModule ∈ order)
    {past : List (Guest Devices)} (calls : ∀ g ∈ past, g.registers.get .rax ∈ Number.audio)
    (few : openings past < 2 ^ 31 - 1) :
    let d := (Dispatcher.empty.installAll order).1
    let now := (following d past).2
    (∀ port, now.ports.contains port = (portSamples port past).isSome ∧
      now.volumes.contains port = (portSamples port past).isSome) ∧
    now.bytesOutput.toNat = played past % 2 ^ 64 ∧
    ∀ g : Guest Devices, g.registers.get .rax ∈ Number.audio → openings (g :: past) < 2 ^ 31 - 1 →
      Serves g (portSamples (handle g) past) now (following d (g :: past)).2 (answer d past g) ∧
      (Opens g → (answer d past g).toInt = openings past + 1 ∧
        portSamples (answer d past g).toInt32 past = none ∧
        ∀ later c earlier, past = later ++ c :: earlier → Opens c →
          answer d earlier c ≠ answer d past g) := by
  intro d now
  have found : ∀ entry ∈ Devices.audioModule.handlers, d.handlers.find? entry.1 = some entry.2 :=
    fun entry listed => builtInFinds Devices.kernelPart neoMode
      (NullAudio.backend Devices.audioPart) (NullPad.backend Devices.padPart) Devices.graphicsPart
      installed present listed
  have agrees : Agrees past now := followingAgrees found calls few
  refine ⟨fun port => ⟨?_, agrees.volumes port⟩, ?_, fun g call room => ?_⟩
  · rw [containsSampled, agrees.ports]
  · rw [agrees.bytes, Nat.toUInt64, UInt64.toNat_ofNat']
  refine ⟨followingServes found agrees call, fun opening => ?_⟩
  rw [openingsMore opening] at room
  have number := answerNumbered found calls opening room
  refine ⟨number, ?_, ?_⟩
  · have port : (answer d past g).toInt32.toInt = openings past + 1 := by
      rw [Int64.toInt_toInt32, number]
      exact Int.bmod_eq_of_le (by omega) (by omega)
    by_contra known
    have old := (samplesNumbered (Option.isSome_iff_ne_none.mpr known)).2
    omega
  · rintro later c earlier rfl other same
    have fewer : openings earlier + 1 ≤ openings (later ++ c :: earlier) := by
      rw [← openingsMore other, openings, openings, List.countP_append]
      exact Nat.le_add_left _ _
    have first := answerNumbered found (fun g member => calls g (by simp [member])) other
      (Nat.lt_of_le_of_lt fewer few)
    rw [same, number] at first
    omega

def portRequest (number port pointer samples : UInt64) : Guest Devices where
  registers :=
    (((Registers.powerOn.set .rax number).set .rdi port).set .rsi pointer).set .r10 samples
  memory := .zeros 12 (by decide) false
  devices := .initial 8
  journal := .empty

theorem portsAccountedBriefly :
    let d := (Dispatcher.empty.installAll [Devices.audioModule]).1
    let past := [portRequest 499 2 0x400F00 0, portRequest 498 1 0x400000 0, portRequest 497 1 0 0,
      portRequest 498 2 0x400C00 0, portRequest 496 0 0 256, portRequest 496 0 0 512]
    (following d past).2.bytesOutput.toNat = 1024 ∧
      answer d past (portRequest 497 1 0 0) = -1 ∧ answer d past (portRequest 497 2 0 0) = 0 ∧
      (answer d past (portRequest 496 0 0 0)).toInt = 3 := by
  intro d past
  have alone : [Devices.audioModule].Subperm (Devices.modules true) :=
    List.singleton_subperm_iff.mpr (.tail _ (.head _))
  have calls : ∀ g ∈ past, g.registers.get .rax ∈ Number.audio := by decide +kernel
  have few : openings past < 2 ^ 31 - 1 := by decide +kernel
  obtain ⟨-, bytes, next⟩ := portsAccounted true alone (.head _) calls few
  have total : played past = 1024 := by decide +kernel
  have first := (next (portRequest 497 1 0 0) (by decide +kernel) (by decide +kernel)).1
  have second := (next (portRequest 497 2 0 0) (by decide +kernel) (by decide +kernel)).1
  have opening := (next (portRequest 496 0 0 0) (by decide +kernel) (by decide +kernel)).2
  have closed : portSamples (handle (portRequest 497 1 0 0)) past = none := by decide +kernel
  have present : portSamples (handle (portRequest 497 2 0 0)) past = some 256 := by decide +kernel
  have opened : openings past = 2 := by decide +kernel
  rw [closed] at first
  rw [present] at second
  rw [opened] at opening
  simp only [d, bytes, total]
  exact ⟨by decide, (first.closing (by decide +kernel)).1, (second.closing (by decide +kernel)).1,
    (opening (by decide +kernel)).1⟩

end Audio

end GameConsole.Syscall
