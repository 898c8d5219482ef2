import GameConsole.Console.Control
import GameConsole.Headless.Options
import GameConsole.Headless.Report
import GameConsole.Program.Bios

/-! A headless run: a program is loaded and started, a presenter takes its commands, and when it
has ended, or its time has, the console is stopped and what it did is reported. -/
namespace GameConsole.Headless

open Graphics (RenderCommand)

structure Runner where
  console : Console
  presenter : Option Presenter := none
  done : Bool := false
  expired : Bool := false

structure Failure where
  context : String
  causes : List String := []
  deriving DecidableEq, Repr

def Failure.message (f : Failure) : String :=
  let causes := match f.causes with
    | [] => []
    | [cause] => ["", "Caused by:", "    " ++ cause]
    | many => ["", "Caused by:"] ++
        many.mapIdx fun i cause => "    " ++ toString i ++ ": " ++ cause
  "\n".intercalate (("Error: " ++ f.context) :: causes)

structure Outcome where
  exit : UInt8
  output : String := ""
  error : Option String := none
  deriving DecidableEq, Repr

namespace Runner

abbrev Run (α : Type) := Procedure Runner α

def onConsole {α : Type} (call : Console.Call α) : Run α :=
  call.within console fun console r => { r with console }

def advancePresenter (r : Runner) : Runner :=
  match r.presenter with
  | none => r
  | some p =>
    let (presenter, queue) := p.advance r.done r.console.queue
    { r with presenter := some presenter, console := { r.console with queue } }

def others (r : Runner) : Option Runner :=
  let r := match r.console.advance with
    | some console => { r with console }
    | none => r
  some r.advancePresenter

def presenterEnded (r : Runner) : Option (Tally × Runner) :=
  match r.presenter with
  | some ⟨.ended, tally⟩ => some (tally, r)
  | _ => none

instance : Inhabited Tally := ⟨{}⟩

def popAll : Run (List RenderCommand) := do
  let drained ← Procedure.update fun r =>
    let (drained, queue) := r.console.queue.drain
    (drained, { r with console := { r.console with queue } })
  Procedure.alter fun r =>
    { r with console := { r.console with queue := r.console.queue.countPopped drained.length } }
  return drained

def loaderOf (o : Options) (files : String → Loader.FileContents) : Loader × String :=
  match o.binary with
  | some path =>
    (Loader.flatFile path (files path) (o.loadAddress.getD AddressSpace.userBase),
      "failed to load " ++ path)
  | none => (Bios.load, "failed to load internal BIOS")

def watch : Run Report := do
  Procedure.waitUntil fun r => r.expired || r.console.state != .running
  let final ← Procedure.look fun r => r.console.state
  if final = .running then
    let _ ← onConsole Console.Call.pause
  Procedure.alter fun r => { r with done := true }
  let tally ← Procedure.await presenterEnded
  let left ← popAll
  let statistics ← onConsole Console.Call.statistics
  let rip ← Procedure.look fun r => r.console.snapshot.rip
  if final = .running ∨ final = .paused then
    let _ ← onConsole Console.Call.stop
  onConsole Console.Call.shutdown
  return ⟨final, rip, statistics, tally.recordAll left⟩

def session (host : Provision) (loader : Loader) (complaint : String) :
    Run (Except Failure Report) := do
  if let .error e ← onConsole (Console.Call.setUp host) then
    return .error ⟨"failed to initialize emulator", e.causes⟩
  if let .error e ← onConsole (Console.Call.load loader) then
    return .error ⟨complaint, e.causes⟩
  Procedure.alter fun r => { r with presenter := some {} }
  if ← onConsole Console.Call.run then
    return .ok (← watch)
  else
    let state ← Procedure.look fun r => r.console.state
    return .error ⟨"emulator refused to run (state " ++ state.name ++ ")", []⟩

/- The result of a procedure if the time is up after a number of turns. Once it is, the rest
takes as many turns as it needs. -/
def complete {α : Type} (patience : Nat) (p : Run α) (r : Runner) : Option α :=
  let (p, r) := p.runFor others patience r
  (p.runFor others (2 ^ 50) { r with expired := true }).1.result?

end Runner

def configure (o : Options) (files : String → Loader.FileContents) :
    Except Failure Configuration := do
  let base ← match o.config with
    | none => .ok {}
    | some path =>
      match Configuration.ofFile path (files path).toOption with
      | .ok c => .ok c
      | .error e => .error ⟨"failed to load config " ++ path, [e.message]⟩
  match o.override base with
  | some c => .ok c
  | none => .error ⟨"memory size overflow", []⟩

def Usage.outcome : Usage → Outcome
  | .help => { exit := 0, output := Options.help }
  | .rejected reason => { exit := 2, error := some ("error: " ++ reason) }

def Failure.outcome (f : Failure) : Outcome := { exit := 1, error := some f.message }

def Report.outcome (r : Report) (json : Bool) : Outcome :=
  let output := r.text json
  if r.state = .error then
    let context := "guest stopped in the error state at rip " ++ Text.hex r.rip.toNat
    { Failure.outcome ⟨context, []⟩ with output }
  else { exit := 0, output }

def outcomeOf (o : Options) : Except Failure Report → Outcome
  | .ok report => report.outcome o.statsJson
  | .error failure => failure.outcome

def command (patience : Nat) (words : List String) (files : String → Loader.FileContents)
    (host : Configuration → Provision) : Option Outcome :=
  match Options.parse words with
  | .error usage => some usage.outcome
  | .ok o =>
    match configure o files with
    | .error failure => some failure.outcome
    | .ok c =>
      let (loader, complaint) := Runner.loaderOf o files
      let start : Runner := { console := .new c {} }
      (Runner.complete patience (Runner.session (host c) loader complaint) start).map (outcomeOf o)

end GameConsole.Headless
