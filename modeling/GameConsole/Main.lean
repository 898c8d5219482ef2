import GameConsole.Headless.Runner

/-! The command line: reads the files that a run needs, lets it run until its time is up, and
prints what it reports. What the console reports meanwhile goes to the error stream. -/
open GameConsole GameConsole.Headless

namespace GameConsole.Headless.Shell

def slice : Nat := 4096

def readFile (path : String) : IO (String × Loader.FileContents) := do
  try
    let raw ← IO.FS.readBinFile path
    return (path, .ok raw.toList)
  catch e => return (path, .error (toString e))

def showJournal (o : Options) (journal : Journal) : IO Unit := do
  let level := o.logLevel.getD Options.defaultLogLevel
  let verbosity := (Verbosity.named.lookup level).getD .guest
  for line in journal.lines verbosity do
    IO.eprintln line

partial def drive {α : Type} (o : Options) (deadline : Nat) (p : Runner.Run α) (r : Runner) :
    IO α := do
  let (p, r) := p.runFor Runner.others slice r
  showJournal o r.console.journal
  let r := { r with console := { r.console with journal := .empty } }
  match p.result? with
  | some result => return result
  | none => drive o deadline p { r with expired := deadline ≤ (← IO.monoMsNow) }

def outcome (words : List String) : IO Outcome := do
  match Options.parse words with
  | .error usage => return usage.outcome
  | .ok o =>
    let files ← o.paths.mapM readFile
    let contents (path : String) := (files.lookup path).getD (.error "not read")
    match configure o contents with
    | .error failure => return failure.outcome
    | .ok c =>
      let (loader, complaint) := Runner.loaderOf o contents
      let deadline := (← IO.monoMsNow) + (o.runMs.getD Options.defaultRunMs).toNat
      let session := Runner.session (.memory true) loader complaint
      let result ← drive o deadline session { console := .new c {} }
      return outcomeOf o result

end GameConsole.Headless.Shell

def main (words : List String) : IO UInt32 := do
  let outcome ← Shell.outcome words
  IO.print outcome.output
  if let some message := outcome.error then IO.eprintln message
  return outcome.exit.toUInt32
