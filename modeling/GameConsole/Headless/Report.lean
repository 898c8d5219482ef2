import GameConsole.Console.Lifecycle
import GameConsole.Headless.Presenter
import GameConsole.Json.Record

/-! What a headless run has to say at its end, as lines of text or as JSON. -/
namespace GameConsole

def Statistics.layout (s : Statistics) : Json.Layout :=
  .record
    [("instructions", .natural s.instructions), ("syscalls", .natural s.syscalls),
     ("unimplemented_syscalls", .natural s.unimplementedSyscalls),
     ("packets_processed", .natural s.packets), ("draw_calls", .natural s.draws),
     ("dispatches", .natural s.dispatches), ("frames", .natural s.frames)]

namespace Headless

structure Report where
  state : Lifecycle
  rip : UInt64
  statistics : Statistics
  presented : Tally
  deriving DecidableEq, Repr

namespace Report

def lines (r : Report) : List String :=
  let s := r.statistics
  let p := r.presented
  let n (value : Nat) : String := toString value
  ["state:               " ++ r.state.name,
   "rip:                 " ++ Text.hexPadded 16 r.rip.toNat,
   "instructions:        " ++ n s.instructions,
   "syscalls:            " ++ n s.syscalls ++ " (" ++ n s.unimplementedSyscalls ++
     " unimplemented)",
   "pm4 packets:         " ++ n s.packets,
   "queued draws:        " ++ n s.draws ++ " (" ++ n s.dispatches ++ " dispatches)",
   "frames:              " ++ n s.frames,
   "presented commands:  " ++ n p.commands ++ " (" ++ n p.clears ++ " clears, " ++ n p.draws ++
     " draws, " ++ n p.dispatches ++ " dispatches, " ++ n p.frames ++ " frames)"]

def text (r : Report) (json : Bool) : String :=
  if json then r.statistics.layout.toText ++ "\n"
  else String.join (r.lines.map (· ++ "\n"))

end Report

end Headless

end GameConsole
