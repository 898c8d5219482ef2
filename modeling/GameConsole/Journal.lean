import GameConsole.Natural

/-! What the console reports while it works: events in the order in which they happened, each
with a severity and named details. Text that the guest prints is reported here too. -/
namespace GameConsole

inductive Severity where
  | error | warn | info | debug | trace
  deriving DecidableEq, Repr

inductive Speaker where
  | console | guest
  deriving DecidableEq, Repr

inductive Detail where
  | count (value : Nat)
  | signed (value : Int)
  | flag (value : Bool)
  | hex (digits value : Nat)
  | text (value : String)
  | counts (values : List Nat)
  deriving DecidableEq, Repr

structure Event where
  severity : Severity
  speaker : Speaker
  message : String
  details : List (String × Detail)
  deriving DecidableEq, Repr

structure Journal where
  events : Array Event
  deriving DecidableEq, Repr

namespace Severity

def label : Severity → String
  | .error => "ERROR"
  | .warn => "WARN"
  | .info => "INFO"
  | .debug => "DEBUG"
  | .trace => "TRACE"

def rank : Severity → Nat
  | .error => 0
  | .warn => 1
  | .info => 2
  | .debug => 3
  | .trace => 4

end Severity

def Detail.render : Detail → String
  | .count value => toString value
  | .signed value => toString value
  | .flag value => if value then "true" else "false"
  | .hex digits value => Text.hexPadded digits value
  | .text value => value
  | .counts values => "[" ++ ", ".intercalate (values.map toString) ++ "]"

namespace Event

def of (severity : Severity) (message : String) (details : List (String × Detail)) : Event :=
  ⟨severity, .console, message, details⟩

def said (message : String) (details : List (String × Detail)) : Event :=
  ⟨.info, .guest, message, details⟩

def label (e : Event) : String :=
  match e.speaker with
  | .guest => "GUEST"
  | .console => e.severity.label

def render (e : Event) : String :=
  e.label ++ " " ++ e.message ++
    String.join (e.details.map fun (name, detail) => " " ++ name ++ "=" ++ detail.render)

end Event

inductive Verbosity where
  | off
  | guest
  | upTo (least : Severity)
  deriving DecidableEq, Repr

namespace Verbosity

def shows (v : Verbosity) (e : Event) : Bool :=
  match v, e.speaker with
  | .off, _ => false
  | _, .guest => true
  | .guest, .console => false
  | .upTo least, .console => e.severity.rank ≤ least.rank

def named : List (String × Verbosity) :=
  [("off", .off), ("guest", .guest), ("error", .upTo .error), ("warn", .upTo .warn),
   ("info", .upTo .info), ("debug", .upTo .debug), ("trace", .upTo .trace)]

end Verbosity

namespace Journal

def lines (v : Verbosity) (j : Journal) : List String :=
  (j.events.toList.filter v.shows).map Event.render

def empty : Journal := ⟨#[]⟩

def add (j : Journal) (e : Event) : Journal := ⟨j.events.push e⟩

def addAll (j : Journal) (es : List Event) : Journal := es.foldl add j

end Journal

end GameConsole
