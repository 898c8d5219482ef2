import GameConsole.Configuration

/-! The options of a headless run, and how they are read from the words of a command line. An
option may be given once; its value is the next word, or follows an equals sign. -/
namespace GameConsole.Headless

structure Options where
  bios : Bool := false
  binary : Option String := none
  loadAddress : Option UInt64 := none
  config : Option String := none
  memoryMib : Option UInt64 := none
  maxIndirectDepth : Option UInt32 := none
  stepsPerTick : Option UInt64 := none
  runMs : Option UInt64 := none
  logLevel : Option String := none
  statsJson : Bool := false
  deriving DecidableEq, Repr

inductive Usage where
  | help
  | rejected (reason : String)
  deriving DecidableEq, Repr

inductive Setting where
  | switch (given : Options → Bool) (set : Options → Options)
  | valued (given : Options → Bool) (set : Options → String → Option Options)

def readUnsigned (base greatest : Nat) (text : List Char) : Option Nat := do
  let digits := match text with
    | '+' :: rest => rest
    | _ => text
  let value ← Text.number? base digits
  if value ≤ greatest then some value else none

def readU64 (text : String) : Option UInt64 :=
  (readUnsigned 10 (2 ^ 64 - 1) text.toList).map Nat.toUInt64

def readU32 (text : String) : Option UInt32 :=
  match text.toList with
  | '-' :: digits => if Text.number? 10 digits = some 0 then some 0 else none
  | text => (readUnsigned 10 (2 ^ 32 - 1) text).map Nat.toUInt32

def readAddress (text : String) : Option UInt64 :=
  let (base, digits) := match text.toList with
    | '0' :: 'x' :: rest | '0' :: 'X' :: rest => (16, rest)
    | text => (10, text)
  (readUnsigned base (2 ^ 64 - 1) (digits.filter (· ≠ '_'))).map Nat.toUInt64

def readPath (text : String) : Option String := if text.isEmpty then none else some text

def valued {α : Type} (get : Options → Option α) (read : String → Option α)
    (put : α → Options → Options) : Setting :=
  .valued (fun o => (get o).isSome) fun o text => (read text).map fun value => put value o

def settings : List (String × Setting) :=
  [("bios", .switch (·.bios) fun o => { o with bios := true }),
   ("binary", valued (·.binary) readPath fun value o => { o with binary := some value }),
   ("load-address", valued (·.loadAddress) readAddress fun value o =>
     { o with loadAddress := some value }),
   ("config", valued (·.config) readPath fun value o => { o with config := some value }),
   ("memory-mib", valued (·.memoryMib) readU64 fun value o => { o with memoryMib := some value }),
   ("max-indirect-depth", valued (·.maxIndirectDepth) readU32 fun value o =>
     { o with maxIndirectDepth := some value }),
   ("steps-per-tick", valued (·.stepsPerTick) readU64 fun value o =>
     { o with stepsPerTick := some value }),
   ("run-ms", valued (·.runMs) readU64 fun value o => { o with runMs := some value }),
   ("log-level", valued (·.logLevel) some fun value o => { o with logLevel := some value }),
   ("stats-json", .switch (·.statsJson) fun o => { o with statsJson := true })]

def beginsOption (word : String) : Bool :=
  match word.toList with
  | '-' :: _ :: _ => true
  | _ => false

def splitWord (word : List Char) : String × Option String :=
  (String.ofList (word.takeWhile (· ≠ '=')),
    match word.dropWhile (· ≠ '=') with
    | [] => none
    | _ :: value => some (String.ofList value))

def give (name : String) (o : Options) (value : String) (given : Bool)
    (set : Options → String → Option Options) : Except Usage Options :=
  if given then .error (.rejected ("--" ++ name ++ " is given more than once"))
  else match set o value with
    | some o => .ok o
    | none => .error (.rejected ("invalid value for --" ++ name))

def parseFrom (o : Options) : List String → Except Usage Options
  | [] => .ok o
  | word :: rest =>
    match word.toList with
    | ['-', '-'] => if rest.isEmpty then .ok o else .error (.rejected "unexpected argument")
    | '-' :: '-' :: long =>
      let (name, inline?) := splitWord long
      match settings.lookup name, inline? with
      | none, inline? =>
        if name = "help" ∧ inline? = none then .error .help
        else .error (.rejected ("unknown option --" ++ name))
      | some (.switch ..), some _ => .error (.rejected ("--" ++ name ++ " takes no value"))
      | some (.switch given set), none =>
        if given o then .error (.rejected ("--" ++ name ++ " is given more than once"))
        else parseFrom (set o) rest
      | some (.valued given set), some value => do
        parseFrom (← give name o value (given o) set) rest
      | some (.valued given set), none =>
        match rest with
        | [] => .error (.rejected ("--" ++ name ++ " needs a value"))
        | value :: rest =>
          if beginsOption value then .error (.rejected ("--" ++ name ++ " needs a value"))
          else do parseFrom (← give name o value (given o) set) rest
    | '-' :: 'h' :: _ => .error .help
    | _ => .error (.rejected "unexpected argument")

namespace Options

/- The options that words ask for. The built-in program excludes a file, and an address is for
a file. -/
def parse (words : List String) : Except Usage Options := do
  let o ← parseFrom {} words
  if o.bios && o.binary.isSome then .error (.rejected "--bios excludes --binary")
  else if o.loadAddress.isSome && o.binary.isNone then
    .error (.rejected "--load-address needs --binary")
  else .ok o

def defaultRunMs : UInt64 := 1000
def defaultLogLevel : String := "info"

def help : String :=
  "Headless runner for the WeaR console core\n\nUsage: wear [OPTIONS]\n\nOptions:\n" ++
  "      --bios                        Boot the built-in BIOS program\n" ++
  "      --binary <PATH>               Flat binary to load instead of the BIOS\n" ++
  "      --load-address <ADDRESS>      Guest address of the binary, and its entry point\n" ++
  "      --config <PATH>               JSON configuration; the flags below override it\n" ++
  "      --memory-mib <MIB>            Guest memory size in MiB\n" ++
  "      --max-indirect-depth <DEPTH>  Nesting limit for indirect buffers\n" ++
  "      --steps-per-tick <STEPS>      Instructions between state checks\n" ++
  "      --run-ms <MS>                 Stop after this time [default: 1000]\n" ++
  "      --log-level <LEVEL>           Log filter [default: info]\n" ++
  "      --stats-json                  Print the final statistics as JSON\n" ++
  "  -h, --help                        Print help\n"

def paths (o : Options) : List String := o.config.toList ++ o.binary.toList

def mib : Nat := 1024 * 1024

def override (o : Options) (c : Configuration) : Option Configuration := do
  let size ← match o.memoryMib with
    | none => some c.memory.sizeBytes
    | some count => if count.toNat * mib < 2 ^ 64 then some (count.toNat * mib).toUInt64 else none
  return { c with
    memory := { c.memory with sizeBytes := size }
    decoder := ⟨o.maxIndirectDepth.getD c.decoder.maxIndirectDepth⟩
    stepsPerTick := o.stepsPerTick.getD c.stepsPerTick }

end Options

end GameConsole.Headless
