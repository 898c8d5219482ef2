import GameConsole.Memory.Access

/-! Bringing a program into memory. A loader copies an image and reports where execution is to
start; it knows no executable format. -/
namespace GameConsole

structure LoadedImage where
  entry : UInt64
  description : String
  deriving DecidableEq, Repr

inductive LoadError where
  | unreadable (path reason : String)
  | empty
  | tooLarge (address : UInt64) (length : Nat)
  | memory (fault : MemoryFault)
  deriving DecidableEq, Repr

def LoadError.message : LoadError → String
  | .unreadable path reason => "failed to read " ++ path ++ ": " ++ reason
  | .empty => "program image is empty"
  | .tooLarge address length =>
    "image of " ++ toString length ++ " bytes does not fit in guest memory at " ++
      Text.hex address.toNat
  | .memory fault => fault.message

inductive LoadResult where
  | loaded (image : LoadedImage)
  | failed (error : LoadError)
  | crashed (words : Option String)
  deriving DecidableEq, Repr

/- What a loader leaves of memory, whatever the result, and the result. -/
abbrev Loader := Memory → Memory × LoadResult

namespace Loader

def copy (bytes : List UInt8) (address : UInt64) (m : Memory) : Except LoadError Memory :=
  if bytes.isEmpty then .error .empty
  else if m.fits address bytes.length then (m.writeBlock address bytes).mapError .memory
  else .error (.tooLarge address bytes.length)

def place (bytes : List UInt8) (address : UInt64) (description : String) : Loader := fun m =>
  match copy bytes address m with
  | .ok after => (after, .loaded ⟨address, description⟩)
  | .error e => (m, .failed e)

def sized (what : String) (bytes : List UInt8) : String :=
  what ++ " (" ++ toString bytes.length ++ " bytes)"

def rawImage (bytes : List UInt8) (address : UInt64) : Loader :=
  place bytes address (sized "raw image" bytes)

abbrev FileContents := Except String (List UInt8)

def flatFile (path : String) (contents : FileContents) (address : UInt64) : Loader :=
  match contents with
  | .ok bytes => place bytes address (sized path bytes)
  | .error reason => fun m => (m, .failed (.unreadable path reason))

def atUserBase (path : String) (contents : FileContents) : Loader :=
  flatFile path contents AddressSpace.userBase

theorem rawImageLoaded {bytes : List UInt8} {address : UInt64} {m after : Memory}
    (ok : copy bytes address m = .ok after) :
    rawImage bytes address m = (after, .loaded ⟨address, sized "raw image" bytes⟩) := by
  simp [rawImage, place, ok]

end Loader

end GameConsole
