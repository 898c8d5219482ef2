import GameConsole.Json.Number
import GameConsole.Natural

/-! The words of JSON text: blanks, literals, numbers and strings. A reader takes what it reads
off the front of the text; where it cannot, it says whether the text is wrong there or only ends
too early. -/
namespace GameConsole.Json

inductive Problem where
  | malformed
  | truncated
  | mismatch
  deriving DecidableEq, Repr

def Problem.message : Problem → String
  | .malformed => "the text is not JSON"
  | .truncated => "the text ends too early"
  | .mismatch => "an unknown or repeated name, or a value of the wrong kind"

abbrev Reader (α : Type) := List Char → Except Problem (α × List Char)

def isBlank (c : Char) : Bool := c == ' ' || c == '\n' || c == '\t' || c == '\r'

def skipBlanks (text : List Char) : List Char := text.dropWhile isBlank

def unexpected : List Char → Problem
  | [] => .truncated
  | _ :: _ => .malformed

def literal : List Char → Reader Unit
  | [], text => .ok ((), text)
  | c :: expected, text =>
    match text with
    | [] => .error .truncated
    | d :: rest => if c = d then literal expected rest else .error .malformed

def mark (c : Char) (text : List Char) : Except Problem (List Char) :=
  match skipBlanks text with
  | [] => .error .truncated
  | d :: rest => if c = d then .ok rest else .error .malformed

def digitValue (c : Char) : Nat := c.toNat - '0'.toNat

def takeDigits (text : List Char) : List Nat × List Char :=
  ((text.takeWhile Char.isDigit).map digitValue, text.dropWhile Char.isDigit)

def scanSign : List Char → Bool × List Char
  | '-' :: rest => (true, rest)
  | text => (false, text)

def scanDigits (text : List Char) : Except Problem (List Nat × List Char) :=
  match takeDigits text with
  | ([], rest) => .error (unexpected rest)
  | (digits, rest) => .ok (digits, rest)

def scanWhole (text : List Char) : Except Problem (List Nat × List Char) := do
  let (digits, rest) ← scanDigits text
  match digits with
  | 0 :: _ :: _ => .error .malformed
  | _ => .ok (digits, rest)

def scanFraction (text : List Char) : Except Problem (Option (List Nat) × List Char) :=
  match text with
  | '.' :: rest => do
    let (digits, rest) ← scanDigits rest
    return (some digits, rest)
  | _ => .ok (none, text)

def scanExponentValue (text : List Char) : Except Problem (Option Int × List Char) := do
  let (negative, text) := match text with
    | '+' :: rest => (false, rest)
    | _ => scanSign text
  let (digits, rest) ← scanDigits text
  let value : Int := valueOf digits
  return (some (if negative then -value else value), rest)

def scanExponent (text : List Char) : Except Problem (Option Int × List Char) :=
  match text with
  | 'e' :: rest | 'E' :: rest => scanExponentValue rest
  | _ => .ok (none, text)

def scanNumber : Reader Number := fun text => do
  let (negative, text) := scanSign text
  let (whole, text) ← scanWhole text
  let (fraction, text) ← scanFraction text
  let (exponent, text) ← scanExponent text
  return (⟨negative, whole, fraction, exponent⟩, text)

def scanUnit : Reader Nat := fun text =>
  let four := text.take 4
  if four.foldr (fun c size => c.utf8Size + size) 0 < 4 then .error .truncated
  else match Text.number? 16 four with
    | some value => .ok (value, text.drop 4)
    | none => .error .malformed

def isHighSurrogate (unit : Nat) : Bool := 0xD800 ≤ unit && unit ≤ 0xDBFF
def isLowSurrogate (unit : Nat) : Bool := 0xDC00 ≤ unit && unit ≤ 0xDFFF

def scanLowSurrogate (high : Nat) : Reader Char := fun text => do
  let ((), text) ← literal ['\\', 'u'] text
  let (low, text) ← scanUnit text
  if isLowSurrogate low then
    return (Char.ofNat ((high - 0xD800) * 0x400 + (low - 0xDC00) + 0x10000), text)
  else .error .malformed

/- An escaped unit. Where `strict` holds, surrogates have to come in pairs; where it does not,
a lone one stands for a replacement character. -/
def scanUnitEscape (strict : Bool) : Reader Char := fun text => do
  let (unit, text) ← scanUnit text
  if isHighSurrogate unit then
    if strict then scanLowSurrogate unit text else return ('\uFFFD', text)
  else if isLowSurrogate unit then
    if strict then .error .malformed else return ('\uFFFD', text)
  else return (Char.ofNat unit, text)

def scanEscape (strict : Bool) : Reader Char := fun text =>
  match text with
  | [] => .error .truncated
  | '"' :: rest => .ok ('"', rest)
  | '\\' :: rest => .ok ('\\', rest)
  | '/' :: rest => .ok ('/', rest)
  | 'b' :: rest => .ok ('\x08', rest)
  | 'f' :: rest => .ok ('\x0c', rest)
  | 'n' :: rest => .ok ('\n', rest)
  | 'r' :: rest => .ok ('\r', rest)
  | 't' :: rest => .ok ('\t', rest)
  | 'u' :: rest => scanUnitEscape strict rest
  | _ :: _ => .error .malformed

def scanStringFrom (strict : Bool) : Nat → List Char → Reader (List Char)
  | 0, _, _ => .error .truncated
  | turns + 1, taken, text =>
    match text with
    | [] => .error .truncated
    | '"' :: rest => .ok (taken.reverse, rest)
    | '\\' :: rest => do
      let (c, rest) ← scanEscape strict rest
      scanStringFrom strict turns (c :: taken) rest
    | c :: rest =>
      if c < ' ' then .error .malformed else scanStringFrom strict turns (c :: taken) rest

def scanString (strict : Bool) : Reader (List Char) := fun text =>
  scanStringFrom strict text.length [] text

end GameConsole.Json
