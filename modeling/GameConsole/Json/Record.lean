import GameConsole.Json.Scan

/-! Reading values of known shape: naturals, flags and records. A record is written with the
names of its fields, or as a list of them in their order; fields that are left out keep the
values that they had. Records are written a field to a line, two blanks deeper for each one
around. -/
namespace GameConsole.Json

inductive Frame where
  | list | record
  deriving DecidableEq, Repr

def Frame.close : Frame → Char
  | .list => ']'
  | .record => '\x7d'

inductive Place where
  | value
  | opened
  | name
  | behind
  deriving DecidableEq, Repr

def Frame.next : Frame → Place
  | .list => .value
  | .record => .name

def skipScalar (text : List Char) : Except Problem (List Char) :=
  match text with
  | [] => .error .truncated
  | 'n' :: rest => (literal ['u', 'l', 'l'] rest).map Prod.snd
  | 't' :: rest => (literal ['r', 'u', 'e'] rest).map Prod.snd
  | 'f' :: rest => (literal ['a', 'l', 's', 'e'] rest).map Prod.snd
  | '"' :: rest => (scanString false rest).map Prod.snd
  | c :: _ =>
    if c = '-' ∨ c.isDigit then
      match scanNumber text with
      | .ok (_, rest) => .ok rest
      | .error _ => .error .malformed
    else .error .malformed

/- Passes over what is left of a value, `frames` being the lists and records that are open,
innermost first. Every turn but the last takes a character or moves on from `opened`. -/
def skipFrom : Nat → Place → List Frame → List Char → Except Problem (List Char)
  | 0, _, _, _ => .error .truncated
  | _ + 1, .behind, [], text => .ok text
  | turns + 1, .behind, frame :: frames, text =>
    match skipBlanks text with
    | [] => .error .truncated
    | c :: rest =>
      if c = ',' then skipFrom turns frame.next (frame :: frames) rest
      else if c = frame.close then skipFrom turns .behind frames rest
      else .error .malformed
  | turns + 1, .opened, frames, text =>
    match frames, skipBlanks text with
    | frame :: frames, c :: rest =>
      if c = frame.close then skipFrom turns .behind frames rest
      else skipFrom turns frame.next (frame :: frames) (c :: rest)
    | _, _ => .error .truncated
  | turns + 1, .name, frames, text => do
    let text ← mark '"' text
    let (_, text) ← scanString false text
    let text ← mark ':' text
    skipFrom turns .value frames text
  | turns + 1, .value, frames, text =>
    match skipBlanks text with
    | '[' :: rest => skipFrom turns .opened (.list :: frames) rest
    | '\x7b' :: rest => skipFrom turns .opened (.record :: frames) rest
    | text => do
      let rest ← skipScalar text
      skipFrom turns .behind frames rest

def skipValue (text : List Char) : Except Problem (List Char) :=
  skipFrom (2 * text.length + 2) .value [] text

def wrongKind (text : List Char) : Problem :=
  match text with
  | [] => .truncated
  | '[' :: _ | '\x7b' :: _ => .mismatch
  | '"' :: rest =>
    match scanString true rest with
    | .ok _ => .mismatch
    | .error problem => problem
  | c :: _ =>
    if c = '-' ∨ c.isDigit then
      match scanNumber text with
      | .ok (n, _) => if n.beyondDouble then .malformed else .mismatch
      | .error problem => problem
    else match skipScalar text with
      | .ok _ => .mismatch
      | .error problem => problem

def readNatural (greatest : Nat) : Reader Nat := fun text =>
  match skipBlanks text with
  | [] => .error .truncated
  | c :: rest =>
    if c = '-' ∨ c.isDigit then do
      let (n, after) ← scanNumber (c :: rest)
      if n.beyondDouble then .error .malformed
      else match n.natural? with
        | some value => if value ≤ greatest then .ok (value, after) else .error .mismatch
        | none => .error .mismatch
    else .error (wrongKind (c :: rest))

def readU64 : Reader UInt64 := fun text => do
  let (value, rest) ← readNatural (2 ^ 64 - 1) text
  return (value.toUInt64, rest)

def readU32 : Reader UInt32 := fun text => do
  let (value, rest) ← readNatural (2 ^ 32 - 1) text
  return (value.toUInt32, rest)

def readFlag : Reader Bool := fun text =>
  match skipBlanks text with
  | 't' :: rest => do
    let ((), rest) ← literal ['r', 'u', 'e'] rest
    return (true, rest)
  | 'f' :: rest => do
    let ((), rest) ← literal ['a', 'l', 's', 'e'] rest
    return (false, rest)
  | text => .error (wrongKind text)

structure Member (σ : Type) where
  name : String
  read : Reader (σ → σ)

def Member.of {α σ : Type} (name : String) (reader : Reader α) (put : α → σ → σ) : Member σ where
  name := name
  read text := do
    let (value, rest) ← reader text
    return (put value, rest)

inductive Strangers where
  | refused | skipped
  deriving DecidableEq, Repr

variable {σ : Type}

def readElements : List (Member σ) → Bool → σ → Reader σ
  | [], _, s, text => do
    let rest ← mark ']' text
    return (s, rest)
  | field :: fields, first, s, text =>
    match skipBlanks text with
    | [] => .error .truncated
    | ']' :: rest => .ok (s, rest)
    | c :: rest => do
      let element ←
        if first then .ok (c :: rest)
        else if c = ',' then
          match skipBlanks rest with
          | [] => .error .truncated
          | ']' :: _ => .error .malformed
          | element => .ok element
        else .error .malformed
      let (change, rest) ← field.read element
      readElements fields false (change s) rest

def readMembers (strangers : Strangers) (fields : List (Member σ)) :
    Nat → List String → Bool → σ → Reader σ
  | 0, _, _, _, _ => .error .truncated
  | turns + 1, seen, first, s, text =>
    match skipBlanks text with
    | [] => .error .truncated
    | '\x7d' :: rest => .ok (s, rest)
    | c :: rest => do
      let member ←
        if first then .ok (c :: rest)
        else if c = ',' then .ok rest
        else .error .malformed
      let text ← mark '"' member
      let (key, text) ← scanString true text
      let name := String.ofList key
      match fields.find? fun field => field.name = name with
      | none =>
        if strangers = .refused then .error .mismatch
        else
          let text ← mark ':' text
          let rest ← skipValue text
          readMembers strangers fields turns seen false s rest
      | some field =>
        if name ∈ seen then .error .mismatch
        else
          let text ← mark ':' text
          let (change, rest) ← field.read text
          readMembers strangers fields turns (name :: seen) false (change s) rest

def readRecord (strangers : Strangers) (fields : List (Member σ)) (start : σ) : Reader σ :=
  fun text => match skipBlanks text with
  | '[' :: rest => readElements fields true start rest
  | '\x7b' :: rest => readMembers strangers fields rest.length [] true start rest
  | text => .error (wrongKind text)

def readAll {α : Type} (reader : Reader α) (text : List Char) : Except Problem α := do
  let (value, rest) ← reader text
  if (skipBlanks rest).isEmpty then return value else .error .malformed

abbrev Layout := Nat → List Char

namespace Layout

def natural (n : Nat) : Layout := fun _ => Nat.toDigits 10 n

def flag (value : Bool) : Layout := fun _ =>
  if value then ['t', 'r', 'u', 'e'] else ['f', 'a', 'l', 's', 'e']

def newLine (depth : Nat) : List Char := '\n' :: List.replicate (2 * depth) ' '

def member (depth : Nat) (name : String) (value : Layout) : List Char :=
  newLine depth ++ '"' :: name.toList ++ ['"', ':', ' '] ++ value depth

def members (depth : Nat) : List (String × Layout) → List Char
  | [] => []
  | [(name, value)] => member depth name value
  | (name, value) :: rest => member depth name value ++ ',' :: members depth rest

def record (fields : List (String × Layout)) : Layout := fun depth =>
  if fields.isEmpty then ['\x7b', '\x7d']
  else '\x7b' :: members (depth + 1) fields ++ newLine depth ++ ['\x7d']

def toText (layout : Layout) : String := String.ofList (layout 0)

end Layout

end GameConsole.Json
