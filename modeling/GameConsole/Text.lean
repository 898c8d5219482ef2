/-! Text: the characters with the White_Space property, which are removed from its end, and how it
is read from UTF-8. Every maximal run of bytes that begins a character and cannot be completed to
one is read as a single replacement character, and so is any other stray byte. -/
namespace GameConsole.Text

def isBlank (c : Char) : Bool :=
  let code := c.toNat
  (0x09 ≤ code && code ≤ 0x0D) || code == 0x20 || code == 0x85 || code == 0xA0 ||
  code == 0x1680 || (0x2000 ≤ code && code ≤ 0x200A) || code == 0x2028 || code == 0x2029 ||
  code == 0x202F || code == 0x205F || code == 0x3000

def trimEnd (text : List Char) : List Char := (text.reverse.dropWhile isBlank).reverse

end GameConsole.Text

namespace GameConsole.Text.Utf8

def replacement : Char := '\uFFFD'

/- A character begun: the bits read so far, how many bytes follow the next one, and the
bounds of the next one. -/
structure Pending where
  bits : Nat
  later : Nat
  least : UInt8
  greatest : UInt8
  deriving DecidableEq, Repr

def lead? (b : UInt8) : Option Pending :=
  if 0xC2 ≤ b ∧ b ≤ 0xDF then some ⟨b.toNat % 32, 0, 0x80, 0xBF⟩
  else if b = 0xE0 then some ⟨0, 1, 0xA0, 0xBF⟩
  else if b = 0xED then some ⟨13, 1, 0x80, 0x9F⟩
  else if 0xE1 ≤ b ∧ b ≤ 0xEF then some ⟨b.toNat % 16, 1, 0x80, 0xBF⟩
  else if b = 0xF0 then some ⟨0, 2, 0x90, 0xBF⟩
  else if 0xF1 ≤ b ∧ b ≤ 0xF3 then some ⟨b.toNat % 8, 2, 0x80, 0xBF⟩
  else if b = 0xF4 then some ⟨4, 2, 0x80, 0x8F⟩
  else none

def first (b : UInt8) : List Char × Option Pending :=
  if b < 0x80 then ([Char.ofNat b.toNat], none)
  else match lead? b with
    | some pending => ([], some pending)
    | none => ([replacement], none)

def next (pending : Pending) (b : UInt8) : List Char × Option Pending :=
  if pending.least ≤ b ∧ b ≤ pending.greatest then
    let bits := pending.bits * 64 + b.toNat % 64
    match pending.later with
    | 0 => ([Char.ofNat bits], none)
    | later + 1 => ([], some ⟨bits, later, 0x80, 0xBF⟩)
  else
    let (chars, begun) := first b
    (replacement :: chars, begun)

def decodeFrom : Option Pending → List UInt8 → List Char
  | none, [] => []
  | some _, [] => [replacement]
  | none, b :: rest => let (chars, begun) := first b; chars ++ decodeFrom begun rest
  | some pending, b :: rest => let (chars, begun) := next pending b; chars ++ decodeFrom begun rest

def decode (raw : List UInt8) : List Char := decodeFrom none raw

def decode? (raw : List UInt8) : Option String := String.fromUTF8? ⟨raw.toArray⟩

end GameConsole.Text.Utf8
