/-! Natural numbers: their powers are those of the core library everywhere, whatever other instances
a module knows of. As text they are written in base ten or sixteen, padded on the left. -/
namespace GameConsole

@[default_instance 20000]
instance (priority := 2000) natPower : Pow Nat Nat := instPowNat

end GameConsole

namespace GameConsole.Text

def digitsOf (base value : Nat) : String := String.ofList (Nat.toDigits base value)

def padLeft (width : Nat) (fill : Char) (text : String) : String :=
  String.ofList (List.replicate (width - text.length) fill) ++ text

def hexPadded (digits value : Nat) : String := "0x" ++ padLeft digits '0' (digitsOf 16 value)

def hex (value : Nat) : String := hexPadded 1 value

def digit? (base : Nat) (c : Char) : Option Nat :=
  let value :=
    if c.isDigit then c.toNat - '0'.toNat
    else if 'a' ≤ c ∧ c ≤ 'f' then c.toNat - 'a'.toNat + 10
    else if 'A' ≤ c ∧ c ≤ 'F' then c.toNat - 'A'.toNat + 10
    else base
  if value < base then some value else none

def number? (base : Nat) (digits : List Char) : Option Nat :=
  if digits.isEmpty then none
  else digits.foldlM (fun acc c => (digit? base c).map (acc * base + ·)) 0

end GameConsole.Text
