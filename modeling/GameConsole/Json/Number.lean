import GameConsole.Natural

/-! Numbers as JSON writes them: the parts of the text first, what they denote second. -/
namespace GameConsole.Json

structure Number where
  negative : Bool
  whole : List Nat
  fraction : Option (List Nat)
  exponent : Option Int
  deriving DecidableEq, Repr

def valueOf (digits : List Nat) : Nat := digits.foldl (fun acc digit => acc * 10 + digit) 0

structure Magnitude where
  significand : Nat
  exponent : Int
  deriving DecidableEq, Repr

/- The number of 53 significant bits that is nearest; of two, the one that ends in zero. -/
def nearestDouble (n : Nat) : Nat :=
  let excess := n.log2 - 52
  let unit := 2 ^ excess
  let kept := n / unit
  let twice := 2 * (n % unit)
  let up := unit < twice ∨ (unit = twice ∧ kept % 2 = 1)
  (if up then kept + 1 else kept) * unit

namespace Magnitude

def widest : Nat := 2 ^ 64 - 1

/- Digits before the point. Once one does not fit, it and all later ones only scale. -/
def appendWhole (m : Magnitude) (digit : Nat) : Magnitude :=
  if m.exponent = 0 ∧ m.significand * 10 + digit ≤ widest then
    { m with significand := m.significand * 10 + digit }
  else { m with exponent := m.exponent + 1 }

def appendFraction (m : Magnitude) : List Nat → Magnitude
  | [] => m
  | digit :: rest =>
    if m.significand * 10 + digit ≤ widest then
      appendFraction ⟨m.significand * 10 + digit, m.exponent - 1⟩ rest
    else m

def beyondDouble (m : Magnitude) : Bool :=
  m.significand != 0 && decide (308 < m.exponent ∨
    (0 ≤ m.exponent ∧ 2 ^ 1024 - 2 ^ 970 ≤
      nearestDouble m.significand * nearestDouble (10 ^ m.exponent.toNat)))

end Magnitude

namespace Number

def natural? (n : Number) : Option Nat :=
  if n.negative ∨ n.fraction ≠ none ∨ n.exponent ≠ none then none else some (valueOf n.whole)

def magnitude (n : Number) : Magnitude :=
  let m := n.whole.foldl Magnitude.appendWhole ⟨0, 0⟩
  let m := m.appendFraction (n.fraction.getD [])
  { m with exponent := m.exponent + n.exponent.getD 0 }

def beyondDouble (n : Number) : Bool := n.magnitude.beyondDouble

end Number

end GameConsole.Json
