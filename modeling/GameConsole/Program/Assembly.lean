import GameConsole.PlainData
import GameConsole.Processor.Registers

/-! Assembling machine code. Every statement has a length of its own, so that a jump can be
encoded from the places of the statements alone. -/
namespace GameConsole

inductive Statement where
  | moveSigned (target : Register) (value : UInt32)
  | move (target : Register) (value : UInt64)
  | syscall
  | pause
  | jump (statement : Nat)
  deriving DecidableEq, Repr

namespace Statement

def length : Statement → Nat
  | .moveSigned .. => 7
  | .move .. => 10
  | .syscall => 2
  | .pause => 2
  | .jump _ => 5

def rex (r : Register) : UInt8 := 0x48 ||| (r.index.val / 8).toUInt8

def low (r : Register) : UInt8 := (r.index.val % 8).toUInt8

def displacement (start target : Nat) : UInt32 :=
  (Int64.ofInt (target - (start + 5) : Int)).toUInt64.toUInt32

end Statement

namespace Assembly

def size (program : List Statement) : Nat := program.foldr (fun s rest => s.length + rest) 0

def startOf (program : List Statement) (statement : Nat) : Nat := size (program.take statement)

def encode (program : List Statement) (start : Nat) : Statement → List UInt8
  | .moveSigned target value =>
    [Statement.rex target, 0xC7, 0xC0 ||| Statement.low target] ++ PlainData.encode value
  | .move target value =>
    [Statement.rex target, 0xB8 + Statement.low target] ++ PlainData.encode value
  | .syscall => [0x0F, 0x05]
  | .pause => [0xF3, 0x90]
  | .jump statement =>
    0xE9 :: PlainData.encode (Statement.displacement start (startOf program statement))

def encodeFrom (program : List Statement) (start : Nat) : List Statement → List UInt8
  | [] => []
  | s :: rest => encode program start s ++ encodeFrom program (start + s.length) rest

def assemble (program : List Statement) : List UInt8 := encodeFrom program 0 program

theorem encodeLength (program : List Statement) (start : Nat) (s : Statement) :
    (encode program start s).length = s.length := by
  cases s <;> rfl

theorem assembleLength (program : List Statement) :
    (assemble program).length = size program := by
  suffices any : ∀ (rest : List Statement) (start : Nat),
      (encodeFrom program start rest).length = size rest from any program 0
  intro rest
  induction rest with
  | nil => intro start; rfl
  | cons s rest ih =>
    intro start
    rw [encodeFrom, List.length_append, encodeLength, ih]
    rfl

end Assembly

end GameConsole
