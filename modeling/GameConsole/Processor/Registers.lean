/-! The register file: sixteen general registers, the instruction pointer, the flags, and
the segment and vector registers that nothing here changes. -/
namespace GameConsole

inductive Register where
  | rax | rcx | rdx | rbx | rsp | rbp | rsi | rdi
  | r8 | r9 | r10 | r11 | r12 | r13 | r14 | r15
  deriving DecidableEq, Repr

namespace Register

def index : Register → Fin 16
  | .rax => 0
  | .rcx => 1
  | .rdx => 2
  | .rbx => 3
  | .rsp => 4
  | .rbp => 5
  | .rsi => 6
  | .rdi => 7
  | .r8 => 8
  | .r9 => 9
  | .r10 => 10
  | .r11 => 11
  | .r12 => 12
  | .r13 => 13
  | .r14 => 14
  | .r15 => 15

def ofIndex : Fin 16 → Register
  | 0 => .rax
  | 1 => .rcx
  | 2 => .rdx
  | 3 => .rbx
  | 4 => .rsp
  | 5 => .rbp
  | 6 => .rsi
  | 7 => .rdi
  | 8 => .r8
  | 9 => .r9
  | 10 => .r10
  | 11 => .r11
  | 12 => .r12
  | 13 => .r13
  | 14 => .r14
  | _ => .r15

def numbered (n : UInt8) : Register := ofIndex ⟨n.toNat % 16, Nat.mod_lt _ (by decide)⟩

@[simp] theorem ofIndexIndex (r : Register) : ofIndex r.index = r := by cases r <;> rfl

@[simp] theorem indexOfIndex (i : Fin 16) : (ofIndex i).index = i := by revert i; decide

theorem indexInjective {r s : Register} (same : r.index = s.index) : r = s := by
  rw [← ofIndexIndex r, same, ofIndexIndex]

end Register

structure Segments where
  cs : UInt16 := 0
  ds : UInt16 := 0
  es : UInt16 := 0
  fs : UInt16 := 0
  gs : UInt16 := 0
  ss : UInt16 := 0
  deriving DecidableEq, Repr

structure Registers where
  general : Vector UInt64 16
  rip : UInt64
  rflags : UInt64
  segments : Segments
  xmm : Vector (BitVec 128) 16
  mxcsr : UInt32
  deriving DecidableEq

namespace Registers

def powerOn : Registers where
  general := Vector.replicate 16 0
  rip := 0
  rflags := 0x202
  segments := {}
  xmm := Vector.replicate 16 0
  mxcsr := 0x1F80

def get (s : Registers) (r : Register) : UInt64 := s.general[r.index.val]

def set (s : Registers) (r : Register) (value : UInt64) : Registers :=
  { s with general := s.general.set r.index value }

def jump (s : Registers) (target : UInt64) : Registers := { s with rip := target }

theorem getSet (s : Registers) (r q : Register) (value : UInt64) :
    (s.set r value).get q = if r = q then value else s.get q := by
  by_cases same : r = q
  · subst same; simp [get, set]
  · have apart : r.index.val ≠ q.index.val := fun h => same (Register.indexInjective (Fin.ext h))
    simp [get, set, apart, same]

@[simp] theorem getSetSelf (s : Registers) (r : Register) (value : UInt64) :
    (s.set r value).get r = value := by simp [getSet]

theorem setSet (s : Registers) (r : Register) (first second : UInt64) :
    (s.set r first).set r second = s.set r second := by simp only [set, Vector.set_set]

theorem setGet (s : Registers) (r : Register) : s.set r (s.get r) = s := by
  simp only [set, get, Vector.set_getElem_self]

@[simp] theorem getJump (s : Registers) (r : Register) (target : UInt64) :
    (s.jump target).get r = s.get r := rfl

@[simp] theorem ripJump (s : Registers) (target : UInt64) : (s.jump target).rip = target := rfl

end Registers

end GameConsole
