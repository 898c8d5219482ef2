import GameConsole.Natural

/-! Tables over all `n`-bit indices, kept as binary trees in which a half that holds one
value throughout is a single node. Equal contents have equal trees, so two tables are equal
exactly when every entry is. Nothing here knows what the entries mean. -/
namespace GameConsole

/- The top bit of an index picks the half. Bits at and above the height are ignored, so an
index need not be reduced before it is used. -/
inductive SparseTree (α : Type) : Nat → Type where
  | uniform {n : Nat} (value : α) : SparseTree α n
  | branch {n : Nat} (low high : SparseTree α n) : SparseTree α (n + 1)
  deriving DecidableEq

namespace SparseTree

variable {α : Type}

def get : {n : Nat} → SparseTree α n → Nat → α
  | _, .uniform value, _ => value
  | n + 1, .branch low high, i => if i.testBit n then high.get i else low.get i

def halves : {n : Nat} → SparseTree α (n + 1) → SparseTree α n × SparseTree α n
  | _, .uniform value => (.uniform value, .uniform value)
  | _, .branch low high => (low, high)

def join [DecidableEq α] {n : Nat} (low high : SparseTree α n) : SparseTree α (n + 1) :=
  match low, high with
  | .uniform a, .uniform b => if a = b then .uniform a else .branch (.uniform a) (.uniform b)
  | low, high => .branch low high

def set [DecidableEq α] : {n : Nat} → SparseTree α n → Nat → α → SparseTree α n
  | 0, _, _, value => .uniform value
  | n + 1, t, i, value =>
    if i.testBit n then join t.halves.1 (t.halves.2.set i value)
    else join (t.halves.1.set i value) t.halves.2

def fill [DecidableEq α] : {n : Nat} → SparseTree α n → Nat → Nat → α → SparseTree α n
  | 0, t, first, last, value => if first = 0 ∧ 0 < last then .uniform value else t
  | n + 1, t, first, last, value =>
    if last ≤ first then t
    else if first = 0 ∧ 2 ^ (n + 1) ≤ last then .uniform value
    else
      join (t.halves.1.fill first last value)
        (t.halves.2.fill (first - 2 ^ n) (last - 2 ^ n) value)

theorem modTop (i n : Nat) :
    i % 2 ^ (n + 1) = i % 2 ^ n + if i.testBit n then 2 ^ n else 0 := by
  rw [Nat.mod_pow_succ, ← Nat.toNat_testBit]
  cases i.testBit n <;> simp

theorem getHalves {n : Nat} (t : SparseTree α (n + 1)) (i : Nat) :
    t.get i = if i.testBit n then t.halves.2.get i else t.halves.1.get i := by
  cases t with
  | uniform value => simp [get, halves]
  | branch low high => simp [get, halves]

theorem getJoin [DecidableEq α] {n : Nat} (low high : SparseTree α n) (i : Nat) :
    (join low high).get i = if i.testBit n then high.get i else low.get i := by
  unfold join
  split
  · next a b =>
    by_cases same : a = b
    · simp [same, get]
    · simp [same, get]
  · simp [get]

theorem getSet [DecidableEq α] {n : Nat} (t : SparseTree α n) (i j : Nat) (value : α) :
    (t.set i value).get j = if i % 2 ^ n = j % 2 ^ n then value else t.get j := by
  induction n with
  | zero => simp [set, get, Nat.mod_one]
  | succ n ih =>
    rw [getHalves t j]
    have hi := modTop i n
    have hj := modTop j n
    have li : i % 2 ^ n < 2 ^ n := Nat.mod_lt _ (Nat.two_pow_pos n)
    have lj : j % 2 ^ n < 2 ^ n := Nat.mod_lt _ (Nat.two_pow_pos n)
    by_cases bi : i.testBit n <;> by_cases bj : j.testBit n <;>
      simp only [bi, bj, if_true, if_false, Bool.false_eq_true] at hi hj <;>
      simp only [set, bi, bj, getJoin, ih, if_true, if_false, Bool.false_eq_true] <;>
      rw [hi, hj] <;> grind

theorem getFill [DecidableEq α] {n : Nat} (t : SparseTree α n) (first last i : Nat) (value : α) :
    (t.fill first last value).get i =
      if first ≤ i % 2 ^ n ∧ i % 2 ^ n < last then value else t.get i := by
  induction n generalizing first last with
  | zero =>
    have : (first = 0 ∧ 0 < last) ↔ (first ≤ i % 2 ^ 0 ∧ i % 2 ^ 0 < last) := by
      simp [Nat.mod_one]
    unfold fill
    by_cases h : first = 0 ∧ 0 < last
    · rw [if_pos h, if_pos (this.mp h)]; rfl
    · rw [if_neg h, if_neg (fun k => h (this.mpr k))]
  | succ n ih =>
    have hi := modTop i n
    have li : i % 2 ^ n < 2 ^ n := Nat.mod_lt _ (Nat.two_pow_pos n)
    have lt : i % 2 ^ (n + 1) < 2 ^ (n + 1) := Nat.mod_lt _ (Nat.two_pow_pos (n + 1))
    unfold fill
    split
    · rw [if_neg (by omega)]
    · split
      · rw [if_pos (by omega)]; rfl
      · rw [getHalves t i]
        by_cases bi : i.testBit n <;>
          simp only [bi, if_true, if_false, Bool.false_eq_true] at hi <;>
          simp only [getJoin, bi, ih, if_true, if_false, Bool.false_eq_true] <;>
          rw [hi] <;> grind

def Canonical : {n : Nat} → SparseTree α n → Prop
  | _, .uniform _ => True
  | _ + 1, .branch low high =>
    low.Canonical ∧ high.Canonical ∧ ∀ value, ¬ (low = .uniform value ∧ high = .uniform value)

theorem canonicalHalves {n : Nat} {t : SparseTree α (n + 1)} (canonical : t.Canonical) :
    t.halves.1.Canonical ∧ t.halves.2.Canonical := by
  cases t with
  | uniform value => exact ⟨trivial, trivial⟩
  | branch low high => exact ⟨canonical.1, canonical.2.1⟩

theorem canonicalJoin [DecidableEq α] {n : Nat} {low high : SparseTree α n}
    (hl : low.Canonical) (hh : high.Canonical) : (join low high).Canonical := by
  unfold join
  split
  · next a b =>
    split
    · exact trivial
    · next different =>
      refine ⟨trivial, trivial, ?_⟩
      rintro value ⟨ea, eb⟩
      injection ea with _ ha
      injection eb with _ hb
      exact different (ha.trans hb.symm)
  · next apart =>
    refine ⟨hl, hh, ?_⟩
    rintro value ⟨ea, eb⟩
    exact apart value value ea eb

theorem canonicalSet [DecidableEq α] {n : Nat} {t : SparseTree α n} (canonical : t.Canonical)
    (i : Nat) (value : α) : (t.set i value).Canonical := by
  induction n with
  | zero => exact trivial
  | succ n ih =>
    obtain ⟨hl, hh⟩ := canonicalHalves canonical
    unfold set
    split
    · exact canonicalJoin hl (ih hh)
    · exact canonicalJoin (ih hl) hh

theorem canonicalFill [DecidableEq α] {n : Nat} {t : SparseTree α n} (canonical : t.Canonical)
    (first last : Nat) (value : α) : (t.fill first last value).Canonical := by
  induction n generalizing first last with
  | zero => unfold fill; split <;> trivial
  | succ n ih =>
    obtain ⟨hl, hh⟩ := canonicalHalves canonical
    unfold fill
    split
    · exact canonical
    · split
      · exact trivial
      · exact canonicalJoin (ih hl _ _) (ih hh _ _)

theorem testBitOfLt {n i : Nat} (small : i < 2 ^ n) : i.testBit n = false :=
  Nat.testBit_lt_two_pow small

theorem getAddTop {n : Nat} (t : SparseTree α n) (i : Nat) : t.get (2 ^ n + i) = t.get i := by
  induction n generalizing i with
  | zero => cases t; rfl
  | succ n ih =>
    have shift : (2 ^ (n + 1) + i).testBit n = i.testBit n := by
      rw [Nat.pow_succ, Nat.mul_comm, Nat.two_mul, Nat.add_assoc, Nat.testBit_two_pow_add_eq,
        Nat.testBit_two_pow_add_eq, Bool.not_not]
    have twice : ∀ s : SparseTree α n, s.get (2 ^ (n + 1) + i) = s.get i := by
      intro s
      rw [Nat.pow_succ, Nat.mul_comm, Nat.two_mul, Nat.add_assoc, ih, ih]
    rw [getHalves, getHalves t i, shift, twice, twice]

theorem uniformOfGet {n : Nat} {t : SparseTree α n} {value : α} (canonical : t.Canonical)
    (same : ∀ i, i < 2 ^ n → t.get i = value) : t = .uniform value := by
  induction n with
  | zero => cases t with | uniform v => rw [show v = value from same 0 (by simp)]
  | succ n ih =>
    cases t with
    | uniform v => rw [show v = value from same 0 (Nat.two_pow_pos _)]
    | branch low high =>
      have pow : 2 ^ (n + 1) = 2 ^ n + 2 ^ n := by rw [Nat.pow_succ]; omega
      have hl : low = .uniform value := ih canonical.1 fun i small => by
        have h := same i (by omega)
        simpa [get, testBitOfLt small] using h
      have hh : high = .uniform value := ih canonical.2.1 fun i small => by
        have h := same (2 ^ n + i) (by omega)
        have bit : (2 ^ n + i).testBit n = true := by
          rw [Nat.testBit_two_pow_add_eq, testBitOfLt small]; rfl
        simpa [get, bit, getAddTop] using h
      exact absurd ⟨hl, hh⟩ (canonical.2.2 value)

theorem eqOfGet {n : Nat} {t u : SparseTree α n} (ct : t.Canonical) (cu : u.Canonical)
    (same : ∀ i, i < 2 ^ n → t.get i = u.get i) : t = u := by
  induction n with
  | zero =>
    cases t with | uniform a => cases u with | uniform b =>
    rw [show a = b from same 0 (by simp)]
  | succ n ih =>
    cases u with
    | uniform b => exact uniformOfGet ct same
    | branch lu hu =>
      cases t with
      | uniform a => exact (uniformOfGet cu fun i small => (same i small).symm).symm
      | branch lt ht =>
        have pow : 2 ^ (n + 1) = 2 ^ n + 2 ^ n := by rw [Nat.pow_succ]; omega
        have el : lt = lu := ih ct.1 cu.1 fun i small => by
          have h := same i (by omega)
          simpa [get, testBitOfLt small] using h
        have eh : ht = hu := ih ct.2.1 cu.2.1 fun i small => by
          have h := same (2 ^ n + i) (by omega)
          have bit : (2 ^ n + i).testBit n = true := by
            rw [Nat.testBit_two_pow_add_eq, testBitOfLt small]; rfl
          simpa [get, bit, getAddTop] using h
        rw [el, eh]

end SparseTree

structure SparseTable (α : Type) (n : Nat) where
  tree : SparseTree α n
  canonical : tree.Canonical
  deriving DecidableEq

namespace SparseTable

variable {α : Type} {n : Nat}

def uniform (value : α) : SparseTable α n := ⟨.uniform value, trivial⟩

def get (t : SparseTable α n) (i : Nat) : α := t.tree.get i

def set [DecidableEq α] (t : SparseTable α n) (i : Nat) (value : α) : SparseTable α n :=
  ⟨t.tree.set i value, SparseTree.canonicalSet t.canonical i value⟩

def fill [DecidableEq α] (t : SparseTable α n) (first last : Nat) (value : α) : SparseTable α n :=
  ⟨t.tree.fill first last value, SparseTree.canonicalFill t.canonical first last value⟩

def setFrom [DecidableEq α] (t : SparseTable α n) (i : Nat) : List α → SparseTable α n
  | [] => t
  | value :: rest => (t.set i value).setFrom (i + 1) rest

def getFrom (t : SparseTable α n) (i count : Nat) : List α :=
  (List.range count).map fun k => t.get (i + k)

@[simp] theorem getUniform (value : α) (i : Nat) :
    (uniform value : SparseTable α n).get i = value :=
  rfl

theorem getSet [DecidableEq α] (t : SparseTable α n) (i j : Nat) (value : α) :
    (t.set i value).get j = if i % 2 ^ n = j % 2 ^ n then value else t.get j :=
  SparseTree.getSet t.tree i j value

theorem getFill [DecidableEq α] (t : SparseTable α n) (first last i : Nat) (value : α) :
    (t.fill first last value).get i =
      if first ≤ i % 2 ^ n ∧ i % 2 ^ n < last then value else t.get i :=
  SparseTree.getFill t.tree first last i value

theorem eqOfGet {t u : SparseTable α n} (same : ∀ i, i < 2 ^ n → t.get i = u.get i) : t = u := by
  cases t with | mk t ct => cases u with | mk u cu =>
  have h : t = u := SparseTree.eqOfGet ct cu same
  subst h
  rfl

theorem getSetFrom [DecidableEq α] (t : SparseTable α n) (i j : Nat) (values : List α)
    (fits : i + values.length ≤ 2 ^ n) (inside : j < 2 ^ n) :
    (t.setFrom i values).get j = if i ≤ j then values[j - i]?.getD (t.get j) else t.get j := by
  induction values generalizing t i with
  | nil => simp [setFrom]
  | cons value rest ih =>
    simp only [List.length_cons] at fits
    rw [setFrom, ih _ _ (by omega), getSet, Nat.mod_eq_of_lt (by omega), Nat.mod_eq_of_lt inside]
    by_cases first : i = j
    · subst first
      rw [if_neg (by omega), if_pos rfl, if_pos (Nat.le_refl _)]
      simp
    · by_cases later : i < j
      · have shift : j - i = (j - (i + 1)) + 1 := by omega
        rw [if_pos (by omega), if_neg first, if_pos (by omega), shift, List.getElem?_cons_succ]
      · rw [if_neg (by omega), if_neg first, if_neg (by omega)]

@[simp] theorem getFromLength (t : SparseTable α n) (i count : Nat) :
    (t.getFrom i count).length = count := by
  simp [getFrom]

theorem getFromGet (t : SparseTable α n) (i count k : Nat) :
    (t.getFrom i count)[k]? = if k < count then some (t.get (i + k)) else none := by
  by_cases small : k < count <;> simp [getFrom, small]

end SparseTable

end GameConsole
