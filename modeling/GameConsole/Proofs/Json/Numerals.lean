import GameConsole.Json.Record
import Mathlib.Data.List.TakeWhile

/-! Natural numbers as they are written, and as they are read: the digits of a number, followed by
anything that cannot go on with a number, are read as that number again. -/
namespace GameConsole.Json

/- What follows a value: it is neither a digit nor does it begin a fraction or an exponent. -/
def Delimited (rest : List Char) : Prop :=
  ∀ c ∈ rest.head?, c.isDigit = false ∧ c ∉ ['.', 'e', 'E']

theorem delimitedCons {c : Char} (ends : c.isDigit = false ∧ c ∉ ['.', 'e', 'E'])
    (rest : List Char) : Delimited (c :: rest) := by
  rintro _ ⟨⟩
  exact ends

abbrev digitsOf (n : Nat) : List Nat := (Nat.toDigits 10 n).map digitValue

theorem valueOfDigits (n : Nat) : valueOf (digitsOf n) = n := by
  have folded : valueOf (digitsOf n) = Nat.ofDigitChars 10 (Nat.toDigits 10 n) 0 := by
    rw [valueOf, digitsOf, List.foldl_map, Nat.ofDigitChars_eq_foldl]
    simp only [digitValue, Nat.mul_comm]
  rw [folded, Nat.ofDigitChars_ten_toDigits]

theorem digitsBelow {n : Nat} (small : n < 10) : digitsOf n = [n] := by
  rw [digitsOf, Nat.toDigits_of_lt_base small, List.map_singleton, digitValue]
  exact congrArg (fun digit => [digit]) (Nat.toNat_digitChar_sub_48_of_lt_ten small)

theorem digitsAbove {n : Nat} (large : 10 ≤ n) : digitsOf n = digitsOf (n / 10) ++ [n % 10] := by
  have last : digitsOf (n % 10) = [n % 10] := digitsBelow (Nat.mod_lt _ (by decide))
  rw [digitsOf, Nat.toDigits_of_lt_base (Nat.mod_lt _ (by decide))] at last
  rw [digitsOf, Nat.toDigits_of_base_le (by decide) large, List.map_append, last]

theorem leadingDigit {n first : Nat} {rest : List Nat} (digits : digitsOf n = first :: rest)
    (zero : first = 0) : n = 0 := by
  induction n using Nat.strongRecOn generalizing rest with
  | ind n ih =>
    obtain small | large := Nat.lt_or_ge n 10
    · rw [digitsBelow small] at digits
      cases digits
      exact zero
    · rw [digitsAbove large] at digits
      cases front : digitsOf (n / 10) with
      | nil => exact absurd (List.map_eq_nil_iff.mp front) Nat.toDigits_ne_nil
      | cons head tail =>
        rw [front] at digits
        obtain ⟨rfl, -⟩ := List.cons.inj digits
        have none := ih (n / 10) (by omega) front
        omega

theorem noLeadingZero (n second : Nat) (rest : List Nat) : digitsOf n ≠ 0 :: second :: rest := by
  intro digits
  have zero := leadingDigit digits rfl
  subst zero
  rw [digitsBelow (by decide)] at digits
  cases digits

theorem foldlGrows (digits : List Nat) (start : Nat) :
    start ≤ digits.foldl (fun acc digit => acc * 10 + digit) start := by
  induction digits generalizing start with
  | nil => exact Nat.le_refl _
  | cons digit rest ih => exact Nat.le_trans (by omega) (ih (start * 10 + digit))

theorem magnitudeFits (digits : List Nat) (start : Nat)
    (fits : digits.foldl (fun acc digit => acc * 10 + digit) start ≤ Magnitude.widest) :
    digits.foldl Magnitude.appendWhole ⟨start, 0⟩ =
      ⟨digits.foldl (fun acc digit => acc * 10 + digit) start, 0⟩ := by
  induction digits generalizing start with
  | nil => rfl
  | cons digit rest ih =>
    have small := Nat.le_trans (foldlGrows rest (start * 10 + digit)) fits
    have appended : Magnitude.appendWhole ⟨start, 0⟩ digit = ⟨start * 10 + digit, 0⟩ :=
      if_pos ⟨rfl, small⟩
    rw [List.foldl_cons, appended]
    exact ih _ fits

theorem nearestDoubleLe (n : Nat) : nearestDouble n ≤ 2 * n := by
  obtain rfl | positive := Nat.eq_zero_or_pos n
  · decide
  unfold nearestDouble
  dsimp only
  generalize unit : 2 ^ (n.log2 - 52) = size
  have width : size ≤ n := by
    rw [← unit]
    exact Nat.le_trans (Nat.pow_le_pow_right Nat.two_pos (Nat.sub_le _ _))
      (Nat.log2_self_le (Nat.ne_of_gt positive))
  have kept : n / size * size ≤ n := Nat.div_mul_le_self n size
  split
  · rw [Nat.succ_mul]
    omega
  · omega

theorem withinDouble {n : Nat} (fits : n ≤ Magnitude.widest) :
    Magnitude.beyondDouble ⟨n, 0⟩ = false := by
  have bound : nearestDouble n * nearestDouble (10 ^ (0 : Int).toNat) < 2 ^ 1024 - 2 ^ 970 := by
    have one : nearestDouble (10 ^ (0 : Int).toNat) = 1 := by decide
    have wide : 2 * Magnitude.widest < 2 ^ 1024 - 2 ^ 970 := by decide +kernel
    rw [one, Nat.mul_one]
    exact Nat.lt_of_le_of_lt (Nat.le_trans (nearestDoubleLe n) (Nat.mul_le_mul_left 2 fits)) wide
  unfold Magnitude.beyondDouble
  dsimp only
  rw [Bool.and_eq_false_iff]
  right
  rw [decide_eq_false_iff_not]
  rintro (large | ⟨-, large⟩)
  · exact absurd large (by decide)
  · exact Nat.not_le.mpr bound large

theorem okBind {ε α β : Type} (value : α) (f : α → Except ε β) : (.ok value >>= f) = f value := rfl

theorem digitFirst (n : Nat) :
    ∃ c tail, Nat.toDigits 10 n = c :: tail ∧ c.isDigit = true := by
  obtain ⟨c, tail, written⟩ := List.exists_cons_of_ne_nil (Nat.toDigits_ne_nil (n := n) (b := 10))
  exact ⟨c, tail, written, Nat.isDigit_of_mem_toDigits (by decide) (by decide)
    (written ▸ List.mem_cons_self)⟩

theorem digitsTaken {n : Nat} {rest : List Char} (delimited : Delimited rest) :
    takeDigits (Nat.toDigits 10 n ++ rest) = (digitsOf n, rest) := by
  have digits : ∀ c ∈ Nat.toDigits 10 n, c.isDigit = true := fun c member =>
    Nat.isDigit_of_mem_toDigits (by decide) (by decide) member
  have none : rest.takeWhile Char.isDigit = [] ∧ rest.dropWhile Char.isDigit = rest := by
    cases rest with
    | nil => exact ⟨rfl, rfl⟩
    | cons c rest =>
      have other : c.isDigit = false := (delimited c rfl).1
      simp [other]
  rw [takeDigits, List.takeWhile_append_of_pos digits, List.dropWhile_append_of_pos digits, none.1,
    none.2, List.append_nil]

theorem wholeScanned {n : Nat} {rest : List Char} (delimited : Delimited rest) :
    scanWhole (Nat.toDigits 10 n ++ rest) = .ok (digitsOf n, rest) := by
  have scanned : scanDigits (Nat.toDigits 10 n ++ rest) = .ok (digitsOf n, rest) := by
    unfold scanDigits
    rw [digitsTaken delimited]
    split
    case h_1 empty =>
      have none : digitsOf n = [] := congrArg Prod.fst empty
      exact absurd (List.map_eq_nil_iff.mp none) Nat.toDigits_ne_nil
    case h_2 found =>
      obtain ⟨rfl, rfl⟩ := Prod.mk.inj found
      rfl
  rw [scanWhole, scanned, okBind]
  dsimp only
  split
  case h_1 zero => exact absurd zero (noLeadingZero n _ _)
  case h_2 => rfl

theorem numberScanned {n : Nat} {rest : List Char} (delimited : Delimited rest) :
    scanNumber (Nat.toDigits 10 n ++ rest) = .ok (⟨false, digitsOf n, none, none⟩, rest) := by
  have unsigned : scanSign (Nat.toDigits 10 n ++ rest) = (false, Nat.toDigits 10 n ++ rest) := by
    obtain ⟨c, tail, written, digit⟩ := digitFirst n
    rw [written, List.cons_append]
    unfold scanSign
    split
    case h_1 minus =>
      obtain ⟨rfl, -⟩ := List.cons.inj minus
      cases digit
    case h_2 => rfl
  have whole : scanFraction rest = .ok (none, rest) := by
    unfold scanFraction
    split
    · exact absurd (delimited _ rfl).2 (by simp)
    · rfl
  have plain : scanExponent rest = .ok (none, rest) := by
    unfold scanExponent
    split
    · exact absurd (delimited _ rfl).2 (by simp)
    · exact absurd (delimited _ rfl).2 (by simp)
    · rfl
  simp only [scanNumber, unsigned, wholeScanned delimited, okBind, whole, plain]
  rfl

theorem naturalRead {n greatest : Nat} {text rest : List Char} (fits : n ≤ greatest)
    (small : greatest ≤ Magnitude.widest) (delimited : Delimited rest)
    (written : skipBlanks text = Nat.toDigits 10 n ++ rest) :
    readNatural greatest text = .ok (n, rest) := by
  obtain ⟨c, tail, first, digit⟩ := digitFirst n
  have scanned := numberScanned (n := n) delimited
  have whole : valueOf (digitsOf n) ≤ Magnitude.widest := by
    rw [valueOfDigits]
    exact Nat.le_trans fits small
  have magnitude : Number.magnitude ⟨false, digitsOf n, none, none⟩ =
      ⟨valueOf (digitsOf n), 0⟩ := by
    rw [Number.magnitude]
    dsimp only
    rw [magnitudeFits (digitsOf n) 0 whole]
    rfl
  have within : Number.beyondDouble ⟨false, digitsOf n, none, none⟩ = false := by
    rw [Number.beyondDouble, magnitude]
    exact withinDouble whole
  have natural : Number.natural? ⟨false, digitsOf n, none, none⟩ = some n := by
    rw [Number.natural?, valueOfDigits]
    rfl
  rw [first, List.cons_append] at scanned written
  unfold readNatural
  rw [written]
  dsimp only
  rw [if_pos (.inr digit), scanned, okBind]
  dsimp only
  rw [within, natural]
  exact if_pos fits

end GameConsole.Json
