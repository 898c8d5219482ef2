import GameConsole.Proofs.PlainData

/-! Byte strings put together from parts of any widths, as a record in memory is. Every part is
found again at its offset, every byte lies in one of the parts, and the parts at their offsets
determine the whole. -/
namespace GameConsole.Layout

abbrev Field := Nat × List UInt8

def placed : Nat → List (List UInt8) → List Field
  | _, [] => []
  | offset, part :: rest => (offset, part) :: placed (offset + part.length) rest

def Field.In (field : Field) (raw : List UInt8) : Prop :=
  (raw.drop field.1).take field.2.length = field.2

def Field.Covers (field : Field) (k : Nat) : Prop :=
  field.1 ≤ k ∧ k < field.1 + field.2.length

theorem Field.In.byte {field : Field} {raw : List UInt8} {k : Nat} (found : field.In raw)
    (covers : field.Covers k) : raw[k]? = field.2[k - field.1]? := by
  obtain ⟨first, last⟩ := covers
  rw [← (found : _ = field.2), List.getElem?_take_of_lt (by omega), List.getElem?_drop]
  congr 1
  omega

theorem placedFound (before : List UInt8) {parts : List (List UInt8)} {field : Field}
    (member : field ∈ placed before.length parts) : field.In (before ++ parts.flatten) := by
  induction parts generalizing before with
  | nil => simp [placed] at member
  | cons part rest ih =>
    rcases List.mem_cons.mp member with rfl | later
    · simp [Field.In]
    · have next := ih (before ++ part) (by simpa using later)
      simpa using next

theorem placedCovers {parts : List (List UInt8)} {offset k : Nat} (first : offset ≤ k)
    (last : k < offset + parts.flatten.length) : ∃ field ∈ placed offset parts, field.Covers k := by
  induction parts generalizing offset with
  | nil =>
    simp at last
    omega
  | cons part rest ih =>
    by_cases here : k < offset + part.length
    · exact ⟨(offset, part), List.mem_cons_self, first, here⟩
    · rw [List.flatten_cons, List.length_append] at last
      have behind : offset + part.length ≤ k := Nat.le_of_not_lt here
      obtain ⟨field, member, covers⟩ := ih behind (by omega)
      exact ⟨field, List.mem_cons_of_mem _ member, covers⟩

theorem placedDetermines {raw : List UInt8} {parts : List (List UInt8)} {offset : Nat}
    (length : raw.length = offset + parts.flatten.length)
    (found : ∀ field ∈ placed offset parts, field.In raw) : raw.drop offset = parts.flatten := by
  induction parts generalizing offset with
  | nil => simp [length]
  | cons part rest ih =>
    rw [List.flatten_cons, List.length_append, ← Nat.add_assoc] at length
    have first : (raw.drop offset).take part.length = part := found _ List.mem_cons_self
    have others := ih length fun field member => found field (List.mem_cons_of_mem _ member)
    calc raw.drop offset
        = (raw.drop offset).take part.length ++ (raw.drop offset).drop part.length :=
          (List.take_append_drop _ _).symm
      _ = (part :: rest).flatten := by rw [first, List.drop_drop, others, List.flatten_cons]

/- A byte string that has the fields at their offsets and is zero everywhere else. -/
structure Lays (raw : List UInt8) (fields : List Field) : Prop where
  found : ∀ field ∈ fields, field.In raw
  blank : ∀ k < raw.length, (∀ field ∈ fields, ¬ field.Covers k) → raw[k]? = some 0

theorem partsLay {parts : List (List UInt8)} {fields : List Field}
    (among : ∀ field ∈ fields, field ∈ placed 0 parts)
    (others : ∀ field ∈ placed 0 parts, field ∈ fields ∨ ∀ value ∈ field.2, value = 0) :
    Lays parts.flatten fields where
  found field member := placedFound [] (among field member)
  blank := by
    intro k inside uncovered
    obtain ⟨field, member, covers⟩ := placedCovers (Nat.zero_le k) (by simpa using inside)
    rcases others field member with listed | zeros
    · exact absurd covers (uncovered field listed)
    · have found : field.In parts.flatten := placedFound [] member
      have small : k - field.1 < field.2.length := by
        obtain ⟨start, finish⟩ := covers
        omega
      rw [found.byte covers, List.getElem?_eq_getElem small]
      exact congrArg some (zeros _ (List.getElem_mem small))

end GameConsole.Layout
