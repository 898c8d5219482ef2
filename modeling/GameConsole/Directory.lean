/-! Values under distinct keys, newest first. -/
namespace GameConsole

structure Directory (κ α : Type) where
  entries : List (κ × α)
  distinct : (entries.map Prod.fst).Nodup

namespace Directory

variable {κ α : Type} [DecidableEq κ]

def empty : Directory κ α := ⟨[], by simp⟩

def find? (d : Directory κ α) (key : κ) : Option α :=
  (d.entries.find? fun entry => entry.1 = key).map Prod.snd

def contains (d : Directory κ α) (key : κ) : Bool := (d.find? key).isSome

def size (d : Directory κ α) : Nat := d.entries.length

def erase (d : Directory κ α) (key : κ) : Directory κ α where
  entries := d.entries.filter fun entry => entry.1 ≠ key
  distinct := d.distinct.sublist (List.filter_sublist.map _)

def put (d : Directory κ α) (key : κ) (value : α) : Directory κ α where
  entries := (key, value) :: (d.erase key).entries
  distinct := by
    rw [List.map_cons, List.nodup_cons]
    refine ⟨?_, (d.erase key).distinct⟩
    simp [erase]

theorem findErase (d : Directory κ α) (key other : κ) :
    (d.erase key).find? other = if key = other then none else d.find? other := by
  unfold find? erase
  rw [List.find?_filter]
  by_cases same : key = other
  · subst same
    simp
  · have agree : ∀ entry : κ × α,
        (decide (decide (entry.1 ≠ key) = true ∧ decide (entry.1 = other) = true)) =
          decide (entry.1 = other) := by
      intro entry
      by_cases h : entry.1 = other <;> simp [h, Ne.symm same]
    simp only [agree, same, if_false]

theorem findPut (d : Directory κ α) (key other : κ) (value : α) :
    (d.put key value).find? other = if key = other then some value else d.find? other := by
  have rest := findErase d key other
  unfold find? at rest ⊢
  by_cases same : key = other
  · simp [put, same]
  · simp only [same, if_false] at rest ⊢
    simp only [put, List.find?_cons, same, decide_false]
    exact rest

theorem containsErase (d : Directory κ α) (key other : κ) :
    (d.erase key).contains other = (!decide (key = other) && d.contains other) := by
  rw [contains, findErase]
  split <;> simp [contains, *]

theorem containsPut (d : Directory κ α) (key other : κ) (value : α) :
    (d.put key value).contains other = (decide (key = other) || d.contains other) := by
  rw [contains, findPut]
  split <;> simp [contains, *]

end Directory

end GameConsole
