import GameConsole.Syscall.Devices

/-! What holds of the handlers of all modules holds of every handler that a dispatcher finds once
they are installed; and if no number is taken twice, it finds all of them, whatever the order in
which the modules were installed. -/
namespace GameConsole.Syscall

variable {δ : Type} {P : UInt64 → Handler δ → Prop}

def Module.Each (P : UInt64 → Handler δ → Prop) (m : Module δ) : Prop :=
  ∀ entry ∈ m.handlers, P entry.1 entry.2

def Dispatcher.Each (P : UInt64 → Handler δ → Prop) (d : Dispatcher δ) : Prop :=
  ∀ number handler, d.handlers.find? number = some handler → P number handler

namespace Dispatcher

theorem emptyEach : (empty : Dispatcher δ).Each P := fun _ _ found => by cases found

theorem registerEach {d : Dispatcher δ} (each : d.Each P) {number : UInt64} {handler : Handler δ}
    (new : P number handler) : (d.register number handler).1.Each P := by
  intro other found place
  simp only [register, Directory.findPut] at place
  split at place
  case isTrue same =>
    cases place
    exact same ▸ new
  case isFalse => exact each other found place

theorem registerAllEach {d : Dispatcher δ} (each : d.Each P) {entries : List (UInt64 × Handler δ)}
    (all : ∀ entry ∈ entries, P entry.1 entry.2) : (d.registerAll entries).1.Each P := by
  induction entries generalizing d with
  | nil => exact each
  | cons entry rest ih =>
    rw [List.forall_mem_cons] at all
    exact ih (registerEach each all.1) all.2

theorem installAllEach {d : Dispatcher δ} (each : d.Each P) {modules : List (Module δ)}
    (all : ∀ m ∈ modules, m.Each P) : (d.installAll modules).1.Each P := by
  induction modules generalizing d with
  | nil => exact each
  | cons m rest ih =>
    rw [List.forall_mem_cons] at all
    exact ih (registerAllEach each all.1) all.2

theorem registerAllOther (d : Dispatcher δ) {entries : List (UInt64 × Handler δ)} {number : UInt64}
    (other : number ∉ entries.map Prod.fst) :
    (d.registerAll entries).1.handlers.find? number = d.handlers.find? number := by
  induction entries generalizing d with
  | nil => rfl
  | cons entry rest ih =>
    rw [List.map_cons, List.mem_cons, not_or] at other
    refine (ih (d.register entry.1 entry.2).1 other.2).trans ?_
    rw [register, Directory.findPut, if_neg (Ne.symm other.1)]

theorem registerAllFinds (d : Dispatcher δ) {entries : List (UInt64 × Handler δ)}
    (distinct : (entries.map Prod.fst).Nodup) {entry : UInt64 × Handler δ}
    (listed : entry ∈ entries) :
    (d.registerAll entries).1.handlers.find? entry.1 = some entry.2 := by
  induction entries generalizing d with
  | nil => cases listed
  | cons first rest ih =>
    rw [List.map_cons, List.nodup_cons] at distinct
    cases listed with
    | head =>
      refine (registerAllOther (d.register entry.1 entry.2).1 distinct.1).trans ?_
      rw [register, Directory.findPut, if_pos rfl]
    | tail _ later => exact ih (d.register first.1 first.2).1 distinct.2 later

theorem registerAllAppend (d : Dispatcher δ) (first later : List (UInt64 × Handler δ)) :
    (d.registerAll (first ++ later)).1 = ((d.registerAll first).1.registerAll later).1 := by
  induction first generalizing d with
  | nil => rfl
  | cons entry rest ih => exact ih (d.register entry.1 entry.2).1

theorem installAllHandlers (d : Dispatcher δ) (modules : List (Module δ)) :
    (d.installAll modules).1 = (d.registerAll (modules.flatMap Module.handlers)).1 := by
  induction modules generalizing d with
  | nil => rfl
  | cons m rest ih =>
    rw [List.flatMap_cons, registerAllAppend]
    exact ih (d.install m).1

theorem registerAllCounts (d : Dispatcher δ) (entries : List (UInt64 × Handler δ)) :
    (d.registerAll entries).1.total = d.total ∧
      (d.registerAll entries).1.unimplemented = d.unimplemented := by
  induction entries generalizing d with
  | nil => exact ⟨rfl, rfl⟩
  | cons entry rest ih => exact ih (d.register entry.1 entry.2).1

theorem installAllCounts (d : Dispatcher δ) (modules : List (Module δ)) :
    (d.installAll modules).1.total = d.total ∧
      (d.installAll modules).1.unimplemented = d.unimplemented := by
  rw [installAllHandlers]
  exact d.registerAllCounts _

theorem installAllFinds (d : Dispatcher δ) {modules : List (Module δ)}
    (distinct : ((modules.flatMap Module.handlers).map Prod.fst).Nodup) {m : Module δ}
    (present : m ∈ modules) {entry : UInt64 × Handler δ} (listed : entry ∈ m.handlers) :
    (d.installAll modules).1.handlers.find? entry.1 = some entry.2 := by
  rw [installAllHandlers]
  exact registerAllFinds d distinct (List.mem_flatMap.mpr ⟨m, present, listed⟩)

end Dispatcher

end GameConsole.Syscall
