import GameConsole.Console.Lifecycle
import Mathlib.Data.List.Induction
import Mathlib.Data.List.Perm.Basic

/-! Two parties change a state that they share, and each tells an observer of its changes, in steps
of their own. Every change is told of once; the observer hears of them in their order as long as a
party does not change the state while the other one still has to tell of its change. -/
namespace GameConsole.Console

inductive Party where
  | controller | thread
  deriving DecidableEq

inductive Notice where
  | entered (party : Party) (state : Lifecycle)
  | told (party : Party) (state : Lifecycle)
  deriving DecidableEq

namespace Notice

def party : Notice → Party
  | .entered party _ | .told party _ => party

def change? : Notice → Option Lifecycle
  | .entered _ state => some state
  | .told .. => none

def report? : Notice → Option Lifecycle
  | .told _ state => some state
  | .entered .. => none

/- What is still to be told afterwards: a change is told of before the next one, and nothing else
is told. -/
def follow (due : Option Lifecycle) : Notice → Option (Option Lifecycle)
  | .entered _ state => if due = none then some (some state) else none
  | .told _ state => if due = some state then some none else none

end Notice

def changes (log : List Notice) : List Lifecycle := log.filterMap Notice.change?

def reports (log : List Notice) : List Lifecycle := log.filterMap Notice.report?

def owed (party : Party) (log : List Notice) : Option (Option Lifecycle) :=
  (log.filter fun notice => notice.party = party).foldlM Notice.follow none

def Lawful (log : List Notice) : Prop := ∀ party, (owed party log).isSome

def pendingOf (party : Party) (log : List Notice) : List Lifecycle :=
  (owed party log).join.toList

def pending (log : List Notice) : List Lifecycle :=
  pendingOf .controller log ++ pendingOf .thread log

def Overlapping (log : List Notice) : Prop := 1 < (pending log).length

instance (log : List Notice) : Decidable (Overlapping log) :=
  inferInstanceAs (Decidable (1 < (pending log).length))

section Snoc
variable {party : Party} {log : List Notice} {notice : Notice} {state : Lifecycle}

theorem owedSnoc (party : Party) (log : List Notice) (notice : Notice) :
    owed party (log ++ [notice]) =
      if notice.party = party then (owed party log).bind (notice.follow ·)
      else owed party log := by
  unfold owed
  rw [List.filter_append, List.foldlM_append]
  by_cases same : notice.party = party
  · simp [same]
  · simp [same]

theorem owedOther (other : notice.party ≠ party) :
    owed party (log ++ [notice]) = owed party log := by
  rw [owedSnoc, if_neg other]

theorem pendingOther (other : notice.party ≠ party) :
    pendingOf party (log ++ [notice]) = pendingOf party log := by
  rw [pendingOf, owedOther other, pendingOf]

theorem Lawful.start (lawful : Lawful (log ++ [notice])) : Lawful log := by
  intro party
  have here := lawful party
  rw [owedSnoc] at here
  split at here
  · cases found : owed party log with
    | none => simp [found] at here
    | some due => rfl
  · exact here

theorem owedEntered (clear : owed party log = some none) :
    owed party (log ++ [.entered party state]) = some (some state) := by
  rw [owedSnoc, if_pos (by rfl), clear]
  rfl

theorem owedTold (owes : owed party log = some (some state)) :
    owed party (log ++ [.told party state]) = some none := by
  rw [owedSnoc, if_pos (by rfl), owes]
  simp [Notice.follow]

theorem enteredPending (lawful : (owed party (log ++ [.entered party state])).isSome) :
    pendingOf party log = [] ∧ pendingOf party (log ++ [.entered party state]) = [state] := by
  unfold pendingOf
  rw [owedSnoc, if_pos (by rfl)] at lawful ⊢
  match found : owed party log with
  | none => simp [found] at lawful
  | some none => exact ⟨rfl, rfl⟩
  | some (some due) => simp [found, Notice.follow] at lawful

theorem toldPending (lawful : (owed party (log ++ [.told party state])).isSome) :
    pendingOf party log = [state] ∧ pendingOf party (log ++ [.told party state]) = [] := by
  unfold pendingOf
  rw [owedSnoc, if_pos (by rfl)] at lawful ⊢
  match found : owed party log with
  | none => simp [found] at lawful
  | some none => simp [found, Notice.follow] at lawful
  | some (some due) =>
    by_cases same : due = state
    · subst same
      simp [Notice.follow]
    · simp [found, Notice.follow, same] at lawful

theorem enteredInProgress (lawful : Lawful (log ++ [.entered party state])) :
    (pending (log ++ [.entered party state])).Perm (pending log ++ [state]) := by
  obtain ⟨clear, owes⟩ := enteredPending (lawful party)
  unfold pending
  cases party with
  | controller =>
    have other : pendingOf .thread (log ++ [.entered .controller state]) = pendingOf .thread log :=
      pendingOther (by simp [Notice.party])
    rw [clear, owes, other]
    exact List.perm_append_comm
  | thread =>
    have other : pendingOf .controller (log ++ [.entered .thread state]) =
        pendingOf .controller log := pendingOther (by simp [Notice.party])
    rw [clear, owes, other, List.append_nil]

theorem toldInProgress (lawful : Lawful (log ++ [.told party state])) :
    (pending log).Perm (pending (log ++ [.told party state]) ++ [state]) := by
  obtain ⟨owes, clear⟩ := toldPending (lawful party)
  unfold pending
  cases party with
  | controller =>
    have other : pendingOf .thread (log ++ [.told .controller state]) = pendingOf .thread log :=
      pendingOther (by simp [Notice.party])
    rw [clear, owes, other]
    exact List.perm_append_comm
  | thread =>
    have other : pendingOf .controller (log ++ [.told .thread state]) =
        pendingOf .controller log := pendingOther (by simp [Notice.party])
    rw [clear, owes, other, List.append_nil]

end Snoc

section Snoc
variable (log : List Notice) (party : Party) (state : Lifecycle)

@[simp] theorem changesEntered :
    changes (log ++ [.entered party state]) = changes log ++ [state] := by
  simp [changes, Notice.change?]

@[simp] theorem changesTold : changes (log ++ [.told party state]) = changes log := by
  simp [changes, Notice.change?]

@[simp] theorem reportsEntered : reports (log ++ [.entered party state]) = reports log := by
  simp [reports, Notice.report?]

@[simp] theorem reportsTold :
    reports (log ++ [.told party state]) = reports log ++ [state] := by
  simp [reports, Notice.report?]

end Snoc

theorem reportsPerm {log : List Notice} (lawful : Lawful log) :
    (reports log ++ pending log).Perm (changes log) := by
  induction log using List.reverseRecOn with
  | nil => rfl
  | append_singleton log notice ih =>
    have before := ih lawful.start
    cases notice with
    | entered party state =>
      rw [reportsEntered, changesEntered]
      refine ((enteredInProgress lawful).append_left _).trans ?_
      rw [← List.append_assoc]
      exact before.append_right _
    | told party state =>
      rw [reportsTold, changesTold]
      refine List.Perm.trans ?_ before
      rw [List.append_assoc]
      refine List.Perm.append_left _ ?_
      exact List.perm_append_comm.trans (toldInProgress lawful).symm

theorem reportsOrdered {early late : List Notice} (lawful : Lawful (early ++ late))
    (clear : pending early = [])
    (apart : ∀ part, part <+: late → ¬ Overlapping (early ++ part)) :
    reports late ++ pending (early ++ late) = changes late := by
  induction late using List.reverseRecOn with
  | nil => rw [List.append_nil, clear]; rfl
  | append_singleton late notice ih =>
    rw [← List.append_assoc] at lawful ⊢
    have before := ih lawful.start fun part within =>
      apart part (within.trans (List.prefix_append ..))
    have here : (pending (early ++ late)).length ≤ 1 :=
      Nat.le_of_not_lt (apart late (List.prefix_append ..))
    have after : (pending (early ++ late ++ [notice])).length ≤ 1 := by
      rw [List.append_assoc]
      exact Nat.le_of_not_lt (apart _ (List.prefix_refl _))
    cases notice with
    | entered party state =>
      have one := enteredInProgress lawful
      have none : pending (early ++ late) = [] := by
        have length := one.length_eq
        rw [List.length_append, List.length_singleton] at length
        exact List.eq_nil_of_length_eq_zero (by omega)
      rw [none] at one before
      rw [reportsEntered, changesEntered, ← before, List.append_nil, List.perm_singleton.mp one]
    | told party state =>
      have one := toldInProgress lawful
      have none : pending (early ++ late ++ [.told party state]) = [] := by
        have length := one.length_eq
        rw [List.length_append, List.length_singleton] at length
        exact List.eq_nil_of_length_eq_zero (by omega)
      rw [none] at one
      rw [reportsTold, changesTold, ← before, none, List.append_nil, List.perm_singleton.mp one]

theorem changesSome {log : List Notice} (ordered : reports log = changes log) (busy : log ≠ []) :
    changes log ≠ [] := by
  obtain ⟨notice, rest, rfl⟩ := List.exists_cons_of_ne_nil busy
  intro none
  rw [none] at ordered
  cases notice with
  | entered party state => simp [changes, Notice.change?] at none
  | told party state => simp [reports, Notice.report?] at ordered

theorem lastReport {early late : List Notice} (ordered : reports late = changes late)
    (busy : late ≠ []) (default : Lifecycle) :
    (reports (early ++ late)).getLast? = some ((changes (early ++ late)).getLastD default) := by
  have last := List.getLast?_eq_some_getLast (changesSome ordered busy)
  have reported : reports (early ++ late) = reports early ++ reports late := List.filterMap_append
  have changed : changes (early ++ late) = changes early ++ changes late := List.filterMap_append
  rw [reported, changed, ordered, List.getLastD_eq_getLast?, List.getLast?_append,
    List.getLast?_append, last]
  rfl

end GameConsole.Console
