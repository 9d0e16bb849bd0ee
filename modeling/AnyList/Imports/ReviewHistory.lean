import Mathlib.Data.List.Basic

namespace AnyList.Imports

variable {α δ : Type}

/-- What happens to a reviewed draft over its life. -/
inductive Event (α : Type)
  | edited (revision : Int) (items : List α)
  | accepted (revision : Int) (items : List α)
  | applied (items : List α)
  | returned (revision : Int) (items : List α)
  | failed
  | cancelled
  | expired

def Event.Closes : Event α → Prop
  | failed | cancelled | expired => True
  | _ => False

/-- Where a draft stands: in review at a revision, accepted, applied or closed. -/
inductive Phase (α : Type)
  | review (revision : Int) (items : List α)
  | accepted (items : List α)
  | applied
  | closed

/-- A life that follows the rules: a commit accepts what is in review, only what was accepted is
applied, and nothing follows an application. -/
inductive History (revision₀ : Int) (items₀ : List α) : List (Event α) → Phase α → Prop
  | start : History revision₀ items₀ [] (.review revision₀ items₀)
  | edit {log : List (Event α)} {revision revision' : Int} {items items' : List α} :
      History revision₀ items₀ log (.review revision items) →
      History revision₀ items₀ (log ++ [.edited revision' items']) (.review revision' items')
  | accept {log : List (Event α)} {revision : Int} {items : List α} :
      History revision₀ items₀ log (.review revision items) →
      History revision₀ items₀ (log ++ [.accepted revision items]) (.accepted items)
  | apply {log : List (Event α)} {items : List α} :
      History revision₀ items₀ log (.accepted items) →
      History revision₀ items₀ (log ++ [.applied items]) .applied
  | reopen {log : List (Event α)} {items : List α} {revision : Int} :
      History revision₀ items₀ log (.accepted items) →
      History revision₀ items₀ (log ++ [.returned revision items]) (.review revision items)
  | close {log : List (Event α)} {phase : Phase α} {event : Event α} :
      History revision₀ items₀ log phase → phase ≠ .applied → event.Closes →
      History revision₀ items₀ (log ++ [event]) .closed

def Event.acceptance : Event α → Option (Int × List α)
  | accepted revision items => some (revision, items)
  | _ => none

def Event.application : Event α → Option (List α)
  | applied items => some items
  | _ => none

/-- The last accepted revision of a history, with its items. -/
def lastAccepted (log : List (Event α)) : Option (Int × List α) :=
  (log.filterMap Event.acceptance).getLast?

def applications (log : List (Event α)) : List (List α) := log.filterMap Event.application

theorem applications_append (log : List (Event α)) (event : Event α) :
    applications (log ++ [event]) = applications log ++ event.application.toList := by
  rw [applications, List.filterMap_append, ← applications]
  cases event <;> rfl

theorem Event.Closes.application_eq_none {event : Event α} (h : event.Closes) :
    event.application = none := by
  cases event <;> first | exact h.elim | rfl

namespace History

variable {revision₀ : Int} {items₀ items : List α} {log : List (Event α)} {phase : Phase α}

theorem not_closes (h : History revision₀ items₀ log phase) (hphase : phase ≠ .closed) :
    ∀ event ∈ log, ¬event.Closes := by
  induction h with
  | start => simp
  | edit h ih | accept h ih | apply h ih | reopen h ih =>
    rw [List.forall_mem_append]
    exact ⟨ih (by simp), by simp [Event.Closes]⟩
  | close => exact absurd rfl hphase

theorem applications_eq_nil (h : History revision₀ items₀ log phase) (hphase : phase ≠ .applied) :
    applications log = [] := by
  induction h with
  | start => rfl
  | edit h ih | accept h ih | reopen h ih =>
    rw [applications_append, ih (by simp)]
    rfl
  | apply => exact absurd rfl hphase
  | close h hopen hcloses ih =>
    rw [applications_append, ih hopen, hcloses.application_eq_none]
    rfl

/-- What stands accepted is what the last accepted commit found in review. -/
theorem lastAccepted_eq (h : History revision₀ items₀ log (.accepted items)) :
    ∃ revision, lastAccepted log = some (revision, items) := by
  cases h with
  | @accept log revision _ h => exact ⟨revision, by simp [lastAccepted, Event.acceptance]⟩

theorem of_applied (h : History revision₀ items₀ log .applied) :
    ∃ before revision items, log = before ++ [.applied items] ∧ applications log = [items] ∧
      lastAccepted before = some (revision, items) ∧ ∀ event ∈ before, ¬event.Closes := by
  cases h with
  | @apply before items h =>
    obtain ⟨revision, haccepted⟩ := h.lastAccepted_eq
    refine ⟨before, revision, items, rfl, ?_, haccepted, h.not_closes (by simp)⟩
    rw [applications_append, h.applications_eq_nil (by simp)]
    rfl

theorem exists_closes (h : History revision₀ items₀ log .closed) :
    ∃ event ∈ log, event.Closes := by
  cases h with
  | close _ _ hcloses => exact ⟨_, by simp, hcloses⟩

end History

end AnyList.Imports
