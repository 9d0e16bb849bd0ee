import Mathlib.Data.Finset.Sort
import Mathlib.Data.Finset.SDiff
import Mathlib.Data.Rat.Defs
import Mathlib.Algebra.Order.Ring.Rat

namespace AnyList.Watchlist.Reconcile

variable {κ : Type*} [LinearOrder κ]

structure Directions where
  pullEnabled : Bool
  pushEnabled : Bool
  deriving DecidableEq

structure ReconcilePlan (κ : Type*) where
  addLocal : Finset κ
  removeLocal : Finset κ
  pushAdd : Finset κ
  pushRemove : Finset κ
  suppressed : Bool
  suppressedReason : Option String
  deriving DecidableEq

def ReconcilePlan.hasChanges (plan : ReconcilePlan κ) : Bool :=
  decide (plan.addLocal.Nonempty ∨ plan.removeLocal.Nonempty ∨
    plan.pushAdd.Nonempty ∨ plan.pushRemove.Nonempty)

inductive Change
  | addLocal
  | removeLocal
  | pushAdd
  | pushRemove
  deriving DecidableEq

/-- The plan for a key held locally only; `synced` says that it is in the baseline. -/
def localOnly (d : Directions) (synced : Bool) : Option Change :=
  if synced then
    if d.pullEnabled then some .removeLocal
    else if d.pushEnabled then some .pushAdd
    else none
  else
    if d.pushEnabled then some .pushAdd
    else if d.pullEnabled then some .removeLocal
    else none

/-- The plan for a key held remotely only. -/
def remoteOnly (d : Directions) (synced : Bool) : Option Change :=
  if synced then
    if d.pushEnabled then some .pushRemove
    else if d.pullEnabled then some .addLocal
    else none
  else
    if d.pullEnabled then some .addLocal
    else none

def classify (d : Directions) (localKeys remoteKeys base : Finset κ) : ReconcilePlan κ where
  addLocal := (remoteKeys \ localKeys).filter fun key ↦
    remoteOnly d (key ∈ base) = some .addLocal
  removeLocal := (localKeys \ remoteKeys).filter fun key ↦
    localOnly d (key ∈ base) = some .removeLocal
  pushAdd := (localKeys \ remoteKeys).filter fun key ↦
    localOnly d (key ∈ base) = some .pushAdd
  pushRemove := (remoteKeys \ localKeys).filter fun key ↦
    remoteOnly d (key ∈ base) = some .pushRemove
  suppressed := false
  suppressedReason := none

def suppressMinBaseline : ℕ := 10

def suppressMaxFraction : ℚ := 1 / 2

/-- A fetch that empties or halves an established baseline looks like a broken one. -/
def suppressionReason (removeLocal remoteKeys base : Finset κ) : Option String :=
  if removeLocal.Nonempty ∧ suppressMinBaseline ≤ base.card then
    if remoteKeys = ∅ then
      some s!"remote watchlist came back empty with {base.card} baseline item(s)"
    else if suppressMaxFraction * base.card < (removeLocal ∩ base).card then
      some s!"remote watchlist would remove {(removeLocal ∩ base).card} of {base.card} baseline item(s)"
    else none
  else none

/-- The purely additive first plan: without a baseline nothing is ever deleted. -/
def firstPlan (d : Directions) (localKeys remoteKeys : Finset κ) : ReconcilePlan κ where
  addLocal := if d.pullEnabled then remoteKeys \ localKeys else ∅
  removeLocal := ∅
  pushAdd := if d.pushEnabled then localKeys \ remoteKeys else ∅
  pushRemove := ∅
  suppressed := false
  suppressedReason := none

def planWatchlistReconcile (localKeys remoteKeys : Finset κ) (baseline : Option (List κ))
    (d : Directions) : ReconcilePlan κ :=
  match baseline with
  | none => firstPlan d localKeys remoteKeys
  | some baseline =>
    let plan := classify d localKeys remoteKeys baseline.toFinset
    match suppressionReason plan.removeLocal remoteKeys baseline.toFinset with
    | some reason => ⟨∅, ∅, ∅, ∅, true, some reason⟩
    | none => plan

abbrev sorted (keys : Finset κ) : List κ := keys.sort

def computeNewBaseline (finalLocal failedPushAdd failedPushRemove : Finset κ) : List κ :=
  sorted ((finalLocal ∪ failedPushRemove) \ failedPushAdd)

@[simp] theorem mem_computeNewBaseline {finalLocal failedPushAdd failedPushRemove : Finset κ}
    {key : κ} :
    key ∈ computeNewBaseline finalLocal failedPushAdd failedPushRemove ↔
      (key ∈ finalLocal ∨ key ∈ failedPushRemove) ∧ key ∉ failedPushAdd := by
  simp [computeNewBaseline]

end AnyList.Watchlist.Reconcile
