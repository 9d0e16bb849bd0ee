import AnyList.Timestamps
import AnyList.Library.Members
import Mathlib.Data.Finset.Dedup

namespace AnyList.Reconciliation.Resolve

open AnyList.Timestamps AnyList.Library.Members

variable {σ α : Type*}

/-- One provider's delta. `previous = none` is the source's `_MISSING`; a value of
`none` is Python's `None`. -/
structure Observation (σ α : Type*) where
  source : σ
  value : Option α
  changedAt : Option DateTime
  previous : Option (Option α)
  observedAfter : Option DateTime
  inferred : Bool
  deriving DecidableEq

structure Decision (σ α : Type*) where
  value : Option α
  sources : Finset σ
  changedAt : Option Int
  conflict : Bool
  stale : Bool
  deriving DecidableEq

namespace Decision

def keep (value : Option α) : Decision σ α := ⟨value, ∅, none, false, false⟩

def asConflict (value : Option α) : Decision σ α := ⟨value, ∅, none, true, false⟩

def asStale (value : Option α) : Decision σ α := ⟨value, ∅, none, false, true⟩

end Decision

def Observation.changed [DecidableEq α] (o : Observation σ α) : Bool :=
  match o.previous with
  | none => true
  | some previous => decide (o.value ≠ previous)

/-- A snapshot delta carries the cycle's own clock, marked as inferred. -/
def Observation.inferClock (startedAt : Option Int) (o : Observation σ α) : Observation σ α :=
  match startedAt with
  | some started =>
    if o.changedAt = none ∧ o.previous ≠ none then
      { o with changedAt := some (.naive started), inferred := true }
    else o
  | none => o

def Observation.clock (o : Observation σ α) : Option Int := o.changedAt.map naiveUtc

def Observation.olderThan (localAt : Option Int) (o : Observation σ α) : Bool :=
  localAt.any fun l ↦ o.clock.any fun c ↦ c < l

def Observation.orderedAfter [DecidableEq α] (localValue : Option α) (localAt : Option Int)
    (o : Observation σ α) : Bool :=
  (o.clock.any fun c ↦ localAt.all fun l ↦ l < c) ||
    (decide (o.previous = some localValue) &&
      localAt.all fun l ↦ o.observedAfter.any fun seen ↦ l ≤ naiveUtc seen)

def Observation.reliable (o : Observation σ α) : Bool := o.changedAt.isSome && !o.inferred

section inferClock

variable (startedAt : Option Int) (o : Observation σ α)

theorem inferClock_eq_self_or :
    o.inferClock startedAt = o ∨ ∃ started ∈ startedAt, o.changedAt = none ∧
      o.inferClock startedAt = { o with changedAt := some (.naive started), inferred := true } := by
  cases startedAt with
  | none => exact .inl rfl
  | some started =>
    by_cases h : o.changedAt = none ∧ o.previous ≠ none
    · exact .inr ⟨started, rfl, h.1, by simp [Observation.inferClock, h]⟩
    · exact .inl (by simp [Observation.inferClock, h])

@[simp] theorem source_inferClock : (o.inferClock startedAt).source = o.source := by
  obtain h | ⟨_, -, -, h⟩ := inferClock_eq_self_or startedAt o <;> rw [h]

@[simp] theorem value_inferClock : (o.inferClock startedAt).value = o.value := by
  obtain h | ⟨_, -, -, h⟩ := inferClock_eq_self_or startedAt o <;> rw [h]

@[simp] theorem previous_inferClock : (o.inferClock startedAt).previous = o.previous := by
  obtain h | ⟨_, -, -, h⟩ := inferClock_eq_self_or startedAt o <;> rw [h]

@[simp] theorem observedAfter_inferClock :
    (o.inferClock startedAt).observedAfter = o.observedAfter := by
  obtain h | ⟨_, -, -, h⟩ := inferClock_eq_self_or startedAt o <;> rw [h]

end inferClock

theorem exists_clock_of_reliable {o : Observation σ α} (h : o.reliable = true) :
    ∃ c, o.clock = some c := by
  simp only [Observation.reliable, Bool.and_eq_true] at h
  obtain ⟨at', hat⟩ := Option.isSome_iff_exists.mp h.1
  exact ⟨naiveUtc at', by simp [Observation.clock, hat]⟩

theorem olderThan_eq_false {l : Int} {o : Observation σ α} :
    o.olderThan (some l) = false ↔ ∀ c ∈ o.clock, l ≤ c := by
  cases h : o.clock <;> simp [Observation.olderThan, h]

theorem orderedAfter_eq_true [DecidableEq α] {localValue : Option α} {l : Int}
    {o : Observation σ α} :
    o.orderedAfter localValue (some l) = true ↔
      (∃ c ∈ o.clock, l < c) ∨
        o.previous = some localValue ∧ ∃ seen ∈ o.observedAfter, l ≤ naiveUtc seen := by
  cases h : o.clock <;> cases h' : o.observedAfter <;>
    simp [Observation.orderedAfter, h, h']

def sources [DecidableEq σ] (observations : List (Observation σ α)) : Finset σ :=
  (observations.map Observation.source).toFinset

def clocks (observations : List (Observation σ α)) : List Int :=
  observations.filterMap Observation.clock

def winners (observations : List (Observation σ α)) : List (Observation σ α) :=
  observations.filter fun o ↦ decide (o.clock = (clocks observations).max?)

def candidates (localAt : Option Int) (changed : List (Observation σ α)) :
    List (Observation σ α) :=
  changed.filter fun o ↦ !o.olderThan localAt

theorem mem_candidates {localAt : Option Int} {changed : List (Observation σ α)}
    {o : Observation σ α} :
    o ∈ candidates localAt changed ↔ o ∈ changed ∧ o.olderThan localAt = false := by
  simp [candidates]

theorem mem_sources [DecidableEq σ] {observations : List (Observation σ α)} {s : σ} :
    s ∈ sources observations ↔ ∃ o ∈ observations, o.source = s := by
  simp [sources]

theorem mem_clocks {observations : List (Observation σ α)} {c : Int} :
    c ∈ clocks observations ↔ ∃ o ∈ observations, o.clock = some c := by
  simp [clocks]

theorem mem_winners {observations : List (Observation σ α)} {o : Observation σ α} :
    o ∈ winners observations ↔ o ∈ observations ∧ o.clock = (clocks observations).max? := by
  simp [winners]

section deltas

variable [DecidableEq α]

def deltas (startedAt : Option Int) (observations : List (Observation σ α)) :
    List (Observation σ α) :=
  (observations.filter Observation.changed).map (Observation.inferClock startedAt)

def values (observations : List (Observation σ α)) : List (Option α) :=
  distinct (observations.map Observation.value)

theorem values_eq_singleton {observations : List (Observation σ α)} {v : Option α} :
    values observations = [v] ↔ observations ≠ [] ∧ ∀ o ∈ observations, o.value = v := by
  rw [values, distinct_eq_singleton]
  simp

theorem mem_deltas {startedAt : Option Int} {observations : List (Observation σ α)}
    {d : Observation σ α} :
    d ∈ deltas startedAt observations ↔
      ∃ o ∈ observations, o.changed ∧ o.inferClock startedAt = d := by
  simp only [deltas, List.mem_map, List.mem_filter, and_assoc]

end deltas

section resolve

variable [DecidableEq σ] [DecidableEq α]

/-- Every disagreement must have an orderable clock to select a winner. -/
def newest (localValue : Option α) (observations : List (Observation σ α)) : Decision σ α :=
  if observations.all Observation.reliable then
    match winners observations with
    | [] => .asConflict localValue
    | winner :: others =>
      if (winner :: others).all fun o ↦ decide (o.value = winner.value) then
        ⟨winner.value, sources (winner :: others), (clocks observations).max?, false, false⟩
      else .asConflict localValue
  else .asConflict localValue

def settle (localValue : Option α) (localAt : Option Int)
    (compatible : Option (List (Option α) → Option (Option α)))
    (observations : List (Observation σ α)) : Decision σ α :=
  match values observations with
  | [value] =>
    if value ≠ localValue ∧ localValue ≠ none ∧
        ¬observations.any (Observation.orderedAfter localValue localAt) then
      .asConflict localValue
    else ⟨value, sources observations, (clocks observations).max?, false, false⟩
  | several =>
    match compatible.bind (· several) with
    | some merged => ⟨merged, sources observations, (clocks observations).max?, false, false⟩
    | none => newest localValue observations

/-- The owner's edit came after this cycle had started. -/
def editedDuring (startedAt localAt : Option Int) : Bool :=
  startedAt.any fun started ↦ localAt.any fun l ↦ started < l

def resolve (localValue : Option α) (localAt : Option DateTime)
    (observations : List (Observation σ α)) (startedAt : Option Int)
    (compatible : Option (List (Option α) → Option (Option α))) : Decision σ α :=
  let localAt := localAt.map naiveUtc
  if editedDuring startedAt localAt then .asStale localValue
  else
    let changed := deltas startedAt observations
    if changed = [] then .keep localValue
    else if candidates localAt changed = [] then .asStale localValue
    else settle localValue localAt compatible (candidates localAt changed)

/-- Several observations with reliable clocks are settled by their newest ones
exactly when these carry a single value. -/
theorem newest_eq_singleton {localValue : Option α} {observations : List (Observation σ α)}
    {v : Option α} (hr : observations.all Observation.reliable)
    (hv : values (winners observations) = [v]) :
    newest localValue observations =
      ⟨v, sources (winners observations), (clocks observations).max?, false, false⟩ := by
  obtain ⟨hne, hall⟩ := values_eq_singleton.mp hv
  rw [newest, if_pos hr]
  match hw : winners observations with
  | [] => exact absurd hw hne
  | winner :: others =>
    rw [hw] at hall
    have hwinner : winner.value = v := hall winner List.mem_cons_self
    dsimp only
    rw [if_pos, hwinner]
    simpa [hwinner] using fun o ho ↦ hall o (List.mem_cons_of_mem _ ho)

theorem newest_eq_conflict {localValue : Option α} {observations : List (Observation σ α)}
    (h : observations.all Observation.reliable → ∀ v, values (winners observations) ≠ [v]) :
    newest localValue observations = .asConflict localValue := by
  by_cases hr : observations.all Observation.reliable
  · rw [newest, if_pos hr]
    match hw : winners observations with
    | [] => rfl
    | winner :: others =>
      refine if_neg fun hall ↦ h hr winner.value ?_
      rw [hw, values_eq_singleton]
      exact ⟨by simp, by simpa using hall⟩
  · rw [newest, if_neg hr]

theorem settle_eq_newest {localValue : Option α} {localAt : Option Int}
    {observations : List (Observation σ α)} (h : ∀ v, values observations ≠ [v]) :
    settle localValue localAt none observations = newest localValue observations := by
  unfold settle
  match hv : values observations with
  | [] => rfl
  | [v] => exact absurd hv (h v)
  | _ :: _ :: _ => rfl

theorem settle_eq_singleton {localValue : Option α} {localAt : Option Int}
    {compatible : Option (List (Option α) → Option (Option α))}
    {observations : List (Observation σ α)} {v : Option α} (h : values observations = [v]) :
    settle localValue localAt compatible observations =
      if v ≠ localValue ∧ localValue ≠ none ∧
          ¬observations.any (Observation.orderedAfter localValue localAt) then
        .asConflict localValue
      else ⟨v, sources observations, (clocks observations).max?, false, false⟩ := by
  unfold settle
  simp only [h]

end resolve

end AnyList.Reconciliation.Resolve
