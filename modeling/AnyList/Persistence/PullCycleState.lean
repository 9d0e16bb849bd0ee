import AnyList.Persistence.Values

namespace AnyList.Persistence

open AnyList.Library
open AnyList.Library.Dict (getEntry mem_iff_getEntry getEntry_filter)
open AnyList.Timestamps (DateTime)

/-- A Python set in its iteration order. -/
@[ext] structure PySet (α : Type) where
  items : List α
  nodup : items.Nodup

def PySet.empty {α : Type} : PySet α := ⟨[], .nil⟩

/-- A declared type of a field: how its values stand among the Python values. -/
class Declared (α : Type) where
  toValue : α → Value
  ofValue : Value → Option α
  dates : α → List DateTime
  ofValue_toValue : ∀ a, ofValue (toValue a) = some a
  storable : ∀ {reads : DateTime → Prop} a, (∀ d ∈ dates a, reads d) → Storable reads (toValue a)

class DeclaredKey (α : Type) extends Declared α where
  isHashable_toValue : ∀ a, (toValue a).isHashable = true

open Declared DeclaredKey

attribute [simp] ofValue_toValue isHashable_toValue

section declared

variable {α β κ : Type}

theorem toValue_injective [Declared α] : Function.Injective (toValue : α → Value) := by
  intro a b h
  have hread := congrArg (ofValue (α := α)) h
  simpa using hread

instance instInt : DeclaredKey Int where
  toValue := .int
  ofValue
    | .int n => some n
    | _ => none
  dates _ := []
  ofValue_toValue _ := rfl
  storable n _ := .int n
  isHashable_toValue _ := rfl

instance instBool : Declared Bool where
  toValue := .bool
  ofValue
    | .bool b => some b
    | _ => none
  dates _ := []
  ofValue_toValue _ := rfl
  storable b _ := .bool b

instance instFloat : Declared ℚ where
  toValue := .float
  ofValue
    | .float x => some x
    | _ => none
  dates _ := []
  ofValue_toValue _ := rfl
  storable x _ := .float x

instance instString : DeclaredKey String where
  toValue := .str
  ofValue
    | .str s => some s
    | _ => none
  dates _ := []
  ofValue_toValue _ := rfl
  storable s _ := .str s
  isHashable_toValue _ := rfl

instance instDateTime : Declared DateTime where
  toValue := .datetime
  ofValue
    | .datetime d => some d
    | _ => none
  dates d := [d]
  ofValue_toValue _ := rfl
  storable _ h := .datetime (h _ (List.mem_singleton_self _))

instance instCollectionSource : DeclaredKey CollectionSource where
  toValue := .source
  ofValue
    | .source c => some c
    | _ => none
  dates _ := []
  ofValue_toValue _ := rfl
  storable c _ := .source c
  isHashable_toValue _ := rfl

/-- The types whose values are never `None`. -/
class Present (α : Type) [Declared α] : Prop where
  toValue_ne_none : ∀ a : α, toValue a ≠ .none

instance instPresentInt : Present Int := ⟨fun _ ↦ Value.noConfusion⟩

instance instPresentString : Present String := ⟨fun _ ↦ Value.noConfusion⟩

instance instOption [DeclaredKey α] [Present α] : DeclaredKey (Option α) where
  toValue a := (a.map toValue).getD .none
  ofValue
    | .none => some none
    | value => (ofValue value).map some
  dates a := a.toList.flatMap dates
  ofValue_toValue a := by
    cases a with
    | none => rfl
    | some a =>
      have hne := Present.toValue_ne_none a
      simp only [Option.map_some, Option.getD_some]
      simp
  storable a h := by
    cases a with
    | none => exact .none
    | some a => exact storable a fun d hd ↦ h d (by simpa using hd)
  isHashable_toValue a := by
    cases a with
    | none => rfl
    | some a => exact isHashable_toValue a

def pairOfValue [Declared α] [Declared β] : Value → Option (α × β)
  | .tuple [a, b] => (ofValue a).bind fun x ↦ (ofValue b).map fun y ↦ (x, y)
  | _ => none

theorem storable_pair [Declared α] [Declared β] {reads : DateTime → Prop} {a : α} {b : β}
    (h : ∀ d ∈ dates a ++ dates b, reads d) : Storable reads (.tuple [toValue a, toValue b]) := by
  rw [List.forall_mem_append] at h
  refine .tuple ?_
  rw [List.forall_mem_cons, List.forall_mem_cons]
  exact ⟨storable a h.1, storable b h.2, by simp⟩

instance instPair [Declared α] [Declared β] : Declared (α × β) where
  toValue p := .tuple [toValue p.1, toValue p.2]
  ofValue := pairOfValue
  dates p := dates p.1 ++ dates p.2
  ofValue_toValue p := by simp [pairOfValue]
  storable _ h := storable_pair h

instance instKeyPair [DeclaredKey α] [DeclaredKey β] : DeclaredKey (α × β) where
  isHashable_toValue p := by
    change Value.isHashable (.tuple [toValue p.1, toValue p.2]) = true
    simp [Value.isHashable, Value.areHashable]

theorem mapM_ofValue [Declared α] (items : List α) :
    (items.map toValue).mapM (ofValue (α := α)) = some items := by
  induction items with
  | nil => rfl
  | cons item items ih => simp [List.mapM_cons, ih]

def setOfValue [DecidableEq α] [Declared α] : Value → Option (PySet α)
  | .set items => (items.mapM ofValue).bind fun members ↦
      if h : members.Nodup then some ⟨members, h⟩ else none
  | _ => none

instance instSet [DecidableEq α] [DeclaredKey α] : Declared (PySet α) where
  toValue s := .set (s.items.map toValue)
  ofValue := setOfValue
  dates s := s.items.flatMap dates
  ofValue_toValue s := by
    rw [setOfValue, mapM_ofValue]
    exact dif_pos s.nodup
  storable s h := by
    refine .set (s.nodup.map toValue_injective) ?_ ?_
    · simp
    · rintro _ hitem
      obtain ⟨a, ha, rfl⟩ := List.mem_map.mp hitem
      exact storable a fun d hd ↦ h d (List.mem_flatMap.mpr ⟨a, ha, hd⟩)

def entryToValue [Declared κ] [Declared α] (entry : κ × α) : Value × Value :=
  (toValue entry.1, toValue entry.2)

def entryOfValue [Declared κ] [Declared α] (entry : Value × Value) : Option (κ × α) :=
  (ofValue entry.1).bind fun k ↦ (ofValue entry.2).map fun a ↦ (k, a)

theorem mapM_entryOfValue [Declared κ] [Declared α] (entries : List (κ × α)) :
    (entries.map entryToValue).mapM (entryOfValue (κ := κ) (α := α)) = some entries := by
  induction entries with
  | nil => rfl
  | cons entry entries ih =>
    simp [List.mapM_cons, ih, entryOfValue, entryToValue]

def dictOfValue [DecidableEq κ] [Declared κ] [Declared α] : Value → Option (Dict κ α)
  | .dict entries => (entries.mapM entryOfValue).bind fun members ↦
      if h : (members.map Prod.fst).Nodup then some ⟨members, h⟩ else none
  | _ => none

instance instDict [DecidableEq κ] [DeclaredKey κ] [Declared α] : Declared (Dict κ α) where
  toValue d := .dict (d.entries.map entryToValue)
  ofValue := dictOfValue
  dates d := d.entries.flatMap fun entry ↦ dates entry.1 ++ dates entry.2
  ofValue_toValue d := by
    rw [dictOfValue, mapM_entryOfValue]
    exact dif_pos d.nodup
  storable d h := by
    have hentry : ∀ entry ∈ d.entries.map entryToValue, ∃ e ∈ d.entries,
        entry = (toValue e.1, toValue e.2) := by
      rintro _ hmem
      obtain ⟨e, he, rfl⟩ := List.mem_map.mp hmem
      exact ⟨e, he, rfl⟩
    refine .dict ?_ ?_ ?_ ?_
    · have hkeys := d.nodup.map (toValue_injective (α := κ))
      rw [List.map_map] at hkeys ⊢
      exact hkeys
    · rintro entry hmem
      obtain ⟨e, -, rfl⟩ := hentry entry hmem
      exact isHashable_toValue e.1
    · rintro entry hmem
      obtain ⟨e, he, rfl⟩ := hentry entry hmem
      exact storable e.1 fun d' hd ↦
        h d' (List.mem_flatMap.mpr ⟨e, he, List.mem_append_left _ hd⟩)
    · rintro entry hmem
      obtain ⟨e, he, rfl⟩ := hentry entry hmem
      exact storable e.2 fun d' hd ↦
        h d' (List.mem_flatMap.mpr ⟨e, he, List.mem_append_right _ hd⟩)

end declared

abbrev RatingKey := Int × Option Int

structure PullCycleState where
  userId : Int
  newWatchedIds : PySet Int
  newRatings : Dict RatingKey ℚ
  ratingSources : Dict RatingKey (PySet String)
  libraryDesired : Dict Int Bool
  removedRatings : PySet RatingKey
  newCollectedIds : PySet Int
  removedCollectedIds : PySet Int
  excludedConnectionIds : PySet Int
  excludedCloudSources : PySet CollectionSource
  libraryNewIds : PySet Int
  libraryRemovedIds : PySet Int
  librarySourceIds : PySet Int
  librarySourceIdsByMedia : Dict Int (PySet Int)
  libraryApiKey : Option String
  libraryObservedAtByMedia : Dict Int DateTime
  watchedExclusions : Dict Int (PySet Int × PySet CollectionSource)
  removedWatchExclusions : Dict Int (PySet Int)
  pushBack : Dict Int (Dict Int String)
  connectionVersions : Dict Int Int

namespace PullCycleState

def fields (s : PullCycleState) : List (String × Value) :=
  [("user_id", toValue s.userId), ("new_watched_ids", toValue s.newWatchedIds),
    ("new_ratings", toValue s.newRatings), ("rating_sources", toValue s.ratingSources),
    ("library_desired", toValue s.libraryDesired), ("removed_ratings", toValue s.removedRatings),
    ("new_collected_ids", toValue s.newCollectedIds),
    ("removed_collected_ids", toValue s.removedCollectedIds),
    ("excluded_connection_ids", toValue s.excludedConnectionIds),
    ("excluded_cloud_sources", toValue s.excludedCloudSources),
    ("library_new_ids", toValue s.libraryNewIds),
    ("library_removed_ids", toValue s.libraryRemovedIds),
    ("library_source_ids", toValue s.librarySourceIds),
    ("library_source_ids_by_media", toValue s.librarySourceIdsByMedia),
    ("library_api_key", toValue s.libraryApiKey),
    ("library_observed_at_by_media", toValue s.libraryObservedAtByMedia),
    ("watched_exclusions", toValue s.watchedExclusions),
    ("removed_watch_exclusions", toValue s.removedWatchExclusions),
    ("push_back", toValue s.pushBack), ("connection_versions", toValue s.connectionVersions)]

def fieldNames : List String :=
  ["user_id", "new_watched_ids", "new_ratings", "rating_sources", "library_desired",
    "removed_ratings", "new_collected_ids", "removed_collected_ids", "excluded_connection_ids",
    "excluded_cloud_sources", "library_new_ids", "library_removed_ids", "library_source_ids",
    "library_source_ids_by_media", "library_api_key", "library_observed_at_by_media",
    "watched_exclusions", "removed_watch_exclusions", "push_back", "connection_versions"]

theorem map_fst_fields (s : PullCycleState) : s.fields.map Prod.fst = fieldNames := rfl

/-- The value of a keyword argument, or the field's default where it is not given. -/
def argument {α : Type} [Declared α] (arguments : List (String × Value)) (name : String)
    (default : Option α) : Option α :=
  match getEntry name arguments with
  | some value => ofValue value
  | none => default

def ofKnownArguments (arguments : List (String × Value)) : Option PullCycleState := do
  pure {
    userId := ← argument arguments "user_id" none
    newWatchedIds := ← argument arguments "new_watched_ids" (some .empty)
    newRatings := ← argument arguments "new_ratings" (some .empty)
    ratingSources := ← argument arguments "rating_sources" (some .empty)
    libraryDesired := ← argument arguments "library_desired" (some .empty)
    removedRatings := ← argument arguments "removed_ratings" (some .empty)
    newCollectedIds := ← argument arguments "new_collected_ids" (some .empty)
    removedCollectedIds := ← argument arguments "removed_collected_ids" (some .empty)
    excludedConnectionIds := ← argument arguments "excluded_connection_ids" (some .empty)
    excludedCloudSources := ← argument arguments "excluded_cloud_sources" (some .empty)
    libraryNewIds := ← argument arguments "library_new_ids" (some .empty)
    libraryRemovedIds := ← argument arguments "library_removed_ids" (some .empty)
    librarySourceIds := ← argument arguments "library_source_ids" (some .empty)
    librarySourceIdsByMedia := ← argument arguments "library_source_ids_by_media" (some .empty)
    libraryApiKey := ← argument arguments "library_api_key" (some none)
    libraryObservedAtByMedia := ← argument arguments "library_observed_at_by_media" (some .empty)
    watchedExclusions := ← argument arguments "watched_exclusions" (some .empty)
    removedWatchExclusions := ← argument arguments "removed_watch_exclusions" (some .empty)
    pushBack := ← argument arguments "push_back" (some .empty)
    connectionVersions := ← argument arguments "connection_versions" (some .empty) }

/-- The state made of keyword arguments. -/
def ofArguments (arguments : List (String × Value)) : Option PullCycleState :=
  if arguments.all fun entry ↦ decide (entry.1 ∈ fieldNames) then ofKnownArguments arguments
  else none

section payload

variable (isoformat : DateTime → String) (fromisoformat : String → Option DateTime)

/-- Credentials are loaded at delivery time, never stored. -/
def deliveryPayload (s : PullCycleState) : List (String × Value) :=
  (s.fields.filter fun field ↦ decide (field.1 ≠ "library_api_key")).map
    fun field ↦ (field.1, encode isoformat field.2)

/-- The state of a stored payload. -/
def restore (stored : List (String × Value)) : Option PullCycleState :=
  (stored.mapM fun entry ↦ (decode fromisoformat entry.2).map fun value ↦ (entry.1, value)).bind
    ofArguments

end payload

/-- The fields that are stored. -/
def storedFields (s : PullCycleState) : List (String × Value) :=
  s.fields.filter fun field ↦ decide (field.1 ≠ "library_api_key")

theorem nodup_storedFields (s : PullCycleState) : (s.storedFields.map Prod.fst).Nodup := by
  have hnodup : (s.fields.map Prod.fst).Nodup := by
    rw [map_fst_fields]
    decide
  exact hnodup.sublist (List.filter_sublist.map _)

/-- Every stored field is a value with readable datetimes, if those of the library are. -/
theorem storable_of_mem_fields (s : PullCycleState) {reads : DateTime → Prop}
    (h : ∀ d ∈ s.libraryObservedAtByMedia.values, reads d) :
    ∀ field ∈ s.fields, Storable reads field.2 := by
  have hobserved : Storable reads (toValue s.libraryObservedAtByMedia) := by
    refine storable _ fun d hd ↦ ?_
    obtain ⟨entry, hentry, hmem⟩ := List.mem_flatMap.mp hd
    obtain rfl : d = entry.2 := by simpa [dates] using hmem
    exact h _ (List.mem_map_of_mem hentry)
  have hdates {α : Type} [Declared α] (a : α) (hnone : dates a = []) :
      Storable reads (toValue a) :=
    storable a fun d hd ↦ absurd (hnone ▸ hd) List.not_mem_nil
  intro field hfield
  simp only [fields, List.mem_cons, List.not_mem_nil, or_false] at hfield
  rcases hfield with rfl | rfl | rfl | rfl | rfl | rfl | rfl | rfl | rfl | rfl | rfl | rfl | rfl |
    rfl | rfl | rfl | rfl | rfl | rfl | rfl
  case inr.inr.inr.inr.inr.inr.inr.inr.inr.inr.inr.inr.inr.inr.inr.inl => exact hobserved
  all_goals exact hdates _ (by simp [dates])

section restored

variable {isoformat : DateTime → String} {fromisoformat : String → Option DateTime}

/-- A persisted cycle consists of JSON values. -/
theorem isJson_deliveryPayload (s : PullCycleState) :
    ∀ entry ∈ s.deliveryPayload isoformat, entry.2.IsJson := by
  intro entry hentry
  obtain ⟨field, hfield, rfl⟩ := List.mem_map.mp hentry
  have hstorable : Storable (fun _ ↦ True) field.2 :=
    s.storable_of_mem_fields (fun _ _ ↦ trivial) field (List.mem_of_mem_filter hfield)
  exact hstorable.isJson_encode

theorem mapM_eq_some_map {α β : Type} {f : α → Option β} {g : α → β} {items : List α}
    (h : ∀ a ∈ items, f a = some (g a)) : items.mapM f = some (items.map g) := by
  induction items with
  | nil => rfl
  | cons item items ih =>
    rw [List.forall_mem_cons] at h
    simp [List.mapM_cons, h.1, ih h.2]

theorem getEntry_eq_of_perm {l l' : List (String × Value)} (h : l.Perm l')
    (hnodup : (l'.map Prod.fst).Nodup) (name : String) : getEntry name l = getEntry name l' := by
  have hnodup' : (l.map Prod.fst).Nodup := (h.map _).nodup_iff.mpr hnodup
  ext value
  rw [← mem_iff_getEntry hnodup', ← mem_iff_getEntry hnodup, h.mem_iff]

theorem ofArguments_eq_of_perm {l l' : List (String × Value)} (h : l.Perm l')
    (hnodup : (l'.map Prod.fst).Nodup) : ofArguments l = ofArguments l' := by
  have hargument {α : Type} [Declared α] (name : String) (default : Option α) :
      argument l name default = argument l' name default := by
    rw [argument, argument, getEntry_eq_of_perm h hnodup]
  have hall : (l.all fun entry ↦ decide (entry.1 ∈ fieldNames)) =
      l'.all fun entry ↦ decide (entry.1 ∈ fieldNames) := by
    rw [Bool.eq_iff_iff, List.all_eq_true, List.all_eq_true]
    exact forall_congr' fun entry ↦ by rw [h.mem_iff]
  simp only [ofArguments, ofKnownArguments, hargument, hall]

theorem ofArguments_storedFields (s : PullCycleState) :
    ofArguments s.storedFields = some { s with libraryApiKey := none } := by
  have hguard : (s.storedFields.all fun entry ↦ decide (entry.1 ∈ fieldNames)) = true := by
    refine List.all_eq_true.mpr fun entry hentry ↦ decide_eq_true ?_
    rw [← map_fst_fields s]
    exact List.mem_map_of_mem (List.mem_of_mem_filter hentry)
  have hget (name : String) : getEntry name s.storedFields =
      if name = "library_api_key" then none else getEntry name s.fields := by
    refine (getEntry_filter (p := fun name ↦ decide (name ≠ "library_api_key"))).trans ?_
    by_cases h : name = "library_api_key" <;> simp [h]
  rw [ofArguments, if_pos hguard]
  simp [ofKnownArguments, argument, hget, fields, getEntry]

/-- A persisted cycle consists of JSON values, and is restored exactly but for its credentials from
whatever order its fields are kept in. -/
theorem restore_persisted (s : PullCycleState) {stored : List (String × Value)}
    (hstored : stored.Perm (s.deliveryPayload isoformat))
    (hdates : ∀ d ∈ s.libraryObservedAtByMedia.values, fromisoformat (isoformat d) = some d) :
    (∀ entry ∈ stored, entry.2.IsJson) ∧
      restore fromisoformat stored = some { s with libraryApiKey := none } := by
  refine ⟨fun entry hentry ↦ s.isJson_deliveryPayload entry (hstored.mem_iff.mp hentry), ?_⟩
  let read (entry : String × Value) : String × Value :=
    (entry.1, (decode fromisoformat entry.2).getD .none)
  have hread : ∀ field ∈ s.storedFields,
      decode fromisoformat (encode isoformat field.2) = some field.2 := fun field hfield ↦
    (s.storable_of_mem_fields hdates field (List.mem_of_mem_filter hfield)).decode_encode
  have hdecode : ∀ entry ∈ stored,
      (decode fromisoformat entry.2).map (fun value ↦ (entry.1, value)) = some (read entry) := by
    intro entry hentry
    obtain ⟨field, hfield, rfl⟩ := List.mem_map.mp (hstored.mem_iff.mp hentry)
    simp [read, hread field hfield]
  have hfields : (stored.map read).Perm s.storedFields := by
    refine (hstored.map read).trans (List.Perm.of_eq ?_)
    rw [deliveryPayload, List.map_map]
    refine (List.map_congr_left fun field hfield ↦ ?_).trans (List.map_id' _)
    simp [read, hread field hfield]
  rw [restore, mapM_eq_some_map hdecode, Option.bind_some,
    ofArguments_eq_of_perm hfields s.nodup_storedFields, ofArguments_storedFields]

end restored

section film

/-- A cycle in which two connections and a cloud reported on the film 4. -/
def reported : PullCycleState where
  userId := 1
  newWatchedIds := ⟨[4, 9], by decide⟩
  newRatings := ⟨[((4, none), 8), ((9, some 2), 7)], by decide⟩
  ratingSources := ⟨[((4, none), ⟨["connection:3", "trakt"], by decide⟩)], by decide⟩
  libraryDesired := ⟨[(4, true)], by decide⟩
  removedRatings := ⟨[(9, none)], by decide⟩
  newCollectedIds := ⟨[4], by decide⟩
  removedCollectedIds := .empty
  excludedConnectionIds := ⟨[3], by decide⟩
  excludedCloudSources := ⟨[.trakt], by decide⟩
  libraryNewIds := ⟨[4], by decide⟩
  libraryRemovedIds := .empty
  librarySourceIds := ⟨[3], by decide⟩
  librarySourceIdsByMedia := ⟨[(4, ⟨[3], by decide⟩)], by decide⟩
  libraryApiKey := some "key"
  libraryObservedAtByMedia := ⟨[(4, .naive 0)], by decide⟩
  watchedExclusions := ⟨[(4, ⟨[3], by decide⟩, ⟨[.trakt], by decide⟩)], by decide⟩
  removedWatchExclusions := .empty
  pushBack := ⟨[(3, ⟨[(4, "12")], by decide⟩)], by decide⟩
  connectionVersions := ⟨[(3, 1)], by decide⟩

/-- The clocks of the example: the first second of 1970. -/
def isoformat (d : DateTime) : String := if d = .naive 0 then "1970-01-01T00:00:00" else ""

def fromisoformat (s : String) : Option DateTime :=
  if s = "1970-01-01T00:00:00" then some (.naive 0) else none

theorem restore_reported :
    (∀ entry ∈ (reported.deliveryPayload isoformat).reverse, entry.2.IsJson) ∧
      restore fromisoformat (reported.deliveryPayload isoformat).reverse =
        some { reported with libraryApiKey := none } := by
  refine restore_persisted reported (List.reverse_perm _) fun d hd ↦ ?_
  obtain rfl : d = .naive 0 := by simpa [Dict.values, reported] using hd
  simp [isoformat, fromisoformat]

end film

end PullCycleState

end AnyList.Persistence
