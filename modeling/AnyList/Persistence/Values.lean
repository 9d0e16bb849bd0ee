import AnyList.Library.Dict
import AnyList.Timestamps
import Mathlib.Data.Rat.Defs
import Mathlib.Data.List.Dedup

namespace AnyList.Persistence

open AnyList.Timestamps (DateTime)
open AnyList.Library.Dict (setEntry foldl_setEntry)

inductive CollectionSource
  | jellyfin | emby | plex | nuvio | stremio | arvio | trakt | simkl | mdblist | bingebase
  | manual | tmdb | yamtrack
  deriving DecidableEq

namespace CollectionSource

def value : CollectionSource → String
  | jellyfin => "jellyfin"
  | emby => "emby"
  | plex => "plex"
  | nuvio => "nuvio"
  | stremio => "stremio"
  | arvio => "arvio"
  | trakt => "trakt"
  | simkl => "simkl"
  | mdblist => "mdblist"
  | bingebase => "bingebase"
  | manual => "manual"
  | tmdb => "tmdb"
  | yamtrack => "yamtrack"

def all : List CollectionSource :=
  [jellyfin, emby, plex, nuvio, stremio, arvio, trakt, simkl, mdblist, bingebase, manual, tmdb,
    yamtrack]

/-- The member with a value, as `CollectionSource(value)` looks it up. -/
def ofValue (s : String) : Option CollectionSource := all.find? fun c ↦ decide (c.value = s)

@[simp] theorem ofValue_value (c : CollectionSource) : ofValue c.value = some c := by
  cases c <;> decide

end CollectionSource

/-- Python values: a finite float is the number it stands for, and a set and a dictionary are listed
in their iteration order. -/
inductive Value
  | none
  | bool (b : Bool)
  | int (n : Int)
  | float (x : ℚ)
  | str (s : String)
  | datetime (d : DateTime)
  | source (c : CollectionSource)
  | list (items : List Value)
  | set (items : List Value)
  | tuple (items : List Value)
  | dict (entries : List (Value × Value))

namespace Value

section equality

mutual

def beq : Value → Value → Bool
  | .none, .none => true
  | .bool a, .bool b => decide (a = b)
  | .int a, .int b => decide (a = b)
  | .float a, .float b => decide (a = b)
  | .str a, .str b => decide (a = b)
  | .datetime a, .datetime b => decide (a = b)
  | .source a, .source b => decide (a = b)
  | .list a, .list b => beqAll a b
  | .set a, .set b => beqAll a b
  | .tuple a, .tuple b => beqAll a b
  | .dict a, .dict b => beqEntries a b
  | _, _ => false

def beqAll : List Value → List Value → Bool
  | [], [] => true
  | a :: as, b :: bs => beq a b && beqAll as bs
  | _, _ => false

def beqEntries : List (Value × Value) → List (Value × Value) → Bool
  | [], [] => true
  | (k, a) :: as, (k', b) :: bs => beq k k' && beq a b && beqEntries as bs
  | _, _ => false

end

mutual

theorem beq_iff : ∀ a b : Value, beq a b = true ↔ a = b
  | .none, b => by cases b <;> simp [beq]
  | .bool a, b => by cases b <;> simp [beq]
  | .int a, b => by cases b <;> simp [beq]
  | .float a, b => by cases b <;> simp [beq]
  | .str a, b => by cases b <;> simp [beq]
  | .datetime a, b => by cases b <;> simp [beq]
  | .source a, b => by cases b <;> simp [beq]
  | .list a, b => by cases b <;> simp [beq, beqAll_iff a]
  | .set a, b => by cases b <;> simp [beq, beqAll_iff a]
  | .tuple a, b => by cases b <;> simp [beq, beqAll_iff a]
  | .dict a, b => by cases b <;> simp [beq, beqEntries_iff a]

theorem beqAll_iff : ∀ as bs : List Value, beqAll as bs = true ↔ as = bs
  | [], bs => by cases bs <;> simp [beqAll]
  | a :: as, [] => by simp [beqAll]
  | a :: as, b :: bs => by simp [beqAll, beq_iff a b, beqAll_iff as bs]

theorem beqEntries_iff : ∀ as bs : List (Value × Value), beqEntries as bs = true ↔ as = bs
  | [], bs => by cases bs <;> simp [beqEntries]
  | a :: as, [] => by simp [beqEntries]
  | (k, a) :: as, (k', b) :: bs => by
    simp [beqEntries, beq_iff k k', beq_iff a b, beqEntries_iff as bs]

end

instance instDecidableEq : DecidableEq Value := fun a b ↦ decidable_of_iff _ (beq_iff a b)

end equality

/-- The JSON documents among the values: the keys of an object are strings. -/
inductive IsJson : Value → Prop
  | none : IsJson .none
  | bool (b : Bool) : IsJson (.bool b)
  | int (n : Int) : IsJson (.int n)
  | float (x : ℚ) : IsJson (.float x)
  | str (s : String) : IsJson (.str s)
  | list {items : List Value} : (∀ item ∈ items, IsJson item) → IsJson (.list items)
  | dict {entries : List (Value × Value)} : (∀ entry ∈ entries, ∃ s, entry.1 = .str s) →
      (∀ entry ∈ entries, IsJson entry.2) → IsJson (.dict entries)

mutual

/-- Whether a value may be a member of a set or the key of a dictionary. -/
def isHashable : Value → Bool
  | .tuple items => areHashable items
  | .list _ | .set _ | .dict _ => false
  | _ => true

def areHashable : List Value → Bool
  | [] => true
  | item :: items => isHashable item && areHashable items

end

end Value

section codec

variable (isoformat : DateTime → String) (fromisoformat : String → Option DateTime)

def tagged (tag : String) (payload : Value) : Value := .dict [(.str tag, payload)]

mutual

def encode : Value → Value
  | .source c => tagged "source" (.str c.value)
  | .datetime d => tagged "datetime" (.str (isoformat d))
  | .set items => tagged "set" (.list (encodeAll items))
  | .tuple items => tagged "tuple" (.list (encodeAll items))
  | .dict entries => tagged "map" (.list (encodeEntries entries))
  | .none => .none
  | .bool b => .bool b
  | .int n => .int n
  | .float x => .float x
  | .str s => .str s
  | .list items => .list items

def encodeAll : List Value → List Value
  | [] => []
  | item :: items => encode item :: encodeAll items

def encodeEntries : List (Value × Value) → List Value
  | [] => []
  | (key, item) :: entries => .list [encode key, encode item] :: encodeEntries entries

end

/-- What an object holds under a key. -/
def payload (key : String) : List (Value × Value) → Option Value
  | [] => none
  | (k, value) :: entries =>
    match k with
    | .str s => if s = key then some value else payload key entries
    | _ => payload key entries

def decodeSource : Value → Option Value
  | .str s => (CollectionSource.ofValue s).map .source
  | _ => none

def decodeDatetime : Value → Option Value
  | .str s => (fromisoformat s).map .datetime
  | _ => none

def makeSet (items : List Value) : Option Value :=
  if items.all Value.isHashable then some (.set items.dedup) else none

/-- A dictionary of entries: a later entry replaces the value of an earlier one. -/
def makeDict (entries : List (Value × Value)) : Option Value :=
  if entries.all fun entry ↦ entry.1.isHashable then
    some (.dict (entries.foldl (fun dict entry ↦ setEntry entry.1 entry.2 dict) []))
  else none

mutual

def decode : Value → Option Value
  | .dict entries =>
    if (payload "source" entries).isSome then (payload "source" entries).bind decodeSource
    else if (payload "datetime" entries).isSome then
      (payload "datetime" entries).bind (decodeDatetime fromisoformat)
    else if (payload "set" entries).isSome then (decodeItemsAt "set" entries).bind makeSet
    else if (payload "tuple" entries).isSome then (decodeItemsAt "tuple" entries).map .tuple
    else (decodePairsAt "map" entries).bind makeDict
  | value => some value

def decodeItemsAt (key : String) : List (Value × Value) → Option (List Value)
  | [] => none
  | (.str s, .list items) :: entries =>
    if s = key then decodeAll items else decodeItemsAt key entries
  | (.str s, _) :: entries => if s = key then none else decodeItemsAt key entries
  | _ :: entries => decodeItemsAt key entries

def decodePairsAt (key : String) :
    List (Value × Value) → Option (List (Value × Value))
  | [] => none
  | (.str s, .list items) :: entries =>
    if s = key then decodePairs items else decodePairsAt key entries
  | (.str s, _) :: entries => if s = key then none else decodePairsAt key entries
  | _ :: entries => decodePairsAt key entries

def decodeAll : List Value → Option (List Value)
  | [] => some []
  | item :: items =>
    (decode item).bind fun value ↦ (decodeAll items).map fun values ↦ value :: values

def decodePairs : List Value → Option (List (Value × Value))
  | [] => some []
  | .list [key, item] :: items =>
    (decode key).bind fun k ↦ (decode item).bind fun v ↦
      (decodePairs items).map fun values ↦ (k, v) :: values
  | _ => none

end

end codec

/-- The values that are stored: the members of a set and the keys of a dictionary are hashable and
different, and every datetime satisfies `reads`. -/
inductive Storable (reads : DateTime → Prop) : Value → Prop
  | none : Storable reads .none
  | bool (b : Bool) : Storable reads (.bool b)
  | int (n : Int) : Storable reads (.int n)
  | float (x : ℚ) : Storable reads (.float x)
  | str (s : String) : Storable reads (.str s)
  | datetime {d : DateTime} : reads d → Storable reads (.datetime d)
  | source (c : CollectionSource) : Storable reads (.source c)
  | set {items : List Value} : items.Nodup → (∀ item ∈ items, item.isHashable = true) →
      (∀ item ∈ items, Storable reads item) → Storable reads (.set items)
  | tuple {items : List Value} : (∀ item ∈ items, Storable reads item) →
      Storable reads (.tuple items)
  | dict {entries : List (Value × Value)} : (entries.map Prod.fst).Nodup →
      (∀ entry ∈ entries, entry.1.isHashable = true) →
      (∀ entry ∈ entries, Storable reads entry.1) →
      (∀ entry ∈ entries, Storable reads entry.2) → Storable reads (.dict entries)

section encode

variable {isoformat : DateTime → String} {reads : DateTime → Prop}

theorem isJson_tagged {tag : String} {payload : Value} (h : payload.IsJson) :
    (tagged tag payload).IsJson := by
  refine .dict ?_ ?_
  · rintro entry hentry
    obtain rfl := List.mem_singleton.mp hentry
    exact ⟨tag, rfl⟩
  · rintro entry hentry
    obtain rfl := List.mem_singleton.mp hentry
    exact h

theorem isJson_encodeAll {items : List Value}
    (h : ∀ item ∈ items, (encode isoformat item).IsJson) :
    ∀ item ∈ encodeAll isoformat items, item.IsJson := by
  induction items with
  | nil => simp [encodeAll]
  | cons item items ih =>
    rw [List.forall_mem_cons] at h
    rw [encodeAll, List.forall_mem_cons]
    exact ⟨h.1, ih h.2⟩

theorem isJson_encodeEntries {entries : List (Value × Value)}
    (hkeys : ∀ entry ∈ entries, (encode isoformat entry.1).IsJson)
    (hvalues : ∀ entry ∈ entries, (encode isoformat entry.2).IsJson) :
    ∀ item ∈ encodeEntries isoformat entries, item.IsJson := by
  induction entries with
  | nil => simp [encodeEntries]
  | cons entry entries ih =>
    rw [List.forall_mem_cons] at hkeys hvalues
    rw [encodeEntries, List.forall_mem_cons]
    refine ⟨.list ?_, ih hkeys.2 hvalues.2⟩
    rw [List.forall_mem_cons, List.forall_mem_cons]
    exact ⟨hkeys.1, hvalues.1, by simp⟩

theorem Storable.isJson_encode {value : Value} (h : Storable reads value) :
    (encode isoformat value).IsJson := by
  induction h with
  | none => exact .none
  | bool b => exact .bool b
  | int n => exact .int n
  | float x => exact .float x
  | str s => exact .str s
  | datetime _ => exact isJson_tagged (.str _)
  | source c => exact isJson_tagged (.str _)
  | set _ _ _ ih => exact isJson_tagged (.list (isJson_encodeAll ih))
  | tuple _ ih => exact isJson_tagged (.list (isJson_encodeAll ih))
  | dict _ _ _ _ ihkeys ihvalues =>
    exact isJson_tagged (.list (isJson_encodeEntries ihkeys ihvalues))

end encode

section decode

variable {isoformat : DateTime → String} {fromisoformat : String → Option DateTime}

theorem decodeAll_encodeAll {items : List Value}
    (h : ∀ item ∈ items, decode fromisoformat (encode isoformat item) = some item) :
    decodeAll fromisoformat (encodeAll isoformat items) = some items := by
  induction items with
  | nil => rfl
  | cons item items ih =>
    rw [List.forall_mem_cons] at h
    rw [encodeAll, decodeAll, h.1, ih h.2]
    rfl

theorem decodePairs_encodeEntries {entries : List (Value × Value)}
    (hkeys : ∀ entry ∈ entries, decode fromisoformat (encode isoformat entry.1) = some entry.1)
    (hvalues : ∀ entry ∈ entries, decode fromisoformat (encode isoformat entry.2) = some entry.2) :
    decodePairs fromisoformat (encodeEntries isoformat entries) = some entries := by
  induction entries with
  | nil => rfl
  | cons entry entries ih =>
    rw [List.forall_mem_cons] at hkeys hvalues
    rw [encodeEntries, decodePairs, hkeys.1, hvalues.1, ih hkeys.2 hvalues.2]
    rfl

theorem makeSet_of_nodup {items : List Value} (h : items.Nodup)
    (hhash : ∀ item ∈ items, item.isHashable = true) : makeSet items = some (.set items) := by
  rw [makeSet, if_pos (List.all_eq_true.mpr hhash), h.dedup]

theorem makeDict_of_nodup {entries : List (Value × Value)}
    (h : (entries.map Prod.fst).Nodup) (hhash : ∀ entry ∈ entries, entry.1.isHashable = true) :
    makeDict entries = some (.dict entries) := by
  rw [makeDict, if_pos (List.all_eq_true.mpr hhash), foldl_setEntry [] (by simpa using h),
    List.nil_append]

/-- What was encoded is read back exactly. -/
theorem Storable.decode_encode {value : Value}
    (h : Storable (fun d ↦ fromisoformat (isoformat d) = some d) value) :
    decode fromisoformat (encode isoformat value) = some value := by
  induction h with
  | none | bool | int | float | str => simp [encode, decode]
  | datetime hd => simp [encode, tagged, decode, payload, decodeDatetime, hd]
  | source c => simp [encode, tagged, decode, payload, decodeSource]
  | set hnodup hhash _ ih =>
    simp [encode, tagged, decode, payload, decodeItemsAt, decodeAll_encodeAll ih,
      makeSet_of_nodup hnodup hhash]
  | tuple _ ih =>
    simp [encode, tagged, decode, payload, decodeItemsAt, decodeAll_encodeAll ih]
  | dict hnodup hhash _ _ ihkeys ihvalues =>
    simp [encode, tagged, decode, payload, decodePairsAt,
      decodePairs_encodeEntries ihkeys ihvalues, makeDict_of_nodup hnodup hhash]

end decode

end AnyList.Persistence
