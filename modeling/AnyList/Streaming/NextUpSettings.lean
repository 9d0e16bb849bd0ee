import AnyList.Library.Dict
import AnyList.Library.JsonPaths
import AnyList.Library.PyText
import Mathlib.Data.Finset.Sort
import Mathlib.Data.Finset.Union
import Mathlib.Data.List.Lex

namespace AnyList.Streaming.NextUpSettings

open AnyList.Library AnyList.Library.Octets AnyList.Library.Json AnyList.Library.PyText

section keys

abbrev bar : ℕ := 0x7C

def contentKey (key : Text) : Text := (strip key).takeWhile fun c ↦ decide (c ≠ bar)

/-- The key of an episode of a title. -/
def seedKey (title : Text) (episode : ℤ × ℤ) : Text :=
  title ++ bar :: (decimal episode.1 ++ bar :: decimal episode.2)

end keys

section formats

/-- What a merge fails with: a message, a text that is no JSON, or a value of another shape. -/
inductive SettingsError
  | value (message : String)
  | decode
  | shape
  deriving DecidableEq

/-- The two objects of a merge: the one that is passed, and its deep copy once there is one. -/
structure Objects where
  original : Value
  copy : Value

inductive Ref
  | original
  | copy
  deriving DecidableEq

def Objects.get (objects : Objects) : Ref → Value
  | .original => objects.original
  | .copy => objects.copy

def Objects.deepcopy (objects : Objects) : Objects := { objects with copy := objects.original }

structure Request where
  hidden : Finset Text
  visible : Finset Text
  seeds : Dict Text (Finset (ℤ × ℤ))

def asText : Value → Option Text
  | .str t => some t
  | _ => none

def stringSet (value : Option Value) : Except SettingsError (Finset Text) :=
  match value with
  | some (.arr items) =>
    match items.mapM asText with
    | some keys => .ok keys.toFinset
    | none => .error (.value "Invalid Next Up dismissals")
  | _ => .error (.value "Invalid Next Up dismissals")

def sortedStrings (keys : Finset Text) : Value := .arr (keys.sort.map .str)

def features (blob : Value) : Except SettingsError (List (Text × Value)) :=
  match field (text "features") blob.fields with
  | some (.obj fields) => .ok fields
  | _ => .error .shape

/-- Both formats merge a request alike: keys that stay the same are not written, and others are
written to a copy. -/
def mergeKeys (dismissals : Value → Except SettingsError (Finset Text))
    (keys : Request → Finset Text → Finset Text) (write : Value → Finset Text → Value)
    (request : Request) (objects : Objects) :
    Except SettingsError ((Ref × Finset Text) × Objects) := do
  let old ← dismissals objects.original
  let merged := keys request old
  if merged = old then return ((.original, merged), objects)
  let copied := objects.deepcopy
  return ((.copy, merged), { copied with copy := write copied.copy merged })

namespace TVSettings

def tracking (blob : Value) : Except SettingsError (List (Text × Value)) := do
  match field (text "trakt_settings") (← features blob) with
  | none => .ok []
  | some (.obj fields) => .ok fields
  | some _ => .error (.value "Invalid tracking settings")

/-- The entry of the dismissals; without one, an empty set. -/
def encoded (blob : Value) : Except SettingsError (List (Text × Value)) := do
  match field (text "dismissed_next_up_keys") (← tracking blob) with
  | none => .ok [(text "type", .str (text "string_set")), (text "value", .arr [])]
  | some (.obj fields) =>
    if (field (text "type") fields).bind asText = some (text "string_set") then .ok fields
    else .error (.value "Invalid Next Up dismissals")
  | some _ => .error (.value "Invalid Next Up dismissals")

def dismissals (blob : Value) : Except SettingsError (Finset Text) := do
  stringSet (field (text "value") (← encoded blob))

def path : List Text := [text "features", text "trakt_settings", text "dismissed_next_up_keys"]

/-- A touched title goes by its plain id, whatever keys it had. -/
def keys (request : Request) (old : Finset Text) : Finset Text :=
  (old.filter fun key ↦ contentKey key ∉ request.hidden ∪ request.visible) ∪
    (request.hidden \ request.visible)

def write (blob : Value) (keys : Finset Text) : Value :=
  let entry := ((blob.lookup path).map Value.fields).getD
    [(text "type", .str (text "string_set"))]
  (Value.obj (setField (text "value") (sortedStrings keys) entry)).put path blob

def merge (request : Request) (objects : Objects) :
    Except SettingsError ((Ref × Finset Text) × Objects) :=
  mergeKeys dismissals keys write request objects

end TVSettings

/-- Python's reader and writer of JSON texts. -/
structure JsonModule where
  loads : Text → Option Value
  dumps : Value → Text

namespace MobileSettings

variable (json : JsonModule)

def payload (blob : Value) : Except SettingsError (List (Text × Value)) := do
  match field (text "continue_watching_settings_payload") (← features blob) with
  | none => .ok []
  | some (.str encoded) =>
    if strip encoded = [] then .ok []
    else
      match json.loads encoded with
      | none => .error .decode
      | some (.obj fields) => .ok fields
      | some _ => .error (.value "Invalid Continue Watching payload")
  | some _ => .error (.value "Invalid Continue Watching payload")

def dismissals (blob : Value) : Except SettingsError (Finset Text) := do
  stringSet (some ((field (text "dismissedNextUpKeys") (← payload json blob)).getD (.arr [])))

def path : List Text := [text "features", text "continue_watching_settings_payload"]

/-- A title is hidden by the episodes that seed it. -/
def keys (request : Request) (old : Finset Text) : Finset Text :=
  (old.filter fun key ↦ contentKey key ∉ request.visible) ∪
    (request.hidden \ request.visible).biUnion fun title ↦
      ((request.seeds.get title).getD ∅).image (seedKey title)

def setKeys (payload : List (Text × Value)) (keys : Finset Text) : Value :=
  .obj (setField (text "dismissedNextUpKeys") (sortedStrings keys) payload)

def write (blob : Value) (keys : Finset Text) : Value :=
  match payload json blob with
  | .ok payload => (Value.str (json.dumps (setKeys payload keys))).put path blob
  | .error _ => blob

def merge (request : Request) (objects : Objects) :
    Except SettingsError ((Ref × Finset Text) × Objects) :=
  mergeKeys (dismissals json) keys (write json) request objects

end MobileSettings

end formats

end AnyList.Streaming.NextUpSettings
