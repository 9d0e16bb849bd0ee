import AnyList.Library.Dict
import AnyList.Persistence.Values

namespace AnyList.Catalogue

open AnyList.Library (Dict)
open AnyList.Persistence (Value)

inductive Kind
  | movie | series | game | book | bookSeries | gameCollection | person | organization | character
  | edition | release
  deriving DecidableEq

/-- The provider or other origin of a value. -/
structure Source where
  name : String
  stated : name ≠ ""
  deriving DecidableEq

structure Identity where
  provider : String
  externalId : String
  deriving DecidableEq

inductive Column
  | name | description | imageUrl
  deriving DecidableEq

/-- The fields with sources and protection: the three columns and, as `attributes.key`, each key of
the attributes. -/
inductive Field
  | column (column : Column)
  | attributes (key : String)
  deriving DecidableEq

structure Entity where
  kind : Kind
  name : String
  description : Option String
  imageUrl : Option String
  canonicalPersonId : Option ℕ
  canonicalCompanyId : Option ℕ
  attributes : Dict String Value
  fieldSources : Dict Field Source
  protectedFields : List Field

/-- A normalized record of a provider. -/
structure Record where
  kind : Kind
  name : Option String
  description : Option String
  imageUrl : Option String
  attributes : Dict String Value
  identities : List Identity

def Column.all : List Column := [.name, .description, .imageUrl]

def primary : Kind → Option String
  | .movie | .series => some "tmdb"
  | .game => some "igdb"
  | .book => some "hardcover"
  | _ => none

def sourceRank (kind : Kind) (source : Source) : ℕ :=
  if source.name = "manual" ∨ source.name = "reviewed" then 1000
  else if source.name = "legacy" then 200
  else if primary kind = some source.name then 100
  else if source.name = "rawg" then 20
  else if source.name = "openlibrary" then 60
  else 80

def hasValue : Value → Bool
  | .none | .str "" | .list [] | .dict [] => false
  | _ => true

/-- Whether a text is there and not empty. -/
def stated (text : Option String) : Bool := text.any fun text ↦ decide (text ≠ "")

def startsWith (text start : String) : Bool := start.toList.isPrefixOf text.toList

namespace Entity

variable (row : Entity)

def column : Column → Option String
  | .name => some row.name
  | .description => row.description
  | .imageUrl => row.imageUrl

def setColumn (value : String) : Column → Entity
  | .name => { row with name := value }
  | .description => { row with description := some value }
  | .imageUrl => { row with imageUrl := some value }

end Entity

namespace Record

variable (values : Record)

def column : Column → Option String
  | .name => values.name
  | .description => values.description
  | .imageUrl => values.imageUrl

def placeholderName : Bool :=
  decide (values.name ∈ values.identities.map fun x ↦ some (x.provider ++ ":" ++ x.externalId))

end Record

def tmdbPortraits : String := "https://image.tmdb.org/t/p/"

def tvdbArtworks : String := "https://artworks.thetvdb.com/"

/-- A portrait of TMDB goes before a default one of TVDB. -/
def preferredPersonPortrait (row : Entity) (value : String) (source : Source) : Bool :=
  decide (row.kind = .person) && decide (source.name = "tmdb") && startsWith value tmdbPortraits &&
    (row.fieldSources.get (.column .imageUrl)).any (fun s ↦ decide (s.name = "tvdb")) &&
    startsWith (row.imageUrl.getD "") tvdbArtworks &&
    !decide (.column .imageUrl ∈ row.protectedFields)

section merge

variable (kind : Kind) (source : Source)

/-- Whether a source may replace what an earlier source wrote. -/
def outranks (oldSource : Option Source) : Bool :=
  oldSource.any fun old ↦ decide (sourceRank kind old ≤ sourceRank kind source)

def mergeColumn (values : Record) (state : Entity × Dict Field Source) (column : Column) :
    Entity × Dict Field Source :=
  let (row, sources) := state
  let value := (values.column column).getD ""
  if value = "" ∨ .column column ∈ row.protectedFields ∨
      (column = .name ∧ values.placeholderName = true) then state
  else
    let old := row.column column
    let oldSource := sources.get (.column column)
    -- a portrait of TMDB is kept when TVDB enriches the person later
    if column = .imageUrl ∧ row.kind = .person ∧ source.name = "tvdb" ∧
        startsWith (old.getD "") tmdbPortraits = true then state
    else if ¬ stated old = true ∨
        (column = .name ∧ ':' ∈ (old.getD "").toList ∧ oldSource = none) ∨
        (column = .imageUrl ∧ preferredPersonPortrait row value source = true) ∨
        outranks row.kind source oldSource = true then
      (row.setColumn value column, sources.set (.column column) source)
    else state

def absent : Option Value → Bool
  | none | some .none => true
  | _ => false

def mergeAttribute (row : Entity) (state : Dict String Value × Dict Field Source)
    (entry : String × Value) : Dict String Value × Dict Field Source :=
  let (attrs, sources) := state
  let (key, value) := entry
  if ¬ hasValue value = true ∨ .attributes key ∈ row.protectedFields then state
  else if absent (attrs.get key) = true ∨
      outranks row.kind source (sources.get (.attributes key)) = true then
    (attrs.set key value, sources.set (.attributes key) source)
  else state

end merge

def mergeFields (row : Entity) (values : Record) (source : Source) : Entity :=
  let (row, sources) := Column.all.foldl (mergeColumn source values) (row, row.fieldSources)
  let (attrs, sources) :=
    values.attributes.entries.foldl (mergeAttribute source row) (row.attributes, sources)
  { row with attributes := attrs, fieldSources := sources }

end AnyList.Catalogue
