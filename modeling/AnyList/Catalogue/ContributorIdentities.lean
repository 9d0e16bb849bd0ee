import AnyList.Catalogue.MergedRecord
import AnyList.Library.Aliases
import AnyList.Library.Runs
import AnyList.Library.Table
import Mathlib.Data.List.Sort
import Mathlib.Data.String.Basic

namespace AnyList.Catalogue.ContributorIdentities

open AnyList.Library (Dict Table)
open AnyList.Persistence (Value)

/-- What the identifiers take from Python: its text functions. -/
structure Python where
  strip : String → String
  upper : Char → Char
  isSpace : Char → Bool
  /-- The number that a text of digits stands for. -/
  digits : String → Option ℕ
  /-- As `digits`, of decimal digits only. -/
  decimals : String → Option ℕ

def namespaceKindsTable : List (String × List Kind) :=
  [("tmdb.movie", [.movie]), ("tmdb.series", [.series]), ("tvdb.series", [.series]),
   ("tvdb.movie", [.movie]), ("imdb.title", [.movie, .series]), ("tmdb.person", [.person]),
   ("tvdb.person", [.person]), ("tmdb.company", [.organization]), ("tmdb.network", [.organization]),
   ("tvdb.company", [.organization]), ("igdb.game", [.game]), ("igdb.character", [.character]),
   ("igdb.company", [.organization]), ("igdb.collection", [.gameCollection]),
   ("igdb.release", [.release]), ("igdb.game_version", [.release]), ("rawg.game", [.game]),
   ("rawg.developer", [.organization]), ("rawg.publisher", [.organization]),
   ("rawg.release", [.release]), ("hardcover.book", [.book]), ("hardcover.author", [.person]),
   ("hardcover.publisher", [.organization]), ("hardcover.character", [.character]),
   ("hardcover.edition", [.edition]), ("hardcover.series", [.bookSeries]),
   ("openlibrary.book", [.book]), ("openlibrary.edition", [.edition]),
   ("openlibrary.author", [.person]), ("isbn.10", [.edition]), ("isbn.13", [.edition]),
   ("steam.app", [.game]), ("itad.game", [.game])]

def namespaceKinds (provider : String) : List Kind := (namespaceKindsTable.lookup provider).getD []

section validate

variable (py : Python)

def digit (c : Char) : Bool := decide ('0' ≤ c ∧ c ≤ '9')

def digitValue (c : Char) : ℕ := c.toNat - '0'.toNat

def isbn10Sum : List Char → ℕ
  | [] => 0
  | c :: rest => (rest.length + 1) * (if c = 'X' then 10 else digitValue c) + isbn10Sum rest

def isbn13Sum : ℕ → List Char → ℕ
  | _, [] => 0
  | weight, c :: rest => digitValue c * weight + isbn13Sum (4 - weight) rest

def isIsbn10 (value : List Char) : Bool :=
  decide (value.length = 10) && (value.take 9).all digit &&
    (value.drop 9).all fun c ↦ digit c || decide (c = 'X')

def isIsbn13 (value : List Char) : Bool :=
  decide (value.length = 13) && value.all digit &&
    (decide (value.take 3 = "978".toList) || decide (value.take 3 = "979".toList))

/-- The book number in a text, where its checksum is right. -/
def isbn (text : String) (length : ℕ) : Option String :=
  let value := ((text.toList.filter fun c ↦ !(py.isSpace c || decide (c = '-'))).map py.upper)
  if length = 10 ∧ isIsbn10 value = true then
    if isbn10Sum value % 11 = 0 then some (String.ofList value) else none
  else if length = 13 ∧ isIsbn13 value = true then
    if isbn13Sum 1 value % 10 = 0 then some (String.ofList value) else none
  else none

def numericNamespaces : List String :=
  ["steam.app", "rawg.game", "rawg.developer", "rawg.publisher"]

def isNumeric (provider : String) : Bool :=
  ["tmdb.", "tvdb.", "hardcover.", "igdb."].any (startsWith provider) ||
    decide (provider ∈ numericNamespaces)

def openlibrarySuffix (provider : String) : Char :=
  if provider = "openlibrary.book" then 'W'
  else if provider = "openlibrary.edition" then 'M'
  else 'A'

/-- `OL`, a number without leading zeros and the suffix. -/
def isOpenlibrary (provider externalId : String) : Bool :=
  match externalId.toList with
  | 'O' :: 'L' :: first :: rest =>
    digit first && decide (first ≠ '0') && rest.dropLast.all digit &&
      decide (rest.getLast? = some (openlibrarySuffix provider))
  | _ => false

def isImdbTitle (externalId : String) : Bool :=
  match externalId.toList with
  | 't' :: 't' :: first :: rest => digit first && rest.all digit
  | _ => false

/-- The identifier as its namespace writes it. -/
def normalize (provider externalId : String) : Except String String := do
  let externalId ←
    if isNumeric provider = true then
      match py.digits externalId with
      | none | some 0 => .error "Expected a positive provider identifier"
      | some n => .ok (toString n)
    else .ok externalId
  if provider = "imdb.title" ∧ ¬isImdbTitle externalId = true then
    .error "Invalid IMDb title identifier"
  let externalId ←
    if startsWith provider "isbn." = true then
      match isbn py externalId (if provider = "isbn.10" then 10 else 13) with
      | none => .error "Invalid ISBN checksum"
      | some externalId => .ok externalId
    else .ok externalId
  if startsWith provider "openlibrary." = true ∧ ¬isOpenlibrary provider externalId = true then
    .error "Invalid Open Library identifier"
  .ok externalId

def validateIdentity (x : Identity) (kind : Option Kind) : Except String Identity :=
  let kinds := namespaceKinds x.provider
  if kinds = [] ∨ x.externalId = "" ∨ 200 < x.externalId.length then
    .error "Invalid identity namespace or identifier"
  else if kind.any (fun kind ↦ decide (kind ∉ kinds)) = true then
    .error "Identity namespace has a different entity kind"
  else if py.strip x.externalId = "" then .error "Empty external identifier"
  else (normalize py x.provider (py.strip x.externalId)).map fun native ↦ ⟨x.provider, native⟩

end validate

/-- An identifier with the entity it belongs to. -/
structure Mapping where
  identity : Identity
  entityId : ℕ
  source : Source

structure Tables where
  entities : Table Entity
  identities : List Mapping

/-- The contributors that two providers share, and that may become aliases. -/
inductive Contributor
  | person
  | company
  deriving DecidableEq

namespace Contributor

def kind : Contributor → Kind
  | person => .person
  | company => .organization

def tvdb : Contributor → String
  | person => "tvdb.person"
  | company => "tvdb.company"

def tmdb : Contributor → String
  | person => "tmdb.person"
  | company => "tmdb.company"

def canonicalId (e : Entity) : Contributor → Option ℕ
  | person => e.canonicalPersonId
  | company => e.canonicalCompanyId

def setCanonicalId (id : ℕ) (e : Entity) : Contributor → Entity
  | person => { e with canonicalPersonId := some id }
  | company => { e with canonicalCompanyId := some id }

def ofKind : Kind → Option Contributor
  | .person => some person
  | .organization => some company
  | _ => none

end Contributor

/-- What an entity stands for, where it is an alias. -/
def aliasTarget (e : Entity) : Option ℕ := e.canonicalPersonId.or e.canonicalCompanyId

section fields

def fieldText : Field → String
  | .column .name => "name"
  | .column .description => "description"
  | .column .imageUrl => "image_url"
  | .attributes key => "attributes." ++ key

def fieldValue (e : Entity) : Field → Value
  | .column c => ((e.column c).map Value.str).getD .none
  | .attributes key => (e.attributes.get key).getD .none

def optionalText : Value → Option String
  | .str text => some text
  | _ => none

/-- The field of one record as another record holds it. -/
def copyField (e from_ : Entity) : Field → Entity
  | .column .name => { e with name := from_.name }
  | .column .description => { e with description := from_.description }
  | .column .imageUrl => { e with imageUrl := from_.imageUrl }
  | .attributes key => { e with attributes := e.attributes.set key (fieldValue from_ (.attributes key)) }

def sortedFields (fields : List Field) : List Field :=
  fields.dedup.insertionSort fun f g ↦ fieldText f ≤ fieldText g

def sortedTexts (texts : List String) : List String := texts.dedup.insertionSort (· ≤ ·)

/-- The edited fields of the alias go to the root, where they do not contradict its own. -/
def keepProtected (aliasRow : Entity) (rootRow : Entity) (field : Field) : Except String Entity :=
  if field ∈ aliasRow.protectedFields ∧ field ∈ rootRow.protectedFields ∧
      fieldValue aliasRow field ≠ fieldValue rootRow field then
    .error "Contributor bridge has conflicting protected fields"
  else if field ∈ aliasRow.protectedFields then
    .ok { copyField rootRow aliasRow field with
      protectedFields := sortedFields (field :: rootRow.protectedFields) }
  else .ok rootRow

def texts : Option Value → List String
  | some (.list items) => items.filterMap optionalText
  | _ => []

def alsoKnownAs (e : Entity) : List String := texts (e.attributes.get "also_known_as")

theorem tvdb_stated : "tvdb" ≠ "" := by decide

def tvdbSource : Source := ⟨"tvdb", tvdb_stated⟩

/-- What the root takes from the alias where it has nothing itself. -/
def missingFields (aliasRow rootRow : Entity) : Record where
  kind := rootRow.kind
  name := none
  description := if stated rootRow.description then none else aliasRow.description
  imageUrl := if stated rootRow.imageUrl then none else aliasRow.imageUrl
  attributes := aliasRow.attributes.filterKeys fun key ↦
    !hasValue ((rootRow.attributes.get key).getD .none)
  identities := []

def mergedRoot (contributor : Contributor) (aliasRow rootRow : Entity) : Except String Entity := do
  let rootRow ← (aliasRow.protectedFields ++ rootRow.protectedFields).dedup.foldlM
    (keepProtected aliasRow) rootRow
  let rootRow := mergeFields rootRow (missingFields aliasRow rootRow) tvdbSource
  if contributor = .company ∧ Field.attributes "also_known_as" ∉ rootRow.protectedFields then
    .ok { rootRow with
      attributes := rootRow.attributes.set "also_known_as" (.list
        ((sortedTexts (aliasRow.name :: alsoKnownAs aliasRow ++ alsoKnownAs rootRow)).map .str)) }
  else .ok rootRow

end fields

namespace Tables

variable (c : Tables)

def mapping (x : Identity) : Option Mapping := c.identities.find? fun m ↦ decide (m.identity = x)

/-- Whether two of the identifiers of two entities differ within a namespace. -/
def contradicts (aliasId rootId : ℕ) : Bool :=
  let own := c.identities.filter fun m ↦ decide (m.entityId = aliasId ∨ m.entityId = rootId)
  own.any fun m ↦ own.any fun m' ↦ decide (m.identity.provider = m'.identity.provider ∧
    m.identity.externalId ≠ m'.identity.externalId)

/-- The alias stands for the root from now on, and so does what stood for the alias. -/
def bridge (contributor : Contributor) (aliasId rootId : ℕ) (rootRow : Entity) : Tables where
  entities := ((c.entities.modifyAt rootId fun _ ↦ rootRow).modifyAt aliasId
    fun e ↦ contributor.setCanonicalId rootId e).modify fun _ e ↦
      if contributor.canonicalId e = some aliasId then contributor.setCanonicalId rootId e else e
  identities := c.identities.map fun m ↦
    if m.entityId = aliasId then { m with entityId := rootId } else m

end Tables

section operations

variable (py : Python)

def resolveIdentity (c : Tables) (x : Identity) : Except String (Option Mapping) :=
  (validateIdentity py x none).map c.mapping

def bindIdentity (c : Tables) (entityId : ℕ) (x : Identity) (source : Source) :
    Except String Tables :=
  match c.entities.get entityId with
  | none => .error "Unknown canonical entity"
  | some e => do
    let x ← validateIdentity py x (some e.kind)
    match ← resolveIdentity py c x with
    | some previous =>
      if previous.entityId = entityId then .ok c
      else .error "Identifier already belongs to another entity; review before merging"
    | none =>
      if (c.mapping x).isSome then .error "uq_catalogue_identity"
      else .ok { c with identities := c.identities ++ [⟨x, entityId, source⟩] }

/-- The two identifiers of a record, one of each provider. -/
def pair (contributor : Contributor) : List Identity → Option (Identity × Identity)
  | [x, y] =>
    if x.provider = contributor.tvdb ∧ y.provider = contributor.tmdb then some (x, y)
    else if x.provider = contributor.tmdb ∧ y.provider = contributor.tvdb then some (y, x)
    else none
  | _ => none

def bridgeMappings (c : Tables) (contributor : Contributor) (tvdb tmdb : Mapping) :
    Except String Tables :=
  match c.entities.get tvdb.entityId, c.entities.get tmdb.entityId with
  | some aliasRow, some rootRow =>
    if aliasRow.kind ≠ contributor.kind ∨ rootRow.kind ≠ contributor.kind ∨
        contributor.canonicalId aliasRow ≠ none ∨ contributor.canonicalId rootRow ≠ none then
      .error "Contributor bridge has an invalid root"
    else if c.contradicts tvdb.entityId tmdb.entityId then
      .error "Contributor bridge contradicts existing provider identifiers"
    else do
      let rootRow ← mergedRoot contributor aliasRow rootRow
      .ok (c.bridge contributor tvdb.entityId tmdb.entityId rootRow)
  | _, _ => .error "Contributor bridge has an invalid root"

def reconcileContributorIdentities (c : Tables) (contributor : Contributor)
    (identities : List Identity) (source : Source) : Except String Tables :=
  if source.name ≠ "tvdb" then .ok c
  else match pair contributor identities with
    | none => .ok c
    | some (x, y) => do
      let _ ← identities.mapM fun x ↦ validateIdentity py x (some contributor.kind)
      -- the identifiers are looked up as the record spells them
      match c.mapping x, c.mapping y with
      | some tvdb, some tmdb =>
        if tvdb.entityId = tmdb.entityId then .ok c else bridgeMappings c contributor tvdb tmdb
      | _, _ => .ok c

def reconcileRecord (c : Tables) (values : Record) (source : Source) : Except String Tables :=
  match Contributor.ofKind values.kind with
  | some contributor => reconcileContributorIdentities py c contributor values.identities source
  | none => .ok c

/-- The entities that the identifiers of a record belong to. -/
def matchedIds (c : Tables) (values : Record) : Except String (List ℕ) :=
  values.identities.foldlM (fun ids x ↦ do
    let _ ← validateIdentity py x (some values.kind)
    match ← resolveIdentity py c x with
    | some found => .ok (ids.insert found.entityId)
    | none => .ok ids) []

def newEntity (values : Record) (name : String) (source : Source) : Entity where
  kind := values.kind
  name := name
  description := none
  imageUrl := none
  canonicalPersonId := none
  canonicalCompanyId := none
  attributes := .empty
  fieldSources := if values.placeholderName then .empty else Dict.empty.set (.column .name) source
  protectedFields := []

/-- The entity of a record, a new one where none of its identifiers is known. -/
def matchedEntity (c : Tables) (values : Record) (source : Source) :
    Except String (ℕ × Tables) := do
  match ← matchedIds py c values with
  | [] =>
    match values.name with
    | none => .error "name"
    | some name =>
      .ok (c.entities.next, { c with entities := c.entities.insert (newEntity values name source) })
  | [entityId] =>
    match c.entities.get entityId with
    | none => .error "Unknown canonical entity"
    | some e =>
      if e.kind = values.kind then .ok (entityId, c)
      else .error "Provider cross-reference has a different entity kind"
  | _ => .error "Provider cross-references disagree with existing mappings"

def upsertEntity (c : Tables) (values : Record) (source : Source) :
    Except String (ℕ × Tables) :=
  if values.identities = [] then .error "Canonical records require an identity"
  else do
    let c ← reconcileRecord py c values source
    let (entityId, c) ← matchedEntity py c values source
    let c : Tables :=
      { c with entities := c.entities.modifyAt entityId fun e ↦ mergeFields e values source }
    let c ← values.identities.foldlM (fun c x ↦ bindIdentity py c entityId x source) c
    .ok (entityId, c)

/-- A person as the provider describes it: its own number, and the names and numbers that other
sites know it by. -/
structure RawPerson where
  id : String
  remoteIds : List (String × String)

/-- The one number that the other provider knows a person by. -/
def tvdbTmdbPerson (raw : RawPerson) : Option String :=
  let ids := (raw.remoteIds.filterMap fun remote ↦
    if remote.1 = "TheMovieDB.com" then
      (py.decimals remote.2).bind fun n ↦
        if 0 < n ∧ n ≤ 2147483647 then some remote.2 else none
    else none).dedup
  match ids with
  | [native] => some native
  | _ => none

def verifiedTvdbPerson (c : Tables) (native : String) (raw : RawPerson) :
    Except String (Bool × Tables) :=
  if raw.id ≠ native then .error "Provider person identity mismatch"
  else match tvdbTmdbPerson py raw with
    | none => .ok (false, c)
    | some tmdb => do
      let c ← reconcileContributorIdentities py c .person
        [⟨"tvdb.person", native⟩, ⟨"tmdb.person", tmdb⟩] tvdbSource
      match ← resolveIdentity py c ⟨"tvdb.person", native⟩ with
      | none => .ok (false, c)
      | some m => do
        let c ← bindIdentity py c m.entityId ⟨"tmdb.person", tmdb⟩ tvdbSource
        .ok (true, c)

/-- The fields that an administrator sets, which no provider replaces afterwards. -/
structure Correction where
  name : Option String
  description : Option (Option String)
  imageUrl : Option (Option String)

def manual : Source := ⟨"manual", by decide⟩

def Correction.fields (changes : Correction) : List Field :=
  (if changes.name.isSome then [.column .name] else []) ++
    (if changes.description.isSome then [.column .description] else []) ++
    (if changes.imageUrl.isSome then [.column .imageUrl] else [])

def correct (changes : Correction) (e : Entity) : Entity :=
  { e with
    name := changes.name.getD e.name
    description := changes.description.getD e.description
    imageUrl := changes.imageUrl.getD e.imageUrl
    protectedFields := sortedFields (e.protectedFields ++ changes.fields)
    fieldSources := e.fieldSources.setAll (changes.fields.map fun field ↦ (field, manual)) }

end operations

/-- What changes the catalogue's contributors: the records of the providers, the verified bridges
between these, and what an administrator binds or corrects. -/
inductive Request
  | upsert (values : Record) (source : Source)
  | verify (native : String) (raw : RawPerson)
  | bind (entityId : ℕ) (x : Identity)
  | correct (entityId : ℕ) (changes : Correction)

def reviewed : Source := ⟨"reviewed", by decide⟩

section run

variable (py : Python)

def Request.result (c : Tables) : Request → Except String Tables
  | upsert values source => (upsertEntity py c values source).map Prod.snd
  | verify native raw => (verifiedTvdbPerson py c native raw).map Prod.snd
  | bind entityId x => bindIdentity py c entityId x reviewed
  | correct entityId changes =>
    .ok { c with entities := c.entities.modifyAt entityId (ContributorIdentities.correct changes) }

/-- A request that fails is rolled back. -/
def step (c : Tables) (request : Request) : Tables :=
  match request.result py c with
  | .ok c' => c'
  | .error _ => c

def run (c : Tables) (requests : List Request) : Tables := requests.foldl (step py) c

end run

def empty : Tables := ⟨.empty, []⟩

end AnyList.Catalogue.ContributorIdentities
