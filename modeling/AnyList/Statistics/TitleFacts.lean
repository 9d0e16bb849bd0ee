import AnyList.Catalogue.MergedRecord
import AnyList.Library.Forests
import AnyList.Reconciliation.Watches
import Mathlib.Data.Finset.Insert
import Mathlib.Algebra.Ring.Rat

namespace AnyList.Statistics

open AnyList.Catalogue (Kind)
open AnyList.Library (Dict)
open AnyList.Library.Forests (root union)
open AnyList.Persistence (Value)
open AnyList.Reconciliation.Watches (Status)

inductive MediaType
  | movie | series | episode
  deriving DecidableEq

def MediaType.kind : MediaType → Option Kind
  | .movie => some .movie
  | .series => some .series
  | .episode => none

inductive Provider
  | tmdb | tvdb
  deriving DecidableEq

structure ProviderIds where
  tmdb : Option ℤ
  tvdb : Option ℤ

/-- The id of a provider; zero counts as none. -/
def ProviderIds.given (ids : ProviderIds) : Provider → Option ℤ
  | .tmdb => ids.tmdb.filter (· ≠ 0)
  | .tvdb => ids.tvdb.filter (· ≠ 0)

structure Media where
  id : ℕ
  mediaType : MediaType
  ids : ProviderIds
  showId : Option ℕ
  runtime : Option ℤ
  releaseDate : Option String
  tmdbData : Dict String Value

structure Show where
  id : ℕ
  ids : ProviderIds
  firstAirDate : Option String
  tmdbData : Dict String Value

structure CatalogueEntity where
  kind : Kind
  attributes : Dict String Value

/-- A tracked entry; the key of a season score is the number it reads as, where it reads as one. -/
structure Entry where
  id : ℕ
  updatedAt : Option ℤ
  status : Status
  manual : Bool
  manualScore : Option ℚ
  seasonScores : List (Option ℤ × Option ℚ)
  progress : ℤ
  finishYear : Option ℤ

structure Event where
  playCount : Option ℤ
  watchedYear : Option ℤ
  dateInferred : Bool
  dateShared : Bool
  provisional : Bool

inductive Key
  | catalogue (entityId : ℕ)
  | ofShow (id : ℕ)
  | ofTmdb (kind : MediaType) (id : ℤ)
  | ofMedia (id : ℕ)
  deriving DecidableEq

structure Year where
  minutes : ℚ
  plays : ℕ

/-- What the statistics hold of one title. -/
structure Fact where
  kind : MediaType
  entityId : Option ℕ
  data : Dict String Value
  shows : List ℕ
  media : List ℕ
  detailMediaId : Option ℕ
  listed : Bool
  status : Option Status
  score : Option ℚ
  progress : ℤ
  completionYear : Option ℤ
  entryOrder : Option (ℤ × ℕ)
  minutes : ℚ
  plays : ℕ
  episodePlays : ℕ
  episodes : Finset ℕ
  years : Dict ℤ Year
  runtimeKnown : ℕ
  runtimeEstimated : ℕ
  runtimeMissing : ℕ
  authoritativePlays : ℕ
  unattributedPlays : ℕ

def Fact.new (kind : MediaType) (entityId : Option ℕ) : Fact :=
  ⟨kind, entityId, Dict.empty, [], [], none, false, none, none, 0, none, none, 0, 0, 0, ∅,
    Dict.empty, 0, 0, 0, 0, 0⟩

structure Coverage where
  orphanEpisodePlays : ℕ
  identityConflicts : ℕ
  hiddenTitleCount : ℕ

/-- The arguments of `titleFacts`, database rows of one session: an identity is keyed by provider,
kind and number, and rows of one id are one row. -/
structure Input where
  entries : List (Entry × Media)
  events : List (Event × Media)
  shows : List Show
  media : List Media
  episodes : List Media
  links : Dict ℕ ℕ
  showLinks : Dict ℕ ℕ
  identities : Dict (Provider × MediaType × ℤ) ℕ
  entities : Dict ℕ CatalogueEntity
  showAnime : Bool
  nodup_shows : (shows.map Show.id).Nodup
  nodup_media : (media.map Media.id).Nodup
  eq_of_id : ∀ row ∈ episodes ++ events.map Prod.snd, ∀ row' ∈ episodes ++ events.map Prod.snd,
    row.id = row'.id → row = row'

/-- How texts and numerals are read: `str.strip`, `str.lower`, `float` and the country register. -/
structure Reading where
  strip : String → String
  lower : String → String
  float : String → Option ℚ
  countryCode : String → Option String

section metadata

variable (reading : Reading)

def positiveNumber : Value → Option ℚ
  | .int n => (some (n : ℚ)).filter (0 < ·)
  | .float x => (some x).filter (0 < ·)
  | .str s => (reading.float s).filter (0 < ·)
  | _ => none

def truthy : Value → Bool
  | .none | .bool false | .str "" | .list [] | .set [] | .tuple [] | .dict [] => false
  | .int n => decide (n ≠ 0)
  | .float x => decide (x ≠ 0)
  | _ => true

/-- The items of a value that can be iterated. -/
def items : Value → List Value
  | .list items | .set items | .tuple items => items
  | .dict entries => entries.map Prod.fst
  | .str s => s.toList.map fun c ↦ .str (String.singleton c)
  | _ => []

def member (key : String) : Value → Option Value
  | .dict entries => (entries.find? fun entry ↦ decide (entry.1 = .str key)).map Prod.snd
  | _ => none

def isGenre (genre : String) (g : Value) : Bool :=
  match g with
  | .str name => decide (reading.lower (reading.strip name) = genre)
  | .dict _ =>
    match member "name" g with
    | some (.str name) => decide (reading.lower (reading.strip name) = genre)
    | _ => false
  | _ => false

def countryCodes (values : Value) : List String :=
  let listed := match values with
    | .str s => [Value.str s]
    | values => if truthy values then items values else []
  listed.filterMap fun value ↦
    match value with
    | .str s => (reading.countryCode s).filter (· ≠ "")
    | _ => none

def countriesOf (data : Dict String Value) : List String :=
  let origins := (data.get "origin_countries").getD .none
  let origin := countryCodes reading
    (if truthy origins then origins else (data.get "origin_country").getD .none)
  let production := countryCodes reading (.list ((items ((data.get "production_countries").getD
    (.list []))).map fun v ↦
      match v with
      | .dict _ => (member "iso_3166_1" v).getD .none
      | v => v))
  if origin = [] then production else origin

def anime (data : Dict String Value) : Bool :=
  ((items ((data.get "genres").getD (.list []))).any (isGenre reading "animation")) &&
    (decide (data.get "original_language" = some (.str "ja")) ||
      decide (data.get "original_language" = some (.str "jpn")) ||
      decide ("JP" ∈ countriesOf reading data))

inductive Quality
  | known | estimated | missing
  deriving DecidableEq

def quality (value : Option ℚ) (found : Quality) : Quality :=
  if value.isSome then found else .missing

def runtimeFor (row : Media) (data : Dict String Value) : Option ℚ × Quality :=
  let direct := ((row.runtime.bind fun n ↦ positiveNumber reading (.int n))).or
    ((row.tmdbData.get "runtime").bind (positiveNumber reading))
  if direct.isSome then (direct, .known)
  else if row.mediaType = .movie then
    let value := (data.get "runtime").bind (positiveNumber reading)
    (value, quality value .known)
  else
    let values := match (data.get "episode_run_time").getD .none with
      | .list values => values
      | value => if truthy value then [value] else []
    let value := values.findSome? (positiveNumber reading)
    (value, quality value .estimated)

end metadata

namespace Input

variable (i : Input)

section titles

def candidates (ids : ProviderIds) (kind : MediaType) (bridge : Option ℕ) : List ℕ :=
  let found := [Provider.tmdb, .tvdb].filterMap fun p ↦
    (ids.given p).bind fun native ↦ i.identities.get (p, kind, native)
  ((found ++ (bridge.filter (· ≠ 0)).toList).filter fun value ↦
    (i.entities.get value).any fun entity ↦ decide (some entity.kind = kind.kind)).dedup

/-- The key of the one entity that the ids and the bridge lead to, and whether they lead to
several. -/
def canonical (ids : ProviderIds) (kind : MediaType) (bridge : Option ℕ) : Option Key × ℕ :=
  match i.candidates ids kind bridge with
  | [] => (none, 0)
  | [entity] => (some (.catalogue entity), 0)
  | _ => (none, 1)

def isStated : Value → Bool
  | .none | .list [] | .str "" => false
  | _ => true

def stated (data : Dict String Value) : List (String × Value) :=
  data.entries.filter fun entry ↦ isStated entry.2

def entityOf : Key → Option ℕ
  | .catalogue entity => if (i.entities.get entity).isSome then some entity else none
  | _ => none

/-- Canonical fields win; retained local metadata fills missing fields. -/
def fact (facts : Dict Key Fact) (key : Key) (kind : MediaType) (data : Dict String Value) : Fact :=
  let target := (facts.get key).getD (Fact.new kind (i.entityOf key))
  let filled := target.data.setAll (stated data)
  match target.entityId.bind i.entities.get with
  | some entity => { target with data := filled.setAll (stated entity.attributes) }
  | none => { target with data := filled }

structure Titles where
  facts : Dict Key Fact
  byShow : Dict ℕ Key
  byMedia : Dict ℕ Key
  identityConflicts : ℕ

def text (value : Option String) : Value := (value.map Value.str).getD .none

def showData (row : Show) : Dict String Value := row.tmdbData.set "release_date" (text row.firstAirDate)

def addShow (titles : Titles) (row : Show) : Titles :=
  let (found, conflicts) := i.canonical row.ids .series (i.showLinks.get row.id)
  let key := found.getD (.ofShow row.id)
  let target := i.fact titles.facts key .series (showData row)
  { titles with
    facts := titles.facts.set key { target with shows := target.shows ++ [row.id] }
    byShow := titles.byShow.set row.id key
    identityConflicts := titles.identityConflicts + conflicts }

def sharesId (row : Media) (s : Show) : Bool :=
  (row.ids.given .tmdb).any (fun native ↦ decide (s.ids.tmdb = some native)) ||
    (row.ids.given .tvdb).any (fun native ↦ decide (s.ids.tvdb = some native))

def mediaData (row : Media) : Dict String Value :=
  let dated := match row.releaseDate.filter (· ≠ "") with
    | some date => row.tmdbData.set "release_date" (.str date)
    | none => row.tmdbData
  match row.runtime.filter (· ≠ 0) with
  | some minutes => if row.mediaType = .movie then dated.set "runtime" (.int minutes) else dated
  | none => dated

/-- The key of a title, and the conflicts met on the way to it. -/
def mediaKey (byShow : Dict ℕ Key) (row : Media) : Key × ℕ :=
  let (found, conflicts) := i.canonical row.ids row.mediaType (i.links.get row.id)
  let fallback := match row.ids.given .tmdb with
    | some native => Key.ofTmdb row.mediaType native
    | none => .ofMedia row.id
  if row.mediaType = .series then
    match (((i.shows.filter (sharesId row)).filterMap fun s ↦ byShow.get s.id) ++
      found.toList).dedup with
    | [] => (fallback, conflicts)
    | [key] => (key, conflicts)
    | _ => (.ofMedia row.id, conflicts + 1)
  else (found.getD fallback, conflicts)

def addMedia (titles : Titles) (row : Media) : Titles :=
  let (key, conflicts) := i.mediaKey titles.byShow row
  let target := i.fact titles.facts key row.mediaType (mediaData row)
  { titles with
    facts := titles.facts.set key
      { target with
        media := target.media ++ [row.id]
        detailMediaId := target.detailMediaId.or (some row.id) }
    byMedia := titles.byMedia.set row.id key
    identityConflicts := titles.identityConflicts + conflicts }

def titles : Titles :=
  i.media.foldl i.addMedia (i.shows.foldl i.addShow ⟨Dict.empty, Dict.empty, Dict.empty, 0⟩)

end titles

section episodes

/-- The episodes by their ids, those of the events last. -/
def episodeRows : Dict ℕ Media :=
  let catalogued := i.episodes.foldl (fun rows row ↦ rows.set row.id row) Dict.empty
  (i.events.filter fun e ↦ decide (e.2.mediaType = .episode)).foldl
    (fun rows e ↦ rows.set e.2.id e.2) catalogued

/-- A verified provider ID establishes episode identity. -/
def episodeIds : List (ℕ × Key × Provider × ℤ) :=
  i.episodeRows.values.flatMap fun row ↦ [Provider.tmdb, .tvdb].filterMap fun p ↦
    match row.ids.given p, row.showId.bind i.titles.byShow.get with
    | some native, some key => some (row.id, key, p, native)
    | _, _ => none

def joinEpisode (fuel : ℕ) (state : (ℕ → ℕ) × Dict (Key × Provider × ℤ) ℕ)
    (occurrence : ℕ × Key × Provider × ℤ) : (ℕ → ℕ) × Dict (Key × Provider × ℤ) ℕ :=
  let (parents, aliases) := state
  (match aliases.get occurrence.2 with
    | some earlier => union fuel parents occurrence.1 earlier
    | none => parents,
    aliases.set occurrence.2 occurrence.1)

def parents : ℕ → ℕ :=
  (i.episodeIds.foldl (joinEpisode i.episodeIds.length) (fun id ↦ id, Dict.empty)).1

end episodes

section entries

def minTime : ℤ := -62135596800000000

def order (entry : Entry) : ℤ × ℕ := (entry.updatedAt.getD minTime, entry.id)

def notBefore (o o' : ℤ × ℕ) : Bool := decide (o'.1 < o.1) || (decide (o.1 = o'.1) && decide (o'.2 ≤ o.2))

def effectiveScore (entry : Entry) : Option ℚ :=
  if entry.manual then entry.manualScore.filter (0 < ·)
  else if entry.seasonScores.any fun score ↦ score.1.isNone then none
  else
    let scores := entry.seasonScores.filterMap fun score ↦
      if score.1.any fun n ↦ decide (0 < n) then score.2.filter (0 < ·) else none
    if scores = [] then none else some (scores.sum / scores.length)

def listEntry (titles : Titles) (facts : Dict Key Fact) (e : Entry × Media) :
    Option (Dict Key Fact) := do
  let (entry, row) := e
  let key ← titles.byMedia.get row.id
  let target ← facts.get key
  if target.entryOrder.any fun o ↦ notBefore o (order entry) then pure facts
  else
    pure (facts.set key { target with
      listed := true
      status := some entry.status
      score := (effectiveScore entry).filter (· ≤ 10)
      progress := max entry.progress 0
      entryOrder := some (order entry)
      detailMediaId := some row.id
      completionYear := if entry.status = .completed then entry.finishYear else none })

def listed : Option (Dict Key Fact) := i.entries.foldlM (listEntry i.titles) i.titles.facts

end entries

section events

variable (reading : Reading)

def isHidden (key : Key) : Bool :=
  !i.showAnime && (i.titles.facts.get key).any fun target ↦ anime reading target.data

def keyOf (titles : Titles) (row : Media) : Option Key :=
  if row.mediaType = .movie then titles.byMedia.get row.id
  else row.showId.bind titles.byShow.get

def plays (event : Event) : ℕ :=
  (max (if (event.playCount.getD 0) = 0 then 1 else event.playCount.getD 0) 1).toNat

def dated (event : Event) : Bool :=
  event.watchedYear.isSome && !(event.dateInferred || event.dateShared || event.provisional)

def addYear (years : Dict ℤ Year) (year : ℤ) (minutes : ℚ) : Dict ℤ Year :=
  years.upsert year ⟨0, 0⟩ fun total ↦ ⟨total.minutes + minutes, total.plays + 1⟩

/-- A collapsed repeat row establishes one play's date, never all repeats. -/
def countDate (target : Fact) (event : Event) (minutes : ℚ) : Fact :=
  match event.watchedYear, dated event with
  | some year, true =>
    { target with
      years := addYear target.years year minutes
      authoritativePlays := target.authoritativePlays + 1
      unattributedPlays := target.unattributedPlays + (plays event - 1) }
  | _, _ => { target with unattributedPlays := target.unattributedPlays + plays event }

def countRuntime (target : Fact) (event : Event) (row : Media) (episode : ℕ) : Fact :=
  let (minutes, found) := runtimeFor reading row target.data
  let n := plays event
  { target with
    plays := target.plays + n
    minutes := target.minutes + minutes.getD 0 * n
    runtimeKnown := target.runtimeKnown + if found = .known then n else 0
    runtimeEstimated := target.runtimeEstimated + if found = .estimated then n else 0
    runtimeMissing := target.runtimeMissing + if found = .missing then n else 0
    episodePlays := target.episodePlays + if row.mediaType = .episode then n else 0
    episodes := if row.mediaType = .episode then insert episode target.episodes
      else target.episodes }

def countPlays (target : Fact) (event : Event) (row : Media) (episode : ℕ) : Fact :=
  countDate (countRuntime reading target event row episode) event
    ((runtimeFor reading row target.data).1.getD 0)

structure Counts where
  facts : Dict Key Fact
  orphanEpisodePlays : ℕ
  parents : ℕ → ℕ

def countEvent (counts : Counts) (e : Event × Media) : Counts :=
  let (event, row) := e
  match keyOf i.titles row with
  | none => { counts with orphanEpisodePlays := counts.orphanEpisodePlays + plays event }
  | some key =>
    if i.isHidden reading key then counts
    else
      match counts.facts.get key with
      | none => counts
      | some target =>
        let found := root i.episodeIds.length counts.parents row.id
        { counts with
          facts := counts.facts.set key (countPlays reading target event row found.2)
          parents := if row.mediaType = .episode then found.1 else counts.parents }

/-- All facts, those of hidden titles included; an entry whose row is not among the media raises. -/
def counted : Option Counts :=
  i.listed.map fun facts ↦ i.events.foldl (i.countEvent reading) ⟨facts, 0, i.parents⟩

/-- The facts of the titles that are not hidden, up to the planned workload. -/
def titleFacts : Option (List (Key × Fact) × Coverage) :=
  (i.counted reading).map fun counts ↦
    (counts.facts.entries.filter fun entry ↦ !i.isHidden reading entry.1,
      ⟨counts.orphanEpisodePlays, i.titles.identityConflicts,
        (i.titles.facts.keys.filter (i.isHidden reading)).length⟩)

end events

end Input

end AnyList.Statistics
