import AnyList.Library.Dict
import AnyList.Library.KeepApart
import Mathlib.Data.List.Sort

namespace AnyList.Shows

open AnyList.Library
open AnyList.Library.KeepApart (keepApart)

section keys

def orderAired : String := "tmdb:aired"

/-- A stored order as its key; a missing one means the aired order. -/
def normalizeOrderKey (value : Option String) : String :=
  let text := value.getD ""
  if text = "" ∨ text = "tmdb" ∨ text = "tmdb:aired" then orderAired
  else if text = "tvdb" then "tvdb:official"
  else text

def isAiredOrder (key : Option String) : Bool := normalizeOrderKey key = orderAired

def startsWith (key head : String) : Bool := head.toList.isPrefixOf key.toList

/-- What follows the first colon. -/
def afterColon (key : String) : String :=
  String.ofList (key.toList.dropWhile (· ≠ ':')).tail

def tvdbSeasonType (orderKey : String) : String :=
  let rest := afterColon orderKey
  if startsWith rest "type:" then afterColon rest else rest

end keys

/-- A row of `show_episode_positions`. -/
structure ShowEpisodePosition where
  seriesTmdbId : ℕ
  orderKey : String
  displaySeason : ℤ
  displayEpisode : ℤ
  tmdbEpisodeId : ℤ
  tmdbSeasonNumber : ℤ
  tmdbEpisodeNumber : ℤ
deriving DecidableEq

/-- An episode as a provider names it: its TMDB id, its season and its number. -/
@[ext]
structure Episode where
  tmdbEpisodeId : ℤ
  tmdbSeasonNumber : ℤ
  tmdbEpisodeNumber : ℤ
deriving DecidableEq

def Episode.canonical (episode : Episode) : ℤ × ℤ :=
  (episode.tmdbSeasonNumber, episode.tmdbEpisodeNumber)

namespace ShowEpisodePosition

def display (row : ShowEpisodePosition) : ℤ × ℤ := (row.displaySeason, row.displayEpisode)

def canonical (row : ShowEpisodePosition) : ℤ × ℤ := (row.tmdbSeasonNumber, row.tmdbEpisodeNumber)

def episode (row : ShowEpisodePosition) : Episode :=
  ⟨row.tmdbEpisodeId, row.tmdbSeasonNumber, row.tmdbEpisodeNumber⟩

/-- The row that gives an episode a display position. -/
def place (seriesTmdbId : ℕ) (orderKey : String) (displaySeason displayEpisode : ℤ)
    (episode : Episode) : ShowEpisodePosition where
  seriesTmdbId := seriesTmdbId
  orderKey := orderKey
  displaySeason := displaySeason
  displayEpisode := displayEpisode
  tmdbEpisodeId := episode.tmdbEpisodeId
  tmdbSeasonNumber := episode.tmdbSeasonNumber
  tmdbEpisodeNumber := episode.tmdbEpisodeNumber

/-- Two rows that the seen sets of a builder cannot both let through. -/
def Clash (row row' : ShowEpisodePosition) : Prop :=
  row.tmdbEpisodeId = row'.tmdbEpisodeId ∨ row.display = row'.display

def SameDisplay (row row' : ShowEpisodePosition) : Prop := row.display = row'.display

instance decidableClash : DecidableRel Clash :=
  fun row row' ↦ inferInstanceAs (Decidable (row.tmdbEpisodeId = row'.tmdbEpisodeId ∨ _))

instance decidableSameDisplay : DecidableRel SameDisplay :=
  fun row row' ↦ inferInstanceAs (Decidable (row.display = row'.display))

end ShowEpisodePosition

open ShowEpisodePosition (Clash SameDisplay place)

section providers

/-- An entry of a TMDB episode group; `order` is 0 where the group names none. -/
structure GroupEpisode where
  id : Option ℤ
  seasonNumber : Option ℤ
  episodeNumber : Option ℤ
  order : ℤ

structure EpisodeGroup where
  order : ℤ
  episodes : List GroupEpisode

structure TvdbEpisode where
  id : Option ℤ
  seasonNumber : Option ℤ
  number : Option ℤ

/-- A row of `episode_order_mappings`. -/
structure EpisodeOrderMapping where
  tmdbSeasonNumber : ℤ
  tmdbEpisodeNumber : ℤ
  tmdbEpisodeId : ℤ
  tvdbId : ℤ
  tvdbSeasonNumber : ℤ
  tvdbEpisodeNumber : ℤ
deriving DecidableEq

def EpisodeOrderMapping.episode (m : EpisodeOrderMapping) : Episode :=
  ⟨m.tmdbEpisodeId, m.tmdbSeasonNumber, m.tmdbEpisodeNumber⟩

/-- The mapping rows of one show as a select answers them, under their unique constraints. -/
structure Mappings where
  rows : List EpisodeOrderMapping
  tmdbUnique : (rows.map fun m ↦ (m.tmdbSeasonNumber, m.tmdbEpisodeNumber)).Nodup
  tvdbUnique : (rows.map EpisodeOrderMapping.tvdbId).Nodup

/-- The mapping rows by their TVDB ids. -/
def Mappings.bridge (mappings : Mappings) : Dict ℤ EpisodeOrderMapping :=
  Dict.indexBy EpisodeOrderMapping.tvdbId mappings.rows

def GroupEpisode.episode (ep : GroupEpisode) : Option Episode :=
  match ep.id, ep.seasonNumber, ep.episodeNumber with
  | some eid, some s, some e => some ⟨eid, s, e⟩
  | _, _, _ => none

/-- The mapped episode that a TVDB listing is of. -/
def TvdbEpisode.mapping (ep : TvdbEpisode) (bridge : Dict ℤ EpisodeOrderMapping) :
    Option EpisodeOrderMapping :=
  ep.id.bind bridge.get

def TvdbEpisode.position (ep : TvdbEpisode) (seriesTmdbId : ℕ) (orderKey : String)
    (bridge : Dict ℤ EpisodeOrderMapping) : Option ShowEpisodePosition :=
  (ep.mapping bridge).bind fun m ↦
    ep.number.map fun de ↦ place seriesTmdbId orderKey (ep.seasonNumber.getD 1) de m.episode

/-- What the providers and the stored mappings answer for one show. -/
structure Provider where
  hasTmdbKey : Bool
  hasTvdbKey : Bool
  showTvdbId : Option ℕ
  mappings : Mappings
  episodeGroup : String → List EpisodeGroup
  seriesEpisodes : ℕ → String → List TvdbEpisode

end providers

section builders

variable (seriesTmdbId : ℕ) (orderKey : String)

/-- The entries of a group in its order, each at the numbers it is displayed under. -/
def groupPositions (groups : List EpisodeGroup) : List ShowEpisodePosition :=
  ((groups.insertionSort fun g g' ↦ g.order ≤ g'.order).zipIdx 1).flatMap fun group ↦
    ((group.1.episodes.insertionSort fun ep ep' ↦ ep.order ≤ ep'.order).zipIdx 1).filterMap fun ep ↦
      ep.1.episode.map (place seriesTmdbId orderKey group.2 ep.2)

def orderPositionsFromTmdbGroup (groups : List EpisodeGroup) : List ShowEpisodePosition :=
  keepApart Clash [] (groupPositions seriesTmdbId orderKey groups)

def officialPositions (mappings : Mappings) : List ShowEpisodePosition :=
  mappings.bridge.values.map fun m ↦
    place seriesTmdbId orderKey m.tvdbSeasonNumber m.tvdbEpisodeNumber m.episode

def typePositions (mappings : Mappings) (episodes : List TvdbEpisode) : List ShowEpisodePosition :=
  episodes.filterMap fun ep ↦ ep.position seriesTmdbId orderKey mappings.bridge

def orderPositionsFromTvdbType (mappings : Mappings) (episodes : String → List TvdbEpisode) :
    Except String (List ShowEpisodePosition) :=
  if mappings.bridge.values = [] then
    .error "No TMDB<->TVDB episode mapping could be built for this show"
  else if orderKey = "tvdb:official" then
    .ok (keepApart SameDisplay [] (officialPositions seriesTmdbId orderKey mappings))
  else
    .ok (keepApart Clash []
      (typePositions seriesTmdbId orderKey mappings (episodes (tvdbSeasonType orderKey))))

def orderPositions (provider : Provider) : Except String (List ShowEpisodePosition) :=
  if startsWith orderKey "tmdb:group:" then
    if provider.hasTmdbKey then
      .ok (orderPositionsFromTmdbGroup seriesTmdbId orderKey
        (provider.episodeGroup (afterColon (afterColon orderKey))))
    else .error "TMDB API key required"
  else if startsWith orderKey "tvdb:" then
    if provider.hasTmdbKey && provider.hasTvdbKey then
      match provider.showTvdbId with
      | none => .error "TMDB does not expose a TVDB id for this show"
      | some showTvdbId =>
        orderPositionsFromTvdbType seriesTmdbId orderKey provider.mappings
          (provider.seriesEpisodes showTvdbId)
    else .error "TMDB and TVDB API keys required"
  else .error ("Unsupported episode order: " ++ orderKey)

end builders

/-- The positions of every show and order, under the table's unique constraints. -/
structure PositionTable where
  rows : List ShowEpisodePosition
  displayUnique : (rows.map fun row ↦ (row.seriesTmdbId, row.orderKey, row.display)).Nodup
  canonicalUnique : (rows.map fun row ↦ (row.seriesTmdbId, row.orderKey, row.tmdbEpisodeId)).Nodup

namespace PositionTable

variable (table : PositionTable) (seriesTmdbId : ℕ) (orderKey : String)

def empty : PositionTable := ⟨[], List.nodup_nil, List.nodup_nil⟩

def select : List ShowEpisodePosition :=
  table.rows.filter fun row ↦ row.seriesTmdbId = seriesTmdbId ∧ row.orderKey = orderKey

def deleteOrder : List ShowEpisodePosition :=
  table.rows.filter fun row ↦ ¬(row.seriesTmdbId = seriesTmdbId ∧ row.orderKey = orderKey)

/-- What a flush stores; two rows under one unique constraint raise an error. -/
def flush (rows : List ShowEpisodePosition) : Except String PositionTable :=
  if hdisplay : (rows.map fun row ↦ (row.seriesTmdbId, row.orderKey, row.display)).Nodup then
    if hcanonical :
        (rows.map fun row ↦ (row.seriesTmdbId, row.orderKey, row.tmdbEpisodeId)).Nodup then
      .ok ⟨rows, hdisplay, hcanonical⟩
    else .error "uq_show_episode_position_canonical"
  else .error "uq_show_episode_position_display"

end PositionTable

/-- What a build answers and leaves in the table. -/
structure Build where
  orderKey : String
  positions : ℕ
  cached : Bool
  table : PositionTable

def buildOrderPositions (provider : Provider) (table : PositionTable) (seriesTmdbId : ℕ)
    (orderKey : Option String) (force : Bool) : Except String Build :=
  let key := normalizeOrderKey orderKey
  if isAiredOrder (some key) then .ok ⟨orderAired, 0, false, table⟩
  else
    let existing := table.select seriesTmdbId key
    if existing ≠ [] ∧ force = false then .ok ⟨key, existing.length, true, table⟩
    else
      (orderPositions seriesTmdbId key provider).bind fun rows ↦
        if rows = [] then .error "This ordering has no resolvable episodes for this show"
        else
          (PositionTable.flush (table.deleteOrder seriesTmdbId key ++ rows)).map
            fun table' ↦ ⟨key, rows.length, false, table'⟩

section reads

/-- The positions by canonical and by display numbers, of rows in the order a select answers. -/
def getPositionMaps (orderKey : Option String) (rows : List ShowEpisodePosition) :
    Dict (ℤ × ℤ) ShowEpisodePosition × Dict (ℤ × ℤ) ShowEpisodePosition :=
  if isAiredOrder orderKey then (Dict.empty, Dict.empty)
  else
    (Dict.indexBy ShowEpisodePosition.canonical rows, Dict.indexBy ShowEpisodePosition.display rows)

/-- The numbers an episode is displayed under. -/
def displayOf (orderKey : Option String) (rows : List ShowEpisodePosition) (canonical : ℤ × ℤ) :
    Option (ℤ × ℤ) :=
  if isAiredOrder orderKey then some canonical
  else ((getPositionMaps orderKey rows).1.get canonical).map ShowEpisodePosition.display

def resolveDisplayToCanonical (table : PositionTable) (seriesTmdbId : ℕ) (orderKey : Option String)
    (display : ℤ × ℤ) : Except String (Option (ℤ × ℤ)) :=
  let key := normalizeOrderKey orderKey
  if isAiredOrder (some key) then .ok (some display)
  else
    match (table.select seriesTmdbId key).filter (·.display = display) with
    | [] => .ok none
    | [row] => .ok (some row.canonical)
    | _ => .error "Multiple rows were found when one or none was required"

end reads

end AnyList.Shows
