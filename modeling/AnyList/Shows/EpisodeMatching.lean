import AnyList.Library.Dict
import AnyList.Library.Partial
import AnyList.Library.Runs
import Mathlib.Data.Finset.Insert
import Mathlib.Data.Int.Notation

namespace AnyList.Shows.EpisodeMatching

open AnyList.Library
open AnyList.Library.Partial (bind_eq_ok)
open AnyList.Library.Runs (Throughout)

structure TmdbEpisode where
  seasonNumber : ℤ
  episodeNumber : ℤ
  id : ℤ
  name : Option String
  airDate : Option String
  deriving DecidableEq

def TmdbEpisode.position (episode : TmdbEpisode) : ℤ × ℤ :=
  (episode.seasonNumber, episode.episodeNumber)

structure TvdbEpisode where
  id : Option ℤ
  seasonNumber : Option ℤ
  number : Option ℤ
  name : Option String
  aired : Option String
  deriving DecidableEq

inductive MatchMethod
  | externalId
  | titleDate
  deriving DecidableEq

structure EpisodeOrderMapping where
  seriesTmdbId : ℤ
  tmdbSeasonNumber : ℤ
  tmdbEpisodeNumber : ℤ
  tmdbEpisodeId : ℤ
  tvdbId : ℤ
  tvdbSeasonNumber : ℤ
  tvdbEpisodeNumber : ℤ
  matchMethod : MatchMethod
  deriving DecidableEq

def EpisodeOrderMapping.position (mapping : EpisodeOrderMapping) : ℤ × ℤ :=
  (mapping.tmdbSeasonNumber, mapping.tmdbEpisodeNumber)

/-- No episode could be matched, or a matched one has no id. -/
inductive MatchError
  | noMatch
  | missingId
  deriving DecidableEq

/-- The ASCII letters of a text in its decomposed form, and the day of an ISO date. -/
structure Reading where
  asciiFold : String → List Char
  isoDay : String → Option ℤ

section titles

variable (reading : Reading)

def normaliseTitle (value : Option String) : List Char :=
  ((reading.asciiFold (value.getD "")).map Char.toLower).filter fun c ↦
    decide ('a' ≤ c ∧ c ≤ 'z' ∨ '0' ≤ c ∧ c ≤ '9')

def dateDistance (left right : Option String) : Option ℕ := do
  let left ← left.filter (· ≠ "")
  let right ← right.filter (· ≠ "")
  let left ← reading.isoDay left
  let right ← reading.isoDay right
  return (left - right).natAbs

/-- The titles agree, and the dates are at most a day apart if both are known. -/
def sameTitle (episode : TmdbEpisode) (candidate : TvdbEpisode) : Bool :=
  let title := normaliseTitle reading episode.name
  decide (title ≠ []) && decide (normaliseTitle reading candidate.name = title) &&
    decide ((dateDistance reading episode.airDate candidate.aired).getD 0 ≤ 1)

end titles

section matching

variable (reading : Reading) (externalId : ℤ × ℤ → Option ℤ) (seriesTmdbId : ℤ)
  (tvdbEpisodes : List TvdbEpisode)

def tvdbById : Dict ℤ TvdbEpisode :=
  Dict.empty.setAll (tvdbEpisodes.filterMap fun episode ↦ episode.id.map fun id ↦ (id, episode))

/-- The TVDB id that TMDB has for an episode, as it is looked up by its position. -/
def named (episode : TmdbEpisode) : Option ℤ := (externalId episode.position).filter (· ≠ 0)

def wouldMatch (episode : TmdbEpisode) : Bool :=
  ((named externalId episode).any fun id ↦ ((tvdbById tvdbEpisodes).get id).isSome) ||
    tvdbEpisodes.any (sameTitle reading episode)

def probeSize : ℕ := 10

def sampleIndices (total : ℕ) : List ℕ := (List.range probeSize).map fun i ↦ i * total / probeSize

structure State where
  used : Finset ℤ
  mappings : List EpisodeOrderMapping

def candidates (used : Finset ℤ) (episode : TmdbEpisode) : List TvdbEpisode :=
  tvdbEpisodes.filter fun candidate ↦
    candidate.id.all (fun id ↦ decide (id ∉ used)) && sameTitle reading episode candidate

def externalMatch (used : Finset ℤ) (episode : TmdbEpisode) : Option TvdbEpisode :=
  (named externalId episode).bind fun id ↦
    if id ∈ used then none else (tvdbById tvdbEpisodes).get id

/-- The TVDB episode of an identifier that is not taken, or else the only one of the title. -/
def chosen (used : Finset ℤ) (episode : TmdbEpisode) : Option (TvdbEpisode × MatchMethod) :=
  match externalMatch externalId tvdbEpisodes used episode with
  | some found => some (found, .externalId)
  | none =>
    match candidates reading tvdbEpisodes used episode with
    | [found] => some (found, .titleDate)
    | _ => none

/-- The mapping of an episode, if it has one; an episode without a place is passed over. -/
def mappingOf (used : Finset ℤ) (episode : TmdbEpisode) :
    Except MatchError (Option EpisodeOrderMapping) :=
  match chosen reading externalId tvdbEpisodes used episode with
  | some (⟨id, some season, some number, _, _⟩, method) =>
    match id with
    | some id => .ok (some
        { seriesTmdbId := seriesTmdbId
          tmdbSeasonNumber := episode.seasonNumber
          tmdbEpisodeNumber := episode.episodeNumber
          tmdbEpisodeId := episode.id
          tvdbId := id
          tvdbSeasonNumber := season
          tvdbEpisodeNumber := number
          matchMethod := method })
    | none => .error .missingId
  | _ => .ok none

def State.add (state : State) (mapping : EpisodeOrderMapping) : State where
  used := insert mapping.tvdbId state.used
  mappings := state.mappings ++ [mapping]

def matchEpisode (state : State) (episode : TmdbEpisode) : Except MatchError State := do
  match ← mappingOf reading externalId seriesTmdbId tvdbEpisodes state.used episode with
  | some mapping => return state.add mapping
  | none => return state

def matchTmdbToTvdbEpisodes (tmdbEpisodes : List TmdbEpisode) (used : Finset ℤ) :
    Except MatchError (List EpisodeOrderMapping) :=
  if tmdbEpisodes = [] ∨ tvdbEpisodes = [] then .error .noMatch
  else if probeSize < tmdbEpisodes.length ∧ ¬ ∃ i ∈ sampleIndices tmdbEpisodes.length,
      (tmdbEpisodes[i]?.any (wouldMatch reading externalId tvdbEpisodes)) = true then
    .error .noMatch
  else do
    let state ← tmdbEpisodes.foldlM (matchEpisode reading externalId seriesTmdbId tvdbEpisodes)
      ⟨used, []⟩
    return state.mappings

end matching

end AnyList.Shows.EpisodeMatching
