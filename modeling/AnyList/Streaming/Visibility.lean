import AnyList.Streaming.Account
import AnyList.Library.Members
import Mathlib.Logic.Function.Basic

namespace AnyList.Streaming

open AnyList.Library AnyList.Library.Members
open AnyList.Reconciliation.Watches (Status)

def surfaces : List Surface := [.tv, .mobile]

/-- The part of a key before its episode. -/
def titlePart (key : String) : String := String.ofList (key.toList.takeWhile (· ≠ '|'))

/-- The identifier an owner's TMDB key spells out. -/
def spelledTmdbId (reading : Reading) (key : String) : Option Int :=
  match key.toList with
  | 't' :: 'm' :: 'd' :: 'b' :: ':' :: rest => reading.int (String.ofList rest)
  | _ => none

/-- What a pull resolves an identifier to, or what was stored where the pull does not name it. -/
def earlyMapping (previous : Stored) (snap : Snapshot) (key : String) : Option Int :=
  match snap.tmdbIds.get key with
  | some tmdbId => tmdbId
  | none => previous.mappings.get key

/-- The key of a title: a mobile key goes on with its season and episode. -/
def baseKey (surface : Surface) (key : String) : String :=
  match surface with
  | .tv => key
  | .mobile => titlePart key

def seriesOrFilm (cat : Catalogue) (tmdbId : Int) : Option Media :=
  (cat.find tmdbId .series).or (cat.find tmdbId .movie)

section echo

variable (reading : Reading)

def contentKey (key : String) : String := titlePart (reading.strip key)

def recordChange (markers : Dict String Bool) (change : String × Bool) : Dict String Bool :=
  let key := reading.strip change.1
  if key = "" then markers
  else if change.2 then markers.set key true
  else markers.filterKeys fun marker ↦ decide (contentKey reading marker ≠ contentKey reading key)

def recordPlatform (echo : Surface → Option (Dict String Bool))
    (written : Surface × List (String × Bool)) : Surface → Option (Dict String Bool) :=
  let markers := written.2.foldl (recordChange reading) ((echo written.1).getD .empty)
  Function.update echo written.1 (if markers.entries = [] then none else some markers)

/-- Remembers the hides of a confirmed write, and forgets those it shows again. -/
def recordVisibilityEcho (stored : Stored) (written : List (Surface × List (String × Bool))) :
    Stored :=
  { stored with visibilityEcho := written.foldl (recordPlatform reading) stored.visibilityEcho }

end echo

section observation

variable (reading : Reading) (conn : Connection) (previous : Stored) (snap : Snapshot)

/-- The dismissals a surface reports; an unavailable one reports nothing. -/
def observedVisibility (surface : Surface) : Option (List String) :=
  if conn.type = .nuvio then
    (snap.cwVisibility surface).map fun keys ↦ distinct ((keys.map reading.strip).filter (· ≠ ""))
  else none

def nuvioVisibility (surface : Surface) : Option (List String) :=
  (observedVisibility reading conn snap surface).or (previous.nuvioVisibility surface)

/-- A marker that agrees with what the surface reports. -/
def isAcknowledged (surface : Surface) (current : List String) (key : String) : Bool :=
  (previous.visibilityEcho surface).any fun markers ↦
    decide (markers.get key = some (decide (key ∈ current)))

def visibilityEcho (surface : Surface) : Option (Dict String Bool) :=
  match observedVisibility reading conn snap surface with
  | some current => some (((previous.visibilityEcho surface).getD .empty).filterKeys fun key ↦
      !isAcknowledged previous surface current key)
  | none => previous.visibilityEcho surface

/-- The keys of one surface that its owner has newly hidden. The first read of a surface
establishes its own baseline. -/
def surfaceDismissals (surface : Surface) : List String :=
  match observedVisibility reading conn snap surface, previous.nuvioVisibility surface with
  | some current, some hidden => current.filter fun key ↦
      decide (key ∉ hidden) && !isAcknowledged previous surface current key
  | _, _ => []

def ownerDismissals : List (Surface × String) :=
  surfaces.flatMap fun surface ↦
    (surfaceDismissals reading conn previous snap surface).map fun key ↦ (surface, key)

def dismissalTarget (surface : Surface) (key : String) : Option Int :=
  let base := baseKey surface key
  (earlyMapping previous snap base).or (spelledTmdbId reading base)

def visibilityTmdbIds : List Int :=
  distinct ((ownerDismissals reading conn previous snap).filterMap fun (surface, key) ↦
    dismissalTarget reading previous snap surface key)

end observation

section playback

variable (cat : Catalogue) (conn : Connection) (previous : Stored) (snap : Snapshot)

/-- The viewing a cycle's status decision takes as completed. -/
def completedViewing : List Row :=
  snap.watched ++ if snap.syncPlayback then completedRows snap.progress else []

def dismissalCandidate (surface : Surface) (key : String) : Option (ℕ × Status) :=
  let base := baseKey surface key
  (earlyMapping previous snap base).bind fun tmdbId ↦
    (seriesOrFilm cat tmdbId).bind fun media ↦
      let isMovie := (cat.find tmdbId .movie).isSome
      if isMovie && (completedViewing snap).any fun row ↦ decide (row.contentId = base) then none
      else some (media.id, if isMovie then .dropped else .paused)

def surfaceCandidates (surface : Surface) : List (String × ℕ × Status) :=
  match snap.cwVisibility surface, previous.nuvioVisibility surface with
  | some keys, some hidden => (keys.filter fun key ↦ decide (key ∉ hidden)).filterMap fun key ↦
      (dismissalCandidate cat previous snap surface key).map fun value ↦ (key, value)
  | _, _ => []

/-- The dismissals among the observations of a cycle's status decision, under their keys. -/
def playbackDismissals : List ((Surface × String) × ℕ × Status) :=
  if conn.type = .nuvio then
    surfaces.flatMap fun surface ↦ (surfaceCandidates cat previous snap surface).map
      fun (key, value) ↦ ((surface, key), value)
  else []

end playback

end AnyList.Streaming
