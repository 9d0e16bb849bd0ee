import AnyList.Delivery.WatchedBitfield
import Mathlib.Data.Finset.Basic
import Mathlib.Data.List.Sort
import Mathlib.Data.Prod.Lex
import Mathlib.Data.String.Basic

namespace AnyList.Delivery.StremioPayloads

open AnyList.Delivery.WatchedBitfield

/-- A video of a series' catalogue entry. A missing id or release date is the empty
text, a season or episode that is no integer is `none`. -/
structure Video where
  id : String
  season : Option Int
  episode : Option Int
  released : String
  deriving DecidableEq

/-- The viewing state of a library item. A field that the provider left out stands at
its default. -/
structure State where
  lastWatched : Option String
  timeWatched : Int
  timeOffset : Int
  overallTimeWatched : Int
  timesWatched : Int
  flaggedWatched : Int
  duration : Int
  videoId : Option String
  watched : Option String
  noNotif : Bool
  others : List (String × String)
  deriving DecidableEq

/-- A library item without its `_id`, which keys it. -/
structure Item where
  name : String
  type : String
  poster : Option String
  posterShape : String
  removed : Bool
  temp : Bool
  ctime : String
  mtime : String
  state : Option State
  others : List (String × String)
  deriving DecidableEq

inductive ContentType
  | movie
  | series
  deriving DecidableEq

def ContentType.value : ContentType → String
  | .movie => "movie"
  | .series => "series"

structure WatchRecord where
  contentId : String
  contentType : ContentType
  title : String
  season : Option Int
  episode : Option Int
  watched : Bool
  watchedAt : Option Int
  deriving DecidableEq

/-- The episode a record is about; a movie's or a whole series' record has none. -/
def WatchRecord.position (record : WatchRecord) : Option (Int × Int) :=
  match record.contentType, record.season, record.episode with
  | .series, some season, some episode => some (season, episode)
  | _, _, _ => none

def videoParts (texts : Texts) (video : Video) : Option (Int × Int) :=
  match video.season, video.episode with
  | some season, some episode => some (season, episode)
  | _, _ => do
    let (front, episode) ← rsplit video.id.toList
    let (_, season) ← rsplit front
    let season ← texts.int (String.ofList season)
    let episode ← texts.int (String.ofList episode)
    pure (season, episode)

def defaultState : State := ⟨none, 0, 0, 0, 0, 0, 0, none, none, false, []⟩

def sortKey (texts : Texts) (video : Video) : (Int ×ₗ Int) ×ₗ String :=
  toLex (toLex ((videoParts texts video).getD (-1, -1)), video.released)

def sortedVideos (texts : Texts) (videos : List Video) : List Video :=
  (videos.filter fun video ↦ decide (video.id ≠ "")).insertionSort fun video video' ↦
    sortKey texts video ≤ sortKey texts video'

def videoIds (texts : Texts) (videos : List Video) : List String :=
  (sortedVideos texts videos).map Video.id

def matchingVideo (texts : Texts) (videos : List Video) (position : Int × Int) : Option Video :=
  (sortedVideos texts videos).find? fun video ↦ decide (videoParts texts video = some position)

def newLibraryItem (record : WatchRecord) (now : String) (inLibrary : Bool) : Item where
  name := if record.title = "" then record.contentId else record.title
  type := record.contentType.value
  poster := none
  posterShape := "poster"
  removed := !inLibrary
  temp := !inLibrary
  ctime := now
  mtime := now
  state := some defaultState
  others := []

def sameItem (left right : Item) : Bool :=
  decide ({ left with mtime := "" } = { right with mtime := "" })

def withTimesWatched (state : State) (isWatched : Bool) (watchedAt : Option String) : State :=
  { state with
    timesWatched := if isWatched then max 1 state.timesWatched else 0
    flaggedWatched := if isWatched then state.flaggedWatched else 0
    lastWatched := if isWatched then watchedAt.or state.lastWatched else state.lastWatched }

def withVideo (texts : Texts) (videos : List Video) (state : State) (position : Int × Int)
    (isWatched : Bool) (watchedAt : Option String) : State :=
  match matchingVideo texts videos position with
  | none => state
  | some video =>
    let watchedIds := decodeWatchedBitfield texts state.watched (videoIds texts videos)
    { state with
      watched := encodeWatchedBitfield texts
        (if isWatched then insert video.id watchedIds else watchedIds.erase video.id)
        (videoIds texts videos)
      lastWatched := if isWatched then watchedAt.or state.lastWatched else state.lastWatched }

def withWatchState (texts : Texts) (item : Item) (record : WatchRecord) (videos : List Video) :
    Item :=
  let state := item.state.getD defaultState
  let watchedAt := record.watchedAt.map texts.iso
  { item with
    state := some (match record.position with
      | none => withTimesWatched state record.watched watchedAt
      | some position => withVideo texts videos state position record.watched watchedAt) }

/-- The watched state a pull reads from a record, or from its absence; none for an
episode that no catalogue video matches. -/
def shownWatched (texts : Texts) (videos : List Video) (item : Option Item)
    (position : Option (Int × Int)) : Option Bool :=
  let state := (item.bind Item.state).getD defaultState
  match position with
  | none => some (decide (0 < state.timesWatched))
  | some position =>
    (matchingVideo texts videos position).map fun video ↦
      decide (video.id ∈ decodeWatchedBitfield texts state.watched (videoIds texts videos))

variable {texts : Texts} {videos : List Video}

theorem sameItem_eq_true {left right : Item} :
    sameItem left right = true → left.state = right.state := by
  intro h
  simp only [sameItem, decide_eq_true_eq] at h
  have hstate := congrArg Item.state h
  exact hstate

theorem shownWatched_congr {item item' : Option Item} (h : item.bind Item.state = item'.bind Item.state)
    (position : Option (Int × Int)) :
    shownWatched texts videos item position = shownWatched texts videos item' position := by
  simp only [shownWatched, h]

/-- Without an episode the catalogue does not matter. -/
theorem shownWatched_videos_congr {videos' : List Video} {item : Option Item}
    {position : Option (Int × Int)} (h : ∀ at' ∈ position, videos = videos') :
    shownWatched texts videos item position = shownWatched texts videos' item position := by
  cases position with
  | none => rfl
  | some at' => rw [h at' rfl]

section matchingVideo

variable {video video' : Video} {position position' : Int × Int}

theorem mem_of_matchingVideo (h : matchingVideo texts videos position = some video) :
    video ∈ sortedVideos texts videos := List.mem_of_find?_eq_some h

theorem id_mem_videoIds (h : matchingVideo texts videos position = some video) :
    video.id ∈ videoIds texts videos := List.mem_map_of_mem (mem_of_matchingVideo h)

/-- Different episodes have different videos, and so different ids where none repeats. -/
theorem id_ne_of_position_ne (hids : (videoIds texts videos).Nodup)
    (h : matchingVideo texts videos position = some video)
    (h' : matchingVideo texts videos position' = some video') (hne : position ≠ position') :
    video.id ≠ video'.id := by
  intro hid
  have heq := List.inj_on_of_nodup_map hids (mem_of_matchingVideo h) (mem_of_matchingVideo h') hid
  subst heq
  have hp : videoParts texts video = some position := by simpa using List.find?_some h
  have hp' : videoParts texts video = some position' := by simpa using List.find?_some h'
  exact hne (Option.some.inj (hp.symm.trans hp'))

end matchingVideo

section withWatchState

variable {item : Item} {record : WatchRecord}

/-- The record's own title or episode shows the state it was written with. -/
theorem shownWatched_withWatchState (hids : (videoIds texts videos).Nodup)
    (hmatch : ∀ position ∈ record.position, (matchingVideo texts videos position).isSome) :
    shownWatched texts videos (some (withWatchState texts item record videos)) record.position =
      some record.watched := by
  cases hp : record.position with
  | none =>
    cases hw : record.watched <;> simp [shownWatched, withWatchState, hp, withTimesWatched, hw]
  | some position =>
    obtain ⟨video, hvideo⟩ := Option.isSome_iff_exists.mp (hmatch position hp)
    have hmem := id_mem_videoIds hvideo
    cases hw : record.watched <;>
      simp [shownWatched, withWatchState, hp, withVideo, hvideo, hw, hmem,
        mem_decode_encodeWatchedBitfield texts hids]

/-- Writing one title or episode leaves what the record shows of the others. -/
theorem shownWatched_withWatchState_of_ne (hids : (videoIds texts videos).Nodup)
    {position : Option (Int × Int)} (hne : position ≠ record.position) :
    shownWatched texts videos (some (withWatchState texts item record videos)) position =
      shownWatched texts videos (some item) position := by
  cases hp : record.position with
  | none =>
    cases position with
    | none => exact absurd hp.symm hne
    | some position => simp [shownWatched, withWatchState, hp, withTimesWatched]
  | some written =>
    cases hvideo : matchingVideo texts videos written with
    | none => simp [shownWatched, withWatchState, hp, withVideo, hvideo]
    | some video =>
      cases position with
      | none => simp [shownWatched, withWatchState, hp, withVideo, hvideo]
      | some position =>
        cases hother : matchingVideo texts videos position with
        | none => simp [shownWatched, hother]
        | some other =>
          have hid : other.id ≠ video.id := by
            refine id_ne_of_position_ne hids hother hvideo fun heq ↦ hne ?_
            rw [heq, hp]
          have hmem := id_mem_videoIds hother
          cases hw : record.watched <;>
            simp [shownWatched, withWatchState, hp, withVideo, hvideo, hother, hw, hid, hmem,
              mem_decode_encodeWatchedBitfield texts hids]

end withWatchState

end AnyList.Delivery.StremioPayloads
