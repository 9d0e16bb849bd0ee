import AnyList.Delivery.Acknowledgement

namespace AnyList.Delivery.StremioPayloads

open AnyList.Library.AnchoredBits
open AnyList.Delivery.WatchedBitfield
open AnyList.Delivery.WatchIntents (plainTexts)

/-- The videos of the current catalogue that a library item shows as watched. -/
def watchedVideos (texts : Texts) (item : Item) (videos : List Video) : Finset String :=
  decodeWatchedBitfield texts (item.state.getD defaultState).watched (videoIds texts videos)

variable (texts : Texts)

theorem mem_decode_moved {watchedIds : Finset String} {videoIds videoIds' : List String}
    (h : videoIds.Nodup) (h' : videoIds'.Nodup) {videoId : String} (hmem : videoId ∈ videoIds') :
    videoId ∈ decodeWatchedBitfield texts (encodeWatchedBitfield texts watchedIds videoIds)
        videoIds' ↔ InPlace watchedIds videoIds videoIds' videoId := by
  cases hfield : encode watchedIds videoIds with
  | none =>
    have hnil : videoIds = [] := encode_eq_none.mp hfield
    rw [encodeWatchedBitfield, hfield, Option.map_none, decodeWatchedBitfield_none]
    refine iff_of_false (by simp) ?_
    rintro ⟨anchor, -, hlast, -⟩
    have hanchor := hlast.mem_order
    rw [hnil] at hanchor
    exact List.not_mem_nil hanchor
  | some field =>
    have hread : readField texts (writeField texts field) = some field :=
      readField_writeField texts (length_nonneg_of_encode hfield)
    simp only [encodeWatchedBitfield, decodeWatchedBitfield, hfield, Option.map_some,
      Option.bind_some, hread]
    exact mem_decode_encode_iff h h' hfield hmem

/-- Marking an episode leaves what the item shows of every other video. -/
theorem mem_watchedVideos_withWatchState {item : Item} {record : WatchRecord}
    {videos : List Video} {position : Int × Int} {videoId : String}
    (hids : (videoIds texts videos).Nodup) (hposition : record.position = some position)
    (hmem : videoId ∈ videoIds texts videos)
    (hother : ∀ video ∈ matchingVideo texts videos position, videoId ≠ video.id) :
    videoId ∈ watchedVideos texts (withWatchState texts item record videos) videos ↔
      videoId ∈ watchedVideos texts item videos := by
  rw [watchedVideos, watchedVideos, withWatchState, hposition]
  dsimp only [Option.getD_some]
  rw [withVideo]
  cases hvideo : matchingVideo texts videos position with
  | none => rfl
  | some video =>
    have hne := hother video hvideo
    dsimp only
    rw [mem_decode_encodeWatchedBitfield texts hids, and_iff_left hmem]
    split_ifs
    · rw [Finset.mem_insert, or_iff_right hne]
    · rw [Finset.mem_erase, and_iff_right hne]

/-- Marking an episode keeps the other watched videos exactly when, seen from the last one that the
item was written with, each stands where the old list has a watched video. -/
theorem plays_kept_iff (item : Item) (record : WatchRecord) (videos : List Video)
    (position : Int × Int) (watchedIds : Finset String) (oldIds : List String)
    (hold : oldIds.Nodup) (hids : (videoIds texts videos).Nodup)
    (hwatched : (item.state.getD defaultState).watched =
      encodeWatchedBitfield texts watchedIds oldIds)
    (hposition : record.position = some position) :
    (∀ videoId ∈ watchedIds, videoId ∈ videoIds texts videos →
        (∀ video ∈ matchingVideo texts videos position, videoId ≠ video.id) →
          videoId ∈ watchedVideos texts (withWatchState texts item record videos) videos) ↔
      ∀ videoId ∈ watchedIds, videoId ∈ videoIds texts videos →
        (∀ video ∈ matchingVideo texts videos position, videoId ≠ video.id) →
          InPlace watchedIds oldIds (videoIds texts videos) videoId := by
  refine forall₄_congr fun videoId hin hmem hother ↦ ?_
  rw [mem_watchedVideos_withWatchState texts hids hposition hmem hother, watchedVideos, hwatched]
  exact mem_decode_moved texts hold hids hmem

/-- An item that was written over the videos `tt1:1:1` and `tt1:1:2`, both watched. -/
def bothWatched : Item where
  name := "Show"
  type := "series"
  poster := none
  posterShape := "poster"
  removed := false
  temp := false
  ctime := ""
  mtime := ""
  state := some { defaultState with
    watched := encodeWatchedBitfield plainTexts {"tt1:1:1", "tt1:1:2"} ["tt1:1:1", "tt1:1:2"] }
  others := []

def thirdWatched : WatchRecord := ⟨"tt1", .series, "Show", some 1, some 3, true, none⟩

def episode (number : Int) (id : String) : Video := ⟨id, some 1, some number, ""⟩

def grownCatalogue : List Video :=
  [episode 1 "tt1:1:1", episode 2 "tt1:1:2", episode 3 "tt1:1:3"]

def cutCatalogue : List Video := [episode 1 "tt1:1:1", episode 3 "tt1:1:3"]

theorem plays_kept_grown :
    videoIds plainTexts grownCatalogue = ["tt1:1:1", "tt1:1:2", "tt1:1:3"] ∧
      ∀ videoId ∈ ({"tt1:1:1", "tt1:1:2"} : Finset String),
        videoId ∈ videoIds plainTexts grownCatalogue →
          (∀ video ∈ matchingVideo plainTexts grownCatalogue (1, 3), videoId ≠ video.id) →
            videoId ∈ watchedVideos plainTexts
              (withWatchState plainTexts bothWatched thirdWatched grownCatalogue)
                grownCatalogue := by
  have hids : videoIds plainTexts grownCatalogue = ["tt1:1:1", "tt1:1:2", "tt1:1:3"] := by
    decide +kernel
  refine ⟨hids, (plays_kept_iff plainTexts bothWatched thirdWatched grownCatalogue (1, 3)
    {"tt1:1:1", "tt1:1:2"} ["tt1:1:1", "tt1:1:2"] (by decide) (hids ▸ by decide) rfl rfl).mpr ?_⟩
  intro videoId hin _ _
  have hlast : IsLast {"tt1:1:1", "tt1:1:2"} ["tt1:1:1", "tt1:1:2"] "tt1:1:2" :=
    ⟨by decide, by decide, by decide⟩
  rw [hids]
  obtain rfl | rfl : videoId = "tt1:1:1" ∨ videoId = "tt1:1:2" := by simpa using hin
  · exact ⟨_, "tt1:1:1", hlast, by decide, by decide, by decide, by decide⟩
  · exact ⟨_, "tt1:1:2", hlast, by decide, by decide, by decide, by decide⟩

/-- The last watched video has left the catalogue, and the play before it is lost with the next
write. -/
theorem play_lost_with_anchor :
    ¬∀ videoId ∈ ({"tt1:1:1", "tt1:1:2"} : Finset String),
      videoId ∈ videoIds plainTexts cutCatalogue →
        (∀ video ∈ matchingVideo plainTexts cutCatalogue (1, 3), videoId ≠ video.id) →
          videoId ∈ watchedVideos plainTexts
            (withWatchState plainTexts bothWatched thirdWatched cutCatalogue) cutCatalogue := by
  decide +kernel

end AnyList.Delivery.StremioPayloads
