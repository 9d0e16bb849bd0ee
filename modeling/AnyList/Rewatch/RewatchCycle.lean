import AnyList.Library.Dict
import AnyList.Library.Runs
import Mathlib.Data.Finset.Card
import Mathlib.Algebra.Order.Ring.Nat
import Mathlib.Data.List.Flatten

namespace AnyList.Rewatch

open AnyList.Library AnyList.Library.Runs

/-- A season as the catalogue lists it, with its premiere as a day. -/
structure Season where
  seasonNumber : Int
  episodeCount : ℕ
  airDate : Option Int

/-- The last episode that aired, or the next one to air. -/
structure EpisodeMark where
  seasonNumber : Option Int
  episodeNumber : Option Int
  airDate : Option Int

inductive ShowStatus
  | returningSeries
  | inProduction
  | planned
  | pilot
  | ended
  | canceled
  | other

structure Show where
  id : ℕ
  status : Option ShowStatus
  seasons : List Season
  lastEpisodeToAir : Option EpisodeMark
  nextEpisodeToAir : Option EpisodeMark

section counts

variable (tvShow : Show) (today : Int)

def lastCap : Option (Int × Int) := do
  let last ← tvShow.lastEpisodeToAir
  let season ← last.seasonNumber
  let number ← last.episodeNumber
  return (season, if last.airDate.all fun air ↦ decide (air ≤ today) then number else number - 1)

def nextCap : Option (Int × Int) := do
  let next ← tvShow.nextEpisodeToAir
  let season ← next.seasonNumber
  let number ← next.episodeNumber
  return (season, number - 1)

/-- The last position known to have aired. -/
def airedCap : Option (Int × Int) :=
  match lastCap tvShow today, nextCap tvShow with
  | cap, none => cap
  | none, some before => some before
  | some cap, some before =>
    if cap.1 < before.1 ∨ cap.1 = before.1 ∧ cap.2 ≤ before.2 then some cap else some before

def stillActive : Bool :=
  match tvShow.status with
  | some .returningSeries | some .inProduction | some .planned | some .pilot => true
  | _ => false

def listedCounts : Dict Int ℕ :=
  Dict.empty.setAll (tvShow.seasons.map fun s ↦ (s.seasonNumber, s.episodeCount))

def cappedCounts : Dict Int ℕ :=
  match airedCap tvShow today with
  | none => listedCounts tvShow
  | some cap =>
    (listedCounts tvShow).mapKeyed fun season count ↦
      if season = cap.1 then (min (count : Int) cap.2).toNat
      else if cap.1 < season then 0
      else count

/-- A season that is not known to have begun counts as none. -/
def isUnaired (s : Season) : Bool :=
  if (airedCap tvShow today).isNone && stillActive tvShow then
    !(s.airDate.any fun air ↦ decide (air ≤ today))
  else s.airDate.any fun air ↦ decide (today < air)

def cappedSeasonEpisodeCounts : Dict Int ℕ :=
  (cappedCounts tvShow today).setAll
    ((tvShow.seasons.filter (isUnaired tvShow today)).map fun s ↦ (s.seasonNumber, 0))

/-- Specials are left out of the total. -/
def regularCounts : List (Int × ℕ) :=
  (cappedSeasonEpisodeCounts tvShow today).entries.filter fun entry ↦ decide (entry.1 ≠ 0)

def totalAiredEpisodes : ℕ := ((regularCounts tvShow today).map Prod.snd).sum

/-- The episodes that the total counts. -/
def airedEpisodes : List (Int × Int) :=
  (regularCounts tvShow today).flatMap fun entry ↦
    (List.range entry.2).map fun i : ℕ ↦ (entry.1, (i : Int) + 1)

theorem length_airedEpisodes :
    (airedEpisodes tvShow today).length = totalAiredEpisodes tvShow today := by
  rw [airedEpisodes, List.length_flatMap, totalAiredEpisodes]
  simp

theorem nodup_airedEpisodes : (airedEpisodes tvShow today).Nodup := by
  refine List.nodup_flatMap.mpr ⟨fun entry _ ↦ ?_, ?_⟩
  · refine List.Nodup.map (fun i j hij ↦ ?_) List.nodup_range
    have hnumber := (Prod.mk.inj hij).2
    omega
  · have hkeys : (regularCounts tvShow today).Pairwise fun entry entry' ↦ entry.1 ≠ entry'.1 :=
      (List.pairwise_map.mp (cappedSeasonEpisodeCounts tvShow today).nodup).filter _
    refine hkeys.imp fun {entry entry'} hne ↦ ?_
    intro position hmem hmem'
    obtain ⟨i, -, rfl⟩ := List.mem_map.mp hmem
    obtain ⟨j, -, hposition⟩ := List.mem_map.mp hmem'
    exact hne (Prod.mk.inj hposition).1.symm

end counts

structure Media where
  isEpisode : Bool
  showId : Option ℕ
  seasonNumber : Option Int
  episodeNumber : Option Int
  deriving DecidableEq

def Media.position (media : Media) : Option (Int × Int) :=
  media.seasonNumber.bind fun season ↦ media.episodeNumber.map fun number ↦ (season, number)

/-- The media rows, of which no two are the same episode of a show. -/
structure Catalogue where
  media : ℕ → Option Media
  unique : ∀ id id' m, media id = some m → media id' = some m → m.isEpisode = true →
    m.position ≠ none → id = id'

/-- The rewatch of a show by one user: the episodes of its cycle, or `none` once it is over. -/
abbrev Cycle := Option (Finset ℕ)

structure Play where
  mediaId : ℕ
  today : Int

section record

variable (tvShow : Show) (catalogue : Catalogue)

def isEpisodeOf (mediaId : ℕ) : Bool :=
  (catalogue.media mediaId).any fun m ↦ m.isEpisode && decide (m.showId = some tvShow.id)

def maybeCompleteRewatch (today : Int) (progress : Finset ℕ) : Cycle :=
  if totalAiredEpisodes tvShow today ≤ 0 then some progress
  else if totalAiredEpisodes tvShow today ≤ progress.card then none
  else some progress

def recordRewatchProgress (rewatch : Cycle) (play : Play) : Cycle :=
  if isEpisodeOf tvShow catalogue play.mediaId then
    rewatch.bind fun progress ↦
      maybeCompleteRewatch tvShow play.today (insert play.mediaId progress)
  else rewatch

/-- The rows of a cycle that are episodes which the total counts. -/
def countedRows (today : Int) (progress : Finset ℕ) : Finset ℕ :=
  progress.filter fun id ↦ isEpisodeOf tvShow catalogue id = true ∧
    ∃ position ∈ airedEpisodes tvShow today, (catalogue.media id).bind Media.position = some position

/-- A play that ends the cycle finds every episode which the total counts in it. -/
def EndsComplete (rewatch : Cycle) (play : Play) : Prop :=
  ∀ progress, rewatch = some progress → recordRewatchProgress tvShow catalogue rewatch play = none →
    ∀ position ∈ airedEpisodes tvShow play.today, ∃ id ∈ insert play.mediaId progress,
      isEpisodeOf tvShow catalogue id = true ∧
        (catalogue.media id).bind Media.position = some position

/-- Rows of the counted episodes alone reach the total whenever all rows together do. -/
def CountsSuffice (rewatch : Cycle) (play : Play) : Prop :=
  ∀ progress, rewatch = some progress → isEpisodeOf tvShow catalogue play.mediaId = true →
    0 < totalAiredEpisodes tvShow play.today →
    totalAiredEpisodes tvShow play.today ≤ (insert play.mediaId progress).card →
    totalAiredEpisodes tvShow play.today ≤
      (countedRows tvShow catalogue play.today (insert play.mediaId progress)).card

variable {tvShow catalogue} {today : Int} {progress : Finset ℕ} {play : Play}

theorem record_eq_none_iff :
    recordRewatchProgress tvShow catalogue (some progress) play = none ↔
      isEpisodeOf tvShow catalogue play.mediaId = true ∧ 0 < totalAiredEpisodes tvShow play.today ∧
        totalAiredEpisodes tvShow play.today ≤ (insert play.mediaId progress).card := by
  unfold recordRewatchProgress maybeCompleteRewatch
  rw [Option.bind_some]
  split_ifs with hepisode hzero htotal
  · simp only [false_iff]
    omega
  · simp only [true_iff]
    exact ⟨hepisode, by omega, htotal⟩
  · simp only [false_iff]
    omega
  · simp [hepisode]

theorem position_inj {id id' : ℕ} {position : Int × Int} (hid : isEpisodeOf tvShow catalogue id = true)
    (hid' : isEpisodeOf tvShow catalogue id' = true)
    (hposition : (catalogue.media id).bind Media.position = some position)
    (hposition' : (catalogue.media id').bind Media.position = some position) : id = id' := by
  obtain ⟨m, hm, hepisode⟩ := (Option.any_eq_true _ _).mp hid
  obtain ⟨m', hm', hepisode'⟩ := (Option.any_eq_true _ _).mp hid'
  rw [Bool.and_eq_true, decide_eq_true_eq] at hepisode hepisode'
  rw [hm, Option.bind_some] at hposition
  rw [hm', Option.bind_some] at hposition'
  have hsame : m = m' := by
    obtain ⟨isEpisode, showId, season, number⟩ := m
    obtain ⟨isEpisode', showId', season', number'⟩ := m'
    obtain ⟨s, rfl, hs⟩ := Option.bind_eq_some_iff.mp hposition
    obtain ⟨n, rfl, rfl⟩ := Option.map_eq_some_iff.mp hs
    obtain ⟨s', rfl, hs'⟩ := Option.bind_eq_some_iff.mp hposition'
    obtain ⟨n', rfl, hn'⟩ := Option.map_eq_some_iff.mp hs'
    simp_all
  subst hsame
  exact catalogue.unique id id' m hm hm' hepisode.1 (by simp [hposition])

/-- Counted rows stand for different episodes, so that they number the total only if they are all. -/
theorem card_countedRows_iff :
    totalAiredEpisodes tvShow today ≤ (countedRows tvShow catalogue today progress).card ↔
      ∀ position ∈ airedEpisodes tvShow today, ∃ id ∈ progress,
        isEpisodeOf tvShow catalogue id = true ∧
          (catalogue.media id).bind Media.position = some position := by
  have hinj : Set.InjOn (fun id ↦ (catalogue.media id).bind Media.position)
      (countedRows tvShow catalogue today progress) := by
    intro id hid id' hid' hsame
    obtain ⟨-, hepisode, position, -, hposition⟩ := Finset.mem_filter.mp hid
    obtain ⟨-, hepisode', -⟩ := Finset.mem_filter.mp hid'
    exact position_inj hepisode hepisode' hposition (hsame.symm.trans hposition)
  have hsubset : (countedRows tvShow catalogue today progress).image
      (fun id ↦ (catalogue.media id).bind Media.position) ⊆
        ((airedEpisodes tvShow today).map some).toFinset := by
    intro position hmem
    obtain ⟨id, hid, rfl⟩ := Finset.mem_image.mp hmem
    obtain ⟨-, -, position, haired, hposition⟩ := Finset.mem_filter.mp hid
    rw [hposition, List.mem_toFinset]
    exact List.mem_map_of_mem haired
  have htotal : ((airedEpisodes tvShow today).map some).toFinset.card =
      totalAiredEpisodes tvShow today := by
    rw [List.toFinset_card_of_nodup ((nodup_airedEpisodes tvShow today).map
      (Option.some_injective _)), List.length_map, length_airedEpisodes]
  rw [← Finset.card_image_of_injOn hinj, ← htotal]
  constructor
  · intro hcard position haired
    have hall := Finset.eq_of_subset_of_card_le hsubset hcard
    have hmem : some position ∈ ((airedEpisodes tvShow today).map some).toFinset :=
      List.mem_toFinset.mpr (List.mem_map_of_mem haired)
    rw [← hall] at hmem
    obtain ⟨id, hid, hposition⟩ := Finset.mem_image.mp hmem
    obtain ⟨hprogress, hepisode, -⟩ := Finset.mem_filter.mp hid
    exact ⟨id, hprogress, hepisode, hposition⟩
  · intro hall
    refine Finset.card_le_card fun position hmem ↦ ?_
    obtain ⟨aired, haired, rfl⟩ := List.mem_map.mp (List.mem_toFinset.mp hmem)
    obtain ⟨id, hid, hepisode, hposition⟩ := hall aired haired
    exact Finset.mem_image.mpr ⟨id, Finset.mem_filter.mpr ⟨hid, hepisode, aired, haired, hposition⟩,
      hposition⟩

theorem endsComplete_iff (rewatch : Cycle) (play : Play) :
    EndsComplete tvShow catalogue rewatch play ↔ CountsSuffice tvShow catalogue rewatch play := by
  constructor
  · rintro h progress rfl hepisode hpositive hreached
    exact card_countedRows_iff.mpr
      (h progress rfl (record_eq_none_iff.mpr ⟨hepisode, hpositive, hreached⟩))
  · rintro h progress rfl hnone
    obtain ⟨hepisode, hpositive, hreached⟩ := record_eq_none_iff.mp hnone
    exact card_countedRows_iff.mp (h progress rfl hepisode hpositive hreached)

/-- Rows that are all counted episodes never end a cycle too early. -/
theorem countsSuffice_of_counted {rewatch : Cycle}
    (h : ∀ progress, rewatch = some progress →
      countedRows tvShow catalogue play.today (insert play.mediaId progress) =
        insert play.mediaId progress) : CountsSuffice tvShow catalogue rewatch play := by
  intro progress hrewatch _ _ hreached
  rwa [h progress hrewatch]

end record

/-- Every cycle that the plays of a show end is complete if and only if the rows of the episodes which
the total counts reach it without the others, whenever a play ends a cycle. -/
theorem rewatch_ends_complete_iff (tvShow : Show) (catalogue : Catalogue) (progress : Finset ℕ)
    (plays : List Play) :
    Throughout (recordRewatchProgress tvShow catalogue) (EndsComplete tvShow catalogue)
        (some progress) plays ↔
      Throughout (recordRewatchProgress tvShow catalogue) (CountsSuffice tvShow catalogue)
        (some progress) plays :=
  Throughout.congr endsComplete_iff

/-- A season of two episodes, both of which have aired. -/
def twoEpisodes : Show := ⟨1, some .ended, [⟨0, 1, none⟩, ⟨1, 2, none⟩], none, none⟩

def twoEpisodeRows : Catalogue where
  media id :=
    if id = 1 then some ⟨true, some 1, some 0, some 1⟩
    else if id = 2 then some ⟨true, some 1, some 1, some 1⟩
    else if id = 3 then some ⟨true, some 1, some 1, some 2⟩
    else none
  unique id id' m h h' _ _ := by
    split_ifs at h h' <;>
      first
      | omega
      | exact absurd (h.trans h'.symm) (by simp)

/-- A special and the first episode end the cycle before the second. -/
theorem special_ends_cycle :
    ¬Throughout (recordRewatchProgress twoEpisodes twoEpisodeRows)
      (EndsComplete twoEpisodes twoEpisodeRows) (some ∅) [⟨1, 0⟩, ⟨2, 0⟩] := by
  rintro ⟨-, hends, -⟩
  have hfirst : recordRewatchProgress twoEpisodes twoEpisodeRows (some ∅) ⟨1, 0⟩ = some {1} := by
    decide
  rw [hfirst] at hends
  have hmissing := hends {1} rfl (by decide) (1, 2) (by decide)
  revert hmissing
  decide

end AnyList.Rewatch
