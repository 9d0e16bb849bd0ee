import AnyList.Library.Dict
import AnyList.Library.Members
import Mathlib.Algebra.Order.Monoid.Unbundled.WithTop
import Mathlib.Algebra.Order.Ring.Rat
import Mathlib.Data.Char
import Mathlib.Data.List.Lex
import Mathlib.Data.List.Sort
import Mathlib.Data.Nat.Cast.Basic
import Mathlib.Data.Prod.Lex
import Mathlib.Order.WithBot

namespace AnyList.Delivery.LocalResumes

open AnyList.Library AnyList.Library.Members

abbrev Text := List Char

inductive MediaType
  | movie
  | series
  | episode
  deriving DecidableEq

structure Show where
  id : ℕ
  tmdbId : Option ℕ
  /-- What `imdb_id` reads from the row. -/
  imdbId : Option Text
  deriving DecidableEq

structure Media where
  id : ℕ
  mediaType : MediaType
  tmdbId : Option ℕ
  imdbId : Option Text
  showId : Option ℕ
  seasonNumber : Option ℕ
  episodeNumber : Option ℕ
  releaseDate : Option Text
  deriving DecidableEq

/-- The clock counts the microseconds of a UTC datetime. -/
structure PlaybackProgress where
  progressSeconds : ℤ
  progressPercent : ℚ
  updatedAt : Option ℤ

structure TrackedEntry where
  media : Media
  statusChangedAt : Option ℤ

/-- The rows of one user that playback is published from, with the unique indexes of their tables.
Only movies and series are tracked. -/
structure Tables where
  media : List Media
  shows : List Show
  watching : List TrackedEntry
  completed : List ℕ
  progress : ℕ → Option PlaybackProgress
  ids : (media.map Media.id).Nodup
  titles : ∀ m ∈ media, ∀ m' ∈ media, m.mediaType = m'.mediaType → m.tmdbId = m'.tmdbId →
    m.tmdbId ≠ none → m = m'
  showIds : (shows.map Show.id).Nodup
  showTitles : ∀ s ∈ shows, ∀ s' ∈ shows, s.tmdbId = s'.tmdbId → s.tmdbId ≠ none → s = s'
  entries : (watching.map fun entry ↦ entry.media.id).Nodup
  tracked : ∀ entry ∈ watching, entry.media ∈ media ∧ entry.media.mediaType ≠ .episode

abbrev Place := Option ℕ × Option ℕ

def Media.place (m : Media) : Place := (m.seasonNumber, m.episodeNumber)

/-- Rows without a number are listed last. -/
def number : Option ℕ → WithTop ℕ
  | none => ⊤
  | some n => n

def position (m : Media) : WithTop ℕ ×ₗ WithTop ℕ :=
  toLex (number m.seasonNumber, number m.episodeNumber)

def queueOrder (m : Media) : (WithTop ℕ ×ₗ WithTop ℕ) ×ₗ ℕ := toLex (position m, m.id)

def ordered {β : Type*} [LinearOrder β] (key : Media → β) (rows : List Media) : List Media :=
  rows.insertionSort fun a b ↦ key a ≤ key b

def isReleased (today : Text) (m : Media) : Bool :=
  match m.releaseDate with
  | none => true
  | some date => date.isEmpty || decide (date ≤ today)

variable (t : Tables)

def episodesOf (showIds : List ℕ) : List Media :=
  t.media.filter fun m ↦
    decide (m.mediaType = .episode) && m.showId.any fun id ↦ decide (id ∈ showIds)

/-- The first unwatched one of the released episodes, else the first one. -/
def nextEpisode (released : List Media) : Option Media :=
  (released.find? fun m ↦ decide (m.id ∉ t.completed)).or released.head?

section queued

structure ResumeRecord where
  episodeMedia : Media
  position : ℤ
  syntheticResume : Bool
  hasWatchedHistory : Bool

/-- The shows of a TMDB id; of a title without one the shows that have none either. -/
def showIdsOf (tmdbId : Option ℕ) : List ℕ :=
  (t.shows.filter fun show' ↦ decide (show'.tmdbId = tmdbId)).map Show.id

def releasedEpisodes (title : Media) (today : Text) : List Media :=
  (ordered queueOrder (episodesOf t (showIdsOf t title.tmdbId))).filter (isReleased today)

/-- The row that is resumed, and whether an episode of its title was watched. -/
def localTarget (title : Media) (today : Text) : Option (Media × Bool) :=
  match title.mediaType with
  | .series =>
    (nextEpisode t (releasedEpisodes t title today)).map fun target ↦
      (target, (releasedEpisodes t title today).any fun m ↦ decide (m.id ∈ t.completed))
  | _ => some (title, false)

/-- The position in milliseconds, and whether it is a synthetic one. -/
def localPosition (row : Option PlaybackProgress) (cutoff : ℤ) : ℤ × Bool :=
  match row.filter fun p ↦ p.updatedAt.any fun at' ↦ decide (cutoff ≤ at') with
  | some p =>
    if 0 < max 0 p.progressSeconds * 1000 ∧ 0 < p.progressPercent then
      (max 0 p.progressSeconds * 1000, false)
    else (1000, true)
  | none => (1000, true)

variable (entry : TrackedEntry) (observedAt : ℤ) (today : Text) (nuvio : Bool)

/-- `_local_resume_record`. -/
def localResumeRecord : Option ResumeRecord :=
  (localTarget t entry.media today).map fun found ↦
    let resume := localPosition (t.progress found.1.id) (entry.statusChangedAt.getD observedAt)
    ⟨found.1, resume.1, resume.2, found.2⟩

/-- The place and the position of the queued action. A watched series is shown to Nuvio through
Next Up, without a fabricated position. -/
def queuedResume : Option (Place × ℤ) :=
  (localResumeRecord t entry observedAt today).bind fun record ↦
    if nuvio ∧ entry.media.mediaType = .series ∧ record.hasWatchedHistory ∧
        record.syntheticResume then none
    else
      some (if entry.media.mediaType = .series then record.episodeMedia.place else (none, none),
        record.position)

end queued

variable {t} {entry entry' : TrackedEntry} {m m' : Media} {today : Text} {observedAt : ℤ}
  {p : PlaybackProgress}

section listing

variable {β : Type*} [LinearOrder β] {key : Media → β} {l : List Media}

@[simp] theorem mem_ordered : m ∈ ordered key l ↔ m ∈ l := List.mem_insertionSort _

theorem pairwise_ordered (key : Media → β) (l : List Media) :
    (ordered key l).Pairwise fun a b ↦ key a ≤ key b := by
  have : IsTrans Media fun a b ↦ key a ≤ key b := ⟨fun _ _ _ ↦ le_trans⟩
  have : Std.Total fun a b : Media ↦ key a ≤ key b := ⟨fun _ _ ↦ le_total _ _⟩
  exact List.pairwise_insertionSort _ l

theorem mem_episodesOf {showIds : List ℕ} : m ∈ episodesOf t showIds ↔
    m ∈ t.media ∧ m.mediaType = .episode ∧ ∃ id ∈ showIds, m.showId = some id := by
  simp [episodesOf, Option.any_eq_true, and_comm]

theorem Tables.eq_of_id (hm : m ∈ t.media) (hm' : m' ∈ t.media) (h : m.id = m'.id) : m = m' :=
  List.inj_on_of_nodup_map t.ids hm hm' h

theorem Tables.entry_eq (he : entry ∈ t.watching) (he' : entry' ∈ t.watching)
    (h : entry.media.id = entry'.media.id) : entry = entry' :=
  List.inj_on_of_nodup_map t.entries he he' h

/-- An unwatched episode, or any one where all of the listed ones are watched. -/
def StillToWatch (t : Tables) (l : List Media) (m : Media) : Prop :=
  m.id ∉ t.completed ∨ ∀ m' ∈ l, m'.id ∈ t.completed

theorem nextEpisode_eq_none : nextEpisode t l = none ↔ l = [] := by
  cases l with
  | nil => simp [nextEpisode]
  | cons a l => simp [nextEpisode]

/-- The next episode of a sorted list comes before the others still to watch. -/
theorem of_nextEpisode (hl : l.Pairwise fun a b ↦ key a ≤ key b)
    (h : nextEpisode t l = some m) :
    m ∈ l ∧ StillToWatch t l m ∧ ∀ m' ∈ l, StillToWatch t l m' → key m ≤ key m' := by
  obtain h | ⟨hnone, h⟩ := Option.or_eq_some_iff.mp h
  · obtain ⟨hm, before, after, rfl, hbefore⟩ := List.find?_eq_some_iff_append.mp h
    have hunwatched := of_decide_eq_true hm
    refine ⟨by simp, .inl hunwatched, fun m' hm' hstill ↦ ?_⟩
    obtain hm' | hm' := List.mem_append.mp hm'
    · have hwatched := hbefore m' hm'
      rw [Bool.not_eq_true', decide_eq_false_iff_not, not_not] at hwatched
      obtain hstill | hall := hstill
      · exact absurd hwatched hstill
      · exact absurd (hall m (by simp)) hunwatched
    · obtain rfl | hm' := List.mem_cons.mp hm'
      · exact le_rfl
      · exact (List.pairwise_cons.mp (List.pairwise_append.mp hl).2.1).1 m' hm'
  · have hall : ∀ m' ∈ l, m'.id ∈ t.completed := by
      simpa using List.find?_eq_none.mp hnone
    obtain ⟨rest, rfl⟩ := List.head?_eq_some_iff.mp h
    refine ⟨by simp, .inr hall, fun m' hm' _ ↦ ?_⟩
    obtain rfl | hm' := List.mem_cons.mp hm'
    · exact le_rfl
    · exact (List.pairwise_cons.mp hl).1 m' hm'

end listing

section queued

/-- The first of the released episodes that are still to watch. -/
def IsNext (t : Tables) (title : Media) (today : Text) (m : Media) : Prop :=
  m ∈ releasedEpisodes t title today ∧ StillToWatch t (releasedEpisodes t title today) m ∧
    ∀ m' ∈ releasedEpisodes t title today,
      StillToWatch t (releasedEpisodes t title today) m' → queueOrder m ≤ queueOrder m'

/-- A released episode of the title was watched. -/
def Begun (t : Tables) (title : Media) (today : Text) : Prop :=
  ∃ m ∈ releasedEpisodes t title today, m.id ∈ t.completed

instance (title : Media) : Decidable (Begun t title today) :=
  inferInstanceAs (Decidable (∃ m ∈ releasedEpisodes t title today, m.id ∈ t.completed))

/-- The row of `m` has a position, not older than the last change of status or, of a status without
one, than the observation. -/
def Taken (t : Tables) (entry : TrackedEntry) (observedAt : ℤ) (m : Media)
    (p : PlaybackProgress) : Prop :=
  t.progress m.id = some p ∧ (∃ at' ∈ p.updatedAt, entry.statusChangedAt.getD observedAt ≤ at') ∧
    0 < p.progressSeconds ∧ 0 < p.progressPercent

variable {title : Media}

theorem mem_media_of_released (h : m ∈ releasedEpisodes t title today) : m ∈ t.media :=
  (mem_episodesOf.mp (mem_ordered.mp (List.mem_of_mem_filter h))).1

theorem pairwise_releasedEpisodes : (releasedEpisodes t title today).Pairwise
    fun a b ↦ queueOrder a ≤ queueOrder b := (pairwise_ordered _ _).filter _

theorem IsNext.eq (h : IsNext t title today m) (h' : IsNext t title today m') : m = m' := by
  have heq := le_antisymm (h.2.2 m' h'.1 h'.2.1) (h'.2.2 m h.1 h.2.1)
  exact t.eq_of_id (mem_media_of_released h.1) (mem_media_of_released h'.1)
    (Prod.ext_iff.mp (toLex_inj.mp heq)).2

theorem exists_isNext (h : releasedEpisodes t title today ≠ []) : ∃ m, IsNext t title today m ∧
    nextEpisode t (releasedEpisodes t title today) = some m := by
  obtain ⟨m, hm⟩ := Option.ne_none_iff_exists'.mp (nextEpisode_eq_none.not.mpr h)
  exact ⟨m, of_nextEpisode pairwise_releasedEpisodes hm, hm⟩

theorem IsNext.nextEpisode (h : IsNext t title today m) :
    nextEpisode t (releasedEpisodes t title today) = some m := by
  obtain ⟨m', hm', hnext⟩ := exists_isNext (List.ne_nil_of_mem h.1)
  rw [h.eq hm', hnext]

theorem localPosition_of_taken (h : Taken t entry observedAt m p) :
    localPosition (t.progress m.id) (entry.statusChangedAt.getD observedAt) =
      (p.progressSeconds * 1000, false) := by
  obtain ⟨hrow, ⟨at', hat, hle⟩, hseconds, hpercent⟩ := h
  have hmax : max 0 p.progressSeconds = p.progressSeconds := max_eq_right hseconds.le
  have hpos : 0 < p.progressSeconds * 1000 := by omega
  rw [localPosition, hrow, Option.filter_some, if_pos]
  · simp only [hmax]
    rw [if_pos ⟨hpos, hpercent⟩]
  · rw [Option.any_eq_true]
    exact ⟨at', hat, decide_eq_true hle⟩

theorem localPosition_of_not_taken (h : ∀ p, ¬Taken t entry observedAt m p) :
    localPosition (t.progress m.id) (entry.statusChangedAt.getD observedAt) = (1000, true) := by
  unfold localPosition
  split
  · next p hp =>
    obtain ⟨hrow, hfresh⟩ := Option.filter_eq_some_iff.mp hp
    rw [Option.any_eq_true] at hfresh
    obtain ⟨at', hat, hle⟩ := hfresh
    refine if_neg fun ⟨hpos, hpercent⟩ ↦ h p ⟨hrow, ⟨at', hat, of_decide_eq_true hle⟩, ?_, hpercent⟩
    omega
  · rfl

theorem localResumeRecord_film (hfilm : entry.media.mediaType ≠ .series) :
    localResumeRecord t entry observedAt today =
      some ⟨entry.media, (localPosition (t.progress entry.media.id)
          (entry.statusChangedAt.getD observedAt)).1,
        (localPosition (t.progress entry.media.id)
          (entry.statusChangedAt.getD observedAt)).2, false⟩ := by
  unfold localResumeRecord localTarget
  split
  · next hseries => exact absurd hseries hfilm
  · rfl

theorem localResumeRecord_of_nil (hseries : entry.media.mediaType = .series)
    (h : releasedEpisodes t entry.media today = []) :
    localResumeRecord t entry observedAt today = none := by
  simp only [localResumeRecord, localTarget, hseries, h]
  rfl

theorem localResumeRecord_of_isNext (hseries : entry.media.mediaType = .series)
    (h : IsNext t entry.media today m) :
    localResumeRecord t entry observedAt today =
      some ⟨m, (localPosition (t.progress m.id) (entry.statusChangedAt.getD observedAt)).1,
        (localPosition (t.progress m.id) (entry.statusChangedAt.getD observedAt)).2,
        decide (Begun t entry.media today)⟩ := by
  have hbegun : ((releasedEpisodes t entry.media today).any fun m ↦ decide (m.id ∈ t.completed)) =
      decide (Begun t entry.media today) := by
    rw [Bool.eq_iff_iff, List.any_eq_true, decide_eq_true_iff]
    simp [Begun]
  simp only [localResumeRecord, localTarget, hseries, h.nextEpisode, Option.map_some, hbegun]

end queued

end AnyList.Delivery.LocalResumes
