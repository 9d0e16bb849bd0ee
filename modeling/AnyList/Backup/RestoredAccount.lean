import AnyList.Backup.ListFiles

namespace AnyList.Backup

open AnyList.Library AnyList.Library.KeyedInserts

namespace Identity

def isSeries : Identity → Bool
  | series _ => true
  | _ => false

def isEpisode : Identity → Bool
  | episode _ _ _ => true
  | _ => false

end Identity

section titles

variable {media : Media} {i : Identity}

theorem title_media (h : media.title = some i) : i.media.title = some i := by
  obtain ⟨mediaType, tmdbId, showTmdbId, seasonNumber, episodeNumber⟩ := media
  unfold Media.title at h
  split at h
  all_goals
    first
    | (obtain ⟨id, hid, rfl⟩ := Option.map_eq_some_iff.mp h
       obtain ⟨-, hne⟩ := Option.filter_eq_some_iff.mp hid
       simp_all [Identity.media, Media.title, present])
    | exact absurd h (by simp)

theorem filter_map_true {f : Int → Identity} {p : Identity → Bool} (h : ∀ id, p (f id) = true)
    (x : Option Int) : (x.map f).filter p = x.map f := by
  cases x <;> simp [h]

theorem filter_map_false {f : Int → Identity} {p : Identity → Bool} (h : ∀ id, p (f id) = false)
    (x : Option Int) : (x.map f).filter p = none := by
  cases x <;> simp [h]

/-- The history and the collection name every title but a series. -/
theorem target_identity (media : Media) :
    media.target.bind Target.identity = media.title.filter fun i ↦ !i.isSeries := by
  obtain ⟨mediaType, tmdbId, showTmdbId, seasonNumber, episodeNumber⟩ := media
  cases mediaType with
  | movie =>
    rw [Media.title, filter_map_true fun id ↦ rfl]
    rfl
  | series =>
    rw [Media.title, filter_map_false fun id ↦ rfl]
    rfl
  | episode =>
    cases seasonNumber with
    | none => rfl
    | some season =>
      cases episodeNumber with
      | none => rfl
      | some number =>
        rw [Media.title, filter_map_true fun id ↦ rfl]
        rfl
  | person => rfl

/-- A list names every title but an episode. -/
theorem listTarget_identity (media : Media) :
    (listTarget media).bind ListTarget.identity = media.title.filter fun i ↦ !i.isEpisode := by
  obtain ⟨mediaType, tmdbId, showTmdbId, seasonNumber, episodeNumber⟩ := media
  cases mediaType with
  | movie =>
    rw [Media.title, filter_map_true fun id ↦ rfl]
    rfl
  | series =>
    rw [Media.title, filter_map_true fun id ↦ rfl]
    rfl
  | episode =>
    cases seasonNumber with
    | none => rfl
    | some season =>
      cases episodeNumber with
      | none => rfl
      | some number =>
        rw [Media.title, filter_map_false fun id ↦ rfl]
        rfl
  | person => rfl

theorem isSeries_of_title (h : media.title = some i) :
    i.isSeries = decide (media.mediaType = .series) := by
  obtain ⟨mediaType, tmdbId, showTmdbId, seasonNumber, episodeNumber⟩ := media
  unfold Media.title at h
  split at h
  all_goals
    first
    | (obtain ⟨id, -, rfl⟩ := Option.map_eq_some_iff.mp h
       simp_all [Identity.isSeries])
    | exact absurd h (by simp)

end titles

theorem perm_entries {α : Type} (kind : α → Kind) (entries : List α) :
    (ByKind.of kind entries).entries.Perm entries := by
  induction entries with
  | nil => exact .refl _
  | cons a entries ih =>
    have hcons : (ByKind.of kind (a :: entries)).entries.Perm
        (a :: (ByKind.of kind entries).entries) := by
      unfold ByKind.of ByKind.entries
      simp only [List.filter_cons, List.append_assoc]
      cases kind a with
      | movies => exact .refl _
      | shows => exact List.perm_middle
      | seasons => exact (List.perm_middle.append_left _).trans List.perm_middle
      | episodes =>
        exact ((List.perm_middle.append_left _).append_left _).trans
          ((List.perm_middle.append_left _).trans List.perm_middle)
    exact hcons.trans (ih.cons a)

theorem title_filter_found {x : Option Identity} {p found : Identity → Bool} {i : Identity} :
    (x.filter p).filter found = some i ↔ x = some i ∧ found i = true ∧ p i = true := by
  simp only [Option.filter_eq_some_iff]
  tauto

section collection

variable (found : Identity → Bool)

/-- What there is to see of a collected title. -/
def Collected.view (row : Collected) : Option Identity × Int :=
  (row.media.title, toSecond row.addedAt)

def CollectedKept (v : Option Identity × Int) : Prop :=
  ∃ i, v.1 = some i ∧ found i = true ∧ i.isSeries = false

def Collected.survive (row : Collected) : Option Collected :=
  (collectionEntry row).bind (CollectionEntry.resolve found)

variable {found}

theorem toSecond_toSecond (t : Int) : toSecond (toSecond t) = toSecond t := by
  unfold toSecond
  omega

theorem Collected.survive_eq (row : Collected) :
    row.survive found =
      ((row.media.title.filter fun i ↦ !i.isSeries).filter found).map fun i ↦
        ⟨i.media, toSecond row.addedAt⟩ := by
  rw [← target_identity, Collected.survive, collectionEntry]
  cases row.media.target <;> rfl

theorem collectedKept_of_survive (row restored : Collected) (h : row.survive found = some restored) :
    CollectedKept found restored.view := by
  rw [Collected.survive_eq] at h
  obtain ⟨i, hi, rfl⟩ := Option.map_eq_some_iff.mp h
  obtain ⟨htitle, hfound, hseries⟩ := title_filter_found.mp hi
  exact ⟨i, title_media htitle, hfound, by simpa using hseries⟩

theorem survive_of_collectedKept (row : Collected) (h : CollectedKept found row.view) :
    ∃ restored, row.survive found = some restored ∧ restored.view = row.view := by
  obtain ⟨i, htitle, hfound, hseries⟩ := h
  refine ⟨⟨i.media, toSecond row.addedAt⟩, ?_, ?_⟩
  · rw [Collected.survive_eq, Option.map_eq_some_iff]
    exact ⟨i, title_filter_found.mpr ⟨htitle, hfound, by simpa using hseries⟩, rfl⟩
  · have htitle' : row.media.title = some i := htitle
    simp only [Collected.view, title_media htitle', htitle', toSecond_toSecond]

theorem collection_restored_iff (rows : List Collected) :
    ((addToCollection found (addToCollection found [] (buildCollection rows).1)
        (buildCollection rows).2).map Collected.view).Perm (rows.map Collected.view) ↔
      (∀ v ∈ rows.map Collected.view, CollectedKept found v) ∧
        ((rows.map Collected.view).map Prod.fst).Nodup := by
  have hfold : addToCollection found (addToCollection found [] (buildCollection rows).1)
      (buildCollection rows).2 =
      (((buildCollection rows).1 ++ (buildCollection rows).2).filterMap
        (CollectionEntry.resolve found)).foldl
          (insertWith (Prod.fst ∘ Collected.view) id fun row _ ↦ row) [] := by
    rw [List.filterMap_append, List.foldl_append]
    rfl
  have hperm : (((buildCollection rows).1 ++ (buildCollection rows).2).filterMap
      (CollectionEntry.resolve found)).Perm (rows.filterMap (Collected.survive found)) := by
    have hbind : rows.filterMap (Collected.survive found) =
        (rows.filterMap collectionEntry).filterMap (CollectionEntry.resolve found) :=
      (List.filterMap_filterMap ..).symm
    rw [hbind]
    exact (List.filter_append_perm CollectionEntry.isMovie _).filterMap _
  rw [hfold, List.forall_mem_map]
  exact perm_iff hperm collectedKept_of_survive survive_of_collectedKept

end collection

section ratings

variable (found : Identity → Bool)

/-- The title, the season and its order, and the score of a rating. -/
structure RatingView where
  title : Option Identity
  seasonNumber : Option Int
  episodeOrder : Option String
  rating : Option ℚ

def Rating.view (rating : Rating) : RatingView :=
  ⟨rating.media.title, rating.seasonNumber, rating.episodeOrder, rating.rating⟩

def RatingView.name (v : RatingView) : Option Identity × Option Int := (v.title, v.seasonNumber)

structure RatingKept (v : RatingView) : Prop where
  title : ∃ i, v.title = some i ∧ found i = true ∧ (v.seasonNumber ≠ none → i.isSeries = true)
  order : v.episodeOrder = none
  whole : ∃ n : Int, v.rating = some (n : ℚ)

def Rating.survive (rating : Rating) : Option Rating :=
  (ratingEntry rating).bind (RatingEntry.resolve found)

variable {found}

theorem round_intCast (n : Int) : round n = n := by
  simp [round, Rat.floor_intCast]

/-- A season number is exported with a series only. -/
theorem subject_title (rating : Rating) :
    rating.subject.bind Subject.title = rating.media.title.map fun i ↦
      (i, if i.isSeries then rating.seasonNumber else none) := by
  obtain ⟨⟨mediaType, tmdbId, showTmdbId, inSeason, number⟩, season, order, score, ratedAt⟩ := rating
  cases mediaType with
  | movie => simp [Rating.subject, Media.title, Subject.title, Function.comp_def, Identity.isSeries]
  | series =>
    cases season <;>
      simp [Rating.subject, Media.title, Subject.title, Function.comp_def, Identity.isSeries]
  | episode =>
    cases inSeason <;> cases number <;>
      simp [Rating.subject, Media.title, Subject.title, Function.comp_def, Identity.isSeries]
  | person => simp [Rating.subject, Media.title]

theorem Rating.survive_eq_some (rating restored : Rating) :
    rating.survive found = some restored ↔ ∃ i q, rating.media.title = some i ∧ found i = true ∧
      rating.rating = some q ∧ restored =
        ⟨i.media, if i.isSeries then rating.seasonNumber else none, none, some (round q),
          toSecond rating.ratedAt⟩ := by
  have hsubject := subject_title rating
  simp only [Rating.survive, ratingEntry, RatingEntry.resolve, Option.bind_eq_bind,
    Option.bind_map, Option.bind_eq_some_iff, Option.filter_eq_some_iff, Function.comp_apply,
    Option.pure_def, Option.some.injEq]
  constructor
  · rintro ⟨subject, hrating, title, ⟨htitle, hfound⟩, q, hq, rfl⟩
    rw [hrating, Option.bind_some, htitle] at hsubject
    obtain ⟨i, hi, rfl⟩ := Option.map_eq_some_iff.mp hsubject.symm
    exact ⟨i, q, hi, hfound, hq, rfl⟩
  · rintro ⟨i, q, hi, hfound, hq, rfl⟩
    rw [hi, Option.map_some] at hsubject
    obtain ⟨subject, hrating, htitle⟩ := Option.bind_eq_some_iff.mp hsubject
    exact ⟨subject, hrating, _, ⟨htitle, hfound⟩, q, hq, rfl⟩

theorem ratingKept_of_survive (rating restored : Rating) (h : rating.survive found = some restored) :
    RatingKept found restored.view := by
  obtain ⟨i, q, htitle, hfound, -, rfl⟩ := (Rating.survive_eq_some rating restored).mp h
  refine ⟨⟨i, title_media htitle, hfound, ?_⟩, rfl, ⟨round q, rfl⟩⟩
  intro hseason
  by_contra hseries
  simp [Rating.view, hseries] at hseason

theorem survive_of_ratingKept (rating : Rating) (h : RatingKept found rating.view) :
    ∃ restored, rating.survive found = some restored ∧ restored.view = rating.view := by
  obtain ⟨⟨i, htitle, hfound, hseason⟩, horder, ⟨n, hwhole⟩⟩ := h
  refine ⟨_, (Rating.survive_eq_some rating _).mpr ⟨i, n, htitle, hfound, hwhole, rfl⟩, ?_⟩
  have hseason' : (if i.isSeries then rating.seasonNumber else none) = rating.seasonNumber := by
    by_cases hnone : rating.seasonNumber = none
    · simp [hnone]
    · rw [if_pos (hseason hnone)]
  simp only [Rating.view] at htitle horder hwhole ⊢
  rw [hseason', title_media htitle, round_intCast, htitle, horder, hwhole]

theorem ratings_restored_iff (rows : List Rating) :
    ((importRatings found [] (buildRatings rows)).map Rating.view).Perm
        ((rows.filter fun r ↦ r.rating.isSome).map Rating.view) ↔
      (∀ v ∈ (rows.filter fun r ↦ r.rating.isSome).map Rating.view, RatingKept found v) ∧
        (((rows.filter fun r ↦ r.rating.isSome).map Rating.view).map RatingView.name).Nodup := by
  have hscored : (rows.filter fun r ↦ r.rating.isSome).filterMap (Rating.survive found) =
      (rows.filterMap ratingEntry).filterMap (RatingEntry.resolve found) := by
    rw [List.filterMap_filterMap, List.filterMap_filter]
    refine List.filterMap_congr fun r _ ↦ ?_
    split
    · rfl
    · next hnone =>
      symm
      rw [Option.eq_none_iff_forall_ne_some]
      intro restored hsurvive
      obtain ⟨i, q, -, -, hq, -⟩ := (Rating.survive_eq_some r restored).mp hsurvive
      simp [hq] at hnone
  have hperm : ((buildRatings rows).entries.filterMap (RatingEntry.resolve found)).Perm
      ((rows.filter fun r ↦ r.rating.isSome).filterMap (Rating.survive found)) := by
    rw [hscored]
    exact (perm_entries _ _).filterMap _
  have hfold : importRatings found [] (buildRatings rows) =
      ((buildRatings rows).entries.filterMap (RatingEntry.resolve found)).foldl
        (insertWith (RatingView.name ∘ Rating.view) id applyImportedRating) [] := rfl
  rw [hfold, List.forall_mem_map]
  exact perm_iff hperm ratingKept_of_survive survive_of_ratingKept

end ratings

section comments

/-- A comment with its date to the second. -/
def Comment.view (c : Comment) : Comment := { c with createdAt := toSecond c.createdAt }

/-- A comment on a movie has no numbers, and one on a series no number of an episode. -/
structure CommentKept (c : Comment) : Prop where
  title : c.tmdbId ≠ 0
  numbers : c.mediaType = "movie" ∧ c.seasonNumber = none ∧ c.episodeNumber = none ∨
    c.mediaType = "series" ∧ c.episodeNumber = none ∨ c.mediaType = "episode"

def Comment.survive (c : Comment) : Option Comment := (commentEntry c).bind CommentEntry.resolve

theorem Comment.survive_eq (c : Comment) :
    c.survive =
      if c.tmdbId = 0 then none
      else if c.mediaType = "movie" then
        some { c.view with seasonNumber := none, episodeNumber := none }
      else if c.mediaType = "series" then some { c.view with episodeNumber := none }
      else if c.mediaType = "episode" then some c.view
      else none := by
  obtain ⟨mediaType, tmdbId, seasonNumber, episodeNumber, content, isSpoiler, createdAt⟩ := c
  unfold Comment.survive commentEntry Comment.subject
  by_cases hmovie : mediaType = "movie"
  · subst hmovie
    by_cases hid : tmdbId = 0 <;> simp [CommentEntry.resolve, hid, Comment.view]
  by_cases hseries : mediaType = "series"
  · subst hseries
    cases seasonNumber <;> by_cases hid : tmdbId = 0 <;>
      simp [CommentEntry.resolve, hid, Comment.view]
  by_cases hepisode : mediaType = "episode"
  · subst hepisode
    by_cases hid : tmdbId = 0 <;> simp [CommentEntry.resolve, hid, Comment.view]
  · simp [hmovie, hseries, hepisode]

theorem commentKept_of_survive (c restored : Comment) (h : c.survive = some restored) :
    CommentKept restored.view := by
  rw [Comment.survive_eq] at h
  split_ifs at h with hid hmovie hseries hepisode <;> obtain rfl := Option.some.inj h
  · exact ⟨hid, .inl ⟨hmovie, rfl, rfl⟩⟩
  · exact ⟨hid, .inr (.inl ⟨hseries, rfl⟩)⟩
  · exact ⟨hid, .inr (.inr hepisode)⟩

theorem survive_of_commentKept (c : Comment) (h : CommentKept c.view) :
    ∃ restored, c.survive = some restored ∧ restored.view = c.view := by
  obtain ⟨mediaType, tmdbId, seasonNumber, episodeNumber, content, isSpoiler, createdAt⟩ := c
  obtain ⟨hid, hnumbers⟩ := h
  simp only [Comment.view] at hid hnumbers
  refine ⟨⟨mediaType, tmdbId, seasonNumber, episodeNumber, content, isSpoiler, toSecond createdAt⟩,
    ?_, ?_⟩
  · rw [Comment.survive_eq, if_neg hid]
    rcases hnumbers with ⟨rfl, rfl, rfl⟩ | ⟨rfl, rfl⟩ | rfl <;> simp [Comment.view]
  · simp [Comment.view, toSecond_toSecond]

theorem comments_restored_iff (rows : List Comment) :
    ((importComments [] (buildComments rows)).map Comment.view).Perm (rows.map Comment.view) ↔
      (∀ c ∈ rows.map Comment.view, CommentKept c) ∧
        ((rows.map Comment.view).map Comment.key).Nodup := by
  have hperm : ((buildComments rows).entries.filterMap CommentEntry.resolve).Perm
      (rows.filterMap Comment.survive) := by
    have hbind : rows.filterMap Comment.survive =
        (rows.filterMap commentEntry).filterMap CommentEntry.resolve :=
      (List.filterMap_filterMap ..).symm
    rw [hbind]
    exact (perm_entries _ _).filterMap _
  have hfold : importComments [] (buildComments rows) =
      ((buildComments rows).entries.filterMap CommentEntry.resolve).foldl
        (insertWith (Comment.key ∘ Comment.view) id fun c _ ↦ c) [] := rfl
  rw [hfold, List.forall_mem_map]
  exact perm_iff hperm commentKept_of_survive survive_of_commentKept

end comments

end AnyList.Backup
