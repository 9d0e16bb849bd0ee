import AnyList.Imports.TitleGroups

namespace AnyList.Imports.TitleGroups

open AnyList.Library.KeyedInserts AnyList.Imports.ViewingHistory AnyList.Imports.EpisodeResolution

variable {py : Python} {service : Service} {rows : List Observation} {group : Group}
  {row : Observation}

theorem rowsOf_append (rows rows' : List Observation) :
    rowsOf (rows ++ rows') = rowsOf rows ++ rowsOf rows' := List.flatMap_append

theorem rowsOf_flatMap {α : Type*} (l : List α) (f : α → List Observation) :
    rowsOf (l.flatMap f) = l.flatMap fun a ↦ rowsOf (f a) := List.flatMap_assoc

theorem rowsOf_perm {rows' : List Observation} (h : rows.Perm rows') :
    (rowsOf rows).Perm (rowsOf rows') := h.flatMap_right _

theorem mem_rowsOf {n : ℕ} : n ∈ rowsOf rows ↔ ∃ row ∈ rows, n ∈ row.sourceRows := List.mem_flatMap

section grouping

variable {key : Observation → Text}

theorem groupBy_perm (key : Observation → Text) (rows : List Observation) :
    ((groupBy key rows).flatMap Prod.snd).Perm rows := by
  have hperm : ((groupBy key rows).flatMap Prod.snd).Perm
      (([] : List Group).flatMap Prod.snd ++ rows.flatMap fun row ↦ [row]) :=
    perm_flatMap_foldl_insertWith (fun _ _ ↦ rfl) List.nodup_nil (fun _ ↦ rfl) fun _ _ ↦ rfl
  simpa using hperm

theorem nodup_groupBy (key : Observation → Text) (rows : List Observation) :
    ((groupBy key rows).map Prod.fst).Nodup :=
  nodup_foldl_insertWith (fun _ _ ↦ rfl) List.nodup_nil

/-- A group has observations, and all of its key. -/
def Keyed (key : Observation → Text) (group : Group) : Prop :=
  group.2 ≠ [] ∧ ∀ row ∈ group.2, key row = group.1

theorem keyed_groupBy (key : Observation → Text) (rows : List Observation) :
    ∀ group ∈ groupBy key rows, Keyed key group := by
  induction rows using List.reverseRecOn with
  | nil => exact fun _ h ↦ absurd h List.not_mem_nil
  | append_singleton rows row ih =>
    rw [groupBy, List.foldl_concat]
    refine forall_insertWith ⟨List.cons_ne_nil _ _, fun row' h ↦ ?_⟩ (fun group _ hkey h ↦ ?_) ih
    · rw [List.mem_singleton.mp h]
    · refine ⟨List.append_ne_nil_of_left_ne_nil h.1 _, fun row' h' ↦ ?_⟩
      obtain h' | h' := List.mem_append.mp h'
      · exact h.2 row' h'
      · rw [List.mem_singleton.mp h']
        exact hkey.symm

theorem observationsOf_of_mem {groups : List Group} (hnodup : (groups.map Prod.fst).Nodup)
    (h : group ∈ groups) : observationsOf groups group.1 = group.2 := by
  have hfind : groups.find? (fun g ↦ decide (g.1 = group.1)) = some group := by
    cases hfound : groups.find? fun g ↦ decide (g.1 = group.1) with
    | none => exact absurd (List.find?_eq_none.mp hfound group h) (by simp)
    | some g =>
      have hkey := List.find?_some hfound
      rw [decide_eq_true_eq] at hkey
      rw [List.inj_on_of_nodup_map hnodup (List.mem_of_find?_eq_some hfound) h hkey]
  rw [observationsOf, hfind]
  rfl

theorem normText_showTitleOf (h : Keyed (showKey py) group) (hshow : ∀ row ∈ group.2, isShowRow row) :
    py.normText (showTitleOf group.2) = group.1 := by
  obtain ⟨hne, hkey⟩ := h
  cases hrows : group.2 with
  | nil => exact absurd hrows hne
  | cons row rest =>
    have hrow : row ∈ group.2 := by simp [hrows]
    have htitle := hshow row hrow
    rw [isShowRow, Bool.and_eq_true] at htitle
    obtain ⟨title, htruthy⟩ := Option.isSome_iff_exists.mp htitle.1
    have hsome : row.showTitle = some title := (Option.filter_eq_some_iff.mp htruthy).1
    rw [showTitleOf, List.head?_cons, Option.bind_some, htruthy, ← hkey row hrow, showKey, normOf,
      hsome]
    rfl

end grouping

section promotion

variable {st : Promotion} {shows : List Item} {groups : List Group} {id : Text} {item : Item}

/-- What a review of a show leaves as it is. -/
def Item.core (item : Item) : Text × Text × List ℕ × List Text × List Episode :=
  (item.id, item.sourceTitle, item.sourceRows, item.dates, item.episodes)

theorem map_core_reviewShow (id : Text) (row : Observation) (shows : List Item) :
    (reviewShow id row shows).map Item.core = shows.map Item.core := by
  induction shows with
  | nil => rfl
  | cons item rest ih =>
    rw [reviewShow]
    split_ifs
    · rfl
    · rw [List.map_cons, ih, List.map_cons]

theorem mayBeMovies_congr {shows' : List Item} (h : shows.map Item.core = shows'.map Item.core)
    (group : Group) : mayBeMovies service shows group = mayBeMovies service shows' group := by
  have hcore (shows : List Item) :
      (shows.find? fun item ↦ decide (item.id = stableId service .show group.1)).any hasExactEpisode =
        ((shows.map Item.core).find? fun core ↦ decide (core.1 = stableId service .show group.1)).any
          fun core ↦ core.2.2.2.2.any fun ep ↦ decide (ep.resolution = some "exact") := by
    rw [List.find?_map, Option.any_map]
    rfl
  rw [mayBeMovies, mayBeMovies, hcore, hcore, h]

/-- The observations of a group that are promoted to films. -/
def promotedOf (py : Python) (service : Service) (shows : List Item) (group : Group) :
    List Observation :=
  if mayBeMovies service shows group then
    group.2.filter fun row ↦ (promotedMovie py service row).isSome
  else []

def promotedItems (py : Python) (service : Service) (rows : List Observation) : List Item :=
  rows.filterMap fun row ↦ (promotedMovie py service row).map (promotedItem py service row)

theorem promotedItems_filter (rows : List Observation) :
    promotedItems py service (rows.filter fun row ↦ (promotedMovie py service row).isSome) =
      promotedItems py service rows := by
  induction rows with
  | nil => rfl
  | cons row rest ih =>
    cases hmovie : promotedMovie py service row with
    | none =>
      rw [List.filter_cons_of_neg (by simp [hmovie]), ih, promotedItems, promotedItems,
        List.filterMap_cons_none (by simp [hmovie])]
    | some candidate =>
      rw [List.filter_cons_of_pos (by simp [hmovie]), promotedItems, promotedItems,
        List.filterMap_cons_some (b := promotedItem py service row candidate) (by simp [hmovie]),
        List.filterMap_cons_some (b := promotedItem py service row candidate) (by simp [hmovie])]
      exact congrArg _ ih

/-- The state behind the promotion of some observations. -/
structure Promoted (py : Python) (service : Service) (st : Promotion) (rows : List Observation)
    (st' : Promotion) : Prop where
  movies : st'.movies = st.movies ++ promotedItems py service rows
  rows : st'.rows = st.rows ++ rowsOf rows
  shows : st'.shows.map Item.core = st.shows.map Item.core

theorem Promoted.trans {st' st'' : Promotion} {rows rows' : List Observation}
    (h : Promoted py service st rows st') (h' : Promoted py service st' rows' st'') :
    Promoted py service st (rows ++ rows') st'' where
  movies := by
    rw [h'.movies, h.movies, List.append_assoc, promotedItems, promotedItems, promotedItems,
      List.filterMap_append]
  rows := by rw [h'.rows, h.rows, List.append_assoc, rowsOf_append]
  shows := h'.shows.trans h.shows

theorem Promoted.refl (st : Promotion) : Promoted py service st [] st :=
  ⟨(List.append_nil _).symm, (List.append_nil _).symm, rfl⟩

theorem promoted_promoteRow (py : Python) (service : Service) (id : Text) (st : Promotion) (row : Observation) :
    Promoted py service st ([row].filter fun row ↦ (promotedMovie py service row).isSome)
      (promoteRow py service id st row) := by
  rw [promoteRow]
  cases hmovie : promotedMovie py service row with
  | none =>
    rw [List.filter_cons_of_neg (by simp [hmovie]), List.filter_nil]
    exact ⟨(List.append_nil _).symm, (List.append_nil _).symm, map_core_reviewShow _ _ _⟩
  | some candidate =>
    rw [List.filter_cons_of_pos (by simp [hmovie]), List.filter_nil]
    refine ⟨?_, ?_, rfl⟩
    · rw [promotedItems, List.filterMap_cons_some (by rw [hmovie]; rfl)]
      rfl
    · simp [rowsOf]

theorem promoted_rows (id : Text) (st : Promotion) (rows : List Observation) :
    Promoted py service st (rows.filter fun row ↦ (promotedMovie py service row).isSome)
      (rows.foldl (promoteRow py service id) st) := by
  induction rows generalizing st with
  | nil => exact .refl st
  | cons row rest ih =>
    have hsplit := (promoted_promoteRow py service id st row).trans
      (ih (promoteRow py service id st row))
    rw [← List.filter_append] at hsplit
    exact hsplit

theorem promoted_promoteGroup (py : Python) (service : Service) (st : Promotion) (group : Group) :
    Promoted py service st (promotedOf py service st.shows group)
      (promoteGroup py service st group) := by
  rw [promoteGroup, promotedOf]
  split_ifs
  · exact promoted_rows _ _ _
  · exact .refl st

theorem promoted_groups (h : st.shows.map Item.core = shows.map Item.core) (groups : List Group) :
    Promoted py service st (groups.flatMap (promotedOf py service shows))
      (groups.foldl (promoteGroup py service) st) := by
  induction groups generalizing st with
  | nil => exact .refl st
  | cons group rest ih =>
    have hgroup := promoted_promoteGroup py service st group
    have hsame : promotedOf py service st.shows group = promotedOf py service shows group := by
      rw [promotedOf, promotedOf, mayBeMovies_congr h]
    rw [hsame] at hgroup
    exact hgroup.trans (ih (hgroup.shows.trans h))

end promotion

end AnyList.Imports.TitleGroups
