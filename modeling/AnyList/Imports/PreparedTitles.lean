import AnyList.Imports.ConservedTitles
import Mathlib.Data.List.Dedup

namespace AnyList.Imports.TitleGroups

open AnyList.Library.KeyedInserts AnyList.Imports.ViewingHistory AnyList.Imports.EpisodeResolution

variable (py : Python) (service : Service) (rows : List Observation)

def startShows : List Item :=
  ((showRows py rows).filter (isResolved service)).map (showItem service)

/-- The observations that are promoted to films. -/
def promotedRows : List Observation :=
  (showRows py rows).flatMap (promotedOf py service (startShows py service rows))

def isKept (group : Group) : Bool := !fullyPromoted (rowsOf (promotedRows py service rows)) group.2

/-- The observations that are promoted out of a group which stays for review. -/
def doubledRows : List Observation :=
  ((showRows py rows).filter (isKept py service rows)).flatMap
    (promotedOf py service (startShows py service rows))

/-- Some item has the source rows and the date of an observation. -/
def Represents (items : List Item) (row : Observation) : Prop :=
  ∃ item ∈ items, row.sourceRows ⊆ item.sourceRows ∧ row.watchedAt ∈ item.dates

/-- Every observation has source rows, and no two share one. -/
structure Numbered (rows : List Observation) : Prop where
  nodup : (rowsOf rows).Nodup
  ne_nil : ∀ row ∈ rows, row.sourceRows ≠ []

variable {py service rows} {row : Observation} {group : Group}

section merge

variable {movies : List Item} {item : Item}

theorem flatMap_mergeMovies (movies : List Item) :
    ((mergeMovies movies).flatMap Item.sourceRows).Perm (movies.flatMap Item.sourceRows) := by
  have hperm : ((mergeMovies movies).flatMap Item.sourceRows).Perm
      (([] : List Item).flatMap Item.sourceRows ++ movies.flatMap Item.sourceRows) :=
    perm_flatMap_foldl_insertWith (fun _ _ ↦ rfl) List.nodup_nil (fun _ ↦ rfl) fun _ _ ↦ rfl
  simpa using hperm

theorem mem_sortedDates {d : Text} {dates : List Text} : d ∈ sortedDates dates ↔ d ∈ dates := by
  rw [sortedDates, List.mem_insertionSort, List.mem_dedup]

theorem Represents.mergeMovie (h : Represents movies row) (new : Item) :
    Represents (insertWith Item.id id mergeMovie movies new) row := by
  obtain ⟨item, hitem, hrows, hdate⟩ := h
  rw [insertWith]
  split_ifs
  · refine ⟨_, List.mem_map_of_mem hitem, ?_⟩
    split_ifs
    · exact ⟨List.Subset.trans hrows (List.subset_append_left _ _),
        mem_sortedDates.mpr (List.mem_append_left _ hdate)⟩
    · exact ⟨hrows, hdate⟩
  · exact ⟨item, List.mem_append_left _ hitem, hrows, hdate⟩

theorem represents_insertWith {new : Item} (hrows : row.sourceRows ⊆ new.sourceRows)
    (hdate : row.watchedAt ∈ new.dates) :
    Represents (insertWith Item.id id TitleGroups.mergeMovie movies new) row := by
  rw [insertWith]
  split_ifs with hmem
  · obtain ⟨item, hitem, hid⟩ := List.mem_map.mp hmem
    refine ⟨_, List.mem_map_of_mem hitem, ?_⟩
    rw [if_pos hid]
    exact ⟨List.Subset.trans hrows (List.subset_append_right _ _),
      mem_sortedDates.mpr (List.mem_append_right _ hdate)⟩
  · exact ⟨new, List.mem_append_right _ (List.mem_singleton_self new), hrows, hdate⟩

theorem Represents.mergeMovies (h : Represents movies row) : Represents (mergeMovies movies) row := by
  induction movies using List.reverseRecOn with
  | nil => exact h
  | append_singleton movies new ih =>
    rw [TitleGroups.mergeMovies, List.foldl_concat]
    obtain ⟨item, hitem, hrows, hdate⟩ := h
    obtain hitem | hitem := List.mem_append.mp hitem
    · exact (ih ⟨item, hitem, hrows, hdate⟩).mergeMovie new
    · rw [List.mem_singleton.mp hitem] at hrows hdate
      exact represents_insertWith hrows hdate

end merge

section groups

theorem isShowRow_of_mem (hgroup : group ∈ showRows py rows) (h : row ∈ group.2) :
    isShowRow row = true ∧ row ∈ rows := by
  have hmem := (groupBy_perm (showKey py) _).mem_iff.mp (List.mem_flatMap.mpr ⟨group, hgroup, h⟩)
  exact (List.mem_filter.mp hmem).symm

theorem observationsOf_showRows (h : group ∈ showRows py rows) :
    observationsOf (showRows py rows) group.1 = group.2 :=
  observationsOf_of_mem (nodup_groupBy _ _) h

theorem observationsOf_showTitle (h : group ∈ showRows py rows) :
    observationsOf (showRows py rows) (py.normText (showTitleOf group.2)) = group.2 := by
  rw [normText_showTitleOf (keyed_groupBy _ _ group h) fun row hrow ↦ (isShowRow_of_mem h hrow).1,
    observationsOf_showRows h]

theorem represents_group {items : List Item} {item : Item} (hitem : item ∈ items)
    (hrows : item.sourceRows = rowsOf group.2) (hdates : item.dates = datesOf group.2)
    (h : row ∈ group.2) : Represents items row := by
  refine ⟨item, hitem, ?_, ?_⟩
  · rw [hrows]
    exact fun n hn ↦ mem_rowsOf.mpr ⟨row, h, hn⟩
  · rw [hdates]
    exact mem_sortedDates.mpr (List.mem_map_of_mem h)

end groups

section passes

/-- The films, rows and shows behind the promotions. -/
def promotion (py : Python) (service : Service) (rows : List Observation) : Promotion :=
  (showRows py rows).foldl (promoteGroup py service)
    ⟨((movieRows py rows).filter (plainMovie py service)).map (movieItem service), [],
      startShows py service rows⟩

theorem promoted_promotion (py : Python) (service : Service) (rows : List Observation) :
    Promoted py service
      ⟨((movieRows py rows).filter (plainMovie py service)).map (movieItem service), [],
        startShows py service rows⟩ (promotedRows py service rows) (promotion py service rows) :=
  promoted_groups rfl _

theorem rows_promotion :
    (promotion py service rows).rows = rowsOf (promotedRows py service rows) := by
  rw [(promoted_promotion py service rows).rows, List.nil_append]

def keptShows (py : Python) (service : Service) (rows : List Observation) : List Item :=
  (promotion py service rows).shows.filter fun item ↦
    !fullyPromoted (promotion py service rows).rows
      (observationsOf (showRows py rows) (py.normText item.sourceTitle))

theorem map_core_keptShows : (keptShows py service rows).map Item.core =
    (((showRows py rows).filter (isResolved service)).filter (isKept py service rows)).map
      fun group ↦ (showItem service group).core := by
  have hcore (shows : List Item) :
      (shows.filter fun item ↦ !fullyPromoted (promotion py service rows).rows
          (observationsOf (showRows py rows) (py.normText item.sourceTitle))).map Item.core =
        (shows.map Item.core).filter fun core ↦ !fullyPromoted (promotion py service rows).rows
          (observationsOf (showRows py rows) (py.normText core.2.1)) := by
    rw [List.filter_map]
    rfl
  rw [keptShows, hcore, (promoted_promotion py service rows).shows, ← hcore, startShows,
    List.filter_map, List.map_map]
  have hfilter : ((showRows py rows).filter (isResolved service)).filter
      ((fun item ↦ !fullyPromoted (promotion py service rows).rows
        (observationsOf (showRows py rows) (py.normText item.sourceTitle))) ∘ showItem service) =
      ((showRows py rows).filter (isResolved service)).filter (isKept py service rows) := by
    refine List.filter_congr fun group hgroup ↦ ?_
    have hmem := (List.mem_filter.mp hgroup).1
    rw [Function.comp_apply, isKept, rows_promotion]
    exact congrArg (fun observations ↦ !fullyPromoted _ observations) (observationsOf_showTitle hmem)
  rw [hfilter]
  rfl

theorem flatMap_keptShows : (keptShows py service rows).flatMap Item.sourceRows =
    (((showRows py rows).filter (isResolved service)).filter (isKept py service rows)).flatMap
      fun group ↦ rowsOf group.2 := by
  have hmap : (keptShows py service rows).flatMap Item.sourceRows =
      ((keptShows py service rows).map Item.core).flatMap fun core ↦ core.2.2.1 := by
    rw [List.flatMap_map]
    rfl
  rw [hmap, map_core_keptShows, List.flatMap_map]
  rfl

theorem exists_keptShow (h : group ∈ showRows py rows) (hresolved : isResolved service group = true)
    (hkept : isKept py service rows group = true) :
    ∃ item ∈ keptShows py service rows, item.core = (showItem service group).core := by
  have hmem : (showItem service group).core ∈ (keptShows py service rows).map Item.core := by
    rw [map_core_keptShows]
    exact List.mem_map.mpr ⟨group, List.mem_filter.mpr ⟨List.mem_filter.mpr ⟨h, hresolved⟩, hkept⟩, rfl⟩
  obtain ⟨item, hitem, heq⟩ := List.mem_map.mp hmem
  exact ⟨item, hitem, heq⟩

/-- The groups without search results that stay. -/
def leftGroups (py : Python) (service : Service) (rows : List Observation) : List Group :=
  ((showRows py rows).filter fun group ↦ !isResolved service group).filter (isKept py service rows)

def leftKeys (py : Python) (service : Service) (rows : List Observation) : List Text :=
  (((((showRows py rows).filter fun group ↦ !isResolved service group).map Prod.fst).insertionSort
    (· ≤ ·))).filter fun key ↦
      !fullyPromoted (promotion py service rows).rows (observationsOf (showRows py rows) key)

def leftItems (py : Python) (service : Service) (rows : List Observation) : List Item :=
  (leftKeys py service rows).map fun key ↦
    unresolvedItem service (key, observationsOf (showRows py rows) key)

theorem perm_leftItems (py : Python) (service : Service) (rows : List Observation) : (leftItems py service rows).Perm
    ((leftGroups py service rows).map (unresolvedItem service)) := by
  have hkeys : (leftKeys py service rows).Perm ((leftGroups py service rows).map Prod.fst) := by
    have hsort := (List.perm_insertionSort (· ≤ ·)
      (((showRows py rows).filter fun group ↦ !isResolved service group).map Prod.fst)).filter
        fun key ↦ !fullyPromoted (promotion py service rows).rows
          (observationsOf (showRows py rows) key)
    rw [List.filter_map] at hsort
    have hfilter : ((showRows py rows).filter fun group ↦ !isResolved service group).filter
        ((fun key ↦ !fullyPromoted (promotion py service rows).rows
          (observationsOf (showRows py rows) key)) ∘ Prod.fst) = leftGroups py service rows := by
      refine List.filter_congr fun group hgroup ↦ ?_
      rw [Function.comp_apply, observationsOf_showRows (List.mem_filter.mp hgroup).1, isKept,
        rows_promotion]
    rw [hfilter] at hsort
    exact hsort
  have hitems := hkeys.map fun key ↦ unresolvedItem service (key, observationsOf (showRows py rows) key)
  rw [List.map_map] at hitems
  refine hitems.trans (.of_eq (List.map_congr_left fun group hgroup ↦ ?_))
  have hmem := (List.mem_filter.mp (List.mem_filter.mp hgroup).1).1
  rw [Function.comp_apply, observationsOf_showRows hmem]

/-- No group is left to be identified: it has its show, its review item, or was promoted. -/
theorem id_mem_known (h : group ∈ showRows py rows) (hkept : isKept py service rows group = true) :
    stableId service .show group.1 ∈
      (keptShows py service rows ++ leftItems py service rows).map Item.id := by
  cases hresolved : isResolved service group with
  | true =>
    obtain ⟨item, hitem, hcore⟩ := exists_keptShow h hresolved hkept
    exact List.mem_map.mpr ⟨item, List.mem_append_left _ hitem, congrArg Prod.fst hcore⟩
  | false =>
    have hleft : group ∈ leftGroups py service rows :=
      List.mem_filter.mpr ⟨List.mem_filter.mpr ⟨h, by simp [hresolved]⟩, hkept⟩
    have hitem := (perm_leftItems py service rows).mem_iff.mpr (List.mem_map_of_mem hleft)
    exact List.mem_map.mpr ⟨_, List.mem_append_right _ hitem, rfl⟩

def unmatchedMovies (py : Python) (service : Service) (rows : List Observation) : List Item :=
  (movieRows py rows).filterMap (plainUnmatched py service)

/-- The three lists of the import, without the last pass over the groups, which adds nothing. -/
theorem prepare_eq (observations : List Observation)
    (hrows : rows = observations.map (resolveTitle py service)) :
    prepareNetflixImport py service observations =
      ⟨mergeMovies (promotion py service rows).movies, keptShows py service rows,
        unmatchedMovies py service rows ++ leftItems py service rows⟩ := by
  subst hrows
  generalize hrows : observations.map (resolveTitle py service) = rows
  have hnone : (showRows py rows).filter (fun group ↦
      decide (stableId service .show group.1 ∉ ((promotion py service rows).movies ++
        keptShows py service rows ++ (unmatchedMovies py service rows ++
          leftItems py service rows)).map Item.id) &&
        !fullyPromoted (promotion py service rows).rows group.2) = [] := by
    refine List.filter_eq_nil_iff.mpr fun group hgroup ↦ ?_
    rw [Bool.and_eq_true, decide_eq_true_eq, rows_promotion]
    intro ⟨hunknown, hkept⟩
    have hknown := id_mem_known hgroup hkept
    rw [List.map_append, List.mem_append] at hknown
    refine hunknown ?_
    rw [List.map_append, List.map_append, List.map_append, List.mem_append, List.mem_append,
      List.mem_append]
    exact hknown.elim (fun h ↦ .inl (.inr h)) fun h ↦ .inr (.inr h)
  have hfinal : prepareNetflixImport py service observations =
      ⟨mergeMovies (promotion py service rows).movies, keptShows py service rows,
        (unmatchedMovies py service rows ++ leftItems py service rows) ++
          ((showRows py rows).filter (fun group ↦
            decide (stableId service .show group.1 ∉ ((promotion py service rows).movies ++
              keptShows py service rows ++ (unmatchedMovies py service rows ++
                leftItems py service rows)).map Item.id) &&
              !fullyPromoted (promotion py service rows).rows group.2)).map
                (unidentifiedItem service)⟩ := by
    subst hrows
    rfl
  rw [hfinal, hnone, List.map_nil, List.append_nil]

end passes

section accounts

theorem rowsOf_filter_partition {α : Type*} (l : List α) (p : α → Bool) (f : α → List Observation) :
    ((l.filter p).flatMap (fun a ↦ rowsOf (f a)) ++
      (l.filter fun a ↦ !p a).flatMap fun a ↦ rowsOf (f a)).Perm (l.flatMap fun a ↦ rowsOf (f a)) := by
  rw [← List.flatMap_append]
  exact (List.filter_append_perm p l).flatMap_right _

theorem flatMap_promotedItems (h : ∀ row ∈ rows, (promotedMovie py service row).isSome = true) :
    (promotedItems py service rows).flatMap Item.sourceRows = rowsOf rows := by
  induction rows with
  | nil => rfl
  | cons row rest ih =>
    obtain ⟨candidate, hmovie⟩ := Option.isSome_iff_exists.mp (h row List.mem_cons_self)
    rw [promotedItems, List.filterMap_cons_some (by rw [hmovie]; rfl), List.flatMap_cons,
      ← promotedItems, ih fun row' h' ↦ h row' (List.mem_cons_of_mem row h')]
    rfl

theorem of_mem_promotedOf {shows : List Item} (h : row ∈ promotedOf py service shows group) :
    row ∈ group.2 ∧ (promotedMovie py service row).isSome = true ∧
      mayBeMovies service shows group = true := by
  rw [promotedOf] at h
  split_ifs at h with hmay
  · exact ⟨(List.mem_filter.mp h).1, (List.mem_filter.mp h).2, hmay⟩
  · exact absurd h List.not_mem_nil

theorem mem_promotedRows :
    row ∈ promotedRows py service rows ↔ ∃ group ∈ showRows py rows,
      row ∈ promotedOf py service (startShows py service rows) group := List.mem_flatMap

theorem promotedMovie_of_mem (h : row ∈ promotedRows py service rows) :
    (promotedMovie py service row).isSome = true := by
  obtain ⟨group, -, hrow⟩ := mem_promotedRows.mp h
  exact (of_mem_promotedOf hrow).2.1

theorem flatMap_unmatchedMovies : (unmatchedMovies py service rows).flatMap Item.sourceRows =
    ((movieRows py rows).filter fun group ↦ !plainMovie py service group).flatMap
      fun group ↦ rowsOf group.2 := by
  rw [unmatchedMovies]
  induction movieRows py rows with
  | nil => rfl
  | cons group rest ih =>
    cases hanonymous : isAnonymous py (titleOf group.2) with
    | true =>
      rw [List.filterMap_cons_some (by rw [plainUnmatched, if_pos hanonymous]),
        List.filter_cons_of_pos (by simp [plainMovie, hanonymous]), List.flatMap_cons,
        List.flatMap_cons, ih]
      rfl
    | false =>
      cases hcandidate : hasCandidate service group with
      | true =>
        rw [List.filterMap_cons_none (by simp [plainUnmatched, hanonymous, hcandidate]),
          List.filter_cons_of_neg (by simp [plainMovie, hanonymous, hcandidate]), ih]
      | false =>
        rw [List.filterMap_cons_some (b := movieItem service group)
            (by simp [plainUnmatched, hanonymous, hcandidate]),
          List.filter_cons_of_pos (by simp [plainMovie, hcandidate]), List.flatMap_cons,
          List.flatMap_cons, ih]
        rfl

theorem flatMap_movies : (promotion py service rows).movies.flatMap Item.sourceRows =
    ((movieRows py rows).filter (plainMovie py service)).flatMap (fun group ↦ rowsOf group.2) ++
      rowsOf (promotedRows py service rows) := by
  rw [(promoted_promotion py service rows).movies, List.flatMap_append, List.flatMap_map,
    flatMap_promotedItems fun row h ↦ promotedMovie_of_mem h]
  rfl

theorem flatMap_leftItems (py : Python) (service : Service) (rows : List Observation) : ((leftItems py service rows).flatMap Item.sourceRows).Perm
    ((leftGroups py service rows).flatMap fun group ↦ rowsOf group.2) := by
  have hperm := perm_leftItems py service rows
  refine (hperm.flatMap_right _).trans (.of_eq ?_)
  rw [List.flatMap_map]
  rfl

/-- The items of the import hold the plain titles, the kept groups, and what was promoted. -/
theorem perm_all (observations : List Observation)
    (hrows : rows = observations.map (resolveTitle py service)) :
    ((prepareNetflixImport py service observations).all.flatMap Item.sourceRows).Perm
      (rowsOf (rows.filter fun row ↦ !isShowRow row) ++
        (rowsOf (promotedRows py service rows) ++
          ((showRows py rows).filter (isKept py service rows)).flatMap fun group ↦ rowsOf group.2)) := by
  have hmovie : (((movieRows py rows).flatMap fun group ↦ rowsOf group.2)).Perm
      (rowsOf (rows.filter fun row ↦ !isShowRow row)) := by
    rw [← rowsOf_flatMap]
    exact rowsOf_perm (groupBy_perm (movieKey py) _)
  have hplain := (rowsOf_filter_partition (movieRows py rows) (plainMovie py service) Prod.snd).trans
    hmovie
  have hkept := rowsOf_filter_partition ((showRows py rows).filter (isKept py service rows))
    (isResolved service) Prod.snd
  rw [prepare_eq observations hrows, Prepared.all, List.flatMap_append, List.flatMap_append,
    List.flatMap_append, flatMap_keptShows, flatMap_unmatchedMovies, List.filter_comm]
  have hmerged := (flatMap_mergeMovies (promotion py service rows).movies).trans
    (.of_eq flatMap_movies)
  have hleft := flatMap_leftItems py service rows
  rw [leftGroups, List.filter_comm] at hleft
  refine ((hmerged.append_right _).append (hleft.append_left _)).trans ?_
  refine List.Perm.trans ?_ (hplain.append (hkept.append_left _))
  refine List.perm_iff_count.mpr fun n ↦ ?_
  simp only [List.count_append]
  omega

theorem eq_of_common_row {row' : Observation} {n : ℕ} (hnumbered : Numbered rows) (h : row ∈ rows)
    (h' : row' ∈ rows) (hn : n ∈ row.sourceRows) (hn' : n ∈ row'.sourceRows) : row = row' := by
  have hdisjoint := (List.nodup_flatMap.mp hnumbered.nodup).2
  have hsymm : Std.Symm (Function.onFun List.Disjoint Observation.sourceRows) :=
    ⟨fun _ _ hab ↦ List.Disjoint.symm hab⟩
  by_contra hne
  exact hdisjoint.forall h h' hne hn hn'

/-- Of a group that is dropped every observation was promoted. -/
theorem promotedOf_of_dropped (hnumbered : Numbered rows) (hgroup : group ∈ showRows py rows)
    (h : isKept py service rows group = false) :
    promotedOf py service (startShows py service rows) group = group.2 := by
  have hfull : ∀ n ∈ rowsOf group.2, n ∈ rowsOf (promotedRows py service rows) := by
    rw [isKept, Bool.not_eq_false', fullyPromoted, decide_eq_true_eq] at h
    exact h.2
  have hall (row : Observation) (hrow : row ∈ group.2) :
      row ∈ promotedOf py service (startShows py service rows) group := by
    have hmem := (isShowRow_of_mem hgroup hrow).2
    obtain ⟨n, hn⟩ := List.exists_mem_of_ne_nil _ (hnumbered.ne_nil row hmem)
    obtain ⟨row', hrow', hn'⟩ := mem_rowsOf.mp (hfull n (mem_rowsOf.mpr ⟨row, hrow, hn⟩))
    obtain ⟨group', hgroup', hpromoted⟩ := mem_promotedRows.mp hrow'
    have hrow'' := (of_mem_promotedOf hpromoted).1
    obtain rfl := eq_of_common_row hnumbered hmem (isShowRow_of_mem hgroup' hrow'').2 hn hn'
    have hkey := (keyed_groupBy _ _ group hgroup).2 row hrow
    have hkey' := (keyed_groupBy _ _ group' hgroup').2 row hrow''
    rwa [List.inj_on_of_nodup_map (nodup_groupBy _ _) hgroup hgroup' (hkey.symm.trans hkey')]
  obtain ⟨row, hrow⟩ := List.exists_mem_of_ne_nil _ (keyed_groupBy _ _ group hgroup).1
  rw [promotedOf, if_pos (of_mem_promotedOf (hall row hrow)).2.2]
  exact List.filter_eq_self.mpr fun row hrow ↦ (of_mem_promotedOf (hall row hrow)).2.1

theorem rowsOf_promotedRows (py : Python) (service : Service) (hnumbered : Numbered rows) :
    (rowsOf (promotedRows py service rows)).Perm (rowsOf (doubledRows py service rows) ++
      ((showRows py rows).filter fun group ↦ !isKept py service rows group).flatMap
        fun group ↦ rowsOf group.2) := by
  have hsplit := rowsOf_filter_partition (showRows py rows) (isKept py service rows)
    (promotedOf py service (startShows py service rows))
  have hdropped : (((showRows py rows).filter fun group ↦ !isKept py service rows group).flatMap
      fun group ↦ rowsOf (promotedOf py service (startShows py service rows) group)) =
      ((showRows py rows).filter fun group ↦ !isKept py service rows group).flatMap
        fun group ↦ rowsOf group.2 := by
    refine List.flatMap_congr fun group hgroup ↦ ?_
    obtain ⟨hmem, hkept⟩ := List.mem_filter.mp hgroup
    rw [promotedOf_of_dropped hnumbered hmem (by simpa using hkept)]
  rw [hdropped, ← rowsOf_flatMap, ← rowsOf_flatMap, ← rowsOf_flatMap] at hsplit
  rw [← rowsOf_flatMap]
  exact hsplit.symm

theorem perm_of_parts {all plain promoted kept dropped doubled total shows : List ℕ}
    (hall : all.Perm (plain ++ (promoted ++ kept))) (hpromoted : promoted.Perm (doubled ++ dropped))
    (htotal : total.Perm (plain ++ shows)) (hshows : (kept ++ dropped).Perm shows) :
    all.Perm (total ++ doubled) := by
  refine List.perm_iff_count.mpr fun n ↦ ?_
  have hall := List.perm_iff_count.mp hall n
  have hpromoted := List.perm_iff_count.mp hpromoted n
  have htotal := List.perm_iff_count.mp htotal n
  have hshows := List.perm_iff_count.mp hshows n
  simp only [List.count_append] at hall hpromoted htotal hshows ⊢
  omega

theorem rowsOf_partition (py : Python) (rows : List Observation) : (rowsOf rows).Perm
    (rowsOf (rows.filter fun row ↦ !isShowRow row) ++
      (showRows py rows).flatMap fun group ↦ rowsOf group.2) := by
  have hshow : ((showRows py rows).flatMap fun group ↦ rowsOf group.2).Perm
      (rowsOf (rows.filter isShowRow)) := by
    rw [← rowsOf_flatMap]
    exact rowsOf_perm (groupBy_perm (showKey py) _)
  refine List.Perm.trans ?_ (hshow.symm.append_left _)
  rw [← rowsOf_append]
  exact rowsOf_perm ((List.filter_append_perm isShowRow rows).symm.trans List.perm_append_comm)

end accounts

section resolved

variable {observations : List Observation}

theorem sourceRows_resolveTitle (row : Observation) :
    (resolveTitle py service row).sourceRows = row.sourceRows ∧
      (resolveTitle py service row).watchedAt = row.watchedAt := by
  rw [resolveTitle]
  split
  · split_ifs
    · unfold TitleGroups.splitAt
      split <;> exact ⟨rfl, rfl⟩
    · exact ⟨rfl, rfl⟩
  · exact ⟨rfl, rfl⟩

theorem rowsOf_resolved (py : Python) (service : Service) (observations : List Observation) :
    rowsOf (observations.map (resolveTitle py service)) = rowsOf observations := by
  rw [rowsOf, List.flatMap_map]
  exact List.flatMap_congr fun row _ ↦ (sourceRows_resolveTitle row).1

theorem Numbered.resolved (h : Numbered observations) :
    Numbered (observations.map (resolveTitle py service)) where
  nodup := by
    rw [rowsOf_resolved]
    exact h.nodup
  ne_nil row hrow := by
    obtain ⟨row', hrow', rfl⟩ := List.mem_map.mp hrow
    rw [(sourceRows_resolveTitle row').1]
    exact h.ne_nil row' hrow'

theorem represents_promoted (h : row ∈ promotedRows py service rows) :
    Represents (mergeMovies (promotion py service rows).movies) row := by
  refine Represents.mergeMovies ?_
  obtain ⟨candidate, hmovie⟩ := Option.isSome_iff_exists.mp (promotedMovie_of_mem h)
  refine ⟨promotedItem py service row candidate, ?_, List.Subset.refl _, List.mem_singleton_self _⟩
  rw [(promoted_promotion py service rows).movies]
  exact List.mem_append_right _ (List.mem_filterMap.mpr ⟨row, h, by rw [hmovie]; rfl⟩)

theorem represents_kept (hgroup : group ∈ showRows py rows)
    (hkept : isKept py service rows group = true) (hrow : row ∈ group.2) :
    Represents (keptShows py service rows ++ leftItems py service rows) row := by
  cases hresolved : isResolved service group with
  | true =>
    obtain ⟨item, hitem, hcore⟩ := exists_keptShow hgroup hresolved hkept
    have hrows : item.sourceRows = rowsOf group.2 := congrArg (fun core ↦ core.2.2.1) hcore
    have hdates : item.dates = datesOf group.2 := congrArg (fun core ↦ core.2.2.2.1) hcore
    exact represents_group (List.mem_append_left _ hitem) hrows hdates hrow
  | false =>
    have hleft : group ∈ leftGroups py service rows :=
      List.mem_filter.mpr ⟨List.mem_filter.mpr ⟨hgroup, by simp [hresolved]⟩, hkept⟩
    have hitem := (perm_leftItems py service rows).mem_iff.mpr (List.mem_map_of_mem hleft)
    exact represents_group (List.mem_append_right _ hitem) rfl rfl hrow

theorem represents_plain (service : Service) (hgroup : group ∈ movieRows py rows) (hrow : row ∈ group.2) :
    Represents (mergeMovies (promotion py service rows).movies) row ∨
      Represents (unmatchedMovies py service rows) row := by
  cases hplain : plainMovie py service group with
  | true =>
    refine .inl (Represents.mergeMovies ?_)
    rw [(promoted_promotion py service rows).movies]
    have hitem := List.mem_map_of_mem (f := movieItem service)
      (List.mem_filter.mpr ⟨hgroup, hplain⟩)
    exact represents_group (List.mem_append_left _ hitem) rfl rfl hrow
  | false =>
    have hitem : ∃ item, plainUnmatched py service group = some item ∧
        item.sourceRows = rowsOf group.2 ∧ item.dates = datesOf group.2 := by
      rw [plainMovie, Bool.and_eq_false_iff] at hplain
      rw [plainUnmatched]
      split_ifs with hanonymous hcandidate
      · exact ⟨_, rfl, rfl, rfl⟩
      · simp [hanonymous, hcandidate] at hplain
      · exact ⟨_, rfl, rfl, rfl⟩
    obtain ⟨item, hitem, hrows, hdates⟩ := hitem
    exact .inr (represents_group (List.mem_filterMap.mpr ⟨group, hgroup, hitem⟩) hrows hdates hrow)

end resolved

theorem mem_promoted_or_kept {n : ℕ} :
    n ∈ rowsOf (promotedRows py service rows) ++
        ((showRows py rows).filter (isKept py service rows)).flatMap (fun group ↦ rowsOf group.2) ↔
      n ∈ (showRows py rows).flatMap fun group ↦ rowsOf group.2 := by
  rw [List.mem_append]
  constructor
  · rintro (hn | hn)
    · obtain ⟨row, hrow, hn⟩ := mem_rowsOf.mp hn
      obtain ⟨group, hgroup, hrow⟩ := mem_promotedRows.mp hrow
      exact List.mem_flatMap.mpr
        ⟨group, hgroup, mem_rowsOf.mpr ⟨row, (of_mem_promotedOf hrow).1, hn⟩⟩
    · obtain ⟨group, hgroup, hn⟩ := List.mem_flatMap.mp hn
      exact List.mem_flatMap.mpr ⟨group, (List.mem_filter.mp hgroup).1, hn⟩
  · intro hn
    obtain ⟨group, hgroup, hn⟩ := List.mem_flatMap.mp hn
    cases hkept : isKept py service rows group with
    | true => exact .inr (List.mem_flatMap.mpr ⟨group, List.mem_filter.mpr ⟨hgroup, hkept⟩, hn⟩)
    | false =>
      rw [isKept, Bool.not_eq_false', fullyPromoted, decide_eq_true_eq] at hkept
      exact .inl (hkept.2 n hn)

theorem Represents.mono {items items' : List Item} (h : Represents items row)
    (hsub : ∀ item ∈ items, item ∈ items') : Represents items' row := by
  obtain ⟨item, hitem, hrows, hdate⟩ := h
  exact ⟨item, hsub item hitem, hrows, hdate⟩

theorem represents_all (observations : List Observation)
    (hrows : rows = observations.map (resolveTitle py service)) (hnumbered : Numbered rows)
    (hrow : row ∈ rows) : Represents (prepareNetflixImport py service observations).all row := by
  rw [prepare_eq observations hrows, Prepared.all]
  cases hshow : isShowRow row with
  | true =>
    have hmem := (groupBy_perm (showKey py) (rows.filter isShowRow)).mem_iff.mpr
      (List.mem_filter.mpr ⟨hrow, hshow⟩)
    obtain ⟨group, hgroup, hmem⟩ := List.mem_flatMap.mp hmem
    cases hkept : isKept py service rows group with
    | true =>
      refine (represents_kept hgroup hkept hmem).mono fun item hitem ↦ ?_
      exact (List.mem_append.mp hitem).elim
        (fun h ↦ List.mem_append_left _ (List.mem_append_right _ h))
        fun h ↦ List.mem_append_right _ (List.mem_append_right _ h)
    | false =>
      rw [← promotedOf_of_dropped hnumbered hgroup hkept] at hmem
      exact (represents_promoted (mem_promotedRows.mpr ⟨group, hgroup, hmem⟩)).mono
        fun item hitem ↦ List.mem_append_left _ (List.mem_append_left _ hitem)
  | false =>
    have hmem := (groupBy_perm (movieKey py) (rows.filter fun row ↦ !isShowRow row)).mem_iff.mpr
      (List.mem_filter.mpr ⟨hrow, by rw [hshow]; rfl⟩)
    obtain ⟨group, hgroup, hmem⟩ := List.mem_flatMap.mp hmem
    obtain h | h := represents_plain service hgroup hmem
    · exact h.mono fun item hitem ↦ List.mem_append_left _ (List.mem_append_left _ hitem)
    · exact h.mono fun item hitem ↦ List.mem_append_right _ (List.mem_append_left _ hitem)

/-- No observation disappears from the prepared import: each is in one group of it, and in two
if it was promoted out of a group that stays for review. -/
structure Conserved (py : Python) (service : Service) (observations : List Observation) : Prop where
  rows : ∀ n, (∃ item ∈ (prepareNetflixImport py service observations).all, n ∈ item.sourceRows) ↔
    ∃ row ∈ observations, n ∈ row.sourceRows
  once : Numbered observations →
    ((prepareNetflixImport py service observations).all.flatMap Item.sourceRows).Perm
      (rowsOf observations ++
        rowsOf (doubledRows py service (observations.map (resolveTitle py service))))
  represented : Numbered observations → ∀ row ∈ observations,
    Represents (prepareNetflixImport py service observations).all row
  doubled : ∀ row ∈ doubledRows py service (observations.map (resolveTitle py service)),
    Represents (prepareNetflixImport py service observations).movies row ∧
      Represents ((prepareNetflixImport py service observations).shows ++
        (prepareNetflixImport py service observations).unmatched) row

theorem prepareNetflixImport_conserves (py : Python) (service : Service)
    (observations : List Observation) : Conserved py service observations := by
  generalize hrows : observations.map (resolveTitle py service) = rows
  have hperm := perm_all observations hrows.symm
  have hsame : rowsOf rows = rowsOf observations := by rw [← hrows, rowsOf_resolved]
  have hpartition := rowsOf_partition py rows
  have hgroups := rowsOf_filter_partition (showRows py rows) (isKept py service rows) Prod.snd
  refine ⟨fun n ↦ ?_, fun hnumbered ↦ ?_, fun hnumbered row hrow ↦ ?_, fun row hrow ↦ ?_⟩
  · have hitems : (∃ item ∈ (prepareNetflixImport py service observations).all,
        n ∈ item.sourceRows) ↔
        n ∈ (prepareNetflixImport py service observations).all.flatMap Item.sourceRows :=
      List.mem_flatMap.symm
    rw [hitems, ← mem_rowsOf, ← hsame, hperm.mem_iff, hpartition.mem_iff, List.mem_append,
      mem_promoted_or_kept, ← List.mem_append]
  · have hnumbered' : Numbered rows := hrows ▸ hnumbered.resolved
    have hpromoted := rowsOf_promotedRows py service hnumbered'
    rw [hrows, ← hsame]
    exact perm_of_parts hperm hpromoted hpartition hgroups
  · have hnumbered' : Numbered rows := hrows ▸ hnumbered.resolved
    have hresolved : resolveTitle py service row ∈ rows := hrows ▸ List.mem_map_of_mem hrow
    obtain ⟨item, hitem, hsub, hdate⟩ := represents_all observations hrows.symm hnumbered' hresolved
    rw [(sourceRows_resolveTitle row).1] at hsub
    rw [(sourceRows_resolveTitle row).2] at hdate
    exact ⟨item, hitem, hsub, hdate⟩
  · rw [hrows] at hrow
    obtain ⟨group, hgroup, hpromoted⟩ := List.mem_flatMap.mp hrow
    obtain ⟨hmem, hkept⟩ := List.mem_filter.mp hgroup
    rw [prepare_eq observations hrows.symm]
    refine ⟨represents_promoted (mem_promotedRows.mpr ⟨group, hmem, hpromoted⟩), ?_⟩
    refine (represents_kept hmem hkept (of_mem_promotedOf hpromoted).1).mono fun item hitem ↦ ?_
    exact (List.mem_append.mp hitem).elim (List.mem_append_left _)
      fun h ↦ List.mem_append_right _ (List.mem_append_right _ h)

section partial_promotion

def certainFilm : Candidate :=
  ⟨.movie, some 42, "Story: Movie".toList, none, none, [], none, [], true, 1, 0, 0, []⟩

/-- One whole title is a film, and nothing else is found. -/
def oneFilm : Service where
  search kind title := if kind = .movie ∧ title = "story movie".toList then [certainFilm] else []
  seasonNumber _ _ := none
  digest title := title
  evaluate _ _ _ := ⟨certainFilm, false, "low", "", [], []⟩

def colonRow (title : String) (row : ℕ) : Observation :=
  ⟨("Story: " ++ title).toList, "2024-05-01".toList, some "Story".toList, none, none,
    some title.toList, [row]⟩

/-- A film's row also stays in the review item of its show. -/
theorem prepareNetflixImport_doubles :
    (prepareNetflixImport plainPython oneFilm [colonRow "Movie" 2, colonRow "Other" 3]).all.map
      (fun item ↦ (item.kind, item.sourceRows)) = [(.movie, [2]), (.show, [2, 3])] := by
  decide +kernel

end partial_promotion

end AnyList.Imports.TitleGroups
