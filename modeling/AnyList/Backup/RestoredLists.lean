import AnyList.Backup.RestoredAccount

namespace AnyList.Backup

open AnyList.Library AnyList.Library.KeyedInserts

section items

variable (found : Identity → Bool)

def ListItem.view (item : ListItem) : Option Identity × Option Int :=
  (item.media.title, item.seasonNumber)

/-- A list keeps the movies and series that the catalogue finds, but not single seasons. -/
def ItemKept (v : Option Identity × Option Int) : Prop :=
  ∃ i, v = (some i, none) ∧ found i = true ∧ i.isEpisode = false

variable (now : Int)

def ListItem.survive (item : ListItem) : Option ListItem :=
  ((item.media.title.filter fun i ↦ !i.isEpisode).filter found).map fun i ↦
    ⟨i.media, none, now, 0, none⟩

variable {found now}

theorem itemKept_of_survive (item restored : ListItem) (h : item.survive found now = some restored) :
    ItemKept found restored.view := by
  obtain ⟨i, hi, rfl⟩ := Option.map_eq_some_iff.mp h
  obtain ⟨htitle, hfound, hepisode⟩ := title_filter_found.mp hi
  exact ⟨i, by rw [ListItem.view, title_media htitle], hfound, by simpa using hepisode⟩

theorem survive_of_itemKept (item : ListItem) (h : ItemKept found item.view) :
    ∃ restored, item.survive found now = some restored ∧ restored.view = item.view := by
  obtain ⟨i, hview, hfound, hepisode⟩ := h
  have htitle : item.media.title = some i := congrArg Prod.fst hview
  refine ⟨⟨i.media, none, now, 0, none⟩, Option.map_eq_some_iff.mpr ⟨i, ?_, rfl⟩, ?_⟩
  · exact title_filter_found.mpr ⟨htitle, hfound, by simpa using hepisode⟩
  · rw [hview, ListItem.view, title_media htitle]

theorem filterMap_listEntries (items : List ListItem) :
    (listEntries items).filterMap (ListEntry.resolve found now) =
      (inOrder items).filterMap (ListItem.survive found now) := by
  rw [listEntries, List.filterMap_filterMap]
  have hfst : inOrder items = ((inOrder items).zipIdx 1).map Prod.fst := by simp
  conv_rhs => rw [hfst, List.filterMap_map]
  refine List.filterMap_congr fun row _ ↦ ?_
  rw [Function.comp_apply, ListItem.survive, ← listTarget_identity]
  cases listTarget row.1.media <;> rfl

/-- An import puts the items of a list in the order in which it adds them. -/
theorem inOrder_addItems (entries : List ListEntry) :
    inOrder (addItems found now [] entries) = addItems found now [] entries := by
  have hzero : ∀ item ∈ addItems found now [] entries, item.sortOrder = 0 := by
    refine forall_foldl_insertWith ?_ (fun _ _ h ↦ h) (by simp)
    intro item hitem
    obtain ⟨entry, -, hresolve⟩ := List.mem_filterMap.mp hitem
    obtain ⟨i, -, rfl⟩ := Option.map_eq_some_iff.mp hresolve
    rfl
  refine List.mergeSort_of_pairwise (List.pairwise_of_forall_mem_list fun a ha b hb ↦ ?_)
  simp [hzero a ha, hzero b hb]

def viewsOf (items : List ListItem) : List (Option Identity × Option Int) :=
  (inOrder items).map ListItem.view

theorem items_restored_iff (items : List ListItem) :
    viewsOf (addItems found now [] (listEntries items)) = viewsOf items ↔
      (∀ v ∈ viewsOf items, ItemKept found v) ∧ ((viewsOf items).map Prod.fst).Nodup := by
  have hfold : addItems found now [] (listEntries items) =
      ((inOrder items).filterMap (ListItem.survive found now)).foldl
        (insertWith (Prod.fst ∘ ListItem.view) id fun item _ ↦ item) [] := by
    rw [addItems, filterMap_listEntries]
    rfl
  rw [viewsOf, inOrder_addItems, hfold, viewsOf, List.forall_mem_map]
  exact eq_iff itemKept_of_survive survive_of_itemKept

end items

section lists

variable {found : Identity → Bool} {now : Int} {lists : List (ℕ × MediaList)}

def MediaList.view (lst : MediaList) : String × List (Option Identity × Option Int) :=
  (lst.name, viewsOf lst.items)

def watchViews (lists : List MediaList) : List (Option Identity × Option Int) :=
  (lists.filter MediaList.isWatchlist).flatMap fun lst ↦ viewsOf lst.items

def metasOf (lists : List (ℕ × MediaList)) : List ListMeta := (customLists lists).map listMeta

def readItems (lists : List (ℕ × MediaList)) : Dict (List Char) (List ListEntry) :=
  readListItems (metasOf lists) (listFiles lists)

def restoredWatchlist (found : Identity → Bool) (now : Int) (lists : List (ℕ × MediaList)) :
    List MediaList :=
  importWatchlist found now [] (watchlistItems lists)

def restoredLists (found : Identity → Bool) (now : Int) (lists : List (ℕ × MediaList)) :
    List MediaList :=
  importLists found now (readItems lists) (restoredWatchlist found now lists) (metasOf lists)

theorem restoredWatchlist_eq :
    restoredWatchlist found now lists =
      if (watchlistItems lists).isEmpty then []
      else [{ newWatchlist with items := addItems found now [] (watchlistItems lists) }] := by
  simp [restoredWatchlist, importWatchlist]

theorem isWatchlist_newList (m : ListMeta) : (newList found now (readItems lists) m).isWatchlist =
    false := by
  simp [newList, MediaList.isWatchlist]

theorem isWatchlist_extendList (lst : MediaList) (m : ListMeta) :
    (extendList found now (readItems lists) lst m).isWatchlist = lst.isWatchlist := rfl

theorem filter_restoredWatchlist :
    (restoredWatchlist found now lists).filter (fun lst ↦ !lst.isWatchlist) = [] := by
  rw [restoredWatchlist_eq]
  split <;> rfl

/-- The lists of an account where every name counts once. -/
def NamesApart (found : Identity → Bool) (now : Int) (lists : List (ℕ × MediaList)) : Prop :=
  (∀ row ∈ customLists lists, row.2.name ≠ "") ∧
    ((restoredWatchlist found now lists).map MediaList.name ++
      (customLists lists).map fun row ↦ row.2.name).Nodup

theorem map_name_newList (metas : List ListMeta) :
    (metas.map (newList found now (readItems lists))).map MediaList.name =
      metas.map ListMeta.name := by
  rw [List.map_map]
  rfl

theorem restoredLists_of_namesApart (h : NamesApart found now lists) :
    restoredLists found now lists = restoredWatchlist found now lists ++
      (metasOf lists).map (newList found now (readItems lists)) := by
  have hnamed : (metasOf lists).filter (fun m ↦ m.name ≠ "") = metasOf lists := by
    refine List.filter_eq_self.mpr fun m hm ↦ ?_
    obtain ⟨row, hrow, rfl⟩ := List.mem_map.mp hm
    exact decide_eq_true (h.1 row hrow)
  rw [restoredLists, importLists, hnamed]
  refine foldl_insertWith_of_nodup ?_
  rw [List.map_append, map_name_newList, metasOf, List.map_map]
  exact h.2

/-- As many lists come back as there were only if every name counts once. -/
theorem namesApart_of_length
    (h : ((restoredLists found now lists).filter fun lst ↦ !lst.isWatchlist).length =
      (customLists lists).length) : NamesApart found now lists := by
  have hkeep : ∀ (lst : MediaList) (m : ListMeta),
      (!(extendList found now (readItems lists) lst m).isWatchlist) = !lst.isWatchlist :=
    fun _ _ ↦ rfl
  have hle : ((restoredLists found now lists).filter fun lst ↦ !lst.isWatchlist).length ≤
      ((restoredWatchlist found now lists).filter fun lst ↦ !lst.isWatchlist).length +
        ((metasOf lists).filter fun m ↦ m.name ≠ "").length :=
    length_filter_foldl_insertWith hkeep
  rw [h, filter_restoredWatchlist, List.length_nil, Nat.zero_add] at hle
  have hmetas : (metasOf lists).length = (customLists lists).length := List.length_map _
  have hall : (metasOf lists).filter (fun m ↦ m.name ≠ "") = metasOf lists :=
    List.filter_sublist.eq_of_length_le (by omega)
  have hnamed : ∀ row ∈ customLists lists, row.2.name ≠ "" := fun row hrow ↦
    of_decide_eq_true (List.filter_eq_self.mp hall (listMeta row) (List.mem_map_of_mem hrow))
  have hwatchlist : ((restoredWatchlist found now lists).map MediaList.name).Nodup := by
    rw [restoredWatchlist_eq]
    split <;> simp
  have hnodup : ((restoredWatchlist found now lists ++
      (metasOf lists).map (newList found now (readItems lists))).map MediaList.name).Nodup := by
    refine nodup_of_length_filter_foldl (p := fun lst ↦ !lst.isWatchlist) hkeep hwatchlist ?_
    rw [filter_restoredWatchlist, List.length_nil, Nat.zero_add, hmetas, ← h, restoredLists,
      importLists, hall]
  rw [List.map_append, map_name_newList, metasOf, List.map_map] at hnodup
  exact ⟨hnamed, hnodup⟩

theorem filter_of_namesApart (h : NamesApart found now lists) :
    (restoredLists found now lists).filter (fun lst ↦ !lst.isWatchlist) =
      (metasOf lists).map (newList found now (readItems lists)) := by
  rw [restoredLists_of_namesApart h, List.filter_append, filter_restoredWatchlist, List.nil_append]
  refine List.filter_eq_self.mpr fun lst hlst ↦ ?_
  obtain ⟨m, -, rfl⟩ := List.mem_map.mp hlst
  rw [isWatchlist_newList]
  rfl

/-- A list gets the items of one list of its slug. -/
theorem exists_entriesOf (hids : (lists.map Prod.fst).Nodup) {row : ℕ × MediaList}
    (hrow : row ∈ customLists lists) :
    ∃ row' ∈ customLists lists, row'.2.slug = row.2.slug ∧
      ∀ row'' : ℕ × MediaList, row''.2.slug = row.2.slug →
        entriesOf (readItems lists) (listMeta row'') = row'.2.entries := by
  obtain ⟨row', hrow', hslug, hget⟩ := exists_listItemsBySlug hrow
  refine ⟨row', hrow', hslug, fun row'' hslug'' ↦ ?_⟩
  have hread : (readItems lists).get row''.2.slug = some row'.2.entries := by
    rw [hslug'', ← hget]
    exact get_readListItems hids hrow
  rw [entriesOf, listMeta, hread, Option.getD_some]

structure CustomListsKept (found : Identity → Bool) (lists : List (ℕ × MediaList)) : Prop where
  items : ∀ row ∈ customLists lists, ∀ v ∈ viewsOf row.2.items, ItemKept found v
  once : ∀ row ∈ customLists lists, ((viewsOf row.2.items).map Prod.fst).Nodup
  slugs : ∀ row ∈ customLists lists, ∀ row' ∈ customLists lists, row.2.slug = row'.2.slug →
    viewsOf row.2.items = viewsOf row'.2.items

theorem items_newList_iff (hids : (lists.map Prod.fst).Nodup) :
    (∀ row ∈ customLists lists,
        viewsOf (newList found now (readItems lists) (listMeta row)).items =
          viewsOf row.2.items) ↔ CustomListsKept found lists := by
  have hitems (row row' : ℕ × MediaList)
      (h : entriesOf (readItems lists) (listMeta row) = row'.2.entries) :
      (newList found now (readItems lists) (listMeta row)).items =
        addItems found now [] (listEntries row'.2.items) := by
    rw [newList, h]
    rfl
  constructor
  · intro h
    have hrep (row : ℕ × MediaList) (hrow : row ∈ customLists lists) :
        ∃ row' ∈ customLists lists, viewsOf row.2.items = viewsOf row'.2.items ∧
          ((∀ v ∈ viewsOf row'.2.items, ItemKept found v) ∧
            ((viewsOf row'.2.items).map Prod.fst).Nodup) := by
      obtain ⟨row', hrow', hslug, hentries⟩ := exists_entriesOf hids hrow
      have hown := h row' hrow'
      have hshared := h row hrow
      rw [hitems row' row' (hentries row' hslug)] at hown
      rw [hitems row row' (hentries row rfl), hown] at hshared
      exact ⟨row', hrow', hshared.symm, (items_restored_iff _).mp hown⟩
    refine ⟨fun row hrow ↦ ?_, fun row hrow ↦ ?_, fun row hrow row' hrow' hslug ↦ ?_⟩
    · obtain ⟨row', -, hviews, hkept, -⟩ := hrep row hrow
      exact hviews ▸ hkept
    · obtain ⟨row', -, hviews, -, hnodup⟩ := hrep row hrow
      exact hviews ▸ hnodup
    · obtain ⟨rep, -, -, hentries⟩ := exists_entriesOf hids hrow
      rw [← h row hrow, ← h row' hrow', hitems row rep (hentries row rfl),
        hitems row' rep (hentries row' hslug.symm)]
  · intro h row hrow
    obtain ⟨row', hrow', hslug, hentries⟩ := exists_entriesOf hids hrow
    rw [hitems row row' (hentries row rfl),
      (items_restored_iff _).mpr ⟨h.items row' hrow', h.once row' hrow'⟩]
    exact h.slugs row' hrow' row hrow hslug

theorem custom_restored_iff (hids : (lists.map Prod.fst).Nodup) :
    (((restoredLists found now lists).filter fun lst ↦ !lst.isWatchlist).map MediaList.view).Perm
        ((customLists lists).map fun row ↦ row.2.view) ↔
      NamesApart found now lists ∧ CustomListsKept found lists := by
  rw [← items_newList_iff hids]
  constructor
  · intro h
    have hnames : NamesApart found now lists := by
      apply namesApart_of_length
      simpa using h.length_eq
    refine ⟨hnames, fun row hrow ↦ ?_⟩
    have hnodup : ((customLists lists).map fun row ↦ row.2.name).Nodup :=
      (List.nodup_append.mp hnames.2).2.1
    rw [filter_of_namesApart hnames] at h
    have hmem : (newList found now (readItems lists) (listMeta row)).view ∈
        (customLists lists).map fun row ↦ row.2.view :=
      h.mem_iff.mp (List.mem_map_of_mem (List.mem_map_of_mem (List.mem_map_of_mem hrow)))
    obtain ⟨row', hrow', hview⟩ := List.mem_map.mp hmem
    obtain rfl : row' = row :=
      List.inj_on_of_nodup_map hnodup hrow' hrow (congrArg Prod.fst hview)
    exact (congrArg Prod.snd hview).symm
  · rintro ⟨hnames, hitems⟩
    rw [filter_of_namesApart hnames, metasOf, List.map_map, List.map_map]
    refine .of_eq (List.map_congr_left fun row hrow ↦ ?_)
    exact Prod.ext rfl (hitems row hrow)

end lists

section watchlist

variable {found : Identity → Bool} {now : Int} {lists : List (ℕ × MediaList)}

theorem watchViews_of_namesApart (h : NamesApart found now lists) :
    watchViews (restoredLists found now lists) =
      viewsOf (addItems found now [] (watchlistItems lists)) := by
  have hnone : ((metasOf lists).map (newList found now (readItems lists))).filter
      MediaList.isWatchlist = [] := by
    refine List.filter_eq_nil_iff.mpr fun lst hlst ↦ ?_
    obtain ⟨m, -, rfl⟩ := List.mem_map.mp hlst
    simp [isWatchlist_newList]
  rw [watchViews, restoredLists_of_namesApart h, List.filter_append, hnone, List.append_nil,
    restoredWatchlist_eq]
  split
  · next hempty =>
    rw [List.isEmpty_iff.mp hempty]
    simp [viewsOf, addItems, inOrder]
  · have hwatch : MediaList.isWatchlist
        { newWatchlist with items := addItems found now [] (watchlistItems lists) } = true := by
      simp [MediaList.isWatchlist, newWatchlist, watchlistSlug, watchlistSlugs]
    rw [List.filter_cons_of_pos hwatch]
    simp

theorem filterMap_watchlistItems :
    (watchlistItems lists).filterMap (ListEntry.resolve found now) =
      ((lists.filter fun row ↦ row.2.isWatchlist).flatMap fun row ↦
        inOrder row.2.items).filterMap (ListItem.survive found now) := by
  rw [watchlistItems, List.filterMap_flatMap, List.filterMap_flatMap]
  refine List.flatMap_congr fun row _ ↦ ?_
  exact filterMap_listEntries row.2.items

def watchRows (lists : List (ℕ × MediaList)) : List ListItem :=
  (lists.filter fun row ↦ row.2.isWatchlist).flatMap fun row ↦ inOrder row.2.items

theorem watchViews_rows :
    watchViews (lists.map Prod.snd) = (watchRows lists).map ListItem.view := by
  rw [watchViews, watchRows, List.filter_map, List.flatMap_map, List.map_flatMap]
  rfl

/-- The watchlist holds the titles that were on it if and only if the catalogue finds each of them. -/
theorem watchlist_restored_iff (h : NamesApart found now lists) :
    (∀ v, v ∈ watchViews (restoredLists found now lists) ↔ v ∈ watchViews (lists.map Prod.snd)) ↔
      ∀ v ∈ watchViews (lists.map Prod.snd), ItemKept found v := by
  have hviews : watchViews (restoredLists found now lists) =
      (addItems found now [] (watchlistItems lists)).map ListItem.view := by
    rw [watchViews_of_namesApart h, viewsOf, inOrder_addItems]
  have hrows : addItems found now [] (watchlistItems lists) =
      ((watchRows lists).filterMap (ListItem.survive found now)).foldl
        (insertWith (fun item ↦ item.media.title) id fun item _ ↦ item) [] := by
    rw [addItems, filterMap_watchlistItems]
    rfl
  have hkept : ∀ item ∈ addItems found now [] (watchlistItems lists),
      ∃ row ∈ watchRows lists, row.survive found now = some item := by
    rw [hrows]
    refine forall_foldl_insertWith (fun item hitem ↦ ?_) (fun _ _ h ↦ h) (by simp)
    exact List.mem_filterMap.mp hitem
  rw [hviews, watchViews_rows]
  constructor
  · intro hsame v hv
    obtain ⟨item, hitem, rfl⟩ := List.mem_map.mp ((hsame v).mpr hv)
    obtain ⟨row, -, hsurvive⟩ := hkept item hitem
    exact itemKept_of_survive row item hsurvive
  · intro hall v
    constructor
    · intro hv
      obtain ⟨item, hitem, rfl⟩ := List.mem_map.mp hv
      obtain ⟨row, hrow, hsurvive⟩ := hkept item hitem
      obtain ⟨item', hsurvive', hview⟩ : ∃ item', row.survive found now = some item' ∧
          item'.view = row.view := survive_of_itemKept row (hall _ (List.mem_map_of_mem hrow))
      obtain rfl : item = item' := Option.some.inj (hsurvive.symm.trans hsurvive')
      exact hview ▸ List.mem_map_of_mem hrow
    · intro hv
      obtain ⟨row, hrow, rfl⟩ := List.mem_map.mp hv
      obtain ⟨i, hrowView, -, -⟩ := hall _ (List.mem_map_of_mem hrow)
      obtain ⟨item, hsurvive, hview⟩ : ∃ item, row.survive found now = some item ∧
          item.view = row.view := survive_of_itemKept row (hall _ (List.mem_map_of_mem hrow))
      have hkey : item.media.title ∈ (addItems found now [] (watchlistItems lists)).map
          fun item ↦ item.media.title := by
        rw [hrows]
        refine key_mem_foldl_insertWith (fun _ _ ↦ rfl) (.inr ?_)
        rw [List.map_id]
        exact List.mem_map_of_mem (List.mem_filterMap.mpr ⟨row, hrow, hsurvive⟩)
      obtain ⟨other, hother, htitle⟩ := List.mem_map.mp hkey
      obtain ⟨row', -, hsurvive'⟩ := hkept other hother
      obtain ⟨j, hotherView, -, -⟩ := itemKept_of_survive row' other hsurvive'
      -- whatever is kept is known by its title
      have hsame : other.view = row.view := by
        have hj : some j = some i :=
          (congrArg Prod.fst hotherView).symm.trans
            (htitle.trans (congrArg Prod.fst (hview.trans hrowView)))
        rw [hotherView, hrowView, hj]
      exact hsame ▸ List.mem_map_of_mem hother

end watchlist

end AnyList.Backup
