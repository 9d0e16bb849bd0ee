import AnyList.Backup.RestoredLists

namespace AnyList.Backup

section account

variable (found : Identity → Bool) (account : Account)

def Account.scored : List Rating := account.ratings.filter fun r ↦ r.rating.isSome

/-- Everything that can be seen of an account is there again. -/
structure Restores (restored : Restored) : Prop where
  ratings : (restored.ratings.map Rating.view).Perm (account.scored.map Rating.view)
  collection : (restored.collection.map Collected.view).Perm (account.collection.map Collected.view)
  lists : ((restored.lists.filter fun lst ↦ !lst.isWatchlist).map MediaList.view).Perm
    ((customLists account.lists).map fun row ↦ row.2.view)
  watchlist : ∀ v, v ∈ watchViews restored.lists ↔ v ∈ watchViews (account.lists.map Prod.snd)
  comments : (restored.comments.map Comment.view).Perm (account.comments.map Comment.view)

structure Recoverable : Prop where
  ratings : ∀ v ∈ account.scored.map Rating.view, RatingKept found v
  ratedOnce : ((account.scored.map Rating.view).map RatingView.name).Nodup
  collection : ∀ v ∈ account.collection.map Collected.view, CollectedKept found v
  collectedOnce : ((account.collection.map Collected.view).map Prod.fst).Nodup
  lists : CustomListsKept found account.lists
  named : ∀ row ∈ customLists account.lists, row.2.name ≠ ""
  names : ((customLists account.lists).map fun row ↦ row.2.name).Nodup
  watchlistName : watchViews (account.lists.map Prod.snd) ≠ [] →
    ∀ row ∈ customLists account.lists, row.2.name ≠ "Watchlist"
  watchlist : ∀ v ∈ watchViews (account.lists.map Prod.snd), ItemKept found v
  comments : ∀ c ∈ account.comments.map Comment.view, CommentKept c
  commentedOnce : ((account.comments.map Comment.view).map Comment.key).Nodup

/-- No file of an archive is too large to be read, nor are all of them together. -/
def Readable (entrySizes : Archive → List ℕ) (archive : Archive) : Prop :=
  (∀ size ∈ entrySizes archive, size ≤ maxEntrySize) ∧ (entrySizes archive).sum ≤ maxTotalSize

instance decidableReadable (entrySizes : Archive → List ℕ) (archive : Archive) :
    Decidable (Readable entrySizes archive) :=
  inferInstanceAs (Decidable (_ ∧ _))

variable {found account} {now : Int}

theorem watchlistItems_eq_nil {lists : List (ℕ × MediaList)}
    (h : ∀ v ∈ watchViews (lists.map Prod.snd), ItemKept found v) :
    watchlistItems lists = [] ↔ watchViews (lists.map Prod.snd) = [] := by
  have hentries : (watchlistItems lists).filterMap (ListEntry.resolve found 0) =
      (watchRows lists).filterMap (ListItem.survive found 0) := filterMap_watchlistItems
  rw [watchViews_rows] at h ⊢
  constructor
  · intro hnil
    rw [hnil, List.filterMap_nil, eq_comm, List.filterMap_eq_nil_iff] at hentries
    refine List.eq_nil_iff_forall_not_mem.mpr fun v hv ↦ ?_
    obtain ⟨row, hrow, rfl⟩ := List.mem_map.mp hv
    obtain ⟨item, hsurvive, -⟩ : ∃ item, row.survive found 0 = some item ∧
        item.view = row.view := survive_of_itemKept row (h _ hv)
    rw [hentries row hrow] at hsurvive
    exact absurd hsurvive (by simp)
  · intro hnil
    have hrows : watchRows lists = [] := List.map_eq_nil_iff.mp hnil
    rw [watchRows, List.flatMap_eq_nil_iff] at hrows
    rw [watchlistItems, List.flatMap_eq_nil_iff]
    intro row hrow
    rw [MediaList.entries, listEntries, hrows row hrow]
    rfl

theorem namesApart_iff {lists : List (ℕ × MediaList)}
    (h : ∀ v ∈ watchViews (lists.map Prod.snd), ItemKept found v) :
    NamesApart found now lists ↔
      (∀ row ∈ customLists lists, row.2.name ≠ "") ∧
        ((customLists lists).map fun row ↦ row.2.name).Nodup ∧
        (watchViews (lists.map Prod.snd) ≠ [] →
          ∀ row ∈ customLists lists, row.2.name ≠ "Watchlist") := by
  have hempty : (watchlistItems lists).isEmpty = true ↔ watchViews (lists.map Prod.snd) = [] :=
    List.isEmpty_iff.trans (watchlistItems_eq_nil h)
  rw [NamesApart, restoredWatchlist_eq]
  by_cases hnil : watchViews (lists.map Prod.snd) = []
  · rw [if_pos (hempty.mpr hnil)]
    simp [hnil]
  · rw [if_neg (fun h ↦ hnil (hempty.mp h))]
    simp only [newWatchlist, List.map_cons, List.map_nil, List.cons_append, List.nil_append,
      List.nodup_cons, List.mem_map, not_exists, not_and, ne_eq, hnil, not_false_eq_true,
      forall_const]
    tauto

/-- What an import reads in the backup of an account. -/
def backupData (account : Account) : ScrobImportData where
  ratings := buildRatings account.ratings
  collectionMovies := (buildCollection account.collection).1
  collectionEpisodes := (buildCollection account.collection).2
  watchlist := watchlistItems account.lists
  lists := metasOf account.lists
  listItems := readItems account.lists
  comments := buildComments account.comments

theorem parse_buildExportZip (entrySizes : Archive → List ℕ) (data : ScrobImportData) :
    parseScrobExport entrySizes (buildExportZip account) = some data ↔
      Readable entrySizes (buildExportZip account) ∧ backupData account = data := by
  have hreadable : ((entrySizes (buildExportZip account)).all
      (fun size ↦ decide (size ≤ maxEntrySize)) &&
        decide ((entrySizes (buildExportZip account)).sum ≤ maxTotalSize)) = true ↔
      Readable entrySizes (buildExportZip account) := by
    rw [Bool.and_eq_true, List.all_eq_true, decide_eq_true_eq]
    simp only [decide_eq_true_eq]
    rfl
  have hcontents : parseScrobExport entrySizes (buildExportZip account) =
      if Readable entrySizes (buildExportZip account) then some (backupData account) else none := by
    rw [parseScrobExport]
    simp only [hreadable]
    simp only [buildExportZip, flatten_collectionChunks]
    rfl
  rw [hcontents]
  split <;> simp_all

theorem restores_iff :
    Restores account (applyScrobImport found now (backupData account)) ↔
      Recoverable found account := by
  constructor
  · rintro ⟨hratings, hcollection, hlists, hwatchlist, hcomments⟩
    obtain ⟨hrated, hratedOnce⟩ := (ratings_restored_iff account.ratings).mp hratings
    obtain ⟨hcollected, hcollectedOnce⟩ := (collection_restored_iff account.collection).mp hcollection
    obtain ⟨hapart, hcustom⟩ := (custom_restored_iff account.nodup).mp hlists
    have hwatch := (watchlist_restored_iff hapart).mp hwatchlist
    obtain ⟨hnamed, hnames, hname⟩ := (namesApart_iff hwatch).mp hapart
    obtain ⟨hcommented, hcommentedOnce⟩ := (comments_restored_iff account.comments).mp hcomments
    exact ⟨hrated, hratedOnce, hcollected, hcollectedOnce, hcustom, hnamed, hnames, hname, hwatch,
      hcommented, hcommentedOnce⟩
  · intro h
    have hapart : NamesApart found now account.lists :=
      (namesApart_iff h.watchlist).mpr ⟨h.named, h.names, h.watchlistName⟩
    exact ⟨(ratings_restored_iff account.ratings).mpr ⟨h.ratings, h.ratedOnce⟩,
      (collection_restored_iff account.collection).mpr ⟨h.collection, h.collectedOnce⟩,
      (custom_restored_iff account.nodup).mpr ⟨hapart, h.lists⟩,
      (watchlist_restored_iff hapart).mpr h.watchlist,
      (comments_restored_iff account.comments).mpr ⟨h.comments, h.commentedOnce⟩⟩

end account

/-- Two lists of one movie each, whose names differ in punctuation only. -/
def punctuatedLists : Account where
  ratings := []
  collection := []
  lists := [(1, ⟨"Sci-Fi", none, .privateLevel, none, none,
      [⟨⟨.movie, some 603, none, none, none⟩, none, 0, 0, none⟩]⟩),
    (2, ⟨"Sci Fi!", none, .privateLevel, none, none,
      [⟨⟨.movie, some 604, none, none, none⟩, none, 0, 0, none⟩]⟩)]
  comments := []
  nodup := by decide

end AnyList.Backup
