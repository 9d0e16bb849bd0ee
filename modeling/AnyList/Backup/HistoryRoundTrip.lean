import AnyList.Backup.RestoredHistory

namespace AnyList.Backup

open AnyList.Timestamps AnyList.Imports AnyList.Library
open AnyList.Reconciliation.Watches (dedupWindowMinutes dedupWindowMinutes_ne_zero Apart)

namespace Identity

def isMovie : Identity → Bool
  | movie _ => true
  | series _ => false
  | episode _ _ _ => false

end Identity

variable (window : ℕ) (now : Int) (found : Identity → Bool)

def Media.identity (media : Media) : Option Identity :=
  (media.target.bind Target.identity).filter found

/-- The plays of a title, in the order of the rows. -/
def titlePlays (rows : List (Play × Media)) (i : Identity) : List Play :=
  (rows.filter fun row ↦ decide (row.2.identity found = some i)).map Prod.fst

/-- What a history says of the plays of a title. -/
def titleRecords (history : List HistoryEntry) (i : Identity) : List Record :=
  (history.filter fun entry ↦ decide (entry.title found = some i)).map
    fun entry ↦ (entry.watchedAt, entry.dateInferred)

variable {window now found}

theorem isMovie_of_title {entry : HistoryEntry} {i : Identity} (h : entry.title found = some i) :
    entry.isMovie = i.isMovie := by
  obtain ⟨watchedAt, inferred, target⟩ := entry
  simp only [HistoryEntry.title, Option.filter_eq_some_iff] at h
  cases target <;>
    simp only [Target.identity, Option.map_eq_some_iff] at h <;>
    obtain ⟨⟨id, -, rfl⟩, -⟩ := h <;> rfl

/-- Movies and episodes are never one title, so that a title's entries keep their order. -/
theorem titleRecords_movies_episodes (history : List HistoryEntry) (i : Identity) :
    titleRecords found (history.filter HistoryEntry.isMovie ++
      history.filter fun entry ↦ !entry.isMovie) i = titleRecords found history i := by
  have hfilter : (history.filter HistoryEntry.isMovie ++
      history.filter fun entry ↦ !entry.isMovie).filter
        (fun entry ↦ decide (entry.title found = some i)) =
      history.filter fun entry ↦ decide (entry.title found = some i) := by
    rw [List.filter_append, List.filter_filter, List.filter_filter]
    cases hkind : i.isMovie with
    | true =>
      have hnone : (history.filter fun entry ↦
          decide (entry.title found = some i) && !entry.isMovie) = [] := by
        refine List.filter_eq_nil_iff.mpr fun entry _ h ↦ ?_
        simp only [Bool.and_eq_true, decide_eq_true_eq, Bool.not_eq_true'] at h
        simp [isMovie_of_title h.1, hkind] at h
      rw [hnone, List.append_nil]
      refine List.filter_congr fun entry _ ↦ ?_
      by_cases htitle : entry.title found = some i
      · simp [htitle, isMovie_of_title htitle, hkind]
      · simp [htitle]
    | false =>
      have hnone : (history.filter fun entry ↦
          decide (entry.title found = some i) && entry.isMovie) = [] := by
        refine List.filter_eq_nil_iff.mpr fun entry _ h ↦ ?_
        simp only [Bool.and_eq_true, decide_eq_true_eq] at h
        simp [isMovie_of_title h.1, hkind] at h
      rw [hnone, List.nil_append]
      refine List.filter_congr fun entry _ ↦ ?_
      by_cases htitle : entry.title found = some i
      · simp [htitle, isMovie_of_title htitle, hkind]
      · simp [htitle]
  rw [titleRecords, hfilter, titleRecords]

theorem filter_titles (entries : List HistoryEntry) (i : Identity) :
    (entries.filterMap fun entry ↦ (entry.title found).map fun i ↦ (i, entry)).filter
        (fun entry ↦ decide (entry.1 = i)) =
      (entries.filter fun entry ↦ decide (entry.title found = some i)).map
        fun entry ↦ (i, entry) := by
  induction entries with
  | nil => rfl
  | cons entry entries ih =>
    cases htitle : entry.title found with
    | none => simp [htitle, ih]
    | some j =>
      by_cases hj : j = i
      · subst hj
        simp [htitle, ih]
      · simp [htitle, ih, hj]

theorem importEntries_eq (titles : Identity → TitleState)
    (entries : List (Identity × HistoryEntry)) (i : Identity) :
    importEntries window now titles entries i =
      (entries.filter fun entry ↦ decide (entry.1 = i)).foldl
        (fun s entry ↦ importPlay window now s entry.2.watchedAt entry.2.dateInferred) (titles i) :=
  LocalFold.foldl_update Prod.fst
    (fun (s : TitleState) (entry : Identity × HistoryEntry) ↦
      importPlay window now s entry.2.watchedAt entry.2.dateInferred) entries titles i

/-- Every title is imported on its own. -/
theorem importHistory_eq (history : List HistoryEntry) (plays : Identity → List Play)
    (i : Identity) :
    importHistory window now found history plays i =
      ((titleRecords found history i).foldl (importRecord window now) (.load (plays i))).plays := by
  rw [← titleRecords_movies_episodes]
  simp only [importHistory]
  rw [importEntries_eq, filter_titles, titleRecords, List.foldl_map, List.foldl_map]
  rfl

theorem titleRecords_buildHistory (rows : List (Play × Media)) (i : Identity) :
    titleRecords found (buildHistory rows) i =
      (titlePlays found (chronological rows) i).map record := by
  rw [buildHistory]
  induction chronological rows with
  | nil => rfl
  | cons row rows ih =>
    unfold titleRecords titlePlays at ih ⊢
    cases htarget : row.2.target with
    | none => simp [historyEntry, htarget, Media.identity, ih]
    | some target =>
      have htitle : (HistoryEntry.mk (row.1.watchedAt.map toSecond) row.1.dateInferred
          target).title found = row.2.identity found := by
        simp [HistoryEntry.title, Media.identity, htarget]
      by_cases hi : row.2.identity found = some i
      · simp [historyEntry, htarget, htitle, hi, ih, record]
      · simp [historyEntry, htarget, htitle, hi, ih]

theorem titlePlays_chronological (rows : List (Play × Media)) (i : Identity) :
    (titlePlays found (chronological rows) i).Perm
      ((titlePlays found rows i).filter Play.completed) := by
  have hrows : (chronological rows).Perm (rows.filter fun row ↦ row.1.completed) :=
    List.mergeSort_perm _ _
  refine ((hrows.filter _).map Prod.fst).trans (.of_eq ?_)
  rw [titlePlays, List.filter_map, List.filter_filter, List.filter_filter]
  congr 1
  refine List.filter_congr fun row _ ↦ ?_
  simp [Bool.and_comm]

theorem map_record_added {records : List Record} (hdated : ∀ r ∈ records, r.1 ≠ none)
    (hwhole : ∀ r ∈ records, ∀ t, r.1 = some t → toSecond t = t) :
    (added now records).plays.map record = records := by
  rw [added, List.map_map]
  refine (List.map_congr_left fun r hr ↦ ?_).trans (List.map_id records)
  obtain ⟨t, ht⟩ := Option.ne_none_iff_exists'.mp (hdated r hr)
  obtain ⟨date, inferred⟩ := r
  obtain rfl : date = some t := ht
  simp [record, Record.play, restoredPlay, hwhole _ hr t rfl]

@[simp] theorem toSecond_idem (t : Int) : toSecond (toSecond t) = toSecond t := by
  unfold toSecond
  omega

@[simp] theorem milliseconds_toSecond (t : Int) : milliseconds (toSecond t) = toSecond t := by
  unfold milliseconds toSecond
  omega

theorem toSecond_of_mem {plays : List Play} {r : Record} (hr : r ∈ plays.map record) {t : Int}
    (ht : r.1 = some t) : toSecond t = t := by
  obtain ⟨play, -, rfl⟩ := List.mem_map.mp hr
  obtain ⟨s, -, rfl⟩ := Option.map_eq_some_iff.mp ht
  exact toSecond_idem s

/-- Restored into an empty account, a title has the records it was exported with if and only if they
are restorable. -/
theorem restored_iff (now : Int) (hwindow : window ≠ 0) {plays : List Play} :
    (((plays.map record).foldl (importRecord window now) (.load [])).plays.map record).Perm
      (plays.map record) ↔ Restorable window (plays.map record) := by
  rw [restorable_iff now hwindow]
  have hempty : TitleState.load [] = added now [] := rfl
  have hwhole : ∀ r ∈ plays.map record, ∀ t, r.1 = some t → toSecond t = t :=
    fun r hr t ht ↦ toSecond_of_mem hr ht
  rw [hempty]
  rcases foldl_importRecord now (plays.map record) hwindow with
    ⟨hall, hfold⟩ | ⟨hall, hfold⟩
  · constructor
    · intro hperm
      refine ⟨fun r hr ↦ ?_, hall⟩
      obtain ⟨play, hplay, rfl⟩ := List.mem_map.mp (hperm.symm.mem_iff.mp hr)
      have hdated := dated_foldl_importRecord (s := added now []) (by simp [added]) play hplay
      simpa [record] using hdated
    · rintro ⟨hdated, -⟩
      rw [hfold, map_record_added hdated hwhole]
  · refine ⟨fun hperm ↦ ?_, fun h ↦ absurd h.2 hall⟩
    have hlength := hperm.length_eq
    rw [List.length_map] at hlength
    omega

theorem restored_again {plays : List Play} (now later : Int) (hwindow : window ≠ 0)
    (h : Restorable window (plays.map record)) :
    ((plays.map record).foldl (importRecord window later)
        (.load ((plays.map record).foldl (importRecord window now) (.load [])).plays)).plays =
      ((plays.map record).foldl (importRecord window now) (.load [])).plays := by
  obtain ⟨hdated, hall⟩ := (restorable_iff now hwindow).mp h
  have hfold : (plays.map record).foldl (importRecord window now) (.load []) =
      added now (plays.map record) := by
    rcases foldl_importRecord now (plays.map record) hwindow with hadded | hadded
    · exact hadded.2
    · exact absurd hall hadded.1
  have hwhole : ∀ r ∈ plays.map record, ∃ t, r.1 = some t ∧ milliseconds t = t := by
    intro r hr
    obtain ⟨t, ht⟩ := Option.ne_none_iff_exists'.mp (hdated r hr)
    refine ⟨t, ht, ?_⟩
    rw [← toSecond_of_mem hr ht, milliseconds_toSecond]
  rw [hfold, load_added, foldl_importRecord_again hwindow hwhole fun r hr ↦ hr]

def restoredHistory (window : ℕ) (now : Int) (found : Identity → Bool)
    (rows : List (Play × Media)) : Identity → List Play :=
  importHistory window now found (buildHistory rows) fun _ ↦ []

theorem restoredHistory_eq (rows : List (Play × Media)) (i : Identity) :
    restoredHistory window now found rows i =
      (((titlePlays found (chronological rows) i).map record).foldl (importRecord window now)
        (.load [])).plays := by
  rw [restoredHistory, importHistory_eq, titleRecords_buildHistory]

/-- A backup restores the completed plays of every title that the catalogue finds, and changes nothing
when it is imported once more, if and only if the records of every title are restorable. -/
theorem backup_restores_history (configured : Option Int) (now later : Int)
    (found : Identity → Bool) (rows : List (Play × Media)) :
    (∀ i, ((restoredHistory (dedupWindowMinutes configured) now found rows i).map record).Perm
        (((titlePlays found rows i).filter Play.completed).map record)) ∧
      importHistory (dedupWindowMinutes configured) later found (buildHistory rows)
          (restoredHistory (dedupWindowMinutes configured) now found rows) =
        restoredHistory (dedupWindowMinutes configured) now found rows ↔
    ∀ i, Restorable (dedupWindowMinutes configured)
      ((titlePlays found (chronological rows) i).map record) := by
  have hwindow := dedupWindowMinutes_ne_zero configured
  have hplays (i : Identity) :
      ((restoredHistory (dedupWindowMinutes configured) now found rows i).map record).Perm
          (((titlePlays found rows i).filter Play.completed).map record) ↔
        Restorable (dedupWindowMinutes configured)
          ((titlePlays found (chronological rows) i).map record) := by
    rw [← restored_iff now hwindow, restoredHistory_eq]
    exact ((titlePlays_chronological rows i).map record).congr_right _ |>.symm
  constructor
  · rintro ⟨hrestored, -⟩ i
    exact (hplays i).mp (hrestored i)
  · intro h
    refine ⟨fun i ↦ (hplays i).mpr (h i), funext fun i ↦ ?_⟩
    rw [importHistory_eq, titleRecords_buildHistory, restoredHistory_eq]
    exact restored_again now later hwindow (h i)

/-- A movie that is guessed to have been watched on one day and known to have been watched ten days
later. -/
def guessedThenWatched : List (Play × Media) :=
  [(⟨some 0, 0, true, true, false, false⟩, ⟨.movie, some 603, none, none, none⟩),
    (⟨some 864000000000, 864000000000, true, false, false, false⟩,
      ⟨.movie, some 603, none, none, none⟩)]

theorem exact_play_takes_over_estimate :
    Apart (dedupWindowMinutes none) 0 864000000000 ∧
      ¬((restoredHistory (dedupWindowMinutes none) 1000000000000 (fun _ ↦ true) guessedThenWatched
          (.movie 603)).map record).Perm
        (((titlePlays (fun _ ↦ true) guessedThenWatched (.movie 603)).filter
          Play.completed).map record) := by
  have hchronological : chronological guessedThenWatched = guessedThenWatched := by
    rw [chronological]
    exact List.mergeSort_of_pairwise (by decide)
  refine ⟨by decide, fun hperm ↦ ?_⟩
  rw [restoredHistory_eq, hchronological] at hperm
  revert hperm
  decide

end AnyList.Backup
