import AnyList.Streaming.Observe

namespace AnyList.Streaming

open AnyList.Library AnyList.Library.Members

/-- No title has two different rows in progress. -/
def OneResumeEach (rows : List Row) : Prop :=
  ∀ row ∈ rows, ∀ row' ∈ rows, row.isActive = true → row'.isActive = true →
    row.contentId = row'.contentId → row = row'

section active

variable {rows rows' : List Row} {row : Row}

/-- Of the rows in progress of one title, the one the provider lists last is kept. -/
theorem get_activeRows_concat (h : row.isActive = true) :
    (activeRows (rows ++ [row])).get row.contentId = some row := by
  have hfilter : (rows ++ [row]).filter Row.isActive = rows.filter Row.isActive ++ [row] := by
    simp [List.filter_append, h]
  rw [activeRows, hfilter]
  exact Dict.get_indexBy_concat Row.contentId _ row

theorem get_activeRows_perm (hperm : rows.Perm rows') (h : OneResumeEach rows) (key : String) :
    (activeRows rows').get key = (activeRows rows).get key := by
  refine Dict.get_indexBy_perm (hperm.filter Row.isActive) (fun row hrow row' hrow' hkey ↦ ?_) key
  obtain ⟨hmem, hactive⟩ := List.mem_filter.mp hrow
  obtain ⟨hmem', hactive'⟩ := List.mem_filter.mp hrow'
  exact h row hmem row' hmem' hactive hactive' hkey

/-- Of two rows in progress of one title, some order keeps each. -/
theorem exists_perm_get_activeRows (hrow : row ∈ rows) (hactive : row.isActive = true) :
    ∃ rows', rows.Perm rows' ∧ (activeRows rows').get row.contentId = some row := by
  refine ⟨rows.erase row ++ [row], ?_, get_activeRows_concat hactive⟩
  exact (List.perm_cons_erase hrow).trans (List.perm_append_singleton row (rows.erase row)).symm

end active

/-- The same baseline. Its records are the two lists of the provider as they were listed, so
that they are compared as collections of rows. -/
structure SameBaseline (b b' : StreamBaseline) : Prop where
  approved : b.approved = b'.approved
  observedAt : b.observedAt = b'.observedAt
  progress : ∀ key, b.snapshot.progress.get key = b'.snapshot.progress.get key
  recordsWatched : b.snapshot.recordsWatched.Perm b'.snapshot.recordsWatched
  recordsProgress : b.snapshot.recordsProgress.Perm b'.snapshot.recordsProgress
  rest : b.snapshot = { b'.snapshot with
    progress := b.snapshot.progress
    recordsWatched := b.snapshot.recordsWatched
    recordsProgress := b.snapshot.recordsProgress }

namespace Observation

variable (o : Observation) (deletions : List TrackingDeletion) (t : Tracking)

/-- The account before the rows decide, and the titles its history brought in. -/
def beforeRows : Observed × List ℕ :=
  let released := o.releaseRewatchedDeletions deletions t
  let existing (mediaId : ℕ) : Bool := (released.2.entries.get mediaId).isSome
  let imported := importTrackingHistory o.cat o.pull.now (isDeleted released.1) released.2
  let started := o.start existing imported.2.length imported.1
  (o.removed.foldl o.removePlayback ⟨started, [], [], [], imported.2⟩, imported.2)

/-- The watches that a pull takes as new. -/
def newWatches : List Row :=
  let before := o.beforeRows deletions t
  if o.decides then o.newWatchedRows (o.retireRedundant before.1.tracking) before.2 else []

theorem observe_baseline : (o.observe deletions t).baseline =
    ⟨o.stored (isDeleted (o.releaseRewatchedDeletions deletions t).1), o.approved,
      some o.pull.now⟩ := rfl

theorem observe_observed : (o.observe deletions t).observed =
    let released := o.releaseRewatchedDeletions deletions t
    let deleted := isDeleted released.1
    let existing (mediaId : ℕ) : Bool := (released.2.entries.get mediaId).isSome
    let imported := importTrackingHistory o.cat o.pull.now deleted released.2
    let before := o.beforeRows deletions t
    o.removeMissing (o.dismissTitles (fun mediaId ↦ (imported.1.entries.get mediaId).map
      TrackedEntry.changedAt) (o.decideRows deleted existing before.2 before.1)) := rfl

theorem importConflict_entries (existing : ℕ → Bool) (row : Row) :
    (o.importConflict existing t row).entries = t.entries := by
  unfold importConflict
  split
  · rfl
  · split_ifs
    · rfl
    · split
      · rfl
      · dsimp only
        split_ifs <;> rfl

/-- The opening of a first pull writes reviews only. -/
theorem start_entries (existing : ℕ → Bool) (imported : ℕ) :
    (o.start existing imported t).entries = t.entries := by
  have hfold (rows : List Row) (t : Tracking) :
      (rows.foldl (o.importConflict existing) t).entries = t.entries := by
    induction rows generalizing t with
    | nil => rfl
    | cons row rows ih =>
      rw [List.foldl_cons, ih, importConflict_entries]
  unfold start
  split_ifs
  · rw [hfold]
    rfl
  · rfl

/-- On a first pull nothing is missing from what was stored. -/
theorem removed_of_first (h : o.first = true) : o.removed = [] := by
  simp [removed, h]

theorem currentWatchRows_congr {t t' : Tracking} (h : t.entries = t'.entries) (imported : List ℕ)
    (rows : List Row) : o.currentWatchRows t imported rows = o.currentWatchRows t' imported rows := by
  have htracked : o.tracked t = o.tracked t' := by
    unfold tracked
    rw [h]
  have hclock : o.rowClock t imported = o.rowClock t' imported := by
    funext row
    simp only [rowClock, rowTmdbId, htracked]
  unfold currentWatchRows
  rw [hclock]

/-- The pull with its progress and watched rows listed in another way. -/
def relisted (progress watched : List Row) : Observation :=
  { o with snap := { o.snap with progress := progress, watched := watched } }

/-- What a pull keeps, compares and stores. -/
structure SameOutcome (o o' : Observation) (deletions : List TrackingDeletion) (t : Tracking) :
    Prop where
  kept : ∀ key, o.active.get key = o'.active.get key
  changed : o.changedActive.Perm o'.changedActive
  removed : o.removed = o'.removed
  watches : (o.newWatches deletions t).Perm (o'.newWatches deletions t)
  baseline : SameBaseline (o.observe deletions t).baseline (o'.observe deletions t).baseline

/-- The order of the progress and watched lists is not seen. -/
def OrderIrrelevant : Prop :=
  ∀ progress watched, o.snap.progress.Perm progress → o.snap.watched.Perm watched →
    (o.relisted progress watched).SameOutcome o deletions t

/-- No two rows agree in change time and playback rank. -/
def RowsOrdered : Prop :=
  (o.snap.progress ++ o.snap.watched).Pairwise fun row row' ↦
    ¬ (row.providerChangedAt o.reading = row'.providerChangedAt o.reading ∧
      row.playbackRank = row'.playbackRank)

section relisted

variable {o deletions t} {progress watched : List Row}

section rows

variable (hprogress : o.snap.progress.Perm progress) (hwatched : o.snap.watched.Perm watched)

include hprogress in
theorem relisted_progressCompletedRows : (o.relisted progress watched).progressCompletedRows.Perm
    o.progressCompletedRows := by
  unfold progressCompletedRows
  change (if o.snap.syncPlayback then completedRows progress else []).Perm _
  split
  · exact (hprogress.filter Row.isCompleted).symm
  · rfl

include hwatched in
theorem relisted_watchedRows :
    (o.relisted progress watched).watchedRows.Perm o.watchedRows := by
  unfold watchedRows
  change (if o.snap.syncWatched then watched else []).Perm _
  split
  · exact hwatched.symm
  · rfl

include hprogress hwatched

theorem relisted_completedProgress (old : Row) :
    completedProgress old (o.relisted progress watched).completed =
      completedProgress old o.completed :=
  ((relisted_watchedRows hwatched).append (relisted_progressCompletedRows hprogress)).any_eq

theorem relisted_releaseRewatchedDeletions :
    (o.relisted progress watched).releaseRewatchedDeletions = o.releaseRewatchedDeletions := by
  have hreleased : (o.relisted progress watched).isReleased = o.isReleased := by
    funext deletion
    unfold isReleased
    exact congrArg _ (hwatched.append hprogress).symm.any_eq
  funext deletions t
  unfold releaseRewatchedDeletions
  rw [hreleased]

end rows

section kept

variable (hone : o.snap.syncPlayback = true → OneResumeEach o.snap.progress)
  (hprogress : o.snap.progress.Perm progress)

include hone hprogress

theorem relisted_active (key : String) :
    (o.relisted progress watched).active.get key = o.active.get key := by
  unfold active
  change (if o.snap.syncPlayback then activeRows progress else o.previous.progress).get key = _
  split
  · exact get_activeRows_perm hprogress (hone ‹_›) key
  · rfl

theorem relisted_removed : (o.relisted progress watched).removed = o.removed := by
  unfold removed
  simp only [relisted_active hone hprogress]
  rfl

theorem relisted_lookup : (o.relisted progress watched).lookup = o.lookup := by
  funext tmdbId kind
  unfold lookup
  rw [relisted_removed hone hprogress]
  rfl

theorem relisted_changedActive :
    (o.relisted progress watched).changedActive.Perm o.changedActive :=
  ((Dict.entries_perm (relisted_active hone hprogress)).filter _).map _

theorem relisted_storedActive (key : String) :
    (o.relisted progress watched).storedActive.get key = o.storedActive.get key := by
  unfold storedActive
  change (if o.decides then _ else _ : Dict String Row).get key = _
  split
  · rw [Dict.get_mapKeyed, Dict.get_mapKeyed, relisted_active hone hprogress]
    rfl
  · exact relisted_active hone hprogress key

theorem relisted_isDeletedKey : (o.relisted progress watched).isDeletedKey = o.isDeletedKey := by
  funext deleted key
  unfold isDeletedKey
  rw [relisted_lookup hone hprogress]
  rfl

variable (hwatched : o.snap.watched.Perm watched)

include hwatched

theorem relisted_outbound : (o.relisted progress watched).outbound = o.outbound := by
  unfold outbound
  simp only [relisted_active hone hprogress, relisted_removed hone hprogress,
    relisted_completedProgress hprogress hwatched]
  rfl

theorem relisted_resume : (o.relisted progress watched).resume = o.resume := by
  unfold resume
  simp only [relisted_active hone hprogress, relisted_removed hone hprogress,
    relisted_completedProgress hprogress hwatched]
  rfl

theorem relisted_removePlayback :
    (o.relisted progress watched).removePlayback = o.removePlayback := by
  funext acc key
  unfold removePlayback
  simp only [relisted_lookup hone hprogress, relisted_completedProgress hprogress hwatched]
  rfl

theorem relisted_beforeRows (deletions : List TrackingDeletion) (t : Tracking) :
    ((o.relisted progress watched).beforeRows deletions t).2 = (o.beforeRows deletions t).2 ∧
      ((o.relisted progress watched).beforeRows deletions t).1.tracking.entries =
        (o.beforeRows deletions t).1.tracking.entries := by
  unfold beforeRows
  rw [relisted_releaseRewatchedDeletions hprogress hwatched, relisted_removed hone hprogress,
    relisted_removePlayback hone hprogress hwatched]
  extract_lets released existing imported started imported' started'
  refine ⟨rfl, ?_⟩
  cases hfirst : o.first with
  | true =>
    rw [removed_of_first o hfirst]
    exact (start_entries ..).trans (start_entries ..).symm
  | false =>
    have hstart : started = started' := by
      simp only [started, started', start]
      change (if o.first then _ else _) = _
      rw [hfirst]
      rfl
    rw [hstart]
    rfl

theorem relisted_newWatches : ((o.relisted progress watched).newWatches deletions t).Perm
    (o.newWatches deletions t) := by
  obtain ⟨himported, hentries⟩ := relisted_beforeRows hone hprogress hwatched deletions t
  unfold newWatches
  extract_lets before before'
  change (if o.decides then _ else _ : List Row).Perm _
  split_ifs with hdecides
  · have hcurrent : (o.relisted progress watched).newWatchedRows
        ((o.relisted progress watched).retireRedundant before.1.tracking) before.2 =
          o.currentWatchRows (o.retireRedundant before'.1.tracking) before'.2
            ((o.relisted progress watched).watchedRows.filter o.isNewWatch) := by
      rw [show before.2 = before'.2 from himported]
      exact o.currentWatchRows_congr hentries before'.2 _
    rw [hcurrent]
    exact ((relisted_watchedRows hwatched).filter _).filter _
  · rfl

theorem relisted_rest (deleted : ℕ → Bool) : (o.relisted progress watched).stored deleted =
    { o.stored deleted with
      progress := ((o.relisted progress watched).stored deleted).progress
      recordsWatched := ((o.relisted progress watched).stored deleted).recordsWatched
      recordsProgress := ((o.relisted progress watched).stored deleted).recordsProgress } := by
  have hdeleted : (o.relisted progress watched).isDeletedKey = o.isDeletedKey :=
    relisted_isDeletedKey hone hprogress
  have hwatchKeys : ((o.relisted progress watched).watchedRows.map Row.watchKey).toFinset =
      (o.watchedRows.map Row.watchKey).toFinset :=
    List.toFinset_eq_of_perm _ _ ((relisted_watchedRows hwatched).map Row.watchKey)
  have hcompletedKeys :
      ((o.relisted progress watched).progressCompletedRows.map Row.watchKey).toFinset =
        (o.progressCompletedRows.map Row.watchKey).toFinset :=
    List.toFinset_eq_of_perm _ _ ((relisted_progressCompletedRows hprogress).map Row.watchKey)
  simp only [stored, hdeleted, hwatchKeys, hcompletedKeys,
    relisted_outbound hone hprogress hwatched, relisted_resume hone hprogress hwatched]
  rfl

theorem relisted_baseline : SameBaseline
    ((o.relisted progress watched).observe deletions t).baseline
      (o.observe deletions t).baseline := by
  have hdeleted : (o.relisted progress watched).isDeletedKey = o.isDeletedKey :=
    relisted_isDeletedKey hone hprogress
  rw [observe_baseline, observe_baseline, relisted_releaseRewatchedDeletions hprogress hwatched]
  generalize isDeleted (o.releaseRewatchedDeletions deletions t).1 = deleted
  refine ⟨rfl, rfl, fun key ↦ ?_, ?_, ?_, relisted_rest hone hprogress hwatched deleted⟩
  · simp only [stored, Dict.get_filterKeys, hdeleted, relisted_storedActive hone hprogress]
  · simp only [stored, hdeleted]
    change (if o.snap.syncWatched then _ else _ : List Row).Perm _
    split
    · exact (hwatched.filter _).symm
    · rfl
  · simp only [stored, hdeleted]
    change (if o.snap.syncPlayback then _ else _ : List Row).Perm _
    split
    · exact (hprogress.filter _).symm
    · rfl

end kept

end relisted

/-- The order of the lists is not seen if and only if no title has two different rows in
progress: of several, the one listed last is kept whatever their clocks and ranks are. -/
theorem order_irrelevant_iff : o.OrderIrrelevant deletions t ↔
    (o.snap.syncPlayback = true → OneResumeEach o.snap.progress) := by
  constructor
  · intro h hsync row hrow row' hrow' hactive hactive' hkey
    have hkept {row : Row} (hrow : row ∈ o.snap.progress) (hactive : row.isActive = true) :
        o.active.get row.contentId = some row := by
      obtain ⟨progress, hperm, hget⟩ := exists_perm_get_activeRows hrow hactive
      rw [← (h progress o.snap.watched hperm (.refl _)).kept row.contentId, active]
      change (if o.snap.syncPlayback then activeRows progress else _).get row.contentId = _
      rw [if_pos hsync, hget]
    have hget := hkept hrow hactive
    rw [hkey, hkept hrow' hactive'] at hget
    exact (Option.some.inj hget).symm
  · intro hone progress watched hprogress hwatched
    exact
      { kept := relisted_active hone hprogress
        changed := relisted_changedActive hone hprogress
        removed := relisted_removed hone hprogress
        watches := relisted_newWatches hone hprogress hwatched
        baseline := relisted_baseline hone hprogress hwatched }

section twoEpisodes

/-- A reading for rows that state the minute of their last change as a digit. -/
def minuteReading : Reading where
  clock text := match text.toList with
    | [c] => some ((c.toNat : Int) - 48)
    | _ => none
  watchDate _ := none
  isoZ minute := toString minute
  strip text := text
  int _ := none

def episodeResume (episode : Int) (updatedAt : String) : Row where
  contentId := "tt1"
  contentType := some .series
  season := some 1
  episode := some episode
  position := some 500
  duration := some 1000
  watchedTime := none
  watchedAt := none
  lastWatched := none
  updatedAt := some updatedAt
  modifiedAt := none
  dateShared := false

def earlier : Row := episodeResume 1 "3"

def later : Row := episodeResume 2 "5"

/-- A pull of a connection that reports two episodes of a series in progress. The baseline
holds the later one, and nothing has changed since. -/
def twoEpisodes : Observation where
  reading := minuteReading
  cat := ⟨[], fun _ ↦ none, fun _ ↦ false, fun _ _ _ _ ↦ none, fun _ ↦ none, fun _ ↦ none,
    fun _ ↦ none, fun _ ↦ []⟩
  conn := ⟨1, "Nuvio", .nuvio, false, false⟩
  pull := ⟨9, 0, false, none, false, ∅, ∅, false, fun _ ↦ none, none⟩
  snap :=
    { library := []
      watched := []
      progress := [later, earlier]
      tmdbIds := .empty
      syncPlayback := true
      syncWatched := true
      cwVisibility := fun _ ↦ none }
  prior := some ⟨{ Stored.empty with progress := Dict.empty.set "tt1" later }, true, some 6⟩

/-- No two of these rows agree in change time and playback rank. In one order the later episode
is kept and nothing is new; in the other the earlier one replaces it as a change. -/
theorem later_episode_replaced : twoEpisodes.RowsOrdered ∧
    (twoEpisodes.relisted [earlier, later] []).active.get "tt1" = some later ∧
    (twoEpisodes.relisted [earlier, later] []).changedActive = [] ∧
    twoEpisodes.active.get "tt1" = some earlier ∧
    twoEpisodes.changedActive = [earlier] ∧
    ¬ ∀ (o : Observation) (deletions : List TrackingDeletion) (t : Tracking),
      o.RowsOrdered → o.OrderIrrelevant deletions t := by
  have hclock : later.providerChangedAt minuteReading ≠
      earlier.providerChangedAt minuteReading := by
    decide +kernel
  have hordered : twoEpisodes.RowsOrdered := List.pairwise_pair.mpr fun h ↦ hclock h.1
  have hlater : (twoEpisodes.relisted [earlier, later] []).active.get "tt1" = some later := by
    decide +kernel
  have hearlier : twoEpisodes.active.get "tt1" = some earlier := by decide +kernel
  refine ⟨hordered, hlater, by decide +kernel, hearlier, by decide +kernel, fun h ↦ ?_⟩
  have hsame := (h twoEpisodes [] ⟨.empty, [], [], [], [], []⟩ hordered [earlier, later] []
    (List.Perm.swap earlier later []) (.refl _)).kept "tt1"
  rw [hlater, hearlier] at hsame
  exact absurd hsame (by decide +kernel)

end twoEpisodes

end Observation

end AnyList.Streaming
