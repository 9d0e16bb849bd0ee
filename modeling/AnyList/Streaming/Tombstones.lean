import AnyList.Streaming.Observe

namespace AnyList.Streaming

open AnyList.Library AnyList.Library.Members
open AnyList.Reconciliation.Watches (Status)

/-- Nothing in a stored snapshot tells of a viewing under the key. -/
structure NoViewing (stored : Stored) (key : String) : Prop where
  progress : stored.progress.get key = none
  resume : stored.resume.get key = none
  watched : ∀ k ∈ stored.watched, k.1 ≠ key
  progressCompleted : ∀ k ∈ stored.progressCompleted, k.1 ≠ key
  recordsWatched : ∀ row ∈ stored.recordsWatched, row.contentId ≠ key
  recordsProgress : ∀ row ∈ stored.recordsProgress, row.contentId ≠ key

namespace Observation

variable {o : Observation} {deletions : List TrackingDeletion} {t : Tracking} {key : String}

/-- The pull resolves the key to the title. -/
def Names (o : Observation) (key : String) (mediaId : ℕ) : Prop :=
  ∃ tmdbId kind media, (key, tmdbId) ∈ o.resolved ∧ o.cat.find tmdbId kind = some media ∧
    media.id = mediaId

/-- A later pull of the connection over what this one stored. -/
def Follows (o' : Observation) (baseline : StreamBaseline) : Prop :=
  o'.prior = some baseline ∧ o'.pull.freshImport = false

/-- A tombstoned title keeps no viewing in the baseline, and a watch of it after its deletion is
new to a later pull. -/
structure LeavesNoViewing (o : Observation) (deletions : List TrackingDeletion) (t : Tracking) :
    Prop where
  clean : ∀ result, o.observeStreamSnapshot deletions t = .ok result →
    ∀ deletion ∈ result.deletions, ∀ key, o.Names key deletion.mediaId →
      NoViewing result.baseline.snapshot key
  detected : ∀ result, o.observeStreamSnapshot deletions t = .ok result →
    ∀ deletion ∈ result.deletions, ∀ key, o.Names key deletion.mediaId →
      ∀ o' : Observation, o'.Follows result.baseline → ∀ row ∈ o'.snap.watched,
        row.contentId = key → (∃ seen, o'.seenAt row = some seen ∧ deletion.deletedAt < seen) →
          o'.isNewWatch row = true

/-- What a pull reports as watched of a key, or what is stored where it does not look. -/
def ReportsViewing (o : Observation) (key : String) : Prop :=
  (if o.snap.syncWatched then ∃ row ∈ o.snap.watched, row.contentId = key
    else (∃ k ∈ o.previous.watched, k.1 = key) ∨
      ∃ row ∈ o.previous.recordsWatched, row.contentId = key) ∨
  if o.snap.syncPlayback then ∃ row ∈ completedRows o.snap.progress, row.contentId = key
    else (∃ k ∈ o.previous.progressCompleted, k.1 = key) ∨
      ∃ row ∈ o.previous.recordsProgress, row.contentId = key

theorem nodup_resolved (o : Observation) : (o.resolved.map Prod.fst).Nodup := by
  refine List.Nodup.sublist ?_ o.snap.tmdbIds.nodup
  unfold resolved
  induction o.snap.tmdbIds.entries with
  | nil => exact List.Sublist.slnil
  | cons entry entries ih =>
    obtain ⟨key, tmdbId⟩ := entry
    cases tmdbId with
    | none => simpa using ih.cons key
    | some id => simpa using ih

theorem get_mappings_of_resolved {tmdbId : Int} (h : (key, tmdbId) ∈ o.resolved) :
    o.mappings.get key = some tmdbId :=
  Dict.get_setAll_of_mem o.nodup_resolved h _

theorem lookup_of_resolved {tmdbId : Int} (h : (key, tmdbId) ∈ o.resolved) (kind : Kind) :
    o.lookup tmdbId kind = o.cat.find tmdbId kind :=
  if_pos (.inl (List.mem_map_of_mem h))

theorem isDeletedKey_of_names {deletion : TrackingDeletion} (hmem : deletion ∈ deletions)
    (h : o.Names key deletion.mediaId) : o.isDeletedKey (isDeleted deletions) key = true := by
  obtain ⟨tmdbId, kind, media, hresolved, hmedia, hid⟩ := h
  rw [isDeletedKey, get_mappings_of_resolved hresolved]
  refine List.any_eq_true.mpr ⟨kind, by cases kind <;> decide, ?_⟩
  rw [lookup_of_resolved hresolved, hmedia]
  exact List.any_eq_true.mpr ⟨deletion, hmem, decide_eq_true hid.symm⟩

section stored

variable {deleted : ℕ → Bool} (h : o.isDeletedKey deleted key = true)

include h

theorem progress_of_deleted : (o.stored deleted).progress.get key = none := by
  simp [stored, Dict.get_filterKeys, h]

theorem resume_of_deleted : (o.stored deleted).resume.get key = none := by
  simp [stored, Dict.get_filterKeys, h]

theorem kept_of_deleted {rows : List Row} {row : Row}
    (hrow : row ∈ rows.filter fun row ↦ !o.isDeletedKey deleted row.contentId) :
    row.contentId ≠ key := by
  rintro rfl
  obtain ⟨_, hkept⟩ := List.mem_filter.mp hrow
  simp [h] at hkept

/-- The keys of what was watched are the only views that a tombstone does not empty. -/
theorem noViewing_iff : NoViewing (o.stored deleted) key ↔ ¬ o.ReportsViewing key := by
  have hkeys (rows : List Row) : (∀ k ∈ (rows.map Row.watchKey).toFinset, k.1 ≠ key) ↔
      ¬ ∃ row ∈ rows, row.contentId = key := by
    simp [Row.watchKey]
  constructor
  · intro hclean hreports
    obtain hwatched | hcompleted := hreports
    · split at hwatched
      · rename_i hsync
        have hnone := hclean.watched
        simp only [stored, if_pos hsync, watchedRows] at hnone
        exact (hkeys _).mp hnone hwatched
      · rename_i hsync
        have hnone := hclean.watched
        have hrecords := hclean.recordsWatched
        simp only [stored, if_neg hsync] at hnone hrecords
        obtain ⟨k, hk, hkey⟩ | ⟨row, hrow, hkey⟩ := hwatched
        · exact hnone k hk hkey
        · exact hrecords row hrow hkey
    · split at hcompleted
      · rename_i hsync
        have hnone := hclean.progressCompleted
        simp only [stored, if_pos hsync, progressCompletedRows] at hnone
        exact (hkeys _).mp hnone hcompleted
      · rename_i hsync
        have hnone := hclean.progressCompleted
        have hrecords := hclean.recordsProgress
        simp only [stored, if_neg hsync] at hnone hrecords
        obtain ⟨k, hk, hkey⟩ | ⟨row, hrow, hkey⟩ := hcompleted
        · exact hnone k hk hkey
        · exact hrecords row hrow hkey
  · intro hnone
    obtain ⟨hwatched, hcompleted⟩ := not_or.mp hnone
    refine ⟨progress_of_deleted h, resume_of_deleted h, ?_, ?_, ?_, ?_⟩
    · split at hwatched
      · rename_i hsync
        simp only [stored, if_pos hsync, watchedRows]
        exact (hkeys _).mpr hwatched
      · rename_i hsync
        simp only [stored, if_neg hsync]
        exact fun k hk hkey ↦ hwatched (.inl ⟨k, hk, hkey⟩)
    · split at hcompleted
      · rename_i hsync
        simp only [stored, if_pos hsync, progressCompletedRows]
        exact (hkeys _).mpr hcompleted
      · rename_i hsync
        simp only [stored, if_neg hsync]
        exact fun k hk hkey ↦ hcompleted (.inl ⟨k, hk, hkey⟩)
    · split at hwatched
      · rename_i hsync
        simp only [stored, if_pos hsync]
        exact fun row hrow ↦ kept_of_deleted h hrow
      · rename_i hsync
        simp only [stored, if_neg hsync]
        exact fun row hrow hkey ↦ hwatched (.inr ⟨row, hrow, hkey⟩)
    · split at hcompleted
      · rename_i hsync
        simp only [stored, if_pos hsync]
        exact fun row hrow ↦ kept_of_deleted h hrow
      · rename_i hsync
        simp only [stored, if_neg hsync]
        exact fun row hrow hkey ↦ hcompleted (.inr ⟨row, hrow, hkey⟩)

end stored

theorem previous_of_follows {o' : Observation} {baseline : StreamBaseline}
    (h : o'.Follows baseline) : o'.previous = baseline.snapshot := by
  rw [previous, h.1, h.2]
  rfl

theorem isNewWatch_of_noViewing {o' : Observation} {baseline : StreamBaseline} {row : Row}
    (h : o'.Follows baseline) (hnone : NoViewing baseline.snapshot row.contentId) :
    o'.isNewWatch row = true := by
  have hkey : row.watchKey ∉ o'.previous.watched := by
    rw [previous_of_follows h]
    exact fun hmem ↦ hnone.watched _ hmem rfl
  simp [isNewWatch, hkey]

section film

/-- A reader that knows two dates. -/
def twoDates : Reading where
  clock text := if text = "January" then some 10 else if text = "March" then some 70 else none
  watchDate text := if text = "January" then some 10 else if text = "March" then some 70 else none
  isoZ _ := ""
  strip text := text
  int _ := none

def oneFilm : Catalogue where
  media := [⟨9, .movie, 603, some "tt0133093"⟩]
  released _ := none
  refreshed _ := false
  watchedMedia kind tmdbId _ _ := if kind = .movie ∧ tmdbId = 603 then some 9 else none
  seriesOf _ := none
  titleOf mediaId := if mediaId = 9 then some 9 else none
  siblings _ := none
  regular _ := []

def stremioAccount : Connection := ⟨4, "Stremio", .stremio, true, true⟩

def filmWatch (watchedAt : String) : Row where
  contentId := "tt0133093"
  contentType := some .movie
  season := none
  episode := none
  position := none
  duration := none
  watchedTime := none
  watchedAt := some watchedAt
  lastWatched := none
  updatedAt := none
  modifiedAt := none
  dateShared := false

/-- A pull of one watch of the film. -/
def filmPull (watchedAt : String) (now : Int) (prior : StreamBaseline) : Observation where
  reading := twoDates
  cat := oneFilm
  conn := stremioAccount
  pull := ⟨now, 0, false, none, false, ∅, ∅, true, fun _ ↦ none, none⟩
  snap := ⟨[], [filmWatch watchedAt], [], Dict.empty.set "tt0133093" (some 603), true, true,
    fun _ ↦ none⟩
  prior := some prior

def emptyList : Tracking := ⟨.empty, [], [], [], [], []⟩

/-- The film is deleted, and the connection has still to forget it. -/
def filmDeletion : List TrackingDeletion := [⟨9, 50, [.connection 4]⟩]

end film

end Observation

end AnyList.Streaming
