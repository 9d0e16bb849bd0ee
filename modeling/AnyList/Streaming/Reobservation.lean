import AnyList.Streaming.Quiet
import AnyList.Streaming.Settled
import AnyList.Streaming.Tombstones

namespace AnyList.Streaming

open AnyList.Library AnyList.Library.Members
open AnyList.Reconciliation.Watches (Status)

attribute [ext] Stored

namespace Observation

variable {o o' : Observation} {deletions : List TrackingDeletion} {deleted : ℕ → Bool}
  {t : Tracking} {baseline : StreamBaseline}

/-- The same snapshot of the same connection, pulled over what the first pull stored. -/
structure Repeats (o' o : Observation) (baseline : StreamBaseline) : Prop where
  reading : o'.reading = o.reading
  cat : o'.cat = o.cat
  conn : o'.conn = o.conn
  snap : o'.snap = o.snap
  follows : o'.Follows baseline

/-- Observing an unchanged provider again changes nothing but the time of the observation. -/
def IsRepeatable (o : Observation) (deletions : List TrackingDeletion) (t : Tracking) : Prop :=
  ∀ result, o.observeStreamSnapshot deletions t = .ok result →
    ∀ o' : Observation, o'.Repeats o result.baseline →
      ∀ result', o'.observeStreamSnapshot result.deletions result.observed.tracking = .ok result' →
        result'.observed.tracking = result.observed.tracking ∧
          result'.deletions = result.deletions ∧
          result'.baseline.snapshot = result.baseline.snapshot ∧
          result'.baseline.approved = result.baseline.approved

/-- The rows of a pull that its baseline keeps. -/
def recorded (o : Observation) : List Row :=
  o.watchedRows ++ if o.snap.syncPlayback then o.snap.progress else []

/-- When a pull can be repeated. No stored resume row is dated by its last play alone; a resume row
under the identifier of a deleted title names none that is kept; a recorded row of a deleted title
has the title among the identifiers of the pull; and the owner's legacy reviews can be retired. -/
structure Repeatable (o : Observation) (deleted : ℕ → Bool) (t : Tracking) : Prop where
  dated : o.decides = true → ∀ key row, o.active.get key = some row →
    o.isDeletedKey deleted key = false → o.isChangedActive key row = true → o.stamped row = row
  kinds : ∀ key row, o.active.get key = some row → o.isDeletedKey deleted key = true →
    ∀ media, o.media row = some media → deleted media.id = true
  resolved : ∀ row ∈ o.recorded, o.isDeletedKey deleted row.contentId = true →
    ∃ tmdbId, o.mappings.get row.contentId = some tmdbId ∧ tmdbId ∈ o.resolved.map Prod.snd
  guarded : o.Guarded t
  agrees : o.cat.Agrees

section stamps

@[simp] theorem contentId_stamped (row : Row) : (o.stamped row).contentId = row.contentId := by
  unfold stamped
  extract_lets seen
  split_ifs
  · split
    · split_ifs <;> rfl
    · rfl
  · rfl

@[simp] theorem contentType_stamped (row : Row) : (o.stamped row).contentType = row.contentType := by
  unfold stamped
  extract_lets seen
  split_ifs
  · split
    · split_ifs <;> rfl
    · rfl
  · rfl

theorem isUnchanged_stamped (row : Row) : (o.stamped row).samePlayback row = true ∧
    (o.stamped row).lastWatched = row.lastWatched := by
  unfold stamped
  extract_lets seen
  split_ifs
  · split
    · split_ifs <;> exact ⟨by simp [Row.samePlayback], rfl⟩
    · exact ⟨by simp [Row.samePlayback], rfl⟩
  · exact ⟨by simp [Row.samePlayback], rfl⟩

theorem media_stamped (row : Row) : o.media (o.stamped row) = o.media row := by
  simp [media, optionMedia]

theorem get_storedActive {key : String} {row : Row} (h : o.active.get key = some row) :
    ∃ kept, o.storedActive.get key = some kept ∧ kept.samePlayback row = true ∧
      kept.lastWatched = row.lastWatched := by
  unfold storedActive
  split
  · rw [Dict.get_mapKeyed, h, Option.map_some]
    split_ifs
    · exact ⟨_, rfl, isUnchanged_stamped row⟩
    · exact ⟨_, rfl, by simp [Row.samePlayback], rfl⟩
  · exact ⟨row, h, by simp [Row.samePlayback], rfl⟩

theorem get_active_of_storedActive {key : String} (h : o.active.get key = none) :
    o.storedActive.get key = none := by
  unfold storedActive
  split
  · rw [Dict.get_mapKeyed, h, Option.map_none]
  · exact h

end stamps

section repeated

variable (h : o'.Repeats o ⟨o.stored deleted, o.approved, some o.pull.now⟩)

include h

theorem previous_of_repeats : o'.previous = o.stored deleted :=
  previous_of_follows h.follows

theorem first_of_repeats : o'.first = false := by
  simp [first, h.follows.1, h.follows.2]

theorem resolved_of_repeats : o'.resolved = o.resolved := by
  simp only [resolved, h.snap]

theorem mappings_of_repeats : o'.mappings = o.mappings := by
  unfold mappings
  rw [previous_of_repeats h, resolved_of_repeats h]
  exact Dict.setAll_eq_self fun write hwrite ↦ get_mappings_of_resolved hwrite

theorem watchedRows_of_repeats : o'.watchedRows = o.watchedRows := by
  simp only [watchedRows, h.snap]

theorem progressCompletedRows_of_repeats : o'.progressCompletedRows = o.progressCompletedRows := by
  simp only [progressCompletedRows, h.snap]

theorem active_of_repeats : o'.active = if o.snap.syncPlayback then o.active
    else (o.stored deleted).progress := by
  unfold active
  rw [h.snap, previous_of_repeats h]
  split <;> rfl

theorem removed_of_repeats : o'.removed = [] := by
  unfold removed
  split
  · rename_i hcond
    simp only [Bool.and_eq_true, h.snap] at hcond
    refine List.filter_eq_nil_iff.mpr fun key hkey ↦ ?_
    rw [previous_of_repeats h] at hkey
    obtain ⟨row, hrow⟩ := Dict.mem_keys.mp hkey
    simp only [stored, Dict.get_filterKeys] at hrow
    split at hrow
    · rw [active_of_repeats h, if_pos hcond.1.2]
      cases hactive : o.active.get key with
      | some _ => simp
      | none =>
        rw [get_active_of_storedActive hactive] at hrow
        simp at hrow
    · simp at hrow
  · rfl

theorem observedVisibility_of_repeats (surface : Surface) :
    observedVisibility o'.reading o'.conn o'.snap surface =
      observedVisibility o.reading o.conn o.snap surface := by
  rw [h.reading, h.conn, h.snap]

theorem dismissedIds_of_repeats : o'.dismissedIds = [] := by
  have hnone (surface : Surface) :
      surfaceDismissals o'.reading o'.conn o'.previous o'.snap surface = [] := by
    unfold surfaceDismissals
    rw [observedVisibility_of_repeats h, previous_of_repeats h]
    simp only [stored, nuvioVisibility]
    cases observedVisibility o.reading o.conn o.snap surface with
    | none => rfl
    | some current =>
      simp only [Option.some_or]
      refine List.filter_eq_nil_iff.mpr fun key hkey ↦ ?_
      simp [hkey]
  have howner : ownerDismissals o'.reading o'.conn o'.previous o'.snap = [] := by
    simp [ownerDismissals, hnone, surfaces]
  rw [dismissedIds, visibilityTmdbIds, howner]
  rfl

theorem lookup_of_repeats {tmdbId : Int} {kind : Kind} : o'.lookup tmdbId kind =
    if tmdbId ∈ o.resolved.map Prod.snd then o.cat.find tmdbId kind else none := by
  simp only [lookup, removed_of_repeats h, dismissedIds_of_repeats h, resolved_of_repeats h, h.cat,
    List.filterMap_nil, List.not_mem_nil, or_false]

theorem lookup_le_of_repeats {tmdbId : Int} {kind : Kind} {media : Media}
    (hmedia : o'.lookup tmdbId kind = some media) : o.lookup tmdbId kind = some media := by
  rw [lookup_of_repeats h] at hmedia
  split at hmedia
  · rename_i hresolved
    rw [lookup, if_pos (.inl hresolved), hmedia]
  · simp at hmedia

theorem media_le_of_repeats {row : Row} {media : Media} (hmedia : o'.media row = some media) :
    o.media row = some media := by
  simp only [Observation.media, optionMedia, mappings_of_repeats h] at hmedia ⊢
  obtain ⟨tmdbId, htmdbId, hmedia⟩ := Option.bind_eq_some_iff.mp hmedia
  obtain ⟨kind, hkind, hmedia⟩ := Option.bind_eq_some_iff.mp hmedia
  exact Option.bind_eq_some_iff.mpr ⟨tmdbId, htmdbId,
    Option.bind_eq_some_iff.mpr ⟨kind, hkind, lookup_le_of_repeats h hmedia⟩⟩

theorem isDeletedKey_le_of_repeats {key : String} (hkey : o'.isDeletedKey deleted key = true) :
    o.isDeletedKey deleted key = true := by
  simp only [isDeletedKey, mappings_of_repeats h] at hkey ⊢
  obtain ⟨tmdbId, htmdbId, hany⟩ := (Option.any_eq_true _ _).mp hkey
  obtain ⟨kind, hkind, hmedia⟩ := List.any_eq_true.mp hany
  obtain ⟨media, hmedia, hdeleted⟩ := (Option.any_eq_true _ _).mp hmedia
  refine (Option.any_eq_true _ _).mpr ⟨tmdbId, htmdbId, List.any_eq_true.mpr ⟨kind, hkind, ?_⟩⟩
  exact (Option.any_eq_true _ _).mpr ⟨media, lookup_le_of_repeats h hmedia, hdeleted⟩

/-- A recorded row is under the identifier of a deleted title in both pulls or in neither. -/
theorem isDeletedKey_of_repeats (hrepeatable : o.Repeatable deleted t) {row : Row}
    (hrow : row ∈ o.recorded) :
    o'.isDeletedKey deleted row.contentId = o.isDeletedKey deleted row.contentId := by
  rw [Bool.eq_iff_iff]
  refine ⟨isDeletedKey_le_of_repeats h, fun hkey ↦ ?_⟩
  obtain ⟨tmdbId, htmdbId, hresolved⟩ := hrepeatable.resolved row hrow hkey
  simp only [isDeletedKey, mappings_of_repeats h, htmdbId, Option.any_some] at hkey ⊢
  obtain ⟨kind, hkind, hmedia⟩ := List.any_eq_true.mp hkey
  refine List.any_eq_true.mpr ⟨kind, hkind, ?_⟩
  rw [lookup, if_pos (.inl hresolved)] at hmedia
  rwa [lookup_of_repeats h, if_pos hresolved]

/-- Only a row under the identifier of a deleted title is compared with nothing. -/
theorem isDeletedKey_of_isChangedActive {key : String} {row : Row}
    (hrow : o'.active.get key = some row) (hchanged : o'.isChangedActive key row = true) :
    o.active.get key = some row ∧ o.isDeletedKey deleted key = true := by
  simp only [isChangedActive, h.snap, Bool.and_eq_true, Bool.not_eq_true'] at hchanged
  obtain ⟨⟨hsync, _⟩, hunchanged⟩ := hchanged
  rw [active_of_repeats h, if_pos hsync] at hrow
  refine ⟨hrow, ?_⟩
  cases hkey : o.isDeletedKey deleted key with
  | true => rfl
  | false =>
    obtain ⟨kept, hkept, hsame, hlast⟩ := get_storedActive hrow
    have hold : o'.previous.progress.get key = some kept := by
      rw [previous_of_repeats h]
      simp [stored, Dict.get_filterKeys, hkey, hkept]
    rw [isUnchanged, hold, Option.any_some, hsame, hlast] at hunchanged
    simp at hunchanged

theorem isNewWatch_of_repeats {row : Row} (hrow : row ∈ o'.watchedRows) :
    o'.isNewWatch row = false := by
  rw [watchedRows_of_repeats h] at hrow
  have hsync : o.snap.syncWatched = true := by
    unfold watchedRows at hrow
    split at hrow
    · assumption
    · simp at hrow
  have hmem : row ∈ o.snap.watched := by
    rwa [watchedRows, if_pos hsync] at hrow
  have hkey : row.watchKey ∈ (o.stored deleted).watched := by
    simp only [stored, if_pos hsync, List.mem_toFinset]
    exact List.mem_map_of_mem hrow
  rw [isNewWatch, previous_of_repeats h]
  simp only [hkey, not_true_eq_false, decide_false, Bool.false_or]
  simp only [stored, if_pos hsync]
  cases hdeleted : o.isDeletedKey deleted row.contentId with
  | false =>
    have hkept : row ∈ o.snap.watched.filter fun row ↦ !o.isDeletedKey deleted row.contentId :=
      List.mem_filter.mpr ⟨hmem, by simp [hdeleted]⟩
    have hseen : (o.snap.watched.filter fun row ↦ !o.isDeletedKey deleted row.contentId).any
        (fun old ↦ decide (old.watchObservation = row.watchObservation)) = true :=
      List.any_eq_true.mpr ⟨row, hkept, decide_eq_true rfl⟩
    rw [hseen]
    simp
  | true =>
    have hnone : (o.snap.watched.filter fun row ↦ !o.isDeletedKey deleted row.contentId).any
        (fun old ↦ decide (old.watchKey = row.watchKey)) = false := by
      refine List.any_eq_false.mpr fun old hold ↦ ?_
      have hne := kept_of_deleted hdeleted hold
      simp only [decide_eq_true_eq]
      exact fun heq ↦ hne (congrArg Prod.fst heq)
    rw [hnone, Bool.false_and]

theorem quiet_of_repeats (hrepeatable : o.Repeatable deleted t) (t' : Tracking) :
    o'.Quiet deleted t' where
  later := first_of_repeats h
  removed := removed_of_repeats h
  watched _ hrow := isNewWatch_of_repeats h hrow
  completed := by
    refine List.filter_eq_nil_iff.mpr fun row hrow ↦ ?_
    rw [progressCompletedRows_of_repeats h] at hrow
    have hsync : o.snap.syncPlayback = true := by
      unfold progressCompletedRows at hrow
      split at hrow
      · assumption
      · simp at hrow
    rw [previous_of_repeats h]
    simp only [stored, if_pos hsync, decide_eq_true_eq, not_not, List.mem_toFinset]
    exact List.mem_map_of_mem hrow
  active := by
    intro row hrow media hmedia
    obtain ⟨entry, hentry, rfl⟩ := List.mem_map.mp hrow
    obtain ⟨hmem, hchanged⟩ := List.mem_filter.mp hentry
    obtain ⟨hactive, hdeleted⟩ :=
      isDeletedKey_of_isChangedActive h (Dict.mem_entries.mp hmem) hchanged
    rw [media_stamped] at hmedia
    exact hrepeatable.kinds entry.1 entry.2 hactive hdeleted media (media_le_of_repeats h hmedia)
  dismissed := by simp [dismissedIds_of_repeats h]
  missing := by
    intro hremoves
    have hsync : o.snap.syncWatched = true := by
      simp only [removesWatched, h.snap, Bool.and_eq_true] at hremoves
      exact hremoves.1.1.1.2
    have hrecords : o'.previous.recordsWatched.filter (fun row ↦
        decide (row.watchKey ∉ o'.watchedRows.map Row.watchKey)) = [] := by
      refine List.filter_eq_nil_iff.mpr fun row hrow ↦ ?_
      rw [previous_of_repeats h] at hrow
      simp only [stored, if_pos hsync] at hrow
      have hmem : row ∈ o'.watchedRows := by
        rw [watchedRows_of_repeats h, watchedRows, if_pos hsync]
        exact List.mem_of_mem_filter hrow
      simpa using List.mem_map_of_mem (f := Row.watchKey) hmem
    rw [missingWatched, hrecords]
    rfl

/-- Both pulls store the same rows under the keys that are kept. -/
theorem progress_of_repeats (hrepeatable : o.Repeatable deleted t) :
    (o'.stored deleted).progress = (o.stored deleted).progress := by
  have hdecides : o'.decides = true := by simp [decides, first_of_repeats h]
  have hfirst : (o.stored deleted).progress =
      o.active.filterKeys fun key ↦ !o.isDeletedKey deleted key := by
    simp only [stored, storedActive]
    split
    · rename_i hdecides
      refine Dict.filterKeys_mapKeyed fun key row hrow hkept ↦ ?_
      simp only [Bool.not_eq_true'] at hkept
      split
      · rename_i hchanged
        exact hrepeatable.dated hdecides key row hrow hkept hchanged
      · rfl
    · rfl
  have hsecond : (o'.stored deleted).progress =
      o'.active.filterKeys fun key ↦ !o'.isDeletedKey deleted key := by
    simp only [stored, storedActive, if_pos hdecides]
    refine Dict.filterKeys_mapKeyed fun key row hrow hkept ↦ ?_
    split
    · rename_i hchanged
      obtain ⟨hactive, hdeleted⟩ := isDeletedKey_of_isChangedActive h hrow hchanged
      have hsync : o.snap.syncPlayback = true := by
        simp only [isChangedActive, h.snap, Bool.and_eq_true] at hchanged
        exact hchanged.1.1
      obtain ⟨hmem, rfl⟩ : row ∈ o.snap.progress ∧ row.contentId = key := by
        rw [active, if_pos hsync] at hactive
        exact contentId_of_activeRows hactive
      have hrecorded : row ∈ o.recorded := by
        rw [recorded, if_pos hsync]
        exact List.mem_append_right _ hmem
      rw [isDeletedKey_of_repeats h hrepeatable hrecorded, hdeleted] at hkept
      simp at hkept
    · rfl
  rw [hsecond, active_of_repeats h]
  split
  · rename_i hsync
    rw [hfirst]
    refine Dict.filterKeys_congr fun key row hrow ↦ ?_
    obtain ⟨hmem, rfl⟩ : row ∈ o.snap.progress ∧ row.contentId = key := by
      rw [active, if_pos hsync] at hrow
      exact contentId_of_activeRows hrow
    have hrecorded : row ∈ o.recorded := by
      rw [recorded, if_pos hsync]
      exact List.mem_append_right _ hmem
    rw [isDeletedKey_of_repeats h hrepeatable hrecorded]
  · refine Dict.filterKeys_eq_self fun key row hrow ↦ ?_
    rw [hfirst, Dict.get_filterKeys] at hrow
    split at hrow
    · rename_i hkept
      cases hdeleted : o'.isDeletedKey deleted key with
      | false => rfl
      | true =>
        rw [isDeletedKey_le_of_repeats h hdeleted] at hkept
        simp at hkept
    · simp at hrow

theorem resume_of_repeats : (o'.stored deleted).resume = (o.stored deleted).resume := by
  have hresume : o'.resume = (o.stored deleted).resume := by
    simp only [resume, removed_of_repeats h, List.filterMap_nil, previous_of_repeats h]
    refine Dict.filterKeys_eq_self fun key row hrow ↦ ?_
    simp only [Dict.setAll, List.foldl_nil, stored, resume, Dict.get_filterKeys] at hrow
    split at hrow
    · split at hrow
      · rename_i hnone
        rw [Option.isNone_iff_eq_none] at hnone ⊢
        rw [active_of_repeats h]
        split
        · exact hnone
        · simp [stored, Dict.get_filterKeys, get_active_of_storedActive hnone]
      · simp at hrow
    · simp at hrow
  show o'.resume.filterKeys (fun key ↦ !o'.isDeletedKey deleted key) = (o.stored deleted).resume
  rw [hresume]
  refine Dict.filterKeys_eq_self fun key row hrow ↦ ?_
  cases hdeleted : o'.isDeletedKey deleted key with
  | false => rfl
  | true =>
    simp [stored, Dict.get_filterKeys, isDeletedKey_le_of_repeats h hdeleted] at hrow

theorem outbound_of_repeats : (o'.stored deleted).outbound = (o.stored deleted).outbound := by
  have hkept (key : String) (row : Row) (hrow : (o.stored deleted).outbound.get key = some row)
      (hsync : o.snap.syncPlayback = true) : o.active.get key = none := by
    simp only [stored] at hrow
    split at hrow
    · simp at hrow
    · simp only [outbound, if_pos hsync, Dict.get_filterKeys] at hrow
      split at hrow
      · rename_i hnone
        exact Option.isNone_iff_eq_none.mp hnone
      · simp at hrow
  have hfirst := first_of_repeats h
  show (if o'.first = true then Dict.empty else o'.outbound) = (o.stored deleted).outbound
  rw [if_neg (by simp [hfirst]), outbound, removed_of_repeats h, previous_of_repeats h]
  have hall : ((o.stored deleted).outbound.filterKeys fun key ↦ !(decide (key ∈ ([] : List String)) &&
      ((o.stored deleted).progress.get key).any fun old ↦ completedProgress old o'.completed)) =
      (o.stored deleted).outbound := Dict.filterKeys_eq_self fun key row _ ↦ by simp
  rw [hall, h.snap]
  split
  · rename_i hsync
    refine Dict.filterKeys_eq_self fun key row hrow ↦ ?_
    rw [active_of_repeats h, if_pos hsync, hkept key row hrow hsync]
    rfl
  · rfl

theorem nuvioVisibility_of_repeats :
    (o'.stored deleted).nuvioVisibility = (o.stored deleted).nuvioVisibility := by
  funext surface
  show nuvioVisibility o'.reading o'.conn o'.previous o'.snap surface = _
  rw [nuvioVisibility, observedVisibility_of_repeats h, previous_of_repeats h]
  simp only [stored, nuvioVisibility]
  cases observedVisibility o.reading o.conn o.snap surface <;> rfl

theorem visibilityEcho_of_repeats :
    (o'.stored deleted).visibilityEcho = (o.stored deleted).visibilityEcho := by
  funext surface
  show visibilityEcho o'.reading o'.conn o'.previous o'.snap surface = _
  rw [visibilityEcho, observedVisibility_of_repeats h, previous_of_repeats h]
  simp only [stored]
  cases hcurrent : observedVisibility o.reading o.conn o.snap surface with
  | none => rfl
  | some current =>
    simp only [visibilityEcho, hcurrent, Option.getD_some, Option.some.injEq]
    refine Dict.filterKeys_eq_self fun key hidden hget ↦ ?_
    rw [Dict.get_filterKeys] at hget
    split at hget
    · rename_i hkept
      cases hold : o.previous.visibilityEcho surface with
      | none => simp [hold] at hget
      | some markers =>
        rw [hold, Option.getD_some] at hget
        have hnot : ¬ isAcknowledged o.previous surface current key = true := by simpa using hkept
        simp only [isAcknowledged, hold, Option.any_some, hget, decide_eq_true_eq] at hnot
        simp [isAcknowledged, visibilityEcho, hcurrent, hold, Dict.get_filterKeys, hget, hnot]
    · simp at hget

theorem recorded_filter_of_repeats (hrepeatable : o.Repeatable deleted t) {rows : List Row}
    (hrows : ∀ row ∈ rows, row ∈ o.recorded) :
    (rows.filter fun row ↦ !o'.isDeletedKey deleted row.contentId) =
      rows.filter fun row ↦ !o.isDeletedKey deleted row.contentId := by
  refine List.filter_congr fun row hrow ↦ ?_
  rw [isDeletedKey_of_repeats h hrepeatable (hrows row hrow)]

/-- The second pull stores what the first one did. -/
theorem stored_of_repeats (hrepeatable : o.Repeatable deleted t) :
    o'.stored deleted = o.stored deleted := by
  have hwatched : (o'.stored deleted).watched = (o.stored deleted).watched := by
    simp only [stored, watchedRows_of_repeats h, previous_of_repeats h, h.snap]
    split <;> rfl
  have hcompleted : (o'.stored deleted).progressCompleted = (o.stored deleted).progressCompleted := by
    simp only [stored, progressCompletedRows_of_repeats h, previous_of_repeats h, h.snap]
    split <;> rfl
  have hrecordsWatched : (o'.stored deleted).recordsWatched = (o.stored deleted).recordsWatched := by
    simp only [stored, previous_of_repeats h, h.snap]
    split
    · rename_i hsync
      refine recorded_filter_of_repeats h hrepeatable fun row hrow ↦ ?_
      rw [recorded, watchedRows, if_pos hsync]
      exact List.mem_append_left _ hrow
    · rfl
  have hrecordsProgress :
      (o'.stored deleted).recordsProgress = (o.stored deleted).recordsProgress := by
    simp only [stored, previous_of_repeats h, h.snap]
    split
    · rename_i hsync
      refine recorded_filter_of_repeats h hrepeatable fun row hrow ↦ ?_
      rw [recorded, if_pos hsync]
      exact List.mem_append_right _ hrow
    · rfl
  have hlibrary : (o'.stored deleted).library = (o.stored deleted).library := by
    simp only [stored, h.snap]
  have hrecordsLibrary : (o'.stored deleted).recordsLibrary = (o.stored deleted).recordsLibrary := by
    simp only [stored, h.snap]
  have hguard : (o'.stored deleted).clearGuard = (o.stored deleted).clearGuard := by
    show o'.previous.clearGuard = _
    rw [previous_of_repeats h]
  have hothers : (o'.stored deleted).others = (o.stored deleted).others := by
    show o'.previous.others = _
    rw [previous_of_repeats h]
  rw [Stored.ext_iff]
  exact ⟨hlibrary, progress_of_repeats h hrepeatable, mappings_of_repeats h, resume_of_repeats h,
    outbound_of_repeats h, nuvioVisibility_of_repeats h, visibilityEcho_of_repeats h, hwatched,
    hcompleted, hrecordsLibrary, hrecordsWatched, hrecordsProgress, hguard, hothers⟩

theorem earlyMapping_of_repeats (key : String) :
    earlyMapping o'.previous o'.snap key = earlyMapping o.previous o.snap key := by
  unfold earlyMapping
  rw [h.snap, previous_of_repeats h]
  cases hget : o.snap.tmdbIds.get key with
  | some tmdbId => rfl
  | none =>
    have hnot : key ∉ o.resolved.map Prod.fst := by
      intro hmem
      obtain ⟨⟨key', tmdbId⟩, hwrite, rfl⟩ := List.mem_map.mp hmem
      obtain ⟨⟨key'', id⟩, hentry, hmap⟩ := List.mem_filterMap.mp hwrite
      obtain ⟨id', hid, heq⟩ := Option.map_eq_some_iff.mp hmap
      obtain ⟨rfl, rfl⟩ := Prod.mk.inj heq
      rw [Dict.mem_entries.mp hentry] at hget
      exact Option.some_ne_none _ hget
    exact Dict.get_setAll_of_notMem hnot _

theorem isReleased_of_repeats (deletion : TrackingDeletion) :
    o'.isReleased deletion = o.isReleased deletion := by
  have hmedia (row : Row) : o'.earlyMedia row = o.earlyMedia row := by
    simp only [earlyMedia, earlyMapping_of_repeats h, h.cat]
  have hseen (row : Row) : o'.seenAt row = o.seenAt row := by
    simp only [seenAt, h.reading]
  simp only [isReleased, h.snap, hmedia, hseen]

end repeated

/-- A tombstone that the first pull leaves is left by the second. -/
theorem releaseRewatchedDeletions_of_repeats
    (h : o'.Repeats o (o.observe deletions t).baseline) (t' : Tracking) :
    o'.releaseRewatchedDeletions (o.observe deletions t).deletions t' =
      ((o.observe deletions t).deletions, t') := by
  have hnone : (o.observe deletions t).deletions.filter o'.isReleased = [] := by
    refine List.filter_eq_nil_iff.mpr fun deletion hdeletion ↦ ?_
    obtain ⟨hmem, hkept⟩ := List.mem_filter.mp hdeletion
    rw [isReleased_of_repeats h]
    intro hreleased
    refine of_decide_eq_true hkept (List.mem_map_of_mem ?_)
    exact List.mem_filter.mpr ⟨hmem, hreleased⟩
  simp [releaseRewatchedDeletions, hnone]

section sharedIdentifier

/-- A film and a series that TMDB numbers alike. -/
def sharedNumber : Catalogue :=
  { oneFilm with media := [⟨9, .movie, 603, some "tt0133093"⟩, ⟨5, .series, 603, some "tt0903747"⟩] }

def seriesResume : Row :=
  { filmWatch "" with
    contentId := "tt0903747", contentType := some .series, season := some 1, episode := some 2
    position := some 10, duration := some 100, watchedAt := none, modifiedAt := some "March" }

/-- A pull of a series in progress. -/
def seriesPull (now : Int) (prior : StreamBaseline) : Observation where
  reading := twoDates
  cat := sharedNumber
  conn := stremioAccount
  pull := ⟨now, 0, false, none, false, ∅, ∅, true, fun _ ↦ none, none⟩
  snap := ⟨[], [], [seriesResume], Dict.empty.set "tt0903747" (some 603), true, true, fun _ ↦ none⟩
  prior := some prior

def watchedSeries : Tracking :=
  { emptyList with
    entries := Dict.empty.set 5 ⟨.watching, 1, none, none, .owner, some 0, 0⟩ }

end sharedIdentifier

end Observation

end AnyList.Streaming
