import AnyList.Streaming.Observe

namespace AnyList.Streaming

open AnyList.Library AnyList.Library.Members
open AnyList.Reconciliation.Watches (Status)

namespace Context

variable {ctx : Context} {acc : Progressing} {rows : List Row}

/-- A title's group holds rows of the observation. -/
theorem mem_of_mem_groups (h : rows ∈ ctx.groups.values) {row : Row} (hrow : row ∈ rows) :
    row ∈ ctx.newCompleted ++ ctx.changedActive := by
  have hfold (step : Dict ℕ (List Row) → Row → Dict ℕ (List Row)) (all source : List Row)
      (hstep : ∀ groups first, first ∈ all →
        (∀ id rows, groups.get id = some rows → ∀ r ∈ rows, r ∈ all) →
          ∀ id rows, (step groups first).get id = some rows → ∀ r ∈ rows, r ∈ all)
      (hsource : ∀ r ∈ source, r ∈ all) (groups : Dict ℕ (List Row))
      (hgroups : ∀ id rows, groups.get id = some rows → ∀ r ∈ rows, r ∈ all) :
      ∀ id rows, (source.foldl step groups).get id = some rows → ∀ r ∈ rows, r ∈ all := by
    induction source generalizing groups with
    | nil => exact hgroups
    | cons first rest ih =>
      apply ih fun r hr ↦ hsource r (List.mem_cons_of_mem first hr)
      exact hstep groups first (hsource first List.mem_cons_self) hgroups
  obtain ⟨id, hget⟩ := Dict.mem_values.mp h
  refine hfold _ (ctx.newCompleted ++ ctx.changedActive) _ ?_ (fun _ hr ↦ hr) .empty (by simp)
    id rows hget row hrow
  intro groups first hfirst hgroups id rows hget r hr
  cases hmedia : ctx.media first with
  | none =>
    rw [hmedia] at hget
    exact hgroups id rows hget r hr
  | some media =>
    rw [hmedia] at hget
    simp only [Dict.get_set] at hget
    split_ifs at hget
    · obtain rfl := Option.some.inj hget
      obtain hr | hr := List.mem_append.mp hr
      · cases hold : groups.get media.id with
        | none => simp [hold] at hr
        | some old =>
          rw [hold] at hr
          exact hgroups media.id old hold r hr
      · obtain rfl := List.mem_singleton.mp hr
        exact hfirst
    · exact hgroups id rows hget r hr

/-- The row that decides is a resume when all the rows of a title are. -/
theorem mem_of_latest (hrows : ∀ row ∈ rows, row ∈ ctx.changedActive) {row : Row}
    (h : ctx.latest rows = some row) : row ∈ ctx.changedActive := by
  have hmem := mem_of_firstMax h
  split_ifs at hmem
  · exact hrows row hmem
  · exact List.mem_of_mem_filter hmem

theorem stepGroup_eq_self (hrows : ∀ row ∈ rows, row ∈ ctx.changedActive)
    (hdeleted : ∀ row ∈ ctx.changedActive, ∀ media, ctx.media row = some media →
      ctx.deleted media.id = true) : ctx.stepGroup acc rows = acc := by
  unfold stepGroup
  extract_lets kept
  have hkept : ∀ row ∈ kept, row ∈ ctx.changedActive := by
    intro row hrow
    simp only [kept] at hrow
    split at hrow
    · exact hrows row (List.mem_of_mem_filter hrow)
    · exact hrows row hrow
  split
  · rfl
  · split
    · rfl
    · rename_i row hlatest
      have hrow := mem_of_latest hkept hlatest
      split
      · rfl
      · rename_i media hmedia
        rw [if_pos (.inl (hdeleted row hrow media hmedia))]

theorem processRows_eq_self (hnone : ctx.newCompleted = [])
    (hdeleted : ∀ row ∈ ctx.changedActive, ∀ media, ctx.media row = some media →
      ctx.deleted media.id = true) : ctx.processRows acc = acc := by
  refine foldl_stationary fun rows hrows ↦ stepGroup_eq_self (fun row hrow ↦ ?_) hdeleted
  have hmem := mem_of_mem_groups hrows hrow
  rwa [hnone, List.nil_append] at hmem

end Context

namespace Observation

variable {o : Observation} {deleted : ℕ → Bool} {t : Tracking}

/-- A later pull that reports nothing new of the titles on the list. -/
structure Quiet (o : Observation) (deleted : ℕ → Bool) (t : Tracking) : Prop where
  later : o.first = false
  removed : o.removed = []
  watched : ∀ row ∈ o.watchedRows, o.isNewWatch row = false
  completed : o.newProgressCompletedRows = []
  active : ∀ row ∈ o.changedActive, ∀ media, o.media row = some media → deleted media.id = true
  dismissed : ∀ tmdbId ∈ o.dismissedIds, ∀ media,
    (o.lookup tmdbId .series).or (o.lookup tmdbId .movie) = some media →
      ∀ entry, t.entries.get media.id = some entry → entry.status ≠ .watching
  missing : o.removesWatched = true → o.missingWatched = []

namespace Quiet

variable {existing : ℕ → Bool} {imported : List ℕ} {acc : Observed} (h : o.Quiet deleted t)

include h

theorem newWatchedRows_eq_nil (t' : Tracking) : o.newWatchedRows t' imported = [] := by
  have hnone : o.watchedRows.filter o.isNewWatch = [] := by
    simpa [List.filter_eq_nil_iff] using h.watched
  simp [newWatchedRows, currentWatchRows, hnone]

theorem newCompleted_eq_nil : o.newCompleted [] = [] := by
  simp [newCompleted, h.completed, Dict.setAll, Dict.values, Dict.empty]

theorem decideRows_eq (htracking : acc.tracking = t) :
    o.decideRows deleted existing imported acc = { acc with tracking := o.retireRedundant t } := by
  have hdecides : o.decides = true := by simp [decides, h.later]
  have hrows (acc : Progressing) : (o.context deleted existing []).processRows acc = acc :=
    Context.processRows_eq_self h.newCompleted_eq_nil h.active
  simp only [decideRows, if_pos hdecides, h.newWatchedRows_eq_nil, htracking, hrows]

theorem dismissTitles_eq_self {clocks : ℕ → Option Int} (hentries : acc.tracking.entries = t.entries) :
    o.dismissTitles clocks acc = acc := by
  unfold dismissTitles
  split
  · refine foldl_stationary fun tmdbId htmdbId ↦ ?_
    unfold dismissTitle
    split
    · rfl
    · rename_i media hmedia
      split
      · rfl
      · rename_i entry hentry
        rw [hentries] at hentry
        have hstatus := h.dismissed tmdbId htmdbId media hmedia entry hentry
        rw [if_pos (.inr (.inl hstatus))]
  · rfl

theorem removeMissing_eq_self (hnone : acc.removedWatched = []) : o.removeMissing acc = acc := by
  obtain ⟨tracking, accepted, inferred, removedWatched, changedMedia⟩ := acc
  obtain rfl : removedWatched = [] := hnone
  unfold removeMissing
  split
  · rename_i hremoves
    simp [h.missing hremoves, distinct]
  · rfl

end Quiet

/-- A quiet pull imports what is stored and retires what is left to decide, and nothing else. -/
theorem observe_of_quiet (deletions : List TrackingDeletion) (t : Tracking)
    (h : o.Quiet (isDeleted (o.releaseRewatchedDeletions deletions t).1)
      (importTrackingHistory o.cat o.pull.now
        (isDeleted (o.releaseRewatchedDeletions deletions t).1)
        (o.releaseRewatchedDeletions deletions t).2).1) :
    (o.observe deletions t).observed.tracking = o.retireRedundant
      (importTrackingHistory o.cat o.pull.now
        (isDeleted (o.releaseRewatchedDeletions deletions t).1)
        (o.releaseRewatchedDeletions deletions t).2).1 := by
  have hstart (existing : ℕ → Bool) (n : ℕ) (t' : Tracking) : o.start existing n t' = t' := by
    simp [start, h.later]
  simp only [observe, h.removed, List.foldl_nil, hstart]
  rw [h.decideRows_eq rfl, h.dismissTitles_eq_self rfl, h.removeMissing_eq_self rfl]

end Observation

end AnyList.Streaming
