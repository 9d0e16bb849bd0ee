import AnyList.Streaming.Imported
import AnyList.Streaming.Observe

namespace AnyList.Streaming

open AnyList.Library AnyList.Library.Members
open AnyList.Reconciliation.Watches (Status)

namespace Context

variable {ctx : Context} {acc : Progressing} {rows : List Row}

/-- A group of rows is passed over, or decides about a title of the list that is not waiting for
its owner. -/
theorem stepGroup_cases (ctx : Context) (acc : Progressing) (rows : List Row) :
    ctx.stepGroup acc rows = acc ∨ ∃ media entry row kept, ctx.deleted media.id = false ∧
      acc.tracking.entries.get media.id = some entry ∧
      (acc.tracking.hasPending media.id = false ∨ ctx.allowed media.id none = some true) ∧
      ctx.stepGroup acc rows = ctx.applyRow acc media entry row kept := by
  unfold stepGroup
  extract_lets kept
  split
  · exact .inl rfl
  · split
    · exact .inl rfl
    · rename_i row _
      split
      · exact .inl rfl
      · rename_i media _
        split
        · exact .inl rfl
        · rename_i hdeleted
          split
          · exact .inl rfl
          · rename_i entry hentry
            split
            · exact .inl rfl
            · rename_i hpending
              refine .inr ⟨media, entry, row, kept, ?_, hentry, ?_, rfl⟩
              · simpa using (not_or.mp hdeleted).1
              · by_cases hnone : acc.tracking.hasPending media.id = true
                · exact .inr (not_not.mp (not_and.mp hpending hnone))
                · exact .inl (Bool.eq_false_iff.mpr hnone)

/-- Counting episodes adds plays of the title, and nothing else. -/
structure Counts (cat : Catalogue) (mediaId : ℕ) (t t' : Tracking) : Prop where
  entries : t'.entries = t.entries
  reviews : t'.reviews = t.reviews
  playing : t'.playing = t.playing
  rated : t'.rated = t.rated
  plays : ∀ play ∈ t'.plays, play ∈ t.plays ∨ cat.titleOf play.mediaId = some mediaId

theorem Counts.refl (cat : Catalogue) (mediaId : ℕ) (t : Tracking) : Counts cat mediaId t t :=
  ⟨rfl, rfl, rfl, rfl, fun _ h ↦ .inl h⟩

theorem Counts.trans {cat : Catalogue} {mediaId : ℕ} {t t' t'' : Tracking}
    (h : Counts cat mediaId t t') (h' : Counts cat mediaId t' t'') : Counts cat mediaId t t'' := by
  refine ⟨h'.entries.trans h.entries, h'.reviews.trans h.reviews, h'.playing.trans h.playing,
    h'.rated.trans h.rated, fun play hplay ↦ ?_⟩
  obtain hplay | htitle := h'.plays play hplay
  · exact h.plays play hplay
  · exact .inr htitle

theorem counts_applySeriesObservation (hcat : ctx.cat.Agrees) (t : Tracking) (media : Media)
    (entry : TrackedEntry) (row : Row) (finished : Bool) :
    Counts ctx.cat media.id t (ctx.applySeriesObservation t media entry row finished).1 := by
  unfold applySeriesObservation
  split
  · exact Counts.refl _ _ t
  · rename_i episodes hepisodes
    split
    · exact Counts.refl _ _ t
    · refine ⟨rfl, rfl, rfl, rfl, fun play hplay ↦ ?_⟩
      obtain hplay | hplay := List.mem_append.mp hplay
      · exact .inl hplay
      · obtain ⟨episode, hepisode, rfl⟩ := List.mem_map.mp hplay
        have hmem := List.mem_of_mem_take (List.mem_of_mem_filter hepisode)
        exact .inr (hcat.released media.id episodes hepisodes episode hmem)

theorem counts_foldl_applySeriesObservation (ctx : Context) (hcat : ctx.cat.Agrees) (media : Media)
    (episodes : List Row) (state : Tracking × TrackedEntry × Bool × List ℕ) :
    Counts ctx.cat media.id state.1 (episodes.foldl
      (fun (tracking, advanced, _, newly) episode ↦
        let (tracking, advanced, isComplete, found) := ctx.applySeriesObservation tracking media
          advanced episode (decide (episode ∈ ctx.newCompleted))
        (tracking, advanced, isComplete, newly ++ found)) state).1 := by
  induction episodes generalizing state with
  | nil => exact Counts.refl _ _ _
  | cons first rest ih =>
    obtain ⟨tracking, advanced, isComplete, newly⟩ := state
    rw [List.foldl_cons]
    refine Counts.trans ?_ (ih _)
    exact counts_applySeriesObservation hcat tracking media advanced first _

def OnlyCalls (t t' : Tracking) : Prop := ∃ calls, t' = { t with calls := calls }

theorem OnlyCalls.trans {t t' t'' : Tracking} (h : OnlyCalls t t') (h' : OnlyCalls t' t'') :
    OnlyCalls t t'' := by
  obtain ⟨calls, rfl⟩ := h
  obtain ⟨calls', rfl⟩ := h'
  exact ⟨calls', rfl⟩

theorem onlyCalls_ite (p : Prop) [Decidable p] (t : Tracking) (call : Call) :
    OnlyCalls t (if p then t.call call else t) := by
  split
  · exact ⟨_, rfl⟩
  · exact ⟨_, rfl⟩

theorem onlyCalls_recordActivity (t : Tracking) (media : Media) (previous entry : TrackedEntry)
    (newlyTracked : Bool) : OnlyCalls t (recordActivity t media previous entry newlyTracked) := by
  unfold recordActivity
  cases media.kind
  · exact onlyCalls_ite _ t _
  · exact onlyCalls_ite _ t _

/-- An accepted observation sets its title's entry and calls the queues. -/
theorem accept_tracking (ctx : Context) (acc : Progressing) (media : Media)
    (entry previous : TrackedEntry) (row : Row) (rows : List Row) (proposed : Status) :
    ∃ dated calls, (ctx.accept acc media entry previous row rows proposed).tracking =
      { acc.tracking with
        entries := acc.tracking.entries.set media.id dated
        calls := calls } := by
  unfold accept
  extract_lets newlyTracked watches status marked dated statusChanged dismissed recorded queued rated
  have hdismissed : OnlyCalls acc.tracking dismissed := onlyCalls_ite _ _ _
  have hrated : OnlyCalls (dismissed.setEntry media.id dated) rated :=
    ((onlyCalls_recordActivity _ media previous dated newlyTracked).trans
      (onlyCalls_ite _ _ _)).trans (onlyCalls_ite _ _ _)
  obtain ⟨calls, hcalls⟩ := hdismissed
  obtain ⟨calls', hcalls'⟩ := hrated
  refine ⟨dated, calls', ?_⟩
  rw [hcalls', hcalls]
  rfl

end Context

namespace Observation

variable {o : Observation} {deleted : ℕ → Bool} {t t' t'' : Tracking}

/-- A status review from before its offer was dropped. -/
def IsLegacy (o : Observation) (review : SyncReview) : Prop :=
  review.connectionId = o.conn.id ∧ review.state = .pending ∧ review.kind = .conflict ∧
    review.payload = none ∧ review.previousStatus = review.proposedStatus ∧
    "playback timing cannot be ordered".toList <:+: review.message.toList

/-- No pending review is left without a choice. -/
def Settled (o : Observation) (t : Tracking) : Prop :=
  ∀ review ∈ t.reviews, o.isRedundant t review = false

/-- A legacy review meets a pull that can retire it, and no cycle has decided about its title. -/
def Guarded (o : Observation) (t : Tracking) : Prop :=
  ∀ review ∈ t.reviews, o.IsLegacy review → o.decides = true ∧
    ∀ mediaId, review.mediaId = some mediaId → o.allowed mediaId ≠ some true

theorem isRedundant_eq_true {review : SyncReview} : o.isRedundant t review = true ↔
    o.IsLegacy review ∧ ∃ mediaId entry, review.mediaId = some mediaId ∧
      t.entries.get mediaId = some entry ∧ review.proposedStatus = some entry.status := by
  unfold isRedundant
  rw [Bool.and_eq_true, decide_eq_true_eq, Option.any_eq_true]
  refine and_congr Iff.rfl ?_
  constructor
  · rintro ⟨entry, hentry, hstatus⟩
    obtain ⟨mediaId, hid, hget⟩ := Option.bind_eq_some_iff.mp hentry
    exact ⟨mediaId, entry, hid, hget, of_decide_eq_true hstatus⟩
  · rintro ⟨mediaId, entry, hid, hget, hstatus⟩
    exact ⟨entry, Option.bind_eq_some_iff.mpr ⟨mediaId, hid, hget⟩, decide_eq_true hstatus⟩

theorem settled_of_not_decides (h : o.Guarded t) (hnot : o.decides ≠ true) : o.Settled t := by
  intro review hreview
  apply Bool.eq_false_iff.mpr
  intro hredundant
  exact hnot (h review hreview (isRedundant_eq_true.mp hredundant).1).1

theorem hasPending_of_isLegacy {review : SyncReview} {mediaId : ℕ} (hmem : review ∈ t.reviews)
    (hlegacy : o.IsLegacy review) (hid : review.mediaId = some mediaId) :
    t.hasPending mediaId = true := by
  refine List.any_eq_true.mpr ⟨review, hmem, decide_eq_true ?_⟩
  exact ⟨hid, hlegacy.2.1, .inr hlegacy.2.2.1⟩

/-- What the steps after the retirement of legacy reviews do: they add reviews that offer a choice,
and leave the status of a title that waits for its owner. -/
structure Advances (o : Observation) (deleted : ℕ → Bool) (t t' : Tracking) : Prop
    extends Keeps o.cat deleted t t' where
  kept : ∀ review ∈ t.reviews, review ∈ t'.reviews
  added : ∀ review ∈ t'.reviews, review ∈ t.reviews ∨ ¬ o.IsLegacy review
  statuses : ∀ mediaId entry', t'.entries.get mediaId = some entry' →
    (∃ entry, t.entries.get mediaId = some entry ∧ entry.status = entry'.status) ∨
      t.hasPending mediaId = false ∨ o.allowed mediaId = some true

namespace Advances

theorem refl (t : Tracking) : o.Advances deleted t t :=
  ⟨Keeps.refl t, fun _ h ↦ h, fun _ h ↦ .inl h, fun _ entry h ↦ .inl ⟨entry, h, rfl⟩⟩

theorem trans (h : o.Advances deleted t t') (h' : o.Advances deleted t' t'') :
    o.Advances deleted t t'' := by
  have hfree (mediaId : ℕ) (hnone : t'.hasPending mediaId = false) :
      t.hasPending mediaId = false := by
    apply Bool.eq_false_iff.mpr
    intro hpending
    obtain ⟨review, hreview, hopen⟩ := List.any_eq_true.mp hpending
    have htrue : t'.hasPending mediaId = true :=
      List.any_eq_true.mpr ⟨review, h.kept review hreview, hopen⟩
    rw [hnone] at htrue
    exact Bool.false_ne_true htrue
  refine ⟨h.toKeeps.trans h'.toKeeps, fun review hreview ↦ h'.kept review (h.kept review hreview),
    fun review hreview ↦ ?_, fun mediaId entry'' hget ↦ ?_⟩
  · obtain hold | hnew := h'.added review hreview
    · exact h.added review hold
    · exact .inr hnew
  · obtain ⟨entry', hget', hstatus'⟩ | hnone | hallowed := h'.statuses mediaId entry'' hget
    · obtain ⟨entry, hentry, hstatus⟩ | hother := h.statuses mediaId entry' hget'
      · exact .inl ⟨entry, hentry, hstatus.trans hstatus'⟩
      · exact .inr hother
    · exact .inr (.inl (hfree mediaId hnone))
    · exact .inr (.inr hallowed)

theorem settled (h : o.Advances deleted t t') (hguarded : o.Guarded t) (hsettled : o.Settled t) :
    o.Settled t' ∧ o.Guarded t' := by
  constructor
  · intro review hreview
    apply Bool.eq_false_iff.mpr
    intro hredundant
    obtain ⟨hlegacy, mediaId, entry', hid, hentry', hstatus'⟩ := isRedundant_eq_true.mp hredundant
    have hold := (h.added review hreview).resolve_right (not_not.mpr hlegacy)
    obtain ⟨entry, hentry, hstatus⟩ | hnone | hallowed := h.statuses mediaId entry' hentry'
    · have htrue : o.isRedundant t review = true :=
        isRedundant_eq_true.mpr ⟨hlegacy, mediaId, entry, hid, hentry, hstatus ▸ hstatus'⟩
      rw [hsettled review hold] at htrue
      exact Bool.false_ne_true htrue
    · have hpending := hasPending_of_isLegacy hold hlegacy hid
      rw [hnone] at hpending
      exact Bool.false_ne_true hpending
    · exact (hguarded review hold hlegacy).2 mediaId hid hallowed
  · intro review hreview hlegacy
    have hold := (h.added review hreview).resolve_right (not_not.mpr hlegacy)
    exact hguarded review hold hlegacy

theorem foldl {α : Type*} {f : Observed → α → Observed} {l : List α}
    (h : ∀ acc, ∀ a ∈ l, o.Advances deleted acc.tracking (f acc a).tracking) (acc : Observed) :
    o.Advances deleted acc.tracking (l.foldl f acc).tracking := by
  induction l generalizing acc with
  | nil => exact refl _
  | cons a l ih =>
    exact (h acc a List.mem_cons_self).trans
      (ih (fun acc a ha ↦ h acc a (List.mem_cons_of_mem _ ha)) (f acc a))

/-- Setting the entry of a title that does not wait for its owner. -/
theorem of_set {mediaId : ℕ} {entry : TrackedEntry} {calls : List Call}
    (hfree : t.hasPending mediaId = false ∨ o.allowed mediaId = some true) :
    o.Advances deleted t
      { t with
        entries := t.entries.set mediaId entry
        calls := calls } := by
  refine ⟨Keeps.of_plays (fun title hsome ↦ ?_) rfl rfl rfl, fun _ h ↦ h, fun _ h ↦ .inl h,
    fun id entry' hget ↦ ?_⟩
  · rw [Dict.get_set]
    split
    · rfl
    · exact hsome
  · rw [Dict.get_set] at hget
    split at hget
    · rename_i hid
      subst hid
      exact .inr hfree
    · exact .inl ⟨entry', hget, rfl⟩

theorem of_addReview {review : SyncReview} (hlegacy : ¬ o.IsLegacy review) :
    o.Advances deleted t (t.addReview review) := by
  refine ⟨Keeps.of_plays (fun _ h ↦ h) rfl rfl rfl, fun r hr ↦ List.mem_append_left _ hr,
    fun r hr ↦ ?_, fun _ entry h ↦ .inl ⟨entry, h, rfl⟩⟩
  obtain hr | hr := List.mem_append.mp hr
  · exact .inl hr
  · obtain rfl := List.mem_singleton.mp hr
    exact .inr hlegacy

theorem of_counts {mediaId : ℕ} {entry : TrackedEntry} (h : Context.Counts o.cat mediaId t t')
    (hdeleted : deleted mediaId = false) (hentry : t.entries.get mediaId = some entry) :
    o.Advances deleted t t' := by
  refine ⟨⟨fun title hsome ↦ h.entries ▸ hsome, h.playing, h.rated, fun play hplay ↦ ?_⟩,
    fun r hr ↦ h.reviews ▸ hr, fun r hr ↦ .inl (h.reviews ▸ hr),
    fun id entry' hget ↦ .inl ⟨entry', h.entries ▸ hget, rfl⟩⟩
  obtain hplay | htitle := h.plays play hplay
  · exact .inl hplay
  · refine .inr ⟨mediaId, htitle, hdeleted, ?_⟩
    rw [h.entries, hentry]
    rfl

end Advances

section rows

variable {existing : ℕ → Bool} {newWatched : List Row} (hcat : o.cat.Agrees)

include hcat

theorem advances_applyRow (acc : Progressing) (media : Media) (entry : TrackedEntry) (row : Row)
    (rows : List Row) (hdeleted : deleted media.id = false)
    (hentry : acc.tracking.entries.get media.id = some entry)
    (hfree : acc.tracking.hasPending media.id = false ∨ o.allowed media.id = some true) :
    o.Advances deleted acc.tracking
      ((o.context deleted existing newWatched).applyRow acc media entry row rows).tracking := by
  unfold Context.applyRow
  split
  · exact Advances.refl _
  · simp only [Context.raiseUnordered]
    split
    · exact Advances.refl _
    · exact Advances.of_addReview fun hlegacy ↦ Option.some_ne_none _ hlegacy.2.2.2.1
  · split
    · obtain ⟨dated, calls, heq⟩ := Context.accept_tracking (o.context deleted existing newWatched)
        acc media entry entry row rows
        (observedStatus (some entry.status)
          (decide (row ∈ (o.context deleted existing newWatched).newCompleted)) true)
      rw [heq]
      exact Advances.of_set hfree
    · have hcounts := Context.counts_foldl_applySeriesObservation
        (o.context deleted existing newWatched) hcat media
        (rows.filter (· ∈ (o.context deleted existing newWatched).newCompleted) ++ [row])
        (acc.tracking, entry, false, [])
      have hadvances := Advances.of_counts hcounts hdeleted hentry
      obtain ⟨dated, calls, heq⟩ := Context.accept_tracking (o.context deleted existing newWatched)
        _ media _ entry row rows _
      refine hadvances.trans ?_
      rw [heq]
      refine Advances.of_set ?_
      simp only [Tracking.hasPending, hcounts.reviews] at hfree ⊢
      exact hfree

theorem advances_processRows (acc : Progressing) : o.Advances deleted acc.tracking
    ((o.context deleted existing newWatched).processRows acc).tracking := by
  unfold Context.processRows
  induction (o.context deleted existing newWatched).groups.values generalizing acc with
  | nil => exact Advances.refl _
  | cons rows rest ih =>
    rw [List.foldl_cons]
    refine Advances.trans ?_ (ih _)
    obtain heq | ⟨media, entry, row, kept, hdeleted, hentry, hfree, heq⟩ :=
      Context.stepGroup_cases (o.context deleted existing newWatched) acc rows
    · rw [heq]
      exact Advances.refl _
    · rw [heq]
      exact advances_applyRow hcat acc media entry row kept hdeleted hentry hfree

end rows

section dismissals

variable {acc : Observed} {media : Media} {entry : TrackedEntry} {conflict : Bool}
  {message : String}

theorem of_not_waits (h : ¬ o.waits acc media = true) :
    acc.tracking.hasPending media.id = false ∨ o.allowed media.id = some true := by
  simp only [waits, Bool.and_eq_true, decide_eq_true_eq, not_and, not_not] at h
  cases hpending : acc.tracking.hasPending media.id with
  | false => exact .inl rfl
  | true => exact .inr (h hpending)

/-- A dismissal adds its review, and then sets the entry and calls the queues unless it is a
conflict. -/
theorem dismiss_tracking (o : Observation) (acc : Observed) (media : Media) (entry : TrackedEntry)
    (conflict : Bool) (message : String) : ∃ review : SyncReview,
      (review.kind = .conflict → conflict = true) ∧ review.mediaId = some media.id ∧
      review.previousStatus = some entry.status ∧
      review.proposedStatus = some (dismissedStatus media) ∧
      ((o.dismiss acc media entry conflict message).tracking = acc.tracking.addReview review ∨
        ∃ marked calls, (o.dismiss acc media entry conflict message).tracking =
          { acc.tracking.addReview review with
            entries := acc.tracking.entries.set media.id marked
            calls := calls }) := by
  refine ⟨{ connectionId := o.conn.id, mediaId := some media.id
            kind := if conflict then .conflict else .playbackRemoved
            state := if o.pull.autoConfirm && !conflict && o.approved then .confirmed else .pending
            previousStatus := some entry.status, proposedStatus := some (dismissedStatus media)
            message, payload := none, dismissedAt := none }, ?_, rfl, rfl, rfl, ?_⟩
  · cases conflict <;> simp
  · cases conflict with
    | true => exact .inl rfl
    | false =>
      right
      cases hconfirmed : o.pull.autoConfirm && !false && o.approved
      · exact ⟨_, _, by simp only [dismiss, hconfirmed]; rfl⟩
      · exact ⟨_, _, by simp only [dismiss, hconfirmed]; rfl⟩

theorem keeps_dismiss : Keeps o.cat deleted acc.tracking
    (o.dismiss acc media entry conflict message).tracking := by
  obtain ⟨review, _, _, _, _, heq | ⟨marked, calls, heq⟩⟩ :=
    dismiss_tracking o acc media entry conflict message
  · rw [heq]
    exact Keeps.of_plays (fun _ h ↦ h) rfl rfl rfl
  · rw [heq]
    exact (Keeps.setEntry acc.tracking media.id marked).trans
      (Keeps.of_plays (fun _ h ↦ h) rfl rfl rfl)

theorem guarded_dismiss (h : o.Guarded acc.tracking) (hdecides : o.decides = true)
    (hconflict : conflict = true → o.allowed media.id ≠ some true) :
    o.Guarded (o.dismiss acc media entry conflict message).tracking := by
  obtain ⟨review, hkind, hid, _, _, heq⟩ := dismiss_tracking o acc media entry conflict message
  have hreviews : (o.dismiss acc media entry conflict message).tracking.reviews =
      acc.tracking.reviews ++ [review] := by
    obtain heq | ⟨marked, calls, heq⟩ := heq <;> rw [heq] <;> rfl
  intro r hr hlegacy
  rw [hreviews] at hr
  obtain hr | hr := List.mem_append.mp hr
  · exact h r hr hlegacy
  · obtain rfl := List.mem_singleton.mp hr
    refine ⟨hdecides, fun mediaId hmedia ↦ ?_⟩
    obtain rfl : media.id = mediaId := Option.some.inj (hid.symm.trans hmedia)
    exact hconflict (hkind hlegacy.2.2.1)

theorem advances_dismiss (hstatus : entry.status = .watching)
    (hfree : acc.tracking.hasPending media.id = false ∨ o.allowed media.id = some true) :
    o.Advances deleted acc.tracking (o.dismiss acc media entry conflict message).tracking := by
  obtain ⟨review, _, _, hprevious, hproposed, heq⟩ :=
    dismiss_tracking o acc media entry conflict message
  have hlegacy : ¬ o.IsLegacy review := by
    intro hlegacy
    have hsame := hlegacy.2.2.2.2.1
    rw [hprevious, hproposed, hstatus] at hsame
    unfold dismissedStatus at hsame
    split at hsame <;> cases hsame
  obtain heq | ⟨marked, calls, heq⟩ := heq
  · rw [heq]
    exact Advances.of_addReview hlegacy
  · rw [heq]
    exact (Advances.of_set hfree).trans (Advances.of_addReview hlegacy)

theorem advances_dismissTitles (clocks : ℕ → Option Int) (acc : Observed) :
    o.Advances deleted acc.tracking (o.dismissTitles clocks acc).tracking := by
  unfold dismissTitles
  split
  · refine Advances.foldl (fun acc tmdbId _ ↦ ?_) acc
    unfold dismissTitle
    split
    · exact Advances.refl _
    · rename_i media _
      split
      · exact Advances.refl _
      · rename_i entry _
        split
        · exact Advances.refl _
        · rename_i hnot
          obtain ⟨_, hnot⟩ := not_or.mp hnot
          obtain ⟨hstatus, hwaits⟩ := not_or.mp hnot
          exact advances_dismiss (not_not.mp hstatus) (of_not_waits hwaits)
  · exact Advances.refl _

theorem first_of_mem_removed {key : String} (h : key ∈ o.removed) : o.first = false := by
  unfold removed at h
  split at h
  · rename_i hcond
    simp only [Bool.and_eq_true, Bool.not_eq_true'] at hcond
    exact hcond.1.1
  · simp at h

theorem removePlayback_keeps (deleted : ℕ → Bool) {key : String} (hkey : key ∈ o.removed) (acc : Observed) :
    Keeps o.cat deleted acc.tracking (o.removePlayback acc key).tracking ∧
      (o.Guarded acc.tracking → o.Guarded (o.removePlayback acc key).tracking) := by
  have hdecides : o.decides = true := by simp [decides, first_of_mem_removed hkey]
  unfold removePlayback
  split
  · exact ⟨Keeps.refl _, fun h ↦ h⟩
  · split
    · exact ⟨Keeps.refl _, fun h ↦ h⟩
    · split
      · exact ⟨Keeps.refl _, fun h ↦ h⟩
      · split
        · exact ⟨Keeps.refl _, fun h ↦ h⟩
        · split
          · exact ⟨Keeps.refl _, fun h ↦ h⟩
          · refine ⟨keeps_dismiss, fun h ↦ guarded_dismiss h hdecides fun hconflict ↦ ?_⟩
            simp only [editedSince, Bool.and_eq_true, decide_eq_true_eq] at hconflict
            exact hconflict.2

theorem foldl_removePlayback (deleted : ℕ → Bool) (keys : List String) (hkeys : ∀ key ∈ keys, key ∈ o.removed)
    (acc : Observed) (h : o.Guarded acc.tracking) :
    Keeps o.cat deleted acc.tracking (keys.foldl o.removePlayback acc).tracking ∧
      o.Guarded (keys.foldl o.removePlayback acc).tracking := by
  induction keys generalizing acc with
  | nil => exact ⟨Keeps.refl _, h⟩
  | cons key keys ih =>
    obtain ⟨hkeeps, hguarded⟩ := removePlayback_keeps deleted
      (hkeys key List.mem_cons_self) acc
    obtain ⟨hrest, hguarded'⟩ := ih (fun k hk ↦ hkeys k (List.mem_cons_of_mem key hk)) _ (hguarded h)
    exact ⟨hkeeps.trans hrest, hguarded'⟩

end dismissals

section removals

theorem advances_removeWatched (acc : Observed) (mediaId : ℕ) :
    o.Advances deleted acc.tracking (o.removeWatched acc mediaId).tracking := by
  unfold removeWatched
  split
  · exact ⟨⟨fun _ h ↦ h, rfl, rfl, fun _ hplay ↦ .inl (List.mem_of_mem_filter hplay)⟩,
      fun _ h ↦ h, fun _ h ↦ .inl h, fun _ entry h ↦ .inl ⟨entry, h, rfl⟩⟩
  · exact Advances.refl _

theorem advances_recountSeries (t : Tracking) (tmdbId : Int) :
    o.Advances deleted t (o.recountSeries t tmdbId) := by
  unfold recountSeries
  split
  · exact Advances.refl t
  · rename_i series _
    split
    · exact Advances.refl t
    · rename_i entry hentry
      refine ⟨Keeps.setEntry t _ _, fun _ h ↦ h, fun _ h ↦ .inl h, fun id entry' hget ↦ .inl ?_⟩
      simp only [Tracking.setEntry, Dict.get_set] at hget
      split at hget
      · rename_i hid
        subst hid
        obtain rfl := Option.some.inj hget
        exact ⟨entry, hentry, rfl⟩
      · exact ⟨entry', hget, rfl⟩

theorem advances_removeMissing (acc : Observed) :
    o.Advances deleted acc.tracking (o.removeMissing acc).tracking := by
  unfold removeMissing
  split
  · have hremoved : o.Advances deleted acc.tracking
        (o.missingWatched.foldl o.removeWatched acc).tracking :=
      Advances.foldl (fun acc mediaId _ ↦ advances_removeWatched acc mediaId) acc
    have hrecount (shows : List Int) (t : Tracking) :
        o.Advances deleted t (shows.foldl o.recountSeries t) := by
      induction shows generalizing t with
      | nil => exact Advances.refl t
      | cons show' shows ih => exact (advances_recountSeries t show').trans (ih _)
    exact hremoved.trans (hrecount _ _)
  · exact Advances.refl _

end removals

section pipeline

theorem guarded_of_reviews (h : o.Guarded t) (hreviews : ∀ review ∈ t'.reviews,
    review ∈ t.reviews ∨ ¬ o.IsLegacy review) : o.Guarded t' := by
  intro review hreview hlegacy
  exact h review ((hreviews review hreview).resolve_right (not_not.mpr hlegacy)) hlegacy

theorem reviews_importTrackingHistory (cat : Catalogue) (now : Int) (deleted : ℕ → Bool)
    (t : Tracking) : (importTrackingHistory cat now deleted t).1.reviews = t.reviews := by
  have hfold (items : List (ℕ × Evidence)) (acc : Tracking × List ℕ) :
      (items.foldl (importStep cat now) acc).1.reviews = acc.1.reviews := by
    induction items generalizing acc with
    | nil => rfl
    | cons first rest ih =>
      rw [List.foldl_cons, ih]
      unfold importStep importTitle
      split
      · split <;> rfl
      · rfl
  exact hfold _ _

theorem start_keeps (deleted existing : ℕ → Bool) (imported : ℕ) (t : Tracking) :
    Keeps o.cat deleted t (o.start existing imported t) ∧
      (o.Guarded t → o.Guarded (o.start existing imported t)) := by
  have hconflict (t : Tracking) (row : Row) : Keeps o.cat deleted t (o.importConflict existing t row) ∧
      (o.Guarded t → o.Guarded (o.importConflict existing t row)) := by
    unfold importConflict
    split
    · exact ⟨Keeps.refl t, fun h ↦ h⟩
    · split
      · exact ⟨Keeps.refl t, fun h ↦ h⟩
      · split
        · exact ⟨Keeps.refl t, fun h ↦ h⟩
        · extract_lets proposed
          split_ifs with hsame
          · exact ⟨Keeps.refl t, fun h ↦ h⟩
          · refine ⟨Keeps.of_plays (fun _ h ↦ h) rfl rfl rfl, fun h ↦ ?_⟩
            refine guarded_of_reviews h fun review hreview ↦ ?_
            obtain hreview | hreview := List.mem_append.mp hreview
            · exact .inl hreview
            · obtain rfl := List.mem_singleton.mp hreview
              refine .inr fun hlegacy ↦ hsame (.inl ?_)
              exact (Option.some.inj hlegacy.2.2.2.2.1).symm
  have hfold (rows : List Row) (t : Tracking) :
      Keeps o.cat deleted t (rows.foldl (o.importConflict existing) t) ∧
        (o.Guarded t → o.Guarded (rows.foldl (o.importConflict existing) t)) := by
    induction rows generalizing t with
    | nil => exact ⟨Keeps.refl t, fun h ↦ h⟩
    | cons row rows ih =>
      obtain ⟨hkeeps, hguarded⟩ := hconflict t row
      obtain ⟨hkeeps', hguarded'⟩ := ih (o.importConflict existing t row)
      exact ⟨hkeeps.trans hkeeps', fun h ↦ hguarded' (hguarded h)⟩
  unfold start
  split
  · obtain ⟨hkeeps, hguarded⟩ := hfold o.active.values (o.openImport imported t)
    have hopen : Keeps o.cat deleted t (o.openImport imported t) :=
      Keeps.of_plays (fun _ h ↦ h) rfl rfl rfl
    refine ⟨hopen.trans hkeeps, fun h ↦ hguarded (guarded_of_reviews h fun review hreview ↦ ?_)⟩
    obtain hreview | hreview := List.mem_append.mp hreview
    · refine .inl ?_
      split at hreview
      · exact List.mem_of_mem_filter hreview
      · exact hreview
    · obtain rfl := List.mem_singleton.mp hreview
      exact .inr fun hlegacy ↦ ReviewKind.noConfusion hlegacy.2.2.1
  · exact ⟨Keeps.refl t, fun h ↦ h⟩

theorem retireRedundant_keeps (t : Tracking) : Keeps o.cat deleted t (o.retireRedundant t) :=
  Keeps.of_plays (fun _ h ↦ h) rfl rfl rfl

/-- A retired review is no longer pending. -/
theorem settled_retireRedundant (h : o.Guarded t) :
    o.Settled (o.retireRedundant t) ∧ o.Guarded (o.retireRedundant t) := by
  have hold : ∀ review ∈ (o.retireRedundant t).reviews, o.IsLegacy review →
      review ∈ t.reviews ∧ o.isRedundant t review = false := by
    intro review hreview hlegacy
    obtain ⟨old, hmem, heq⟩ := List.mem_map.mp hreview
    cases hredundant : o.isRedundant t old with
    | true =>
      rw [hredundant, if_pos rfl] at heq
      subst heq
      exact ReviewState.noConfusion hlegacy.2.1
    | false =>
      rw [hredundant, if_neg Bool.false_ne_true] at heq
      subst heq
      exact ⟨hmem, hredundant⟩
  constructor
  · intro review hreview
    apply Bool.eq_false_iff.mpr
    intro hredundant
    obtain ⟨hlegacy, hentry⟩ := isRedundant_eq_true.mp hredundant
    have htrue : o.isRedundant t review = true := isRedundant_eq_true.mpr ⟨hlegacy, hentry⟩
    rw [(hold review hreview hlegacy).2] at htrue
    exact Bool.false_ne_true htrue
  · intro review hreview hlegacy
    exact h review (hold review hreview hlegacy).1 hlegacy

theorem retireRedundant_of_settled (h : o.Settled t) : o.retireRedundant t = t := by
  have hreviews : (t.reviews.map fun review ↦
      if o.isRedundant t review then
        { review with state := .corrected, dismissedAt := some o.pull.now }
      else review) = t.reviews := by
    refine (List.map_congr_left fun review hreview ↦ ?_).trans (List.map_id _)
    rw [h review hreview]
    rfl
  simp only [retireRedundant, hreviews]

variable (hcat : o.cat.Agrees)

include hcat

theorem decideRows_keeps (deleted existing : ℕ → Bool) (imported : List ℕ) (acc : Observed)
    (h : o.Guarded acc.tracking) :
    Keeps o.cat deleted acc.tracking (o.decideRows deleted existing imported acc).tracking ∧
      o.Settled (o.decideRows deleted existing imported acc).tracking ∧
      o.Guarded (o.decideRows deleted existing imported acc).tracking := by
  unfold decideRows
  split
  · extract_lets retired newWatched result
    obtain ⟨hsettled, hguarded⟩ := settled_retireRedundant h
    have hadvances : o.Advances deleted retired result.tracking :=
      advances_processRows hcat ⟨retired, acc.accepted, acc.inferred, acc.changedMedia⟩
    exact ⟨(retireRedundant_keeps acc.tracking).trans hadvances.toKeeps,
      hadvances.settled hguarded hsettled⟩
  · rename_i hnot
    exact ⟨Keeps.refl _, settled_of_not_decides h hnot, h⟩

/-- An observation leaves an account with nothing to import and no review to retire. -/
theorem settled_observe (deletions : List TrackingDeletion) (t : Tracking) (h : o.Guarded t) :
    Imported o.cat (isDeleted (o.releaseRewatchedDeletions deletions t).1)
        (o.observe deletions t).observed.tracking ∧
      o.Settled (o.observe deletions t).observed.tracking := by
  unfold observe
  extract_lets released deleted existing imported clocks started removed decided dismissed
  have himported : Imported o.cat deleted imported.1 := imported_importTrackingHistory hcat _
  have himportGuarded : o.Guarded imported.1 := by
    refine guarded_of_reviews h fun review hreview ↦ .inl ?_
    rw [reviews_importTrackingHistory] at hreview
    exact List.mem_of_mem_filter hreview
  obtain ⟨hstart, hstartGuarded⟩ :=
    start_keeps deleted existing imported.2.length imported.1
  obtain ⟨hremoved, hremovedGuarded⟩ := foldl_removePlayback deleted o.removed
    (fun _ hkey ↦ hkey) ⟨started, [], [], [], imported.2⟩ (hstartGuarded himportGuarded)
  obtain ⟨hdecided, hsettled, hdecidedGuarded⟩ :=
    decideRows_keeps hcat deleted existing imported.2 removed hremovedGuarded
  have hlast : o.Advances deleted decided.tracking (o.removeMissing dismissed).tracking :=
    (advances_dismissTitles clocks decided).trans (advances_removeMissing dismissed)
  refine ⟨?_, (hlast.settled hdecidedGuarded hsettled).1⟩
  exact (((hstart.trans hremoved).trans hdecided).trans hlast.toKeeps).imported himported

end pipeline

end Observation

end AnyList.Streaming
