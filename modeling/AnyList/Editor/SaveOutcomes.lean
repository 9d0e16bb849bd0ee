import AnyList.Editor.EditorPaint

namespace AnyList.Editor

open AnyList.Library
open AnyList.Reconciliation.Watches (Status)
open AnyList.Streaming (observedStatus defaultDates)

/-- What the editor and the server have in common. -/
structure Shown where
  status : Option Status
  progress : Option ℕ
  startDate : Option Int
  finishDate : Option Int
  deriving DecidableEq

def Entry.shown (entry : Entry) : Shown :=
  ⟨entry.status, entry.progress, entry.startDate, entry.finishDate⟩

def TrackedEntry.shown (entry : TrackedEntry) : Shown :=
  ⟨some entry.status, some entry.progress, entry.startDate, entry.finishDate⟩

def Agrees (shown : Option Entry) (saved : Option TrackedEntry) : Prop :=
  shown.map Entry.shown = saved.map TrackedEntry.shown

/-- The editor knows how many episodes are released, from the entry or from the seasons. -/
def Known (title : Title) (media : Media) (shown : Option Entry) : Prop :=
  title.type = media.type ∧
    match title.type with
    | .series => (shown.bind Entry.releasedEpisodes).or title.seasonsReleased = some media.released
    | .movie => ∀ n ∈ shown.bind Entry.releasedEpisodes, n = media.released

def Saved.previous (saved : Saved) : Option Status := saved.entry.map TrackedEntry.status

def Saved.base (saved : Saved) : TrackedEntry := saved.entry.getD (newTrackedEntry saved.favorite)

section saving

variable {media : Media} {today : Int} {body : EntryPatch} {saved saved' : Saved}

def statusAfter (body : EntryPatch) (saved : Saved) : Status :=
  (given body.status).getD saved.base.status

def startAfter (today : Int) (body : EntryPatch) (saved : Saved) : Option Int :=
  body.startDate.getD (defaultDates saved.previous (statusAfter body saved) saved.base.startDate
    saved.base.finishDate today).1

def finishAfter (today : Int) (body : EntryPatch) (saved : Saved) : Option Int :=
  body.finishDate.getD (defaultDates saved.previous (statusAfter body saved) saved.base.startDate
    saved.base.finishDate today).2

/-- What is saved where the status is not derived from the progress. -/
def plainly (today : Int) (body : EntryPatch) (saved : Saved) (progress : ℕ) : Shown :=
  ⟨some (statusAfter body saved), some progress, startAfter today body saved,
    finishAfter today body saved⟩

def resumed (media : Media) (saved : Saved) (progress : ℕ) : Status :=
  observedStatus saved.previous (decide (progress = media.released)) true

def resuming (media : Media) (today : Int) (body : EntryPatch) (saved : Saved) (progress : ℕ) :
    Shown :=
  let dates := defaultDates saved.previous (resumed media saved progress)
    (startAfter today body saved) (finishAfter today body saved) today
  ⟨some (resumed media saved progress), some progress, dates.1, dates.2⟩

inductive Outcome (media : Media) (today : Int) (body : EntryPatch) (saved : Saved) :
    Option Shown → Prop
  | favorite : body.onlyFavorite = true →
      Outcome media today body saved (saved.entry.map TrackedEntry.shown)
  | kept : body.onlyFavorite = false → given body.progress = none →
      completing media saved.previous (statusAfter body saved) = false →
      statusDriven media body = false →
      Outcome media today body saved (some (plainly today body saved saved.base.progress))
  | driven : body.onlyFavorite = false → statusDriven media body = true →
      Outcome media today body saved (some (plainly today body saved
        (if statusAfter body saved = .completed then 1 else 0)))
  | completed : body.onlyFavorite = false → statusDriven media body = false →
      completing media saved.previous (statusAfter body saved) = true → 0 < media.released →
      Outcome media today body saved (some (plainly today body saved media.released))
  | moved (n : ℕ) : body.progress = some (some n) →
      completing media saved.previous (statusAfter body saved) = false →
      statusDriven media body = false → n ≤ media.released → 0 < media.released →
      (body.status.isSome ∨ n = 0) →
      Outcome media today body saved (some (plainly today body saved n))
  | resumed (n : ℕ) : body.progress = some (some n) → body.status = none → 0 < n →
      n ≤ media.released → Outcome media today body saved (some (resuming media today body saved n))

/-- The entry that the progress of a patch is saved to. -/
structure Edited (today : Int) (body : EntryPatch) (saved : Saved) (entry : TrackedEntry) : Prop where
  status_eq : entry.status = statusAfter body saved
  progress_eq : entry.progress = saved.base.progress
  start_eq : entry.startDate = startAfter today body saved
  finish_eq : entry.finishDate = finishAfter today body saved

theorem Edited.shown {entry : TrackedEntry} (h : Edited today body saved entry) (n : ℕ) :
    { entry with progress := n }.shown = plainly today body saved n := by
  unfold TrackedEntry.shown plainly
  rw [h.status_eq, h.start_eq, h.finish_eq]

theorem Edited.shown_withDefaultDates {entry : TrackedEntry} (h : Edited today body saved entry)
    (n : ℕ) : (withDefaultDates today saved.previous (resumed media saved n)
      { entry with progress := n }).shown = resuming media today body saved n := by
  unfold TrackedEntry.shown withDefaultDates resuming
  rw [h.start_eq, h.finish_eq]

theorem completing_eq_false (h : body.status = none) :
    completing media saved.previous (statusAfter body saved) = false := by
  refine decide_eq_false fun ⟨_, hcompleted, hprevious⟩ ↦ hprevious ?_
  rw [statusAfter, h, given, Option.bind_none, Option.getD_none] at hcompleted
  rw [Saved.previous]
  cases hentry : saved.entry with
  | none =>
    rw [Saved.base, hentry] at hcompleted
    cases hcompleted
  | some entry =>
    rw [Saved.base, hentry] at hcompleted
    exact congrArg some hcompleted

theorem statusDriven_eq_false (h : body.status = none) : statusDriven media body = false := by
  rw [statusDriven, h]
  exact Bool.and_false _

theorem given_eq_some {α : Type} {field : Option (Option α)} {a : α} :
    given field = some a ↔ field = some (some a) := by
  cases field <;> simp [given]

/-- Without a status of the patch, its progress is the one that is saved. -/
theorem target_of_not_driven {previous : Option Status} {status : Status}
    (hdriven : statusDriven media body = false) (hcompleting : completing media previous status = false) :
    target media body previous status = (given body.progress).getD 0 := by
  rw [target, hdriven, hcompleting]
  rfl

theorem withProgress_of_status {previous : Option Status} {n : ℕ} {entry : TrackedEntry}
    (h : body.status.isSome ∨ n = 0) :
    withProgress media today body previous n entry = { entry with progress := n } := by
  refine if_neg fun ⟨hnone, hpos⟩ ↦ h.elim (fun hsome ↦ ?_) fun hzero ↦ by omega
  rw [Option.isNone_iff_eq_none] at hnone
  rw [hnone] at hsome
  cases hsome

theorem outcome_of_withProgress {entry : TrackedEntry} (hfavorite : body.onlyFavorite = false)
    (hentry : Edited today body saved entry)
    (hprogress : ¬((given body.progress).isNone ∧
      completing media saved.previous (statusAfter body saved) = false ∧
      statusDriven media body = false))
    (hreleased : episodeCount media body ≠ 0)
    (htarget : target media body saved.previous (statusAfter body saved) ≤ episodeCount media body) :
    Outcome media today body saved (some (withProgress media today body saved.previous
      (target media body saved.previous (statusAfter body saved)) entry).shown) := by
  cases hdriven : statusDriven media body with
  | true =>
    have hstatus : body.status.isSome := (Bool.and_eq_true_iff.mp hdriven).2
    have heq : target media body saved.previous (statusAfter body saved) =
        if statusAfter body saved = .completed then 1 else 0 := by
      rw [target, hdriven]
      rfl
    rw [withProgress_of_status (.inl hstatus), hentry.shown, heq]
    exact .driven hfavorite hdriven
  | false =>
    have hcount : episodeCount media body = media.released := by
      rw [episodeCount, hdriven]
      rfl
    rw [hcount] at hreleased htarget
    cases hcompleting : completing media saved.previous (statusAfter body saved) with
    | true =>
      have hstatus : body.status.isSome := by
        cases hnone : body.status with
        | none => exact absurd hcompleting (by rw [completing_eq_false hnone]; decide)
        | some status => rfl
      have heq : target media body saved.previous (statusAfter body saved) = media.released := by
        rw [target, hdriven, hcompleting]
        rfl
      rw [withProgress_of_status (.inl hstatus), hentry.shown, heq]
      exact .completed hfavorite hdriven hcompleting (by omega)
    | false =>
      rw [target_of_not_driven hdriven hcompleting] at htarget ⊢
      cases hgiven : given body.progress with
      | none => exact absurd ⟨by rw [hgiven]; rfl, hcompleting, hdriven⟩ hprogress
      | some n =>
        rw [hgiven, Option.getD_some] at htarget
        rw [Option.getD_some]
        have hn := given_eq_some.mp hgiven
        by_cases hresumed : body.status.isNone ∧ 0 < n
        · rw [withProgress, if_pos hresumed, hcount]
          rw [show observedStatus saved.previous (decide (n = media.released)) true =
            resumed media saved n from rfl, hentry.shown_withDefaultDates]
          exact .resumed n hn (Option.isNone_iff_eq_none.mp hresumed.1) hresumed.2 htarget
        · have hstatus : body.status.isSome ∨ n = 0 := by
            cases hnone : body.status with
            | none =>
              rw [hnone] at hresumed
              exact .inr (by simpa using hresumed)
            | some status => exact .inl rfl
          rw [withProgress_of_status hstatus, hentry.shown]
          exact .moved n hn hcompleting hdriven htarget (by omega) hstatus

theorem outcome_of_saveProgress {entry : TrackedEntry} {favorite : Bool}
    (hfavorite : body.onlyFavorite = false) (hentry : Edited today body saved entry)
    (h : saveProgress media today body saved.previous favorite saved.watched entry = some saved') :
    Outcome media today body saved (saved'.entry.map TrackedEntry.shown) := by
  simp only [saveProgress, hentry.status_eq] at h
  split_ifs at h with hkept hrefresh hepisodes hremoving
  · cases h
    have hshown : entry.shown = plainly today body saved saved.base.progress := by
      rw [← hentry.shown, ← hentry.progress_eq]
    rw [Option.map_some, hshown]
    exact .kept hfavorite (Option.isNone_iff_eq_none.mp hkept.1) hkept.2.1 hkept.2.2
  · cases h
    rw [not_or, not_lt] at hepisodes
    exact outcome_of_withProgress hfavorite hentry hkept hepisodes.1 hepisodes.2

theorem edited_edit (base : TrackedEntry) (hbase : base.shown = saved.base.shown) :
    Edited today body saved (edit body (withDefaultDates today saved.previous
      ((given body.status).getD base.status) base)) := by
  simp only [TrackedEntry.shown, Shown.mk.injEq, Option.some.injEq] at hbase
  obtain ⟨hstatus, hprogress, hstart, hfinish⟩ := hbase
  rw [hstatus]
  refine ⟨rfl, hprogress, ?_, ?_⟩
  · rw [startAfter, ← hstart, ← hfinish]
    rfl
  · rw [finishAfter, ← hstart, ← hfinish]
    rfl

theorem outcome_of_saveEntry (h : saveEntry media today body saved = some saved') :
    Outcome media today body saved (saved'.entry.map TrackedEntry.shown) := by
  simp only [saveEntry] at h
  split_ifs at h with hnull honly hrefused
  · cases h
    have hshown : (saved.entry.map (withFavorite body saved.favorite)).map TrackedEntry.shown =
        saved.entry.map TrackedEntry.shown := by
      rw [Option.map_map]
      rfl
    rw [hshown]
    exact .favorite honly
  · have hfavorite : body.onlyFavorite = false := Bool.eq_false_iff.mpr honly
    obtain ⟨entry, favorite, watched⟩ := saved
    cases entry with
    | none => exact outcome_of_saveProgress hfavorite (edited_edit (newTrackedEntry favorite) rfl) h
    | some entry =>
      exact outcome_of_saveProgress hfavorite (edited_edit (withFavorite body favorite entry) rfl) h

end saving

end AnyList.Editor
