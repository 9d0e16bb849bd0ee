import AnyList.Editor.SaveOutcomes

namespace AnyList.Editor

open AnyList.Library
open AnyList.Reconciliation.Watches (Status)
open AnyList.Streaming (observedStatus defaultDates)

section painting

variable {title : Title} {media : Media} {today : Int} {body : EntryPatch} {entry : Entry}
  {previous : Option Status} {n : ℕ}

theorem statusProgress_of_driven (htype : title.type = media.type)
    (h : statusDriven media body = true) : statusProgress title body previous entry =
      { entry with progress := some (if entry.status = some .completed then 1 else 0) } := by
  obtain ⟨hmovie, hstatus⟩ := Bool.and_eq_true_iff.mp h
  exact if_pos ⟨hstatus, htype.trans (of_decide_eq_true hmovie)⟩

theorem not_driven (htype : title.type = media.type) (h : statusDriven media body = false) :
    ¬(body.status.isSome ∧ title.type = .movie) := by
  rintro ⟨hstatus, hmovie⟩
  rw [statusDriven, hstatus, Bool.and_true] at h
  exact of_decide_eq_false h (htype.symm.trans hmovie)

theorem statusProgress_of_completing (htype : title.type = media.type)
    (hdriven : statusDriven media body = false) (h : completing media previous .completed = true)
    (hstatus : entry.status = some .completed) (hpos : 0 < n)
    (hreleased : entry.releasedEpisodes.or title.seasonsReleased = some n) :
    statusProgress title body previous entry = { entry with progress := some n } := by
  obtain ⟨hseries, -, hprevious⟩ := of_decide_eq_true h
  rw [statusProgress, if_neg (not_driven htype hdriven),
    if_pos ⟨hstatus, hprevious, htype.trans hseries⟩, hreleased]
  exact if_pos hpos

theorem statusProgress_of_kept (htype : title.type = media.type)
    (hdriven : statusDriven media body = false)
    (h : ∀ status ∈ entry.status, completing media previous status = false) :
    statusProgress title body previous entry = entry := by
  rw [statusProgress, if_neg (not_driven htype hdriven), if_neg]
  rintro ⟨hstatus, hprevious, hseries⟩
  exact of_decide_eq_false (h .completed hstatus) ⟨htype.symm.trans hseries, rfl, hprevious⟩

/-- A status or a progress of none leaves the status that is shown. -/
theorem shown_progressStatus_of_kept
    (h : entry.progress = some n ∨ body.status.isSome ∨ entry.progress.getD 0 = 0) :
    (progressStatus title body previous n entry).shown = entry.shown := by
  rw [progressStatus]
  split_ifs with hsame
  · rfl
  · dsimp only
    rw [if_neg]
    · rfl
    · rintro ⟨-, hstatus, hpos⟩
      rcases h with h | h | h
      · exact hsame h
      · rw [Option.isNone_iff_eq_none] at hstatus
        rw [hstatus] at h
        cases h
      · omega

/-- The status that the editor derives from a changed progress. -/
def derivedStatus (title : Title) (previous : Option Status) (entry : Entry) (progress : ℕ) : Status :=
  if previous = some .completed ∨ reached title entry progress = true then .completed else .watching

theorem shown_progressStatus_of_changed {m : ℕ} (hprogress : body.progress.isSome)
    (hstatus : body.status = none) (hentry : entry.progress = some m) (hpos : 0 < m) (hne : m ≠ n) :
    (progressStatus title body previous n entry).shown =
      { entry with status := some (derivedStatus title previous entry m) }.shown := by
  have hne' : entry.progress ≠ some n := fun h ↦ hne (Option.some.inj (hentry.symm.trans h))
  rw [progressStatus, if_neg hne']
  dsimp only
  rw [hentry, Option.getD_some, if_pos ⟨hprogress, Option.isNone_iff_eq_none.mpr hstatus, hpos⟩]
  rfl

theorem shown_patchedDates_congr {entry' : Entry} (h : entry.shown = entry'.shown) :
    (patchedDates today body previous entry).shown =
      (patchedDates today body previous entry').shown := by
  simp only [Entry.shown, Shown.mk.injEq] at h
  obtain ⟨hstatus, hprogress, hstart, hfinish⟩ := h
  unfold Entry.shown patchedDates
  rw [hstatus, hprogress, hstart, hfinish]

theorem shown_patchedScore : (patchedScore body entry).shown = entry.shown := by
  rw [patchedScore]
  split <;> rfl

end painting

section agreeing

variable {title : Title} {media : Media} {today : Int} {body : EntryPatch} {saved saved' : Saved}
  {shown : Option Entry × Bool} {entry : Entry} {n : ℕ}

theorem Agrees.shown_base (h : Agrees shown.1 saved.entry) :
    (shown.1.getD newEntry).shown = saved.base.shown := by
  rw [Agrees] at h
  rw [Saved.base]
  cases hshown : shown.1 <;> cases hentry : saved.entry <;> rw [hshown, hentry] at h
  · rfl
  · cases h
  · cases h
  · exact Option.some.inj h

theorem Agrees.previous_eq (h : Agrees shown.1 saved.entry) :
    shown.1.bind Entry.status = saved.previous := by
  have hstatus := congrArg (·.bind Shown.status) h
  rw [Saved.previous]
  cases hshown : shown.1 <;> cases hentry : saved.entry <;> rw [hshown, hentry] at hstatus
  · rfl
  all_goals exact hstatus

theorem Agrees.progress_eq (h : Agrees shown.1 saved.entry) :
    (shown.1.bind Entry.progress).getD 0 = saved.base.progress := by
  have hprogress := congrArg (fun shown ↦ (shown.bind Shown.progress).getD 0) h
  rw [Saved.base]
  cases hshown : shown.1 <;> cases hentry : saved.entry <;> rw [hshown, hentry] at hprogress
  · rfl
  all_goals exact hprogress

/-- An entry that only has the fields of a patch yet. -/
structure Patched (body : EntryPatch) (saved : Saved) (entry : Entry) : Prop where
  status_eq : entry.status = body.status.getD (some saved.base.status)
  progress_eq : entry.progress = body.progress.getD (some saved.base.progress)
  start_eq : entry.startDate = body.startDate.getD saved.base.startDate
  finish_eq : entry.finishDate = body.finishDate.getD saved.base.finishDate

theorem Agrees.patched (h : Agrees shown.1 saved.entry) :
    Patched body saved (spread body (shown.1.getD newEntry)) := by
  have hbase := h.shown_base
  simp only [Entry.shown, TrackedEntry.shown, Shown.mk.injEq] at hbase
  obtain ⟨hstatus, hprogress, hstart, hfinish⟩ := hbase
  constructor <;> unfold spread <;> simp only [hstatus, hprogress, hstart, hfinish]

theorem not_favorite (h : body.onlyFavorite = false) :
    ¬(shown.1.isNone = true ∧ body.onlyFavorite = true) := by
  rw [h]
  exact fun h ↦ Bool.false_ne_true h.2

theorem shown_paintOne (h : Agrees shown.1 saved.entry)
    (hnot : ¬(shown.1.isNone = true ∧ body.onlyFavorite = true)) :
    (paintOne title today shown (some body)).1.map Entry.shown =
      some (patchedDates today body saved.previous
        (progressStatus title body saved.previous saved.base.progress
          (statusProgress title body saved.previous
            (spread body (shown.1.getD newEntry))))).shown := by
  rw [paintOne, if_neg hnot, h.previous_eq, h.progress_eq, Option.map_some]
  exact congrArg some (shown_patchedDates_congr shown_patchedScore)

theorem statusAfter_of_some {status : Status} (h : body.status = some (some status)) :
    statusAfter body saved = status := by
  rw [statusAfter, h]
  rfl

/-- A patch whose status is not null shows the status that is saved. -/
theorem Patched.status_eq_statusAfter (h : Patched body saved entry) (hnull : body.status ≠ some none) :
    entry.status = some (statusAfter body saved) := by
  rw [h.status_eq, statusAfter]
  rcases hstatus : body.status with _ | _ | status
  · rfl
  · exact absurd hstatus hnull
  · rfl

theorem shown_patchedDates (hstatus : entry.status = some (statusAfter body saved))
    (hprogress : entry.progress = some n)
    (hstart : entry.startDate = body.startDate.getD saved.base.startDate)
    (hfinish : entry.finishDate = body.finishDate.getD saved.base.finishDate) :
    (patchedDates today body saved.previous entry).shown = plainly today body saved n := by
  unfold patchedDates Entry.shown plainly startAfter finishAfter defaultDates
  rw [hstatus, hprogress, hstart, hfinish]
  refine congrArg₂ (Shown.mk _ _) ?_ ?_
  · cases body.startDate <;> split_ifs <;> simp_all
  · cases body.finishDate <;> split_ifs <;> simp_all

/-- A progress that changes nothing keeps its status, one that reaches the last released episode
has its count on the entry, and the first date of its status is not given as null. -/
def Resumes (media : Media) (shown : Option Entry) (saved : Saved) (body : EntryPatch) (n : ℕ) :
    Prop :=
  if n = saved.base.progress then saved.previous = some (resumed media saved n)
  else
    (media.type = .series → n = media.released → saved.previous ≠ some .completed →
      (shown.bind Entry.releasedEpisodes).isSome) ∧
    (saved.previous ≠ some (resumed media saved n) →
      (resumed media saved n = .watching → body.startDate ≠ some none) ∧
        (resumed media saved n = .completed → body.finishDate ≠ some none))

/-- The fields of a patch that the editor and the server read in the same way. -/
structure Alike (media : Media) (shown : Option Entry) (saved : Saved) (body : EntryPatch) :
    Prop where
  status_ne : body.status ≠ some none
  progress_ne : body.progress = some none → statusDriven media body = true ∨
    completing media saved.previous (statusAfter body saved) = true
  resumes : ∀ n, body.progress = some (some n) → body.status = none → 0 < n →
    Resumes media shown saved body n

theorem statusAfter_of_none (h : body.status = none) : statusAfter body saved = saved.base.status := by
  rw [statusAfter, h]
  rfl

variable (today saved) in
/-- Without a status, a patch gives no default dates at first. -/
theorem datesAfter_of_none (h : body.status = none) :
    startAfter today body saved = body.startDate.getD saved.base.startDate ∧
      finishAfter today body saved = body.finishDate.getD saved.base.finishDate := by
  rw [startAfter, finishAfter, statusAfter_of_none h, Saved.previous, Saved.base]
  cases saved.entry with
  | none => exact ⟨rfl, rfl⟩
  | some entry =>
    rw [Option.map_some, Option.getD_some, defaultDates, if_pos rfl]
    exact ⟨rfl, rfl⟩

theorem plainly_eq_resuming_iff (hstatus : body.status = none) (hpos : 0 < saved.base.progress) :
    plainly today body saved saved.base.progress =
        resuming media today body saved saved.base.progress ↔
      saved.previous = some (resumed media saved saved.base.progress) := by
  have hprevious : saved.previous = some saved.base.status := by
    rw [Saved.base] at hpos
    rw [Saved.previous, Saved.base]
    cases hentry : saved.entry with
    | none =>
      rw [hentry] at hpos
      exact absurd hpos (Nat.lt_irrefl 0)
    | some entry => rfl
  rw [plainly, resuming, statusAfter_of_none hstatus, hprevious]
  constructor
  · intro h
    exact (Shown.mk.inj h).1
  · intro h
    rw [← Option.some.inj h, defaultDates, if_pos rfl]

theorem reached_iff (hknown : Known title media shown.1) (hpos : 0 < n) (hn : n ≤ media.released)
    (hentry : entry.releasedEpisodes = shown.1.bind Entry.releasedEpisodes) :
    (reached title entry n = true ↔ n = media.released ∧
      ¬(media.type = .series ∧ shown.1.bind Entry.releasedEpisodes = none)) := by
  obtain ⟨htype, hreleased⟩ := hknown
  rw [reached, hentry]
  cases hbind : shown.1.bind Entry.releasedEpisodes with
  | none =>
    cases hmovie : title.type with
    | movie =>
      have hone := media.movie_released (htype.symm.trans hmovie)
      rw [if_pos rfl, ← htype, hmovie]
      simp
      omega
    | series =>
      rw [if_neg (by decide), ← htype, hmovie]
      simp
  | some released =>
    have heq : released = media.released := by
      rw [hbind] at hreleased
      cases hmovie : title.type with
      | movie =>
        rw [hmovie] at hreleased
        exact hreleased released rfl
      | series =>
        rw [hmovie] at hreleased
        exact Option.some.inj hreleased
    rw [Option.some_or, Option.any_some, decide_eq_true_iff, heq]
    simp
    omega

/-- A default for a missing date differs from one for an unnamed date where none is given. -/
theorem default_eq_iff {p : Prop} [Decidable p] {field : Option (Option Int)} {old : Option Int} :
    (if p ∧ field.getD old = none ∧ field.isNone = true then some today else field.getD old) =
        (if p ∧ field.getD old = none then some today else field.getD old) ↔
      (p → field ≠ some none) := by
  by_cases hp : p
  · cases field with
    | none => simp [hp]
    | some date => cases date <;> simp [hp]
  · simp [hp]

theorem derivedStatus_eq_resumed_iff (hreached : reached title entry n = true ↔ n = media.released ∧
      ¬(media.type = .series ∧ shown.1.bind Entry.releasedEpisodes = none)) :
    derivedStatus title saved.previous entry n = resumed media saved n ↔
      (media.type = .series → n = media.released → saved.previous ≠ some .completed →
        (shown.1.bind Entry.releasedEpisodes).isSome) := by
  have hresumed : resumed media saved n =
      if saved.previous = some .completed ∨ n = media.released then .completed else .watching := by
    rw [resumed, observedStatus, if_pos rfl]
    exact if_congr (or_congr_right decide_eq_true_iff) rfl rfl
  rw [derivedStatus, hresumed]
  by_cases hcompleted : saved.previous = some .completed
  · rw [if_pos (.inl hcompleted), if_pos (.inl hcompleted)]
    exact iff_of_true rfl fun _ _ h ↦ absurd hcompleted h
  · by_cases hcount : n = media.released
    · rw [if_pos (c := _ ∨ n = _) (.inr hcount)]
      by_cases hr : reached title entry n = true
      · rw [if_pos (.inr hr)]
        refine iff_of_true rfl fun hseries _ _ ↦ ?_
        exact Option.isSome_iff_ne_none.mpr fun h ↦ (hreached.mp hr).2 ⟨hseries, h⟩
      · rw [if_neg (not_or.mpr ⟨hcompleted, hr⟩)]
        refine iff_of_false Status.noConfusion fun h ↦ hr (hreached.mpr ⟨hcount, ?_⟩)
        rintro ⟨hseries, hnone⟩
        have := h hseries hcount hcompleted
        rw [hnone] at this
        cases this
    · have hr : ¬reached title entry n = true := fun h ↦ hcount (hreached.mp h).1
      rw [if_neg (not_or.mpr ⟨hcompleted, hr⟩), if_neg (not_or.mpr ⟨hcompleted, hcount⟩)]
      exact iff_of_true rfl fun _ h ↦ absurd h hcount

variable (body) in
theorem releasedEpisodes_spread {entry : Option Entry} :
    (spread body (entry.getD newEntry)).releasedEpisodes = entry.bind Entry.releasedEpisodes := by
  cases entry <;> rfl

theorem shown_patchedDates_eq_resuming_iff {status : Status} (hnone : body.status = none)
    (hstatus : entry.status = some status) (hprogress : entry.progress = some n)
    (hstart : entry.startDate = body.startDate.getD saved.base.startDate)
    (hfinish : entry.finishDate = body.finishDate.getD saved.base.finishDate) :
    (patchedDates today body saved.previous entry).shown = resuming media today body saved n ↔
      status = resumed media saved n ∧
        (saved.previous ≠ some status → (status = .watching → body.startDate ≠ some none) ∧
          (status = .completed → body.finishDate ≠ some none)) := by
  obtain ⟨hstart', hfinish'⟩ := datesAfter_of_none today saved hnone
  unfold patchedDates Entry.shown resuming defaultDates
  rw [hstatus, hprogress, hstart, hfinish, hstart', hfinish', Shown.mk.injEq, Option.some.injEq]
  refine and_congr_right fun heq ↦ ?_
  rw [← heq, and_iff_right rfl]
  by_cases hprevious : saved.previous = some status
  · rw [hprevious, if_pos rfl, if_neg (fun h ↦ h.1 rfl), if_neg (fun h ↦ h.1 rfl)]
    exact iff_of_true ⟨rfl, rfl⟩ fun h ↦ absurd rfl h
  · have hne : some status ≠ saved.previous := fun h ↦ hprevious h.symm
    rw [if_neg hne]
    dsimp only
    simp only [ne_eq, hne, not_false_eq_true, true_and, Option.some.injEq, hprevious, true_imp_iff]
    exact and_congr default_eq_iff default_eq_iff

theorem Alike.of_status (hnull : body.status ≠ some none) (hsome : body.status.isSome)
    (h : body.progress = some none → statusDriven media body = true ∨
      completing media saved.previous (statusAfter body saved) = true) :
    Alike media shown.1 saved body :=
  ⟨hnull, h, fun _ _ hnone ↦ by rw [hnone] at hsome; cases hsome⟩

theorem status_statusProgress {previous : Option Status} :
    (statusProgress title body previous entry).status = entry.status := by
  rw [statusProgress]
  split
  · rfl
  split
  · split
    · split <;> rfl
    · rfl
  · rfl

/-- A null status is shown as one that cannot be saved. -/
theorem not_agrees_of_null_status (h : Agrees shown.1 saved.entry)
    (hfavorite : body.onlyFavorite = false) (hnull : body.status = some none) (n : ℕ) :
    (paintOne title today shown (some body)).1.map Entry.shown ≠
      some (plainly today body saved n) := by
  rw [shown_paintOne h (not_favorite hfavorite), shown_patchedDates_congr
    (shown_progressStatus_of_kept (.inr (.inl (by rw [hnull]; rfl))))]
  intro heq
  have hstatus : (statusProgress title body saved.previous
      (spread body (shown.1.getD newEntry))).status = some (statusAfter body saved) :=
    congrArg Shown.status (Option.some.inj heq)
  rw [status_statusProgress, h.patched.status_eq, hnull] at hstatus
  cases hstatus

variable (today) in
/-- A patch that does not resume a title shows its own status and dates. -/
theorem shown_paintOne_plainly (h : Agrees shown.1 saved.entry)
    (hnot : ¬(shown.1.isNone = true ∧ body.onlyFavorite = true))
    (hentry : statusProgress title body saved.previous (spread body (shown.1.getD newEntry)) =
      { spread body (shown.1.getD newEntry) with progress := some n })
    (hkept : n = saved.base.progress ∨ body.status.isSome ∨ n = 0) (hnull : body.status ≠ some none) :
    (paintOne title today shown (some body)).1.map Entry.shown =
      some (plainly today body saved n) := by
  have hpatched : Patched body saved (spread body (shown.1.getD newEntry)) := h.patched
  rw [shown_paintOne h hnot, hentry, shown_patchedDates_congr
    (shown_progressStatus_of_kept (hkept.imp_left (congrArg some)))]
  exact congrArg some (shown_patchedDates (hpatched.status_eq_statusAfter hnull) rfl
    hpatched.start_eq hpatched.finish_eq)

theorem statusProgress_of_outcome (hknown : Known title media shown.1) (h : Agrees shown.1 saved.entry)
    (hdriven : statusDriven media body = false)
    (hcompleting : completing media saved.previous (statusAfter body saved) = false) :
    statusProgress title body saved.previous (spread body (shown.1.getD newEntry)) =
      spread body (shown.1.getD newEntry) := by
  refine statusProgress_of_kept hknown.1 hdriven fun status hstatus ↦ ?_
  have hnull : body.status ≠ some none := by
    intro hnull
    rw [h.patched.status_eq, hnull] at hstatus
    cases hstatus
  rw [h.patched.status_eq_statusAfter hnull] at hstatus
  rw [← Option.some.inj hstatus]
  exact hcompleting

theorem agrees_kept_iff (hknown : Known title media shown.1) (h : Agrees shown.1 saved.entry)
    (hfavorite : body.onlyFavorite = false) (hprogress : given body.progress = none)
    (hcompleting : completing media saved.previous (statusAfter body saved) = false)
    (hdriven : statusDriven media body = false) :
    (paintOne title today shown (some body)).1.map Entry.shown =
        some (plainly today body saved saved.base.progress) ↔ Alike media shown.1 saved body := by
  have hentry := statusProgress_of_outcome hknown h hdriven hcompleting
  constructor
  · intro heq
    refine ⟨fun hnull ↦ not_agrees_of_null_status h hfavorite hnull _ heq, fun hzero ↦ ?_,
      fun n hn ↦ ?_⟩
    · rw [shown_paintOne h (not_favorite hfavorite), hentry] at heq
      have hprogress : (spread body (shown.1.getD newEntry)).progress = none := by
        rw [h.patched.progress_eq, hzero]
        rfl
      rw [shown_patchedDates_congr (shown_progressStatus_of_kept
        (.inr (.inr (by rw [hprogress]; rfl))))] at heq
      have := congrArg Shown.progress (Option.some.inj heq)
      rw [show (patchedDates today body saved.previous
        (spread body (shown.1.getD newEntry))).shown.progress =
          (spread body (shown.1.getD newEntry)).progress from rfl, hprogress] at this
      cases this
    · rw [hn] at hprogress
      cases hprogress
  · intro halike
    have hnone : body.progress = none := by
      match hfield : body.progress with
      | none => rfl
      | some none =>
        have := halike.progress_ne hfield
        rw [hdriven, hcompleting] at this
        simp at this
      | some (some n) =>
        rw [hfield] at hprogress
        cases hprogress
    refine shown_paintOne_plainly today h (not_favorite hfavorite) (hentry.trans ?_) (.inl rfl) halike.status_ne
    have hsame : (spread body (shown.1.getD newEntry)).progress = some saved.base.progress := by
      rw [h.patched.progress_eq, hnone]
      rfl
    rw [← hsame]

variable (today) in
theorem agrees_favorite (hknown : Known title media shown.1) (h : Agrees shown.1 saved.entry)
    (hfavorite : body.onlyFavorite = true) :
    Agrees (paintOne title today shown (some body)).1 saved.entry := by
  have hstatus := body.status_of_onlyFavorite hfavorite
  have hprogress := body.progress_of_onlyFavorite hfavorite
  obtain ⟨hstart, hfinish⟩ := body.dates_of_onlyFavorite hfavorite
  cases hshown : shown.1 with
  | none =>
    rw [paintOne, if_pos ⟨by rw [hshown]; rfl, hfavorite⟩]
    rwa [hshown] at h
  | some entry =>
    have hnot : ¬(shown.1.isNone = true ∧ body.onlyFavorite = true) := by
      rw [hshown]
      exact fun h ↦ Bool.false_ne_true h.1
    have hentry := statusProgress_of_outcome hknown h (statusDriven_eq_false hstatus)
      (completing_eq_false hstatus)
    have hsame : (spread body (shown.1.getD newEntry)).progress = some saved.base.progress := by
      rw [h.patched.progress_eq, hprogress]
      rfl
    have hplain := shown_paintOne_plainly today h hnot
      (hentry.trans (by rw [← hsame])) (.inl rfl)
      (by rw [hstatus]; exact (Option.some_ne_none _).symm)
    obtain ⟨hstart', hfinish'⟩ := datesAfter_of_none today saved hstatus
    have hbase : plainly today body saved saved.base.progress = saved.base.shown := by
      rw [plainly, statusAfter_of_none hstatus, hstart', hfinish', hstart, hfinish]
      rfl
    rw [Agrees, hplain, hbase, ← h.shown_base, hshown, ← h, hshown]
    rfl

theorem agrees_driven_iff (hknown : Known title media shown.1) (h : Agrees shown.1 saved.entry)
    (hfavorite : body.onlyFavorite = false) (hdriven : statusDriven media body = true) :
    (paintOne title today shown (some body)).1.map Entry.shown = some (plainly today body saved
        (if statusAfter body saved = .completed then 1 else 0)) ↔
      Alike media shown.1 saved body := by
  have hsome : body.status.isSome := (Bool.and_eq_true_iff.mp hdriven).2
  refine ⟨fun heq ↦ .of_status (fun hnull ↦ not_agrees_of_null_status h hfavorite hnull _ heq) hsome
    fun _ ↦ .inl hdriven, fun halike ↦ ?_⟩
  refine shown_paintOne_plainly today h (not_favorite hfavorite) ?_ (.inr (.inl hsome)) halike.status_ne
  have hcompleted : (spread body (shown.1.getD newEntry)).status = some .completed ↔
      statusAfter body saved = .completed := by
    rw [h.patched.status_eq_statusAfter halike.status_ne, Option.some.injEq]
  rw [statusProgress_of_driven hknown.1 hdriven, if_congr hcompleted rfl rfl]

theorem agrees_completed_iff (hknown : Known title media shown.1) (h : Agrees shown.1 saved.entry)
    (hfavorite : body.onlyFavorite = false) (hdriven : statusDriven media body = false)
    (hcompleting : completing media saved.previous (statusAfter body saved) = true)
    (hpos : 0 < media.released) :
    (paintOne title today shown (some body)).1.map Entry.shown =
        some (plainly today body saved media.released) ↔ Alike media shown.1 saved body := by
  have hsome : body.status.isSome := by
    cases hnone : body.status with
    | none => exact absurd hcompleting (by rw [completing_eq_false hnone]; decide)
    | some status => rfl
  refine ⟨fun heq ↦ .of_status (fun hnull ↦ not_agrees_of_null_status h hfavorite hnull _ heq) hsome
    fun _ ↦ .inr hcompleting, fun halike ↦ ?_⟩
  obtain ⟨hseries, hcompleted, hprevious⟩ := of_decide_eq_true hcompleting
  have hreleased := hknown.2
  rw [hknown.1, hseries] at hreleased
  have hentry : (spread body (shown.1.getD newEntry)).releasedEpisodes =
      shown.1.bind Entry.releasedEpisodes := releasedEpisodes_spread body
  rw [hcompleted] at hcompleting
  refine shown_paintOne_plainly today h (not_favorite hfavorite) ?_ (.inr (.inl hsome)) halike.status_ne
  refine statusProgress_of_completing hknown.1 hdriven hcompleting ?_ hpos (hentry ▸ hreleased)
  rw [h.patched.status_eq_statusAfter halike.status_ne, hcompleted]

theorem agrees_moved_iff (hknown : Known title media shown.1) (h : Agrees shown.1 saved.entry)
    (hprogress : body.progress = some (some n))
    (hcompleting : completing media saved.previous (statusAfter body saved) = false)
    (hdriven : statusDriven media body = false) (hstatus : body.status.isSome ∨ n = 0) :
    (paintOne title today shown (some body)).1.map Entry.shown =
        some (plainly today body saved n) ↔ Alike media shown.1 saved body := by
  have hfavorite : body.onlyFavorite = false := by
    refine Bool.eq_false_iff.mpr fun honly ↦ ?_
    rw [body.progress_of_onlyFavorite honly] at hprogress
    cases hprogress
  constructor
  · intro heq
    refine ⟨fun hnull ↦ not_agrees_of_null_status h hfavorite hnull _ heq, fun hzero ↦ ?_,
      fun m hm hnone hpos ↦ ?_⟩
    · rw [hprogress] at hzero
      cases hzero
    · rw [hprogress] at hm
      cases hm
      rcases hstatus with hsome | rfl
      · rw [hnone] at hsome
        cases hsome
      · exact absurd hpos (Nat.lt_irrefl 0)
  · intro halike
    refine shown_paintOne_plainly today h (not_favorite hfavorite)
      ((statusProgress_of_outcome hknown h hdriven hcompleting).trans ?_) (.inr hstatus)
      halike.status_ne
    have hsame : (spread body (shown.1.getD newEntry)).progress = some n := by
      rw [h.patched.progress_eq, hprogress]
      rfl
    rw [← hsame]

theorem agrees_resumed_iff (hknown : Known title media shown.1) (h : Agrees shown.1 saved.entry)
    (hprogress : body.progress = some (some n)) (hstatus : body.status = none) (hpos : 0 < n)
    (hn : n ≤ media.released) :
    (paintOne title today shown (some body)).1.map Entry.shown =
        some (resuming media today body saved n) ↔ Alike media shown.1 saved body := by
  have hfavorite : body.onlyFavorite = false := by
    refine Bool.eq_false_iff.mpr fun honly ↦ ?_
    rw [body.progress_of_onlyFavorite honly] at hprogress
    cases hprogress
  have hnull : body.status ≠ some none := by
    rw [hstatus]
    exact (Option.some_ne_none _).symm
  have hentry := statusProgress_of_outcome hknown h (statusDriven_eq_false hstatus)
    (completing_eq_false hstatus)
  have halike : Alike media shown.1 saved body ↔ Resumes media shown.1 saved body n := by
    refine ⟨fun halike ↦ halike.resumes n hprogress hstatus hpos, fun hresumes ↦
      ⟨hnull, fun hzero ↦ ?_, fun m hm _ _ ↦ ?_⟩⟩
    · rw [hprogress] at hzero
      cases hzero
    · rw [hprogress] at hm
      cases hm
      exact hresumes
  have hpatched : Patched body saved (spread body (shown.1.getD newEntry)) := h.patched
  have hprogress' : (spread body (shown.1.getD newEntry)).progress = some n := by
    rw [hpatched.progress_eq, hprogress]
    rfl
  rw [halike, Resumes]
  split_ifs with hsame
  · have hplain := shown_paintOne_plainly today h
      (not_favorite hfavorite)
      (hentry.trans (by rw [← hprogress'])) (.inl hsame) hnull
    rw [hplain, Option.some.injEq]
    rw [hsame] at hpos ⊢
    exact plainly_eq_resuming_iff hstatus hpos
  · have hreached : reached title (spread body (shown.1.getD newEntry)) n = true ↔ _ :=
      reached_iff hknown hpos hn (releasedEpisodes_spread body)
    have hderived : derivedStatus title saved.previous _ n = resumed media saved n ↔ _ :=
      derivedStatus_eq_resumed_iff hreached
    have hdates : (patchedDates today body saved.previous
        { spread body (shown.1.getD newEntry) with
          status := some (derivedStatus title saved.previous
            (spread body (shown.1.getD newEntry)) n) }).shown =
          resuming media today body saved n ↔ _ :=
      shown_patchedDates_eq_resuming_iff hstatus rfl hprogress' hpatched.start_eq
        hpatched.finish_eq
    rw [shown_paintOne h (not_favorite hfavorite), hentry, Option.some.injEq,
      shown_patchedDates_congr (shown_progressStatus_of_changed (by rw [hprogress]; rfl) hstatus
        hprogress' hpos hsame), hdates]
    refine ⟨fun ⟨heq, hfirst⟩ ↦ ⟨hderived.mp heq, heq ▸ hfirst⟩, fun ⟨hcount, hfirst⟩ ↦ ?_⟩
    have heq := hderived.mpr hcount
    exact ⟨heq, heq.symm ▸ hfirst⟩

/-- The editor shows a patch as it is saved exactly where both read it alike. -/
theorem agrees_paintOne_iff (hsave : saveEntry media today body saved = some saved')
    (hknown : Known title media shown.1) (h : Agrees shown.1 saved.entry) :
    Agrees (paintOne title today shown (some body)).1 saved'.entry ↔
      Alike media shown.1 saved body := by
  have houtcome := outcome_of_saveEntry hsave
  generalize hafter : saved'.entry.map TrackedEntry.shown = after at houtcome
  cases houtcome with
  | favorite hfavorite =>
    have hagrees := agrees_favorite today hknown h hfavorite
    refine iff_of_true (hagrees.trans hafter.symm) ⟨?_, ?_, ?_⟩
    · rw [body.status_of_onlyFavorite hfavorite]
      exact (Option.some_ne_none _).symm
    · rw [body.progress_of_onlyFavorite hfavorite]
      exact fun h ↦ absurd h.symm (Option.some_ne_none _)
    · rw [body.progress_of_onlyFavorite hfavorite]
      exact fun _ h ↦ absurd h.symm (Option.some_ne_none _)
  | kept hfavorite hprogress hcompleting hdriven =>
    rw [Agrees, hafter]
    exact agrees_kept_iff hknown h hfavorite hprogress hcompleting hdriven
  | driven hfavorite hdriven =>
    rw [Agrees, hafter]
    exact agrees_driven_iff hknown h hfavorite hdriven
  | completed hfavorite hdriven hcompleting hpos =>
    rw [Agrees, hafter]
    exact agrees_completed_iff hknown h hfavorite hdriven hcompleting hpos
  | moved n hprogress hcompleting hdriven hn hpos hstatus =>
    rw [Agrees, hafter]
    exact agrees_moved_iff hknown h hprogress hcompleting hdriven hstatus
  | resumed n hprogress hstatus hpos hn =>
    rw [Agrees, hafter]
    exact agrees_resumed_iff hknown h hprogress hstatus hpos hn

theorem releasedEpisodes_paintOne : (paintOne title today shown (some body)).1.bind
    Entry.releasedEpisodes = shown.1.bind Entry.releasedEpisodes := by
  have hprogress {entry : Entry} {previous : Option Status} {n : ℕ} :
      (progressStatus title body previous n entry).releasedEpisodes = entry.releasedEpisodes := by
    rw [progressStatus]
    split
    · rfl
    · dsimp only
      split <;> rfl
  have hstatus {entry : Entry} {previous : Option Status} :
      (statusProgress title body previous entry).releasedEpisodes = entry.releasedEpisodes := by
    rw [statusProgress]
    split
    · rfl
    split
    · split
      · split <;> rfl
      · rfl
    · rfl
  have hscore {entry : Entry} : (patchedScore body entry).releasedEpisodes = entry.releasedEpisodes := by
    rw [patchedScore]
    split <;> rfl
  rw [paintOne]
  split_ifs with hnone
  · rw [Option.isNone_iff_eq_none.mp hnone.1]
  · rw [Option.bind_some, ← releasedEpisodes_spread body]
    exact hscore.trans (hprogress.trans hstatus)

theorem Known.paintOne (h : Known title media shown.1) :
    Known title media (paintOne title today shown (some body)).1 := by
  rw [Known, releasedEpisodes_paintOne]
  exact h

end agreeing

section lists

variable {title : Title} {media : Media} {today : Int} {bodies before after : List EntryPatch}
  {body : EntryPatch} {saved saved' : Saved} {shown : Option Entry × Bool}

theorem saveAll_append : saveAll media today (before ++ after) saved = some saved' ↔
    ∃ between, saveAll media today before saved = some between ∧
      saveAll media today after between = some saved' := by
  rw [saveAll, List.foldlM_append, Option.bind_eq_bind, Option.bind_eq_some_iff]
  rfl

theorem saveAll_singleton : saveAll media today [body] saved = saveEntry media today body saved := by
  rw [saveAll, List.foldlM_cons, Option.bind_eq_bind]
  exact Option.bind_fun_some _

def paintPatches (title : Title) (today : Int) (bodies : List EntryPatch)
    (shown : Option Entry × Bool) : Option Entry × Bool :=
  paint title today (bodies.map some) shown

theorem paintPatches_concat : paintPatches title today (before ++ [body]) shown =
    paintOne title today (paintPatches title today before shown) (some body) := by
  rw [paintPatches, paint, List.map_append, List.foldl_append]
  rfl

theorem Known.paintPatches (h : Known title media shown.1) :
    Known title media (paintPatches title today bodies shown).1 := by
  induction bodies using List.reverseRecOn with
  | nil => exact h
  | append_singleton bodies body ih =>
    rw [paintPatches_concat]
    exact ih.paintOne

/-- Pending patches are shown as they are saved one after another exactly where the editor and the
server read each of them alike. -/
theorem painted_as_saved_iff (hsave : saveAll media today bodies saved = some saved')
    (hknown : Known title media shown.1) (h : Agrees shown.1 saved.entry) :
    (∀ before after between, bodies = before ++ after →
        saveAll media today before saved = some between →
        Agrees (paintPatches title today before shown).1 between.entry) ↔
      ∀ before body after between, bodies = before ++ body :: after →
        saveAll media today before saved = some between →
        Alike media (paintPatches title today before shown).1 between body := by
  constructor
  · rintro hagrees before body after between rfl hbetween
    have hsplit : before ++ body :: after = before ++ [body] ++ after := by simp
    obtain ⟨next, hnext, -⟩ := saveAll_append.mp (hsplit ▸ hsave)
    have hpainted := hagrees _ after next hsplit hnext
    obtain ⟨between', hbetween', hbody⟩ := saveAll_append.mp hnext
    obtain rfl : between' = between := Option.some.inj (hbetween'.symm.trans hbetween)
    rw [saveAll_singleton] at hbody
    rw [paintPatches_concat] at hpainted
    exact (agrees_paintOne_iff hbody hknown.paintPatches (hagrees before _ _ rfl hbetween)).mp
      hpainted
  · intro halike before
    induction before using List.reverseRecOn with
    | nil =>
      rintro after between - hbetween
      obtain rfl : saved = between := Option.some.inj hbetween
      exact h
    | append_singleton before body ih =>
      rintro after next rfl hnext
      obtain ⟨between, hbetween, hbody⟩ := saveAll_append.mp hnext
      rw [saveAll_singleton] at hbody
      have hsplit : before ++ [body] ++ after = before ++ body :: after := by simp
      rw [paintPatches_concat]
      exact (agrees_paintOne_iff hbody hknown.paintPatches
        (ih (body :: after) between hsplit hbetween)).mpr
          (halike before body after between hsplit hbetween)

def untracked : Saved := { entry := none, favorite := false, watched := [] }

def threeEpisodes : Media :=
  { type := .series, released := 3, refreshed := true, movie_released := by decide }

def oneSeason : Title :=
  { type := .series, seasons := some [(1, some 3)], progressPositions := none }

theorem painted_as_saved_iff_started :
    (∀ before after between, [{ status := some (some .watching) }] = before ++ after →
        saveAll threeEpisodes 0 before untracked = some between →
        Agrees (paintPatches oneSeason 0 before (none, false)).1 between.entry) ↔
      ∀ before body after between, [{ status := some (some .watching) }] = before ++ body :: after →
        saveAll threeEpisodes 0 before untracked = some between →
        Alike threeEpisodes (paintPatches oneSeason 0 before (none, false)).1 between body :=
  painted_as_saved_iff rfl ⟨rfl, rfl⟩ rfl

/-- The last episode of a title with a count on its seasons only is painted as watching. -/
theorem finale_painted_as_watching : ∃ saved',
    saveEntry threeEpisodes 0 { progress := some (some 3) } untracked = some saved' ∧
      Known oneSeason threeEpisodes none ∧ Agrees none untracked.entry ∧
      ¬Agrees (paintOne oneSeason 0 (none, false) (some { progress := some (some 3) })).1
        saved'.entry := by
  refine ⟨_, rfl, ⟨rfl, rfl⟩, rfl, ?_⟩
  unfold Agrees
  decide

end lists

end AnyList.Editor
