import AnyList.Reconciliation.MissingNumbers

namespace AnyList.Reconciliation.Completions

open AnyList.Library.Runs AnyList.Timestamps

namespace Playback

/-- The episode order: the season decides, then the episode in it. -/
def IsBefore (playback playback' : Playback) : Prop :=
  ∃ season ∈ playback.season, ∃ season' ∈ playback'.season, season < season' ∨
    season = season' ∧ ∃ episode ∈ playback.episode, ∃ episode' ∈ playback'.episode,
      episode < episode'

def IsSameEpisode (playback playback' : Playback) : Prop :=
  playback.season = playback'.season ∧ playback.episode = playback'.episode

end Playback

/-- A movie was finished, or the same or a later episode than the one that stands open. -/
def Reaches (completion o : PlaybackObservation) : Prop :=
  ∃ done ∈ completion.value, ∃ playback ∈ o.value, done.status = .completed ∨
    playback.isResume = true ∧ (playback.IsSameEpisode done ∨ playback.IsBefore done)

/-- An episode stands open that comes after the finished one. -/
def IsBeyond (o completion : PlaybackObservation) : Prop :=
  ∃ done ∈ completion.value, ∃ playback ∈ o.value,
    done.status ≠ .completed ∧ playback.isResume = true ∧ done.IsBefore playback

def IsStrictlyNewer (completion o : PlaybackObservation) : Prop :=
  ∃ at' ∈ o.changedAt, ∃ done ∈ completion.changedAt, at'.instant < done.instant

/-- A finished movie, or a finished episode with its numbers. -/
def IsCompletion (completion : PlaybackObservation) : Prop :=
  ∃ done ∈ completion.value, done.status = .completed ∨
    done.season.isSome = true ∧ done.episode.isSome = true

/-- The resumes that are left beside the completions that were taken. -/
structure CoversOnly (observations completions : List PlaybackObservation)
    (survives : PlaybackObservation → Bool) (kept : List PlaybackObservation) : Prop where
  kept_sublist : kept.Sublist completions
  dropped : ∀ o ∈ observations, survives o = false → ∃ completion ∈ completions,
    Reaches completion o ∧ (IsStrictlyNewer completion o ∨
      completion.source = o.source ∧ ¬IsStrictlyNewer o completion)
  uncovered : ∀ o ∈ observations, survives o = true → ∀ completion ∈ kept,
    ¬(Reaches completion o ∧ IsStrictlyNewer completion o)
  beyond : ∀ o ∈ observations, (∀ completion ∈ completions, IsBeyond o completion) →
    survives o = true

section comparisons

variable {playback done : Playback} {completion o : PlaybackObservation}

theorem isResume_iff : playback.isResume = true ↔ playback.status = .watching ∧
    (∃ season, playback.season = some season) ∧ ∃ episode, playback.episode = some episode := by
  rw [Playback.isResume, Bool.and_eq_true, Bool.and_eq_true, decide_eq_true_eq,
    Option.isSome_iff_exists, Option.isSome_iff_exists]

theorem compareNumbers_eq_lt (h : playback.isResume = true) :
    playback.compareNumbers done = some .lt ↔ playback.IsBefore done := by
  obtain ⟨-, ⟨season, hseason⟩, episode, hepisode⟩ := isResume_iff.mp h
  rw [Playback.compareNumbers, Playback.IsBefore, hseason, hepisode]
  cases hseason' : done.season with
  | none => simp [Playback.compareNumber]
  | some season' =>
    obtain hlt | rfl | hgt := lt_trichotomy season season'
    · simp [Playback.compareNumber, compare_lt_iff_lt.mpr hlt, hlt]
    · cases hepisode' : done.episode <;> simp [Playback.compareNumber, compare_lt_iff_lt]
    · simp [Playback.compareNumber, compare_gt_iff_gt.mpr hgt, hgt.ne', hgt.le]

theorem compareNumbers_eq_gt (h : playback.isResume = true) :
    playback.compareNumbers done = some .gt ↔ done.IsBefore playback := by
  obtain ⟨-, ⟨season, hseason⟩, episode, hepisode⟩ := isResume_iff.mp h
  rw [Playback.compareNumbers, Playback.IsBefore, hseason, hepisode]
  cases hseason' : done.season with
  | none => simp [Playback.compareNumber]
  | some season' =>
    obtain hlt | rfl | hgt := lt_trichotomy season season'
    · simp [Playback.compareNumber, compare_lt_iff_lt.mpr hlt, hlt.ne', hlt.le]
    · cases hepisode' : done.episode <;> simp [Playback.compareNumber, compare_gt_iff_gt]
    · simp [Playback.compareNumber, compare_gt_iff_gt.mpr hgt, hgt]

theorem compareNumbers_eq_eq (h : playback.isResume = true) :
    playback.compareNumbers done = some .eq ↔ playback.IsSameEpisode done := by
  obtain ⟨-, ⟨season, hseason⟩, episode, hepisode⟩ := isResume_iff.mp h
  rw [Playback.compareNumbers, Playback.IsSameEpisode, hseason, hepisode]
  cases hseason' : done.season with
  | none => simp [Playback.compareNumber]
  | some season' =>
    by_cases hsame : season = season'
    · subst hsame
      cases hepisode' : done.episode <;> simp [Playback.compareNumber]
    · have hne := compare_eq_iff_eq.not.mpr hsame
      cases hcompare : compare season season' <;> simp_all [Playback.compareNumber]

theorem covers_iff : covers completion o = true ↔ Reaches completion o := by
  rw [covers, Reaches]
  cases hdone : completion.value with
  | none => simp
  | some done =>
    cases hplayback : o.value with
    | none => simp
    | some playback =>
      simp only [Option.any_some, Option.mem_some_iff, exists_eq_left', Playback.covers,
        Bool.or_eq_true, decide_eq_true_eq, Bool.and_eq_true]
      refine or_congr_right (and_congr_right fun hresume ↦ ?_)
      rw [← compareNumbers_eq_eq hresume, ← compareNumbers_eq_lt hresume]
      cases playback.compareNumbers done with
      | none => simp
      | some order => cases order <;> simp

theorem isNewer_iff : isNewer completion o = true ↔ IsStrictlyNewer completion o := by
  simp [isNewer, IsStrictlyNewer, Option.any_eq_true]

theorem replacesOwn_iff : replacesOwn completion o = true ↔
    completion.source = o.source ∧ ¬IsStrictlyNewer o completion := by
  simp only [replacesOwn, IsStrictlyNewer, Bool.and_eq_true, decide_eq_true_eq, Option.all_eq_true]
  refine and_congr eq_comm ?_
  push Not
  exact ⟨fun h done hdone at' hat ↦ h at' hat done hdone, fun h at' hat done hdone ↦ h done hdone at' hat⟩

theorem not_covers_of_isBeyond (h : IsBeyond o completion) : covers completion o = false := by
  obtain ⟨done, hdone, playback, hplayback, hstatus, hresume, hbefore⟩ := h
  have hgt := (compareNumbers_eq_gt hresume).mpr hbefore
  rw [covers, hdone, hplayback]
  simp [Playback.covers, hstatus, hresume, hgt]

end comparisons

section runs

variable {observations completions kept : List PlaybackObservation}
  {survives : PlaybackObservation → Bool} {completion : PlaybackObservation}

/-- What one completion leaves of the resumes and of the completions before it. -/
theorem coverResumes_append : coverResumes (observations.filter survives ++ kept) completion =
    if isSetAside (observations.filter survives ++ kept) completion then
      observations.filter survives ++ kept
    else
      observations.filter (fun o ↦ survives o &&
        !(covers completion o && (isNewer completion o || replacesOwn completion o))) ++
      (kept.filter (fun o ↦
        !(covers completion o && (isNewer completion o || replacesOwn completion o))) ++
        [completion]) := by
  rw [coverResumes]
  split_ifs
  · rfl
  · rw [List.filter_append, List.filter_filter, List.append_assoc]
    simp only [Bool.and_comm]

theorem CoversOnly.step (h : CoversOnly observations completions survives kept)
    (completion : PlaybackObservation) :
    ∃ survives' kept', CoversOnly observations (completions ++ [completion]) survives' kept' ∧
      coverResumes (observations.filter survives ++ kept) completion =
        observations.filter survives' ++ kept' := by
  have hmore : ∀ c ∈ completions, c ∈ completions ++ [completion] :=
    fun c hc ↦ List.mem_append_left [completion] hc
  rw [coverResumes_append]
  split_ifs with haside
  · refine ⟨survives, kept, ⟨?_, ?_, h.uncovered, ?_⟩, rfl⟩
    · exact h.kept_sublist.trans (List.sublist_append_left completions [completion])
    · intro o ho hdropped
      obtain ⟨c, hc, hcovers⟩ := h.dropped o ho hdropped
      exact ⟨c, hmore c hc, hcovers⟩
    · intro o ho hbeyond
      exact h.beyond o ho fun c hc ↦ hbeyond c (hmore c hc)
  · refine ⟨_, _, ⟨?_, ?_, ?_, ?_⟩, rfl⟩
    · exact (List.filter_sublist.trans h.kept_sublist).append_right [completion]
    · intro o ho hdropped
      rw [Bool.and_eq_false_iff] at hdropped
      obtain hbefore | hnow := hdropped
      · obtain ⟨c, hc, hcovers⟩ := h.dropped o ho hbefore
        exact ⟨c, hmore c hc, hcovers⟩
      · rw [Bool.not_eq_false', Bool.and_eq_true, covers_iff, Bool.or_eq_true, isNewer_iff,
          replacesOwn_iff] at hnow
        exact ⟨completion, List.mem_append_right _ (List.mem_singleton_self _), hnow⟩
    · intro o ho hsurvives c hc hcovered
      rw [Bool.and_eq_true] at hsurvives
      obtain hkept | hlast := List.mem_append.mp hc
      · exact h.uncovered o ho hsurvives.1 c (List.mem_of_mem_filter hkept) hcovered
      · obtain rfl := List.mem_singleton.mp hlast
        have hcovers := covers_iff.mpr hcovered.1
        have hnewer := isNewer_iff.mpr hcovered.2
        simp [hcovers, hnewer] at hsurvives
    · intro o ho hbeyond
      have hsurvives := h.beyond o ho fun c hc ↦ hbeyond c (hmore c hc)
      have hnot := not_covers_of_isBeyond
        (hbeyond completion (List.mem_append_right _ (List.mem_singleton_self _)))
      rw [hsurvives, hnot]
      rfl

theorem exists_coversOnly (observations completions : List PlaybackObservation) :
    ∃ survives kept, CoversOnly observations completions survives kept ∧
      reconcileCompletions observations completions = observations.filter survives ++ kept := by
  induction completions using List.reverseRecOn with
  | nil =>
    refine ⟨fun _ ↦ true, [], ⟨List.Sublist.refl [], ?_, ?_, fun _ _ _ ↦ rfl⟩, ?_⟩
    · intro o _ hdropped
      exact absurd hdropped (by simp)
    · intro o _ _ c hc
      exact absurd hc List.not_mem_nil
    · simp [reconcileCompletions]
  | append_singleton completions completion ih =>
    obtain ⟨survives, kept, hcovers, hresult⟩ := ih
    obtain ⟨survives', kept', hcovers', hstep⟩ := hcovers.step completion
    refine ⟨survives', kept', hcovers', ?_⟩
    rw [reconcileCompletions] at hresult
    rw [reconcileCompletions, List.foldl_append, List.foldl_cons, List.foldl_nil, hresult, hstep]

/-- A completion with its numbers can be compared with every resume. -/
theorem stepReads_of_isCompletion {result : List PlaybackObservation} (h : IsCompletion completion) :
    StepReads result completion := by
  obtain ⟨done, hdone, hnumbers⟩ := h
  intro done' hdone' hstatus before o after playback _ _ hresume hnot
  obtain rfl := Option.mem_unique hdone hdone'
  obtain ⟨hseason, hepisode⟩ := hnumbers.resolve_left hstatus
  obtain ⟨-, hseason', hepisode'⟩ := isResume_iff.mp hresume
  rw [← Option.isSome_iff_exists] at hseason' hepisode'
  exact absurd ⟨hseason'.trans hseason.symm, fun _ ↦ hepisode'.trans hepisode.symm⟩ hnot

theorem throughout_stepReads (h : ∀ completion ∈ completions, IsCompletion completion)
    (observations : List PlaybackObservation) :
    Throughout coverResumes StepReads observations completions := by
  induction completions generalizing observations with
  | nil => trivial
  | cons completion completions ih =>
    exact ⟨stepReads_of_isCompletion (h completion List.mem_cons_self),
      ih (fun c hc ↦ h c (List.mem_cons_of_mem _ hc)) _⟩

end runs

/-- Completions drop the resumes that they reach and supersede, and no other. -/
theorem completions_cover (observations completions : List PlaybackObservation) :
    ((∀ completion ∈ completions, IsCompletion completion) →
      (reconcileCompletions? observations completions).isSome = true) ∧
    ∀ result, reconcileCompletions? observations completions = some result →
      ∃ survives kept, CoversOnly observations completions survives kept ∧
        result = observations.filter survives ++ kept := by
  constructor
  · intro h
    rw [Option.isSome_iff_exists]
    exact ⟨_, reconcileCompletions?_eq_some_iff.mpr ⟨throughout_stepReads h observations, rfl⟩⟩
  · intro result h
    obtain ⟨-, rfl⟩ := reconcileCompletions?_eq_some_iff.mp h
    exact exists_coversOnly observations completions

/-- Two sources hold a position in an episode. -/
def heldPositions : List PlaybackObservation :=
  [⟨.connection 1, some ⟨.watching, some 1, some 3, some 20, some 100⟩,
      some (.naive 10), none, none, false⟩,
    ⟨.connection 2, some ⟨.watching, some 1, some 3, some 30, some 100⟩,
      some (.naive 10), none, none, false⟩]

def finishedEpisode : PlaybackObservation :=
  ⟨.connection 3, some ⟨.watching, some 1, some 3, none, none⟩, some (.naive 20), none, none, false⟩

theorem completions_cover_positions :
    (reconcileCompletions? heldPositions [finishedEpisode]).isSome = true ∧
      ∃ survives kept, CoversOnly heldPositions [finishedEpisode] survives kept ∧
        [finishedEpisode] = heldPositions.filter survives ++ kept := by
  have h := completions_cover heldPositions [finishedEpisode]
  refine ⟨h.1 ?_, h.2 [finishedEpisode] (by decide)⟩
  intro completion hmem
  obtain rfl := List.mem_singleton.mp hmem
  exact ⟨_, rfl, .inr ⟨rfl, rfl⟩⟩

end AnyList.Reconciliation.Completions
