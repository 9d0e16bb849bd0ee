import AnyList.Reconciliation.Completions

namespace AnyList.Reconciliation.Completions

open AnyList.Timestamps AnyList.Reconciliation.Resolve AnyList.Reconciliation.Sources
open AnyList.Reconciliation.Watches AnyList.Library.Members

section ties

variable {σ α : Type*} {startedAt : Option Int} {o : Observation σ α}

theorem inferClock_of_clocked (h : o.changedAt ≠ none) : o.inferClock startedAt = o := by
  obtain h' | ⟨_, -, hnone, -⟩ := inferClock_eq_self_or startedAt o
  · exact h'
  · exact absurd hnone h

theorem inferClock_of_reliable (h : (o.inferClock startedAt).reliable = true) :
    o.inferClock startedAt = o := by
  obtain h' | ⟨_, -, -, h'⟩ := inferClock_eq_self_or startedAt o
  · exact h'
  · simp [h', Observation.reliable] at h

variable [DecidableEq σ] [DecidableEq α] {observations : List (Observation σ α)}

/-- Two deltas that tie as the newest and disagree leave the local value in place. -/
theorem resolve_of_tie {d : Observation σ α} {localAt : Option DateTime} {latest : Int}
    (ho : o ∈ observations) (hd : d ∈ observations) (hoc : o.changed = true)
    (hdc : d.changed = true) (hol : o.clock = some latest) (hdl : d.clock = some latest)
    (hne : o.value ≠ d.value) (hlate : ∀ x ∈ observations, ∀ t ∈ x.clock, t ≤ latest)
    (hlocal : ∀ l ∈ localAt.map naiveUtc, l ≤ latest)
    (hstart : editedDuring startedAt (localAt.map naiveUtc) = false) (localValue : Option α) :
    resolve localValue localAt observations startedAt none = .asConflict localValue := by
  set cs := candidates (localAt.map naiveUtc) (deltas startedAt observations) with hcs
  have hclocked : ∀ x : Observation σ α, x.clock = some latest → x.changedAt ≠ none := by
    rintro x hx hnone
    simp [Observation.clock, hnone] at hx
  have hmem : ∀ x ∈ observations, x.changed = true → x.clock = some latest → x ∈ cs := by
    intro x hx hxc hxl
    refine mem_candidates_deltas.mpr ⟨x, hx, hxc, inferClock_of_clocked (hclocked x hxl), ?_⟩
    cases hl : localAt.map naiveUtc with
    | none => rfl
    | some l =>
      refine olderThan_eq_false.mpr fun t ht ↦ ?_
      obtain rfl : latest = t := by simpa [hxl] using ht
      exact hlocal l hl
  have hocs := hmem o ho hoc hol
  have hdcs := hmem d hd hdc hdl
  have hsettle : resolve localValue localAt observations startedAt none =
      settle localValue (localAt.map naiveUtc) none cs := by
    have hdeltas : deltas startedAt observations ≠ [] :=
      List.ne_nil_of_mem (mem_candidates.mp hocs).1
    simp only [resolve, hstart, Bool.false_eq_true, if_false, if_neg hdeltas,
      if_neg (List.ne_nil_of_mem hocs), ← hcs]
  have hseveral : ∀ v, values cs ≠ [v] := by
    intro v hv
    obtain ⟨-, hall⟩ := values_eq_singleton.mp hv
    exact hne ((hall o hocs).trans (hall d hdcs).symm)
  rw [hsettle, settle_eq_newest hseveral]
  refine newest_eq_conflict fun hreliable v hv ↦ ?_
  have hmax : (clocks cs).max? = some latest := by
    rw [List.max?_eq_some_iff]
    refine ⟨mem_clocks.mpr ⟨o, hocs, hol⟩, fun t ht ↦ ?_⟩
    obtain ⟨x, hx, hxt⟩ := mem_clocks.mp ht
    obtain ⟨y, hy, -, rfl, -⟩ := mem_candidates_deltas.mp hx
    rw [inferClock_of_reliable (List.all_eq_true.mp hreliable _ hx)] at hxt
    exact hlate y hy t hxt
  obtain ⟨-, hall⟩ := values_eq_singleton.mp hv
  have how := hall o (mem_winners.mpr ⟨hocs, hol.trans hmax.symm⟩)
  have hdw := hall d (mem_winners.mpr ⟨hdcs, hdl.trans hmax.symm⟩)
  exact hne (how.trans hdw.symm)

/-- Deltas with clocks of their own, none of them older than the local value, are
settled as they are. -/
theorem resolve_of_clocked {localAt : Option DateTime} (hne : observations ≠ [])
    (hc : ∀ x ∈ observations, x.changed = true ∧ x.changedAt ≠ none)
    (hlocal : ∀ l ∈ localAt.map naiveUtc, ∀ x ∈ observations, ∀ t ∈ x.clock, l ≤ t)
    (hstart : editedDuring startedAt (localAt.map naiveUtc) = false) (localValue : Option α) :
    resolve localValue localAt observations startedAt none =
      settle localValue (localAt.map naiveUtc) none observations := by
  have hdeltas : deltas startedAt observations = observations := by
    unfold deltas
    rw [List.filter_eq_self.mpr fun x hx ↦ (hc x hx).1]
    exact (List.map_congr_left fun x hx ↦ inferClock_of_clocked (hc x hx).2).trans
      (List.map_id' observations)
  have hcand : candidates (localAt.map naiveUtc) observations = observations := by
    refine List.filter_eq_self.mpr fun x hx ↦ ?_
    cases hl : localAt.map naiveUtc with
    | none => rfl
    | some l => simpa using olderThan_eq_false.mpr (hlocal l hl x hx)
  simp only [resolve, hstart, Bool.false_eq_true, if_false, hdeltas, hcand, if_neg hne]

theorem newest_eq_conflict_iff {localValue : Option α}
    (hreliable : observations.all Observation.reliable) :
    newest localValue observations = .asConflict localValue ↔
      ∀ v, values (winners observations) ≠ [v] := by
  constructor
  · intro h v hv
    rw [newest_eq_singleton hreliable hv] at h
    simp [Decision.asConflict] at h
  · exact fun h ↦ newest_eq_conflict fun _ ↦ h

end ties

section playback

variable {localValue : Option Playback} {localAt : Option DateTime} {startedAt : Int}
  {observations : List PlaybackObservation}

@[simp] theorem source_normalize (o : PlaybackObservation) :
    (normalize localValue o).source = o.source := rfl

@[simp] theorem value_normalize (o : PlaybackObservation) :
    (normalize localValue o).value = o.value := rfl

@[simp] theorem changedAt_normalize (o : PlaybackObservation) :
    (normalize localValue o).changedAt = o.changedAt := rfl

@[simp] theorem clock_normalize (o : PlaybackObservation) :
    (normalize localValue o).clock = o.clock := rfl

/-- The flag that marks an inferred clock does not survive. -/
@[simp] theorem inferred_normalize (o : PlaybackObservation) :
    (normalize localValue o).inferred = false := rfl

theorem playbackDecision_of_not_conflict
    (h : (resolve localValue localAt (observations.map (normalize localValue))
      (some startedAt) none).conflict = false) :
    playbackDecision localValue localAt startedAt false observations =
      resolve localValue localAt (observations.map (normalize localValue))
        (some startedAt) none := by
  simp [playbackDecision, h]

theorem playbackDecision_of_conflict
    (h : ∀ value, resolve value localAt (observations.map (normalize localValue))
      (some startedAt) none = .asConflict value) :
    playbackDecision localValue localAt startedAt false observations = .asConflict localValue := by
  simp [playbackDecision, h, Decision.asConflict]

end playback

section covering

variable {result : List PlaybackObservation} {completion o : PlaybackObservation}

theorem mem_coverResumes :
    o ∈ coverResumes result completion ↔
      if isSetAside result completion then o ∈ result
      else o ∈ result ∧ ¬(covers completion o ∧
        (isNewer completion o ∨ replacesOwn completion o)) ∨ o = completion := by
  unfold coverResumes
  split_ifs
  · rfl
  · cases hc : covers completion o <;> simp [hc]

theorem mem_of_mem_coverResumes (h : o ∈ coverResumes result completion) :
    o ∈ result ∨ o = completion := by
  rw [mem_coverResumes] at h
  split_ifs at h
  · exact .inl h
  · exact h.imp_left And.left

theorem mem_coverResumes_of_mem (h : o ∈ result) (hn : isNewer completion o = false)
    (hr : replacesOwn completion o = false) : o ∈ coverResumes result completion := by
  rw [mem_coverResumes]
  split_ifs
  · exact h
  · simp [h, hn, hr]

theorem isNewer_eq_false (h : ∀ t ∈ o.changedAt, ∀ t' ∈ completion.changedAt,
    t'.instant ≤ t.instant) : isNewer completion o = false := by
  unfold isNewer
  cases ho : o.changedAt with
  | none => rfl
  | some t =>
    cases hc : completion.changedAt with
    | none => rfl
    | some t' => simpa using h t ho t' hc

theorem replacesOwn_eq_false (h : o.source ≠ completion.source) :
    replacesOwn completion o = false := by
  simp [replacesOwn, h]

theorem mem_of_mem_reconcileCompletions {resumes completions : List PlaybackObservation}
    (h : o ∈ reconcileCompletions resumes completions) : o ∈ resumes ++ completions := by
  have hfold := List.foldlRecOn completions coverResumes
    (motive := fun result ↦ ∀ x ∈ result, x ∈ resumes ++ completions)
    (fun x hx ↦ List.mem_append_left completions hx) fun result hresult c hc x hx ↦ ?_
  · exact hfold o h
  · obtain hx | rfl := mem_of_mem_coverResumes hx
    · exact hresult x hx
    · exact List.mem_append_right resumes hc

end covering

theorem titleObservations_eq {resumes completions : List PlaybackObservation} (hr : resumes ≠ [])
    (hc : completions ≠ []) : titleObservations resumes completions =
      reconcileCompletions resumes (sortCompletions completions) := by
  cases completions with
  | nil => exact absurd rfl hc
  | cons first rest => simp [titleObservations, hr]

theorem mem_sortCompletions {completions : List PlaybackObservation} {c : PlaybackObservation} :
    c ∈ sortCompletions completions ↔ c ∈ completions := List.mem_insertionSort _

/-- A completion and a resume of another source at one clock, which is the latest of
the title. Every completion is a change and none repeats the resume's value; the pair's
own completion is not set aside for a later episode. -/
structure TiedPair (localValue : Option Playback) (localAt : Option Int) (latest : Int)
    (resumes completions : List PlaybackObservation) (c o : PlaybackObservation) : Prop where
  completion : c ∈ completions
  resume : o ∈ resumes
  inferred : c.inferred = true
  shared : c.changedAt = some (.naive latest)
  tied : o.changedAt = some (.naive latest)
  newest : ∀ d ∈ resumes ++ completions, ∀ t ∈ d.changedAt, t.instant ≤ latest
  other_source : ∀ c' ∈ completions, o.source ≠ c'.source
  changed_resume : (normalize localValue o).changed = true
  changed : ∀ c' ∈ completions, (normalize localValue c').changed = true
  value_ne : ∀ c' ∈ completions, o.value ≠ c'.value
  not_set_aside : isSetAside (resumes ++ completions) c = false
  not_older : ∀ l ∈ localAt, l ≤ milliseconds latest

namespace TiedPair

variable {localValue : Option Playback} {localAt : Option Int} {latest : Int}
  {resumes completions result : List PlaybackObservation} {c o : PlaybackObservation}
  (h : TiedPair localValue localAt latest resumes completions c o)

include h

theorem resume_kept : o ∈ reconcileCompletions resumes (sortCompletions completions) := by
  refine List.foldlRecOn (motive := fun result ↦ o ∈ result) _ coverResumes h.resume
    fun result hresult c' hc' ↦ ?_
  have hmem := mem_sortCompletions.mp hc'
  refine mem_coverResumes_of_mem hresult (isNewer_eq_false fun t ht t' ht' ↦ ?_)
    (replacesOwn_eq_false (h.other_source c' hmem))
  obtain rfl := Option.some.inj (h.tied.symm.trans ht)
  simpa using h.newest c' (List.mem_append_right resumes hmem) t' ht'

theorem not_set_aside_in (hresult : ∀ x ∈ result, x ∈ resumes ++ completions) :
    isSetAside result c = false := by
  have hall := h.not_set_aside
  unfold isSetAside at hall ⊢
  cases hv : c.value with
  | none => rfl
  | some done =>
    simp only [hv, Option.any_some, Bool.and_eq_false_iff, List.any_eq_false] at hall ⊢
    exact hall.imp_right fun hall x hx ↦ hall x (hresult x hx)

theorem latest_of_sorted {c' : PlaybackObservation} (hc' : c' ∈ completions)
    (hle : completionKey c ≤ completionKey c') :
    ∃ t, c'.changedAt = some t ∧ t.instant = latest := by
  have hfst : ((latest : Int) : WithBot Int) ≤ orFirst (c'.changedAt.map DateTime.instant) := by
    have hmono := Prod.Lex.monotone_fst _ _ hle
    simpa [completionKey, orFirst, h.shared] using hmono
  cases ht : c'.changedAt with
  | none =>
    rw [ht] at hfst
    simp [orFirst] at hfst
  | some t =>
    rw [ht] at hfst
    have hlow : latest ≤ t.instant := WithBot.coe_le_coe.mp hfst
    have hhigh := h.newest c' (List.mem_append_right resumes hc') t ht
    exact ⟨t, rfl, by omega⟩

/-- Whatever later completions do, one at the shared clock reaches the decision. -/
theorem completion_kept :
    ∃ d ∈ reconcileCompletions resumes (sortCompletions completions), d ∈ completions ∧
      ∃ t, d.changedAt = some t ∧ t.instant = latest := by
  obtain ⟨earlier, later, hsplit⟩ := List.append_of_mem (mem_sortCompletions.mpr h.completion)
  have hsorted : (sortCompletions completions).Pairwise
      fun c c' ↦ completionKey c ≤ completionKey c' := by
    exact List.pairwise_insertionSort _ _
  have hlater : ∀ c' ∈ later, ∃ t, c'.changedAt = some t ∧ t.instant = latest := by
    intro c' hc'
    rw [hsplit, List.pairwise_append] at hsorted
    have hmem : c' ∈ sortCompletions completions := by
      rw [hsplit]
      exact List.mem_append_right earlier (List.mem_cons_of_mem c hc')
    exact h.latest_of_sorted (mem_sortCompletions.mp hmem)
      ((List.pairwise_cons.mp hsorted.2.1).1 c' hc')
  have hbefore : ∀ x ∈ reconcileCompletions resumes earlier, x ∈ resumes ++ completions := by
    intro x hx
    obtain hx | hx := List.mem_append.mp (mem_of_mem_reconcileCompletions hx)
    · exact List.mem_append_left completions hx
    · refine List.mem_append_right resumes (mem_sortCompletions.mp ?_)
      rw [hsplit]
      exact List.mem_append_left (c :: later) hx
  have hfirst : c ∈ coverResumes (reconcileCompletions resumes earlier) c := by
    rw [mem_coverResumes, if_neg (by simp [h.not_set_aside_in hbefore])]
    exact .inr rfl
  have hfold : reconcileCompletions resumes (sortCompletions completions) =
      later.foldl coverResumes (coverResumes (reconcileCompletions resumes earlier) c) := by
    rw [hsplit, reconcileCompletions, List.foldl_append, List.foldl_cons, reconcileCompletions]
  rw [hfold]
  refine List.foldlRecOn (motive := fun result ↦ ∃ d ∈ result, d ∈ completions ∧
      ∃ t, d.changedAt = some t ∧ t.instant = latest) later coverResumes
    ⟨c, hfirst, h.completion, _, h.shared, by simp⟩ fun result hresult c' hc' ↦ ?_
  by_cases haside : isSetAside result c'
  · simpa only [coverResumes, if_pos haside] using hresult
  · refine ⟨c', by rw [mem_coverResumes, if_neg haside]; exact .inr rfl, ?_, hlater c' hc'⟩
    refine mem_sortCompletions.mp ?_
    rw [hsplit]
    exact List.mem_append_right earlier (List.mem_cons_of_mem c hc')

end TiedPair

/-- A tie at the latest clock is a conflict, whatever else was reported. -/
theorem TiedPair.titleDecision_eq {localValue : Option Playback} {at' : Option DateTime}
    {startedAt latest : Int} {resumes completions : List PlaybackObservation}
    {c o : PlaybackObservation}
    (h : TiedPair localValue (at'.map naiveUtc) latest resumes completions c o)
    (hstart : editedDuring (some startedAt) (at'.map naiveUtc) = false) :
    titleDecision localValue at' startedAt false resumes completions =
      some (.asConflict localValue) := by
  have hresumes := List.ne_nil_of_mem h.resume
  have hcompletions := List.ne_nil_of_mem h.completion
  obtain ⟨d, hd, hdc, t, hdt, rfl⟩ := h.completion_kept
  have hne : reconcileCompletions resumes (sortCompletions completions) ≠ [] :=
    List.ne_nil_of_mem hd
  simp only [titleDecision, titleObservations_eq hresumes hcompletions, if_neg hne]
  refine congrArg some (playbackDecision_of_conflict fun value ↦ ?_)
  have hmem : ∀ x ∈ reconcileCompletions resumes (sortCompletions completions),
      normalize localValue x ∈
        (sortBySource (reconcileCompletions resumes (sortCompletions completions))).map
          (normalize localValue) := fun x hx ↦ List.mem_map_of_mem (mem_sortBySource.mpr hx)
  refine resolve_of_tie (hmem o h.resume_kept) (hmem d hd) h.changed_resume (h.changed d hdc)
    ?_ ?_ (h.value_ne d hdc) ?_ h.not_older hstart value
  · simp [Observation.clock, h.tied]
  · simp [Observation.clock, hdt, naiveUtc]
  · intro x hx s hs
    obtain ⟨y, hy, rfl⟩ := List.mem_map.mp hx
    have hmem := mem_of_mem_reconcileCompletions (mem_sortBySource.mp hy)
    simp only [Observation.clock, Option.mem_map] at hs
    obtain ⟨u, hu, rfl⟩ := hs
    refine milliseconds_mono (h.newest y ?_ u hu)
    simpa [mem_sortCompletions] using hmem

/-- The scope in which the shared clock alone decides: every resume competes with
completions of other sources, all inferred, all saying the same and all covering it. -/
structure SameCycle (localValue : Option Playback) (localAt : Option Int) (shared : Int)
    (done : Playback) (resumes completions : List PlaybackObservation) : Prop where
  resumes_ne : resumes ≠ []
  completions_ne : completions ≠ []
  stored : milliseconds shared = shared
  inferred : ∀ c ∈ completions, c.inferred = true ∧ c.value = some done ∧
    c.changedAt = some (.naive shared) ∧ c.previous = none
  resume : ∀ o ∈ resumes, o.inferred = false ∧ ∃ playback t, o.value = some playback ∧
    playback.status = .watching ∧ done.covers playback = true ∧ playback ≠ done ∧
    o.changedAt = some (.naive t) ∧ milliseconds t = t
  changed : ∀ o ∈ resumes, (normalize localValue o).changed = true
  other_source : ∀ o ∈ resumes, ∀ c ∈ completions, o.source ≠ c.source
  not_older : ∀ l ∈ localAt, l ≤ shared ∧ ∀ o ∈ resumes, ∀ t ∈ o.clock, l ≤ t

/-- The latest resume is not older than the shared clock, and it ties with that clock
or with a resume that disagrees. -/
def LatestTies (shared : Int) (resumes : List PlaybackObservation) : Prop :=
  ∃ o ∈ resumes, ∃ t ∈ o.clock, shared ≤ t ∧ (∀ o' ∈ resumes, ∀ t' ∈ o'.clock, t' ≤ t) ∧
    (t = shared ∨ ∃ o' ∈ resumes, o'.clock = some t ∧ o'.value ≠ o.value)

theorem isAfter_of_covers {done playback : Playback} (h : done.covers playback = true) :
    done.status = .completed ∨ playback.isAfter done = false := by
  simp only [Playback.covers, Bool.or_eq_true, decide_eq_true_eq, Bool.and_eq_true] at h
  refine h.imp_right fun hcov ↦ ?_
  obtain ⟨-, hle⟩ := hcov
  cases horder : playback.compareNumbers done with
  | none => simp [Playback.isAfter, horder]
  | some order =>
    rw [horder, Option.any_some] at hle
    cases order with
    | lt => simp [Playback.isAfter, horder]
    | eq => simp [Playback.isAfter, horder]
    | gt => exact absurd hle (by decide)

theorem not_isAfter_self (playback : Playback) : playback.isAfter playback = false := by
  cases hs : playback.season <;> cases he : playback.episode <;>
    simp [Playback.isAfter, Playback.compareNumbers, Playback.compareNumber, hs, he]

/-- What a list of such completions leaves of the resumes. -/
structure Settled (shared : Int) (resumes completions result : List PlaybackObservation) :
    Prop where
  sound : ∀ x ∈ result, x ∈ resumes ∨ x ∈ completions
  keeps : ∀ o ∈ resumes, (∃ t ∈ o.clock, shared ≤ t) → o ∈ result
  recent : ∀ o ∈ result, o ∈ resumes → ∀ t ∈ o.clock, shared ≤ t
  completed : ∃ c ∈ completions, c ∈ result

namespace SameCycle

variable {localValue : Option Playback} {localAt : Option Int} {shared : Int} {done : Playback}
  {resumes completions result : List PlaybackObservation} {c o : PlaybackObservation}
  (h : SameCycle localValue localAt shared done resumes completions)

include h

theorem clock_completion (hc : c ∈ completions) : c.clock = some shared := by
  simp [Observation.clock, (h.inferred c hc).2.2.1, h.stored]

theorem clock_resume (ho : o ∈ resumes) :
    ∃ t, o.changedAt = some (.naive t) ∧ o.clock = some t := by
  obtain ⟨-, playback, t, -, -, -, -, hat, hstored⟩ := h.resume o ho
  exact ⟨t, hat, by simp [Observation.clock, hat, hstored]⟩

theorem not_set_aside (hresult : ∀ x ∈ result, x ∈ resumes ∨ x ∈ completions)
    (hc : c ∈ completions) : isSetAside result c = false := by
  unfold isSetAside
  rw [(h.inferred c hc).2.1, Option.any_some, Bool.and_eq_false_iff, or_iff_not_imp_left]
  intro hdone
  have hstatus : done.status ≠ .completed := by simpa using hdone
  rw [List.any_eq_false]
  intro x hx
  obtain hx | hx := hresult x hx
  · obtain ⟨-, playback, -, hv, -, hcov, -⟩ := h.resume x hx
    simp [hv, (isAfter_of_covers hcov).resolve_left hstatus]
  · rw [(h.inferred x hx).2.1]
    simp [not_isAfter_self]

theorem covers_resume (hc : c ∈ completions) (ho : o ∈ resumes) : covers c o = true := by
  obtain ⟨-, playback, -, hv, -, hcov, -⟩ := h.resume o ho
  simp [covers, (h.inferred c hc).2.1, hv, hcov]

theorem settled_coverResumes (hc : c ∈ completions)
    (hsound : ∀ x ∈ result, x ∈ resumes ∨ x ∈ completions)
    (hkeeps : ∀ o ∈ resumes, (∃ t ∈ o.clock, shared ≤ t) → o ∈ result) :
    Settled shared resumes completions (coverResumes result c) where
  sound x hx := by
    obtain hx | rfl := mem_of_mem_coverResumes hx
    exacts [hsound x hx, .inr hc]
  keeps o ho ht := by
    refine mem_coverResumes_of_mem (hkeeps o ho ht) ?_ (replacesOwn_eq_false (h.other_source o ho c hc))
    obtain ⟨t, hat, hclock⟩ := h.clock_resume ho
    obtain ⟨t', ht', hle⟩ := ht
    obtain rfl : t = t' := by simpa [hclock] using ht'
    simpa [isNewer, hat, (h.inferred c hc).2.2.1] using hle
  recent o hmem ho t ht := by
    obtain ⟨t', hat, hclock⟩ := h.clock_resume ho
    obtain rfl : t' = t := by simpa [hclock] using ht
    rw [mem_coverResumes, if_neg (by simp [h.not_set_aside hsound hc])] at hmem
    obtain ⟨-, hnot⟩ | rfl := hmem
    · by_contra hlt
      refine hnot ⟨h.covers_resume hc ho, .inl ?_⟩
      simpa [isNewer, hat, (h.inferred c hc).2.2.1] using hlt
    · exact absurd rfl (h.other_source o ho o hc)
  completed := ⟨c, hc, by
    rw [mem_coverResumes, if_neg (by simp [h.not_set_aside hsound hc])]
    exact .inr rfl⟩

theorem settled_foldl {cs : List PlaybackObservation} (hne : cs ≠ [])
    (hcs : ∀ c ∈ cs, c ∈ completions) (hsound : ∀ x ∈ result, x ∈ resumes ∨ x ∈ completions)
    (hkeeps : ∀ o ∈ resumes, (∃ t ∈ o.clock, shared ≤ t) → o ∈ result) :
    Settled shared resumes completions (cs.foldl coverResumes result) := by
  induction cs generalizing result with
  | nil => exact absurd rfl hne
  | cons c cs ih =>
    have hstep := h.settled_coverResumes (hcs c List.mem_cons_self) hsound hkeeps
    obtain rfl | hne' := eq_or_ne cs []
    · exact hstep
    · exact ih hne' (fun c' hc' ↦ hcs c' (List.mem_cons_of_mem c hc')) hstep.sound hstep.keeps

theorem settled : Settled shared resumes completions
    (reconcileCompletions resumes (sortCompletions completions)) := by
  refine h.settled_foldl ?_ (fun c hc ↦ mem_sortCompletions.mp hc) (fun x hx ↦ .inl hx)
    fun o ho _ ↦ ho
  obtain ⟨c, hc⟩ := List.exists_mem_of_ne_nil _ h.completions_ne
  exact List.ne_nil_of_mem (mem_sortCompletions.mpr hc)

theorem changed_normalize (ho : o ∈ resumes ∨ o ∈ completions) :
    (normalize localValue o).changed = true ∧ (normalize localValue o).changedAt ≠ none := by
  obtain ho | ho := ho
  · obtain ⟨t, hat, -⟩ := h.clock_resume ho
    exact ⟨h.changed o ho, by simp [hat]⟩
  · obtain ⟨-, -, hat, hprev⟩ := h.inferred o ho
    simp [normalize, Observation.changed, hprev, hat]

theorem not_older_normalize (ho : o ∈ resumes ∨ o ∈ completions) :
    ∀ l ∈ localAt, ∀ t ∈ (normalize localValue o).clock, l ≤ t := by
  intro l hl t ht
  obtain ho | ho := ho
  · exact (h.not_older l hl).2 o ho t ht
  · obtain rfl : shared = t := by simpa [h.clock_completion ho] using ht
    exact (h.not_older l hl).1

/-- The latest resume of the title. -/
theorem exists_latest : ∃ o ∈ resumes, ∃ t, o.clock = some t ∧
    ∀ o' ∈ resumes, ∀ t' ∈ o'.clock, t' ≤ t := by
  obtain ⟨o, ho⟩ := List.exists_mem_of_ne_nil _ h.resumes_ne
  obtain ⟨t, -, ht⟩ := h.clock_resume ho
  cases hmax : (clocks resumes).max? with
  | none =>
    rw [List.max?_eq_none_iff] at hmax
    exact absurd hmax (List.ne_nil_of_mem (mem_clocks.mpr ⟨o, ho, ht⟩))
  | some latest =>
    obtain ⟨hmem, hle⟩ := List.max?_eq_some_iff.mp hmax
    obtain ⟨o', ho', hl⟩ := mem_clocks.mp hmem
    exact ⟨o', ho', latest, hl, fun x hx s hs ↦ hle s (mem_clocks.mpr ⟨x, hx, hs⟩)⟩

/-- A resume that survives the completions makes the newest deltas decide. -/
theorem winners_disagree_iff {seen : List PlaybackObservation}
    (hsettled : Settled shared resumes completions seen)
    (hlate : ∃ o ∈ resumes, ∃ t ∈ o.clock, shared ≤ t) :
    (∀ v, values (winners (seen.map (normalize localValue))) ≠ [v]) ↔
      LatestTies shared resumes := by
  obtain ⟨o, ho, t, ht, hmax⟩ := h.exists_latest
  have hshared : shared ≤ t := by
    obtain ⟨o', ho', t', ht', hle⟩ := hlate
    exact hle.trans (hmax o' ho' t' ht')
  have hclock : ∀ x ∈ seen, ∀ s ∈ x.clock, s ≤ t := by
    intro x hx s hs
    obtain hx | hx := hsettled.sound x hx
    · exact hmax x hx s hs
    · obtain rfl : shared = s := by simpa [h.clock_completion hx] using hs
      exact hshared
  have hmem : ∀ x ∈ seen, normalize localValue x ∈ seen.map (normalize localValue) :=
    fun x hx ↦ List.mem_map_of_mem hx
  have hseen : o ∈ seen := hsettled.keeps o ho ⟨t, ht, hshared⟩
  have hlatest : (clocks (seen.map (normalize localValue))).max? = some t := by
    rw [List.max?_eq_some_iff]
    refine ⟨mem_clocks.mpr ⟨_, hmem o hseen, ht⟩, fun s hs ↦ ?_⟩
    obtain ⟨y, hy, hys⟩ := mem_clocks.mp hs
    obtain ⟨x, hx, rfl⟩ := List.mem_map.mp hy
    exact hclock x hx s hys
  have hwinner : ∀ x ∈ seen, x.clock = some t →
      normalize localValue x ∈ winners (seen.map (normalize localValue)) :=
    fun x hx hxt ↦ mem_winners.mpr ⟨hmem x hx, by rw [hlatest]; exact hxt⟩
  constructor
  · intro hsev
    by_contra hnot
    refine hsev o.value (values_eq_singleton.mpr ⟨List.ne_nil_of_mem (hwinner o hseen ht), ?_⟩)
    intro y hy
    obtain ⟨hy, hyt⟩ := mem_winners.mp hy
    obtain ⟨x, hx, rfl⟩ := List.mem_map.mp hy
    have hxt : x.clock = some t := by rw [← hlatest]; exact hyt
    by_contra hne
    refine hnot ⟨o, ho, t, ht, hshared, hmax, ?_⟩
    obtain hx | hx := hsettled.sound x hx
    · exact .inr ⟨x, hx, hxt, hne⟩
    · exact .inl (Option.some.inj (hxt.symm.trans (h.clock_completion hx)))
  · rintro ⟨o₁, ho₁, t₁, ht₁, hle₁, hmax₁, hties⟩ v hv
    obtain ⟨-, hall⟩ := values_eq_singleton.mp hv
    obtain rfl : t₁ = t := le_antisymm (hmax o₁ ho₁ t₁ ht₁) (hmax₁ o ho t ht)
    have hv₁ := hall _ (hwinner o₁ (hsettled.keeps o₁ ho₁ ⟨t₁, ht₁, hle₁⟩) ht₁)
    obtain rfl | ⟨o₂, ho₂, ht₂, hne⟩ := hties
    · obtain ⟨c, hc, hcs⟩ := hsettled.completed
      have hvc := hall _ (hwinner c hcs (h.clock_completion hc))
      obtain ⟨-, playback, -, hvalue, -, -, hne, -⟩ := h.resume o₁ ho₁
      refine hne (Option.some.inj ?_)
      rw [← hvalue, ← (h.inferred c hc).2.1]
      exact hv₁.trans hvc.symm
    · have hv₂ := hall _ (hwinner o₂ (hsettled.keeps o₂ ho₂ ⟨t₁, ht₂, hle₁⟩) ht₂)
      exact hne (hv₂.trans hv₁.symm)

variable {seen : List PlaybackObservation}

theorem reliable_seen (hsettled : Settled shared resumes completions seen) :
    (seen.map (normalize localValue)).all Observation.reliable := by
  rw [List.all_eq_true]
  intro x hx
  obtain ⟨y, hy, rfl⟩ := List.mem_map.mp hx
  have hclocked := (h.changed_normalize (hsettled.sound y hy)).2
  simpa [Observation.reliable, Option.isSome_iff_ne_none] using hclocked

/-- A surviving resume and a completion never say the same. -/
theorem values_seen_ne (hsettled : Settled shared resumes completions seen)
    (hlate : ∃ o ∈ resumes, ∃ t ∈ o.clock, shared ≤ t) (v : Option Playback) :
    values (seen.map (normalize localValue)) ≠ [v] := by
  intro hv
  obtain ⟨-, hall⟩ := values_eq_singleton.mp hv
  obtain ⟨o, ho, ht⟩ := hlate
  obtain ⟨c, hc, hcs⟩ := hsettled.completed
  have hvo := hall _ (List.mem_map_of_mem (hsettled.keeps o ho ht))
  have hvc := hall _ (List.mem_map_of_mem hcs)
  obtain ⟨-, playback, -, hvalue, -, -, hne, -⟩ := h.resume o ho
  refine hne (Option.some.inj ?_)
  rw [← hvalue, ← (h.inferred c hc).2.1]
  exact hvo.trans hvc.symm

/-- When every resume is older than the shared clock, the completions win. -/
theorem settle_seen_of_older (hsettled : Settled shared resumes completions seen)
    (hlate : ¬∃ o ∈ resumes, ∃ t ∈ o.clock, shared ≤ t) (value : Option Playback) :
    (settle value localAt none (seen.map (normalize localValue))).conflict = false := by
  have hall : ∀ x ∈ seen, x ∈ completions := by
    intro x hx
    refine (hsettled.sound x hx).resolve_left fun hr ↦ hlate ?_
    obtain ⟨t, -, ht⟩ := h.clock_resume hr
    exact ⟨x, hr, t, ht, hsettled.recent x hx hr t ht⟩
  obtain ⟨c, hc, hcs⟩ := hsettled.completed
  have hvalues : values (seen.map (normalize localValue)) = [some done] := by
    refine values_eq_singleton.mpr ⟨by simpa using List.ne_nil_of_mem hcs, fun y hy ↦ ?_⟩
    obtain ⟨x, hx, rfl⟩ := List.mem_map.mp hy
    exact (h.inferred x (hall x hx)).2.1
  have hordered : (seen.map (normalize localValue)).any (Observation.orderedAfter value localAt) := by
    refine List.any_eq_true.mpr ⟨_, List.mem_map_of_mem hcs, ?_⟩
    have hclock : (normalize localValue c).clock = some shared :=
      (clock_normalize c).trans (h.clock_completion hc)
    cases hl : localAt with
    | none => simp [Observation.orderedAfter, hclock]
    | some l =>
      refine orderedAfter_eq_true.mpr (.inl ⟨shared, hclock, ?_⟩)
      obtain ⟨o, ho⟩ := List.exists_mem_of_ne_nil _ h.resumes_ne
      obtain ⟨t, -, ht⟩ := h.clock_resume ho
      have hlow := (h.not_older l hl).2 o ho t ht
      have hhigh : ¬shared ≤ t := fun hle ↦ hlate ⟨o, ho, t, ht, hle⟩
      omega
  rw [settle_eq_singleton hvalues, if_neg (by simp [hordered])]

end SameCycle

section decision

variable {localValue : Option Playback} {at' : Option DateTime} {startedAt shared : Int}
  {done : Playback} {resumes completions seen : List PlaybackObservation}
  (h : SameCycle localValue (at'.map naiveUtc) shared done resumes completions)
  (hsettled : Settled shared resumes completions seen)
  (hstart : editedDuring (some startedAt) (at'.map naiveUtc) = false)

include h hsettled hstart

theorem SameCycle.resolve_seen (value : Option Playback) :
    resolve value at' (seen.map (normalize localValue)) (some startedAt) none =
      settle value (at'.map naiveUtc) none (seen.map (normalize localValue)) := by
  obtain ⟨c, -, hc⟩ := hsettled.completed
  refine resolve_of_clocked (by simpa using List.ne_nil_of_mem hc) ?_ ?_ hstart value
  · intro x hx
    obtain ⟨y, hy, rfl⟩ := List.mem_map.mp hx
    exact h.changed_normalize (hsettled.sound y hy)
  · intro l hl x hx
    obtain ⟨y, hy, rfl⟩ := List.mem_map.mp hx
    exact h.not_older_normalize (hsettled.sound y hy) l hl

theorem SameCycle.playbackDecision_iff :
    playbackDecision localValue at' startedAt false seen = .asConflict localValue ↔
      LatestTies shared resumes := by
  have hresolve := h.resolve_seen hsettled hstart
  by_cases hlate : ∃ o ∈ resumes, ∃ t ∈ o.clock, shared ≤ t
  · have hnewest : ∀ value, resolve value at' (seen.map (normalize localValue))
        (some startedAt) none = newest value (seen.map (normalize localValue)) := fun value ↦
      (hresolve value).trans (settle_eq_newest (h.values_seen_ne hsettled hlate))
    have hiff := h.winners_disagree_iff hsettled hlate
    have hreliable := h.reliable_seen hsettled
    by_cases hties : LatestTies shared resumes
    · refine iff_of_true (playbackDecision_of_conflict fun value ↦ ?_) hties
      rw [hnewest, newest_eq_conflict_iff hreliable]
      exact hiff.mpr hties
    · refine iff_of_false (fun hconf ↦ ?_) hties
      have hsingle : ∃ v, values (winners (seen.map (normalize localValue))) = [v] := by
        by_contra hnone
        exact hties (hiff.mp fun v hv ↦ hnone ⟨v, hv⟩)
      obtain ⟨v, hv⟩ := hsingle
      have hbase : (resolve localValue at' (seen.map (normalize localValue))
          (some startedAt) none).conflict = false := by
        rw [hnewest, newest_eq_singleton hreliable hv]
      rw [playbackDecision_of_not_conflict hbase] at hconf
      simp [hconf, Decision.asConflict] at hbase
  · have hnot : ¬LatestTies shared resumes := by
      rintro ⟨o, ho, t, ht, hle, -⟩
      exact hlate ⟨o, ho, t, ht, hle⟩
    refine iff_of_false (fun hconf ↦ ?_) hnot
    have hbase : (resolve localValue at' (seen.map (normalize localValue))
        (some startedAt) none).conflict = false := by
      rw [hresolve]
      exact h.settle_seen_of_older hsettled hlate localValue
    rw [playbackDecision_of_not_conflict hbase] at hconf
    simp [hconf, Decision.asConflict] at hbase

end decision

theorem Settled.sortBySource {shared : Int} {resumes completions result : List PlaybackObservation}
    (h : Settled shared resumes completions result) :
    Settled shared resumes completions (sortBySource result) where
  sound x hx := h.sound x (mem_sortBySource.mp hx)
  keeps o ho ht := mem_sortBySource.mpr (h.keeps o ho ht)
  recent o ho := h.recent o (mem_sortBySource.mp ho)
  completed := by
    obtain ⟨c, hc, hmem⟩ := h.completed
    exact ⟨c, hc, mem_sortBySource.mpr hmem⟩

theorem SameCycle.titleDecision_iff {localValue : Option Playback} {at' : Option DateTime}
    {startedAt shared : Int} {done : Playback} {resumes completions : List PlaybackObservation}
    (h : SameCycle localValue (at'.map naiveUtc) shared done resumes completions)
    (hstart : editedDuring (some startedAt) (at'.map naiveUtc) = false) :
    titleDecision localValue at' startedAt false resumes completions =
      some (.asConflict localValue) ↔ LatestTies shared resumes := by
  have hsettled := h.settled
  obtain ⟨c, -, hc⟩ := hsettled.completed
  have hdecision : titleDecision localValue at' startedAt false resumes completions =
      some (playbackDecision localValue at' startedAt false
        (sortBySource (reconcileCompletions resumes (sortCompletions completions)))) := by
    simp only [titleDecision, titleObservations_eq h.resumes_ne h.completions_ne,
      if_neg (List.ne_nil_of_mem hc)]
  rw [hdecision, Option.some.injEq]
  exact h.playbackDecision_iff hsettled.sortBySource hstart

theorem titleDecision_of_editedDuring {localValue : Option Playback} {at' : Option DateTime}
    {startedAt : Int} (h : editedDuring (some startedAt) (at'.map naiveUtc) = true)
    (resumes completions : List PlaybackObservation) :
    titleDecision localValue at' startedAt false resumes completions = none ∨
      titleDecision localValue at' startedAt false resumes completions =
        some (.asStale localValue) := by
  by_cases hne : titleObservations resumes completions = []
  · exact .inl (by simp [titleDecision, hne])
  · rw [titleDecision, if_neg hne]
    refine .inr (congrArg some ?_)
    simp [playbackDecision, resolve, h, Decision.asStale]

/-- Trakt's undated play of a film, accepted at the cycle's clock. -/
def watchedFilm : PlaybackObservation :=
  historyCompletion (.bare .completed) ⟨some true, {.cloud "trakt"}, some 1000000, false, false⟩
    none (.cloud "trakt")

/-- The film resumed on a connection ten minutes in. -/
def resumedFilm (t : Int) : PlaybackObservation :=
  ⟨.connection 1, some ⟨.watching, none, none, some 600000, some 6000000⟩, some (.naive t), none,
    none, false⟩

end AnyList.Reconciliation.Completions
