import AnyList.Reconciliation.Resolve

namespace AnyList.Reconciliation.Resolve

open AnyList.Timestamps AnyList.Library.Members

variable {σ α : Type*} [DecidableEq α]

/-- What one resolution can do, with the evidence for it. `localAt` is the
normalised local clock and `changed` the deltas of the cycle. -/
inductive Outcome [DecidableEq σ] (localValue : Option α) (localAt : Option Int)
    (changed : List (Observation σ α)) : Decision σ α → Prop
  | unchanged : changed = [] → Outcome localValue localAt changed (.keep localValue)
  | outdated : candidates localAt changed = [] →
      Outcome localValue localAt changed (.asStale localValue)
  | unordered (value : Option α) :
      (∀ o ∈ candidates localAt changed, o.value = value) → value ≠ localValue →
      (∀ o ∈ candidates localAt changed, o.orderedAfter localValue localAt = false) →
      Outcome localValue localAt changed (.asConflict localValue)
  | agreed (value : Option α) :
      candidates localAt changed ≠ [] →
      (∀ o ∈ candidates localAt changed, o.value = value) →
      (value ≠ localValue → localValue ≠ none →
        ∃ o ∈ candidates localAt changed, o.orderedAfter localValue localAt = true) →
      Outcome localValue localAt changed
        ⟨value, sources (candidates localAt changed),
          (clocks (candidates localAt changed)).max?, false, false⟩
  | newest (value : Option α) :
      (∀ v, values (candidates localAt changed) ≠ [v]) →
      (∀ o ∈ candidates localAt changed, o.reliable = true) →
      winners (candidates localAt changed) ≠ [] →
      (∀ o ∈ winners (candidates localAt changed), o.value = value) →
      Outcome localValue localAt changed
        ⟨value, sources (winners (candidates localAt changed)),
          (clocks (candidates localAt changed)).max?, false, false⟩
  | disagreement :
      (∀ v, values (candidates localAt changed) ≠ [v]) →
      ((∀ o ∈ candidates localAt changed, o.reliable = true) →
        ∀ v, values (winners (candidates localAt changed)) ≠ [v]) →
      Outcome localValue localAt changed (.asConflict localValue)

theorem newest_outcome [DecidableEq σ] {localValue : Option α} {localAt : Option Int}
    {changed : List (Observation σ α)}
    (h : ∀ v, values (candidates localAt changed) ≠ [v]) :
    Outcome localValue localAt changed (newest localValue (candidates localAt changed)) := by
  by_cases hs : (candidates localAt changed).all Observation.reliable ∧
      ∃ v, values (winners (candidates localAt changed)) = [v]
  · obtain ⟨hr, v, hv⟩ := hs
    obtain ⟨hne, hall⟩ := values_eq_singleton.mp hv
    rw [newest_eq_singleton hr hv]
    exact .newest v h (List.all_eq_true.mp hr) hne hall
  · rw [newest_eq_conflict fun hr v hv ↦ hs ⟨hr, v, hv⟩]
    exact .disagreement h fun hr v hv ↦ hs ⟨List.all_eq_true.mpr hr, v, hv⟩

theorem settle_outcome [DecidableEq σ] {localValue : Option α} {localAt : Option Int}
    {changed : List (Observation σ α)} :
    Outcome localValue localAt changed
      (settle localValue localAt none (candidates localAt changed)) := by
  by_cases hs : ∃ v, values (candidates localAt changed) = [v]
  · obtain ⟨v, hv⟩ := hs
    obtain ⟨hne, hall⟩ := values_eq_singleton.mp hv
    rw [settle_eq_singleton hv]
    by_cases hc : v ≠ localValue ∧ localValue ≠ none ∧
        ¬(candidates localAt changed).any (Observation.orderedAfter localValue localAt)
    · rw [if_pos hc]
      exact .unordered v hall hc.1 (by simpa using hc.2.2)
    · rw [if_neg hc]
      refine .agreed v hne hall fun hv hl ↦ ?_
      simpa [hv, hl] using hc
  · rw [settle_eq_newest fun v hv ↦ hs ⟨v, hv⟩]
    exact newest_outcome fun v hv ↦ hs ⟨v, hv⟩

theorem editedDuring_eq_true {startedAt localAt : Option Int} :
    editedDuring startedAt localAt = true ↔
      ∃ started ∈ startedAt, ∃ l ∈ localAt, started < l := by
  cases startedAt <;> cases localAt <;> simp [editedDuring]

theorem editedDuring_eq_false {startedAt localAt : Option Int} :
    editedDuring startedAt localAt = false ↔
      ∀ started ∈ startedAt, ∀ l ∈ localAt, l ≤ started := by
  cases startedAt <;> cases localAt <;> simp [editedDuring]

/-- Every resolution is stale because the owner edited during the cycle, or has
one of the outcomes of the cycle's deltas. -/
theorem resolve_outcome [DecidableEq σ] (localValue : Option α) (localAt : Option DateTime)
    (observations : List (Observation σ α)) (startedAt : Option Int) :
    (editedDuring startedAt (localAt.map naiveUtc) = true ∧
      resolve localValue localAt observations startedAt none = .asStale localValue) ∨
    (editedDuring startedAt (localAt.map naiveUtc) = false ∧
      Outcome localValue (localAt.map naiveUtc) (deltas startedAt observations)
        (resolve localValue localAt observations startedAt none)) := by
  cases he : editedDuring startedAt (localAt.map naiveUtc) with
  | true => exact .inl ⟨rfl, by simp [resolve, he]⟩
  | false =>
    refine .inr ⟨rfl, ?_⟩
    by_cases hd : deltas startedAt observations = []
    · have hsame := @Outcome.unchanged σ α _ _ localValue (localAt.map naiveUtc) [] rfl
      simpa [resolve, he, hd] using hsame
    · by_cases hc : candidates (localAt.map naiveUtc) (deltas startedAt observations) = []
      · simpa [resolve, he, hd, hc] using Outcome.outdated hc
      · simp only [resolve, he, if_neg hd, if_neg hc, Bool.false_eq_true, if_false]
        exact settle_outcome

/-- The clock an observation is ordered by: its own, or the start of the cycle for
a snapshot delta without one. -/
def Observation.effectiveClock (startedAt : Option Int) (o : Observation σ α) : Option Int :=
  (o.inferClock startedAt).clock

/-- The evidence that lets a decision replace a non-null local value whose
(normalised) clock is known. -/
structure SupersedesLocal (localValue : Option α) (localAt : Int) (startedAt : Option Int)
    (observations : List (Observation σ α)) (d : Decision σ α) : Prop where
  notAfterStart : ∀ started ∈ startedAt, localAt ≤ started
  sources_nonempty : d.sources.Nonempty
  sources_changed : ∀ s ∈ d.sources,
    ∃ o ∈ observations, o.changed ∧ o.source = s ∧ o.value = d.value
  ordered : ∃ o ∈ observations, o.changed ∧ o.source ∈ d.sources ∧ o.value = d.value ∧
    ((∃ c ∈ o.effectiveClock startedAt, localAt < c) ∨
      o.previous = some localValue ∧ ∃ seen ∈ o.observedAfter, localAt ≤ naiveUtc seen)
  others_older : ∀ o ∈ observations, o.changed → o.value ≠ d.value →
    (∀ c ∈ o.effectiveClock startedAt, localAt ≤ c) →
      ∃ c ∈ o.effectiveClock startedAt, ∃ decided ∈ d.changedAt, c < decided

theorem mem_candidates_deltas {localAt startedAt : Option Int}
    {observations : List (Observation σ α)} {d : Observation σ α} :
    d ∈ candidates localAt (deltas startedAt observations) ↔
      ∃ o ∈ observations, o.changed ∧ o.inferClock startedAt = d ∧
        d.olderThan localAt = false := by
  rw [mem_candidates, mem_deltas]
  constructor
  · rintro ⟨⟨o, ho, hc, hd⟩, hold⟩
    exact ⟨o, ho, hc, hd, hold⟩
  · rintro ⟨o, ho, hc, hd, hold⟩
    exact ⟨⟨o, ho, hc, hd⟩, hold⟩

section supersedes

variable {localValue : Option α} {localAt : Int} {startedAt : Option Int}
  {observations : List (Observation σ α)} {value : Option α}

theorem supersedesLocal_of_agreed [DecidableEq σ] (hs : ∀ started ∈ startedAt, localAt ≤ started)
    (hne : candidates (some localAt) (deltas startedAt observations) ≠ [])
    (hall : ∀ o ∈ candidates (some localAt) (deltas startedAt observations), o.value = value)
    (ho : ∃ o ∈ candidates (some localAt) (deltas startedAt observations),
      o.orderedAfter localValue (some localAt) = true) (changedAt : Option Int) :
    SupersedesLocal localValue localAt startedAt observations
      ⟨value, sources (candidates (some localAt) (deltas startedAt observations)),
        changedAt, false, false⟩ where
  notAfterStart := hs
  sources_nonempty := by
    obtain ⟨o, ho⟩ := List.exists_mem_of_ne_nil _ hne
    exact ⟨o.source, mem_sources.mpr ⟨o, ho, rfl⟩⟩
  sources_changed := by
    intro s hmem
    obtain ⟨d, hd, rfl⟩ := mem_sources.mp hmem
    have hv := hall d hd
    obtain ⟨o, ho, hc, rfl, -⟩ := mem_candidates_deltas.mp hd
    exact ⟨o, ho, hc, by simp, by simpa using hv⟩
  ordered := by
    obtain ⟨d, hd, hord⟩ := ho
    have hv := hall d hd
    have hsrc : d.source ∈ sources (candidates (some localAt) (deltas startedAt observations)) :=
      mem_sources.mpr ⟨d, hd, rfl⟩
    obtain ⟨o, ho, hc, rfl, -⟩ := mem_candidates_deltas.mp hd
    exact ⟨o, ho, hc, by simpa using hsrc, by simpa using hv,
      by simpa [Observation.effectiveClock] using orderedAfter_eq_true.mp hord⟩
  others_older := by
    intro o ho hc hv hlive
    have hd : o.inferClock startedAt ∈ candidates (some localAt) (deltas startedAt observations) :=
      mem_candidates_deltas.mpr ⟨o, ho, hc, rfl, olderThan_eq_false.mpr hlive⟩
    exact absurd (by simpa using hall _ hd) hv

/-- Several values cannot all be tied at one clock and still leave a single winner. -/
theorem localAt_lt_of_newest
    (hsev : ∀ v, values (candidates (some localAt) (deltas startedAt observations)) ≠ [v])
    (hr : ∀ o ∈ candidates (some localAt) (deltas startedAt observations), o.reliable = true)
    (hne : winners (candidates (some localAt) (deltas startedAt observations)) ≠ [])
    (hall : ∀ o ∈ winners (candidates (some localAt) (deltas startedAt observations)),
      o.value = value) {latest : Int}
    (hl : (clocks (candidates (some localAt) (deltas startedAt observations))).max? = some latest) :
    localAt < latest := by
  set cs := candidates (some localAt) (deltas startedAt observations) with hcs
  obtain ⟨hmem, hmax⟩ := List.max?_eq_some_iff.mp hl
  by_contra hle
  refine hsev value (values_eq_singleton.mpr ⟨?_, fun o ho ↦ hall o ?_⟩)
  · rintro hnil
    simp [hnil, winners] at hne
  · obtain ⟨c, hc⟩ := exists_clock_of_reliable (hr o ho)
    have hlow : localAt ≤ c := olderThan_eq_false.mp (mem_candidates.mp ho).2 c hc
    have hhigh : c ≤ latest := hmax c (mem_clocks.mpr ⟨o, ho, hc⟩)
    have heq : c = latest := by omega
    exact mem_winners.mpr ⟨ho, by rw [hc, hl, heq]⟩

theorem supersedesLocal_of_newest [DecidableEq σ] (hs : ∀ started ∈ startedAt, localAt ≤ started)
    (hsev : ∀ v, values (candidates (some localAt) (deltas startedAt observations)) ≠ [v])
    (hr : ∀ o ∈ candidates (some localAt) (deltas startedAt observations), o.reliable = true)
    (hne : winners (candidates (some localAt) (deltas startedAt observations)) ≠ [])
    (hall : ∀ o ∈ winners (candidates (some localAt) (deltas startedAt observations)),
      o.value = value) :
    SupersedesLocal localValue localAt startedAt observations
      ⟨value, sources (winners (candidates (some localAt) (deltas startedAt observations))),
        (clocks (candidates (some localAt) (deltas startedAt observations))).max?,
        false, false⟩ := by
  set cs := candidates (some localAt) (deltas startedAt observations) with hcs
  obtain ⟨w, hw⟩ := List.exists_mem_of_ne_nil _ hne
  obtain ⟨hwc, hwl⟩ := mem_winners.mp hw
  obtain ⟨latest, hclock⟩ := exists_clock_of_reliable (hr w hwc)
  have hl : (clocks cs).max? = some latest := hwl ▸ hclock
  have hlt : localAt < latest := localAt_lt_of_newest hsev hr hne hall hl
  have hws : w.source ∈ sources (winners cs) := mem_sources.mpr ⟨w, hw, rfl⟩
  have hwv : w.value = value := hall w hw
  refine ⟨hs, ⟨_, hws⟩, ?_, ?_, ?_⟩
  · intro s hmem
    obtain ⟨d, hd, rfl⟩ := mem_sources.mp hmem
    have hv := hall d hd
    obtain ⟨o, ho, hc, rfl, -⟩ := mem_candidates_deltas.mp (mem_winners.mp hd).1
    exact ⟨o, ho, hc, by simp, by simpa using hv⟩
  · obtain ⟨o, ho, hc, rfl, -⟩ := mem_candidates_deltas.mp hwc
    exact ⟨o, ho, hc, by simpa using hws, by simpa using hwv, .inl ⟨latest, hclock, hlt⟩⟩
  · intro o ho hc hv hlive
    have hd : o.inferClock startedAt ∈ cs :=
      mem_candidates_deltas.mpr ⟨o, ho, hc, rfl, olderThan_eq_false.mpr hlive⟩
    obtain ⟨c, hoc⟩ := exists_clock_of_reliable (hr _ hd)
    refine ⟨c, hoc, latest, hl, lt_of_le_of_ne ?_ ?_⟩
    · exact (List.max?_eq_some_iff.mp hl).2 c (mem_clocks.mpr ⟨_, hd, hoc⟩)
    · rintro rfl
      refine hv ?_
      simpa using hall _ (mem_winners.mpr ⟨hd, by rw [hoc, hl]⟩)

end supersedes

theorem supersedesLocal_of_ne [DecidableEq σ] {v : α} {clock : DateTime}
    {startedAt : Option Int} {observations : List (Observation σ α)}
    (h : (resolve (some v) (some clock) observations startedAt none).value ≠ some v) :
    SupersedesLocal (some v) (naiveUtc clock) startedAt observations
      (resolve (some v) (some clock) observations startedAt none) := by
  obtain ⟨-, hd⟩ | ⟨he, ho⟩ := resolve_outcome (some v) (some clock) observations startedAt
  · simp [hd, Decision.asStale] at h
  · have hs : ∀ started ∈ startedAt, naiveUtc clock ≤ started := by
      simpa using editedDuring_eq_false.mp he
    generalize hd : resolve (some v) (some clock) observations startedAt none = d at h ho
    cases ho with
    | unchanged => simp [Decision.keep] at h
    | outdated => simp [Decision.asStale] at h
    | unordered => simp [Decision.asConflict] at h
    | disagreement => simp [Decision.asConflict] at h
    | agreed value hne hall hord =>
      exact supersedesLocal_of_agreed hs hne hall (hord h (by simp)) _
    | newest value hsev hr hne hall => exact supersedesLocal_of_newest hs hsev hr hne hall

theorem value_mem_of_candidate {localAt startedAt : Option Int}
    {observations : List (Observation σ α)} {d : Observation σ α}
    (h : d ∈ candidates localAt (deltas startedAt observations)) :
    ∃ o ∈ observations, d.value = o.value := by
  obtain ⟨o, ho, -, rfl, -⟩ := mem_candidates_deltas.mp h
  exact ⟨o, ho, value_inferClock startedAt o⟩

/-- A resolution decides the local value or one that was reported. -/
theorem value_resolve [DecidableEq σ] (localValue : Option α) (localAt : Option DateTime)
    (observations : List (Observation σ α)) (startedAt : Option Int) :
    (resolve localValue localAt observations startedAt none).value = localValue ∨
      ∃ o ∈ observations,
        (resolve localValue localAt observations startedAt none).value = o.value := by
  obtain ⟨-, hd⟩ | ⟨-, ho⟩ := resolve_outcome localValue localAt observations startedAt
  · exact .inl (by rw [hd, Decision.asStale])
  · generalize resolve localValue localAt observations startedAt none = d at ho
    cases ho with
    | unchanged => exact .inl rfl
    | outdated => exact .inl rfl
    | unordered => exact .inl rfl
    | disagreement => exact .inl rfl
    | agreed value hne hall hord =>
      obtain ⟨w, hw⟩ := List.exists_mem_of_ne_nil _ hne
      obtain ⟨o, ho, hv⟩ := value_mem_of_candidate hw
      exact .inr ⟨o, ho, (hall w hw).symm.trans hv⟩
    | newest value hsev hr hne hall =>
      obtain ⟨w, hw⟩ := List.exists_mem_of_ne_nil _ hne
      obtain ⟨o, ho, hv⟩ := value_mem_of_candidate (mem_winners.mp hw).1
      exact .inr ⟨o, ho, (hall w hw).symm.trans hv⟩

theorem value_of_sources_eq_empty [DecidableEq σ] {localValue : Option α}
    {localAt : Option DateTime} {startedAt : Option Int} {observations : List (Observation σ α)}
    (h : (resolve localValue localAt observations startedAt none).sources = ∅) :
    (resolve localValue localAt observations startedAt none).value = localValue := by
  obtain ⟨-, hd⟩ | ⟨-, ho⟩ := resolve_outcome localValue localAt observations startedAt
  · simp [hd, Decision.asStale]
  · generalize resolve localValue localAt observations startedAt none = d at h ho
    cases ho with
    | unchanged => rfl
    | outdated => rfl
    | unordered => rfl
    | disagreement => rfl
    | agreed value hne =>
      obtain ⟨o, ho⟩ := List.exists_mem_of_ne_nil _ hne
      have hs : o.source ∈ (∅ : Finset σ) := h ▸ mem_sources.mpr ⟨o, ho, rfl⟩
      simp at hs
    | newest value _ _ hne =>
      obtain ⟨o, ho⟩ := List.exists_mem_of_ne_nil _ hne
      have hs : o.source ∈ (∅ : Finset σ) := h ▸ mem_sources.mpr ⟨o, ho, rfl⟩
      simp at hs

/-- A newer local edit is never discarded: a non-null local value with a clock gives
way only to the evidence of `SupersedesLocal`, and no decision without a credited
source changes any local value. -/
theorem resolve_keeps_newer_local [DecidableEq σ] (localValue : Option α)
    (localAt : Option DateTime) (startedAt : Option Int)
    (observations : List (Observation σ α)) :
    let d := resolve localValue localAt observations startedAt none
    (∀ v clock, localValue = some v → localAt = some clock →
      d.value = localValue ∨
        SupersedesLocal localValue (naiveUtc clock) startedAt observations d) ∧
    (d.sources = ∅ → d.value = localValue) := by
  refine ⟨?_, value_of_sources_eq_empty⟩
  rintro v clock rfl rfl
  by_cases h : (resolve (some v) (some clock) observations startedAt none).value = some v
  · exact .inl h
  · exact .inr (supersedesLocal_of_ne h)

/-- An undated removal, reported by a provider that had last been read after the play. -/
theorem resolve_keeps_newer_local_removal :
    let removal : Observation String Bool :=
      ⟨"connection:1", some false, none, some (some true), some (.naive 4000), false⟩
    let d := resolve (some true) (some (.naive 3000)) [removal] (some 9000) none
    d.value ≠ some true ∧ SupersedesLocal (some true) 3000 (some 9000) [removal] d := by
  intro removal d
  have h := (resolve_keeps_newer_local (some true) (some (.naive 3000)) (some 9000)
    [removal]).1 true (.naive 3000) rfl rfl
  have hne : d.value ≠ some true := by decide
  exact ⟨hne, h.resolve_left hne⟩

/-- A null local value is replaced without any clock, and an edit later than the start
by less than the stored precision is replaced as well. -/
theorem resolve_replaces_null_and_subsecond_local :
    (resolve (none : Option ℕ) none [⟨"trakt", some 8, none, none, none, false⟩]
      none none).value ≠ none ∧
    (resolve (some 6) (some (.naive 900))
      [⟨"trakt", some 8, none, some (some 6), some (.naive 700), false⟩]
      (some 500) none).value ≠ some 6 := by
  decide

end AnyList.Reconciliation.Resolve
