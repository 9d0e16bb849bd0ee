import AnyList.Reconciliation.Ratings

namespace AnyList.Reconciliation.Ratings

open AnyList.Timestamps AnyList.Reconciliation.Resolve AnyList.Reconciliation.Sources
open AnyList.Library.Members AnyList.Library.Writes

theorem resolve_eq_of_deltas {σ α : Type*} [DecidableEq σ] [DecidableEq α]
    {observations observations' : List (Observation σ α)} {startedAt : Option Int}
    (h : deltas startedAt observations = deltas startedAt observations')
    (localValue : Option α) (localAt : Option DateTime)
    (compatible : Option (List (Option α) → Option (Option α))) :
    resolve localValue localAt observations startedAt compatible =
      resolve localValue localAt observations' startedAt compatible := by
  simp only [resolve, h]

theorem resolve_of_unchanged {σ α : Type*} [DecidableEq σ] [DecidableEq α]
    {observations : List (Observation σ α)} (h : ∀ o ∈ observations, o.changed = false)
    (localValue : Option α) (localAt : Option DateTime) (startedAt : Option Int)
    (compatible : Option (List (Option α) → Option (Option α))) :
    (resolve localValue localAt observations startedAt compatible).value = localValue ∧
      (resolve localValue localAt observations startedAt compatible).sources = ∅ ∧
      (resolve localValue localAt observations startedAt compatible).conflict = false := by
  have hnone : deltas startedAt observations = [] := by
    simpa [deltas] using h
  unfold resolve
  simp only [hnone]
  split
  · exact ⟨rfl, rfl, rfl⟩
  · exact ⟨rfl, rfl, rfl⟩

theorem changed_project {localValue : Option ℚ} {o : Observation Source ℚ}
    (h : o.previous = some o.value) : (project localValue o).changed = false := by
  simp [project, Observation.changed, h]

@[simp] theorem source_project (localValue : Option ℚ) (o : Observation Source ℚ) :
    (project localValue o).source = o.source := rfl

/-- An observation that repeats its saved value weighs nothing in the decision. -/
theorem ratingDecision_filter (titles : Titles) (startedAt : Int) (key : RatingKey)
    {observations : List (Observation Source ℚ)} {p : Observation Source ℚ → Bool}
    (h : ∀ o ∈ observations, p o = false → o.previous = some o.value) :
    ratingDecision titles startedAt key observations =
      ratingDecision titles startedAt key (observations.filter p) := by
  have hdeltas : deltas (some startedAt) (observations.map (project (localScore titles key))) =
      deltas (some startedAt)
        ((observations.filter p).map (project (localScore titles key))) := by
    unfold deltas
    rw [List.filter_map, List.filter_map, List.filter_filter]
    congr 2
    refine List.filter_congr fun o ho ↦ ?_
    cases hp : p o
    · simp [changed_project (h o ho hp)]
    · simp
  simp only [ratingDecision, resolve_eq_of_deltas hdeltas]

theorem ratingDecision_of_unchanged (titles : Titles) (startedAt : Int) (key : RatingKey)
    {observations : List (Observation Source ℚ)}
    (h : ∀ o ∈ observations, o.previous = some o.value) :
    (ratingDecision titles startedAt key observations).sources = ∅ ∧
      (ratingDecision titles startedAt key observations).conflict = false := by
  have hall : ∀ o ∈ observations.map (project (localScore titles key)), o.changed = false := by
    intro o ho
    obtain ⟨o', ho', rfl⟩ := List.mem_map.mp ho
    exact changed_project (h o' ho')
  obtain ⟨hv, hs, hc⟩ := resolve_of_unchanged hall (localScore titles key)
    (localClock titles key) (some startedAt) none
  unfold ratingDecision
  simp only [hv, ne_eq, not_true_eq_false, and_false, if_false]
  exact ⟨hs, hc⟩

theorem reconcileRating_of_unchanged (a : Account) (pull : Pull) (state : Titles × Outbox)
    {key : RatingKey} {observations : List (Observation Source ℚ)}
    (h : ∀ o ∈ observations, o.previous = some o.value) :
    reconcileRating a pull state (key, observations) = state := by
  obtain ⟨titles, outbox⟩ := state
  obtain ⟨hs, hc⟩ := ratingDecision_of_unchanged titles pull.startedAt key h
  simp [reconcileRating, hs, hc]

/-- The provider's saved observation of a key, whatever the local score became. -/
def Remembers (a : Account) (provider : String) (key : RatingKey) (score : ℚ) : Prop :=
  ∃ b, a.clouds provider = some b ∧ b.ratingObservations key = some score

/-- Every cloud score of the pull was already reported by `first`. -/
def Pull.Repeats (first pull : Pull) : Prop :=
  ∀ r ∈ pull.reports, r.source.isConnection = false →
    ∃ r' ∈ first.reports, r'.source = r.source ∧ r'.key = r.key ∧ r'.score = r.score

def Pull.OneScore (pull : Pull) : Prop :=
  ∀ r ∈ pull.reports, ∀ r' ∈ pull.reports, r.source.isConnection = false →
    r.source = r'.source → r.key = r'.key → r.score = r'.score

def Step.Repeats (first : Pull) : Step → Prop
  | .cycle pull => first.Repeats pull
  | _ => True

theorem Pull.Repeats.refl (pull : Pull) : pull.Repeats pull :=
  fun r hr _ ↦ ⟨r, hr, rfl, rfl, rfl⟩

section remembering

variable {a : Account} {first pull : Pull} {provider : String} {r : Report}

theorem observedBy_repeats (hone : first.OneScore) (hrep : first.Repeats pull)
    (hr : r ∈ first.reports) (hs : r.source = .cloud provider) :
    ∀ w ∈ observedBy provider (collect a pull.reports), w.1 = r.key → w.2 = r.score := by
  intro w hw hkey
  obtain ⟨r₁, hr₁, hs₁, hk₁, hv₁⟩ := mem_observedBy.mp hw
  obtain ⟨r₂, hr₂, hs₂, hk₂, hv₂⟩ := hrep r₁ hr₁ (by simp [hs₁, Source.isConnection])
  rw [← hv₁, ← hv₂]
  exact hone r₂ hr₂ r hr (by simp [hs₂, hs₁, Source.isConnection]) (by rw [hs₂, hs₁, hs])
    (by rw [hk₂, hk₁, hkey])

theorem clouds_ratings {b : CloudBaseline} (hb : a.clouds provider = some b) (pull : Pull) :
    (ratings a pull).1.clouds provider = some
      { b with
        ratingObservations := writeAll b.ratingObservations
          (observedBy provider (collect a pull.reports)) } := by
  simp [ratings, persistObservations, hb]

/-- A saved baseline remembers the scores of a cycle. -/
theorem remembers_cycle (hone : first.OneScore) (hr : r ∈ first.reports)
    (hs : r.source = .cloud provider) (hsaved : (a.clouds provider).isSome) :
    Remembers (ratings a first).1 provider r.key r.score := by
  obtain ⟨b, hb⟩ := Option.isSome_iff_exists.mp hsaved
  refine ⟨_, clouds_ratings hb first, ?_⟩
  exact writeAll_of_agree (observedBy_repeats hone (.refl first) hr hs)
    ⟨(r.key, r.score), mem_observedBy.mpr ⟨r, hr, hs, rfl, rfl⟩, rfl⟩ _

theorem remembers_step (hone : first.OneScore) (hr : r ∈ first.reports)
    (hs : r.source = .cloud provider) (h : Remembers a provider r.key r.score) {s : Step}
    (hrep : s.Repeats first) : Remembers (step a s) provider r.key r.score := by
  obtain ⟨b, hb, hscore⟩ := h
  cases s with
  | cycle pull =>
    refine ⟨_, clouds_ratings hb pull, ?_⟩
    exact writeAll_of_repeats (observedBy_repeats hone hrep hr hs) hscore
  | edit change => exact ⟨b, hb, hscore⟩
  | recordImport p at' =>
    by_cases hp : provider = p
    · subst hp
      exact ⟨{ b with observedAt := at' }, by simp [step, recordCloudImport, hb], hscore⟩
    · exact ⟨b, by simp [step, recordCloudImport, Function.update_of_ne hp, hb], hscore⟩
  | approve approval =>
    exact ⟨{ b with approved := approval (.cloud provider) }, by simp [step, hb], hscore⟩

theorem remembers_run (hone : first.OneScore) (hr : r ∈ first.reports)
    (hs : r.source = .cloud provider) {steps : List Step} (h : Remembers a provider r.key r.score)
    (hrep : ∀ s ∈ steps, s.Repeats first) : Remembers (run a steps) provider r.key r.score := by
  induction steps generalizing a with
  | nil => exact h
  | cons s steps ih =>
    exact ih (remembers_step hone hr hs h (hrep s List.mem_cons_self))
      fun s' hs' ↦ hrep s' (List.mem_cons_of_mem _ hs')

/-- A remembered score makes its next report an unchanged observation. -/
theorem previous_of_remembers {score : ℚ} (h : Remembers a provider r.key score)
    (hs : r.source = .cloud provider) (hscore : score = r.score) :
    (collectRating a r).previous = some (collectRating a r).value := by
  obtain ⟨b, hb, hsaved⟩ := h
  simp [collectRating, hs, hb, hsaved, hscore]

theorem previous_of_connection (hs : r.source.isConnection = true)
    (hsaved : r.saved = some r.score) :
    (collectRating a r).previous = some (collectRating a r).value := by
  cases hc : r.source with
  | cloud p => simp [hc, Source.isConnection] at hs
  | connection id => simp [collectRating, hc, hsaved]

end remembering

theorem previous_of_cloud {a : Account} {first next : Pull}
    (hrem : ∀ r ∈ first.reports, ∀ p, r.source = .cloud p → Remembers a p r.key r.score)
    (hrep : first.Repeats next) {key : RatingKey} {observations : List (Observation Source ℚ)}
    (hcol : (key, observations) ∈ collect a next.reports) {o : Observation Source ℚ}
    (ho : o ∈ observations) (hcloud : o.source.isConnection = false) :
    o.previous = some o.value := by
  obtain ⟨r, hr, rfl, rfl⟩ := (mem_collect hcol).mp ho
  rw [source_collectRating] at hcloud
  obtain ⟨r', hr', hs', hk', hv'⟩ := hrep r hr hcloud
  cases hp : r.source with
  | connection id => simp [hp, Source.isConnection] at hcloud
  | cloud provider =>
    have hprev := hrem r' hr' provider (hs'.trans hp)
    rw [hk'] at hprev
    exact previous_of_remembers hprev hp hv'

/-- A cloud score that did not change is never proposed again: from the cycle that
saved it on, whatever the owner edits, it has no part in any rating decision, and a
cycle without other changes leaves ratings, reviews and deliveries alone. -/
theorem unchanged_rating_never_proposed (a : Account) (earlier between : List Step)
    (first next : Pull)
    (hsaved : ∀ r ∈ first.reports, ∀ p, r.source = .cloud p →
      ((run a earlier).clouds p).isSome)
    (hone : first.OneScore) (hbetween : ∀ s ∈ between, s.Repeats first)
    (hnext : first.Repeats next) :
    (∀ collected ∈ collect (run a (earlier ++ .cycle first :: between)) next.reports, ∀ titles,
      ratingDecision titles next.startedAt collected.1 collected.2 =
        ratingDecision titles next.startedAt collected.1
          (collected.2.filter (·.source.isConnection))) ∧
    ((∀ r ∈ next.reports, r.source.isConnection → r.saved = some r.score) →
      (ratings (run a (earlier ++ .cycle first :: between)) next).1.titles =
          (run a (earlier ++ .cycle first :: between)).titles ∧
        (ratings (run a (earlier ++ .cycle first :: between)) next).2 = []) := by
  have hrem : ∀ r ∈ first.reports, ∀ p, r.source = .cloud p →
      Remembers (run a (earlier ++ .cycle first :: between)) p r.key r.score := by
    intro r hr p hs
    have hsplit : run a (earlier ++ .cycle first :: between) =
        run (ratings (run a earlier) first).1 between := List.foldl_append
    rw [hsplit]
    exact remembers_run hone hr hs (remembers_cycle hone hr hs (hsaved r hr p hs)) hbetween
  generalize run a (earlier ++ .cycle first :: between) = s at hrem ⊢
  refine ⟨?_, fun hconn ↦ ?_⟩
  · rintro ⟨key, observations⟩ hcol titles
    exact ratingDecision_filter titles next.startedAt key fun o ho hcloud ↦
      previous_of_cloud hrem hnext hcol ho hcloud
  · have hid : ∀ collected ∈ collect s next.reports, ∀ state,
        reconcileRating s next state collected = state := by
      rintro ⟨key, observations⟩ hcol state
      refine reconcileRating_of_unchanged s next state fun o ho ↦ ?_
      cases hc : o.source.isConnection with
      | false => exact previous_of_cloud hrem hnext hcol ho hc
      | true =>
        obtain ⟨r, hr, rfl, rfl⟩ := (mem_collect hcol).mp ho
        rw [source_collectRating] at hc
        exact previous_of_connection hc (hconn r hr hc)
    have hfold := foldl_stationary fun collected hcol ↦ hid collected hcol (s.titles, [])
    simp [ratings, hfold, persistObservations]

/-- Trakt's 7 echoes the local 7.2 at first; the owner's later 8.2 stays. -/
theorem unchanged_rating_never_proposed_echo :
    let baseline : CloudBaseline := ⟨fun _ ↦ none, true, .naive 0⟩
    let a : Account := ⟨⟨fun _ ↦ none, fun _ ↦ some ⟨some (72 / 10), .naive 0⟩, []⟩,
      fun _ ↦ some baseline, fun _ ↦ false⟩
    let pull : Pull := ⟨1000, .naive 0, [⟨.cloud "trakt", (1, none), 7, none, none, none⟩]⟩
    let edit : Step := .edit fun titles ↦
      { titles with rows := fun _ ↦ some ⟨some (82 / 10), .naive 500⟩ }
    (ratings (run a [.cycle pull, edit]) pull).1.titles = (run a [.cycle pull, edit]).titles ∧
      (ratings (run a [.cycle pull, edit]) pull).2 = [] := by
  intro baseline a pull edit
  refine (unchanged_rating_never_proposed a [] [edit] pull pull ?_ ?_ ?_ ?_).2 ?_
  · exact fun r hr p hp ↦ rfl
  · simp [Pull.OneScore, pull]
  · simp [Step.Repeats, edit]
  · exact .refl pull
  · simp [pull, Source.isConnection]

end AnyList.Reconciliation.Ratings
