import AnyList.Reconciliation.Ratings

namespace AnyList.Reconciliation.Ratings

open AnyList.Timestamps AnyList.Reconciliation.Resolve AnyList.Reconciliation.Sources
open AnyList.Library.Members

inductive Outcome
  | applied
  | skipped
  | conflict
  deriving DecidableEq

/-- A provider's own card about a score it reports, outside the combined cycle. -/
structure CloudReview where
  provider : String
  mediaId : ℕ
  seasonNumber : Option ℕ
  pending : Bool
  previousScore : Option ℚ
  proposedScore : ℚ
  message : String
  deriving DecidableEq

structure CloudState where
  titles : Titles
  reviews : List CloudReview

def providerLabel (provider : String) : String :=
  if provider = "trakt" then "Trakt"
  else if provider = "simkl" then "Simkl"
  else if provider = "mdblist" then "MDBList"
  else provider

def ratingScope : Option ℕ → String
  | none => "title"
  | some season => s!"season {season}"

def raiseCloudConflict (reviews : List CloudReview) (provider : String) (key : RatingKey)
    (localValue : Option ℚ) (remote : ℚ) : List CloudReview :=
  let isPending (review : CloudReview) := decide (review.provider = provider ∧
    review.mediaId = key.1 ∧ review.seasonNumber = key.2) && review.pending
  if reviews.any isPending then
    reviews.map fun review ↦
      if isPending review then
        { review with
          proposedScore := remote
          message := providerLabel provider ++ ": the imported " ++ ratingScope key.2 ++
            " rating still differs from your local rating. Your local value was kept." }
      else review
  else
    reviews ++ [⟨provider, key.1, key.2, true, localValue, remote,
      providerLabel provider ++ ": the imported " ++ ratingScope key.2 ++
        " rating differs from your local rating, and their order cannot be established " ++
        "reliably. Your local value was kept."⟩]

def newerThan (left right : Option DateTime) : Bool :=
  left.any fun l ↦ right.any fun r ↦ r.instant < l.instant

/-- A whole-show score that is calculated from its seasons. -/
def calculatedShow (titles : Titles) (key : RatingKey) : Bool :=
  (titles.entries key.1).any (·.ratingMode == .average) && decide (key.2 = none)

/-- One score that a provider reports outside the combined cycle. -/
def reconcileCloudRating (s : CloudState) (provider : String) (now : Int) (writtenAt : DateTime)
    (key : RatingKey) (remote : ℚ) (remoteRatedAt : Option DateTime) :
    Except String (CloudState × Outcome × Outbox) :=
  if ¬(0 < remote ∧ remote ≤ 10) then .error "Rating must be between 0.5 and 10"
  else
    let titles := s.titles
    let localValue := localScore titles key
    let localRatedAt := localClock titles key
    let aligned (row : RatingRow) : RatingRow := { row with rating := localValue }
    if localValue = some remote ∨ isProjectedEcho localValue (some remote) then
      let rows := Function.update titles.rows key ((titles.rows key).map aligned)
      .ok ({ s with titles := { titles with rows := rows } }, .skipped, [])
    else if localValue ≠ none ∧
        (calculatedShow titles key ∨ ¬newerThan remoteRatedAt localRatedAt) then
      let added : RatingRow :=
        ⟨localValue, .naive ((localRatedAt.map DateTime.instant).getD now)⟩
      let row := ((titles.rows key).map aligned).getD added
      let titles := { titles with rows := Function.update titles.rows key (some row) }
      if newerThan localRatedAt remoteRatedAt then .ok ({ s with titles := titles }, .skipped, [])
      else
        .ok (⟨titles, raiseCloudConflict s.reviews provider key localValue remote⟩, .conflict, [])
    else
      let entry := (titles.entries key.1).map fun entry ↦
        { setEntryScore entry key.2 (some remote) with updatedAt := writtenAt }
      let row : RatingRow :=
        ⟨some remote, .naive ((remoteRatedAt.map DateTime.instant).getD now)⟩
      let titles :=
        { titles with
          entries := Function.update titles.entries key.1 entry
          rows := Function.update titles.rows key (some row) }
      .ok ({ s with titles := titles }, .applied, [(key, some remote, ∅)])

section score

variable {titles : Titles} {key : RatingKey} {score : ℚ}

theorem lookup_map_season (scores : List (ℕ × Option ℚ)) (season : ℕ) (value : Option ℚ)
    (h : (scores.lookup season).isSome) :
    (scores.map fun s ↦ if s.1 = season then (season, value) else s).lookup season =
      some value := by
  induction scores with
  | nil => simp at h
  | cons s scores ih =>
    obtain ⟨number, score⟩ := s
    by_cases hs : number = season
    · simp [hs]
    · have hne : (season == number) = false := by simpa using Ne.symm hs
      rw [List.lookup_cons, hne] at h
      rw [List.map_cons, if_neg hs, List.lookup_cons, hne]
      exact ih h

theorem lookup_setEntryScore (entry : Entry) (season : ℕ) (value : Option ℚ) :
    (setEntryScore entry (some season) value).seasonScores.lookup season = some value := by
  simp only [setEntryScore]
  split
  · rename_i h
    exact lookup_map_season entry.seasonScores season value h
  · rename_i h
    have hnone : entry.seasonScores.lookup season = none := Option.not_isSome_iff_eq_none.mp h
    simp [List.lookup_append, hnone]

/-- A score written to a title's entry and row is the title's score from then on. -/
theorem localScore_written (entry : Option Entry) (writtenAt : DateTime) {row : RatingRow}
    (hentry : titles.entries key.1 = entry.map fun entry ↦
      { setEntryScore entry key.2 (some score) with updatedAt := writtenAt })
    (hrow : titles.rows key = some row) (hscore : row.rating = some score) :
    localScore titles key = some score := by
  unfold localScore
  rw [hentry, hrow]
  cases entry with
  | none => simpa using hscore
  | some entry =>
    cases hseason : key.2 with
    | none =>
      by_cases hpos : 0 < score <;>
        simp [entryScore, setEntryScore, effectiveScore, Option.filter, hpos, hscore]
    | some season =>
      have hlookup := lookup_setEntryScore entry season (some score)
      simp [entryScore, hlookup]

end score

/-- A score that is neither the exact local one nor what AnyList would have sent for it. -/
def Differs (localValue remote : ℚ) : Prop :=
  remote ≠ localValue ∧ remote ≠ integerProviderScore localValue

/-- A card of the key shows the score that the source reported. -/
def Shown (reviews : List (Review ℚ)) (key : RatingKey) (source : Source) (score : ℚ) : Prop :=
  ∃ review ∈ reviews, review.isPending key.1 key.2 .rating ∧
    ∃ o ∈ review.observations, o.1 = source ∧ o.2.1 = some score

theorem shown_raiseReview {reviews : List (Review ℚ)} {key : RatingKey} {current : Option ℚ}
    {observations : List (Observation Source ℚ)} {o : Observation Source ℚ} {score : ℚ}
    (ho : o ∈ observations) (hvalue : o.value = some score) :
    Shown (raiseReview reviews key.1 key.2 .rating current observations) key o.source score := by
  have hpayload : (o.source, o.value, o.changedAt) ∈
      observations.map fun o ↦ (o.source, o.value, o.changedAt) := List.mem_map_of_mem ho
  unfold raiseReview
  dsimp only
  split
  · rename_i hany
    obtain ⟨review, hmem, hpending⟩ := List.any_eq_true.mp hany
    refine ⟨_, List.mem_map_of_mem hmem, ?_, ?_⟩
    · rw [if_pos hpending]
      simpa [Review.isPending] using hpending
    · rw [if_pos hpending]
      exact ⟨_, hpayload, rfl, hvalue⟩
  · refine ⟨_, List.mem_append_right _ (List.mem_singleton_self _), ?_, _, hpayload, rfl, hvalue⟩
    simp [Review.isPending]

section cycle

variable {a : Account} {pull : Pull} {titles : Titles} {outbox : Outbox} {r : Report}
variable {localValue : ℚ} {localAt ratedAt : DateTime}

theorem project_of_not_echo (h : isProjectedEcho (some localValue) (some r.score) = false) :
    project (some localValue) (collectRating a r) = collectRating a r := by
  have hinferred : (collectRating a r).inferred = false := by
    unfold collectRating
    cases r.source <;> rfl
  cases ho : collectRating a r with
  | mk source value changedAt previous observedAfter inferred =>
    have hvalue : value = some r.score := by
      rw [← value_collectRating a r, ho]
    rw [ho] at hinferred
    by_cases hp : previous = some value <;> simp_all [project]

/-- A newer score of one source alone is the cycle's decision, or a conflict. -/
theorem resolve_newer (localValue : ℚ) {o : Observation Source ℚ} {clock : DateTime} {started : Int}
    (hchanged : o.changed) (hclock : o.changedAt = some clock)
    (hnewer : naiveUtc localAt ≤ naiveUtc clock) (hedit : naiveUtc localAt ≤ started) :
    resolve (some localValue) (some localAt) [o] (some started) none =
        ⟨o.value, {o.source}, some (naiveUtc clock), false, false⟩ ∨
      resolve (some localValue) (some localAt) [o] (some started) none =
        .asConflict (some localValue) := by
  have hinfer : o.inferClock (some started) = o := by simp [Observation.inferClock, hclock]
  have hdeltas : deltas (some started) [o] = [o] := by simp [deltas, hchanged, hinfer]
  have hcandidates : candidates (some (naiveUtc localAt)) [o] = [o] := by
    simp [candidates, Observation.olderThan, Observation.clock, hclock, hnewer]
  have hvalues : values [o] = [o.value] := values_eq_singleton.mpr ⟨by simp, by simp⟩
  have hedited : editedDuring (some started) (some (naiveUtc localAt)) = false := by
    simp [editedDuring, hedit]
  simp only [resolve, Option.map_some, hedited, hdeltas, hcandidates]
  rw [if_neg (by simp), if_neg (by simp), if_neg (by simp), settle_eq_singleton hvalues]
  split
  · exact .inr rfl
  · refine .inl ?_
    simp [sources, clocks, Observation.clock, hclock]

/-- A newer score that is no echo replaces the local one in the account cycle, or is shown. -/
theorem cycle_keeps_newer (hlocal : localScore titles r.key = some localValue)
    (hclock : localClock titles r.key = some localAt) (hrated : r.ratedAt = some ratedAt)
    (hnewer : localAt.instant < ratedAt.instant) (hedit : naiveUtc localAt ≤ pull.startedAt)
    (hnew : (collectRating a r).previous ≠ some (some r.score))
    (haverage : calculatedShow titles r.key = false) (hne : r.score ≠ localValue)
    (hecho : isProjectedEcho (some localValue) (some r.score) = false) :
    let after := (reconcileRating a pull (titles, outbox) (r.key, [collectRating a r])).1
    localScore after r.key = some r.score ∨ Shown after.reviews r.key r.source r.score := by
  intro after
  have hproject := project_of_not_echo (a := a) hecho
  have hchangedAt : (collectRating a r).changedAt = some (.naive (naiveUtc ratedAt)) := by
    unfold collectRating
    cases r.source <;> simp [hrated]
  have hchanged : (collectRating a r).changed := by
    unfold Observation.changed
    cases hp : (collectRating a r).previous with
    | none => rfl
    | some previous =>
      rw [hp] at hnew
      simpa using fun heq ↦ hnew (congrArg some heq.symm)
  have hms : naiveUtc localAt ≤ naiveUtc (.naive (naiveUtc ratedAt)) := by
    rw [naiveUtc_stored]
    exact milliseconds_mono hnewer.le
  have hkeep : ¬((titles.entries r.key.1).any (·.ratingMode == .average) ∧ r.key.2 = none) := by
    rintro ⟨hmode, hseason⟩
    simp [calculatedShow, hmode, hseason] at haverage
  have hdecision : ratingDecision titles pull.startedAt r.key [collectRating a r] =
      resolve (some localValue) (some localAt)
        [collectRating a r] (some pull.startedAt) none := by
    simp only [ratingDecision, hlocal, hclock, List.map_cons, List.map_nil, hproject]
    exact if_neg fun h ↦ hkeep ⟨h.1, h.2.1⟩
  obtain hresolve | hresolve := resolve_newer localValue hchanged hchangedAt
    hms hedit
  · left
    have hafter : after = (acceptRating a pull titles r.key
        ⟨some r.score, {r.source}, some (naiveUtc (.naive (naiveUtc ratedAt))), false, false⟩).1 := by
      simp [after, reconcileRating, hdecision, hresolve, hlocal, hne]
    rw [hafter]
    exact localScore_written (titles.entries r.key.1) pull.writtenAt (Function.update_self ..)
      (Function.update_self ..) rfl
  · right
    have hafter : after.reviews = raiseReview titles.reviews r.key.1 r.key.2 .rating
        (some localValue) [collectRating a r] := by
      simp [after, reconcileRating, hdecision, hresolve, hlocal, hproject, Decision.asConflict]
    rw [hafter, ← source_collectRating a r]
    exact shown_raiseReview (List.mem_singleton_self _) (value_collectRating a r)

end cycle

section direct

variable {s : CloudState} {key : RatingKey} {remote localValue : ℚ}
variable {remoteRatedAt : Option DateTime}

theorem reconcileCloudRating_of_echo (remoteRatedAt : Option DateTime) (provider : String) (now : Int) (writtenAt : DateTime)
    (hrange : 0 < remote ∧ remote ≤ 10) (hlocal : localScore s.titles key = some localValue)
    (hecho : isProjectedEcho (some localValue) (some remote)) :
    ∃ after, reconcileCloudRating s provider now writtenAt key remote remoteRatedAt =
      .ok (after, .skipped, []) := by
  unfold reconcileCloudRating
  rw [if_neg (not_not.mpr hrange)]
  simp only [hlocal, hecho, or_true, if_true]
  exact ⟨_, rfl⟩

/-- A newer score that is no echo replaces the local one. -/
theorem direct_keeps_newer (provider : String) (now : Int) (writtenAt : DateTime)
    (hrange : 0 < remote ∧ remote ≤ 10) (hlocal : localScore s.titles key = some localValue)
    (hnewer : newerThan remoteRatedAt (localClock s.titles key))
    (haverage : calculatedShow s.titles key = false) (hne : remote ≠ localValue)
    (hecho : isProjectedEcho (some localValue) (some remote) = false) :
    ∃ after changed, reconcileCloudRating s provider now writtenAt key remote remoteRatedAt =
      .ok (after, .applied, changed) ∧ localScore after.titles key = some remote := by
  unfold reconcileCloudRating
  rw [if_neg (not_not.mpr hrange)]
  simp only [hlocal, hecho, haverage, hnewer, Option.some.injEq, Ne.symm hne, not_true_eq_false,
    or_self, and_false, if_false, Bool.false_eq_true]
  exact ⟨_, _, rfl, localScore_written (s.titles.entries key.1) writtenAt
    (Function.update_self ..) (Function.update_self ..) rfl⟩

end direct

/-- The owner's score and the strictly newer one that a provider reports for it, on a title
that is not an average and was not edited after the cycle began. -/
structure NewerReport (a : Account) (pull : Pull) (titles : Titles) (r : Report)
    (localValue : ℚ) : Prop where
  localValue : localScore titles r.key = some localValue
  newer : newerThan r.ratedAt (localClock titles r.key)
  notAverage : calculatedShow titles r.key = false
  range : 0 < r.score ∧ r.score ≤ 10
  notEdited : ∀ clock ∈ localClock titles r.key, naiveUtc clock ≤ pull.startedAt
  notObserved : (collectRating a r).previous ≠ some (some r.score)

/-- Only a true echo counts as one, and a newer score is applied or shown on both paths. -/
structure NewerRatingKept (a : Account) (pull : Pull) (titles : Titles) (outbox : Outbox)
    (reviews : List CloudReview) (provider : String) (r : Report) (localValue : ℚ) : Prop where
  echo : Differs localValue r.score → isProjectedEcho (some localValue) (some r.score) = false
  direct : Differs localValue r.score →
    ∃ after outcome changed, reconcileCloudRating ⟨titles, reviews⟩ provider pull.startedAt
        pull.writtenAt r.key r.score r.ratedAt = .ok (after, outcome, changed) ∧
      (outcome = .applied ∧ localScore after.titles r.key = some r.score ∨ outcome = .conflict)
  cycle : Differs localValue r.score →
    let after := (reconcileRating a pull (titles, outbox) (r.key, [collectRating a r])).1
    localScore after r.key = some r.score ∨ Shown after.reviews r.key r.source r.score

/-- A newer score is kept on both paths exactly when it does not merely start with the whole
number that AnyList would have sent. -/
theorem newer_rating_kept_iff (a : Account) (pull : Pull) (titles : Titles) (outbox : Outbox)
    (reviews : List CloudReview) (provider : String) (r : Report) (localValue : ℚ)
    (h : NewerReport a pull titles r localValue) :
    NewerRatingKept a pull titles outbox reviews provider r localValue ↔
      (truncate r.score = integerProviderScore localValue →
        r.score = localValue ∨ r.score = integerProviderScore localValue) := by
  have hiff : isProjectedEcho (some localValue) (some r.score) = true ↔
      truncate r.score = integerProviderScore localValue := by
    simp [isProjectedEcho, eq_comm]
  constructor
  · intro hkept hecho
    by_contra hdiffers
    obtain ⟨after, outcome, changed, heq, hout⟩ := hkept.direct (not_or.mp hdiffers)
    obtain ⟨after', hskipped⟩ := reconcileCloudRating_of_echo (s := ⟨titles, reviews⟩)
      r.ratedAt provider pull.startedAt pull.writtenAt h.range h.localValue
      (hiff.mpr hecho)
    rw [hskipped] at heq
    obtain ⟨-, rfl, -⟩ : after' = after ∧ Outcome.skipped = outcome ∧ [] = changed := by
      simpa using heq
    simp at hout
  · intro htrue
    have hecho : Differs localValue r.score →
        isProjectedEcho (some localValue) (some r.score) = false := by
      intro hdiffers
      refine Bool.eq_false_iff.mpr fun hecho ↦ ?_
      exact (htrue (hiff.mp hecho)).elim hdiffers.1 hdiffers.2
    refine ⟨hecho, fun hdiffers ↦ ?_, fun hdiffers ↦ ?_⟩
    · obtain ⟨after, changed, heq, hscore⟩ := direct_keeps_newer (s := ⟨titles, reviews⟩) provider
        pull.startedAt pull.writtenAt h.range h.localValue h.newer h.notAverage hdiffers.1
        (hecho hdiffers)
      exact ⟨after, _, changed, heq, .inl ⟨rfl, hscore⟩⟩
    · have hnewer := h.newer
      cases hrated : r.ratedAt with
      | none => simp [newerThan, hrated] at hnewer
      | some ratedAt =>
        cases hclock : localClock titles r.key with
        | none => simp [newerThan, hclock] at hnewer
        | some localAt =>
          simp only [newerThan, hrated, hclock, Option.any_some, decide_eq_true_eq] at hnewer
          exact cycle_keeps_newer h.localValue hclock hrated hnewer (h.notEdited localAt hclock)
            h.notObserved h.notAverage hdiffers.1 (hecho hdiffers)

def filmEntry : Entry := ⟨.manual, some 8, [], .naive 0⟩

def filmTitles : Titles where
  entries := fun id ↦ if id = 1 then some filmEntry else none
  rows := fun key ↦ if key = (1, none) then some ⟨some 8, .naive 0⟩ else none
  reviews := []

def filmAccount : Account := ⟨filmTitles, fun _ ↦ none, fun _ ↦ false⟩

/-- A newer score of MDBList for a film that the owner has rated 8. -/
def filmScore (score : ℚ) : Report :=
  ⟨.cloud "mdblist", (1, none), score, some (.naive 5000000), none, none⟩

def filmPull (score : ℚ) : Pull := ⟨9000000, .naive 9000000, [filmScore score]⟩

theorem newerReport_film (score : ℚ) (h : 0 < score ∧ score ≤ 10) :
    NewerReport filmAccount (filmPull score) filmTitles (filmScore score) 8 where
  localValue := (by decide +kernel : localScore filmTitles (1, none) = some 8)
  newer :=
    (by decide +kernel : newerThan (some (.naive 5000000)) (localClock filmTitles (1, none)) = true)
  notAverage := (by decide +kernel : calculatedShow filmTitles (1, none) = false)
  range := h
  notEdited :=
    (by decide +kernel : ∀ clock ∈ localClock filmTitles (1, none), naiveUtc clock ≤ 9000000)
  notObserved := by simp [collectRating, filmScore, filmAccount]

theorem newer_rating_kept_film :
    NewerRatingKept filmAccount (filmPull 9) filmTitles [] [] "mdblist" (filmScore 9) 8 :=
  (newer_rating_kept_iff filmAccount (filmPull 9) filmTitles [] [] "mdblist" (filmScore 9) 8
    (newerReport_film 9 (by norm_num))).mpr (by decide +kernel)

/-- A newer 8.5 is taken for the echo of an 8, and neither path applies or shows it. -/
theorem half_point_swallowed :
    ¬NewerRatingKept filmAccount (filmPull (17 / 2)) filmTitles [] [] "mdblist"
        (filmScore (17 / 2)) 8 ∧
      Differs 8 (17 / 2) ∧ isProjectedEcho (some 8) (some (17 / 2)) = true ∧
      (reconcileRating filmAccount (filmPull (17 / 2)) (filmTitles, [])
        ((1, none), [collectRating filmAccount (filmScore (17 / 2))])).1.reviews = [] := by
  have hecho : isProjectedEcho (some 8) (some (17 / 2)) = true := by decide +kernel
  have hdiffers : Differs 8 (17 / 2) := by
    unfold Differs
    decide +kernel
  refine ⟨fun h ↦ ?_, hdiffers, hecho, by decide +kernel⟩
  have hnot : isProjectedEcho (some 8) (some (17 / 2)) = false := h.echo hdiffers
  rw [hecho] at hnot
  exact Bool.noConfusion hnot

end AnyList.Reconciliation.Ratings
