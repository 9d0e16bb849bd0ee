import AnyList.Reconciliation.RatingEchoes

namespace AnyList.Reconciliation.Ratings

open AnyList.Timestamps

/-- The provider reports the local score, or what it was sent for it. -/
def Acknowledges (localValue : Option ℚ) (remote : ℚ) : Prop :=
  localValue = some remote ∨ isProjectedEcho localValue (some remote)

/-- There is no local score, or a strictly newer remote one differs from a score that is no
average. -/
def Replaces (titles : Titles) (key : RatingKey) (remote : ℚ) (remoteRatedAt : Option DateTime) :
    Prop :=
  localScore titles key = none ∨ calculatedShow titles key = false ∧
    newerThan remoteRatedAt (localClock titles key) ∧
      ¬Acknowledges (localScore titles key) remote

def CloudReview.IsFor (review : CloudReview) (provider : String) (key : RatingKey) : Prop :=
  review.provider = provider ∧ review.mediaId = key.1 ∧ review.seasonNumber = key.2 ∧
    review.pending

/-- What one reported score does to the entry, the rating row and the reviews of a title. -/
structure FollowsPolicy (s after : CloudState) (provider : String) (key : RatingKey) (remote : ℚ)
    (remoteRatedAt : Option DateTime) (outcome : Outcome) : Prop where
  applied : outcome = .applied ↔ Replaces s.titles key remote remoteRatedAt
  replaced : outcome = .applied → localScore after.titles key = some remote ∧
    (after.titles.rows key).bind RatingRow.rating = some remote
  kept : outcome ≠ .applied → after.titles.entries = s.titles.entries ∧
    localScore after.titles key = localScore s.titles key
  aligned : outcome ≠ .applied →
    (∀ row, after.titles.rows key = some row → row.rating = localScore s.titles key) ∧
      ((s.titles.rows key).isSome → (after.titles.rows key).isSome)
  conflict : outcome = .conflict ↔ ¬Replaces s.titles key remote remoteRatedAt ∧
    ¬Acknowledges (localScore s.titles key) remote ∧
      newerThan (localClock s.titles key) remoteRatedAt = false
  recorded : outcome = .conflict →
    ∃ review ∈ after.reviews, review.IsFor provider key ∧ review.proposedScore = remote
  silent : outcome ≠ .conflict → after.reviews = s.reviews
  others : (∀ other, other ≠ key → after.titles.rows other = s.titles.rows other) ∧
    ∀ mediaId, mediaId ≠ key.1 → after.titles.entries mediaId = s.titles.entries mediaId

section score

variable {titles titles' : Titles} {key : RatingKey}

/-- A score is kept where the entries are and the row has it. -/
theorem localScore_of_aligned (hentries : titles'.entries = titles.entries)
    (hrow : ∀ row, titles'.rows key = some row → row.rating = localScore titles key)
    (hsome : (titles.rows key).isSome → (titles'.rows key).isSome) :
    localScore titles' key = localScore titles key := by
  unfold localScore
  rw [hentries]
  cases hentry : (titles.entries key.1).bind (entryScore · key.2) with
  | some score => rfl
  | none =>
    dsimp only
    cases hnew : titles'.rows key with
    | some row =>
      have hrating := hrow row hnew
      rw [localScore, hentry] at hrating
      exact hrating
    | none =>
      have hold : titles.rows key = none := by
        cases hold : titles.rows key with
        | none => rfl
        | some row =>
          have hin := hsome (by rw [hold]; rfl)
          rw [hnew] at hin
          cases hin
      rw [hold]

end score

section reviews

variable {reviews : List CloudReview} {provider : String} {key : RatingKey}

theorem exists_raiseCloudConflict (localValue : Option ℚ) (remote : ℚ) :
    ∃ review ∈ raiseCloudConflict reviews provider key localValue remote,
      review.IsFor provider key ∧ review.proposedScore = remote := by
  rw [raiseCloudConflict]
  dsimp only
  split_ifs with hany
  · obtain ⟨review, hmem, hpending⟩ := List.any_eq_true.mp hany
    refine ⟨_, List.mem_map_of_mem hmem, ?_, ?_⟩
    · rw [if_pos hpending]
      simpa [CloudReview.IsFor, and_assoc] using hpending
    · rw [if_pos hpending]
  · exact ⟨_, List.mem_append_right _ (List.mem_singleton_self _), ⟨rfl, rfl, rfl, rfl⟩, rfl⟩

end reviews

section branches

variable {s after : CloudState} {provider : String} {key : RatingKey} {remote : ℚ}
  {remoteRatedAt : Option DateTime} {outcome : Outcome}

theorem not_replaces_of_acknowledges (h : Acknowledges (localScore s.titles key) remote) :
    ¬Replaces s.titles key remote remoteRatedAt := by
  rintro (hnone | ⟨-, -, hnot⟩)
  · rw [hnone] at h
    obtain h | h := h
    · cases h
    · cases h
  · exact hnot h

theorem not_replaces_of_kept (h : localScore s.titles key ≠ none ∧ (calculatedShow s.titles key ∨
    ¬newerThan remoteRatedAt (localClock s.titles key))) :
    ¬Replaces s.titles key remote remoteRatedAt := by
  rintro (hnone | ⟨haverage, hnewer, -⟩)
  · exact h.1 hnone
  · obtain haverage' | hnot := h.2
    · cases haverage.symm.trans haverage'
    · exact hnot hnewer

/-- The entry stays, and the row of the key follows the local score. -/
theorem FollowsPolicy.of_kept (hout : outcome ≠ .applied)
    (hnot : ¬Replaces s.titles key remote remoteRatedAt)
    (hentries : after.titles.entries = s.titles.entries)
    (hrow : ∀ row, after.titles.rows key = some row → row.rating = localScore s.titles key)
    (hsome : (s.titles.rows key).isSome → (after.titles.rows key).isSome)
    (hothers : ∀ other, other ≠ key → after.titles.rows other = s.titles.rows other)
    (hconflict : outcome = .conflict ↔ ¬Acknowledges (localScore s.titles key) remote ∧
      newerThan (localClock s.titles key) remoteRatedAt = false)
    (hrecorded : outcome = .conflict →
      ∃ review ∈ after.reviews, review.IsFor provider key ∧ review.proposedScore = remote)
    (hsilent : outcome ≠ .conflict → after.reviews = s.reviews) :
    FollowsPolicy s after provider key remote remoteRatedAt outcome where
  applied := iff_of_false hout hnot
  replaced h := absurd h hout
  kept _ := ⟨hentries, localScore_of_aligned hentries hrow hsome⟩
  aligned _ := ⟨hrow, hsome⟩
  conflict := hconflict.trans (and_iff_right hnot).symm
  recorded := hrecorded
  silent := hsilent
  others := ⟨hothers, fun _ _ ↦ by rw [hentries]⟩

end branches

def halfPointTitles : Titles where
  entries := fun id ↦ if id = 1 then some ⟨.manual, some (15 / 2), [], .naive 0⟩ else none
  rows := fun _ ↦ none
  reviews := []

end AnyList.Reconciliation.Ratings
