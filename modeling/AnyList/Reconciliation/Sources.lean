import AnyList.Reconciliation.Resolve
import Mathlib.Data.List.Sort

namespace AnyList.Reconciliation.Sources

open AnyList.Timestamps AnyList.Reconciliation.Resolve

/-- A cloud tracker, named by its provider, or one media-server connection. -/
inductive Source
  | cloud (provider : String)
  | connection (id : ℕ)
  deriving DecidableEq

def sourceKey : Source → String
  | .cloud provider => provider
  | .connection id => s!"connection:{id}"

def Source.isConnection : Source → Bool
  | .cloud _ => false
  | .connection _ => true

variable {α : Type*}

def sortBySource (observations : List (Observation Source α)) : List (Observation Source α) :=
  observations.insertionSort fun o o' ↦ sourceKey o.source ≤ sourceKey o'.source

@[simp] theorem mem_sortBySource {observations : List (Observation Source α)}
    {o : Observation Source α} : o ∈ sortBySource observations ↔ o ∈ observations := by
  simp [sortBySource]

inductive Category
  | rating
  | library
  | watchedState
  | progress
  | playback
  deriving DecidableEq

def Category.label : Category → String
  | .rating => "rating"
  | .library => "library"
  | .watchedState => "watched state"
  | .progress => "progress"
  | .playback => "playback"

def Category.kind : Category → String
  | .rating => "rating_conflict"
  | .library => "library_conflict"
  | .watchedState => "watch_conflict"
  | .progress => "progress_conflict"
  | .playback => "conflict"

inductive ReviewState
  | pending
  | dismissed
  | settled
  deriving DecidableEq

/-- A review card of the combined provider, with the payload it carries. -/
structure Review (α : Type*) where
  mediaId : ℕ
  seasonNumber : Option ℕ
  category : Category
  state : ReviewState
  message : String
  current : Option α
  observations : List (Source × Option α × Option DateTime)
  deriving DecidableEq

def Review.isPending (mediaId : ℕ) (seasonNumber : Option ℕ) (category : Category)
    (review : Review α) : Bool :=
  decide (review.mediaId = mediaId ∧ review.seasonNumber = seasonNumber ∧
    review.category.kind = category.kind ∧ review.state = .pending)

/-- The pending card of the category is reused, else a new one is added. -/
def raiseReview (reviews : List (Review α)) (mediaId : ℕ) (seasonNumber : Option ℕ)
    (category : Category) (current : Option α) (observations : List (Observation Source α)) :
    List (Review α) :=
  let payload := observations.map fun o ↦ (o.source, o.value, o.changedAt)
  if reviews.any (Review.isPending mediaId seasonNumber category) then
    reviews.map fun review ↦
      if review.isPending mediaId seasonNumber category then
        { review with current := current, observations := payload }
      else review
  else
    reviews ++ [⟨mediaId, seasonNumber, category, .pending,
      s!"Connected providers disagree about {category.label}; the current value was preserved.",
      current, payload⟩]

def retireReview (reviews : List (Review α)) (mediaId : ℕ) (seasonNumber : Option ℕ)
    (category : Category) : List (Review α) :=
  reviews.map fun review ↦
    if review.isPending mediaId seasonNumber category then { review with state := .dismissed }
    else review

end AnyList.Reconciliation.Sources
