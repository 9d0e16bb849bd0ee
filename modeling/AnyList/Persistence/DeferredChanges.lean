import AnyList.Library.Runs
import AnyList.Persistence.PullCycleState

namespace AnyList.Persistence

open AnyList.Library AnyList.Library.Runs
open AnyList.Timestamps (DateTime)

namespace PySet

variable {α : Type} [DecidableEq α]

def add (s : PySet α) (a : α) : PySet α :=
  if h : a ∈ s.items then s else ⟨s.items ++ [a], by
    rw [List.nodup_append]
    exact ⟨s.nodup, List.nodup_singleton a, fun b hb c hc hbc ↦
      h (List.mem_singleton.mp hc ▸ hbc ▸ hb)⟩⟩

def update (s : PySet α) (members : List α) : PySet α := members.foldl add s

def filter (s : PySet α) (p : α → Bool) : PySet α := ⟨s.items.filter p, s.nodup.filter p⟩

theorem mem_add {s : PySet α} {a b : α} : b ∈ (s.add a).items ↔ b ∈ s.items ∨ b = a := by
  unfold add
  split
  · next h => exact ⟨.inl, fun hb ↦ hb.elim id fun hb ↦ hb ▸ h⟩
  · simp

@[simp] theorem mem_update {s : PySet α} {members : List α} {b : α} :
    b ∈ (s.update members).items ↔ b ∈ s.items ∨ b ∈ members := by
  induction members generalizing s with
  | nil => simp [update]
  | cons a members ih =>
    rw [update, List.foldl_cons, ← update, ih, mem_add, List.mem_cons, or_assoc]

end PySet

namespace PullCycleState

def fresh (userId : Int) : PullCycleState where
  userId := userId
  newWatchedIds := .empty
  newRatings := .empty
  ratingSources := .empty
  libraryDesired := .empty
  removedRatings := .empty
  newCollectedIds := .empty
  removedCollectedIds := .empty
  excludedConnectionIds := .empty
  excludedCloudSources := .empty
  libraryNewIds := .empty
  libraryRemovedIds := .empty
  librarySourceIds := .empty
  librarySourceIdsByMedia := .empty
  libraryApiKey := none
  libraryObservedAtByMedia := .empty
  watchedExclusions := .empty
  removedWatchExclusions := .empty
  pushBack := .empty
  connectionVersions := .empty

/-- What a pull hands to the fan-out of an active cycle. -/
structure FanOutCall where
  excludeConnectionId : Option Int
  excludeCloudSource : Option CollectionSource
  newWatchedIds : PySet Int
  newRatings : Dict RatingKey ℚ
  removedRatings : PySet RatingKey
  newCollectedIds : PySet Int
  removedCollectedIds : PySet Int

structure LibraryCall where
  sourceConnectionId : Int
  newCollectedIds : PySet Int
  removedCollectedIds : PySet Int
  apiKey : Option String
  sourceObservedAt : Option DateTime

def addExclusions (call : FanOutCall) (exclusions : PySet Int × PySet CollectionSource) :
    PySet Int × PySet CollectionSource :=
  (exclusions.1.update call.excludeConnectionId.toList,
    exclusions.2.update call.excludeCloudSource.toList)

def deferFanOut (state : PullCycleState) (call : FanOutCall) : PullCycleState :=
  { state with
    newWatchedIds := state.newWatchedIds.update call.newWatchedIds.items
    watchedExclusions := call.newWatchedIds.items.foldl
      (fun exclusions mediaId ↦
        exclusions.upsert mediaId (.empty, .empty) (addExclusions call))
      state.watchedExclusions
    newRatings := state.newRatings.setAll call.newRatings.entries
    removedRatings := state.removedRatings.update call.removedRatings.items
    newCollectedIds := state.newCollectedIds.update call.newCollectedIds.items
    removedCollectedIds := state.removedCollectedIds.update call.removedCollectedIds.items
    excludedConnectionIds := state.excludedConnectionIds.update call.excludeConnectionId.toList
    excludedCloudSources := state.excludedCloudSources.update call.excludeCloudSource.toList }

def deferWatchRemovals (state : PullCycleState) (mediaIds : PySet Int)
    (sourceConnectionId : Int) : PullCycleState :=
  { state with
    removedWatchExclusions := mediaIds.items.foldl
      (fun exclusions mediaId ↦ exclusions.upsert mediaId .empty (·.add sourceConnectionId))
      state.removedWatchExclusions }

def observeLibrary (observed : Dict Int DateTime) (at_ : DateTime) (mediaId : Int) :
    Dict Int DateTime :=
  if (observed.get mediaId).all fun previous ↦ decide (previous.instant < at_.instant) then
    observed.set mediaId at_
  else observed

def deferLibraryFanOut (state : PullCycleState) (call : LibraryCall) : PullCycleState :=
  let mediaIds := (call.newCollectedIds.update call.removedCollectedIds.items).items
  { state with
    libraryNewIds := state.libraryNewIds.update call.newCollectedIds.items
    libraryRemovedIds := state.libraryRemovedIds.update call.removedCollectedIds.items
    librarySourceIds := state.librarySourceIds.add call.sourceConnectionId
    librarySourceIdsByMedia := mediaIds.foldl
      (fun sources mediaId ↦ sources.upsert mediaId .empty (·.add call.sourceConnectionId))
      state.librarySourceIdsByMedia
    libraryObservedAtByMedia := call.sourceObservedAt.elim state.libraryObservedAtByMedia fun at_ ↦
      mediaIds.foldl (fun observed mediaId ↦ observeLibrary observed at_ mediaId)
        state.libraryObservedAtByMedia
    libraryApiKey := state.libraryApiKey.or call.apiKey }

inductive DeferCall
  | fanOut (call : FanOutCall)
  | watchRemovals (mediaIds : PySet Int) (sourceConnectionId : Int)
  | library (call : LibraryCall)

def defer (state : PullCycleState) : DeferCall → PullCycleState
  | .fanOut call => state.deferFanOut call
  | .watchRemovals mediaIds source => state.deferWatchRemovals mediaIds source
  | .library call => state.deferLibraryFanOut call

def accumulate (userId : Int) (calls : List DeferCall) : PullCycleState :=
  calls.foldl defer (fresh userId)

theorem accumulate_append (userId : Int) (calls : List DeferCall) (call : DeferCall) :
    accumulate userId (calls ++ [call]) = (accumulate userId calls).defer call :=
  List.foldl_append

/-- What one call brings about, and no call undoes, holds of what the calls accumulate. -/
theorem accumulate_of_mem {I : PullCycleState → Prop} {userId : Int} {calls : List DeferCall}
    {call : DeferCall} (hcall : call ∈ calls) (hmake : ∀ state, I (defer state call))
    (hkeep : ∀ state other, I state → I (defer state other)) : I (accumulate userId calls) :=
  of_mem hcall hmake hkeep

section records

variable {userId : Int} {calls : List DeferCall} {mediaId id : Int} {source : CollectionSource}

/-- A title's entry in a dictionary of exclusions satisfies `p`. -/
def Recorded {α : Type} (exclusions : Dict Int α) (mediaId : Int) (p : α → Prop) : Prop :=
  ∃ entry, exclusions.get mediaId = some entry ∧ p entry

variable {α : Type} {exclusions : Dict Int α} {mediaIds : List Int} {init : α} {f : α → α}
variable {p : α → Prop}

theorem Recorded.upsert (h : Recorded exclusions mediaId p) (hkeep : ∀ entry, p entry → p (f entry))
    (other : Int) : Recorded (exclusions.upsert other init f) mediaId p := by
  obtain ⟨entry, hget, hp⟩ := h
  by_cases hid : other = mediaId
  · subst hid
    exact ⟨f entry, by rw [Dict.get_upsert, if_pos rfl, hget, Option.getD_some], hkeep entry hp⟩
  · exact ⟨entry, by rw [Dict.get_upsert, if_neg hid, hget], hp⟩

theorem Recorded.foldl (h : Recorded exclusions mediaId p) (hkeep : ∀ entry, p entry → p (f entry)) :
    Recorded (mediaIds.foldl (fun exclusions other ↦ exclusions.upsert other init f) exclusions)
      mediaId p :=
  invariant (I := fun exclusions ↦ Recorded exclusions mediaId p) h fun _ other h ↦
    h.upsert hkeep other

theorem recorded_foldl (hmem : mediaId ∈ mediaIds) (hmake : ∀ entry, p (f entry))
    (exclusions : Dict Int α) :
    Recorded (mediaIds.foldl (fun exclusions other ↦ exclusions.upsert other init f) exclusions)
      mediaId p := by
  refine of_mem (I := fun exclusions ↦ Recorded exclusions mediaId p) hmem (fun exclusions ↦ ?_)
    fun _ other h ↦ h.upsert (fun entry _ ↦ hmake entry) other
  exact ⟨_, by rw [Dict.get_upsert, if_pos rfl], hmake _⟩

end records

end PullCycleState

end AnyList.Persistence
