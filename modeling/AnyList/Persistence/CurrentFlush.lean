import AnyList.Persistence.CycleFlush

namespace AnyList.Persistence.CycleFlush

open AnyList.Library AnyList.Library.Runs CycleDelivery PullCycleState
open AnyList.Timestamps (DateTime)

inductive Change
  | rating (key : RatingKey) (score : ℚ)
  | ratingRemoval (key : RatingKey)
  | watched (mediaId : Int)
  | watchRemoval (mediaId : Int)
  | collection (mediaId : Int) (present : Bool)
  | library (mediaId : Int) (desired : Bool)
  deriving DecidableEq

inductive Destination
  | connection (id : Int)
  | cloud (source : CollectionSource)

section effects

variable (db : Database) (target : Option Target)

/-- What a queue of watch intents reads of a title when it is filled. -/
def watchState (mediaId : Int) : Change :=
  if db.hasCompletedPlay mediaId then .watched mediaId else .watchRemoval mediaId

def Changes.list (changes : Changes) : List Change :=
  changes.watched.map .watched ++ changes.ratings.map (fun entry ↦ .rating entry.1 entry.2) ++
    changes.removedRatings.map .ratingRemoval ++ changes.collected.map (.collection · true) ++
    changes.uncollected.map (.collection · false)

/-- The titles of a library delta that a source observed at a known time. -/
def libraryChanges (newIds removedIds : List Int) (observedAt : Dict Int DateTime)
    (sources : Dict Int (PySet Int)) (desired : Dict Int Bool) : List Change :=
  ((newIds ∪ removedIds).filter fun id ↦
    (observedAt.get id).isSome && ((sources.get id).getD .empty).items ≠ []).map fun id ↦
      .library id ((desired.get id).getD (db.collected id))

def Effect.changes : Effect → List Change
  | queueWatchIntents mediaIds _ => mediaIds.map (watchState db)
  | fanOutChanges changes _ => changes.list
  | pushWatchState mediaIds watched _ => mediaIds.map (if watched then .watched else .watchRemoval)
  | fanOutStreamingLibrary newIds removedIds _ observedAt sources desired =>
      libraryChanges db newIds removedIds observedAt sources desired
  | dispatchWatchIntents | dispatchPendingLibraryDeliveries | dispatchStreamActions
  | dispatchCloudActions => []
  | pushWatchedBack _ items => items.keys.map .watched

/-- Whether a destination of the user may be sent a change of a call. -/
def Effect.reaches : Effect → Change → Destination → Bool
  | queueWatchIntents _ exclude, _, .connection id => connectionMatches target id && id ∉ exclude
  | fanOutChanges _ exclude, _, .connection id =>
      connectionMatches target id && id ∉ exclude.connections
  | fanOutChanges _ exclude, _, .cloud source =>
      cloudMatches target source && source ∉ exclude.cloudSources
  | pushWatchState _ _ exclude, _, .connection id => connectionMatches target id && id ∉ exclude
  | pushWatchState _ _ _, _, .cloud source => cloudMatches target source
  | fanOutStreamingLibrary _ _ _ _ sources _, .library mediaId _, .connection id =>
      connectionMatches target id && id ∉ ((sources.get mediaId).getD .empty).items
  | pushWatchedBack connectionId _, _, .connection id => id = connectionId
  | _, _, _ => false

end effects

/-- A change says what the database holds now. -/
def Change.Current (db : Database) : Change → Prop
  | rating key score => db.rating key = some (some score)
  | ratingRemoval key => db.rating key = none
  | watched mediaId => (mediaId, true) ∈ db.watchEvents
  | watchRemoval mediaId => (mediaId, true) ∉ db.watchEvents
  | collection mediaId present | library mediaId present => present = decide (mediaId ∈ db.collection)

def isSource (call : FanOutCall) : Destination → Prop
  | .connection id => call.excludeConnectionId = some id
  | .cloud source => call.excludeCloudSource = some source

def reports (call : FanOutCall) : Change → Prop
  | .rating key _ | .ratingRemoval key => key ∈ call.newRatings.keys ∨ key ∈ call.removedRatings.items
  | .watched mediaId => mediaId ∈ call.newWatchedIds.items
  | .collection mediaId _ =>
      mediaId ∈ call.newCollectedIds.items ∨ mediaId ∈ call.removedCollectedIds.items
  | _ => False

/-- The destination is recorded as the source of the title's change. -/
def Origin (change : Change) (destination : Destination) : DeferCall → Prop
  | .fanOut call => reports call change ∧ isSource call destination
  | .watchRemovals mediaIds source =>
      ∃ mediaId ∈ mediaIds.items, change = .watchRemoval mediaId ∧ destination = .connection source
  | .library call => ∃ mediaId desired, change = .library mediaId desired ∧
      (mediaId ∈ call.newCollectedIds.items ∨ mediaId ∈ call.removedCollectedIds.items) ∧
      destination = .connection call.sourceConnectionId

section accumulated

variable (userId : Int) {calls : List DeferCall} {call : FanOutCall} {libraryCall : LibraryCall}
variable {mediaIds : PySet Int} {mediaId id : Int} {source : CollectionSource}

theorem mem_excludedConnectionIds (hcall : .fanOut call ∈ calls)
    (hid : call.excludeConnectionId = some id) :
    id ∈ (accumulate userId calls).excludedConnectionIds.items := by
  refine accumulate_of_mem (I := fun state ↦ id ∈ state.excludedConnectionIds.items) hcall (fun state ↦ ?_)
    fun state other h ↦ ?_
  · simp [defer, deferFanOut, hid]
  · cases other <;> simp [defer, deferFanOut, deferWatchRemovals, deferLibraryFanOut, h]

theorem mem_excludedCloudSources (hcall : .fanOut call ∈ calls)
    (hsource : call.excludeCloudSource = some source) :
    source ∈ (accumulate userId calls).excludedCloudSources.items := by
  refine accumulate_of_mem (I := fun state ↦ source ∈ state.excludedCloudSources.items) hcall
    (fun state ↦ ?_) fun state other h ↦ ?_
  · simp [defer, deferFanOut, hsource]
  · cases other <;> simp [defer, deferFanOut, deferWatchRemovals, deferLibraryFanOut, h]

def Excludes (call : FanOutCall) (entry : PySet Int × PySet CollectionSource) : Prop :=
  (∀ id, call.excludeConnectionId = some id → id ∈ entry.1.items) ∧
    ∀ source, call.excludeCloudSource = some source → source ∈ entry.2.items

/-- A title's watched exclusions keep the sources that reported it watched. -/
theorem recorded_watchedExclusions (hcall : .fanOut call ∈ calls)
    (hmedia : mediaId ∈ call.newWatchedIds.items) :
    Recorded (accumulate userId calls).watchedExclusions mediaId (Excludes call) := by
  refine accumulate_of_mem (I := fun state ↦ Recorded state.watchedExclusions mediaId
    (Excludes call)) hcall (fun state ↦ ?_) fun state other h ↦ ?_
  · refine recorded_foldl hmedia (fun entry ↦ ⟨fun id hid ↦ ?_, fun source hsource ↦ ?_⟩) _
    · simp [addExclusions, hid]
    · simp [addExclusions, hsource]
  · cases other with
    | fanOut other =>
      refine h.foldl fun entry hentry ↦ ⟨fun id hid ↦ ?_, fun source hsource ↦ ?_⟩
      · exact PySet.mem_update.mpr (.inl (hentry.1 id hid))
      · exact PySet.mem_update.mpr (.inl (hentry.2 source hsource))
    | watchRemovals _ _ => exact h
    | library _ => exact h

theorem recorded_removedWatchExclusions (hcall : .watchRemovals mediaIds id ∈ calls)
    (hmedia : mediaId ∈ mediaIds.items) :
    Recorded (accumulate userId calls).removedWatchExclusions mediaId (id ∈ ·.items) := by
  refine accumulate_of_mem (I := fun state ↦ Recorded state.removedWatchExclusions mediaId
    (id ∈ ·.items)) hcall (fun state ↦ ?_) fun state other h ↦ ?_
  · exact recorded_foldl hmedia (fun entry ↦ by rw [PySet.mem_add]; exact .inr rfl) _
  · cases other with
    | fanOut _ => exact h
    | watchRemovals _ _ => exact h.foldl fun entry hentry ↦ PySet.mem_add.mpr (.inl hentry)
    | library _ => exact h

theorem recorded_librarySourceIds (hcall : .library libraryCall ∈ calls)
    (hmedia : mediaId ∈ libraryCall.newCollectedIds.items ∨
      mediaId ∈ libraryCall.removedCollectedIds.items) :
    Recorded (accumulate userId calls).librarySourceIdsByMedia mediaId
      (libraryCall.sourceConnectionId ∈ ·.items) := by
  refine accumulate_of_mem (I := fun state ↦ Recorded state.librarySourceIdsByMedia mediaId
    (libraryCall.sourceConnectionId ∈ ·.items)) hcall (fun state ↦ ?_) fun state other h ↦ ?_
  · exact recorded_foldl (PySet.mem_update.mpr hmedia) (fun entry ↦ by rw [PySet.mem_add]; exact .inr rfl) _
  · cases other with
    | fanOut _ => exact h
    | watchRemovals _ _ => exact h
    | library _ => exact h.foldl fun entry hentry ↦ PySet.mem_add.mpr (.inl hentry)

/-- The fields that only a reconciliation fills. -/
def Unreconciled (state : PullCycleState) : Prop :=
  state.ratingSources = .empty ∧ state.libraryDesired = .empty ∧ state.pushBack = .empty

variable {userId} in
theorem unreconciled_accumulate : Unreconciled (accumulate userId calls) := by
  refine invariant (I := Unreconciled) ⟨rfl, rfl, rfl⟩ fun state call h ↦ ?_
  cases call <;> exact h

variable {userId} in
theorem mem_changedCollectionIds :
    mediaId ∈ changedCollectionIds (accumulate userId calls) ↔
      ∃ call, .fanOut call ∈ calls ∧ (mediaId ∈ call.newCollectedIds.items ∨
        mediaId ∈ call.removedCollectedIds.items) := by
  induction calls using List.reverseRecOn with
  | nil => simp [accumulate, changedCollectionIds, fresh, PySet.empty]
  | append_singleton calls call ih =>
    rw [accumulate_append]
    simp only [changedCollectionIds, PySet.mem_update] at ih ⊢
    cases call with
    | fanOut call =>
      simp only [defer, deferFanOut, PySet.mem_update, List.mem_append, List.mem_singleton,
        DeferCall.fanOut.injEq]
      constructor
      · intro h
        by_cases hnew : mediaId ∈ call.newCollectedIds.items ∨
            mediaId ∈ call.removedCollectedIds.items
        · exact ⟨call, .inr rfl, hnew⟩
        · obtain ⟨other, hother, hmem⟩ := ih.mp (by tauto)
          exact ⟨other, .inl hother, hmem⟩
      · rintro ⟨other, hother | rfl, hmem⟩
        · have hold := ih.mpr ⟨other, hother, hmem⟩
          tauto
        · tauto
    | watchRemovals _ _ => simpa [defer, deferWatchRemovals] using ih
    | library _ => simpa [defer, deferLibraryFanOut] using ih

theorem isSome_observeLibrary (observed : Dict Int DateTime) (at_ : DateTime) :
    ((observeLibrary observed at_ mediaId).get mediaId).isSome = true := by
  unfold observeLibrary
  split
  · rw [Dict.get_set_self, Option.isSome_some]
  · next h =>
    cases hget : observed.get mediaId with
    | none => simp [hget] at h
    | some previous => rfl

theorem isSome_observeLibrary_of_isSome {observed : Dict Int DateTime} (at_ : DateTime) (other : Int)
    (h : (observed.get mediaId).isSome = true) :
    ((observeLibrary observed at_ other).get mediaId).isSome = true := by
  unfold observeLibrary
  split
  · rw [Dict.get_set]
    split
    · rfl
    · exact h
  · exact h

theorem isSome_libraryObservedAt (hcall : .library libraryCall ∈ calls)
    (hmedia : mediaId ∈ libraryCall.newCollectedIds.items ∨
      mediaId ∈ libraryCall.removedCollectedIds.items)
    (hobserved : libraryCall.sourceObservedAt.isSome = true) :
    ((accumulate userId calls).libraryObservedAtByMedia.get mediaId).isSome = true := by
  obtain ⟨at_, hat⟩ := Option.isSome_iff_exists.mp hobserved
  refine accumulate_of_mem
    (I := fun state ↦ (state.libraryObservedAtByMedia.get mediaId).isSome = true) hcall
    (fun state ↦ ?_) fun state other h ↦ ?_
  · simp only [defer, deferLibraryFanOut, hat, Option.elim_some]
    exact of_mem (I := fun observed : Dict Int DateTime ↦ (observed.get mediaId).isSome = true)
      (PySet.mem_update.mpr hmedia) (fun observed ↦ isSome_observeLibrary observed at_)
      fun _ other h ↦ isSome_observeLibrary_of_isSome at_ other h
  · cases other with
    | fanOut _ => exact h
    | watchRemovals _ _ => exact h
    | library other =>
      cases hother : other.sourceObservedAt with
      | none => simpa [defer, deferLibraryFanOut, hother] using h
      | some at' =>
        simp only [defer, deferLibraryFanOut, hother, Option.elim_some]
        exact invariant (I := fun observed : Dict Int DateTime ↦
          (observed.get mediaId).isSome = true) h
          fun _ other h ↦ isSome_observeLibrary_of_isSome at' other h

theorem mem_libraryIds (hcall : .library libraryCall ∈ calls)
    (hmedia : mediaId ∈ libraryCall.newCollectedIds.items ∨
      mediaId ∈ libraryCall.removedCollectedIds.items) :
    mediaId ∈ (accumulate userId calls).libraryNewIds.items ∨
      mediaId ∈ (accumulate userId calls).libraryRemovedIds.items := by
  refine accumulate_of_mem (I := fun state ↦ mediaId ∈ state.libraryNewIds.items ∨
    mediaId ∈ state.libraryRemovedIds.items) hcall (fun state ↦ ?_) fun state other h ↦ ?_
  · simp only [defer, deferLibraryFanOut, PySet.mem_update]
    exact hmedia.imp .inr .inr
  · cases other with
    | fanOut _ => exact h
    | watchRemovals _ _ => exact h
    | library _ =>
      simp only [defer, deferLibraryFanOut, PySet.mem_update]
      exact h.imp .inl .inl

end accumulated

section sound

variable {int : String → Option Int} {target : Option Target} {db : Database} {userId : Int}
variable {calls : List DeferCall} {call : DeferCall} {mediaId : Int} {destination : Destination}
variable {effect : Effect}

/-- Every change of a call is what the database holds now, and none reaches its origin. -/
def Sound (target : Option Target) (db : Database) (calls : List DeferCall) (effect : Effect) :
    Prop :=
  ∀ change ∈ effect.changes db, change.Current db ∧
    ∀ destination, effect.reaches target change destination = true →
      ∀ call ∈ calls, ¬Origin change destination call

def Exclusions.Has (exclude : Exclusions) : Destination → Prop
  | .connection id => id ∈ exclude.connections
  | .cloud source => source ∈ exclude.cloudSources

theorem not_has_of_reaches {changes : Changes} {exclude : Exclusions} {change : Change}
    (h : (Effect.fanOutChanges changes exclude).reaches target change destination = true) :
    ¬exclude.Has destination := by
  cases destination <;> simp_all [Effect.reaches, Exclusions.Has]

theorem has_of_origin_watched (userId : Int) (hcall : call ∈ calls)
    (horigin : Origin (.watched mediaId) destination call) :
    (watchedExclusionsOf (accumulate userId calls) mediaId).Has destination := by
  cases call with
  | fanOut call =>
    obtain ⟨hmedia, hsource⟩ := horigin
    obtain ⟨entry, hget, hconnections, hclouds⟩ :=
      recorded_watchedExclusions userId hcall hmedia
    cases destination with
    | connection id => simpa [watchedExclusionsOf, hget, Exclusions.Has] using hconnections id hsource
    | cloud source => simpa [watchedExclusionsOf, hget, Exclusions.Has] using hclouds source hsource
  | watchRemovals mediaIds source =>
    obtain ⟨_, -, hchange, -⟩ := horigin
    cases hchange
  | library call =>
    obtain ⟨_, _, hchange, -⟩ := horigin
    cases hchange

theorem mem_of_origin_watchRemoval (userId : Int) (hcall : call ∈ calls)
    (horigin : Origin (.watchRemoval mediaId) destination call) :
    ∃ id, destination = .connection id ∧
      id ∈ removedExclusionsOf (accumulate userId calls) mediaId := by
  cases call with
  | fanOut call => exact horigin.1.elim
  | watchRemovals mediaIds source =>
    obtain ⟨_, hmedia, hchange, rfl⟩ := horigin
    obtain rfl := Change.watchRemoval.inj hchange
    obtain ⟨entry, hget, hmem⟩ :=
      recorded_removedWatchExclusions userId hcall hmedia
    exact ⟨source, rfl, by simpa [removedExclusionsOf, hget] using hmem⟩
  | library call =>
    obtain ⟨_, _, hchange, -⟩ := horigin
    cases hchange

/-- What is scoped to the whole cycle leaves out every source of the cycle. -/
theorem has_of_origin {change : Change} (hcall : call ∈ calls)
    (hchange : ∀ mediaId desired, change ≠ .watchRemoval mediaId ∧ change ≠ .library mediaId desired)
    (horigin : Origin change destination call) :
    (cycleExclusions (accumulate userId calls)).Has destination := by
  cases call with
  | fanOut call =>
    cases destination with
    | connection id =>
      exact List.mem_toFinset.mpr (mem_excludedConnectionIds userId hcall horigin.2)
    | cloud source => exact List.mem_toFinset.mpr (mem_excludedCloudSources userId hcall horigin.2)
  | watchRemovals mediaIds source =>
    obtain ⟨mediaId, -, heq, -⟩ := horigin
    exact ((hchange mediaId true).1 heq).elim
  | library call =>
    obtain ⟨mediaId, desired, heq, -⟩ := horigin
    exact ((hchange mediaId desired).2 heq).elim

theorem mem_of_origin_library (userId : Int) {desired : Bool} (hcall : call ∈ calls)
    (horigin : Origin (.library mediaId desired) destination call) :
    ∃ id, destination = .connection id ∧
      id ∈ (((accumulate userId calls).librarySourceIdsByMedia.get mediaId).getD .empty).items := by
  cases call with
  | fanOut call => exact horigin.1.elim
  | watchRemovals mediaIds source =>
    obtain ⟨_, -, hchange, -⟩ := horigin
    cases hchange
  | library call =>
    obtain ⟨_, _, hchange, hmedia, rfl⟩ := horigin
    obtain ⟨rfl, -⟩ := Change.library.inj hchange
    obtain ⟨entry, hget, hmem⟩ := recorded_librarySourceIds userId hcall hmedia
    exact ⟨_, rfl, by simpa [hget] using hmem⟩

theorem of_mem_watchedGroups {state : PullCycleState} {group : Exclusions × List Int}
    (hgroup : group ∈ watchedGroups db state) (hmedia : mediaId ∈ group.2) :
    (mediaId, true) ∈ db.watchEvents ∧ watchedExclusionsOf state mediaId = group.1 := by
  obtain ⟨hmem, hkey⟩ := Dict.of_mem_groupBy (Dict.mem_entries.mp hgroup) hmedia
  exact ⟨of_decide_eq_true (List.mem_filter.mp hmem).2, hkey⟩

theorem of_mem_removalGroups {state : PullCycleState} {group : Finset Int × List Int}
    (hgroup : group ∈ removalGroups db state) (hmedia : mediaId ∈ group.2) :
    (mediaId, true) ∉ db.watchEvents ∧ removedExclusionsOf state mediaId = group.1 := by
  obtain ⟨hmem, hkey⟩ := Dict.of_mem_groupBy (Dict.mem_entries.mp hgroup) hmedia
  have hplay := (List.mem_filter.mp hmem).2
  exact ⟨by simpa [Database.hasCompletedPlay] using hplay, hkey⟩

theorem sound_of_changes_eq_nil (h : effect.changes db = []) : Sound target db calls effect := by
  intro change hchange
  simp [h] at hchange

theorem sound_watchEffects (h : effect ∈ watchEffects target db (accumulate userId calls)) :
    Sound target db calls effect := by
  simp only [watchEffects, List.mem_append, List.mem_map] at h
  obtain (⟨group, hgroup, rfl⟩ | h) | ⟨group, hgroup, rfl⟩ := h
  · intro change hchange
    obtain ⟨mediaId, hmedia, rfl⟩ := List.mem_map.mp hchange
    obtain ⟨hplay, hkey⟩ := of_mem_watchedGroups hgroup hmedia
    have hstate : watchState db mediaId = .watched mediaId :=
      if_pos (decide_eq_true hplay)
    rw [hstate]
    refine ⟨hplay, fun destination hreaches call hcall horigin ↦ ?_⟩
    have hhas := has_of_origin_watched userId hcall horigin
    rw [hkey] at hhas
    cases destination <;> simp_all [Effect.reaches, Exclusions.Has]
  · split at h
    · obtain rfl := List.mem_singleton.mp h
      exact sound_of_changes_eq_nil rfl
    · exact absurd h List.not_mem_nil
  · intro change hchange
    have hlist : change ∈ group.2.map Change.watched := by
      simpa [Effect.changes, Changes.list] using hchange
    obtain ⟨mediaId, hmedia, rfl⟩ := List.mem_map.mp hlist
    obtain ⟨hplay, hkey⟩ := of_mem_watchedGroups hgroup hmedia
    refine ⟨hplay, fun destination hreaches call hcall horigin ↦ not_has_of_reaches hreaches ?_⟩
    rw [← hkey]
    exact has_of_origin_watched userId hcall horigin

theorem sound_removalEffects (h : effect ∈ removalEffects target db (accumulate userId calls)) :
    Sound target db calls effect := by
  simp only [removalEffects, List.mem_append, List.mem_map] at h
  obtain (⟨group, hgroup, rfl⟩ | h) | ⟨group, hgroup, rfl⟩ := h
  · intro change hchange
    obtain ⟨mediaId, hmedia, rfl⟩ := List.mem_map.mp hchange
    obtain ⟨hplay, hkey⟩ := of_mem_removalGroups hgroup hmedia
    have hstate : watchState db mediaId = .watchRemoval mediaId :=
      if_neg (by simpa [Database.hasCompletedPlay] using hplay)
    rw [hstate]
    refine ⟨hplay, fun destination hreaches call hcall horigin ↦ ?_⟩
    obtain ⟨id, rfl, hid⟩ := mem_of_origin_watchRemoval userId hcall horigin
    rw [hkey] at hid
    simp [Effect.reaches, hid] at hreaches
  · split at h
    · obtain rfl := List.mem_singleton.mp h
      exact sound_of_changes_eq_nil rfl
    · exact absurd h List.not_mem_nil
  · intro change hchange
    have hlist : ∃ mediaId ∈ group.2, Change.watchRemoval mediaId = change := by
      simpa [Effect.changes] using hchange
    obtain ⟨mediaId, hmedia, rfl⟩ := hlist
    obtain ⟨hplay, hkey⟩ := of_mem_removalGroups hgroup hmedia
    refine ⟨hplay, fun destination hreaches call hcall horigin ↦ ?_⟩
    obtain ⟨id, rfl, hid⟩ := mem_of_origin_watchRemoval userId hcall horigin
    rw [hkey] at hid
    simp [Effect.reaches, hid] at hreaches

theorem sound_libraryEffects (h : effect ∈ libraryEffects db (accumulate userId calls)) :
    Sound target db calls effect := by
  unfold libraryEffects at h
  split at h
  · obtain rfl := List.mem_singleton.mp h
    intro change hchange
    obtain ⟨mediaId, -, rfl⟩ := List.mem_map.mp hchange
    have hdesired : (accumulate userId calls).libraryDesired = .empty := unreconciled_accumulate.2.1
    refine ⟨by simp [Change.Current, hdesired, Database.collected],
      fun destination hreaches call hcall horigin ↦ ?_⟩
    obtain ⟨id, rfl, hid⟩ := mem_of_origin_library userId hcall horigin
    simp [Effect.reaches, hid] at hreaches
  · exact absurd h List.not_mem_nil

theorem ratingGroups_of_unreconciled {state : PullCycleState} (h : Unreconciled state) :
    ratingGroups int db state = some ((Dict.groupBy Prod.fst ((currentRatings db state).map
      fun entry ↦ (cycleExclusions state, entry))).entries.map
        fun group ↦ (group.1, group.2.map Prod.snd)) := by
  have hsources : ∀ key, ratingExclusions int state key = some (cycleExclusions state) := by
    intro key
    simp [ratingExclusions, h.1]
  have hmap : ((currentRatings db state).mapM fun entry ↦
      (ratingExclusions int state entry.1).map fun exclude ↦ (exclude, entry)) =
        some ((currentRatings db state).map fun entry ↦ (cycleExclusions state, entry)) := by
    simp only [hsources, Option.map_some]
    exact List.mapM_pure
  simp [ratingGroups, hmap]

theorem sound_of_cycle {changes : Changes}
    (hcurrent : ∀ change ∈ changes.list, change.Current db ∧
      ∀ mediaId desired, change ≠ .watchRemoval mediaId ∧ change ≠ .library mediaId desired) :
    Sound target db calls (.fanOutChanges changes (cycleExclusions (accumulate userId calls))) := by
  intro change hchange
  obtain ⟨hnow, hkind⟩ := hcurrent change hchange
  exact ⟨hnow, fun destination hreaches call hcall horigin ↦
    not_has_of_reaches hreaches (has_of_origin hcall hkind horigin)⟩

theorem sound_ratingGroups {groups : List (Exclusions × List (RatingKey × ℚ))}
    (hgroups : ratingGroups int db (accumulate userId calls) = some groups)
    {group : Exclusions × List (RatingKey × ℚ)} (hgroup : group ∈ groups) :
    Sound target db calls (.fanOutChanges ⟨[], group.2, [], [], []⟩ group.1) := by
  rw [ratingGroups_of_unreconciled unreconciled_accumulate] at hgroups
  obtain rfl := Option.some.inj hgroups
  obtain ⟨⟨exclude, entries⟩, hentry, rfl⟩ := List.mem_map.mp hgroup
  have hmem : ∀ item ∈ entries, item.1 = cycleExclusions (accumulate userId calls) ∧
      item.1 = exclude ∧ db.rating item.2.1 = some (some item.2.2) := by
    intro item hitem
    obtain ⟨hmem, hkey⟩ := Dict.of_mem_groupBy (Dict.mem_entries.mp hentry) hitem
    obtain ⟨entry, hcurrent, rfl⟩ := List.mem_map.mp hmem
    exact ⟨rfl, hkey, of_decide_eq_true (List.mem_filter.mp hcurrent).2⟩
  cases entries with
  | nil => exact sound_of_changes_eq_nil rfl
  | cons first rest =>
    obtain ⟨hcycle, hexclude, -⟩ := hmem first (List.mem_cons_self ..)
    obtain rfl : exclude = _ := hexclude.symm.trans hcycle
    refine sound_of_cycle fun change hchange ↦ ?_
    simp only [Changes.list, List.map_nil, List.nil_append, List.append_nil] at hchange
    obtain ⟨_, hentry, rfl⟩ := List.mem_map.mp hchange
    obtain ⟨item, hitem, rfl⟩ := List.mem_map.mp hentry
    exact ⟨(hmem item hitem).2.2, by simp⟩

theorem sound_remainingChanges : Sound target db calls
    (.fanOutChanges (remainingChanges db (accumulate userId calls))
      (cycleExclusions (accumulate userId calls))) := by
  refine sound_of_cycle fun change hchange ↦ ?_
  simp only [Changes.list, remainingChanges, List.map_nil, List.nil_append, List.mem_append,
    List.mem_map] at hchange
  obtain (⟨key, hkey, rfl⟩ | ⟨mediaId, hmedia, rfl⟩) | ⟨mediaId, hmedia, rfl⟩ := hchange
  · have hunrated : db.rating key = none := of_decide_eq_true (List.mem_filter.mp hkey).2
    exact ⟨hunrated, by simp⟩
  · have hpresent := (List.mem_filter.mp hmedia).2
    exact ⟨hpresent.symm, by simp⟩
  · have habsent := (List.mem_filter.mp hmedia).2
    exact ⟨by simpa [Change.Current, Database.collected] using habsent, by simp⟩

theorem pushBackEffects_accumulate :
    pushBackEffects target db (accumulate userId calls) = [] := by
  rw [pushBackEffects, unreconciled_accumulate.2.2]
  rfl

end sound

section once

variable {int : String → Option Int} {target : Option Target} {db : Database} {userId : Int}
variable {calls : List DeferCall} {mediaId : Int} {effect : Effect}

def sent (db : Database) (effects : List Effect) : List Change := effects.flatMap (·.changes db)

def Change.ofCollection (mediaId : Int) : Change → Bool
  | collection id _ => decide (id = mediaId)
  | _ => false

def Change.ofLibrary (mediaId : Int) : Change → Bool
  | library id _ => decide (id = mediaId)
  | _ => false

theorem filter_map_of_nodup {α β : Type} [DecidableEq α] {items : List α} {f : α → β}
    {p : β → Bool} {a : α} (hnodup : items.Nodup) (ha : a ∈ items)
    (hp : ∀ x, p (f x) = decide (x = a)) : (items.map f).filter p = [f a] := by
  have hpick : (p ∘ f) = fun x ↦ decide (x = a) := funext hp
  rw [List.filter_map, hpick, List.filter_eq, List.count_eq_one_of_mem hnodup ha]
  rfl

theorem filter_map_of_notMem {α β : Type} [DecidableEq α] {items : List α} {f : α → β}
    {p : β → Bool} {a : α} (ha : a ∉ items) (hp : ∀ x, p (f x) = decide (x = a)) :
    (items.map f).filter p = [] := by
  have hpick : (p ∘ f) = fun x ↦ decide (x = a) := funext hp
  rw [List.filter_map, hpick, List.filter_eq, List.count_eq_zero_of_not_mem ha]
  rfl

theorem filter_sent_eq_nil {effects : List Effect} {p : Change → Bool}
    (h : ∀ effect ∈ effects, ∀ change ∈ effect.changes db, p change = false) :
    (sent db effects).filter p = [] := by
  rw [List.filter_eq_nil_iff]
  intro change hchange
  obtain ⟨effect, heffect, hmem⟩ := List.mem_flatMap.mp hchange
  simp [h effect heffect change hmem]

theorem filter_remainingChanges {state : PullCycleState}
    (hchanged : mediaId ∈ changedCollectionIds state) :
    ((remainingChanges db state).list.filter (·.ofCollection mediaId)) =
      [.collection mediaId (decide (mediaId ∈ db.collection))] := by
  have hnodup : (changedCollectionIds state).Nodup := PySet.nodup _
  have hremovals : ((unratedRemovals db state).map Change.ratingRemoval).filter
      (·.ofCollection mediaId) = [] := by
    rw [List.filter_eq_nil_iff]
    rintro change hchange
    obtain ⟨_, -, rfl⟩ := List.mem_map.mp hchange
    simp [Change.ofCollection]
  simp only [Changes.list, remainingChanges, List.map_nil, List.nil_append, List.filter_append,
    hremovals]
  by_cases hpresent : mediaId ∈ db.collection
  · rw [filter_map_of_nodup (hnodup.filter _) (List.mem_filter.mpr ⟨hchanged, by
        simp [Database.collected, hpresent]⟩) fun _ ↦ rfl,
      filter_map_of_notMem (a := mediaId) (by simp [Database.collected, hpresent]) fun _ ↦ rfl]
    simp [hpresent]
  · rw [filter_map_of_notMem (a := mediaId) (by simp [Database.collected, hpresent]) fun _ ↦ rfl,
      filter_map_of_nodup (hnodup.filter _) (List.mem_filter.mpr ⟨hchanged, by
        simp [Database.collected, hpresent]⟩) fun _ ↦ rfl]
    simp [hpresent]

theorem ofCollection_watchEffects (state : PullCycleState)
    (h : effect ∈ watchEffects target db state ∨ effect ∈ removalEffects target db state) :
    ∀ change ∈ effect.changes db, change.ofCollection mediaId = false ∧
      change.ofLibrary mediaId = false := by
  have hwatch : ∀ ids : List Int, ∀ change ∈ ids.map (watchState db),
      change.ofCollection mediaId = false ∧ change.ofLibrary mediaId = false := by
    intro ids change hchange
    obtain ⟨id, -, rfl⟩ := List.mem_map.mp hchange
    unfold watchState
    split <;> exact ⟨rfl, rfl⟩
  simp only [watchEffects, removalEffects, List.mem_append, List.mem_map] at h
  intro change hchange
  obtain ((⟨group, -, rfl⟩ | h) | ⟨group, -, rfl⟩) | ((⟨group, -, rfl⟩ | h) | ⟨group, -, rfl⟩) := h
  · exact hwatch _ _ hchange
  · split at h
    · obtain rfl := List.mem_singleton.mp h
      exact absurd hchange List.not_mem_nil
    · exact absurd h List.not_mem_nil
  · simp only [Effect.changes, Changes.list, List.map_nil, List.append_nil, List.mem_map] at hchange
    obtain ⟨_, -, rfl⟩ := hchange
    exact ⟨rfl, rfl⟩
  · exact hwatch _ _ hchange
  · split at h
    · obtain rfl := List.mem_singleton.mp h
      exact absurd hchange List.not_mem_nil
    · exact absurd h List.not_mem_nil
  · simp only [Effect.changes, Bool.false_eq_true, if_false, List.mem_map] at hchange
    obtain ⟨_, -, rfl⟩ := hchange
    exact ⟨rfl, rfl⟩

theorem ofCollection_libraryEffects {state : PullCycleState} (h : effect ∈ libraryEffects db state) :
    ∀ change ∈ effect.changes db, change.ofCollection mediaId = false := by
  unfold libraryEffects at h
  split at h
  · obtain rfl := List.mem_singleton.mp h
    intro change hchange
    obtain ⟨_, -, rfl⟩ := List.mem_map.mp hchange
    rfl
  · exact absurd h List.not_mem_nil

theorem ofLibrary_remainingChanges {state : PullCycleState} :
    ∀ change ∈ (Effect.fanOutChanges (remainingChanges db state) (cycleExclusions state)).changes db,
      change.ofLibrary mediaId = false := by
  intro change hchange
  simp only [Effect.changes, Changes.list, remainingChanges, List.map_nil, List.nil_append,
    List.mem_append, List.mem_map] at hchange
  obtain (⟨_, -, rfl⟩ | ⟨_, -, rfl⟩) | ⟨_, -, rfl⟩ := hchange <;> rfl

theorem filter_libraryEffects {libraryCall : LibraryCall} (hcall : .library libraryCall ∈ calls)
    (hmedia : mediaId ∈ libraryCall.newCollectedIds.items ∨
      mediaId ∈ libraryCall.removedCollectedIds.items)
    (hobserved : libraryCall.sourceObservedAt.isSome = true) :
    (sent db (libraryEffects db (accumulate userId calls))).filter (·.ofLibrary mediaId) =
      [.library mediaId (decide (mediaId ∈ db.collection))] := by
  have hids := mem_libraryIds userId hcall hmedia
  obtain ⟨entry, hget, hsource⟩ := recorded_librarySourceIds userId hcall hmedia
  have hseen := isSome_libraryObservedAt userId hcall hmedia hobserved
  have hnonempty : (accumulate userId calls).libraryNewIds.items ≠ [] ∨
      (accumulate userId calls).libraryRemovedIds.items ≠ [] :=
    hids.imp List.ne_nil_of_mem List.ne_nil_of_mem
  rw [libraryEffects, if_pos hnonempty]
  simp only [sent, List.flatMap_cons, List.flatMap_nil, List.append_nil, Effect.changes,
    libraryChanges]
  rw [filter_map_of_nodup (((PySet.nodup _).union _).filter _) (List.mem_filter.mpr
    ⟨List.mem_union_iff.mpr hids, by simp [hseen, hget, List.ne_nil_of_mem hsource]⟩) fun _ ↦ rfl]
  have hdesired : (accumulate userId calls).libraryDesired = .empty := unreconciled_accumulate.2.1
  simp [hdesired, Database.collected]

end once

section delivery

variable (int : String → Option Int) (target : Option Target) (db : Database) (userId : Int)
variable (calls : List DeferCall)

theorem flush_sound {effects : List Effect}
    (h : flushPullCycle int target db (accumulate userId calls) = some effects) :
    ∀ effect ∈ effects, Sound target db calls effect := by
  intro effect heffect
  unfold flushPullCycle at h
  split at h
  · obtain rfl := Option.some.inj h
    simp only [List.mem_cons, List.not_mem_nil, or_false] at heffect
    obtain rfl | rfl | rfl | rfl := heffect <;> exact sound_of_changes_eq_nil rfl
  · obtain ⟨groups, hgroups, rfl⟩ := Option.map_eq_some_iff.mp h
    simp only [List.mem_append, List.mem_map, List.mem_singleton, pushBackEffects_accumulate,
      List.not_mem_nil, or_false] at heffect
    obtain ((((heffect | heffect) | heffect) | ⟨group, hgroup, rfl⟩) | rfl) | heffect := heffect
    · exact sound_watchEffects heffect
    · exact sound_removalEffects heffect
    · exact sound_libraryEffects heffect
    · exact sound_ratingGroups hgroups hgroup
    · exact sound_remainingChanges
    · split at heffect
      · simp only [List.mem_cons, List.not_mem_nil, or_false] at heffect
        obtain rfl | rfl := heffect <;> exact sound_of_changes_eq_nil rfl
      · exact absurd heffect List.not_mem_nil

theorem sent_append (effects effects' : List Effect) :
    sent db (effects ++ effects') = sent db effects ++ sent db effects' := List.flatMap_append

theorem filter_ratingGroups (groups : List (Exclusions × List (RatingKey × ℚ))) {p : Change → Bool}
    (hp : ∀ key score, p (.rating key score) = false) :
    (sent db (groups.map fun group ↦ .fanOutChanges ⟨[], group.2, [], [], []⟩ group.1)).filter p =
      [] := by
  refine filter_sent_eq_nil fun effect heffect change hchange ↦ ?_
  obtain ⟨group, -, rfl⟩ := List.mem_map.mp heffect
  simp only [Effect.changes, Changes.list, List.map_nil, List.nil_append, List.append_nil,
    List.mem_map] at hchange
  obtain ⟨_, -, rfl⟩ := hchange
  exact hp _ _

theorem sent_dispatches : sent db
    (if dispatchQueues target then [.dispatchStreamActions, .dispatchCloudActions] else []) = [] := by
  split <;> rfl

/-- The parts of a flush that send changes, one after the other. -/
theorem sent_flush {effects : List Effect}
    (h : flushPullCycle int target db (accumulate userId calls) = some effects)
    (htarget : target ≠ some .queues) :
    ∃ groups : List (Exclusions × List (RatingKey × ℚ)), sent db effects =
      sent db (watchEffects target db (accumulate userId calls)) ++
      sent db (removalEffects target db (accumulate userId calls)) ++
      sent db (libraryEffects db (accumulate userId calls)) ++
      sent db (groups.map fun group ↦ .fanOutChanges ⟨[], group.2, [], [], []⟩ group.1) ++
      (remainingChanges db (accumulate userId calls)).list := by
  rw [flushPullCycle, if_neg htarget] at h
  obtain ⟨groups, -, rfl⟩ := Option.map_eq_some_iff.mp h
  refine ⟨groups, ?_⟩
  simp only [pushBackEffects_accumulate, List.append_nil, sent_append, sent_dispatches]
  simp only [sent, List.flatMap_cons, List.flatMap_nil, List.append_nil, Effect.changes]

theorem flush_collection_once {effects : List Effect} {mediaId : Int} {call : FanOutCall}
    (h : flushPullCycle int target db (accumulate userId calls) = some effects)
    (htarget : target ≠ some .queues) (hcall : .fanOut call ∈ calls)
    (hmedia : mediaId ∈ call.newCollectedIds.items ∨ mediaId ∈ call.removedCollectedIds.items) :
    (sent db effects).filter (·.ofCollection mediaId) =
      [.collection mediaId (decide (mediaId ∈ db.collection))] := by
  obtain ⟨groups, hsent⟩ := sent_flush int target db userId calls h htarget
  have hchanged : mediaId ∈ changedCollectionIds (accumulate userId calls) :=
    mem_changedCollectionIds.mpr ⟨call, hcall, hmedia⟩
  rw [hsent]
  simp only [List.filter_append]
  rw [filter_sent_eq_nil fun effect heffect change hchange ↦
      (ofCollection_watchEffects _ (.inl heffect) change hchange).1,
    filter_sent_eq_nil fun effect heffect change hchange ↦
      (ofCollection_watchEffects _ (.inr heffect) change hchange).1,
    filter_sent_eq_nil fun effect heffect ↦ ofCollection_libraryEffects heffect,
    filter_ratingGroups db groups fun _ _ ↦ rfl, filter_remainingChanges hchanged]
  rfl

theorem flush_library_once {effects : List Effect} {mediaId : Int} {call : LibraryCall}
    (h : flushPullCycle int target db (accumulate userId calls) = some effects)
    (htarget : target ≠ some .queues) (hcall : .library call ∈ calls)
    (hmedia : mediaId ∈ call.newCollectedIds.items ∨ mediaId ∈ call.removedCollectedIds.items)
    (hobserved : call.sourceObservedAt.isSome = true) :
    (sent db effects).filter (·.ofLibrary mediaId) =
      [.library mediaId (decide (mediaId ∈ db.collection))] := by
  obtain ⟨groups, hsent⟩ := sent_flush int target db userId calls h htarget
  have hrest : (remainingChanges db (accumulate userId calls)).list.filter (·.ofLibrary mediaId) =
      [] := by
    rw [List.filter_eq_nil_iff]
    intro change hchange
    simp [ofLibrary_remainingChanges change hchange]
  rw [hsent]
  simp only [List.filter_append]
  rw [filter_sent_eq_nil fun effect heffect change hchange ↦
      (ofCollection_watchEffects _ (.inl heffect) change hchange).2,
    filter_sent_eq_nil fun effect heffect change hchange ↦
      (ofCollection_watchEffects _ (.inr heffect) change hchange).2,
    filter_libraryEffects hcall hmedia hobserved, filter_ratingGroups db groups fun _ _ ↦ rfl, hrest]
  rfl

/-- A delayed flush delivers what the database holds when it runs: every change that it sends is
current and kept from its origins, no rating is both sent and removed, and each changed title is
sent once with its membership unless only the queues are handed off. -/
theorem flush_delivers_current :
    ∃ effects, flushPullCycle int target db (accumulate userId calls) = some effects ∧
      (∀ effect ∈ effects, Sound target db calls effect) ∧
      (∀ key score, Change.rating key score ∈ sent db effects →
        Change.ratingRemoval key ∉ sent db effects) ∧
      (target ≠ some .queues → ∀ mediaId,
        (∀ call, .fanOut call ∈ calls →
          mediaId ∈ call.newCollectedIds.items ∨ mediaId ∈ call.removedCollectedIds.items →
          (sent db effects).filter (·.ofCollection mediaId) =
            [.collection mediaId (decide (mediaId ∈ db.collection))]) ∧
        ∀ call, .library call ∈ calls →
          mediaId ∈ call.newCollectedIds.items ∨ mediaId ∈ call.removedCollectedIds.items →
          call.sourceObservedAt.isSome = true →
          (sent db effects).filter (·.ofLibrary mediaId) =
            [.library mediaId (decide (mediaId ∈ db.collection))]) := by
  obtain ⟨effects, heffects⟩ :
      ∃ effects, flushPullCycle int target db (accumulate userId calls) = some effects := by
    unfold flushPullCycle
    split
    · exact ⟨_, rfl⟩
    · rw [ratingGroups_of_unreconciled unreconciled_accumulate]
      exact ⟨_, rfl⟩
  have hsound := flush_sound int target db userId calls heffects
  have hcurrent : ∀ change ∈ sent db effects, change.Current db := by
    intro change hchange
    obtain ⟨effect, heffect, hmem⟩ := List.mem_flatMap.mp hchange
    exact (hsound effect heffect change hmem).1
  refine ⟨effects, heffects, hsound, fun key score hsent hremoved ↦ ?_, fun htarget mediaId ↦
    ⟨fun call hcall hmedia ↦ ?_, fun call hcall hmedia hobserved ↦ ?_⟩⟩
  · have hrated := hcurrent _ hsent
    have hunrated := hcurrent _ hremoved
    simp only [Change.Current] at hrated hunrated
    simp [hrated] at hunrated
  · exact flush_collection_once int target db userId calls heffects htarget hcall hmedia
  · exact flush_library_once int target db userId calls heffects htarget hcall hmedia hobserved

end delivery

end AnyList.Persistence.CycleFlush
