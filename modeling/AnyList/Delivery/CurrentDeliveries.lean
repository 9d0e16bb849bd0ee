import AnyList.Delivery.LibraryIntents
import AnyList.Library.LocalFold
import AnyList.Reconciliation.UnchangedRatings

namespace AnyList.Delivery.LibraryIntents

open AnyList.Library AnyList.Library.Members AnyList.Timestamps
open AnyList.Reconciliation AnyList.Reconciliation.Resolve AnyList.Reconciliation.Sources

/-- The pending deliveries to some connections carry a value. -/
def Carry (deliveries : Dict ℕ LibraryDelivery) (ids : ℕ → Prop) (desired : Bool) : Prop :=
  ∀ id row, deliveries.get id = some row → row.state = .pending → ids id → row.desired = desired

/-- No pending delivery carries a superseded decision. -/
def Current (s : Account) : Prop :=
  ∀ mediaId intent, s.intents mediaId = some intent →
    Carry intent.deliveries (fun _ ↦ True) intent.desired

section choose

variable {deliveries : Dict ℕ LibraryDelivery} {changed desired : Bool} {now : Int}

theorem carry_requeue {target : ℕ} {remaining : List ℕ}
    (h : Carry deliveries (fun id ↦ id ∉ target :: remaining) desired) :
    Carry (requeue changed desired now deliveries target) (fun id ↦ id ∉ remaining) desired := by
  have hset : Carry (deliveries.set target (queued desired now)) (fun id ↦ id ∉ remaining)
      desired := by
    intro id row hget hp hid
    rw [Dict.get_set] at hget
    split at hget
    · obtain rfl := Option.some.inj hget
      rfl
    · rename_i hne
      exact h id row hget hp (by simp [Ne.symm hne, hid])
  unfold requeue
  split
  · exact hset
  · rename_i row hrow
    split
    · exact hset
    · rename_i hkeep
      intro id row' hget hp hid
      by_cases hne : id = target
      · subst hne
        obtain rfl := Option.some.inj (hrow.symm.trans hget)
        exact not_not.mp fun hd ↦ hkeep (.inr (.inl hd))
      · exact h id row' hget hp (by simp [hne, hid])

theorem carry_requeueAll (targets : List ℕ)
    (h : Carry deliveries (fun id ↦ id ∉ targets) desired) :
    Carry (targets.foldl (requeue changed desired now) deliveries) (fun _ ↦ True) desired := by
  induction targets generalizing deliveries with
  | nil => exact fun id row hget hp _ ↦ h id row hget hp List.not_mem_nil
  | cons target targets ih => exact ih (carry_requeue h)

theorem carry_retarget (targets : List ℕ) (changed : Bool) (now : Int)
    (deliveries : Dict ℕ LibraryDelivery) :
    Carry (retarget targets changed desired now deliveries) (fun _ ↦ True) desired := by
  refine carry_requeueAll targets fun id row hget hp hid ↦ ?_
  rw [Dict.get_mapKeyed] at hget
  obtain ⟨row', -, rfl⟩ := Option.map_eq_some_iff.mp hget
  split at hp
  · simp at hp
  · rename_i hkeep
    exact absurd ⟨hid, hp⟩ hkeep

theorem current_choose {s s' : Account} {mediaId : ℕ} (h : Current s)
    (hs : setLibraryIntent s now mediaId desired = .ok s') : Current s' := by
  unfold setLibraryIntent at hs
  split at hs
  · obtain rfl := Except.ok.inj hs
    intro id intent hintent
    dsimp only [Account.setIntent] at hintent
    by_cases hid : id = mediaId
    · subst hid
      rw [Function.update_self] at hintent
      obtain rfl := Option.some.inj hintent
      exact carry_retarget s.pushTargets _ now _
    · rw [Function.update_of_ne hid] at hintent
      exact h id intent hintent
  · simp at hs

end choose

section cycle

variable (cycle : LibraryCycle)

/-- What a title's decision reads of the account, and the intent it writes. -/
def libraryView (mediaId : ℕ) (state : Account × List AcceptedChange) :
    List Connection × List (ℕ × ℕ) × Option LibraryIntent :=
  (state.1.connections, state.1.files, state.1.intents mediaId)

theorem decision_congr {s s' : Account} {mediaId : ℕ} (hc : s.connections = s'.connections)
    (hf : s.files = s'.files) (hi : s.intents mediaId = s'.intents mediaId) :
    cycle.decision s mediaId = cycle.decision s' mediaId := by
  simp only [LibraryCycle.decision, LibraryCycle.observations, LibraryCycle.changed,
    LibraryCycle.reads, Account.findConnection, hc, hf, hi]

/-- The intent that the cycle's decision leaves for a title. -/
def decidedIntent (s : Account) (mediaId : ℕ) : Option LibraryIntent :=
  match cycle.decided s mediaId with
  | none => s.intents mediaId
  | some desired => some
      ⟨desired, cycle.startedAt, ((s.intents mediaId).map (·.deliveries)).getD .empty⟩

theorem libraryView_recordDecision_self (state : Account × List AcceptedChange) (mediaId : ℕ) :
    libraryView mediaId (recordDecision cycle state mediaId) =
      (state.1.connections, state.1.files, decidedIntent cycle state.1 mediaId) := by
  obtain ⟨s, accepted⟩ := state
  unfold recordDecision decidedIntent
  by_cases hconflict : (cycle.decision s mediaId).conflict
  · have hnone : cycle.decided s mediaId = none := by simp [LibraryCycle.decided, hconflict]
    simp [hconflict, hnone, libraryView]
  · cases hd : cycle.decided s mediaId with
    | none => simp [hconflict, hd, libraryView]
    | some desired => simp [hconflict, hd, libraryView, Account.setIntent]

theorem libraryView_recordDecision_other (state : Account × List AcceptedChange)
    {mediaId other : ℕ} (h : other ≠ mediaId) :
    libraryView mediaId (recordDecision cycle state other) = libraryView mediaId state := by
  obtain ⟨s, accepted⟩ := state
  unfold recordDecision
  by_cases hconflict : (cycle.decision s other).conflict
  · simp [hconflict, libraryView]
  · cases hd : cycle.decided s other with
    | none => simp [hconflict, hd, libraryView]
    | some desired =>
      simp [hconflict, hd, libraryView, Account.setIntent, Function.update_of_ne (Ne.symm h)]

theorem decided_of_notMem {s : Account} {mediaId : ℕ} (h : mediaId ∉ cycle.titles s) :
    cycle.decided s mediaId = none := by
  have hnone : cycle.observations s mediaId = [] := by
    have hfilter : ((cycle.changed s).filter fun file ↦ decide (file.2 = mediaId)) = [] := by
      refine List.filter_eq_nil_iff.mpr fun file hfile hm ↦ h (mem_distinct.mpr ?_)
      exact List.mem_map.mpr ⟨file, hfile, of_decide_eq_true hm⟩
    simp [LibraryCycle.observations, hfilter, sortBySource]
  have hsources : (cycle.decision s mediaId).sources = ∅ :=
    (Ratings.resolve_of_unchanged (by simp [hnone]) _ _ _ _).2.1
  simp [LibraryCycle.decided, hsources]

theorem intents_library (s : Account) (mediaId : ℕ) :
    (library cycle s).1.intents mediaId = decidedIntent cycle s mediaId := by
  have hview := LocalFold.foldl_local (f := recordDecision cycle) (libraryView mediaId) mediaId
    (fun state other h ↦ libraryView_recordDecision_other cycle state h)
    (fun state state' h ↦ by
      obtain ⟨hc, hrest⟩ := Prod.mk.inj h
      obtain ⟨hf, hi⟩ := Prod.mk.inj hrest
      simp only [libraryView_recordDecision_self, decidedIntent, LibraryCycle.decided,
        decision_congr cycle hc hf hi, hc, hf, hi])
    (nodup_distinct ((cycle.changed s).map Prod.snd)) (s, [])
  have hintents : (library cycle s).1.intents mediaId =
      (libraryView mediaId (library cycle s)).2.2 := rfl
  rw [hintents]
  unfold library LibraryCycle.titles
  rw [hview]
  split
  · rw [libraryView_recordDecision_self]
  · rename_i hnot
    rw [decidedIntent, decided_of_notMem cycle hnot]
    rfl

end cycle

section queue

variable (changes : LibraryChanges) (now : Int)

def queueView (mediaId : ℕ) (s : Account) :
    List Connection × (List (ℕ × ℕ) × List ℕ × (ℕ → Bool)) × Option LibraryIntent :=
  (s.connections, (s.files, s.anchors, s.otherFiles), s.intents mediaId)

/-- The intent that an accepted change leaves for its title. -/
def queuedIntent (s : Account) (mediaId : ℕ) : Option LibraryIntent :=
  match changes.accepted s mediaId with
  | none => s.intents mediaId
  | some observedAt => some ⟨changes.desiredOf s mediaId, observedAt,
      settleAndQueue (changes.sourceIds mediaId) (changes.targets s mediaId)
        (changes.desiredOf s mediaId) now (((s.intents mediaId).map (·.deliveries)).getD .empty)⟩

theorem queueView_self (s : Account) (mediaId : ℕ) :
    queueView mediaId (queueChange changes now s mediaId) =
      (s.connections, (s.files, s.anchors, s.otherFiles), queuedIntent changes now s mediaId) := by
  unfold queueChange queuedIntent
  cases changes.accepted s mediaId <;> simp [queueView, Account.setIntent]

theorem queueView_other (s : Account) {mediaId other : ℕ} (h : other ≠ mediaId) :
    queueView mediaId (queueChange changes now s other) = queueView mediaId s := by
  unfold queueChange
  cases changes.accepted s other <;>
    simp [queueView, Account.setIntent, Function.update_of_ne (Ne.symm h)]

theorem queuedIntent_congr {s s' : Account} {mediaId : ℕ}
    (h : queueView mediaId s = queueView mediaId s') :
    queuedIntent changes now s mediaId = queuedIntent changes now s' mediaId := by
  simp only [queueView, Prod.mk.injEq] at h
  obtain ⟨hc, ⟨hf, ha, ho⟩, hi⟩ := h
  simp only [queuedIntent, LibraryChanges.accepted, LibraryChanges.desiredOf,
    LibraryChanges.targets, Account.pushTargets, Account.inCollection, hc, hf, ha, ho, hi]

theorem intents_queue (s : Account) (mediaId : ℕ) :
    (queueProviderLibraryChanges changes now s).intents mediaId =
      if mediaId ∈ changes.changed then queuedIntent changes now s mediaId
      else s.intents mediaId := by
  have hview := LocalFold.foldl_local (f := queueChange changes now) (queueView mediaId) mediaId
    (fun s other h ↦ queueView_other changes now s h)
    (fun s s' h ↦ by
      have hsame := h
      simp only [queueView, Prod.mk.injEq] at hsame
      obtain ⟨hc, ⟨hf, ha, ho⟩, -⟩ := hsame
      simp only [queueView_self, queuedIntent_congr changes now h, hc, hf, ha, ho])
    (nodup_distinct changes.changed) s
  have hintents : (queueProviderLibraryChanges changes now s).intents mediaId =
      (queueView mediaId (queueProviderLibraryChanges changes now s)).2.2 := rfl
  rw [hintents]
  unfold queueProviderLibraryChanges
  rw [hview]
  simp only [mem_distinct]
  split
  · rw [queueView_self]
  · rfl

theorem get_setAll_map {ids : List ℕ} (row : LibraryDelivery)
    (deliveries : Dict ℕ LibraryDelivery) (id : ℕ) :
    (deliveries.setAll (ids.map fun id ↦ (id, row))).get id =
      if id ∈ ids then some row else deliveries.get id := by
  by_cases h : id ∈ ids
  · have hkey : id ∈ (ids.map fun id ↦ (id, row)).map Prod.fst := by simpa using h
    obtain ⟨row', hmem, hget⟩ := Dict.exists_get_setAll hkey deliveries
    obtain ⟨id', -, heq⟩ := List.mem_map.mp hmem
    rw [hget, if_pos h, ← (Prod.mk.inj heq).2]
  · rw [if_neg h]
    exact Dict.get_setAll_of_notMem (by simpa using h) deliveries

/-- Only the pending rows of neither a source nor a target keep what they carried. -/
theorem carry_settleAndQueue {sources targets : List ℕ} {desired : Bool}
    {deliveries : Dict ℕ LibraryDelivery} :
    Carry (settleAndQueue sources targets desired now deliveries) (fun _ ↦ True) desired ↔
      Carry deliveries (fun id ↦ id ∉ sources ∧ id ∉ targets) desired := by
  have hget (id : ℕ) : (settleAndQueue sources targets desired now deliveries).get id =
      if id ∈ targets then some (queued desired now)
      else if id ∈ sources then some (settled desired now) else deliveries.get id := by
    unfold settleAndQueue
    rw [get_setAll_map, get_setAll_map]
  constructor
  · intro h id row hrow hp ⟨hs, ht⟩
    exact h id row (by rw [hget, if_neg ht, if_neg hs, hrow]) hp trivial
  · intro h id row hrow hp _
    rw [hget] at hrow
    split at hrow
    · obtain rfl := Option.some.inj hrow
      rfl
    · rename_i ht
      split at hrow
      · obtain rfl := Option.some.inj hrow
        simp [settled] at hp
      · rename_i hs
        exact h id row hrow hp ⟨hs, ht⟩

end queue

section dispatch

variable (s : Account) (providers : Providers) (now : Int)

theorem dispatchRow_pending {id : ℕ} {row : LibraryDelivery}
    (h : (dispatchRow s providers now id row).state = .pending) : row.state = .pending := by
  unfold dispatchRow at h
  split at h
  · exact h
  · rename_i hp
    exact not_not.mp hp

theorem desired_dispatchRow (id : ℕ) (row : LibraryDelivery) :
    (dispatchRow s providers now id row).desired = row.desired := by
  unfold dispatchRow
  split
  · rfl
  · split
    · rfl
    · split
      · dsimp only
        split <;> rfl
      · rfl

theorem carry_dispatch {deliveries : Dict ℕ LibraryDelivery} {ids : ℕ → Prop} {desired : Bool}
    (h : Carry deliveries ids desired) :
    Carry (deliveries.mapKeyed (dispatchRow s providers now)) ids desired := by
  intro id row hget hp hid
  rw [Dict.get_mapKeyed] at hget
  obtain ⟨row', hrow', rfl⟩ := Option.map_eq_some_iff.mp hget
  rw [desired_dispatchRow]
  exact h id row' hrow' (dispatchRow_pending s providers now hp) hid

/-- A dispatch from a current state writes only current decisions. -/
theorem desired_of_mem_dispatchWrites (h : Current s) {mediaId : ℕ} {write : Write}
    (hw : write ∈ dispatchWrites s providers mediaId) :
    ∃ intent, s.intents write.mediaId = some intent ∧ write.desired = intent.desired := by
  unfold dispatchWrites at hw
  split at hw
  · simp at hw
  · rename_i intent hintent
    obtain ⟨⟨id, row⟩, hrow, rfl⟩ := List.mem_map.mp hw
    refine ⟨intent, hintent, ?_⟩
    unfold sentRows at hrow
    split at hrow
    · simp at hrow
    · obtain ⟨hmem, hp⟩ := List.mem_filter.mp hrow
      simp only [Bool.and_eq_true, decide_eq_true_eq] at hp
      exact h mediaId intent hintent id row (Dict.mem_entries.mp hmem) hp.1.1 trivial

end dispatch

/-- A cycle decides only what the title's pending deliveries already carry, and a queued
change reaches all of its title's pending deliveries that carry something else. -/
def StepOk (s : Account) : Step → Prop
  | .cycle cycle => ∀ mediaId desired intent, cycle.decided s mediaId = some desired →
      s.intents mediaId = some intent → Carry intent.deliveries (fun _ ↦ True) desired
  | .queue changes _ => ∀ mediaId ∈ changes.changed, ∀ observedAt intent,
      changes.accepted s mediaId = some observedAt → s.intents mediaId = some intent →
      Carry intent.deliveries
        (fun id ↦ id ∉ changes.sourceIds mediaId ∧ id ∉ changes.targets s mediaId)
        (changes.desiredOf s mediaId)
  | _ => True

theorem carry_empty (ids : ℕ → Prop) (desired : Bool) : Carry .empty ids desired := by
  intro id row hget
  simp at hget

theorem current_cycle_iff {s : Account} (h : Current s) (cycle : LibraryCycle) :
    Current (library cycle s).1 ↔ StepOk s (.cycle cycle) := by
  constructor
  · intro hafter mediaId desired intent hd hintent
    have hset := intents_library cycle s mediaId
    rw [decidedIntent, hd, hintent] at hset
    exact hafter mediaId _ hset
  · intro hok mediaId intent hintent
    rw [intents_library, decidedIntent] at hintent
    cases hd : cycle.decided s mediaId with
    | none =>
      rw [hd] at hintent
      exact h mediaId intent hintent
    | some desired =>
      rw [hd] at hintent
      obtain rfl := Option.some.inj hintent
      cases hi : s.intents mediaId with
      | none => exact carry_empty _ _
      | some intent => exact hok mediaId desired intent hd hi

theorem current_queue_iff {s : Account} (h : Current s) (changes : LibraryChanges) (now : Int) :
    Current (queueProviderLibraryChanges changes now s) ↔ StepOk s (.queue changes now) := by
  constructor
  · intro hafter mediaId hmem observedAt intent ha hintent
    have hset := intents_queue changes now s mediaId
    rw [if_pos hmem, queuedIntent, ha, hintent] at hset
    exact (carry_settleAndQueue now).mp (hafter mediaId _ hset)
  · intro hok mediaId intent hintent
    rw [intents_queue] at hintent
    split at hintent
    · rename_i hmem
      rw [queuedIntent] at hintent
      cases ha : changes.accepted s mediaId with
      | none =>
        rw [ha] at hintent
        exact h mediaId intent hintent
      | some observedAt =>
        rw [ha] at hintent
        obtain rfl := Option.some.inj hintent
        refine (carry_settleAndQueue now).mpr ?_
        cases hi : s.intents mediaId with
        | none => exact carry_empty _ _
        | some intent => exact hok mediaId hmem observedAt intent ha hi
    · exact h mediaId intent hintent

/-- From a current state a step leads to a current one exactly when it meets the condition. -/
theorem current_step_iff {s : Account} (h : Current s) (st : Step) :
    Current (step s st) ↔ StepOk s st := by
  cases st with
  | choose now mediaId desired =>
    refine iff_of_true ?_ trivial
    cases hs : setLibraryIntent s now mediaId desired with
    | error error => simpa [step, hs, Except.toOption] using h
    | ok s' => simpa [step, hs, Except.toOption] using current_choose h hs
  | cycle cycle => exact current_cycle_iff h cycle
  | queue changes now => exact current_queue_iff h changes now
  | dispatch providers now mediaId =>
    refine iff_of_true ?_ trivial
    simp only [step, dispatchLibraryDeliveries]
    split
    · exact h
    · rename_i intent hintent
      intro id other hother
      by_cases hid : id = mediaId
      · subst hid
        dsimp only [Account.setIntent] at hother
        rw [Function.update_self] at hother
        obtain rfl := Option.some.inj hother
        exact carry_dispatch s providers now (h id intent hintent)
      · dsimp only [Account.setIntent] at hother
        rw [Function.update_of_ne hid] at hother
        exact h id other hother
  | environment connections approved files => exact iff_of_true h trivial

def RunOk : Account → List Step → Prop
  | _, [] => True
  | s, st :: steps => StepOk s st ∧ RunOk (step s st) steps

theorem current_run {s : Account} (h : Current s) {steps : List Step} (hok : RunOk s steps) :
    Current (run s steps) := by
  induction steps generalizing s with
  | nil => exact h
  | cons st steps ih => exact ih ((current_step_iff h st).mpr hok.1) hok.2

/-- An unapproved connection that holds title 7, and one that receives library changes. -/
def twoConnections : Account where
  connections := [⟨1, true, false, true, 0⟩, ⟨2, true, true, false, 0⟩]
  isTitle _ := true
  approved _ := false
  intents _ := none
  files := [(1, 7)]
  anchors := []
  otherFiles _ := false
  reviews := []

def reachable (attempt : Attempt) : Providers := ⟨.ok "tt0000007", fun _ ↦ attempt⟩

theorem current_twoConnections : Current twoConnections := by
  intro mediaId intent hintent
  exact absurd hintent (by simp [twoConnections])

def retriedSteps : List Step :=
  [.choose 1000 7 true, .dispatch (reachable (.failed "timeout")) 2000 7, .choose 3000 7 false]

/-- The removal that the unapproved connection reported, as the next cycle sees it. -/
def removalCycle : LibraryCycle where
  startedAt := 5000000
  before := [(1, 7)]
  localBefore _ := none
  observed _ := some (.naive 3000000)
  versions _ := some 0

end AnyList.Delivery.LibraryIntents
