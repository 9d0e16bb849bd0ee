import AnyList.Delivery.WaitingTombstones

namespace AnyList.Delivery.DeletionResets

open AnyList.Library
open AnyList.Reconciliation.Watches (Status)
open AnyList.Streaming (Connection ConnectionType Target TrackingDeletion)

/-- What holds of every state a run reaches. -/
structure Steady (s : State) : Prop where
  waits : Waits s
  placed : Placed s

theorem Sound.steady {env : Dispatch} {s : State} (h : Sound env s) : Steady s :=
  ⟨h.waits, h.placed⟩

section remove

variable {s : State} {m : Media} {now : Int}

theorem mem_titleIds_self (cat : Catalogue) (m : Media) : m.id ∈ cat.titleIds m := List.mem_cons_self

/-- Deleting a title reaches no other title. -/
theorem eq_of_mem_titleIds {cat : Catalogue} {title : Media} (htitle : title ∈ cat.media)
    (hepisode : title.mediaType ≠ .episode) (h : title.id ∈ cat.titleIds m) : title.id = m.id := by
  obtain heq | h := List.mem_cons.mp h
  · exact heq
  · obtain ⟨row, hrow, hid⟩ := List.mem_map.mp h
    obtain ⟨hrow, hshow⟩ := List.mem_filter.mp hrow
    obtain rfl : row = title := List.inj_on_of_nodup_map cat.ids hrow htitle hid
    refine absurd (cat.episodes row hrow fun hnone ↦ ?_) hepisode
    simp [hnone] at hshow

theorem hasReset_queueResets {mediaId connectionId : ℕ} {p : ActionState → Prop}
    (hp : p .pending) : HasReset (queueResets s m now).1 mediaId connectionId p ↔
      HasReset s mediaId connectionId p ∨
        m.id = mediaId ∧ .connection connectionId ∈ (queueResets s m now).2 := by
  refine (Table.exists_mem_insertAll (p := fun row ↦
    row.isReset mediaId connectionId = true ∧ p row.state) s.actions).trans (or_congr_right ?_)
  simp only [queueResets, List.mem_flatMap, List.mem_filter, List.mem_map, decide_eq_true_eq,
    Target.connection.injEq]
  constructor
  · rintro ⟨row, ⟨conn, ⟨htarget, hkeys⟩, key, -, rfl⟩, hreset, -⟩
    obtain ⟨-, hm, hc⟩ := isReset_iff.mp hreset
    exact ⟨hm, conn, ⟨htarget, hkeys⟩, hc⟩
  · rintro ⟨hm, conn, ⟨htarget, hkeys⟩, hc⟩
    obtain ⟨key, hkey⟩ := List.exists_mem_of_ne_nil _ hkeys
    exact ⟨resetAction conn m now key, ⟨conn, ⟨htarget, hkeys⟩, key, hkey, rfl⟩,
      isReset_iff.mpr ⟨rfl, hm, hc⟩, hp⟩

theorem hasReset_wipe {ids : List ℕ} {mediaId connectionId : ℕ} {p : ActionState → Prop} :
    HasReset (wipe s ids) mediaId connectionId p ↔
      mediaId ∉ ids ∧ HasReset s mediaId connectionId p := by
  constructor
  · rintro ⟨row, hrow, hreset, hp⟩
    obtain ⟨hrow, hkeep⟩ := List.mem_filter.mp hrow
    obtain ⟨-, hm, -⟩ := isReset_iff.mp hreset
    exact ⟨by simpa [hm] using hkeep, row, hrow, hreset, hp⟩
  · rintro ⟨hids, row, hrow, hreset, hp⟩
    obtain ⟨-, hm, -⟩ := isReset_iff.mp hreset
    exact ⟨row, List.mem_filter.mpr ⟨hrow, by simpa [hm] using hids⟩, hreset, hp⟩

theorem mem_mark {marker d : TrackingDeletion} (h : d ∈ (mark s marker).deletions) :
    d = marker ∨ d ∈ s.deletions ∧ d.mediaId ≠ marker.mediaId := by
  unfold mark at h
  dsimp only at h
  split at h
  · obtain ⟨old, hold, rfl⟩ := List.mem_map.mp h
    split
    · exact .inl rfl
    · rename_i hne
      exact .inr ⟨hold, hne⟩
  · rename_i hnone
    obtain hold | hnew := List.mem_append.mp h
    · refine .inr ⟨hold, fun heq ↦ hnone (isSome_deletion_iff.mpr ⟨d, hold, heq⟩)⟩
    · exact .inl (List.mem_singleton.mp hnew)

theorem steady_removeTitle (h : Steady s) (hm : m ∈ s.catalogue.media)
    (htype : m.mediaType ≠ .episode) (cloud : List String) :
    Steady (removeTitle s m now cloud) := by
  let queued := queueResets (wipe s (s.catalogue.titleIds m)) m now
  let marker : TrackingDeletion := ⟨m.id, now, queued.2 ++ cloud.map Target.provider⟩
  have hsteady : Steady (mark queued.1 marker) := by
    have hother {d : TrackingDeletion} (hd : d ∈ s.deletions) (hne : d.mediaId ≠ m.id) :
        d.mediaId ∉ s.catalogue.titleIds m := by
      obtain ⟨-, title, htitle, hid, hepisode⟩ := h.placed d hd
      intro hmem
      rw [← hid] at hmem
      exact hne (hid.symm.trans (eq_of_mem_titleIds htitle hepisode hmem))
    constructor
    · intro d hd connectionId
      have hlive : LiveReset (mark queued.1 marker) d.mediaId connectionId ↔
          (d.mediaId ∉ s.catalogue.titleIds m ∧ LiveReset s d.mediaId connectionId) ∨
            m.id = d.mediaId ∧ .connection connectionId ∈ queued.2 :=
        (hasReset_queueResets (.inl rfl)).trans (or_congr_left hasReset_wipe)
      rw [hlive]
      obtain rfl | ⟨hold, hne⟩ := mem_mark hd
      · simp [marker, mem_titleIds_self]
      · have hne' : m.id ≠ d.mediaId := Ne.symm hne
        simp only [hother hold hne, not_false_iff, true_and, hne', false_and, or_false]
        exact h.waits d hold connectionId
    · intro d hd
      change (s.entries.filterKeys _).get d.mediaId = none ∧ ∃ title ∈ s.catalogue.media, _
      rw [Dict.get_filterKeys]
      obtain rfl | ⟨hold, hne⟩ := mem_mark hd
      · exact ⟨by simp [marker, mem_titleIds_self], m, hm, rfl, htype⟩
      · obtain ⟨hentry, htitle⟩ := h.placed d hold
        exact ⟨by simp [hentry], htitle⟩
  change Steady (if marker.pendingConnections = [] then mark queued.1 marker else _)
  split
  · exact hsteady
  · exact ⟨hsteady.waits, hsteady.placed⟩

theorem steady_removeEntry {s' : State} {confirmed : Bool} {mediaId : ℕ} {cloud : List String}
    (h : Steady s) (hs : removeEntry s confirmed mediaId now cloud = .ok s') : Steady s' := by
  unfold removeEntry at hs
  split at hs
  · simp at hs
  · split at hs
    · simp at hs
    · rename_i m hfind
      split at hs
      · simp at hs
      · rename_i htype
        obtain rfl := Except.ok.inj hs
        refine steady_removeTitle h (List.mem_of_find?_eq_some hfind) (fun heq ↦ ?_) cloud
        simp [heq] at htype

end remove

section restore

variable {s : State}

theorem steady_forget (h : Steady s) (p : ℕ → Bool) : Steady (forget s p) :=
  ⟨fun marker hmem ↦ h.waits marker (List.mem_of_mem_filter hmem),
    fun marker hmem ↦ h.placed marker (List.mem_of_mem_filter hmem)⟩

theorem steady_setEntry (h : Steady s) {mediaId : ℕ} (status : Status)
    (hnot : ¬ Tombstoned s mediaId) :
    Steady { s with entries := s.entries.set mediaId status } := by
  refine ⟨h.waits, fun marker hmem ↦ ?_⟩
  have hne : mediaId ≠ marker.mediaId := fun heq ↦ hnot ⟨marker, hmem, heq.symm⟩
  rw [Dict.get_set_of_ne _ _ hne]
  exact h.placed marker hmem

theorem steady_saveEntry (h : Steady s) (mediaId : ℕ) (status : Status) :
    Steady (saveEntry s mediaId status) := by
  unfold saveEntry
  dsimp only
  split
  · refine steady_setEntry (steady_forget h _) status ?_
    rintro ⟨marker, hmem, rfl⟩
    simpa using (List.mem_filter.mp hmem).2
  · rename_i hentry
    refine steady_setEntry h status ?_
    rintro ⟨marker, hmem, rfl⟩
    exact hentry (h.placed marker hmem).1

theorem steady_importEntry (h : Steady s) (mediaId : ℕ) (status : Status) :
    Steady (importEntry s mediaId status) := by
  unfold importEntry
  split
  · exact h
  · rename_i hnone
    exact steady_setEntry h status (mt isSome_deletion_iff.mpr hnone)

end restore

/-- No dispatch delivers anything: for the operations that attempt no delivery. -/
def idle : Dispatch := ⟨true, fun _ ↦ false, fun _ ↦ false, fun _ ↦ .failed ""⟩

theorem clean_idle (s : State) : Clean idle s := fun _ _ _ _ _ _ _ hout ↦ by simp [idle] at hout

theorem steady_updateConnection {s : State} (h : Steady s) (id : ℕ)
    (pushWatched pushPlayback : Bool) : Steady (updateConnection s id pushWatched pushPlayback) := by
  unfold updateConnection
  extract_lets s'
  have hs' : Steady s' := ⟨h.waits, h.placed⟩
  split
  · exact (sound_cleanup ⟨hs'.waits, hs'.placed, clean_idle s'⟩).steady
  · exact hs'

section clear

variable {s : State} {connectionId : ℕ} {scope : Scope}

/-- The state that clearing a connection leaves of a queued reset. -/
def frozen (connectionId : ℕ) (row : StreamAction) : ActionState :=
  if row.connectionId = connectionId ∧ row.state = .pending then .cleared else row.state

theorem hasReset_freeze (hscope : (scope.watched || scope.playback) = true) {mediaId id : ℕ}
    {p : ActionState → Prop} : HasReset (freezeOutboundWork s connectionId scope) mediaId id p ↔
      ∃ row ∈ s.actions.rows, row.2.isReset mediaId id = true ∧ p (frozen connectionId row.2) := by
  rw [freezeOutboundWork, if_pos hscope]
  refine (Table.exists_mem_modify (p := fun row : StreamAction ↦
    row.isReset mediaId id = true ∧ p row.state)).trans (exists_congr fun row ↦ and_congr_right fun _ ↦ ?_)
  by_cases hreset : row.2.action = .reset
  · simp only [hreset, or_true, and_true, frozen]
    split <;> simp [StreamAction.isReset, hreset]
  · split <;> simp [StreamAction.isReset, hreset]

theorem live_freeze_self (hscope : (scope.watched || scope.playback) = true) {mediaId : ℕ} :
    LiveReset (freezeOutboundWork s connectionId scope) mediaId connectionId ↔
      HasReset s mediaId connectionId (· = .conflict) := by
  refine (hasReset_freeze hscope).trans (exists_congr fun row ↦ and_congr_right fun _ ↦
    and_congr_right fun hreset ↦ ?_)
  obtain ⟨-, -, hc⟩ := isReset_iff.mp hreset
  simp only [frozen, hc, true_and]
  cases row.2.state <;> simp [IsLive]

theorem live_freeze_other (hscope : (scope.watched || scope.playback) = true) {mediaId id : ℕ}
    (hne : id ≠ connectionId) :
    LiveReset (freezeOutboundWork s connectionId scope) mediaId id ↔ LiveReset s mediaId id := by
  refine (hasReset_freeze hscope).trans (exists_congr fun row ↦ and_congr_right fun _ ↦
    and_congr_right fun hreset ↦ ?_)
  obtain ⟨-, -, hc⟩ := isReset_iff.mp hreset
  simp [frozen, hc, hne]

theorem live_iff {mediaId id : ℕ} : LiveReset s mediaId id ↔
    HasReset s mediaId id (· = .pending) ∨ HasReset s mediaId id (· = .conflict) := by
  simp only [LiveReset, HasReset, IsLive, and_or_left, exists_or]

/-- Clearing a connection keeps its tombstones in step exactly when each of its queued resets
stands beside a conflict. -/
theorem waits_freeze_iff (h : Waits s) (hscope : (scope.watched || scope.playback) = true) :
    Waits (freezeOutboundWork s connectionId scope) ↔ ∀ marker ∈ s.deletions,
      HasReset s marker.mediaId connectionId (· = .pending) →
        HasReset s marker.mediaId connectionId (· = .conflict) := by
  have hdeletions : (freezeOutboundWork s connectionId scope).deletions = s.deletions := by
    rw [freezeOutboundWork, if_pos hscope]
  unfold Waits
  rw [hdeletions]
  constructor
  · intro hw marker hmem hpending
    rw [← live_freeze_self hscope, ← hw marker hmem, h marker hmem, live_iff]
    exact .inl hpending
  · intro hc marker hmem id
    rw [h marker hmem id]
    by_cases hne : id = connectionId
    · subst hne
      rw [live_freeze_self hscope, live_iff, or_iff_right_of_imp (hc marker hmem)]
    · rw [live_freeze_other hscope hne]

end clear

section resolve

variable {s : State} {choice : Choice} {now : Int} {event : SyncReview} {connectionId : ℕ}

theorem isReset_resolveReset (row : StreamAction) (mediaId id : ℕ) :
    (resolveReset choice now row).isReset mediaId id = row.isReset mediaId id := by
  unfold resolveReset
  split <;> rfl

theorem live_resolveResets {mediaId id : ℕ} :
    LiveReset (resolveResets s choice now event) mediaId id ↔
      HasReset s mediaId id (· = .pending) ∨ HasReset s mediaId id (· = .conflict) ∧
        (choice = .confirm ∨ mediaId ≠ event.mediaId ∨ some id ≠ event.connectionId) := by
  refine (Table.exists_mem_modify (p := fun row : StreamAction ↦
    row.isReset mediaId id = true ∧ IsLive row.state)).trans ?_
  simp only [HasReset, exists_and_right.symm, ← exists_or]
  refine exists_congr fun row ↦ ?_
  by_cases hreset : row.2.isReset mediaId id = true
  · obtain ⟨ha, hm, hc⟩ := isReset_iff.mp hreset
    rw [apply_ite (fun row : StreamAction ↦ row.isReset mediaId id = true ∧ IsLive row.state),
      isReset_resolveReset, hm, hc]
    cases hstate : row.2.state <;>
      by_cases hmedia : mediaId = event.mediaId <;> by_cases hconn : some id = event.connectionId <;>
      by_cases hchoice : choice = .confirm <;>
      simp [ha, hmedia, hconn, hchoice, hreset, IsLive, resolveReset]
  · rw [apply_ite (fun row : StreamAction ↦ row.isReset mediaId id = true ∧ IsLive row.state),
      isReset_resolveReset]
    simp [hreset]

theorem live_resolveResets_other {mediaId id : ℕ}
    (h : choice = .confirm ∨ mediaId ≠ event.mediaId ∨ some id ≠ event.connectionId) :
    LiveReset (resolveResets s choice now event) mediaId id ↔ LiveReset s mediaId id := by
  rw [live_resolveResets, live_iff, and_iff_left h]

theorem live_resolveResets_self (hchoice : choice ≠ .confirm)
    (hconn : event.connectionId = some connectionId) :
    LiveReset (resolveResets s choice now event) event.mediaId connectionId ↔
      HasReset s event.mediaId connectionId (· = .pending) := by
  rw [live_resolveResets, hconn]
  simp [hchoice]

/-- What a decision about a deletion conflict has to find: one that gives the reset up must give
up all of its connection, and one that forgets it must leave another. -/
def Resolvable (s : State) (choice : Choice) (event : SyncReview) : Prop :=
  ∀ connectionId, event.connectionId = some connectionId → Tombstoned s event.mediaId →
    (choice = .keep → ¬ HasReset s event.mediaId connectionId (· = .pending)) ∧
      (choice ≠ .confirm → choice ≠ .keep →
        HasReset s event.mediaId connectionId (· = .conflict) →
          HasReset s event.mediaId connectionId (· = .pending))

theorem waits_resolveResets (h : Waits s) (hall : ∀ connectionId,
      event.connectionId = some connectionId → Tombstoned s event.mediaId → choice ≠ .confirm →
        HasReset s event.mediaId connectionId (· = .conflict) →
          HasReset s event.mediaId connectionId (· = .pending)) :
    Waits (resolveResets s choice now event) := by
  intro marker hmem id
  rw [h marker hmem id]
  by_cases hother : choice = .confirm ∨ marker.mediaId ≠ event.mediaId ∨ some id ≠ event.connectionId
  · rw [live_resolveResets_other hother]
  · obtain ⟨hchoice, hm, hid⟩ := by simpa only [not_or, not_not] using hother
    rw [hm, live_resolveResets_self hchoice hid.symm, live_iff]
    exact or_iff_left_of_imp (hall id hid.symm ⟨marker, hmem, hm⟩ hchoice)

theorem waitsBut_keep (h : Waits s) (hconn : event.connectionId = some connectionId) :
    WaitsBut (resolveResets s .keep now event) event.mediaId connectionId := by
  intro marker hmem id
  rw [h marker hmem id]
  by_cases hother : marker.mediaId ≠ event.mediaId ∨ some id ≠ event.connectionId
  · rw [live_resolveResets_other (.inr hother)]
    exact ⟨fun hlive ↦ hlive, .inl⟩
  · obtain ⟨hm, hid⟩ := by simpa only [not_or, not_not] using hother
    obtain rfl : id = connectionId := Option.some.inj (hid.trans hconn)
    refine ⟨fun hlive ↦ ?_, fun _ ↦ .inr ⟨hm, rfl⟩⟩
    rw [hm, live_resolveResets_self (by simp) hconn] at hlive
    exact live_iff.mpr (.inl (hm ▸ hlive))

theorem waits_resolveDeletionConflict (h : Waits s) (hall : Resolvable s choice event) :
    Waits (resolveDeletionConflict s choice now event) := by
  unfold resolveDeletionConflict
  extract_lets t
  split
  · rename_i id hconn
    have hw : Waits (t.removeTarget event.mediaId id) :=
      (waitsBut_keep h hconn).waits_removeTarget fun ht ↦
        mt (live_resolveResets_self (by simp) hconn).mp ((hall id hconn ht).1 rfl)
    dsimp only
    split <;> exact hw
  · rename_i hkeep
    refine waits_resolveResets h fun id hconn ht hchoice hconflict ↦ ?_
    exact (hall id hconn ht).2 hchoice (fun heq ↦ hkeep id heq hconn) hconflict

theorem placed_resolveDeletionConflict (h : Placed s) :
    Placed (resolveDeletionConflict s choice now event) := by
  unfold resolveDeletionConflict
  extract_lets t
  split
  · rename_i id _
    have hp : Placed (t.removeTarget event.mediaId id) := (Frame.removeTarget t _ id).placed h
    dsimp only
    split <;> exact hp
  · exact h

theorem steady_resolveEvent {s' : State} {eventId : ℕ} (h : Steady s)
    (hall : ∀ event, s.reviews.get eventId = some event → event.kind = .deletionConflict →
      Resolvable s choice event)
    (hs : resolveEvent s eventId choice now = .ok s') : Steady s' := by
  unfold resolveEvent at hs
  split at hs
  · simp at hs
  · rename_i event hevent
    dsimp only at hs
    split at hs
    · simp at hs
    · split at hs
      · obtain rfl := Except.ok.inj hs
        exact ⟨h.waits, h.placed⟩
      · split at hs <;> simp at hs
      · rename_i hkind
        split at hs
        · simp at hs
        · split at hs
          · simp at hs
          · obtain rfl := Except.ok.inj hs
            exact ⟨waits_resolveDeletionConflict h.waits (hall event hevent hkind),
              placed_resolveDeletionConflict h.placed⟩
      · split at hs
        · simp at hs
        · split at hs
          · simp at hs
          · obtain rfl := Except.ok.inj hs
            exact ⟨h.waits, h.placed⟩

end resolve

/-- The steps after which no tombstone is out of step with its resets. -/
def Meets (s : State) : Step → Prop
  | .dispatch env => Clean env s
  | .clear connectionId scope => (scope.watched || scope.playback) = true →
      ∀ marker ∈ s.deletions, HasReset s marker.mediaId connectionId (· = .pending) →
        HasReset s marker.mediaId connectionId (· = .conflict)
  | .resolve eventId choice _ => ∀ event, s.reviews.get eventId = some event →
      event.kind = .deletionConflict → Resolvable s choice event
  | _ => True

def AllMeet (s : State) : List Step → Prop
  | [] => True
  | st :: steps => Meets s st ∧ AllMeet (step s st) steps

theorem allMeet_append {s : State} {steps steps' : List Step} :
    AllMeet s (steps ++ steps') ↔ AllMeet s steps ∧ AllMeet (run s steps) steps' := by
  induction steps generalizing s with
  | nil => exact (iff_of_eq (true_and _)).symm
  | cons st steps ih => exact (and_congr_right fun _ ↦ ih).trans and_assoc.symm

theorem steady_accepted {s : State} (h : Steady s) {result : Except (ℕ × String) State}
    (hok : ∀ s', result = .ok s' → Steady s') : Steady (accepted s result) := by
  cases result with
  | error _ => exact h
  | ok s' => exact hok s' rfl

theorem steady_step {s : State} {st : Step} (h : Steady s) (hmeets : Meets s st) :
    Steady (step s st) := by
  cases st with
  | extend cat =>
    simp only [step]
    split
    · rename_i hgrows
      refine ⟨h.waits, fun marker hmem ↦ ?_⟩
      obtain ⟨hentry, m, hm, hid, htype⟩ := h.placed marker hmem
      obtain ⟨m', hm', hid', htype'⟩ := hgrows m hm
      exact ⟨hentry, m', hm', hid'.trans hid, htype' ▸ htype⟩
    · exact h
  | connect conn => exact ⟨h.waits, h.placed⟩
  | remember connectionId mappings => exact ⟨h.waits, h.placed⟩
  | saveEntry mediaId status => exact steady_saveEntry h mediaId status
  | importEntry mediaId status => exact steady_importEntry h mediaId status
  | removeEntry confirmed mediaId now cloud =>
    exact steady_accepted h fun s' hs ↦ steady_removeEntry h hs
  | release seenAt => exact steady_forget h _
  | queue row progress =>
    refine ⟨fun marker hmem connectionId ↦ ?_, h.placed⟩
    rw [h.waits marker hmem connectionId]
    have hnot : row.isReset marker.mediaId connectionId = false := by
      simp [StreamAction.isReset, progress]
    simp [LiveReset, HasReset, step, Table.mem_insert, or_and_right, exists_or, hnot]
  | dispatch env => exact (sound_dispatch ⟨h.waits, h.placed, hmeets⟩).steady
  | updateConnection id pushWatched pushPlayback =>
    exact steady_updateConnection h id pushWatched pushPlayback
  | clear connectionId scope =>
    by_cases hscope : (scope.watched || scope.playback) = true
    · refine ⟨(waits_freeze_iff h.waits hscope).mpr (hmeets hscope), ?_⟩
      rw [step, freezeOutboundWork, if_pos hscope]
      exact h.placed
    · rwa [step, freezeOutboundWork, if_neg hscope]
  | resolve eventId choice now =>
    exact steady_accepted h fun s' hs ↦ steady_resolveEvent h hmeets hs

theorem steady_run {s : State} (steps : List Step) (h : Steady s) (hall : AllMeet s steps) :
    Steady (run s steps) := by
  induction steps generalizing s with
  | nil => exact h
  | cons st steps ih => exact ih (steady_step h hall.1) hall.2

theorem steady_initial : Steady .initial :=
  ⟨fun _ hmem ↦ by simp [State.initial] at hmem, fun _ hmem ↦ by simp [State.initial] at hmem⟩

section release

variable {s : State} {seenAt : ℕ → List Int} {marker : TrackingDeletion}

/-- A release gives a title back only when no reset could still wipe its new viewing. -/
theorem no_live_reset_of_released (h : Waits s) (hmem : marker ∈ s.deletions)
    (hgone : marker ∉ (releaseRewatchedDeletions s seenAt).deletions) (connectionId : ℕ) :
    ¬ LiveReset s marker.mediaId connectionId := by
  have hreleased : released s seenAt marker.mediaId = true := by
    by_contra hnot
    exact hgone (List.mem_filter.mpr ⟨hmem, by simpa using hnot⟩)
  obtain ⟨other, hother, hr⟩ := List.any_eq_true.mp hreleased
  simp only [Bool.and_eq_true, decide_eq_true_eq] at hr
  obtain ⟨⟨hm, hempty⟩, -⟩ := hr
  rw [← hm, ← h other hother connectionId, hempty]
  exact List.not_mem_nil

/-- Nothing but a live reset or a cloud tracker holds a release back. -/
theorem released_of_no_live_reset (h : Waits s) (hmem : marker ∈ s.deletions)
    (hdead : ∀ connectionId, ¬ LiveReset s marker.mediaId connectionId)
    (hcloud : ∀ name, .provider name ∉ marker.pendingConnections)
    (hseen : ∃ seen ∈ seenAt marker.mediaId, marker.deletedAt < seen) :
    marker ∉ (releaseRewatchedDeletions s seenAt).deletions := by
  have hempty : marker.pendingConnections = [] := by
    refine List.eq_nil_iff_forall_not_mem.mpr fun target htarget ↦ ?_
    cases target with
    | connection id => exact hdead id ((h marker hmem id).mp htarget)
    | provider name => exact hcloud name htarget
  intro hkept
  have hnot := (List.mem_filter.mp hkept).2
  rw [Bool.not_eq_true', released, List.any_eq_false] at hnot
  refine hnot marker hmem ?_
  simpa [hempty] using hseen

end release

/-- In every run whose steps meet their conditions a tombstone lists exactly the connections with
a live reset of its title, so a new viewing is taken back when, and only when, none is left. -/
theorem tombstones_wait_for_live_resets (steps : List Step) (h : AllMeet .initial steps) :
    (∀ marker ∈ (run .initial steps).deletions, ∀ connectionId,
      .connection connectionId ∈ marker.pendingConnections ↔
        LiveReset (run .initial steps) marker.mediaId connectionId) ∧
    ∀ seenAt, ∀ marker ∈ (run .initial steps).deletions,
      (marker ∉ (releaseRewatchedDeletions (run .initial steps) seenAt).deletions →
        ∀ connectionId, ¬ LiveReset (run .initial steps) marker.mediaId connectionId) ∧
      ((∀ connectionId, ¬ LiveReset (run .initial steps) marker.mediaId connectionId) →
        (∀ name, .provider name ∉ marker.pendingConnections) →
        (∃ seen ∈ seenAt marker.mediaId, marker.deletedAt < seen) →
          marker ∉ (releaseRewatchedDeletions (run .initial steps) seenAt).deletions) := by
  have hwaits := (steady_run steps steady_initial h).waits
  refine ⟨hwaits, fun seenAt marker hmem ↦ ⟨no_live_reset_of_released hwaits hmem, ?_⟩⟩
  exact released_of_no_live_reset hwaits hmem

section examples

instance (s : State) (mediaId connectionId : ℕ) : Decidable (LiveReset s mediaId connectionId) :=
  decidable_of_iff _ hasLiveReset_iff

instance : DecidablePred IsDropped := fun state ↦
  inferInstanceAs (Decidable (state = .cancelled ∨ state = .cleared))

/-- A film is deleted while a Nuvio connection knows it under two identifiers. -/
def filmDeleted : List Step :=
  [.connect ⟨7, "Nuvio", .nuvio, true, true⟩,
    .extend ⟨[⟨1, .movie, some 603, none, some "tt0133093", none⟩], [], by decide, by decide⟩,
    .remember 7 ⟨[("tt0133093", 603), ("tmdb:603", 603)], by decide⟩,
    .saveEntry 1 .watching,
    .removeEntry true 1 100 []]

def reached (outcome : Outcome) : Dispatch := ⟨false, fun _ ↦ false, fun _ ↦ true, fun _ ↦ outcome⟩

theorem tombstones_wait_for_live_resets_film :
    (run .initial (filmDeleted ++ [.dispatch (reached .delivered)])).deletions = [⟨1, 100, []⟩] ∧
      ∀ connectionId, ¬ LiveReset
        (run .initial (filmDeleted ++ [.dispatch (reached .delivered)])) 1 connectionId := by
  have hclean : ∀ row ∈ (run .initial filmDeleted).actions.rows, ¬ IsDropped row.2.state := by
    decide +kernel
  have hdeletions : (run .initial (filmDeleted ++ [.dispatch (reached .delivered)])).deletions =
      [⟨1, 100, []⟩] := by decide +kernel
  refine ⟨hdeletions, fun connectionId ↦ ?_⟩
  have hmeets : AllMeet .initial (filmDeleted ++ [.dispatch (reached .delivered)]) := by
    refine allMeet_append.mpr ⟨by simp [filmDeleted, AllMeet, Meets], ?_, trivial⟩
    rintro _ _ _ _ _ _ _ _ ⟨row, hrow, -, hd⟩
    exact hclean row hrow hd
  obtain ⟨hwaits, -⟩ := tombstones_wait_for_live_resets _ hmeets
  rw [hdeletions] at hwaits
  exact mt (hwaits ⟨1, 100, []⟩ (by simp) connectionId).mpr (by simp)

/-- Clearing the connection drops both resets but leaves it in the tombstone; keeping the remote
history after the first reset met newer viewing releases the title while the second is queued. -/
theorem tombstone_out_of_step :
    (∃ marker ∈ (run .initial (filmDeleted ++ [.clear 7 ⟨false, false, true⟩])).deletions,
      .connection 7 ∈ marker.pendingConnections ∧
        ¬ LiveReset (run .initial (filmDeleted ++ [.clear 7 ⟨false, false, true⟩]))
          marker.mediaId 7) ∧
    ∃ marker ∈ (run .initial (filmDeleted ++
        [.dispatch (reached .playbackChanged), .resolve 2 .keep 200])).deletions,
      .connection 7 ∉ marker.pendingConnections ∧
        LiveReset (run .initial (filmDeleted ++
          [.dispatch (reached .playbackChanged), .resolve 2 .keep 200])) marker.mediaId 7 := by
  decide +kernel

end examples

end AnyList.Delivery.DeletionResets
