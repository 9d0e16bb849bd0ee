import AnyList.Delivery.DeletionResets

namespace AnyList.Delivery.DeletionResets

open AnyList.Library
open AnyList.Streaming (Connection Target TrackingDeletion)

def IsLive (state : ActionState) : Prop := state = .pending ∨ state = .conflict

def IsDropped (state : ActionState) : Prop := state = .cancelled ∨ state = .cleared

/-- A reset of a title on a connection, in a state of some kind. -/
def HasReset (s : State) (mediaId connectionId : ℕ) (p : ActionState → Prop) : Prop :=
  ∃ row ∈ s.actions.rows, row.2.isReset mediaId connectionId = true ∧ p row.2.state

def LiveReset (s : State) (mediaId connectionId : ℕ) : Prop := HasReset s mediaId connectionId IsLive

/-- Every tombstone lists the connections that still have a live reset of its title. -/
def Waits (s : State) : Prop :=
  ∀ marker ∈ s.deletions, ∀ connectionId,
    .connection connectionId ∈ marker.pendingConnections ↔ LiveReset s marker.mediaId connectionId

/-- The same, but one connection may be listed beyond its last live reset. -/
def WaitsBut (s : State) (mediaId connectionId : ℕ) : Prop :=
  ∀ marker ∈ s.deletions, ∀ id,
    (LiveReset s marker.mediaId id → .connection id ∈ marker.pendingConnections) ∧
      (.connection id ∈ marker.pendingConnections →
        LiveReset s marker.mediaId id ∨ marker.mediaId = mediaId ∧ id = connectionId)

def Tombstoned (s : State) (mediaId : ℕ) : Prop := ∃ marker ∈ s.deletions, marker.mediaId = mediaId

/-- Only titles that are not tracked have tombstones. -/
def Placed (s : State) : Prop :=
  ∀ marker ∈ s.deletions, s.entries.get marker.mediaId = none ∧
    ∃ m ∈ s.catalogue.media, m.id = marker.mediaId ∧ m.mediaType ≠ .episode

section rows

variable {s : State} {mediaId connectionId : ℕ} {p : ActionState → Prop}

theorem hasLiveReset_iff : s.hasLiveReset mediaId connectionId = true ↔
    LiveReset s mediaId connectionId := by
  simp [State.hasLiveReset, LiveReset, HasReset, IsLive, StreamAction.live]

theorem isSome_deletion_iff : (s.deletion mediaId).isSome = true ↔ Tombstoned s mediaId := by
  simp [State.deletion, Tombstoned]

theorem Waits.but (h : Waits s) : WaitsBut s mediaId connectionId :=
  fun marker hmem id ↦ ⟨(h marker hmem id).mpr, fun hlisted ↦ .inl ((h marker hmem id).mp hlisted)⟩

theorem WaitsBut.waits (h : WaitsBut s mediaId connectionId)
    (hlive : LiveReset s mediaId connectionId) : Waits s := by
  intro marker hmem id
  obtain ⟨hlist, hwait⟩ := h marker hmem id
  refine ⟨fun hlisted ↦ ?_, hlist⟩
  obtain hlive' | ⟨rfl, rfl⟩ := hwait hlisted
  · exact hlive'
  · exact hlive

theorem WaitsBut.waits_removeTarget (h : WaitsBut s mediaId connectionId)
    (hdead : Tombstoned s mediaId → ¬ LiveReset s mediaId connectionId) :
    Waits (s.removeTarget mediaId connectionId) := by
  intro marker hmem id
  obtain ⟨old, hold, rfl⟩ := List.mem_map.mp hmem
  obtain ⟨hlist, hwait⟩ := h old hold id
  change _ ↔ LiveReset s _ id
  by_cases hm : old.mediaId = mediaId
  · subst hm
    rw [if_pos rfl]
    simp only [List.mem_filter, decide_eq_true_eq, ne_eq, Target.connection.injEq]
    constructor
    · rintro ⟨hlisted, hne⟩
      exact (hwait hlisted).resolve_right fun heq ↦ hne heq.2
    · intro hlive
      refine ⟨hlist hlive, ?_⟩
      rintro rfl
      exact hdead ⟨old, hold, rfl⟩ hlive
  · rw [if_neg hm]
    exact ⟨fun hlisted ↦ (hwait hlisted).resolve_right fun heq ↦ hm heq.1, hlist⟩

theorem tombstoned_removeTarget {m : ℕ} :
    Tombstoned (s.removeTarget mediaId connectionId) m ↔ Tombstoned s m := by
  simp only [Tombstoned, State.removeTarget, List.mem_map, exists_exists_and_eq_and,
    apply_ite TrackingDeletion.mediaId, ite_self]

end rows

/-- Two states that differ in reviews and in what their tombstones wait for. -/
structure Frame (s s' : State) : Prop where
  actions : s'.actions = s.actions
  connections : s'.connections = s.connections
  entries : s'.entries = s.entries
  catalogue : s'.catalogue = s.catalogue
  tombstoned : ∀ mediaId, Tombstoned s' mediaId ↔ Tombstoned s mediaId

namespace Frame

variable {s s' s'' : State}

theorem refl (s : State) : Frame s s := ⟨rfl, rfl, rfl, rfl, fun _ ↦ .rfl⟩

theorem trans (h : Frame s s') (h' : Frame s' s'') : Frame s s'' :=
  ⟨h'.actions.trans h.actions, h'.connections.trans h.connections, h'.entries.trans h.entries,
    h'.catalogue.trans h.catalogue, fun mediaId ↦ (h'.tombstoned mediaId).trans (h.tombstoned mediaId)⟩

theorem closeReviews (s : State) (mediaId : ℕ) (p : SyncReview → Bool)
    (state : AnyList.Streaming.ReviewState) : Frame s (s.closeReviews mediaId p state) :=
  ⟨rfl, rfl, rfl, rfl, fun _ ↦ .rfl⟩

theorem removeTarget (s : State) (mediaId connectionId : ℕ) :
    Frame s (s.removeTarget mediaId connectionId) :=
  ⟨rfl, rfl, rfl, rfl, fun _ ↦ tombstoned_removeTarget⟩

theorem placed (h : Frame s s') (hp : Placed s) : Placed s' := by
  intro marker hmem
  obtain ⟨old, hold, heq⟩ := (h.tombstoned marker.mediaId).mp ⟨marker, hmem, rfl⟩
  rw [h.entries, h.catalogue, ← heq]
  exact hp old hold

end Frame

theorem frame_settle (s : State) (mediaId connectionId : ℕ) :
    Frame s (settleMarkerTarget s mediaId connectionId) := by
  unfold settleMarkerTarget
  split
  · exact .refl s
  · dsimp only
    split
    · exact (Frame.removeTarget s _ _).trans (.closeReviews _ _ _ _)
    · exact .removeTarget s _ _

theorem frame_correct (s : State) (row : StreamAction) :
    Frame s (correctDisabledActionReview s row) := by
  unfold correctDisabledActionReview
  split
  · exact .refl s
  · exact .closeReviews s _ _ _

theorem frame_acknowledge (s : State) (row : StreamAction) : Frame s (acknowledge s row) := by
  unfold acknowledge
  extract_lets remaining s'
  have hs' : Frame s s' := by
    unfold s'
    split
    · exact .refl s
    · exact .removeTarget s _ _
  split
  · exact hs'.trans (.closeReviews _ _ _ _)
  · exact hs'

theorem waits_settle {s : State} {mediaId connectionId : ℕ} (h : WaitsBut s mediaId connectionId) :
    Waits (settleMarkerTarget s mediaId connectionId) := by
  unfold settleMarkerTarget
  split
  · rename_i hlive
    exact h.waits (hasLiveReset_iff.mp hlive)
  · rename_i hdead
    have hw := h.waits_removeTarget fun _ ↦ mt hasLiveReset_iff.mpr hdead
    dsimp only
    split <;> exact hw

theorem waits_correct {s : State} {row : StreamAction} (h : Waits s) :
    Waits (correctDisabledActionReview s row) := by
  unfold correctDisabledActionReview
  split <;> exact h

section modify

variable {s : State} {id : ℕ} {row : StreamAction} {f : StreamAction → StreamAction}

/-- A change that leaves open which action a row is. -/
def Keeps (row row' : StreamAction) : Prop :=
  row'.action = row.action ∧ row'.mediaId = row.mediaId ∧ row'.connectionId = row.connectionId

theorem Keeps.isReset {row row' : StreamAction} (h : Keeps row row') (mediaId connectionId : ℕ) :
    row'.isReset mediaId connectionId = row.isReset mediaId connectionId := by
  obtain ⟨ha, hm, hc⟩ := h
  simp only [StreamAction.isReset, ha, hm, hc]

/-- The resets in other rows of the queue. -/
def OtherReset (s : State) (id mediaId connectionId : ℕ) (p : ActionState → Prop) : Prop :=
  ∃ row ∈ s.actions.rows, row.1 ≠ id ∧ row.2.isReset mediaId connectionId = true ∧ p row.2.state

theorem hasReset_iff (hget : s.actions.get id = some row) {mediaId connectionId : ℕ}
    {p : ActionState → Prop} : HasReset s mediaId connectionId p ↔
      OtherReset s id mediaId connectionId p ∨
        row.isReset mediaId connectionId = true ∧ p row.state := by
  have hmem := Table.get_eq_some.mp hget
  constructor
  · rintro ⟨⟨i, r⟩, hr, hreset, hp⟩
    by_cases hi : i = id
    · subst hi
      obtain rfl := Table.eq_of_mem hr hmem
      exact .inr ⟨hreset, hp⟩
    · exact .inl ⟨(i, r), hr, hi, hreset, hp⟩
  · rintro (⟨r, hr, -, hreset, hp⟩ | ⟨hreset, hp⟩)
    · exact ⟨r, hr, hreset, hp⟩
    · exact ⟨(id, row), hmem, hreset, hp⟩

theorem get_modifyAction (hget : s.actions.get id = some row) :
    (s.modifyAction id f).actions.get id = some (f row) := by
  rw [State.modifyAction, Table.get_eq_some, Table.modifyAt, Table.mem_modify]
  exact ⟨row, Table.get_eq_some.mp hget, by simp⟩

theorem otherReset_modifyAction {mediaId connectionId : ℕ} {p : ActionState → Prop} :
    OtherReset (s.modifyAction id f) id mediaId connectionId p ↔
      OtherReset s id mediaId connectionId p := by
  constructor
  · rintro ⟨⟨i, r⟩, hr, hi, hreset, hp⟩
    obtain ⟨old, hold, rfl⟩ := Table.mem_modify.mp hr
    simp only [if_neg hi] at hreset hp
    exact ⟨(i, old), hold, hi, hreset, hp⟩
  · rintro ⟨⟨i, r⟩, hr, hi, hreset, hp⟩
    exact ⟨(i, r), Table.mem_modify.mpr ⟨r, hr, (if_neg hi).symm⟩, hi, hreset, hp⟩

theorem hasReset_modifyAction (hget : s.actions.get id = some row) (hk : Keeps row (f row))
    {mediaId connectionId : ℕ} {p : ActionState → Prop} :
    HasReset (s.modifyAction id f) mediaId connectionId p ↔
      OtherReset s id mediaId connectionId p ∨
        row.isReset mediaId connectionId = true ∧ p (f row).state := by
  rw [hasReset_iff (get_modifyAction hget), otherReset_modifyAction, hk.isReset]

theorem isReset_self (h : row.action = .reset) : row.isReset row.mediaId row.connectionId = true := by
  simp [StreamAction.isReset, h]

theorem isReset_iff {mediaId connectionId : ℕ} : row.isReset mediaId connectionId = true ↔
    row.action = .reset ∧ row.mediaId = mediaId ∧ row.connectionId = connectionId := by
  simp [StreamAction.isReset]

theorem waits_modifyAction (hget : s.actions.get id = some row) (hk : Keeps row (f row))
    (hlive : row.action = .reset → Tombstoned s row.mediaId →
      (IsLive (f row).state ↔ IsLive row.state)) (h : Waits s) : Waits (s.modifyAction id f) := by
  intro marker hmem connectionId
  rw [h marker hmem connectionId, LiveReset, LiveReset, hasReset_iff hget,
    hasReset_modifyAction hget hk]
  refine or_congr_right (and_congr_right fun hreset ↦ ?_)
  obtain ⟨ha, hm, -⟩ := isReset_iff.mp hreset
  exact (hlive ha ⟨marker, hmem, hm.symm⟩).symm

theorem waitsBut_modifyAction (hget : s.actions.get id = some row) (hk : Keeps row (f row))
    (hdead : ¬ IsLive (f row).state) (h : Waits s) :
    WaitsBut (s.modifyAction id f) row.mediaId row.connectionId := by
  intro marker hmem connectionId
  rw [h marker hmem connectionId, LiveReset, LiveReset, hasReset_iff hget,
    hasReset_modifyAction hget hk]
  constructor
  · rintro (hother | ⟨-, hlive⟩)
    · exact .inl hother
    · exact absurd hlive hdead
  · rintro (hother | ⟨hreset, -⟩)
    · exact .inl (.inl hother)
    · obtain ⟨-, hm, hc⟩ := isReset_iff.mp hreset
      exact .inr ⟨hm.symm, hc.symm⟩

end modify

/-- A connection to which resets may be pushed. -/
def PushesTo (s : State) (connectionId : ℕ) : Prop :=
  ∀ conn, s.findConnection connectionId = some conn → (conn.pushWatched || conn.pushPlayback) = true

/-- No reset that a dispatch will deliver stands beside one that was dropped. -/
def Clean (env : Dispatch) (s : State) : Prop :=
  ∀ id row, s.actions.get id = some row → row.action = .reset → row.state = .pending →
    Tombstoned s row.mediaId → PushesTo s row.connectionId → env.outcome id = .delivered →
      ¬ HasReset s row.mediaId row.connectionId IsDropped

section clean

variable {env : Dispatch} {s s' : State} {id : ℕ} {row : StreamAction}
  {f : StreamAction → StreamAction}

theorem Frame.clean (h : Frame s s') (hc : Clean env s) : Clean env s' := by
  intro id row hget ha hp ht hpush hout
  rw [h.actions] at hget
  rw [HasReset, h.actions]
  refine hc id row hget ha hp ((h.tombstoned _).mp ht) ?_ hout
  unfold PushesTo State.findConnection at hpush ⊢
  rwa [h.connections] at hpush

theorem clean_modifyAction (hget : s.actions.get id = some row) (hk : Keeps row (f row))
    (hpending : (f row).state = .pending → row.state = .pending)
    (hdrop : row.action = .reset → IsDropped (f row).state → IsDropped row.state ∨
      ¬ Tombstoned s row.mediaId ∨ ¬ PushesTo s row.connectionId) (hc : Clean env s) :
    Clean env (s.modifyAction id f) := by
  intro i r hi ha hp ht hpush hout
  rw [hasReset_modifyAction hget hk]
  by_cases hne : i = id
  · subst hne
    obtain rfl := Option.some.inj ((get_modifyAction hget).symm.trans hi)
    have hclean := hc i row hget (hk.1.symm.trans ha) (hpending hp) (hk.2.1 ▸ ht)
      (hk.2.2 ▸ hpush) hout
    rw [hasReset_iff hget, not_or] at hclean
    rintro (hother | ⟨-, hdropped⟩)
    · rw [hk.2.1, hk.2.2] at hother
      exact hclean.1 hother
    · rw [hp] at hdropped
      simp [IsDropped] at hdropped
  · rw [State.modifyAction, Table.get_modifyAt_of_ne f hne] at hi
    have hclean := hc i r hi ha hp ht hpush hout
    rw [hasReset_iff hget, not_or, not_and] at hclean
    rintro (hother | ⟨hreset, hdropped⟩)
    · exact hclean.1 hother
    · obtain ⟨ha', hm, hcn⟩ := isReset_iff.mp hreset
      obtain hold | hnt | hnp := hdrop ha' hdropped
      · exact hclean.2 hreset hold
      · exact hnt (hm ▸ ht)
      · exact hnp (hcn ▸ hpush)

end clean

/-- What every operation keeps. -/
structure Sound (env : Dispatch) (s : State) : Prop where
  waits : Waits s
  placed : Placed s
  clean : Clean env s

section cleanup

variable {env : Dispatch} {s : State} {id : ℕ} {row : StreamAction}

theorem not_pushesTo {conn : Connection} (hconn : s.findConnection row.connectionId = some conn)
    (hreset : row.action = .reset) (h : ¬ streamActionEnabled conn row = true) :
    ¬ PushesTo s row.connectionId := by
  intro hpush
  rw [streamActionEnabled, if_pos hreset] at h
  exact h (hpush conn hconn)

theorem id_of_findConnection {conn : Connection} {connectionId : ℕ}
    (hconn : s.findConnection connectionId = some conn) : conn.id = connectionId := by
  simpa using List.find?_some hconn

/-- Cancelling a disabled reset settles its tombstone. -/
theorem sound_cancel_disabled (h : Sound env s) (hget : s.actions.get id = some row)
    {conn : Connection} (hconn : s.findConnection row.connectionId = some conn)
    (hoff : ¬ streamActionEnabled conn row = true) :
    Sound env (if row.action = .reset then
      settleMarkerTarget (s.modifyAction id StreamAction.cancel) row.mediaId conn.id
      else s.modifyAction id StreamAction.cancel) := by
  have hk : Keeps row row.cancel := ⟨rfl, rfl, rfl⟩
  have hclean : Clean env (s.modifyAction id StreamAction.cancel) :=
    clean_modifyAction hget hk (fun hp ↦ by simp [StreamAction.cancel] at hp)
      (fun hreset _ ↦ .inr (.inr (not_pushesTo hconn hreset hoff))) h.clean
  split
  · have hframe := frame_settle (s.modifyAction id StreamAction.cancel) row.mediaId conn.id
    refine ⟨?_, hframe.placed h.placed, hframe.clean hclean⟩
    rw [id_of_findConnection hconn]
    exact waits_settle (waitsBut_modifyAction hget hk (by simp [IsLive, StreamAction.cancel]) h.waits)
  · rename_i hreset
    exact ⟨waits_modifyAction hget hk (fun ha ↦ absurd ha hreset) h.waits, h.placed, hclean⟩

theorem sound_settle (h : Sound env s) (mediaId connectionId : ℕ) :
    Sound env (settleMarkerTarget s mediaId connectionId) :=
  have hframe := frame_settle s mediaId connectionId
  ⟨waits_settle h.waits.but, hframe.placed h.placed, hframe.clean h.clean⟩

theorem sound_cleanupAction (h : Sound env s) : Sound env (cleanupAction s id) := by
  unfold cleanupAction
  cases hget : s.actions.get id with
  | none => exact h
  | some row =>
    cases hconn : s.streamConnection row.connectionId with
    | none => simpa only [hconn] using h
    | some conn =>
      simp only [hconn]
      split
      · exact h
      · rename_i hoff
        have hfind := (Option.filter_eq_some_iff.mp hconn).1
        have hs := sound_cancel_disabled h hget hfind hoff
        have hframe := frame_correct (if row.action = .reset then
          settleMarkerTarget (s.modifyAction id StreamAction.cancel) row.mediaId conn.id
          else s.modifyAction id StreamAction.cancel) row
        exact ⟨waits_correct hs.waits, hframe.placed hs.placed, hframe.clean hs.clean⟩

theorem sound_cleanupTarget (h : Sound env s) (mediaId : ℕ) (target : Target) :
    Sound env (cleanupTarget mediaId s target) := by
  cases target with
  | provider name => exact h
  | connection connectionId =>
    simp only [cleanupTarget]
    split
    · exact sound_settle h mediaId connectionId
    · split
      · exact h
      · exact sound_settle h mediaId connectionId

theorem sound_cleanupMarker (h : Sound env s) (marker : TrackingDeletion) :
    Sound env (cleanupMarker s marker) :=
  List.foldlRecOn _ _ h fun _ hs target _ ↦ sound_cleanupTarget hs marker.mediaId target

theorem sound_cleanup (h : Sound env s) : Sound env (cleanupDisabledStreamActions s) :=
  List.foldlRecOn _ _ (List.foldlRecOn _ _ h fun _ hs _ _ ↦ sound_cleanupAction hs)
    fun _ hs marker _ ↦ sound_cleanupMarker hs marker

end cleanup

section dispatch

variable {env : Dispatch} {s : State} {id : ℕ} {row : StreamAction}
  {f : StreamAction → StreamAction}

/-- A change to a row that keeps its place among the live and the dropped actions. -/
theorem sound_modifyAction (h : Sound env s) (hget : s.actions.get id = some row)
    (hk : Keeps row (f row))
    (hlive : row.action = .reset → Tombstoned s row.mediaId →
      (IsLive (f row).state ↔ IsLive row.state))
    (hpending : (f row).state = .pending → row.state = .pending)
    (hdrop : row.action = .reset → Tombstoned s row.mediaId → IsDropped (f row).state →
      IsDropped row.state) : Sound env (s.modifyAction id f) := by
  refine ⟨waits_modifyAction hget hk hlive h.waits, h.placed, ?_⟩
  refine clean_modifyAction hget hk hpending (fun ha hd ↦ ?_) h.clean
  by_cases ht : Tombstoned s row.mediaId
  · exact .inl (hdrop ha ht hd)
  · exact .inr (.inl ht)

theorem not_tombstoned_of_invalid (h : Placed s) (hreset : row.action = .reset)
    (hinvalid : invalid s row = true) : ¬ Tombstoned s row.mediaId := by
  rintro ⟨marker, hmem, hm⟩
  rw [invalid, if_pos hreset, Bool.or_eq_true] at hinvalid
  obtain hnone | hentry := hinvalid
  · have hsome := isSome_deletion_iff.mpr ⟨marker, hmem, hm⟩
    rw [Option.isNone_iff_eq_none.mp hnone] at hsome
    simp at hsome
  · rw [← hm, (h marker hmem).1] at hentry
    simp at hentry

theorem remaining_iff : (s.actions.rows.any fun other ↦
    other.2.isReset row.mediaId row.connectionId && decide (other.2.state ≠ .applied)) = true ↔
      HasReset s row.mediaId row.connectionId (· ≠ .applied) := by
  simp [HasReset]

theorem waits_acknowledge (h : WaitsBut s row.mediaId row.connectionId)
    (hclean : ¬ HasReset s row.mediaId row.connectionId IsDropped) : Waits (acknowledge s row) := by
  unfold acknowledge
  extract_lets remaining s'
  have hs' : Waits s' := by
    unfold s'
    split
    · rename_i hremaining
      obtain ⟨other, hmem, hreset, hne⟩ := remaining_iff.mp hremaining
      refine h.waits ⟨other, hmem, hreset, ?_⟩
      by_contra hdead
      refine hclean ⟨other, hmem, hreset, ?_⟩
      cases hstate : other.2.state <;> simp_all [IsLive, IsDropped]
    · rename_i hremaining
      refine h.waits_removeTarget fun _ hlive ↦ hremaining (remaining_iff.mpr ?_)
      obtain ⟨other, hmem, hreset, hlive⟩ := hlive
      refine ⟨other, hmem, hreset, ?_⟩
      rintro happlied
      simp [IsLive, happlied] at hlive
  split <;> exact hs'

theorem frame_insertReview (s : State) (review : SyncReview) :
    Frame s { s with reviews := s.reviews.insert review } :=
  ⟨rfl, rfl, rfl, rfl, fun _ ↦ .rfl⟩

theorem sound_attempt (h : Sound env s) (hget : s.actions.get id = some row)
    (hpending : row.state = .pending)
    (hpush : row.action = .reset → PushesTo s row.connectionId) :
    Sound env (attempt env s id row) := by
  unfold attempt
  extract_lets s'
  have hs' : Sound env s' := by
    refine sound_modifyAction h hget ⟨rfl, rfl, rfl⟩ (fun _ _ ↦ ?_) (fun hp ↦ hp) fun _ _ hd ↦ hd
    exact Iff.rfl
  have hget' : s'.actions.get id = some { row with attempts := row.attempts + 1 } :=
    get_modifyAction hget
  cases hout : env.outcome id with
  | delivered =>
    dsimp only
    split
    · rename_i hreset
      obtain ⟨hreset, hsome⟩ := hreset
      have ht : Tombstoned s' row.mediaId := isSome_deletion_iff.mp hsome
      let f := fun row : StreamAction ↦
        { row with state := .applied, payload := .empty, lastError := none }
      have hk : Keeps { row with attempts := row.attempts + 1 }
          (f { row with attempts := row.attempts + 1 }) := ⟨rfl, rfl, rfl⟩
      have hclean : Clean env (s'.modifyAction id f) :=
        clean_modifyAction hget' hk (fun hp ↦ by simp [f] at hp)
          (fun _ hd ↦ by simp [f, IsDropped] at hd) hs'.clean
      have hframe := frame_acknowledge (s'.modifyAction id f) row
      have hbut := waitsBut_modifyAction hget' hk (by simp [f, IsLive]) hs'.waits
      refine ⟨waits_acknowledge hbut ?_, hframe.placed hs'.placed, hframe.clean hclean⟩
      have hnot := hs'.clean id _ hget' hreset hpending ht (hpush hreset) hout
      rw [hasReset_iff hget', not_or] at hnot
      rw [hasReset_modifyAction hget' hk]
      rintro (hother | ⟨-, hdropped⟩)
      · exact hnot.1 hother
      · simp [f, IsDropped] at hdropped
    · rename_i hreset
      refine sound_modifyAction hs' hget' ⟨rfl, rfl, rfl⟩ (fun ha ht ↦ ?_)
        (fun hp ↦ by simp at hp) fun _ _ hd ↦ by simp [IsDropped] at hd
      exact absurd ⟨ha, isSome_deletion_iff.mpr ht⟩ hreset
  | playbackChanged =>
    have hs := sound_modifyAction (f := fun row ↦
        { row with state := .conflict, lastError := some "Playback changed since the last import" })
      hs' hget' ⟨rfl, rfl, rfl⟩ (fun _ _ ↦ by simp [IsLive, hpending])
      (fun hp ↦ by simp at hp) fun _ _ hd ↦ by simp [IsDropped] at hd
    exact ⟨hs.waits, hs.placed, (frame_insertReview _ _).clean hs.clean⟩
  | failed error =>
    exact sound_modifyAction hs' hget' ⟨rfl, rfl, rfl⟩ (fun _ _ ↦ Iff.rfl) (fun hp ↦ hp)
      fun _ _ hd ↦ hd

theorem pushesTo_of_enabled {conn : Connection}
    (hconn : s.findConnection row.connectionId = some conn) (hreset : row.action = .reset)
    (hon : streamActionEnabled conn row = true) : PushesTo s row.connectionId := by
  intro other hother
  obtain rfl := Option.some.inj (hconn.symm.trans hother)
  rwa [streamActionEnabled, if_pos hreset] at hon

/-- A change to a row that is no reset of a tombstoned title. -/
theorem sound_modifyAction_of_not (h : Sound env s) (hget : s.actions.get id = some row)
    (hk : Keeps row (f row)) (hstate : (f row).state ≠ .pending)
    (hnot : row.action = .reset → ¬ Tombstoned s row.mediaId) :
    Sound env (s.modifyAction id f) :=
  sound_modifyAction h hget hk (fun ha ht ↦ absurd ht (hnot ha)) (fun hp ↦ absurd hp hstate)
    fun ha ht _ ↦ absurd ht (hnot ha)

theorem sound_dispatchAction (h : Sound env s) (hget : s.actions.get id = some row)
    (hpending : row.state = .pending) : Sound env (dispatchAction env s id) := by
  have hcancel : row.action ≠ .reset → Sound env (s.modifyAction id StreamAction.cancel) :=
    fun ha ↦ sound_modifyAction_of_not h hget ⟨rfl, rfl, rfl⟩ (by simp [StreamAction.cancel])
      fun hr ↦ absurd hr ha
  simp only [dispatchAction, hget]
  split
  · rename_i hrestore
    exact hcancel (by simp [hrestore])
  · split
    · exact h
    · rename_i conn hconn
      split
      · rename_i hoff
        exact sound_cancel_disabled h hget hconn (by simpa using hoff)
      · rename_i hon
        split
        · rename_i hinvalid
          exact sound_modifyAction_of_not h hget ⟨rfl, rfl, rfl⟩ (by simp)
            fun hr ↦ not_tombstoned_of_invalid h.placed hr hinvalid
        · split
          · rename_i hmissing
            exact hcancel hmissing.2
          · split
            · exact h
            · split
              · exact sound_modifyAction h hget ⟨rfl, rfl, rfl⟩ (fun _ _ ↦ Iff.rfl) (fun hp ↦ hp)
                  fun _ _ hd ↦ hd
              · exact sound_attempt h hget hpending
                  fun hr ↦ pushesTo_of_enabled hconn hr (by simpa using hon)

theorem get_modifyAction_of_ne {i : ℕ} (hne : i ≠ id) :
    (s.modifyAction id f).actions.get i = s.actions.get i := Table.get_modifyAt_of_ne f hne

theorem get_attempt_of_ne {i : ℕ} (hne : i ≠ id) :
    (attempt env s id row).actions.get i = s.actions.get i := by
  unfold attempt
  extract_lets s'
  have hs' : s'.actions.get i = s.actions.get i := get_modifyAction_of_ne hne
  cases env.outcome id with
  | delivered =>
    dsimp only
    split
    · rw [(frame_acknowledge _ row).actions, get_modifyAction_of_ne hne, hs']
    · rw [get_modifyAction_of_ne hne, hs']
  | playbackChanged => exact (get_modifyAction_of_ne hne).trans hs'
  | failed error => exact (get_modifyAction_of_ne hne).trans hs'

theorem get_dispatchAction_of_ne {i : ℕ} (hne : i ≠ id) :
    (dispatchAction env s id).actions.get i = s.actions.get i := by
  unfold dispatchAction
  repeat' split
  all_goals first
    | rfl
    | exact get_modifyAction_of_ne hne
    | exact get_attempt_of_ne hne
    | rw [(frame_settle _ _ _).actions, get_modifyAction_of_ne hne]

theorem sound_foldl_dispatchAction (ids : List ℕ) (hids : ids.Nodup) (h : Sound env s)
    (hpending : ∀ id ∈ ids, ∃ row, s.actions.get id = some row ∧ row.state = .pending) :
    Sound env (ids.foldl (dispatchAction env) s) := by
  induction ids generalizing s with
  | nil => exact h
  | cons id ids ih =>
    obtain ⟨hnot, hids⟩ := List.nodup_cons.mp hids
    obtain ⟨row, hget, hp⟩ := hpending id List.mem_cons_self
    refine ih hids (sound_dispatchAction h hget hp) fun i hi ↦ ?_
    have hne : i ≠ id := fun heq ↦ hnot (heq ▸ hi)
    rw [get_dispatchAction_of_ne hne]
    exact hpending i (List.mem_cons_of_mem id hi)

theorem sound_dispatch (h : Sound env s) : Sound env (dispatchStreamActions env s) := by
  unfold dispatchStreamActions
  split
  · exact h
  · refine sound_foldl_dispatchAction _ ?_ (sound_cleanup h) fun id hid ↦ ?_
    · exact ((List.filter_sublist.map Prod.fst).nodup (Table.nodup_keys _)).sublist
        (List.take_sublist _ _)
    · obtain ⟨⟨i, row⟩, hmem, rfl⟩ := List.mem_map.mp (List.mem_of_mem_take hid)
      obtain ⟨hmem, hp⟩ := List.mem_filter.mp hmem
      rw [Bool.and_eq_true, decide_eq_true_eq] at hp
      exact ⟨row, Table.get_eq_some.mpr hmem, hp.1⟩

end dispatch

end AnyList.Delivery.DeletionResets
