import AnyList.Library.Runs
import AnyList.Statistics.TriggeredWrites

namespace AnyList.Statistics.Snapshots

open AnyList.Library.Runs

section law

/-- No write of a kind has committed after what `payload` was built from. -/
def NoneSince (kind : Write → Prop) (log payload : List Write) : Prop :=
  ∃ rest, log = payload ++ rest ∧ ∀ w ∈ rest, ¬kind w

structure Older (old new : UserStatsSnapshot) : Prop where
  id : old.id < new.id
  source : old.sourceRevision ≤ new.sourceRevision
  metadata : old.metadataRevision ≤ new.metadataRevision
  computedAt : old.computedAt ≤ new.computedAt

variable (account : ℕ)

/-- What every state shows: statistics that are not dirty are those of the current history, the
active snapshot exists, and no snapshot is left from before a purge. -/
structure Published (s : Server) : Prop where
  fresh : s.state.dirty = false → ∃ snapshot ∈ s.database.snapshots,
    s.state.activeSnapshotId = some snapshot.id ∧
      snapshot.sourceRevision = s.state.sourceRevision ∧
        NoneSince (Write.Concerns account) s.log snapshot.payload
  named : ∀ id, s.state.activeSnapshotId = some id →
    ∃ snapshot ∈ s.database.snapshots, snapshot.id = id
  unpurged : ∀ snapshot ∈ s.database.snapshots,
    NoneSince (Write.Purges account) s.log snapshot.payload

/-- The commit of a snapshot by the worker that owned an unexpired lease when it called `publish`,
and owns it still. -/
def Publishes (s : Server) (event : Event) (snapshot : UserStatsSnapshot) : Prop :=
  ∃ id now time state, event = .advance id ∧ s.runs id = some (.inserted now state snapshot) ∧
    s.state.leaseToken = some id ∧ s.state.leaseUntil = some time ∧ now < time ∧
      ∀ old ∈ s.database.snapshots, Older old snapshot

def Purging (s : Server) (event : Event) : Prop :=
  ∃ id now writes, event = .advance id ∧ s.runs id = some (.changed now writes) ∧
    ∃ w ∈ writes, w.Purges account

/-- What a step may do to the statistics of the account. -/
structure Lawful (s : Server) (event : Event) (s' : Server) : Prop where
  inserted : ∀ snapshot ∈ s'.database.snapshots, snapshot ∉ s.database.snapshots →
    Publishes s event snapshot
  replaced : s'.state.activeSnapshotId ≠ s.state.activeSnapshotId →
    s'.state.activeSnapshotId = none ∧ Purging account s event ∨
      ∃ snapshot, s'.state.activeSnapshotId = some snapshot.id ∧ Publishes s event snapshot

end law

section invariant

variable (account : ℕ)

/-- What was read when `payload` had been written, under the revisions of that time. -/
structure Reading (s : Server) (payload : List Write) (source metadata : ℕ) : Prop where
  source_le : source ≤ s.state.sourceRevision
  metadata_le : metadata ≤ s.database.revision
  since : ∃ rest, s.log = payload ++ rest ∧
    (source = s.state.sourceRevision → ∀ w ∈ rest, ¬w.Concerns account) ∧
      (source = s.state.sourceRevision → metadata = s.database.revision →
        ∀ w ∈ rest, ¬w.Purges account)

structure Stored (s : Server) (snapshot : UserStatsSnapshot) : Prop where
  id : snapshot.id < s.nextId
  reading : Reading account s snapshot.payload snapshot.sourceRevision snapshot.metadataRevision
  computedAt : snapshot.computedAt ≤ stored s.clock
  unpurged : NoneSince (Write.Purges account) s.log snapshot.payload

/-- A state row that its run, which holds the lock, is about to commit. -/
structure Pending (s : Server) (id : ℕ) (state : UserStatsState) : Prop where
  held : s.lock = some id
  source : state.sourceRevision = s.state.sourceRevision
  token : ∀ i, i ≠ id → state.leaseToken = some i → s.state.leaseToken = some i

/-- One that leaves the active snapshot. -/
structure Leaves (s : Server) (id : ℕ) (state : UserStatsState) : Prop extends
    Pending s id state where
  active : state.activeSnapshotId = s.state.activeSnapshotId
  dirty : state.dirty = false → s.state.dirty = false

/-- One with a new snapshot. -/
structure Inserted (s : Server) (id now : ℕ) (state : UserStatsState)
    (snapshot : UserStatsSnapshot) : Prop extends Pending s id state where
  active : state.activeSnapshotId = some snapshot.id
  owned : s.state.leaseToken = some id
  leased : ∃ time, s.state.leaseUntil = some time ∧ now < time
  current : snapshot.sourceRevision = s.state.sourceRevision
  kept : Stored account s snapshot
  newer : ∀ old ∈ s.database.snapshots, Older old snapshot

/-- A result that is about to be published by a call at the time `now`. -/
structure Called (s : Server) (id now : ℕ) (result : Result) : Prop where
  reading : Reading account s result.payload result.sourceRevision result.metadataRevision
  now_le : now ≤ s.clock
  last : s.state.leaseToken = some id →
    ∀ snapshot ∈ s.database.snapshots, snapshot.computedAt ≤ stored now

/-- What a run knows of the account. -/
def Stage.Sound (s : Server) (id : ℕ) : Stage → Prop
  | .granting _ | .noting _ => s.lock = some id
  | .skipped state | .claimed state | .refusing state | .noted state => Leaves s id state
  | .computed result =>
    Reading account s result.payload result.sourceRevision result.metadataRevision
  | .publishing now result => Called account s id now result
  | .checking now result => s.lock = some id ∧ Called account s id now result
  | .inserted now state snapshot => Inserted account s id now state snapshot
  | .changed _ writes => writes.any (Write.locks account) → s.lock = some id
  | _ => True

structure Sound (s : Server) : Prop where
  fresh : s.state.dirty = false → ∃ snapshot ∈ s.database.snapshots,
    s.state.activeSnapshotId = some snapshot.id ∧
      snapshot.sourceRevision = s.state.sourceRevision
  named : ∀ id, s.state.activeSnapshotId = some id →
    ∃ snapshot ∈ s.database.snapshots, snapshot.id = id
  kept : ∀ snapshot ∈ s.database.snapshots, Stored account s snapshot
  runs : ∀ id stage, s.runs id = some stage → stage.Sound account s id

end invariant

variable {account : ℕ} {s s' : Server} {id : ℕ} {stage : Stage} {event : Event}

theorem Sound.published (h : Sound account s) : Published account s where
  fresh hdirty := by
    obtain ⟨snapshot, hmem, hactive, hsource⟩ := h.fresh hdirty
    obtain ⟨rest, hlog, hconcerns, -⟩ := (h.kept snapshot hmem).reading.since
    exact ⟨snapshot, hmem, hactive, hsource, rest, hlog, hconcerns hsource⟩
  named := h.named
  unpurged snapshot hmem := (h.kept snapshot hmem).unpurged

section growth

/-- What a step that commits the writes `rest` leaves of the account. -/
structure Grown (account : ℕ) (rest : List Write) (s s' : Server) : Prop where
  log : s'.log = s.log ++ rest
  clock : s.clock ≤ s'.clock
  nextId : s.nextId ≤ s'.nextId
  source : s.state.sourceRevision ≤ s'.state.sourceRevision
  revision : s.database.revision ≤ s'.database.revision
  concerned : (∃ w ∈ rest, w.Concerns account) →
    s.state.sourceRevision < s'.state.sourceRevision
  outdated : (∃ w ∈ rest, w.Purges account) →
    s.state.sourceRevision < s'.state.sourceRevision ∨ s.database.revision < s'.database.revision

/-- What it leaves of what the run `i` knows. -/
structure Later (account : ℕ) (rest : List Write) (s s' : Server) (i : ℕ) : Prop extends
    Grown account rest s s' where
  held : s.lock = some i → s'.lock = some i ∧ s'.state = s.state ∧
    s'.database.snapshots = s.database.snapshots ∧ ¬∃ w ∈ rest, w.Purges account
  token : s'.state.leaseToken = some i → s.state.leaseToken = some i ∧
    ∀ snapshot ∈ s'.database.snapshots, snapshot ∈ s.database.snapshots

variable {rest : List Write} {i : ℕ}

theorem stored_le_stored {a b : ℕ} (h : a ≤ b) : stored a ≤ stored b :=
  Nat.mul_le_mul_right _ (Nat.div_le_div_right (Nat.add_le_add_right h _))

theorem Reading.grown {payload : List Write} {source metadata : ℕ}
    (h : Reading account s payload source metadata) (hg : Grown account rest s s') :
    Reading account s' payload source metadata where
  source_le := Nat.le_trans h.source_le hg.source
  metadata_le := Nat.le_trans h.metadata_le hg.revision
  since := by
    obtain ⟨before, hlog, hconcerns, hpurges⟩ := h.since
    have hsource := h.source_le
    have hsource' := hg.source
    have hmetadata := h.metadata_le
    have hrevision := hg.revision
    refine ⟨before ++ rest, by rw [hg.log, hlog, List.append_assoc], fun hs w hw ↦ ?_,
      fun hs hm w hw ↦ ?_⟩
    · rcases List.mem_append.mp hw with hw | hw
      · exact hconcerns (by omega) w hw
      · intro hc
        have := hg.concerned ⟨w, hw, hc⟩
        omega
    · rcases List.mem_append.mp hw with hw | hw
      · exact hpurges (by omega) (by omega) w hw
      · intro hp
        have := hg.outdated ⟨w, hw, hp⟩
        omega

theorem NoneSince.append {kind : Write → Prop} {log payload : List Write}
    (h : NoneSince kind log payload) (hrest : ¬∃ w ∈ rest, kind w) :
    NoneSince kind (log ++ rest) payload := by
  obtain ⟨before, rfl, hbefore⟩ := h
  refine ⟨before ++ rest, List.append_assoc .., fun w hw ↦ ?_⟩
  rcases List.mem_append.mp hw with hw | hw
  · exact hbefore w hw
  · exact fun hk ↦ hrest ⟨w, hw, hk⟩

theorem Stored.grown {snapshot : UserStatsSnapshot} (h : Stored account s snapshot)
    (hg : Grown account rest s s') (hrest : ¬∃ w ∈ rest, w.Purges account) :
    Stored account s' snapshot where
  id := Nat.lt_of_lt_of_le h.id hg.nextId
  reading := h.reading.grown hg
  computedAt := Nat.le_trans h.computedAt (stored_le_stored hg.clock)
  unpurged := hg.log ▸ h.unpurged.append hrest

theorem Pending.later {state : UserStatsState} (h : Pending s i state)
    (hl : Later account rest s s' i) : Pending s' i state := by
  obtain ⟨hheld, hstate, -, -⟩ := hl.held h.held
  exact ⟨hheld, hstate ▸ h.source, hstate ▸ h.token⟩

theorem Called.later {now : ℕ} {result : Result} (h : Called account s i now result)
    (hl : Later account rest s s' i) : Called account s' i now result where
  reading := h.reading.grown hl.toGrown
  now_le := Nat.le_trans h.now_le hl.clock
  last htoken snapshot hmem := by
    obtain ⟨htoken, hold⟩ := hl.token htoken
    exact h.last htoken snapshot (hold snapshot hmem)

theorem Leaves.later {state : UserStatsState} (h : Leaves s i state)
    (hl : Later account rest s s' i) : Leaves s' i state := by
  obtain ⟨-, hstate, -, -⟩ := hl.held h.held
  exact ⟨h.toPending.later hl, hstate ▸ h.active, hstate ▸ h.dirty⟩

theorem Inserted.later {now : ℕ} {state : UserStatsState} {snapshot : UserStatsSnapshot}
    (h : Inserted account s i now state snapshot) (hl : Later account rest s s' i) :
    Inserted account s' i now state snapshot := by
  obtain ⟨-, hstate, hsnapshots, hrest⟩ := hl.held h.held
  exact ⟨h.toPending.later hl, h.active, hstate ▸ h.owned, hstate ▸ h.leased, hstate ▸ h.current,
    h.kept.grown hl.toGrown hrest, hsnapshots ▸ h.newer⟩

theorem Stage.Sound.later (h : stage.Sound account s i) (hl : Later account rest s s' i) :
    stage.Sound account s' i := by
  cases stage with
  | granting _ | noting _ => exact (hl.held h).1
  | skipped _ | claimed _ | refusing _ | noted _ => exact Leaves.later h hl
  | computed _ => exact Reading.grown h hl.toGrown
  | publishing _ _ => exact Called.later h hl
  | checking _ _ => exact ⟨(hl.held h.1).1, h.2.later hl⟩
  | inserted _ _ _ => exact Inserted.later h hl
  | changed _ _ => exact fun hlocks ↦ (hl.held (h hlocks)).1
  | _ => trivial

end growth

theorem runs_enter_of_ne {i : ℕ} (h : i ≠ id) : (s.enter id stage).runs i = s.runs i :=
  Function.update_of_ne h ..

theorem runs_enter_self : (s.enter id stage).runs id = some stage := Function.update_self ..

/-- One run goes on, and the others keep what they know. -/
theorem sound_runs {rest : List Write} (h : Sound account s)
    (hruns : s'.runs = (s.enter id stage).runs) (hstage : stage.Sound account s' id)
    (hothers : ∀ i, i ≠ id → Later account rest s s' i) (i : ℕ) (other : Stage)
    (hi : s'.runs i = some other) : other.Sound account s' i := by
  rw [hruns] at hi
  by_cases hid : i = id
  · subst hid
    exact Option.some.inj (runs_enter_self.symm.trans hi) ▸ hstage
  · rw [runs_enter_of_ne hid] at hi
    exact (h.runs i other hi).later (hothers i hid)

theorem lock_release_of_ne {i : ℕ} (h : i ≠ id) (hheld : s.lock = some i) :
    (s.release id stage).lock = some i := by
  rw [Server.release, hheld]
  exact if_neg fun heq ↦ h (Option.some.inj heq)

section quiet

/-- A step that commits nothing. -/
structure Quiet (s s' : Server) : Prop where
  database : s'.database = s.database
  log : s'.log = s.log
  clock : s.clock ≤ s'.clock
  nextId : s.nextId ≤ s'.nextId

theorem Quiet.grown (hq : Quiet s s') : Grown account [] s s' where
  log := by rw [hq.log, List.append_nil]
  clock := hq.clock
  nextId := hq.nextId
  source := Nat.le_of_eq (by rw [Server.state, Server.state, hq.database])
  revision := Nat.le_of_eq (by rw [hq.database])
  concerned h := by simp at h
  outdated h := by simp at h

theorem Quiet.later {i : ℕ} (hq : Quiet s s') (hlock : s.lock = some i → s'.lock = some i) :
    Later account [] s s' i where
  toGrown := hq.grown
  held hheld := ⟨hlock hheld, by rw [Server.state, Server.state, hq.database], by rw [hq.database],
    by simp⟩
  token htoken := by
    rw [Server.state, hq.database] at htoken
    exact ⟨htoken, fun _ hmem ↦ by rwa [hq.database] at hmem⟩

theorem Quiet.lawful (hq : Quiet s s') : Lawful account s event s' where
  inserted snapshot hmem hnew := absurd (hq.database ▸ hmem) hnew
  replaced hne := absurd (by rw [Server.state, Server.state, hq.database]) hne

theorem Quiet.sound (hq : Quiet s s') (h : Sound account s)
    (hruns : ∀ i other, s'.runs i = some other → other.Sound account s' i) : Sound account s' where
  fresh := by
    rw [Server.state, hq.database]
    exact h.fresh
  named := by
    rw [Server.state, hq.database]
    exact h.named
  kept snapshot hmem := (h.kept snapshot (hq.database ▸ hmem)).grown hq.grown (by simp)
  runs := hruns

/-- One run goes on without a commit. -/
theorem Sound.quiet (h : Sound account s) (hq : Quiet s s')
    (hruns : s'.runs = (s.enter id stage).runs)
    (hlock : ∀ i, i ≠ id → s.lock = some i → s'.lock = some i)
    (hstage : stage.Sound account s' id) : Sound account s' ∧ Lawful account s event s' :=
  ⟨hq.sound h (sound_runs h hruns hstage fun i hi ↦ hq.later (hlock i hi)), hq.lawful⟩

theorem Sound.enter (h : Sound account s) (hstage : stage.Sound account s id) :
    Sound account (s.enter id stage) ∧ Lawful account s event (s.enter id stage) :=
  have hq : Quiet s (s.enter id stage) := ⟨rfl, rfl, Nat.le_refl _, Nat.le_refl _⟩
  h.quiet hq rfl (fun _ _ hheld ↦ hheld) (hstage.later (hq.later fun hheld ↦ hheld))

theorem Sound.release (h : Sound account s) (hstage : ∀ s', stage.Sound account s' id) :
    Sound account (s.release id stage) ∧ Lawful account s event (s.release id stage) :=
  h.quiet ⟨rfl, rfl, Nat.le_refl _, Nat.le_refl _⟩ rfl (fun _ hi ↦ lock_release_of_ne hi)
    (hstage _)

/-- A run takes the lock, which no other holds. -/
theorem Sound.take (h : Sound account s) (hfree : s.lock = none)
    (hstage : ∀ s', Later account [] s s' id → s'.lock = some id → stage.Sound account s' id) :
    Sound account { s.enter id stage with lock := some id } ∧
      Lawful account s event { s.enter id stage with lock := some id } :=
  have hq : Quiet s { s.enter id stage with lock := some id } :=
    ⟨rfl, rfl, Nat.le_refl _, Nat.le_refl _⟩
  h.quiet hq rfl (fun _ _ hheld ↦ by cases hfree.symm.trans hheld)
    (hstage _ (hq.later fun _ ↦ rfl) rfl)

theorem Sound.same (h : Sound account s) : Sound account s ∧ Lawful account s event s :=
  ⟨h, Quiet.lawful ⟨rfl, rfl, Nat.le_refl _, Nat.le_refl _⟩⟩

theorem Sound.acquire (h : Sound account s)
    (hstage : ∀ s', Later account [] s s' id → s'.lock = some id → stage.Sound account s' id) :
    Sound account (s.acquire id stage) ∧ Lawful account s event (s.acquire id stage) := by
  rw [Server.acquire]
  split_ifs with hfree
  · exact h.take hfree hstage
  · exact h.same

end quiet

section commits

/-- The commit of a state row that leaves the active snapshot. -/
theorem Sound.commit (h : Sound account s) {state : UserStatsState} (hp : Leaves s id state)
    (hstage : stage.Sound account (s.commit id stage state) id) :
    Sound account (s.commit id stage state) ∧ Lawful account s event (s.commit id stage state) := by
  have hg : Grown account [] s (s.commit id stage state) :=
    ⟨(List.append_nil _).symm, Nat.le_refl _, Nat.le_refl _, Nat.le_of_eq hp.source.symm,
      Nat.le_refl _, by simp, by simp⟩
  have hothers (i : ℕ) (hi : i ≠ id) : Later account [] s (s.commit id stage state) i :=
    ⟨hg, fun hheld ↦ absurd (Option.some.inj (hheld.symm.trans hp.held)) hi,
      fun htoken ↦ ⟨hp.token i hi htoken, fun _ hmem ↦ hmem⟩⟩
  refine ⟨⟨fun hdirty ↦ ?_, fun snapshot hactive ↦ ?_, fun snapshot hmem ↦ ?_,
    sound_runs h rfl hstage hothers⟩, fun _ hmem hnew ↦ absurd hmem hnew,
    fun hne ↦ absurd hp.active hne⟩
  · obtain ⟨snapshot, hmem, hactive, hsource⟩ := h.fresh (hp.dirty hdirty)
    exact ⟨snapshot, hmem, hp.active.trans hactive, hsource.trans hp.source.symm⟩
  · exact h.named snapshot (hp.active.symm.trans hactive)
  · exact (h.kept snapshot hmem).grown hg (by simp)

theorem filter_inserted {snapshots : List UserStatsSnapshot} {snapshot : UserStatsSnapshot}
    (h : ∀ old ∈ snapshots, Older old snapshot) :
    (snapshots ++ [snapshot]).filter (fun other ↦ other.id = snapshot.id) = [snapshot] := by
  have hold : snapshots.filter (fun other ↦ other.id = snapshot.id) = [] := by
    refine List.filter_eq_nil_iff.mpr fun old hmem ↦ ?_
    simpa using Nat.ne_of_lt (h old hmem).id
  rw [List.filter_append, hold, List.nil_append, List.filter_cons_of_pos (by simp),
    List.filter_nil]

/-- The commit of a new snapshot. -/
theorem Sound.publish (h : Sound account s) {now : ℕ} {state : UserStatsState}
    {snapshot : UserStatsSnapshot} (hid : s.runs id = some (.inserted now state snapshot))
    (hs : s' = advance account s id (.inserted now state snapshot)) :
    Sound account s' ∧ Lawful account s (.advance id) s' := by
  have hp : Inserted account s id now state snapshot := h.runs id _ hid
  rw [advance, filter_inserted hp.newer] at hs
  subst hs
  have hg : Grown account [] s { s.release id .returned with
      database := { s.database with state := state, snapshots := [snapshot] } } :=
    ⟨(List.append_nil _).symm, Nat.le_refl _, Nat.le_refl _, Nat.le_of_eq hp.source.symm,
      Nat.le_refl _, by simp, by simp⟩
  have hpublishes : Publishes s (.advance id) snapshot := by
    obtain ⟨time, htime, hnow⟩ := hp.leased
    exact ⟨id, now, time, state, rfl, hid, hp.owned, htime, hnow, hp.newer⟩
  refine ⟨⟨fun _ ↦ ?_, fun other hactive ↦ ?_, fun other hmem ↦ ?_, sound_runs h rfl trivial
    fun i hi ↦ ⟨hg, fun hheld ↦ ?_, fun htoken ↦ ?_⟩⟩, fun other hmem _ ↦ ?_, fun _ ↦ ?_⟩
  · exact ⟨snapshot, List.mem_singleton_self _, hp.active, hp.current.trans hp.source.symm⟩
  · exact ⟨snapshot, List.mem_singleton_self _, Option.some.inj (hp.active.symm.trans hactive)⟩
  · rw [List.mem_singleton.mp hmem]
    exact hp.kept.grown hg (by simp)
  · exact absurd (Option.some.inj (hheld.symm.trans hp.held)) hi
  · exact absurd (Option.some.inj ((hp.token i hi htoken).symm.trans hp.owned)) hi
  · rwa [List.mem_singleton.mp hmem]
  · exact .inr ⟨snapshot, hp.active, hpublishes⟩

/-- The commit of a change of the tables. -/
theorem Sound.change (h : Sound account s) {now : ℕ} {writes : List Write}
    (hid : s.runs id = some (.changed now writes)) (hquiet : Quiet (s.release id .returned)
      { s' with database := s.database, log := s.log })
    (hruns : s'.runs = (s.enter id .returned).runs) (hlock : s'.lock = (s.release id .returned).lock)
    (hlog : s'.log = s.log ++ writes)
    (hw : Written (writes.any (Write.locks account)) (∃ w ∈ writes, w.Concerns account)
      (∃ w ∈ writes, w.Purges account) s.database s'.database) :
    Sound account s' ∧ Lawful account s (.advance id) s' := by
  have hheld : writes.any (Write.locks account) → s.lock = some id := h.runs id _ hid
  have hg : Grown account writes s s' :=
    ⟨hlog, hquiet.clock, hquiet.nextId, hw.source, hw.revision, hw.concerned, hw.outdated⟩
  have hspared {snapshot : UserStatsSnapshot} (hmem : snapshot ∈ s'.database.snapshots) :
      snapshot ∈ s.database.snapshots ∧ ¬∃ w ∈ writes, w.Purges account := by
    by_cases hp : ∃ w ∈ writes, w.Purges account
    · rw [(hw.purged hp).2] at hmem
      exact absurd hmem List.not_mem_nil
    · exact ⟨(hw.spared hp).2 ▸ hmem, hp⟩
  have hothers (i : ℕ) (hi : i ≠ id) : Later account writes s s' i := by
    refine ⟨hg, fun hother ↦ ?_, fun htoken ↦
      ⟨hw.lease.1.symm.trans htoken, fun _ hmem ↦ (hspared hmem).1⟩⟩
    have hfree : ¬writes.any (Write.locks account) := fun hl ↦
      hi (Option.some.inj (hother.symm.trans (hheld hl)))
    obtain ⟨hstate, hsnapshots⟩ := hw.kept hfree
    exact ⟨hlock.trans (lock_release_of_ne hi hother), hstate, hsnapshots,
      fun hp ↦ hfree (hw.locked (.inr hp))⟩
  refine ⟨⟨fun hdirty ↦ ?_, fun snapshot hactive ↦ ?_, fun snapshot hmem ↦ ?_,
    sound_runs h hruns trivial hothers⟩, fun snapshot hmem hnew ↦ ?_, fun hne ↦ ?_⟩
  · have hfree : ¬writes.any (Write.locks account) := fun hl ↦ by
      cases (hw.dirty hl).symm.trans hdirty
    obtain ⟨hstate, hsnapshots⟩ := hw.kept hfree
    rw [Server.state, hstate] at hdirty ⊢
    rw [hsnapshots]
    exact h.fresh hdirty
  · by_cases hp : ∃ w ∈ writes, w.Purges account
    · cases (hw.purged hp).1.symm.trans hactive
    · obtain ⟨hkept, hsnapshots⟩ := hw.spared hp
      rw [hsnapshots]
      exact h.named snapshot (hkept.symm.trans hactive)
  · obtain ⟨hold, hp⟩ := hspared hmem
    exact (h.kept snapshot hold).grown hg hp
  · exact absurd (hspared hmem).1 hnew
  · by_cases hp : ∃ w ∈ writes, w.Purges account
    · exact .inl ⟨(hw.purged hp).1, id, now, writes, rfl, hid, hp⟩
    · exact absurd (hw.spared hp).1 hne

end commits

section steps

section rows

variable (hheld : s.lock = some id) (now : ℕ)

include hheld

theorem Leaves.skipped : Leaves s id (postpone s.state now) :=
  ⟨⟨hheld, by simp, by simp⟩, by simp, by simp⟩

theorem Leaves.claimed : Leaves s id (grant s.state now id) :=
  ⟨⟨hheld, by simp, fun i hi htoken ↦ by simp [hi.symm] at htoken⟩, by simp, by simp⟩

theorem Leaves.refusing : Leaves s id (refuse s.state now) :=
  ⟨⟨hheld, by simp, by simp⟩, by simp, by simp⟩

theorem Leaves.noted : Leaves s id (recordFailure s.state now) :=
  ⟨⟨hheld, by simp, by simp⟩, by simp, by simp⟩

end rows

theorem reading_read : Reading account s s.read.payload s.read.sourceRevision
    s.read.metadataRevision :=
  ⟨Nat.le_refl _, Nat.le_refl _, [], (List.append_nil _).symm, by simp, by simp⟩

theorem leased_eq_true {state : UserStatsState} {now : ℕ} (h : leased state now id = true) :
    state.leaseToken = some id ∧ ∃ time, state.leaseUntil = some time ∧ now < time := by
  rw [leased, owns, Bool.and_eq_true, decide_eq_true_iff, Option.any_eq_true] at h
  obtain ⟨htoken, time, htime, hnow⟩ := h
  exact ⟨htoken, time, htime, of_decide_eq_true hnow⟩

/-- The result of a worker that still owns the lease, under the revisions that it read. -/
theorem Sound.check (h : Sound account s) {now : ℕ} {result : Result}
    (hheld : s.lock = some id) (hc : Called account s id now result)
    (hleased : leased s.state now id = true)
    (hsource : s.state.sourceRevision = result.sourceRevision)
    (hmetadata : s.database.revision = result.metadataRevision) (hq : Quiet s s')
    (hlock : s'.lock = s.lock) (hnext : s'.nextId = s.nextId + 1) :
    Inserted account s' id now (activate s.state now account (s.snapshot now result))
      (s.snapshot now result) := by
  have hstate : s'.state = s.state := by rw [Server.state, Server.state, hq.database]
  obtain ⟨htoken, hlease⟩ := leased_eq_true hleased
  obtain ⟨rest, hlog, -, hpurges⟩ := hc.reading.since
  have hkept : Stored account s' (s.snapshot now result) :=
    ⟨hnext ▸ Nat.lt_succ_self _, Reading.grown hc.reading hq.grown,
      stored_le_stored (Nat.le_trans hc.now_le hq.clock), rest, hq.log.trans hlog,
      hpurges hsource.symm hmetadata.symm⟩
  refine ⟨⟨hlock.trans hheld, by rw [hstate, activate_sourceRevision], by simp⟩, by simp,
    hstate ▸ htoken, hstate ▸ hlease, hstate ▸ hsource.symm, hkept, fun old hold ↦ ?_⟩
  rw [hq.database] at hold
  have hstored := h.kept old hold
  exact ⟨hstored.id, Nat.le_trans hstored.reading.source_le (Nat.le_of_eq hsource),
    Nat.le_trans hstored.reading.metadata_le (Nat.le_of_eq hmetadata), hc.last htoken old hold⟩

theorem Sound.advance (h : Sound account s) (hid : s.runs id = some stage) :
    Sound account (advance account s id stage) ∧
      Lawful account s (.advance id) (Snapshots.advance account s id stage) := by
  have hstage := h.runs id stage hid
  cases stage with
  | claiming now =>
    rw [Snapshots.advance]
    split_ifs with hdue
    · exact h.take hdue.1 fun _ _ hheld ↦ hheld
    · exact h.enter trivial
  | granting now =>
    rw [Snapshots.advance]
    split_ifs
    · exact h.enter (Leaves.skipped hstage now)
    · exact h.enter (Leaves.claimed hstage now)
  | skipped state | noted state | refusing state | claimed state => exact h.commit hstage trivial
  | computing =>
    rw [Snapshots.advance]
    split_ifs
    · exact h.enter reading_read
    · exact h.enter trivial
  | computed result =>
    have hc : Called account s id s.clock result :=
      ⟨hstage, Nat.le_refl _, fun _ snapshot hmem ↦ (h.kept snapshot hmem).computedAt⟩
    exact h.enter hc
  | publishing now result => exact h.acquire fun _ hl hheld ↦ ⟨hheld, Called.later hstage hl⟩
  | checking now result =>
    obtain ⟨hheld, hc⟩ := hstage
    rw [Snapshots.advance]
    split_ifs with hleased hcurrent
    · have hq : Quiet s { s.enter id (.inserted now (activate s.state now account
          (s.snapshot now result)) (s.snapshot now result)) with nextId := s.nextId + 1 } :=
        ⟨rfl, rfl, Nat.le_refl _, Nat.le_succ _⟩
      exact h.quiet hq rfl (fun _ _ hheld ↦ hheld)
        (h.check hheld hc hleased hcurrent.1 hcurrent.2 hq rfl rfl)
    · exact h.enter (Leaves.refusing hheld now)
    · exact h.release fun _ ↦ trivial
  | inserted now state snapshot => exact h.publish hid rfl
  | failing => exact h.enter trivial
  | recording now => exact h.acquire fun _ _ hheld ↦ hheld
  | noting now =>
    rw [Snapshots.advance]
    split_ifs
    · exact h.enter (Leaves.noted hstage now)
    · exact h.release fun _ ↦ trivial
  | changing now writes =>
    rw [Snapshots.advance]
    split_ifs with hlocks
    · exact h.acquire fun _ _ hheld _ ↦ hheld
    · exact h.enter fun hl ↦ absurd hl hlocks
  | changed now writes =>
    exact h.change hid ⟨rfl, rfl, Nat.le_refl _, Nat.le_refl _⟩ rfl rfl rfl (written_writes ..)
  | returned | raised => exact h.same

theorem Sound.fail (h : Sound account s) :
    Sound account (fail s id stage) ∧ Lawful account s event (Snapshots.fail s id stage) := by
  cases stage with
  | returned | raised => exact h.same
  | _ => exact h.release fun _ ↦ trivial

theorem Sound.step (h : Sound account s) (event : Event) :
    Sound account (step account s event) ∧
      Lawful account s event (Snapshots.step account s event) := by
  cases event with
  | claim id | change id writes =>
    rw [Snapshots.step]
    split_ifs
    · exact h.enter trivial
    · exact h.same
  | advance id =>
    rw [Snapshots.step]
    cases hid : s.runs id with
    | none => exact h.same
    | some stage => exact h.advance hid
  | fail id =>
    rw [Snapshots.step]
    cases s.runs id with
    | none => exact h.same
    | some stage => exact h.fail
  | cancel id =>
    rw [Snapshots.step]
    split_ifs
    · exact h.same
    · exact h.release fun _ ↦ trivial
  | pass time =>
    have hq : Quiet s (Snapshots.step account s (.pass time)) :=
      ⟨rfl, rfl, Nat.le_add_right _ _, Nat.le_refl _⟩
    exact ⟨hq.sound h fun i other hi ↦ (h.runs i other hi).later (hq.later fun hheld ↦ hheld),
      hq.lawful⟩

end steps

theorem sound_initial (account revision clock : ℕ) : Sound account (.initial revision clock) where
  fresh hdirty := by cases hdirty
  named _ hactive := by cases hactive
  kept _ hmem := absurd hmem List.not_mem_nil
  runs _ _ hid := by cases hid

/-- Whatever workers and changes of the tables do, in whatever order, statistics that are not dirty
are those of the current history, nothing outlives a purge, and a snapshot is replaced by a newer
one that the owner of the lease publishes. -/
theorem throughout_published (account revision clock : ℕ) (events : List Event) :
    Throughout (step account)
      (fun s event ↦ Published account s ∧ Published account (step account s event) ∧
        Lawful account s event (step account s event))
      (.initial revision clock) events :=
  throughout_of_invariant (I := Sound account) (sound_initial account revision clock)
    fun _ event h ↦ have ⟨hs, hl⟩ := h.step event
      ⟨⟨h.published, hs.published, hl⟩, hs⟩

/-- A worker that waits for the state row for the rest of its lease, and then publishes. -/
def lateRun : List Event :=
  [.claim 0, .advance 0, .advance 0, .advance 0, .advance 0, .advance 0, .pass leaseTime,
    .advance 0, .advance 0, .advance 0]

theorem expired_lease_publishes :
    ¬Throughout (step 1)
      (fun s event ↦ (step 1 s event).state.activeSnapshotId = s.state.activeSnapshotId ∨
        (step 1 s event).state.activeSnapshotId = none ∨
          s.state.leaseUntil.any fun time ↦ decide (s.clock < time))
      (.initial 0 0) lateRun := by
  decide +kernel

end AnyList.Statistics.Snapshots
