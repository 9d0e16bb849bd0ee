import AnyList.Statistics.SnapshotWorkers

namespace AnyList.Statistics.Snapshots

/-- What triggers leave of an account: whether they wrote its state row, whether its history
changed, and whether it was purged. -/
structure Written (locks concerns purges : Prop) (db db' : Database) : Prop where
  lease : db'.state.leaseToken = db.state.leaseToken ∧ db'.state.leaseUntil = db.state.leaseUntil
  source : db.state.sourceRevision ≤ db'.state.sourceRevision
  revision : db.revision ≤ db'.revision
  locked : concerns ∨ purges → locks
  kept : ¬locks → db'.state = db.state ∧ db'.snapshots = db.snapshots
  dirty : locks → db'.state.dirty = true
  concerned : concerns → db.state.sourceRevision < db'.state.sourceRevision
  outdated : purges →
    db.state.sourceRevision < db'.state.sourceRevision ∨ db.revision < db'.revision
  purged : purges → db'.state.activeSnapshotId = none ∧ db'.snapshots = []
  spared : ¬purges → db'.state.activeSnapshotId = db.state.activeSnapshotId ∧
    db'.snapshots = db.snapshots

namespace Written

variable {locks concerns purges locks' concerns' purges' : Prop} {db db' db'' : Database}

theorem rfl : Written False False False db db where
  lease := ⟨.refl _, .refl _⟩
  source := Nat.le_refl _
  revision := Nat.le_refl _
  locked h := h.elim id id
  kept _ := ⟨.refl _, .refl _⟩
  dirty := False.elim
  concerned := False.elim
  outdated := False.elim
  purged := False.elim
  spared _ := ⟨.refl _, .refl _⟩

theorem trans (h : Written locks concerns purges db db')
    (h' : Written locks' concerns' purges' db' db'') :
    Written (locks ∨ locks') (concerns ∨ concerns') (purges ∨ purges') db db'' where
  lease := ⟨h'.lease.1.trans h.lease.1, h'.lease.2.trans h.lease.2⟩
  source := Nat.le_trans h.source h'.source
  revision := Nat.le_trans h.revision h'.revision
  locked := by
    rintro ((hc | hc) | (hp | hp))
    · exact .inl (h.locked (.inl hc))
    · exact .inr (h'.locked (.inl hc))
    · exact .inl (h.locked (.inr hp))
    · exact .inr (h'.locked (.inr hp))
  kept hfree := by
    obtain ⟨hstate, hsnapshots⟩ := h.kept fun hl ↦ hfree (.inl hl)
    obtain ⟨hstate', hsnapshots'⟩ := h'.kept fun hl ↦ hfree (.inr hl)
    exact ⟨hstate'.trans hstate, hsnapshots'.trans hsnapshots⟩
  dirty hl := by
    by_cases hl' : locks'
    · exact h'.dirty hl'
    · rw [(h'.kept hl').1]
      exact h.dirty (hl.resolve_right hl')
  concerned hc := by
    rcases hc with hc | hc
    · exact Nat.lt_of_lt_of_le (h.concerned hc) h'.source
    · exact Nat.lt_of_le_of_lt h.source (h'.concerned hc)
  outdated hp := by
    have hsource := h.source
    have hsource' := h'.source
    have hrevision := h.revision
    have hrevision' := h'.revision
    rcases hp with hp | hp
    · have := h.outdated hp
      omega
    · have := h'.outdated hp
      omega
  purged hp := by
    by_cases hp' : purges'
    · exact h'.purged hp'
    · obtain ⟨hactive, hsnapshots⟩ := h.purged (hp.resolve_right hp')
      obtain ⟨hactive', hsnapshots'⟩ := h'.spared hp'
      exact ⟨hactive'.trans hactive, hsnapshots'.trans hsnapshots⟩
  spared hp := by
    obtain ⟨hactive, hsnapshots⟩ := h.spared fun hp' ↦ hp (.inl hp')
    obtain ⟨hactive', hsnapshots'⟩ := h'.spared fun hp' ↦ hp (.inr hp')
    exact ⟨hactive'.trans hactive, hsnapshots'.trans hsnapshots⟩

theorem congr (h : Written locks concerns purges db db') (hlocks : locks ↔ locks')
    (hconcerns : concerns ↔ concerns') (hpurges : purges ↔ purges') :
    Written locks' concerns' purges' db db' := by
  rwa [hlocks, hconcerns, hpurges] at h

/-- What each step of a list leaves, all of them leave. -/
theorem foldl {α : Type} {f : Database → α → Database} {locks concerns purges : α → Prop}
    (h : ∀ db a, Written (locks a) (concerns a) (purges a) db (f db a)) (as : List α)
    (db : Database) :
    Written (∃ a ∈ as, locks a) (∃ a ∈ as, concerns a) (∃ a ∈ as, purges a) db
      (as.foldl f db) := by
  induction as generalizing db with
  | nil => exact rfl.congr (by simp) (by simp) (by simp)
  | cons a as ih => exact ((h db a).trans (ih _)).congr (by simp) (by simp) (by simp)

end Written

variable (account now : ℕ)

theorem written_statsMarkUser (db : Database) (call : ℕ × Bool) :
    Written (call.1 = account) (call.1 = account) (call.1 = account ∧ call.2 = true) db
      (statsMarkUser account now db call) := by
  obtain ⟨target, purge⟩ := call
  rw [statsMarkUser]
  by_cases htarget : target = account
  · rw [if_pos htarget]
    constructor <;> cases purge <;> simp [htarget]
  · rw [if_neg htarget]
    exact Written.rfl.congr (by simp [htarget]) (by simp [htarget]) (by simp [htarget])

/-- What the trigger on personal facts relies on: rows with the same facts are of the same account
and title, and no play is undone between them. -/
structure HistoryTable.Lawful {Row : Type} (table : HistoryTable Row) : Prop where
  userId : ∀ {old new}, table.facts old = table.facts new → table.userId old = table.userId new
  mediaId : ∀ {old new}, table.facts old = table.facts new → table.mediaId old = table.mediaId new
  undone : ∀ {old new}, table.facts old = table.facts new → table.undone old new = false

theorem lawful_watchEvents : watchEvents.Lawful where
  userId h := congrArg WatchEvent.userId h
  mediaId h := congrArg WatchEvent.mediaId h
  undone := by
    rintro old _ rfl
    cases hcompleted : old.completed <;> cases hdate : old.watchedAt <;>
      simp [watchEvents, hcompleted, hdate]

theorem lawful_trackedEntries : trackedEntries.Lawful where
  userId h := (TrackedEntry.mk.inj h).1
  mediaId h := (TrackedEntry.mk.inj h).2.1
  undone _ := rfl

section row

variable {Row : Type} [DecidableEq Row] {table : HistoryTable Row} (h : table.Lawful)
  (change : RowChange Row)

include h

theorem marks_iff_concerns :
    (∃ call ∈ statsUserFactChanged table change, call.1 = account) ↔
      change.Concerns table account := by
  cases change with
  | inserted new | deleted old => simp [statsUserFactChanged, RowChange.Concerns]
  | updated old new =>
    rw [statsUserFactChanged, RowChange.Concerns]
    by_cases hfacts : table.facts old = table.facts new
    · simp [hfacts, h.userId hfacts, h.mediaId hfacts]
    · by_cases hmoved : table.userId old ≠ table.userId new ∨ table.mediaId old ≠ table.mediaId new
      · simp [hfacts, hmoved]
      · have hsame : table.userId old = table.userId new := not_not.mp fun hne ↦ hmoved (.inl hne)
        simp [hfacts, hsame]

theorem marks_purge_iff_removes :
    (∃ call ∈ statsUserFactChanged table change, call.1 = account ∧ call.2 = true) ↔
      change.Removes table account := by
  cases change with
  | inserted new | deleted old => simp [statsUserFactChanged, RowChange.Removes]
  | updated old new =>
    rw [statsUserFactChanged, RowChange.Removes]
    by_cases hfacts : table.facts old = table.facts new
    · simp [hfacts, h.userId hfacts, h.mediaId hfacts, h.undone hfacts]
    · by_cases hmoved : table.userId old ≠ table.userId new ∨ table.mediaId old ≠ table.mediaId new
      · simp [hfacts, hmoved]
      · simp [hfacts, hmoved]

theorem written_statsUserFactChanged (db : Database) :
    Written ((statsUserFactChanged table change).any (·.1 = account))
      (change.Concerns table account) (change.Removes table account) db
      ((statsUserFactChanged table change).foldl (statsMarkUser account now) db) :=
  (Written.foldl (written_statsMarkUser account now) _ db).congr (by simp)
    (marks_iff_concerns account h change) (marks_purge_iff_removes account h change)

end row

theorem written_run (db : Database) (write : Write) :
    Written (write.locks account) (write.Concerns account) (write.Purges account) db
      (write.run account now db) := by
  cases write with
  | watch change => exact written_statsUserFactChanged account now lawful_watchEvents change db
  | entry change => exact written_statsUserFactChanged account now lawful_trackedEntries change db
  | metadata =>
    rw [Write.run, statsMetadataChanged]
    constructor <;> simp [Write.locks, Write.Concerns, Write.Purges]
  | settings change =>
    rw [Write.run, statsVisibilityChanged]
    cases hvisible : change.visibility <;> constructor <;>
      simp [Write.locks, Write.Concerns, Write.Purges, hvisible]

/-- The triggers of a transaction. -/
theorem written_writes (db : Database) (writes : List Write) :
    Written (writes.any (Write.locks account)) (∃ w ∈ writes, w.Concerns account)
      (∃ w ∈ writes, w.Purges account) db (writes.foldl (Write.run account now) db) :=
  (Written.foldl (written_run account now) writes db).congr (by simp) Iff.rfl Iff.rfl

end AnyList.Statistics.Snapshots
