import AnyList.Cycles.UnchangedProviders

namespace AnyList.Cycles.ProviderChanges

open AnyList.Library
open AnyList.Cycles.AccountCycle (SyncStatus)

variable {s s' : State} {c c' : Cycle} {id : ℕ} {source : Source} {job job' : PullJob}
  {cp : Checkpoint}

section phases

/-- A step of the cycle that leaves the accounts as they are. -/
theorem Reconciled.setCycle (h : Reconciled s) (hs : s.cycle = some c) (hgoes : GoesOn c c')
    (hstages : c'.stages = c.stages) : Reconciled (s.setCycle c') := by
  refine ⟨h.jobs, fun c'' hc'' ↦ ?_⟩
  obtain rfl := Option.some.inj hc''
  have hc := h.cycle c hs
  have later : Later s (s.setCycle c') := .of_connections rfl (List.Subset.refl _)
  refine hc.goesOn hgoes later (fun hq i ↦ ?_) fun child _ job hjob hok ↦ ⟨job, hjob, ?_⟩
  · rw [hstages]
    exact hc.idle (hgoes.phase.mp hq) i
  · exact hok.goesOn hgoes later (.refl job) (fun hquiet ↦ hquiet) (fun _ hlive ↦ hlive)
      (congrFun hstages _)

theorem Reconciled.closeWindow (h : Reconciled s) (raised : Bool) :
    Reconciled (closeWindow s raised) := by
  unfold ProviderChanges.closeWindow
  cases hs : s.cycle with
  | none => exact h
  | some c =>
    dsimp only
    split
    · rename_i hclose
      refine h.setCycle hs ⟨rfl, rfl, ?_, rfl, List.Subset.refl _, fun _ ↦ ⟨?_, rfl⟩⟩ rfl
      · rw [hclose.1]
        dsimp only
        split <;> decide
      · rw [hclose.1]
        decide
    · exact h

theorem Reconciled.failCycle (h : Reconciled s) : Reconciled (failCycle s) := by
  unfold ProviderChanges.failCycle
  cases hs : s.cycle with
  | none => exact h
  | some c =>
    dsimp only
    split
    · exact h
    · rename_i hphase
      refine h.setCycle hs ⟨rfl, rfl, ?_, rfl, List.Subset.refl _, fun hq ↦ absurd rfl hq⟩ rfl
      exact ⟨fun hq ↦ (by cases hq), fun hq ↦ absurd hq hphase⟩

/-- The stages have not begun, so nothing yet refers to the captured identities. -/
theorem Reconciled.beginCycle (h : Reconciled s) : Reconciled (beginCycle s) := by
  unfold ProviderChanges.beginCycle
  cases hs : s.cycle with
  | none => exact h
  | some c =>
    dsimp only
    split
    swap
    · exact h
    rename_i hphase
    refine ⟨h.jobs, fun c' hc' ↦ ?_⟩
    obtain rfl := Option.some.inj hc'
    have hc := h.cycle c hs
    refine ⟨fun child hchild ↦ ?_, hc.distinct, hc.known, fun i v hv ↦ ?_, ?_, fun _ ↦ ?_⟩
    · obtain ⟨job, hjob, hok⟩ := hc.child child hchild
      have hstage := hok.stage
      rw [hc.idle hphase] at hstage
      refine ⟨job, hjob, hok.pulls, fun _ _ i conn _ hconn ↦ ?_, ?_, fun cp hcp ↦ ?_⟩
      · exact congrArg (Option.map _) (Table.get_eq_some.mpr hconn)
      · simp only [hc.idle hphase]
        exact hstage
      · exact absurd hphase (hok.pending cp hcp).1
    · obtain ⟨conn, hconn, rfl⟩ := Option.map_eq_some_iff.mp hv
      have hmem := Table.get_eq_some.mp hconn
      refine ⟨s.accounts.connections.bounded _ hmem, fun conn' hconn' ↦ ?_⟩
      rw [Table.eq_of_mem hmem hconn']
    · exact fun hq ↦ by cases hq
    · exact hc.collecting (by simp [hphase])

theorem validSource_version {a : Accounts} {versions : ℕ → Option ℕ} {i : ℕ} {conn : Connection}
    (hinvalid : validSource a versions (.connection i) = false)
    (hconn : (i, conn) ∈ a.connections.rows) : some conn.identityVersion ≠ versions i := by
  simpa [validSource, Table.get_eq_some.mpr hconn] using hinvalid

/-- What a finalize leaves out was fetched for an account that its connection has left. -/
theorem CycleOk.finalized (hc : CycleOk s c) {child : ℕ × Source} (hchild : child ∈ c.children)
    (hstaged : (⟨child.2, some cp⟩ : Pull) ∈ c.staged) (hfresh : Fresh c child.2 cp) :
    (⟨child.2, some cp⟩ : Pull) ∈ (c.staged.filter fun pull ↦
      validSource s.accounts c.versions pull.source) ∨ Outdated s.accounts child.2 cp := by
  by_cases hvalid : validSource s.accounts c.versions child.2 = true
  · exact .inl (List.mem_filter.mpr ⟨hstaged, hvalid⟩)
  · right
    rw [Bool.not_eq_true] at hvalid
    obtain ⟨i, hi⟩ : ∃ i, child.2 = .connection i := by
      cases hsource : child.2 with
      | connection i => exact ⟨i, rfl⟩
      | cloud provider => simp [hsource, validSource] at hvalid
    refine ⟨i, hi, hc.known child hchild i hi, fun conn hconn ↦ ?_⟩
    have hversion := hfresh i hi
    have hle := (hc.captured i _ hversion).2 conn hconn
    have hne := validSource_version (hi ▸ hvalid) hconn
    rw [hversion] at hne
    exact hle.lt_of_ne fun heq ↦ hne (congrArg some heq.symm)

theorem Reconciled.finalize (h : Reconciled s) : Reconciled (finalize s) := by
  unfold ProviderChanges.finalize
  cases hs : s.cycle with
  | none => exact h
  | some c =>
    dsimp only
    split
    swap
    · exact h
    rename_i hphase
    have hc := h.cycle c hs
    set s' : State := { s with
      reconciled := (c.staged.filter fun pull ↦
        validSource s.accounts c.versions pull.source) ++ s.reconciled
      cycle := some { c with phase := .leaving, collecting := false, reconciled := true } } with hs'
    have later : Later s s' := .of_connections rfl (List.subset_append_right _ _)
    refine ⟨fun i job hjob cp hcp ↦ (h.jobs i job hjob cp hcp).later later, fun c' hc' ↦ ?_⟩
    obtain rfl := Option.some.inj hc'
    refine ⟨fun child hchild ↦ ?_, hc.distinct, hc.known, hc.captured, fun hq ↦ (by cases hq),
      fun hq ↦ absurd rfl hq⟩
    obtain ⟨job, hjob, hok⟩ := hc.child child hchild
    refine ⟨job, hjob, hok.pulls, fun ha _ ↦ hok.live ha (by simp [hphase]), ?_, fun cp hcp ↦ ?_⟩
    · exact hok.stage.later rfl (List.Subset.refl _) later (.refl job) fun hquiet ↦ hquiet
    · obtain ⟨_, hw⟩ := hok.pending cp hcp
      refine ⟨by simp, ?_⟩
      have hnot := (hc.collecting (by simp [hphase])).2
      rw [Awaited, if_neg (by simp [hnot])] at hw
      rw [Awaited, if_pos rfl]
      obtain hmem | hout := hc.finalized hchild hw.1 hw.2
      · exact .inl (List.mem_append_left _ hmem)
      · exact .inr hout

theorem abort_source (job : PullJob) : job.abort.source = job.source := by
  unfold PullJob.abort
  split <;> rfl

theorem abort_stats (job : PullJob) : job.abort.stats = job.stats := by
  unfold PullJob.abort
  split <;> rfl

/-- The process is gone: what is left are the jobs. -/
theorem Reconciled.restart (h : Reconciled s) : Reconciled (restart s) := by
  refine ⟨h.jobs.step (.of_connections rfl (List.Subset.refl _)) fun i job' hjob' ↦ .inr ?_,
    fun c hc ↦ by cases hc⟩
  obtain ⟨job, hjob, rfl⟩ := Table.mem_modify.mp hjob'
  refine ⟨job, hjob, abort_source job, fun cp hcp ↦ .inl ?_⟩
  rwa [abort_stats] at hcp

theorem settleCheckpoint_provider {reconciled strip : Bool} {stats : JobStats}
    (h : (settleCheckpoint reconciled strip stats).providerCheckpoint = some cp) :
    stats.providerCheckpoint = some cp ∨
      reconciled = true ∧ stats.pendingCheckpoint = some cp := by
  cases strip with
  | true => simp [settleCheckpoint] at h
  | false =>
    cases reconciled with
    | false => exact .inl (by simpa [settleCheckpoint] using h)
    | true =>
      simp only [settleCheckpoint, if_true, Bool.false_eq_true, if_false,
        Option.or_eq_some_iff] at h
      obtain hpending | ⟨_, hsaved⟩ := h
      · exact .inr ⟨rfl, hpending⟩
      · exact .inl hsaved

theorem Reconciled.endCycle (h : Reconciled s) : Reconciled (endCycle s) := by
  unfold ProviderChanges.endCycle
  cases hs : s.cycle with
  | none => exact h
  | some c =>
    dsimp only
    split
    swap
    · exact h
    have hc := h.cycle c hs
    refine ⟨h.jobs.step (.of_connections rfl (List.Subset.refl _)) fun i job' hjob' ↦ .inr ?_,
      fun c hc ↦ by cases hc⟩
    obtain ⟨aborted, haborted, rfl⟩ := Table.mem_modify.mp hjob'
    obtain ⟨job, hjob, rfl⟩ := Table.mem_modify.mp haborted
    refine ⟨job, hjob, ?_⟩
    by_cases hi : i ∈ c.children.map Prod.fst
    swap
    · simp only [if_neg hi, true_and]
      exact fun cp hcp ↦ .inl hcp
    simp only [if_pos hi]
    refine ⟨abort_source job, fun cp hcp ↦ ?_⟩
    obtain hsaved | ⟨hreconciled, hpending⟩ := settleCheckpoint_provider hcp
    · rw [abort_stats] at hsaved
      exact .inl hsaved
    · rw [abort_stats] at hpending
      obtain ⟨child, hchild, rfl⟩ := List.mem_map.mp hi
      have hok := hc.child_mem hchild hjob
      obtain ⟨_, hw⟩ := hok.pending cp hpending
      rw [Awaited, if_pos hreconciled] at hw
      rw [hok.pulls]
      exact .inr hw

theorem queueChildren_spec (jobs : Table PullJob) (targets : List Source) :
    (∀ row ∈ (queueChildren jobs targets).1.rows,
      row ∈ jobs.rows ∨ ∃ source, row.2 = pendingJob source) ∧
    (∀ row ∈ jobs.rows, row ∈ (queueChildren jobs targets).1.rows) ∧
    (queueChildren jobs targets).2.map Prod.snd = targets ∧
    ∀ child ∈ (queueChildren jobs targets).2,
      (child.1, pendingJob child.2) ∈ (queueChildren jobs targets).1.rows := by
  induction targets generalizing jobs with
  | nil => exact ⟨fun row hrow ↦ .inl hrow, fun row hrow ↦ hrow, rfl, fun child hchild ↦ by cases hchild⟩
  | cons source targets ih =>
    obtain ⟨hnew, hold, hsources, hchildren⟩ := ih (jobs.insert (pendingJob source))
    refine ⟨fun row hrow ↦ ?_, fun row hrow ↦ hold row (Table.mem_insert.mpr (.inl hrow)),
      congrArg (source :: ·) hsources, fun child hchild ↦ ?_⟩
    · obtain hrow | hrow := hnew row hrow
      · obtain hrow | rfl := Table.mem_insert.mp hrow
        · exact .inl hrow
        · exact .inr ⟨source, rfl⟩
      · exact .inr hrow
    · obtain rfl | hchild := List.mem_cons.mp hchild
      · exact hold _ (Table.mem_insert.mpr (.inr rfl))
      · exact hchildren child hchild

theorem known_of_present (h : present s.accounts source = true) : Known s source := by
  rintro i rfl
  obtain ⟨conn, hconn⟩ := Option.isSome_iff_exists.mp h
  exact s.accounts.connections.bounded _ (Table.get_eq_some.mp hconn)

theorem Reconciled.queueAccountPull (h : Reconciled s) (targets : List Source) :
    Reconciled (queueAccountPull s targets) := by
  unfold ProviderChanges.queueAccountPull
  cases hs : s.cycle with
  | some c => exact h
  | none =>
    dsimp only
    split
    · exact h
    rename_i hadmit
    simp only [not_or, not_not, not_exists, not_and, Bool.not_eq_false] at hadmit
    obtain ⟨_, hnodup, hpresent⟩ := hadmit
    obtain ⟨hnew, hold, hsources, hchildren⟩ := queueChildren_spec s.accounts.jobs targets
    refine ⟨h.jobs.step (.of_connections rfl (List.Subset.refl _)) fun i job' hjob' ↦ ?_,
      fun c hc ↦ ?_⟩
    · obtain hrow | ⟨source, hrow⟩ := hnew _ hjob'
      · exact .inr ⟨job', hrow, rfl, fun cp hcp ↦ .inl hcp⟩
      · left
        rw [show job' = pendingJob source from hrow]
        rfl
    · obtain rfl := Option.some.inj hc
      refine ⟨fun child hchild ↦ ⟨pendingJob child.2, hchildren child hchild, ?_⟩, ?_, ?_, ?_,
        fun _ _ ↦ rfl, fun _ ↦ ⟨rfl, rfl⟩⟩
      · exact ⟨rfl, fun _ hq ↦ absurd rfl hq, fun hq ↦ (by cases hq), fun cp hcp ↦ (by cases hcp)⟩
      · rw [hsources]
        exact hnodup
      · intro child hchild
        refine known_of_present (hpresent child.2 ?_)
        rw [← hsources]
        exact List.mem_map_of_mem hchild
      · exact fun i v hv ↦ by cases hv

end phases

section accounts

/-- A step of the owner, or of a job outside the cycle. -/
theorem Reconciled.outside (h : Reconciled s) (later : Later s s') (hcycle : s'.cycle = s.cycle)
    (hback : ∀ i job', (i, job') ∈ s'.accounts.jobs.rows →
      job'.stats.providerCheckpoint = none ∨ ∃ job, (i, job) ∈ s.accounts.jobs.rows ∧
        job'.source = job.source ∧ job'.stats = job.stats)
    (htame : ∀ c, s.cycle = some c → ∀ child ∈ c.children, ∀ job,
      (child.1, job) ∈ s.accounts.jobs.rows → ∃ job', (child.1, job') ∈ s'.accounts.jobs.rows ∧
        Tame job job' ∧ (job'.status.active = true → job'.source = child.2 → Steady s s' child.2))
    (hquiet : ∀ source, Known s source → Quiet s source → Quiet s' source) : Reconciled s' := by
  constructor
  · refine h.jobs.step later fun i job' hjob' ↦ ?_
    obtain hnone | ⟨job, hjob, hsource, hstats⟩ := hback i job' hjob'
    · exact .inl hnone
    · refine .inr ⟨job, hjob, hsource, fun cp hcp ↦ .inl ?_⟩
      rwa [hstats] at hcp
  · intro c hc'
    rw [hcycle] at hc'
    have hc := h.cycle c hc'
    have hgoes : GoesOn c c := ⟨rfl, rfl, .rfl, rfl, List.Subset.refl _, fun hq ↦ ⟨hq, rfl⟩⟩
    refine hc.goesOn hgoes later hc.idle fun child hchild job hjob hok ↦ ?_
    obtain ⟨job', hjob', tame, hsteady⟩ := htame c hc' child hchild job hjob
    have hk := hc.known child hchild
    refine ⟨job', hjob', hok.goesOn hgoes later tame (hquiet _ hk) (fun ha hlive ↦ ?_) rfl⟩
    exact hlive.steady (hsteady ha (tame.source.trans hok.pulls)) hk

/-- A step that leaves the jobs as they are and moves no connection to another account. -/
theorem Reconciled.steady (h : Reconciled s) (later : Later s s') (hcycle : s'.cycle = s.cycle)
    (hjobs : s'.accounts.jobs = s.accounts.jobs) (hsteady : ∀ source, Steady s s' source) :
    Reconciled s' := by
  refine h.outside later hcycle (fun i job' hjob' ↦ .inr ?_) (fun c _ child _ job hjob ↦ ?_)
    fun source hk hq ↦ hq.steady (hsteady source) hk
  · rw [hjobs] at hjob'
    exact ⟨job', hjob', rfl, rfl⟩
  · refine ⟨job, ?_, .refl job, fun _ _ ↦ hsteady _⟩
    rwa [hjobs]

theorem Reconciled.connect (h : Reconciled s) (conn : Connection) : Reconciled (connect s conn) := by
  have hold {i : ℕ} {conn' : Connection} (hi : i < s.accounts.connections.next)
      (hconn' : (i, conn') ∈ (s.accounts.connections.insert conn).rows) :
      (i, conn') ∈ s.accounts.connections.rows := by
    obtain hconn' | hconn' := Table.mem_insert.mp hconn'
    · exact hconn'
    · exact absurd (congrArg Prod.fst hconn') hi.ne
  refine h.steady ⟨List.Subset.refl _, Nat.le_succ _, fun i hi conn' hconn' ↦ ?_⟩ rfl rfl
    fun source i conn' _ hi hconn' ↦ ?_
  · exact ⟨conn', hold hi hconn', le_rfl⟩
  · exact ⟨conn', hold hi hconn', rfl, fun hquiet ↦ hquiet⟩

theorem Reconciled.disconnect (h : Reconciled s) (id : ℕ) : Reconciled (disconnect s id) := by
  have hold {i : ℕ} {conn' : Connection}
      (hconn' : (i, conn') ∈ (s.accounts.connections.eraseAt id).rows) :
      (i, conn') ∈ s.accounts.connections.rows := List.mem_of_mem_filter hconn'
  refine h.steady ⟨List.Subset.refl _, le_rfl, fun i _ conn' hconn' ↦ ?_⟩ rfl rfl
    fun source i conn' _ _ hconn' ↦ ?_
  · exact ⟨conn', hold hconn', le_rfl⟩
  · exact ⟨conn', hold hconn', rfl, fun hquiet ↦ hquiet⟩

theorem Reconciled.editConnection (h : Reconciled s) (id : ℕ) (edited : Connection) :
    Reconciled (editConnection s id edited) := by
  have hconn : (ProviderChanges.editConnection s id edited).accounts.connections =
      s.accounts.connections.modifyAt id edited.edit := rfl
  refine h.steady (.of_modifyAt hconn (List.Subset.refl _) fun _ ↦ le_rfl) rfl rfl fun _ ↦
    .of_modifyAt hconn (.inr fun conn ↦ ⟨rfl, fun hquiet ↦ ?_⟩)
  simp [Connection.edit, hquiet]

theorem Reconciled.editCloud (h : Reconciled s) (provider : CloudProvider)
    (settings : CloudSettings) : Reconciled (editCloud s provider settings) :=
  h.steady (.of_connections rfl (List.Subset.refl _)) rfl rfl fun _ ↦ .of_connections rfl

theorem Reconciled.otherPull (h : Reconciled s) (source : Source) :
    Reconciled (otherPull s source) := by
  unfold ProviderChanges.otherPull
  split
  swap
  · exact h
  refine h.outside (.of_connections rfl (List.Subset.refl _)) rfl (fun i job' hjob' ↦ ?_)
    (fun c _ child _ job hjob ↦ ?_) fun _ _ hq ↦ hq
  · obtain hjob' | hjob' := Table.mem_insert.mp hjob'
    · exact .inr ⟨job', hjob', rfl, rfl⟩
    · left
      rw [(Prod.mk.inj hjob').2]
      rfl
  · exact ⟨job, Table.mem_insert.mpr (.inl hjob), .refl job, fun _ _ ↦ .of_connections rfl⟩

theorem Reconciled.settleOther (h : Reconciled s) (id : ℕ) (status : SyncStatus) :
    Reconciled (settleOther s id status) := by
  unfold ProviderChanges.settleOther
  split
  · exact h
  rename_i hother
  refine h.outside (.of_connections rfl (List.Subset.refl _)) rfl (fun i job' hjob' ↦ ?_)
    (fun c hc child hchild job hjob ↦ ?_) fun _ _ hq ↦ hq
  · obtain ⟨job, hjob, rfl⟩ := Table.mem_modifyAt.mp hjob'
    split
    · split
      · exact .inl rfl
      · exact .inr ⟨job, hjob, rfl, rfl⟩
    · exact .inr ⟨job, hjob, rfl, rfl⟩
  · have hne : child.1 ≠ id := by
      rintro rfl
      rw [hc] at hother
      simp only [Option.map_some, Option.getD_some, decide_eq_true_eq] at hother
      exact hother (List.mem_map_of_mem hchild)
    refine ⟨job, Table.mem_modifyAt.mpr ⟨job, hjob, ?_⟩, .refl job, fun _ _ ↦ .of_connections rfl⟩
    rw [if_neg hne]

theorem cancelPulls_tame (id : ℕ) (job : PullJob) : Tame job (cancelPulls id job) := by
  unfold cancelPulls
  split
  · exact ⟨rfl, rfl, .inr ⟨rfl, fun hcompleted ↦ by cases hcompleted⟩⟩
  · exact .refl job

theorem cancelPulls_active (ha : (cancelPulls id job).status.active = true)
    (hsource : job.source = .connection id) : job.source = .connection id ∧ job.status = .running := by
  unfold cancelPulls at ha
  split at ha
  · cases ha
  · rename_i hpending
    refine ⟨hsource, ?_⟩
    cases hstatus : job.status with
    | pending => exact absurd ⟨hsource, hstatus⟩ hpending
    | running => rfl
    | completed => simp [hstatus, SyncStatus.active] at ha
    | failed => simp [hstatus, SyncStatus.active] at ha
    | cancelled => simp [hstatus, SyncStatus.active] at ha

theorem Reconciled.resetStreamConnection (h : Reconciled s) (id : ℕ) (account : Connection) :
    Reconciled (resetStreamConnection s id account) := by
  unfold ProviderChanges.resetStreamConnection
  split
  · exact h
  rename_i hidle
  have hconn : ((s.modifyJobs fun _ ↦ cancelPulls id).modifyConnection id
      account.reset).accounts.connections = s.accounts.connections.modifyAt id account.reset := rfl
  refine h.outside (.of_modifyAt hconn (List.Subset.refl _) fun _ ↦ Nat.le_succ _) rfl
    (fun i job' hjob' ↦ .inr ?_) (fun c _ child _ job hjob ↦ ?_) fun source _ hq ↦ ?_
  · obtain ⟨job, hjob, rfl⟩ := Table.mem_modify.mp hjob'
    exact ⟨job, hjob, (cancelPulls_tame id job).source, (cancelPulls_tame id job).stats⟩
  · refine ⟨_, Table.mem_modify_of_mem hjob, cancelPulls_tame id job, fun ha hsource ↦
      .of_modifyAt hconn (.inl ?_)⟩
    intro hid
    refine hidle (List.any_eq_true.mpr ⟨_, hjob, ?_⟩)
    have hjob' := (cancelPulls_tame id job).source.symm.trans (hsource.trans hid)
    simpa using cancelPulls_active ha hjob'
  · rintro k conn' rfl hconn'
    rw [hconn, Table.mem_modifyAt] at hconn'
    obtain ⟨conn, hmem, rfl⟩ := hconn'
    split
    · rfl
    · exact hq k conn rfl hmem

/-- A cancellation ends the active jobs of the cycle. -/
theorem Reconciled.requestCycleCancel (h : Reconciled s) : Reconciled (requestCycleCancel s) := by
  unfold ProviderChanges.requestCycleCancel
  cases hs : s.cycle with
  | none => exact h
  | some c =>
    dsimp only
    split
    swap
    · exact h
    have hc := h.cycle c hs
    have hcancelled : Reconciled (cancelChildren s c) := by
      refine h.outside (.of_connections rfl (List.Subset.refl _)) rfl
        (fun i job' hjob' ↦ .inr ?_) (fun c' _ child _ job hjob ↦ ?_) fun _ _ hq ↦ hq
      · obtain ⟨job, hjob, rfl⟩ := Table.mem_modify.mp hjob'
        refine ⟨job, hjob, ?_, ?_⟩ <;> split <;> rfl
      · refine ⟨_, Table.mem_modify_of_mem hjob, ?_, fun _ _ ↦ .of_connections rfl⟩
        split
        · exact ⟨rfl, rfl, .inr ⟨rfl, fun hcompleted ↦ by cases hcompleted⟩⟩
        · exact .refl job
    exact hcancelled.setCycle hs ⟨rfl, rfl, .rfl, rfl, List.Subset.refl _, fun hq ↦ ⟨hq, rfl⟩⟩ rfl

end accounts

section runs

theorem Reconciled.onChild {f : Cycle → Source → PullJob → State} (h : Reconciled s)
    (hf : ∀ c source job, s.cycle = some c → c.phase = .pulling → (id, source) ∈ c.children →
      (id, job) ∈ s.accounts.jobs.rows → Reconciled (f c source job)) :
    Reconciled (onChild s id f) := by
  unfold ProviderChanges.onChild
  cases hs : s.cycle with
  | none => exact h
  | some c =>
    dsimp only
    split
    · exact h
    rename_i hphase
    split
    · rename_i child job hchild hjob
      obtain rfl : child.1 = id := by simpa using List.find?_some hchild
      exact hf c child.2 job hs (not_not.mp hphase) (List.mem_of_find?_eq_some hchild)
        (Table.get_eq_some.mp hjob)
    · exact h

theorem step_reconciled (h : Reconciled s) (t : Step) : Reconciled (step s t) := by
  cases t with
  | queue targets => exact h.queueAccountPull targets
  | beginCycle => exact h.beginCycle
  | runProvider id probe =>
    rw [step]
    refine h.onChild fun c source job hs hphase hchild hjob ↦ ?_
    split
    · exact h.runProvider hs hphase hchild hjob ‹_› probe
    · exact h
  | admitProvider id =>
    rw [step]
    refine h.onChild fun c source job hs hphase hchild hjob ↦ ?_
    split
    · exact h.admitProvider hs hphase hchild hjob ‹_›
    · exact h
  | startWorker id =>
    rw [step]
    refine h.onChild fun c source job hs hphase hchild hjob ↦ ?_
    split
    · exact h.startWorker hs hphase hchild hjob ‹_›
    · exact h
  | finishWorker id outcome =>
    rw [step]
    refine h.onChild fun c source job hs hphase hchild hjob ↦ ?_
    split
    · exact h.finishWorker hs hphase hchild hjob ‹_› outcome
    · exact h
  | recordCheckpoint id =>
    rw [step]
    refine h.onChild fun c source job hs hphase hchild hjob ↦ ?_
    split
    · exact h.recordCheckpoint hs hphase hchild hjob ‹_›
    · exact h
  | cancel => exact h.requestCycleCancel
  | closeWindow raised => exact h.closeWindow raised
  | finalize => exact h.finalize
  | failCycle => exact h.failCycle
  | endCycle => exact h.endCycle
  | restart => exact h.restart
  | connect conn => exact h.connect conn
  | disconnect id => exact h.disconnect id
  | editConnection id edited => exact h.editConnection id edited
  | resetStreamConnection id account => exact h.resetStreamConnection id account
  | editCloud provider settings => exact h.editCloud provider settings
  | otherPull source => exact h.otherPull source
  | settleOther id status => exact h.settleOther id status

theorem run_reconciled (h : Reconciled s) (steps : List Step) : Reconciled (run s steps) := by
  induction steps generalizing s with
  | nil => exact h
  | cons t steps ih => exact ih (step_reconciled h t)

theorem initial_reconciled (clouds : CloudProvider → CloudSettings) :
    Reconciled (State.initial clouds) :=
  ⟨fun _ _ hjob ↦ (by cases hjob), fun _ hc ↦ (by cases hc)⟩

/-- A provider that is skipped as unchanged shows the marker it showed before an earlier pull, whose
data a committed finalize has reconciled. -/
theorem unchanged_was_reconciled (clouds : CloudProvider → CloudSettings) (steps : List Step)
    (source : Source) (probe : Option String)
    (h : ((run (State.initial clouds) steps).accounts.checkProviderChanges source probe).state =
      .unchanged) :
    ∃ marker signature, probe = some marker ∧
      (run (State.initial clouds) steps).accounts.signature source = some signature ∧
      ⟨source, some ⟨signature, marker⟩⟩ ∈ (run (State.initial clouds) steps).reconciled := by
  have hrun := run_reconciled (initial_reconciled clouds) steps
  obtain ⟨cp, hcp⟩ := Accounts.unchanged_checkpoint h
  obtain ⟨hsignature, hprobe, hsaved⟩ := Accounts.checkProviderChanges_spec hcp
  obtain ⟨id, job, hjob, rfl, hcheckpoint⟩ := hsaved h
  refine ⟨cp.marker, cp.signature, hprobe, hsignature, ?_⟩
  obtain hreconciled | hout := hrun.jobs id job hjob cp hcheckpoint
  · exact hreconciled
  · exact absurd hout (not_outdated hsignature)

def noSettings : CloudSettings := ⟨none, some "key", none, true, true, false, true, false, false⟩

/-- A cycle pulls Mdblist and ends well; the next one begins. -/
def pulledOnce : List Step :=
  [.queue [.cloud .mdblist], .beginCycle, .runProvider 1 (some "m"), .admitProvider 1,
    .startWorker 1, .finishWorker 1 (.pulled 0 0 false true), .recordCheckpoint 1,
    .closeWindow false, .finalize, .endCycle, .queue [.cloud .mdblist], .beginCycle]

theorem unchanged_was_reconciled_mdblist :
    ∃ marker signature, some "m" = some marker ∧
      (run (State.initial fun _ ↦ noSettings) pulledOnce).accounts.signature (.cloud .mdblist) =
        some signature ∧
      ⟨.cloud .mdblist, some ⟨signature, marker⟩⟩ ∈
        (run (State.initial fun _ ↦ noSettings) pulledOnce).reconciled :=
  unchanged_was_reconciled (fun _ ↦ noSettings) pulledOnce (.cloud .mdblist) (some "m")
    (by decide +kernel)

end runs

end AnyList.Cycles.ProviderChanges
