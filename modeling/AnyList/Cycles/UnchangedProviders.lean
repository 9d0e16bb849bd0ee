import AnyList.Cycles.ReconciledCheckpoints

namespace AnyList.Cycles.ProviderChanges

open AnyList.Library
open AnyList.Cycles.AccountCycle (SyncStatus)

variable {s s' : State} {c c' : Cycle} {id : ℕ} {source : Source} {job job' : PullJob}
  {cp : Checkpoint}

theorem JobsBacked.step (hb : JobsBacked s) (later : Later s s')
    (hrows : ∀ i job', (i, job') ∈ s'.accounts.jobs.rows →
      job'.stats.providerCheckpoint = none ∨ ∃ job, (i, job) ∈ s.accounts.jobs.rows ∧
        job'.source = job.source ∧ ∀ cp, job'.stats.providerCheckpoint = some cp →
          job.stats.providerCheckpoint = some cp ∨ Backed s' job.source cp) : JobsBacked s' := by
  intro i job' hjob' cp hcp
  obtain hnone | ⟨job, hjob, hsource, hsaved⟩ := hrows i job' hjob'
  · rw [hnone] at hcp
    cases hcp
  · rw [hsource]
    obtain hold | hnew := hsaved cp hcp
    · exact (hb i job hjob cp hold).later later
    · exact hnew

theorem Later.of_connections (h : s'.accounts.connections = s.accounts.connections)
    (hreconciled : s.reconciled ⊆ s'.reconciled) : Later s s' where
  reconciled := hreconciled
  next := by rw [h]
  versions i _ conn' hconn' := by
    rw [h] at hconn'
    exact ⟨conn', hconn', le_rfl⟩

theorem Steady.of_connections (h : s'.accounts.connections = s.accounts.connections) :
    Steady s s' source := by
  intro i conn' _ _ hconn'
  rw [h] at hconn'
  exact ⟨conn', hconn', rfl, fun hquiet ↦ hquiet⟩

section connection

variable {i : ℕ} {g : Connection → Connection}

theorem Later.of_modifyAt (h : s'.accounts.connections = s.accounts.connections.modifyAt i g)
    (hreconciled : s.reconciled ⊆ s'.reconciled)
    (hg : ∀ conn, conn.identityVersion ≤ (g conn).identityVersion) : Later s s' where
  reconciled := hreconciled
  next := by
    rw [h]
    exact le_rfl
  versions k _ conn' hconn' := by
    rw [h, Table.mem_modifyAt] at hconn'
    obtain ⟨conn, hconn, rfl⟩ := hconn'
    refine ⟨conn, hconn, ?_⟩
    split
    · exact hg conn
    · exact le_rfl

theorem Steady.of_modifyAt (h : s'.accounts.connections = s.accounts.connections.modifyAt i g)
    (hg : source ≠ .connection i ∨ ∀ conn, (g conn).identityVersion = conn.identityVersion ∧
      (conn.onboarding = false → (g conn).onboarding = false)) : Steady s s' source := by
  rintro k conn' rfl _ hconn'
  rw [h, Table.mem_modifyAt] at hconn'
  obtain ⟨conn, hconn, rfl⟩ := hconn'
  refine ⟨conn, hconn, ?_⟩
  split
  · rename_i hk
    obtain hne | hg := hg
    · exact absurd (congrArg Source.connection hk) hne
    · exact ⟨(hg conn).1.symm, (hg conn).2⟩
  · exact ⟨rfl, fun hquiet ↦ hquiet⟩

end connection

section child

/-- A step of the worker of one child: the other children are as they were. -/
theorem Reconciled.childStep {f : PullJob → PullJob} (h : Reconciled s) (hs : s.cycle = some c)
    (hphase : c.phase = .pulling) (hchild : (id, source) ∈ c.children)
    (hjob : (id, job) ∈ s.accounts.jobs.rows) (hs' : s'.cycle = some c')
    (hjobs : s'.accounts.jobs = s.accounts.jobs.modifyAt id f) (later : Later s s')
    (hgoes : GoesOn c c') (hstages : ∀ i ≠ id, c'.stages i = c.stages i)
    (hsteady : ∀ other ≠ source, Steady s s' other) (hown : ChildOk s' c' id source (f job))
    (hbacked : ∀ cp, (f job).stats.providerCheckpoint = some cp →
      job.stats.providerCheckpoint = some cp ∨ Backed s' source cp) : Reconciled s' := by
  have hc := h.cycle c hs
  have hpulls := (hc.child_mem hchild hjob).pulls
  constructor
  · refine h.jobs.step later fun i job' hjob' ↦ .inr ?_
    rw [hjobs, Table.mem_modifyAt] at hjob'
    obtain ⟨r, hr, rfl⟩ := hjob'
    refine ⟨r, hr, ?_⟩
    by_cases hi : i = id
    · subst hi
      obtain rfl := Table.eq_of_mem hr hjob
      rw [if_pos rfl, hpulls]
      exact ⟨hown.pulls, hbacked⟩
    · rw [if_neg hi]
      exact ⟨rfl, fun cp hcp ↦ .inl hcp⟩
  · intro c'' hc''
    obtain rfl := Option.some.inj (hs'.symm.trans hc'')
    refine hc.goesOn hgoes later (fun hq ↦ ?_) fun other hother r hr hok ↦ ?_
    · rw [hgoes.phase, hphase] at hq
      cases hq
    refine ⟨if other.1 = id then f r else r, ?_, ?_⟩
    · rw [hjobs]
      exact Table.mem_modifyAt.mpr ⟨r, hr, rfl⟩
    by_cases hi : other.1 = id
    · rw [hi] at hr
      obtain rfl := Table.eq_of_mem hr hjob
      have hsource : other.2 = source := hok.pulls.symm.trans hpulls
      rwa [if_pos hi, hi, hsource]
    · have hsource : other.2 ≠ source := by
        intro hsource
        exact hi (congrArg Prod.fst (List.inj_on_of_nodup_map hc.distinct hother hchild hsource))
      rw [if_neg hi]
      have hk := hc.known other hother
      exact hok.goesOn hgoes later (.refl r) (.steady (hsteady _ hsource) hk)
        (fun _ ↦ .steady (hsteady _ hsource) hk) (hstages _ hi)

theorem GoesOn.stage (stage : Stage) (staged : List Pull) (hstaged : c.staged ⊆ staged) :
    GoesOn c { c with stages := Function.update c.stages id stage, staged } :=
  ⟨rfl, rfl, .rfl, rfl, hstaged, fun hphase ↦ ⟨hphase, rfl⟩⟩

/-- A step that only sets the job and the stage of the child. -/
theorem Reconciled.setStage {f : PullJob → PullJob} {stage : Stage} (h : Reconciled s)
    (hs : s.cycle = some c) (hphase : c.phase = .pulling) (hchild : (id, source) ∈ c.children)
    (hjob : (id, job) ∈ s.accounts.jobs.rows) (hsource : (f job).source = job.source)
    (hactive : (f job).status.active = true → job.status.active = true)
    (hstage : StageOk s c source (f job) stage)
    (hpending : ∀ cp, (f job).stats.pendingCheckpoint = some cp →
      job.stats.pendingCheckpoint = some cp ∨ Awaited s c source cp)
    (hbacked : ∀ cp, (f job).stats.providerCheckpoint = some cp →
      job.stats.providerCheckpoint = some cp ∨ Backed s source cp) :
    Reconciled ((s.modifyJob id f).setStage c id stage) := by
  have hok := (h.cycle c hs).child_mem hchild hjob
  have hgoes : GoesOn c { c with stages := Function.update c.stages id stage } :=
    .stage stage c.staged (List.Subset.refl _)
  have later : Later s ((s.modifyJob id f).setStage c id stage) :=
    .of_connections rfl (List.Subset.refl _)
  refine h.childStep hs hphase hchild hjob rfl rfl later hgoes
    (fun i hi ↦ Function.update_of_ne hi _ _) (fun _ _ ↦ .of_connections rfl) ?_ hbacked
  refine ⟨hsource.trans hok.pulls, fun ha hq ↦ hok.live (hactive ha) hq, ?_, fun cp hcp ↦ ?_⟩
  · simp only [Function.update_self]
    exact hstage.later rfl (List.Subset.refl _) later (.refl _) (fun hquiet ↦ hquiet)
  · have hw : Awaited s c source cp := by
      obtain hold | hnew := hpending cp hcp
      · exact (hok.pending cp hold).2
      · exact hnew
    refine ⟨fun hq ↦ ?_, hw.goesOn hgoes later⟩
    exact absurd (hphase.symm.trans hq) (by decide)

/-- A step that only sets the stage. -/
theorem Reconciled.setOnlyStage {stage : Stage} (h : Reconciled s)
    (hs : s.cycle = some c) (hphase : c.phase = .pulling) (hchild : (id, source) ∈ c.children)
    (hjob : (id, job) ∈ s.accounts.jobs.rows) (hstage : StageOk s c source job stage) :
    Reconciled (s.setStage c id stage) := by
  have hstep := h.setStage (f := fun job ↦ job) hs hphase hchild hjob rfl (fun ha ↦ ha) hstage
    (fun _ hcp ↦ .inl hcp) (fun _ hcp ↦ .inl hcp)
  simp only [State.modifyJob, Table.modifyAt_id] at hstep
  exact hstep

/-- A job that ends without a checkpoint. -/
theorem Reconciled.setEnd {f : PullJob → PullJob} {stage : Stage} (h : Reconciled s)
    (hs : s.cycle = some c) (hphase : c.phase = .pulling) (hchild : (id, source) ∈ c.children)
    (hjob : (id, job) ∈ s.accounts.jobs.rows) (hsource : (f job).source = job.source)
    (hactive : (f job).status.active = true → job.status.active = true)
    (hstage : StageOk s c source (f job) stage)
    (hstats : (f job).stats = job.stats ∨
      (f job).stats.pendingCheckpoint = none ∧ (f job).stats.providerCheckpoint = none) :
    Reconciled ((s.modifyJob id f).setStage c id stage) := by
  refine h.setStage hs hphase hchild hjob hsource hactive hstage (fun cp hcp ↦ .inl ?_)
    (fun cp hcp ↦ .inl ?_)
  · obtain hstats | ⟨hstats, _⟩ := hstats
    · rwa [hstats] at hcp
    · rw [hstats] at hcp
      cases hcp
  · obtain hstats | ⟨_, hstats⟩ := hstats
    · rwa [hstats] at hcp
    · rw [hstats] at hcp
      cases hcp

theorem Quiet.of_onboarding
    (hq : ¬ ((connectionOf s source).map fun conn ↦ conn.onboarding).getD false = true) :
    Quiet s source := by
  rintro i conn rfl hconn
  rw [connectionOf, Table.get_eq_some.mpr hconn] at hq
  simpa using hq

theorem Quiet.not_onboarding (hq : Quiet s source) :
    ((connectionOf s source).map fun conn ↦ conn.onboarding).getD false = false := by
  cases source with
  | cloud provider => rfl
  | connection i =>
    cases hconn : s.accounts.connections.get i with
    | none => simp [connectionOf, hconn]
    | some conn => simpa [connectionOf, hconn] using hq i conn rfl (Table.get_eq_some.mp hconn)

variable (h : Reconciled s) (hs : s.cycle = some c) (hphase : c.phase = .pulling)
  (hchild : (id, source) ∈ c.children) (hjob : (id, job) ∈ s.accounts.jobs.rows)

include h hs hphase hchild hjob

theorem Reconciled.answered {probe : Option String} (hpending : job.status = .pending)
    (hquiet : Quiet s source) : Reconciled
      (s.setStage c id (.answered (s.accounts.checkProviderChanges source probe))) := by
  refine h.setOnlyStage hs hphase hchild hjob ⟨hquiet, by simp [hpending], fun cp hcp ↦ ?_⟩
  obtain ⟨hsignature, _, hsaved⟩ := Accounts.checkProviderChanges_spec hcp
  constructor
  · rintro i rfl
    obtain ⟨conn, hconn, hversion⟩ := Accounts.signature_version hsignature
    rw [hversion]
    refine ((h.cycle c hs).child_mem hchild hjob).live ?_ ?_ i conn rfl hconn
    · rw [hpending]
      rfl
    · simp [hphase]
  · intro hstate
    obtain ⟨i, saved, hmem, rfl, hcheckpoint⟩ := hsaved hstate
    exact h.jobs i saved hmem cp hcheckpoint

theorem Reconciled.runProvider (hstage : c.stages id = .waiting) (probe : Option String) :
    Reconciled (runProvider s c id source job probe) := by
  have hwaiting : job.status ≠ .completed := by
    have hok := ((h.cycle c hs).child_mem hchild hjob).stage
    rwa [hstage] at hok
  have hfail : Reconciled ((s.modifyJob id PullJob.fail).setStage c id .finished) :=
    h.setEnd hs hphase hchild hjob rfl (fun ha ↦ by cases ha) trivial (.inl rfl)
  unfold ProviderChanges.runProvider
  split
  · exact h.setOnlyStage hs hphase hchild hjob trivial
  rename_i hpending
  split
  · exact hfail
  split
  · exact hfail
  split
  · exact h.setEnd hs hphase hchild hjob rfl (fun ha ↦ by cases ha) trivial (.inr ⟨rfl, rfl⟩)
  · rename_i hq
    exact h.answered hs hphase hchild hjob (not_not.mp hpending) (.of_onboarding hq)

theorem Reconciled.admitProvider {check : ChangeCheck} (hstage : c.stages id = .answered check) :
    Reconciled (admitProvider s c id job check) := by
  have hok := ((h.cycle c hs).child_mem hchild hjob).stage
  rw [hstage] at hok
  obtain ⟨hquiet, hstatus, hcheck⟩ := hok
  unfold ProviderChanges.admitProvider
  split
  · exact h.setOnlyStage hs hphase hchild hjob trivial
  split
  · rename_i hstate
    refine h.setStage hs hphase hchild hjob rfl (fun ha ↦ by cases ha) trivial
      (fun cp hcp ↦ by cases hcp) (fun cp hcp ↦ .inr ?_)
    exact (hcheck cp hcp).2 hstate
  · exact h.setOnlyStage hs hphase hchild hjob ⟨hquiet, hstatus, fun cp hcp ↦ (hcheck cp hcp).1⟩

theorem Reconciled.startWorker {checkpoint : Option Checkpoint}
    (hstage : c.stages id = .admitted checkpoint) :
    Reconciled (startWorker s c id job checkpoint) := by
  have hok := ((h.cycle c hs).child_mem hchild hjob).stage
  rw [hstage] at hok
  obtain ⟨hquiet, hstatus, hfresh⟩ := hok
  unfold ProviderChanges.startWorker
  split
  · rename_i hpending
    refine h.setEnd hs hphase hchild hjob rfl (fun _ ↦ ?_) ⟨hquiet, hfresh⟩ (.inl rfl)
    rw [hpending]
    rfl
  · refine h.setOnlyStage hs hphase hchild hjob fun cp hcp ↦ ⟨hfresh cp hcp, ?_⟩
    exact fun hcompleted ↦ absurd hcompleted hstatus

theorem Reconciled.recordCheckpoint {checkpoint : Option Checkpoint}
    (hstage : c.stages id = .returned checkpoint) :
    Reconciled (recordCheckpoint s c id job checkpoint) := by
  have hc := h.cycle c hs
  have hok := (hc.child_mem hchild hjob).stage
  rw [hstage] at hok
  obtain ⟨hcollecting, hreconciled⟩ := hc.collecting (by simp [hphase])
  simp only [ProviderChanges.recordCheckpoint, hcollecting, if_true]
  split
  · rename_i hrecord
    obtain ⟨hcompleted, _, _, _, _, hcomplete⟩ := hrecord
    refine h.setStage hs hphase hchild hjob rfl (fun ha ↦ ha) trivial (fun cp hcp ↦ .inr ?_)
      (fun cp hcp ↦ .inl hcp)
    obtain ⟨hfresh, hstaged⟩ := hok cp hcp
    unfold Awaited
    rw [if_neg (by simp [hreconciled])]
    exact ⟨hstaged hcompleted hcomplete, hfresh⟩
  · exact h.setOnlyStage hs hphase hchild hjob trivial

/-- A worker that returns, with what it leaves in its connection. -/
theorem Reconciled.returns {f : PullJob → PullJob} {g : Connection → Connection}
    {staged : List Pull} {checkpoint : Option Checkpoint} (hstaged : c.staged ⊆ staged)
    (hsource : (f job).source = job.source) (hinactive : (f job).status.active = false)
    (hstats : (f job).stats.pendingCheckpoint = none ∧ (f job).stats.providerCheckpoint = none)
    (hs' : s' = ((s.modifyJob id f).modifySource source g).setStage { c with staged } id
      (.returned checkpoint))
    (hg : ∀ conn, (g conn).identityVersion = conn.identityVersion)
    (hfresh : ∀ cp, checkpoint = some cp → Fresh c source cp)
    (hcomplete : ∀ cp, checkpoint = some cp → (f job).stats.snapshotComplete = true →
      ⟨source, some cp⟩ ∈ staged) :
    Reconciled s' := by
  have hok := (h.cycle c hs).child_mem hchild hjob
  let stages := Function.update c.stages id (.returned checkpoint)
  have hown (s' : State) : ChildOk s' { c with stages, staged } id source (f job) := by
    refine ⟨hsource.trans hok.pulls, fun ha ↦ ?_, ?_, fun cp hcp ↦ ?_⟩
    · rw [hinactive] at ha
      cases ha
    · simp only [stages, Function.update_self]
      exact fun cp hcp ↦ ⟨hfresh cp hcp, fun _ ↦ hcomplete cp hcp⟩
    · rw [hstats.1] at hcp
      cases hcp
  have hsaved (s' : State) (cp : Checkpoint)
      (hcp : (f job).stats.providerCheckpoint = some cp) :
      job.stats.providerCheckpoint = some cp ∨ Backed s' source cp := by
    rw [hstats.2] at hcp
    cases hcp
  have hgoes : GoesOn c { c with stages, staged } := .stage (.returned checkpoint) staged hstaged
  subst hs'
  cases source with
  | cloud provider =>
    exact h.childStep hs hphase hchild hjob rfl rfl (.of_connections rfl (List.Subset.refl _)) hgoes
      (fun i hi ↦ Function.update_of_ne hi _ _) (fun _ _ ↦ .of_connections rfl) (hown _) (hsaved _)
  | connection i =>
    exact h.childStep hs hphase hchild hjob rfl rfl
      (.of_modifyAt rfl (List.Subset.refl _) fun conn ↦ (hg conn).ge) hgoes
      (fun i hi ↦ Function.update_of_ne hi _ _) (fun _ hne ↦ .of_modifyAt rfl (.inl hne)) (hown _)
      (hsaved _)

theorem Reconciled.finishWorker {checkpoint : Option Checkpoint}
    (hstage : c.stages id = .running checkpoint) (outcome : Outcome) :
    Reconciled (finishWorker s c id source checkpoint outcome) := by
  have hok := ((h.cycle c hs).child_mem hchild hjob).stage
  rw [hstage] at hok
  obtain ⟨hquiet, hfresh⟩ := hok
  unfold ProviderChanges.finishWorker
  rw [hquiet.not_onboarding, if_neg Bool.false_ne_true]
  cases outcome with
  | pulled errors itemErrors warnings snapshotComplete =>
    refine h.returns hs hphase hchild hjob (List.subset_cons_self _ _) rfl rfl ⟨rfl, rfl⟩ rfl
      (fun _ ↦ rfl) hfresh fun cp hcp _ ↦ ?_
    rw [hcp]
    exact List.mem_cons_self
  | reviewing review =>
    exact h.returns hs hphase hchild hjob (List.Subset.refl _) rfl rfl ⟨rfl, rfl⟩ rfl
      (fun _ ↦ rfl) hfresh fun cp _ hcomplete ↦ by cases hcomplete
  | failed =>
    exact h.setEnd hs hphase hchild hjob rfl (fun ha ↦ by cases ha)
      (fun cp hcp ↦ ⟨hfresh cp hcp, fun hcompleted ↦ by cases hcompleted⟩) (.inl rfl)
  | cancelled =>
    exact h.setEnd hs hphase hchild hjob rfl (fun ha ↦ by cases ha)
      (fun cp hcp ↦ ⟨hfresh cp hcp, fun hcompleted ↦ by cases hcompleted⟩) (.inl rfl)
  | raised =>
    refine h.setEnd hs hphase hchild hjob ?_ (fun ha ↦ ?_) trivial (.inl ?_)
    · unfold PullJob.abort
      split <;> rfl
    · unfold PullJob.abort at ha
      split at ha
      · cases ha
      · exact ha
    · unfold PullJob.abort
      split <;> rfl

end child

end AnyList.Cycles.ProviderChanges
