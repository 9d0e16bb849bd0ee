import AnyList.Cycles.ProviderPulls

namespace AnyList.Cycles.ProviderChanges

open AnyList.Library
open AnyList.Cycles.AccountCycle (SyncStatus)

variable {s s' : State} {c c' : Cycle} {id : ℕ} {source : Source} {job job' : PullJob}
  {cp : Checkpoint}

/-- Another account is behind the connection by now, or the connection is gone. -/
def Outdated (a : Accounts) (source : Source) (cp : Checkpoint) : Prop :=
  ∃ i, source = .connection i ∧ i < a.connections.next ∧
    ∀ conn, (i, conn) ∈ a.connections.rows → cp.signature.identityVersion < conn.identityVersion

def Backed (s : State) (source : Source) (cp : Checkpoint) : Prop :=
  (⟨source, some cp⟩ : Pull) ∈ s.reconciled ∨ Outdated s.accounts source cp

/-- Nothing reconciled is lost, and no connection returns to an account it had before. -/
structure Later (s s' : State) : Prop where
  reconciled : s.reconciled ⊆ s'.reconciled
  next : s.accounts.connections.next ≤ s'.accounts.connections.next
  versions : ∀ i < s.accounts.connections.next, ∀ conn', (i, conn') ∈ s'.accounts.connections.rows →
    ∃ conn, (i, conn) ∈ s.accounts.connections.rows ∧ conn.identityVersion ≤ conn'.identityVersion

/-- The connection of a source keeps its account, and no import review of it opens. -/
def Steady (s s' : State) (source : Source) : Prop :=
  ∀ i conn', source = .connection i → i < s.accounts.connections.next →
    (i, conn') ∈ s'.accounts.connections.rows → ∃ conn, (i, conn) ∈ s.accounts.connections.rows ∧
      conn.identityVersion = conn'.identityVersion ∧
      (conn.onboarding = false → conn'.onboarding = false)

/-- The connection of a source is the one that the cycle began with. -/
def Live (s : State) (c : Cycle) (source : Source) : Prop :=
  ∀ i conn, source = .connection i → (i, conn) ∈ s.accounts.connections.rows →
    c.versions i = some conn.identityVersion

def Quiet (s : State) (source : Source) : Prop :=
  ∀ i conn, source = .connection i → (i, conn) ∈ s.accounts.connections.rows →
    conn.onboarding = false

/-- A checkpoint of the account that the cycle began with. -/
def Fresh (c : Cycle) (source : Source) (cp : Checkpoint) : Prop :=
  ∀ i, source = .connection i → c.versions i = some cp.signature.identityVersion

def Known (s : State) (source : Source) : Prop :=
  ∀ i, source = .connection i → i < s.accounts.connections.next

theorem Outdated.later (h : Later s s') (ho : Outdated s.accounts source cp) :
    Outdated s'.accounts source cp := by
  obtain ⟨i, hi, hnext, hversions⟩ := ho
  refine ⟨i, hi, hnext.trans_le h.next, fun conn' hconn' ↦ ?_⟩
  obtain ⟨conn, hconn, hle⟩ := h.versions i hnext conn' hconn'
  exact (hversions conn hconn).trans_le hle

theorem Backed.later (h : Later s s') (hb : Backed s source cp) : Backed s' source cp := by
  obtain hb | hb := hb
  · exact .inl (h.reconciled hb)
  · exact .inr (hb.later h)

theorem Live.steady (h : Steady s s' source) (hk : Known s source) (hl : Live s c source) :
    Live s' c source := by
  intro i conn' hi hconn'
  obtain ⟨conn, hconn, hversion, _⟩ := h i conn' hi (hk i hi) hconn'
  rw [hl i conn hi hconn, hversion]

theorem Quiet.steady (h : Steady s s' source) (hk : Known s source) (hq : Quiet s source) :
    Quiet s' source := by
  intro i conn' hi hconn'
  obtain ⟨conn, hconn, _, honboarding⟩ := h i conn' hi (hk i hi) hconn'
  exact honboarding (hq i conn hi hconn)

section check

theorem Accounts.previous_mem {a : Accounts} (h : a.previous source = some job) :
    (∃ id, (id, job) ∈ a.jobs.rows) ∧ job.source = source := by
  unfold Accounts.previous at h
  obtain ⟨row, hrow, rfl⟩ := Option.map_eq_some_iff.mp h
  have hmem := List.mem_filter.mp (List.mem_of_getLast? hrow)
  simp only [Bool.and_eq_true, decide_eq_true_eq] at hmem
  exact ⟨⟨row.1, hmem.1⟩, hmem.2.1⟩

/-- What an answered check says about the account and its latest pull. -/
theorem Accounts.checkProviderChanges_spec {a : Accounts} {probe : Option String}
    (h : (a.checkProviderChanges source probe).checkpoint = some cp) :
    a.signature source = some cp.signature ∧ probe = some cp.marker ∧
      ((a.checkProviderChanges source probe).state = .unchanged →
        ∃ id job, (id, job) ∈ a.jobs.rows ∧ job.source = source ∧
          job.stats.providerCheckpoint = some cp) := by
  unfold Accounts.checkProviderChanges at h ⊢
  split at h
  · rename_i signature marker _ hsignature
    obtain rfl := Option.some.inj h
    refine ⟨hsignature, rfl, fun hstate ↦ ?_⟩
    have hsaved : ((a.previous source).bind fun job ↦ job.stats.providerCheckpoint) =
        some ⟨signature, marker⟩ := by
      by_contra hne
      simp only [if_neg hne] at hstate
      cases hstate
    obtain ⟨job, hjob, hsaved⟩ := Option.bind_eq_some_iff.mp hsaved
    obtain ⟨⟨id, hmem⟩, hsource⟩ := Accounts.previous_mem hjob
    exact ⟨id, job, hmem, hsource, hsaved⟩
  · cases h

theorem Accounts.unchanged_checkpoint {a : Accounts} {probe : Option String}
    (h : (a.checkProviderChanges source probe).state = .unchanged) :
    ∃ cp, (a.checkProviderChanges source probe).checkpoint = some cp := by
  unfold Accounts.checkProviderChanges at h ⊢
  split at h
  · exact ⟨_, rfl⟩
  · cases h

theorem Accounts.signature_version {a : Accounts} {i : ℕ}
    (h : a.signature (.connection i) = some cp.signature) :
    ∃ conn, (i, conn) ∈ a.connections.rows ∧ cp.signature.identityVersion = conn.identityVersion := by
  obtain ⟨conn, hconn, hsignature⟩ := Option.map_eq_some_iff.mp h
  exact ⟨conn, Table.get_eq_some.mp hconn, hsignature ▸ rfl⟩

theorem not_outdated {a : Accounts} (h : a.signature source = some cp.signature) :
    ¬ Outdated a source cp := by
  rintro ⟨i, rfl, _, hversions⟩
  obtain ⟨conn, hconn, hversion⟩ := Accounts.signature_version h
  exact (hversions conn hconn).ne hversion

end check

section invariant

/-- What is known of the job of a child while its worker is at a stage. -/
def StageOk (s : State) (c : Cycle) (source : Source) (job : PullJob) : Stage → Prop
  | .waiting => job.status ≠ .completed
  | .answered check => Quiet s source ∧ job.status ≠ .completed ∧
      ∀ cp, check.checkpoint = some cp →
        Fresh c source cp ∧ (check.state = .unchanged → Backed s source cp)
  | .admitted checkpoint => Quiet s source ∧ job.status ≠ .completed ∧
      ∀ cp, checkpoint = some cp → Fresh c source cp
  | .running checkpoint => Quiet s source ∧ ∀ cp, checkpoint = some cp → Fresh c source cp
  | .returned checkpoint => ∀ cp, checkpoint = some cp → Fresh c source cp ∧
      (job.status = .completed → job.stats.snapshotComplete = true → ⟨source, some cp⟩ ∈ c.staged)
  | .finished => True

def Awaited (s : State) (c : Cycle) (source : Source) (cp : Checkpoint) : Prop :=
  if c.reconciled then Backed s source cp
  else (⟨source, some cp⟩ : Pull) ∈ c.staged ∧ Fresh c source cp

structure ChildOk (s : State) (c : Cycle) (id : ℕ) (source : Source) (job : PullJob) : Prop where
  pulls : job.source = source
  live : job.status.active = true → c.phase ≠ .queued → Live s c source
  stage : StageOk s c source job (c.stages id)
  pending : ∀ cp, job.stats.pendingCheckpoint = some cp →
    c.phase ≠ .queued ∧ Awaited s c source cp

structure CycleOk (s : State) (c : Cycle) : Prop where
  child : ∀ child ∈ c.children, ∃ job, (child.1, job) ∈ s.accounts.jobs.rows ∧
    ChildOk s c child.1 child.2 job
  distinct : (c.children.map Prod.snd).Nodup
  known : ∀ child ∈ c.children, Known s child.2
  captured : ∀ i v, c.versions i = some v → i < s.accounts.connections.next ∧
    ∀ conn, (i, conn) ∈ s.accounts.connections.rows → v ≤ conn.identityVersion
  idle : c.phase = .queued → ∀ id, c.stages id = .waiting
  collecting : c.phase ≠ .leaving → c.collecting = true ∧ c.reconciled = false

def JobsBacked (s : State) : Prop :=
  ∀ id job, (id, job) ∈ s.accounts.jobs.rows → ∀ cp, job.stats.providerCheckpoint = some cp →
    Backed s job.source cp

structure Reconciled (s : State) : Prop where
  jobs : JobsBacked s
  cycle : ∀ c, s.cycle = some c → CycleOk s c

/-- A cycle goes on with the stages and the checkpoints of its children. -/
structure GoesOn (c c' : Cycle) : Prop where
  children : c'.children = c.children
  versions : c'.versions = c.versions
  phase : c'.phase = .queued ↔ c.phase = .queued
  reconciled : c'.reconciled = c.reconciled
  staged : c.staged ⊆ c'.staged
  collecting : c'.phase ≠ .leaving → c.phase ≠ .leaving ∧ c'.collecting = c.collecting

/-- A job keeps what it saved, and no step from outside completes it. -/
structure Tame (job job' : PullJob) : Prop where
  source : job'.source = job.source
  stats : job'.stats = job.stats
  status : job'.status = job.status ∨ job'.status.active = false ∧ job'.status ≠ .completed

theorem Tame.refl (job : PullJob) : Tame job job := ⟨rfl, rfl, .inl rfl⟩

theorem Tame.not_completed (h : Tame job job') (hjob : job.status ≠ .completed) :
    job'.status ≠ .completed := by
  obtain hstatus | hstatus := h.status
  · rwa [hstatus]
  · exact hstatus.2

theorem Fresh.of_versions (h : c'.versions = c.versions) (hf : Fresh c source cp) :
    Fresh c' source cp := by
  intro i hi
  rw [h]
  exact hf i hi

theorem Awaited.goesOn (h : GoesOn c c') (later : Later s s') (hw : Awaited s c source cp) :
    Awaited s' c' source cp := by
  unfold Awaited at hw ⊢
  rw [h.reconciled]
  split at hw
  · rw [if_pos ‹_›]
    exact hw.later later
  · rw [if_neg ‹_›]
    exact ⟨h.staged hw.1, hw.2.of_versions h.versions⟩

theorem StageOk.later (hversions : c'.versions = c.versions) (hstaged : c.staged ⊆ c'.staged)
    (later : Later s s') (tame : Tame job job')
    (hquiet : Quiet s source → Quiet s' source) {stage : Stage}
    (hs : StageOk s c source job stage) : StageOk s' c' source job' stage := by
  cases stage with
  | waiting => exact tame.not_completed hs
  | answered check =>
    obtain ⟨hq, hstatus, hcheck⟩ := hs
    refine ⟨hquiet hq, tame.not_completed hstatus, fun cp hcp ↦ ?_⟩
    obtain ⟨hfresh, hbacked⟩ := hcheck cp hcp
    exact ⟨hfresh.of_versions hversions, fun hstate ↦ (hbacked hstate).later later⟩
  | admitted checkpoint =>
    obtain ⟨hq, hstatus, hfresh⟩ := hs
    exact ⟨hquiet hq, tame.not_completed hstatus, fun cp hcp ↦ (hfresh cp hcp).of_versions hversions⟩
  | running checkpoint =>
    obtain ⟨hq, hfresh⟩ := hs
    exact ⟨hquiet hq, fun cp hcp ↦ (hfresh cp hcp).of_versions hversions⟩
  | returned checkpoint =>
    intro cp hcp
    obtain ⟨hfresh, hpulled⟩ := hs cp hcp
    refine ⟨hfresh.of_versions hversions, fun hcompleted hcomplete ↦ ?_⟩
    have hstatus : job.status = .completed := by
      by_contra hne
      exact tame.not_completed hne hcompleted
    rw [tame.stats] at hcomplete
    exact hstaged (hpulled hstatus hcomplete)
  | finished => trivial

theorem ChildOk.goesOn (h : GoesOn c c') (later : Later s s') (tame : Tame job job')
    (hquiet : Quiet s source → Quiet s' source)
    (hlive : job'.status.active = true → Live s c source → Live s' c source)
    (hstage : c'.stages id = c.stages id) (hc : ChildOk s c id source job) :
    ChildOk s' c' id source job' where
  pulls := tame.source.trans hc.pulls
  live hactive hphase := by
    have hjob : job.status.active = true := by
      obtain hstatus | hstatus := tame.status
      · rwa [← hstatus]
      · rw [hstatus.1] at hactive
        cases hactive
    intro i conn hi hconn
    rw [h.versions]
    exact hlive hactive (hc.live hjob fun hq ↦ hphase (h.phase.mpr hq)) i conn hi hconn
  stage := by
    rw [hstage]
    exact hc.stage.later h.versions h.staged later tame hquiet
  pending cp hcp := by
    rw [tame.stats] at hcp
    obtain ⟨hphase, hw⟩ := hc.pending cp hcp
    exact ⟨fun hq ↦ hphase (h.phase.mp hq), hw.goesOn h later⟩

theorem CycleOk.child_mem (hc : CycleOk s c) {child : ℕ × Source} (hchild : child ∈ c.children)
    (hjob : (child.1, job) ∈ s.accounts.jobs.rows) : ChildOk s c child.1 child.2 job := by
  obtain ⟨job', hjob', hok⟩ := hc.child child hchild
  rwa [Table.eq_of_mem hjob hjob']

/-- The common part of every step that lets the cycle go on. -/
theorem CycleOk.goesOn (h : GoesOn c c') (later : Later s s') (hc : CycleOk s c)
    (hidle : c'.phase = .queued → ∀ id, c'.stages id = .waiting)
    (hchild : ∀ child ∈ c.children, ∀ job, (child.1, job) ∈ s.accounts.jobs.rows →
      ChildOk s c child.1 child.2 job → ∃ job', (child.1, job') ∈ s'.accounts.jobs.rows ∧
        ChildOk s' c' child.1 child.2 job') : CycleOk s' c' where
  child := by
    rw [h.children]
    intro child hmem
    obtain ⟨job, hjob, hok⟩ := hc.child child hmem
    exact hchild child hmem job hjob hok
  distinct := h.children ▸ hc.distinct
  known := by
    rw [h.children]
    exact fun child hmem i hi ↦ (hc.known child hmem i hi).trans_le later.next
  captured i v hv := by
    rw [h.versions] at hv
    obtain ⟨hnext, hle⟩ := hc.captured i v hv
    refine ⟨hnext.trans_le later.next, fun conn' hconn' ↦ ?_⟩
    obtain ⟨conn, hconn, hversion⟩ := later.versions i hnext conn' hconn'
    exact (hle conn hconn).trans hversion
  idle := hidle
  collecting hphase := by
    obtain ⟨hphase', hcollecting⟩ := h.collecting hphase
    rw [hcollecting, h.reconciled]
    exact hc.collecting hphase'

end invariant

end AnyList.Cycles.ProviderChanges
