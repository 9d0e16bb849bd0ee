import AnyList.Watchlist.KeyByKey

namespace AnyList.Watchlist.PlexWatchlist

open AnyList.Watchlist.Reconcile AnyList.Watchlist.KeyTable

variable {κ ρ : Type*}

def AllSucceed (session : Session κ ρ) (plan : ReconcilePlan κ) : Prop :=
  ∀ c, ∀ key ∈ planned plan c, session.succeeds key c = true

namespace AllSucceed

variable {session : Session κ ρ} {plan : ReconcilePlan κ} (h : AllSucceed session plan)

include h

theorem addLocal : plan.addLocal.filter (session.imports ·) = plan.addLocal :=
  Finset.filter_true_of_mem (h .addLocal)

theorem pushAdd : plan.pushAdd.filter (session.adds ·) = plan.pushAdd :=
  Finset.filter_true_of_mem (h .pushAdd)

theorem pushRemove : plan.pushRemove.filter (session.removes ·) = plan.pushRemove :=
  Finset.filter_true_of_mem (h .pushRemove)

theorem failedAdd : plan.pushAdd.filter (session.adds · = false) = ∅ :=
  Finset.filter_false_of_mem fun key hkey ↦ Bool.eq_false_iff.not_left.mpr (h .pushAdd key hkey)

theorem failedRemove : plan.pushRemove.filter (session.removes · = false) = ∅ :=
  Finset.filter_false_of_mem fun key hkey ↦
    Bool.eq_false_iff.not_left.mpr (h .pushRemove key hkey)

end AllSucceed

variable [LinearOrder κ]

/-- Pull only, before any baseline: the plan is additive although a later one mirrors. -/
def firstPullOnly (d : Directions) (m : Mirror κ) : Bool :=
  d.pullEnabled && !d.pushEnabled && m.knownBaseline.isNone

theorem firstPull_keyState (d : Directions) (m : Mirror κ) (key : κ) :
    firstPull d (m.keyState key).synced = firstPullOnly d m := by
  simp [firstPull, firstPullOnly, Mirror.keyState]

theorem planned_disjoint (d : Directions) (m : Mirror κ) (c c' : Change) (h : c ≠ c') :
    Disjoint (planned (planFor d m) c) (planned (planFor d m) c') := by
  rw [Finset.disjoint_left]
  intro key hc hc'
  have heq := (change_of_mem_planned hc).symm.trans (change_of_mem_planned hc')
  exact h (Option.some.inj heq)

/-- What one fully successful run leaves behind. -/
structure Converged (d : Directions) (m m' : Mirror κ) : Prop where
  localKeys : m'.localKeys = (m.localKeys ∪ (planFor d m).addLocal) \ (planFor d m).removeLocal
  remote : m'.remote = (m.remote ∪ (planFor d m).pushAdd) \ (planFor d m).pushRemove
  baseline : m'.baseline = some (computeNewBaseline m'.localKeys ∅ ∅)
  settled : firstPullOnly d m = false →
    (planFor d m').hasChanges = false ∧ (planFor d m').suppressed = false
  agrees : d.pullEnabled = true → firstPullOnly d m = false → m'.localKeys = m'.remote
  pending : firstPullOnly d m = true → (planFor d m').suppressed = true ∨
    ∀ c, planned (planFor d m') c = if c = .removeLocal then m.localKeys \ m.remote else ∅
  disjointLocal : Disjoint (planFor d m).addLocal (planFor d m).removeLocal
  disjointRemote : Disjoint (planFor d m).pushAdd (planFor d m).pushRemove

section run

variable {d : Directions} {session : Session κ ρ} {m : Mirror κ}

theorem succeedsAt_of_allSucceed (hs : (planFor d m).suppressed = false)
    (hall : AllSucceed session (planFor d m)) (key : κ) : succeedsAt d session m key = true := by
  unfold succeedsAt
  cases hc : change d (m.keyState key) with
  | none => rfl
  | some c => exact hall c key ((mem_planned hs c key).mpr hc)

variable (hd : (d.pullEnabled || d.pushEnabled) = true) (hs : (planFor d m).suppressed = false)
  (hall : AllSucceed session (planFor d m))

include hd hs hall

theorem change_settled (hf : firstPullOnly d m = false) (key : κ) :
    change d ((reconcileWatchlist d session m).keyState key) = none := by
  rw [change_reconcile session hd hs, succeedsAt_of_allSucceed hs hall]
  exact perform_settles d _ hd ((firstPull_keyState d m key).trans hf)

theorem change_pending (hf : firstPullOnly d m = true) (key : κ) :
    change d ((reconcileWatchlist d session m).keyState key) =
      if key ∈ m.localKeys \ m.remote then some .removeLocal else none := by
  rw [change_reconcile session hd hs, succeedsAt_of_allSucceed hs hall,
    perform_firstPull d _ ((firstPull_keyState d m key).trans hf)]
  simp [Mirror.keyState]

theorem localKeys_eq_remote (hpull : d.pullEnabled = true) (hf : firstPullOnly d m = false) :
    (reconcileWatchlist d session m).localKeys = (reconcileWatchlist d session m).remote := by
  have hknown : d.pushEnabled = true ∨ m.knownBaseline.isSome = true := by
    cases hpush : d.pushEnabled <;> simp_all [firstPullOnly]
  ext key
  rw [mem_localKeys_reconcile session hd hs, mem_remote_reconcile session hd hs,
    succeedsAt_of_allSucceed hs hall, perform_agrees d _ hpull]
  simpa [Mirror.keyState] using hknown

/-- One successful run settles every mode but the first pull-only one. There the
additive plan keeps the keys missing from Plex, and the next plan removes them. -/
theorem reconcile_converges : Converged d m (reconcileWatchlist d session m) where
  localKeys := by rw [localKeys_reconcile hd hs, hall.addLocal]
  remote := by rw [remote_reconcile hd hs, hall.pushAdd, hall.pushRemove]
  baseline := by rw [baseline_reconcile hd hs, hall.failedAdd, hall.failedRemove]
  settled hf := by
    have hnone := change_settled hd hs hall hf
    refine ⟨hasChanges_eq_false.mpr fun c ↦ Finset.eq_empty_of_forall_notMem fun key hkey ↦ ?_,
      Bool.eq_false_iff.mpr fun hsup ↦ ?_⟩
    · have hc := change_of_mem_planned hkey
      simp [hnone] at hc
    · obtain ⟨key, hkey⟩ := exists_removal_of_suppressed hsup
      simp [hnone] at hkey
  agrees hpull hf := localKeys_eq_remote hd hs hall hpull hf
  pending hf := by
    obtain ⟨hsup, -⟩ | ⟨-, hplan⟩ := planFor_cases d (reconcileWatchlist d session m)
    · exact .inl hsup
    · refine .inr fun c ↦ Finset.ext fun key ↦ ?_
      rw [hplan, change_pending hd hs hall hf]
      by_cases hkey : key ∈ m.localKeys \ m.remote <;> cases c <;> simp [hkey]
  disjointLocal := planned_disjoint d m .addLocal .removeLocal (by decide)
  disjointRemote := planned_disjoint d m .pushAdd .pushRemove (by decide)

end run

/-- A session in which nothing fails. -/
def reachable : Session ℕ ℕ := ⟨true, fun _ ↦ true, some, fun key ↦ some (some key),
  fun _ _ ↦ some true, fun _ _ ↦ some true⟩

theorem reconcile_converges_pull :
    Converged ⟨true, false⟩ ⟨some {1, 2}, {2, 3}, some [2]⟩
      (reconcileWatchlist ⟨true, false⟩ reachable ⟨some {1, 2}, {2, 3}, some [2]⟩) :=
  reconcile_converges rfl (by decide) (by intro c key _; cases c <;> rfl)

theorem pull_only_first_run_leaves_removal :
    (planFor ⟨true, false⟩ ⟨some {1}, ∅, none⟩).suppressed = false ∧
      AllSucceed reachable (planFor ⟨true, false⟩ ⟨some {1}, ∅, none⟩) ∧
      (planFor ⟨true, false⟩
        (reconcileWatchlist ⟨true, false⟩ reachable ⟨some {1}, ∅, none⟩)).hasChanges = true := by
  refine ⟨rfl, by intro c key _; cases c <;> rfl, ?_⟩
  decide +kernel

end AnyList.Watchlist.PlexWatchlist

namespace AnyList.Watchlist.PlexWatchlist

open AnyList.Watchlist.Reconcile AnyList.Watchlist.KeyTable

variable {κ ρ : Type*} [LinearOrder κ]

def isRemoval (c : Change) : Prop := c = .removeLocal ∨ c = .pushRemove

section plans

variable {d : Directions} {session : Session κ ρ} {m : Mirror κ}

theorem reconcile_of_stopped (h : (d.pullEnabled || d.pushEnabled) = false ∨
    (planFor d m).suppressed = true) : reconcileWatchlist d session m = m :=
  h.elim reconcileWatchlist_of_idle reconcileWatchlist_of_suppressed

theorem not_isRemoval_of_firstPull (hf : firstPullOnly d m = true) {c : Change} {key : κ}
    (hkey : key ∈ planned (planFor d m) c) : ¬isRemoval c := by
  have hsynced : (m.keyState key).synced = none := by
    simp only [firstPullOnly, Bool.and_eq_true, Option.isNone_iff_eq_none] at hf
    simp [Mirror.keyState, hf.2]
  obtain rfl | rfl := change_first d _ c hsynced (change_of_mem_planned hkey) <;>
    simp [isRemoval]

theorem planned_again (hd : (d.pullEnabled || d.pushEnabled) = true)
    (hs : (planFor d m).suppressed = false)
    (hs' : (planFor d (reconcileWatchlist d session m)).suppressed = false)
    {c : Change} {key : κ} (hkey : key ∈ planned (planFor d m) c)
    (hfail : session.succeeds key c = false) :
    key ∈ planned (planFor d (reconcileWatchlist d session m)) c := by
  have hc := change_of_mem_planned hkey
  have hne : c ≠ .removeLocal := by
    rintro rfl
    cases hfail
  have hat : succeedsAt d session m key = false := by
    simp [succeedsAt, hc, hfail]
  rw [mem_planned hs', change_reconcile session hd hs, hat]
  exact perform_retries d _ c hc hne

theorem removal_intended (hd : (d.pullEnabled || d.pushEnabled) = true)
    (hs : (planFor d m).suppressed = false) (hf : firstPullOnly d m = false) {c : Change}
    (hc : isRemoval c) :
    planned (planFor d (reconcileWatchlist d session m)) c ⊆ planned (planFor d m) c := by
  intro key hkey
  have hnext := change_of_mem_planned hkey
  rw [change_reconcile session hd hs] at hnext
  rw [mem_planned hs]
  exact perform_no_new_removal d _ _ c ((firstPull_keyState d m key).trans hf) hc hnext

theorem removal_pending (hd : (d.pullEnabled || d.pushEnabled) = true)
    (hs : (planFor d m).suppressed = false) (hf : firstPullOnly d m = true) {c : Change}
    (hc : isRemoval c) {key : κ}
    (hkey : key ∈ planned (planFor d (reconcileWatchlist d session m)) c) :
    c = .removeLocal ∧ key ∈ m.localKeys \ m.remote := by
  have hnext := change_of_mem_planned hkey
  rw [change_reconcile session hd hs] at hnext
  obtain ⟨hc, hl, hr⟩ :=
    perform_firstPull_removal d _ _ c ((firstPull_keyState d m key).trans hf) hc hnext
  refine ⟨hc, ?_⟩
  simpa [Mirror.keyState] using And.intro hl hr

end plans

/-- Whatever fails is planned again, and a failure never turns into a removal. Only
after the additive first pull does the next plan remove the keys missing from Plex. -/
theorem partial_failure_retried (d : Directions) (session : Session κ ρ) (m : Mirror κ) :
    ((planFor d (reconcileWatchlist d session m)).suppressed = false →
      ∀ c, ∀ key ∈ planned (planFor d m) c, session.succeeds key c = false →
        key ∈ planned (planFor d (reconcileWatchlist d session m)) c) ∧
    (firstPullOnly d m = false → ∀ c, isRemoval c →
      planned (planFor d (reconcileWatchlist d session m)) c ⊆ planned (planFor d m) c) ∧
    (firstPullOnly d m = true → ∀ c, isRemoval c →
      ∀ key ∈ planned (planFor d (reconcileWatchlist d session m)) c,
        c = .removeLocal ∧ key ∈ m.localKeys \ m.remote) := by
  by_cases hstop : (d.pullEnabled || d.pushEnabled) = false ∨ (planFor d m).suppressed = true
  · rw [reconcile_of_stopped hstop]
    refine ⟨fun _ c key hkey _ ↦ hkey, fun _ c _ ↦ subset_rfl, fun hf c hc key hkey ↦ ?_⟩
    exact absurd hc (not_isRemoval_of_firstPull hf hkey)
  · rw [not_or, Bool.not_eq_false, Bool.not_eq_true] at hstop
    obtain ⟨hd, hs⟩ := hstop
    exact ⟨fun hs' c key hkey hfail ↦ planned_again hd hs hs' hkey hfail,
      fun hf c hc ↦ removal_intended hd hs hf hc,
      fun hf c hc key hkey ↦ removal_pending hd hs hf hc hkey⟩

/-- No import fails here, and the key was never to be removed. -/
theorem first_pull_plans_new_removal :
    let m : Mirror ℕ := ⟨some {1}, ∅, none⟩
    (planFor ⟨true, false⟩ m).removeLocal = ∅ ∧
      (planFor ⟨true, false⟩ (reconcileWatchlist ⟨true, false⟩ reachable m)).removeLocal = {1} := by
  decide +kernel

end AnyList.Watchlist.PlexWatchlist
