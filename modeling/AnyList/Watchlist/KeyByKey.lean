import AnyList.Watchlist.KeyTable

namespace AnyList.Watchlist.PlexWatchlist

open AnyList.Watchlist.Reconcile AnyList.Watchlist.KeyTable

variable {κ ρ : Type*}

def planned (plan : ReconcilePlan κ) : Change → Finset κ
  | .addLocal => plan.addLocal
  | .removeLocal => plan.removeLocal
  | .pushAdd => plan.pushAdd
  | .pushRemove => plan.pushRemove

theorem hasChanges_eq_false {plan : ReconcilePlan κ} :
    plan.hasChanges = false ↔ ∀ c, planned plan c = ∅ := by
  simp only [ReconcilePlan.hasChanges, decide_eq_false_iff_not, not_or,
    Finset.not_nonempty_iff_eq_empty]
  constructor
  · rintro ⟨h₁, h₂, h₃, h₄⟩ (_ | _ | _ | _)
    exacts [h₁, h₂, h₃, h₄]
  · exact fun h ↦ ⟨h .addLocal, h .removeLocal, h .pushAdd, h .pushRemove⟩

def Session.succeeds (session : Session κ ρ) (key : κ) : Change → Bool
  | .addLocal => session.imports key
  | .removeLocal => true
  | .pushAdd => session.adds key
  | .pushRemove => session.removes key

variable [LinearOrder κ]

def Mirror.keyState (m : Mirror κ) (key : κ) : KeyState where
  inLocal := decide (key ∈ m.localKeys)
  inRemote := decide (key ∈ m.remote)
  synced := m.knownBaseline.map fun b ↦ decide (key ∈ b)

@[simp] theorem inLocal_keyState {m : Mirror κ} {key : κ} :
    (m.keyState key).inLocal = true ↔ key ∈ m.localKeys := by
  simp [Mirror.keyState]

@[simp] theorem inRemote_keyState {m : Mirror κ} {key : κ} :
    (m.keyState key).inRemote = true ↔ key ∈ m.remote := by
  simp [Mirror.keyState]

/-- Whether the change planned for a key, if any, succeeds. -/
def succeedsAt (d : Directions) (session : Session κ ρ) (m : Mirror κ) (key : κ) : Bool :=
  (change d (m.keyState key)).all (session.succeeds key)

theorem mem_firstPlan (d : Directions) (localKeys remoteKeys : Finset κ) (c : Change) (key : κ) :
    key ∈ planned (firstPlan d localKeys remoteKeys) c ↔
      change d ⟨decide (key ∈ localKeys), decide (key ∈ remoteKeys), none⟩ = some c := by
  by_cases hl : key ∈ localKeys <;> by_cases hr : key ∈ remoteKeys <;>
    cases hpull : d.pullEnabled <;> cases hpush : d.pushEnabled <;> cases c <;>
    simp [firstPlan, planned, change, hl, hr, hpull, hpush]

theorem mem_classify (d : Directions) (localKeys remoteKeys base : Finset κ) (c : Change)
    (key : κ) :
    key ∈ planned (classify d localKeys remoteKeys base) c ↔
      change d ⟨decide (key ∈ localKeys), decide (key ∈ remoteKeys),
        some (decide (key ∈ base))⟩ = some c := by
  by_cases hl : key ∈ localKeys <;> by_cases hr : key ∈ remoteKeys <;>
    cases c <;> simp [classify, planned, change, hl, hr, localOnly, remoteOnly] <;>
    split_ifs <;> simp

theorem removeLocal_of_suppressionReason {removeLocal remoteKeys base : Finset κ}
    {reason : String} (h : suppressionReason removeLocal remoteKeys base = some reason) :
    removeLocal.Nonempty := by
  unfold suppressionReason at h
  split_ifs at h with hr <;> exact hr.1

/-- Only a plan that wanted to delete locally is ever suppressed. -/
theorem exists_removal_of_suppressed {d : Directions} {m : Mirror κ}
    (h : (planFor d m).suppressed = true) :
    ∃ key, change d (m.keyState key) = some .removeLocal := by
  unfold planFor planWatchlistReconcile at h
  cases hb : m.knownBaseline with
  | none => simp [hb, firstPlan] at h
  | some b =>
    simp only [hb] at h
    split at h
    case h_1 reason hreason =>
      obtain ⟨key, hkey⟩ := removeLocal_of_suppressionReason hreason
      refine ⟨key, ?_⟩
      have hc := (mem_classify _ _ _ _ .removeLocal key).mp hkey
      simpa [Mirror.keyState, hb] using hc
    case h_2 => simp [classify] at h

theorem planFor_cases (d : Directions) (m : Mirror κ) :
    (planFor d m).suppressed = true ∧ (∀ c, planned (planFor d m) c = ∅) ∨
    (planFor d m).suppressed = false ∧
      ∀ c key, key ∈ planned (planFor d m) c ↔ change d (m.keyState key) = some c := by
  unfold planFor planWatchlistReconcile Mirror.keyState
  cases m.knownBaseline with
  | none => exact .inr ⟨rfl, fun c key ↦ mem_firstPlan ..⟩
  | some b =>
    dsimp only
    split
    · exact .inl ⟨rfl, fun c ↦ by cases c <;> rfl⟩
    · exact .inr ⟨rfl, fun c key ↦ by simpa using mem_classify d _ _ b.toFinset c key⟩

theorem mem_planned {d : Directions} {m : Mirror κ} (hs : (planFor d m).suppressed = false)
    (c : Change) (key : κ) :
    key ∈ planned (planFor d m) c ↔ change d (m.keyState key) = some c := by
  obtain ⟨h, -⟩ | ⟨-, h⟩ := planFor_cases d m
  · simp [hs] at h
  · exact h c key

theorem change_of_mem_planned {d : Directions} {m : Mirror κ} {c : Change} {key : κ}
    (h : key ∈ planned (planFor d m) c) : change d (m.keyState key) = some c := by
  obtain ⟨-, hp⟩ | ⟨-, hp⟩ := planFor_cases d m
  · simp [hp] at h
  · exact (hp c key).mp h

section run

variable {d : Directions} {session : Session κ ρ} {m : Mirror κ}

theorem removeLocal_subset : (planFor d m).removeLocal ⊆ m.localKeys := by
  intro key hkey
  have h := change_sides d _ _ (change_of_mem_planned (c := .removeLocal) hkey)
  simpa using h.1

theorem reconcileWatchlist_of_idle (hd : (d.pullEnabled || d.pushEnabled) = false) :
    reconcileWatchlist d session m = m := by
  simp [reconcileWatchlist, hd]

theorem reconcileWatchlist_of_suppressed (hs : (planFor d m).suppressed = true) :
    reconcileWatchlist d session m = m := by
  simp [reconcileWatchlist, hs]

variable (hd : (d.pullEnabled || d.pushEnabled) = true) (hs : (planFor d m).suppressed = false)

include hd hs

theorem localKeys_reconcile :
    (reconcileWatchlist d session m).localKeys =
      (m.localKeys ∪ (planFor d m).addLocal.filter (session.imports ·)) \
        (planFor d m).removeLocal := by
  have h := applyLocal_snd session m.managed (planFor d m) removeLocal_subset
  simp only [reconcileWatchlist, hd, hs, Mirror.localKeys, not_true_eq_false, if_false,
    Bool.false_eq_true, applyLocal_fst, h]

theorem remote_reconcile :
    (reconcileWatchlist d session m).remote =
      (m.remote ∪ (planFor d m).pushAdd.filter (session.adds ·)) \
        (planFor d m).pushRemove.filter (session.removes ·) := by
  simp only [reconcileWatchlist, hd, hs, not_true_eq_false, if_false, Bool.false_eq_true,
    applyRemote_fst, applyRemote_snd]
  ext key
  simp
  tauto

theorem baseline_reconcile :
    (reconcileWatchlist d session m).baseline =
      some (computeNewBaseline (reconcileWatchlist d session m).localKeys
        ((planFor d m).pushAdd.filter (session.adds · = false))
        ((planFor d m).pushRemove.filter (session.removes · = false))) := by
  simp only [reconcileWatchlist, hd, hs, not_true_eq_false, if_false, Bool.false_eq_true,
    applyRemote_fst, applyRemote_snd, Mirror.localKeys, applyLocal_fst]

variable (session)

/-- A run takes every key through the table. -/
theorem mem_localKeys_reconcile (key : κ) :
    key ∈ (reconcileWatchlist d session m).localKeys ↔
      (perform d (m.keyState key) (succeedsAt d session m key)).inLocal = true := by
  have hadd := mem_planned hs .addLocal key
  have hrem := mem_planned hs .removeLocal key
  simp only [planned] at hadd hrem
  simp only [localKeys_reconcile hd hs, Finset.mem_sdiff, Finset.mem_union, Finset.mem_filter,
    hadd, hrem, ← inLocal_keyState, perform, succeedsAt]
  cases hc : change d (m.keyState key) with
  | none => simp
  | some c =>
    have hsides := change_sides d _ _ hc
    cases c <;> simp_all [Session.succeeds]

theorem mem_remote_reconcile (key : κ) :
    key ∈ (reconcileWatchlist d session m).remote ↔
      (perform d (m.keyState key) (succeedsAt d session m key)).inRemote = true := by
  have hadd := mem_planned hs .pushAdd key
  have hrem := mem_planned hs .pushRemove key
  simp only [planned] at hadd hrem
  simp only [remote_reconcile hd hs, Finset.mem_sdiff, Finset.mem_union, Finset.mem_filter,
    hadd, hrem, ← inRemote_keyState, perform, succeedsAt]
  cases hc : change d (m.keyState key) with
  | none => simp
  | some c =>
    have hsides := change_sides d _ _ hc
    cases c <;> simp_all [Session.succeeds]

theorem mem_baseline_reconcile (key : κ) :
    (∃ b ∈ (reconcileWatchlist d session m).baseline, key ∈ b) ↔
      (perform d (m.keyState key) (succeedsAt d session m key)).synced = some true := by
  have hadd := mem_planned hs .pushAdd key
  have hrem := mem_planned hs .pushRemove key
  simp only [planned] at hadd hrem
  simp only [baseline_reconcile hd hs, Option.mem_some_iff, exists_eq_left',
    mem_computeNewBaseline, Finset.mem_filter, hadd, hrem, mem_localKeys_reconcile session hd hs,
    perform, succeedsAt]
  cases hc : change d (m.keyState key) with
  | none => simp
  | some c => cases c <;> simp [Session.succeeds]

theorem managed_reconcile :
    (reconcileWatchlist d session m).managed = none ↔
      m.managed = none ∧ ((planFor d m).addLocal = ∅ ∨ session.tmdbApiKey = false) := by
  simp only [reconcileWatchlist, hd, hs, not_true_eq_false, if_false, Bool.false_eq_true]
  unfold applyLocalWatchlistChanges
  obtain ha | ha := (planFor d m).addLocal.eq_empty_or_nonempty
  · by_cases hr : (planFor d m).removeLocal.Nonempty <;> cases m.managed <;> simp [ha, hr]
  · cases hkey : session.tmdbApiKey <;> by_cases hr : (planFor d m).removeLocal.Nonempty <;>
      cases m.managed <;> simp [ha, ha.ne_empty, hr]

/-- The next plan treats a key as the table says. -/
theorem change_reconcile (key : κ) :
    change d ((reconcileWatchlist d session m).keyState key) =
      change d (perform d (m.keyState key) (succeedsAt d session m key)) := by
  have hl := mem_localKeys_reconcile session hd hs key
  have hr := mem_remote_reconcile session hd hs key
  have hb := mem_baseline_reconcile session hd hs key
  rw [← inLocal_keyState, ← Bool.eq_iff_iff] at hl
  rw [← inRemote_keyState, ← Bool.eq_iff_iff] at hr
  obtain ⟨synced, hsynced⟩ := perform_synced d (m.keyState key) (succeedsAt d session m key)
  cases hm : (reconcileWatchlist d session m).managed with
  | none =>
    have hempty : ((reconcileWatchlist d session m).keyState key).inLocal = false := by
      simp [Mirror.keyState, Mirror.localKeys, hm]
    have hfirst : (m.keyState key).synced = none := by
      simp [Mirror.keyState, Mirror.knownBaseline, ((managed_reconcile session hd hs).mp hm).1]
    have hnone : ((reconcileWatchlist d session m).keyState key).synced = none := by
      simp [Mirror.keyState, Mirror.knownBaseline, hm]
    have hfalse := perform_first d _ _ hfirst (hl.symm.trans hempty)
    rw [show (reconcileWatchlist d session m).keyState key = ⟨false, _, none⟩ from
        KeyState.ext hempty hr hnone,
      show perform d (m.keyState key) (succeedsAt d session m key) = ⟨false, _, some false⟩ from
        KeyState.ext (hl.symm.trans hempty) rfl hfalse]
    exact change_absent d _
  | some keys =>
    have hsome : ((reconcileWatchlist d session m).keyState key).synced = some synced := by
      obtain ⟨b, hbase⟩ : ∃ b, (reconcileWatchlist d session m).baseline = some b :=
        ⟨_, baseline_reconcile hd hs⟩
      rw [hsynced, hbase] at hb
      simp only [Mirror.keyState, Mirror.knownBaseline, hm, hbase, Option.isNone_some, Bool.false_eq_true, if_false,
        Option.map_some, Option.some.injEq]
      rw [Bool.eq_iff_iff, decide_eq_true_eq]
      simpa using hb
    exact congrArg (change d) (KeyState.ext hl hr (hsome.trans hsynced.symm))

end run

end AnyList.Watchlist.PlexWatchlist
