import AnyList.Watchlist.Convergence
import AnyList.Library.ThreeWayMerge

namespace AnyList.Watchlist.PlexWatchlist

open AnyList.Watchlist.Reconcile AnyList.Watchlist.KeyTable AnyList.Library.ThreeWayMerge

variable {κ ρ : Type*}

theorem eq_of_localKeys {m m' : Mirror κ} (hmanaged : m.managed = none ↔ m'.managed = none)
    (hl : m.localKeys = m'.localKeys) (hr : m.remote = m'.remote)
    (hb : m.baseline = m'.baseline) : m = m' := by
  obtain ⟨managed, remote, baseline⟩ := m
  obtain ⟨managed', remote', baseline'⟩ := m'
  cases managed <;> cases managed' <;> simp_all [Mirror.localKeys]

variable [LinearOrder κ]

def bothWays : Directions := ⟨true, true⟩

def Mirror.base (m : Mirror κ) : Finset κ := (m.knownBaseline.map List.toFinset).getD ∅

theorem mem_merge_base {m : Mirror κ} {key : κ} :
    key ∈ merge m.base m.localKeys m.remote ↔
      (perform bothWays (m.keyState key) true).inLocal = true := by
  rw [bothWays, perform_merges]
  cases hb : m.knownBaseline <;> simp [Mirror.keyState, Mirror.base, hb]

section merge

variable {session : Session κ ρ} {m : Mirror κ} (hs : (planFor bothWays m).suppressed = false)
  (hall : AllSucceed session (planFor bothWays m))

include hs hall

theorem localKeys_bothWays :
    (reconcileWatchlist bothWays session m).localKeys = merge m.base m.localKeys m.remote := by
  ext key
  rw [mem_localKeys_reconcile session rfl hs, succeedsAt_of_allSucceed hs hall, mem_merge_base]

theorem remote_bothWays :
    (reconcileWatchlist bothWays session m).remote = merge m.base m.localKeys m.remote := by
  rw [← localKeys_bothWays hs hall]
  exact (localKeys_eq_remote rfl hs hall rfl (by simp [firstPullOnly, bothWays])).symm

theorem baseline_bothWays :
    (reconcileWatchlist bothWays session m).baseline =
      some (computeNewBaseline (merge m.base m.localKeys m.remote) ∅ ∅) := by
  rw [baseline_reconcile rfl hs, hall.failedAdd, hall.failedRemove, localKeys_bothWays hs hall]

theorem managed_bothWays :
    (reconcileWatchlist bothWays session m).managed = none ↔
      m.managed = none ∧ (planFor bothWays m).addLocal = ∅ := by
  rw [managed_reconcile session rfl hs, and_congr_right_iff]
  refine fun _ ↦ ⟨fun h ↦ h.elim id fun hkey ↦ ?_, .inl⟩
  refine Finset.eq_empty_of_forall_notMem fun key hadd ↦ ?_
  have himport := hall .addLocal key hadd
  simp [Session.succeeds, Session.imports, hkey] at himport

end merge

section interrupted

variable {m : Mirror κ} {added removed : Finset κ}

theorem suppressed_iff {d : Directions} :
    (planFor d m).suppressed = true ↔ ∃ b ∈ m.knownBaseline,
      (classify d m.localKeys m.remote b.toFinset).removeLocal.Nonempty ∧
      suppressMinBaseline ≤ b.toFinset.card ∧
      (m.remote = ∅ ∨ suppressMaxFraction * b.toFinset.card <
        ((classify d m.localKeys m.remote b.toFinset).removeLocal ∩ b.toFinset).card) := by
  unfold planFor planWatchlistReconcile suppressionReason
  cases m.knownBaseline with
  | none => simp [firstPlan]
  | some b =>
    simp only [Option.mem_some_iff, exists_eq_left']
    have hplan : (classify d m.localKeys m.remote b.toFinset).suppressed = false := rfl
    split_ifs with h₁ h₂ h₃
    · exact ⟨fun _ ↦ ⟨h₁.1, h₁.2, .inl h₂⟩, fun _ ↦ rfl⟩
    · exact ⟨fun _ ↦ ⟨h₁.1, h₁.2, .inr h₃⟩, fun _ ↦ rfl⟩
    · simp only [hplan, h₂, h₃, or_false, and_false, Bool.false_eq_true]
    · simp only [hplan, Bool.false_eq_true, false_iff]
      exact fun h ↦ h₁ ⟨h.1, h.2.1⟩

theorem planFor_eq_classify {d : Directions} {b : List κ} (hb : m.knownBaseline = some b)
    (hs : (planFor d m).suppressed = false) :
    planFor d m = classify d m.localKeys m.remote b.toFinset := by
  unfold planFor planWatchlistReconcile at hs ⊢
  simp only [hb] at hs ⊢
  split at hs
  case h_1 => cases hs
  case h_2 => rfl

variable (hadded : added ⊆ (planFor bothWays m).pushAdd)
  (hremoved : removed ⊆ (planFor bothWays m).pushRemove)

include hadded hremoved

theorem pushed_interrupt (key : κ) :
    decide (key ∈ (interrupt m added removed).remote) = (m.keyState key).inRemote ∨
      change bothWays (m.keyState key) = some .pushAdd ∨
      change bothWays (m.keyState key) = some .pushRemove := by
  by_cases ha : key ∈ added
  · exact .inr (.inl (change_of_mem_planned (c := .pushAdd) (hadded ha)))
  · by_cases hr : key ∈ removed
    · exact .inr (.inr (change_of_mem_planned (c := .pushRemove) (hremoved hr)))
    · exact .inl (by simp [interrupt, Mirror.keyState, ha, hr])

theorem change_interrupt {c : Change} (hc : c = .addLocal ∨ c = .removeLocal) (key : κ) :
    change bothWays ((interrupt m added removed).keyState key) = some c ↔
      change bothWays (m.keyState key) = some c :=
  change_pushed (m.keyState key) _ c (pushed_interrupt hadded hremoved key) hc

theorem onTheWay_interrupt :
    OnTheWay (merge m.base m.localKeys m.remote) m.remote (interrupt m added removed).remote := by
  intro key
  rw [mem_merge_base, ← inRemote_keyState (m := m)]
  obtain h | h := perform_pushed (m.keyState key) _ (pushed_interrupt hadded hremoved key)
  · exact .inl (by rw [← h, decide_eq_true_eq])
  · exact .inr (by rw [bothWays, ← h, decide_eq_true_eq])

theorem removeLocal_interrupt {b : List κ} (hb : m.knownBaseline = some b) :
    (classify bothWays m.localKeys (interrupt m added removed).remote b.toFinset).removeLocal =
      (classify bothWays m.localKeys m.remote b.toFinset).removeLocal := by
  ext key
  have hk : ∀ m' : Mirror κ, m'.knownBaseline = some b →
      (key ∈ (classify bothWays m'.localKeys m'.remote b.toFinset).removeLocal ↔
        change bothWays (m'.keyState key) = some .removeLocal) := by
    intro m' hb'
    refine (mem_classify bothWays _ _ b.toFinset .removeLocal key).trans ?_
    simp [Mirror.keyState, hb']
  rw [hk m hb, ← change_interrupt hadded hremoved (.inr rfl) key]
  exact hk (interrupt m added removed) hb

/-- The circuit breaker is the one thing that can stop the repeated run. -/
theorem suppressed_interrupt (hs : (planFor bothWays m).suppressed = false) :
    (planFor bothWays (interrupt m added removed)).suppressed = true ↔
      (interrupt m added removed).remote = ∅ ∧ (planFor bothWays m).removeLocal.Nonempty ∧
        ∃ b ∈ m.knownBaseline, suppressMinBaseline ≤ b.toFinset.card := by
  have hnot := hs
  rw [← Bool.not_eq_true, suppressed_iff] at hnot
  rw [suppressed_iff]
  cases hb : m.knownBaseline with
  | none => simp [show (interrupt m added removed).knownBaseline = none from hb]
  | some b =>
    have hplan := congrArg ReconcilePlan.removeLocal (planFor_eq_classify hb hs)
    have hb' : (interrupt m added removed).knownBaseline = some b := hb
    have hl : (interrupt m added removed).localKeys = m.localKeys := rfl
    simp only [hb, hb', hl, removeLocal_interrupt hadded hremoved hb, hplan, Option.mem_some_iff,
      exists_eq_left'] at hnot ⊢
    tauto

end interrupted

/-- A run whose pushes were cut short can be repeated, unless the pushes that did
reach Plex emptied its list while an established baseline still wants deletions. -/
theorem reconcile_repeatable (session session' : Session κ ρ) (m : Mirror κ)
    (added removed : Finset κ) (hs : (planFor bothWays m).suppressed = false)
    (hadded : added ⊆ (planFor bothWays m).pushAdd)
    (hremoved : removed ⊆ (planFor bothWays m).pushRemove)
    (hall : AllSucceed session (planFor bothWays m)) :
    ((planFor bothWays (interrupt m added removed)).suppressed = true ↔
      (interrupt m added removed).remote = ∅ ∧ (planFor bothWays m).removeLocal.Nonempty ∧
        ∃ b ∈ m.knownBaseline, suppressMinBaseline ≤ b.toFinset.card) ∧
    ((planFor bothWays (interrupt m added removed)).suppressed = false →
      AllSucceed session' (planFor bothWays (interrupt m added removed)) →
      reconcileWatchlist bothWays session' (interrupt m added removed) =
        reconcileWatchlist bothWays session m) := by
  refine ⟨suppressed_interrupt hadded hremoved hs, fun hs' hall' ↦ ?_⟩
  have hmerge : merge (interrupt m added removed).base (interrupt m added removed).localKeys
      (interrupt m added removed).remote = merge m.base m.localKeys m.remote :=
    merge_onTheWay (onTheWay_interrupt hadded hremoved)
  have haddLocal : (planFor bothWays (interrupt m added removed)).addLocal =
      (planFor bothWays m).addLocal := by
    ext key
    exact (mem_planned hs' .addLocal key).trans
      ((change_interrupt hadded hremoved (.inl rfl) key).trans (mem_planned hs .addLocal key).symm)
  apply eq_of_localKeys
  · rw [managed_bothWays hs' hall', managed_bothWays hs hall, haddLocal, interrupt]
  · rw [localKeys_bothWays hs' hall', localKeys_bothWays hs hall, hmerge]
  · rw [remote_bothWays hs' hall', remote_bothWays hs hall, hmerge]
  · rw [baseline_bothWays hs' hall', baseline_bothWays hs hall, hmerge]

/-- The removal reached Plex, the addition did not. -/
theorem reconcile_repeatable_half :
    reconcileWatchlist bothWays reachable (interrupt ⟨some {1, 2}, {2, 3}, some [2, 3]⟩ ∅ {3}) =
      reconcileWatchlist bothWays reachable ⟨some {1, 2}, {2, 3}, some [2, 3]⟩ :=
  (reconcile_repeatable reachable reachable _ ∅ {3} (by decide) (by decide) (by decide)
    (by intro c key _; cases c <;> rfl)).2 (by decide) (by intro c key _; cases c <;> rfl)

theorem interrupted_run_suppressed :
    let m : Mirror ℕ := ⟨some {1}, {2}, some [1, 2, 3, 4, 5, 6, 7, 8, 9, 10]⟩
    (planFor bothWays m).suppressed = false ∧ {2} ⊆ (planFor bothWays m).pushRemove ∧
      AllSucceed reachable (planFor bothWays m) ∧
      (planFor bothWays (interrupt m ∅ {2})).suppressed = true := by
  refine ⟨by decide +kernel, by decide +kernel, by intro c key _; cases c <;> rfl,
    by decide +kernel⟩

end AnyList.Watchlist.PlexWatchlist
