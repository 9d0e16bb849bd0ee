import AnyList.Watchlist.Reconcile

namespace AnyList.Watchlist.PlexWatchlist

open AnyList.Watchlist.Reconcile

variable {κ ρ : Type*} [LinearOrder κ]

/-- What one run meets outside its own code. `none` is a raised exception;
`itemRatingKey` is the key carried by the fetched item itself. -/
structure Session (κ ρ : Type*) where
  tmdbApiKey : Bool
  importItem : κ → Bool
  itemRatingKey : κ → Option ρ
  resolveRatingKey : κ → Option (Option ρ)
  addToWatchlist : κ → ρ → Option Bool
  removeFromWatchlist : κ → ρ → Option Bool

namespace Session

variable (session : Session κ ρ) (key : κ)

def imports : Bool := session.tmdbApiKey && session.importItem key

def adds : Bool :=
  match session.resolveRatingKey key with
  | some (some ratingKey) => session.addToWatchlist key ratingKey == some true
  | _ => false

def removes : Bool :=
  match session.itemRatingKey key with
  | some ratingKey => session.removeFromWatchlist key ratingKey == some true
  | none =>
    match session.resolveRatingKey key with
    | some (some ratingKey) => session.removeFromWatchlist key ratingKey == some true
    | _ => false

end Session

/-- The managed list (`none` when it has no row), Plex's watchlist and the stored
baseline of one connection. -/
structure Mirror (κ : Type*) where
  managed : Option (Finset κ)
  remote : Finset κ
  baseline : Option (List κ)

def Mirror.localKeys (m : Mirror κ) : Finset κ := m.managed.getD ∅

/-- The list after the plan's local side, and the keys reported as present. -/
def applyLocalWatchlistChanges (session : Session κ ρ) (managed : Option (Finset κ))
    (plan : ReconcilePlan κ) : Option (Finset κ) × Finset κ :=
  let applied := managed.getD ∅
  let (managed, applied) :=
    if plan.addLocal.Nonempty ∧ ¬session.tmdbApiKey then (managed, applied)
    else if plan.addLocal.Nonempty then
      let items := (sorted plan.addLocal).foldl
        (fun items key ↦ if session.importItem key then insert key items else items) applied
      (some items, items)
    else (managed, applied)
  if plan.removeLocal.Nonempty ∧ managed.isSome then
    (managed.map (· \ plan.removeLocal), applied \ plan.removeLocal)
  else (managed, applied)

/-- The pushes that failed, as `(failedAdd, failedRemove)`. -/
def applyRemoteWatchlistChanges (session : Session κ ρ) (plan : ReconcilePlan κ) :
    Finset κ × Finset κ :=
  ((sorted plan.pushAdd).foldl
    (fun failed key ↦ if session.adds key then failed else insert key failed) ∅,
   (sorted plan.pushRemove).foldl
    (fun failed key ↦ if session.removes key then failed else insert key failed) ∅)

/-- A deleted managed list starts over: its baseline would read as local deletions. -/
def Mirror.knownBaseline (m : Mirror κ) : Option (List κ) :=
  if m.managed.isNone then none else m.baseline

def planFor (d : Directions) (m : Mirror κ) : ReconcilePlan κ :=
  planWatchlistReconcile m.localKeys m.remote m.knownBaseline d

def reconcileWatchlist (d : Directions) (session : Session κ ρ) (m : Mirror κ) : Mirror κ :=
  if ¬(d.pullEnabled || d.pushEnabled) then m
  else
    let plan := planFor d m
    if plan.suppressed then m
    else
      let (managed, applied) := applyLocalWatchlistChanges session m.managed plan
      let (failedAdd, failedRemove) := applyRemoteWatchlistChanges session plan
      { managed := managed
        remote := (m.remote ∪ plan.pushAdd \ failedAdd) \ (plan.pushRemove \ failedRemove)
        baseline := some (computeNewBaseline applied failedAdd failedRemove) }

/-- A run that failed before its commit: the local list and the baseline are rolled
back, the writes that had reached Plex are not. -/
def interrupt (m : Mirror κ) (added removed : Finset κ) : Mirror κ :=
  { m with remote := (m.remote ∪ added) \ removed }

theorem foldl_insert_filter (p : κ → Bool) (keys : List κ) (s : Finset κ) :
    keys.foldl (fun items key ↦ if p key then insert key items else items) s =
      s ∪ keys.toFinset.filter (p ·) := by
  induction keys generalizing s with
  | nil => simp
  | cons key keys ih =>
    rw [List.foldl_cons, ih]
    ext k
    by_cases hk : p key <;> by_cases hkk : k = key <;> simp [hk, hkk]

theorem foldl_failed (p : κ → Bool) (keys : List κ) :
    keys.foldl (fun failed key ↦ if p key then failed else insert key failed) ∅ =
      keys.toFinset.filter (p · = false) := by
  have hp : (fun (failed : Finset κ) key ↦ if p key then failed else insert key failed) =
      fun failed key ↦ if !p key then insert key failed else failed := by
    funext failed key
    cases p key <;> rfl
  simpa [hp] using foldl_insert_filter (fun key ↦ !p key) keys ∅

theorem applyRemote_fst (session : Session κ ρ) (plan : ReconcilePlan κ) :
    (applyRemoteWatchlistChanges session plan).1 =
      plan.pushAdd.filter (session.adds · = false) := by
  rw [applyRemoteWatchlistChanges, foldl_failed, Finset.sort_toFinset]

theorem applyRemote_snd (session : Session κ ρ) (plan : ReconcilePlan κ) :
    (applyRemoteWatchlistChanges session plan).2 =
      plan.pushRemove.filter (session.removes · = false) := by
  rw [applyRemoteWatchlistChanges]
  exact (foldl_failed ..).trans (by rw [Finset.sort_toFinset])

theorem applyLocal_snd (session : Session κ ρ) (managed : Option (Finset κ))
    (plan : ReconcilePlan κ) (h : plan.removeLocal ⊆ managed.getD ∅) :
    (applyLocalWatchlistChanges session managed plan).2 =
      (managed.getD ∅ ∪ plan.addLocal.filter (session.imports ·)) \ plan.removeLocal := by
  have hnone : managed = none → plan.removeLocal = ∅ := by
    rintro rfl
    simpa using h
  have hfold := foldl_insert_filter session.importItem (sorted plan.addLocal) (managed.getD ∅)
  rw [Finset.sort_toFinset] at hfold
  unfold applyLocalWatchlistChanges
  by_cases ha : plan.addLocal.Nonempty
  · cases hkey : session.tmdbApiKey
    · by_cases hr : plan.removeLocal.Nonempty <;> cases hm : managed <;>
        simp_all [Session.imports, Finset.not_nonempty_iff_eq_empty]
    · by_cases hr : plan.removeLocal.Nonempty <;>
        simp_all [Session.imports, Finset.not_nonempty_iff_eq_empty]
  · by_cases hr : plan.removeLocal.Nonempty <;> cases hm : managed <;>
      simp_all [Finset.not_nonempty_iff_eq_empty]

/-- The reported keys are the list's own. -/
theorem applyLocal_fst (session : Session κ ρ) (managed : Option (Finset κ))
    (plan : ReconcilePlan κ) :
    (applyLocalWatchlistChanges session managed plan).1.getD ∅ =
      (applyLocalWatchlistChanges session managed plan).2 := by
  unfold applyLocalWatchlistChanges
  by_cases ha : plan.addLocal.Nonempty <;> cases hkey : session.tmdbApiKey <;>
    by_cases hr : plan.removeLocal.Nonempty <;> cases managed <;> simp [ha, hr]

end AnyList.Watchlist.PlexWatchlist
