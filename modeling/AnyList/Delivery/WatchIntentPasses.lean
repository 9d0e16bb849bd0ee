import Mathlib.Algebra.GroupWithZero.Nat
import AnyList.Delivery.WatchIntents
import AnyList.Library.BatchPasses

namespace AnyList.Delivery.WatchIntents

open AnyList.Library.BatchPasses AnyList.Delivery.WatchedBitfield AnyList.Delivery.StremioDelivery

inductive ConnectionType
  | nuvio
  | stremio
  | other
  deriving DecidableEq

structure Connection where
  type : ConnectionType
  pushWatched : Bool
  /-- Whether its first merge is settled. -/
  reconciled : Bool
  deriving DecidableEq

/-- What a dispatch meets: the tables of the account, and the error, if any, that each write ends
with. -/
structure Pass where
  cycleActive : Bool
  db : Database
  connections : ℕ → Option Connection
  stremioPush : (connectionId : ℕ) → Option String
  nuvioWrite : (intentId : ℕ) → Option String
  nextUpVisibility : (connectionId : ℕ) → Option String
  suppressed : (connectionId mediaId : ℕ) → Bool
  now : Int

namespace Pass

variable (w : Pass)

/-- A written intent waits again where the title cannot be shown afterwards. -/
def writeNuvio (row : WatchIntent) : WatchIntent :=
  let row := { row with
    desiredWatched := isWatched w.db row.mediaId
    attempts := row.attempts + 1 }
  match w.nuvioWrite row.id with
  | some error => { row with lastError := some error }
  | none =>
    match (if w.suppressed row.connectionId row.mediaId then none
      else w.nextUpVisibility row.connectionId) with
    | some error => { row with lastError := some error }
    | none => { row with state := .applied, lastError := none }

/-- What becomes of a selected intent. -/
def handle (row : WatchIntent) : WatchIntent :=
  match w.connections row.connectionId with
  | none => row.cancel
  | some conn =>
    if conn.type = .other ∨ ¬conn.pushWatched = true ∨ (w.db.findMedia row.mediaId).isNone = true then
      row.cancel
    else if ¬conn.reconciled = true then defer w.db row
    else if conn.type = .stremio then deliver w.db (w.stremioPush row.connectionId) row
    else w.writeNuvio row

/-- A selected intent that has to wait for its connection. -/
def Gated (row : WatchIntent) : Prop :=
  (w.db.findMedia row.mediaId).isSome = true ∧ ∃ conn ∈ w.connections row.connectionId,
    conn.type ≠ .other ∧ conn.pushWatched = true ∧ conn.reconciled = false

instance (row : WatchIntent) : Decidable (w.Gated row) := by
  unfold Gated
  infer_instance

/-- A changed row takes the time of its change. -/
def touch (row row' : WatchIntent) : WatchIntent :=
  if row' = row then row else { row' with updatedAt := w.now }

def dispatch (intents : List WatchIntent) : List WatchIntent :=
  if w.cycleActive then intents
  else intents.map fun row ↦ if row ∈ selectIntents intents then w.touch row (w.handle row) else row

end Pass

/-- The outbox after so many dispatches. -/
def after (intents : List WatchIntent) (passes : ℕ → Pass) : ℕ → List WatchIntent
  | 0 => intents
  | n + 1 => (passes n).dispatch (after intents passes n)

section stremio

variable {w : Pass} {texts : Texts} {answers : Answers} {connectionId : ℕ} {conn : Connection}
  {intents : List WatchIntent} {remote : Library}

theorem mem_batchOf {row : WatchIntent} (h : row ∈ batchOf intents connectionId) :
    row ∈ selectIntents intents ∧ row.connectionId = connectionId := by
  obtain ⟨hmem, hid⟩ := List.mem_filter.mp h
  exact ⟨hmem, of_decide_eq_true hid⟩

/-- The dispatch of one connection is what a pass makes of its intents. -/
theorem batch_dispatchWatchIntents (hconn : w.connections connectionId = some conn)
    (htype : conn.type = .stremio)
    (hpush : w.stremioPush connectionId =
      (pushConnection texts w.db answers remote (overrides w.db (batchOf intents connectionId))).2) :
    (dispatchWatchIntents texts w.db answers ⟨false, conn.pushWatched, conn.reconciled⟩ connectionId
      intents remote).batch = (batchOf intents connectionId).map w.handle := by
  have hhandle (row : WatchIntent) (hrow : row ∈ batchOf intents connectionId) : w.handle row =
      if ¬conn.pushWatched = true ∨ (w.db.findMedia row.mediaId).isNone = true then row.cancel
      else if ¬conn.reconciled = true then defer w.db row
      else deliver w.db (w.stremioPush connectionId) row := by
    simp only [Pass.handle, (mem_batchOf hrow).2, hconn, htype, reduceCtorEq, false_or, if_true]
  have hnone (row : WatchIntent) (h : (w.db.findMedia row.mediaId).isNone = true) :
      defer w.db row = row.cancel ∧ ∀ error, deliver w.db error row = row.cancel := by
    rw [Option.isNone_iff_eq_none] at h
    simp [defer, deliver, h]
  simp only [dispatchWatchIntents, Bool.false_eq_true, if_false]
  by_cases hwatched : ¬conn.pushWatched = true
  · rw [if_pos hwatched]
    refine List.map_congr_left fun row hrow ↦ ?_
    rw [hhandle row hrow, if_pos (.inl hwatched)]
  rw [if_neg hwatched]
  by_cases hmedia :
      ((batchOf intents connectionId).all fun row ↦ (w.db.findMedia row.mediaId).isNone) = true
  · rw [if_pos hmedia]
    refine List.map_congr_left fun row hrow ↦ ?_
    rw [hhandle row hrow, if_pos (.inr (List.all_eq_true.mp hmedia row hrow))]
  rw [if_neg hmedia]
  by_cases hreconciled : ¬conn.reconciled = true
  · rw [if_pos hreconciled]
    refine List.map_congr_left fun row hrow ↦ ?_
    rw [hhandle row hrow, if_pos hreconciled]
    by_cases hcancel : (w.db.findMedia row.mediaId).isNone = true
    · rw [if_pos (.inr hcancel), (hnone row hcancel).1]
    · rw [if_neg (not_or.mpr ⟨hwatched, hcancel⟩)]
  · rw [if_neg hreconciled]
    refine List.map_congr_left fun row hrow ↦ ?_
    rw [hhandle row hrow, if_neg hreconciled, hpush]
    by_cases hcancel : (w.db.findMedia row.mediaId).isNone = true
    · rw [if_pos (.inr hcancel), (hnone row hcancel).2]
    · rw [if_neg (not_or.mpr ⟨hwatched, hcancel⟩)]

end stremio

section rows

variable {w : Pass} {intents : List WatchIntent} {row : WatchIntent}

/-- What handling a selected intent leaves and what it may change. -/
structure Handled (w : Pass) (row row' : WatchIntent) : Prop where
  id : row'.id = row.id
  connectionId : row'.connectionId = row.connectionId
  mediaId : row'.mediaId = row.mediaId
  attempts : row.attempts ≤ row'.attempts
  tried : ¬w.Gated row → row'.state ≠ .pending ∨ row.attempts < row'.attempts

theorem handled_cancel (w : Pass) (row : WatchIntent) : Handled w row row.cancel :=
  ⟨rfl, rfl, rfl, le_rfl, fun _ ↦ .inl (by simp [WatchIntent.cancel])⟩

theorem handled_defer (hgated : w.Gated row) : Handled w row (defer w.db row) := by
  unfold defer
  cases w.db.findMedia row.mediaId with
  | none => exact handled_cancel w row
  | some media => exact ⟨rfl, rfl, rfl, le_rfl, fun hnot ↦ absurd hgated hnot⟩

theorem handled_deliver (error : Option String) : Handled w row (deliver w.db error row) := by
  unfold deliver
  cases w.db.findMedia row.mediaId with
  | none => exact handled_cancel w row
  | some media =>
    cases error with
    | none => exact ⟨rfl, rfl, rfl, Nat.le_succ _, fun _ ↦ .inr (Nat.lt_succ_self _)⟩
    | some error => exact ⟨rfl, rfl, rfl, Nat.le_succ _, fun _ ↦ .inr (Nat.lt_succ_self _)⟩

theorem handled_writeNuvio : Handled w row (w.writeNuvio row) := by
  unfold Pass.writeNuvio
  dsimp only
  split
  · exact ⟨rfl, rfl, rfl, Nat.le_succ _, fun _ ↦ .inr (Nat.lt_succ_self _)⟩
  · split
    · exact ⟨rfl, rfl, rfl, Nat.le_succ _, fun _ ↦ .inr (Nat.lt_succ_self _)⟩
    · exact ⟨rfl, rfl, rfl, Nat.le_succ _, fun _ ↦ .inr (Nat.lt_succ_self _)⟩

theorem handled_handle (w : Pass) (row : WatchIntent) : Handled w row (w.handle row) := by
  unfold Pass.handle
  cases hconn : w.connections row.connectionId with
  | none => exact handled_cancel w row
  | some conn =>
    dsimp only
    by_cases hcancel : conn.type = .other ∨ ¬conn.pushWatched = true ∨
        (w.db.findMedia row.mediaId).isNone = true
    · rw [if_pos hcancel]
      exact handled_cancel w row
    rw [if_neg hcancel]
    simp only [not_or, not_not, Option.isNone_iff_eq_none] at hcancel
    by_cases hreconciled : ¬conn.reconciled = true
    · rw [if_pos hreconciled]
      refine handled_defer ⟨Option.isSome_iff_ne_none.mpr hcancel.2.2, conn, hconn, hcancel.1,
        hcancel.2.1, Bool.eq_false_of_not_eq_true hreconciled⟩
    · rw [if_neg hreconciled]
      split_ifs with htype
      · exact handled_deliver _
      · exact handled_writeNuvio

theorem handled_touch {row' : WatchIntent} (h : Handled w row row') :
    Handled w row (w.touch row row') := by
  unfold Pass.touch
  split_ifs with hsame
  · exact hsame ▸ h
  · exact ⟨h.id, h.connectionId, h.mediaId, h.attempts, h.tried⟩

/-- The row of an intent, found by its id. -/
def rowOf (intents : List WatchIntent) (id : ℕ) : Option WatchIntent :=
  intents.find? fun row ↦ decide (row.id = id)

theorem rowOf_eq_some (hids : (intents.map WatchIntent.id).Nodup) {id : ℕ} :
    rowOf intents id = some row ↔ row ∈ intents ∧ row.id = id := by
  constructor
  · intro h
    exact ⟨List.mem_of_find?_eq_some h, by simpa using List.find?_some h⟩
  · rintro ⟨hmem, rfl⟩
    cases h : rowOf intents row.id with
    | none => exact absurd (List.find?_eq_none.mp h row hmem) (by simp)
    | some found =>
      have hfound : found ∈ intents ∧ found.id = row.id :=
        ⟨List.mem_of_find?_eq_some h, by simpa using List.find?_some h⟩
      rw [List.inj_on_of_nodup_map hids hfound.1 hmem hfound.2]

theorem dispatch_eq (w : Pass) (hidle : w.cycleActive = false) (intents : List WatchIntent) :
    w.dispatch intents = intents.map fun row ↦
      if row ∈ selectIntents intents then w.touch row (w.handle row) else row := by
  rw [Pass.dispatch, hidle]
  rfl

theorem handled_dispatched (w : Pass) (selected : List WatchIntent) (row : WatchIntent) :
    (if row ∈ selected then w.touch row (w.handle row) else row).id = row.id := by
  split_ifs
  · exact (handled_touch (handled_handle _ _)).id
  · rfl

theorem map_id_dispatch (w : Pass) (intents : List WatchIntent) :
    (w.dispatch intents).map WatchIntent.id = intents.map WatchIntent.id := by
  unfold Pass.dispatch
  split_ifs
  · rfl
  · rw [List.map_map]
    exact List.map_congr_left fun row _ ↦ handled_dispatched w _ row

theorem rowOf_dispatch (hidle : w.cycleActive = false) (id : ℕ) :
    rowOf (w.dispatch intents) id = (rowOf intents id).map fun row ↦
      if row ∈ selectIntents intents then w.touch row (w.handle row) else row := by
  rw [dispatch_eq w hidle, rowOf, rowOf, List.find?_map]
  congr 2
  funext row
  rw [Function.comp_apply, handled_dispatched]

theorem mem_selectIntents (h : row ∈ selectIntents intents) :
    row ∈ intents ∧ row.state = .pending := by
  obtain ⟨hmem, hpending⟩ := List.mem_filter.mp (mem_of_mem_batch h)
  exact ⟨hmem, of_decide_eq_true hpending⟩

theorem attempts_le_of_selected {row' : WatchIntent} (hrow : row ∈ intents)
    (hpending : row.state = .pending) (hnot : row ∉ selectIntents intents)
    (h : row' ∈ selectIntents intents) : row'.attempts ≤ row.attempts := by
  have hmem : row ∈ intents.filter fun intent ↦ decide (intent.state = .pending) :=
    List.mem_filter.mpr ⟨hrow, decide_eq_true hpending⟩
  have hle : selectKey row' ≤ selectKey row := key_le_of_mem_batch hmem hnot h
  obtain hlt | ⟨heq, -⟩ := Prod.Lex.toLex_le_toLex.mp hle
  · exact hlt.le
  · exact heq.le

end rows

section passes

variable {intents : List WatchIntent} {passes : ℕ → Pass} {row : WatchIntent}

/-- How often an intent can still go before one with the given attempts. -/
def turns (attempts : ℕ) (row : WatchIntent) : ℕ :=
  if row.state = .pending then attempts + 1 - row.attempts else 0

def taken (intents : List WatchIntent) (passes : ℕ → Pass) (n : ℕ) : Finset ℕ :=
  ((selectIntents (after intents passes n)).map WatchIntent.id).toFinset

def credit (intents : List WatchIntent) (passes : ℕ → Pass) (attempts n id : ℕ) : ℕ :=
  ((rowOf (after intents passes n) id).map (turns attempts)).getD 0

theorem map_id_after (passes : ℕ → Pass) (n : ℕ) :
    (after intents passes n).map WatchIntent.id = intents.map WatchIntent.id := by
  induction n with
  | zero => rfl
  | succ n ih => rw [after, map_id_dispatch, ih]

theorem mem_taken {n id : ℕ} :
    id ∈ taken intents passes n ↔ ∃ r ∈ selectIntents (after intents passes n), r.id = id := by
  rw [taken, List.mem_toFinset, List.mem_map]

theorem mem_after_succ (hidle : ∀ n, (passes n).cycleActive = false) {n : ℕ} {row' : WatchIntent} :
    row' ∈ after intents passes (n + 1) ↔ ∃ r ∈ after intents passes n, row' =
      if r ∈ selectIntents (after intents passes n) then (passes n).touch r ((passes n).handle r)
      else r := by
  rw [after, dispatch_eq _ (hidle n), List.mem_map]
  exact exists_congr fun r ↦ and_congr_right fun _ ↦ eq_comm

/-- Where an intent goes stays as it was queued. -/
theorem exists_queued (hidle : ∀ n, (passes n).cycleActive = false) {n : ℕ} {row' : WatchIntent}
    (h : row' ∈ after intents passes n) : ∃ r ∈ intents, r.id = row'.id ∧
      r.connectionId = row'.connectionId ∧ r.mediaId = row'.mediaId := by
  induction n generalizing row' with
  | zero => exact ⟨row', h, rfl, rfl, rfl⟩
  | succ n ih =>
    obtain ⟨r, hr, rfl⟩ := (mem_after_succ hidle).mp h
    obtain ⟨queued, hqueued, hid, hconnection, hmedia⟩ := ih hr
    refine ⟨queued, hqueued, ?_⟩
    split_ifs
    · have hsame := handled_touch (handled_handle (passes n) r)
      exact ⟨hid.trans hsame.id.symm, hconnection.trans hsame.connectionId.symm,
        hmedia.trans hsame.mediaId.symm⟩
    · exact ⟨hid, hconnection, hmedia⟩

theorem gated_congr {w : Pass} {r : WatchIntent} (hconnection : r.connectionId = row.connectionId)
    (hmedia : r.mediaId = row.mediaId) : w.Gated r ↔ w.Gated row := by
  rw [Pass.Gated, Pass.Gated, hconnection, hmedia]

theorem turns_le {w : Pass} {selected : List WatchIntent} {attempts : ℕ}
    (hselected : ∀ r ∈ selected, r.state = .pending) :
    turns attempts (if row ∈ selected then w.touch row (w.handle row) else row) ≤
      turns attempts row := by
  split_ifs with hmem
  · have hattempts := (handled_touch (handled_handle w row)).attempts
    rw [turns, turns, if_pos (hselected row hmem)]
    split_ifs <;> omega
  · exact le_rfl

theorem turns_lt {w : Pass} {attempts : ℕ} (hpending : row.state = .pending)
    (hle : row.attempts ≤ attempts) (hfree : ¬w.Gated row) :
    turns attempts (w.touch row (w.handle row)) < turns attempts row := by
  have htried := (handled_touch (handled_handle w row)).tried hfree
  rw [turns, turns, if_pos hpending]
  split_ifs with hstill
  · obtain hdone | hmore := htried
    · exact absurd hstill hdone
    · omega
  · omega

/-- An intent that no dispatch has selected stands as it was queued. -/
theorem mem_after (hidle : ∀ n, (passes n).cycleActive = false) (hrow : row ∈ intents) {n : ℕ}
    (hnot : ∀ m < n, row.id ∉ taken intents passes m) : row ∈ after intents passes n := by
  induction n with
  | zero => exact hrow
  | succ n ih =>
    refine (mem_after_succ hidle).mpr ⟨row, ih fun m hm ↦ hnot m (by omega), ?_⟩
    rw [if_neg]
    intro hselected
    exact hnot n (Nat.lt_succ_self n) (mem_taken.mpr ⟨row, hselected, rfl⟩)

/-- The places that go to other intents before a given one. -/
def ahead (intents : List WatchIntent) (blocked : Finset ℕ) (row : WatchIntent) : ℕ :=
  ((intents.filter fun r ↦ decide (r.id ∉ blocked ∧ r.id ≠ row.id)).map (turns row.attempts)).sum

theorem sum_credit_eq_ahead (hids : (intents.map WatchIntent.id).Nodup) (blocked : Finset ℕ) :
    ∑ id ∈ ((intents.map WatchIntent.id).toFinset \ blocked).erase row.id,
      credit intents passes row.attempts 0 id = ahead intents blocked row := by
  have hcredit (r : WatchIntent) (hr : r ∈ intents) :
      credit intents passes row.attempts 0 r.id = turns row.attempts r := by
    rw [credit, after, (rowOf_eq_some hids).mpr ⟨hr, rfl⟩, Option.map_some, Option.getD_some]
  have hset : ((intents.map WatchIntent.id).toFinset \ blocked).erase row.id =
      ((intents.filter fun r ↦ decide (r.id ∉ blocked ∧ r.id ≠ row.id)).map
        WatchIntent.id).toFinset := by
    ext id
    simp only [Finset.mem_erase, Finset.mem_sdiff, List.mem_toFinset, List.mem_map, List.mem_filter,
      decide_eq_true_eq]
    constructor
    · rintro ⟨hne, ⟨r, hr, rfl⟩, hfree⟩
      exact ⟨r, ⟨hr, hfree, hne⟩, rfl⟩
    · rintro ⟨r, ⟨hr, hfree, hne⟩, rfl⟩
      exact ⟨hne, ⟨r, hr, rfl⟩, hfree⟩
  have hnodup : ((intents.filter fun r ↦ decide (r.id ∉ blocked ∧ r.id ≠ row.id)).map
      WatchIntent.id).Nodup := hids.sublist (List.filter_sublist.map _)
  rw [hset, List.sum_toFinset _ hnodup, List.map_map]
  exact congrArg List.sum (List.map_congr_left fun r hr ↦ hcredit r (List.mem_of_mem_filter hr))

/-- An intent whose connection is settled is written or cancelled before long: its dispatch comes as
soon as the places that intents with no more attempts and waiting ones may take are used up. -/
theorem reached_before_long (hids : (intents.map WatchIntent.id).Nodup) (hrow : row ∈ intents)
    (hpending : row.state = .pending) (hidle : ∀ n, (passes n).cycleActive = false)
    {blocked : Finset ℕ} (hblocked : ∀ n, ∀ r ∈ intents, (passes n).Gated r → r.id ∈ blocked)
    (hfree : row.id ∉ blocked) {p : ℕ}
    (hp : ahead intents blocked row < p * (selectLimit - blocked.card)) :
    ∃ n < p, ∃ row' ∈ after intents passes (n + 1), row'.id = row.id ∧
      (row'.state ≠ .pending ∨ row.attempts < row'.attempts) := by
  have hnodup (n : ℕ) : ((after intents passes n).map WatchIntent.id).Nodup := by
    rw [map_id_after]
    exact hids
  have hungated {n : ℕ} {r : WatchIntent} (hr : r ∈ after intents passes n)
      (hid : r.id ∉ blocked) : ¬(passes n).Gated r := by
    obtain ⟨queued, hqueued, hsame, hconnection, hmedia⟩ := exists_queued hidle hr
    rw [← gated_congr hconnection hmedia]
    intro hgated
    exact hid (hsame ▸ hblocked n queued hqueued hgated)
  have hselected (n : ℕ) (r : WatchIntent) (hr : r ∈ selectIntents (after intents passes n)) :
      r.state = .pending := (mem_selectIntents hr).2
  have hnext (n id : ℕ) : credit intents passes row.attempts (n + 1) id =
      ((rowOf (after intents passes n) id).map fun r ↦ turns row.attempts
        (if r ∈ selectIntents (after intents passes n) then (passes n).touch r ((passes n).handle r)
        else r)).getD 0 := by
    rw [credit, after, rowOf_dispatch (hidle n), Option.map_map]
    rfl
  have hreached : ∃ n < p, row.id ∈ taken intents passes n := by
    refine exists_taken selectLimit (intents.map WatchIntent.id).toFinset blocked
      (credit intents passes row.attempts) ?_ ?_ ?_ ?_
    · intro n _ id hid
      obtain ⟨r, hr, rfl⟩ := mem_taken.mp hid
      rw [List.mem_toFinset, ← map_id_after passes n]
      exact List.mem_map_of_mem (mem_selectIntents hr).1
    · intro n _ hnever
      have hstands : row ∈ after intents passes n := mem_after hidle hrow fun m hm ↦ hnever m hm.le
      have hnot : row ∉ selectIntents (after intents passes n) := fun hmem ↦
        hnever n le_rfl (mem_taken.mpr ⟨row, hmem, rfl⟩)
      constructor
      · have hmem : row ∈ (after intents passes n).filter
            fun intent ↦ decide (intent.state = .pending) :=
          List.mem_filter.mpr ⟨hstands, decide_eq_true hpending⟩
        have hsub : ((selectIntents (after intents passes n)).map WatchIntent.id).Nodup :=
          List.Nodup.map_on (fun r hr r' hr' hid ↦ List.inj_on_of_nodup_map (hnodup n)
            (mem_selectIntents hr).1 (mem_selectIntents hr').1 hid)
            (nodup_batch ((List.Nodup.of_map _ (hnodup n)).filter _))
        rw [taken, List.toFinset_card_of_nodup hsub, List.length_map]
        exact (length_batch hmem hnot).ge
      · intro id hid hopen
        obtain ⟨r, hr, rfl⟩ := mem_taken.mp hid
        have hmem := (mem_selectIntents hr).1
        rw [hnext, credit, (rowOf_eq_some (hnodup n)).mpr ⟨hmem, rfl⟩, Option.map_some,
          Option.map_some, Option.getD_some, Option.getD_some, if_pos hr]
        exact turns_lt (hselected n r hr) (attempts_le_of_selected hstands hpending hnot hr)
          (hungated hmem hopen)
    · intro n _ id
      rw [hnext, credit]
      cases rowOf (after intents passes n) id with
      | none => exact le_rfl
      | some r => exact turns_le (hselected n)
    · rw [sum_credit_eq_ahead hids]
      exact hp
  obtain ⟨n, hn, htaken, hfirst⟩ : ∃ n < p, row.id ∈ taken intents passes n ∧
      ∀ m < n, row.id ∉ taken intents passes m := by
    classical
    have hsome : ∃ n, row.id ∈ taken intents passes n := hreached.imp fun _ h ↦ h.2
    obtain ⟨n, hn, hmem⟩ := hreached
    exact ⟨Nat.find hsome, (Nat.find_min' hsome hmem).trans_lt hn, Nat.find_spec hsome,
      fun m hm ↦ Nat.find_min hsome hm⟩
  have hstands : row ∈ after intents passes n := mem_after hidle hrow hfirst
  obtain ⟨r, hr, hid⟩ := mem_taken.mp htaken
  obtain rfl : r = row := List.inj_on_of_nodup_map (hnodup n) (mem_selectIntents hr).1 hstands hid
  have hhandled := handled_touch (handled_handle (passes n) r)
  refine ⟨n, hn, _, (mem_after_succ hidle).mpr ⟨r, hstands, rfl⟩, ?_⟩
  rw [if_pos hr]
  exact ⟨hhandled.id, hhandled.tried (hungated hstands hfree)⟩

/-- A film watched for one account whose merge is settled and one whose merge is not. -/
def mergingPass : Pass where
  cycleActive := false
  db := ⟨[⟨1, .movie, "Film", none, none, some "tt1", none, none, none⟩], [], [], []⟩
  connections id := if id = 1 then some ⟨.nuvio, true, true⟩ else some ⟨.stremio, true, false⟩
  stremioPush _ := none
  nuvioWrite _ := some "ReadTimeout"
  nextUpVisibility _ := none
  suppressed _ _ := false
  now := 7

def mergingIntents : List WatchIntent :=
  [⟨1, 1, 1, true, .pending, 3, none, 0⟩, ⟨2, 2, 1, true, .pending, 0, none, 0⟩]

theorem reached_before_long_merging :
    ∃ n < 1, ∃ row' ∈ after mergingIntents (fun _ ↦ mergingPass) (n + 1), row'.id = 1 ∧
      (row'.state ≠ .pending ∨ 3 < row'.attempts) :=
  @reached_before_long mergingIntents (fun _ ↦ mergingPass) ⟨1, 1, 1, true, .pending, 3, none, 0⟩
    (by decide) (by decide) rfl (fun _ ↦ rfl) {2} (fun _ ↦ by decide) (by decide) 1 (by decide)

end passes

end AnyList.Delivery.WatchIntents
