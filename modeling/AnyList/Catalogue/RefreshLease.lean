import AnyList.Library.Runs
import Mathlib.Algebra.Order.Ring.Nat
import Mathlib.Data.List.Basic
import Mathlib.Logic.Function.Basic

namespace AnyList.Catalogue.RefreshLease

open AnyList.Library.Runs

/-- What the providers have said of one title, with the retry state and the lease; times are in
microseconds. -/
structure MetadataSnapshot (Payload Coverage : Type) where
  entityId : Option ℕ
  payload : Option Payload
  coverage : Coverage
  fetchedAt : Option ℕ
  expiresAt : Option ℕ
  attempts : ℕ
  errorCode : Option String
  nextAttemptAt : Option ℕ
  leaseToken : Option ℕ
  leaseUntil : Option ℕ

inductive RefreshStatus
  | refreshing
  | cached
  | lastGood
  | retryPending
  | updated
  | failed
  deriving DecidableEq

inductive RefreshError
  | provider (code : String) (retryAfter : ℕ)
  | identityConflict
  | timeout
  | other

namespace RefreshError

def code : RefreshError → String
  | .provider code _ => code
  | .identityConflict => "identity_conflict"
  | .timeout => "timeout"
  | .other => "ingestion_failed"

def retryAfter : RefreshError → ℕ
  | .provider _ retryAfter => retryAfter
  | _ => 0

/-- Whether the error leaves the transaction as it is, where any other rolls it back. -/
def keepsTransaction : RefreshError → Bool
  | .other => false
  | _ => true

end RefreshError

def seconds (n : ℕ) : ℕ := n * 1000000

def later (time : Option ℕ) (now : ℕ) : Bool := time.any fun time ↦ decide (now < time)

section row

variable {Payload Coverage : Type} (row : MetadataSnapshot Payload Coverage) (now : ℕ)

def cachedRefreshStatus : Option RefreshStatus :=
  if later row.leaseUntil now then some .refreshing
  else if later row.expiresAt now then some .cached
  else if later row.nextAttemptAt now then
    some (if row.fetchedAt.isSome then .lastGood else .retryPending)
  else none

def claim (token : ℕ) : MetadataSnapshot Payload Coverage :=
  { row with leaseToken := some token, leaseUntil := some (now + seconds 180) }

def clearLease : MetadataSnapshot Payload Coverage :=
  { row with leaseToken := none, leaseUntil := none }

def recordRefreshFailure (error : RefreshError) (baseDelay : ℕ) :
    MetadataSnapshot Payload Coverage :=
  let attempts := row.attempts + 1
  { row with
    attempts := attempts
    errorCode := some error.code
    nextAttemptAt := some (now + seconds
      (max error.retryAfter (min 86400 (baseDelay * 2 ^ min attempts 10)))) }

def failureStatus : RefreshStatus := if row.fetchedAt.isSome then .lastGood else .failed

def lifetime (provider : String) : ℕ := seconds (86400 * if provider = "hardcover" then 30 else 7)

def publish (provider : String) (entity : ℕ) (payload : Payload) (coverage : Coverage) :
    MetadataSnapshot Payload Coverage :=
  { row with
    entityId := some entity
    payload := some payload
    coverage := coverage
    fetchedAt := some now
    expiresAt := some (now + lifetime provider)
    attempts := 0
    errorCode := none
    nextAttemptAt := none }

end row

section runs

variable (Catalogue Document Payload Coverage : Type)

/-- Where a run stands. Under the write lock it goes from `claiming` to the commit of a claim, and
from `publishing` or `recording` to the commit of its result. -/
inductive Stage
  | started
  | claiming
  | cached (status : RefreshStatus)
  | claimed (row : MetadataSnapshot Payload Coverage)
  | calling
  | replied (document : Document) (payload : Payload)
  | publishing (document : Document) (payload : Payload)
  | ingesting (row : MetadataSnapshot Payload Coverage) (document : Document) (payload : Payload)
  | failing (error : RefreshError)
  | recording (error : RefreshError)
  | lost (recorded : Bool)
  | committing (row : MetadataSnapshot Payload Coverage) (catalogue : Catalogue)
      (status : RefreshStatus)
  | finished (status : RefreshStatus)
  | raised

inductive Event
  | start (id : ℕ)
  | advance (id : ℕ)
  | reply (id : ℕ) (reply : Except RefreshError (Document × Payload))
  | fail (id : ℕ)
  | cancel (id : ℕ)
  | pass (time : ℕ)

/-- The snapshot row and the catalogue as committed, the holder of the write lock, and the runs. -/
structure Server where
  row : MetadataSnapshot Payload Coverage
  catalogue : Catalogue
  clock : ℕ
  lock : Option ℕ
  runs : ℕ → Option (Stage Catalogue Document Payload Coverage)

variable {Catalogue Document Payload Coverage}

namespace Server

variable (s : Server Catalogue Document Payload Coverage) (id : ℕ)

def initial (row : MetadataSnapshot Payload Coverage) (catalogue : Catalogue) :
    Server Catalogue Document Payload Coverage :=
  ⟨clearLease row, catalogue, 0, none, fun _ ↦ none⟩

def enter (stage : Stage Catalogue Document Payload Coverage) :
    Server Catalogue Document Payload Coverage :=
  { s with runs := Function.update s.runs id (some stage) }

/-- A run whose transaction ends, and with it its hold on the write lock. -/
def release (stage : Stage Catalogue Document Payload Coverage) :
    Server Catalogue Document Payload Coverage :=
  { s.enter id stage with lock := if s.lock = some id then none else s.lock }

/-- A run that waits for the write lock. -/
def acquire (stage : Stage Catalogue Document Payload Coverage) :
    Server Catalogue Document Payload Coverage :=
  if s.lock = none then { s.enter id stage with lock := some id } else s

end Server

variable (ingest : Catalogue → Document → Except RefreshError (Catalogue × ℕ))
  (coverage : Document → Coverage) (provider : String)

def advance (s : Server Catalogue Document Payload Coverage) (id : ℕ) :
    Stage Catalogue Document Payload Coverage → Server Catalogue Document Payload Coverage
  | .started => s.acquire id .claiming
  | .claiming =>
    (cachedRefreshStatus s.row s.clock).elim (s.enter id (.claimed (claim s.row s.clock id)))
      fun status ↦ s.enter id (.cached status)
  | .cached status => s.release id (.finished status)
  | .claimed row => { s.release id .calling with row := row }
  | .replied document payload => s.acquire id (.publishing document payload)
  | .publishing document payload =>
    if s.row.leaseToken ≠ some id then s.enter id (.lost false)
    else s.enter id (.ingesting s.row document payload)
  | .ingesting row document payload =>
    match ingest s.catalogue document with
    | .error error =>
      if error.keepsTransaction then s.enter id (.recording error)
      else s.release id (.failing error)
    | .ok (catalogue, entity) =>
      let row := publish row s.clock provider entity payload (coverage document)
      s.enter id (.committing (clearLease row) catalogue .updated)
  | .failing error => s.acquire id (.recording error)
  | .recording error =>
    if s.row.leaseToken ≠ some id then s.enter id (.lost true)
    else s.enter id (.committing (clearLease (recordRefreshFailure s.row s.clock error 60))
      s.catalogue (failureStatus s.row))
  | .lost _ => s.release id (.finished .refreshing)
  | .committing row catalogue status =>
    { s.release id (.finished status) with row := row, catalogue := catalogue }
  | .calling | .finished _ | .raised => s

/-- A statement of a run fails in the database: what it has not committed is rolled back, and a
failure inside the attempt to publish is still recorded. -/
def fail (s : Server Catalogue Document Payload Coverage) (id : ℕ) :
    Stage Catalogue Document Payload Coverage → Server Catalogue Document Payload Coverage
  | .replied _ _ | .publishing _ _ | .ingesting _ _ _ | .lost false => s.release id (.failing .other)
  | .calling | .finished _ | .raised => s
  | _ => s.release id .raised

def receive (s : Server Catalogue Document Payload Coverage) (id : ℕ)
    (reply : Except RefreshError (Document × Payload)) :
    Stage Catalogue Document Payload Coverage → Server Catalogue Document Payload Coverage
  | .calling =>
    match reply with
    | .error error => s.enter id (.failing error)
    | .ok (document, payload) => s.enter id (.replied document payload)
  | _ => s

def step (s : Server Catalogue Document Payload Coverage) :
    Event Document Payload → Server Catalogue Document Payload Coverage
  | .start id => if (s.runs id).isNone then s.enter id .started else s
  | .advance id => (s.runs id).elim s (advance ingest coverage provider s id)
  | .reply id reply => (s.runs id).elim s (receive s id reply)
  | .fail id => (s.runs id).elim s (fail s id)
  | .cancel id => if (s.runs id).isNone then s else s.release id .raised
  | .pass time => { s with clock := s.clock + time }

end runs

section law

variable {Catalogue Document Payload Coverage : Type}

/-- What a step may do: a provider is called under a new lease when no other is unexpired, nothing
is fresh and no backoff is pending; rows and entities change only by the owner of the lease, and
what was fetched only by a run that ends as updated; a lease ends with its owner or is taken over
after it has expired. -/
structure Lawful (s s' : Server Catalogue Document Payload Coverage)
    (event : Event Document Payload) : Prop where
  calls : ∀ id, s'.runs id = some .calling → s.runs id = some .calling ∨
    later s.row.leaseUntil s.clock = false ∧ later s.row.expiresAt s.clock = false ∧
      later s.row.nextAttemptAt s.clock = false ∧ s'.row.leaseToken = some id
  owned : clearLease s'.row ≠ clearLease s.row ∨ s'.catalogue ≠ s.catalogue →
    ∃ id, event = .advance id ∧ s.row.leaseToken = some id
  kept : (s'.row.payload, s'.row.entityId, s'.row.fetchedAt) ≠
      (s.row.payload, s.row.entityId, s.row.fetchedAt) ∨ s'.catalogue ≠ s.catalogue →
    ∃ id, event = .advance id ∧ s'.runs id = some (.finished .updated)
  leases : (s'.row.leaseToken, s'.row.leaseUntil) ≠ (s.row.leaseToken, s.row.leaseUntil) →
    ∃ id, event = .advance id ∧
      (s.row.leaseToken = some id ∧ s'.row.leaseToken = none ∧ s'.row.leaseUntil = none ∨
        later s.row.leaseUntil s.clock = false ∧ s'.row.leaseToken = some id)

/-- What a run knows of the row while it holds the write lock. -/
def Stage.Sound (s : Server Catalogue Document Payload Coverage) (id : ℕ) :
    Stage Catalogue Document Payload Coverage → Prop
  | .claiming | .publishing _ _ | .recording _ => s.lock = some id
  | .claimed row => s.lock = some id ∧
    ∃ now ≤ s.clock, cachedRefreshStatus s.row now = none ∧ row = claim s.row now id
  | .ingesting row _ _ => s.lock = some id ∧ row = s.row ∧ s.row.leaseToken = some id
  | .committing row catalogue status => s.lock = some id ∧ s.row.leaseToken = some id ∧
    row.leaseToken = none ∧ row.leaseUntil = none ∧
      (status = .updated ∨ catalogue = s.catalogue ∧
        (row.payload, row.entityId, row.fetchedAt) =
          (s.row.payload, s.row.entityId, s.row.fetchedAt))
  | _ => True

def Sound (s : Server Catalogue Document Payload Coverage) : Prop :=
  ∀ id stage, s.runs id = some stage → stage.Sound s id

/-- What the run `i` finds as it was when it holds the write lock. -/
structure Later (s s' : Server Catalogue Document Payload Coverage) (i : ℕ) : Prop where
  held : s.lock = some i → s'.lock = some i ∧ s'.row = s.row ∧ s'.catalogue = s.catalogue
  clock : s.clock ≤ s'.clock

variable {s s' : Server Catalogue Document Payload Coverage} {id : ℕ}
  {stage : Stage Catalogue Document Payload Coverage} {event : Event Document Payload}

theorem Stage.Sound.later {i : ℕ} (h : stage.Sound s i) (hl : Later s s' i) :
    stage.Sound s' i := by
  cases stage with
  | claiming | publishing _ _ | recording _ => exact (hl.held h).1
  | claimed row =>
    obtain ⟨hheld, now, hnow, hcached, hrow⟩ := h
    obtain ⟨hheld, hsame, -⟩ := hl.held hheld
    exact ⟨hheld, now, Nat.le_trans hnow hl.clock, hsame ▸ hcached, hsame ▸ hrow⟩
  | ingesting row document payload =>
    obtain ⟨hheld, hrow, htoken⟩ := h
    obtain ⟨hheld, hsame, -⟩ := hl.held hheld
    exact ⟨hheld, hsame ▸ hrow, hsame ▸ htoken⟩
  | committing row catalogue status =>
    obtain ⟨hheld, htoken, hrest⟩ := h
    obtain ⟨hheld, hsame, hcatalogue⟩ := hl.held hheld
    refine ⟨hheld, hsame ▸ htoken, hrest.1, hrest.2.1, ?_⟩
    rw [hsame, hcatalogue]
    exact hrest.2.2
  | _ => trivial

theorem runs_enter_of_ne {i : ℕ} (h : i ≠ id) : (s.enter id stage).runs i = s.runs i :=
  Function.update_of_ne h ..

theorem runs_enter_self : (s.enter id stage).runs id = some stage := Function.update_self ..

/-- One run goes on, and the others keep what they know. -/
theorem Sound.update (h : Sound s) (hruns : s'.runs = (s.enter id stage).runs)
    (hstage : stage.Sound s' id) (hothers : ∀ i, i ≠ id → Later s s' i) : Sound s' := by
  intro i other hi
  rw [hruns] at hi
  by_cases hid : i = id
  · subst hid
    exact Option.some.inj (runs_enter_self.symm.trans hi) ▸ hstage
  · rw [runs_enter_of_ne hid] at hi
    exact (h i other hi).later (hothers i hid)

theorem Sound.enter (h : Sound s) (hstage : stage.Sound s id) : Sound (s.enter id stage) :=
  h.update rfl (hstage.later ⟨fun hheld ↦ ⟨hheld, rfl, rfl⟩, Nat.le_refl _⟩)
    fun _ _ ↦ ⟨fun hheld ↦ ⟨hheld, rfl, rfl⟩, Nat.le_refl _⟩

theorem lock_release_of_ne {i : ℕ} (h : i ≠ id) (hheld : s.lock = some i) :
    (s.release id stage).lock = some i := by
  rw [Server.release, hheld]
  exact if_neg fun heq ↦ h (Option.some.inj heq)

theorem Sound.release (h : Sound s) (hstage : ∀ s', stage.Sound s' id) :
    Sound (s.release id stage) :=
  h.update rfl (hstage _) fun _ hid ↦
    ⟨fun hheld ↦ ⟨lock_release_of_ne hid hheld, rfl, rfl⟩, Nat.le_refl _⟩

theorem Sound.acquire (h : Sound s)
    (hstage : ∀ s' : Server Catalogue Document Payload Coverage, s'.lock = some id →
      stage.Sound s' id) : Sound (s.acquire id stage) := by
  rw [Server.acquire]
  split_ifs with hfree
  · exact h.update rfl (hstage _ rfl) fun _ _ ↦
      ⟨fun hheld ↦ (by cases hfree.symm.trans hheld), Nat.le_refl _⟩
  · exact h

/-- A commit of the holder of the write lock. -/
theorem Sound.commit (h : Sound s) (hheld : s.lock = some id)
    (stage : Stage Catalogue Document Payload Coverage) (hstage : ∀ s', stage.Sound s' id)
    {row : MetadataSnapshot Payload Coverage} {catalogue : Catalogue} :
    Sound { s.release id stage with row := row, catalogue := catalogue } :=
  h.update rfl (hstage _) fun _ hid ↦
    ⟨fun hother ↦ absurd (Option.some.inj (hother.symm.trans hheld)) hid, Nat.le_refl _⟩

theorem later_eq_false_of_le {time : Option ℕ} {now now' : ℕ} (h : later time now = false)
    (hle : now ≤ now') : later time now' = false := by
  cases time with
  | none => rfl
  | some time =>
    have hnow : ¬now < time := of_decide_eq_false h
    exact decide_eq_false fun hlt ↦ hnow (Nat.lt_of_le_of_lt hle hlt)

theorem cachedRefreshStatus_eq_none {row : MetadataSnapshot Payload Coverage} {now : ℕ}
    (h : cachedRefreshStatus row now = none) :
    later row.leaseUntil now = false ∧ later row.expiresAt now = false ∧
      later row.nextAttemptAt now = false := by
  rw [cachedRefreshStatus] at h
  split_ifs at h with hlease hfresh hbackoff
  exact ⟨Bool.not_eq_true _ ▸ hlease, Bool.not_eq_true _ ▸ hfresh, Bool.not_eq_true _ ▸ hbackoff⟩

/-- A step that commits nothing is lawful unless it calls a provider. -/
theorem Lawful.quiet (hrow : s'.row = s.row) (hcatalogue : s'.catalogue = s.catalogue)
    (hcalls : ∀ id, s'.runs id = some .calling → s.runs id = some .calling) :
    Lawful s s' event where
  calls := fun id hid ↦ .inl (hcalls id hid)
  owned := fun h ↦ absurd h (by simp [hrow, hcatalogue])
  kept := fun h ↦ absurd h (by simp [hrow, hcatalogue])
  leases := fun h ↦ absurd h (by simp [hrow])

theorem calls_enter (hstage : stage ≠ .calling) (i : ℕ)
    (hi : (s.enter id stage).runs i = some .calling) : s.runs i = some .calling := by
  by_cases hid : i = id
  · subst hid
    exact absurd (Option.some.inj (runs_enter_self.symm.trans hi)) hstage
  · rw [runs_enter_of_ne hid] at hi
    exact hi

theorem calls_release (hstage : stage ≠ .calling) (i : ℕ)
    (hi : (s.release id stage).runs i = some .calling) : s.runs i = some .calling :=
  calls_enter hstage i hi

theorem Lawful.enter (hstage : stage ≠ .calling) : Lawful s (s.enter id stage) event :=
  .quiet rfl rfl (calls_enter hstage)

theorem Lawful.release (hstage : stage ≠ .calling) : Lawful s (s.release id stage) event :=
  .quiet rfl rfl (calls_release hstage)

theorem Lawful.acquire (hstage : stage ≠ .calling) : Lawful s (s.acquire id stage) event := by
  rw [Server.acquire]
  split_ifs
  · exact .quiet rfl rfl (calls_enter hstage)
  · exact .quiet rfl rfl fun _ hi ↦ hi

/-- The commit of a claim, which its call follows. -/
theorem Lawful.claim {now : ℕ} (hnow : now ≤ s.clock)
    (hcached : cachedRefreshStatus s.row now = none) :
    Lawful s { s.release id .calling with row := RefreshLease.claim s.row now id }
      (.advance id) := by
  obtain ⟨hlease, hfresh, hbackoff⟩ := cachedRefreshStatus_eq_none hcached
  refine ⟨fun i hi ↦ ?_, fun h ↦ absurd h (by simp [RefreshLease.claim, clearLease, Server.release,
    Server.enter]), fun h ↦ absurd h (by simp [RefreshLease.claim, Server.release, Server.enter]),
    fun _ ↦ ⟨id, rfl, .inr ⟨later_eq_false_of_le hlease hnow, rfl⟩⟩⟩
  by_cases hid : i = id
  · subst hid
    exact .inr ⟨later_eq_false_of_le hlease hnow, later_eq_false_of_le hfresh hnow,
      later_eq_false_of_le hbackoff hnow, rfl⟩
  · exact .inl ((runs_enter_of_ne hid).symm.trans hi)

/-- The last commit of a run that still owns the lease. -/
theorem Lawful.commit {row : MetadataSnapshot Payload Coverage} {catalogue : Catalogue}
    {status : RefreshStatus} (h : (Stage.committing row catalogue status :
      Stage Catalogue Document Payload Coverage).Sound s id) :
    Lawful s { s.release id (.finished status) with row := row, catalogue := catalogue }
      (.advance id) := by
  obtain ⟨-, htoken, hnone, huntil, hkept⟩ := h
  refine ⟨fun i hi ↦ .inl (calls_release (fun heq ↦ by cases heq) i hi),
    fun _ ↦ ⟨id, rfl, htoken⟩, fun hchanged ↦ ?_, fun _ ↦ ⟨id, rfl, .inl ⟨htoken, hnone, huntil⟩⟩⟩
  rcases hkept with rfl | ⟨rfl, hsame⟩
  · exact ⟨id, rfl, runs_enter_self⟩
  · exact absurd hchanged (by simp [hsame])

variable (ingest : Catalogue → Document → Except RefreshError (Catalogue × ℕ))
  (coverage : Document → Coverage) (provider : String)

theorem Sound.advance (h : Sound s) (hid : s.runs id = some stage) :
    Sound (advance ingest coverage provider s id stage) ∧
      Lawful s (RefreshLease.advance ingest coverage provider s id stage) (.advance id) := by
  have hstage := h id stage hid
  cases stage with
  | started => exact ⟨h.acquire fun _ hheld ↦ hheld, .acquire (fun heq ↦ by cases heq)⟩
  | claiming =>
    rw [RefreshLease.advance]
    cases hcached : cachedRefreshStatus s.row s.clock with
    | none =>
      exact ⟨h.enter ⟨hstage, s.clock, Nat.le_refl _, hcached, rfl⟩, .enter (fun heq ↦ by cases heq)⟩
    | some status => exact ⟨h.enter trivial, .enter (fun heq ↦ by cases heq)⟩
  | cached status => exact ⟨h.release fun _ ↦ trivial, .release (fun heq ↦ by cases heq)⟩
  | claimed row =>
    obtain ⟨hheld, now, hnow, hcached, rfl⟩ := hstage
    exact ⟨h.commit hheld .calling fun _ ↦ trivial, .claim hnow hcached⟩
  | replied document payload =>
    exact ⟨h.acquire fun _ hheld ↦ hheld, .acquire (fun heq ↦ by cases heq)⟩
  | publishing document payload =>
    rw [RefreshLease.advance]
    split_ifs with hlost
    · exact ⟨h.enter trivial, .enter (fun heq ↦ by cases heq)⟩
    · exact ⟨h.enter ⟨hstage, rfl, not_not.mp hlost⟩, .enter (fun heq ↦ by cases heq)⟩
  | ingesting row document payload =>
    obtain ⟨hheld, rfl, htoken⟩ := hstage
    rw [RefreshLease.advance]
    rcases ingest s.catalogue document with error | ⟨catalogue, entity⟩
    · dsimp only
      split_ifs
      · exact ⟨h.enter hheld, .enter (fun heq ↦ by cases heq)⟩
      · exact ⟨h.release fun _ ↦ trivial, .release (fun heq ↦ by cases heq)⟩
    · exact ⟨h.enter ⟨hheld, htoken, rfl, rfl, .inl rfl⟩, .enter (fun heq ↦ by cases heq)⟩
  | failing error => exact ⟨h.acquire fun _ hheld ↦ hheld, .acquire (fun heq ↦ by cases heq)⟩
  | recording error =>
    rw [RefreshLease.advance]
    split_ifs with hlost
    · exact ⟨h.enter trivial, .enter (fun heq ↦ by cases heq)⟩
    · exact ⟨h.enter ⟨hstage, not_not.mp hlost, rfl, rfl, .inr ⟨rfl, rfl⟩⟩,
        .enter (fun heq ↦ by cases heq)⟩
  | lost recorded => exact ⟨h.release fun _ ↦ trivial, .release (fun heq ↦ by cases heq)⟩
  | committing row catalogue status =>
    exact ⟨h.commit hstage.1 (.finished status) fun _ ↦ trivial, .commit hstage⟩
  | calling | finished _ | raised => exact ⟨h, .quiet rfl rfl fun _ hi ↦ hi⟩

theorem Sound.fail (h : Sound s) :
    Sound (fail s id stage) ∧ Lawful s (RefreshLease.fail s id stage) event := by
  have hfailing : Sound (s.release id (.failing .other)) ∧
      Lawful s (s.release id (.failing .other)) event :=
    ⟨h.release fun _ ↦ trivial, .release (fun heq ↦ by cases heq)⟩
  have hraised : Sound (s.release id .raised) ∧ Lawful s (s.release id .raised) event :=
    ⟨h.release fun _ ↦ trivial, .release (fun heq ↦ by cases heq)⟩
  have hsame : Sound s ∧ Lawful s s event := ⟨h, .quiet rfl rfl fun _ hi ↦ hi⟩
  cases stage with
  | replied _ _ | publishing _ _ | ingesting _ _ _ => exact hfailing
  | lost recorded =>
    cases recorded with
    | false => exact hfailing
    | true => exact hraised
  | calling | finished _ | raised => exact hsame
  | _ => exact hraised

theorem Sound.receive (h : Sound s) (reply : Except RefreshError (Document × Payload)) :
    Sound (receive s id reply stage) ∧ Lawful s (RefreshLease.receive s id reply stage) event := by
  cases stage with
  | calling =>
    cases reply with
    | error error => exact ⟨h.enter trivial, .enter (fun heq ↦ by cases heq)⟩
    | ok reply => exact ⟨h.enter trivial, .enter (fun heq ↦ by cases heq)⟩
  | _ => exact ⟨h, .quiet rfl rfl fun _ hi ↦ hi⟩

theorem Sound.step (h : Sound s) (event : Event Document Payload) :
    Sound (step ingest coverage provider s event) ∧
      Lawful s (RefreshLease.step ingest coverage provider s event) event := by
  have hsame : Sound s ∧ Lawful s s event := ⟨h, .quiet rfl rfl fun _ hi ↦ hi⟩
  cases event with
  | start id =>
    rw [RefreshLease.step]
    split_ifs
    · exact ⟨h.enter trivial, .enter (fun heq ↦ by cases heq)⟩
    · exact hsame
  | advance id =>
    rw [RefreshLease.step]
    cases hid : s.runs id with
    | none => exact hsame
    | some stage => exact h.advance ingest coverage provider hid
  | reply id reply =>
    rw [RefreshLease.step]
    cases s.runs id with
    | none => exact hsame
    | some stage => exact h.receive reply
  | fail id =>
    rw [RefreshLease.step]
    cases s.runs id with
    | none => exact hsame
    | some stage => exact h.fail
  | cancel id =>
    rw [RefreshLease.step]
    split_ifs
    · exact hsame
    · exact ⟨h.release fun _ ↦ trivial, .release (fun heq ↦ by cases heq)⟩
  | pass time =>
    exact ⟨fun id stage hid ↦ (h id stage hid).later
      ⟨fun hheld ↦ ⟨hheld, rfl, rfl⟩, Nat.le_add_right _ _⟩, .quiet rfl rfl fun _ hi ↦ hi⟩

end law

/-- Every step of any number of refreshes of one snapshot is lawful. -/
theorem throughout_lawful {Catalogue Document Payload Coverage : Type}
    (ingest : Catalogue → Document → Except RefreshError (Catalogue × ℕ))
    (coverage : Document → Coverage) (provider : String)
    (row : MetadataSnapshot Payload Coverage) (catalogue : Catalogue)
    (events : List (Event Document Payload)) :
    Throughout (step ingest coverage provider)
      (fun s event ↦ Lawful s (step ingest coverage provider s event) event)
      (.initial row catalogue) events :=
  throughout_of_invariant (I := Sound) (fun _ _ hid ↦ by cases hid)
    fun _ event h ↦ (h.step ingest coverage provider event).symm

end AnyList.Catalogue.RefreshLease
