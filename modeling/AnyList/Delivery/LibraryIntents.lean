import AnyList.Library.Dict
import AnyList.Reconciliation.Sources

namespace AnyList.Delivery.LibraryIntents

open AnyList.Library AnyList.Library.Members AnyList.Timestamps
open AnyList.Reconciliation.Resolve AnyList.Reconciliation.Sources

structure Connection where
  id : ℕ
  streaming : Bool
  pushCollection : Bool
  syncCollection : Bool
  identityVersion : ℕ
  deriving DecidableEq

inductive DeliveryState
  | pending
  | applied
  | cancelled
  | cleared
  | observed
  deriving DecidableEq

structure LibraryDelivery where
  desired : Bool
  state : DeliveryState
  attempts : ℕ
  lastError : Option String
  updatedAt : Int
  deriving DecidableEq

/-- The current library decision of a title, with its delivery to each connection. -/
structure LibraryIntent where
  desired : Bool
  updatedAt : Int
  deliveries : Dict ℕ LibraryDelivery

structure Account where
  connections : List Connection
  isTitle : ℕ → Bool
  approved : ℕ → Bool
  intents : ℕ → Option LibraryIntent
  /-- The connections' own collection files, as (connection, title) pairs. -/
  files : List (ℕ × ℕ)
  anchors : List ℕ
  otherFiles : ℕ → Bool
  reviews : List (Review Bool)

namespace Account

def findConnection (s : Account) (id : ℕ) : Option Connection :=
  s.connections.find? fun conn ↦ decide (conn.id = id)

def pushTargets (s : Account) : List ℕ :=
  (s.connections.filter fun conn ↦ conn.streaming && conn.pushCollection).map Connection.id

def inCollection (s : Account) (mediaId : ℕ) : Bool :=
  decide (mediaId ∈ s.anchors) || s.files.any (fun file ↦ decide (file.2 = mediaId)) ||
    s.otherFiles mediaId

def sourceApproved (s : Account) : Source → Bool
  | .connection id => s.approved id
  | .cloud _ => false

def setIntent (s : Account) (mediaId : ℕ) (intent : LibraryIntent) : Account :=
  { s with intents := Function.update s.intents mediaId (some intent) }

end Account

/-- A delivery that waits to be written. -/
def queued (desired : Bool) (now : Int) : LibraryDelivery := ⟨desired, .pending, 0, none, now⟩

def settled (desired : Bool) (now : Int) : LibraryDelivery := ⟨desired, .observed, 0, none, now⟩

section setIntent

def requeue (changed desired : Bool) (now : Int) (deliveries : Dict ℕ LibraryDelivery) (id : ℕ) :
    Dict ℕ LibraryDelivery :=
  match deliveries.get id with
  | none => deliveries.set id (queued desired now)
  | some row =>
    if changed ∨ row.desired ≠ desired ∨ row.state = .cancelled ∨ row.state = .cleared then
      deliveries.set id (queued desired now)
    else deliveries

/-- The deliveries of a title after the owner's choice. -/
def retarget (targets : List ℕ) (changed desired : Bool) (now : Int)
    (deliveries : Dict ℕ LibraryDelivery) : Dict ℕ LibraryDelivery :=
  targets.foldl (requeue changed desired now) (deliveries.mapKeyed fun id row ↦
    if id ∉ targets ∧ row.state = .pending then { row with state := .cancelled } else row)

def setManualAnchor (anchors : List ℕ) (mediaId : ℕ) (desired : Bool) : List ℕ :=
  if desired then (if mediaId ∈ anchors then anchors else anchors ++ [mediaId])
  else anchors.filter fun id ↦ decide (id ≠ mediaId)

def setLibraryIntent (s : Account) (now : Int) (mediaId : ℕ) (desired : Bool) :
    Except String Account :=
  if s.isTitle mediaId then
    let intent := (s.intents mediaId).getD ⟨desired, now, .empty⟩
    let changed := decide (intent.desired ≠ desired)
    .ok { s.setIntent mediaId
            ⟨desired, now, retarget s.pushTargets changed desired now intent.deliveries⟩ with
      anchors := setManualAnchor s.anchors mediaId desired }
  else .error "Title not found"

end setIntent

/-- What an account cycle remembers from its start, and the clock it started at. -/
structure LibraryCycle where
  startedAt : Int
  before : List (ℕ × ℕ)
  localBefore : ℕ → Option (Bool × Option Int)
  observed : ℕ → Option DateTime
  versions : ℕ → Option ℕ

namespace LibraryCycle

variable (cycle : LibraryCycle) (s : Account)

def reads (id : ℕ) : Bool :=
  (s.findConnection id).any fun conn ↦ conn.streaming && conn.syncCollection &&
    decide (some conn.identityVersion = cycle.versions id)

/-- The memberships that changed since the cycle's start. -/
def changed : List (ℕ × ℕ) :=
  (distinct (s.files ++ cycle.before)).filter fun file ↦
    decide ((file ∈ s.files) ≠ (file ∈ cycle.before)) && cycle.reads s file.1

def observations (mediaId : ℕ) : List (Observation Source Bool) :=
  sortBySource (((cycle.changed s).filter fun file ↦ decide (file.2 = mediaId)).map fun file ↦
    ⟨.connection file.1, some (decide (file ∈ s.files)), none,
      some (some (decide (file ∈ cycle.before))), cycle.observed file.1, false⟩)

def titles : List ℕ := distinct ((cycle.changed s).map Prod.snd)

def decision (mediaId : ℕ) : Decision Source Bool :=
  let known : Option Bool × Option Int :=
    match s.intents mediaId with
    | some intent => (some intent.desired, some intent.updatedAt)
    | none => ((cycle.localBefore mediaId).map Prod.fst, (cycle.localBefore mediaId).bind Prod.snd)
  resolve known.1 (known.2.map .naive) (cycle.observations s mediaId) (some cycle.startedAt) none

/-- The value that the cycle records for a title, if it takes a decision. -/
def decided (mediaId : ℕ) : Option Bool :=
  let decision := cycle.decision s mediaId
  if decision.conflict ∨ decision.sources = ∅ then none else decision.value

end LibraryCycle

/-- A decision to be delivered, with the sources that already have it. -/
structure AcceptedChange where
  mediaId : ℕ
  desired : Bool
  sources : Finset Source
  observedAt : Int
  deriving DecidableEq

def recordDecision (cycle : LibraryCycle) (state : Account × List AcceptedChange) (mediaId : ℕ) :
    Account × List AcceptedChange :=
  let (s, accepted) := state
  let decision := cycle.decision s mediaId
  if decision.conflict then
    let reviews := raiseReview s.reviews mediaId none .library decision.value
      (cycle.observations s mediaId)
    ({ s with reviews := reviews }, accepted)
  else
    match cycle.decided s mediaId with
    | none => (s, accepted)
    | some desired =>
      let intent : LibraryIntent :=
        ⟨desired, cycle.startedAt, ((s.intents mediaId).map (·.deliveries)).getD .empty⟩
      ({ s.setIntent mediaId intent with
          reviews := retireReview s.reviews mediaId none .library },
        if ∃ source ∈ decision.sources, s.sourceApproved source then
          accepted ++ [⟨mediaId, desired, decision.sources, cycle.startedAt⟩]
        else accepted)

/-- The library decisions of one account cycle. -/
def library (cycle : LibraryCycle) (s : Account) : Account × List AcceptedChange :=
  (cycle.titles s).foldl (recordDecision cycle) (s, [])

/-- What the delivery of an accepted change hands to its queue. A destination restricts the
targets when a delivery is resumed. -/
structure LibraryChanges where
  changed : List ℕ
  exclude : List ℕ
  observedAt : ℕ → Option Int
  sources : Option (ℕ → List ℕ)
  desired : ℕ → Option Bool
  destination : ℕ → Bool

namespace LibraryChanges

variable (changes : LibraryChanges)

def sourceIds (mediaId : ℕ) : List ℕ :=
  match changes.sources with
  | some sources => sources mediaId
  | none => changes.exclude

def targets (s : Account) (mediaId : ℕ) : List ℕ :=
  s.pushTargets.filter fun id ↦ changes.destination id && decide (id ∉ changes.sourceIds mediaId)

def desiredOf (s : Account) (mediaId : ℕ) : Bool :=
  (changes.desired mediaId).getD (s.inCollection mediaId)

/-- The clock of a change that is not older than the title's current decision. -/
def accepted (s : Account) (mediaId : ℕ) : Option Int :=
  if changes.sourceIds mediaId = [] then none
  else (changes.observedAt mediaId).filter fun at' ↦
    (s.intents mediaId).all fun intent ↦ decide (intent.updatedAt ≤ at')

end LibraryChanges

def settleAndQueue (sources targets : List ℕ) (desired : Bool) (now : Int)
    (deliveries : Dict ℕ LibraryDelivery) : Dict ℕ LibraryDelivery :=
  let observed := deliveries.setAll (sources.map fun id ↦ (id, settled desired now))
  observed.setAll (targets.map fun id ↦ (id, queued desired now))

def queueChange (changes : LibraryChanges) (now : Int) (s : Account) (mediaId : ℕ) : Account :=
  match changes.accepted s mediaId with
  | none => s
  | some observedAt =>
    let desired := changes.desiredOf s mediaId
    let deliveries := ((s.intents mediaId).map (·.deliveries)).getD .empty
    s.setIntent mediaId ⟨desired, observedAt, settleAndQueue (changes.sourceIds mediaId)
      (changes.targets s mediaId) desired now deliveries⟩

def queueProviderLibraryChanges (changes : LibraryChanges) (now : Int) (s : Account) : Account :=
  (distinct changes.changed).foldl (queueChange changes now) s

/-- How a provider answers a write: refused before it is sent, sent in vain, or done. -/
inductive Attempt
  | refused (error : String)
  | failed (error : String)
  | written
  deriving DecidableEq

structure Providers where
  item : Except String String
  attempt : ℕ → Attempt

structure Write where
  connectionId : ℕ
  mediaId : ℕ
  desired : Bool
  deriving DecidableEq

section dispatch

variable (s : Account) (providers : Providers) (now : Int)

def deliverable (id : ℕ) : Bool :=
  (s.findConnection id).any fun conn ↦ conn.streaming && conn.pushCollection

def dispatchRow (id : ℕ) (row : LibraryDelivery) : LibraryDelivery :=
  if row.state ≠ .pending then row
  else
    match providers.item with
    | .error error => { row with attempts := row.attempts + 1, lastError := error, updatedAt := now }
    | .ok _ =>
      if deliverable s id then
        let tried := { row with attempts := row.attempts + 1, updatedAt := now }
        match providers.attempt id with
        | .refused error => { tried with lastError := some error }
        | .failed error => { tried with lastError := some error }
        | .written => { tried with state := .applied, lastError := none }
      else { row with state := .cancelled }

/-- The pending rows of a title whose write reaches the provider. -/
def sentRows (deliveries : Dict ℕ LibraryDelivery) : List (ℕ × LibraryDelivery) :=
  match providers.item with
  | .error _ => []
  | .ok _ => deliveries.entries.filter fun (id, row) ↦
      decide (row.state = .pending) && deliverable s id &&
        match providers.attempt id with
        | .refused _ => false
        | _ => true

def dispatchWrites (mediaId : ℕ) : List Write :=
  match s.intents mediaId with
  | none => []
  | some intent => (sentRows s providers intent.deliveries).map fun (id, row) ↦
      ⟨id, mediaId, row.desired⟩

/-- The collection files once a connection's membership has been recorded. -/
def recordMembership (providers : Providers) (files : List (ℕ × ℕ)) (write : Write) :
    List (ℕ × ℕ) :=
  match providers.attempt write.connectionId with
  | .written =>
    let file := (write.connectionId, write.mediaId)
    if write.desired then (if file ∈ files then files else files ++ [file])
    else files.filter fun other ↦ decide (other ≠ file)
  | _ => files

def dispatchLibraryDeliveries (mediaId : ℕ) : Account :=
  match s.intents mediaId with
  | none => s
  | some intent =>
    { s.setIntent mediaId
        { intent with deliveries := intent.deliveries.mapKeyed (dispatchRow s providers now) } with
      files := (dispatchWrites s providers mediaId).foldl (recordMembership providers) s.files }

end dispatch

/-- What happens to an account's library: the owner's choices, account cycles, accepted
changes, dispatches, and edits of its connections, approvals and collection files. -/
inductive Step
  | choose (now : Int) (mediaId : ℕ) (desired : Bool)
  | cycle (cycle : LibraryCycle)
  | queue (changes : LibraryChanges) (now : Int)
  | dispatch (providers : Providers) (now : Int) (mediaId : ℕ)
  | environment (connections : List Connection) (approved : ℕ → Bool) (files : List (ℕ × ℕ))

def step (s : Account) : Step → Account
  | .choose now mediaId desired => (setLibraryIntent s now mediaId desired).toOption.getD s
  | .cycle cycle => (library cycle s).1
  | .queue changes now => queueProviderLibraryChanges changes now s
  | .dispatch providers now mediaId => dispatchLibraryDeliveries s providers now mediaId
  | .environment connections approved files =>
    { s with connections := connections, approved := approved, files := files }

def run (s : Account) (steps : List Step) : Account := steps.foldl step s

end AnyList.Delivery.LibraryIntents
