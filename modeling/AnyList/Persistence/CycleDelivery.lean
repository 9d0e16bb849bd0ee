import AnyList.Persistence.PullCycleState

namespace AnyList.Persistence.CycleDelivery

open AnyList.Library
open AnyList.Timestamps (DateTime)

inductive CloudProvider
  | trakt
  | simkl
  | mdblist
  | bingebase
  deriving DecidableEq

def CloudProvider.all : List CloudProvider := [.trakt, .simkl, .mdblist, .bingebase]

inductive Target
  | connection (id : Int)
  | cloud (provider : CloudProvider)
  | queues
  deriving DecidableEq

def Target.name : Target → String
  | connection id => "connection:" ++ toString id
  | cloud .trakt => "trakt"
  | cloud .simkl => "simkl"
  | cloud .mdblist => "mdblist"
  | cloud .bingebase => "bingebase"
  | queues => "queues"

structure Connection where
  id : Int
  userId : Int
  identityVersion : Int
  pushEnabled : Bool
  onboardingPending : Bool
  deriving DecidableEq

/-- What is stored of the destinations of a delivery. -/
structure Account where
  connections : List Connection
  pushes : CloudProvider → Bool

def Account.connection (account : Account) (id : Int) : Option Connection :=
  account.connections.find? fun conn ↦ decide (conn.id = id)

/-- The delivery keys of a job's stats. -/
structure Stats where
  deliveryPending : Bool
  delivery : Option (List (String × Value))
  deliveryTargets : Option (List Target)
  deliveryDone : Option (List Target)

def Stats.dropped : Stats := ⟨false, none, none, none⟩

section targets

def addConnection (userId : Int) (found : List Target × Dict Int Int) (conn : Connection) :
    List Target × Dict Int Int :=
  if conn.userId ≠ userId ∨ conn.onboardingPending then found
  else if (found.2.get conn.id).any fun version ↦ decide (conn.identityVersion ≠ version) then found
  else if conn.pushEnabled then
    (found.1 ++ [.connection conn.id],
      if (found.2.get conn.id).isSome then found.2 else found.2.set conn.id conn.identityVersion)
  else found

/-- The destinations of a batch, and the batch with the versions of its connections. -/
def deliveryTargets (account : Account) (state : PullCycleState) : List Target × PullCycleState :=
  let found := account.connections.foldl (addConnection state.userId) ([], state.connectionVersions)
  (found.1 ++ (CloudProvider.all.filter account.pushes).map .cloud ++ [.queues],
    { state with connectionVersions := found.2 })

end targets

variable (isoformat : DateTime → String) (fromisoformat : String → Option DateTime)

def persistDelivery (account : Account) (state : PullCycleState) : Stats :=
  let found := deliveryTargets account state
  { deliveryPending := true
    delivery := some (found.2.deliveryPayload isoformat)
    deliveryTargets := some found.1
    deliveryDone := some [] }

/-- How a step that touches the world ends: an exception is collected, a crash ends the run. -/
inductive Fate
  | done
  | raises
  | crash
  deriving DecidableEq

/-- How the transaction that records a target ends: it fails before or after it read the row. -/
inductive RecordFate
  | done
  | unread
  | uncommitted
  | crash
  deriving DecidableEq

/-- What a run meets at one of its targets. -/
structure Moment where
  lookup : Fate
  account : Account
  flush : Fate
  record : RecordFate

inductive Event
  | upgraded (targets : List Target) (delivery : List (String × Value))
  | unread (target : Target)
  | replaced (target : Target)
  | flush (target : Target) (succeeded : Bool)
  | recorded (target : Target)
  | dropped

def Event.target : Event → Option Target
  | upgraded _ _ | dropped => none
  | unread target | replaced target | flush target _ | recorded target => some target

/-- A run in progress: the stored row, the targets it takes for done, what happened so far and how
the last step ended. -/
structure Progress where
  row : Stats
  done : List Target
  events : List Event
  fate : Fate

section run

variable (userId : Int) (state : PullCycleState) (targets : List Target)

def isCurrent (account : Account) : Target → Bool
  | .connection id => (account.connection id).any fun conn ↦
      decide (conn.userId = userId ∧ state.connectionVersions.get conn.id = some conn.identityVersion)
  | _ => true

def markDone (done : List Target) (target : Target) : List Target :=
  if target ∈ done then done else done ++ [target]

def sortedNames (done : List Target) : List Target :=
  done.mergeSort fun t t' ↦ decide (t.name ≤ t'.name)

/-- The transaction after a target was flushed or found replaced. -/
def recordTarget (record : RecordFate) (row : Stats) (done : List Target) (events : List Event)
    (target : Target) : Progress :=
  let marked := markDone (row.deliveryDone.getD []) target
  match record with
  | .done =>
    if targets.all fun t ↦ decide (t ∈ marked) then
      ⟨.dropped, marked, events ++ [.recorded target, .dropped], .done⟩
    else
      ⟨{ row with deliveryDone := some (sortedNames marked) }, marked,
        events ++ [.recorded target], .done⟩
  | .unread => ⟨row, done, events, .raises⟩
  | .uncommitted => ⟨row, marked, events, .raises⟩
  | .crash => ⟨row, done, events, .crash⟩

def flushTarget (moment : Moment) (row : Stats) (done : List Target) (target : Target) :
    Progress :=
  if isCurrent userId state moment.account target then
    match moment.flush with
    | .done => recordTarget targets moment.record row done [.flush target true] target
    | fate => ⟨row, done, [.flush target false], fate⟩
  else recordTarget targets moment.record row done [.replaced target] target

def deliverTarget (moment : Moment) (row : Stats) (done : List Target) (target : Target) :
    Progress :=
  match moment.lookup, target with
  | .crash, _ => ⟨row, done, [], .crash⟩
  | .raises, .connection id => ⟨row, done, [.unread (.connection id)], .raises⟩
  | _, target => flushTarget userId state targets moment row done target

/-- The loop over the targets, each met at its moment; a failing target does not end it. -/
def deliverTargets (script : ℕ → Moment) : ℕ → List Target → Stats → List Target → Progress
  | _, [], row, done => ⟨row, done, [], .done⟩
  | i, target :: todo, row, done =>
    if target ∈ done then deliverTargets script (i + 1) todo row done
    else
      let step := deliverTarget userId state targets (script i) row done target
      match step.fate with
      | .crash => step
      | fate =>
        let rest := deliverTargets script (i + 1) todo step.row step.done
        { rest with
          events := step.events ++ rest.events
          fate := if fate = .raises ∧ rest.fate = .done then .raises else rest.fate }

end run

/-- One call of `_deliver_cycle`: the state it is given and what it meets. -/
structure Run where
  state : Option PullCycleState
  account : Account
  upgrade : Fate
  script : ℕ → Moment

/-- What a run leaves: the stored row, what happened and how the run ended. -/
structure Outcome where
  row : Stats
  events : List Event
  fate : Fate

def deliverCycle (userId : Int) (run : Run) (row : Stats) : Outcome :=
  if !row.deliveryPending then ⟨row, [], .done⟩
  else
    match run.state.or (row.delivery.bind (PullCycleState.restore fromisoformat)) with
    | none => ⟨row, [], .raises⟩
    | some state =>
      match row.deliveryTargets with
      | some targets =>
        let progress := deliverTargets userId state targets run.script 0 targets row
          (row.deliveryDone.getD [])
        ⟨progress.row, progress.events, progress.fate⟩
      | none =>
        -- Batches of an earlier release get their targets first.
        let found := deliveryTargets run.account state
        let delivery := found.2.deliveryPayload isoformat
        match run.upgrade with
        | .done =>
          let progress := deliverTargets userId found.2 found.1 run.script 0 found.1
            { row with
              delivery := some delivery, deliveryTargets := some found.1, deliveryDone := some [] } []
          ⟨progress.row, .upgraded found.1 delivery :: progress.events, progress.fate⟩
        | fate => ⟨row, [], fate⟩

/-- The runs over one batch, one after the other. -/
def deliverCycles (userId : Int) : List Run → Stats → Stats × List Event
  | [], row => (row, [])
  | run :: runs, row =>
    let outcome := deliverCycle isoformat fromisoformat userId run row
    let rest := deliverCycles userId runs outcome.row
    (rest.1, outcome.events ++ rest.2)

end AnyList.Persistence.CycleDelivery
