import AnyList.Library.Writes
import Mathlib.Data.List.Basic

namespace AnyList.Imports.ImportDraft

open AnyList.Library.Patches

variable {V : Type*}

/-- The values of a session by item and field. -/
abbrev Values (V : Type*) := String × String → Option V

/-- A staged choice for the fields of one item. The objects that hold choices are told apart
by `uid`. -/
structure ImportPatch (V : Type*) where
  uid : ℕ
  itemId : String
  changes : String → Option V

namespace ImportPatch

def fields (patch : ImportPatch V) : Values V := fun key ↦
  if key.1 = patch.itemId then patch.changes key.2 else none

/-- The choice with further ones for the same item. -/
def assign (previous : ImportPatch V) (changes : String → Option V) : ImportPatch V :=
  { previous with changes := lay changes previous.changes }

end ImportPatch

/-- Where a flush stands: a save under way with its batch, and whether the server has received
it; or about to end. -/
inductive Flushing (V : Type*)
  | idle
  | saving (batch : List (ImportPatch V)) (received : Bool)
  | settling (failed : Bool)

/-- The draft of one import session with what surrounds it: the values on display, those of the
last server snapshot, those the server holds, and those the viewer staged last. -/
structure Draft (V : Type*) where
  pending : List (ImportPatch V)
  inFlight : List ℕ
  flushing : Flushing V
  next : ℕ
  session : Values V
  lastSnapshot : Values V
  server : Values V
  staged : Values V

def applyAll (patches : List (ImportPatch V)) (values : Values V) : Values V :=
  (patches.map ImportPatch.fields).foldl (fun values patch ↦ lay patch values) values

section stage

variable (inFlight : List ℕ) (itemId : String) (changes : String → Option V)

/-- A choice that is not being saved takes in further ones for its item. -/
def mergeInto : List (ImportPatch V) → Option (List (ImportPatch V))
  | [] => none
  | patch :: rest =>
    if patch.uid ∉ inFlight ∧ patch.itemId = itemId then some (patch.assign changes :: rest)
    else (mergeInto rest).map (patch :: ·)

end stage

namespace Draft

variable (d : Draft V)

def start (session : Values V) : Draft V where
  pending := []
  inFlight := []
  flushing := .idle
  next := 0
  session := session
  lastSnapshot := session
  server := session
  staged _ := none

/-- The choices still to be sent, over the last server snapshot. -/
def projected : Values V := applyAll d.pending d.lastSnapshot

def stage (itemId : String) (changes : String → Option V) : Draft V :=
  let patch : ImportPatch V := ⟨d.next, itemId, changes⟩
  { d with
    pending := (mergeInto d.inFlight itemId changes d.pending).getD (d.pending ++ [patch])
    next := d.next + 1
    session := lay patch.fields d.session
    staged := lay patch.fields d.staged }

def rebase (fresh : Values V) : Draft V :=
  { d with session := applyAll d.pending fresh, lastSnapshot := fresh }

def renumber (next : ℕ) (patches : List (ImportPatch V)) : List (ImportPatch V) :=
  patches.zipIdx.map fun patch ↦ { patch.1 with uid := next + patch.2 }

/-- The given choices replace those that are still to be sent. -/
def restore (patches : List (ImportPatch V)) : Draft V where
  pending := renumber d.next patches
  inFlight := d.inFlight
  flushing := d.flushing
  next := d.next + patches.length
  session := applyAll patches d.session
  lastSnapshot := d.lastSnapshot
  server := d.server
  staged := lay (latest (patches.map ImportPatch.fields)) fun key ↦
    if latest (d.pending.map ImportPatch.fields) key = none then d.staged key else none

/-- One turn of the flush's loop. -/
def sendNext (saveBatch : Bool) : Draft V :=
  match d.pending with
  | [] => { d with flushing := .settling false }
  | patch :: rest =>
    let batch := if saveBatch then patch :: rest else [patch]
    { d with inFlight := batch.map ImportPatch.uid, flushing := .saving batch false }

def flush (saveBatch : Bool) : Draft V :=
  match d.flushing with
  | .idle => d.sendNext saveBatch
  | .saving _ _ | .settling _ => d

/-- The request of a save reaches the server. -/
def receive : Draft V :=
  match d.flushing with
  | .saving batch false =>
    { d with server := applyAll batch d.server, flushing := .saving batch true }
  | .saving _ true | .idle | .settling _ => d

/-- The answer to a save that the server has received. -/
def answer (saveBatch : Bool) : Draft V :=
  match d.flushing with
  | .saving _ true =>
    let kept : Draft V := { d with pending := d.pending.filter fun patch ↦ patch.uid ∉ d.inFlight }
    (kept.rebase d.server).sendNext saveBatch
  | .saving _ false | .idle | .settling _ => d

/-- A save fails, whether or not the server has received it. -/
def fail : Draft V :=
  match d.flushing with
  | .saving _ _ => { d with flushing := .settling true }
  | .idle | .settling _ => d

def settle : Draft V :=
  match d.flushing with
  | .settling _ => { d with inFlight := [], flushing := .idle }
  | .idle | .saving _ _ => d

end Draft

inductive Event (V : Type*)
  | stage (itemId : String) (changes : String → Option V)
  | rebase (fresh : Values V)
  | snapshot
  | restore (patches : List (ImportPatch V))
  | flush
  | receive
  | answer
  | fail
  | settle

def step (saveBatch : Bool) (d : Draft V) : Event V → Draft V
  | .stage itemId changes => d.stage itemId changes
  | .rebase fresh => d.rebase fresh
  | .snapshot => d
  | .restore patches => d.restore patches
  | .flush => d.flush saveBatch
  | .receive => d.receive
  | .answer => d.answer saveBatch
  | .fail => d.fail
  | .settle => d.settle

end AnyList.Imports.ImportDraft
