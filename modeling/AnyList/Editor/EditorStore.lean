import AnyList.Editor.EditorPaint
import AnyList.Library.SerialTasks

namespace AnyList.Editor.EditorStore

open AnyList.Library.SerialTasks

structure EditorLibrary where
  available : Bool
  desired : Bool

/-- A title as a page hands it over; some of its fields may be missing. An entry carries its own
favourite. -/
structure EditorTitle where
  id : Option ℕ
  tmdbId : Option (Option ℕ)
  type : MediaType
  seasons : Option (List (ℕ × Option ℕ))
  progressPositions : Option (List String)
  entry : Option (Entry × Bool)
  favorite : Option Bool
  editorLibrary : Option (Option EditorLibrary)

inductive Key
  | tmdb (type : MediaType) (tmdbId : ℕ)
  | id (id : Option ℕ)
  deriving DecidableEq

namespace EditorTitle

variable (title new : EditorTitle)

def info : Title := ⟨title.type, title.seasons, title.progressPositions⟩

def key : Key :=
  match title.tmdbId.join.filter (· ≠ 0) with
  | some tmdbId => .tmdb title.type tmdbId
  | none => .id title.id

def assign : EditorTitle where
  id := new.id
  tmdbId := new.tmdbId.or title.tmdbId
  type := new.type
  seasons := new.seasons.or title.seasons
  progressPositions := new.progressPositions.or title.progressPositions
  entry := new.entry
  favorite := new.favorite.or title.favorite
  editorLibrary := new.editorLibrary.or title.editorLibrary

end EditorTitle

/-- A write, whose patch a removal lacks, or a change of the library. -/
inductive Operation
  | entry (patch : Option EntryPatch)
  | library (desired : Bool)

namespace Operation

def entry? : Operation → Option (Option EntryPatch)
  | .entry patch => some patch
  | .library _ => none

def library? : Operation → Option Bool
  | .entry _ => none
  | .library desired => some desired

end Operation

/-- How far the promise of an operation is. -/
inductive Phase
  | queued
  | importing
  | resolved (id : Option ℕ)
  | requesting
  | settled (succeeded : Bool)
  deriving DecidableEq

structure Task where
  operation : Operation
  viewer : String
  phase : Phase

namespace Task

def Queued (t : Task) : Prop := t.phase = .queued

def Settled (t : Task) : Prop := t.phase = .settled true ∨ t.phase = .settled false

instance : DecidablePred Queued := fun t ↦ inferInstanceAs (Decidable (t.phase = .queued))

instance : DecidablePred Settled := fun t ↦
  inferInstanceAs (Decidable (t.phase = .settled true ∨ t.phase = .settled false))

end Task

/-- What an operation is answered with. -/
structure Answer where
  entry : Option (Entry × Bool)
  favorite : Option Bool
  desired : Bool

/-- The element at the index of an operation is taken out, as by a splice. -/
def spliceOut {β : Type} (operations : List (ℕ × β)) (operation : ℕ) : List (ℕ × β) :=
  match operations.findIdx? fun pending ↦ decide (pending.1 = operation) with
  | some i => operations.eraseIdx i
  | none => operations.dropLast

/-- An operation is known by its position in the chain of promises. -/
structure RecordState where
  title : EditorTitle
  committed : Option (Entry × Bool)
  favoriteCommitted : Bool
  libraryCommitted : Option EditorLibrary
  chain : List Task
  pending : List (ℕ × Option EntryPatch)
  libraryPending : List (ℕ × Bool)
  importing : Bool
  stale : Bool

namespace RecordState

variable (record : RecordState) (viewer : String) (today : Int)

def new (title : EditorTitle) : RecordState where
  title := title
  committed := title.entry
  favoriteCommitted := title.favorite.getD (title.entry.any Prod.snd)
  libraryCommitted := title.editorLibrary.join
  chain := []
  pending := []
  libraryPending := []
  importing := false
  stale := false

def painted : Option Entry × Bool :=
  AnyList.Editor.paint record.title.info today (record.pending.map Prod.snd)
    (record.committed.map Prod.fst, record.favoriteCommitted)

def paint : RecordState :=
  { record with title := { record.title with
      entry := (record.painted today).1.map (·, (record.painted today).2)
      favorite := some (record.painted today).2 } }

def paintedLibrary : EditorLibrary where
  available := record.libraryCommitted.all EditorLibrary.available
  desired := (record.libraryPending.getLast?.map Prod.snd).getD
    (record.libraryCommitted.any EditorLibrary.desired)

def paintLibrary : RecordState :=
  { record with title := { record.title with editorLibrary := some (some record.paintedLibrary) } }

def busy : Bool :=
  !record.pending.isEmpty || !record.libraryPending.isEmpty || record.importing

/-- A record that is seeded again, unless one of its operations has not settled. -/
def reseed (title : EditorTitle) : RecordState :=
  if record.busy then record
  else { record with
    title := record.title.assign title
    committed := title.entry
    favoriteCommitted := title.favorite.getD (title.entry.any Prod.snd)
    stale := false
    libraryCommitted := title.editorLibrary.join }

def issue (operation : Operation) : RecordState :=
  let chained := { record with chain := record.chain ++ [Task.mk operation viewer .queued] }
  match operation with
  | .entry patch =>
    { chained with pending := record.pending ++ [(record.chain.length, patch)] }.paint today
  | .library desired =>
    { chained with
      libraryPending := record.libraryPending ++ [(record.chain.length, desired)] }.paintLibrary

def setPhase (n : ℕ) (phase : Phase) : RecordState :=
  { record with chain := record.chain.modify n fun t ↦ { t with phase } }

/-- The operation is done with, and what is left of them is shown. -/
def settle (n : ℕ) (operation : Operation) (succeeded : Bool) : RecordState :=
  let settled := record.setPhase n (.settled succeeded)
  match operation with
  | .entry _ => { settled with pending := spliceOut record.pending n }.paint today
  | .library _ =>
    { settled with libraryPending := spliceOut record.libraryPending n }.paintLibrary

/-- The task at a position starts, and says whether the title is requested to be imported. -/
def start (n : ℕ) : RecordState × Bool :=
  match record.chain[n]? with
  | none => (record, false)
  | some t =>
    if t.Queued ∧ Ready Task.Settled record.chain n then
      if t.viewer ≠ viewer then (record.settle today n t.operation false, false)
      else match record.title.id.filter (· ≠ 0) with
        | some id => (record.setPhase n (.resolved (some id)), false)
        | none => ({ record.setPhase n .importing with importing := true }, !record.importing)
    else (record, false)

/-- The import of the title is answered. -/
def imported (reply : Option ℕ) : RecordState :=
  if record.importing then
    { record with
      importing := false
      title := { record.title with id := reply.or record.title.id }
      chain := record.chain.map fun t ↦
        if t.phase = .importing then { t with phase := .resolved reply } else t }
  else record

/-- The task at a position goes on, and says for which title its request is sent. -/
def resume (n : ℕ) : RecordState × Option ℕ :=
  match record.chain[n]? with
  | none => (record, none)
  | some t =>
    match t.phase with
    | .resolved none => (record.settle today n t.operation false, none)
    | .resolved (some id) =>
      if t.viewer ≠ viewer then (record.settle today n t.operation false, none)
      else (record.setPhase n .requesting, some id)
    | _ => (record, none)

def commit (answer : Answer) : Operation → RecordState
  | .entry (some _) =>
    { record with
      committed := answer.entry
      favoriteCommitted := answer.favorite.getD record.favoriteCommitted
      stale := false }
  | .entry none => { record with committed := none, favoriteCommitted := false, stale := false }
  | .library _ => { record with libraryCommitted := some ⟨true, answer.desired⟩ }

/-- The request of the task at a position is answered, or fails. -/
def answered (n : ℕ) (reply : Option Answer) : RecordState :=
  match record.chain[n]? with
  | none => record
  | some t =>
    if t.phase = .requesting then
      match reply with
      | some answer => (record.commit answer t.operation).settle today n t.operation true
      | none => record.settle today n t.operation false
    else record

/-- The first task that has not settled, and how far it is. -/
def first : Option (ℕ × Phase) :=
  (record.chain.findIdx? fun t ↦ decide (¬t.Settled)).bind fun n ↦
    (record.chain[n]?).map fun t ↦ (n, t.phase)

end RecordState

/-- A request for a title, and who was signed in when it was sent. -/
inductive Sent
  | editor (viewer : String) (id : ℕ)
  | catalog (viewer : String) (object : ℕ)
  | write (viewer : String) (object task id : ℕ) (operation : Operation)

/-- The records of the current viewer among all that were ever made, and the reads under way. -/
structure Store where
  viewer : String
  objects : List RecordState
  records : List (Key × ℕ)
  reads : List (ℕ × ℕ)
  fetches : List (ℕ × String × Bool)

inductive Event
  | scope (viewer : String)
  | seed (title : EditorTitle)
  | acceptSaved (id : ℕ) (saved : Option (Entry × Bool))
  | invalidate (id : ℕ)
  | load (id : ℕ)
  | fetched (fetch : ℕ) (reply : Option EditorTitle)
  | issue (title : EditorTitle) (operation : Operation)
  | start (object task : ℕ)
  | imported (object : ℕ) (reply : Option ℕ)
  | resume (object task : ℕ)
  | answered (object task : ℕ) (reply : Option Answer)

namespace Store

variable (s : Store)

def empty (viewer : String) : Store := ⟨viewer, [], [], [], []⟩

def modify (object : ℕ) (f : RecordState → RecordState) : Store :=
  { s with objects := s.objects.modify object f }

def find (p : RecordState → Bool) : Option ℕ :=
  (s.records.find? fun kept ↦ s.objects[kept.2]?.any p).map Prod.snd

def withId (id : ℕ) : Option ℕ := s.find fun record ↦ decide (record.title.id = some id)

def record (title : EditorTitle) : Option ℕ :=
  ((s.records.find? fun kept ↦ decide (kept.1 = title.key)).map Prod.snd).or
    ((title.id.filter (· ≠ 0)).bind s.withId)

def seed (title : EditorTitle) : Store :=
  match s.record title with
  | some object => s.modify object (·.reseed title)
  | none =>
    { s with
      objects := s.objects ++ [.new title]
      records := s.records ++ [(title.key, s.objects.length)] }

def scope (viewer : String) : Store :=
  if s.viewer = viewer then s else { s with viewer, records := [], reads := [] }

def acceptSaved (id : ℕ) (saved : Option (Entry × Bool)) : Store :=
  match (s.withId id).bind (s.objects[·]?) with
  | some record => if record.pending.isEmpty then s.seed { record.title with entry := saved } else s
  | none => s

def invalidate (id : ℕ) : Store :=
  match s.withId id with
  | some object => s.modify object fun record ↦ { record with stale := true }
  | none => s

/-- A title is read unless the store has it, or a read of it is under way. -/
def load (id : ℕ) : Store × List Sent :=
  if ((s.withId id).bind (s.objects[·]?)).any fun record ↦ !record.stale then (s, [])
  else if s.reads.any fun read ↦ decide (read.1 = id) then (s, [])
  else ({ s with
    reads := s.reads ++ [(id, s.fetches.length)]
    fetches := s.fetches ++ [(id, s.viewer, false)] }, [.editor s.viewer id])

def fetched (fetch : ℕ) (reply : Option EditorTitle) : Store :=
  match s.fetches[fetch]? with
  | some (_, viewer, false) =>
    let s := { s with
      reads := s.reads.filter fun read ↦ decide (read.2 ≠ fetch)
      fetches := s.fetches.modify fetch fun read ↦ (read.1, read.2.1, true) }
    match reply with
    | some title => if viewer = s.viewer then s.seed title else s
    | none => s
  | _ => s

/-- What an event makes of the store on a day, and the requests that it sends. -/
def step (today : Int) : Event → Store × List Sent
  | .scope viewer => (s.scope viewer, [])
  | .seed title => (s.seed title, [])
  | .acceptSaved id saved => (s.acceptSaved id saved, [])
  | .invalidate id => (s.invalidate id, [])
  | .load id => s.load id
  | .fetched fetch reply => (s.fetched fetch reply, [])
  | .issue title operation =>
    match s.record title with
    | some object => (s.modify object (·.issue s.viewer today operation), [])
    | none => (s, [])
  | .start object task =>
    (s.modify object fun record ↦ (record.start s.viewer today task).1,
      if s.objects[object]?.any fun record ↦ (record.start s.viewer today task).2 then
        [.catalog s.viewer object] else [])
  | .imported object reply => (s.modify object (·.imported reply), [])
  | .resume object task =>
    (s.modify object fun record ↦ (record.resume s.viewer today task).1,
      (s.objects[object]?.bind fun record ↦ (record.resume s.viewer today task).2.bind fun id ↦
        (record.chain[task]?).map fun t ↦ .write s.viewer object task id t.operation).toList)
  | .answered object task reply => (s.modify object (·.answered today task reply), [])

/-- What the next operation of a record meets: the day, and what is answered if it asks. -/
structure Reply where
  today : Int
  imported : Option ℕ
  answer : Option Answer

/-- The first operation of a record that has not settled goes on: it starts, the import that it
waits for is answered, it sends its request, or that is answered. -/
def goOn (object : ℕ) (reply : Reply) : Store :=
  match s.objects[object]?.bind RecordState.first with
  | none => s
  | some (n, .queued) => (s.step reply.today (.start object n)).1
  | some (_, .importing) => (s.step reply.today (.imported object reply.imported)).1
  | some (n, .resolved _) => (s.step reply.today (.resume object n)).1
  | some (n, .requesting) | some (n, .settled _) =>
    (s.step reply.today (.answered object n reply.answer)).1

end Store

/-- The store after some events, each with its day, and all that was sent. -/
def run (viewer : String) (events : List (Int × Event)) : Store × List Sent :=
  events.foldl (fun state event ↦
    ((state.1.step event.1 event.2).1, state.2 ++ (state.1.step event.1 event.2).2))
    (.empty viewer, [])

end AnyList.Editor.EditorStore
