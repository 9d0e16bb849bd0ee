import AnyList.Library.Members
import AnyList.Streaming.Account
import Mathlib.Data.Char
import Mathlib.Data.List.Lex
import Mathlib.Data.List.Sort

namespace AnyList.Delivery.QueuedPlayback

open AnyList.Library AnyList.Library.Newest AnyList.Streaming

/-- The texts of clocks: one that was read is written so that it reads back. -/
structure Clocks extends Reading where
  reads_back : ∀ text t, clock text = some t → clock (isoZ t) = some t

/-- A title with the IMDb identifiers of its metadata, where a missing one is empty. -/
structure Title extends Media where
  dataImdbId : String
  externalImdbId : String

/-- What a call reads: the owner's connections, their baselines, the connections whose own
playback a combined cycle decided on, and the TMDB and IMDb fields of a stored row. -/
structure Env where
  connections : List Connection
  baselines : ℕ → Option StreamBaseline
  combined : Option (ℕ → Option (List ℕ))
  identity : Row → Option String × String

inductive Payload
  | resume (row : Row) (observedAt : String) (sourceConnectionId : ℕ)
  | nextUp (contentId : String) (contentIds : List String) (tmdbId : Int) (imdbId : Option String)

structure Upsert where
  payload : Payload
  attempts : ℕ
  lastError : Option String

/-- A connection and a title. -/
abbrev Key := ℕ × ℕ

section identifiers

variable (reading : Reading)

def firstText (texts : List String) : String := (texts.find? (· ≠ "")).getD ""

def validImdbId (value : String) : Option String :=
  let candidate := reading.strip value
  let digits := candidate.toList.drop 2
  if "tt".toList <+: candidate.toList ∧ digits ≠ [] ∧ digits.all Char.isDigit then some candidate
  else none

namespace Title

variable (title : Title)

def imdb : String := title.imdbId.getD ""

def nuvioImdbId : Option String :=
  validImdbId reading (firstText [title.dataImdbId, title.externalImdbId, title.imdb])

def directImdbId : Option String :=
  validImdbId reading (firstText [title.imdb, title.dataImdbId, title.externalImdbId])

end Title

variable (env : Env) (title : Title) (stored : Stored)

def mappedKeys : List String :=
  (stored.mappings.entries.filter fun (_, tmdbId) ↦ decide (tmdbId = title.tmdbId)).map Prod.fst

/-- A stored row of the title adds the identifier it goes by. -/
def addAlias (ids : List String) (row : Row) : List String :=
  let contentId := reading.strip row.contentId
  let (tmdb, imdb) := env.identity row
  if row.contentType.any (· ≠ title.kind) ∨ contentId = "" then ids
  else if contentId ∈ ids ∨ tmdb = some (toString title.tmdbId) ∨
      title.nuvioImdbId reading = some imdb then ids ++ [contentId]
  else ids

def providerContentIds : List String :=
  let mapped := ((mappedKeys title stored).map reading.strip).filter (· ≠ "")
  let known := mapped ++ (title.nuvioImdbId reading).toList ++ ["tmdb:" ++ toString title.tmdbId]
  let ids := (stored.recordsProgress ++ stored.recordsWatched).foldl
    (addAlias reading env title) known
  ids.eraseDups.insertionSort fun id id' ↦ id.toList ≤ id'.toList

def contentIdForBaseline : Option String :=
  let matching := mappedKeys title stored
  let direct := title.directImdbId reading
  match direct.filter (· ∈ matching) with
  | some key => some key
  | none => ((matching.find? fun key ↦ (validImdbId reading key).isSome).or matching.head?).or direct

end identifiers

section payloads

variable (reading : Reading) (env : Env) (title : Title)

/-- What shows a series in Next Up again, on a Nuvio connection that was pulled. -/
def nextUpPayload (conn : Connection) : Option Payload :=
  if title.kind = .series ∧ conn.type = .nuvio then
    match env.baselines conn.id with
    | none => none
    | some baseline =>
      let contentIds := providerContentIds reading env title baseline.snapshot
      match contentIds with
      | [] => none
      | first :: _ =>
        let primary := contentIdForBaseline reading title baseline.snapshot
        some (.nextUp ((primary.filter (· ∈ contentIds)).getD first) contentIds title.tmdbId
          (title.nuvioImdbId reading))
  else none

def isDecided (conn : Connection) : Bool :=
  ((env.combined.bind fun playback ↦ playback title.id).any fun sources ↦ decide (conn.id ∈ sources))

def resumeKeys (stored : Stored) : List String :=
  let keys := mappedKeys title stored
  if keys = [] ∧ title.imdb ≠ "" then [title.imdb] else keys

def resumePayload (source : Connection) (record : Row) (changedAt : Int) (conn : Connection) :
    Option Payload :=
  if isDecided env title conn then none
  else match env.baselines conn.id with
    | none => none
    | some baseline =>
      if !baseline.approved then none
      else match resumeKeys title baseline.snapshot with
        | [] => none
        | first :: rest =>
          let key := ((first :: rest).find? fun key ↦
            (baseline.snapshot.progress.get key).isSome).getD first
          some (.resume { record with
              contentId := key
              contentType := some title.kind
              updatedAt := none
              modifiedAt := none } (reading.isoZ changedAt) source.id)

def Payload.observedAt : Payload → Option Int
  | .resume _ observedAt _ => reading.clock observedAt
  | .nextUp .. => none

end payloads

section queues

variable (reading : Reading) (env : Env) (title : Title)

/-- A show of Next Up takes the place of whatever is pending. -/
def queueShow (pending : Dict Key Upsert) (key : Key) (payload : Payload) : Dict Key Upsert :=
  pending.set key ⟨payload, 0, none⟩

/-- A resume takes the place of one that is not newer. -/
def queueResume (pending : Dict Key Upsert) (key : Key) (changedAt : Int) (payload : Payload) :
    Dict Key Upsert :=
  match pending.get key with
  | none => pending.set key ⟨payload, 0, none⟩
  | some existing =>
    if (existing.payload.observedAt reading).all (· ≤ changedAt) then
      pending.set key ⟨payload, 0, none⟩
    else pending

def queueNuvioNextUpShow (connections : List Connection) (pending : Dict Key Upsert) :
    Dict Key Upsert :=
  connections.foldl (fun pending conn ↦
    match nextUpPayload reading env title conn with
    | none => pending
    | some payload => queueShow pending (conn.id, title.id) payload) pending

/-- A Nuvio history date is no evidence of a change. -/
def evidenceClock (source : Connection) (record : Row) : Option Int :=
  if source.type = .nuvio then
    Row.changedAt reading record.updatedAt record.modifiedAt none none
  else record.providerChangedAt reading

def showsSource (source : Connection) : Bool :=
  decide (source.type = .nuvio) && source.pushPlayback && env.combined.isNone

def targets (source : Connection) : List Connection :=
  env.connections.filter fun conn ↦
    decide (conn.id ≠ source.id ∧ conn.type ≠ .mediaServer) && conn.pushPlayback

def queueProgressUpdate (source : Connection) (record : Row) (pending : Dict Key Upsert) :
    Dict Key Upsert :=
  match evidenceClock reading source record with
  | none => pending
  | some changedAt =>
    let shown := if showsSource env source then
        queueNuvioNextUpShow reading env title [source] pending
      else pending
    (targets env source).foldl (fun pending conn ↦
      match resumePayload reading env title source record changedAt conn with
      | none => pending
      | some payload => queueResume reading pending (conn.id, title.id) changedAt payload) shown

end queues

section calls

/-- A dispatch delivers, cancels or sets aside an action, fails to deliver it, or passes it over. -/
inductive Outcome
  | settled
  | failed (error : String)
  | skipped
  deriving DecidableEq

inductive Call
  | progress (env : Env) (source : Connection) (title : Title) (record : Row)
  | nextUp (env : Env) (title : Title) (connections : List Connection)
  | dispatch (outcome : Key → Outcome)

def Upsert.after (upsert : Upsert) : Outcome → Upsert
  | .failed error => { upsert with attempts := upsert.attempts + 1, lastError := some error }
  | _ => upsert

def dispatched (outcome : Key → Outcome) (pending : Dict Key Upsert) : Dict Key Upsert :=
  (pending.filterKeys fun key ↦ decide (outcome key ≠ .settled)).mapKeyed fun key upsert ↦
    upsert.after (outcome key)

/-- The pending upserts, beside the observations queued for each title since its last one was
delivered or given up. -/
structure Queue where
  pending : Dict Key Upsert
  log : List (Key × Int × Payload)

variable (reading : Reading)

def Call.apply : Call → Dict Key Upsert → Dict Key Upsert
  | .progress env source title record, pending =>
    queueProgressUpdate reading env title source record pending
  | .nextUp env title connections, pending =>
    queueNuvioNextUpShow reading env title connections pending
  | .dispatch outcome, pending => dispatched outcome pending

def observations (env : Env) (source : Connection) (title : Title) (record : Row)
    (changedAt : Int) : List (Key × Int × Payload) :=
  (targets env source).filterMap fun conn ↦
    (resumePayload reading env title source record changedAt conn).map fun payload ↦
      ((conn.id, title.id), changedAt, payload)

def shows (env : Env) (title : Title) (connections : List Connection) : List (Key × Payload) :=
  connections.filterMap fun conn ↦
    (nextUpPayload reading env title conn).map fun payload ↦ ((conn.id, title.id), payload)

/-- The observations a call queues. -/
def Call.observed : Call → List (Key × Int × Payload)
  | .progress env source title record =>
    match evidenceClock reading source record with
    | none => []
    | some changedAt => observations reading env source title record changedAt
  | _ => []

/-- The Next Up shows a call queues. -/
def Call.shown : Call → List (Key × Payload)
  | .progress env source title record =>
    if (evidenceClock reading source record).isSome ∧ showsSource env source then
      shows reading env title [source]
    else []
  | .nextUp env title connections => shows reading env title connections
  | .dispatch _ => []

def Call.logged : Call → List (Key × Int × Payload) → List (Key × Int × Payload)
  | .dispatch outcome, log => log.filter fun entry ↦ decide (outcome entry.1 ≠ .settled)
  | call, log => log ++ call.observed reading

def Queue.step (q : Queue) (call : Call) : Queue :=
  ⟨call.apply reading q.pending, call.logged reading q.log⟩

def Queue.empty : Queue := ⟨.empty, []⟩

/-- The queue after some calls, from one with nothing pending. -/
def run (calls : List Call) : Queue := calls.foldl (Queue.step reading) .empty

def observedFor (key : Key) (log : List (Key × Int × Payload)) : List (Int × Payload) :=
  (log.filter fun entry ↦ decide (entry.1 = key)).map Prod.snd

/-- The pending upsert of a title carries the newest observation queued for it. -/
def Queue.Current (q : Queue) : Prop :=
  ∀ key, observedFor key q.log ≠ [] → ∃ upsert t, q.pending.get key = some upsert ∧
    upsert.payload.observedAt reading = some t ∧
    IsNewest (observedFor key q.log) t upsert.payload

def Payload.IsResume : Payload → Prop
  | .resume .. => True
  | .nextUp .. => False

/-- No Next Up show is queued for a title whose pending upsert carries a resume. -/
def Call.KeepsResumes (call : Call) (pending : Dict Key Upsert) : Prop :=
  ∀ entry ∈ call.shown reading, ∀ upsert, pending.get entry.1 = some upsert →
    ¬upsert.payload.IsResume

end calls

section steps

variable {reading : Reading} {q : Queue} {key key' : Key} {payload : Payload} {t : Int}

/-- The queue after one show of Next Up, and after one observation. -/
def Queue.show (q : Queue) (entry : Key × Payload) : Queue :=
  { q with pending := queueShow q.pending entry.1 entry.2 }

def Queue.observe (reading : Reading) (q : Queue) (entry : Key × Int × Payload) : Queue :=
  ⟨queueResume reading q.pending entry.1 entry.2.1 entry.2.2, q.log ++ [entry]⟩

/-- Every observation reads back under its clock, and a pending resume was observed. -/
structure Queue.Recorded (reading : Reading) (q : Queue) : Prop where
  stamped : ∀ entry ∈ q.log, entry.2.2.observedAt reading = some entry.2.1
  observed : ∀ key upsert, q.pending.get key = some upsert → upsert.payload.IsResume →
    observedFor key q.log ≠ []

theorem observedFor_append (key : Key) (log log' : List (Key × Int × Payload)) :
    observedFor key (log ++ log') = observedFor key log ++ observedFor key log' := by
  simp [observedFor]

theorem observedFor_singleton_self (key : Key) (entry : Int × Payload) :
    observedFor key [(key, entry)] = [entry] := by
  simp [observedFor]

theorem observedFor_singleton_of_ne (h : key' ≠ key) (entry : Int × Payload) :
    observedFor key [(key', entry)] = [] := by
  simp [observedFor, h]

theorem isResume_of_observedAt (h : payload.observedAt reading = some t) :
    payload.IsResume := by
  cases payload with
  | resume row observedAt sourceId => trivial
  | nextUp contentId contentIds tmdbId imdbId => cases h

theorem observedAt_eq_none (h : ¬payload.IsResume) : payload.observedAt reading = none := by
  cases payload with
  | resume row observedAt sourceId => exact absurd trivial h
  | nextUp contentId contentIds tmdbId imdbId => rfl

theorem Queue.Recorded.show (h : q.Recorded reading) (key : Key) {payload : Payload}
    (hpayload : ¬payload.IsResume) : (q.show (key, payload)).Recorded reading where
  stamped := h.stamped
  observed key' upsert hget hresume := by
    rw [Queue.show, queueShow, Dict.get_set] at hget
    split_ifs at hget with hkey
    · obtain rfl := Option.some.inj hget
      exact absurd hresume hpayload
    · exact h.observed key' upsert hget hresume

/-- What an observation leaves pending: itself, or what was there where that is newer. -/
theorem get_queueResume (reading : Reading) (pending : Dict Key Upsert) (key : Key) (t : Int) (payload : Payload) :
    (∀ key', key ≠ key' →
      (queueResume reading pending key t payload).get key' = pending.get key') ∧
    ((queueResume reading pending key t payload).get key = some ⟨payload, 0, none⟩ ∧
        (∀ upsert t', pending.get key = some upsert →
          upsert.payload.observedAt reading = some t' → t' ≤ t) ∨
      (queueResume reading pending key t payload).get key = pending.get key ∧
        ∃ upsert t', pending.get key = some upsert ∧
          upsert.payload.observedAt reading = some t' ∧ t < t') := by
  rw [queueResume]
  cases hget : pending.get key with
  | none =>
    refine ⟨fun key' hkey ↦ pending.get_set_of_ne _ hkey, .inl ⟨pending.get_set_self key _, ?_⟩⟩
    rintro _ _ ⟨⟩
  | some existing =>
    dsimp only
    cases hat : existing.payload.observedAt reading with
    | none =>
      refine ⟨fun key' hkey ↦ pending.get_set_of_ne _ hkey, .inl ⟨pending.get_set_self key _, ?_⟩⟩
      rintro _ t' ⟨⟩ hat'
      rw [hat] at hat'
      cases hat'
    | some t' =>
      by_cases hle : t' ≤ t
      · have hall : (some t').all (fun x ↦ decide (x ≤ t)) = true := decide_eq_true hle
        rw [if_pos hall]
        refine ⟨fun key' hkey ↦ pending.get_set_of_ne _ hkey,
          .inl ⟨pending.get_set_self key _, ?_⟩⟩
        rintro _ t'' ⟨⟩ hat'
        rw [hat] at hat'
        obtain rfl := Option.some.inj hat'
        exact hle
      · have hall : ¬(some t').all (fun x ↦ decide (x ≤ t)) = true := by simpa using hle
        rw [if_neg hall]
        exact ⟨fun _ _ ↦ rfl, .inr ⟨hget, existing, t', rfl, hat, not_le.mp hle⟩⟩

theorem Queue.Recorded.observe (h : q.Recorded reading) (key : Key)
    (hpayload : payload.observedAt reading = some t) :
    (q.observe reading (key, t, payload)).Recorded reading where
  stamped entry hentry := by
    obtain hentry | hentry := List.mem_append.mp hentry
    · exact h.stamped entry hentry
    · obtain rfl := List.mem_singleton.mp hentry
      exact hpayload
  observed key' upsert hget hresume := by
    rw [Queue.observe, observedFor_append]
    by_cases hkey : key = key'
    · subst hkey
      rw [observedFor_singleton_self]
      exact List.append_ne_nil_of_right_ne_nil _ (List.cons_ne_nil _ _)
    · have hold := (get_queueResume reading q.pending key t payload).1 key' hkey
      exact List.append_ne_nil_of_left_ne_nil (h.observed key' upsert (hold ▸ hget) hresume) _

theorem Queue.Current.show (h : q.Current reading)
    (hkeeps : ∀ upsert, q.pending.get key = some upsert → ¬upsert.payload.IsResume) :
    (q.show (key, payload)).Current reading := by
  intro key' hlog
  obtain ⟨upsert, t, hget, hat, hnewest⟩ := h key' hlog
  refine ⟨upsert, t, ?_, hat, hnewest⟩
  have hne : key ≠ key' := by
    rintro rfl
    exact hkeeps upsert hget (isResume_of_observedAt hat)
  exact (q.pending.get_set_of_ne _ hne).trans hget

/-- One observation leaves the newest pending, whether it is the newest or not. -/
theorem Queue.Current.observe (h : q.Current reading) (hrecorded : q.Recorded reading) (key : Key) (hpayload : payload.observedAt reading = some t) :
    (q.observe reading (key, t, payload)).Current reading := by
  intro key' hlog
  obtain ⟨hothers, hself⟩ := get_queueResume reading q.pending key t payload
  rw [Queue.observe] at hlog ⊢
  rw [observedFor_append] at hlog ⊢
  by_cases hkey : key = key'
  · subst hkey
    rw [observedFor_singleton_self]
    obtain ⟨hget, hle⟩ | ⟨hget, existing, t', hold, hat, hlt⟩ := hself
    · refine ⟨_, t, hget, hpayload, ?_⟩
      by_cases hfirst : observedFor key q.log = []
      · rw [hfirst]
        exact isNewest_singleton t payload
      · obtain ⟨upsert, t', hpending, hat, hnewest⟩ := h key hfirst
        exact hnewest.concat_of_le (hle upsert t' hpending hat) payload
    · obtain ⟨upsert, t'', hpending, hat', hnewest⟩ :=
        h key (hrecorded.observed key existing hold (isResume_of_observedAt hat))
      obtain rfl : existing = upsert := Option.some.inj (hold.symm.trans hpending)
      obtain rfl : t' = t'' := Option.some.inj (hat.symm.trans hat')
      exact ⟨existing, t', hget.trans hold, hat, hnewest.concat_of_lt hlt payload⟩
  · rw [observedFor_singleton_of_ne hkey, List.append_nil] at hlog ⊢
    obtain ⟨upsert, t', hget, hat, hnewest⟩ := h key' hlog
    exact ⟨upsert, t', (hothers key' hkey).trans hget, hat, hnewest⟩

end steps

section calls

variable {clocks : Clocks} {env : Env} {source : Connection} {title : Title} {record : Row}
  {connections : List Connection} {q : Queue} {call : Call} {calls : List Call}

theorem exists_clock_of_changedAt {reading : Reading} {updatedAt modifiedAt watchedAt
    lastWatched : Option String} {t : Int}
    (h : Row.changedAt reading updatedAt modifiedAt watchedAt lastWatched = some t) :
    ∃ text, reading.clock text = some t := by
  have hfield {field : Option String} (hfield : field.bind reading.clock = some t) :
      ∃ text, reading.clock text = some t := by
    obtain ⟨text, -, htext⟩ := Option.bind_eq_some_iff.mp hfield
    exact ⟨text, htext⟩
  rw [Row.changedAt] at h
  obtain h | ⟨-, h⟩ := Option.or_eq_some_iff.mp h
  · exact hfield h
  obtain h | ⟨-, h⟩ := Option.or_eq_some_iff.mp h
  · exact hfield h
  obtain h | ⟨-, h⟩ := Option.or_eq_some_iff.mp h
  · exact hfield h
  · exact hfield h

theorem observedAt_resumePayload {conn : Connection} {payload : Payload} {t : Int}
    (hclock : evidenceClock clocks.toReading source record = some t)
    (h : resumePayload clocks.toReading env title source record t conn = some payload) :
    payload.observedAt clocks.toReading = some t := by
  obtain ⟨text, htext⟩ : ∃ text, clocks.clock text = some t := by
    rw [evidenceClock] at hclock
    split_ifs at hclock
    · exact exists_clock_of_changedAt hclock
    · exact exists_clock_of_changedAt hclock
  rw [resumePayload] at h
  split_ifs at h
  split at h
  · cases h
  · split_ifs at h
    split at h
    · cases h
    · obtain rfl := Option.some.inj h
      exact clocks.reads_back text t htext

theorem not_isResume_of_nextUpPayload {reading : Reading} {conn : Connection} {payload : Payload}
    (h : nextUpPayload reading env title conn = some payload) : ¬payload.IsResume := by
  rw [nextUpPayload] at h
  split_ifs at h
  split at h
  · cases h
  · dsimp only at h
    split at h
    · cases h
    · obtain rfl := Option.some.inj h
      exact id

theorem foldl_show (entries : List (Key × Payload)) (q : Queue) : entries.foldl Queue.show q =
    ⟨entries.foldl (fun pending entry ↦ queueShow pending entry.1 entry.2) q.pending, q.log⟩ := by
  induction entries generalizing q with
  | nil => rfl
  | cons entry entries ih => exact ih (q.show entry)

theorem foldl_observe (reading : Reading) (entries : List (Key × Int × Payload)) (q : Queue) :
    entries.foldl (Queue.observe reading) q =
      ⟨entries.foldl (fun pending entry ↦ queueResume reading pending entry.1 entry.2.1 entry.2.2)
        q.pending, q.log ++ entries⟩ := by
  induction entries generalizing q with
  | nil => simp
  | cons entry entries ih =>
    rw [List.foldl_cons, ih]
    simp [Queue.observe]

theorem queueNuvioNextUpShow_eq (reading : Reading) (env : Env) (title : Title)
    (connections : List Connection) (pending : Dict Key Upsert) :
    queueNuvioNextUpShow reading env title connections pending =
      (shows reading env title connections).foldl
        (fun pending entry ↦ queueShow pending entry.1 entry.2) pending := by
  rw [queueNuvioNextUpShow, shows, List.foldl_filterMap]
  congr 1
  funext pending conn
  cases nextUpPayload reading env title conn <;> rfl

/-- A call queues its shows first and its observations after them. -/
theorem apply_eq (reading : Reading) (call : Call) (hcall : ∀ outcome, call ≠ .dispatch outcome)
    (pending : Dict Key Upsert) : call.apply reading pending =
      (call.observed reading).foldl
        (fun pending entry ↦ queueResume reading pending entry.1 entry.2.1 entry.2.2)
        ((call.shown reading).foldl (fun pending entry ↦ queueShow pending entry.1 entry.2)
          pending) := by
  cases call with
  | dispatch outcome => exact absurd rfl (hcall outcome)
  | nextUp env title connections => exact queueNuvioNextUpShow_eq reading env title _ pending
  | progress env source title record =>
    simp only [Call.apply, Call.observed, Call.shown, queueProgressUpdate]
    cases evidenceClock reading source record with
    | none => simp
    | some changedAt =>
      simp only [Option.isSome_some, true_and, observations, List.foldl_filterMap,
        queueNuvioNextUpShow_eq]
      congr 1
      · funext pending conn
        cases resumePayload reading env title source record changedAt conn <;> rfl
      · split_ifs <;> rfl

theorem step_eq (reading : Reading) (q : Queue) (call : Call)
    (hcall : ∀ outcome, call ≠ .dispatch outcome) : q.step reading call =
      (call.observed reading).foldl (Queue.observe reading)
        ((call.shown reading).foldl Queue.show q) := by
  rw [foldl_observe, foldl_show, Queue.step, apply_eq reading call hcall]
  congr 1
  cases call with
  | dispatch outcome => exact absurd rfl (hcall outcome)
  | nextUp env title connections => rfl
  | progress env source title record => rfl

/-- What a call shows is no resume, and what it observes reads back under its clock. -/
theorem not_isResume_of_mem_shown {reading : Reading} {entry : Key × Payload}
    (h : entry ∈ call.shown reading) : ¬entry.2.IsResume := by
  have hshows {env : Env} {title : Title} {connections : List Connection}
      (h : entry ∈ shows reading env title connections) : ¬entry.2.IsResume := by
    obtain ⟨conn, -, hmap⟩ := List.mem_filterMap.mp h
    obtain ⟨payload, hpayload, rfl⟩ := Option.map_eq_some_iff.mp hmap
    exact not_isResume_of_nextUpPayload hpayload
  cases call with
  | dispatch outcome => cases h
  | nextUp env title connections => exact hshows h
  | progress env source title record =>
    rw [Call.shown] at h
    split_ifs at h
    · exact hshows h
    · cases h

theorem observedAt_of_mem_observed {entry : Key × Int × Payload}
    (h : entry ∈ call.observed clocks.toReading) :
    entry.2.2.observedAt clocks.toReading = some entry.2.1 := by
  cases call with
  | dispatch outcome => cases h
  | nextUp env title connections => cases h
  | progress env source title record =>
    rw [Call.observed] at h
    cases hclock : evidenceClock clocks.toReading source record with
    | none =>
      rw [hclock] at h
      cases h
    | some t =>
      rw [hclock] at h
      obtain ⟨conn, -, hmap⟩ := List.mem_filterMap.mp h
      obtain ⟨payload, hpayload, rfl⟩ := Option.map_eq_some_iff.mp hmap
      exact observedAt_resumePayload hclock hpayload

/-- A call observes no title that it shows. -/
theorem fst_ne_of_mem_shown {reading : Reading} {shown : Key × Payload} {entry : Key × Int × Payload}
    (hshown : shown ∈ call.shown reading) (hentry : entry ∈ call.observed reading) :
    entry.1 ≠ shown.1 := by
  cases call with
  | dispatch outcome => cases hentry
  | nextUp env title connections => cases hentry
  | progress env source title record =>
    rw [Call.observed] at hentry
    split at hentry
    · cases hentry
    · rw [Call.shown] at hshown
      split_ifs at hshown
      · obtain ⟨conn, hconn, hpayload⟩ := List.mem_filterMap.mp hshown
        obtain ⟨_, -, rfl⟩ := Option.map_eq_some_iff.mp hpayload
        obtain rfl := List.mem_singleton.mp hconn
        obtain ⟨target, htarget, hpayload'⟩ := List.mem_filterMap.mp hentry
        obtain ⟨_, -, rfl⟩ := Option.map_eq_some_iff.mp hpayload'
        have hid : target.id ≠ conn.id := by
          have hne := (List.mem_filter.mp htarget).2
          rw [Bool.and_eq_true, decide_eq_true_eq] at hne
          exact hne.1.1
        exact fun heq ↦ hid (congrArg Prod.fst heq)
      · cases hshown

end calls

section runs

variable {clocks : Clocks} {q : Queue} {call : Call} {calls : List Call}

theorem recorded_foldl_show {reading : Reading} {entries : List (Key × Payload)}
    (h : q.Recorded reading) (hentries : ∀ entry ∈ entries, ¬entry.2.IsResume) :
    (entries.foldl Queue.show q).Recorded reading := by
  induction entries generalizing q with
  | nil => exact h
  | cons entry entries ih =>
    exact ih (h.show entry.1 (hentries entry List.mem_cons_self))
      fun entry' hentry' ↦ hentries entry' (List.mem_cons_of_mem entry hentry')

theorem recorded_foldl_observe {reading : Reading} {entries : List (Key × Int × Payload)}
    (h : q.Recorded reading)
    (hentries : ∀ entry ∈ entries, entry.2.2.observedAt reading = some entry.2.1) :
    (entries.foldl (Queue.observe reading) q).Recorded reading := by
  induction entries generalizing q with
  | nil => exact h
  | cons entry entries ih =>
    exact ih (h.observe entry.1 (hentries entry List.mem_cons_self))
      fun entry' hentry' ↦ hentries entry' (List.mem_cons_of_mem entry hentry')

/-- Shows of titles without a pending resume. -/
theorem current_foldl_show {reading : Reading} {entries : List (Key × Payload)}
    (h : q.Current reading) (hentries : ∀ entry ∈ entries, ¬entry.2.IsResume)
    (hkeeps : ∀ entry ∈ entries, ∀ upsert, q.pending.get entry.1 = some upsert →
      ¬upsert.payload.IsResume) :
    (entries.foldl Queue.show q).Current reading := by
  induction entries generalizing q with
  | nil => exact h
  | cons entry entries ih =>
    refine ih (h.show (hkeeps entry List.mem_cons_self))
      (fun entry' hentry' ↦ hentries entry' (List.mem_cons_of_mem entry hentry')) ?_
    intro entry' hentry' upsert hget
    rw [Queue.show, queueShow, Dict.get_set] at hget
    split_ifs at hget
    · obtain rfl := Option.some.inj hget
      exact hentries entry List.mem_cons_self
    · exact hkeeps entry' (List.mem_cons_of_mem entry hentry') upsert hget

theorem current_foldl_observe {reading : Reading} {entries : List (Key × Int × Payload)}
    (h : q.Current reading) (hrecorded : q.Recorded reading)
    (hentries : ∀ entry ∈ entries, entry.2.2.observedAt reading = some entry.2.1) :
    (entries.foldl (Queue.observe reading) q).Current reading := by
  induction entries generalizing q with
  | nil => exact h
  | cons entry entries ih =>
    have hentry := hentries entry List.mem_cons_self
    exact ih (h.observe hrecorded entry.1 hentry) (hrecorded.observe entry.1 hentry)
      fun entry' hentry' ↦ hentries entry' (List.mem_cons_of_mem entry hentry')

/-- The last show of a title is pending, whatever was before. -/
theorem get_foldl_show {entries : List (Key × Payload)} {shown : Key × Payload}
    (hshown : shown ∈ entries) (hentries : ∀ entry ∈ entries, ¬entry.2.IsResume) :
    ∃ upsert, (entries.foldl Queue.show q).pending.get shown.1 = some upsert ∧
      ¬upsert.payload.IsResume := by
  induction entries using List.reverseRecOn with
  | nil => cases hshown
  | append_singleton entries last ih =>
    rw [List.foldl_append]
    by_cases hkey : last.1 = shown.1
    · refine ⟨⟨last.2, 0, none⟩, ?_, hentries last (by simp)⟩
      exact (Dict.get_set ..).trans (if_pos hkey)
    · have hmem : shown ∈ entries := by
        obtain hmem | hmem := List.mem_append.mp hshown
        · exact hmem
        · exact absurd (congrArg Prod.fst (List.mem_singleton.mp hmem)).symm hkey
      obtain ⟨upsert, hget, hresume⟩ :=
        ih hmem fun entry hentry ↦ hentries entry (List.mem_append_left _ hentry)
      exact ⟨upsert, (Dict.get_set_of_ne _ _ hkey).trans hget, hresume⟩

theorem get_foldl_observe {reading : Reading} {entries : List (Key × Int × Payload)} {key : Key}
    (hentries : ∀ entry ∈ entries, entry.1 ≠ key) :
    (entries.foldl (Queue.observe reading) q).pending.get key = q.pending.get key := by
  induction entries generalizing q with
  | nil => rfl
  | cons entry entries ih =>
    rw [List.foldl_cons, ih fun entry' hentry' ↦ hentries entry' (List.mem_cons_of_mem entry hentry')]
    exact (get_queueResume reading q.pending entry.1 entry.2.1 entry.2.2).1 key
      (hentries entry List.mem_cons_self)

section dispatch

variable {reading : Reading} {outcome : Key → Outcome} {key : Key}

theorem get_dispatched (pending : Dict Key Upsert) : (dispatched outcome pending).get key =
    if outcome key = .settled then none
    else (pending.get key).map fun upsert ↦ upsert.after (outcome key) := by
  rw [dispatched, Dict.get_mapKeyed, Dict.get_filterKeys]
  by_cases h : outcome key = .settled <;> simp [h]

@[simp] theorem payload_after (upsert : Upsert) (outcome : Outcome) :
    (upsert.after outcome).payload = upsert.payload := by
  cases outcome <;> rfl

theorem observedFor_dispatched (log : List (Key × Int × Payload)) :
    observedFor key (log.filter fun entry ↦ decide (outcome entry.1 ≠ .settled)) =
      if outcome key = .settled then [] else observedFor key log := by
  rw [observedFor, List.filter_filter]
  split_ifs with h
  · refine List.map_eq_nil_iff.mpr (List.filter_eq_nil_iff.mpr fun entry _ hentry ↦ ?_)
    simp only [Bool.and_eq_true, decide_eq_true_eq] at hentry
    exact hentry.2 (hentry.1 ▸ h)
  · rw [observedFor]
    congr 1
    refine List.filter_congr fun entry _ ↦ ?_
    by_cases hkey : entry.1 = key <;> simp [hkey, h]

theorem Queue.Recorded.dispatch (h : q.Recorded reading) (outcome : Key → Outcome) :
    (q.step reading (.dispatch outcome)).Recorded reading where
  stamped entry hentry := h.stamped entry (List.mem_of_mem_filter hentry)
  observed key upsert hget hresume := by
    simp only [Queue.step, Call.apply, Call.logged, get_dispatched] at hget ⊢
    rw [observedFor_dispatched]
    split_ifs at hget ⊢ with hsettled
    obtain ⟨old, hold, rfl⟩ := Option.map_eq_some_iff.mp hget
    exact h.observed key old hold (by simpa using hresume)

theorem Queue.Current.dispatch (h : q.Current reading) (outcome : Key → Outcome) :
    (q.step reading (.dispatch outcome)).Current reading := by
  intro key hlog
  simp only [Queue.step, Call.apply, Call.logged, get_dispatched] at hlog ⊢
  rw [observedFor_dispatched] at hlog ⊢
  split_ifs at hlog ⊢ with hsettled
  · exact absurd rfl hlog
  · obtain ⟨upsert, t, hget, hat, hnewest⟩ := h key hlog
    exact ⟨upsert.after (outcome key), t, by rw [hget, Option.map_some], by simpa using hat,
      by simpa using hnewest⟩

end dispatch

theorem Queue.Recorded.step (h : q.Recorded clocks.toReading) (call : Call) :
    (q.step clocks.toReading call).Recorded clocks.toReading := by
  by_cases hcall : ∃ outcome, call = .dispatch outcome
  · obtain ⟨outcome, rfl⟩ := hcall
    exact h.dispatch outcome
  · rw [step_eq _ q call (not_exists.mp hcall)]
    exact recorded_foldl_observe (recorded_foldl_show h fun _ ↦ not_isResume_of_mem_shown)
      fun _ ↦ observedAt_of_mem_observed

/-- A call that shows no title with a pending resume leaves the newest observations pending. -/
theorem Queue.Current.step (h : q.Current clocks.toReading)
    (hrecorded : q.Recorded clocks.toReading)
    (hkeeps : call.KeepsResumes clocks.toReading q.pending) :
    (q.step clocks.toReading call).Current clocks.toReading := by
  by_cases hcall : ∃ outcome, call = .dispatch outcome
  · obtain ⟨outcome, rfl⟩ := hcall
    exact h.dispatch outcome
  · rw [step_eq _ q call (not_exists.mp hcall)]
    exact current_foldl_observe
      (current_foldl_show h (fun _ ↦ not_isResume_of_mem_shown) hkeeps)
      (recorded_foldl_show hrecorded fun _ ↦ not_isResume_of_mem_shown)
      fun _ ↦ observedAt_of_mem_observed

/-- A call that shows a title with a pending resume loses it. -/
theorem keepsResumes_of_current (hrecorded : q.Recorded clocks.toReading)
    (h : (q.step clocks.toReading call).Current clocks.toReading) :
    call.KeepsResumes clocks.toReading q.pending := by
  intro shown hshown upsert hget hresume
  have hcall (outcome : Key → Outcome) : call ≠ .dispatch outcome := by
    rintro rfl
    cases hshown
  rw [step_eq _ q call hcall] at h
  have hlog := hrecorded.observed shown.1 upsert hget hresume
  obtain ⟨upsert', t, hget', hat, -⟩ := h shown.1 (by
    rw [foldl_observe, foldl_show, observedFor_append]
    exact List.append_ne_nil_of_left_ne_nil hlog _)
  rw [get_foldl_observe fun entry ↦ fst_ne_of_mem_shown hshown] at hget'
  obtain ⟨last, hlast, hnot⟩ := get_foldl_show (q := q) hshown fun _ ↦ not_isResume_of_mem_shown
  obtain rfl : last = upsert' := Option.some.inj (hlast.symm.trans hget')
  exact hnot (isResume_of_observedAt hat)

theorem run_concat (reading : Reading) (calls : List Call) (call : Call) :
    run reading (calls ++ [call]) = (run reading calls).step reading call := by
  rw [run, List.foldl_append]
  rfl

theorem recorded_run (clocks : Clocks) (calls : List Call) :
    (run clocks.toReading calls).Recorded clocks.toReading := by
  induction calls using List.reverseRecOn with
  | nil => exact ⟨by simp [run, Queue.empty], by simp [run, Queue.empty]⟩
  | append_singleton calls call ih =>
    rw [run_concat]
    exact ih.step call

/-- The newest observation of every title stays pending in every state of a run if and only if
no call queues a Next Up show for a title whose pending upsert carries a resume. -/
theorem current_run_iff (clocks : Clocks) (calls : List Call) :
    (∀ earlier, earlier <+: calls → (run clocks.toReading earlier).Current clocks.toReading) ↔
      ∀ earlier call, earlier ++ [call] <+: calls →
        call.KeepsResumes clocks.toReading (run clocks.toReading earlier).pending := by
  refine ⟨fun h earlier call hprefix ↦ ?_, fun h earlier ↦ ?_⟩
  · refine keepsResumes_of_current (recorded_run clocks earlier) ?_
    rw [← run_concat]
    exact h _ hprefix
  · induction earlier using List.reverseRecOn with
    | nil => exact fun _ key hlog ↦ absurd rfl hlog
    | append_singleton earlier call ih =>
      intro hprefix
      rw [run_concat]
      exact (ih ((List.prefix_append earlier [call]).trans hprefix)).step
        (recorded_run clocks earlier) (h earlier call hprefix)

end runs

section overwritten

/-- A reader that knows the first two days of 2026. -/
def newYear : Clocks where
  clock text := if text = "2026-01-01T00:00:00Z" then some 1767225600000000
    else if text = "2026-01-02T00:00:00Z" then some 1767312000000000 else none
  watchDate _ := none
  isoZ t := if t = 1767225600000000 then "2026-01-01T00:00:00Z" else "2026-01-02T00:00:00Z"
  strip text := text
  int _ := none
  reads_back text t h := by
    split_ifs at h
    · obtain rfl := Option.some.inj h
      rfl
    · obtain rfl := Option.some.inj h
      rfl

def stremioAccount : Connection := ⟨1, "Stremio", .stremio, true, true⟩

def nuvioAccount : Connection := ⟨2, "Nuvio", .nuvio, true, true⟩

def series : Title where
  id := 9
  kind := .series
  tmdbId := 1396
  imdbId := some "tt0903747"
  dataImdbId := ""
  externalImdbId := "tt0903747"

def bothAccounts : Env where
  connections := [stremioAccount, nuvioAccount]
  baselines _ := some ⟨{ Stored.empty with mappings := Dict.empty.set "tt0903747" 1396 }, true, none⟩
  combined := none
  identity _ := (none, "")

def resumeAt (position : ℚ) (updatedAt : String) : Row where
  contentId := "tt0903747"
  contentType := some .series
  season := some 1
  episode := some 2
  position := some position
  duration := some 2700000
  watchedTime := none
  watchedAt := none
  lastWatched := none
  updatedAt := some updatedAt
  modifiedAt := none
  dateShared := false

/-- A newer resume from Stremio, an older one from Nuvio and an older one from Stremio. -/
def mixedPulls : List Call :=
  [.progress bothAccounts stremioAccount series (resumeAt 900000 "2026-01-02T00:00:00Z"),
    .progress bothAccounts nuvioAccount series (resumeAt 300000 "2026-01-01T00:00:00Z"),
    .progress bothAccounts stremioAccount series (resumeAt 600000 "2026-01-01T00:00:00Z")]

/-- The show that the Nuvio pull queues drops the newer resume, and the older one stays. -/
theorem older_resume_kept : ¬(run newYear.toReading mixedPulls).Current newYear.toReading := by
  intro h
  have hat : ((run newYear.toReading mixedPulls).pending.get (2, 9)).bind
      (fun upsert ↦ upsert.payload.observedAt newYear.toReading) = some 1767225600000000 := by
    decide +kernel
  have hlog : (observedFor (2, 9) (run newYear.toReading mixedPulls).log).map Prod.fst =
      [1767312000000000, 1767225600000000] := by
    decide +kernel
  obtain ⟨upsert, t, hget, hobserved, hnewest⟩ := h (2, 9) fun hnil ↦ by simp [hnil] at hlog
  rw [hget, Option.bind_some, hobserved] at hat
  obtain ⟨entry, hentry, hclock⟩ :=
    List.mem_map.mp (hlog ▸ List.mem_cons_self : (1767312000000000 : Int) ∈ _)
  have hle := hnewest.le entry hentry
  rw [hclock, Option.some.inj hat] at hle
  omega

end overwritten

end AnyList.Delivery.QueuedPlayback
