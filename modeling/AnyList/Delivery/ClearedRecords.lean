import AnyList.Delivery.StremioClear
import AnyList.Library.Partial

namespace AnyList.Delivery.StremioClear

open AnyList.Library AnyList.Library.Octets AnyList.Library.Json

/-- The fields of a record that a clear may change. -/
def changedKeys (sel : Selection) : List String :=
  "_mtime" :: ((if sel.collection then ["removed", "temp"] else []) ++
    if sel.view then ["state"] else [])

/-- The written record differs from the read one in its modification time and in the fields of
the selected categories alone. -/
structure FramedBy (sel : Selection) (record written : Fields) : Prop where
  fields : ∀ key, key ∉ (changedKeys sel).map text →
    Dict.getEntry key written = Dict.getEntry key record
  state : ∀ key, key ∉ sel.resets.map (fun reset ↦ text reset.1) →
    Dict.getEntry key (stateOf written) = Dict.getEntry key (stateOf record)

def HoldsSelected (sel : Selection) (record : Fields) : Prop :=
  (sel.collection = true ∧ truthy (get "removed" record) = false) ∨
    (sel.watched = true ∧ watchedHeld (stateOf record) = true) ∨
    (sel.playback = true ∧ playbackHeld (stateOf record) = true)

/-- A record that a clear was given to read before its writes. -/
def WasRead (replies : Replies) (record : Fields) : Prop :=
  (∃ rows, datastoreGet replies.library = some rows ∧ record ∈ rows) ∨
    ∃ i rows, datastoreGet (replies.viewRows i) = some rows ∧ record ∈ rows

section frames

variable {sel sel' : Selection} {now : Text} {record written written' : Fields} {key : Text}

theorem FramedBy.trans (h : FramedBy sel record written) (h' : FramedBy sel written written') :
    FramedBy sel record written' where
  fields key hkey := (h'.fields key hkey).trans (h.fields key hkey)
  state key hkey := (h'.state key hkey).trans (h.state key hkey)

theorem getEntry_update_of_ne {name : String} {value : Value} {fields : Fields}
    (h : key ≠ text name) : Dict.getEntry key (update name value fields) = Dict.getEntry key fields := by
  rw [update, Dict.getEntry_setEntry, if_neg h.symm]

theorem getEntry_update_self {name : String} {value : Value} {fields : Fields} :
    Dict.getEntry (text name) (update name value fields) = some value := by
  rw [update, Dict.getEntry_setEntry, if_pos rfl]

theorem getEntry_updateAll {values : List (String × Value)} {fields : Fields}
    (h : key ∉ values.map fun value ↦ text value.1) :
    Dict.getEntry key (updateAll values fields) = Dict.getEntry key fields := by
  induction values generalizing fields with
  | nil => rfl
  | cons value values ih =>
    rw [List.map_cons, List.mem_cons, not_or] at h
    rw [updateAll, List.foldl_cons, ← updateAll, ih h.2, getEntry_update_of_ne h.1]

theorem stateOf_congr (h : Dict.getEntry (text "state") written = Dict.getEntry (text "state") record) :
    stateOf written = stateOf record := by
  rw [stateOf, stateOf, get, get, h]

theorem idOf_congr (h : Dict.getEntry (text "_id") written = Dict.getEntry (text "_id") record) :
    idOf written = idOf record := by
  rw [idOf, idOf, get, get, h]

theorem framed_clearedView (hview : sel.view = true) (now : Text) (record : Fields) :
    FramedBy sel record (clearedView sel now record) := by
  refine ⟨fun key hkey ↦ ?_, fun key hkey ↦ ?_⟩
  · rw [changedKeys, hview] at hkey
    simp only [if_true, List.map_cons, List.map_append, List.mem_cons, List.mem_append, not_or,
      List.map_nil, List.not_mem_nil] at hkey
    rw [clearedView, getEntry_update_of_ne hkey.1, getEntry_update_of_ne hkey.2.2.1]
  · have hstate : stateOf (clearedView sel now record) = updateAll sel.resets (stateOf record) := by
      rw [stateOf, get, clearedView, getEntry_update_of_ne (by decide), getEntry_update_self]
      rfl
    rw [hstate, getEntry_updateAll hkey]

theorem framed_tombstone (hcollection : sel.collection = true) (now : Text) (record : Fields) :
    FramedBy sel record (tombstone now record) := by
  refine ⟨fun key hkey ↦ ?_, fun key _ ↦ ?_⟩
  · rw [changedKeys, hcollection] at hkey
    simp only [if_true, List.map_cons, List.map_append, List.mem_cons, List.mem_append, not_or,
      List.map_nil, List.not_mem_nil] at hkey
    rw [tombstone, getEntry_update_of_ne hkey.1, getEntry_update_of_ne hkey.2.1.2.1,
      getEntry_update_of_ne hkey.2.1.1]
  · rw [stateOf_congr]
    rw [tombstone, getEntry_update_of_ne (by decide), getEntry_update_of_ne (by decide),
      getEntry_update_of_ne (by decide)]

theorem idOf_clearedView (sel : Selection) (now : Text) (record : Fields) :
    idOf (clearedView sel now record) = idOf record := by
  refine idOf_congr ?_
  rw [clearedView, getEntry_update_of_ne (by decide), getEntry_update_of_ne (by decide)]

theorem idOf_tombstone (now : Text) (record : Fields) : idOf (tombstone now record) = idOf record := by
  refine idOf_congr ?_
  rw [tombstone, getEntry_update_of_ne (by decide), getEntry_update_of_ne (by decide),
    getEntry_update_of_ne (by decide)]

end frames

section batches

variable {α : Type*} {items : List α}

theorem flatten_batches (items : List α) : (batches items).flatten = items := by
  have hprefix : ∀ k, ((List.range k).map fun i ↦
      (items.drop (i * writeBatchSize)).take writeBatchSize).flatten =
        items.take (k * writeBatchSize) := by
    intro k
    induction k with
    | zero => simp
    | succ k ih =>
      rw [List.range_succ, List.map_append, List.flatten_append, ih, Nat.succ_mul, List.take_add]
      simp
  rw [batches, hprefix]
  refine List.take_of_length_le ?_
  rw [writeBatchSize]
  omega

theorem mem_of_mem_batches {batch : List α} {a : α} (h : batch ∈ batches items) (ha : a ∈ batch) :
    a ∈ items := by
  rw [← flatten_batches items]
  exact List.mem_flatten.mpr ⟨batch, h, ha⟩

theorem mem_datastorePut {ack : ℕ → Bool} {i : ℕ} {sent : List (List Fields)} {batch : List Fields}
    (h : batch ∈ (datastorePut ack i sent).1) : batch ∈ sent := by
  induction sent generalizing i with
  | nil => exact h
  | cons first rest ih =>
    rw [datastorePut] at h
    split_ifs at h
    · obtain rfl | hrest := List.mem_cons.mp h
      · exact List.mem_cons_self
      · exact List.mem_cons_of_mem first (ih hrest)
    · rw [List.mem_singleton.mp h]
      exact List.mem_cons_self

theorem datastorePut_all {ack : ℕ → Bool} {i : ℕ} {sent : List (List Fields)}
    (h : (datastorePut ack i sent).2 = true) : (datastorePut ack i sent).1 = sent := by
  induction sent generalizing i with
  | nil => rfl
  | cons first rest ih =>
    rw [datastorePut] at h ⊢
    split_ifs at h with hack
    rw [if_pos hack, ih h]

/-- What is sent of some writes comes from them. -/
theorem mem_of_sent {ack : ℕ → Bool} {writes : List (Text × Fields)} {batch : List Fields}
    {written : Fields} (h : batch ∈ (datastorePut ack 0 (sentRecords writes)).1)
    (hw : written ∈ batch) : ∃ id, (id, written) ∈ writes := by
  obtain ⟨entries, hentries, rfl⟩ := List.mem_map.mp (mem_datastorePut h)
  obtain ⟨entry, hentry, rfl⟩ := List.mem_map.mp hw
  exact ⟨entry.1, mem_of_mem_batches hentries hentry⟩

theorem sent_of_mem {ack : ℕ → Bool} {writes : List (Text × Fields)} {entry : Text × Fields}
    (h : (datastorePut ack 0 (sentRecords writes)).2 = true) (hentry : entry ∈ writes) :
    ∃ batch ∈ (datastorePut ack 0 (sentRecords writes)).1, entry.2 ∈ batch := by
  rw [datastorePut_all h]
  rw [← flatten_batches writes] at hentry
  obtain ⟨batch, hbatch, hmem⟩ := List.mem_flatten.mp hentry
  exact ⟨_, List.mem_map_of_mem hbatch, List.mem_map_of_mem hmem⟩

end batches

section reads

variable {isSpace : ℕ → Bool} {sel : Selection} {now : Text} {replies : Replies}
  {records : List Fields} {library current : List (Text × Fields)} {entry : Text × Fields}

theorem of_readRecord {record : Fields} (h : readRecord isSpace record = some entry) :
    entry.2 = record ∧ idOf record = some entry.1 := by
  simp only [readRecord, Option.bind_eq_bind, Option.bind_eq_some_iff] at h
  obtain ⟨id, hid, h⟩ := h
  split_ifs at h
  obtain rfl := Option.some.inj h
  exact ⟨rfl, hid⟩

theorem of_byId (h : byId isSpace records = some library) :
    (∀ entry ∈ library, entry.2 ∈ records ∧ idOf entry.2 = some entry.1) ∧
      ∀ record ∈ records, ∃ entry ∈ library, entry.2 = record := by
  simp only [byId, Option.bind_eq_bind, Option.bind_eq_some_iff] at h
  obtain ⟨read, hread, h⟩ := h
  split_ifs at h
  obtain rfl := Option.some.inj h
  constructor
  · intro entry hentry
    obtain ⟨record, hrecord, hone⟩ := Partial.exists_of_mem_mapM hread hentry
    obtain ⟨rfl, hid⟩ := of_readRecord hone
    exact ⟨hrecord, hid⟩
  · intro record hrecord
    obtain ⟨entry, hentry, hone⟩ := Partial.exists_mem_of_mapM hread hrecord
    exact ⟨entry, hentry, (of_readRecord hone).1⟩

theorem of_confirmed {rows : List Fields} {id : Text} {row : Fields}
    (h : confirmed rows id = some row) : row ∈ rows ∧ idOf row = some id := by
  have hmem := List.mem_of_getLast? h
  exact ⟨List.mem_of_mem_filter hmem, of_decide_eq_true (List.mem_filter.mp hmem).2⟩

/-- What was read back of the written records: each under its identifier. -/
theorem of_confirmView {i : ℕ} {parts : List (List (Text × Fields))}
    (h : confirmView sel replies i parts = some current) :
    (∀ entry ∈ current, idOf entry.2 = some entry.1 ∧ ∃ j rows,
      datastoreGet (replies.viewRows j) = some rows ∧ entry.2 ∈ rows) ∧
    ∀ entry ∈ parts.flatten, ∃ entry' ∈ current, entry'.1 = entry.1 := by
  induction parts generalizing i current with
  | nil =>
    obtain rfl := Option.some.inj h
    simp
  | cons batch rest ih =>
    simp only [confirmView, Option.bind_eq_bind, Option.bind_eq_some_iff, Option.pure_def,
      Option.some.injEq] at h
    obtain ⟨rows, hrows, read, hread, later, hlater, rfl⟩ := h
    obtain ⟨hof, hall⟩ := ih hlater
    have hone : ∀ {entry entry' : Text × Fields}, ((confirmed rows entry.1).bind fun row ↦
        if viewConfirmed sel row then some (entry.1, row) else none) = some entry' →
          entry'.1 = entry.1 ∧ confirmed rows entry.1 = some entry'.2 := by
      intro entry entry' hbind
      obtain ⟨row, hrow, hif⟩ := Option.bind_eq_some_iff.mp hbind
      split_ifs at hif
      obtain rfl := Option.some.inj hif
      exact ⟨rfl, hrow⟩
    constructor
    · intro entry hentry
      obtain hnow | hrest := List.mem_append.mp hentry
      · obtain ⟨written, -, hbind⟩ := Partial.exists_of_mem_mapM hread hnow
        obtain ⟨hid, hrow⟩ := hone hbind
        obtain ⟨hmem, hidOf⟩ := of_confirmed hrow
        exact ⟨hidOf.trans (congrArg some hid.symm), i, rows, hrows, hmem⟩
      · exact hof entry hrest
    · intro entry hentry
      rw [List.flatten_cons] at hentry
      obtain hnow | hrest := List.mem_append.mp hentry
      · obtain ⟨entry', hentry', hbind⟩ := Partial.exists_mem_of_mapM hread hnow
        exact ⟨entry', List.mem_append_left _ hentry', (hone hbind).1⟩
      · obtain ⟨entry', hentry', hid⟩ := hall entry hrest
        exact ⟨entry', List.mem_append_right _ hentry', hid⟩

end reads

section clears

variable {isSpace : ℕ → Bool} {sel : Selection} {now : Text} {replies : Replies}

/-- The records that the viewing data was cleared of, or the library where it stays. -/
def CurrentOf (sel : Selection) (now : Text) (replies : Replies)
    (library current : List (Text × Fields)) : Prop :=
  if sel.view then confirmView sel replies 0 (batches (viewWrites sel now library)) = some current
  else current = library

/-- How far a clear comes. -/
inductive Course (isSpace : ℕ → Bool) (sel : Selection) (now : Text) (replies : Replies) :
    Outcome → Prop
  | refused : Course isSpace sel now replies ⟨[], none⟩
  | view (records : List Fields) (library : List (Text × Fields))
      (hget : datastoreGet replies.library = some records) (hlibrary : byId isSpace records = some library) :
      Course isSpace sel now replies
        ⟨(datastorePut replies.viewAck 0 (sentRecords (viewWrites sel now library))).1, none⟩
  | collection (records : List Fields) (library current : List (Text × Fields))
      (hget : datastoreGet replies.library = some records) (hlibrary : byId isSpace records = some library)
      (hput : (datastorePut replies.viewAck 0 (sentRecords (viewWrites sel now library))).2 = true)
      (hcurrent : CurrentOf sel now replies library current)
      (hselected : (sel.collection || sel.view) = true) :
      Course isSpace sel now replies (clearCollection isSpace sel now replies
        (datastorePut replies.viewAck 0 (sentRecords (viewWrites sel now library))).1 library.length
        current)

theorem course (isSpace : ℕ → Bool) (sel : Selection) (now : Text) (replies : Replies) :
    Course isSpace sel now replies (clearDatastoreData isSpace sel now replies) := by
  rw [clearDatastoreData]
  by_cases hnone : (sel.collection || sel.view) = true
  · rw [if_neg (by simp [hnone])]
    cases hread : (datastoreGet replies.library).bind (byId isSpace) with
    | none => exact .refused
    | some library =>
      obtain ⟨records, hget, hlibrary⟩ := Option.bind_eq_some_iff.mp hread
      dsimp only
      split_ifs with hput hview
      · exact .view records library hget hlibrary
      · cases hconfirm : confirmView sel replies 0 (batches (viewWrites sel now library)) with
        | none => exact .view records library hget hlibrary
        | some current =>
          refine .collection records library current hget hlibrary (by simpa using hput) ?_ hnone
          rw [CurrentOf, if_pos hview, hconfirm]
      · refine .collection records library library hget hlibrary (by simpa using hput) ?_ hnone
        rw [CurrentOf, if_neg hview]
  · rw [if_pos (by simpa using hnone)]
    exact .refused

theorem clearCollection_written (sent : List (List Fields)) (count : ℕ)
    (current : List (Text × Fields)) :
    (clearCollection isSpace sel now replies sent count current).written =
      sent ++ (datastorePut replies.collectionAck 0
        (sentRecords (collectionWrites sel now current))).1 := by
  rw [clearCollection]
  cases datastoreGet replies.remaining with
  | none => split_ifs <;> rfl
  | some remaining =>
    dsimp only
    cases remaining.all (verified isSpace sel) <;> split_ifs <;> rfl

theorem of_clearCollection_counts {sent : List (List Fields)} {count : ℕ}
    {current : List (Text × Fields)}
    (h : (clearCollection isSpace sel now replies sent count current).counts.isSome = true) :
    (datastorePut replies.collectionAck 0 (sentRecords (collectionWrites sel now current))).2 = true ∧
      ∃ remaining, datastoreGet replies.remaining = some remaining ∧
        remaining.all (verified isSpace sel) = true := by
  rw [clearCollection] at h
  cases hput : (datastorePut replies.collectionAck 0 (sentRecords (collectionWrites sel now current))).2
    with
  | false => simp [hput] at h
  | true =>
    refine ⟨rfl, ?_⟩
    cases hremaining : datastoreGet replies.remaining with
    | none => cases hconfirm : confirmCollection replies 0 (batches (collectionWrites sel now current)) <;>
        simp [hput, hconfirm, hremaining] at h
    | some remaining =>
      refine ⟨remaining, rfl, ?_⟩
      cases hverified : remaining.all (verified isSpace sel) with
      | true => rfl
      | false =>
        cases hconfirm : confirmCollection replies 0 (batches (collectionWrites sel now current)) <;>
          simp [hput, hconfirm, hremaining, hverified] at h

/-- A server that hands the written records back as they were written. -/
def ReadsBack (isSpace : ℕ → Bool) (sel : Selection) (now : Text) (replies : Replies) : Prop :=
  ∀ library, (datastoreGet replies.library).bind (byId isSpace) = some library →
    ∀ i rows, datastoreGet (replies.viewRows i) = some rows → ∀ row ∈ rows,
      ∃ id, (id, row) ∈ viewWrites sel now library

section written

variable {records : List Fields} {library current : List (Text × Fields)} {written : Fields}
  {batch : List Fields}

theorem of_view_written (hlibrary : byId isSpace records = some library)
    (hbatch : batch ∈ (datastorePut replies.viewAck 0 (sentRecords (viewWrites sel now library))).1)
    (hw : written ∈ batch) :
    ∃ record ∈ records, idOf written = idOf record ∧ FramedBy sel record written := by
  obtain ⟨id, hmem⟩ := mem_of_sent hbatch hw
  rw [viewWrites] at hmem
  split_ifs at hmem with hview
  · obtain ⟨entry, hentry, heq⟩ := List.mem_map.mp hmem
    obtain ⟨-, rfl⟩ := Prod.mk.inj heq
    exact ⟨entry.2, ((of_byId hlibrary).1 entry hentry).1, idOf_clearedView sel now entry.2,
      framed_clearedView hview now entry.2⟩
  · exact absurd hmem List.not_mem_nil

theorem of_collection_written
    (hbatch : batch ∈ (datastorePut replies.collectionAck 0
      (sentRecords (collectionWrites sel now current))).1) (hw : written ∈ batch) :
    ∃ entry ∈ current, idOf written = idOf entry.2 ∧ FramedBy sel entry.2 written := by
  obtain ⟨id, hmem⟩ := mem_of_sent hbatch hw
  rw [collectionWrites] at hmem
  split_ifs at hmem with hcollection
  · obtain ⟨entry, hentry, heq⟩ := List.mem_map.mp hmem
    obtain ⟨-, rfl⟩ := Prod.mk.inj heq
    exact ⟨entry, hentry, idOf_tombstone now entry.2, framed_tombstone hcollection now entry.2⟩
  · exact absurd hmem List.not_mem_nil

theorem wasRead_of_current (hget : datastoreGet replies.library = some records)
    (hlibrary : byId isSpace records = some library) (hcurrent : CurrentOf sel now replies library current)
    {entry : Text × Fields} (hentry : entry ∈ current) : WasRead replies entry.2 := by
  rw [CurrentOf] at hcurrent
  split_ifs at hcurrent
  · obtain ⟨-, i, rows, hrows, hmem⟩ := (of_confirmView hcurrent).1 entry hentry
    exact .inr ⟨i, rows, hrows, hmem⟩
  · subst hcurrent
    exact .inl ⟨records, hget, ((of_byId hlibrary).1 entry hentry).1⟩

/-- Where writes are read back as they were, the records of the second pass differ from those of
the library as the first pass left them. -/
theorem framed_current (hget : datastoreGet replies.library = some records)
    (hlibrary : byId isSpace records = some library) (hcurrent : CurrentOf sel now replies library current)
    (hback : ReadsBack isSpace sel now replies) {entry : Text × Fields} (hentry : entry ∈ current) :
    ∃ record ∈ records, idOf entry.2 = idOf record ∧ FramedBy sel record entry.2 := by
  rw [CurrentOf] at hcurrent
  split_ifs at hcurrent with hview
  · obtain ⟨-, i, rows, hrows, hmem⟩ := (of_confirmView hcurrent).1 entry hentry
    have hread : (datastoreGet replies.library).bind (byId isSpace) = some library := by
      rw [hget, Option.bind_some, hlibrary]
    obtain ⟨id, hwritten⟩ := hback library hread i rows hrows entry.2 hmem
    rw [viewWrites, if_pos hview] at hwritten
    obtain ⟨stored, hstored, heq⟩ := List.mem_map.mp hwritten
    obtain ⟨-, hrow⟩ := Prod.mk.inj heq
    rw [← hrow]
    exact ⟨stored.2, ((of_byId hlibrary).1 stored hstored).1, idOf_clearedView sel now stored.2,
      framed_clearedView hview now stored.2⟩
  · subst hcurrent
    exact ⟨entry.2, ((of_byId hlibrary).1 entry hentry).1, rfl, fun _ _ ↦ rfl, fun _ _ ↦ rfl⟩

/-- A clear that comes to its end has written every record of the library. -/
theorem written_of_record (hlibrary : byId isSpace records = some library)
    (hput : (datastorePut replies.viewAck 0 (sentRecords (viewWrites sel now library))).2 = true)
    (hcurrent : CurrentOf sel now replies library current)
    (hselected : (sel.collection || sel.view) = true)
    (hput' : (datastorePut replies.collectionAck 0
      (sentRecords (collectionWrites sel now current))).2 = true)
    {record : Fields} (hrecord : record ∈ records) :
    ∃ batch ∈ (datastorePut replies.viewAck 0 (sentRecords (viewWrites sel now library))).1 ++
        (datastorePut replies.collectionAck 0 (sentRecords (collectionWrites sel now current))).1,
      ∃ written ∈ batch, idOf written = idOf record := by
  obtain ⟨entry, hentry, rfl⟩ := (of_byId hlibrary).2 record hrecord
  by_cases hview : sel.view = true
  · have hmem : (entry.1, clearedView sel now entry.2) ∈ viewWrites sel now library := by
      rw [viewWrites, if_pos hview]
      exact List.mem_map_of_mem hentry
    obtain ⟨batch, hbatch, hw⟩ := sent_of_mem hput hmem
    exact ⟨batch, List.mem_append_left _ hbatch, _, hw, idOf_clearedView sel now entry.2⟩
  · rw [Bool.not_eq_true] at hview
    rw [CurrentOf, hview, if_neg (by simp)] at hcurrent
    rw [hview, Bool.or_false] at hselected
    subst hcurrent
    have hmem : (entry.1, tombstone now entry.2) ∈ collectionWrites sel now current := by
      rw [collectionWrites, if_pos hselected]
      exact List.mem_map_of_mem hentry
    obtain ⟨batch, hbatch, hw⟩ := sent_of_mem hput' hmem
    exact ⟨batch, List.mem_append_right _ hbatch, _, hw, idOf_tombstone now entry.2⟩

theorem not_holdsSelected_of_verified {record : Fields} (h : verified isSpace sel record = true) :
    ¬HoldsSelected sel record := by
  simp only [verified, Bool.and_eq_true, Bool.not_eq_true', Bool.and_eq_false_iff,
    Bool.not_eq_false'] at h
  obtain ⟨⟨⟨⟨-, hcollection⟩, -⟩, hwatched⟩, hplayback⟩ := h
  intro hheld
  obtain ⟨hsel, hremoved⟩ | ⟨hsel, hstate⟩ | ⟨hsel, hstate⟩ := hheld
  · simp [hsel, hremoved] at hcollection
  · simp [hsel, hstate] at hwatched
  · simp [hsel, hstate] at hplayback

end written

/-- A clear changes the fields of the selected categories of the records that it reads, writes every
record of the library, and leaves nothing of the selected categories. -/
theorem clear_changes_selected (isSpace : ℕ → Bool) (sel : Selection) (now : Text) (replies : Replies) :
    (∀ batch ∈ (clearDatastoreData isSpace sel now replies).written, ∀ written ∈ batch,
      ∃ record, WasRead replies record ∧ idOf written = idOf record ∧ FramedBy sel record written) ∧
    (ReadsBack isSpace sel now replies →
      ∀ batch ∈ (clearDatastoreData isSpace sel now replies).written, ∀ written ∈ batch,
        ∃ records, datastoreGet replies.library = some records ∧ ∃ record ∈ records,
          idOf written = idOf record ∧ FramedBy sel record written) ∧
    ((clearDatastoreData isSpace sel now replies).counts.isSome = true →
      (∀ records, datastoreGet replies.library = some records → ∀ record ∈ records,
        ∃ batch ∈ (clearDatastoreData isSpace sel now replies).written, ∃ written ∈ batch,
          idOf written = idOf record) ∧
      ∃ remaining, datastoreGet replies.remaining = some remaining ∧
        ∀ record ∈ remaining, ¬HoldsSelected sel record) := by
  have hcourse := course isSpace sel now replies
  generalize clearDatastoreData isSpace sel now replies = outcome at hcourse ⊢
  cases hcourse with
  | refused => simp
  | view records library hget hlibrary =>
    refine ⟨fun batch hbatch written hw ↦ ?_, fun _ batch hbatch written hw ↦ ?_, by simp⟩
    · obtain ⟨record, hrecord, hrest⟩ := of_view_written hlibrary hbatch hw
      exact ⟨record, .inl ⟨records, hget, hrecord⟩, hrest⟩
    · obtain ⟨record, hrecord, hrest⟩ := of_view_written hlibrary hbatch hw
      exact ⟨records, hget, record, hrecord, hrest⟩
  | collection records library current hget hlibrary hput hcurrent hselected =>
    rw [clearCollection_written]
    refine ⟨fun batch hbatch written hw ↦ ?_, fun hback batch hbatch written hw ↦ ?_, fun hcounts ↦ ?_⟩
    · obtain hview | hcollection := List.mem_append.mp hbatch
      · obtain ⟨record, hrecord, hrest⟩ := of_view_written hlibrary hview hw
        exact ⟨record, .inl ⟨records, hget, hrecord⟩, hrest⟩
      · obtain ⟨entry, hentry, hrest⟩ := of_collection_written hcollection hw
        exact ⟨entry.2, wasRead_of_current hget hlibrary hcurrent hentry, hrest⟩
    · obtain hview | hcollection := List.mem_append.mp hbatch
      · obtain ⟨record, hrecord, hrest⟩ := of_view_written hlibrary hview hw
        exact ⟨records, hget, record, hrecord, hrest⟩
      · obtain ⟨entry, hentry, hid, hframed⟩ := of_collection_written hcollection hw
        obtain ⟨record, hrecord, hid', hframed'⟩ :=
          framed_current hget hlibrary hcurrent hback hentry
        exact ⟨records, hget, record, hrecord, hid.trans hid', hframed'.trans hframed⟩
    · obtain ⟨hput', remaining, hremaining, hverified⟩ := of_clearCollection_counts hcounts
      refine ⟨fun records' hget' record hrecord ↦ ?_, remaining, hremaining, fun record hrecord ↦ ?_⟩
      · obtain rfl := Option.some.inj (hget.symm.trans hget')
        exact written_of_record hlibrary hput hcurrent hselected hput' hrecord
      · exact not_holdsSelected_of_verified (List.all_eq_true.mp hverified record hrecord)

end clears

/-- A movie of the library that was never played. -/
def unwatchedMovie : Fields :=
  [(text "_id", .str (text "tt1")), (text "removed", .bool false), (text "temp", .bool false),
    (text "state", .obj [])]

def clearedMovie : Fields := clearedView ⟨false, true, false⟩ (text "2024") unwatchedMovie

def unwatchedReplies : Replies where
  library := some [.obj unwatchedMovie]
  viewAck _ := true
  viewRows _ := some [.obj clearedMovie]
  collectionAck _ := true
  collectionRows _ := some []
  remaining := some [.obj clearedMovie]

def clearUnwatched : Outcome :=
  clearDatastoreData (· == 32) ⟨false, true, false⟩ (text "2024") unwatchedReplies

theorem clear_changes_unwatched :
    (∀ batch ∈ clearUnwatched.written, ∀ written ∈ batch, ∃ records,
      datastoreGet unwatchedReplies.library = some records ∧ ∃ record ∈ records,
        idOf written = idOf record ∧ FramedBy ⟨false, true, false⟩ record written) ∧
    ∃ remaining, datastoreGet unwatchedReplies.remaining = some remaining ∧
      ∀ record ∈ remaining, ¬HoldsSelected ⟨false, true, false⟩ record := by
  have h := clear_changes_selected (· == 32) ⟨false, true, false⟩ (text "2024") unwatchedReplies
  refine ⟨h.2.1 ?_, (h.2.2 (by rfl)).2⟩
  intro library hlibrary i rows hrows row hrow
  have hread : library = [(text "tt1", unwatchedMovie)] := Option.some.inj (hlibrary.symm.trans rfl)
  have hback : rows = [clearedMovie] := Option.some.inj (hrows.symm.trans rfl)
  rw [hback, List.mem_singleton] at hrow
  rw [hread, hrow]
  exact ⟨text "tt1", List.mem_singleton_self _⟩

theorem unwatched_movie_written :
    ¬∀ batch ∈ clearUnwatched.written, ∀ written ∈ batch, ∀ record,
      WasRead unwatchedReplies record → idOf written = idOf record →
        HoldsSelected ⟨false, true, false⟩ record := by
  intro h
  have hwritten : clearUnwatched.written = [[clearedMovie]] := rfl
  have hread : WasRead unwatchedReplies unwatchedMovie :=
    .inl ⟨[unwatchedMovie], rfl, List.mem_singleton_self _⟩
  rw [hwritten] at h
  have hheld := h _ (List.mem_singleton_self _) _ (List.mem_singleton_self _) unwatchedMovie hread rfl
  have hnone : watchedHeld (stateOf unwatchedMovie) = false := rfl
  obtain ⟨hcollection, -⟩ | ⟨-, hwatched⟩ | ⟨hplayback, -⟩ := hheld
  · exact absurd hcollection (by decide)
  · exact absurd (hwatched.symm.trans hnone) (by decide)
  · exact absurd hplayback (by decide)

end AnyList.Delivery.StremioClear
