import AnyList.Streaming.Tombstones

namespace AnyList.Streaming

open AnyList.Library AnyList.Library.Members

/-- What a baseline holds under its records: a list may be missing. -/
structure Records where
  library : Option (List Row)
  watched : Option (List Row)
  progress : Option (List Row)

section merge

variable {ι : Type*} (str : ι → String)

def mergeRows (touched : List String) (previous current : List Row) : List Row :=
  (previous.filter fun row ↦ decide (row.contentId ∉ touched)) ++ current

def mergeMappings (mappings : Dict String Int) (tmdbIds : Dict String (Option Int)) :
    Dict String (Option Int) :=
  (Dict.empty.setAll (mappings.entries.map fun (key, id) ↦ (key, some id))).setAll tmdbIds.entries

/-- The snapshot an incremental pull is observed as. Without stored records or touched
identifiers there is none, and a pull that is not complete shows no dismissals. -/
def materialize (prior : Option StreamBaseline) (records : Option Records) (delta : Snapshot)
    (touched : Option (List ι)) : Option Snapshot :=
  match prior, records, touched with
  | some baseline, some records, some touched =>
    let keys := touched.map str
    some { delta with
      library := mergeRows keys (records.library.getD []) delta.library
      watched := mergeRows keys (records.watched.getD []) delta.watched
      progress := mergeRows keys (records.progress.getD []) delta.progress
      tmdbIds := mergeMappings baseline.snapshot.mappings delta.tmdbIds
      cwVisibility := fun _ ↦ none }
  | _, _, _ => none

end merge

def rowsOf (key : String) (rows : List Row) : List Row :=
  rows.filter fun row ↦ decide (row.contentId = key)

section lists

variable {keys : List String} {previous full current : List Row}

/-- The stored rows are the provider's but for the touched titles, of which the pull has
every row. -/
structure Covers (keys : List String) (previous full current : List Row) : Prop where
  untouched : ∀ row, row.contentId ∉ keys → (row ∈ previous ↔ row ∈ full)
  touched : ∀ row, row ∈ current ↔ row ∈ full ∧ row.contentId ∈ keys

theorem mem_mergeRows {row : Row} : row ∈ mergeRows keys previous current ↔
    row ∈ previous ∧ row.contentId ∉ keys ∨ row ∈ current := by
  simp [mergeRows]

theorem Covers.mem_mergeRows (h : Covers keys previous full current) (row : Row) :
    row ∈ mergeRows keys previous current ↔ row ∈ full := by
  rw [Streaming.mem_mergeRows, h.touched]
  by_cases hkey : row.contentId ∈ keys
  · simp [hkey]
  · simp [hkey, h.untouched row hkey]

/-- The rows of a title come from one side, in the order of that side. -/
theorem Covers.rowsOf_mergeRows (h : Covers keys previous full current) (key : String) :
    rowsOf key (mergeRows keys previous current) =
      rowsOf key (if key ∈ keys then current else previous) := by
  rw [mergeRows, rowsOf, List.filter_append, List.filter_filter]
  split_ifs with hkey
  · have hnone : (previous.filter fun row ↦ decide (row.contentId = key) &&
        decide (row.contentId ∉ keys)) = [] := by
      refine List.filter_eq_nil_iff.mpr fun row _ hrow ↦ ?_
      simp only [Bool.and_eq_true, decide_eq_true_eq] at hrow
      exact hrow.2 (hrow.1 ▸ hkey)
    rw [hnone, List.nil_append, rowsOf]
  · have hnone : (current.filter fun row ↦ decide (row.contentId = key)) = [] := by
      refine List.filter_eq_nil_iff.mpr fun row hrow heq ↦ hkey ?_
      exact of_decide_eq_true heq ▸ ((h.touched row).mp hrow).2
    rw [hnone, List.append_nil, rowsOf]
    refine List.filter_congr fun row _ ↦ ?_
    by_cases heq : row.contentId = key
    · simp [heq, hkey]
    · simp [heq]

end lists

section active

variable {rows rows' : List Row}

theorem get_activeRows_rowsOf (key : String) (rows : List Row) :
    (activeRows rows).get key = (activeRows (rowsOf key rows)).get key := by
  rw [activeRows, activeRows, Dict.get_setAll_filter]
  conv_rhs => rw [Dict.get_setAll_filter]
  congr 2
  rw [List.filter_map, List.filter_map, rowsOf, List.filter_filter, List.filter_filter]
  congr 1
  rw [List.filter_filter]
  refine List.filter_congr fun row _ ↦ ?_
  simp only [Function.comp_apply]
  cases decide (row.contentId = key) <;> simp

theorem get_activeRows_isSome (key : String) (rows : List Row) :
    ((activeRows rows).get key).isSome ↔
      ∃ row ∈ rows, row.contentId = key ∧ row.isActive = true := by
  refine ⟨fun h ↦ ?_, fun ⟨row, hrow, hkey, hactive⟩ ↦ ?_⟩
  · obtain ⟨row, hget⟩ := Option.isSome_iff_exists.mp h
    obtain hmem | hmem := Dict.mem_or_get_of_get_setAll hget
    · obtain ⟨row', hrow', heq⟩ := List.mem_map.mp hmem
      obtain ⟨rfl, rfl⟩ := Prod.mk.inj heq
      exact ⟨row', List.mem_of_mem_filter hrow', rfl, (List.mem_filter.mp hrow').2⟩
    · simp at hmem
  · have hmem : key ∈ ((rows.filter Row.isActive).map fun row ↦ (row.contentId, row)).map
        Prod.fst := by
      rw [List.map_map]
      exact List.mem_map.mpr ⟨row, List.mem_filter.mpr ⟨hrow, hactive⟩, hkey⟩
    obtain ⟨_, -, hget⟩ := Dict.exists_get_setAll hmem Dict.empty
    exact Option.isSome_iff_exists.mpr ⟨_, hget⟩

theorem get_activeRows_isSome_congr (h : ∀ row, row ∈ rows ↔ row ∈ rows') (key : String) :
    ((activeRows rows).get key).isSome = ((activeRows rows').get key).isSome := by
  rw [Bool.eq_iff_iff, get_activeRows_isSome, get_activeRows_isSome]
  simp only [h]

end active

section mappings

variable {mappings : Dict String Int} {tmdbIds : Dict String (Option Int)}

theorem get_mergeMappings (key : String) : (mergeMappings mappings tmdbIds).get key =
    (tmdbIds.get key).or ((mappings.get key).map some) := by
  have hget : ((Dict.empty : Dict String (Option Int)).setAll
      (mappings.entries.map fun (key, id) ↦ (key, some id))).get key =
        (mappings.get key).map some := by
    cases h : mappings.get key with
    | some id =>
      have hmem : (key, some id) ∈ mappings.entries.map fun (key, id) ↦ (key, some id) :=
        List.mem_map.mpr ⟨(key, id), Dict.mem_entries.mpr h, rfl⟩
      refine Dict.get_setAll_of_mem ?_ hmem _
      simpa [Function.comp_def] using mappings.nodup
    | none =>
      refine (Dict.get_setAll_of_notMem (fun hmem ↦ ?_) _).trans (Dict.get_empty key)
      rw [List.map_map] at hmem
      obtain ⟨a, ha⟩ := (Dict.mem_keys (d := mappings)).mp hmem
      exact Option.some_ne_none a (ha.symm.trans h)
  rw [mergeMappings, Dict.get_setAll_entries, hget]

end mappings

/-- A pull that reports the touched titles alone, beside the one that reports every title.
It names an identifier as the complete pull does, or leaves it as the baseline has it. -/
structure IsDelta (keys : List String) (records : Records) (mappings : Dict String Int)
    (full delta : Snapshot) : Prop where
  library : Covers keys (records.library.getD []) full.library delta.library
  watched : Covers keys (records.watched.getD []) full.watched delta.watched
  progress : Covers keys (records.progress.getD []) full.progress delta.progress
  tmdbIds : ∀ key, delta.tmdbIds.get key = full.tmdbIds.get key ∨
    delta.tmdbIds.get key = none ∧
      ∀ id, full.tmdbIds.get key = some (some id) → mappings.get key = some id
  syncPlayback : delta.syncPlayback = full.syncPlayback
  syncWatched : delta.syncWatched = full.syncWatched

namespace Observation

variable {ι : Type*} {str : ι → String} {o : Observation} {baseline : StreamBaseline}
  {records : Records} {touched : List ι} {delta merged : Snapshot}

theorem mem_resolved {key : String} {id : Int} :
    (key, id) ∈ o.resolved ↔ o.snap.tmdbIds.get key = some (some id) := by
  simp only [resolved, List.mem_filterMap, Prod.exists, Option.map_eq_some_iff, Prod.mk.injEq]
  refine ⟨?_, fun h ↦ ⟨key, some id, Dict.mem_entries.mpr h, id, rfl, rfl, rfl⟩⟩
  rintro ⟨key', _, hmem, id', rfl, rfl, rfl⟩
  exact Dict.mem_entries.mp hmem

theorem get_mappings (key : String) : o.mappings.get key =
    ((o.snap.tmdbIds.get key).bind fun id ↦ id).or (o.previous.mappings.get key) := by
  cases h : (o.snap.tmdbIds.get key).bind fun id ↦ id with
  | some id =>
    obtain ⟨_, hget, rfl⟩ := Option.bind_eq_some_iff.mp h
    exact get_mappings_of_resolved (mem_resolved.mpr hget)
  | none =>
    refine Dict.get_setAll_of_notMem (fun hmem ↦ ?_) _
    obtain ⟨write, hwrite, rfl⟩ := List.mem_map.mp hmem
    rw [mem_resolved.mp (show (write.1, write.2) ∈ o.resolved from hwrite)] at h
    cases h

theorem previous_of_prior (hprior : o.prior = some baseline) (hpull : o.pull.freshImport = false) :
    o.previous = baseline.snapshot := by
  simp [previous, hpull, hprior]

section incremental

/-- The observation of an incremental pull, of the connection that `o` pulls completely. -/
def incremental (o : Observation) (merged : Snapshot) : Observation := { o with snap := merged }

variable (hprior : o.prior = some baseline) (hpull : o.pull.freshImport = false)
  (h : IsDelta (touched.map str) records baseline.snapshot.mappings o.snap delta)
  (hmerged : materialize str o.prior (some records) delta (some touched) = some merged)

include hprior hmerged

theorem eq_of_materialize : merged =
    { delta with
      library := mergeRows (touched.map str) (records.library.getD []) delta.library
      watched := mergeRows (touched.map str) (records.watched.getD []) delta.watched
      progress := mergeRows (touched.map str) (records.progress.getD []) delta.progress
      tmdbIds := mergeMappings baseline.snapshot.mappings delta.tmdbIds
      cwVisibility := fun _ ↦ none } := by
  rw [hprior] at hmerged
  exact (Option.some.inj hmerged).symm

theorem get_tmdbIds_of_materialize (key : String) : merged.tmdbIds.get key =
    (delta.tmdbIds.get key).or ((baseline.snapshot.mappings.get key).map some) := by
  rw [eq_of_materialize hprior hmerged]
  exact get_mergeMappings key

include h

theorem mem_library_of_materialize (row : Row) : row ∈ merged.library ↔ row ∈ o.snap.library := by
  rw [eq_of_materialize hprior hmerged]
  exact h.library.mem_mergeRows row

theorem mem_watched_of_materialize (row : Row) : row ∈ merged.watched ↔ row ∈ o.snap.watched := by
  rw [eq_of_materialize hprior hmerged]
  exact h.watched.mem_mergeRows row

theorem mem_progress_of_materialize (row : Row) :
    row ∈ merged.progress ↔ row ∈ o.snap.progress := by
  rw [eq_of_materialize hprior hmerged]
  exact h.progress.mem_mergeRows row

theorem syncPlayback_of_materialize : merged.syncPlayback = o.snap.syncPlayback := by
  rw [eq_of_materialize hprior hmerged]
  exact h.syncPlayback

theorem syncWatched_of_materialize : merged.syncWatched = o.snap.syncWatched := by
  rw [eq_of_materialize hprior hmerged]
  exact h.syncWatched

theorem mem_completed_incremental (row : Row) :
    row ∈ (o.incremental merged).completed ↔ row ∈ o.completed := by
  simp only [completed, watchedRows, progressCompletedRows, completedRows, incremental,
    syncPlayback_of_materialize hprior h hmerged, syncWatched_of_materialize hprior h hmerged,
    List.mem_append]
  split_ifs <;> simp [mem_watched_of_materialize hprior h hmerged,
    mem_progress_of_materialize hprior h hmerged]

theorem active_incremental_isSome (key : String) :
    ((o.incremental merged).active.get key).isSome = (o.active.get key).isSome := by
  simp only [active, incremental, syncPlayback_of_materialize hprior h hmerged]
  split_ifs
  · exact get_activeRows_isSome_congr (mem_progress_of_materialize hprior h hmerged) key
  · rfl

/-- The row in progress is the same where the rows of the title stand in the provider's order. -/
theorem get_active_incremental {key : String}
    (hordered : rowsOf key (if key ∈ touched.map str then delta.progress
      else records.progress.getD []) = rowsOf key o.snap.progress) :
    (o.incremental merged).active.get key = o.active.get key := by
  simp only [active, incremental, syncPlayback_of_materialize hprior h hmerged]
  split_ifs with hsync
  · rw [get_activeRows_rowsOf key merged.progress, get_activeRows_rowsOf key o.snap.progress,
      ← hordered, ← h.progress.rowsOf_mergeRows, eq_of_materialize hprior hmerged]
  · rfl

theorem removed_incremental : (o.incremental merged).removed = o.removed := by
  have hfilter : (o.previous.progress.keys.filter fun key ↦
      ((o.incremental merged).active.get key).isNone) =
      o.previous.progress.keys.filter fun key ↦ (o.active.get key).isNone := by
    refine List.filter_congr fun key _ ↦ ?_
    rw [← Option.not_isSome, ← Option.not_isSome, active_incremental_isSome hprior h hmerged]
  simp only [removed]
  rw [← hfilter]
  simp only [incremental, syncPlayback_of_materialize hprior h hmerged]
  rfl

theorem library_incremental :
    ((o.incremental merged).snap.library.map Row.contentId).toFinset =
      (o.snap.library.map Row.contentId).toFinset := by
  ext key
  simp only [incremental, List.mem_toFinset, List.mem_map,
    mem_library_of_materialize hprior h hmerged]

include hpull

theorem get_mappings_incremental (key : String) :
    (o.incremental merged).mappings.get key = o.mappings.get key := by
  have hprevious : o.previous = baseline.snapshot := previous_of_prior hprior hpull
  have hprevious' : (o.incremental merged).previous = baseline.snapshot := hprevious
  rw [get_mappings, get_mappings, hprevious, hprevious']
  simp only [incremental, get_tmdbIds_of_materialize hprior hmerged]
  obtain hsame | ⟨hnone, hfull⟩ := h.tmdbIds key
  · rw [hsame]
    cases o.snap.tmdbIds.get key with
    | none => cases baseline.snapshot.mappings.get key <;> rfl
    | some id => rfl
  · rw [hnone]
    cases hget : o.snap.tmdbIds.get key with
    | none => cases baseline.snapshot.mappings.get key <;> rfl
    | some id =>
      cases id with
      | none => cases baseline.snapshot.mappings.get key <;> rfl
      | some id => rw [hfull id hget]; rfl

/-- A row that the complete pull resolves names the same title in both. -/
theorem media_incremental {row : Row} {id : Int}
    (hrow : o.snap.tmdbIds.get row.contentId = some (some id)) :
    (o.incremental merged).media row = o.media row := by
  have hmerged' : merged.tmdbIds.get row.contentId = some (some id) := by
    rw [get_tmdbIds_of_materialize hprior hmerged]
    obtain hsame | ⟨hnone, hfull⟩ := h.tmdbIds row.contentId
    · rw [hsame, hrow, Option.some_or]
    · rw [hnone, hfull id hrow, Option.none_or, Option.map_some]
  have hlookup (kind : Kind) : (o.incremental merged).lookup id kind = o.lookup id kind := by
    rw [lookup_of_resolved (mem_resolved.mpr hrow)]
    have hresolved : (row.contentId, id) ∈ (o.incremental merged).resolved :=
      mem_resolved.mpr hmerged'
    exact lookup_of_resolved hresolved kind
  rw [media, media, optionMedia, optionMedia,
    get_mappings_incremental hprior hpull h hmerged,
    get_mappings_of_resolved (mem_resolved.mpr hrow)]
  simp only [Option.bind_some, hlookup]

/-- A title that left Continue Watching is looked up in both. -/
theorem lookup_removed_incremental {key : String} {id : Int} (hremoved : key ∈ o.removed)
    (hid : o.mappings.get key = some id) (kind : Kind) :
    (o.incremental merged).lookup id kind = o.lookup id kind := by
  have hmem : id ∈ o.removed.filterMap o.mappings.get :=
    List.mem_filterMap.mpr ⟨key, hremoved, hid⟩
  have hmem' : id ∈ (o.incremental merged).removed.filterMap (o.incremental merged).mappings.get := by
    refine List.mem_filterMap.mpr ⟨key, ?_, ?_⟩
    · rwa [removed_incremental hprior h hmerged]
    · rwa [get_mappings_incremental hprior hpull h hmerged]
  rw [lookup, if_pos (.inr (.inl hmem')), lookup, if_pos (.inr (.inl hmem))]
  rfl

end incremental

/-- What two pulls of one connection decide on: the rows as sets, the titles in progress, those
that left, the identifiers and the titles they stand for. -/
structure DecidesAs (o' o : Observation) : Prop where
  library : ∀ row, row ∈ o'.snap.library ↔ row ∈ o.snap.library
  watched : ∀ row, row ∈ o'.snap.watched ↔ row ∈ o.snap.watched
  progress : ∀ row, row ∈ o'.snap.progress ↔ row ∈ o.snap.progress
  libraryIds : (o'.snap.library.map Row.contentId).toFinset =
    (o.snap.library.map Row.contentId).toFinset
  completed : ∀ row, row ∈ o'.completed ↔ row ∈ o.completed
  active : ∀ key, (o'.active.get key).isSome = (o.active.get key).isSome
  removed : o'.removed = o.removed
  mappings : ∀ key, o'.mappings.get key = o.mappings.get key
  media : ∀ row id, o.snap.tmdbIds.get row.contentId = some (some id) → o'.media row = o.media row
  left : ∀ key ∈ o.removed, ∀ id, o.mappings.get key = some id →
    ∀ kind, o'.lookup id kind = o.lookup id kind

/-- An incremental pull decides on the rows, as sets, and on the identifiers that a complete pull
does; the identifiers of titles that are gone stay among those it was given. -/
theorem incremental_decidesAs {o : Observation} {baseline : StreamBaseline} {records : Records}
    {touched : List ι} {delta : Snapshot} (hprior : o.prior = some baseline)
    (hpull : o.pull.freshImport = false)
    (h : IsDelta (touched.map str) records baseline.snapshot.mappings o.snap delta) :
    ∃ merged, materialize str o.prior (some records) delta (some touched) = some merged ∧
      (o.incremental merged).DecidesAs o ∧
      (∀ key, merged.tmdbIds.get key =
        (delta.tmdbIds.get key).or ((baseline.snapshot.mappings.get key).map some)) ∧
      ∀ key, rowsOf key (if key ∈ touched.map str then delta.progress
          else records.progress.getD []) = rowsOf key o.snap.progress →
        (o.incremental merged).active.get key = o.active.get key := by
  obtain ⟨merged, hmerged⟩ : ∃ merged,
      materialize str o.prior (some records) delta (some touched) = some merged := by
    rw [hprior]
    exact ⟨_, rfl⟩
  refine ⟨merged, hmerged, ?_, get_tmdbIds_of_materialize hprior hmerged,
    fun key ↦ get_active_incremental hprior h hmerged⟩
  exact {
    library := mem_library_of_materialize hprior h hmerged
    watched := mem_watched_of_materialize hprior h hmerged
    progress := mem_progress_of_materialize hprior h hmerged
    libraryIds := library_incremental hprior h hmerged
    completed := mem_completed_incremental hprior h hmerged
    active := active_incremental_isSome hprior h hmerged
    removed := removed_incremental hprior h hmerged
    mappings := get_mappings_incremental hprior hpull h hmerged
    media := fun _ _ ↦ media_incremental hprior hpull h hmerged
    left := fun _ hremoved _ hid ↦ lookup_removed_incremental hprior hpull h hmerged hremoved hid }

section gone

def filmRow : Row where
  contentId := "tt1"
  contentType := some .movie
  season := none
  episode := none
  position := some 30
  duration := some 100
  watchedTime := none
  watchedAt := none
  lastWatched := none
  updatedAt := none
  modifiedAt := none
  dateShared := false

def filmBaseline : StreamBaseline where
  snapshot := { Stored.empty with
    progress := Dict.empty.set "tt1" filmRow
    mappings := Dict.empty.set "tt1" 7
    recordsProgress := [filmRow] }
  approved := true
  observedAt := some 0

def filmRecords : Records := ⟨some [], some [], some [filmRow]⟩

/-- A provider whose account is empty. -/
def emptySnapshot : Snapshot where
  library := []
  watched := []
  progress := []
  tmdbIds := .empty
  syncPlayback := true
  syncWatched := true
  cwVisibility := fun _ ↦ none

theorem isDelta_film :
    IsDelta ["tt1"] filmRecords filmBaseline.snapshot.mappings emptySnapshot emptySnapshot where
  library := ⟨fun _ _ ↦ Iff.rfl, by simp [emptySnapshot]⟩
  watched := ⟨fun _ _ ↦ Iff.rfl, by simp [emptySnapshot]⟩
  progress := by
    refine ⟨fun row hrow ↦ ?_, by simp [emptySnapshot]⟩
    refine iff_of_false (fun hmem ↦ hrow ?_) (by simp [emptySnapshot])
    obtain rfl : row = filmRow := List.mem_singleton.mp hmem
    exact List.mem_singleton_self _
  tmdbIds := fun _ ↦ .inl rfl
  syncPlayback := rfl
  syncWatched := rfl

def emptyPull : Observation := { filmPull "January" 100 filmBaseline with snap := emptySnapshot }

theorem incremental_decidesAs_film :
    ∃ merged, materialize id emptyPull.prior (some filmRecords) emptySnapshot (some ["tt1"]) =
        some merged ∧
      (emptyPull.incremental merged).DecidesAs emptyPull ∧
      (∀ key, merged.tmdbIds.get key =
        (emptySnapshot.tmdbIds.get key).or ((filmBaseline.snapshot.mappings.get key).map some)) ∧
      ∀ key, rowsOf key (if key ∈ ["tt1"].map id then emptySnapshot.progress
          else filmRecords.progress.getD []) = rowsOf key emptyPull.snap.progress →
        (emptyPull.incremental merged).active.get key = emptyPull.active.get key :=
  incremental_decidesAs rfl rfl isDelta_film

/-- A film that is gone keeps the identifier it had. -/
theorem incremental_keeps_gone_identifier :
    ¬ ∀ (o : Observation) (baseline : StreamBaseline) (records : Records) (touched : List String)
      (delta merged : Snapshot), o.prior = some baseline → o.pull.freshImport = false →
      IsDelta (touched.map id) records baseline.snapshot.mappings o.snap delta →
      materialize id o.prior (some records) delta (some touched) = some merged →
      ((∀ row, row ∈ merged.library ↔ row ∈ o.snap.library) ∧
        (∀ row, row ∈ merged.watched ↔ row ∈ o.snap.watched) ∧
        (∀ row, row ∈ merged.progress ↔ row ∈ o.snap.progress) ∧
        ∀ key, merged.tmdbIds.get key = o.snap.tmdbIds.get key) := by
  intro h
  have hkey := (h emptyPull filmBaseline filmRecords ["tt1"] emptySnapshot _ rfl rfl isDelta_film
    rfl).2.2.2 "tt1"
  revert hkey
  decide +kernel

end gone

end Observation

end AnyList.Streaming
