import AnyList.Imports.PrimeAccount

namespace AnyList.Imports.PrimeVideo

open AnyList.Library AnyList.Library.Members
open AnyList.Imports.ViewingHistory (Text)

/-- A table with its rows in another order. -/
structure SameRows (table table' : CsvTable) : Prop where
  columns : table.columns = table'.columns
  records : table.records.Perm table'.records

/-- A file whose table, if it can be read, has its rows in another order. -/
def SameFile (file file' : Text × Except Text CsvTable) : Prop :=
  file.1 = file'.1 ∧ match file.2, file'.2 with
    | .ok table, .ok table' => SameRows table table'
    | .error message, .error message' => message = message'
    | _, _ => False

/-- The same archive, the rows inside each table in another order. -/
def Relisted (archive archive' : Archive) : Prop := List.Forall₂ SameFile archive archive'

/-- The same counts, and the same observations but for the numbers of their rows. -/
structure SameAccount (parsed parsed' : ParsedHistory) : Prop where
  total : parsed.totalRows = parsed'.totalRows
  observations : parsed.rows.length = parsed'.rows.length
  duplicate : parsed.duplicateRows = parsed'.duplicateRows
  excluded : parsed.excludedRows = parsed'.excludedRows
  errors : parsed.errors.length = parsed'.errors.length
  described : (parsed.rows.map WatchObservation.described).Perm
    (parsed'.rows.map WatchObservation.described)

section tables

variable {archive archive' : Archive} {table table' : CsvTable}

theorem SameRows.refl (table : CsvTable) : SameRows table table := ⟨rfl, .refl _⟩

theorem findTable_relisted (h : Relisted archive archive') {filename : String}
    {required : List String} {found : Option CsvTable}
    (hfound : findTable archive filename required = .ok found) :
    ∃ found', findTable archive' filename required = .ok found' ∧
      Option.Rel SameRows found found' := by
  have hfiles : List.Forall₂ SameFile
      (archive.filter fun file ↦ decide (basename file.1 = filename.toList))
      (archive'.filter fun file ↦ decide (basename file.1 = filename.toList)) := by
    refine List.rel_filter (fun file file' hfile ↦ ?_) h
    dsimp only
    rw [hfile.1]
  unfold findTable at hfound ⊢
  generalize archive.filter (fun file ↦ decide (basename file.1 = filename.toList)) = files
    at hfiles hfound
  generalize archive'.filter (fun file ↦ decide (basename file.1 = filename.toList)) = files'
    at hfiles ⊢
  cases hfiles with
  | nil =>
    obtain rfl := Except.ok.inj hfound
    exact ⟨none, rfl, .none⟩
  | cons hfile hrest =>
    cases hrest with
    | cons _ _ => cases hfound
    | nil =>
      rename_i file file'
      obtain ⟨name, content⟩ := file
      obtain ⟨name', content'⟩ := file'
      obtain ⟨-, hcontent⟩ := hfile
      cases content with
      | error message => cases hfound
      | ok table =>
        cases content' with
        | error message => exact hcontent.elim
        | ok table' =>
          have hrows : SameRows table table' := hcontent
          simp only [bind, Except.bind] at hfound ⊢
          rw [← hrows.columns, ← hrows.records.length_eq]
          split_ifs at hfound ⊢
          obtain rfl := Except.ok.inj hfound
          exact ⟨some table', rfl, .some hrows⟩

theorem tables_relisted (h : Relisted archive archive') {sessions events : CsvTable}
    (htables : tables archive = .ok (sessions, events)) :
    ∃ sessions' events', tables archive' = .ok (sessions', events') ∧
      SameRows sessions sessions' ∧ SameRows events events' := by
  unfold tables at htables ⊢
  rw [← h.length_eq]
  split_ifs at htables ⊢
  · cases htables
  · simp only [bind, Except.bind] at htables ⊢
    cases hsessions : findTable archive "Viewing History.csv"
        ["Title", "Seconds Viewed", "Playback Start Datetime (UTC)"] with
    | error message =>
      rw [hsessions] at htables
      cases htables
    | ok found =>
      obtain ⟨found', hfound', hrel⟩ := findTable_relisted h hsessions
      rw [hsessions] at htables
      rw [hfound']
      cases hevents : findTable archive "Watch Events.csv"
          ["Title Name", "Seconds Watched", "Most Recent Watch Date"] with
      | error message =>
        rw [hevents] at htables
        cases htables
      | ok foundEvents =>
        obtain ⟨foundEvents', hfoundEvents', hrelEvents⟩ := findTable_relisted h hevents
        rw [hevents] at htables
        rw [hfoundEvents']
        cases hrel with
        | none => cases htables
        | some hrows =>
          obtain ⟨rfl, rfl⟩ := Prod.mk.inj (Except.ok.inj htables)
          refine ⟨_, _, rfl, hrows, ?_⟩
          cases hrelEvents with
          | none => exact SameRows.refl _
          | some hrows => exact hrows

end tables

namespace Python

variable {py : Python} {sessions sessions' events events' : CsvTable}

theorem episodeTitles_congr (h : SameRows events events') :
    py.episodeTitles events = py.episodeTitles events' := by
  unfold episodeTitles
  rw [h.columns]
  exact List.toFinset_eq_of_perm _ _ (((h.records.map _).filter _).map _)

section sessions

variable (h : SameRows sessions sessions')

include h

theorem titles_perm : (py.titles sessions).Perm (py.titles sessions') := by
  unfold titles
  rw [h.columns]
  exact h.records.map _

theorem mem_eligibleTitles_congr (title : Text) :
    title ∈ py.eligibleTitles sessions ↔ title ∈ py.eligibleTitles sessions' := by
  unfold eligibleTitles
  rw [h.columns]
  exact ((h.records.filter _).map _).mem_iff

/-- A summary is read in the same way, whatever the order of the sessions is. -/
theorem readSummary_congr (identityOf : Text → Identity) :
    py.readSummary sessions identityOf = py.readSummary sessions' identityOf := by
  have honly (name : Text) : onlyMember (py.namesakes sessions identityOf name) =
      onlyMember (py.namesakes sessions' identityOf name) :=
    (SameMembers.of_perm ((titles_perm h).filter _)).onlyMember_eq
  funext columns record
  unfold readSummary
  simp only [honly, mem_eligibleTitles_congr h]

end sessions

theorem readRows_relisted (hsessions : SameRows sessions sessions')
    (hevents : SameRows events events') {sessionRows eventRows : List Reading}
    (h : py.readRows sessions events = .ok (sessionRows, eventRows)) :
    ∃ sessionRows' eventRows', py.readRows sessions' events' = .ok (sessionRows', eventRows') ∧
      sessionRows.Perm sessionRows' ∧ eventRows.Perm eventRows' := by
  unfold readRows at h ⊢
  rw [← episodeTitles_congr hevents, ← hsessions.columns, ← hevents.columns]
  simp only [bind, Except.bind, ← readSummary_congr hsessions] at h ⊢
  cases hidentities : (py.titles sessions).mapM (py.identity (py.episodeTitles events)) with
  | error message =>
    rw [hidentities] at h
    cases h
  | ok identities =>
    obtain ⟨identities', hidentities', -⟩ :=
      Partial.exists_mapM_perm hidentities (titles_perm hsessions)
    rw [hidentities] at h
    rw [hidentities']
    cases hread : sessions.records.mapM (py.readSession sessions.columns) with
    | error message =>
      simp only [hread] at h
      cases h
    | ok rows =>
      obtain ⟨rows', hread', hperm⟩ := Partial.exists_mapM_perm hread hsessions.records
      simp only [hread] at h
      simp only [hread']
      cases hsummaries : events.records.mapM
          (py.readSummary sessions (py.identityOf (py.episodeTitles events)) events.columns) with
      | error message =>
        rw [hsummaries] at h
        cases h
      | ok summaries =>
        obtain ⟨summaries', hsummaries', hperm'⟩ :=
          Partial.exists_mapM_perm hsummaries hevents.records
        rw [hsummaries] at h
        rw [hsummaries']
        obtain ⟨rfl, rfl⟩ := Prod.mk.inj (Except.ok.inj h)
        exact ⟨rows', summaries', rfl, hperm, hperm'⟩

theorem parseAmazonZip_eq_ok {archive : Archive} {language : Option Text} {parsed : ParsedHistory} :
    py.parseAmazonZip archive language = .ok parsed ↔
      ∃ sessions events sessionRows eventRows, tables archive = .ok (sessions, events) ∧
        py.readRows sessions events = .ok (sessionRows, eventRows) ∧
        parsed = (takeRows (py.identityOf (py.episodeTitles events)) sessionRows eventRows).parsed
          (if (language.getD []) = [] then py.language sessions else language) := by
  unfold parseAmazonZip
  simp only [bind, Except.bind]
  constructor
  · intro h
    cases htables : tables archive with
    | error message =>
      rw [htables] at h
      cases h
    | ok both =>
      obtain ⟨sessions, events⟩ := both
      rw [htables] at h
      cases hread : py.readRows sessions events with
      | error message =>
        simp only [hread] at h
        cases h
      | ok rows =>
        obtain ⟨sessionRows, eventRows⟩ := rows
        simp only [hread] at h
        exact ⟨sessions, events, sessionRows, eventRows, rfl, hread, (Except.ok.inj h).symm⟩
  · rintro ⟨sessions, events, sessionRows, eventRows, htables, hread, rfl⟩
    rw [htables]
    simp only [hread]
    rfl

theorem length_readRows {sessionRows eventRows : List Reading}
    (h : py.readRows sessions events = .ok (sessionRows, eventRows)) :
    sessionRows.length = sessions.records.length ∧ eventRows.length = events.records.length ∧
      ∀ record ∈ events.records, ∃ reading, py.readSummary sessions
        (py.identityOf (py.episodeTitles events)) events.columns record = .ok reading := by
  unfold readRows at h
  simp only [bind, Except.bind] at h
  cases hidentities : (py.titles sessions).mapM (py.identity (py.episodeTitles events)) with
  | error message =>
    rw [hidentities] at h
    cases h
  | ok identities =>
    rw [hidentities] at h
    cases hread : sessions.records.mapM (py.readSession sessions.columns) with
    | error message =>
      simp only [hread] at h
      cases h
    | ok rows =>
      simp only [hread] at h
      cases hsummaries : events.records.mapM
          (py.readSummary sessions (py.identityOf (py.episodeTitles events)) events.columns) with
      | error message =>
        rw [hsummaries] at h
        cases h
      | ok summaries =>
        rw [hsummaries] at h
        obtain ⟨rfl, rfl⟩ := Prod.mk.inj (Except.ok.inj h)
        have hsessions := Partial.mapM_eq_ok_iff.mp hread
        have hevents := Partial.mapM_eq_ok_iff.mp hsummaries
        refine ⟨hsessions.length_eq.symm, hevents.length_eq.symm, fun record hrecord ↦ ?_⟩
        obtain ⟨reading, -, hreading⟩ := Partial.exists_ok_of_mapM hsummaries hrecord
        exact ⟨reading, hreading⟩

end Python

theorem accounted_takeRows (identityOf : Text → Identity) (sessionRows eventRows : List Reading) :
    Accounted identityOf (sessionRows ++ eventRows)
      (takeRows identityOf sessionRows eventRows) := by
  have hstart : Accounted identityOf [] .empty := accounted_empty
  have hsessions := hstart.foldl (sessionRows.zipIdx 2)
  have hevents := hsessions.foldl (eventRows.zipIdx (sessionRows.length + 2))
  rw [List.nil_append, List.zipIdx_map_fst, List.zipIdx_map_fst] at hevents
  exact hevents

/-- A title that is the one detailed title of a name and that has a feature record which was not
deleted. -/
structure Corroborated (py : Python) (sessions : CsvTable) (identityOf : Text → Identity)
    (name title : Text) : Prop where
  named : title ∈ py.titles sessions ∧ py.normText (identityOf title).episode = py.normText name
  only : ∀ title' ∈ py.titles sessions,
    py.normText (identityOf title').episode = py.normText name → title' = title
  feature : ∃ record ∈ sessions.records, py.sessionTitle sessions.columns record = title ∧
    py.isFeature sessions.columns record = true ∧
    py.isDeleted sessions.columns record "Is Deleted" = false

section summaries

variable {py : Python} {sessions : CsvTable} {identityOf : Text → Identity}
  {columns record : List Text}

theorem corroborated_of_readSummary {viewing : Viewing}
    (h : py.readSummary sessions identityOf columns record = .ok (.watched viewing)) :
    Corroborated py sessions identityOf (py.summaryName columns record) viewing.title := by
  unfold Python.readSummary at h
  extract_lets name watched at h
  cases honly : onlyMember (py.namesakes sessions identityOf name) with
  | none =>
    rw [honly] at h
    cases h
  | some resolved =>
    rw [honly] at h
    dsimp only at h
    split_ifs at h with hexcluded
    · cases h
    push Not at hexcluded
    obtain ⟨-, -, -, heligible⟩ := hexcluded
    simp only [bind, Except.bind] at h
    cases hdate : py.date (Python.get columns record "Most Recent Watch Date") with
    | error message =>
      rw [hdate] at h
      cases h
    | ok day =>
      rw [hdate] at h
      cases day with
      | none => cases h
      | some day =>
        obtain rfl := Reading.watched.inj (Except.ok.inj h)
        obtain ⟨hne, hall⟩ := onlyMember_eq_some.mp honly
        obtain ⟨title, htitle⟩ := List.exists_mem_of_ne_nil _ hne
        obtain rfl := hall title htitle
        obtain ⟨htitles, hname⟩ := List.mem_filter.mp htitle
        obtain ⟨detailed, hdetailed, hsession⟩ := List.mem_map.mp heligible
        obtain ⟨hmem, hkind⟩ := List.mem_filter.mp hdetailed
        rw [Bool.and_eq_true, Bool.not_eq_true'] at hkind
        refine ⟨⟨htitles, of_decide_eq_true hname⟩, fun title' htitle' hname' ↦ ?_,
          ⟨detailed, hmem, hsession, hkind⟩⟩
        exact hall title' (List.mem_filter.mpr ⟨htitle', decide_eq_true hname'⟩)

/-- A row changes no observation but that of its title and day. -/
theorem addRow_changes {p : Progress} {reading : Reading} {number : ℕ} {key : Text × Int}
    (h : (addRow identityOf p (reading, number)).observations.get key ≠ p.observations.get key) :
    ∃ viewing, reading = .watched viewing ∧ viewing.key = key := by
  cases reading with
  | excluded => exact absurd rfl h
  | rejected message => exact absurd rfl h
  | watched viewing =>
    refine ⟨viewing, rfl, ?_⟩
    by_contra hne
    refine h ?_
    cases hget : p.observations.get viewing.key with
    | some o =>
      rw [addRow_of_some number hget]
      exact Dict.get_set_of_ne _ _ hne
    | none =>
      rw [addRow_of_none number hget]
      exact Dict.get_set_of_ne _ _ hne

/-- Whatever the observations are, a summary row changes only those of a title that is the one
detailed title of its name and has a feature record which was not deleted. -/
def ContributesOnly (py : Python) (sessions : CsvTable) (identityOf : Text → Identity)
    (columns record : List Text) : Prop :=
  ∃ reading, py.readSummary sessions identityOf columns record = .ok reading ∧
    ∀ p number title day,
      (addRow identityOf p (reading, number)).observations.get (title, day) ≠
          p.observations.get (title, day) →
        Corroborated py sessions identityOf (py.summaryName columns record) title

end summaries

theorem rows_parsed_perm (p : Progress) (language : Option Text) :
    (p.parsed language).rows.Perm p.observations.values := List.mergeSort_perm _ _

section archive

variable (py : Python) {archive : Archive} {language : Option Text} {parsed : ParsedHistory}

theorem counted_of_parse (h : py.parseAmazonZip archive language = .ok parsed) :
    parsed.totalRows = parsed.rows.length + parsed.duplicateRows + parsed.excludedRows +
      parsed.errors.length := by
  obtain ⟨sessions, events, sessionRows, eventRows, -, -, rfl⟩ := Python.parseAmazonZip_eq_ok.mp h
  rw [(rows_parsed_perm _ _).length_eq, Dict.values, List.length_map]
  exact (accounted_takeRows _ sessionRows eventRows).counted

theorem sameAccount_of_relisted (h : py.parseAmazonZip archive language = .ok parsed)
    {archive' : Archive} (hrelisted : Relisted archive archive') :
    ∃ parsed', py.parseAmazonZip archive' language = .ok parsed' ∧ SameAccount parsed parsed' := by
  obtain ⟨sessions, events, sessionRows, eventRows, htables, hread, rfl⟩ :=
    Python.parseAmazonZip_eq_ok.mp h
  obtain ⟨sessions', events', htables', hsessions, hevents⟩ := tables_relisted hrelisted htables
  obtain ⟨sessionRows', eventRows', hread', hsessionRows, heventRows⟩ :=
    Python.readRows_relisted hsessions hevents hread
  refine ⟨_, Python.parseAmazonZip_eq_ok.mpr
    ⟨sessions', events', sessionRows', eventRows', htables', hread', rfl⟩, ?_⟩
  rw [← Python.episodeTitles_congr hevents]
  obtain ⟨htotal, hduplicate, hexcluded, herrors, hdescribed⟩ :=
    (accounted_takeRows (py.identityOf (py.episodeTitles events)) sessionRows eventRows).perm
      (accounted_takeRows (py.identityOf (py.episodeTitles events)) sessionRows' eventRows')
      (hsessionRows.append heventRows)
  have hrows (chosen chosen' : Option Text) :=
    ((rows_parsed_perm _ chosen).map WatchObservation.described).trans
      (hdescribed.trans ((rows_parsed_perm _ chosen').map WatchObservation.described).symm)
  exact
    { total := htotal
      observations := by
        rw [← List.length_map WatchObservation.described, (hrows _ _).length_eq, List.length_map]
      duplicate := hduplicate
      excluded := hexcluded
      errors := herrors
      described := hrows _ _ }

/-- Two sessions of an episode on one day, a trailer, and a summary of the episode. -/
def sampleArchive : Archive :=
  [("activity/Viewing History.csv".toList, .ok
    { columns := ["Title".toList, "Seconds Viewed".toList,
        "Playback Start Datetime (UTC)".toList, "Material Type Description".toList]
      records :=
        [["Pilot-Spider-Man - Season 1".toList, "1800".toList, "2024-05-01T12:00:00Z".toList,
            "Feature".toList],
          ["Official Trailer".toList, "900".toList, "2024-05-01T12:00:00Z".toList,
            "Feature".toList],
          ["Pilot-Spider-Man - Season 1".toList, "1200".toList, "2024-05-01T12:00:00Z".toList,
            "Feature".toList]] }),
    ("activity/Watch Events.csv".toList, .ok
      { columns := ["Title Name".toList, "Seconds Watched".toList,
          "Most Recent Watch Date".toList, "Latest Watch Progress".toList]
        records := [["Pilot".toList, "2400".toList, "2024-05-01T12:00:00Z".toList,
          "Completed".toList]] })]

end archive

end AnyList.Imports.PrimeVideo
