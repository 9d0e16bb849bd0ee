import AnyList.Imports.PrimeTitles
import AnyList.Library.Dict
import AnyList.Library.Members

namespace AnyList.Imports.PrimeVideo

open AnyList.Library AnyList.Library.Members
open AnyList.Imports.ViewingHistory (Text cell RowError)
open scoped AnyList.Imports.ViewingHistory

/-- A table of the archive as the CSV reader gives it: its header and its records. -/
structure CsvTable where
  columns : List Text
  records : List (List Text)

/-- The files of an archive, each with its table or with why it cannot be read. -/
abbrev Archive := List (Text × Except Text CsvTable)

structure WatchObservation where
  row : ℕ
  sourceTitle : Text
  watchedAt : Int
  showTitle : Option Text
  seasonLabel : Option Text
  seasonNumber : Option ℕ
  episodeTitle : Option Text
  sourceRows : List ℕ
  watchedSeconds : ℚ
  completedEvidence : Bool

structure ParsedHistory where
  rows : List WatchObservation
  errors : List RowError
  totalRows : ℕ
  duplicateRows : ℕ
  excludedRows : ℕ
  language : Option Text

/-- The counts and the observations of a run over the rows, by title and day. -/
structure Progress where
  observations : Dict (Text × Int) WatchObservation
  errors : List RowError
  totalRows : ℕ
  duplicateRows : ℕ
  excludedRows : ℕ

def Progress.empty : Progress := ⟨.empty, [], 0, 0, 0⟩

/-- A viewing that a row states. -/
structure Viewing where
  title : Text
  day : Int
  seconds : ℚ
  evidence : Bool

def Viewing.key (viewing : Viewing) : Text × Int := (viewing.title, viewing.day)

/-- What becomes of one row. -/
inductive Reading
  | excluded
  | rejected (message : Text)
  | watched (viewing : Viewing)

def maxRows : ℕ := 100000

def minWatchSeconds : ℚ := 600

section tables

/-- The part of a path behind its last separator. -/
def basename (path : Text) : Text :=
  ((path.map fun c ↦ if c = '\\' then '/' else c).splitOn '/').getLast?.getD []

/-- The one file of a name, with the columns that it needs. -/
def findTable (archive : Archive) (filename : String) (required : List String) :
    Except Text (Option CsvTable) :=
  match archive.filter fun file ↦ decide (basename file.1 = filename.toList) with
  | [] => .ok none
  | [file] => do
    let table ← file.2
    if required.all fun column ↦ decide (column.toList ∈ table.columns) then
      if maxRows < table.records.length then
        .error "Too many playback rows in the Amazon export.".toList
      else .ok (some table)
    else .error ("Unrecognized Amazon " ++ filename ++ " columns.").toList
  | _ => .error ("Multiple " ++ filename ++ " files; upload one Prime Video export.").toList

/-- The viewing history and the watch events, which may be missing. -/
def tables (archive : Archive) : Except Text (CsvTable × CsvTable) := do
  if 2000 < archive.length then
    .error "The Amazon archive contains too many files.".toList
  let sessions ← findTable archive "Viewing History.csv"
    ["Title", "Seconds Viewed", "Playback Start Datetime (UTC)"]
  let events ← findTable archive "Watch Events.csv"
    ["Title Name", "Seconds Watched", "Most Recent Watch Date"]
  match sessions with
  | none => .error "The ZIP must contain Prime Video Viewing History.csv.".toList
  | some sessions => .ok (sessions, events.getD ⟨[], []⟩)

end tables

namespace Python

variable (py : Python)

section rows

variable (columns : List Text) (record : List Text)

def get (column : String) : Option Text := cell columns column.toList record

def field (column : String) : Text := py.text (get columns record column)

def isLocale (code : Text) : Bool :=
  let isLetter (c : Char) : Bool := ('a' ≤ c && c ≤ 'z') || ('A' ≤ c && c ≤ 'Z')
  match code with
  | [a, b] => isLetter a && isLetter b
  | [a, b, '-', c, d] => isLetter a && isLetter b && isLetter c && isLetter d
  | _ => false

def localeCode : Option Text :=
  let code := py.field columns record "Preferred Language Code"
  if isLocale code then some (py.lower code) else none

def sessionTitle : Text := py.field columns record "Title"

def isDeleted (column : String) : Bool :=
  decide (py.lower (py.field columns record column) = "yes".toList)

def isFeature : Bool :=
  decide (py.lower (py.field columns record "Material Type Description") ∈
    ["full".toList, "feature".toList])

/-- What becomes of a row of the viewing history. -/
def readSession : Except Text Reading := do
  let title := py.sessionTitle columns record
  let watched := py.seconds (get columns record "Seconds Viewed")
  if title = [] ∨ py.promotional title ∨ py.isDeleted columns record "Is Deleted" ∨
      ¬py.isFeature columns record ∨ watched < minWatchSeconds then pure .excluded
  else match ← py.date (get columns record "Playback Start Datetime (UTC)") with
    | none => pure (.rejected "Invalid playback date".toList)
    | some day => pure (.watched ⟨title, day, watched, false⟩)

def summaryName : Text := py.field columns record "Title Name"

def isCompletion : Bool :=
  decide (py.casefold (py.field columns record "Latest Watch Progress") ∈
    ["completed".toList, "complete".toList, "finished".toList, "100%".toList])

end rows

/-- The most common locale, of several the first one. -/
def language (sessions : CsvTable) : Option Text :=
  let codes := sessions.records.filterMap (py.localeCode sessions.columns)
  firstMax (fun code ↦ codes.count code) (distinct codes)

/-- The standalone names of the watch events. -/
def episodeTitles (events : CsvTable) : Finset Text :=
  (((events.records.map (py.summaryName events.columns)).filter (· ≠ [])).map py.casefold).toFinset

section summaries

variable (sessions : CsvTable) (identityOf : Text → Identity)

def titles : List Text := sessions.records.map (py.sessionTitle sessions.columns)

/-- The detailed titles whose episode or film has a name, up to case and punctuation. -/
def namesakes (name : Text) : List Text :=
  (py.titles sessions).filter fun title ↦
    decide (py.normText (identityOf title).episode = py.normText name)

/-- The titles with a feature record that was not deleted. -/
def eligibleTitles : List Text :=
  (sessions.records.filter fun record ↦ py.isFeature sessions.columns record &&
    !py.isDeleted sessions.columns record "Is Deleted").map (py.sessionTitle sessions.columns)

/-- What becomes of a row of the watch events. -/
def readSummary (columns record : List Text) : Except Text Reading :=
  let name := py.summaryName columns record
  let watched := py.seconds (get columns record "Seconds Watched")
  match onlyMember (py.namesakes sessions identityOf name) with
  | some resolved =>
    if py.promotional name ∨ py.isDeleted columns record "Deleted from Watch History" ∨
        watched < minWatchSeconds ∨ resolved ∉ py.eligibleTitles sessions then .ok .excluded
    else do match ← py.date (get columns record "Most Recent Watch Date") with
      | none => pure (.rejected "Invalid viewing date".toList)
      | some day => pure (.watched ⟨resolved, day, watched, py.isCompletion columns record⟩)
  | none => .ok .excluded

end summaries

end Python

section run

variable (identityOf : Text → Identity)

/-- The observation of a first row of its title and day. -/
def observe (number : ℕ) (viewing : Viewing) : WatchObservation :=
  let identity := identityOf viewing.title
  let hasShow := identity.showTitle.any (· ≠ [])
  { row := number
    sourceTitle := if hasShow then viewing.title else identity.episode
    watchedAt := viewing.day
    showTitle := identity.showTitle
    seasonLabel := (identity.season.filter (· ≠ 0)).map fun season ↦
      ("Season " ++ toString season).toList
    seasonNumber := identity.season
    episodeTitle := if hasShow then some identity.episode else none
    sourceRows := [number]
    watchedSeconds := viewing.seconds
    completedEvidence := viewing.evidence }

def WatchObservation.absorb (observation : WatchObservation) (viewing : Viewing) :
    WatchObservation :=
  { observation with
    completedEvidence := observation.completedEvidence || viewing.evidence
    watchedSeconds := max observation.watchedSeconds viewing.seconds }

/-- Adds a viewing; a row of a title and day that are there merges into their observation. -/
def add (progress : Progress) (number : ℕ) (viewing : Viewing) : Progress :=
  match progress.observations.get viewing.key with
  | some observation =>
    { progress with
      observations := progress.observations.set viewing.key (observation.absorb viewing)
      duplicateRows := progress.duplicateRows + 1 }
  | none =>
    { progress with
      observations := progress.observations.set viewing.key (observe identityOf number viewing) }

def addRow (progress : Progress) (numbered : Reading × ℕ) : Progress :=
  let counted := { progress with totalRows := progress.totalRows + 1 }
  match numbered.1 with
  | .excluded => { counted with excludedRows := counted.excludedRows + 1 }
  | .rejected message =>
    { counted with errors := counted.errors ++ [⟨numbered.2, message⟩] }
  | .watched viewing => add identityOf counted numbered.2 viewing

/-- The rows of the viewing history, numbered from 2, and behind them those of the events. -/
def takeRows (sessionRows eventRows : List Reading) : Progress :=
  let viewed := (sessionRows.zipIdx 2).foldl (addRow identityOf) .empty
  (eventRows.zipIdx (sessionRows.length + 2)).foldl (addRow identityOf) viewed

end run

/-- The observations from the latest day on, with the counts. -/
def Progress.parsed (progress : Progress) (language : Option Text) : ParsedHistory where
  rows := progress.observations.values.mergeSort fun a b ↦ b.watchedAt ≤ a.watchedAt
  errors := progress.errors
  totalRows := progress.totalRows
  duplicateRows := progress.duplicateRows
  excludedRows := progress.excludedRows
  language := language

namespace Python

variable (py : Python)

/-- How the rows split a title; every title of a session has been split before. -/
def identityOf (episodeTitles : Finset Text) (title : Text) : Identity :=
  (py.identity episodeTitles title).toOption.getD ⟨title, none, none⟩

/-- What becomes of the rows of both tables. An exception ends the import wherever it is raised. -/
def readRows (sessions events : CsvTable) : Except Text (List Reading × List Reading) := do
  let episodeTitles := py.episodeTitles events
  let _ ← (py.titles sessions).mapM (py.identity episodeTitles)
  let sessionRows ← sessions.records.mapM (py.readSession sessions.columns)
  let eventRows ← events.records.mapM
    (py.readSummary sessions (py.identityOf episodeTitles) events.columns)
  pure (sessionRows, eventRows)

def parseAmazonZip (archive : Archive) (language : Option Text) : Except Text ParsedHistory := do
  let (sessions, events) ← tables archive
  let (sessionRows, eventRows) ← py.readRows sessions events
  let progress := takeRows (py.identityOf (py.episodeTitles events)) sessionRows eventRows
  pure (progress.parsed (if (language.getD []) = [] then py.language sessions else language))

end Python

end AnyList.Imports.PrimeVideo
