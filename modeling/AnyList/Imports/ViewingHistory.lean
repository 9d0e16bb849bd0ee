import AnyList.Library.KeyedInserts
import Mathlib.Data.List.Basic

namespace AnyList.Imports.ViewingHistory

open AnyList.Library.KeyedInserts

abbrev Text := List Char

scoped instance lawfulBEqText : LawfulBEq Text := inferInstance

/-- Python's `in` for a list of texts. -/
def isAmong (text : Text) (texts : List Text) : Bool := texts.any fun other ↦ decide (other = text)

/-- What the parser takes from Python: Unicode text and dates, here as day numbers. -/
structure Python where
  isSpace : Char → Bool
  nfkd : Text → Text
  combining : Char → Bool
  casefold : Text → Text
  lower : Text → Text
  ignoreCase : Char → Char → Bool
  isDigit : Char → Bool
  digits : Text → Option ℕ
  /-- Letters and digits, of any script. -/
  isLetter : Char → Bool
  fromIsoFormat : Text → Option Int
  strptime : Text → String → Option Int

namespace Python

variable (py : Python)

def strip (text : Text) : Text :=
  ((text.dropWhile py.isSpace).reverse.dropWhile py.isSpace).reverse

def isKeyChar (c : Char) : Bool := ('a' ≤ c && c ≤ 'z') || ('0' ≤ c && c ≤ '9')

/-- The text with case, diacritics and the ampersand resolved. -/
def folded (text : Text) : Text :=
  (py.casefold ((py.nfkd text).filter fun c ↦ !py.combining c)).flatMap fun c ↦
    if c = '&' then " and ".toList else [c]

/-- Case/diacritic/punctuation-insensitive key for titles. -/
def normText (text : Text) : Text :=
  [' '].intercalate (((py.folded text).splitOnP fun c ↦ !isKeyChar c).filter (· ≠ []))

def isFiller (c : Char) : Bool := py.isSpace c || c == ':' || c == ';'

/-- The rest of the text behind a word, whatever its case. -/
def dropWord : Text → Text → Option Text
  | [], text => some text
  | _ :: _, [] => none
  | w :: word, c :: text => if py.ignoreCase w c then dropWord word text else none

/-- An episode number or `X`, and then nothing but filler. -/
def endsInNumber (text : Text) : Bool :=
  let number := match text.dropWhile py.isSpace with
    | '#' :: rest => rest.dropWhile py.isSpace
    | rest => rest
  (!(number.takeWhile py.isDigit).isEmpty && (number.dropWhile py.isDigit).all py.isFiller) ||
    ((py.dropWord ['X'] number).any fun rest ↦ rest.all py.isFiller)

def titlelessNetflixRow (title : Text) : Bool :=
  let rest := title.dropWhile py.isFiller
  (!title.isEmpty && rest.isEmpty) ||
    (decide (rest.length < title.length) &&
      ((py.dropWord "Episode".toList rest).any py.endsInNumber ||
        (py.dropWord "Folge".toList rest).any py.endsInNumber))

def dateFormats (value : Text) (language : Option Text) : List String :=
  let lang := (py.lower (language.getD [])).map fun c ↦ if c = '_' then '-' else c
  let german := ["de", "fr", "es", "it", "nl", "da", "fi", "no", "sv", "pt"].any fun code ↦
    code.toList.isPrefixOf lang
  if '.' ∈ value then ["%d.%m.%Y", "%d.%m.%y"]
  else if '/' ∈ value then
    let pieces := value.splitOn '/'
    if (pieces.length = 3 ∧ ((pieces.head?.bind py.digits).any fun day ↦ decide (12 < day)) = true) ∨
        german = true then
      ["%d/%m/%Y", "%d/%m/%y", "%m/%d/%Y", "%m/%d/%y"]
    else ["%m/%d/%Y", "%m/%d/%y", "%d/%m/%Y", "%d/%m/%y"]
  else ["%d-%m-%Y", "%d-%m-%y", "%m-%d-%Y", "%m-%d-%y",
    "%B %d, %Y", "%b %d, %Y", "%d %B %Y", "%d %b %Y"]

def parseDate (raw : Text) (language : Option Text) : Except Text Int :=
  let value := py.strip raw
  if value = [] then .error "Missing viewing date".toList
  else match py.fromIsoFormat (value.take 10) with
    | some date => .ok date
    | none =>
      match (py.dateFormats value language).findSome? (py.strptime value) with
      | some date => .ok date
      | none => .error ("Invalid viewing date: ".toList ++ value)

end Python

/-- What the header of a file settles: its columns, the two that are read, and the language. -/
structure Layout where
  columns : List Text
  titleColumn : Text
  dateColumn : Text
  language : Option Text

/-- The cell of a column; of columns with one name the last one counts, and a short row has no
cell there. -/
def cell (columns : List Text) (column : Text) (record : List Text) : Option Text :=
  let cells := columns.mapIdx fun i name ↦ (name, record[i]?)
  ((cells.filter fun entry ↦ decide (entry.1 = column)).getLast?).bind Prod.snd

/-- One source title/date observation. -/
structure NetflixWatch where
  row : ℕ
  sourceTitle : Text
  watchedAt : Int
  sourceRows : List ℕ

structure RowError where
  row : ℕ
  message : Text

structure ParsedHistory where
  rows : List NetflixWatch
  errors : List RowError
  totalRows : ℕ
  duplicateRows : ℕ
  excludedRows : ℕ

/-- What becomes of one record of the file. -/
inductive Reading
  | blank
  | rejected (message : Text)
  | titleless
  | watched (title : Text) (date : Int)

variable (py : Python) (layout : Layout)

def readRow (record : List Text) : Reading :=
  let rawTitle := py.strip ((cell layout.columns layout.titleColumn record).getD [])
  let rawDate := py.strip ((cell layout.columns layout.dateColumn record).getD [])
  if rawTitle = [] ∧ rawDate = [] then .blank
  else if layout.columns.length < record.length then
    .rejected "Unexpected extra CSV field(s)".toList
  else if rawTitle = [] then .rejected "Missing title".toList
  else if py.titlelessNetflixRow rawTitle then .titleless
  else match py.parseDate rawDate layout.language with
    | .error message => .rejected message
    | .ok date => .watched rawTitle date

def watchKey (watch : NetflixWatch) : Text × Int := (py.normText watch.sourceTitle, watch.watchedAt)

def addSourceRow (watch repeated : NetflixWatch) : NetflixWatch :=
  { watch with sourceRows := watch.sourceRows ++ [repeated.row] }

/-- The observations by key; `seen` of the source. -/
def addWatch (rows : List NetflixWatch) (watch : NetflixWatch) : List NetflixWatch :=
  insertWith (watchKey py) id addSourceRow rows watch

def addRow (parsed : ParsedHistory) (numbered : ℕ × List Text) : ParsedHistory :=
  match readRow py layout numbered.2 with
  | .blank => parsed
  | .rejected message => { parsed with
      totalRows := parsed.totalRows + 1
      errors := parsed.errors ++ [⟨numbered.1, message⟩] }
  | .titleless => { parsed with
      totalRows := parsed.totalRows + 1
      excludedRows := parsed.excludedRows + 1 }
  | .watched title date =>
    let watch : NetflixWatch := ⟨numbered.1, title, date, [numbered.1]⟩
    { parsed with
      totalRows := parsed.totalRows + 1
      rows := addWatch py parsed.rows watch
      duplicateRows := if watchKey py watch ∈ parsed.rows.map (watchKey py) then
        parsed.duplicateRows + 1 else parsed.duplicateRows }

/-- The records behind the header, numbered from 2. -/
def numberedRows (records : List (List Text)) : List (ℕ × List Text) :=
  (records.zipIdx 2).map Prod.swap

def parseNetflixCsv (records : List (List Text)) : ParsedHistory :=
  (numberedRows records).foldl (addRow py layout) ⟨[], [], 0, 0, 0⟩

/-- The letters and digits of a title: what is left when case, diacritics, spacing and punctuation
do not count. -/
def letters (title : Text) : Text :=
  (py.folded title).filter fun c ↦ Python.isKeyChar c || py.isLetter c

/-- The letters that the key leaves out, with their places among those that it keeps. -/
def otherLetters (title : Text) : List (Option Char) :=
  (letters py title).map fun c ↦ if Python.isKeyChar c then none else some c

/-- A row with a title or a date. -/
def holdsData (row : ℕ × List Text) : Bool :=
  decide (py.strip ((cell layout.columns layout.titleColumn row.2).getD []) ≠ [] ∨
    py.strip ((cell layout.columns layout.dateColumn row.2).getD []) ≠ [])

def isTitleless (row : ℕ × List Text) : Bool :=
  match readRow py layout row.2 with
  | .titleless => true
  | _ => false

def dataRows (rows : List (ℕ × List Text)) : List ℕ :=
  (rows.filter (holdsData py layout)).map Prod.fst

def titlelessRows (rows : List (ℕ × List Text)) : List ℕ :=
  (rows.filter (isTitleless py layout)).map Prod.fst

namespace ParsedHistory

variable (parsed : ParsedHistory)

def sourceRows : List ℕ := parsed.rows.flatMap NetflixWatch.sourceRows

def errorRows : List ℕ := parsed.errors.map RowError.row

end ParsedHistory

/-- The data rows are those of the observations, of the errors and of the excluded rows, each in
one of them. -/
def RowsAccountedFor (rows : List (ℕ × List Text)) (parsed : ParsedHistory) : Prop :=
  (dataRows py layout rows).length = parsed.totalRows ∧
    parsed.totalRows = parsed.sourceRows.length + parsed.errors.length + parsed.excludedRows ∧
    parsed.excludedRows = (titlelessRows py layout rows).length ∧
    (parsed.sourceRows ++ parsed.errorRows ++ titlelessRows py layout rows).Nodup ∧
    ∀ n ∈ parsed.sourceRows ++ parsed.errorRows ++ titlelessRows py layout rows,
      n ∈ dataRows py layout rows

/-- Two rows of one observation have one date and titles of the same letters. -/
def MergesAlike (rows : List (ℕ × List Text)) (parsed : ParsedHistory) : Prop :=
  ∀ watch ∈ parsed.rows, ∀ row ∈ rows, ∀ row' ∈ rows,
    row.1 ∈ watch.sourceRows → row'.1 ∈ watch.sourceRows →
      ∃ title title' date, readRow py layout row.2 = .watched title date ∧
        readRow py layout row'.2 = .watched title' date ∧ letters py title = letters py title'

/-- Titles of one date that have the same key do not differ in the letters it leaves out. -/
def KeysTell (rows : List (ℕ × List Text)) : Prop :=
  ∀ row ∈ rows, ∀ row' ∈ rows, ∀ title title' date,
    readRow py layout row.2 = .watched title date → readRow py layout row'.2 = .watched title' date →
      py.normText title = py.normText title' → otherLetters py title = otherLetters py title'

section keys

variable {py} {title title' : Text}

theorem filter_intercalate {p : Char → Bool} {sep : Text} (hsep : sep.filter p = [])
    (words : List Text) : (sep.intercalate words).filter p = words.flatten.filter p := by
  induction words with
  | nil => rfl
  | cons word words ih =>
    cases words with
    | nil => simp [List.intercalate_singleton]
    | cons word' words =>
      rw [List.intercalate_cons_cons, List.filter_append, List.filter_append, hsep, ih,
        List.append_nil, ← List.filter_append, ← List.flatten_cons]

theorem flatten_splitOnP (p : Char → Bool) (text : Text) :
    (text.splitOnP p).flatten = text.filter fun c ↦ !p c := by
  induction text with
  | nil => rfl
  | cons c text ih =>
    rw [List.splitOnP_cons_eq_if_modifyHead, List.filter_cons, ← ih]
    cases p c with
    | true => simp
    | false =>
      obtain ⟨word, words, hsplit⟩ := List.exists_cons_of_ne_nil (List.splitOnP_ne_nil p text)
      rw [hsplit]
      rfl

/-- A key has the letters a–z and the digits of its title, in their order. -/
theorem filter_normText (title : Text) :
    (py.normText title).filter Python.isKeyChar = (py.folded title).filter Python.isKeyChar := by
  rw [Python.normText, filter_intercalate (by decide)]
  rw [List.flatten_filter_ne_nil, flatten_splitOnP, List.filter_filter]
  simp

/-- A list is told by what passes a test and by what fails it, in its place. -/
theorem eq_of_filter_of_masked {α : Type*} {p : α → Bool} {l l' : List α}
    (hkept : l.filter p = l'.filter p)
    (hmasked : (l.map fun a ↦ if p a then none else some a) =
      l'.map fun a ↦ if p a then none else some a) : l = l' := by
  induction l generalizing l' with
  | nil =>
    cases l' with
    | nil => rfl
    | cons a l' => exact absurd hmasked (by simp)
  | cons a l ih =>
    cases l' with
    | nil => exact absurd hmasked (by simp)
    | cons a' l' =>
      rw [List.map_cons, List.map_cons, List.cons.injEq] at hmasked
      obtain ⟨hhead, htail⟩ := hmasked
      cases ha : p a with
      | true =>
        have ha' : p a' = true := by
          by_contra hne
          simp [ha, hne] at hhead
        rw [List.filter_cons, List.filter_cons, if_pos ha, if_pos ha', List.cons.injEq] at hkept
        rw [hkept.1, ih hkept.2 htail]
      | false =>
        have ha' : p a' = false := by
          by_contra hne
          simp [ha, hne] at hhead
        rw [List.filter_cons, List.filter_cons, ha, ha'] at hkept
        obtain rfl : a = a' := by simpa [ha, ha'] using hhead
        rw [ih (by simpa using hkept) htail]

/-- Titles of one key have the same letters exactly when they agree in those that it leaves out. -/
theorem letters_eq_iff (h : py.normText title = py.normText title') :
    letters py title = letters py title' ↔ otherLetters py title = otherLetters py title' := by
  constructor
  · intro hletters
    rw [otherLetters, otherLetters, hletters]
  · intro hother
    have hkey (title : Text) :
        (letters py title).filter Python.isKeyChar = (py.normText title).filter Python.isKeyChar := by
      rw [filter_normText, letters, List.filter_filter]
      refine List.filter_congr fun c _ ↦ ?_
      cases Python.isKeyChar c <;> simp
    exact eq_of_filter_of_masked (by rw [hkey, hkey, h]) hother

end keys

section rows

variable {py layout} {records : List (List Text)} {done rows : List (ℕ × List Text)}
  {parsed : ParsedHistory} {row : ℕ × List Text}

theorem nodup_numberedRows : ((numberedRows records).map Prod.fst).Nodup := by
  have hfst : (numberedRows records).map Prod.fst = (records.zipIdx 2).map Prod.snd := by
    rw [numberedRows, List.map_map]
    rfl
  rw [hfst, List.zipIdx_map_snd]
  exact List.nodup_range'

/-- What holds once some rows were taken in. -/
structure TakenIn (py : Python) (layout : Layout) (done : List (ℕ × List Text))
    (parsed : ParsedHistory) : Prop where
  keys : (parsed.rows.map (watchKey py)).Nodup
  rows : (parsed.sourceRows ++ parsed.errorRows ++ titlelessRows py layout done).Perm
    (dataRows py layout done)
  excluded : parsed.excludedRows = (titlelessRows py layout done).length
  total : parsed.totalRows = (dataRows py layout done).length
  origin : ∀ watch ∈ parsed.rows, ∀ n ∈ watch.sourceRows, ∃ record title, (n, record) ∈ done ∧
    readRow py layout record = .watched title watch.watchedAt ∧
      py.normText title = py.normText watch.sourceTitle
  home : ∀ row ∈ done, ∀ title date, readRow py layout row.2 = .watched title date →
    ∃ watch ∈ parsed.rows, row.1 ∈ watch.sourceRows ∧ watchKey py watch = (py.normText title, date)

theorem readRow_eq_blank_iff : readRow py layout row.2 = .blank ↔
    holdsData py layout row = false := by
  have hcond : holdsData py layout row = false ↔
      py.strip ((cell layout.columns layout.titleColumn row.2).getD []) = [] ∧
        py.strip ((cell layout.columns layout.dateColumn row.2).getD []) = [] := by
    simp [holdsData]
  rw [hcond, readRow]
  by_cases hblank : py.strip ((cell layout.columns layout.titleColumn row.2).getD []) = [] ∧
      py.strip ((cell layout.columns layout.dateColumn row.2).getD []) = []
  · exact iff_of_true (by simp only [if_pos hblank]) hblank
  · refine iff_of_false ?_ hblank
    simp only [if_neg hblank]
    split_ifs
    · simp
    · simp
    · simp
    · split <;> simp

theorem dataRows_concat : dataRows py layout (done ++ [row]) =
    dataRows py layout done ++ if holdsData py layout row then [row.1] else [] := by
  rw [dataRows, dataRows, List.filter_append, List.map_append]
  cases h : holdsData py layout row <;> simp [h]

theorem titlelessRows_concat : titlelessRows py layout (done ++ [row]) =
    titlelessRows py layout done ++ if isTitleless py layout row then [row.1] else [] := by
  rw [titlelessRows, titlelessRows, List.filter_append, List.map_append]
  cases h : isTitleless py layout row <;> simp [h]

namespace TakenIn

theorem origin_concat (h : TakenIn py layout done parsed) (row : ℕ × List Text) :
    ∀ watch ∈ parsed.rows, ∀ n ∈ watch.sourceRows, ∃ record title, (n, record) ∈ done ++ [row] ∧
      readRow py layout record = .watched title watch.watchedAt ∧
        py.normText title = py.normText watch.sourceTitle := by
  intro watch hwatch n hn
  obtain ⟨record, title, hmem, hread⟩ := h.origin watch hwatch n hn
  exact ⟨record, title, List.mem_append_left _ hmem, hread⟩

/-- A row that is no observation leaves the observations their homes. -/
theorem home_concat (h : TakenIn py layout done parsed)
    (hread : ∀ title date, readRow py layout row.2 ≠ .watched title date) :
    ∀ row' ∈ done ++ [row], ∀ title date, readRow py layout row'.2 = .watched title date →
      ∃ watch ∈ parsed.rows, row'.1 ∈ watch.sourceRows ∧
        watchKey py watch = (py.normText title, date) := by
  intro row' hmem title date hread'
  obtain hmem | hmem := List.mem_append.mp hmem
  · exact h.home row' hmem title date hread'
  · rw [List.mem_singleton.mp hmem] at hread'
    exact absurd hread' (hread title date)

variable {title : Text} {date : Int}

theorem sourceRows_addWatch (h : TakenIn py layout done parsed) (new : NetflixWatch)
    (hnew : new.sourceRows = [new.row]) :
    ((addWatch py parsed.rows new).flatMap NetflixWatch.sourceRows).Perm
      (parsed.sourceRows ++ [new.row]) := by
  rw [← hnew]
  exact perm_flatMap_insertWith h.keys rfl fun _ ↦ congrArg _ hnew.symm

theorem mem_addWatch {rows : List NetflixWatch} {watch new : NetflixWatch}
    (h : watch ∈ addWatch py rows new) :
    watch ∈ rows ∨ watch = new ∨
      ∃ old ∈ rows, watchKey py old = watchKey py new ∧ watch = addSourceRow old new := by
  rw [addWatch, insertWith] at h
  split_ifs at h
  · obtain ⟨old, hold, heq⟩ := List.mem_map.mp h
    split_ifs at heq with hkey
    · exact .inr (.inr ⟨old, hold, hkey, heq.symm⟩)
    · exact .inl (heq ▸ hold)
  · obtain hmem | hmem := List.mem_append.mp h
    · exact .inl hmem
    · exact .inr (.inl (List.mem_singleton.mp hmem))

/-- What an observation was before, it still is, with no fewer rows. -/
theorem exists_mem_addWatch {rows : List NetflixWatch} {watch : NetflixWatch} (h : watch ∈ rows)
    (new : NetflixWatch) : ∃ watch' ∈ addWatch py rows new,
      watchKey py watch' = watchKey py watch ∧ watch.sourceRows ⊆ watch'.sourceRows ∧
        (watchKey py watch = watchKey py new → new.row ∈ watch'.sourceRows) := by
  rw [addWatch, insertWith]
  split_ifs with hmem
  · refine ⟨_, List.mem_map_of_mem h, ?_⟩
    dsimp only [id_eq]
    split_ifs with hkey
    · exact ⟨rfl, List.subset_append_left _ _, fun _ ↦ List.mem_append_right _ (by simp)⟩
    · exact ⟨rfl, List.Subset.refl _, fun h ↦ absurd h hkey⟩
  · refine ⟨watch, List.mem_append_left _ h, rfl, List.Subset.refl _, fun hkey ↦ ?_⟩
    exact absurd (hkey ▸ List.mem_map_of_mem h) hmem

theorem nodup_addWatch (h : TakenIn py layout done parsed) (new : NetflixWatch) :
    ((addWatch py parsed.rows new).map (watchKey py)).Nodup := by
  have hkeep : ∀ a b, watchKey py (addSourceRow a b) = watchKey py a := fun _ _ ↦ rfl
  exact nodup_insertWith hkeep h.keys new

theorem exists_home_addWatch (rows : List NetflixWatch) {new : NetflixWatch}
    (hnew : new.row ∈ new.sourceRows) : ∃ watch ∈ addWatch py rows new,
      new.row ∈ watch.sourceRows ∧ watchKey py watch = watchKey py new := by
  by_cases hmem : watchKey py new ∈ rows.map (watchKey py)
  · obtain ⟨old, hold, hkey⟩ := List.mem_map.mp hmem
    obtain ⟨watch, hwatch, hkey', -, hrow⟩ := exists_mem_addWatch hold new
    exact ⟨watch, hwatch, hrow hkey, hkey'.trans hkey⟩
  · refine ⟨new, ?_, hnew, rfl⟩
    rw [addWatch, insertWith, id_eq, if_neg hmem]
    exact List.mem_append_right _ (List.mem_singleton_self new)

theorem addRow (h : TakenIn py layout done parsed) (row : ℕ × List Text) :
    TakenIn py layout (done ++ [row]) (addRow py layout parsed row) := by
  rw [ViewingHistory.addRow]
  cases hread : readRow py layout row.2 with
  | blank =>
    have hdata := readRow_eq_blank_iff.mp hread
    have hlist : isTitleless py layout row = false := by simp [isTitleless, hread]
    refine ⟨h.keys, ?_, ?_, ?_, h.origin_concat row, h.home_concat fun title date ↦ by simp [hread]⟩
    · simpa [dataRows_concat, titlelessRows_concat, hdata, hlist] using h.rows
    · simpa [titlelessRows_concat, hlist] using h.excluded
    · simpa [dataRows_concat, hdata] using h.total
  | rejected message =>
    have hdata : holdsData py layout row = true := by
      by_contra hne
      simp [readRow_eq_blank_iff.mpr (Bool.eq_false_iff.mpr hne)] at hread
    have hlist : isTitleless py layout row = false := by simp [isTitleless, hread]
    refine ⟨h.keys, ?_, ?_, ?_, h.origin_concat row, h.home_concat fun title date ↦ by simp [hread]⟩
    · rw [dataRows_concat, titlelessRows_concat, hdata, hlist, if_pos rfl, if_neg (by simp),
        List.append_nil]
      refine List.Perm.trans ?_ (h.rows.append_right [row.1])
      simp only [ParsedHistory.errorRows, ParsedHistory.sourceRows, List.map_append, List.map_cons,
        List.map_nil, List.append_assoc]
      exact (List.perm_append_comm.append_left _).append_left _
    · simpa [titlelessRows_concat, hlist] using h.excluded
    · simpa [dataRows_concat, hdata] using h.total
  | titleless =>
    have hdata : holdsData py layout row = true := by
      by_contra hne
      simp [readRow_eq_blank_iff.mpr (Bool.eq_false_iff.mpr hne)] at hread
    have hlist : isTitleless py layout row = true := by simp [isTitleless, hread]
    refine ⟨h.keys, ?_, ?_, ?_, h.origin_concat row, h.home_concat fun title date ↦ by simp [hread]⟩
    · have hrows := h.rows.append_right [row.1]
      simpa [dataRows_concat, titlelessRows_concat, hdata, hlist, ParsedHistory.errorRows,
        ParsedHistory.sourceRows] using hrows
    · simpa [titlelessRows_concat, hlist] using h.excluded
    · simpa [dataRows_concat, hdata] using h.total
  | watched title date =>
    have hdata : holdsData py layout row = true := by
      by_contra hne
      simp [readRow_eq_blank_iff.mpr (Bool.eq_false_iff.mpr hne)] at hread
    have hlist : isTitleless py layout row = false := by simp [isTitleless, hread]
    refine ⟨h.nodup_addWatch _, ?_, ?_, ?_, ?_, ?_⟩
    · rw [dataRows_concat, titlelessRows_concat, hdata, hlist, if_pos rfl, if_neg (by simp),
        List.append_nil]
      refine List.Perm.trans ?_ (h.rows.append_right [row.1])
      have hsources := h.sourceRows_addWatch ⟨row.1, title, date, [row.1]⟩ rfl
      simp only [ParsedHistory.errorRows, ParsedHistory.sourceRows, List.append_assoc] at hsources ⊢
      refine (hsources.append_right _).trans ?_
      rw [List.append_assoc]
      exact (List.perm_append_comm.trans (.of_eq (List.append_assoc ..))).append_left _
    · simpa [titlelessRows_concat, hlist] using h.excluded
    · simpa [dataRows_concat, hdata] using h.total
    · intro watch hwatch n hn
      obtain hold | rfl | ⟨old, hold, hkey, rfl⟩ := mem_addWatch hwatch
      · exact h.origin_concat row watch hold n hn
      · obtain rfl := List.mem_singleton.mp hn
        exact ⟨row.2, title, List.mem_append_right _ (List.mem_singleton_self row), hread, rfl⟩
      · obtain hn | hn := List.mem_append.mp hn
        · exact h.origin_concat row old hold n hn
        · obtain rfl := List.mem_singleton.mp hn
          rw [watchKey, watchKey, Prod.mk.injEq] at hkey
          refine ⟨row.2, title, List.mem_append_right _ (List.mem_singleton_self row), ?_, hkey.1.symm⟩
          rw [hread]
          exact congrArg _ hkey.2.symm
    · intro row' hmem title' date' hread'
      obtain hmem | hmem := List.mem_append.mp hmem
      · obtain ⟨watch, hwatch, hn, hkey⟩ := h.home row' hmem title' date' hread'
        obtain ⟨watch', hwatch', hkey', hsub, -⟩ :=
          exists_mem_addWatch hwatch ⟨row.1, title, date, [row.1]⟩
        exact ⟨watch', hwatch', hsub hn, hkey'.trans hkey⟩
      · obtain rfl := List.mem_singleton.mp hmem
        obtain ⟨rfl, rfl⟩ : title = title' ∧ date = date' := by simpa [hread] using hread'
        exact exists_home_addWatch _ List.mem_cons_self

end TakenIn

theorem takenIn_foldl (h : TakenIn py layout done parsed) (rows : List (ℕ × List Text)) :
    TakenIn py layout (done ++ rows) (rows.foldl (addRow py layout) parsed) := by
  induction rows generalizing done parsed with
  | nil => simpa using h
  | cons row rows ih =>
    have hstep := ih (h.addRow row)
    rwa [List.append_assoc, List.singleton_append] at hstep

theorem takenIn_parse (records : List (List Text)) :
    TakenIn py layout (numberedRows records) (parseNetflixCsv py layout records) := by
  have hempty : TakenIn py layout [] ⟨[], [], 0, 0, 0⟩ := by
    refine ⟨List.nodup_nil, List.Perm.refl _, rfl, rfl, ?_, ?_⟩
    · exact fun watch hwatch ↦ absurd hwatch List.not_mem_nil
    · exact fun row hrow ↦ absurd hrow List.not_mem_nil
  exact takenIn_foldl hempty (numberedRows records)

theorem TakenIn.accountedFor (h : TakenIn py layout rows parsed)
    (hnodup : (rows.map Prod.fst).Nodup) : RowsAccountedFor py layout rows parsed := by
  have hlength := h.rows.length_eq
  simp only [List.length_append, ParsedHistory.errorRows, List.length_map, ← h.excluded,
    ← h.total] at hlength
  have hdata : (dataRows py layout rows).Nodup := (List.filter_sublist.map _).nodup hnodup
  exact ⟨h.total.symm, hlength.symm, h.excluded, h.rows.nodup_iff.mpr hdata,
    fun n hn ↦ h.rows.mem_iff.mp hn⟩

theorem TakenIn.mergesAlike_iff (h : TakenIn py layout rows parsed)
    (hnodup : (rows.map Prod.fst).Nodup) :
    MergesAlike py layout rows parsed ↔ KeysTell py layout rows := by
  constructor
  · intro hmerges row hrow row' hrow' title title' date hread hread' hkey
    obtain ⟨watch, hwatch, hmem, hwatchKey⟩ := h.home row hrow title date hread
    obtain ⟨watch', hwatch', hmem', hwatchKey'⟩ := h.home row' hrow' title' date hread'
    have hsame : watch = watch' := by
      refine List.inj_on_of_nodup_map h.keys hwatch hwatch' ?_
      rw [hwatchKey, hwatchKey', hkey]
    obtain ⟨first, second, date', hfirst, hsecond, hletters⟩ :=
      hmerges watch hwatch row hrow row' hrow' hmem (hsame ▸ hmem')
    obtain ⟨rfl, -⟩ : title = first ∧ date = date' := by simpa [hread] using hfirst
    obtain ⟨rfl, -⟩ : title' = second ∧ date = date' := by simpa [hread'] using hsecond
    exact (letters_eq_iff hkey).mp hletters
  · intro htell watch hwatch row hrow row' hrow' hmem hmem'
    have horigin {row : ℕ × List Text} (hrow : row ∈ rows) (hmem : row.1 ∈ watch.sourceRows) :
        ∃ title, readRow py layout row.2 = .watched title watch.watchedAt ∧
          py.normText title = py.normText watch.sourceTitle := by
      obtain ⟨record, title, hrecord, hread, hkey⟩ := h.origin watch hwatch row.1 hmem
      have hsame : row = (row.1, record) := List.inj_on_of_nodup_map hnodup hrow hrecord rfl
      rw [hsame]
      exact ⟨title, hread, hkey⟩
    obtain ⟨title, hread, hkey⟩ := horigin hrow hmem
    obtain ⟨title', hread', hkey'⟩ := horigin hrow' hmem'
    refine ⟨title, title', watch.watchedAt, hread, hread', ?_⟩
    rw [letters_eq_iff (hkey.trans hkey'.symm)]
    exact htell row hrow row' hrow' title title' _ hread hread' (hkey.trans hkey'.symm)

/-- A file is accounted for row by row, and merges only rows of one date and the same letters,
exactly when the titles of one date that its keys do not tell apart agree in the letters that the
keys leave out. -/
theorem history_accounted_iff (py : Python) (layout : Layout) (records : List (List Text)) :
    (RowsAccountedFor py layout (numberedRows records) (parseNetflixCsv py layout records) ∧
      MergesAlike py layout (numberedRows records) (parseNetflixCsv py layout records)) ↔
      KeysTell py layout (numberedRows records) := by
  have htaken : TakenIn py layout (numberedRows records) (parseNetflixCsv py layout records) :=
    takenIn_parse records
  rw [htaken.mergesAlike_iff nodup_numberedRows]
  exact and_iff_right (htaken.accountedFor nodup_numberedRows)

end rows

/-- Python on ASCII and Han texts, with the one date that is read. -/
def plainPython : Python where
  isSpace c := c == ' '
  nfkd text := text
  combining _ := false
  casefold text := text.map Char.toLower
  lower text := text.map Char.toLower
  ignoreCase c c' := c.toLower == c'.toLower
  isDigit c := c.isDigit
  digits _ := none
  isLetter c := c.isAlphanum || decide (0x4e00 ≤ c.toNat ∧ c.toNat ≤ 0x9fff)
  fromIsoFormat text := if text = "2024-05-01".toList then some 738277 else none
  strptime _ _ := none

def titleAndDate : Layout := ⟨["Title".toList, "Date".toList], "Title".toList, "Date".toList, none⟩

/-- Two Chinese titles, watched on one day. -/
def twoTitles : List (List Text) :=
  [[['三', '体'], "2024-05-01".toList], [['琅', '琊', '榜'], "2024-05-01".toList]]

theorem two_titles_merge :
    ¬(RowsAccountedFor plainPython titleAndDate (numberedRows twoTitles)
        (parseNetflixCsv plainPython titleAndDate twoTitles) ∧
      MergesAlike plainPython titleAndDate (numberedRows twoTitles)
        (parseNetflixCsv plainPython titleAndDate twoTitles)) := by
  intro h
  have htell := ((takenIn_parse twoTitles).mergesAlike_iff nodup_numberedRows).mp h.2
  have hother := htell (2, [['三', '体'], "2024-05-01".toList]) List.mem_cons_self
    (3, [['琅', '琊', '榜'], "2024-05-01".toList]) (List.mem_cons_of_mem _ List.mem_cons_self)
    ['三', '体'] ['琅', '琊', '榜'] 738277 (by rfl) (by rfl) (by rfl)
  exact absurd hother (by decide)

end AnyList.Imports.ViewingHistory
