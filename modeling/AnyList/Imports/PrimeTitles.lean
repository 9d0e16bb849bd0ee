import AnyList.Imports.ViewingHistory
import Mathlib.Data.Finset.Basic
import Mathlib.Algebra.Order.Ring.Unbundled.Rat

namespace AnyList.Imports.PrimeVideo

open AnyList.Imports.ViewingHistory (Text cell)

/-- What the archive reader takes from Python besides: numbers, and the date and time of an ISO
text in microseconds, with its offset where it states one. -/
structure Python extends ViewingHistory.Python where
  int : Text → Except Text ℕ
  /-- Finite numbers only. -/
  float : Text → Option ℚ
  dateTime : Text → Option (Int × Option Int)

/-- The parts of a detailed title: the episode or film, and the show and season if there are any. -/
structure Identity where
  episode : Text
  showTitle : Option Text
  season : Option ℕ
  deriving DecidableEq

namespace Python

variable (py : Python)

section cells

def stripQuotes (value : Text) : Text :=
  ((value.dropWhile (· == '\x22')).reverse.dropWhile (· == '\x22')).reverse

def text (value : Option Text) : Text :=
  py.strip (stripQuotes (py.strip (value.getD [])))

def seconds (value : Option Text) : ℚ :=
  match py.float (py.text value) with
  | some number => if 0 ≤ number then number else 0
  | none => 0

def dayLength : Int := 86400 * 1000000

/-- The ordinal of the last day of the year 9999. -/
def lastDay : Int := 3652059

/-- The UTC day of a text; a text without a date or an offset has none, and a day outside the
calendar raises. -/
def date (value : Option Text) : Except Text (Option Int) :=
  let iso := (py.text value).flatMap fun c ↦ if c = 'Z' then "+00:00".toList else [c]
  match py.dateTime iso with
  | some (moment, some offset) =>
    let day := (moment - offset) / dayLength
    if 1 ≤ day ∧ day ≤ lastDay then .ok (some day) else .error "date value out of range".toList
  | _ => .ok none

end cells

section season

def isSeparator (c : Char) : Bool :=
  c == ',' || c == ' ' || c == '\u2013' || c == '\ufffd' || c == '-'

def endsText (rest : Text) : Bool := decide (rest = [] ∨ rest = ['\n'])

/-- Nothing more, or a remark in brackets. -/
def endsSeason (rest : Text) : Bool :=
  endsText rest || match rest.dropWhile py.isSpace with
    | '[' :: body => match body.reverse with
      | ']' :: inside => decide ('\n' ∉ inside)
      | '\n' :: ']' :: inside => decide ('\n' ∉ inside)
      | _ => false
    | _ => false

/-- The rest of the text behind the word for a season. -/
def dropSeasonWord (rest : Text) : Option Text :=
  (py.dropWord "season".toList rest).or (py.dropWord "staffel".toList rest)

/-- The text from the season's number on, if it begins with separators and ends a title. -/
def seasonNumber (rest : Text) : Option Text :=
  if (rest.head?.any isSeparator) = true then
    (py.dropSeasonWord (rest.dropWhile isSeparator)).bind fun behind ↦
      let number := behind.dropWhile py.isSpace
      if number.takeWhile py.isDigit ≠ [] ∧ py.endsSeason (number.dropWhile py.isDigit) = true then
        some number
      else none
  else none

/-- The shortest show, and the text from its season's number on. -/
def matchShow (taken : Text) : Text → Option (Text × Text)
  | [] => none
  | c :: rest =>
    if c = '\n' then none
    else match py.seasonNumber rest with
      | some number => some (taken ++ [c], number)
      | none => matchShow (taken ++ [c]) rest

/-- The longest episode before a hyphen, its show, and the text from the season's number on. -/
def matchEpisode (before : Text) : Text → Option (Text × Text × Text)
  | [] => none
  | c :: rest =>
    if c = '\n' then none
    else match matchEpisode (before ++ [c]) rest with
      | some found => some found
      | none => if c = '-' then (py.matchShow [] rest).map fun found ↦ (before, found) else none

/-- The text without the word for a season at its end. -/
def dropSeason : Text → Text
  | [] => []
  | c :: rest =>
    if isSeparator c && (py.dropSeasonWord (rest.dropWhile isSeparator)).any
        fun behind ↦ behind.all py.isSpace then []
    else c :: dropSeason rest

end season

/-- The hyphens that end the standalone name of an episode. -/
def knownBoundaries (episodeTitles : Finset Text) (title : Text) : List ℕ :=
  (List.range title.length).filter fun position ↦
    decide (title[position]? = some '-' ∧ py.casefold (title.take position) ∈ episodeTitles)

def identity (episodeTitles : Finset Text) (title : Text) : Except Text Identity :=
  match py.matchEpisode [] title with
  | some (episode, showTitle, number) => do
    let season ← py.int (number.takeWhile py.isDigit)
    match py.knownBoundaries episodeTitles title with
    | [boundary] =>
      let combined := title.take (title.length - number.length)
      let suffix := py.dropSeason (combined.drop (boundary + 1))
      pure ⟨py.text (some (title.take boundary)), some (py.text (some suffix)), some season⟩
    | _ => pure ⟨py.text (some episode), some (py.text (some showTitle)), some season⟩
  | none =>
    let parts := title.splitOn '-'
    let middle := parts.length / 2
    let left := ['-'].intercalate (parts.take middle)
    let right := ['-'].intercalate (parts.drop middle)
    if parts.length % 2 = 0 ∧ py.normText left = py.normText right then
      .ok ⟨py.strip left, none, none⟩
    else .ok ⟨title, none, none⟩

section promotional

def isWord (c : Char) : Bool := py.isLetter c || c == '_'

/-- Whether a word begins or ends between two characters. -/
def isBoundary (before after : Option Char) : Bool :=
  before.any py.isWord != after.any py.isWord

def promotionalPhrases : List Text :=
  ["trailer".toList, "teaser".toList, "preview".toList, "behind the scenes".toList]

def promotionalFrom (before : Option Char) : Text → Bool
  | [] => false
  | c :: rest =>
    (py.isBoundary before (some c) && promotionalPhrases.any fun phrase ↦
      (py.dropWord phrase (c :: rest)).any fun behind ↦
        py.isBoundary (c :: rest)[phrase.length - 1]? behind.head?) ||
    promotionalFrom (some c) rest

def promotional (title : Text) : Bool := py.promotionalFrom none title

end promotional

end Python

/-- A Python for texts of ASCII letters and one time. -/
def plainPython : Python where
  toPython := ViewingHistory.plainPython
  int digits := .ok (digits.foldl (fun n c ↦ 10 * n + (c.toNat - 48)) 0)
  float text :=
    if text ≠ [] ∧ text.all Char.isDigit then
      some (text.foldl (fun n c ↦ 10 * n + (c.toNat - 48)) 0 : ℕ)
    else none
  dateTime text :=
    if text = "2024-05-01T12:00:00+00:00".toList then
      some ((738277 * 24 + 12) * 3600 * 1000000, some 0)
    else none

example : (plainPython.identity ∅ "Title-Lucifer - Staffel 4 [dt./OV]".toList).toOption =
    some ⟨"Title".toList, some "Lucifer".toList, some 4⟩ := by
  decide +kernel

example : (plainPython.identity {"white-hot wild".toList}
    "White-Hot Wild-Spider-Man - Season 1".toList).toOption =
      some ⟨"White-Hot Wild".toList, some "Spider-Man".toList, some 1⟩ := by
  decide +kernel

end AnyList.Imports.PrimeVideo
