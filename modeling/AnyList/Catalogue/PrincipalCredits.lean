import AnyList.Library.Dict
import AnyList.Library.Doubles
import AnyList.Library.Quotas
import Mathlib.Data.Char
import Mathlib.Data.List.Basic
import Mathlib.Data.List.Lex
import Mathlib.Data.Prod.Lex

namespace AnyList.Catalogue

abbrev Text := List Char

scoped instance : LawfulBEq Text := inferInstanceAs (LawfulBEq (List Char))

/-- What the credit labels take from Python: Unicode classes and letter case. -/
structure Unicode where
  isSpace : Char → Bool
  isWord : Char → Bool
  casefold : Text → Text
  ignoreCase : Char → Char → Bool

namespace CreditRoles

variable (py : Unicode)

def strip (text : Text) : Text :=
  ((text.dropWhile py.isSpace).reverse.dropWhile py.isSpace).reverse

def isSeparator (c : Char) : Bool := c == '_' || py.isSpace c || c == '-'

/-- Each run of separators becomes one blank; `inRun` tells whether one has begun. -/
def joinRuns (inRun : Bool) : Text → Text
  | [] => []
  | c :: text =>
    if isSeparator py c then if inRun then joinRuns true text else ' ' :: joinRuns true text
    else c :: joinRuns false text

def normalLabel (role : Text) : Text := joinRuns py false (py.casefold (strip py role))

def isBoundary (before after : Option Char) : Bool := before.any py.isWord != after.any py.isWord

/-- What stands around the end of `word` where the text begins with it. -/
def endOfWord (same : Char → Char → Bool) : Text → Option Char → Text → Option (Option Char × Text)
  | [], before, text => some (before, text)
  | _ :: _, _, [] => none
  | w :: word, _, c :: text => if same w c then endOfWord same word (some c) text else none

/-- One of the words stands in the text, between word boundaries. -/
def hasWord (same : Char → Char → Bool) (words : List Text) (before : Option Char) : Text → Bool
  | [] => false
  | c :: text =>
    isBoundary py before (some c) &&
        words.any (fun word ↦ (endOfWord same word before (c :: text)).any fun rest ↦
          isBoundary py rest.1 rest.2.head?) ||
      hasWord same words (some c) text

def absentRoles : List Text :=
  ["", "contributor", "unknown", "acknowledgement", "acknowledgements", "acknowledgment",
    "acknowledgments", "dedication", "dedicatee", "in memory of", "in loving memory of",
    "inspiration", "original concept"].map String.toList

def absentWords : List Text := ["uncredited", "archive footage", "archive sound"].map String.toList

def thanksWords : List Text := ["thank", "thanks", "idea", "ideas"].map String.toList

/-- A credit is participation in the work, not a thank-you and not archive material. -/
def workCredit (role character : Option Text) : Bool :=
  let label := normalLabel py (role.getD [])
  !(decide (label ∈ absentRoles)) &&
    !hasWord py (· == ·) (thanksWords ++ absentWords) none label &&
    !hasWord py py.ignoreCase absentWords none (character.getD [])

end CreditRoles

end AnyList.Catalogue

namespace AnyList.Catalogue.PrincipalCredits

open AnyList.Library AnyList.Library.Quotas AnyList.Catalogue.CreditRoles

inductive WorkKind
  | movie
  | series
  | other
  deriving DecidableEq

inductive ContributorKind
  | person
  | organization
  deriving DecidableEq

/-- A value beside a credit. A float that is not finite counts as `other`. -/
inductive Json
  | int (value : ℤ)
  | float (value : ℚ)
  | bool (value : Bool)
  | other
  deriving DecidableEq

structure Evidence where
  totalEpisodeCount : Option Json
  episodeCount : Option Json
  popularity : Option Json
  featured : Option Json
  deriving DecidableEq

structure Credit where
  index : ℕ
  role : Text
  roleLabel : Option Text
  characterLabel : Option Text
  position : Option ℤ
  evidence : Evidence
  deriving DecidableEq

structure Person (ι : Type*) where
  id : ι
  kind : ContributorKind
  imageUrl : Option Text
  deriving DecidableEq

abbrev Row (ι : Type*) := Credit × Person ι

/-- Identities with their texts, which Python's `str` keeps apart. -/
structure Naming (ι : Type*) where
  str : ι → Text
  str_injective : Function.Injective str

def castLimit : WorkKind → ℕ
  | .movie => 16
  | .series => 24
  | .other => 0

def crewLimit : ℕ := 16

def roleGroups : List (List Text) :=
  [["creator", "showrunner", "head writer"],
    ["director", "supervising director"],
    ["writer", "screenplay", "screenwriter", "teleplay", "story", "author",
      "novel", "book", "play", "original story", "characters", "characters created by"],
    ["original music composer", "composer"],
    ["director of photography", "cinematographer", "cinematography"],
    ["editor", "film editor"],
    ["production design", "production designer"],
    ["costume design", "costume designer"],
    ["casting", "casting director"],
    ["visual effects supervisor", "animation director"],
    ["producer", "executive producer"]].map fun jobs ↦ jobs.map String.toList

def groupLimit (rank : ℕ) : ℕ := [4, 4, 4, 2, 2, 2, 1, 1, 1, 1, 2].getD rank 0

variable (py : Unicode)

/-- The label of a job, or its role where the label is missing or empty. -/
def label (credit : Credit) : Text :=
  normalLabel py ((credit.roleLabel.filter (· ≠ [])).getD credit.role)

def group (credit : Credit) : Option ℕ :=
  roleGroups.findIdx? fun jobs ↦ decide (label py credit ∈ jobs)

def isActor (credit : Credit) : Bool := credit.role = "actor".toList

def positive : Option Json → Option ℤ
  | some (.int value) => if 0 < value then some value else none
  | _ => none

def number : Option Json → ℚ
  | some (.int value) => if 0 < value then Doubles.nearest 53 value else 0
  | some (.float value) => if 0 < value then value else 0
  | _ => 0

/-- The integer becomes a double without an `OverflowError`. -/
def isReadable : Option Json → Bool
  | some (.int value) => value.natAbs < 2 ^ 1024 - 2 ^ 970
  | _ => true

def eligible (credit : Credit) (kind : WorkKind) : Bool :=
  if isActor credit then workCredit py (some "Actor".toList) credit.characterLabel
  else (group py credit).isSome &&
    !(decide (kind = .movie) && decide (label py credit = "executive producer".toList))

section ranks

variable {ι : Type*}

def position (entries : List (Row ι)) : ℤ :=
  ((entries.filterMap fun entry ↦ entry.1.position).min?).getD 1000000000

def appearances (entries : List (Row ι)) : ℤ :=
  (entries.map fun entry ↦ ((positive entry.1.evidence.totalEpisodeCount).or
    (positive entry.1.evidence.episodeCount)).getD 0).foldl max 0

def recognition (entries : List (Row ι)) : ℚ :=
  (entries.map fun entry ↦ number entry.1.evidence.popularity).foldl max 0

def isFeatured (entries : List (Row ι)) : Bool :=
  entries.any fun entry ↦ decide (entry.1.evidence.featured = some (.bool true))

def hasImage (entries : List (Row ι)) : Bool :=
  entries.head?.any fun entry ↦ entry.2.imageUrl.any (· ≠ [])

abbrev CastRank := ℕ ×ₗ ℤ ×ₗ ℤ ×ₗ ℤ ×ₗ ℚ ×ₗ Text

/-- A movie goes by billing, recognition and identity alone. -/
def castRank (ids : Naming ι) (kind : WorkKind) (entries : List (Row ι)) (id : ι) : CastRank :=
  let billed := position entries
  let last := toLex (billed, toLex (-recognition entries, ids.str id))
  if kind = .movie then toLex (0, toLex (0, toLex (0, last)))
  else
    toLex (if billed < 8 then 0 else 1, toLex (-appearances entries,
      toLex (if isFeatured entries then -1 else 0, last)))

/-- The best of the groups that a person's jobs are in. -/
def bestGroup (entries : List (Row ι)) : ℕ :=
  ((entries.filterMap fun entry ↦ group py entry.1).min?).getD 0

abbrev CrewRank := ℕ ×ₗ ℚ ×ₗ ℤ ×ₗ Bool ×ₗ ℤ ×ₗ Text

def crewRank (ids : Naming ι) (entries : List (Row ι)) (id : ι) : CrewRank :=
  toLex (bestGroup py entries, toLex (-recognition entries, toLex (-appearances entries,
    toLex (!hasImage entries, toLex (position entries, ids.str id)))))

end ranks

section selection

variable {ι : Type*} [DecidableEq ι] (ids : Naming ι) (kind : WorkKind) (rows : List (Row ι))

def isOrganization (row : Row ι) : Bool := row.2.kind = .organization

def isCastRow (row : Row ι) : Bool :=
  !isOrganization row && eligible py row.1 kind && isActor row.1

def isCrewRow (row : Row ι) : Bool :=
  !isOrganization row && eligible py row.1 kind && !isActor row.1

/-- The rows of one side by their persons. -/
def people (side : Row ι → Bool) : Dict ι (List (Row ι)) :=
  Dict.groupBy (fun row ↦ row.2.id) (rows.filter side)

def entriesOf (side : Row ι → Bool) (id : ι) : List (Row ι) := ((people rows side).get id).getD []

def selectedCast : List ι :=
  let rank id := castRank ids kind (entriesOf rows (isCastRow py kind) id) id
  ((people rows (isCastRow py kind)).keys.insertionSort fun a b ↦ rank a ≤ rank b).take
    (castLimit kind)

def crewKey (id : ι) : CrewRank := crewRank py ids (entriesOf rows (isCrewRow py kind) id) id

def crewGroup (id : ι) : ℕ := bestGroup py (entriesOf rows (isCrewRow py kind) id)

def selectedCrew : List ι :=
  (takeAll (crewGroup py kind rows) groupLimit crewLimit
    ((people rows (isCrewRow py kind)).keys.insertionSort fun a b ↦
      crewKey py ids kind rows a ≤ crewKey py ids kind rows b)).members

def selectedRows : List (Row ι) :=
  (selectedCast py ids kind rows).flatMap (entriesOf rows (isCastRow py kind)) ++
    (selectedCrew py ids kind rows).flatMap (entriesOf rows (isCrewRow py kind)) ++
    rows.filter isOrganization

def selectCredits : Option (List (Row ι)) :=
  if kind = .other then some rows
  else if rows.all (fun row ↦ !(isCastRow py kind row || isCrewRow py kind row) ||
      isReadable row.1.evidence.popularity) then
    some (selectedRows py ids kind rows)
  else none

end selection

end AnyList.Catalogue.PrincipalCredits
