import AnyList.Timestamps
import AnyList.Library.Doubles
import AnyList.Library.PyText

namespace AnyList.Reconciliation.ClockReaders

open AnyList.Timestamps AnyList.Library.Doubles AnyList.Library.PyText AnyList.Library.Octets

inductive PyError
  | valueError
  | overflowError
  deriving DecidableEq

inductive PyFloat
  | nan
  | infinite (negative : Bool)
  | finite (q : ℚ)
  deriving DecidableEq

section numbers

/-- The double nearest to a number. -/
def PyFloat.ofRat (q : ℚ) : PyFloat :=
  let x := nearest 53 q
  if |x| < 2 ^ 1024 then .finite x else .infinite (decide (q < 0))

def floatOfInt (n : ℤ) : Except PyError PyFloat :=
  match PyFloat.ofRat n with
  | .finite x => .ok (.finite x)
  | _ => .error .overflowError

def PyFloat.isMilliseconds : PyFloat → Bool
  | .nan => false
  | .infinite negative => !negative
  | .finite q => decide (10000000000 < q)

def PyFloat.thousandth : PyFloat → PyFloat
  | .finite q => .ofRat (q / 1000)
  | x => x

/-- A number above ten thousand million counts milliseconds. -/
def PyFloat.seconds (x : PyFloat) : PyFloat := if x.isMilliseconds then x.thousandth else x

/-- The moments that a date from year 1 to year 9999 can name, in microseconds. -/
def InYears (t : Int) : Prop := -62135596800000000 ≤ t ∧ t < 253402300800000000

instance (t : Int) : Decidable (InYears t) := inferInstanceAs (Decidable (_ ∧ _))

/-- The microseconds of a number of seconds: the fraction is scaled apart and rounded. -/
def microseconds (q : ℚ) : Int :=
  let whole := q.num.tdiv q.den
  whole * 1000000 + roundEven (nearest 53 ((q - whole) * 1000000))

def fromtimestamp : PyFloat → Except PyError Int
  | .nan => .error .valueError
  | .infinite _ => .error .overflowError
  | .finite q =>
    if InYears (microseconds q) then .ok (microseconds q)
    else if |q| < 2 ^ 63 then .error .valueError
    else .error .overflowError

end numbers

/-- A datetime as naive UTC: conversion leaves the calendar at its two ends. -/
def naiveUtcOf (value : DateTime) : Except PyError Int :=
  if value.utcOffset.isSome ∧ ¬InYears value.instant then .error .overflowError
  else .ok (naiveUtc value)

inductive ProviderValue
  | absent
  | int (n : ℤ)
  | float (x : PyFloat)
  | text (t : Text)
  | datetime (d : DateTime)

/-- The characters that count as digits, those that have a decimal value, and the texts that
are ISO dates. -/
structure TextReader where
  isDigit : ℕ → Bool
  decimal : ℕ → Option ℕ
  fromisoformat : Text → Option DateTime
  fromisoformat_nil : fromisoformat [] = none

namespace TextReader

variable (reader : TextReader)

def isdigit (t : Text) : Bool := !t.isEmpty && t.all reader.isDigit

/-- Digits with at most one point. -/
def isNumeric (t : Text) : Bool := reader.isdigit ((strip t).erase 0x2E)

/-- What `float` reads from digits with at most one point. -/
def floatOfText (t : Text) : Except PyError PyFloat :=
  let body := strip t
  let fraction := (body.dropWhile (· ≠ 0x2E)).drop 1
  match (body.takeWhile (· ≠ 0x2E) ++ fraction).mapM reader.decimal with
  | none => .error .valueError
  | some digits =>
    let number : ℕ := digits.foldl (fun n d ↦ n * 10 + d) 0
    .ok (.ofRat (number / 10 ^ fraction.length))

def utcDesignator (c : ℕ) : Text :=
  if c = 0x5A then [0x2B, 0x30, 0x30, 0x3A, 0x30, 0x30] else [c]

def isoDate (t : Text) : Option DateTime := reader.fromisoformat (t.flatMap utcDesignator)

end TextReader

section providerChangedAt

variable (reader : TextReader)

structure Evidence where
  updatedAt : ProviderValue
  modifiedAt : ProviderValue
  watchedAt : ProviderValue
  lastWatched : ProviderValue

def Evidence.fields (row : Evidence) : List ProviderValue :=
  [row.updatedAt, row.modifiedAt, row.watchedAt, row.lastWatched]

/-- The clock of one field. A text that is no date leaves the turn to the next field. -/
def fieldClock : ProviderValue → Except PyError (Option Int)
  | .absent => .ok none
  | .text [] => .ok none
  | .datetime d => some <$> naiveUtcOf d
  | .int n => do
    let x ← floatOfInt n
    let t ← fromtimestamp x.seconds
    pure (some (milliseconds t))
  | .float x => do
    let t ← fromtimestamp x.seconds
    pure (some (milliseconds t))
  | .text t =>
    match reader.isoDate t with
    | none => .ok none
    | some d => some <$> naiveUtcOf d

def firstClock : List ProviderValue → Except PyError (Option Int)
  | [] => .ok none
  | value :: values => do
    match ← fieldClock reader value with
    | some t => pure (some t)
    | none => firstClock values

def providerChangedAt (row : Evidence) : Except PyError (Option Int) :=
  firstClock reader row.fields

/-- The row that has a watch date alone. -/
def Evidence.watched (value : ProviderValue) : Evidence := ⟨.absent, .absent, value, .absent⟩

theorem providerChangedAt_watched (value : ProviderValue) :
    providerChangedAt reader (.watched value) = fieldClock reader value := by
  have hskip (values : List ProviderValue) :
      firstClock reader (.absent :: values) = firstClock reader values := rfl
  rw [providerChangedAt, Evidence.fields, Evidence.watched, hskip, hskip, firstClock]
  cases fieldClock reader value with
  | error e => rfl
  | ok t => cases t <;> rfl

end providerChangedAt

section normalizeWatchDatetime

variable (reader : TextReader)

/-- A number of seconds that names no moment is no date. -/
def momentOf (x : PyFloat) : Option Int :=
  match fromtimestamp x.seconds with
  | .ok t => some (milliseconds t)
  | .error _ => none

def normalizeWatchDatetime : ProviderValue → Except PyError (Option Int)
  | .absent => .ok none
  | .datetime d => some <$> naiveUtcOf d
  | .int n => momentOf <$> floatOfInt n
  | .float x => .ok (momentOf x)
  | .text t =>
    if reader.isNumeric t then momentOf <$> reader.floatOfText t
    else match reader.isoDate t with
      | none => .ok none
      | some d => some <$> naiveUtcOf d

end normalizeWatchDatetime

section agreement

variable (reader : TextReader)

/-- Both readers answer, and with the same millisecond of UTC or none. -/
def ReadAlike (value : ProviderValue) : Prop :=
  ∃ t, providerChangedAt reader (.watched value) = .ok t ∧
    normalizeWatchDatetime reader value = .ok t

/-- A number of seconds, or milliseconds, of a moment that a date can name. -/
def NamesMoment (x : PyFloat) (t : Int) : Prop := fromtimestamp x.seconds = .ok t

/-- A date that stays on the calendar in UTC. -/
def Convertible (d : DateTime) : Prop := d.utcOffset = none ∨ InYears d.instant

/-- The values that both readers read alike. A text of digits is a number to one of them and a
date, or nothing, to the other. -/
def Unambiguous : ProviderValue → Prop
  | .absent => True
  | .datetime d => Convertible d
  | .int n => ∃ x t, floatOfInt n = .ok x ∧ NamesMoment x t
  | .float x => ∃ t, NamesMoment x t
  | .text t =>
    if reader.isNumeric t then
      ∃ x, reader.floatOfText t = .ok x ∧
        match reader.isoDate t with
        | none => ∀ s, ¬NamesMoment x s
        | some d => Convertible d ∧ ∃ s, NamesMoment x s ∧ milliseconds s = naiveUtc d
    else ∀ d, reader.isoDate t = some d → Convertible d

variable {reader} {x : PyFloat} {d : DateTime} {t : Int}

theorem naiveUtcOf_eq_ok : naiveUtcOf d = .ok t ↔ Convertible d ∧ naiveUtc d = t := by
  rw [naiveUtcOf, Convertible]
  cases hoffset : d.utcOffset with
  | none => simp
  | some offset => by_cases hyears : InYears d.instant <;> simp [hyears]

theorem someNaiveUtcOf_eq_ok {r : Option Int} :
    some <$> naiveUtcOf d = .ok r ↔ Convertible d ∧ some (naiveUtc d) = r := by
  cases hclock : naiveUtcOf d with
  | error e =>
    refine iff_of_false (by rintro ⟨⟩) fun h ↦ ?_
    rw [naiveUtcOf_eq_ok.mpr ⟨h.1, rfl⟩] at hclock
    cases hclock
  | ok t =>
    obtain ⟨hconvertible, rfl⟩ := naiveUtcOf_eq_ok.mp hclock
    exact ⟨fun h ↦ ⟨hconvertible, Except.ok.inj h⟩, fun h ↦ congrArg Except.ok h.2⟩

theorem momentOf_eq_some : momentOf x = some t ↔ ∃ s, NamesMoment x s ∧ milliseconds s = t := by
  rw [momentOf]
  cases h : fromtimestamp x.seconds with
  | ok s => simp [NamesMoment, h]
  | error e => simp [NamesMoment, h]

theorem momentOf_eq_none : momentOf x = none ↔ ∀ s, ¬NamesMoment x s := by
  rw [momentOf]
  cases h : fromtimestamp x.seconds with
  | ok s => simp [NamesMoment, h]
  | error e => simp [NamesMoment, h]

theorem readAlike_iff_fieldClock {value : ProviderValue} : ReadAlike reader value ↔
    ∃ t, fieldClock reader value = .ok t ∧ normalizeWatchDatetime reader value = .ok t := by
  simp only [ReadAlike, providerChangedAt_watched]

theorem readAlike_datetime : ReadAlike reader (.datetime d) ↔ Convertible d := by
  rw [readAlike_iff_fieldClock]
  simp only [fieldClock, normalizeWatchDatetime, and_self]
  simp only [someNaiveUtcOf_eq_ok]
  exact ⟨fun ⟨_, h, _⟩ ↦ h, fun h ↦ ⟨_, h, rfl⟩⟩

theorem readAlike_float : ReadAlike reader (.float x) ↔ ∃ t, NamesMoment x t := by
  rw [readAlike_iff_fieldClock]
  simp only [fieldClock, normalizeWatchDatetime, momentOf, NamesMoment]
  cases fromtimestamp x.seconds with
  | ok s => exact iff_of_true ⟨_, rfl, rfl⟩ ⟨s, rfl⟩
  | error e =>
    refine iff_of_false ?_ ?_
    · rintro ⟨_, ⟨⟩, -⟩
    · rintro ⟨_, ⟨⟩⟩

theorem readAlike_int {n : ℤ} :
    ReadAlike reader (.int n) ↔ ∃ x t, floatOfInt n = .ok x ∧ NamesMoment x t := by
  cases hfloat : floatOfInt n with
  | error e =>
    refine iff_of_false ?_ ?_
    · rintro ⟨_, -, hread⟩
      rw [normalizeWatchDatetime, hfloat] at hread
      cases hread
    · rintro ⟨_, _, ⟨⟩, -⟩
  | ok x =>
    have hclock : fieldClock reader (.int n) = fieldClock reader (.float x) := by
      rw [fieldClock, hfloat, fieldClock]
      rfl
    have hdate : normalizeWatchDatetime reader (.int n) =
        normalizeWatchDatetime reader (.float x) := by
      rw [normalizeWatchDatetime, hfloat, normalizeWatchDatetime]
      rfl
    rw [readAlike_iff_fieldClock, hclock, hdate, ← readAlike_iff_fieldClock, readAlike_float]
    refine ⟨fun ⟨t, ht⟩ ↦ ⟨x, t, rfl, ht⟩, ?_⟩
    rintro ⟨_, t, ⟨⟩, ht⟩
    exact ⟨t, ht⟩

/-- What the evidence reader makes of a text. -/
theorem fieldClock_text (t : Text) : fieldClock reader (.text t) =
    match reader.isoDate t with
    | none => .ok none
    | some d => some <$> naiveUtcOf d := by
  cases t with
  | nil =>
    have hnone : reader.isoDate [] = none := reader.fromisoformat_nil
    rw [hnone]
    rfl
  | cons c t => rfl

theorem readAlike_date {t : Text} (h : reader.isNumeric t = false) :
    ReadAlike reader (.text t) ↔ ∀ d, reader.isoDate t = some d → Convertible d := by
  rw [readAlike_iff_fieldClock, fieldClock_text, normalizeWatchDatetime, if_neg (by simp [h])]
  cases hiso : reader.isoDate t with
  | none => exact iff_of_true ⟨none, rfl, rfl⟩ fun d hd ↦ by cases hd
  | some d =>
    simp only [and_self, someNaiveUtcOf_eq_ok, Option.some.injEq, forall_eq']
    exact ⟨fun ⟨_, h, _⟩ ↦ h, fun h ↦ ⟨_, h, rfl⟩⟩

theorem readAlike_numeral {t : Text} (h : reader.isNumeric t = true) :
    ReadAlike reader (.text t) ↔ ∃ x, reader.floatOfText t = .ok x ∧
      match reader.isoDate t with
      | none => ∀ s, ¬NamesMoment x s
      | some d => Convertible d ∧ ∃ s, NamesMoment x s ∧ milliseconds s = naiveUtc d := by
  rw [readAlike_iff_fieldClock, fieldClock_text, normalizeWatchDatetime, if_pos h]
  cases hfloat : reader.floatOfText t with
  | error e =>
    refine iff_of_false ?_ ?_
    · rintro ⟨_, -, ⟨⟩⟩
    · rintro ⟨_, ⟨⟩, -⟩
  | ok x =>
    cases hiso : reader.isoDate t with
    | none =>
      refine ⟨?_, ?_⟩
      · rintro ⟨r, ⟨⟩, hr⟩
        exact ⟨x, rfl, momentOf_eq_none.mp (Except.ok.inj hr)⟩
      · rintro ⟨_, ⟨⟩, hnone⟩
        exact ⟨none, rfl, congrArg Except.ok (momentOf_eq_none.mpr hnone)⟩
    | some d =>
      simp only [someNaiveUtcOf_eq_ok]
      refine ⟨?_, ?_⟩
      · rintro ⟨_, ⟨hconvertible, rfl⟩, hr⟩
        exact ⟨x, rfl, hconvertible, momentOf_eq_some.mp (Except.ok.inj hr)⟩
      · rintro ⟨_, ⟨⟩, hconvertible, hmoment⟩
        exact ⟨_, ⟨hconvertible, rfl⟩, congrArg Except.ok (momentOf_eq_some.mpr hmoment)⟩

theorem readAlike_iff (reader : TextReader) (value : ProviderValue) :
    ReadAlike reader value ↔ Unambiguous reader value := by
  cases value with
  | absent => exact iff_of_true ⟨none, rfl, rfl⟩ trivial
  | int n => exact readAlike_int
  | float x => exact readAlike_float
  | datetime d => exact readAlike_datetime
  | text t =>
    cases h : reader.isNumeric t with
    | true =>
      rw [readAlike_numeral h, Unambiguous, if_pos h]
    | false =>
      rw [readAlike_date h, Unambiguous, if_neg (by simp [h])]

end agreement

section digits

/-- ASCII digits, and no text that is an ISO date. -/
def asciiReader : TextReader where
  isDigit c := decide (0x30 ≤ c ∧ c ≤ 0x39)
  decimal c := if 0x30 ≤ c ∧ c ≤ 0x39 then some (c - 0x30) else none
  fromisoformat _ := none
  fromisoformat_nil := rfl

/-- `1700000000` -/
def secondsText : Text := [0x31, 0x37, 0x30, 0x30, 0x30, 0x30, 0x30, 0x30, 0x30, 0x30]

/-- A clock in digits is a play date to one reader and no clock to the other. -/
theorem digits_read_apart :
    providerChangedAt asciiReader (.watched (.text secondsText)) = .ok none ∧
      normalizeWatchDatetime asciiReader (.text secondsText) = .ok (some 1700000000000000) ∧
      ¬ReadAlike asciiReader (.text secondsText) := by
  have hclock : providerChangedAt asciiReader (.watched (.text secondsText)) = .ok none := by
    decide +kernel
  have hdate : normalizeWatchDatetime asciiReader (.text secondsText) =
      .ok (some 1700000000000000) := by
    decide +kernel
  refine ⟨hclock, hdate, ?_⟩
  rintro ⟨t, ht, ht'⟩
  rw [hclock] at ht
  rw [hdate] at ht'
  obtain rfl := Except.ok.inj ht
  cases Except.ok.inj ht'

end digits

end AnyList.Reconciliation.ClockReaders
