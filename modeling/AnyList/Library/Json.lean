import AnyList.Library.Octets
import Mathlib.Algebra.Order.Ring.Nat
import Mathlib.Data.Int.Basic
import Mathlib.Data.List.Forall2

namespace AnyList.Library.Json

open AnyList.Library.Octets

/-- A value of a JSON text; a float is a decimal, and a constant is not a number or infinite. -/
inductive Value
  | null
  | bool (value : Bool)
  | int (value : ℤ)
  | float (negative : Bool) (digits : ℕ) (exponent : ℤ)
  | constant (name : String)
  | str (text : Text)
  | arr (items : List Value)
  | obj (fields : List (Text × Value))

/-- A text is no JSON, or has more nested containers than the reader can follow. -/
inductive JsonError
  | value
  | recursion
  deriving DecidableEq

def text (s : String) : Text := s.toList.map Char.toNat

/-- The last of the fields of a name, as a later one replaces an earlier one. -/
def field (name : Text) (fields : List (Text × Value)) : Option Value :=
  (fields.reverse.find? fun field ↦ decide (field.1 = name)).map Prod.snd

section decoding

def joined (high low : ℕ) : ℕ := 0x10000 + (high - 0xD800) * 0x400 + (low - 0xDC00)

def Pair (high low : ℕ) : Prop := 0xD800 ≤ high ∧ high < 0xDC00 ∧ 0xDC00 ≤ low ∧ low < 0xE000

instance decidablePair (high low : ℕ) : Decidable (Pair high low) :=
  inferInstanceAs (Decidable (_ ∧ _ ∧ _))

def joinUnits : List ℕ → Text
  | high :: low :: rest =>
    if Pair high low then joined high low :: joinUnits rest else high :: joinUnits (low :: rest)
  | rest => rest

def ordered (big : Bool) (octets : List ℕ) : ℕ := number (if big then octets else octets.reverse)

def units (big : Bool) : List ℕ → Option (List ℕ)
  | [] => some []
  | a :: b :: rest => (units big rest).map (ordered big [a, b] :: ·)
  | _ => none

def decodeUtf32 (big : Bool) : List ℕ → Option Text
  | [] => some []
  | a :: b :: c :: d :: rest =>
    if ordered big [a, b, c, d] < 0x110000 then
      (decodeUtf32 big rest).map (ordered big [a, b, c, d] :: ·)
    else none
  | _ => none

def decodeUtf16 (big : Bool) (octets : List ℕ) : Option Text := (units big octets).map joinUnits

/-- The encoding is told from a mark or from the zeros at the start; surrogates pass. -/
def decodeText (octets : List ℕ) : Option Text :=
  if [0, 0, 0xFE, 0xFF].isPrefixOf octets then decodeUtf32 true (octets.drop 4)
  else if [0xFF, 0xFE, 0, 0].isPrefixOf octets then decodeUtf32 false (octets.drop 4)
  else if [0xFE, 0xFF].isPrefixOf octets then decodeUtf16 true (octets.drop 2)
  else if [0xFF, 0xFE].isPrefixOf octets then decodeUtf16 false (octets.drop 2)
  else if [0xEF, 0xBB, 0xBF].isPrefixOf octets then decodeUtf8 true (octets.drop 3)
  else match octets with
  | a :: b :: c :: d :: _ =>
    if a = 0 then if b ≠ 0 then decodeUtf16 true octets else decodeUtf32 true octets
    else if b = 0 then
      if c ≠ 0 ∨ d ≠ 0 then decodeUtf16 false octets else decodeUtf32 false octets
    else decodeUtf8 true octets
  | [a, b] =>
    if a = 0 then decodeUtf16 true octets
    else if b = 0 then decodeUtf16 false octets
    else decodeUtf8 true octets
  | _ => decodeUtf8 true octets

end decoding

section scalars

abbrev quote : ℕ := 0x22

abbrev backslash : ℕ := 0x5C

abbrev comma : ℕ := 0x2C

abbrev colon : ℕ := 0x3A

abbrev openBracket : ℕ := 0x5B

abbrev closeBracket : ℕ := 0x5D

abbrev openBrace : ℕ := 0x7B

abbrev closeBrace : ℕ := 0x7D

abbrev letterU : ℕ := 0x75

def whitespace (c : ℕ) : Bool := decide (c = 0x20 ∨ c = 0x09 ∨ c = 0x0A ∨ c = 0x0D)

def skip (t : Text) : Text := t.dropWhile whitespace

def hexValue (c : ℕ) : Option ℕ :=
  if 0x30 ≤ c ∧ c ≤ 0x39 then some (c - 0x30)
  else if 0x61 ≤ c ∧ c ≤ 0x66 then some (c - 0x61 + 10)
  else if 0x41 ≤ c ∧ c ≤ 0x46 then some (c - 0x41 + 10)
  else none

def hexUnit (a b c d : ℕ) : Option ℕ := do
  let a ← hexValue a
  let b ← hexValue b
  let c ← hexValue c
  let d ← hexValue d
  return ((a * 16 + b) * 16 + c) * 16 + d

/-- The letters of the code points that are written with one. -/
def shortEscapes : List (ℕ × ℕ) :=
  [(quote, quote), (backslash, backslash), (0x62, 0x08), (0x66, 0x0C), (0x6E, 0x0A), (0x72, 0x0D),
    (0x74, 0x09)]

/-- A reader also takes an escaped slash. -/
def escapeValue (letter : ℕ) : Option ℕ :=
  (((0x2F, 0x2F) :: shortEscapes).find? fun e ↦ decide (e.1 = letter)).map Prod.snd

/-- A code point of a string, and whether an escape of four digits gave it. -/
def stringUnits : Text → Option (List (Bool × ℕ) × Text)
  | [] => none
  | c :: rest =>
    if c = quote then some ([], rest)
    else if c < 0x20 then none
    else if c ≠ backslash then
      (stringUnits rest).map fun result ↦ ((false, c) :: result.1, result.2)
    else match rest with
    | [] => none
    | e :: rest =>
      if e ≠ letterU then
        (escapeValue e).bind fun value ↦
          (stringUnits rest).map fun result ↦ ((false, value) :: result.1, result.2)
      else match rest with
      | a :: b :: c :: d :: rest =>
        (hexUnit a b c d).bind fun value ↦
          (stringUnits rest).map fun result ↦ ((true, value) :: result.1, result.2)
      | _ => none

/-- Two escapes may be the two halves of one code point. -/
def joinEscapes : List (Bool × ℕ) → Text
  | (true, high) :: (true, low) :: rest =>
    if Pair high low then joined high low :: joinEscapes rest
    else high :: joinEscapes ((true, low) :: rest)
  | (_, c) :: rest => c :: joinEscapes rest
  | [] => []

def string (t : Text) : Option (Text × Text) :=
  (stringUnits t).map fun result ↦ (joinEscapes result.1, result.2)

def digit (c : ℕ) : Bool := decide (0x30 ≤ c ∧ c ≤ 0x39)

def natural (digits : Text) : ℕ := digits.foldl (fun n d ↦ n * 10 + (d - 0x30)) 0

/-- The digits before a point. -/
def wholePart (t : Text) : Text × Text :=
  if t.head? = some 0x30 then ([0x30], t.tail) else (t.takeWhile digit, t.dropWhile digit)

/-- The digits after a point, if there are any. -/
def fractionPart (t : Text) : Text × Text :=
  let digits := t.tail.takeWhile digit
  if t.head? = some 0x2E ∧ digits ≠ [] then (digits, t.tail.dropWhile digit) else ([], t)

def exponentPart (t : Text) : Option ℤ × Text :=
  let sign := t.tail.head?
  let rest := if sign = some 0x2B ∨ sign = some 0x2D then t.tail.tail else t.tail
  let digits := rest.takeWhile digit
  if (t.head? = some 0x65 ∨ t.head? = some 0x45) ∧ digits ≠ [] then
    (some (if sign = some 0x2D then -(natural digits : ℤ) else natural digits),
      rest.dropWhile digit)
  else (none, t)

def numeral (t : Text) : Option (Value × Text) :=
  let negative := decide (t.head? = some 0x2D)
  let (whole, rest) := wholePart (if negative then t.tail else t)
  let (fraction, rest) := fractionPart rest
  let (exponent, rest) := exponentPart rest
  if whole = [] then none
  else if fraction = [] ∧ exponent = none then
    -- longer ones are refused, as their conversion takes too long
    if 4300 < whole.length then none
    else some (.int (if negative then -(natural whole : ℤ) else natural whole), rest)
  else
    some (.float negative (natural (whole ++ fraction)) (exponent.getD 0 - fraction.length), rest)

def literals : List (Text × Value) :=
  [(text "null", .null), (text "true", .bool true), (text "false", .bool false),
    (text "NaN", .constant "NaN"), (text "Infinity", .constant "Infinity"),
    (text "-Infinity", .constant "-Infinity")]

def scalar (t : Text) : Option (Value × Text) :=
  match literals.find? fun literal ↦ literal.1.isPrefixOf t with
  | some literal => some (literal.2, t.drop literal.1.length)
  | none => numeral t

end scalars

section containers

variable {β : Type} (value : Text → Except JsonError (Value × Text))

/-- The parts of a container after its bracket, of which each takes a code point of the text. -/
def parts (part : Text → Except JsonError (β × Text)) (close : ℕ) :
    ℕ → Text → Except JsonError (List β × Text)
  | 0, _ => .error .value
  | fuel + 1, t => do
    let (item, rest) ← part t
    match skip rest with
    | [] => .error .value
    | c :: rest =>
      if c = close then .ok ([item], rest)
      else if c = comma then
        (parts part close fuel (skip rest)).map fun result ↦ (item :: result.1, result.2)
      else .error .value

def container (part : Text → Except JsonError (β × Text)) (close : ℕ) (t : Text) :
    Except JsonError (List β × Text) :=
  if t.head? = some close then .ok ([], t.tail) else parts part close (t.length + 1) t

/-- The name of a field and the text of its value. -/
def fieldName : Text → Option (Text × Text)
  | [] => none
  | c :: rest =>
    if c ≠ quote then none
    else (string rest).bind fun result ↦
      match skip result.2 with
      | [] => none
      | c :: rest => if c = colon then some (result.1, skip rest) else none

def member (t : Text) : Except JsonError ((Text × Value) × Text) :=
  match fieldName t with
  | none => .error .value
  | some (name, rest) => (value rest).map fun result ↦ ((name, result.1), result.2)

def array (t : Text) : Except JsonError (Value × Text) :=
  (container value closeBracket t).map fun result ↦ (.arr result.1, result.2)

def object (t : Text) : Except JsonError (Value × Text) :=
  (container (member value) closeBrace t).map fun result ↦ (.obj result.1, result.2)

end containers

/-- A value at the start of a text, with so many containers that may still be nested. -/
def value : ℕ → Text → Except JsonError (Value × Text)
  | _, [] => .error .value
  | nesting, c :: rest =>
    if c = quote then
      (string rest).elim (.error .value) fun result ↦ .ok (.str result.1, result.2)
    else if c = openBrace ∨ c = openBracket then
      match nesting with
      | 0 => .error .recursion
      | nesting + 1 =>
        if c = openBrace then object (value nesting) (skip rest)
        else array (value nesting) (skip rest)
    else (scalar (c :: rest)).elim (.error .value) .ok

/-- The value of a text that has nothing else. -/
def loads (nesting : ℕ) (octets : List ℕ) : Except JsonError Value :=
  match decodeText octets with
  | none => .error .value
  | some t => do
    let (result, rest) ← value nesting (skip t)
    if skip rest = [] then return result else .error .value

section writing

def hexDigit (d : ℕ) : ℕ := if d < 10 then 0x30 + d else 0x57 + d

def unicodeEscape (c : ℕ) : Text :=
  [backslash, letterU, hexDigit (c / 4096), hexDigit (c / 256 % 16), hexDigit (c / 16 % 16),
    hexDigit (c % 16)]

/-- Code points outside ASCII are escaped, the higher ones in two halves. -/
def escape (c : ℕ) : Text :=
  match shortEscapes.find? fun e ↦ decide (e.2 = c) with
  | some e => [backslash, e.1]
  | none =>
    if 0x20 ≤ c ∧ c ≤ 0x7E then [c]
    else if c < 0x10000 then unicodeEscape c
    else unicodeEscape (0xD800 + (c - 0x10000) / 0x400) ++
      unicodeEscape (0xDC00 + (c - 0x10000) % 0x400)

def quoted (t : Text) : Text := quote :: t.flatMap escape ++ [quote]

def separated : List Text → Text
  | [] => []
  | [part] => part
  | part :: parts => part ++ comma :: 0x20 :: separated parts

def dumpsArray (items : List Text) : Text := openBracket :: separated items ++ [closeBracket]

def dumpsField (field : Text × Text) : Text := quoted field.1 ++ colon :: 0x20 :: field.2

def dumpsObject (fields : List (Text × Text)) : Text :=
  openBrace :: separated (fields.map dumpsField) ++ [closeBrace]

end writing

section strings

/-- What the escape of a code point reads as. -/
def escapedUnits (c : ℕ) : List (Bool × ℕ) :=
  match shortEscapes.find? fun e ↦ decide (e.2 = c) with
  | some _ => [(false, c)]
  | none =>
    if 0x20 ≤ c ∧ c ≤ 0x7E then [(false, c)]
    else if c < 0x10000 then [(true, c)]
    else [(true, 0xD800 + (c - 0x10000) / 0x400), (true, 0xDC00 + (c - 0x10000) % 0x400)]

variable {t rest : Text} {c : ℕ}

theorem hexValue_hexDigit {d : ℕ} (h : d < 16) : hexValue (hexDigit d) = some d := by
  rw [hexDigit]
  split_ifs with hd
  · rw [hexValue, if_pos (by omega)]
    exact congrArg some (by omega)
  · rw [hexValue, if_neg (by omega), if_pos (by omega)]
    exact congrArg some (by omega)

theorem stringUnits_unicodeEscape (h : c < 0x10000) :
    stringUnits (unicodeEscape c ++ rest) =
      (stringUnits rest).map fun result ↦ ((true, c) :: result.1, result.2) := by
  have hunit : hexUnit (hexDigit (c / 4096)) (hexDigit (c / 256 % 16)) (hexDigit (c / 16 % 16))
      (hexDigit (c % 16)) = some c := by
    rw [hexUnit, hexValue_hexDigit (by omega), hexValue_hexDigit (by omega),
      hexValue_hexDigit (by omega), hexValue_hexDigit (by omega)]
    exact congrArg some (by omega)
  rw [unicodeEscape, stringUnits.eq_def (_ ++ _)]
  dsimp only [List.cons_append, List.nil_append]
  rw [if_neg (by decide), if_neg (by decide), if_neg (by decide)]
  rw [if_neg (by decide), hunit]
  rfl

/-- A letter and its code point name each other. -/
theorem escapeValue_of_mem : ∀ e ∈ shortEscapes, escapeValue e.1 = some e.2 ∧ e.1 ≠ letterU := by
  decide

theorem stringUnits_escape (h : c < 0x110000) :
    stringUnits (escape c ++ rest) =
      (stringUnits rest).map fun result ↦ (escapedUnits c ++ result.1, result.2) := by
  rw [escape, escapedUnits]
  cases hfind : shortEscapes.find? fun e ↦ decide (e.2 = c) with
  | some e =>
    have hvalue : e.2 = c := by simpa using List.find?_some hfind
    obtain ⟨hletter, hunicode⟩ := escapeValue_of_mem e (List.mem_of_find?_eq_some hfind)
    rw [stringUnits.eq_def (_ ++ _)]
    dsimp only [List.cons_append, List.nil_append]
    rw [if_neg (by decide), if_neg (by decide), if_neg (by decide), if_pos hunicode, hletter,
      hvalue]
    rfl
  | none =>
    dsimp only
    have hplain := List.find?_eq_none.mp hfind
    have hquote : c ≠ quote := fun hc ↦ hplain (quote, quote) (by decide) (decide_eq_true hc.symm)
    have hback : c ≠ backslash := fun hc ↦
      hplain (backslash, backslash) (by decide) (decide_eq_true hc.symm)
    split_ifs with hascii hlow
    · rw [stringUnits.eq_def (_ ++ _)]
      dsimp only [List.cons_append, List.nil_append]
      rw [if_neg hquote, if_neg (by omega), if_pos hback]
    · exact stringUnits_unicodeEscape hlow
    · rw [List.append_assoc, stringUnits_unicodeEscape (by omega),
        stringUnits_unicodeEscape (by omega)]
      cases stringUnits rest <;> rfl

theorem joinEscapes_cons {b : Bool} {units : List (Bool × ℕ)} (h : b = false ∨ ¬Surrogate c) :
    joinEscapes ((b, c) :: units) = c :: joinEscapes units := by
  rw [joinEscapes.eq_def]
  split
  · next high low units' heq =>
    obtain ⟨⟨rfl, rfl⟩, rfl⟩ := by simpa using heq
    have hpair : ¬Pair c low := fun hp ↦ h.elim (fun hb ↦ by cases hb) fun hs ↦
      hs ⟨hp.1, by have := hp.2.1; omega⟩
    rw [if_neg hpair]
  · next heq =>
    cases heq
    rfl
  · next heq => cases heq

theorem joinEscapes_escapedUnits (h : Scalar c) (units : List (Bool × ℕ)) :
    joinEscapes (escapedUnits c ++ units) = c :: joinEscapes units := by
  obtain ⟨hlt, hscalar⟩ := h
  rw [escapedUnits]
  split
  · exact joinEscapes_cons (.inl rfl)
  split_ifs with hplain hlow
  · exact joinEscapes_cons (.inl rfl)
  · exact joinEscapes_cons (.inr hscalar)
  · have hpair : Pair (0xD800 + (c - 0x10000) / 0x400) (0xDC00 + (c - 0x10000) % 0x400) :=
      ⟨by omega, by omega, by omega, by omega⟩
    have hjoined : joined (0xD800 + (c - 0x10000) / 0x400) (0xDC00 + (c - 0x10000) % 0x400) = c := by
      unfold joined; omega
    rw [List.cons_append, List.singleton_append, joinEscapes, if_pos hpair, hjoined]

theorem stringUnits_flatMap (h : ∀ c ∈ t, Scalar c) :
    stringUnits (t.flatMap escape ++ quote :: rest) = some (t.flatMap escapedUnits, rest) := by
  induction t with
  | nil =>
    rw [List.flatMap_nil, List.nil_append, stringUnits.eq_def]
    exact if_pos rfl
  | cons c t ih =>
    rw [List.flatMap_cons, List.append_assoc, stringUnits_escape (h c List.mem_cons_self).1,
      ih fun other hother ↦ h other (List.mem_cons_of_mem _ hother)]
    rfl

theorem joinEscapes_flatMap (h : ∀ c ∈ t, Scalar c) : joinEscapes (t.flatMap escapedUnits) = t := by
  induction t with
  | nil => rfl
  | cons c t ih =>
    rw [List.flatMap_cons, joinEscapes_escapedUnits (h c List.mem_cons_self),
      ih fun other hother ↦ h other (List.mem_cons_of_mem _ hother)]

/-- A quoted text reads as itself. -/
theorem string_quoted (h : ∀ c ∈ t, Scalar c) :
    string (t.flatMap escape ++ quote :: rest) = some (t, rest) := by
  rw [string, stringUnits_flatMap h, Option.map_some, joinEscapes_flatMap h]

end strings

section reading

variable {β : Type} {part : Text → Except JsonError (β × Text)} {close n : ℕ} {t rest : Text} {c : ℕ}
  {v : Value} {ts : List Text} {bs : List β}

/-- A comma or the end of a container. -/
def Ends (rest : Text) : Prop :=
  ∃ c rest', rest = c :: rest' ∧ (c = comma ∨ c = closeBracket ∨ c = closeBrace)

def Starts (t : Text) : Prop :=
  ∃ c t', t = c :: t' ∧ whitespace c = false ∧ c ≠ closeBracket ∧ c ≠ closeBrace

/-- A text reads as a part of a container wherever it stands. -/
structure Reads (part : Text → Except JsonError (β × Text)) (t : Text) (b : β) : Prop where
  starts : Starts t
  ascii : ∀ c ∈ t, Ascii c
  part_append : ∀ rest, Ends rest → part (t ++ rest) = .ok (b, rest)

theorem skip_cons (h : whitespace c = false) : skip (c :: t) = c :: t :=
  List.dropWhile_cons_of_neg (by rw [h]; exact Bool.false_ne_true)

theorem Starts.skip_append (h : Starts t) (rest : Text) : skip (t ++ rest) = t ++ rest := by
  obtain ⟨c, t', rfl, hc, -⟩ := h
  exact skip_cons hc

theorem Starts.pos (h : Starts t) : 0 < t.length := by
  obtain ⟨c, t', rfl, -⟩ := h
  exact Nat.succ_pos _

theorem Ends.comma (rest : Text) : Ends (Json.comma :: rest) := ⟨_, _, rfl, .inl rfl⟩

section scalars

theorem ascii_hexDigit {d : ℕ} (h : d < 16) : Ascii (hexDigit d) := by
  unfold hexDigit
  split_ifs <;> constructor <;> omega

theorem ascii_unicodeEscape (h : c < 0x10000) : ∀ d ∈ unicodeEscape c, Ascii d := by
  simp only [unicodeEscape, List.forall_mem_cons]
  exact ⟨by decide, by decide, ascii_hexDigit (by omega), ascii_hexDigit (by omega),
    ascii_hexDigit (by omega), ascii_hexDigit (by omega), List.forall_mem_nil _⟩

theorem ascii_of_mem_shortEscapes : ∀ e ∈ shortEscapes, Ascii e.1 := by decide

theorem ascii_escape (h : c < 0x110000) : ∀ d ∈ escape c, Ascii d := by
  rw [escape]
  cases hfind : shortEscapes.find? fun e ↦ decide (e.2 = c) with
  | some e =>
    have he := ascii_of_mem_shortEscapes e (List.mem_of_find?_eq_some hfind)
    exact List.forall_mem_cons.mpr ⟨by decide, List.forall_mem_singleton.mpr he⟩
  | none =>
    dsimp only
    split_ifs with hascii hlow
    · rw [List.forall_mem_singleton]
      exact ⟨by omega, by omega⟩
    · exact ascii_unicodeEscape hlow
    · exact List.forall_mem_append.mpr
        ⟨ascii_unicodeEscape (by omega), ascii_unicodeEscape (by omega)⟩

theorem ascii_quoted (h : ∀ c ∈ t, Scalar c) : ∀ d ∈ quoted t, Ascii d := by
  refine List.forall_mem_append.mpr ⟨List.forall_mem_cons.mpr ⟨by decide, fun d hd ↦ ?_⟩, by decide⟩
  obtain ⟨c, hc, hd⟩ := List.mem_flatMap.mp hd
  exact ascii_escape (h c hc).1 d hd

theorem reads_quoted (h : ∀ c ∈ t, Scalar c) : Reads (value n) (quoted t) (.str t) where
  starts := ⟨quote, _, rfl, by decide, by decide, by decide⟩
  ascii := ascii_quoted h
  part_append rest _ := by
    rw [quoted, List.append_assoc, List.cons_append, List.singleton_append, value.eq_def]
    dsimp only
    rw [if_pos rfl, string_quoted h]
    rfl

theorem numeral_digit {d : ℕ} (hd : digit d = true) (hrest : Ends rest) :
    numeral (d :: rest) = some (.int (natural [d]), rest) := by
  obtain ⟨c, rest, rfl, hc⟩ := hrest
  have hpoint : c ≠ 0x2E := by rcases hc with rfl | rfl | rfl <;> decide
  have hexp : ¬(c = 0x65 ∨ c = 0x45) := by rcases hc with rfl | rfl | rfl <;> decide
  have hdigit : digit c = false := by rcases hc with rfl | rfl | rfl <;> decide
  have hwhole : wholePart (d :: c :: rest) = ([d], c :: rest) := by
    rw [wholePart, List.takeWhile_cons_of_pos hd, List.dropWhile_cons_of_pos hd,
      List.takeWhile_cons_of_neg (by rw [hdigit]; exact Bool.false_ne_true),
      List.dropWhile_cons_of_neg (by rw [hdigit]; exact Bool.false_ne_true)]
    split_ifs with h
    · rw [Option.some.inj h]
      rfl
    · rfl
  have hfraction : fractionPart (c :: rest) = ([], c :: rest) :=
    if_neg fun h ↦ hpoint (Option.some.inj h.1)
  have hexponent : exponentPart (c :: rest) = (none, c :: rest) :=
    if_neg fun h ↦ hexp (h.1.imp Option.some.inj Option.some.inj)
  have hsign : decide (d = 0x2D) = false := by
    refine decide_eq_false fun h ↦ ?_
    rw [h] at hd
    exact absurd hd (by decide)
  simp [numeral, hsign, hwhole, hfraction, hexponent]

theorem exists_cons_of_mem_literals {literal : Text × Value} (h : literal ∈ literals) :
    ∃ c t, literal.1 = c :: t ∧ (c < 0x30 ∨ 0x39 < c) := by
  simp only [literals, List.mem_cons, List.not_mem_nil, or_false] at h
  rcases h with rfl | rfl | rfl | rfl | rfl | rfl <;> exact ⟨_, _, rfl, by decide⟩

theorem scalar_digit {d : ℕ} (hd : digit d = true) : scalar (d :: rest) = numeral (d :: rest) := by
  have hd' : 0x30 ≤ d ∧ d ≤ 0x39 := of_decide_eq_true hd
  have hnone : literals.find? (fun literal ↦ literal.1.isPrefixOf (d :: rest)) = none := by
    refine List.find?_eq_none.mpr fun literal hliteral ↦ ?_
    obtain ⟨c, t, heq, hc⟩ := exists_cons_of_mem_literals hliteral
    rw [heq, List.isPrefixOf_cons_cons, Bool.and_eq_true, beq_iff_eq]
    exact fun h ↦ by omega
  rw [scalar, hnone]

theorem reads_digit {d : ℕ} (hd : digit d = true) : Reads (value n) [d] (.int (natural [d])) := by
  have hd' : 0x30 ≤ d ∧ d ≤ 0x39 := of_decide_eq_true hd
  have hne {c : ℕ} (hc : digit c = false) : d ≠ c := fun h ↦ by
    rw [h, hc] at hd
    exact Bool.false_ne_true hd
  refine ⟨⟨d, [], rfl, decide_eq_false (by omega), hne (by decide), hne (by decide)⟩, ?_,
    fun rest hrest ↦ ?_⟩
  · exact List.forall_mem_singleton.mpr ⟨by omega, by omega⟩
  · rw [List.singleton_append, value.eq_def]
    dsimp only
    rw [if_neg (hne (by decide)), if_neg (not_or.mpr ⟨hne (by decide), hne (by decide)⟩),
      scalar_digit hd, numeral_digit hd hrest]
    rfl

end scalars

section containers

theorem ascii_separated (h : ∀ t ∈ ts, ∀ c ∈ t, Ascii c) : ∀ c ∈ separated ts, Ascii c := by
  fun_induction separated ts with
  | case1 => exact List.forall_mem_nil _
  | case2 t => exact List.forall_mem_singleton.mp h
  | case3 t ts hne ih =>
    obtain ⟨ht, hts⟩ := List.forall_mem_cons.mp h
    exact List.forall_mem_append.mpr ⟨ht, List.forall_mem_cons.mpr
      ⟨by decide, List.forall_mem_cons.mpr ⟨by decide, ih hts⟩⟩⟩

theorem length_le_length_separated (h : ∀ t ∈ ts, Starts t) : ts.length ≤ (separated ts).length := by
  fun_induction separated ts with
  | case1 => exact Nat.le_refl _
  | case2 t => exact (List.forall_mem_singleton.mp h).pos
  | case3 t ts hne ih =>
    have := ih (List.forall_mem_cons.mp h).2
    rw [List.length_append, List.length_cons, List.length_cons, List.length_cons]
    omega

theorem starts_separated (h : Starts t) : Starts (separated (t :: ts)) := by
  obtain ⟨c, t, rfl, hc⟩ := h
  cases ts with
  | nil => exact ⟨c, t, rfl, hc⟩
  | cons next ts => exact ⟨c, _, rfl, hc⟩

theorem ascii_of_forall₂ (h : List.Forall₂ (Reads part) ts bs) : ∀ t ∈ ts, ∀ c ∈ t, Ascii c := by
  induction h with
  | nil => exact List.forall_mem_nil _
  | cons ht _ ih => exact List.forall_mem_cons.mpr ⟨ht.ascii, ih⟩

theorem starts_of_forall₂ (h : List.Forall₂ (Reads part) ts bs) : ∀ t ∈ ts, Starts t := by
  induction h with
  | nil => exact List.forall_mem_nil _
  | cons ht _ ih => exact List.forall_mem_cons.mpr ⟨ht.starts, ih⟩

theorem parts_separated (hclose : close = closeBracket ∨ close = closeBrace)
    (h : List.Forall₂ (Reads part) ts bs) (hne : ts ≠ []) (fuel : ℕ) (hfuel : ts.length ≤ fuel) :
    parts part close fuel (separated ts ++ close :: rest) = .ok (bs, rest) := by
  have hends : Ends (close :: rest) := ⟨_, _, rfl, .inr hclose⟩
  have hspace : whitespace close = false := by rcases hclose with rfl | rfl <;> rfl
  have hcomma : comma ≠ close := by rcases hclose with rfl | rfl <;> decide
  induction h generalizing fuel with
  | nil => exact absurd rfl hne
  | @cons t b ts bs ht hts ih =>
    obtain _ | fuel := fuel
    · exact absurd hfuel (Nat.not_succ_le_zero _)
    cases hts with
    | nil =>
      rw [separated, parts, ht.part_append _ hends]
      dsimp only [bind, Except.bind]
      rw [skip_cons hspace]
      exact if_pos rfl
    | @cons next b' ts bs hnext hts =>
      have hrest := ih (List.cons_ne_nil _ _) fuel (Nat.le_of_succ_le_succ hfuel)
      have hskip : skip (0x20 :: (separated (next :: ts) ++ close :: rest)) =
          separated (next :: ts) ++ close :: rest :=
        (starts_separated hnext.starts).skip_append _
      rw [separated, List.append_assoc, List.cons_append, List.cons_append, parts,
        ht.part_append _ (Ends.comma _)]
      · dsimp only [bind, Except.bind]
        rw [skip_cons (by decide)]
        dsimp only
        rw [if_neg hcomma, if_pos rfl, hskip, hrest]
        rfl
      · exact List.cons_ne_nil _ _

theorem container_separated (hclose : close = closeBracket ∨ close = closeBrace)
    (h : List.Forall₂ (Reads part) ts bs) :
    container part close (skip (separated ts ++ close :: rest)) = .ok (bs, rest) := by
  have hspace : whitespace close = false := by rcases hclose with rfl | rfl <;> rfl
  have hlength := length_le_length_separated (starts_of_forall₂ h)
  cases h with
  | nil =>
    rw [separated, List.nil_append, skip_cons hspace]
    exact if_pos rfl
  | @cons t b ts bs ht hts =>
    have hstarts : Starts (separated (t :: ts)) := starts_separated ht.starts
    have hhead : (separated (t :: ts) ++ close :: rest).head? ≠ some close := by
      obtain ⟨c, t, heq, -, hbracket, hbrace⟩ := hstarts
      rw [heq]
      rcases hclose with rfl | rfl
      · exact fun h ↦ hbracket (Option.some.inj h)
      · exact fun h ↦ hbrace (Option.some.inj h)
    rw [hstarts.skip_append, container, if_neg hhead]
    exact parts_separated hclose (.cons ht hts) (List.cons_ne_nil _ _) _
      (by rw [List.length_append]; omega)

theorem reads_dumpsArray {values : List Value} (h : List.Forall₂ (Reads (value n)) ts values) :
    Reads (value (n + 1)) (dumpsArray ts) (.arr values) where
  starts := ⟨openBracket, _, rfl, by decide, by decide, by decide⟩
  ascii := List.forall_mem_append.mpr ⟨List.forall_mem_cons.mpr ⟨by decide,
    ascii_separated (ascii_of_forall₂ h)⟩, by decide⟩
  part_append rest _ := by
    have hvalue : value (n + 1) (dumpsArray ts ++ rest) =
        array (value n) (skip (separated ts ++ closeBracket :: rest)) := by
      rw [dumpsArray, List.append_assoc, List.cons_append, List.singleton_append, value.eq_def]
      rfl
    rw [hvalue, array, container_separated (.inl rfl) h]
    rfl

theorem reads_dumpsField {field : Text × Text} (hname : ∀ c ∈ field.1, Scalar c)
    (h : Reads (value n) field.2 v) : Reads (member (value n)) (dumpsField field) (field.1, v) where
  starts := ⟨quote, _, rfl, by decide, by decide, by decide⟩
  ascii := List.forall_mem_append.mpr ⟨ascii_quoted hname, List.forall_mem_cons.mpr ⟨by decide,
    List.forall_mem_cons.mpr ⟨by decide, h.ascii⟩⟩⟩
  part_append rest hrest := by
    have hskip : skip (0x20 :: (field.2 ++ rest)) = field.2 ++ rest := h.starts.skip_append _
    have hfieldName : fieldName (dumpsField field ++ rest) = some (field.1, field.2 ++ rest) := by
      rw [dumpsField, quoted, List.append_assoc, List.append_assoc, List.cons_append,
        List.singleton_append, List.cons_append, List.cons_append, fieldName,
        if_neg (not_not.mpr rfl), string_quoted hname, Option.bind_some]
      dsimp only
      rw [skip_cons (by decide)]
      dsimp only
      rw [if_pos rfl, hskip]
    rw [member, hfieldName]
    dsimp only
    rw [h.part_append rest hrest]
    rfl

theorem value_dumpsObject {dumped : List (Text × Text)} {members : List (Text × Value)}
    (h : List.Forall₂ (Reads (member (value n))) (dumped.map dumpsField) members) :
    value (n + 1) (dumpsObject dumped ++ rest) = .ok (.obj members, rest) := by
  have hvalue : value (n + 1) (dumpsObject dumped ++ rest) =
      object (value n) (skip (separated (dumped.map dumpsField) ++ closeBrace :: rest)) := by
    rw [dumpsObject, List.append_assoc, List.cons_append, List.singleton_append, value.eq_def]
    rfl
  rw [hvalue, object, container_separated (.inr rfl) h]
  rfl

theorem ascii_dumpsObject {dumped : List (Text × Text)} {members : List (Text × Value)}
    (h : List.Forall₂ (Reads (member (value n))) (dumped.map dumpsField) members) :
    ∀ c ∈ dumpsObject dumped, Ascii c :=
  List.forall_mem_append.mpr ⟨List.forall_mem_cons.mpr ⟨by decide,
    ascii_separated (ascii_of_forall₂ h)⟩, by decide⟩

theorem reads_dumpsObject {dumped : List (Text × Text)} {members : List (Text × Value)}
    (h : List.Forall₂ (Reads (member (value n))) (dumped.map dumpsField) members) :
    Reads (value (n + 1)) (dumpsObject dumped) (.obj members) where
  starts := ⟨openBrace, _, rfl, by decide, by decide, by decide⟩
  ascii := ascii_dumpsObject h
  part_append _ _ := value_dumpsObject h

end containers

theorem decodeUtf8_ascii (h : ∀ c ∈ t, Ascii c) : decodeUtf8 true t = some t :=
  decodeUtf8_encodeUtf8 (encodeUtf8_ascii h)

theorem decodeText_ascii (h : ∀ c ∈ t, Ascii c) : decodeText t = some t := by
  have hmarked {mark : List ℕ} (hmark : ¬∀ c ∈ mark, Ascii c) : ¬mark.isPrefixOf t = true :=
    fun hp ↦ hmark fun c hc ↦ h c ((List.isPrefixOf_iff_prefix.mp hp).subset hc)
  have hzero {c : ℕ} (hc : c ∈ t) : c ≠ 0 := (h c hc).1.ne'
  unfold decodeText
  rw [if_neg (hmarked (by decide)), if_neg (hmarked (by decide)), if_neg (hmarked (by decide)),
    if_neg (hmarked (by decide)), if_neg (hmarked (by decide))]
  split
  · rw [if_neg (hzero (by simp)), if_neg (hzero (by simp))]
    exact decodeUtf8_ascii h
  · rw [if_neg (hzero (by simp)), if_neg (hzero (by simp))]
    exact decodeUtf8_ascii h
  · exact decodeUtf8_ascii h

/-- A written object is read back. -/
theorem loads_dumpsObject {dumped : List (Text × Text)} {members : List (Text × Value)}
    (h : List.Forall₂ (Reads (member (value n))) (dumped.map dumpsField) members) :
    loads (n + 1) (dumpsObject dumped) = .ok (.obj members) := by
  have hvalue : value (n + 1) (dumpsObject dumped ++ []) = _ := value_dumpsObject h
  have hskip : skip (dumpsObject dumped) = dumpsObject dumped := skip_cons (by decide)
  rw [List.append_nil] at hvalue
  rw [loads, decodeText_ascii (ascii_dumpsObject h)]
  dsimp only
  rw [hskip, hvalue]
  rfl

end reading

end AnyList.Library.Json
