import AnyList.Library.Dict
import AnyList.Library.Json

namespace AnyList.Backup.ServerBackup

open AnyList.Library AnyList.Library.Octets AnyList.Library.Json

def Bytes (octets : List ℕ) : Prop := ∀ octet ∈ octets, octet < 256

inductive GzipError
  | osError
  | eofError
  | zlibError
  deriving DecidableEq

/-- The compression, the digest and the depth of nested containers that JSON may have. -/
structure Platform where
  compress : List ℕ → List ℕ
  decompress : List ℕ → Except GzipError (List ℕ)
  sha256 : List ℕ → List ℕ
  nesting : ℕ
  decompress_compress : ∀ {raw}, Bytes raw → decompress (compress raw) = .ok raw
  bytes_decompress : ∀ {content raw}, decompress content = .ok raw → Bytes raw
  bytes_sha256 : ∀ data, Bytes (sha256 data)
  three_le_nesting : 3 ≤ nesting

inductive Raised
  | osError
  | eofError
  | zlibError
  | structError
  | keyError
  | typeError
  | valueError
  | recursionError
  deriving DecidableEq

def ofGzip : GzipError → Raised
  | .osError => .osError
  | .eofError => .eofError
  | .zlibError => .zlibError

def ofJson : JsonError → Raised
  | .value => .valueError
  | .recursion => .recursionError

/-- What `parse_backup` turns into its own error. -/
def handled : Raised → Bool
  | .osError | .eofError | .structError | .keyError | .typeError | .valueError => true
  | .zlibError | .recursionError => false

structure ParsedBackup where
  tables : List Text
  tableData : Dict Text (List ℕ)
  avatarData : Dict Text (List ℕ)

def versionName : Text := text "version"

def tablesName : Text := text "tables"

def avatarsName : Text := text "avatars"

def nameName : Text := text "name"

def sha256Name : Text := text "sha256"

section names

def avatarSuffixes : List Text := [text ".jpg", text ".png", text ".webp"]

def avatarName : Text → Bool
  | [] => false
  | c :: rest => decide (0x31 ≤ c ∧ c ≤ 0x39 ∧ rest.dropWhile digit ∈ avatarSuffixes)

def maxAvatarBytes : ℕ := 5 * 1024 * 1024

variable (p : Platform)

def hexdigest (data : List ℕ) : Text :=
  (p.sha256 data).flatMap fun octet ↦ [hexDigit (octet / 16), hexDigit (octet % 16)]

end names

section writing

variable (p : Platform)

def pack (width n : ℕ) : Option (List ℕ) := if n < 256 ^ width then some (packed width n) else none

def writeBackupEntry (name : Text) (data : List ℕ) : Option (List ℕ) := do
  let nameBytes ← encodeUtf8 name
  let nameLen ← pack 2 nameBytes.length
  let dataLen ← pack 8 data.length
  return nameLen ++ nameBytes ++ dataLen ++ data

def writeEntries : List (Text × List ℕ) → Option (List ℕ)
  | [] => some []
  | entry :: entries => do
    let written ← writeBackupEntry entry.1 entry.2
    let others ← writeEntries entries
    return written ++ others

def manifestItem (file : Text × List ℕ) : List (Text × Text) :=
  [(nameName, quoted file.1), (sha256Name, quoted (hexdigest p file.2))]

def backupAvatarManifest (files : List (Text × List ℕ)) : Text :=
  dumpsArray (files.map fun file ↦ dumpsObject (manifestItem p file))

def header (tables : List Text) (files : List (Text × List ℕ)) : List (Text × Text) :=
  [(versionName, [0x32]), (tablesName, dumpsArray (tables.map quoted)),
    (avatarsName, backupAvatarManifest p files)]

/-- The compressed backup, unless a name or a size does not fit. -/
def backupDatabase (tables : List (Text × List ℕ)) (avatars : Dict Text (List ℕ)) :
    Option (List ℕ) := do
  let headerBytes ← encodeUtf8 (dumpsObject (header p (tables.map Prod.fst) avatars.entries))
  let headerLen ← pack 4 headerBytes.length
  let tableEntries ← writeEntries tables
  let avatarEntries ← writeEntries avatars.entries
  return p.compress (headerLen ++ headerBytes ++ (tableEntries ++ avatarEntries))

end writing

section parsing

variable (p : Platform)

/-- So many bytes and the bytes after them. -/
def chunk (width : ℕ) (raw : List ℕ) : Option (List ℕ × List ℕ) :=
  if raw.length < width then none else some (raw.take width, raw.drop width)

/-- The entry at the start of the bytes and the bytes after it; nothing stands for a `ValueError`. -/
def readEntry (raw : List ℕ) : Option (Text × List ℕ × List ℕ) := do
  let (nameLen, raw) ← chunk 2 raw
  let (nameBytes, raw) ← chunk (number nameLen) raw
  let name ← decodeUtf8 false nameBytes
  let (dataLen, raw) ← chunk 8 raw
  let (data, raw) ← chunk (number dataLen) raw
  return (name, data, raw)

def readTables : List Text → List ℕ → Dict Text (List ℕ) → Option (Dict Text (List ℕ) × List ℕ)
  | [], raw, tableData => some (tableData, raw)
  | expected :: tables, raw, tableData => do
    let (name, data, raw) ← readEntry raw
    if name ≠ expected then none else readTables tables raw (tableData.set name data)

def listedName : Value → Option Text
  | .obj fields =>
    match field nameName fields with
    | some (.str name) => if avatarName name = true then some name else none
    | _ => none
  | _ => none

def listedDigest : Value → Option Text
  | .obj fields =>
    match field sha256Name fields with
    | some (.str digest) => some digest
    | _ => none
  | _ => none

def readAvatars : List Value → List ℕ → Dict Text (List ℕ) → Option (Dict Text (List ℕ) × List ℕ)
  | [], raw, avatarData => some (avatarData, raw)
  | item :: avatars, raw, avatarData => do
    let listed ← listedName item
    let (name, data, raw) ← readEntry raw
    if name ≠ listed ∨ (avatarData.get name).isSome ∨ maxAvatarBytes < data.length ∨
        listedDigest item ≠ some (hexdigest p data) then none
    else readAvatars avatars raw (avatarData.set name data)

/-- A decimal whose nearest double is 1 or 2, which has 53 bits. -/
def rounds (n digits : ℕ) (exponent : ℤ) : Bool :=
  decide (n * (2 ^ 54 - 1) * 10 ^ (-exponent).toNat ≤ 2 ^ 54 * digits * 10 ^ exponent.toNat ∧
    2 ^ 54 * digits * 10 ^ exponent.toNat ≤ n * (2 ^ 54 + 2) * 10 ^ (-exponent).toNat)

/-- Whether a value equals 1 or 2. -/
def equals (n : ℕ) : Value → Bool
  | .int i => decide (i = n)
  | .bool value => decide (n = 1 ∧ value = true)
  | .float negative digits exponent => !negative && rounds n digits exponent
  | _ => false

def stringItem : Value → Option Text
  | .str t => some t
  | _ => none

def item (name : Text) : Value → Except Raised Value
  | .obj fields => (field name fields).elim (.error .keyError) .ok
  | _ => .error .typeError

def headerAvatars (version : Value) : Value → Value
  | .obj fields =>
    if equals 2 version = true then (field avatarsName fields).getD (.arr []) else .arr []
  | _ => .arr []

/-- The tables of a header and the listed avatars. -/
def readHeader (header : Value) : Except Raised (List Text × List Value) := do
  let version ← item versionName header
  let tables ← item tablesName header
  if ¬(equals 1 version = true ∨ equals 2 version = true) then .error .valueError
  else match tables, headerAvatars version header with
  | .arr items, .arr avatars =>
    match items.mapM stringItem with
    | some names => if names.Nodup then .ok (names, avatars) else .error .valueError
    | none => .error .valueError
  | _, _ => .error .valueError

/-- The header of decompressed bytes and what follows it. -/
def splitHeader (raw : List ℕ) : Option (List ℕ × List ℕ) := do
  let (headerLen, raw) ← chunk 4 raw
  chunk (number headerLen) raw

/-- The entries of a header that take up all bytes after it. -/
def readEntries (tables : List Text) (avatars : List Value) (raw : List ℕ) :
    Option ParsedBackup := do
  let (tableData, raw) ← readTables tables raw Dict.empty
  let (avatarData, raw) ← readAvatars p avatars raw Dict.empty
  if raw ≠ [] then none
  else some { tables := tables, tableData := tableData, avatarData := avatarData }

def orValueError {α : Type} (result : Option α) : Except Raised α :=
  result.elim (.error .valueError) .ok

def parse (content : List ℕ) : Except Raised ParsedBackup := do
  let raw ← (p.decompress content).mapError ofGzip
  let (headerBytes, raw) ← orValueError (splitHeader raw)
  let header ← (loads p.nesting headerBytes).mapError ofJson
  let (tables, avatars) ← readHeader header
  orValueError (readEntries p tables avatars raw)

def parseBackup (content : List ℕ) : Except Raised ParsedBackup :=
  (parse p content).mapError fun raised ↦ if handled raised = true then .valueError else raised

end parsing

section entries

variable {name : Text} {data written rest : List ℕ} {entries : List (Text × List ℕ)}
  {dict : Dict Text (List ℕ)}

theorem pack_eq_some {width n : ℕ} {octets : List ℕ} :
    pack width n = some octets ↔ n < 256 ^ width ∧ packed width n = octets := by
  rw [pack]
  split_ifs with h
  · rw [Option.some.injEq, and_iff_right h]
  · exact iff_of_false (by simp) fun h' ↦ h h'.1

theorem writeBackupEntry_eq_some : writeBackupEntry name data = some written ↔
    ∃ nameBytes, encodeUtf8 name = some nameBytes ∧ nameBytes.length < 256 ^ 2 ∧
      data.length < 256 ^ 8 ∧
      packed 2 nameBytes.length ++ nameBytes ++ packed 8 data.length ++ data = written := by
  simp only [writeBackupEntry, Option.bind_eq_bind, Option.bind_eq_some_iff, Option.pure_def,
    Option.some.injEq, pack_eq_some]
  constructor
  · rintro ⟨nameBytes, hname, _, ⟨hlen, rfl⟩, _, ⟨hdata, rfl⟩, hwritten⟩
    exact ⟨nameBytes, hname, hlen, hdata, hwritten⟩
  · rintro ⟨nameBytes, hname, hlen, hdata, hwritten⟩
    exact ⟨nameBytes, hname, _, ⟨hlen, rfl⟩, _, ⟨hdata, rfl⟩, hwritten⟩

theorem writeEntries_cons {entry : Text × List ℕ} :
    writeEntries (entry :: entries) = some written ↔
      ∃ first others, writeBackupEntry entry.1 entry.2 = some first ∧
        writeEntries entries = some others ∧ first ++ others = written := by
  simp only [writeEntries, Option.bind_eq_bind, Option.bind_eq_some_iff, Option.pure_def,
    Option.some.injEq, exists_and_left]

theorem chunk_eq_some {width : ℕ} {raw taken left : List ℕ} :
    chunk width raw = some (taken, left) ↔ taken.length = width ∧ taken ++ left = raw := by
  rw [chunk]
  constructor
  · intro h
    split_ifs at h with hlen
    obtain ⟨rfl, rfl⟩ := Prod.mk.inj (Option.some.inj h)
    exact ⟨List.length_take_of_le (by omega), List.take_append_drop ..⟩
  · rintro ⟨rfl, rfl⟩
    rw [if_neg (by rw [List.length_append]; omega), List.take_left, List.drop_left]

theorem Bytes.left {taken left : List ℕ} (h : Bytes (taken ++ left)) : Bytes taken :=
  fun octet hoctet ↦ h octet (List.mem_append_left _ hoctet)

theorem Bytes.right {taken left : List ℕ} (h : Bytes (taken ++ left)) : Bytes left :=
  fun octet hoctet ↦ h octet (List.mem_append_right _ hoctet)

/-- The entries that are read are those that could have been written. -/
theorem readEntry_eq_some {raw : List ℕ} (hraw : Bytes raw) :
    readEntry raw = some (name, data, rest) ↔
      ∃ written, writeBackupEntry name data = some written ∧ written ++ rest = raw := by
  simp only [readEntry, Option.bind_eq_bind, Option.bind_eq_some_iff, Option.pure_def,
    Option.some.injEq, chunk_eq_some, Prod.exists, Prod.mk.injEq]
  constructor
  · rintro ⟨nameLen, _, ⟨hnameLen, rfl⟩, nameBytes, _, ⟨hnameBytes, rfl⟩, _, hname, dataLen, _,
      ⟨hdataLen, rfl⟩, _, _, ⟨hdata, rfl⟩, rfl, rfl, rfl⟩
    have hnameOctets : Bytes nameLen := hraw.left
    have hdataOctets : Bytes dataLen := hraw.right.right.left
    have hnameLt := number_lt hnameOctets
    have hdataLt := number_lt hdataOctets
    rw [← hnameBytes, hnameLen] at hnameLt
    rw [← hdata, hdataLen] at hdataLt
    refine ⟨_, writeBackupEntry_eq_some.mpr ⟨nameBytes, encodeUtf8_decodeUtf8 hname, hnameLt,
      hdataLt, rfl⟩, ?_⟩
    have hname' := packed_number hnameOctets
    have hdata' := packed_number hdataOctets
    rw [hnameLen, ← hnameBytes] at hname'
    rw [hdataLen, ← hdata] at hdata'
    rw [hname', hdata', List.append_assoc, List.append_assoc, List.append_assoc]
  · rintro ⟨written, hwritten, rfl⟩
    obtain ⟨nameBytes, hname, hnameLt, hdataLt, rfl⟩ := writeBackupEntry_eq_some.mp hwritten
    refine ⟨_, _, ⟨length_packed 2 _, ?_⟩, nameBytes, _, ⟨(number_packed hnameLt).symm, rfl⟩, name,
      decodeUtf8_encodeUtf8 hname, _, _, ⟨length_packed 8 _, rfl⟩, data, rest,
      ⟨(number_packed hdataLt).symm, rfl⟩, rfl, rfl, rfl⟩
    rw [List.append_assoc, List.append_assoc, List.append_assoc]

theorem readTables_eq_some {tables : List Text} {raw : List ℕ} {dict' : Dict Text (List ℕ)}
    (hraw : Bytes raw) : readTables tables raw dict = some (dict', rest) ↔
      ∃ entries written, entries.map Prod.fst = tables ∧ writeEntries entries = some written ∧
        written ++ rest = raw ∧ dict.setAll entries = dict' := by
  induction tables generalizing raw dict with
  | nil =>
    rw [readTables, Option.some.injEq, Prod.mk.injEq]
    constructor
    · rintro ⟨rfl, rfl⟩
      exact ⟨[], [], rfl, rfl, rfl, rfl⟩
    · rintro ⟨entries, written, hentries, hwritten, rfl, rfl⟩
      obtain rfl := List.map_eq_nil_iff.mp hentries
      obtain rfl := Option.some.inj hwritten
      exact ⟨rfl, rfl⟩
  | cons expected tables ih =>
    simp only [readTables, Option.bind_eq_bind, Option.bind_eq_some_iff, Prod.exists,
      readEntry_eq_some hraw, ite_not, Option.ite_none_right_eq_some]
    constructor
    · rintro ⟨name, data, raw, ⟨first, hfirst, rfl⟩, rfl, hread⟩
      obtain ⟨entries, others, rfl, hothers, rfl, rfl⟩ := (ih hraw.right).mp hread
      exact ⟨(name, data) :: entries, first ++ others, rfl,
        writeEntries_cons.mpr ⟨first, others, hfirst, hothers, rfl⟩, List.append_assoc .., rfl⟩
    · rintro ⟨entries, written, hentries, hwritten, rfl, rfl⟩
      obtain _ | ⟨⟨name, data⟩, entries⟩ := entries
      · cases hentries
      obtain ⟨rfl, rfl⟩ := List.cons.inj hentries
      obtain ⟨first, others, hfirst, hothers, rfl⟩ := writeEntries_cons.mp hwritten
      rw [List.append_assoc] at hraw
      exact ⟨name, data, others ++ rest, ⟨first, hfirst, (List.append_assoc ..).symm⟩, rfl,
        (ih hraw.right).mpr ⟨entries, others, rfl, hothers, rfl, rfl⟩⟩

/-- A file as a header lists it. -/
structure ListedAs (p : Platform) (item : Value) (file : Text × List ℕ) : Prop where
  name_eq : listedName item = some file.1
  length_le : file.2.length ≤ maxAvatarBytes
  digest_eq : listedDigest item = some (hexdigest p file.2)

theorem readAvatars_eq_some {p : Platform} {avatars : List Value} {raw : List ℕ}
    {dict' : Dict Text (List ℕ)} (hraw : Bytes raw) :
    readAvatars p avatars raw dict = some (dict', rest) ↔
      ∃ files written, List.Forall₂ (ListedAs p) avatars files ∧
        writeEntries files = some written ∧ written ++ rest = raw ∧
        dict.entries ++ files = dict'.entries := by
  induction avatars generalizing raw dict with
  | nil =>
    rw [readAvatars, Option.some.injEq, Prod.mk.injEq]
    constructor
    · rintro ⟨rfl, rfl⟩
      exact ⟨[], [], .nil, rfl, rfl, List.append_nil _⟩
    · rintro ⟨files, written, hfiles, hwritten, rfl, hdict⟩
      obtain rfl := List.forall₂_nil_left_iff.mp hfiles
      obtain rfl := Option.some.inj hwritten
      rw [List.append_nil] at hdict
      exact ⟨Dict.ext hdict, rfl⟩
  | cons item avatars ih =>
    simp only [readAvatars, Option.bind_eq_bind, Option.bind_eq_some_iff, Prod.exists,
      readEntry_eq_some hraw, Option.ite_none_left_eq_some, not_or, not_not, not_lt,
      Option.not_isSome_iff_eq_none]
    constructor
    · rintro ⟨listed, hlisted, name, data, raw, ⟨first, hfirst, rfl⟩,
        ⟨rfl, hnew, hlen, hdigest⟩, hread⟩
      obtain ⟨files, others, hfiles, hothers, rfl, hdict⟩ := (ih hraw.right).mp hread
      refine ⟨(name, data) :: files, first ++ others, .cons ⟨hlisted, hlen, hdigest⟩ hfiles,
        writeEntries_cons.mpr ⟨first, others, hfirst, hothers, rfl⟩, List.append_assoc .., ?_⟩
      rw [← hdict, Dict.entries_set_of_get_eq_none hnew, List.append_assoc, List.singleton_append]
    · rintro ⟨_, written, hlisted, hwritten, rfl, hdict⟩
      obtain ⟨file, files, hitem, hfiles, rfl⟩ := List.forall₂_cons_left_iff.mp hlisted
      obtain ⟨first, others, hfirst, hothers, rfl⟩ := writeEntries_cons.mp hwritten
      have hnodup := dict'.nodup
      rw [← hdict, List.map_append, List.map_cons] at hnodup
      have hnew : dict.get file.1 = none := Dict.getEntry_eq_none.mpr fun hmem ↦
        (List.nodup_append.mp hnodup).2.2 _ hmem _ List.mem_cons_self rfl
      rw [List.append_assoc] at hraw
      refine ⟨file.1, hitem.name_eq, file.1, file.2, others ++ rest,
        ⟨first, hfirst, (List.append_assoc ..).symm⟩,
        ⟨rfl, hnew, hitem.length_le, hitem.digest_eq⟩,
        (ih hraw.right).mpr ⟨files, others, hfiles, hothers, rfl, ?_⟩⟩
      rw [Dict.entries_set_of_get_eq_none hnew, ← hdict, List.append_assoc, List.singleton_append]

end entries

end AnyList.Backup.ServerBackup
