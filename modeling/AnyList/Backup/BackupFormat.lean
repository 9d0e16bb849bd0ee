import AnyList.Backup.ServerBackup
import AnyList.Library.Partial

namespace AnyList.Backup.ServerBackup

open AnyList.Library AnyList.Library.Octets AnyList.Library.Json
open AnyList.Library.Partial (bind_eq_ok bind_eq_error)

section header

variable {tables : List Text} {avatars : List Value}

/-- What a header lists: its tables, and its avatars since the second version. -/
structure Lists (header : Value) (tables : List Text) (avatars : List Value) : Prop where
  nodup : tables.Nodup
  fields : ∃ fields version, header = .obj fields ∧ field versionName fields = some version ∧
    (equals 1 version = true ∨ equals 2 version = true) ∧
    field tablesName fields = some (.arr (tables.map .str)) ∧
    headerAvatars version header = .arr avatars

theorem mapM_stringItem {items : List Value} :
    items.mapM stringItem = some tables ↔ items = tables.map .str := by
  induction items generalizing tables with
  | nil => cases tables <;> simp
  | cons item items ih =>
    simp only [List.mapM_cons, Option.bind_eq_bind, Option.bind_eq_some_iff, Option.pure_def,
      Option.some.injEq, ih]
    constructor
    · rintro ⟨name, hname, names, rfl, rfl⟩
      cases item <;> simp_all [stringItem]
    · intro h
      obtain _ | ⟨name, names⟩ := tables
      · cases h
      · obtain ⟨rfl, rfl⟩ := List.cons.inj h
        exact ⟨name, rfl, names, rfl, rfl⟩

theorem item_eq_ok {name : Text} {header v : Value} :
    item name header = .ok v ↔ ∃ fields, header = .obj fields ∧ field name fields = some v := by
  cases header with
  | obj fields =>
    rw [item]
    cases h : field name fields <;> simp [h]
  | _ => simp [item]

theorem readHeader_eq_ok {header : Value} :
    readHeader header = .ok (tables, avatars) ↔ Lists header tables avatars := by
  simp only [readHeader, bind_eq_ok, item_eq_ok]
  constructor
  · rintro ⟨version, ⟨fields, rfl, hversion⟩, listed, ⟨_, hfields, htables⟩, h⟩
    cases hfields
    split_ifs at h with heq
    split at h
    · next items files havatars =>
      split at h
      · next names hnames =>
        split_ifs at h with hnodup
        cases h
        rw [mapM_stringItem.mp hnames] at htables
        exact ⟨hnodup, fields, version, rfl, hversion, heq, htables, havatars⟩
      · cases h
    · cases h
  · rintro ⟨hnodup, fields, version, rfl, hversion, heq, htables, havatars⟩
    refine ⟨version, ⟨fields, rfl, hversion⟩, _, ⟨fields, rfl, htables⟩, ?_⟩
    rw [if_neg (not_not.mpr heq), havatars]
    dsimp only
    rw [mapM_stringItem.mpr rfl]
    exact if_pos hnodup

end header

section format

variable {p : Platform} {content : List ℕ} {backup : ParsedBackup}

/-- Decompressed bytes are a header and one entry for each table and avatar that it lists. -/
def LaidOut (p : Platform) (raw : List ℕ) (backup : ParsedBackup) : Prop :=
  ∃ headerBytes header avatars tableEntries avatarEntries,
    headerBytes.length < 256 ^ 4 ∧ loads p.nesting headerBytes = .ok header ∧
    Lists header backup.tables avatars ∧
    backup.tableData.keys = backup.tables ∧
    List.Forall₂ (ListedAs p) avatars backup.avatarData.entries ∧
    writeEntries backup.tableData.entries = some tableEntries ∧
    writeEntries backup.avatarData.entries = some avatarEntries ∧
    raw = packed 4 headerBytes.length ++ headerBytes ++ (tableEntries ++ avatarEntries)

theorem readEntries_eq_some {tables : List Text} {avatars : List Value} {raw : List ℕ}
    (hraw : Bytes raw) (hnodup : tables.Nodup) : readEntries p tables avatars raw = some backup ↔
      ∃ tableEntries avatarEntries, backup.tables = tables ∧ backup.tableData.keys = tables ∧
        List.Forall₂ (ListedAs p) avatars backup.avatarData.entries ∧
        writeEntries backup.tableData.entries = some tableEntries ∧
        writeEntries backup.avatarData.entries = some avatarEntries ∧
        raw = tableEntries ++ avatarEntries := by
  simp only [readEntries, Option.bind_eq_bind, Option.bind_eq_some_iff, Prod.exists,
    readTables_eq_some hraw, ne_eq, ite_not, Option.ite_none_right_eq_some, Option.some.injEq]
  constructor
  · rintro ⟨tableData, body, ⟨entries, tableEntries, rfl, htables, rfl, rfl⟩, avatarData, _,
      havatars, rfl, rfl⟩
    obtain ⟨files, avatarEntries, hlisted, hfiles, rfl, hdict⟩ :=
      (readAvatars_eq_some hraw.right).mp havatars
    have hentries : (Dict.setAll Dict.empty entries).entries = entries :=
      Dict.entries_setAll_empty hnodup
    obtain rfl : files = avatarData.entries := hdict
    refine ⟨tableEntries, avatarEntries, rfl, ?_, hlisted, ?_, hfiles, by rw [List.append_nil]⟩
    · rw [Dict.keys, hentries]
    · rw [hentries, htables]
  · rintro ⟨tableEntries, avatarEntries, rfl, hkeys, hlisted, htables, havatars, rfl⟩
    have hsetAll : Dict.empty.setAll backup.tableData.entries = backup.tableData :=
      Dict.ext (Dict.entries_setAll_empty backup.tableData.nodup)
    refine ⟨backup.tableData, avatarEntries,
      ⟨backup.tableData.entries, tableEntries, hkeys, htables, rfl, hsetAll⟩,
      backup.avatarData, [], ?_, rfl, rfl⟩
    exact (readAvatars_eq_some hraw.right).mpr
      ⟨_, avatarEntries, hlisted, havatars, List.append_nil _, rfl⟩

theorem splitHeader_eq_some {raw headerBytes body : List ℕ} (hraw : Bytes raw) :
    splitHeader raw = some (headerBytes, body) ↔ headerBytes.length < 256 ^ 4 ∧
      packed 4 headerBytes.length ++ headerBytes ++ body = raw := by
  simp only [splitHeader, Option.bind_eq_bind, Option.bind_eq_some_iff, Prod.exists,
    chunk_eq_some]
  constructor
  · rintro ⟨headerLen, _, ⟨hlen, rfl⟩, hnumber, rfl⟩
    have hlt := number_lt hraw.left
    have hpacked := packed_number hraw.left
    rw [← hnumber, hlen] at hlt
    rw [← hnumber, hlen] at hpacked
    exact ⟨hlt, by rw [hpacked, List.append_assoc]⟩
  · rintro ⟨hlt, rfl⟩
    exact ⟨_, _, ⟨length_packed 4 _, (List.append_assoc ..).symm⟩, (number_packed hlt).symm, rfl⟩

theorem mapError_eq_ok {ε ε' α : Type} {x : Except ε α} {f : ε → ε'} {a : α} :
    x.mapError f = .ok a ↔ x = .ok a := by
  cases x <;> simp [Except.mapError]

theorem orValueError_eq_ok {α : Type} {result : Option α} {a : α} :
    orValueError result = .ok a ↔ result = some a := by
  cases result <;> simp [orValueError]

/-- Exactly the bytes of the format are read. -/
theorem parseBackup_eq_ok : parseBackup p content = .ok backup ↔
    ∃ raw, p.decompress content = .ok raw ∧ LaidOut p raw backup := by
  simp only [parseBackup, parse, mapError_eq_ok, bind_eq_ok, orValueError_eq_ok, Prod.exists,
    readHeader_eq_ok]
  constructor
  · rintro ⟨raw, hraw, headerBytes, body, hsplit, header, hloads, tables, avatars, hlists, hread⟩
    have hbytes := p.bytes_decompress hraw
    obtain ⟨hlt, rfl⟩ := (splitHeader_eq_some hbytes).mp hsplit
    obtain ⟨tableEntries, avatarEntries, rfl, hkeys, hlisted, htables, havatars, rfl⟩ :=
      (readEntries_eq_some hbytes.right hlists.nodup).mp hread
    exact ⟨_, hraw, headerBytes, header, avatars, tableEntries, avatarEntries, hlt, hloads, hlists,
      hkeys, hlisted, htables, havatars, rfl⟩
  · rintro ⟨raw, hraw, headerBytes, header, avatars, tableEntries, avatarEntries, hlt, hloads,
      hlists, hkeys, hlisted, htables, havatars, rfl⟩
    have hbytes := p.bytes_decompress hraw
    exact ⟨_, hraw, headerBytes, _, (splitHeader_eq_some hbytes).mpr ⟨hlt, rfl⟩, header, hloads,
      backup.tables, avatars, hlists, (readEntries_eq_some hbytes.right hlists.nodup).mpr
        ⟨tableEntries, avatarEntries, rfl, hkeys, hlisted, htables, havatars, rfl⟩⟩

end format

section roundTrip

variable {p : Platform} {tables : List (Text × List ℕ)} {avatars : Dict Text (List ℕ)}

theorem scalar_of_writeEntries {entries : List (Text × List ℕ)} {written : List ℕ}
    (h : writeEntries entries = some written) : ∀ entry ∈ entries, ∀ c ∈ entry.1, Scalar c := by
  induction entries generalizing written with
  | nil => exact List.forall_mem_nil _
  | cons entry entries ih =>
    obtain ⟨first, others, hfirst, hothers, -⟩ := writeEntries_cons.mp h
    obtain ⟨nameBytes, hname, -⟩ := writeBackupEntry_eq_some.mp hfirst
    exact List.forall_mem_cons.mpr ⟨(encodeUtf8_eq_some.mp hname).1, ih hothers⟩

theorem Bytes.append {octets octets' : List ℕ} (h : Bytes octets) (h' : Bytes octets') :
    Bytes (octets ++ octets') :=
  List.forall_mem_append.mpr ⟨h, h'⟩

theorem bytes_packed (width n : ℕ) : Bytes (packed width n) := fun _ h ↦ packed_lt h

theorem bytes_writeEntries {entries : List (Text × List ℕ)} {written : List ℕ}
    (hdata : ∀ entry ∈ entries, Bytes entry.2) (h : writeEntries entries = some written) :
    Bytes written := by
  induction entries generalizing written with
  | nil =>
    obtain rfl := Option.some.inj h
    exact List.forall_mem_nil _
  | cons entry entries ih =>
    obtain ⟨hentry, hentries⟩ := List.forall_mem_cons.mp hdata
    obtain ⟨first, others, hfirst, hothers, rfl⟩ := writeEntries_cons.mp h
    obtain ⟨nameBytes, hname, -, -, rfl⟩ := writeBackupEntry_eq_some.mp hfirst
    obtain ⟨hscalar, rfl⟩ := encodeUtf8_eq_some.mp hname
    have hnameBytes : Bytes (entry.1.flatMap utf8Octets) := fun octet hoctet ↦ by
      obtain ⟨c, hc, hoctet⟩ := List.mem_flatMap.mp hoctet
      exact utf8Octets_lt (hscalar c hc).1 hoctet
    exact ((((bytes_packed _ _).append hnameBytes).append (bytes_packed _ _)).append hentry).append
      (ih hentries hothers)

theorem scalar_hexdigest (data : List ℕ) : ∀ c ∈ hexdigest p data, Scalar c := by
  intro c hc
  obtain ⟨octet, hoctet, hc⟩ := List.mem_flatMap.mp hc
  have hlt := p.bytes_sha256 data octet hoctet
  simp only [List.mem_cons, List.not_mem_nil, or_false] at hc
  rcases hc with rfl | rfl
  · exact (ascii_hexDigit (by omega)).scalar
  · exact (ascii_hexDigit (by omega)).scalar

def manifestValue (p : Platform) (file : Text × List ℕ) : Value :=
  .obj [(nameName, .str file.1), (sha256Name, .str (hexdigest p file.2))]

def headerValues (p : Platform) (names : List Text) (files : List (Text × List ℕ)) :
    List (Text × Value) :=
  [(versionName, .int (natural [0x32])), (tablesName, .arr (names.map .str)),
    (avatarsName, .arr (files.map (manifestValue p)))]

theorem forall₂_map {α β γ : Type} {r : β → γ → Prop} {f : α → β} {g : α → γ} {l : List α}
    (h : ∀ a ∈ l, r (f a) (g a)) : List.Forall₂ r (l.map f) (l.map g) :=
  List.forall₂_map_left_iff.mpr (List.forall₂_map_right_iff.mpr (List.forall₂_same.mpr h))

theorem reads_header {n : ℕ} {names : List Text} {files : List (Text × List ℕ)}
    (hnames : ∀ name ∈ names, ∀ c ∈ name, Scalar c)
    (hfiles : ∀ file ∈ files, ∀ c ∈ file.1, Scalar c) :
    List.Forall₂ (Reads (member (value (n + 2)))) ((header p names files).map dumpsField)
      (headerValues p names files) := by
  have hscalar : ∀ name ∈ [versionName, tablesName, avatarsName, nameName, sha256Name],
      ∀ c ∈ name, Scalar c := by decide
  refine .cons (reads_dumpsField (hscalar _ (by simp)) (reads_digit rfl))
    (.cons (reads_dumpsField (hscalar _ (by simp)) (reads_dumpsArray ?_))
      (.cons (reads_dumpsField (hscalar _ (by simp)) (reads_dumpsArray ?_)) .nil))
  · exact forall₂_map fun name hname ↦ reads_quoted (hnames name hname)
  · refine forall₂_map fun file hfile ↦ reads_dumpsObject ?_
    exact .cons (reads_dumpsField (hscalar _ (by simp)) (reads_quoted (hfiles file hfile)))
      (.cons (reads_dumpsField (hscalar _ (by simp)) (reads_quoted (scalar_hexdigest file.2))) .nil)

/-- What a backup of tables and avatars holds. -/
structure Valid (tables : List (Text × List ℕ)) (avatars : Dict Text (List ℕ)) : Prop where
  nodup : (tables.map Prod.fst).Nodup
  bytes_tables : ∀ table ∈ tables, Bytes table.2
  bytes_avatars : ∀ file ∈ avatars.entries, Bytes file.2
  avatarName_eq : ∀ file ∈ avatars.entries, avatarName file.1 = true
  length_le : ∀ file ∈ avatars.entries, file.2.length ≤ maxAvatarBytes

theorem listedAs_manifestValue {file : Text × List ℕ} (hname : avatarName file.1 = true)
    (hlen : file.2.length ≤ maxAvatarBytes) : ListedAs p (manifestValue p file) file :=
  ⟨if_pos hname, hlen, rfl⟩

theorem lists_headerValues (p : Platform) {names : List Text} (files : List (Text × List ℕ))
    (h : names.Nodup) : Lists (.obj (headerValues p names files)) names (files.map (manifestValue p)) :=
  ⟨h, _, _, rfl, rfl, .inr rfl, rfl, rfl⟩

theorem parseBackup_backupDatabase {content : List ℕ} (hvalid : Valid tables avatars)
    (h : backupDatabase p tables avatars = some content) :
    parseBackup p content = .ok ⟨tables.map Prod.fst, ⟨tables, hvalid.nodup⟩, avatars⟩ := by
  simp only [backupDatabase, Option.bind_eq_bind, Option.bind_eq_some_iff, Option.pure_def,
    Option.some.injEq, pack_eq_some] at h
  obtain ⟨headerBytes, hheader, _, ⟨hlt, rfl⟩, tableEntries, htables, avatarEntries, havatars,
    rfl⟩ := h
  have hnames : ∀ name ∈ tables.map Prod.fst, ∀ c ∈ name, Scalar c :=
    List.forall_mem_map.mpr (scalar_of_writeEntries htables)
  obtain ⟨n, hn⟩ : ∃ n, p.nesting = n + 2 + 1 := Nat.exists_eq_add_of_le' p.three_le_nesting
  have hreads : List.Forall₂ (Reads (member (value (n + 2)))) _ _ :=
    reads_header (p := p) hnames (scalar_of_writeEntries havatars)
  have hascii := ascii_dumpsObject hreads
  obtain rfl : _ = headerBytes := Option.some.inj ((encodeUtf8_ascii hascii).symm.trans hheader)
  have hbytes : Bytes (dumpsObject (header p (tables.map Prod.fst) avatars.entries)) :=
    fun c hc ↦ by have := (hascii c hc).2; omega
  refine parseBackup_eq_ok.mpr ⟨_, p.decompress_compress ?_, _, _, _, tableEntries, avatarEntries,
    hlt, ?_, lists_headerValues p avatars.entries hvalid.nodup, rfl, ?_, htables, havatars, rfl⟩
  · exact ((bytes_packed _ _).append hbytes).append
      ((bytes_writeEntries hvalid.bytes_tables htables).append
        (bytes_writeEntries hvalid.bytes_avatars havatars))
  · rw [hn]
    exact loads_dumpsObject hreads
  · refine List.forall₂_map_left_iff.mpr (List.forall₂_same.mpr fun file hfile ↦ ?_)
    exact listedAs_manifestValue (hvalid.avatarName_eq file hfile) (hvalid.length_le file hfile)

def Fits (entry : Text × List ℕ) : Prop :=
  ∃ written, writeBackupEntry entry.1 entry.2 = some written

theorem exists_writeEntries_iff {entries : List (Text × List ℕ)} :
    (∃ written, writeEntries entries = some written) ↔ ∀ entry ∈ entries, Fits entry := by
  induction entries with
  | nil => exact iff_of_true ⟨[], rfl⟩ (List.forall_mem_nil _)
  | cons entry entries ih =>
    rw [List.forall_mem_cons, ← ih]
    constructor
    · rintro ⟨written, h⟩
      obtain ⟨first, others, hfirst, hothers, -⟩ := writeEntries_cons.mp h
      exact ⟨⟨first, hfirst⟩, others, hothers⟩
    · rintro ⟨⟨first, hfirst⟩, others, hothers⟩
      exact ⟨first ++ others, writeEntries_cons.mpr ⟨first, others, hfirst, hothers, rfl⟩⟩

/-- A backup is written of everything whose names and sizes fit their places. -/
theorem exists_backupDatabase_iff : (∃ content, backupDatabase p tables avatars = some content) ↔
    (∀ entry ∈ tables ++ avatars.entries, Fits entry) ∧
      (dumpsObject (header p (tables.map Prod.fst) avatars.entries)).length < 256 ^ 4 := by
  have hascii (htables : ∀ entry ∈ tables, Fits entry)
      (havatars : ∀ file ∈ avatars.entries, Fits file) :
      encodeUtf8 (dumpsObject (header p (tables.map Prod.fst) avatars.entries)) =
        some (dumpsObject (header p (tables.map Prod.fst) avatars.entries)) := by
    obtain ⟨_, htables⟩ := exists_writeEntries_iff.mpr htables
    obtain ⟨_, havatars⟩ := exists_writeEntries_iff.mpr havatars
    exact encodeUtf8_ascii (ascii_dumpsObject (reads_header (n := 0)
      (List.forall_mem_map.mpr (scalar_of_writeEntries htables)) (scalar_of_writeEntries havatars)))
  rw [List.forall_mem_append]
  simp only [backupDatabase, Option.bind_eq_bind, Option.bind_eq_some_iff, Option.pure_def,
    Option.some.injEq, pack_eq_some]
  constructor
  · rintro ⟨content, headerBytes, hheader, _, ⟨hlt, rfl⟩, _, htables, _, havatars, rfl⟩
    have htables := exists_writeEntries_iff.mp ⟨_, htables⟩
    have havatars := exists_writeEntries_iff.mp ⟨_, havatars⟩
    obtain rfl := Option.some.inj ((hascii htables havatars).symm.trans hheader)
    exact ⟨⟨htables, havatars⟩, hlt⟩
  · rintro ⟨⟨htables, havatars⟩, hlt⟩
    obtain ⟨tableEntries, htableEntries⟩ := exists_writeEntries_iff.mpr htables
    obtain ⟨avatarEntries, havatarEntries⟩ := exists_writeEntries_iff.mpr havatars
    exact ⟨_, _, hascii htables havatars, _, ⟨hlt, rfl⟩, _, htableEntries, _, havatarEntries, rfl⟩

end roundTrip

section errors

variable {p : Platform} {content : List ℕ}

/-- The compressed data does not break off in its coding, and the header is not nested too deep. -/
def Handled (p : Platform) (content : List ℕ) : Prop :=
  p.decompress content ≠ .error .zlibError ∧
    ∀ raw headerBytes body, p.decompress content = .ok raw →
      splitHeader raw = some (headerBytes, body) →
      loads p.nesting headerBytes ≠ .error .recursion

/-- A backup or the one error that its caller handles. -/
def Answered (p : Platform) (content : List ℕ) : Prop :=
  (∃ backup, parseBackup p content = .ok backup) ∨ parseBackup p content = .error .valueError

theorem answered_iff_forall : Answered p content ↔
    ∀ raised, parse p content = .error raised → handled raised = true := by
  rw [Answered, parseBackup]
  cases parse p content with
  | ok backup => exact iff_of_true (.inl ⟨backup, rfl⟩) fun _ h ↦ by cases h
  | error raised => cases raised <;> simp [Except.mapError, handled]

theorem mapError_eq_error {ε ε' α : Type} {x : Except ε α} {f : ε → ε'} {e : ε'} :
    x.mapError f = .error e ↔ ∃ e', x = .error e' ∧ f e' = e := by
  cases x <;> simp [Except.mapError]

theorem orValueError_eq_error {α : Type} {result : Option α} {raised : Raised}
    (h : orValueError result = .error raised) : handled raised = true := by
  cases result with
  | none =>
    cases h
    rfl
  | some a => cases h

theorem handled_of_item {name : Text} {v : Value} {raised : Raised}
    (h : item name v = .error raised) : handled raised = true := by
  cases v with
  | obj fields =>
    rw [item] at h
    cases hfield : field name fields with
    | none =>
      rw [hfield] at h
      cases h
      rfl
    | some v =>
      rw [hfield] at h
      cases h
  | _ =>
    cases h
    rfl

theorem handled_of_readHeader {header : Value} {raised : Raised}
    (h : readHeader header = .error raised) : handled raised = true := by
  rw [readHeader, bind_eq_error] at h
  obtain h | ⟨version, -, h⟩ := h
  · exact handled_of_item h
  obtain h | ⟨tables, -, h⟩ := bind_eq_error.mp h
  · exact handled_of_item h
  split_ifs at h
  · split at h
    · split at h
      · split_ifs at h
        cases h
        rfl
      · cases h
        rfl
    · cases h
      rfl
  · cases h
    rfl

theorem answered_iff_handled : Answered p content ↔ Handled p content := by
  rw [answered_iff_forall]
  constructor
  · refine fun h ↦ ⟨fun hzlib ↦ ?_, fun raw headerBytes body hraw hsplit hloads ↦ ?_⟩
    · have hparse : parse p content = .error .zlibError := by
        rw [parse, hzlib]
        rfl
      exact Bool.false_ne_true (h _ hparse)
    · have hparse : parse p content = .error .recursionError := by
        rw [parse, hraw]
        dsimp only [Except.mapError, bind, Except.bind]
        rw [hsplit]
        dsimp only [orValueError, Option.elim]
        rw [hloads]
        rfl
      exact Bool.false_ne_true (h _ hparse)
  · rintro ⟨hzlib, hrecursion⟩ raised h
    rw [parse, bind_eq_error, mapError_eq_error] at h
    obtain ⟨error, hraw, rfl⟩ | ⟨raw, hraw, h⟩ := h
    · cases error with
      | zlibError => exact absurd hraw hzlib
      | osError => rfl
      | eofError => rfl
    obtain h | ⟨⟨headerBytes, body⟩, hsplit, h⟩ := bind_eq_error.mp h
    · exact orValueError_eq_error h
    obtain h | ⟨header, -, h⟩ := bind_eq_error.mp h
    · obtain ⟨error, hloads, rfl⟩ := mapError_eq_error.mp h
      cases error with
      | value => rfl
      | recursion =>
        exact absurd hloads (hrecursion raw headerBytes body (mapError_eq_ok.mp hraw)
          (orValueError_eq_ok.mp hsplit))
    obtain h | ⟨⟨tables, avatars⟩, -, h⟩ := bind_eq_error.mp h
    · exact handled_of_readHeader h
    · exact orValueError_eq_error h

end errors

section exactness

/-- Writing a backup and reading it gives back its tables and avatars. -/
def RoundTrip (p : Platform) : Prop :=
  ∀ (tables : List (Text × List ℕ)) (avatars : Dict Text (List ℕ)) (content : List ℕ)
    (hvalid : Valid tables avatars), backupDatabase p tables avatars = some content →
    parseBackup p content = .ok ⟨tables.map Prod.fst, ⟨tables, hvalid.nodup⟩, avatars⟩

/-- Bytes have an answer, and a backup only where they are laid out as one. -/
def ReadExactly (p : Platform) (content : List ℕ) : Prop :=
  Answered p content ∧ ∀ backup, parseBackup p content = .ok backup →
    ∃ raw, p.decompress content = .ok raw ∧ LaidOut p raw backup

theorem roundTrip_and_readExactly_iff (p : Platform) :
    RoundTrip p ∧ ∀ content, ReadExactly p content ↔ Handled p content :=
  ⟨fun _ _ _ hvalid h ↦ parseBackup_backupDatabase hvalid h, fun _ ↦
    (and_iff_left fun _ h ↦ parseBackup_eq_ok.mp h).trans answered_iff_handled⟩

def gzipMark : List ℕ := [0x1F, 0x8B, 8, 0, 0, 0, 0, 0, 0, 0xFF]

instance decidableBytes (octets : List ℕ) : Decidable (Bytes octets) :=
  inferInstanceAs (Decidable (∀ _ ∈ _, _))

def unstore (content : List ℕ) : Except GzipError (List ℕ) :=
  if ¬Bytes content then .error .osError
  else if content = [] then .ok []
  else if content.take 10 ≠ gzipMark then .error .osError
  else match content.drop 10 with
  | [] => .error .eofError
  | block :: raw => if block = 1 then .ok raw else .error .zlibError

theorem unstore_store {raw : List ℕ} (h : Bytes raw) : unstore (gzipMark ++ 1 :: raw) = .ok raw := by
  have hbytes : Bytes (gzipMark ++ 1 :: raw) :=
    List.forall_mem_append.mpr ⟨by decide, List.forall_mem_cons.mpr ⟨by decide, h⟩⟩
  have hne : gzipMark ++ 1 :: raw ≠ [] := List.cons_ne_nil _ _
  rw [unstore, if_neg (not_not.mpr hbytes), if_neg hne]
  rfl

theorem bytes_unstore {content raw : List ℕ} (h : unstore content = .ok raw) : Bytes raw := by
  rw [unstore] at h
  split_ifs at h with hbytes hempty hmark
  · cases h
    exact List.forall_mem_nil _
  · split at h
    · cases h
    · next block rest heq =>
      split_ifs at h
      cases h
      have hdrop : Bytes (content.drop 10) := fun octet hoctet ↦
        hbytes octet (List.mem_of_mem_drop hoctet)
      rw [heq] at hdrop
      exact (List.forall_mem_cons.mp hdrop).2

/-- Data is stored as it is, and another kind of block breaks off the coding. -/
def storing : Platform where
  compress raw := gzipMark ++ 1 :: raw
  decompress := unstore
  sha256 _ := List.replicate 32 0
  nesting := 1000
  decompress_compress := unstore_store
  bytes_decompress := bytes_unstore
  bytes_sha256 _ := by decide
  three_le_nesting := by decide

theorem reservedBlock_not_readExactly : ¬ReadExactly storing (gzipMark ++ [7]) := by
  intro h
  obtain ⟨hzlib, -⟩ := answered_iff_handled.mp h.1
  exact hzlib rfl

end exactness

end AnyList.Backup.ServerBackup
