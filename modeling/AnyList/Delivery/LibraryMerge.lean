import AnyList.Library.Dict
import AnyList.Library.Json
import AnyList.Library.PyText
import Mathlib.Data.Finset.Insert

namespace AnyList.Delivery.LibraryMerge

open AnyList.Library AnyList.Library.Octets AnyList.Library.Json AnyList.Library.PyText

abbrev Row := Dict String Value

section rows

/-- The values that count as true. -/
def truthy : Value → Bool
  | .null => false
  | .bool value => value
  | .int value => decide (value ≠ 0)
  | .float _ digits _ => decide (digits ≠ 0)
  | .constant _ => true
  | .str t => decide (t ≠ [])
  | .arr items => !items.isEmpty
  | .obj fields => !fields.isEmpty

def lower (c : ℕ) : ℕ := if 0x41 ≤ c ∧ c ≤ 0x5A then c + 0x20 else c

/-- The other label of a series; no value but a text is written so. -/
def isTv (row : Row) : Bool :=
  match row.get "content_type" with
  | some (.str t) => decide ((strip t).map lower = text "tv")
  | _ => false

def canonicalContentType (row : Row) : Row :=
  if isTv row then row.set "content_type" (.str (text "series")) else row

def pageSize : ℕ := 500

/-- The pages of a library that stays as it is while they are pulled. -/
def pullLibrary (remote : List Row) (offset : ℕ) : List Row :=
  let page := (remote.drop offset).take pageSize
  let items := page.map canonicalContentType
  if page.length < pageSize then items else items ++ pullLibrary remote (offset + pageSize)
termination_by remote.length - offset
decreasing_by
  simp only [page, pageSize, List.length_take, List.length_drop] at *
  omega

def libraryPushFields : List String :=
  ["content_id", "content_type", "name", "poster", "poster_shape", "background", "description",
    "release_info", "imdb_rating", "genres", "addon_base_url", "added_at"]

def isDropped (field : String) : Value → Bool
  | .null => true
  | .str [] => true
  | value => decide (field = "genres") && !truthy value

def libraryPushItem (item : Row) : Row :=
  Dict.empty.setAll (libraryPushFields.filterMap fun field ↦
    ((item.get field).filter fun value ↦ !isDropped field value).map fun value ↦ (field, value))

variable (repr : Value → Text)

/-- The title of a row; `repr` gives the texts of the values that are none. -/
def contentId (row : Row) : Option Text :=
  ((row.get "content_id").filter truthy).map fun value ↦
    match value with
    | .str t => t
    | value => repr value

end rows

section merge

variable (repr : Value → Text)

def keyedItem (item : Row) : Option (Text × Row) :=
  (contentId repr item).map fun id ↦ (id, libraryPushItem item)

def addItem (merged : Dict Text Row) (item : Row) : Dict Text Row :=
  match contentId repr item with
  | none => merged
  | some id =>
    merged.set id (((merged.get id).getD .empty).setAll (libraryPushItem item).entries)

/-- The library that is written back. -/
def mergeLibrary (remote additions : List Row) (removed : Finset Text) : List Row :=
  let merged := Dict.empty.setAll ((pullLibrary remote 0).filterMap (keyedItem repr))
  let kept := merged.filterKeys fun id ↦ decide (id ∉ removed)
  (additions.foldl (addItem repr) kept).values

end merge

section pull

theorem pullLibrary_eq (remote : List Row) (offset : ℕ) :
    pullLibrary remote offset = (remote.drop offset).map canonicalContentType := by
  fun_induction pullLibrary remote offset with
  | case1 offset page items hshort =>
    have hall : page = remote.drop offset := by
      refine List.take_of_length_le ?_
      simp only [page, List.length_take] at hshort
      omega
    simp only [items, hall]
  | case2 offset page items _ ih =>
    rw [ih, ← List.drop_drop, ← List.map_append]
    exact congrArg _ (List.take_append_drop _ _)

variable {row : Row}

theorem get_canonicalContentType {field : String} (h : field ≠ "content_type") :
    (canonicalContentType row).get field = row.get field := by
  rw [canonicalContentType]
  split_ifs
  · exact Dict.get_set_of_ne row _ (Ne.symm h)
  · rfl

theorem isTv_canonicalContentType : isTv (canonicalContentType row) = false := by
  rw [canonicalContentType]
  split_ifs with h
  · rw [isTv, Dict.get_set_self]
    decide
  · exact Bool.not_eq_true _ ▸ h

theorem canonicalContentType_of_not_isTv (h : isTv row = false) :
    canonicalContentType row = row := if_neg (by simp [h])

end pull

section push

variable {item : Row} {field : String} {value : Value}

/-- Each of some fields is set, where `g` has a value for it. -/
theorem get_setAll_fields {g : String → Option Value} {fields : List String}
    (hnodup : fields.Nodup) (d : Row) :
    (d.setAll (fields.filterMap fun field ↦ (g field).map fun value ↦ (field, value))).get field =
      if field ∈ fields then (g field).or (d.get field) else d.get field := by
  induction fields generalizing d with
  | nil => simp [Dict.setAll]
  | cons first fields ih =>
    obtain ⟨hfirst, hrest⟩ := List.nodup_cons.mp hnodup
    cases hvalue : g first with
    | none =>
      rw [List.filterMap_cons, hvalue, Option.map_none]
      dsimp only
      rw [ih hrest]
      by_cases hfield : field = first
      · subst hfield
        rw [if_neg hfirst, if_pos List.mem_cons_self, hvalue, Option.none_or]
      · simp only [List.mem_cons, hfield, false_or]
    | some value =>
      rw [List.filterMap_cons, hvalue, Option.map_some]
      dsimp only
      have hset (writes : List (String × Value)) : d.setAll ((first, value) :: writes) =
        (d.set first value).setAll writes := rfl
      rw [hset, ih hrest]
      by_cases hfield : field = first
      · subst hfield
        rw [if_neg hfirst, if_pos List.mem_cons_self, hvalue, Dict.get_set_self, Option.some_or]
      · simp only [List.mem_cons, hfield, false_or,
          Dict.get_set_of_ne d value (Ne.symm hfield)]

theorem get_libraryPushItem : (libraryPushItem item).get field =
    if field ∈ libraryPushFields then
      (item.get field).filter fun value ↦ !isDropped field value else none := by
  have hnodup : libraryPushFields.Nodup := by decide
  rw [libraryPushItem, get_setAll_fields hnodup, Dict.get_empty, Option.or_none]

theorem isTv_congr {item' : Row} (h : item'.get "content_type" = item.get "content_type") :
    isTv item' = isTv item := by
  rw [isTv, isTv, h]

/-- What is written of a row keeps the label of its type. -/
theorem isTv_libraryPushItem : isTv (libraryPushItem item) = isTv item := by
  have hmem : "content_type" ∈ libraryPushFields := by decide
  rw [isTv, isTv, get_libraryPushItem, if_pos hmem]
  cases item.get "content_type" with
  | none => rfl
  | some value =>
    cases value with
    | str t =>
      cases t with
      | nil => rfl
      | cons c t => rfl
    | _ => rfl

variable {repr : Value → Text} {id : Text}

theorem isDropped_of_truthy (hfield : field ≠ "genres") (h : truthy value = true) :
    isDropped field value = false := by
  cases value with
  | null => cases h
  | str t =>
    cases t with
    | nil => cases h
    | cons c t => simp [isDropped, hfield]
  | _ => simp [isDropped, hfield]

/-- What is written of a row has its title. -/
theorem get_content_id_libraryPushItem (h : contentId repr item = some id) :
    (libraryPushItem item).get "content_id" = item.get "content_id" := by
  obtain ⟨value, hvalue, -⟩ := Option.map_eq_some_iff.mp h
  obtain ⟨hget, htruthy⟩ := Option.filter_eq_some_iff.mp hvalue
  have hkept : (!isDropped "content_id" value) = true := by
    rw [isDropped_of_truthy (by decide) htruthy]
    rfl
  rw [get_libraryPushItem, if_pos (by decide), hget]
  exact Option.filter_some_pos hkept

theorem contentId_congr {item' : Row} (h : item'.get "content_id" = item.get "content_id") :
    contentId repr item' = contentId repr item := by
  rw [contentId, contentId, h]

theorem contentId_libraryPushItem (h : contentId repr item = some id) :
    contentId repr (libraryPushItem item) = some id :=
  (contentId_congr (get_content_id_libraryPushItem h)).trans h

theorem contentId_canonicalContentType :
    contentId repr (canonicalContentType item) = contentId repr item :=
  contentId_congr (get_canonicalContentType (by decide))

end push

section titles

variable {repr : Value → Text} {d : Dict Text Row} {item row : Row} {id : Text}
  {remote additions : List Row} {removed : Finset Text}

/-- Every row is held under its own title. -/
def Titled (repr : Value → Text) (d : Dict Text Row) : Prop :=
  ∀ id row, d.get id = some row → contentId repr row = some id

theorem mem_keyedItem {row : Row} : (id, row) ∈ (pullLibrary remote 0).filterMap (keyedItem repr) ↔
    ∃ item ∈ remote, contentId repr item = some id ∧
      libraryPushItem (canonicalContentType item) = row := by
  simp only [pullLibrary_eq, List.drop_zero, List.mem_filterMap, List.mem_map, keyedItem,
    Option.map_eq_some_iff, Prod.mk.injEq, exists_exists_and_eq_and]
  refine exists_congr fun item ↦ and_congr_right fun _ ↦ ?_
  rw [contentId_canonicalContentType]
  constructor
  · rintro ⟨_, hid, rfl, hrow⟩
    exact ⟨hid, hrow⟩
  · rintro ⟨hid, hrow⟩
    exact ⟨id, hid, rfl, hrow⟩

/-- The rows that are read, by title. -/
def readLibrary (repr : Value → Text) (remote : List Row) : Dict Text Row :=
  Dict.empty.setAll ((pullLibrary remote 0).filterMap (keyedItem repr))

theorem of_get_readLibrary (h : (readLibrary repr remote).get id = some row) :
    ∃ item ∈ remote, contentId repr item = some id ∧
      libraryPushItem (canonicalContentType item) = row := by
  obtain hmem | hempty := Dict.mem_or_get_of_get_setAll h
  · exact mem_keyedItem.mp hmem
  · cases hempty

theorem exists_get_readLibrary (hitem : item ∈ remote) (hid : contentId repr item = some id) :
    ∃ row, (readLibrary repr remote).get id = some row := by
  have hmem : (id, libraryPushItem (canonicalContentType item)) ∈
      (pullLibrary remote 0).filterMap (keyedItem repr) := mem_keyedItem.mpr ⟨item, hitem, hid, rfl⟩
  obtain ⟨row, -, hget⟩ := Dict.exists_get_setAll (List.mem_map_of_mem hmem) Dict.empty
  exact ⟨row, hget⟩

theorem titled_readLibrary : Titled repr (readLibrary repr remote) := by
  intro id row h
  obtain ⟨item, -, hid, rfl⟩ := of_get_readLibrary h
  exact contentId_libraryPushItem (contentId_canonicalContentType.trans hid)

theorem Titled.filterKeys (h : Titled repr d) (p : Text → Bool) : Titled repr (d.filterKeys p) := by
  intro id row hget
  rw [Dict.get_filterKeys] at hget
  split_ifs at hget
  exact h id row hget

theorem get_addItem_self (hid : contentId repr item = some id) :
    (addItem repr d item).get id =
      some (((d.get id).getD .empty).setAll (libraryPushItem item).entries) := by
  rw [addItem, hid]
  exact Dict.get_set_self _ _ _

theorem get_addItem_of_ne (hid : contentId repr item ≠ some id) :
    (addItem repr d item).get id = d.get id := by
  rw [addItem]
  split
  · rfl
  · next other hother => exact Dict.get_set_of_ne d _ fun h ↦ hid (hother.trans (congrArg some h))

theorem get_setAll_libraryPushItem (existing : Row) {field : String} {value : Value}
    (h : (libraryPushItem item).get field = some value) :
    (existing.setAll (libraryPushItem item).entries).get field = some value :=
  Dict.get_setAll_of_mem (libraryPushItem item).nodup (Dict.mem_entries.mpr h) existing

theorem Titled.addItem (h : Titled repr d) (item : Row) : Titled repr (addItem repr d item) := by
  intro id row hget
  by_cases hid : contentId repr item = some id
  · rw [get_addItem_self hid] at hget
    obtain rfl := Option.some.inj hget
    obtain ⟨value, hvalue, -⟩ := Option.map_eq_some_iff.mp hid
    obtain ⟨hitem, -⟩ := Option.filter_eq_some_iff.mp hvalue
    have hpush := (get_content_id_libraryPushItem hid).trans hitem
    exact (contentId_congr ((get_setAll_libraryPushItem _ hpush).trans hitem.symm)).trans hid
  · rw [get_addItem_of_ne hid] at hget
    exact h id row hget

theorem titled_foldl_addItem (h : Titled repr d) :
    Titled repr (additions.foldl (addItem repr) d) := by
  induction additions generalizing d with
  | nil => exact h
  | cons item additions ih => exact ih (h.addItem item)

theorem get_foldl_addItem (h : ∀ item ∈ additions, contentId repr item ≠ some id) :
    (additions.foldl (addItem repr) d).get id = d.get id := by
  induction additions generalizing d with
  | nil => rfl
  | cons item additions ih =>
    obtain ⟨hitem, hrest⟩ := List.forall_mem_cons.mp h
    exact (ih hrest).trans (get_addItem_of_ne hitem)

/-- Under its title a row is the only one. -/
theorem filter_values (h : Titled repr d) (hget : d.get id = some row) :
    d.values.filter (fun row ↦ decide (contentId repr row = some id)) = [row] := by
  have hentries (entries : List (Text × Row)) (hnodup : (entries.map Prod.fst).Nodup)
      (hmem : (id, row) ∈ entries) :
      entries.filter (fun entry ↦ decide (entry.1 = id)) = [(id, row)] := by
    induction entries with
    | nil => cases hmem
    | cons entry entries ih =>
      rw [List.map_cons, List.nodup_cons] at hnodup
      obtain ⟨hnot, hnodup⟩ := hnodup
      obtain rfl | hmem := List.mem_cons.mp hmem
      · have hrest : entries.filter (fun entry ↦ decide (entry.1 = id)) = [] := by
          refine List.filter_eq_nil_iff.mpr fun entry hentry hid ↦ hnot ?_
          exact List.mem_map.mpr ⟨entry, hentry, of_decide_eq_true hid⟩
        rw [List.filter_cons, hrest]
        exact if_pos (decide_eq_true rfl)
      · have hne : entry.1 ≠ id := by
          intro hid
          exact hnot (List.mem_map.mpr ⟨_, hmem, hid.symm⟩)
        rw [List.filter_cons_of_neg (by simpa using hne), ih hnodup hmem]
  have hkeys : d.entries.filter (fun entry ↦ decide (contentId repr entry.2 = some id)) =
      d.entries.filter fun entry ↦ decide (entry.1 = id) := by
    refine List.filter_congr fun entry hentry ↦ ?_
    have hid : contentId repr entry.2 = some entry.1 := h _ _ (Dict.mem_entries.mp hentry)
    exact decide_eq_decide.mpr (by rw [hid, Option.some_inj])
  rw [Dict.values, List.filter_map]
  refine (congrArg (List.map Prod.snd) hkeys).trans ?_
  rw [hentries d.entries d.nodup (Dict.mem_entries.mpr hget)]
  rfl

end titles

section claim

variable (repr : Value → Text)

/-- A title that is neither added nor removed. -/
def Untouched (additions : List Row) (removed : Finset Text) (id : Text) : Prop :=
  id ∉ removed ∧ ∀ item ∈ additions, contentId repr item ≠ some id

/-- A merge that loses no other title: it keeps all that a write takes of the untouched rows, has
one row for an added title, with the values that were added last, and none for a removed one. -/
structure LosesNoTitle (remote additions : List Row) (removed : Finset Text) (pushed : List Row) :
    Prop where
  untouched : ∀ row ∈ remote, ∀ id, contentId repr row = some id →
    Untouched repr additions removed id →
      ∃ item ∈ pushed, ∀ field, item.get field = (libraryPushItem row).get field
  added : ∀ earlier item later id, additions = earlier ++ item :: later →
    contentId repr item = some id → (∀ item ∈ later, contentId repr item ≠ some id) →
      ∃ row, pushed.filter (fun row ↦ decide (contentId repr row = some id)) = [row] ∧
        ∀ field value, (libraryPushItem item).get field = some value → row.get field = some value
  gone : ∀ id ∈ removed, (∀ item ∈ additions, contentId repr item ≠ some id) →
    ∀ row ∈ pushed, contentId repr row ≠ some id

variable {repr} {remote additions : List Row} {removed : Finset Text}

theorem get_mergeLibrary {id : Text} (h : Untouched repr additions removed id) :
    (additions.foldl (addItem repr) ((readLibrary repr remote).filterKeys fun id ↦
      decide (id ∉ removed))).get id = (readLibrary repr remote).get id := by
  rw [get_foldl_addItem h.2, Dict.get_filterKeys, if_pos (decide_eq_true h.1)]

theorem titled_mergeLibrary : Titled repr (additions.foldl (addItem repr)
    ((readLibrary repr remote).filterKeys fun id ↦ decide (id ∉ removed))) :=
  titled_foldl_addItem (titled_readLibrary.filterKeys _)

theorem mem_mergeLibrary {row : Row} : row ∈ mergeLibrary repr remote additions removed ↔
    ∃ id, (additions.foldl (addItem repr) ((readLibrary repr remote).filterKeys fun id ↦
      decide (id ∉ removed))).get id = some row := Dict.mem_values

theorem mergeLibrary_added {earlier later : List Row} {item : Row} {id : Text}
    (hid : contentId repr item = some id)
    (hlater : ∀ item ∈ later, contentId repr item ≠ some id) :
    ∃ row, (mergeLibrary repr remote (earlier ++ item :: later) removed).filter
        (fun row ↦ decide (contentId repr row = some id)) = [row] ∧
      ∀ field value, (libraryPushItem item).get field = some value →
        row.get field = some value := by
  have hget : ∃ existing : Row, ((earlier ++ item :: later).foldl (addItem repr)
      ((readLibrary repr remote).filterKeys fun id ↦ decide (id ∉ removed))).get id =
        some (existing.setAll (libraryPushItem item).entries) := by
    rw [List.foldl_append, List.foldl_cons, get_foldl_addItem hlater]
    exact ⟨_, get_addItem_self hid⟩
  obtain ⟨existing, hget⟩ := hget
  exact ⟨_, filter_values titled_mergeLibrary hget,
    fun field value ↦ get_setAll_libraryPushItem existing⟩

theorem mergeLibrary_gone {id : Text} (hremoved : id ∈ removed)
    (h : ∀ item ∈ additions, contentId repr item ≠ some id) :
    ∀ row ∈ mergeLibrary repr remote additions removed, contentId repr row ≠ some id := by
  intro row hrow hid
  obtain ⟨id', hget⟩ := mem_mergeLibrary.mp hrow
  obtain rfl : id' = id :=
    Option.some.inj ((titled_mergeLibrary id' row hget).symm.trans hid)
  rw [get_foldl_addItem h, Dict.get_filterKeys, if_neg (by simpa using hremoved)] at hget
  cases hget

/-- A merge loses no other title just where no untouched row has the other label of a series, and
the rows of one untouched title are written alike. -/
theorem mergeLibrary_loses_no_title : LosesNoTitle repr remote additions removed
      (mergeLibrary repr remote additions removed) ↔
    ∀ row ∈ remote, ∀ id, contentId repr row = some id → Untouched repr additions removed id →
      isTv row = false ∧ ∀ other ∈ remote, contentId repr other = some id →
        ∀ field, (libraryPushItem other).get field = (libraryPushItem row).get field := by
  constructor
  · intro h row hrow id hid htouched
    have hkept (row : Row) (hrow : row ∈ remote) (hid : contentId repr row = some id) :
        ∃ held, (readLibrary repr remote).get id = some held ∧
          ∀ field, held.get field = (libraryPushItem row).get field := by
      obtain ⟨item, hitem, hsame⟩ := h.untouched row hrow id hid htouched
      obtain ⟨id', hget⟩ := mem_mergeLibrary.mp hitem
      have htitle : contentId repr item = contentId repr (libraryPushItem row) :=
        contentId_congr (hsame "content_id")
      rw [titled_mergeLibrary id' item hget, contentId_libraryPushItem hid] at htitle
      obtain rfl := Option.some.inj htitle
      exact ⟨item, (get_mergeLibrary htouched).symm.trans hget, hsame⟩
    obtain ⟨held, hget, hsame⟩ := hkept row hrow hid
    refine ⟨?_, fun other hother hid' field ↦ ?_⟩
    · obtain ⟨item, -, -, rfl⟩ := of_get_readLibrary hget
      have htv := isTv_congr (hsame "content_type")
      rw [isTv_libraryPushItem, isTv_libraryPushItem, isTv_canonicalContentType] at htv
      exact htv.symm
    · obtain ⟨held', hget', hsame'⟩ := hkept other hother hid'
      obtain rfl : held = held' := Option.some.inj (hget.symm.trans hget')
      rw [← hsame, ← hsame']
  · intro h
    refine ⟨fun row hrow id hid htouched ↦ ?_, fun earlier item later id heq hid hlater ↦ ?_,
      fun id hremoved hadded ↦ mergeLibrary_gone hremoved hadded⟩
    · obtain ⟨held, hget⟩ := exists_get_readLibrary hrow hid
      obtain ⟨item, hitem, hid', rfl⟩ := of_get_readLibrary hget
      refine ⟨_, mem_mergeLibrary.mpr ⟨id, (get_mergeLibrary htouched).trans hget⟩, fun field ↦ ?_⟩
      obtain ⟨-, hsame⟩ := h row hrow id hid htouched
      obtain ⟨htv, -⟩ := h item hitem id hid' htouched
      rw [canonicalContentType_of_not_isTv htv]
      exact hsame item hitem hid' field
    · subst heq
      exact mergeLibrary_added hid hlater

/-- A series under the label `tv`, in a library to which nothing is added. -/
theorem mergeLibrary_relabels :
    ¬ LosesNoTitle (fun _ ↦ [])
      [Dict.empty.setAll [("content_id", .str (text "tt1")), ("content_type", .str (text "tv"))]]
      [] ∅ (mergeLibrary (fun _ ↦ [])
        [Dict.empty.setAll [("content_id", .str (text "tt1")), ("content_type", .str (text "tv"))]]
        [] ∅) := by
  intro h
  obtain ⟨item, hitem, hsame⟩ := h.untouched _ List.mem_cons_self (text "tt1") rfl
    ⟨Finset.notMem_empty _, List.forall_mem_nil _⟩
  rw [mergeLibrary, pullLibrary_eq] at hitem
  obtain rfl := List.mem_singleton.mp hitem
  have htype : text "series" = text "tv" :=
    Value.str.inj (Option.some.inj (hsame "content_type"))
  exact absurd htype (by decide)

end claim

end AnyList.Delivery.LibraryMerge
