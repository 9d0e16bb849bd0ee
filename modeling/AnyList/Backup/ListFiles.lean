import AnyList.Backup.AccountImport

namespace AnyList.Backup

open AnyList.Library

theorem slugify_ne_nil (name : String) : slugify name ≠ [] := by
  unfold slugify
  split
  · decide
  · next slug hne => exact fun h ↦ hne h

/-- The name of a file tells the list it was named after. -/
theorem listItemsId_listItemsName (id : ℕ) {slug : List Char} (h : slug ≠ []) :
    listItemsId (listItemsName id slug) = some id := by
  have hdigits : ∀ c ∈ Nat.toDigits 10 id, c.isDigit = true :=
    fun c hc ↦ Nat.isDigit_of_mem_toDigits (by omega) (by omega) hc
  obtain ⟨c, slug, rfl⟩ := List.exists_cons_of_ne_nil h
  obtain ⟨digit, digits, hcons⟩ :=
    List.exists_cons_of_ne_nil (Nat.toDigits_ne_nil (n := id) (b := 10))
  have hprefix : listItemsPrefix.isPrefixOf (listItemsName id (c :: slug)) = true := by
    rw [List.isPrefixOf_iff_prefix]
    exact List.prefix_append _ _
  have hrest : (listItemsName id (c :: slug)).drop listItemsPrefix.length =
      Nat.toDigits 10 id ++ '-' :: (c :: slug ++ jsonSuffix) := List.drop_left
  have htake : (Nat.toDigits 10 id ++ '-' :: (c :: slug ++ jsonSuffix)).takeWhile Char.isDigit =
      digit :: digits := by
    rw [List.takeWhile_append_of_pos hdigits, List.takeWhile_cons_of_neg (by decide),
      List.append_nil, hcons]
  have hdrop : (Nat.toDigits 10 id ++ '-' :: (c :: slug ++ jsonSuffix)).dropWhile Char.isDigit =
      '-' :: c :: (slug ++ jsonSuffix) := by
    rw [List.dropWhile_append_of_pos hdigits, List.dropWhile_cons_of_neg (by decide),
      List.cons_append]
  have hsuffix : jsonSuffix.isSuffixOf (slug ++ jsonSuffix) = true := by
    rw [List.isSuffixOf_iff_suffix]
    exact List.suffix_append _ _
  rw [listItemsId, if_pos hprefix, hrest]
  simp only [htake, hdrop, if_pos hsuffix]
  rw [← hcons, Nat.ofDigitChars_ten_toDigits]

theorem flatten_chunks {α : Type} (items : List α) (size n : ℕ) :
    ((List.range n).map fun i ↦ (items.drop (i * size)).take size).flatten =
      items.take (n * size) := by
  induction n with
  | zero => simp
  | succ n ih =>
    rw [List.range_succ, List.map_append, List.flatten_append, ih, Nat.succ_mul, List.take_add]
    simp

theorem flatten_chunked {α : Type} (items : List α) {size : ℕ} (h : 0 < size) :
    (chunked items size).flatten = items := by
  rw [chunked, flatten_chunks, List.take_of_length_le]
  have hdiv := Nat.div_add_mod (items.length + size - 1) size
  have hmod := Nat.mod_lt (items.length + size - 1) h
  rw [Nat.mul_comm]
  omega

@[simp] theorem flatten_collectionChunks (items : List CollectionEntry) :
    (collectionChunks items).flatten = items := by
  unfold collectionChunks
  split
  · next h => simp_all
  · exact flatten_chunked items (by decide)

section files

variable {lists : List (ℕ × MediaList)}

theorem nodup_ids (h : (lists.map Prod.fst).Nodup) : ((customLists lists).map Prod.fst).Nodup :=
  h.sublist (List.filter_sublist.map Prod.fst)

/-- What is filed under a slug are the items of one list of that slug. -/
theorem exists_listItemsBySlug {row : ℕ × MediaList} (hrow : row ∈ customLists lists) :
    ∃ row' ∈ customLists lists, row'.2.slug = row.2.slug ∧
      (listItemsBySlug lists).get row.2.slug = some row'.2.entries := by
  have hkey : row.2.slug ∈ ((customLists lists).map fun row ↦
      (row.2.slug, row.2.entries)).map Prod.fst := by
    rw [List.map_map]
    exact List.mem_map.mpr ⟨row, hrow, rfl⟩
  obtain ⟨entries, hmem, hget⟩ := Dict.exists_get_setAll hkey Dict.empty
  obtain ⟨row', hrow', heq⟩ := List.mem_map.mp hmem
  obtain ⟨hslug, rfl⟩ := Prod.mk.inj heq
  exact ⟨row', hrow', hslug, hget⟩

theorem slug_of_mem_entries {slug : List Char} {entries : List ListEntry}
    (h : (slug, entries) ∈ (listItemsBySlug lists).entries) :
    ∃ row ∈ customLists lists, row.2.slug = slug := by
  by_contra hnone
  have hget : (listItemsBySlug lists).get slug = none := by
    rw [listItemsBySlug, Dict.get_setAll_of_notMem]
    · rfl
    · simp only [List.map_map, List.mem_map, Function.comp]
      rintro ⟨row, hrow, hslug⟩
      exact hnone ⟨row, hrow, hslug⟩
  rw [Dict.mem_entries, hget] at h
  exact absurd h (by simp)

/-- The file of a slug is named after a list of that slug. -/
theorem exists_ownerId {row : ℕ × MediaList} (hrow : row ∈ customLists lists) :
    ∃ row' ∈ customLists lists, row'.2.slug = row.2.slug ∧ ownerId lists row.2.slug = row'.1 := by
  unfold ownerId
  cases hfind : ((customLists lists).map listMeta).find? fun m ↦ decide (m.slug = row.2.slug) with
  | none =>
    rw [List.find?_eq_none] at hfind
    exact (hfind (listMeta row) (List.mem_map_of_mem hrow) (by simp [listMeta])).elim
  | some m =>
    obtain ⟨row', hrow', rfl⟩ := List.mem_map.mp (List.mem_of_find?_eq_some hfind)
    have hslug := List.find?_some hfind
    rw [decide_eq_true_eq] at hslug
    exact ⟨row', hrow', hslug, rfl⟩

theorem fileOfList_eq_some {id : ℕ} {file : List Char × List ListEntry}
    (h : fileOfList (listFiles lists) id = some file) :
    ∃ entry ∈ (listItemsBySlug lists).entries, ownerId lists entry.1 = id ∧ entry.2 = file.2 := by
  obtain ⟨entry, hentry, rfl⟩ := List.mem_map.mp (List.mem_of_find?_eq_some h)
  obtain ⟨row, -, hslug⟩ : ∃ row ∈ customLists lists, row.2.slug = entry.1 :=
    slug_of_mem_entries hentry
  have hid := List.find?_some h
  rw [decide_eq_true_eq, listItemsId_listItemsName _ (hslug ▸ slugify_ne_nil row.2.name)] at hid
  exact ⟨entry, hentry, Option.some.inj hid, rfl⟩

/-- What an import reads under the slug of a list is what the export filed under it. -/
theorem get_readListItems (hids : (lists.map Prod.fst).Nodup) {row : ℕ × MediaList}
    (hrow : row ∈ customLists lists) :
    (readListItems ((customLists lists).map listMeta) (listFiles lists)).get row.2.slug =
      (listItemsBySlug lists).get row.2.slug := by
  have hinj := List.inj_on_of_nodup_map (nodup_ids hids)
  obtain ⟨owner, howner, hslug, hid⟩ := exists_ownerId hrow
  obtain ⟨holder, -, -, hget⟩ := exists_listItemsBySlug hrow
  -- the file that the owner of the slug finds is the one of this slug
  have hfile : ∃ file, fileOfList (listFiles lists) owner.1 = some file := by
    rw [← Option.isSome_iff_exists, fileOfList, List.find?_isSome]
    refine ⟨_, List.mem_map_of_mem (Dict.mem_entries.mpr hget), ?_⟩
    exact decide_eq_true ((listItemsId_listItemsName _ (slugify_ne_nil row.2.name)).trans
      (congrArg some hid))
  have hwrites : ∀ write ∈ ((customLists lists).map listMeta).filterMap (fun m ↦
      (fileOfList (listFiles lists) m.id).map fun file ↦ (m.slug, file.2)),
      (listItemsBySlug lists).get write.1 = some write.2 := by
    intro write hwrite
    obtain ⟨m, hm, hwrite⟩ := List.mem_filterMap.mp hwrite
    obtain ⟨file, hfile, rfl⟩ := Option.map_eq_some_iff.mp hwrite
    obtain ⟨row', hrow', rfl⟩ := List.mem_map.mp hm
    obtain ⟨entry, hentry, hentryId, hitems⟩ := fileOfList_eq_some hfile
    obtain ⟨row'', hrow'', hslug''⟩ : ∃ row ∈ customLists lists, row.2.slug = entry.1 :=
      slug_of_mem_entries hentry
    obtain ⟨owner', howner', hslug', hid'⟩ := exists_ownerId hrow''
    obtain rfl : owner' = row' := by
      apply hinj howner' hrow'
      rw [← hid', hslug'', hentryId]
      rfl
    show (listItemsBySlug lists).get owner'.2.slug = some file.2
    rw [hslug', hslug'', ← Dict.mem_entries, ← hitems]
    exact hentry
  obtain ⟨file, hfile⟩ := hfile
  have hkey : row.2.slug ∈ (((customLists lists).map listMeta).filterMap fun m ↦
      (fileOfList (listFiles lists) m.id).map fun file ↦ (m.slug, file.2)).map Prod.fst := by
    refine List.mem_map.mpr ⟨(owner.2.slug, file.2), ?_, hslug⟩
    refine List.mem_filterMap.mpr ⟨listMeta owner, List.mem_map_of_mem howner, ?_⟩
    show (fileOfList (listFiles lists) owner.1).map _ = _
    rw [hfile]
    rfl
  obtain ⟨entries, hmem, hread⟩ := Dict.exists_get_setAll hkey Dict.empty
  rw [readListItems, hread, hwrites _ hmem]

end files

end AnyList.Backup
