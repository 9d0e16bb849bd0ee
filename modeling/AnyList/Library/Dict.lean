import Mathlib.Data.List.Basic
import Mathlib.Data.List.Induction
import Mathlib.Data.List.Nodup

namespace AnyList.Library

variable {κ α : Type*} [DecidableEq κ]

/-- A dictionary in insertion order: writing a key it holds keeps the key's place. -/
structure Dict (κ α : Type*) where
  entries : List (κ × α)
  nodup : (entries.map Prod.fst).Nodup

namespace Dict

def getEntry (k : κ) : List (κ × α) → Option α
  | [] => none
  | entry :: rest => if entry.1 = k then some entry.2 else getEntry k rest

def setEntry (k : κ) (a : α) : List (κ × α) → List (κ × α)
  | [] => [(k, a)]
  | entry :: rest => if entry.1 = k then (k, a) :: rest else entry :: setEntry k a rest

theorem mem_map_fst_setEntry {k k' : κ} {a : α} {entries : List (κ × α)} :
    k' ∈ (setEntry k a entries).map Prod.fst ↔ k' = k ∨ k' ∈ entries.map Prod.fst := by
  induction entries with
  | nil => simp [setEntry]
  | cons entry rest ih =>
    by_cases h : entry.1 = k
    · simp [setEntry, h]
    · simp only [setEntry, if_neg h, List.map_cons, List.mem_cons, ih]
      exact or_left_comm

theorem nodup_setEntry {k : κ} {a : α} {entries : List (κ × α)}
    (h : (entries.map Prod.fst).Nodup) : ((setEntry k a entries).map Prod.fst).Nodup := by
  induction entries with
  | nil => simp [setEntry]
  | cons entry rest ih =>
    obtain ⟨hnot, hrest⟩ := List.nodup_cons.mp h
    by_cases hk : entry.1 = k
    · subst hk
      simpa only [setEntry, if_pos, List.map_cons, List.nodup_cons] using ⟨hnot, hrest⟩
    · rw [setEntry, if_neg hk, List.map_cons, List.nodup_cons, mem_map_fst_setEntry]
      exact ⟨not_or.mpr ⟨hk, hnot⟩, ih hrest⟩

theorem getEntry_setEntry {k k' : κ} {a : α} {entries : List (κ × α)} :
    getEntry k' (setEntry k a entries) = if k = k' then some a else getEntry k' entries := by
  induction entries with
  | nil => rfl
  | cons entry rest ih =>
    by_cases hk : entry.1 = k
    · subst hk
      by_cases h : entry.1 = k' <;> simp [setEntry, getEntry, h]
    · by_cases h : entry.1 = k'
      · subst h
        simp [setEntry, getEntry, hk, Ne.symm hk]
      · simp [setEntry, getEntry, hk, h, ih]

theorem mem_iff_getEntry {k : κ} {a : α} {entries : List (κ × α)}
    (h : (entries.map Prod.fst).Nodup) : (k, a) ∈ entries ↔ getEntry k entries = some a := by
  induction entries with
  | nil => simp [getEntry]
  | cons entry rest ih =>
    obtain ⟨hnot, hrest⟩ := List.nodup_cons.mp h
    obtain ⟨k', a'⟩ := entry
    rw [List.mem_cons]
    by_cases hk : k' = k
    · subst hk
      have hrest' : (k', a) ∉ rest := fun ha ↦ hnot (List.mem_map.mpr ⟨_, ha, rfl⟩)
      simp [getEntry, hrest', eq_comm]
    · simp [getEntry, hk, Ne.symm hk, ih hrest]

def empty : Dict κ α := ⟨[], List.nodup_nil⟩

def get (d : Dict κ α) (k : κ) : Option α := getEntry k d.entries

def set (d : Dict κ α) (k : κ) (a : α) : Dict κ α := ⟨setEntry k a d.entries, nodup_setEntry d.nodup⟩

/-- Writes what `f` makes of the value of a key, or of `init` where the key has none. -/
def upsert (d : Dict κ α) (k : κ) (init : α) (f : α → α) : Dict κ α :=
  d.set k (f ((d.get k).getD init))

def values (d : Dict κ α) : List α := d.entries.map Prod.snd

@[simp] theorem get_empty (k : κ) : (empty : Dict κ α).get k = none := rfl

theorem get_set (d : Dict κ α) (k k' : κ) (a : α) :
    (d.set k a).get k' = if k = k' then some a else d.get k' := getEntry_setEntry

@[simp] theorem get_set_self (d : Dict κ α) (k : κ) (a : α) : (d.set k a).get k = some a := by
  simp [get_set]

theorem get_set_of_ne (d : Dict κ α) {k k' : κ} (a : α) (h : k ≠ k') :
    (d.set k a).get k' = d.get k' := by
  simp [get_set, h]

theorem get_upsert (d : Dict κ α) (k k' : κ) (init : α) (f : α → α) :
    (d.upsert k init f).get k' = if k = k' then some (f ((d.get k).getD init)) else d.get k' :=
  d.get_set k k' _

/-- The items by their keys, in the order in which the keys first turn up. -/
def groupBy {β : Type*} (key : β → κ) (items : List β) : Dict κ (List β) :=
  items.foldl (fun groups item ↦ groups.upsert (key item) [] (· ++ [item])) empty

theorem of_mem_groupBy {β : Type*} {key : β → κ} {items group : List β} {k : κ} {item : β}
    (hgroup : (groupBy key items).get k = some group) (hitem : item ∈ group) :
    item ∈ items ∧ key item = k := by
  induction items using List.reverseRecOn generalizing group with
  | nil => simp [groupBy] at hgroup
  | append_singleton items last ih =>
    rw [groupBy, List.foldl_append, List.foldl_cons, List.foldl_nil, ← groupBy, get_upsert] at hgroup
    split at hgroup
    · next hk =>
      obtain rfl := Option.some.inj hgroup
      rcases List.mem_append.mp hitem with hitem | hitem
      · cases hget : (groupBy key items).get (key last) with
        | none => simp [hget] at hitem
        | some earlier =>
          rw [hk] at hget
          rw [hk, hget] at hitem
          obtain ⟨hmem, hkey⟩ := ih hget hitem
          exact ⟨List.mem_append_left _ hmem, hkey⟩
      · obtain rfl := List.mem_singleton.mp hitem
        exact ⟨List.mem_append_right _ (List.mem_singleton_self _), hk⟩
    · obtain ⟨hmem, hkey⟩ := ih hgroup hitem
      exact ⟨List.mem_append_left _ hmem, hkey⟩

theorem get_groupBy {β : Type*} (key : β → κ) (items : List β) (k : κ) :
    (groupBy key items).get k = if ∃ item ∈ items, key item = k then
      some (items.filter fun item ↦ key item = k) else none := by
  induction items using List.reverseRecOn with
  | nil => simp [groupBy]
  | append_singleton items last ih =>
    rw [groupBy, List.foldl_append, List.foldl_cons, List.foldl_nil, ← groupBy, get_upsert]
    by_cases hk : key last = k
    · subst hk
      have hnone : (¬∃ item ∈ items, key item = key last) →
          items.filter (fun item ↦ key item = key last) = [] := fun h ↦
        List.filter_eq_nil_iff.mpr fun item hitem hkey ↦ h ⟨item, hitem, of_decide_eq_true hkey⟩
      have hlast : ∃ item ∈ items ++ [last], key item = key last :=
        ⟨last, List.mem_append_right _ (List.mem_singleton_self _), rfl⟩
      rw [if_pos rfl, if_pos hlast, ih, List.filter_append]
      split_ifs with hearlier
      · simp
      · simp [hnone hearlier]
    · rw [if_neg hk, ih, List.filter_append]
      simp [hk]

theorem getEntry_filter {p : κ → Bool} {k : κ} {entries : List (κ × α)} :
    getEntry k (entries.filter fun entry ↦ p entry.1) =
      if p k then getEntry k entries else none := by
  induction entries with
  | nil => simp [getEntry]
  | cons entry rest ih =>
    rw [List.filter_cons]
    by_cases hk : entry.1 = k
    · subst hk
      cases hp : p entry.1 <;> simp [getEntry, hp, ih]
    · cases hp : p entry.1 <;> simp [getEntry, hk, ih]

def filterKeys (d : Dict κ α) (p : κ → Bool) : Dict κ α :=
  ⟨d.entries.filter fun entry ↦ p entry.1, d.nodup.sublist (List.filter_sublist.map Prod.fst)⟩

theorem get_filterKeys (d : Dict κ α) (p : κ → Bool) (k : κ) :
    (d.filterKeys p).get k = if p k then d.get k else none := getEntry_filter

def mapValues (d : Dict κ α) (f : α → α) : Dict κ α :=
  ⟨d.entries.map fun entry ↦ (entry.1, f entry.2), by simpa [Function.comp_def] using d.nodup⟩

def mapKeyed (d : Dict κ α) (f : κ → α → α) : Dict κ α :=
  ⟨d.entries.map fun entry ↦ (entry.1, f entry.1 entry.2), by
    simpa [Function.comp_def] using d.nodup⟩

theorem get_mapKeyed (d : Dict κ α) (f : κ → α → α) (k : κ) :
    (d.mapKeyed f).get k = (d.get k).map (f k) := by
  have hentries (entries : List (κ × α)) :
      getEntry k (entries.map fun entry ↦ (entry.1, f entry.1 entry.2)) =
        (getEntry k entries).map (f k) := by
    induction entries with
    | nil => rfl
    | cons entry rest ih =>
      by_cases hk : entry.1 = k
      · subst hk
        simp [getEntry]
      · simp [getEntry, hk, ih]
  exact hentries d.entries

def keys (d : Dict κ α) : List κ := d.entries.map Prod.fst

theorem mem_entries {d : Dict κ α} {k : κ} {a : α} : (k, a) ∈ d.entries ↔ d.get k = some a :=
  mem_iff_getEntry d.nodup

theorem mem_values {d : Dict κ α} {a : α} : a ∈ d.values ↔ ∃ k, d.get k = some a := by
  simp only [values, List.mem_map, Prod.exists, exists_eq_right, mem_entries]

def setAll (d : Dict κ α) (writes : List (κ × α)) : Dict κ α :=
  writes.foldl (fun d write ↦ d.set write.1 write.2) d

theorem setAll_append (d : Dict κ α) (writes writes' : List (κ × α)) :
    d.setAll (writes ++ writes') = (d.setAll writes).setAll writes' := List.foldl_append

theorem get_setAll_of_notMem {writes : List (κ × α)} {k : κ} (h : k ∉ writes.map Prod.fst)
    (d : Dict κ α) : (d.setAll writes).get k = d.get k := by
  induction writes generalizing d with
  | nil => rfl
  | cons write writes ih =>
    obtain ⟨hne, hnot⟩ := List.ne_and_not_mem_of_not_mem_cons h
    exact (ih hnot (d.set write.1 write.2)).trans (d.get_set_of_ne write.2 hne.symm)

/-- A key that was written holds one of the values written to it. -/
theorem exists_get_setAll {writes : List (κ × α)} {k : κ} (h : k ∈ writes.map Prod.fst)
    (d : Dict κ α) : ∃ a, (k, a) ∈ writes ∧ (d.setAll writes).get k = some a := by
  induction writes generalizing d with
  | nil => simp at h
  | cons write writes ih =>
    by_cases hk : k ∈ writes.map Prod.fst
    · obtain ⟨a, ha, hget⟩ := ih hk (d.set write.1 write.2)
      exact ⟨a, List.mem_cons_of_mem write ha, hget⟩
    · obtain rfl : k = write.1 := (List.mem_cons.mp h).resolve_right hk
      refine ⟨write.2, List.mem_cons_self, ?_⟩
      exact (get_setAll_of_notMem hk _).trans (d.get_set_self write.1 write.2)

theorem get_setAll_of_mem {writes : List (κ × α)} {k : κ} {a : α}
    (hnodup : (writes.map Prod.fst).Nodup) (h : (k, a) ∈ writes) (d : Dict κ α) :
    (d.setAll writes).get k = some a := by
  obtain ⟨b, hb, hget⟩ := exists_get_setAll (List.mem_map_of_mem h) d
  obtain ⟨_, rfl⟩ := Prod.mk.inj (List.inj_on_of_nodup_map hnodup h hb rfl)
  exact hget

/-- The value of a key depends on the writes of the key alone. -/
theorem get_setAll_filter (d : Dict κ α) (writes : List (κ × α)) (k : κ) :
    (d.setAll writes).get k = (d.setAll (writes.filter fun write ↦ decide (write.1 = k))).get k := by
  induction writes using List.reverseRecOn with
  | nil => rfl
  | append_singleton writes last ih =>
    rw [setAll_append, List.filter_append, setAll_append]
    by_cases hk : last.1 = k
    · simp [setAll, hk]
    · simp only [List.filter_singleton, hk, decide_false]
      exact (get_set_of_ne _ last.2 hk).trans ih

theorem mem_or_get_of_get_setAll {writes : List (κ × α)} {d : Dict κ α} {k : κ} {a : α}
    (h : (d.setAll writes).get k = some a) : (k, a) ∈ writes ∨ d.get k = some a := by
  by_cases hk : k ∈ writes.map Prod.fst
  · obtain ⟨b, hb, hget⟩ := exists_get_setAll hk d
    obtain rfl : b = a := Option.some.inj (hget.symm.trans h)
    exact .inl hb
  · exact .inr ((get_setAll_of_notMem hk d).symm.trans h)

omit [DecidableEq κ] in
@[ext] theorem ext {d d' : Dict κ α} (h : d.entries = d'.entries) : d = d' := by
  cases d
  cases d'
  simp_all

theorem mem_keys {d : Dict κ α} {k : κ} : k ∈ d.keys ↔ ∃ a, d.get k = some a := by
  simp only [keys, List.mem_map, Prod.exists, exists_and_right, exists_eq_right, mem_entries]

theorem get_setAll_entries (d d' : Dict κ α) (k : κ) :
    (d.setAll d'.entries).get k = (d'.get k).or (d.get k) := by
  cases hget : d'.get k with
  | some a => exact get_setAll_of_mem d'.nodup (mem_entries.mpr hget) d
  | none =>
    refine get_setAll_of_notMem (fun hmem ↦ ?_) d
    obtain ⟨a, ha⟩ := mem_keys.mp hmem
    exact Option.some_ne_none a (ha.symm.trans hget)

theorem filterKeys_eq_self {d : Dict κ α} {p : κ → Bool} (h : ∀ k a, d.get k = some a → p k = true) :
    d.filterKeys p = d := by
  ext1
  refine List.filter_eq_self.mpr fun entry hentry ↦ ?_
  exact h entry.1 entry.2 (mem_entries.mp hentry)

theorem filterKeys_congr {d : Dict κ α} {p q : κ → Bool}
    (h : ∀ k a, d.get k = some a → p k = q k) : d.filterKeys p = d.filterKeys q := by
  ext1
  refine List.filter_congr fun entry hentry ↦ ?_
  exact h entry.1 entry.2 (mem_entries.mp hentry)

/-- A change of the values alone goes unseen where it leaves the kept ones as they are. -/
theorem filterKeys_mapKeyed {d : Dict κ α} {f : κ → α → α} {p : κ → Bool}
    (h : ∀ k a, d.get k = some a → p k = true → f k a = a) :
    (d.mapKeyed f).filterKeys p = d.filterKeys p := by
  have hentries (entries : List (κ × α)) (hall : ∀ e ∈ entries, p e.1 = true → f e.1 e.2 = e.2) :
      (entries.map fun e ↦ (e.1, f e.1 e.2)).filter (fun e ↦ p e.1) =
        entries.filter fun e ↦ p e.1 := by
    induction entries with
    | nil => rfl
    | cons e rest ih =>
      have hrest := ih fun e' he' ↦ hall e' (List.mem_cons_of_mem e he')
      cases hp : p e.1 with
      | false => simpa [hp] using hrest
      | true => simpa [hp, hall e List.mem_cons_self hp] using hrest
  ext1
  exact hentries d.entries fun e he ↦ h e.1 e.2 (mem_entries.mp he)

theorem setEntry_of_notMem {k : κ} {a : α} {entries : List (κ × α)}
    (h : k ∉ entries.map Prod.fst) : setEntry k a entries = entries ++ [(k, a)] := by
  induction entries with
  | nil => rfl
  | cons entry rest ih =>
    rw [List.map_cons, List.mem_cons, not_or] at h
    rw [setEntry, if_neg (Ne.symm h.1), ih h.2, List.cons_append]

theorem getEntry_eq_none {k : κ} {entries : List (κ × α)} :
    getEntry k entries = none ↔ k ∉ entries.map Prod.fst := by
  induction entries with
  | nil => exact iff_of_true rfl List.not_mem_nil
  | cons entry rest ih =>
    rw [getEntry, List.map_cons, List.mem_cons, not_or]
    split_ifs with h
    · exact iff_of_false id fun h' ↦ h'.1 h.symm
    · rw [ih, and_iff_right (Ne.symm h)]

/-- A new key is written at the end. -/
theorem entries_set_of_get_eq_none {d : Dict κ α} {k : κ} {a : α} (h : d.get k = none) :
    (d.set k a).entries = d.entries ++ [(k, a)] := setEntry_of_notMem (getEntry_eq_none.mp h)

/-- Writing entries of different keys one after another lists them in that order. -/
theorem foldl_setEntry {entries : List (κ × α)} (old : List (κ × α))
    (h : ((old ++ entries).map Prod.fst).Nodup) :
    entries.foldl (fun dict entry ↦ setEntry entry.1 entry.2 dict) old = old ++ entries := by
  induction entries generalizing old with
  | nil => exact (List.append_nil old).symm
  | cons entry rest ih =>
    rw [List.map_append, List.map_cons] at h
    have hnew : entry.1 ∉ old.map Prod.fst := fun hmem ↦
      (List.nodup_append.mp h).2.2 _ hmem _ (List.mem_cons_self ..) rfl
    rw [List.foldl_cons, setEntry_of_notMem hnew, ih]
    · rw [List.append_assoc, List.singleton_append]
    · simpa only [List.append_assoc, List.singleton_append, List.map_append, List.map_cons] using h

theorem entries_foldl_set (d : Dict κ α) (writes : List (κ × α)) :
    (d.setAll writes).entries =
      writes.foldl (fun dict entry ↦ setEntry entry.1 entry.2 dict) d.entries := by
  induction writes generalizing d with
  | nil => rfl
  | cons write writes ih => exact ih (d.set write.1 write.2)

theorem entries_setAll_empty {writes : List (κ × α)} (h : (writes.map Prod.fst).Nodup) :
    (empty.setAll writes).entries = writes :=
  (entries_foldl_set empty writes).trans (foldl_setEntry [] h)

theorem length_setEntry_of_mem {k : κ} {a : α} {entries : List (κ × α)}
    (h : k ∈ entries.map Prod.fst) : (setEntry k a entries).length = entries.length := by
  induction entries with
  | nil => exact absurd h List.not_mem_nil
  | cons entry rest ih =>
    rw [setEntry]
    split_ifs with hk
    · rfl
    · rw [List.map_cons, List.mem_cons] at h
      rw [List.length_cons, List.length_cons, ih (h.resolve_left fun heq ↦ hk heq.symm)]

/-- Writing a key that is there adds no entry. -/
theorem length_set_of_get {d : Dict κ α} {k : κ} {a b : α} (h : d.get k = some b) :
    (d.set k a).entries.length = d.entries.length :=
  length_setEntry_of_mem (List.mem_map_of_mem (mem_entries.mpr h))

theorem setEntry_of_getEntry {k : κ} {a : α} {entries : List (κ × α)}
    (h : getEntry k entries = some a) : setEntry k a entries = entries := by
  induction entries with
  | nil => simp [getEntry] at h
  | cons entry rest ih =>
    by_cases hk : entry.1 = k
    · subst hk
      obtain rfl : entry.2 = a := by simpa [getEntry] using h
      simp [setEntry]
    · simp only [getEntry, if_neg hk] at h
      simp only [setEntry, if_neg hk, ih h]

/-- Writing what is stored already changes nothing. -/
theorem setAll_eq_self {d : Dict κ α} {writes : List (κ × α)}
    (h : ∀ write ∈ writes, d.get write.1 = some write.2) : d.setAll writes = d := by
  induction writes with
  | nil => rfl
  | cons write writes ih =>
    have hset : d.set write.1 write.2 = d := by
      ext1
      exact setEntry_of_getEntry (h write List.mem_cons_self)
    calc d.setAll (write :: writes) = (d.set write.1 write.2).setAll writes := rfl
      _ = d.setAll writes := by rw [hset]
      _ = d := ih fun w hw ↦ h w (List.mem_cons_of_mem write hw)

/-- The items by a key; of two with one key the later one is held. -/
def indexBy (key : α → κ) (items : List α) : Dict κ α :=
  empty.setAll (items.map fun a ↦ (key a, a))

theorem of_get_indexBy {key : α → κ} {items : List α} {k : κ} {a : α}
    (h : (indexBy key items).get k = some a) : a ∈ items ∧ key a = k := by
  rcases mem_or_get_of_get_setAll h with hmem | hempty
  · obtain ⟨b, hb, heq⟩ := List.mem_map.mp hmem
    obtain ⟨hkey, rfl⟩ := Prod.mk.inj heq
    exact ⟨hb, hkey⟩
  · exact absurd hempty (by simp)

/-- An item is held under its key where no other one has that key. -/
theorem get_indexBy {key : α → κ} {items : List α} {a : α}
    (hinj : ∀ a ∈ items, ∀ b ∈ items, key a = key b → a = b) (h : a ∈ items) :
    (indexBy key items).get (key a) = some a := by
  have hkeys : key a ∈ (items.map fun a ↦ (key a, a)).map Prod.fst := by
    rw [List.map_map]
    exact List.mem_map_of_mem h
  obtain ⟨b, -, hget⟩ := exists_get_setAll hkeys empty
  obtain ⟨hb, hkey⟩ := of_get_indexBy hget
  rw [indexBy, hget, hinj b hb a h hkey]

/-- The item that is listed last takes its key. -/
theorem get_indexBy_concat (key : α → κ) (items : List α) (a : α) :
    (indexBy key (items ++ [a])).get (key a) = some a := by
  rw [indexBy, List.map_append, setAll_append]
  exact get_set_self _ _ _

/-- Where no two items share a key, the order of the items is not seen. -/
theorem get_indexBy_perm {key : α → κ} {items items' : List α} (hperm : items.Perm items')
    (hinj : ∀ a ∈ items, ∀ b ∈ items, key a = key b → a = b) (k : κ) :
    (indexBy key items').get k = (indexBy key items).get k := by
  have hinj' : ∀ a ∈ items', ∀ b ∈ items', key a = key b → a = b :=
    fun a ha b hb ↦ hinj a (hperm.mem_iff.mpr ha) b (hperm.mem_iff.mpr hb)
  apply Option.ext
  intro a
  constructor
  · intro h
    obtain ⟨ha, rfl⟩ := of_get_indexBy h
    exact get_indexBy hinj (hperm.mem_iff.mpr ha)
  · intro h
    obtain ⟨ha, rfl⟩ := of_get_indexBy h
    exact get_indexBy hinj' (hperm.mem_iff.mp ha)

/-- Dictionaries with the same values hold the same entries. -/
theorem entries_perm {d d' : Dict κ α} (h : ∀ k, d.get k = d'.get k) :
    d.entries.Perm d'.entries := by
  refine (List.perm_ext_iff_of_nodup d.nodup.of_map d'.nodup.of_map).mpr fun entry ↦ ?_
  obtain ⟨k, a⟩ := entry
  rw [mem_entries, mem_entries, h k]

/-- Dictionaries whose values look the same under each key hold values that look the same. -/
theorem map_values_perm {β : Type*} {f : α → β} {d d' : Dict κ α}
    (h : ∀ k, (d.get k).map f = (d'.get k).map f) : (d.values.map f).Perm (d'.values.map f) := by
  have hnodup (d : Dict κ α) : (d.entries.map fun entry ↦ (entry.1, f entry.2)).Nodup := by
    refine List.Nodup.of_map Prod.fst ?_
    rw [List.map_map]
    exact d.nodup
  have hmem (d : Dict κ α) (k : κ) (b : β) :
      (k, b) ∈ d.entries.map (fun entry ↦ (entry.1, f entry.2)) ↔ (d.get k).map f = some b := by
    simp only [List.mem_map, Prod.exists, Prod.mk.injEq, mem_entries, Option.map_eq_some_iff]
    constructor
    · rintro ⟨k, a, hget, rfl, hb⟩
      exact ⟨a, hget, hb⟩
    · rintro ⟨a, hget, hb⟩
      exact ⟨k, a, hget, rfl, hb⟩
  have hperm := (List.perm_ext_iff_of_nodup (hnodup d) (hnodup d')).mpr fun (k, b) ↦ by
    rw [hmem, hmem, h k]
  have hvalues (d : Dict κ α) :
      d.values.map f = (d.entries.map fun entry ↦ (entry.1, f entry.2)).map Prod.snd := by
    rw [values, List.map_map, List.map_map]
    rfl
  rw [hvalues, hvalues]
  exact hperm.map Prod.snd

end Dict

end AnyList.Library
