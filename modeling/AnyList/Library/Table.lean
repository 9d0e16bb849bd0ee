import Mathlib.Data.List.Nodup

namespace AnyList.Library

/-- Rows under the increasing keys that a sequence hands out. -/
structure Table (ρ : Type*) where
  rows : List (ℕ × ρ)
  next : ℕ
  sorted : rows.Pairwise fun row row' ↦ row.1 < row'.1
  bounded : ∀ row ∈ rows, row.1 < next

namespace Table

variable {ρ : Type*}

def empty : Table ρ := ⟨[], 1, .nil, by simp⟩

def get (t : Table ρ) (id : ℕ) : Option ρ :=
  (t.rows.find? fun row ↦ decide (row.1 = id)).map Prod.snd

def insert (t : Table ρ) (row : ρ) : Table ρ where
  rows := t.rows ++ [(t.next, row)]
  next := t.next + 1
  sorted := List.pairwise_append.mpr
    ⟨t.sorted, List.pairwise_singleton _ _, fun r hr r' hr' ↦ by
      obtain rfl := List.mem_singleton.mp hr'
      exact t.bounded r hr⟩
  bounded r hr := by
    obtain hr | hr := List.mem_append.mp hr
    · exact Nat.lt_succ_of_lt (t.bounded r hr)
    · obtain rfl := List.mem_singleton.mp hr
      exact Nat.lt_succ_self t.next

def insertAll (t : Table ρ) (rows : List ρ) : Table ρ := rows.foldl insert t

def modify (t : Table ρ) (f : ℕ → ρ → ρ) : Table ρ where
  rows := t.rows.map fun row ↦ (row.1, f row.1 row.2)
  next := t.next
  sorted := List.pairwise_map.mpr t.sorted
  bounded r hr := by
    obtain ⟨row, hrow, rfl⟩ := List.mem_map.mp hr
    exact t.bounded row hrow

def modifyAt (t : Table ρ) (id : ℕ) (f : ρ → ρ) : Table ρ :=
  t.modify fun i row ↦ if i = id then f row else row

def erase (t : Table ρ) (p : ρ → Bool) : Table ρ where
  rows := t.rows.filter fun row ↦ !p row.2
  next := t.next
  sorted := t.sorted.filter _
  bounded r hr := t.bounded r (List.mem_of_mem_filter hr)

def eraseAt (t : Table ρ) (id : ℕ) : Table ρ where
  rows := t.rows.filter fun row ↦ decide (row.1 ≠ id)
  next := t.next
  sorted := t.sorted.filter _
  bounded r hr := t.bounded r (List.mem_of_mem_filter hr)

theorem nodup_keys (t : Table ρ) : (t.rows.map Prod.fst).Nodup :=
  List.pairwise_map.mpr (t.sorted.imp fun h ↦ Nat.ne_of_lt h)

theorem eq_of_mem {t : Table ρ} {id : ℕ} {row row' : ρ} (h : (id, row) ∈ t.rows)
    (h' : (id, row') ∈ t.rows) : row = row' :=
  (Prod.mk.inj (List.inj_on_of_nodup_map t.nodup_keys h h' rfl)).2

theorem get_eq_some {t : Table ρ} {id : ℕ} {row : ρ} :
    t.get id = some row ↔ (id, row) ∈ t.rows := by
  unfold get
  constructor
  · intro h
    obtain ⟨⟨i, r⟩, hfind, rfl⟩ := Option.map_eq_some_iff.mp h
    obtain rfl : i = id := by simpa using List.find?_some hfind
    exact List.mem_of_find?_eq_some hfind
  · intro h
    cases hfind : t.rows.find? fun row ↦ decide (row.1 = id) with
    | none => exact absurd (List.find?_eq_none.mp hfind _ h) (by simp)
    | some r =>
      obtain ⟨i, r⟩ := r
      obtain rfl : i = id := by simpa using List.find?_some hfind
      obtain rfl := eq_of_mem h (List.mem_of_find?_eq_some hfind)
      rfl

theorem mem_insert {t : Table ρ} {row : ρ} {r : ℕ × ρ} :
    r ∈ (t.insert row).rows ↔ r ∈ t.rows ∨ r = (t.next, row) := by
  simp [insert]

theorem exists_mem_insertAll {rows : List ρ} {p : ρ → Prop} (t : Table ρ) :
    (∃ r ∈ (t.insertAll rows).rows, p r.2) ↔ (∃ r ∈ t.rows, p r.2) ∨ ∃ row ∈ rows, p row := by
  induction rows generalizing t with
  | nil => simp [insertAll]
  | cons row rows ih =>
    rw [show t.insertAll (row :: rows) = (t.insert row).insertAll rows from rfl, ih]
    simp only [mem_insert, or_and_right, exists_or, exists_eq_left, List.mem_cons, or_assoc]

theorem mem_modify {t : Table ρ} {f : ℕ → ρ → ρ} {id : ℕ} {row : ρ} :
    (id, row) ∈ (t.modify f).rows ↔ ∃ r, (id, r) ∈ t.rows ∧ row = f id r := by
  simp only [modify, List.mem_map, Prod.mk.injEq, Prod.exists]
  constructor
  · rintro ⟨i, r, h, rfl, rfl⟩
    exact ⟨r, h, rfl⟩
  · rintro ⟨r, h, rfl⟩
    exact ⟨id, r, h, rfl, rfl⟩

theorem mem_modify_of_mem {t : Table ρ} {f : ℕ → ρ → ρ} {id : ℕ} {row : ρ} (h : (id, row) ∈ t.rows) :
    (id, f id row) ∈ (t.modify f).rows :=
  mem_modify.mpr ⟨row, h, rfl⟩

theorem mem_modifyAt {t : Table ρ} {f : ρ → ρ} {id i : ℕ} {row : ρ} :
    (i, row) ∈ (t.modifyAt id f).rows ↔ ∃ r, (i, r) ∈ t.rows ∧ row = if i = id then f r else r :=
  mem_modify

theorem modifyAt_id (t : Table ρ) (id : ℕ) : (t.modifyAt id fun row ↦ row) = t := by
  have hrows : (t.modifyAt id fun row ↦ row).rows = t.rows := by
    simp [modifyAt, modify]
  obtain ⟨rows, next, _, _⟩ := t
  simp only [modifyAt, modify] at hrows ⊢
  simp only [hrows]

theorem exists_mem_modify {t : Table ρ} {f : ℕ → ρ → ρ} {p : ρ → Prop} :
    (∃ r ∈ (t.modify f).rows, p r.2) ↔ ∃ r ∈ t.rows, p (f r.1 r.2) := by
  simp [modify]

theorem get_modify (t : Table ρ) (f : ℕ → ρ → ρ) (id : ℕ) :
    (t.modify f).get id = (t.get id).map (f id) := by
  ext row
  rw [get_eq_some, mem_modify, Option.map_eq_some_iff]
  refine exists_congr fun r ↦ ?_
  rw [get_eq_some, eq_comm (a := row)]

theorem get_next (t : Table ρ) : t.get t.next = none := by
  cases h : t.get t.next with
  | none => rfl
  | some row => exact absurd (t.bounded _ (get_eq_some.mp h)) (Nat.lt_irrefl _)

theorem get_insert (t : Table ρ) (row : ρ) (id : ℕ) :
    (t.insert row).get id = if id = t.next then some row else t.get id := by
  ext r
  rw [get_eq_some, mem_insert, Prod.mk.injEq]
  by_cases h : id = t.next
  · subst h
    have hnot (r : ρ) : (t.next, r) ∉ t.rows := fun hmem ↦ Nat.lt_irrefl _ (t.bounded _ hmem)
    simp [hnot, eq_comm]
  · simp [h, get_eq_some]

theorem get_modifyAt_of_ne {t : Table ρ} {id i : ℕ} (f : ρ → ρ) (h : i ≠ id) :
    (t.modifyAt id f).get i = t.get i := by
  ext row
  rw [get_eq_some, get_eq_some, modifyAt, mem_modify]
  simp [h]

theorem ne_of_mem_init {t : Table ρ} {old : List (ℕ × ρ)} {id : ℕ} {row : ρ}
    (h : t.rows = old ++ [(id, row)]) {r : ℕ × ρ} (hr : r ∈ old) : r.1 ≠ id := by
  have hsorted := t.sorted
  rw [h, List.pairwise_append] at hsorted
  exact Nat.ne_of_lt (hsorted.2.2 r hr (id, row) (List.mem_singleton_self _))

theorem rows_modifyAt_last {t : Table ρ} {old : List (ℕ × ρ)} {id : ℕ} {row : ρ}
    (h : t.rows = old ++ [(id, row)]) (f : ρ → ρ) :
    (t.modifyAt id f).rows = old ++ [(id, f row)] := by
  have hold : old.map (fun r ↦ (r.1, if r.1 = id then f r.2 else r.2)) = old := by
    refine (List.map_congr_left fun r hr ↦ ?_).trans (List.map_id' old)
    rw [if_neg (ne_of_mem_init h hr)]
  simp only [modifyAt, modify, h, List.map_append, hold, List.map_cons, List.map_nil, if_pos]

theorem rows_eraseAt_last {t : Table ρ} {old : List (ℕ × ρ)} {id : ℕ} {row : ρ}
    (h : t.rows = old ++ [(id, row)]) : (t.eraseAt id).rows = old := by
  have hold : old.filter (fun r ↦ decide (r.1 ≠ id)) = old :=
    List.filter_eq_self.mpr fun r hr ↦ decide_eq_true (ne_of_mem_init h hr)
  change t.rows.filter (fun r ↦ decide (r.1 ≠ id)) = old
  rw [h, List.filter_append, hold]
  simp

end Table

end AnyList.Library
