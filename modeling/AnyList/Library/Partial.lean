import Mathlib.Data.List.Perm.Basic
import Mathlib.Data.List.Sort

namespace AnyList.Library.Partial

variable {α : Type*}

/-- Puts `a` before the first element that does not precede it; a comparison without an answer
ends the sort. -/
def insert (cmp : α → α → Option Ordering) (a : α) : List α → Option (List α)
  | [] => some [a]
  | b :: l =>
    match cmp b a with
    | none => none
    | some .lt => (insert cmp a l).map (b :: ·)
    | some _ => some (a :: b :: l)

def sort (cmp : α → α → Option Ordering) : List α → Option (List α)
  | [] => some []
  | a :: l => (sort cmp l).bind (insert cmp a)

/-- A comparison that answers for `r` where it answers, and that answers for the ends of a chain
whose links it answers for. -/
structure Answers (cmp : α → α → Option Ordering) (r : α → α → Prop) : Prop where
  lt : ∀ {a b}, cmp b a = some .lt → ¬r a b
  not_lt : ∀ {a b order}, cmp b a = some order → order ≠ .lt → r a b
  symm : ∀ {a b}, cmp a b = none → cmp b a = none
  chain : ∀ {a b c}, r a b → r b c → cmp b a ≠ none → cmp c b ≠ none → cmp c a ≠ none

/-- Keeps the elements that pass a test; a test without an answer ends it. -/
def filter (test : α → Option Bool) : List α → Option (List α)
  | [] => some []
  | a :: l => (test a).bind fun keep ↦
      (filter test l).map fun kept ↦ if keep then a :: kept else kept

section results

variable {ε α β : Type} {x : Except ε α} {f : α → Except ε β}

theorem bind_eq_ok {b : β} : x >>= f = .ok b ↔ ∃ a, x = .ok a ∧ f a = .ok b := by
  cases x <;> simp [bind, Except.bind]

theorem bind_eq_error {e : ε} :
    x >>= f = .error e ↔ x = .error e ∨ ∃ a, x = .ok a ∧ f a = .error e := by
  cases x <;> simp [bind, Except.bind]

/-- What every step of a run relates, the whole run relates. -/
theorem rel_of_foldlM_eq_ok {σ : Type} {step : σ → α → Except ε σ} {R : σ → σ → Prop}
    (hrefl : ∀ s, R s s) (htrans : ∀ {s s' s''}, R s s' → R s' s'' → R s s'')
    (hstep : ∀ s a s', step s a = .ok s' → R s s') {inputs : List α} {s s' : σ}
    (h : inputs.foldlM step s = .ok s') : R s s' := by
  induction inputs generalizing s with
  | nil =>
    obtain rfl := Except.ok.inj h
    exact hrefl s
  | cons a rest ih =>
    rw [List.foldlM_cons] at h
    obtain ⟨next, hnext, hrest⟩ := bind_eq_ok.mp h
    exact htrans (hstep s a next hnext) (ih hrest)

end results

section maps

variable {β : Type*} {f : α → Option β} {l : List α} {l' : List β} {a : α} {b : β}

theorem exists_of_mem_mapM (h : l.mapM f = some l') (hb : b ∈ l') : ∃ a ∈ l, f a = some b := by
  induction l generalizing l' with
  | nil =>
    obtain rfl := Option.some.inj h
    exact absurd hb List.not_mem_nil
  | cons a l ih =>
    simp only [List.mapM_cons, Option.bind_eq_bind, Option.bind_eq_some_iff, Option.pure_def,
      Option.some.injEq] at h
    obtain ⟨first, hfirst, rest, hrest, rfl⟩ := h
    obtain rfl | hmem := List.mem_cons.mp hb
    · exact ⟨a, List.mem_cons_self, hfirst⟩
    · obtain ⟨a', ha', hf⟩ := ih hrest hmem
      exact ⟨a', List.mem_cons_of_mem a ha', hf⟩

theorem exists_mem_of_mapM (h : l.mapM f = some l') (ha : a ∈ l) : ∃ b ∈ l', f a = some b := by
  induction l generalizing l' with
  | nil => exact absurd ha List.not_mem_nil
  | cons first l ih =>
    simp only [List.mapM_cons, Option.bind_eq_bind, Option.bind_eq_some_iff, Option.pure_def,
      Option.some.injEq] at h
    obtain ⟨b, hb, rest, hrest, rfl⟩ := h
    obtain rfl | hmem := List.mem_cons.mp ha
    · exact ⟨b, List.mem_cons_self, hb⟩
    · obtain ⟨b', hb', hf⟩ := ih hrest hmem
      exact ⟨b', List.mem_cons_of_mem b hb', hf⟩

end maps

section exceptions

variable {β ε : Type*} {f : α → Except ε β} {l l' : List α} {bs : List β}

theorem mapM_eq_ok_iff : l.mapM f = .ok bs ↔ List.Forall₂ (fun a b ↦ f a = .ok b) l bs := by
  induction l generalizing bs with
  | nil =>
    rw [List.forall₂_nil_left_iff]
    constructor
    · intro h
      exact (Except.ok.inj h).symm
    · rintro rfl
      rfl
  | cons a l ih =>
    rw [List.mapM_cons, List.forall₂_cons_left_iff]
    constructor
    · intro h
      cases ha : f a with
      | error e =>
        rw [ha] at h
        cases h
      | ok b =>
        rw [ha] at h
        cases hl : l.mapM f with
        | error e =>
          rw [hl] at h
          cases h
        | ok rest =>
          rw [hl] at h
          exact ⟨b, rest, rfl, ih.mp hl, (Except.ok.inj h).symm⟩
    · rintro ⟨b, rest, ha, hrest, rfl⟩
      rw [ha, ih.mpr hrest]
      rfl

/-- Where every element has a result, the order of the elements is the order of the results. -/
theorem exists_mapM_perm (h : l.mapM f = .ok bs) (hperm : l.Perm l') :
    ∃ bs', l'.mapM f = .ok bs' ∧ bs.Perm bs' := by
  obtain ⟨bs', hbs', hperm'⟩ := List.perm_comp_forall₂ hperm.symm (mapM_eq_ok_iff.mp h)
  exact ⟨bs', mapM_eq_ok_iff.mpr hbs', hperm'.symm⟩

theorem exists_ok_of_mapM {a : α} (h : l.mapM f = .ok bs) (ha : a ∈ l) :
    ∃ b ∈ bs, f a = .ok b := by
  have hall := mapM_eq_ok_iff.mp h
  clear h
  induction hall with
  | nil => exact absurd ha List.not_mem_nil
  | @cons first b l bs hfirst _ ih =>
    obtain rfl | ha := List.mem_cons.mp ha
    · exact ⟨b, List.mem_cons_self, hfirst⟩
    · obtain ⟨b', hb', hf⟩ := ih ha
      exact ⟨b', List.mem_cons_of_mem b hb', hf⟩

end exceptions

section tests

variable {test : α → Option Bool} {p : α → Bool} {l : List α}

theorem filter_eq_some (h : ∀ a ∈ l, test a = some (p a)) : filter test l = some (l.filter p) := by
  induction l with
  | nil => rfl
  | cons a l ih =>
    have hrest := ih fun b hb ↦ h b (List.mem_cons_of_mem a hb)
    rw [filter, h a List.mem_cons_self, hrest, List.filter_cons]
    rfl

/-- A search without an answer meets an element that has none before one that passes. -/
theorem anyM_eq_none_iff : l.anyM test = none ↔
    ∃ before a after, l = before ++ a :: after ∧ test a = none ∧
      ∀ b ∈ before, test b ≠ some true := by
  induction l with
  | nil => simp [List.anyM]
  | cons a l ih =>
    rw [List.anyM]
    cases ha : test a with
    | none =>
      refine iff_of_true rfl ⟨[], a, l, rfl, ha, fun b hb ↦ absurd hb List.not_mem_nil⟩
    | some answer =>
      constructor
      · intro h
        cases answer with
        | true => exact absurd h (by simp)
        | false =>
          obtain ⟨before, c, after, rfl, hc, hbefore⟩ := ih.mp h
          refine ⟨a :: before, c, after, rfl, hc, fun b hb ↦ ?_⟩
          obtain rfl | hb := List.mem_cons.mp hb
          · rw [ha]
            simp
          · exact hbefore b hb
      · intro h
        obtain ⟨before, c, after, heq, hc, hbefore⟩ := h
        cases before with
        | nil =>
          rw [List.nil_append, List.cons.injEq] at heq
          rw [heq.1, hc] at ha
          exact absurd ha (by simp)
        | cons b before =>
          rw [List.cons_append, List.cons.injEq] at heq
          obtain ⟨rfl, rfl⟩ := heq
          have hne := hbefore a List.mem_cons_self
          obtain rfl : answer = false := by simpa [ha] using hne
          exact ih.mpr ⟨before, c, after, rfl, hc, fun b hb ↦
            hbefore b (List.mem_cons_of_mem a hb)⟩

theorem anyM_eq_some (h : ∀ a ∈ l, test a = none ∨ test a = some (p a)) {answer : Bool}
    (hany : l.anyM test = some answer) : answer = l.any p := by
  induction l with
  | nil => exact (Option.some.inj hany).symm
  | cons a l ih =>
    rw [List.anyM] at hany
    obtain ha | ha := h a List.mem_cons_self
    · rw [ha] at hany
      exact absurd hany (by simp)
    · rw [ha] at hany
      cases hp : p a with
      | true =>
        rw [hp] at hany
        rw [List.any_cons, hp, Bool.true_or]
        exact (Option.some.inj hany).symm
      | false =>
        rw [hp] at hany
        rw [List.any_cons, hp, Bool.false_or]
        exact ih (fun b hb ↦ h b (List.mem_cons_of_mem a hb)) hany

theorem of_anyM_eq_false (h : l.anyM test = some false) : ∀ a ∈ l, test a = some false := by
  induction l with
  | nil => exact fun a ha ↦ absurd ha List.not_mem_nil
  | cons a l ih =>
    rw [List.anyM] at h
    cases ha : test a with
    | none =>
      rw [ha] at h
      exact absurd h (by simp)
    | some answer =>
      rw [ha] at h
      cases answer with
      | true => exact absurd h (by simp)
      | false =>
        intro b hb
        obtain rfl | hb := List.mem_cons.mp hb
        · exact ha
        · exact ih h b hb

end tests

variable {cmp : α → α → Option Ordering} {r : α → α → Prop} {a : α} {l : List α}

/-- An insertion that ends has compared with everything, at least by way of a chain. -/
theorem answered_of_insert (h : Answers cmp r) (hsorted : l.Pairwise r)
    (hl : l.Pairwise fun b c ↦ cmp c b ≠ none) (hinsert : insert cmp a l ≠ none) :
    ∀ b ∈ l, cmp b a ≠ none := by
  induction l with
  | nil => exact fun b hb ↦ absurd hb List.not_mem_nil
  | cons b l ih =>
    obtain ⟨hb, hsorted⟩ := List.pairwise_cons.mp hsorted
    obtain ⟨hbl, hl⟩ := List.pairwise_cons.mp hl
    have hhead : cmp b a ≠ none := by
      intro hnone
      exact hinsert (by rw [insert, hnone])
    intro c hc
    obtain rfl | hc := List.mem_cons.mp hc
    · exact hhead
    cases hcmp : cmp b a with
    | none => exact absurd hcmp hhead
    | some order =>
      by_cases horder : order = .lt
      · subst horder
        refine ih hsorted hl ?_ c hc
        intro hnone
        exact hinsert (by rw [insert, hcmp]; simp only [hnone, Option.map_none])
      · exact h.chain (h.not_lt hcmp horder) (hb c hc) hhead (hbl c hc)

variable [DecidableRel r]

theorem insert_eq_some (h : Answers cmp r) (ha : ∀ b ∈ l, cmp b a ≠ none) :
    insert cmp a l = some (l.orderedInsert r a) := by
  induction l with
  | nil => rfl
  | cons b l ih =>
    have hrest := ih fun c hc ↦ ha c (List.mem_cons_of_mem b hc)
    rw [insert, List.orderedInsert]
    cases hcmp : cmp b a with
    | none => exact absurd hcmp (ha b List.mem_cons_self)
    | some order =>
      cases order with
      | lt => simp only [hrest, if_neg (h.lt hcmp), Option.map_some]
      | eq => simp only [if_pos (h.not_lt hcmp (by decide))]
      | gt => simp only [if_pos (h.not_lt hcmp (by decide))]

/-- A sort ends exactly when it can compare any two elements, and then it has sorted. -/
theorem sort_eq_some_iff [Std.Total r] [IsTrans α r] (h : Answers cmp r) {l' : List α} :
    sort cmp l = some l' ↔ (l.Pairwise fun b c ↦ cmp c b ≠ none) ∧ l' = l.insertionSort r := by
  have hsymm {b c : α} (hbc : cmp b c ≠ none) : cmp c b ≠ none := fun hnone ↦ hbc (h.symm hnone)
  induction l generalizing l' with
  | nil => simp [sort, eq_comm]
  | cons a l ih =>
    have hperm := List.perm_insertionSort r l
    have hsorted := List.pairwise_insertionSort r l
    rw [sort, List.insertionSort_cons, List.pairwise_cons]
    constructor
    · intro hsort
      obtain ⟨sorted, htail, hinsert⟩ := Option.bind_eq_some_iff.mp hsort
      obtain ⟨hl, rfl⟩ := ih.mp htail
      have hl' := hperm.symm.pairwise hl hsymm
      have hall := answered_of_insert h hsorted hl' (by rw [hinsert]; simp)
      refine ⟨⟨fun b hb ↦ hall b (hperm.mem_iff.mpr hb), hl⟩, ?_⟩
      rw [insert_eq_some h hall] at hinsert
      exact (Option.some.inj hinsert).symm
    · intro hboth
      obtain ⟨⟨ha, hl⟩, rfl⟩ := hboth
      refine Option.bind_eq_some_iff.mpr ⟨_, ih.mpr ⟨hl, rfl⟩, ?_⟩
      exact insert_eq_some h fun b hb ↦ ha b (hperm.mem_iff.mp hb)

end AnyList.Library.Partial
