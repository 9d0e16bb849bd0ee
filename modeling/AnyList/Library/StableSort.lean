import Mathlib.Data.List.Sort

namespace AnyList.Library.StableSort

open List

variable {α : Type*} (r : α → α → Prop) [DecidableRel r]

/-- The elements that a sort by `r` cannot tell from `a`. -/
def ties (a : α) (l : List α) : List α := l.filter fun b ↦ decide (r a b ∧ r b a)

/-- Two arrangements of the same elements that keep tied elements in their order. -/
def SameTies (l l' : List α) : Prop := ∀ a, ties r a l = ties r a l'

variable {r}

theorem mem_ties {a b : α} {l : List α} : b ∈ ties r a l ↔ b ∈ l ∧ r a b ∧ r b a := by
  simp [ties]

theorem pairwise_ties [IsTrans α r] (a : α) (l : List α) : (ties r a l).Pairwise r := by
  refine List.pairwise_of_forall_mem_list fun b hb c hc ↦ ?_
  obtain ⟨-, -, hba⟩ := mem_ties.mp hb
  obtain ⟨-, hac, -⟩ := mem_ties.mp hc
  exact IsTrans.trans b a c hba hac

/-- Sorting keeps tied elements in the order they came in. -/
theorem ties_insertionSort [Std.Total r] [IsTrans α r] (a : α) (l : List α) :
    ties r a (l.insertionSort r) = ties r a l := by
  have hsub : ties r a l <+ l.insertionSort r :=
    sublist_insertionSort (pairwise_ties a l) filter_sublist
  have hsub' : ties r a (ties r a l) <+ ties r a (l.insertionSort r) := hsub.filter _
  have hidem : ties r a (ties r a l) = ties r a l := by
    simp [ties]
  rw [hidem] at hsub'
  exact (hsub'.eq_of_length (((perm_insertionSort r l).filter _).length_eq).symm).symm

/-- A sorted list is determined by the order of its tied elements. -/
theorem eq_of_sameTies {l l' : List α} [Std.Refl r] (hl : l.Pairwise r) (hl' : l'.Pairwise r)
    (h : SameTies r l l') : l = l' := by
  have mem_of {l l' : List α} (h : SameTies r l l') {a : α} (ha : a ∈ l) : a ∈ l' := by
    have haa : a ∈ ties r a l := mem_ties.mpr ⟨ha, refl a, refl a⟩
    rw [h a] at haa
    exact (mem_ties.mp haa).1
  induction l generalizing l' with
  | nil =>
    cases l' with
    | nil => rfl
    | cons b l' => exact absurd (mem_of (fun a ↦ (h a).symm) mem_cons_self) not_mem_nil
  | cons a l ih =>
    cases l' with
    | nil => exact absurd (mem_of h mem_cons_self) not_mem_nil
    | cons b l' =>
      have hab : r a b := by
        obtain rfl | hb := mem_cons.mp (mem_of (fun a ↦ (h a).symm) (mem_cons_self (l := l')))
        · exact refl b
        · exact rel_of_pairwise_cons hl hb
      have hba : r b a := by
        obtain rfl | ha := mem_cons.mp (mem_of h (mem_cons_self (l := l)))
        · exact refl a
        · exact rel_of_pairwise_cons hl' ha
      have hcons : a = b := by
        have heads := h a
        simp only [ties, filter_cons, hab, hba, refl, and_self, decide_true, if_true,
          cons.injEq] at heads
        exact heads.1
      subst hcons
      have htail : SameTies r l l' := by
        intro c
        have hc := h c
        simp only [ties, filter_cons] at hc ⊢
        split at hc
        · exact (cons.inj hc).2
        · exact hc
      rw [ih hl.of_cons hl'.of_cons htail]

/-- A stable sort forgets the arrival order of everything but ties. -/
theorem insertionSort_eq_of_sameTies [Std.Total r] [Std.Refl r] [IsTrans α r] {l l' : List α}
    (h : SameTies r l l') : l.insertionSort r = l'.insertionSort r :=
  eq_of_sameTies (pairwise_insertionSort r l) (pairwise_insertionSort r l') fun a ↦ by
    rw [ties_insertionSort, ties_insertionSort, h a]

section last

/-- An element that no other one comes after. -/
def Latest (r : α → α → Prop) (l : List α) (a : α) : Prop := a ∈ l ∧ ∀ b ∈ l, r b a

omit [DecidableRel r] in
theorem Latest.perm {l l' : List α} {a : α} (h : Latest r l a) (hperm : l'.Perm l) :
    Latest r l' a :=
  ⟨hperm.mem_iff.mpr h.1, fun b hb ↦ h.2 b (hperm.mem_iff.mp hb)⟩

variable [Std.Total r] [Std.Refl r] [IsTrans α r] {l : List α}

theorem insertionSort_concat {a : α} (h : ∀ b ∈ l, r b a) :
    (l ++ [a]).insertionSort r = l.insertionSort r ++ [a] := by
  refine eq_of_sameTies (pairwise_insertionSort r _) ?_ fun c ↦ ?_
  · refine pairwise_append.mpr ⟨pairwise_insertionSort r l, pairwise_singleton r a, ?_⟩
    intro b hb c hc
    rw [mem_singleton.mp hc]
    exact h b ((mem_insertionSort r).mp hb)
  · have hl := ties_insertionSort (r := r) c l
    rw [ties_insertionSort]
    simp only [ties, filter_append] at hl ⊢
    rw [hl]

theorem filter_insertionSort (p : α → Bool) (l : List α) :
    (l.insertionSort r).filter p = (l.filter p).insertionSort r := by
  refine eq_of_sameTies ((pairwise_insertionSort r l).filter p) (pairwise_insertionSort r _)
    fun a ↦ ?_
  have hl := ties_insertionSort (r := r) a l
  rw [ties_insertionSort]
  simp only [ties] at hl ⊢
  rw [filter_comm, hl, filter_comm]

theorem latest_of_getLast? {a : α} (h : (l.insertionSort r).getLast? = some a) : Latest r l a := by
  obtain ⟨before, hsorted⟩ := getLast?_eq_some_iff.mp h
  have hmem (b : α) : b ∈ l ↔ b ∈ before ++ [a] := by rw [← hsorted, mem_insertionSort]
  refine ⟨(hmem a).mpr (by simp), fun b hb ↦ ?_⟩
  have hpairwise := pairwise_insertionSort r l
  rw [hsorted] at hpairwise
  rcases mem_append.mp ((hmem b).mp hb) with hb | hb
  · exact (pairwise_append.mp hpairwise).2.2 b hb a (by simp)
  · rw [mem_singleton.mp hb]
    exact refl a

variable {β γ : Type*} [DecidableEq γ] (value : γ → α) (p : α → Bool) {entries : List γ}

theorem Latest.exists_perm {a : α} (h : Latest r ((entries.map value).filter p) a) :
    ∃ entries' : List γ, entries'.Perm entries ∧
      (((entries'.map value).insertionSort r).filter p).getLast? = some a := by
  obtain ⟨hmem, hp⟩ := mem_filter.mp h.1
  obtain ⟨entry, hentry, rfl⟩ := mem_map.mp hmem
  refine ⟨entries.erase entry ++ [entry], ?_, ?_⟩
  · exact perm_append_comm.trans (perm_cons_erase hentry).symm
  · have hlate : ∀ b ∈ ((entries.erase entry).map value).filter p, r b (value entry) := by
      intro b hb
      refine h.2 b (((erase_sublist.map value).filter p).subset hb)
    rw [filter_insertionSort, map_append, filter_append, map_singleton, filter_cons_of_pos hp,
      filter_nil, insertionSort_concat hlate]
    exact getLast?_concat

/-- What is seen of the last selected element of a stable sort is the same for every order of
arrival just when the latest selected elements look alike. -/
theorem forall_perm_getLast?_iff (see : α → β) :
    (∀ entries' : List γ, entries'.Perm entries →
      (((entries'.map value).insertionSort r).filter p).getLast?.map see =
        (((entries.map value).insertionSort r).filter p).getLast?.map see) ↔
      ∀ a b, Latest r ((entries.map value).filter p) a →
        Latest r ((entries.map value).filter p) b → see a = see b := by
  constructor
  · intro h a b ha hb
    obtain ⟨la, hla, hlast⟩ := ha.exists_perm
    obtain ⟨lb, hlb, hlast'⟩ := hb.exists_perm
    have hab := (h la hla).trans (h lb hlb).symm
    rw [hlast, hlast'] at hab
    exact Option.some.inj hab
  · intro h entries' hperm
    have hvalues := (hperm.map value).filter p
    have hlength := hvalues.length_eq
    rw [filter_insertionSort, filter_insertionSort]
    cases hlast : (((entries.map value).filter p).insertionSort r).getLast? with
    | none =>
      rw [getLast?_eq_none_iff, ← length_eq_zero_iff, length_insertionSort, ← hlength,
        ← length_insertionSort r, length_eq_zero_iff] at hlast
      rw [hlast]
      rfl
    | some b =>
      cases hlast' : (((entries'.map value).filter p).insertionSort r).getLast? with
      | none =>
        rw [getLast?_eq_none_iff, ← length_eq_zero_iff, length_insertionSort, hlength,
          length_eq_zero_iff] at hlast'
        have hb := (latest_of_getLast? hlast).1
        rw [hlast'] at hb
        exact absurd hb not_mem_nil
      | some a =>
        exact congrArg some (h a b ((latest_of_getLast? hlast').perm hvalues.symm)
          (latest_of_getLast? hlast))

end last

end AnyList.Library.StableSort
