import Mathlib.Data.Finset.Basic
import Mathlib.Data.List.Basic
import Mathlib.Data.Set.Basic
import Mathlib.Order.Lattice

namespace AnyList.Library.Members

variable {α β : Type*}

/-- Two lists with the same members, in any order and any multiplicity. -/
def SameMembers (l l' : List α) : Prop := ∀ x, x ∈ l ↔ x ∈ l'

namespace SameMembers

variable {l l' l'' : List α}

theorem refl (l : List α) : SameMembers l l := fun _ ↦ Iff.rfl

theorem symm (h : SameMembers l l') : SameMembers l' l := fun x ↦ (h x).symm

theorem trans (h : SameMembers l l') (h' : SameMembers l' l'') : SameMembers l l'' :=
  fun x ↦ (h x).trans (h' x)

theorem of_perm (h : l.Perm l') : SameMembers l l' := fun _ ↦ h.mem_iff

theorem of_duplicate {l₁ l₂ : List α} {a : α} (h : a ∈ l₁ ++ l₂) :
    SameMembers (l₁ ++ a :: l₂) (l₁ ++ l₂) := by
  intro x
  simp only [List.mem_append, List.mem_cons] at h ⊢
  constructor
  · rintro (hx | rfl | hx)
    exacts [.inl hx, h, .inr hx]
  · rintro (hx | hx)
    exacts [.inl hx, .inr (.inr hx)]

theorem filter (h : SameMembers l l') (p : α → Bool) :
    SameMembers (l.filter p) (l'.filter p) := by
  intro x
  simp only [List.mem_filter, h x]

theorem map (h : SameMembers l l') (f : α → β) : SameMembers (l.map f) (l'.map f) := by
  intro y
  simp only [List.mem_map, h _]

theorem filterMap (h : SameMembers l l') (f : α → Option β) :
    SameMembers (l.filterMap f) (l'.filterMap f) := by
  intro y
  simp only [List.mem_filterMap, h _]

theorem eq_nil_iff (h : SameMembers l l') : l = [] ↔ l' = [] := by
  simp only [List.eq_nil_iff_forall_not_mem, h _]

theorem any_eq (h : SameMembers l l') (p : α → Bool) : l.any p = l'.any p := by
  rw [Bool.eq_iff_iff]
  simp only [List.any_eq_true, h _]

theorem all_eq (h : SameMembers l l') (p : α → Bool) : l.all p = l'.all p := by
  rw [Bool.eq_iff_iff]
  simp only [List.all_eq_true, h _]

theorem toFinset_eq [DecidableEq α] (h : SameMembers l l') : l.toFinset = l'.toFinset := by
  ext x
  simpa only [List.mem_toFinset] using h x

end SameMembers

theorem foldl_stationary {f : β → α → β} {b : β} {l : List α} (h : ∀ x ∈ l, f b x = b) :
    l.foldl f b = b := by
  induction l with
  | nil => rfl
  | cons a l ih =>
    rw [List.foldl_cons, h a List.mem_cons_self]
    exact ih fun x hx ↦ h x (List.mem_cons_of_mem _ hx)

/-- The first occurrence of every member, in list order. -/
def distinct [DecidableEq α] (l : List α) : List α :=
  l.foldl (fun seen x ↦ if x ∈ seen then seen else seen ++ [x]) []

section distinct

variable [DecidableEq α]

theorem mem_distinct_from (l seen : List α) (x : α) :
    x ∈ l.foldl (fun seen x ↦ if x ∈ seen then seen else seen ++ [x]) seen ↔
      x ∈ seen ∨ x ∈ l := by
  induction l generalizing seen with
  | nil => simp
  | cons a l ih =>
    rw [List.foldl_cons, ih]
    by_cases ha : a ∈ seen
    · simp only [if_pos ha, List.mem_cons]
      constructor
      · rintro (hx | hx)
        exacts [.inl hx, .inr (.inr hx)]
      · rintro (hx | rfl | hx)
        exacts [.inl hx, .inl ha, .inr hx]
    · simp only [if_neg ha, List.mem_append, List.mem_cons, List.not_mem_nil, or_false, or_assoc]

@[simp] theorem mem_distinct {l : List α} {x : α} : x ∈ distinct l ↔ x ∈ l := by
  simp [distinct, mem_distinct_from]

theorem nodup_distinct_from (l seen : List α) (h : seen.Nodup) :
    (l.foldl (fun seen x ↦ if x ∈ seen then seen else seen ++ [x]) seen).Nodup := by
  induction l generalizing seen with
  | nil => exact h
  | cons a l ih =>
    rw [List.foldl_cons]
    apply ih
    by_cases ha : a ∈ seen
    · rwa [if_pos ha]
    · rw [if_neg ha]
      exact h.append (List.nodup_singleton a) (by simpa using ha)

theorem nodup_distinct (l : List α) : (distinct l).Nodup :=
  nodup_distinct_from l [] List.nodup_nil

/-- Exactly one value is left when every member is that value. -/
theorem distinct_eq_singleton {l : List α} {v : α} :
    distinct l = [v] ↔ l ≠ [] ∧ ∀ x ∈ l, x = v := by
  constructor
  · intro h
    refine ⟨?_, fun x hx ↦ ?_⟩
    · rintro rfl
      simp [distinct] at h
    · have hx' := mem_distinct.mpr hx
      rw [h] at hx'
      simpa using hx'
  · rintro ⟨hne, hall⟩
    have hmem : ∀ x ∈ distinct l, x = v := fun x hx ↦ hall x (mem_distinct.mp hx)
    obtain ⟨a, ha⟩ := List.exists_mem_of_ne_nil l hne
    have hd := nodup_distinct l
    match hl : distinct l with
    | [] => simp [← mem_distinct (l := l), hl] at ha
    | [a] => simpa [hl] using hmem
    | a :: b :: t =>
      have hab : a = b := by
        rw [hmem a (by simp [hl]), hmem b (by simp [hl])]
      simp [hl, hab] at hd

/-- The one value of a list, if there is exactly one. -/
def onlyMember (l : List α) : Option α :=
  match distinct l with
  | [a] => some a
  | _ => none

theorem onlyMember_eq_some {l : List α} {v : α} :
    onlyMember l = some v ↔ l ≠ [] ∧ ∀ x ∈ l, x = v := by
  rw [← distinct_eq_singleton, onlyMember]
  constructor
  · intro h
    split at h
    · next a ha =>
      rw [ha, Option.some.inj h]
    · exact absurd h (by simp)
  · intro h
    rw [h]

theorem SameMembers.onlyMember_eq {l l' : List α} (h : SameMembers l l') :
    onlyMember l = onlyMember l' := by
  apply Option.ext
  intro v
  rw [onlyMember_eq_some, onlyMember_eq_some, Ne, Ne, h.eq_nil_iff]
  simp only [h _]

end distinct

section latest

variable [LinearOrder α]

theorem SameMembers.max?_eq {l l' : List α} (h : SameMembers l l') : l.max? = l'.max? := by
  cases hm : l.max? with
  | none =>
    rw [List.max?_eq_none_iff] at hm
    exact (List.max?_eq_none_iff.mpr (h.eq_nil_iff.mp hm)).symm
  | some m =>
    obtain ⟨hmem, hmax⟩ := List.max?_eq_some_iff.mp hm
    exact (List.max?_eq_some_iff.mpr ⟨(h m).mp hmem, fun b hb ↦ hmax b ((h b).mpr hb)⟩).symm

end latest

theorem find?_eq_some_of_only {p : α → Bool} {l : List α} {a : α} (ha : a ∈ l) (hp : p a)
    (honly : ∀ b ∈ l, p b → b = a) : l.find? p = some a := by
  obtain ⟨b, hb⟩ := Option.isSome_iff_exists.mp (List.find?_isSome.mpr ⟨a, ha, hp⟩)
  rw [hb, honly b (List.mem_of_find?_eq_some hb) (List.find?_some hb)]

section firstMax

variable {β : Type*} [LinearOrder β]

/-- The first of the members with the greatest key. -/
def firstMax (key : α → β) : List α → Option α
  | [] => none
  | a :: rest =>
    match firstMax key rest with
    | none => some a
    | some b => if key a < key b then some b else some a

theorem mem_of_firstMax {key : α → β} {l : List α} {a : α} (h : firstMax key l = some a) :
    a ∈ l := by
  induction l generalizing a with
  | nil => simp [firstMax] at h
  | cons b rest ih =>
    unfold firstMax at h
    split at h
    · obtain rfl := Option.some.inj h
      exact List.mem_cons_self
    · rename_i c hc
      split_ifs at h
      · obtain rfl := Option.some.inj h
        exact List.mem_cons_of_mem b (ih hc)
      · obtain rfl := Option.some.inj h
        exact List.mem_cons_self

/-- The members before `a` have smaller keys, those after it no greater ones. -/
def IsFirstMax (key : α → β) (l : List α) (a : α) : Prop :=
  ∃ before after, l = before ++ a :: after ∧ (∀ b ∈ before, key b < key a) ∧
    ∀ b ∈ after, key b ≤ key a

theorem firstMax_eq_none {key : α → β} {l : List α} : firstMax key l = none ↔ l = [] := by
  cases l with
  | nil => simp [firstMax]
  | cons a rest =>
    simp only [firstMax, reduceCtorEq, iff_false]
    split
    · simp
    · split_ifs <;> simp

theorem isFirstMax_of_firstMax {key : α → β} {l : List α} {a : α} (h : firstMax key l = some a) :
    IsFirstMax key l a := by
  induction l generalizing a with
  | nil => simp [firstMax] at h
  | cons c rest ih =>
    unfold firstMax at h
    split at h
    · next hnone =>
      obtain rfl := Option.some.inj h
      rw [firstMax_eq_none.mp hnone]
      exact ⟨[], [], rfl, by simp, by simp⟩
    · next b hb =>
      obtain ⟨before, after, rfl, hbefore, hafter⟩ := ih hb
      split_ifs at h with hlt
      · obtain rfl := Option.some.inj h
        refine ⟨c :: before, after, rfl, ?_, hafter⟩
        exact List.forall_mem_cons.mpr ⟨hlt, hbefore⟩
      · obtain rfl := Option.some.inj h
        refine ⟨[], before ++ b :: after, rfl, by simp, fun d hd ↦ ?_⟩
        refine le_trans ?_ (not_lt.mp hlt)
        obtain hd | hd := List.mem_append.mp hd
        · exact (hbefore d hd).le
        · obtain rfl | hd := List.mem_cons.mp hd
          · exact le_rfl
          · exact hafter d hd

theorem IsFirstMax.mem {key : α → β} {l : List α} {a : α} (h : IsFirstMax key l a) : a ∈ l := by
  obtain ⟨before, after, rfl, -, -⟩ := h
  simp

theorem IsFirstMax.congr {key key' : α → β} {l : List α} {a : α} (h : ∀ b ∈ l, key b = key' b) :
    IsFirstMax key l a ↔ IsFirstMax key' l a := by
  have himp {key key' : α → β} (h : ∀ b ∈ l, key b = key' b) (hmax : IsFirstMax key l a) :
      IsFirstMax key' l a := by
    obtain ⟨before, after, rfl, hbefore, hafter⟩ := hmax
    refine ⟨before, after, rfl, fun b hb ↦ ?_, fun b hb ↦ ?_⟩
    · rw [← h b (by simp [hb]), ← h a (by simp)]
      exact hbefore b hb
    · rw [← h b (by simp [hb]), ← h a (by simp)]
      exact hafter b hb
  exact ⟨himp h, himp fun b hb ↦ (h b hb).symm⟩

/-- Of two splits at a first maximum neither is longer. -/
theorem IsFirstMax.eq {key : α → β} {l : List α} {a b : α} (h : IsFirstMax key l a)
    (h' : IsFirstMax key l b) : a = b := by
  obtain ⟨before, after, rfl, hbefore, hafter⟩ := h
  obtain ⟨before', after', heq, hbefore', hafter'⟩ := h'
  obtain ⟨mid, rfl, hmid⟩ | ⟨mid, rfl, hmid⟩ := List.append_eq_append_iff.mp heq
  · cases mid with
    | nil => exact (List.cons.inj hmid).1
    | cons c mid =>
      obtain ⟨rfl, rfl⟩ := List.cons.inj hmid
      have hlt := hbefore' a (by simp)
      exact absurd (hafter b (by simp)) (not_le.mpr hlt)
  · cases mid with
    | nil => exact (List.cons.inj hmid).1.symm
    | cons c mid =>
      obtain ⟨rfl, rfl⟩ := List.cons.inj hmid
      have hlt := hbefore b (by simp)
      exact absurd (hafter' a (by simp)) (not_le.mpr hlt)

theorem firstMax_eq_some {key : α → β} {l : List α} {a : α} :
    firstMax key l = some a ↔ IsFirstMax key l a := by
  refine ⟨isFirstMax_of_firstMax, fun h ↦ ?_⟩
  cases hmax : firstMax key l with
  | none => exact absurd h.mem (by simp [firstMax_eq_none.mp hmax])
  | some b => rw [(isFirstMax_of_firstMax hmax).eq h]

end firstMax

end AnyList.Library.Members

namespace AnyList.Library.Newest

variable {C P : Type*} [LinearOrder C] {log : List (C × P)} {c c' : C} {p p' : P}

/-- The entry of a log that no other is newer than, the last of those with its clock. -/
def IsNewest (log : List (C × P)) (c : C) (p : P) : Prop :=
  ∃ before after, log = before ++ (c, p) :: after ∧ (∀ e ∈ before, e.1 ≤ c) ∧
    ∀ e ∈ after, e.1 < c

theorem isNewest_singleton (c : C) (p : P) : IsNewest [(c, p)] c p :=
  ⟨[], [], rfl, by simp, by simp⟩

theorem IsNewest.le (h : IsNewest log c p) : ∀ e ∈ log, e.1 ≤ c := by
  obtain ⟨before, after, rfl, hbefore, hafter⟩ := h
  intro e he
  obtain he | he := List.mem_append.mp he
  · exact hbefore e he
  · obtain rfl | he := List.mem_cons.mp he
    · exact le_rfl
    · exact (hafter e he).le

theorem IsNewest.concat_of_le (h : IsNewest log c p) (hle : c ≤ c') (p' : P) :
    IsNewest (log ++ [(c', p')]) c' p' :=
  ⟨log, [], rfl, fun e he ↦ (h.le e he).trans hle, by simp⟩

theorem IsNewest.concat_of_lt (h : IsNewest log c p) (hlt : c' < c) (p' : P) :
    IsNewest (log ++ [(c', p')]) c p := by
  obtain ⟨before, after, rfl, hbefore, hafter⟩ := h
  refine ⟨before, after ++ [(c', p')], by simp, hbefore, fun e he ↦ ?_⟩
  obtain he | he := List.mem_append.mp he
  · exact hafter e he
  · obtain rfl := List.mem_singleton.mp he
    exact hlt

end AnyList.Library.Newest
