import Mathlib.Data.Int.Notation
import Mathlib.Data.List.SplitBy
import Mathlib.Logic.Relation

namespace AnyList.Library.Chains

variable {α : Type*}

/-- Connected by steps between neighbours inside a list. -/
def Linked (near : α → α → Prop) (l : List α) : α → α → Prop :=
  Relation.ReflTransGen fun a b ↦ a ∈ l ∧ b ∈ l ∧ near a b

namespace Linked

variable {near near' : α → α → Prop} {l l' : List α} {a b c : α}

theorem refl (a : α) : Linked near l a a := Relation.ReflTransGen.refl

theorem trans (h : Linked near l a b) (h' : Linked near l b c) : Linked near l a c :=
  Relation.ReflTransGen.trans h h'

theorem symm (hnear : ∀ a b, near a b → near b a) (h : Linked near l a b) : Linked near l b a := by
  induction h with
  | refl => exact Relation.ReflTransGen.refl
  | tail _ hstep ih =>
    exact Relation.ReflTransGen.head ⟨hstep.2.1, hstep.1, hnear _ _ hstep.2.2⟩ ih

theorem mem (h : Linked near l a b) (ha : a ∈ l) : b ∈ l := by
  cases h with
  | refl => exact ha
  | tail _ hstep => exact hstep.2.1

theorem mono (h : Linked near l a b) (hl : ∀ c ∈ l, c ∈ l') (hnear : ∀ c d, near c d → near' c d) :
    Linked near' l' a b := by
  induction h with
  | refl => exact Relation.ReflTransGen.refl
  | tail _ hstep ih =>
    exact ih.tail ⟨hl _ hstep.1, hl _ hstep.2.1, hnear _ _ hstep.2.2⟩

/-- What every step keeps, all linked items have. -/
theorem invariant {P : α → Prop} (h : Linked near l a b) (ha : P a)
    (hstep : ∀ c d, P c → c ∈ l → d ∈ l → near c d → P d) : P b := by
  induction h with
  | refl => exact ha
  | tail _ h ih => exact hstep _ _ ih h.1 h.2.1 h.2.2

end Linked

section chains

variable (f : α → ℤ) (gap : ℤ)

/-- The items of a list, cut where two that follow each other are more than `gap` apart. -/
def chains (l : List α) : List (List α) := l.splitBy fun a b ↦ decide (f b - f a ≤ gap)

def Near (a b : α) : Prop := f a - f b ≤ gap ∧ f b - f a ≤ gap

/-- Every item of `c` is more than `gap` before every item of `d`. -/
def Apart (c d : List α) : Prop := ∀ a ∈ c, ∀ b ∈ d, gap < f b - f a

variable {f gap} {l c : List α} {a b : α}

theorem mem_iff_exists_chain : a ∈ l ↔ ∃ c ∈ chains f gap l, a ∈ c := by
  rw [← List.mem_flatten, chains, List.flatten_splitBy]

theorem le_getLast {c : List α} (h : c.Pairwise fun a b ↦ f a ≤ f b) (hc : c ≠ []) (ha : a ∈ c) :
    f a ≤ f (c.getLast hc) := by
  induction c with
  | nil => exact absurd rfl hc
  | cons first rest ih =>
    obtain ⟨hfirst, hrest⟩ := List.pairwise_cons.mp h
    by_cases hnil : rest = []
    · subst hnil
      obtain rfl := List.mem_singleton.mp ha
      exact Int.le_refl _
    · rw [List.getLast_cons hnil]
      obtain rfl | ha := List.mem_cons.mp ha
      · exact hfirst _ (List.getLast_mem hnil)
      · exact ih hrest hnil ha

theorem head_le {c : List α} (h : c.Pairwise fun a b ↦ f a ≤ f b) (hc : c ≠ []) (ha : a ∈ c) :
    f (c.head hc) ≤ f a := by
  cases c with
  | nil => exact absurd rfl hc
  | cons first rest =>
    obtain rfl | ha := List.mem_cons.mp ha
    · exact Int.le_refl _
    · exact List.rel_of_pairwise_cons h ha

/-- Pieces of a sorted list with a wide gap from each to the next are wide apart. -/
theorem pairwise_apart {pieces : List (List α)} (hsorted : pieces.flatten.Pairwise fun a b ↦ f a ≤ f b)
    (hne : [] ∉ pieces)
    (hcut : pieces.IsChain fun c d ↦ ∃ hc hd, gap < f (d.head hd) - f (c.getLast hc)) :
    pieces.Pairwise (Apart f gap) := by
  induction pieces with
  | nil => exact .nil
  | cons c rest ih =>
    rw [List.flatten_cons, List.pairwise_append] at hsorted
    obtain ⟨hc, hrest, -⟩ := hsorted
    have hnerest : [] ∉ rest := fun h ↦ hne (List.mem_cons_of_mem _ h)
    refine List.pairwise_cons.mpr ⟨fun d hd a ha b hb ↦ ?_, ih hrest hnerest hcut.tail⟩
    cases rest with
    | nil => exact absurd hd List.not_mem_nil
    | cons next others =>
      obtain ⟨hcne, hnext, hgap⟩ := (List.isChain_cons_cons.mp hcut).1
      have hlast := le_getLast hc hcne ha
      have hflat : (next :: others).flatten ≠ [] := by
        rw [List.flatten_cons]
        exact List.append_ne_nil_of_left_ne_nil hnext _
      have hhead := head_le hrest hflat (List.mem_flatten.mpr ⟨d, hd, hb⟩)
      have heq : (next :: others).flatten.head hflat = next.head hnext := by
        simp only [List.flatten_cons]
        exact List.head_append_of_ne_nil hnext
      rw [heq] at hhead
      omega

/-- A chain of a sorted list is wide apart from what comes before and after it. -/
theorem exists_of_mem_chains (hsorted : l.Pairwise fun a b ↦ f a ≤ f b)
    (hc : c ∈ chains f gap l) :
    ∃ before after, l = before ++ c ++ after ∧ Apart f gap before c ∧ Apart f gap c after := by
  have hcut : (chains f gap l).IsChain fun c d ↦ ∃ hc hd, gap < f (d.head hd) - f (c.getLast hc) := by
    refine (List.isChain_getLast_head_splitBy _ l).imp ?_
    rintro c d ⟨hc, hd, hfar⟩
    exact ⟨hc, hd, Int.not_le.mp (of_decide_eq_false hfar)⟩
  have hflat : (chains f gap l).flatten = l := List.flatten_splitBy _ l
  have hapart : (chains f gap l).Pairwise (Apart f gap) :=
    pairwise_apart (hflat.symm ▸ hsorted) (List.nil_notMem_splitBy _ l) hcut
  obtain ⟨before, after, heq⟩ := List.append_of_mem hc
  rw [heq] at hapart hflat
  obtain ⟨-, hafter, hbefore⟩ := List.pairwise_append.mp hapart
  refine ⟨before.flatten, after.flatten, ?_, fun a ha b hb ↦ ?_, fun a ha b hb ↦ ?_⟩
  · rw [← hflat, List.flatten_append, List.flatten_cons, List.append_assoc]
  · obtain ⟨piece, hpiece, ha⟩ := List.mem_flatten.mp ha
    exact hbefore piece hpiece c List.mem_cons_self a ha b hb
  · obtain ⟨piece, hpiece, hb⟩ := List.mem_flatten.mp hb
    exact List.rel_of_pairwise_cons hafter hpiece a ha b hb

theorem linked_head {rest : List α} (h : (a :: rest).IsChain fun a b ↦ f b - f a ≤ gap)
    (hsorted : (a :: rest).Pairwise fun a b ↦ f a ≤ f b) (hl : ∀ b ∈ a :: rest, b ∈ l)
    (hb : b ∈ a :: rest) : Linked (Near f gap) l a b := by
  induction rest generalizing a with
  | nil => exact List.mem_singleton.mp hb ▸ .refl _
  | cons next rest ih =>
    obtain rfl | hb := List.mem_cons.mp hb
    · exact .refl _
    · obtain ⟨hnear, hrest⟩ := List.isChain_cons_cons.mp h
      obtain ⟨hle, hsorted⟩ := List.pairwise_cons.mp hsorted
      have hnext := hle next List.mem_cons_self
      have hback : f a - f next ≤ gap := by omega
      exact (ih hrest hsorted (fun b hb ↦ hl b (List.mem_cons_of_mem _ hb)) hb).head
        ⟨hl _ List.mem_cons_self, hl _ (List.mem_cons_of_mem _ List.mem_cons_self), hback, hnear⟩

/-- The chains of a sorted list are what its neighbours link. -/
theorem linked_iff_mem (hsorted : l.Pairwise fun a b ↦ f a ≤ f b)
    (hc : c ∈ chains f gap l) (ha : a ∈ c) : Linked (Near f gap) l a b ↔ b ∈ c := by
  obtain ⟨before, after, rfl, hbefore, hafter⟩ := exists_of_mem_chains hsorted hc
  constructor
  · intro h
    refine h.invariant (P := (· ∈ c)) ha fun x y hx _ hy hnear ↦ ?_
    rcases List.mem_append.mp hy with hy | hy
    · rcases List.mem_append.mp hy with hy | hy
      · exact absurd hnear.1 (Int.not_le.mpr (hbefore y hy x hx))
      · exact hy
    · exact absurd hnear.2 (Int.not_le.mpr (hafter x hx y hy))
  · intro hb
    have hchain : c.IsChain fun a b ↦ f b - f a ≤ gap :=
      (List.isChain_of_mem_splitBy hc).imp fun _ _ h ↦ of_decide_eq_true h
    have hpiece : c.Pairwise fun a b ↦ f a ≤ f b :=
      (List.pairwise_append.mp (List.pairwise_append.mp hsorted).1).2.1
    have hmem (x : α) (hx : x ∈ c) : x ∈ before ++ c ++ after :=
      List.mem_append_left _ (List.mem_append_right _ hx)
    cases c with
    | nil => exact absurd ha List.not_mem_nil
    | cons first rest =>
      have hsymm (x y : α) (h : Near f gap x y) : Near f gap y x := ⟨h.2, h.1⟩
      exact ((linked_head hchain hpiece hmem ha).symm hsymm).trans
        (linked_head hchain hpiece hmem hb)

end chains

end AnyList.Library.Chains
