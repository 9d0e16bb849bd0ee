import AnyList.Library.Dict
import Mathlib.Algebra.Order.Ring.Nat
import Mathlib.Data.List.Induction
import Mathlib.Logic.Function.Basic
import Mathlib.Logic.Relation

namespace AnyList.Library.Forests

open Function Relation

variable {ι : Type*} [DecidableEq ι]

/-- The root above a node; every node passed on the way is moved up to its grandparent. -/
def root : ℕ → (ι → ι) → ι → (ι → ι) × ι
  | 0, parents, x => (parents, x)
  | fuel + 1, parents, x =>
    if parents x = x then (parents, x)
    else root fuel (update parents x (parents (parents x))) (parents (parents x))

/-- Hangs the root of `a` below the root of `b`. -/
def union (fuel : ℕ) (parents : ι → ι) (a b : ι) : ι → ι :=
  let below := root fuel parents b
  let above := root fuel below.1 a
  update above.1 above.2 below.2

def unions (fuel : ℕ) (parents : ι → ι) (pairs : List (ι × ι)) : ι → ι :=
  pairs.foldl (fun parents pair ↦ union fuel parents pair.1 pair.2) parents

/-- The heights of a forest: they fall towards the roots, which have none. -/
structure Heights (parents : ι → ι) (height : ι → ℕ) : Prop where
  fall : ∀ x, parents x ≠ x → height (parents x) < height x
  root : ∀ x, parents x = x → height x = 0

/-- A forest whose nodes have the roots `top` and lie no higher than `n`. -/
structure Represents (parents top : ι → ι) (n : ℕ) : Prop where
  top_parents : ∀ x, top (parents x) = top x
  top_of_root : ∀ x, parents x = x → top x = x
  parents_top : ∀ x, parents (top x) = top x
  heights : ∃ height : ι → ℕ, Heights parents height ∧ ∀ x, height x ≤ n

variable {parents top : ι → ι} {height : ι → ℕ} {n fuel : ℕ}

omit [DecidableEq ι] in
theorem represents_id : Represents (fun x : ι ↦ x) (fun x ↦ x) 0 :=
  ⟨fun _ ↦ rfl, fun _ _ ↦ rfl, fun _ ↦ rfl, fun _ ↦ 0, ⟨fun _ h ↦ absurd rfl h, fun _ _ ↦ rfl⟩,
    fun _ ↦ le_rfl⟩

theorem Heights.grandparent_lt (h : Heights parents height) {x : ι} (hx : parents x ≠ x) :
    height (parents (parents x)) < height x := by
  by_cases hroot : parents (parents x) = parents x
  · rw [hroot]
    exact h.fall x hx
  · exact (h.fall (parents x) hroot).trans (h.fall x hx)

theorem Heights.halve (h : Heights parents height) {x : ι} (hx : parents x ≠ x) :
    Heights (update parents x (parents (parents x))) height where
  fall y hy := by
    by_cases hyx : y = x
    · subst hyx
      rw [update_self] at hy ⊢
      exact h.grandparent_lt hx
    · rw [update_of_ne hyx] at hy ⊢
      exact h.fall y hy
  root y hy := by
    by_cases hyx : y = x
    · subst hyx
      rw [update_self] at hy
      exact absurd (h.grandparent_lt hx) (by rw [hy]; exact lt_irrefl _)
    · rw [update_of_ne hyx] at hy
      exact h.root y hy

theorem Represents.halve (h : Represents parents top n) {x : ι} (hx : parents x ≠ x) :
    Represents (update parents x (parents (parents x))) top n where
  top_parents y := by
    by_cases hyx : y = x
    · subst hyx
      rw [update_self, h.top_parents, h.top_parents]
    · rw [update_of_ne hyx, h.top_parents]
  top_of_root y hy := by
    obtain ⟨height, hheight, -⟩ := h.heights
    by_cases hyx : y = x
    · subst hyx
      rw [update_self] at hy
      exact absurd (hheight.grandparent_lt hx) (by rw [hy]; exact lt_irrefl _)
    · rw [update_of_ne hyx] at hy
      exact h.top_of_root y hy
  parents_top y := by
    have hne : top y ≠ x := fun hyx ↦ hx (hyx ▸ h.parents_top y)
    rw [update_of_ne hne, h.parents_top]
  heights := by
    obtain ⟨height, hheight, hbound⟩ := h.heights
    exact ⟨height, hheight.halve hx, hbound⟩

/-- With fuel for the height of a node the search ends at its root, and no node changes its root. -/
theorem root_of_height_le (h : Represents parents top n) (hheight : Heights parents height) {x : ι}
    (hx : height x ≤ fuel) :
    (root fuel parents x).2 = top x ∧ Represents (root fuel parents x).1 top n := by
  induction fuel generalizing parents x with
  | zero =>
    have hroot : parents x = x := by
      by_contra hne
      have hfall := hheight.fall x hne
      omega
    exact ⟨(h.top_of_root x hroot).symm, h⟩
  | succ fuel ih =>
    rw [root]
    split
    · next hroot => exact ⟨(h.top_of_root x hroot).symm, h⟩
    · next hne =>
      have hlt := hheight.grandparent_lt hne
      have hlow : height (parents (parents x)) ≤ fuel := by omega
      obtain ⟨hroot, hrest⟩ := ih (h.halve hne) (hheight.halve hne) hlow
      refine ⟨?_, hrest⟩
      rw [hroot, h.top_parents, h.top_parents]

theorem root_spec (h : Represents parents top n) (hn : n ≤ fuel) (x : ι) :
    (root fuel parents x).2 = top x ∧ Represents (root fuel parents x).1 top n := by
  obtain ⟨height, hheight, hbound⟩ := h.heights
  exact root_of_height_le h hheight ((hbound x).trans hn)

/-- The roots after the root `a` was hung below the root `b`. -/
def relink (top : ι → ι) (a b : ι) (x : ι) : ι := if top x = a then b else top x

theorem represents_update (h : Represents parents top n) {a b : ι} (ha : top a = a)
    (hb : top b = b) : Represents (update parents a b) (relink top a b) (n + 1) := by
  have hroot (x : ι) (hx : top x = x) : parents x = x := hx ▸ h.parents_top x
  by_cases hab : a = b
  · subst hab
    have hsame : update parents a a = parents := by
      rw [update_eq_self_iff, hroot a ha]
    have htop : relink top a a = top := by
      funext x
      rw [relink]
      split
      · next hx => exact hx.symm
      · rfl
    rw [hsame, htop]
    obtain ⟨height, hheight, hbound⟩ := h.heights
    exact ⟨h.top_parents, h.top_of_root, h.parents_top, height, hheight,
      fun x ↦ (hbound x).trans n.le_succ⟩
  · have hba : b ≠ a := fun hba ↦ hab hba.symm
    refine ⟨fun x ↦ ?_, fun x hx ↦ ?_, fun x ↦ ?_, ?_⟩
    · by_cases hxa : x = a
      · subst hxa
        simp [relink, ha, hb]
      · rw [update_of_ne hxa, relink, relink, h.top_parents]
    · by_cases hxa : x = a
      · subst hxa
        rw [update_self] at hx
        exact absurd hx hba
      · rw [update_of_ne hxa] at hx
        rw [relink, h.top_of_root x hx, if_neg hxa]
    · rw [relink]
      split
      · rw [update_of_ne hba, hroot b hb]
      · next hxa => rw [update_of_ne hxa, h.parents_top]
    · obtain ⟨height, hheight, hbound⟩ := h.heights
      refine ⟨fun x ↦ if top x = a then height x + 1 else height x, ⟨fun x hx ↦ ?_, fun x hx ↦ ?_⟩,
        fun x ↦ ?_⟩
      · by_cases hxa : x = a
        · subst hxa
          have hzero := hheight.root b (hroot b hb)
          simp [ha, hb, hba, hzero]
        · rw [update_of_ne hxa] at hx ⊢
          have hfall := hheight.fall x hx
          simp only [h.top_parents]
          split <;> omega
      · by_cases hxa : x = a
        · subst hxa
          rw [update_self] at hx
          exact absurd hx hba
        · rw [update_of_ne hxa] at hx
          have hzero := hheight.root x hx
          simp [h.top_of_root x hx, hxa, hzero]
      · have hle := hbound x
        simp only
        split <;> omega

theorem union_spec (h : Represents parents top n) (hn : n ≤ fuel) (a b : ι) :
    Represents (union fuel parents a b) (relink top (top a) (top b)) (n + 1) := by
  obtain ⟨hbelow, hrest⟩ := root_spec h hn b
  obtain ⟨habove, hrest'⟩ := root_spec hrest hn a
  have htop (x : ι) : top (top x) = top x := h.top_of_root _ (h.parents_top x)
  rw [union, hbelow, habove]
  exact represents_update hrest' (htop a) (htop b)

/-- The nodes that some pairs connect. -/
def Linked (pairs : List (ι × ι)) : ι → ι → Prop := EqvGen fun x y ↦ (x, y) ∈ pairs

theorem relink_eq_iff (top : ι → ι) (pairs : List (ι × ι)) (a b : ι)
    (h : ∀ x y, top x = top y ↔ Linked pairs x y) (x y : ι) :
    relink top (top a) (top b) x = relink top (top a) (top b) y ↔
      Linked (pairs ++ [(a, b)]) x y := by
  have hmono {x y : ι} (hxy : top x = top y) : Linked (pairs ++ [(a, b)]) x y :=
    ((h x y).mp hxy).mono fun _ _ hpair ↦ List.mem_append_left _ hpair
  have hab : Linked (pairs ++ [(a, b)]) a b := .rel a b (by simp)
  constructor
  · intro hxy
    rw [relink, relink] at hxy
    by_cases hxa : top x = top a
    · rw [if_pos hxa] at hxy
      by_cases hya : top y = top a
      · exact hmono (hxa.trans hya.symm)
      · rw [if_neg hya] at hxy
        exact .trans x a y (hmono hxa) (.trans a b y hab (hmono hxy))
    · rw [if_neg hxa] at hxy
      by_cases hya : top y = top a
      · rw [if_pos hya] at hxy
        exact .trans x b y (hmono hxy) (.trans b a y (.symm a b hab) (hmono hya.symm))
      · rw [if_neg hya] at hxy
        exact hmono hxy
  · intro hxy
    induction hxy with
    | rel x y hpair =>
      rcases List.mem_append.mp hpair with hpair | hpair
      · rw [relink, relink, (h x y).mpr (.rel x y hpair)]
      · obtain ⟨rfl, rfl⟩ := Prod.mk.inj (List.mem_singleton.mp hpair)
        simp [relink]
    | refl x => rfl
    | symm x y _ ih => exact ih.symm
    | trans x y z _ _ ih ih' => exact ih.trans ih'

/-- After all unions two nodes have one root just when the pairs connect them. -/
theorem unions_spec (pairs : List (ι × ι)) (hfuel : pairs.length ≤ fuel) :
    ∃ top : ι → ι, Represents (unions fuel (fun x ↦ x) pairs) top pairs.length ∧
      ∀ x y, top x = top y ↔ Linked pairs x y := by
  induction pairs using List.reverseRecOn with
  | nil =>
    refine ⟨fun x ↦ x, represents_id, fun x y ↦ ⟨fun hxy ↦ ?_, fun hxy ↦ ?_⟩⟩
    · obtain rfl : x = y := hxy
      exact .refl x
    induction hxy with
    | rel x y hpair => exact absurd hpair List.not_mem_nil
    | refl x => rfl
    | symm x y _ ih => exact ih.symm
    | trans x y z _ _ ih ih' => exact ih.trans ih'
  | append_singleton pairs pair ih =>
    rw [List.length_append, List.length_singleton] at hfuel ⊢
    obtain ⟨top, htop, hlinked⟩ := ih (by omega)
    refine ⟨relink top (top pair.1) (top pair.2), ?_, relink_eq_iff top pairs pair.1 pair.2 hlinked⟩
    rw [unions, List.foldl_append, List.foldl_cons, List.foldl_nil]
    exact union_spec htop (by omega) pair.1 pair.2

section chain

variable {ι κ : Type*} [DecidableEq κ]

/-- What carries a key, and the pairs of each with the last one before it that carried the key. -/
def chainStep (state : Dict κ ι × List (ι × ι)) (occurrence : ι × κ) : Dict κ ι × List (ι × ι) :=
  (state.1.set occurrence.2 occurrence.1,
    match state.1.get occurrence.2 with
    | some earlier => state.2 ++ [(occurrence.1, earlier)]
    | none => state.2)

def chain (occurrences : List (ι × κ)) : Dict κ ι × List (ι × ι) :=
  occurrences.foldl chainStep (Dict.empty, [])

def ShareKey (occurrences : List (ι × κ)) (x y : ι) : Prop :=
  ∃ k, (x, k) ∈ occurrences ∧ (y, k) ∈ occurrences

variable {occurrences : List (ι × κ)}

omit [DecidableEq κ] in
theorem ShareKey.mono {occurrences' : List (ι × κ)} {x y : ι} (h : ShareKey occurrences x y)
    (hsub : occurrences ⊆ occurrences') : ShareKey occurrences' x y := by
  obtain ⟨k, hx, hy⟩ := h
  exact ⟨k, hsub hx, hsub hy⟩

theorem chain_concat (occurrence : ι × κ) :
    chain (occurrences ++ [occurrence]) = chainStep (chain occurrences) occurrence := by
  rw [chain, List.foldl_append]
  rfl

structure Chained (occurrences : List (ι × κ)) (state : Dict κ ι × List (ι × ι)) : Prop where
  last : ∀ k y, state.1.get k = some y → (y, k) ∈ occurrences
  reach : ∀ x k, (x, k) ∈ occurrences → ∃ y, state.1.get k = some y ∧ Linked state.2 x y
  share : ∀ pair ∈ state.2, ShareKey occurrences pair.1 pair.2
  length : state.2.length ≤ occurrences.length

theorem chained (occurrences : List (ι × κ)) : Chained occurrences (chain occurrences) := by
  induction occurrences using List.reverseRecOn with
  | nil => exact ⟨by simp [chain], by simp, by simp [chain], le_rfl⟩
  | append_singleton occurrences occurrence ih =>
    obtain ⟨x, k⟩ := occurrence
    have hsub : occurrences ⊆ occurrences ++ [(x, k)] := List.subset_append_left _ _
    rw [chain_concat, chainStep]
    have hpairs : ∀ {y z : ι}, Linked (chain occurrences).2 y z →
        Linked (match (chain occurrences).1.get k with
          | some earlier => (chain occurrences).2 ++ [(x, earlier)]
          | none => (chain occurrences).2) y z := by
      intro y z hyz
      split
      · exact hyz.mono fun _ _ hpair ↦ List.mem_append_left _ hpair
      · exact hyz
    refine ⟨fun k' y hy ↦ ?_, fun y k' hy ↦ ?_, fun pair hpair ↦ ?_, ?_⟩
    · rw [Dict.get_set] at hy
      split at hy
      · next hk =>
        obtain rfl : x = y := Option.some.inj hy
        obtain rfl : k = k' := hk
        simp
      · exact hsub (ih.last k' y hy)
    · rw [Dict.get_set]
      by_cases hk : k = k'
      · subst hk
        rw [if_pos rfl]
        refine ⟨x, rfl, ?_⟩
        rcases List.mem_append.mp hy with hy | hy
        · obtain ⟨z, hz, hlinked⟩ := ih.reach y k hy
          rw [hz] at hpairs ⊢
          exact .trans y z x (hpairs hlinked) (.symm x z (.rel x z (by simp)))
        · obtain ⟨rfl, -⟩ := Prod.mk.inj (List.mem_singleton.mp hy)
          exact .refl y
      · rw [if_neg hk]
        have hy' : (y, k') ∈ occurrences := by
          rcases List.mem_append.mp hy with hy | hy
          · exact hy
          · exact absurd (Prod.mk.inj (List.mem_singleton.mp hy)).2.symm hk
        obtain ⟨z, hz, hlinked⟩ := ih.reach y k' hy'
        exact ⟨z, hz, hpairs hlinked⟩
    · split at hpair
      · next earlier hearlier =>
        rcases List.mem_append.mp hpair with hpair | hpair
        · exact (ih.share pair hpair).mono hsub
        · obtain rfl := List.mem_singleton.mp hpair
          exact ⟨k, by simp, hsub (ih.last k earlier hearlier)⟩
      · exact (ih.share pair hpair).mono hsub
    · have hlength := ih.length
      split
      · simp only [List.length_append, List.length_singleton]
        omega
      · simp only [List.length_append, List.length_singleton]
        omega

/-- The chained pairs connect just the nodes that common keys connect. -/
theorem linked_chain_iff (x y : ι) :
    Linked (chain occurrences).2 x y ↔ EqvGen (ShareKey occurrences) x y := by
  have hchained := chained occurrences
  constructor
  · exact fun h ↦ h.mono fun a b hpair ↦ hchained.share (a, b) hpair
  · intro h
    induction h with
    | rel x y hxy =>
      obtain ⟨k, hx, hy⟩ := hxy
      obtain ⟨z, hz, hxz⟩ := hchained.reach x k hx
      obtain ⟨z', hz', hyz⟩ := hchained.reach y k hy
      obtain rfl := Option.some.inj (hz.symm.trans hz')
      exact .trans x z y hxz (.symm y z hyz)
    | refl x => exact .refl x
    | symm x y _ ih => exact .symm x y ih
    | trans x y z _ _ ih ih' => exact .trans x y z ih ih'

end chain

end AnyList.Library.Forests
