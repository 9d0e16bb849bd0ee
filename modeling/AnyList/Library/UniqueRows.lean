import Mathlib.Data.List.Pairwise

namespace AnyList.Library.UniqueRows

variable {ρ κ : Type*}

/-- Rows under a unique key; rows without the key are never alike. -/
def UniqueOn (key : ρ → Option κ) (rows : List ρ) : Prop :=
  rows.Pairwise fun r s ↦ ∀ k, key r = some k → key s ≠ some k

def FreeOf (key : ρ → Option κ) (rows : List ρ) (r : ρ) : Prop :=
  ∀ s ∈ rows, ∀ k, key s = some k → key r ≠ some k

section decidable

variable [DecidableEq κ]

instance decidableApart (key : ρ → Option κ) (r s : ρ) : Decidable (∀ k, key r = some k → key s ≠ some k) :=
  decidable_of_iff (key r = none ∨ key r ≠ key s) <| by
    cases key r with
    | none => simp
    | some k => simp [eq_comm]

instance decidableUniqueOn (key : ρ → Option κ) (rows : List ρ) : Decidable (UniqueOn key rows) :=
  inferInstanceAs (Decidable (rows.Pairwise _))

instance decidableFreeOf (key : ρ → Option κ) (rows : List ρ) (r : ρ) : Decidable (FreeOf key rows r) :=
  inferInstanceAs (Decidable (∀ s ∈ rows, ∀ k, key s = some k → key r ≠ some k))

/-- Updates the rows one after another; the key is checked at each row. -/
def updateEach (key : ρ → Option κ) (f : ρ → ρ) : List ρ → List ρ → Option (List ρ)
  | done, [] => some done
  | done, r :: rest =>
    if FreeOf key (done ++ rest) (f r) then updateEach key f (done ++ [f r]) rest else none

end decidable

variable {key : ρ → Option κ} {f : ρ → ρ} {rows done : List ρ} {r : ρ}

theorem unique_append {rows' : List ρ} : UniqueOn key (rows ++ rows') ↔
    UniqueOn key rows ∧ UniqueOn key rows' ∧ ∀ r ∈ rows', FreeOf key rows r := by
  rw [UniqueOn, List.pairwise_append]
  refine and_congr_right fun _ ↦ and_congr_right fun _ ↦ ?_
  exact ⟨fun h r hr s hs ↦ h s hs r hr, fun h s hs r hr ↦ h r hr s hs⟩

theorem FreeOf.append {rows' : List ρ} :
    FreeOf key (rows ++ rows') r ↔ FreeOf key rows r ∧ FreeOf key rows' r := by
  simp only [FreeOf, List.forall_mem_append]

theorem UniqueOn.sublist {rows' : List ρ} (h : UniqueOn key rows) (hsub : rows'.Sublist rows) :
    UniqueOn key rows' := List.Pairwise.sublist hsub h

/-- Where no row leaves a key that another one takes, the order of the update does not matter: it
fails just when the updated rows are not unique. -/
theorem updateEach_eq [DecidableEq κ]
    (hstay : ∀ r ∈ rows, ∀ s ∈ rows, ∀ k, key (f r) = some k → key s = some k →
      key (f s) = some k) (h : UniqueOn key (done ++ rows)) :
    updateEach key f done rows =
      if UniqueOn key (done ++ rows.map f) then some (done ++ rows.map f) else none := by
  induction rows generalizing done with
  | nil =>
    rw [List.append_nil] at h
    simp [updateEach, h]
  | cons r rest ih =>
    have hassoc : done ++ (r :: rest).map f = (done ++ [f r]) ++ rest.map f := by simp
    rw [updateEach]
    split
    · next hfree =>
      obtain ⟨hdone, hrest⟩ := FreeOf.append.mp hfree
      have hbefore : UniqueOn key (done ++ rest) :=
        h.sublist (List.Sublist.append_left (List.sublist_cons_self r rest) done)
      obtain ⟨h₁, h₂, h₃⟩ := unique_append.mp hbefore
      have hnext : UniqueOn key ((done ++ [f r]) ++ rest) := by
        refine unique_append.mpr ⟨unique_append.mpr ⟨h₁, List.pairwise_singleton _ _, ?_⟩, h₂, ?_⟩
        · intro s hs
          rw [List.mem_singleton.mp hs]
          exact hdone
        · intro s hs
          refine FreeOf.append.mpr ⟨h₃ s hs, fun t ht k hk hs' ↦ ?_⟩
          rw [List.mem_singleton.mp ht] at hk
          exact hrest s hs k hs' hk
      rw [ih (fun a ha b hb ↦ hstay a (List.mem_cons_of_mem _ ha) b (List.mem_cons_of_mem _ hb))
        hnext, hassoc]
    · next hfree =>
      rw [if_neg]
      intro hunique
      refine hfree (FreeOf.append.mpr ?_)
      rw [List.map_cons] at hunique
      obtain ⟨-, hmoved, hdone⟩ := unique_append.mp hunique
      refine ⟨hdone (f r) List.mem_cons_self, fun s hs k hk hr ↦ ?_⟩
      have hs' := hstay r List.mem_cons_self s (List.mem_cons_of_mem _ hs) k hr hk
      exact (List.pairwise_cons.mp hmoved).1 (f s) (List.mem_map_of_mem hs) k hr hs'

theorem unique_filter (p : ρ → Bool) (h : UniqueOn key rows) : UniqueOn key (rows.filter p) :=
  h.sublist List.filter_sublist

theorem UniqueOn.eq_of_key (h : UniqueOn key rows) {s : ρ} (hr : r ∈ rows) (hs : s ∈ rows) {k : κ}
    (hrk : key r = some k) (hsk : key s = some k) : r = s := by
  by_contra hne
  have hsymm : Std.Symm fun r s ↦ ∀ k, key r = some k → key s ≠ some k :=
    ⟨fun _ _ h k hs hr ↦ h k hr hs⟩
  exact List.Pairwise.forall h hr hs hne k hrk hsk

/-- Of the rows under one key there is one, if there is any. -/
theorem UniqueOn.length_filter [DecidableEq κ] (h : UniqueOn key rows) (k : κ)
    [Decidable (∃ r ∈ rows, key r = some k)] :
    (rows.filter fun r ↦ decide (key r = some k)).length =
      if ∃ r ∈ rows, key r = some k then 1 else 0 := by
  split
  · next hex =>
    obtain ⟨r, hr, hk⟩ := hex
    obtain ⟨before, after, rfl⟩ := List.append_of_mem hr
    obtain ⟨-, hafter, hbefore⟩ := unique_append.mp h
    have hnone {l : List ρ} (hl : ∀ s ∈ l, key s ≠ some k) :
        (l.filter fun r ↦ decide (key r = some k)) = [] :=
      List.filter_eq_nil_iff.mpr fun s hs ↦ by simpa using hl s hs
    have h₁ : ∀ s ∈ before, key s ≠ some k := fun s hs hs' ↦
      hbefore r List.mem_cons_self s hs k hs' hk
    have h₂ : ∀ s ∈ after, key s ≠ some k := fun s hs ↦ (List.pairwise_cons.mp hafter).1 s hs k hk
    rw [List.filter_append, List.filter_cons, if_pos (decide_eq_true hk), hnone h₁, hnone h₂]
    rfl
  · next hex =>
    rw [List.length_eq_zero_iff, List.filter_eq_nil_iff]
    exact fun r hr hk ↦ hex ⟨r, hr, of_decide_eq_true hk⟩

end AnyList.Library.UniqueRows
