import Mathlib.Data.List.Basic
import Mathlib.Data.List.Induction
import Mathlib.Order.Lattice

namespace AnyList.Library.RankedCells

variable {α σ ρ : Type*} [LinearOrder ρ]

/-- A value, where there is one, with the source that vouches for it. -/
structure Cell (α σ : Type*) where
  value : Option α
  source : Option σ

variable (rank : σ → ρ) (vacant : Cell α σ → Prop)

/-- A source may write a vacant cell, and one that a source of no higher rank wrote. -/
def Open (cell : Cell α σ) (source : σ) : Prop :=
  vacant cell ∨ ∃ old ∈ cell.source, rank old ≤ rank source

instance decidableOpen [DecidablePred vacant] (cell : Cell α σ) (source : σ) : Decidable (Open rank vacant cell source) :=
  inferInstanceAs (Decidable (_ ∨ _))

def offer [DecidablePred vacant] (cell : Cell α σ) (o : α × σ) : Cell α σ :=
  if Open rank vacant cell o.2 then ⟨some o.1, some o.2⟩ else cell

/-- What a cell holds after offers in any order: what it held if it is open to none of them, else
the one of the highest rank. -/
def Outcome (cell : Cell α σ) (offers : List (α × σ)) (cell' : Cell α σ) : Prop :=
  (cell' = cell ∧ ∀ o ∈ offers, ¬ Open rank vacant cell o.2) ∨
    ∃ o ∈ offers, Open rank vacant cell o.2 ∧ (∀ o' ∈ offers, rank o'.2 ≤ rank o.2) ∧
      cell' = ⟨some o.1, some o.2⟩

variable {rank vacant} {cell : Cell α σ} {offers : List (α × σ)}

theorem Open.mono {s s' : σ} (h : Open rank vacant cell s) (hs : rank s ≤ rank s') :
    Open rank vacant cell s' := by
  rcases h with h | ⟨old, hold, hle⟩
  · exact .inl h
  · exact .inr ⟨old, hold, hle.trans hs⟩

theorem open_mk_iff {a : α} {s s' : σ} (h : ¬ vacant ⟨some a, some s⟩) :
    Open rank vacant ⟨some a, some s⟩ s' ↔ rank s ≤ rank s' := by
  simp [Open, h]

theorem outcome_foldl [DecidablePred vacant] (hfull : ∀ o ∈ offers, ¬ vacant ⟨some o.1, some o.2⟩) :
    Outcome rank vacant cell offers (offers.foldl (offer rank vacant) cell) := by
  induction offers using List.reverseRecOn with
  | nil => exact .inl ⟨rfl, by simp⟩
  | append_singleton offers last ih =>
    rw [List.foldl_append, List.foldl_cons, List.foldl_nil]
    have hlast := hfull last (by simp)
    rcases ih fun o ho ↦ hfull o (List.mem_append_left _ ho) with ⟨hcell, hclosed⟩ |
      ⟨best, hbest, hopen, hmax, hcell⟩
    · rw [hcell, offer]
      split
      · next hopen =>
        refine .inr ⟨last, by simp, hopen, ?_, rfl⟩
        intro o ho
        rcases List.mem_append.mp ho with ho | ho
        · exact (lt_of_not_ge fun hle ↦ hclosed o ho (hopen.mono hle)).le
        · rw [List.mem_singleton.mp ho]
      · next hnot =>
        refine .inl ⟨rfl, ?_⟩
        intro o ho
        rcases List.mem_append.mp ho with ho | ho
        · exact hclosed o ho
        · rwa [List.mem_singleton.mp ho]
    · have hiff : Open rank vacant ⟨some best.1, some best.2⟩ last.2 ↔ rank best.2 ≤ rank last.2 :=
        open_mk_iff (hfull best (List.mem_append_left _ hbest))
      rw [hcell, offer]
      split
      · next h =>
        have hle := hiff.mp h
        refine .inr ⟨last, by simp, hopen.mono hle, ?_, rfl⟩
        intro o ho
        rcases List.mem_append.mp ho with ho | ho
        · exact (hmax o ho).trans hle
        · rw [List.mem_singleton.mp ho]
      · next h =>
        refine .inr ⟨best, List.mem_append_left _ hbest, hopen, ?_, rfl⟩
        intro o ho
        rcases List.mem_append.mp ho with ho | ho
        · exact hmax o ho
        · rw [List.mem_singleton.mp ho]
          exact (lt_of_not_ge fun hle ↦ h (hiff.mpr hle)).le

theorem Outcome.congr {offers' : List (α × σ)} {cell' : Cell α σ}
    (h : Outcome rank vacant cell offers cell') (hmem : ∀ o, o ∈ offers' ↔ o ∈ offers) :
    Outcome rank vacant cell offers' cell' := by
  simpa only [Outcome, hmem] using h

/-- Offers of different ranks have one outcome. -/
theorem Outcome.unique {cell₁ cell₂ : Cell α σ}
    (hranks : ∀ o ∈ offers, ∀ o' ∈ offers, rank o.2 = rank o'.2 → o = o')
    (h₁ : Outcome rank vacant cell offers cell₁) (h₂ : Outcome rank vacant cell offers cell₂) :
    cell₁ = cell₂ := by
  rcases h₁ with ⟨rfl, hclosed⟩ | ⟨o, ho, hopen, hmax, rfl⟩
  · rcases h₂ with ⟨rfl, -⟩ | ⟨o, ho, hopen, -, -⟩
    · rfl
    · exact absurd hopen (hclosed o ho)
  · rcases h₂ with ⟨rfl, hclosed⟩ | ⟨o', ho', -, hmax', rfl⟩
    · exact absurd hopen (hclosed o ho)
    · rw [hranks o ho o' ho' ((hmax' o ho).antisymm (hmax o' ho'))]

/-- Offering anything again leaves the outcome as it is. -/
theorem Outcome.offer_eq [DecidablePred vacant] {cell' : Cell α σ} {o : α × σ}
    (hfull : ∀ o ∈ offers, ¬ vacant ⟨some o.1, some o.2⟩)
    (hranks : ∀ o ∈ offers, ∀ o' ∈ offers, rank o.2 = rank o'.2 → o = o')
    (h : Outcome rank vacant cell offers cell') (ho : o ∈ offers) :
    offer rank vacant cell' o = cell' := by
  rcases h with ⟨rfl, hclosed⟩ | ⟨best, hbest, -, hmax, rfl⟩
  · exact if_neg (hclosed o ho)
  · rw [offer]
    split
    · next h =>
      have hle := (open_mk_iff (hfull best hbest)).mp h
      rw [hranks o ho best hbest ((hmax o ho).antisymm hle)]
    · rfl

end AnyList.Library.RankedCells
