import AnyList.Reconciliation.Resolve

namespace AnyList.Reconciliation.Resolve

open AnyList.Timestamps AnyList.Library.Members

variable {σ α : Type*}

section sameDeltas

variable [DecidableEq α]

/-- Two fetches that saw the same provider deltas. Observations that equal their
recorded previous value are no deltas and may differ. -/
def SameDeltas (observations observations' : List (Observation σ α)) : Prop :=
  ∀ o : Observation σ α, o.changed → (o ∈ observations ↔ o ∈ observations')

theorem SameDeltas.of_sameMembers {observations observations' : List (Observation σ α)}
    (h : SameMembers observations observations') : SameDeltas observations observations' :=
  fun o _ ↦ h o

theorem SameDeltas.of_unchanged {l₁ l₂ : List (Observation σ α)} {o : Observation σ α}
    (h : o.previous = some o.value) : SameDeltas (l₁ ++ o :: l₂) (l₁ ++ l₂) := by
  intro d hd
  have hne : d ≠ o := by
    rintro rfl
    simp [Observation.changed, h] at hd
  simp [hne]

theorem SameDeltas.deltas {observations observations' : List (Observation σ α)}
    (h : SameDeltas observations observations') (startedAt : Option Int) :
    SameMembers (deltas startedAt observations) (deltas startedAt observations') := by
  intro d
  rw [mem_deltas, mem_deltas]
  constructor
  · rintro ⟨o, ho, hc, hd⟩
    exact ⟨o, (h o hc).mp ho, hc, hd⟩
  · rintro ⟨o, ho, hc, hd⟩
    exact ⟨o, (h o hc).mpr ho, hc, hd⟩

end sameDeltas

section congr

variable {c c' : List (Observation σ α)}

theorem clocks_max?_congr (h : SameMembers c c') : (clocks c).max? = (clocks c').max? :=
  (h.filterMap Observation.clock).max?_eq

theorem winners_congr (h : SameMembers c c') : SameMembers (winners c) (winners c') := by
  intro o
  rw [mem_winners, mem_winners, h o, clocks_max?_congr h]

theorem sources_congr [DecidableEq σ] (h : SameMembers c c') : sources c = sources c' :=
  (h.map Observation.source).toFinset_eq

theorem values_eq_singleton_congr [DecidableEq α] (h : SameMembers c c') (v : Option α) :
    values c = [v] ↔ values c' = [v] := by
  simp only [values_eq_singleton, ne_eq, h.eq_nil_iff, h _]

variable [DecidableEq σ] [DecidableEq α]

theorem newest_congr (h : SameMembers c c') (localValue : Option α) :
    newest localValue c = newest localValue c' := by
  by_cases hs : c.all Observation.reliable ∧ ∃ v, values (winners c) = [v]
  · obtain ⟨hr, v, hv⟩ := hs
    have hv' := (values_eq_singleton_congr (winners_congr h) v).mp hv
    rw [newest_eq_singleton hr hv, newest_eq_singleton (h.all_eq _ ▸ hr) hv',
      sources_congr (winners_congr h), clocks_max?_congr h]
  · rw [newest_eq_conflict fun hr v hv ↦ hs ⟨hr, v, hv⟩, newest_eq_conflict]
    intro hr v hv
    exact hs ⟨h.all_eq _ ▸ hr, v, (values_eq_singleton_congr (winners_congr h) v).mpr hv⟩

theorem settle_congr (h : SameMembers c c') (localValue : Option α) (localAt : Option Int) :
    settle localValue localAt none c = settle localValue localAt none c' := by
  by_cases hs : ∃ v, values c = [v]
  · obtain ⟨v, hv⟩ := hs
    rw [settle_eq_singleton hv, settle_eq_singleton ((values_eq_singleton_congr h v).mp hv),
      h.any_eq, sources_congr h, clocks_max?_congr h]
  · rw [settle_eq_newest fun v hv ↦ hs ⟨v, hv⟩, settle_eq_newest, newest_congr h]
    exact fun v hv ↦ hs ⟨v, (values_eq_singleton_congr h v).mpr hv⟩

end congr

variable [DecidableEq σ] [DecidableEq α]

/-- The decision depends on the set of deltas alone. -/
theorem resolve_congr {observations observations' : List (Observation σ α)}
    (h : SameDeltas observations observations') (localValue : Option α)
    (localAt : Option DateTime) (startedAt : Option Int) :
    resolve localValue localAt observations startedAt none =
      resolve localValue localAt observations' startedAt none := by
  have hd := h.deltas startedAt
  have hc : SameMembers (candidates (localAt.map naiveUtc) (deltas startedAt observations))
      (candidates (localAt.map naiveUtc) (deltas startedAt observations')) := hd.filter _
  simp only [resolve, hd.eq_nil_iff, hc.eq_nil_iff, settle_congr hc]

/-- Three-way resolution uses mutation clocks, never fetch order: permuting the
observations, repeating one, or inserting an unchanged one decides the same. -/
theorem resolve_order_free (localValue : Option α) (localAt : Option DateTime)
    (startedAt : Option Int) (observations : List (Observation σ α)) :
    (∀ permuted, observations.Perm permuted →
      resolve localValue localAt permuted startedAt none =
        resolve localValue localAt observations startedAt none) ∧
    (∀ l₁ l₂ o, observations = l₁ ++ l₂ → o ∈ observations →
      resolve localValue localAt (l₁ ++ o :: l₂) startedAt none =
        resolve localValue localAt observations startedAt none) ∧
    (∀ l₁ l₂ o, observations = l₁ ++ l₂ → o.previous = some o.value →
      resolve localValue localAt (l₁ ++ o :: l₂) startedAt none =
        resolve localValue localAt observations startedAt none) := by
  refine ⟨fun permuted hp ↦ ?_, ?_, ?_⟩
  · exact resolve_congr (.of_sameMembers (.of_perm hp.symm)) ..
  · rintro l₁ l₂ o rfl ho
    exact resolve_congr (.of_sameMembers (.of_duplicate ho)) ..
  · rintro l₁ l₂ o rfl ho
    exact resolve_congr (.of_unchanged ho) ..

/-- A Trakt edit and an undated MDBList change, next to an unchanged Simkl rating. -/
theorem resolve_order_free_ratings :
    let trakt : Observation String ℕ := ⟨"trakt", some 8, some (.naive 7000), none, none, false⟩
    let mdblist : Observation String ℕ :=
      ⟨"mdblist", some 9, none, some (some 6), some (.naive 1000), false⟩
    let simkl : Observation String ℕ := ⟨"simkl", some 5, none, some (some 5), none, false⟩
    let resolved := fun observations ↦
      resolve (some 6) (some (.naive 2000)) observations (some 9000) none
    resolved [mdblist, trakt] = resolved [trakt, mdblist] ∧
      resolved ([trakt] ++ trakt :: [mdblist]) = resolved [trakt, mdblist] ∧
      resolved ([trakt] ++ simkl :: [mdblist]) = resolved [trakt, mdblist] := by
  intro trakt mdblist simkl resolved
  have h := resolve_order_free (some 6) (some (.naive 2000)) (some 9000) [trakt, mdblist]
  exact ⟨h.1 _ (.swap ..), h.2.1 [_] [_] _ rfl (by simp), h.2.2 [_] [_] _ rfl rfl⟩

end AnyList.Reconciliation.Resolve
