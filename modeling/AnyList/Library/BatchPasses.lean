import Mathlib.Algebra.BigOperators.Group.Finset.Piecewise
import Mathlib.Algebra.Order.BigOperators.Group.Finset
import Mathlib.Data.Finset.Card
import Mathlib.Data.List.Sort

namespace AnyList.Library.BatchPasses

section batch

variable {ρ κ : Type*} [LinearOrder κ] {key : ρ → κ} {limit : ℕ} {rows : List ρ} {r r' : ρ}

/-- The first rows by their keys. -/
def batch (key : ρ → κ) (limit : ℕ) (rows : List ρ) : List ρ :=
  (rows.insertionSort fun a b ↦ key a ≤ key b).take limit

theorem mem_of_mem_batch (h : r ∈ batch key limit rows) : r ∈ rows :=
  (List.perm_insertionSort _ rows).mem_iff.mp (List.mem_of_mem_take h)

theorem nodup_batch (h : rows.Nodup) : (batch key limit rows).Nodup :=
  ((List.perm_insertionSort _ rows).nodup_iff.mpr h).sublist (List.take_sublist _ _)

theorem length_batch_le : (batch key limit rows).length ≤ limit := List.length_take_le _ _

theorem map_batch : (batch key limit rows).map key = batch id limit (rows.map key) := by
  rw [batch, batch, List.map_take]
  exact congrArg (List.take limit)
    (List.map_insertionSort _ _ key rows fun a _ b _ ↦ Iff.rfl)

/-- A batch that leaves a row out is full, and takes no later row. -/
theorem length_batch (hr : r ∈ rows) (hnot : r ∉ batch key limit rows) :
    (batch key limit rows).length = limit := by
  rw [batch, List.length_take, min_eq_left_iff]
  by_contra hlt
  apply hnot
  rw [batch, List.take_of_length_le (Nat.le_of_lt (not_le.mp hlt))]
  exact (List.perm_insertionSort _ rows).mem_iff.mpr hr

theorem key_le_of_mem_batch (hr : r ∈ rows) (hnot : r ∉ batch key limit rows)
    (hr' : r' ∈ batch key limit rows) : key r' ≤ key r := by
  have hsorted : (rows.insertionSort fun a b ↦ key a ≤ key b).Pairwise fun a b ↦ key a ≤ key b := by
    have : Std.Total fun a b : ρ ↦ key a ≤ key b := ⟨fun a b ↦ le_total _ _⟩
    have : IsTrans ρ fun a b ↦ key a ≤ key b := ⟨fun _ _ _ ↦ le_trans⟩
    exact List.pairwise_insertionSort _ rows
  have hmem := (List.perm_insertionSort (fun a b ↦ key a ≤ key b) rows).mem_iff.mpr hr
  rw [← List.take_append_drop limit (rows.insertionSort _)] at hmem hsorted
  obtain hmem | hmem := List.mem_append.mp hmem
  · exact absurd hmem hnot
  · exact (List.pairwise_append.mp hsorted).2.2 r' hr' r hmem

end batch

section passes

variable {ι : Type*} [DecidableEq ι] {taken : ℕ → Finset ι} {credit : ℕ → ι → ℕ}
  {rows blocked : Finset ι} {limit p : ℕ} {i : ι}

/-- Where every pass that leaves a row out is full and uses up the credit of what it takes, blocked
rows apart, the row is reached before the credit is spent. -/
theorem exists_taken (limit : ℕ) (rows blocked : Finset ι) (credit : ℕ → ι → ℕ)
    (hrows : ∀ n < p, taken n ⊆ rows)
    (hpass : ∀ n < p, (∀ m ≤ n, i ∉ taken m) → limit ≤ (taken n).card ∧
      ∀ j ∈ taken n, j ∉ blocked → credit (n + 1) j < credit n j)
    (hkeep : ∀ n < p, ∀ j, credit (n + 1) j ≤ credit n j)
    (hp : ∑ j ∈ (rows \ blocked).erase i, credit 0 j < p * (limit - blocked.card)) :
    ∃ n < p, i ∈ taken n := by
  by_contra hnever
  have hnot (n : ℕ) (hn : n < p) : i ∉ taken n := fun hmem ↦ hnever ⟨n, hn, hmem⟩
  have hspent (n : ℕ) (hn : n < p) : limit - blocked.card +
      ∑ j ∈ (rows \ blocked).erase i, credit (n + 1) j ≤
        ∑ j ∈ (rows \ blocked).erase i, credit n j := by
    obtain ⟨hfull, hdrop⟩ := hpass n hn fun m hm ↦ hnot m (Nat.lt_of_le_of_lt hm hn)
    have hcard : limit - blocked.card ≤ (taken n \ blocked).card :=
      (Nat.sub_le_sub_right hfull _).trans (Finset.le_card_sdiff _ _)
    have hsub : taken n \ blocked ⊆ (rows \ blocked).erase i := by
      intro j hj
      obtain ⟨hmem, hfree⟩ := Finset.mem_sdiff.mp hj
      refine Finset.mem_erase.mpr ⟨?_, Finset.mem_sdiff.mpr ⟨hrows n hn hmem, hfree⟩⟩
      rintro rfl
      exact hnot n hn hmem
    have hones : (taken n \ blocked).card =
        ∑ j ∈ (rows \ blocked).erase i, if j ∈ taken n \ blocked then 1 else 0 := by
      rw [← Finset.card_filter, Finset.filter_mem_eq_inter, Finset.inter_eq_right.mpr hsub]
    refine (Nat.add_le_add_right (hcard.trans hones.le) _).trans ?_
    rw [← Finset.sum_add_distrib]
    refine Finset.sum_le_sum fun j _ ↦ ?_
    split_ifs with hj
    · obtain ⟨hmem, hfree⟩ := Finset.mem_sdiff.mp hj
      have := hdrop j hmem hfree
      omega
    · have := hkeep n hn j
      omega
  have hall (n : ℕ) (hn : n ≤ p) : n * (limit - blocked.card) +
      ∑ j ∈ (rows \ blocked).erase i, credit n j ≤
        ∑ j ∈ (rows \ blocked).erase i, credit 0 j := by
    induction n with
    | zero => simp
    | succ n ih =>
      have hih := ih (Nat.le_of_succ_le hn)
      have hstep := hspent n hn
      rw [Nat.succ_mul]
      omega
  have hlast := hall p le_rfl
  omega

end passes

section workOff

variable {limit n i : ℕ} {leaves : ℕ → Bool} {q : List ℕ}

/-- One pass over a queue in the order of its ids: of the batch, what can leave leaves. -/
def workOff (limit : ℕ) (leaves : ℕ → Bool) (q : List ℕ) : List ℕ :=
  q.filter fun i ↦ !(decide (i ∈ batch id limit q) && leaves i)

/-- The queue after so many passes. -/
def worked (limit : ℕ) (leaves : ℕ → Bool) (q : List ℕ) : ℕ → List ℕ
  | 0 => q
  | n + 1 => workOff limit leaves (worked limit leaves q n)

/-- What stands before an entry, of which some can leave. -/
def before (q : List ℕ) (p : ℕ → Bool) (i : ℕ) : Finset ℕ :=
  q.toFinset.filter fun j ↦ j < i ∧ p j = true

theorem mem_workOff : i ∈ workOff limit leaves q ↔
    i ∈ q ∧ ¬(i ∈ batch id limit q ∧ leaves i = true) := by
  simp only [workOff, List.mem_filter, Bool.not_eq_true', Bool.and_eq_false_iff,
    decide_eq_false_iff_not, not_and_or, Bool.not_eq_true]

theorem worked_subset : ∀ n, worked limit leaves q n ⊆ q
  | 0 => List.Subset.refl q
  | n + 1 => fun _ hj ↦ worked_subset n (mem_workOff.mp hj).1

theorem nodup_worked (h : q.Nodup) : ∀ n, (worked limit leaves q n).Nodup
  | 0 => h
  | n + 1 => (nodup_worked h n).filter _

/-- What cannot leave stays, and so does what no batch has reached. -/
theorem mem_worked (hi : i ∈ q) (hstays : leaves i = false ∨
    ∀ m < n, i ∉ batch id limit (worked limit leaves q m)) : i ∈ worked limit leaves q n := by
  induction n with
  | zero => exact hi
  | succ n ih =>
    refine mem_workOff.mpr ⟨ih (hstays.imp_right fun h m hm ↦ h m (by omega)), ?_⟩
    rintro ⟨hbatch, hleaves⟩
    obtain hstays | hstays := hstays
    · rw [hstays] at hleaves
      cases hleaves
    · exact hstays n (Nat.lt_succ_self n) hbatch

/-- The passes after which an entry is reached, where the entries before it that cannot leave do not
fill a batch. -/
theorem exists_reached (hq : q.Nodup) (hi : i ∈ q)
    (hfew : (before q (fun j ↦ !leaves j) i).card < limit) :
    ∃ n ≤ (before q leaves i).card / (limit - (before q (fun j ↦ !leaves j) i).card),
      i ∈ batch id limit (worked limit leaves q n) := by
  set stuck := before q (fun j ↦ !leaves j) i with hstuck
  have hpos : 0 < limit - stuck.card := by omega
  have hmem (n : ℕ) (hnever : ∀ m ≤ n, i ∉ (batch id limit (worked limit leaves q m)).toFinset) :
      i ∈ worked limit leaves q n ∧ i ∉ batch id limit (worked limit leaves q n) := by
    simp only [List.mem_toFinset] at hnever
    exact ⟨mem_worked hi (.inr fun m hm ↦ hnever m hm.le), hnever n le_rfl⟩
  have htaken : ∃ n < (before q leaves i).card / (limit - stuck.card) + 1,
      i ∈ (batch id limit (worked limit leaves q n)).toFinset := by
    refine exists_taken limit q.toFinset stuck
      (fun n j ↦ if j ∈ worked limit leaves q n ∧ j < i ∧ leaves j = true then 1 else 0)
      ?_ ?_ ?_ ?_
    · intro n _ j hj
      rw [List.mem_toFinset] at hj ⊢
      exact worked_subset n (mem_of_mem_batch hj)
    · intro n _ hnever
      obtain ⟨hstands, hnot⟩ := hmem n hnever
      refine ⟨?_, fun j hj hfree ↦ ?_⟩
      · rw [List.toFinset_card_of_nodup (nodup_batch (nodup_worked hq n)),
          length_batch hstands hnot]
      · rw [List.mem_toFinset] at hj
        have hjq := mem_of_mem_batch hj
        have hne : j ≠ i := fun h ↦ hnot (h ▸ hj)
        have hlt : j < i := lt_of_le_of_ne (key_le_of_mem_batch hstands hnot hj) hne
        have hleaves : leaves j = true := by
          by_contra h
          exact hfree (Finset.mem_filter.mpr ⟨List.mem_toFinset.mpr (worked_subset n hjq), hlt,
            by simpa using h⟩)
        have hgone : j ∉ worked limit leaves q (n + 1) := fun h ↦ (mem_workOff.mp h).2 ⟨hj, hleaves⟩
        simp [hgone, hjq, hlt, hleaves]
    · intro n _ j
      split_ifs with hlater hnow
      · exact le_rfl
      · exact absurd ⟨(mem_workOff.mp hlater.1).1, hlater.2⟩ hnow
      · exact Nat.zero_le _
      · exact le_rfl
    · rw [← Finset.card_filter]
      have hsub : ((q.toFinset \ stuck).erase i).filter
          (fun j ↦ j ∈ worked limit leaves q 0 ∧ j < i ∧ leaves j = true) ⊆ before q leaves i := by
        intro j hj
        obtain ⟨-, hj0, hrest⟩ := Finset.mem_filter.mp hj
        exact Finset.mem_filter.mpr ⟨List.mem_toFinset.mpr hj0, hrest⟩
      refine (Finset.card_le_card hsub).trans_lt ?_
      rw [mul_comm]
      exact Nat.lt_mul_div_succ _ hpos
  obtain ⟨n, hn, hbatch⟩ := htaken
  exact ⟨n, Nat.le_of_lt_succ hn, List.mem_toFinset.mp hbatch⟩

/-- An entry that can leave is reached exactly when the entries before it that cannot leave do not
fill a batch, and then before long. -/
theorem reached_iff (hq : q.Nodup) (hi : i ∈ q) :
    (∃ n, i ∈ batch id limit (worked limit leaves q n)) ↔
      (before q (fun j ↦ !leaves j) i).card < limit := by
  constructor
  · rintro ⟨n, hn⟩
    have hstuck : insert i (before q (fun j ↦ !leaves j) i) ⊆
        (batch id limit (worked limit leaves q n)).toFinset := by
      intro j hj
      rw [List.mem_toFinset]
      obtain rfl | hj := Finset.mem_insert.mp hj
      · exact hn
      · obtain ⟨hmem, hlt, hstays⟩ := Finset.mem_filter.mp hj
        by_contra hnot
        have hj' : j ∈ worked limit leaves q n :=
          mem_worked (List.mem_toFinset.mp hmem) (.inl (by simpa using hstays))
        exact absurd (key_le_of_mem_batch hj' hnot hn) (not_le.mpr hlt)
    have hnot : i ∉ before q (fun j ↦ !leaves j) i := fun h ↦
      absurd (Finset.mem_filter.mp h).2.1 (lt_irrefl i)
    have hcard := (Finset.card_le_card hstuck).trans (List.toFinset_card_le _)
    rw [Finset.card_insert_of_notMem hnot] at hcard
    exact (Nat.lt_of_succ_le hcard).trans_le length_batch_le
  · intro hfew
    obtain ⟨n, -, hn⟩ := exists_reached hq hi hfew
    exact ⟨n, hn⟩

end workOff

end AnyList.Library.BatchPasses
