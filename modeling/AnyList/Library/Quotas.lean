import Mathlib.Data.List.Basic
import Mathlib.Data.List.Induction
import Mathlib.Data.List.Sort
import Mathlib.Order.Basic

namespace AnyList.Library.Quotas

variable {α γ : Type*} [DecidableEq γ]

/-- Who is taken so far, and how many of each group. -/
structure Taken (α γ : Type*) where
  members : List α
  counts : γ → ℕ

def none : Taken α γ := ⟨[], fun _ ↦ 0⟩

/-- The next one is taken unless its group or the whole is filled. -/
def takeNext (group : α → γ) (limit : γ → ℕ) (total : ℕ) (s : Taken α γ) (a : α) : Taken α γ :=
  if limit (group a) ≤ s.counts (group a) ∨ total ≤ s.members.length then s
  else ⟨s.members ++ [a], Function.update s.counts (group a) (s.counts (group a) + 1)⟩

def takeAll (group : α → γ) (limit : γ → ℕ) (total : ℕ) (l : List α) : Taken α γ :=
  l.foldl (takeNext group limit total) none

/-- `s` is taken of `l` within the limits, and who is left out of it finds its group or the whole
filled with others that `better` places before it. -/
structure Fills (group : α → γ) (limit : γ → ℕ) (total : ℕ) (better : α → α → Bool) (l : List α)
    (s : Taken α γ) : Prop where
  sublist : s.members.Sublist l
  counts : ∀ g, s.counts g = (s.members.filter fun a ↦ group a = g).length
  length_le : s.members.length ≤ total
  group_le : ∀ g, (s.members.filter fun a ↦ group a = g).length ≤ limit g
  dropped : ∀ a ∈ l, a ∉ s.members →
    total ≤ (s.members.filter fun b ↦ better b a).length ∨
      limit (group a) ≤ (s.members.filter fun b ↦ decide (group b = group a) && better b a).length

variable {group : α → γ} {limit : γ → ℕ} {total : ℕ} {better : α → α → Bool} {l : List α}
  {s : Taken α γ} {a : α}

theorem fills_none : Fills group limit total better [] none where
  sublist := List.Sublist.refl []
  counts _ := rfl
  length_le := Nat.zero_le total
  group_le g := Nat.zero_le (limit g)
  dropped _ ha := absurd ha List.not_mem_nil

theorem Fills.takeNext (h : Fills group limit total better l s)
    (hlast : ∀ b ∈ l, better b a = true) :
    Fills group limit total better (l ++ [a]) (takeNext group limit total s a) := by
  rw [Quotas.takeNext]
  split_ifs with hfull
  · refine ⟨h.sublist.trans (List.sublist_append_left l [a]), h.counts, h.length_le, h.group_le, ?_⟩
    intro b hb hnot
    obtain hold | hnew := List.mem_append.mp hb
    · exact h.dropped b hold hnot
    · obtain rfl := List.mem_singleton.mp hnew
      have hall : ∀ c ∈ s.members, better c b = true := fun c hc ↦ hlast c (h.sublist.subset hc)
      obtain hgroup | htotal := hfull
      · right
        rw [h.counts] at hgroup
        rwa [List.filter_congr fun c hc ↦ by rw [hall c hc, Bool.and_true]]
      · left
        rwa [List.filter_eq_self.mpr hall]
  · obtain ⟨hgroup, htotal⟩ := not_or.mp hfull
    rw [h.counts] at hgroup
    have hmore : s.members.Sublist (s.members ++ [a]) := List.sublist_append_left _ [a]
    refine ⟨h.sublist.append_right [a], ?_, ?_, ?_, ?_⟩
    · intro g
      dsimp only
      rw [Function.update_apply, List.filter_append, List.length_append, ← h.counts, h.counts]
      by_cases hg : g = group a
      · simp [hg, h.counts]
      · simp [hg, Ne.symm hg]
    · rw [List.length_append, List.length_singleton]
      omega
    · intro g
      rw [List.filter_append, List.length_append]
      have hle := h.group_le g
      by_cases hg : group a = g
      · subst hg
        simp only [decide_true, List.filter_cons_of_pos, List.filter_nil, List.length_singleton]
        omega
      · simpa [hg] using hle
    · intro b hb hnot
      have hold : b ∈ l := by
        obtain hold | hnew := List.mem_append.mp hb
        · exact hold
        · exact absurd (List.mem_append_right _ hnew) hnot
      have hnot' : b ∉ s.members := fun hmem ↦ hnot (List.mem_append_left _ hmem)
      refine (h.dropped b hold hnot').imp ?_ ?_
      · exact fun hle ↦ hle.trans (hmore.filter _).length_le
      · exact fun hle ↦ hle.trans (hmore.filter _).length_le

theorem fills_takeAll (h : l.Pairwise fun b a ↦ better b a = true) :
    Fills group limit total better l (takeAll group limit total l) := by
  induction l using List.reverseRecOn with
  | nil => exact fills_none
  | append_singleton l a ih =>
    obtain ⟨hl, -, hlast⟩ := List.pairwise_append.mp h
    rw [takeAll, List.foldl_append, List.foldl_cons, List.foldl_nil, ← takeAll]
    exact (ih hl).takeNext fun b hb ↦ hlast b hb a (List.mem_singleton_self a)

end AnyList.Library.Quotas

namespace AnyList.Library.Tally

variable {period : ℕ → ℕ} {times : List ℕ} {current : Option ℕ} {count now limit : ℕ}

/-- A counter of the times in the current period, which is the last of them. -/
structure Tallies (period : ℕ → ℕ) (times : List ℕ) (current : Option ℕ) (count : ℕ) : Prop where
  within : ∀ time ∈ times, ∃ p, current = some p ∧ period time ≤ p
  counted : ∀ p, current = some p → times.countP (fun time ↦ decide (period time = p)) ≤ count

/-- The counter of the period of a time, which starts again in a new period. -/
def roll (period : ℕ → ℕ) (now : ℕ) (current : Option ℕ) (count : ℕ) : ℕ :=
  if current = some (period now) then count else 0

theorem tallies_nil : Tallies period [] none 0 :=
  ⟨fun _ ht ↦ absurd ht List.not_mem_nil, fun _ hp ↦ by cases hp⟩

theorem Tallies.countP_le_roll (h : Tallies period times current count)
    (hnow : ∀ p, current = some p → p ≤ period now) :
    times.countP (fun time ↦ decide (period time = period now)) ≤
      roll period now current count := by
  rw [roll]
  split_ifs with hcurrent
  · exact h.counted _ hcurrent
  · refine Nat.le_of_eq (List.countP_eq_zero.mpr fun time ht hsame ↦ hcurrent ?_)
    obtain ⟨p, hp, hle⟩ := h.within time ht
    have hge := hnow p hp
    rw [hp, Nat.le_antisymm hge (of_decide_eq_true hsame ▸ hle)]

theorem Tallies.cons (h : Tallies period times current count)
    (hnow : ∀ p, current = some p → p ≤ period now) :
    Tallies period (now :: times) (some (period now)) (roll period now current count + 1) := by
  refine ⟨fun time ht ↦ ⟨period now, rfl, ?_⟩, fun p hp ↦ ?_⟩
  · rcases List.mem_cons.mp ht with rfl | ht
    · exact Nat.le_refl _
    · obtain ⟨p, hp, hle⟩ := h.within time ht
      exact Nat.le_trans hle (hnow p hp)
  · obtain rfl := Option.some.inj hp
    rw [List.countP_cons_of_pos (p := fun time ↦ decide (period time = period now)) (by simp)]
    exact Nat.succ_le_succ (h.countP_le_roll hnow)

/-- No period has more times than the limit if its counter is checked before. -/
theorem Tallies.countP_cons_le (h : Tallies period times current count)
    (hnow : ∀ p, current = some p → p ≤ period now) (hroom : roll period now current count < limit)
    (hlimit : ∀ p, times.countP (fun time ↦ decide (period time = p)) ≤ limit) (p : ℕ) :
    (now :: times).countP (fun time ↦ decide (period time = p)) ≤ limit := by
  by_cases hp : period now = p
  · subst hp
    rw [List.countP_cons_of_pos (p := fun time ↦ decide (period time = period now)) (by simp)]
    exact Nat.lt_of_le_of_lt (h.countP_le_roll hnow) hroom
  · rw [List.countP_cons_of_neg (by simpa using hp)]
    exact hlimit p

end AnyList.Library.Tally
