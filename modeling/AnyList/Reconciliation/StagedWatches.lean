import AnyList.Reconciliation.Watches
import AnyList.Library.StableSort
import Mathlib

namespace AnyList.Reconciliation.Watches

open AnyList.Timestamps AnyList.Reconciliation.Resolve AnyList.Reconciliation.Sources
open AnyList.Library.StableSort

/-- The duplicate window in minutes; a configured one only ever widens the default. -/
def dedupWindowMinutes (configured : Option Int) : ℕ := (max 5 (configured.getD 0)).toNat

theorem dedupWindowMinutes_ne_zero (configured : Option Int) :
    dedupWindowMinutes configured ≠ 0 := by
  unfold dedupWindowMinutes
  omega

def Apart (window : ℕ) (s t : Int) : Prop := window * 60000000 < (s - t).natAbs

instance (window : ℕ) (s t : Int) : Decidable (Apart window s t) := by
  unfold Apart
  infer_instance

section merge

variable (c : Cycle) (decisions : List (ℕ × Decision Source Bool)) (events : List WatchEvent)

def confirmed : List WatchEvent := c.confirmations.foldl (confirmWatch c decisions) events

/-- The cycle's merge, for staged plays that arrived in any order. -/
def mergeStaged (staged : List (Source × WatchEvent)) : List WatchEvent :=
  let events := confirmed c decisions events
  let times := fun mediaId ↦ (events.filter (·.mediaId = mediaId)).map effectiveTime
  let sorted := staged.insertionSort fun a b ↦ stagedBefore c.startedAt a b
  (sorted.foldl (stageWatch c decisions) (events, times)).1

theorem applyStagedWatches_eq :
    applyStagedWatches c decisions events = mergeStaged c decisions events c.stagedWatches :=
  rfl

/-- Where the sort puts a staged play. -/
def stagedKey (startedAt : Int) (a : Source × WatchEvent) : Bool ×ₗ ℕ ×ₗ Int ×ₗ String :=
  toLex (a.2.dateInferred, toLex (a.2.mediaId, toLex (a.2.watchedAt.getD startedAt,
    sourceKey a.1)))

/-- The time a staged play is compared at, and the time later ones find it at. -/
def checkedTime (event : WatchEvent) : Int := event.watchedAt.getD c.now

def recordedTime (event : WatchEvent) : Int := event.watchedAt.getD c.startedAt

end merge

section order

variable {startedAt : Int} {a b : Source × WatchEvent}

theorem stagedBefore_iff :
    stagedBefore startedAt a b = true ↔ stagedKey startedAt a ≤ stagedKey startedAt b := by
  simp only [stagedBefore, stagedKey, Prod.Lex.toLex_le_toLex]
  by_cases hi : a.2.dateInferred = b.2.dateInferred
  · by_cases hm : a.2.mediaId = b.2.mediaId
    · by_cases ht : a.2.watchedAt.getD startedAt = b.2.watchedAt.getD startedAt
      · simp [hi, hm, ht]
      · simp [hi, hm, ht]
    · simp [hi, hm]
  · cases ha : a.2.dateInferred <;> cases hb : b.2.dateInferred <;> simp_all

instance : Std.Total fun a b : Source × WatchEvent ↦ stagedBefore startedAt a b = true where
  total a b := (le_total (stagedKey startedAt a) (stagedKey startedAt b)).imp
    stagedBefore_iff.mpr stagedBefore_iff.mpr

instance : Std.Refl fun a b : Source × WatchEvent ↦ stagedBefore startedAt a b = true where
  refl _ := stagedBefore_iff.mpr le_rfl

instance : IsTrans (Source × WatchEvent) fun a b ↦ stagedBefore startedAt a b = true where
  trans a b c hab hbc := by
    rw [stagedBefore_iff] at *
    exact hab.trans hbc

/-- Two arrivals of the same plays in which plays of one source, title, date and estimate
keep their order. -/
def Rearranged (startedAt : Int) (staged staged' : List (Source × WatchEvent)) : Prop :=
  staged.Perm staged' ∧ SameTies (fun a b ↦ stagedBefore startedAt a b = true) staged staged'

theorem mergeStaged_eq_of_rearranged {c : Cycle} {decisions : List (ℕ × Decision Source Bool)}
    {events : List WatchEvent} {staged staged' : List (Source × WatchEvent)}
    (h : Rearranged c.startedAt staged staged') :
    mergeStaged c decisions events staged = mergeStaged c decisions events staged' := by
  simp only [mergeStaged, insertionSort_eq_of_sameTies h.2]

end order

theorem apart_of_not_duplicate {times : List Int} {candidate : Int} {window : ℕ}
    (hw : window ≠ 0) (h : isDuplicateWatchTime times candidate window = false) {t : Int}
    (ht : t ∈ times) : Apart window t candidate := by
  simp only [isDuplicateWatchTime, Bool.and_eq_false_iff, decide_eq_false_iff_not,
    List.any_eq_false, decide_eq_true_eq] at h
  obtain h | h := h
  · exact absurd hw h
  · exact Nat.lt_of_not_le (h t ht)

section accepted

variable {c : Cycle}

/-- What the merge promises of a play it accepts beside one accepted earlier. -/
def Separate (c : Cycle) (p q : WatchEvent) : Prop :=
  p.mediaId = q.mediaId →
    Apart c.window (recordedTime c p) (checkedTime c q) ∧ (q.dateInferred → ¬p.completed)

def SeparateFromEvent (c : Cycle) (e q : WatchEvent) : Prop :=
  e.mediaId = q.mediaId →
    Apart c.window (effectiveTime e) (checkedTime c q) ∧ (q.dateInferred → ¬e.completed)

def NoEstimateBeside (p q : WatchEvent) : Prop :=
  p.mediaId = q.mediaId → ¬p.dateInferred → p.completed → ¬q.dateInferred

/-- The state of the merge after some staged plays: the events from before, the accepted
ones and the times of both. -/
structure Merging (c : Cycle) (before accepted : List WatchEvent)
    (state : List WatchEvent × (ℕ → List Int)) : Prop where
  events : state.1 = before ++ accepted
  times : ∀ mediaId, state.2 mediaId =
    (before.filter (·.mediaId = mediaId)).map effectiveTime ++
      (accepted.filter (·.mediaId = mediaId)).map (recordedTime c)
  earlier : ∀ e ∈ before, ∀ q ∈ accepted, SeparateFromEvent c e q
  separate : accepted.Pairwise (Separate c)

/-- A staged play changes nothing, or it is new to its title's events and times. -/
theorem stageWatch_cases (decisions : List (ℕ × Decision Source Bool))
    (state : List WatchEvent × (ℕ → List Int))
    (staged : Source × WatchEvent) :
    stageWatch c decisions state staged = state ∨
      isDuplicateWatchTime (state.2 staged.2.mediaId) (checkedTime c staged.2) c.window = false ∧
      (staged.2.dateInferred → ∀ e ∈ state.1, e.mediaId = staged.2.mediaId → ¬e.completed) ∧
      stageWatch c decisions state staged = (state.1 ++ [staged.2],
        Function.update state.2 staged.2.mediaId
          (state.2 staged.2.mediaId ++ [recordedTime c staged.2])) := by
  obtain ⟨events, times⟩ := state
  simp only [stageWatch]
  split_ifs with hp hd hi hdup
  · exact .inl rfl
  · exact .inl rfl
  · exact .inl rfl
  · exact .inl rfl
  · refine .inr ⟨Bool.eq_false_iff.mpr hdup, fun hinf e he hm hc ↦ hi ⟨hinf, ?_⟩, rfl⟩
    exact List.any_eq_true.mpr ⟨e, he, by simp [hc, hm]⟩

theorem merging_stageWatch (decisions : List (ℕ × Decision Source Bool)) (hw : c.window ≠ 0) {before accepted : List WatchEvent}
    {state : List WatchEvent × (ℕ → List Int)} (h : Merging c before accepted state)
    (staged : Source × WatchEvent) :
    Merging c before accepted (stageWatch c decisions state staged) ∨
      Merging c before (accepted ++ [staged.2]) (stageWatch c decisions state staged) := by
  obtain heq | ⟨hdup, hinf, heq⟩ := stageWatch_cases decisions state staged
  · left
    rwa [heq]
  · right
    have apart : ∀ t ∈ state.2 staged.2.mediaId, Apart c.window t (checkedTime c staged.2) :=
      fun t ht ↦ apart_of_not_duplicate hw hdup ht
    simp only [h.times, List.mem_append] at apart
    rw [h.events] at hinf
    rw [heq]
    refine ⟨by simp [h.events], fun mediaId ↦ ?_, fun e he q hq ↦ ?_, ?_⟩
    · by_cases hm : staged.2.mediaId = mediaId
      · subst hm
        simp [h.times, List.filter_append]
      · simp [Function.update_of_ne (Ne.symm hm), h.times, List.filter_append, hm]
    · obtain hq | hq := List.mem_append.mp hq
      · exact h.earlier e he q hq
      · obtain rfl := List.mem_singleton.mp hq
        intro hm
        refine ⟨apart _ (.inl (List.mem_map_of_mem (List.mem_filter.mpr ⟨he, by simpa using hm⟩))),
          fun hi ↦ hinf hi e (List.mem_append_left accepted he) hm⟩
    · refine List.pairwise_append.mpr ⟨h.separate, List.pairwise_singleton _ _, ?_⟩
      intro p hp q hq hm
      obtain rfl := List.mem_singleton.mp hq
      refine ⟨apart _ (.inr (List.mem_map_of_mem (List.mem_filter.mpr ⟨hp, by simpa using hm⟩))),
        fun hi ↦ hinf hi p (List.mem_append_right before hp) hm⟩

/-- Accepted plays come from the staged ones, in the order these were looked at. -/
theorem exists_merging (decisions : List (ℕ × Decision Source Bool)) (hw : c.window ≠ 0) (sorted : List (Source × WatchEvent))
    {before accepted : List WatchEvent} {state : List WatchEvent × (ℕ → List Int)}
    (h : Merging c before accepted state) :
    ∃ added : List WatchEvent, added.Sublist (sorted.map Prod.snd) ∧
      Merging c before (accepted ++ added) (sorted.foldl (stageWatch c decisions) state) := by
  induction sorted generalizing accepted state with
  | nil => exact ⟨[], .slnil, by simpa using h⟩
  | cons staged sorted ih =>
    obtain hs | hs := merging_stageWatch decisions hw h staged
    · obtain ⟨added, hsub, hm⟩ := ih hs
      exact ⟨added, hsub.cons _, hm⟩
    · obtain ⟨added, hsub, hm⟩ := ih hs
      refine ⟨staged.2 :: added, hsub.cons_cons _, ?_⟩
      simpa using hm

end accepted

theorem pairwise_inferred_sorted (startedAt : Int) (staged : List (Source × WatchEvent)) :
    ((staged.insertionSort fun a b ↦ stagedBefore startedAt a b).map Prod.snd).Pairwise
      fun p q ↦ p.dateInferred → q.dateInferred := by
  rw [List.pairwise_map]
  refine (List.pairwise_insertionSort _ staged).imp fun {a b} hab hp ↦ ?_
  have hle := stagedBefore_iff.mp hab
  simp only [stagedKey, Prod.Lex.toLex_le_toLex, hp] at hle
  cases hb : b.2.dateInferred with
  | false => simp [hb, Bool.lt_iff] at hle
  | true => rfl

/-- The plays that a merge accepts are the same for every arrival order that keeps tied
plays in order, every dated one is outside the window of the other plays of its title, and
no estimate is accepted beside a completed play. -/
theorem staged_watches_merge (c : Cycle) (decisions : List (ℕ × Decision Source Bool))
    (events : List WatchEvent) (configured : Option Int)
    (hw : c.window = dedupWindowMinutes configured) (staged : List (Source × WatchEvent)) :
    ∃ accepted : List WatchEvent,
      (∀ staged', Rearranged c.startedAt staged staged' →
        mergeStaged c decisions events staged' = confirmed c decisions events ++ accepted) ∧
      (∀ p ∈ accepted, p ∈ staged.map Prod.snd) ∧
      (∀ e ∈ confirmed c decisions events, ∀ p ∈ accepted, e.mediaId = p.mediaId →
        (∀ t ∈ p.watchedAt, Apart c.window (effectiveTime e) t) ∧
          (p.dateInferred → ¬e.completed)) ∧
      (accepted.Pairwise fun p q ↦ p.mediaId = q.mediaId →
        (∀ s ∈ p.watchedAt, ∀ t ∈ q.watchedAt, Apart c.window s t) ∧
          (q.dateInferred → ¬p.completed)) ∧
      ∀ p ∈ accepted, ∀ q ∈ accepted, NoEstimateBeside p q := by
  have hw0 : c.window ≠ 0 := by
    rw [hw, dedupWindowMinutes]
    omega
  have hstart : Merging c (confirmed c decisions events) [] (confirmed c decisions events,
      fun mediaId ↦ ((confirmed c decisions events).filter (·.mediaId = mediaId)).map
        effectiveTime) :=
    ⟨by simp, by simp, by simp, .nil⟩
  obtain ⟨accepted, hsub, hm⟩ := exists_merging decisions hw0
    (staged.insertionSort fun a b ↦ stagedBefore c.startedAt a b) hstart
  rw [List.nil_append] at hm
  refine ⟨accepted, fun staged' h ↦ ?_, fun p hp ↦ ?_, fun e he p hp hmedia ↦ ?_, ?_, ?_⟩
  · rw [← mergeStaged_eq_of_rearranged h]
    exact hm.events
  · have hsorted := List.perm_insertionSort
      (fun a b ↦ stagedBefore c.startedAt a b = true) staged
    exact (hsorted.map Prod.snd).mem_iff.mp (hsub.subset hp)
  · obtain ⟨hapart, hinf⟩ := hm.earlier e he p hp hmedia
    refine ⟨fun t ht ↦ ?_, hinf⟩
    simpa [checkedTime, Option.mem_def.mp ht] using hapart
  · refine hm.separate.imp fun {p q} hpq hmedia ↦ ?_
    obtain ⟨hapart, hinf⟩ := hpq hmedia
    refine ⟨fun s hs t ht ↦ ?_, hinf⟩
    simpa [recordedTime, checkedTime, Option.mem_def.mp hs, Option.mem_def.mp ht] using hapart
  · have hboth := hm.separate.and ((pairwise_inferred_sorted c.startedAt staged).sublist hsub)
    have hsymm : Std.Symm fun p q ↦ NoEstimateBeside p q ∧ NoEstimateBeside q p :=
      ⟨fun _ _ h ↦ h.symm⟩
    have hself (p : WatchEvent) : NoEstimateBeside p p := fun _ hi _ ↦ hi
    have hpair : accepted.Pairwise fun p q ↦ NoEstimateBeside p q ∧ NoEstimateBeside q p := by
      refine hboth.imp fun {p q} h ↦ ⟨fun hmedia _ hc hi ↦ ?_, fun _ hq _ hp ↦ hq (h.2 hp)⟩
      exact (h.1 hmedia).2 hi hc
    exact fun p hp q hq ↦
      (List.Pairwise.forall_of_forall (fun p _ ↦ ⟨hself p, hself p⟩) hpair hp hq).1

/-- A cycle that ran for ten minutes and decided that film 1 is watched. -/
def tenMinutes : Cycle where
  startedAt := 0
  now := 600000000
  catalogue := ⟨id, fun _ ↦ none, fun _ ↦ 0⟩
  pulls := []
  snapshots := []
  confirmations := []
  isProtected := fun _ ↦ false
  window := 5

def filmIsWatched : List (ℕ × Decision Source Bool) :=
  [(1, ⟨some true, {.cloud "trakt"}, none, false, false⟩)]

def finished : Source × WatchEvent := (.cloud "trakt", ⟨1, 1, some 5000, 0, true, false, false⟩)

def unfinished : Source × WatchEvent := (.cloud "trakt", ⟨2, 1, some 5000, 0, false, false, false⟩)

def undated (source : String) : Source × WatchEvent :=
  (.cloud source, ⟨3, 1, none, 0, true, false, false⟩)

theorem staged_watches_merge_film :
    ∃ accepted : List WatchEvent,
      (∀ staged', Rearranged 0 [finished, unfinished] staged' →
        mergeStaged tenMinutes filmIsWatched [] staged' =
          confirmed tenMinutes filmIsWatched [] ++ accepted) := by
  obtain ⟨accepted, h, -⟩ := staged_watches_merge tenMinutes filmIsWatched [] none rfl
    [finished, unfinished]
  exact ⟨accepted, h⟩

/-- Of two plays of one source at one time the first to arrive is kept, finished or not,
and two plays without a date are both kept in a long cycle. -/
theorem tied_plays_follow_arrival :
    (mergeStaged tenMinutes filmIsWatched [] [finished, unfinished]).map WatchEvent.completed =
        [true] ∧
      (mergeStaged tenMinutes filmIsWatched [] [unfinished, finished]).map WatchEvent.completed =
        [false] ∧
      (mergeStaged tenMinutes filmIsWatched [] [undated "simkl", undated "trakt"]).map
        (recordedTime tenMinutes) = [0, 0] := by
  decide +kernel

end AnyList.Reconciliation.Watches
