import AnyList.Backup.HistoryFiles

namespace AnyList.Backup

open AnyList.Timestamps AnyList.Imports AnyList.Library
open AnyList.Reconciliation.Watches (isDuplicateWatchTime Apart)

/-- What a backup says of a play: its date to the second and whether it is an estimate. -/
abbrev Record := Option Int × Bool

def record (play : Play) : Record := (play.watchedAt.map toSecond, play.dateInferred)

namespace Record

variable (now : Int)

def date (r : Record) : Int := r.1.getD (milliseconds now)

def isEstimate (r : Record) : Bool := r.2 || r.1.isNone

def play (r : Record) : Play := restoredPlay now r.1 r.2

end Record

section title

variable (window : ℕ) (now : Int)

def importRecord (s : TitleState) (r : Record) : TitleState := importPlay window now s r.1 r.2

/-- Everything of a list was added. -/
def added (records : List Record) : TitleState :=
  ⟨records.map (Record.play now), records.map (Record.date now)⟩

/-- A record is added after the ones before it: no other play is near it, and an exact date does not
find a single estimate. -/
def Addable (before : List Record) (r : Record) : Prop :=
  isDuplicatePlay window (before.map (Record.date now)) r.1 = false ∧
    (r.isEstimate = false → (before.filter Record.isEstimate).length ≠ 1)

variable {window now} {s : TitleState} {before : List Record} {r : Record}

theorem length_reconcile {plays plays' : List Play} {t : Int} {authoritative : Bool}
    (h : reconcileInferredWatchDate plays t authoritative = some plays') :
    plays'.length = plays.length := by
  unfold reconcileInferredWatchDate at h
  simp only at h
  split at h
  · exact absurd h (by simp)
  · split at h
    · split_ifs at h <;> obtain rfl := Option.some.inj h <;> simp
    · exact absurd h (by simp)

theorem length_addPlay (watchedAt : Option Int) (inferred : Bool) :
    (addPlay window now s watchedAt inferred).plays.length ≤ s.plays.length + 1 := by
  unfold addPlay
  split <;> simp

theorem length_importRecord : (importRecord window now s r).plays.length ≤ s.plays.length + 1 := by
  unfold importRecord importPlay
  split
  · split
    · next h => simp [length_reconcile h]
    · exact length_addPlay _ _
  · exact length_addPlay _ _

theorem addPlay_added (h : isDuplicatePlay window (before.map (Record.date now)) r.1 = false) :
    addPlay window now (added now before) r.1 r.2 = added now (before ++ [r]) := by
  simp [addPlay, added, h, Record.play, Record.date]

theorem addPlay_of_duplicate (later : Int)
    (h : isDuplicatePlay window (before.map (Record.date now)) r.1 = true) :
    addPlay window later (added now before) r.1 r.2 = added now before := by
  simp [addPlay, added, h]

theorem length_replaceable :
    ((added now before).plays.filter Play.isReplaceable).length =
      (before.filter Record.isEstimate).length := by
  have hcomp : Play.isReplaceable ∘ Record.play now = Record.isEstimate := by
    funext r
    simp [Play.isReplaceable, Record.play, restoredPlay, Record.isEstimate]
  rw [added, List.filter_map, List.length_map, hcomp]

theorem reconcile_of_length_ne_one {plays : List Play} {t : Int} {authoritative : Bool}
    (h : (plays.filter Play.isReplaceable).length ≠ 1) :
    reconcileInferredWatchDate plays t authoritative = none := by
  unfold reconcileInferredWatchDate
  simp only
  split
  · rfl
  · split
    · next hone => simp [hone] at h
    · rfl

/-- A sole estimate takes an exact date, unless a confident play at that very date is there. -/
theorem isSome_reconcile {plays : List Play} {t : Int} (authoritative : Bool)
    (h : (plays.filter Play.isReplaceable).length = 1)
    (hconfident : (plays.any fun p ↦ p.isConfident && decide (p.watchedAt = some (milliseconds t))) =
      false) : (reconcileInferredWatchDate plays t authoritative).isSome = true := by
  obtain ⟨candidate, hcandidate⟩ := List.length_eq_one_iff.mp h
  have hmem : candidate ∈ plays.filter Play.isReplaceable := by simp [hcandidate]
  have hreplaceable := (List.mem_filter.mp hmem).2
  have hreplaced : (replaceInferredWatchDate candidate (some (milliseconds t)) false).2 = true := by
    unfold Play.isReplaceable at hreplaceable
    unfold replaceInferredWatchDate
    simp only [Option.map_some]
    split_ifs with hfirst hsecond
    · simp_all
    · exact absurd hsecond.1 (by simp)
    · rfl
  unfold reconcileInferredWatchDate
  simp only [hconfident, hcandidate, hreplaced]
  split_ifs <;> simp_all

theorem importRecord_of_inferred (h : r.isEstimate = true) :
    importRecord window now s r = addPlay window now s r.1 r.2 := by
  obtain ⟨watchedAt, inferred⟩ := r
  cases watchedAt <;> cases inferred <;> simp_all [importRecord, importPlay, Record.isEstimate]

theorem importRecord_added (h : Addable window now before r) :
    importRecord window now (added now before) r = added now (before ++ [r]) := by
  cases hestimate : r.isEstimate with
  | true => rw [importRecord_of_inferred hestimate, addPlay_added h.1]
  | false =>
    have hnone : ∀ t, reconcileInferredWatchDate (added now before).plays t false = none := by
      intro t
      apply reconcile_of_length_ne_one
      rw [length_replaceable]
      exact h.2 hestimate
    have hadd := addPlay_added h.1
    obtain ⟨_ | t, _ | _⟩ := r <;> simp_all [importRecord, importPlay, Record.isEstimate]

theorem isDuplicate_of_confident {t : Int} (hwindow : window ≠ 0)
    (h : ((added now before).plays.any fun p ↦
      p.isConfident && decide (p.watchedAt = some (milliseconds t))) = true) :
    isDuplicatePlay window (before.map (Record.date now)) (some t) = true := by
  obtain ⟨p, hp, hplay⟩ := List.any_eq_true.mp h
  obtain ⟨r, hr, rfl⟩ := List.mem_map.mp hp
  rw [Bool.and_eq_true, decide_eq_true_eq] at hplay
  have hdate : r.date now = milliseconds t := Option.some.inj hplay.2
  have hnear : (r.date now - t).natAbs ≤ window * 60000000 := by
    have hle := milliseconds_le t
    have hlt := lt_milliseconds_add t
    rw [hdate]
    omega
  simp only [isDuplicatePlay, isDuplicateWatchTime, Bool.and_eq_true, decide_eq_true_eq,
    List.any_eq_true, List.mem_map]
  exact ⟨hwindow, _, ⟨r, hr, rfl⟩, hnear⟩

/-- Whatever is not added leaves a title with as many plays as it had. -/
theorem length_importRecord_of_not_addable (hwindow : window ≠ 0)
    (h : ¬Addable window now before r) :
    (importRecord window now (added now before) r).plays.length = before.length := by
  have hlength : (added now before).plays.length = before.length := by simp [added]
  by_cases hduplicate : isDuplicatePlay window (before.map (Record.date now)) r.1 = true
  · have hkept := addPlay_of_duplicate now hduplicate
    unfold importRecord importPlay
    split
    · next t hdate hexact =>
      split
      · next plays hplays => rw [length_reconcile hplays, hlength]
      · rw [← hdate, ← hexact, hkept, hlength]
    · next hdate hexact => rw [hkept, hlength]
  · have hexact : r.isEstimate = false ∧ (before.filter Record.isEstimate).length = 1 := by
      simp only [Addable, Bool.not_eq_true] at h hduplicate
      by_contra hnot
      exact h ⟨hduplicate, fun hestimate hone ↦ hnot ⟨hestimate, hone⟩⟩
    obtain ⟨_ | t, _ | _⟩ := r
    · simp [Record.isEstimate] at hexact
    · simp [Record.isEstimate] at hexact
    · have hconfident : ((added now before).plays.any fun p ↦
          p.isConfident && decide (p.watchedAt = some (milliseconds t))) = false := by
        by_contra hsome
        exact hduplicate (isDuplicate_of_confident hwindow (by simpa using hsome))
      have hsome := isSome_reconcile false
        (length_replaceable.trans hexact.2) hconfident
      obtain ⟨plays, hplays⟩ := Option.isSome_iff_exists.mp hsome
      simp only [importRecord, importPlay, hplays]
      rw [length_reconcile hplays, hlength]
    · simp [Record.isEstimate] at hexact

end title

section run

variable (window : ℕ) (now : Int)

def AllAdded (records : List Record) : Prop :=
  ∀ before r after, records = before ++ r :: after → Addable window now before r

/-- The records that a backup restores one by one: they are dated, their dates lie further apart
than the window, and none that is exact follows exactly one estimate. -/
structure Restorable (records : List Record) : Prop where
  dated : ∀ r ∈ records, r.1 ≠ none
  apart : (records.filterMap Prod.fst).Pairwise (Apart window)
  estimates : ∀ before r after, records = before ++ r :: after → r.2 = false →
    (before.filter Prod.snd).length ≠ 1

variable {window now} {later : Int} {records : List Record} {r : Record}

theorem forall_split_append {α : Type} {P : List α → α → Prop} {items : List α} {a : α} :
    (∀ before b after, items ++ [a] = before ++ b :: after → P before b) ↔
      (∀ before b after, items = before ++ b :: after → P before b) ∧ P items a := by
  constructor
  · intro h
    refine ⟨fun before b after hitems ↦ h before b (after ++ [a]) (by simp [hitems]), ?_⟩
    exact h items a [] rfl
  · rintro ⟨hitems, ha⟩ before b after h
    rcases List.eq_nil_or_concat after with rfl | ⟨rest, last, rfl⟩
    · obtain ⟨rfl, hlast⟩ := List.append_inj' h rfl
      obtain rfl := List.head_eq_of_cons_eq hlast
      exact ha
    · have happend : items ++ [a] = (before ++ b :: rest) ++ [last] := by simpa using h
      exact hitems before b rest (List.append_inj' happend rfl).1

theorem allAdded_append :
    AllAdded window now (records ++ [r]) ↔
      AllAdded window now records ∧ Addable window now records r :=
  forall_split_append

@[simp] theorem load_added : TitleState.load (added now records).plays = added now records := by
  rw [added, TitleState.load, List.map_map]
  rfl

theorem dated_importRecord {s : TitleState} (hs : ∀ play ∈ s.plays, play.watchedAt ≠ none) :
    ∀ play ∈ (importRecord window now s r).plays, play.watchedAt ≠ none := by
  have hadd : ∀ watchedAt inferred,
      ∀ play ∈ (addPlay window now s watchedAt inferred).plays, play.watchedAt ≠ none := by
    intro watchedAt inferred play hplay
    unfold addPlay at hplay
    split at hplay
    · exact hs play hplay
    · rcases List.mem_append.mp hplay with hplay | hplay
      · exact hs play hplay
      · rw [List.mem_singleton.mp hplay]
        simp [restoredPlay]
  have hreplace : ∀ play ∈ s.plays, ∀ t inferred,
      (replaceInferredWatchDate play (some t) inferred).1.watchedAt ≠ none := by
    intro play hplay t inferred
    unfold replaceInferredWatchDate
    simp only [Option.map_some]
    split_ifs
    · exact hs play hplay
    · exact hs play hplay
    · simp
  have hreconcile : ∀ t plays, reconcileInferredWatchDate s.plays t false = some plays →
      ∀ play ∈ plays, play.watchedAt ≠ none := by
    intro t plays h play hplay
    unfold reconcileInferredWatchDate at h
    simp only at h
    split at h
    · exact absurd h (by simp)
    · split at h
      · split_ifs at h <;> obtain rfl := Option.some.inj h
        · exact hs play hplay
        · exact hs play hplay
        · obtain ⟨p, hp, rfl⟩ := List.mem_map.mp hplay
          split
          · exact hreplace p hp _ _
          · exact hs p hp
      · exact absurd h (by simp)
  unfold importRecord importPlay
  split
  · split
    · next h => exact hreconcile _ _ h
    · exact hadd _ _
  · exact hadd _ _

/-- What a run restores is dated. -/
theorem dated_foldl_importRecord {s : TitleState} (hs : ∀ play ∈ s.plays, play.watchedAt ≠ none) :
    ∀ play ∈ (records.foldl (importRecord window now) s).plays, play.watchedAt ≠ none := by
  induction records generalizing s with
  | nil => exact hs
  | cons r records ih => exact ih (dated_importRecord hs)

theorem foldl_importRecord (now : Int) (records : List Record) (hwindow : window ≠ 0) :
    AllAdded window now records ∧
        records.foldl (importRecord window now) (added now []) = added now records ∨
      ¬AllAdded window now records ∧
        (records.foldl (importRecord window now) (added now [])).plays.length < records.length := by
  induction records using List.reverseRecOn with
  | nil => exact .inl ⟨fun before r after h ↦ by simp at h, rfl⟩
  | append_singleton records r ih =>
    rw [List.foldl_append, List.foldl_cons, List.foldl_nil, List.length_append, allAdded_append]
    rcases ih with ⟨hall, hfold⟩ | ⟨hall, hfold⟩
    · by_cases hr : Addable window now records r
      · exact .inl ⟨⟨hall, hr⟩, by rw [hfold, importRecord_added hr]⟩
      · refine .inr ⟨fun h ↦ hr h.2, ?_⟩
        rw [hfold, length_importRecord_of_not_addable hwindow hr]
        simp
    · refine .inr ⟨fun h ↦ hall h.1, lt_of_le_of_lt length_importRecord ?_⟩
      simpa using hfold

/-- Importing the same records once more finds every one of them. -/
theorem foldl_importRecord_again (hwindow : window ≠ 0)
    (hdated : ∀ r ∈ records, ∃ t, r.1 = some t ∧ milliseconds t = t) {again : List Record}
    (hagain : ∀ r ∈ again, r ∈ records) :
    again.foldl (importRecord window later) (added now records) = added now records := by
  induction again with
  | nil => rfl
  | cons r again ih =>
    rw [List.forall_mem_cons] at hagain
    obtain ⟨t, hdate, hwhole⟩ := hdated r hagain.1
    have hduplicate : isDuplicatePlay window (records.map (Record.date now)) r.1 = true := by
      simp only [hdate, isDuplicatePlay, isDuplicateWatchTime, Bool.and_eq_true, decide_eq_true_eq,
        List.any_eq_true, List.mem_map]
      exact ⟨hwindow, t, ⟨r, hagain.1, by simp [Record.date, hdate]⟩, by simp⟩
    have hkept := addPlay_of_duplicate later hduplicate
    have hstep : importRecord window later (added now records) r = added now records := by
      cases hestimate : r.isEstimate with
      | true => rw [importRecord_of_inferred hestimate, hkept]
      | false =>
        have hexact : r.2 = false := by simp_all [Record.isEstimate]
        have hconfident : ((added now records).plays.any fun p ↦
            p.isConfident && decide (p.watchedAt = some (milliseconds t))) = true := by
          refine List.any_eq_true.mpr ⟨r.play now, List.mem_map_of_mem hagain.1, ?_⟩
          simp [Record.play, restoredPlay, Play.isConfident, hdate, hexact, hwhole]
        have hnone : reconcileInferredWatchDate (added now records).plays t false = none := by
          unfold reconcileInferredWatchDate
          simp only [hconfident, if_true]
        rw [hdate, hexact] at hkept
        simp only [importRecord, importPlay, hdate, hexact, hnone, hkept]
    rw [List.foldl_cons, hstep]
    exact ih hagain.2

theorem isDuplicatePlay_eq_false {t : Int} {times : List Int} (hwindow : window ≠ 0) :
    isDuplicatePlay window times (some t) = false ↔ ∀ s ∈ times, Apart window s t := by
  simp [isDuplicatePlay, isDuplicateWatchTime, hwindow, Apart]

theorem restorable_append :
    Restorable window (records ++ [r]) ↔
      Restorable window records ∧ r.1 ≠ none ∧
        (∀ s ∈ records.filterMap Prod.fst, ∀ t, r.1 = some t → Apart window s t) ∧
        (r.2 = false → (records.filter Prod.snd).length ≠ 1) := by
  have happart : ((records ++ [r]).filterMap Prod.fst).Pairwise (Apart window) ↔
      (records.filterMap Prod.fst).Pairwise (Apart window) ∧
        ∀ s ∈ records.filterMap Prod.fst, ∀ t, r.1 = some t → Apart window s t := by
    rw [List.filterMap_append, List.pairwise_append]
    cases hdate : r.1 <;> simp [hdate]
  constructor
  · rintro ⟨hdated, hapart, hestimates⟩
    rw [happart] at hapart
    rw [forall_split_append] at hestimates
    simp only [List.forall_mem_append, List.forall_mem_singleton] at hdated
    exact ⟨⟨hdated.1, hapart.1, hestimates.1⟩, hdated.2, hapart.2, hestimates.2⟩
  · rintro ⟨⟨hdated, hapart, hestimates⟩, hr, hnear, hestimate⟩
    refine ⟨?_, happart.mpr ⟨hapart, hnear⟩, forall_split_append.mpr ⟨hestimates, hestimate⟩⟩
    simp only [List.forall_mem_append, List.forall_mem_singleton]
    exact ⟨hdated, hr⟩

theorem addable_iff (hwindow : window ≠ 0) (hdated : ∀ r ∈ before, r.1 ≠ none) (hr : r.1 ≠ none) :
    Addable window now before r ↔
      (∀ s ∈ before.filterMap Prod.fst, ∀ t, r.1 = some t → Apart window s t) ∧
        (r.2 = false → (before.filter Prod.snd).length ≠ 1) := by
  have hdates : before.map (Record.date now) = before.filterMap Prod.fst := by
    rw [← List.filterMap_eq_map]
    refine List.filterMap_congr fun b hb ↦ ?_
    obtain ⟨t, ht⟩ := Option.ne_none_iff_exists'.mp (hdated b hb)
    simp [Record.date, ht]
  have hestimates : before.filter Record.isEstimate = before.filter Prod.snd := by
    refine List.filter_congr fun b hb ↦ ?_
    obtain ⟨t, ht⟩ := Option.ne_none_iff_exists'.mp (hdated b hb)
    simp [Record.isEstimate, ht]
  obtain ⟨t, ht⟩ := Option.ne_none_iff_exists'.mp hr
  have hestimate : r.isEstimate = r.2 := by simp [Record.isEstimate, ht]
  rw [Addable, hdates, hestimates, hestimate, ht, isDuplicatePlay_eq_false hwindow]
  simp

theorem restorable_iff (now : Int) (hwindow : window ≠ 0) :
    Restorable window records ↔ (∀ r ∈ records, r.1 ≠ none) ∧ AllAdded window now records := by
  induction records using List.reverseRecOn with
  | nil =>
    simp only [List.not_mem_nil, IsEmpty.forall_iff, implies_true, true_and]
    exact ⟨fun _ before r after h ↦ by simp at h,
      fun _ ↦ ⟨by simp, by simp, fun before r after h ↦ by simp at h⟩⟩
  | append_singleton records r ih =>
    rw [restorable_append, ih, allAdded_append]
    simp only [List.forall_mem_append, List.forall_mem_singleton]
    constructor
    · rintro ⟨⟨hdated, hall⟩, hr, hrest⟩
      exact ⟨⟨hdated, hr⟩, hall, (addable_iff hwindow hdated hr).mpr hrest⟩
    · rintro ⟨⟨hdated, hr⟩, hall, hadd⟩
      exact ⟨⟨hdated, hall⟩, hr, (addable_iff hwindow hdated hr).mp hadd⟩

end run

end AnyList.Backup
