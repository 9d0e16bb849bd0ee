import AnyList.Imports.PrimeArchive
import AnyList.Library.Partial

namespace AnyList.Imports.PrimeVideo

open AnyList.Library AnyList.Library.Members
open AnyList.Imports.ViewingHistory (Text)

namespace WatchObservation

variable (o : WatchObservation)

/-- What an observation shows: title, day, show, season and episode. -/
def shown : Text × Int × Option Text × Option ℕ × Option Text :=
  (o.sourceTitle, o.watchedAt, o.showTitle, o.seasonNumber, o.episodeTitle)

def described : (Text × Int × Option Text × Option ℕ × Option Text) × ℚ × Bool :=
  (o.shown, o.watchedSeconds, o.completedEvidence)

end WatchObservation

namespace Reading

def isExcluded : Reading → Bool
  | .excluded => true
  | _ => false

def isRejected : Reading → Bool
  | .rejected _ => true
  | _ => false

def viewing : Reading → Option Viewing
  | .watched viewing => some viewing
  | _ => none

end Reading

section run

variable {identityOf : Text → Identity}

/-- What the viewings of one title and day come to, in any order. -/
structure Merges (identityOf : Text → Identity) (viewings : List Viewing) (key : Text × Int)
    (o : WatchObservation) : Prop where
  shown : o.shown = (observe identityOf 0 ⟨key.1, key.2, 0, false⟩).shown
  attained : ∃ v ∈ viewings, v.key = key ∧ v.seconds = o.watchedSeconds
  bounded : ∀ v ∈ viewings, v.key = key → v.seconds ≤ o.watchedSeconds
  evidence : o.completedEvidence = true ↔ ∃ v ∈ viewings, v.key = key ∧ v.evidence = true

/-- What some rows have come to. -/
structure Accounted (identityOf : Text → Identity) (readings : List Reading) (p : Progress) :
    Prop where
  total : p.totalRows = readings.length
  excluded : p.excludedRows = readings.countP Reading.isExcluded
  errors : p.errors.length = readings.countP Reading.isRejected
  counted : p.totalRows =
    p.observations.entries.length + p.duplicateRows + p.excludedRows + p.errors.length
  present : ∀ key, (∃ o, p.observations.get key = some o) ↔
    ∃ v ∈ readings.filterMap Reading.viewing, v.key = key
  merged : ∀ key o, p.observations.get key = some o →
    Merges identityOf (readings.filterMap Reading.viewing) key o

section merges

variable {viewings viewings' : List Viewing} {key : Text × Int} {o o' : WatchObservation}
  {viewing : Viewing}

/-- An observation does not depend on the order of its rows. -/
theorem Merges.described_eq (h : Merges identityOf viewings key o)
    (h' : Merges identityOf viewings' key o') (hsame : SameMembers viewings viewings') :
    o.described = o'.described := by
  have hseconds : o.watchedSeconds = o'.watchedSeconds := by
    obtain ⟨v, hv, hkey, hvs⟩ := h.attained
    obtain ⟨v', hv', hkey', hvs'⟩ := h'.attained
    apply le_antisymm
    · rw [← hvs]
      exact h'.bounded v ((hsame v).mp hv) hkey
    · rw [← hvs']
      exact h.bounded v' ((hsame v').mpr hv') hkey'
  have hevidence : o.completedEvidence = o'.completedEvidence := by
    rw [Bool.eq_iff_iff, h.evidence, h'.evidence]
    simp only [hsame _]
  rw [WatchObservation.described, WatchObservation.described, h.shown, h'.shown, hseconds,
    hevidence]

theorem merges_observe (number : ℕ) (hnew : ∀ v ∈ viewings, v.key ≠ viewing.key) :
    Merges identityOf (viewings ++ [viewing]) viewing.key (observe identityOf number viewing) := by
  have hmem : viewing ∈ viewings ++ [viewing] := List.mem_append_right _ List.mem_cons_self
  have honly : ∀ v ∈ viewings ++ [viewing], v.key = viewing.key → v = viewing := by
    intro v hv hkey
    obtain hv | hv := List.mem_append.mp hv
    · exact absurd hkey (hnew v hv)
    · exact List.mem_singleton.mp hv
  refine ⟨rfl, ⟨viewing, hmem, rfl, rfl⟩, fun v hv hkey ↦ ?_, ?_⟩
  · rw [honly v hv hkey]
    exact le_rfl
  · constructor
    · intro h
      exact ⟨viewing, hmem, rfl, h⟩
    · rintro ⟨v, hv, hkey, h⟩
      rwa [honly v hv hkey] at h

theorem Merges.absorb (h : Merges identityOf viewings viewing.key o) :
    Merges identityOf (viewings ++ [viewing]) viewing.key (o.absorb viewing) := by
  have hmem : viewing ∈ viewings ++ [viewing] := List.mem_append_right _ List.mem_cons_self
  have hold : ∀ v ∈ viewings, v ∈ viewings ++ [viewing] := fun v hv ↦ List.mem_append_left _ hv
  refine ⟨h.shown, ?_, fun v hv hkey ↦ ?_, ?_⟩
  · obtain ⟨v, hv, hkey, hseconds⟩ := h.attained
    obtain hle | hle := le_total o.watchedSeconds viewing.seconds
    · exact ⟨viewing, hmem, rfl, (max_eq_right hle).symm⟩
    · exact ⟨v, hold v hv, hkey, hseconds.trans (max_eq_left hle).symm⟩
  · obtain hv | hv := List.mem_append.mp hv
    · exact (h.bounded v hv hkey).trans (le_max_left _ _)
    · rw [List.mem_singleton.mp hv]
      exact le_max_right _ _
  · change (o.completedEvidence || viewing.evidence) = true ↔ _
    rw [Bool.or_eq_true, h.evidence]
    constructor
    · rintro (⟨v, hv, hkey, hev⟩ | hev)
      · exact ⟨v, hold v hv, hkey, hev⟩
      · exact ⟨viewing, hmem, rfl, hev⟩
    · rintro ⟨v, hv, hkey, hev⟩
      obtain hv | hv := List.mem_append.mp hv
      · exact .inl ⟨v, hv, hkey, hev⟩
      · rw [List.mem_singleton.mp hv] at hev
        exact .inr hev

theorem Merges.of_ne (h : Merges identityOf viewings key o) (hne : viewing.key ≠ key) :
    Merges identityOf (viewings ++ [viewing]) key o := by
  have hsame (P : Viewing → Prop) :
      (∃ v ∈ viewings ++ [viewing], v.key = key ∧ P v) ↔ ∃ v ∈ viewings, v.key = key ∧ P v := by
    simp only [List.mem_append, List.mem_singleton]
    constructor
    · rintro ⟨v, hv | rfl, hkey, hP⟩
      · exact ⟨v, hv, hkey, hP⟩
      · exact absurd hkey hne
    · rintro ⟨v, hv, hkey, hP⟩
      exact ⟨v, .inl hv, hkey, hP⟩
  refine ⟨h.shown, (hsame _).mpr h.attained, fun v hv hkey ↦ ?_, h.evidence.trans (hsame _).symm⟩
  obtain hv | hv := List.mem_append.mp hv
  · exact h.bounded v hv hkey
  · rw [List.mem_singleton.mp hv] at hkey
    exact absurd hkey hne

end merges

section rows

variable {readings readings' : List Reading} {p p' : Progress}

theorem accounted_empty : Accounted identityOf [] .empty where
  total := rfl
  excluded := rfl
  errors := rfl
  counted := rfl
  present key := by simp [Progress.empty]
  merged key o h := by simp [Progress.empty] at h

theorem addRow_of_some {viewing : Viewing} {o : WatchObservation} (number : ℕ)
    (hget : p.observations.get viewing.key = some o) :
    addRow identityOf p (.watched viewing, number) =
      { p with
        totalRows := p.totalRows + 1
        observations := p.observations.set viewing.key (o.absorb viewing)
        duplicateRows := p.duplicateRows + 1 } := by
  simp only [addRow, add, hget]

theorem addRow_of_none {viewing : Viewing} (number : ℕ)
    (hget : p.observations.get viewing.key = none) :
    addRow identityOf p (.watched viewing, number) =
      { p with
        totalRows := p.totalRows + 1
        observations := p.observations.set viewing.key (observe identityOf number viewing) } := by
  simp only [addRow, add, hget]

theorem Accounted.add (h : Accounted identityOf readings p) (number : ℕ) (viewing : Viewing) :
    Accounted identityOf (readings ++ [Reading.watched viewing])
      (addRow identityOf p (.watched viewing, number)) := by
  have hviewings : (readings ++ [Reading.watched viewing]).filterMap Reading.viewing =
      readings.filterMap Reading.viewing ++ [viewing] := by
    simp [List.filterMap_append, Reading.viewing]
  have hexcluded : (readings ++ [Reading.watched viewing]).countP Reading.isExcluded =
      readings.countP Reading.isExcluded := by
    simp [List.countP_append, Reading.isExcluded]
  have hrejected : (readings ++ [Reading.watched viewing]).countP Reading.isRejected =
      readings.countP Reading.isRejected := by
    simp [List.countP_append, Reading.isRejected]
  have htotal := h.total
  have hcounted := h.counted
  -- Whether the title and day are there or not, their observation is the only one that changes.
  have hpresent (o : WatchObservation) (key : Text × Int) :
      (∃ o', (p.observations.set viewing.key o).get key = some o') ↔
        ∃ v ∈ readings.filterMap Reading.viewing ++ [viewing], v.key = key := by
    rw [Dict.get_set]
    simp only [List.mem_append, List.mem_singleton, or_and_right, exists_or, ← h.present key,
      exists_eq_left]
    split_ifs with hkey
    · simp [hkey]
    · simp [hkey]
  have hmerged (o : WatchObservation) (ho : Merges identityOf
        (readings.filterMap Reading.viewing ++ [viewing]) viewing.key o) (key : Text × Int)
      (o' : WatchObservation) (hget : (p.observations.set viewing.key o).get key = some o') :
      Merges identityOf (readings.filterMap Reading.viewing ++ [viewing]) key o' := by
    rw [Dict.get_set] at hget
    split_ifs at hget with hkey
    · rw [← hkey, ← Option.some.inj hget]
      exact ho
    · exact (h.merged key o' hget).of_ne hkey
  cases hget : p.observations.get viewing.key with
  | some o =>
    rw [addRow_of_some number hget]
    refine ⟨?_, h.excluded.trans hexcluded.symm, h.errors.trans hrejected.symm, ?_, ?_, ?_⟩
    · rw [List.length_append, ← htotal]
      rfl
    · dsimp only
      rw [Dict.length_set_of_get hget]
      omega
    · rw [hviewings]
      exact hpresent _
    · rw [hviewings]
      exact hmerged _ (h.merged _ o hget).absorb
  | none =>
    have hnew : ∀ v ∈ readings.filterMap Reading.viewing, v.key ≠ viewing.key := by
      intro v hv hkey
      obtain ⟨o, ho⟩ := (h.present viewing.key).mpr ⟨v, hv, hkey⟩
      rw [hget] at ho
      exact absurd ho (by simp)
    rw [addRow_of_none number hget]
    refine ⟨?_, h.excluded.trans hexcluded.symm, h.errors.trans hrejected.symm, ?_, ?_, ?_⟩
    · rw [List.length_append, ← htotal]
      rfl
    · dsimp only
      rw [Dict.entries_set_of_get_eq_none hget, List.length_append, List.length_singleton]
      omega
    · rw [hviewings]
      exact hpresent _
    · rw [hviewings]
      exact hmerged _ (merges_observe number hnew)

/-- One row becomes one of an observation, a duplicate, an excluded row and an error. -/
theorem Accounted.addRow (h : Accounted identityOf readings p) (numbered : Reading × ℕ) :
    Accounted identityOf (readings ++ [numbered.1]) (addRow identityOf p numbered) := by
  obtain ⟨reading, number⟩ := numbered
  have hcounted := h.counted
  have htotal := h.total
  have hexcluded := h.excluded
  have herrors := h.errors
  cases reading with
  | excluded =>
    have hviewings : (readings ++ [Reading.excluded]).filterMap Reading.viewing =
        readings.filterMap Reading.viewing := by
      simp [List.filterMap_append, Reading.viewing]
    constructor
    · simp [PrimeVideo.addRow, htotal]
    · simp [PrimeVideo.addRow, hexcluded, List.countP_append, Reading.isExcluded]
    · simp [PrimeVideo.addRow, herrors, List.countP_append, Reading.isRejected]
    · dsimp only [PrimeVideo.addRow]
      omega
    · rw [hviewings]
      exact h.present
    · rw [hviewings]
      exact h.merged
  | rejected message =>
    have hviewings : (readings ++ [Reading.rejected message]).filterMap Reading.viewing =
        readings.filterMap Reading.viewing := by
      simp [List.filterMap_append, Reading.viewing]
    constructor
    · simp [PrimeVideo.addRow, htotal]
    · simp [PrimeVideo.addRow, hexcluded, List.countP_append, Reading.isExcluded]
    · simp [PrimeVideo.addRow, herrors, List.countP_append, Reading.isRejected]
    · dsimp only [PrimeVideo.addRow]
      rw [List.length_append, List.length_singleton]
      omega
    · rw [hviewings]
      exact h.present
    · rw [hviewings]
      exact h.merged
  | watched viewing => exact h.add number viewing

theorem Accounted.foldl (h : Accounted identityOf readings p) (rows : List (Reading × ℕ)) :
    Accounted identityOf (readings ++ rows.map Prod.fst)
      (rows.foldl (PrimeVideo.addRow identityOf) p) := by
  induction rows generalizing readings p with
  | nil => simpa using h
  | cons row rows ih =>
    have hrest := ih (h.addRow row)
    rw [List.append_assoc] at hrest
    exact hrest

/-- The same rows in another order have the same counts and observations. -/
theorem Accounted.perm (h : Accounted identityOf readings p)
    (h' : Accounted identityOf readings' p') (hperm : readings.Perm readings') :
    p.totalRows = p'.totalRows ∧ p.duplicateRows = p'.duplicateRows ∧
      p.excludedRows = p'.excludedRows ∧ p.errors.length = p'.errors.length ∧
      (p.observations.values.map WatchObservation.described).Perm
        (p'.observations.values.map WatchObservation.described) := by
  have hsame := SameMembers.of_perm (hperm.filterMap Reading.viewing)
  have hkeys : ∀ key, (p.observations.get key).map WatchObservation.described =
      (p'.observations.get key).map WatchObservation.described := by
    intro key
    have hpresent : (∃ o, p.observations.get key = some o) ↔
        ∃ o, p'.observations.get key = some o := by
      rw [h.present, h'.present]
      simp only [hsame _]
    cases hget : p.observations.get key with
    | none =>
      cases hget' : p'.observations.get key with
      | none => rfl
      | some o' =>
        obtain ⟨o, ho⟩ := hpresent.mpr ⟨o', hget'⟩
        rw [hget] at ho
        exact absurd ho (by simp)
    | some o =>
      obtain ⟨o', hget'⟩ := hpresent.mp ⟨o, hget⟩
      rw [hget', Option.map_some, Option.map_some,
        (h.merged key o hget).described_eq (h'.merged key o' hget') hsame]
  have hvalues := Dict.map_values_perm hkeys
  have htotal : p.totalRows = p'.totalRows := by
    rw [h.total, h'.total, hperm.length_eq]
  have hexcluded : p.excludedRows = p'.excludedRows := by
    rw [h.excluded, h'.excluded, hperm.countP_eq]
  have herrors : p.errors.length = p'.errors.length := by
    rw [h.errors, h'.errors, hperm.countP_eq]
  have hlength : p.observations.entries.length = p'.observations.entries.length := by
    simpa [Dict.values] using hvalues.length_eq
  have hcounted := h.counted
  have hcounted' := h'.counted
  exact ⟨htotal, by omega, hexcluded, herrors, hvalues⟩

end rows

end run

end AnyList.Imports.PrimeVideo
