import AnyList.Activity.StreamingCards
import AnyList.Library.Members
import AnyList.Library.StableSort
import Mathlib.Algebra.BigOperators.Group.List.Basic

namespace AnyList.Activity.Streaming

open AnyList.Library
open AnyList.Library.StableSort (Latest forall_perm_getLast?_iff)
open AnyList.Reconciliation.Watches (Status)

instance instTotalNotLater : Std.Total notLater where
  total a b := by
    unfold notLater
    omega

instance instReflNotLater : Std.Refl notLater where
  refl _ := .inr ⟨rfl, le_rfl⟩

instance instTransNotLater : IsTrans Event notLater where
  trans a b c hab hbc := by
    unfold notLater at hab hbc ⊢
    omega

/-- The card with its evidence in some order. -/
def StreamCard.withEvents (row : StreamCard) (evidence : Evidence) (events : Dict String Event) :
    StreamCard :=
  { row with evidence := some { evidence with events := events } }

/-- What a card shows of its evidence. -/
structure SameCard (row row' : StreamCard) : Prop where
  status : row.status = row'.status
  createdAt : row.createdAt = row'.createdAt
  positionStart : row.details.positionStart = row'.details.positionStart
  position : row.details.position = row'.details.position
  episodesWatched : row.details.episodesWatched = row'.details.episodesWatched
  finishedSeasons : row.details.finishedSeasons = row'.details.finishedSeasons

/-- The card of a map of events is the same for every two orders of the map. -/
def OrderFree (row : StreamCard) (evidence : Evidence) : Prop :=
  ∀ events events' : Dict String Event, events.entries.Perm evidence.events.entries →
    events'.entries.Perm evidence.events.entries →
    SameCard (rebuild (row.withEvents evidence events)) (rebuild (row.withEvents evidence events'))

/-- The local action of a card came no earlier than any of its events. -/
def BaseLasts (evidence : Evidence) : Prop :=
  evidence.baseStatus.isSome ∧
    ∃ baseAt ∈ evidence.baseAt, ∀ event ∈ evidence.events.values, event.date ≤ baseAt

def isPlaced (event : Event) : Bool := event.position.isSome

def isNumbered (position : Option String) : Bool := (position.bind numbered).isSome

/-- Some action with episodes, imported or local, has a numbered position. -/
def Numbered (evidence : Evidence) : Prop :=
  (∃ event ∈ evidence.events.values, event.episodesWatched ≠ 0 ∧ isNumbered event.position = true) ∨
    (∃ n ∈ evidence.base.episodesWatched, n ≠ 0) ∧
      (isNumbered evidence.base.positionStart = true ∨ isNumbered evidence.base.position = true)

/-- The latest of some events look alike. -/
def LatestAgree {β : Type} (see : Event → β) (events : List Event) : Prop :=
  ∀ a b, Latest notLater events a → Latest notLater events b → see a = see b

structure Settled (evidence : Evidence) : Prop where
  status : BaseLasts evidence ∨ LatestAgree Event.status evidence.events.values
  position : Numbered evidence ∨
    LatestAgree Event.position (evidence.events.values.filter isPlaced)

section span

variable {positions positions' : List (ℕ × ℕ)}

theorem isBefore_iff (m n : ℕ × ℕ) : isBefore m n = true ↔ m.1 < n.1 ∨ m.1 = n.1 ∧ m.2 < n.2 := by
  simp [isBefore]

/-- What a fold keeps is one of the pairs, and none of them is better. -/
theorem foldl_best (better : ℕ × ℕ → ℕ × ℕ → Bool) (hirrefl : ∀ a, better a a = false)
    (htrans : ∀ a b c, better a b = true → better b c = true → better a c = true)
    (first : ℕ × ℕ) (rest : List (ℕ × ℕ)) :
    rest.foldl (fun best n ↦ if better n best then n else best) first ∈ first :: rest ∧
      ∀ n ∈ first :: rest,
        better n (rest.foldl (fun best n ↦ if better n best then n else best) first) = false := by
  induction rest using List.reverseRecOn with
  | nil => simp [hirrefl]
  | append_singleton rest last ih =>
    rw [List.foldl_append, List.foldl_cons, List.foldl_nil]
    obtain ⟨hmem, hbest⟩ := ih
    split
    · next hbetter =>
      refine ⟨by simp, fun n hn ↦ ?_⟩
      rcases List.mem_append.mp (List.cons_append ▸ hn : n ∈ (first :: rest) ++ [last]) with hn | hn
      · by_contra hnot
        have hn' := htrans _ _ _ (Bool.not_eq_false _ ▸ hnot) hbetter
        exact absurd (hbest n hn) (by simp [hn'])
      · rw [List.mem_singleton.mp hn]
        exact hirrefl last
    · next hbetter =>
      refine ⟨by simp only [List.mem_cons, List.mem_append] at hmem ⊢; tauto, fun n hn ↦ ?_⟩
      rcases List.mem_append.mp (List.cons_append ▸ hn : n ∈ (first :: rest) ++ [last]) with hn | hn
      · exact hbest n hn
      · rw [List.mem_singleton.mp hn]
        exact Bool.not_eq_true _ ▸ hbetter

theorem eq_of_best (better : ℕ × ℕ → ℕ × ℕ → Bool) (hirrefl : ∀ a, better a a = false)
    (htrans : ∀ a b c, better a b = true → better b c = true → better a c = true)
    (htotal : ∀ a b, better a b = false → better b a = false → a = b) {first first' : ℕ × ℕ}
    {rest rest' : List (ℕ × ℕ)} (hperm : (first :: rest).Perm (first' :: rest')) :
    rest.foldl (fun best n ↦ if better n best then n else best) first =
      rest'.foldl (fun best n ↦ if better n best then n else best) first' := by
  obtain ⟨hmem, hbest⟩ := foldl_best better hirrefl htrans first rest
  obtain ⟨hmem', hbest'⟩ := foldl_best better hirrefl htrans first' rest'
  exact htotal _ _ (hbest' _ (hperm.mem_iff.mp hmem)) (hbest _ (hperm.mem_iff.mpr hmem'))

theorem isBefore_irrefl (a : ℕ × ℕ) : isBefore a a = false := by
  simp [isBefore]

theorem isBefore_trans (a b c : ℕ × ℕ) (hab : isBefore a b = true) (hbc : isBefore b c = true) :
    isBefore a c = true := by
  rw [isBefore_iff] at hab hbc ⊢
  omega

theorem isBefore_total (a b : ℕ × ℕ) (hab : isBefore a b = false) (hba : isBefore b a = false) :
    a = b := by
  rw [← Bool.not_eq_true, isBefore_iff] at hab hba
  exact Prod.ext (by omega) (by omega)

/-- The first and the last of some numbered positions. -/
def ends : List (ℕ × ℕ) → Option (String × String)
  | [] => none
  | first :: rest =>
    some (label (rest.foldl (fun best n ↦ if isBefore n best then n else best) first),
      label (rest.foldl (fun best n ↦ if isBefore best n then n else best) first))

theorem ends_perm (h : positions.Perm positions') : ends positions = ends positions' := by
  cases positions with
  | nil => rw [h.nil_eq]
  | cons first rest =>
    cases positions' with
    | nil => exact absurd h.symm.nil_eq (by simp)
    | cons first' rest' =>
      have hleast := eq_of_best isBefore isBefore_irrefl isBefore_trans isBefore_total h
      have hgreatest := eq_of_best (fun a b ↦ isBefore b a) isBefore_irrefl
        (fun a b c hab hbc ↦ isBefore_trans c b a hbc hab)
        (fun a b hab hba ↦ isBefore_total a b hba hab) h
      rw [ends, ends, hleast, hgreatest]

theorem isSome_ends : (ends positions).isSome = true ↔ ∃ n, n ∈ positions := by
  cases positions with
  | nil => simp [ends]
  | cons first rest => simp [ends]

variable {values values' : List Event} {original : Details}

def spanPositions (values : List Event) (original : Details) : List (Option String) :=
  (values.filter fun event ↦ decide (event.episodesWatched ≠ 0)).map Event.position ++
    if original.episodesWatched.any (fun n ↦ decide (n ≠ 0)) then
      [original.positionStart, original.position]
    else []

theorem streamingEpisodeSpan_eq : streamingEpisodeSpan values original =
    ends ((spanPositions values original).filterMap fun position ↦ position.bind numbered) := by
  rw [streamingEpisodeSpan, spanPositions]
  split
  · next h => rw [h, ends]
  · next h => rw [h, ends]

theorem streamingEpisodeSpan_perm (h : values.Perm values') :
    streamingEpisodeSpan values original = streamingEpisodeSpan values' original := by
  rw [streamingEpisodeSpan_eq, streamingEpisodeSpan_eq]
  exact ends_perm ((((h.filter _).map _).append_right _).filterMap _)

theorem isSome_streamingEpisodeSpan (evidence : Evidence) :
    (streamingEpisodeSpan evidence.events.values evidence.base).isSome = true ↔
      Numbered evidence := by
  rw [streamingEpisodeSpan_eq, isSome_ends]
  simp only [List.mem_filterMap, spanPositions, List.mem_append, List.mem_map, List.mem_filter]
  constructor
  · rintro ⟨n, position, ⟨event, ⟨hevent, hcount⟩, rfl⟩ | hbase, hn⟩
    · exact .inl ⟨event, hevent, by simpa using hcount, by simp [isNumbered, hn]⟩
    · split at hbase
      · next hcount =>
        refine .inr ⟨by simpa [Option.any_eq_true] using hcount, ?_⟩
        rcases List.mem_pair.mp hbase with rfl | rfl
        · exact .inl (by simp [isNumbered, hn])
        · exact .inr (by simp [isNumbered, hn])
      · exact absurd hbase List.not_mem_nil
  · rintro (⟨event, hevent, hcount, hnumbered⟩ | ⟨hcount, hnumbered⟩)
    · obtain ⟨n, hn⟩ := Option.isSome_iff_exists.mp hnumbered
      exact ⟨n, event.position, .inl ⟨event, ⟨hevent, by simpa using hcount⟩, rfl⟩, hn⟩
    · have hany : evidence.base.episodesWatched.any (fun n ↦ decide (n ≠ 0)) = true := by
        simpa [Option.any_eq_true] using hcount
      rcases hnumbered with hnumbered | hnumbered
      · obtain ⟨n, hn⟩ := Option.isSome_iff_exists.mp hnumbered
        exact ⟨n, _, .inr (by rw [if_pos hany]; exact List.mem_cons_self), hn⟩
      · obtain ⟨n, hn⟩ := Option.isSome_iff_exists.mp hnumbered
        exact ⟨n, _, .inr (by rw [if_pos hany]; simp), hn⟩

end span

section counts

variable {values values' : List Event} {base : Details} {details : Details} {evidence : Evidence}

theorem countEpisodes_perm (h : values.Perm values') :
    countEpisodes base values = countEpisodes base values' := by
  rw [countEpisodes, countEpisodes]
  cases base.episodePositions with
  | none => exact congrArg (max _) (h.map _).sum_eq
  | some positions => exact (((h.filter _).filterMap _).append_left _).dedup.length_eq

theorem seasons_perm (seasons : List Int) (h : values.Perm values') :
    ((seasons ++ values.flatMap Event.finishedSeasons).dedup).insertionSort (· ≤ ·) =
      ((seasons ++ values'.flatMap Event.finishedSeasons).dedup).insertionSort (· ≤ ·) := by
  have hperm := ((h.flatMap_right Event.finishedSeasons).append_left seasons).dedup
  refine List.Perm.eq_of_pairwise' (List.pairwise_insertionSort _ _)
    (List.pairwise_insertionSort _ _) ?_
  exact (List.perm_insertionSort _ _).trans (hperm.trans (List.perm_insertionSort _ _).symm)

theorem rebuildCreatedAt_perm (createdAt : Int) (h : values.Perm values') :
    rebuildCreatedAt createdAt evidence values = rebuildCreatedAt createdAt evidence values' := by
  rw [rebuildCreatedAt, rebuildCreatedAt]
  have hmembers := Members.SameMembers.of_perm ((h.map Event.date).append_right evidence.baseAt.toList)
  rw [hmembers.max?_eq]

theorem position_foldl_layEvent (values : List Event) (details : Details) :
    (values.foldl layEvent details).position =
      ((values.filter isPlaced).getLast?.bind Event.position).or details.position := by
  induction values using List.reverseRecOn with
  | nil => rfl
  | append_singleton values last ih =>
    rw [List.foldl_append, List.foldl_cons, List.foldl_nil, List.filter_append]
    cases hposition : last.position with
    | none => simp [layEvent, isPlaced, hposition, ih]
    | some position => simp [layEvent, isPlaced, hposition]

theorem foldl_layEvent_frame (values : List Event) (details : Details) :
    (values.foldl layEvent details).positionStart = details.positionStart ∧
      (values.foldl layEvent details).episodesWatched = details.episodesWatched ∧
      (values.foldl layEvent details).finishedSeasons = details.finishedSeasons := by
  induction values generalizing details with
  | nil => exact ⟨rfl, rfl, rfl⟩
  | cons event values ih => exact ih (layEvent details event)

end counts

section orders

variable {row : StreamCard} {evidence : Evidence} {events events' : Dict String Event}

def sorted (events : Dict String Event) : List Event := events.values.insertionSort notLater

theorem values_perm (h : events.entries.Perm events'.entries) : events.values.Perm events'.values :=
  h.map Prod.snd

theorem sorted_perm (h : events.entries.Perm events'.entries) :
    (sorted events).Perm (sorted events') :=
  (List.perm_insertionSort _ _).trans ((values_perm h).trans (List.perm_insertionSort _ _).symm)

variable (events) in
theorem all_getLast?_sorted (baseAt : Int) :
    (sorted events).getLast?.all (fun event ↦ decide (event.date ≤ baseAt)) = true ↔
      ∀ event ∈ events.values, event.date ≤ baseAt := by
  cases hlast : (sorted events).getLast? with
  | none =>
    have hnil : events.values = [] := by
      rw [List.getLast?_eq_none_iff, ← List.length_eq_zero_iff, sorted,
        List.length_insertionSort] at hlast
      exact List.length_eq_zero_iff.mp hlast
    simp [hnil]
  | some last =>
    obtain ⟨hmem, hlatest⟩ := StableSort.latest_of_getLast? hlast
    rw [Option.all_some, decide_eq_true_eq]
    refine ⟨fun hle event hevent ↦ ?_, fun hall ↦ hall last hmem⟩
    have hnot := hlatest event hevent
    unfold notLater at hnot
    omega

theorem rebuildStatus_of_baseLasts (status : Status) (hperm : events.entries.Perm evidence.events.entries)
    (h : BaseLasts evidence) :
    rebuildStatus status { evidence with events := events } (sorted events) =
      evidence.baseStatus.getD status := by
  obtain ⟨hstatus, baseAt, hbaseAt, hall⟩ := h
  obtain ⟨baseStatus, hstatus⟩ := Option.isSome_iff_exists.mp hstatus
  have hlast := (all_getLast?_sorted events baseAt).mpr fun event hevent ↦
    hall event ((values_perm hperm).mem_iff.mp hevent)
  simp only [rebuildStatus, show evidence.baseAt = some baseAt from hbaseAt, hstatus, hlast, if_true,
    Option.getD_some]

theorem rebuildStatus_of_not_baseLasts (status : Status)
    (hperm : events.entries.Perm evidence.events.entries) (h : ¬ BaseLasts evidence) :
    rebuildStatus status { evidence with events := events } (sorted events) =
      ((sorted events).getLast?.map Event.status).getD status := by
  rw [rebuildStatus]
  cases hbaseAt : evidence.baseAt with
  | none => rfl
  | some baseAt =>
    cases hstatus : evidence.baseStatus with
    | none => rfl
    | some baseStatus =>
      refine if_neg fun hlast ↦ h ⟨by rw [hstatus]; rfl, baseAt, hbaseAt, fun event hevent ↦ ?_⟩
      exact (all_getLast?_sorted events baseAt).mp hlast event ((values_perm hperm).mem_iff.mpr hevent)

theorem position_rebuildDetails (details : Details) (evidence : Evidence) (values : List Event) :
    (rebuildDetails details evidence values).position =
      match streamingEpisodeSpan values evidence.base with
      | some span => some span.2
      | none => ((values.filter isPlaced).getLast?.bind Event.position).or evidence.base.position := by
  rw [rebuildDetails]
  cases streamingEpisodeSpan values evidence.base with
  | some span => rfl
  | none => exact position_foldl_layEvent values _

theorem positionStart_rebuildDetails (details : Details) (evidence : Evidence)
    (values : List Event) :
    (rebuildDetails details evidence values).positionStart =
      match streamingEpisodeSpan values evidence.base with
      | some span => some span.1
      | none => evidence.base.positionStart := by
  rw [rebuildDetails]
  cases streamingEpisodeSpan values evidence.base with
  | some span => rfl
  | none => exact (foldl_layEvent_frame values _).1

theorem episodesWatched_rebuildDetails (details : Details) (evidence : Evidence)
    (values : List Event) :
    (rebuildDetails details evidence values).episodesWatched =
      some (countEpisodes (rebuiltBase details evidence) values) := by
  rw [rebuildDetails]
  cases streamingEpisodeSpan values evidence.base with
  | some span => exact (foldl_layEvent_frame values _).2.1
  | none => exact (foldl_layEvent_frame values _).2.1

theorem finishedSeasons_rebuildDetails (details : Details) (evidence : Evidence)
    (values : List Event) :
    (rebuildDetails details evidence values).finishedSeasons =
      ((evidence.base.finishedSeasons ++ values.flatMap Event.finishedSeasons).dedup).insertionSort
        (· ≤ ·) := by
  rw [rebuildDetails]
  cases streamingEpisodeSpan values evidence.base with
  | some span => exact (foldl_layEvent_frame values _).2.2
  | none => exact (foldl_layEvent_frame values _).2.2

/-- Two orders of a map give one card when they give one status and one position. -/
theorem sameCard_iff (h : events.entries.Perm events'.entries) :
    SameCard (rebuild (row.withEvents evidence events))
        (rebuild (row.withEvents evidence events')) ↔
      rebuildStatus row.status { evidence with events := events } (sorted events) =
          rebuildStatus row.status { evidence with events := events' } (sorted events') ∧
        (rebuildDetails row.details { evidence with events := events } (sorted events)).position =
          (rebuildDetails row.details { evidence with events := events' } (sorted events')).position := by
  have hsorted := sorted_perm h
  refine ⟨fun hsame ↦ ⟨hsame.status, hsame.position⟩, fun ⟨hstatus, hposition⟩ ↦ ?_⟩
  refine ⟨hstatus, rebuildCreatedAt_perm row.createdAt hsorted, ?_, hposition, ?_, ?_⟩
  · have hleft := positionStart_rebuildDetails row.details { evidence with events := events }
      (sorted events)
    have hright := positionStart_rebuildDetails row.details { evidence with events := events' }
      (sorted events')
    rw [← streamingEpisodeSpan_perm hsorted] at hright
    exact hleft.trans hright.symm
  · refine (episodesWatched_rebuildDetails _ _ _).trans ?_
    refine Eq.trans ?_ (episodesWatched_rebuildDetails _ _ _).symm
    exact congrArg some (countEpisodes_perm hsorted)
  · refine (finishedSeasons_rebuildDetails _ _ _).trans ?_
    refine Eq.trans ?_ (finishedSeasons_rebuildDetails _ _ _).symm
    exact seasons_perm evidence.base.finishedSeasons hsorted

/-- The statuses of two orders agree as soon as the last events do, and not before. -/
theorem last_status_iff (status : Status) (h : events.entries.Perm events'.entries) :
    ((sorted events).getLast?.map Event.status).getD status =
        ((sorted events').getLast?.map Event.status).getD status ↔
      (sorted events).getLast?.map Event.status = (sorted events').getLast?.map Event.status := by
  have hlength := (sorted_perm h).length_eq
  cases hlast : (sorted events).getLast? with
  | none =>
    rw [List.getLast?_eq_none_iff, ← List.length_eq_zero_iff, hlength, List.length_eq_zero_iff]
      at hlast
    simp [hlast]
  | some last =>
    cases hlast' : (sorted events').getLast? with
    | none =>
      rw [List.getLast?_eq_none_iff, ← List.length_eq_zero_iff, ← hlength, List.length_eq_zero_iff]
        at hlast'
      rw [hlast'] at hlast
      exact absurd hlast (by simp)
    | some last' => simp

theorem last_position_iff (h : events.entries.Perm events'.entries) :
    ((((sorted events).filter isPlaced).getLast?.bind Event.position).or evidence.base.position =
        (((sorted events').filter isPlaced).getLast?.bind Event.position).or
          evidence.base.position) ↔
      ((sorted events).filter isPlaced).getLast?.map Event.position =
        ((sorted events').filter isPlaced).getLast?.map Event.position := by
  have hperm := (sorted_perm h).filter isPlaced
  have hlength := hperm.length_eq
  have hplaced : ∀ events : Dict String Event, ∀ last,
      ((sorted events).filter isPlaced).getLast? = some last → last.position.isSome = true :=
    fun events last hlast ↦ (List.mem_filter.mp (List.mem_of_getLast? hlast)).2
  cases hlast : ((sorted events).filter isPlaced).getLast? with
  | none =>
    rw [List.getLast?_eq_none_iff, ← List.length_eq_zero_iff, hlength, List.length_eq_zero_iff]
      at hlast
    simp [hlast]
  | some last =>
    cases hlast' : ((sorted events').filter isPlaced).getLast? with
    | none =>
      rw [List.getLast?_eq_none_iff, ← List.length_eq_zero_iff, ← hlength, List.length_eq_zero_iff]
        at hlast'
      rw [hlast'] at hlast
      exact absurd hlast (by simp)
    | some last' =>
      obtain ⟨position, hposition⟩ := Option.isSome_iff_exists.mp (hplaced events last hlast)
      obtain ⟨position', hposition'⟩ := Option.isSome_iff_exists.mp (hplaced events' last' hlast')
      simp [hposition, hposition']

theorem latestAgree_iff {β : Type} (see : Event → β) (p : Event → Bool)
    (events : Dict String Event) :
    (∀ events' : Dict String Event, events'.entries.Perm events.entries →
      ((sorted events').filter p).getLast?.map see = ((sorted events).filter p).getLast?.map see) ↔
      LatestAgree see (events.values.filter p) := by
  refine Iff.trans ?_ (forall_perm_getLast?_iff (r := notLater) Prod.snd p see)
  refine ⟨fun h entries' hperm ↦ ?_, fun h events' hperm ↦ h events'.entries hperm⟩
  exact h ⟨entries', (hperm.map Prod.fst).nodup_iff.mpr events.nodup⟩ hperm

theorem orderFree_iff_base : OrderFree row evidence ↔
    ∀ events : Dict String Event, events.entries.Perm evidence.events.entries →
      SameCard (rebuild (row.withEvents evidence events))
        (rebuild (row.withEvents evidence evidence.events)) := by
  refine ⟨fun h events hperm ↦ h events evidence.events hperm (List.Perm.refl _), ?_⟩
  intro h events events' hperm hperm'
  obtain ⟨hstatus, hposition⟩ := (sameCard_iff hperm).mp (h events hperm)
  obtain ⟨hstatus', hposition'⟩ := (sameCard_iff hperm').mp (h events' hperm')
  exact (sameCard_iff (hperm.trans hperm'.symm)).mpr
    ⟨hstatus.trans hstatus'.symm, hposition.trans hposition'.symm⟩

theorem forall_status_iff (row : StreamCard) (evidence : Evidence) :
    (∀ events : Dict String Event, events.entries.Perm evidence.events.entries →
      rebuildStatus row.status { evidence with events := events } (sorted events) =
        rebuildStatus row.status evidence (sorted evidence.events)) ↔
      BaseLasts evidence ∨ LatestAgree Event.status evidence.events.values := by
  have hagree := latestAgree_iff Event.status (fun _ ↦ true) evidence.events
  simp only [List.filter_true] at hagree
  by_cases hbase : BaseLasts evidence
  · refine iff_of_true (fun events hperm ↦ ?_) (.inl hbase)
    rw [rebuildStatus_of_baseLasts row.status hperm hbase]
    exact (rebuildStatus_of_baseLasts row.status (List.Perm.refl _) hbase).symm
  · rw [or_iff_right hbase, ← hagree]
    refine forall₂_congr fun events hperm ↦ ?_
    have hbaseStatus := rebuildStatus_of_not_baseLasts row.status
      (List.Perm.refl evidence.events.entries) hbase
    rw [rebuildStatus_of_not_baseLasts row.status hperm hbase]
    exact (iff_of_eq (congrArg _ hbaseStatus)).trans (last_status_iff row.status hperm)

theorem forall_position_iff (row : StreamCard) (evidence : Evidence) :
    (∀ events : Dict String Event, events.entries.Perm evidence.events.entries →
      (rebuildDetails row.details { evidence with events := events } (sorted events)).position =
        (rebuildDetails row.details evidence (sorted evidence.events)).position) ↔
      Numbered evidence ∨
        LatestAgree Event.position (evidence.events.values.filter isPlaced) := by
  have hsorted : (sorted evidence.events).Perm evidence.events.values :=
    List.perm_insertionSort _ _
  have hspan : ∀ events : Dict String Event, events.entries.Perm evidence.events.entries →
      streamingEpisodeSpan (sorted events) evidence.base =
        streamingEpisodeSpan evidence.events.values evidence.base :=
    fun events hperm ↦ streamingEpisodeSpan_perm ((sorted_perm hperm).trans hsorted)
  have hbase := position_rebuildDetails row.details evidence (sorted evidence.events)
  rw [hspan evidence.events (List.Perm.refl _)] at hbase
  have hposition : ∀ events : Dict String Event, events.entries.Perm evidence.events.entries →
      (rebuildDetails row.details { evidence with events := events } (sorted events)).position =
        match streamingEpisodeSpan evidence.events.values evidence.base with
        | some span => some span.2
        | none => (((sorted events).filter isPlaced).getLast?.bind Event.position).or
            evidence.base.position := by
    intro events hperm
    have h := position_rebuildDetails row.details { evidence with events := events }
      (sorted events)
    rw [← hspan events hperm]
    exact h
  rw [← isSome_streamingEpisodeSpan]
  cases hcase : streamingEpisodeSpan evidence.events.values evidence.base with
  | some span =>
    rw [hcase] at hbase hposition
    exact iff_of_true (fun events hperm ↦ (hposition events hperm).trans hbase.symm) (.inl rfl)
  | none =>
    rw [hcase] at hbase hposition
    rw [or_iff_right (by simp), ← latestAgree_iff Event.position isPlaced evidence.events]
    refine forall₂_congr fun events hperm ↦ ?_
    rw [hposition events hperm, hbase]
    exact last_position_iff hperm

/-- A rebuilt card depends on nothing but the map of its events just when the latest events agree
where the last of them counts. -/
theorem orderFree_iff_settled (row : StreamCard) (evidence : Evidence) :
    OrderFree row evidence ↔ Settled evidence := by
  have hstatus := forall_status_iff row evidence
  have hposition := forall_position_iff row evidence
  rw [orderFree_iff_base]
  refine ⟨fun h ↦ ⟨hstatus.mp ?_, hposition.mp ?_⟩, fun h events hperm ↦ ?_⟩
  · exact fun events hperm ↦ ((sameCard_iff hperm).mp (h events hperm)).1
  · exact fun events hperm ↦ ((sameCard_iff hperm).mp (h events hperm)).2
  · exact (sameCard_iff hperm).mpr
      ⟨hstatus.mpr h.status events hperm, hposition.mpr h.position events hperm⟩

end orders

section tied

def droppedEvent : Event := ⟨"status", 0, .dropped, 0, none, some true, none, []⟩

def finishedEvent : Event := ⟨"finish", 0, .completed, 0, none, some true, none, []⟩

/-- A title that one import reported as dropped and the next as finished, both on its last day. -/
def tiedEvents : Dict String Event :=
  (Dict.empty.set "status" droppedEvent).set "finish" finishedEvent

def storedEvents : Dict String Event :=
  (Dict.empty.set "finish" finishedEvent).set "status" droppedEvent

def tiedCard : StreamCard := newCard 1 finishedEvent

def tiedEvidence : Evidence := ⟨tiedEvents, .empty, none, none⟩

/-- The order in which the map is read back decides whether the title is completed. -/
theorem tied_events_not_orderFree :
    ¬ ∀ (row : StreamCard) (evidence : Evidence), OrderFree row evidence := by
  intro h
  have hperm : storedEvents.entries.Perm tiedEvidence.events.entries :=
    List.Perm.swap ("status", droppedEvent) ("finish", finishedEvent) []
  have hsame := h tiedCard tiedEvidence tiedEvents storedEvents (List.Perm.refl _) hperm
  exact absurd hsame.status (by decide)

end tied

end AnyList.Activity.Streaming
