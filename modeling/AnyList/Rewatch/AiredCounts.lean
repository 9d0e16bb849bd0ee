import AnyList.Rewatch.RewatchCycle

namespace AnyList.Rewatch

open AnyList.Library

/-- The markers of freshly fetched metadata. -/
structure TmdbExtra where
  lastEpisodeToAir : Option EpisodeMark
  nextEpisodeToAir : Option EpisodeMark

/-- The show whose markers come from fetched metadata where there are any. -/
def Show.withExtra (tvShow : Show) : Option TmdbExtra → Show
  | none => tvShow
  | some extra =>
    { tvShow with
      lastEpisodeToAir := extra.lastEpisodeToAir
      nextEpisodeToAir := extra.nextEpisodeToAir }

/-- Positions in the order they air. -/
def NotAfter (a b : Int × Int) : Prop := a.1 < b.1 ∨ a.1 = b.1 ∧ a.2 ≤ b.2

theorem NotAfter.trans {a b c : Int × Int} (h : NotAfter a b) (h' : NotAfter b c) :
    NotAfter a c := by
  unfold NotAfter at *
  omega

/-- What a cap leaves of the episodes of a season. -/
def capAt (cap : Option (Int × Int)) (season : Int) (count : ℕ) : ℕ :=
  match cap with
  | none => count
  | some cap =>
    if season = cap.1 then (min (count : Int) cap.2).toNat
    else if cap.1 < season then 0
    else count

section cap

variable {cap cap' : Int × Int} {season : Int} {count : ℕ}

theorem capAt_le (cap : Option (Int × Int)) (season : Int) (count : ℕ) :
    capAt cap season count ≤ count := by
  unfold capAt
  split
  · exact Nat.le_refl count
  · split_ifs <;> omega

theorem capAt_eq_zero (h : cap.1 < season) : capAt (some cap) season count = 0 := by
  have hne : season ≠ cap.1 := by omega
  simp only [capAt, if_neg hne, if_pos h]

/-- A later cap leaves no fewer episodes. -/
theorem capAt_mono (h : NotAfter cap cap') :
    capAt (some cap) season count ≤ capAt (some cap') season count := by
  simp only [capAt]
  unfold NotAfter at h
  split_ifs <;> omega

/-- What a cap leaves lies not after it. -/
theorem notAfter_of_le_capAt {number : Int} (hpos : 1 ≤ number)
    (h : number ≤ capAt (some cap) season count) : NotAfter (season, number) cap := by
  unfold NotAfter
  simp only [capAt] at h
  split_ifs at h <;> omega

end cap

section marks

variable {tvShow : Show} {today today' : Int} {cap cap' : Int × Int}

theorem notAfter_of_lastCap (h : lastCap tvShow today = some cap)
    (h' : lastCap tvShow today' = some cap') (hle : today ≤ today') : NotAfter cap cap' := by
  simp only [lastCap, Option.bind_eq_bind, Option.bind_eq_some_iff, Option.pure_def,
    Option.some.injEq] at h h'
  obtain ⟨last, hlast, season, hseason, number, hnumber, rfl⟩ := h
  obtain ⟨last', hlast', season', hseason', number', hnumber', rfl⟩ := h'
  obtain rfl := Option.some.inj (hlast.symm.trans hlast')
  obtain rfl := Option.some.inj (hseason.symm.trans hseason')
  obtain rfl := Option.some.inj (hnumber.symm.trans hnumber')
  refine .inr ⟨rfl, ?_⟩
  cases hair : last.airDate with
  | none => simp
  | some air =>
    simp only [Option.all_some, decide_eq_true_eq]
    split_ifs <;> omega

theorem lastCap_isSome (tvShow : Show) (today today' : Int) :
    (lastCap tvShow today).isSome = (lastCap tvShow today').isSome := by
  unfold lastCap
  cases tvShow.lastEpisodeToAir with
  | none => rfl
  | some last =>
    cases hseason : last.seasonNumber with
    | none => simp [hseason]
    | some season => cases hnumber : last.episodeNumber <;> simp [hseason, hnumber]

theorem airedCap_eq_none :
    airedCap tvShow today = none ↔ lastCap tvShow today = none ∧ nextCap tvShow = none := by
  unfold airedCap
  cases lastCap tvShow today with
  | none => cases nextCap tvShow <;> simp
  | some last =>
    cases nextCap tvShow with
    | none => simp
    | some before =>
      dsimp only
      split_ifs <;> simp

theorem airedCap_isNone (tvShow : Show) (today today' : Int) :
    (airedCap tvShow today).isNone = (airedCap tvShow today').isNone := by
  have hlast : lastCap tvShow today = none ↔ lastCap tvShow today' = none := by
    rw [← Option.not_isSome_iff_eq_none, ← Option.not_isSome_iff_eq_none,
      lastCap_isSome tvShow today today']
  rw [Bool.eq_iff_iff, Option.isNone_iff_eq_none, Option.isNone_iff_eq_none, airedCap_eq_none,
    airedCap_eq_none, hlast]

/-- The cap is the earlier one of the two markers' positions. -/
theorem airedCap_spec (h : airedCap tvShow today = some cap) :
    (∀ last, lastCap tvShow today = some last → NotAfter cap last) ∧
      (∀ before, nextCap tvShow = some before → NotAfter cap before) ∧
      (lastCap tvShow today = some cap ∨ nextCap tvShow = some cap) := by
  have hrefl (a : Int × Int) : NotAfter a a := .inr ⟨rfl, Int.le_refl _⟩
  unfold airedCap at h
  cases hlast : lastCap tvShow today with
  | none =>
    cases hnext : nextCap tvShow with
    | none => simp [hlast, hnext] at h
    | some before =>
      obtain rfl : before = cap := by simpa [hlast, hnext] using h
      exact ⟨by simp, by simpa using hrefl before, .inr rfl⟩
  | some last =>
    cases hnext : nextCap tvShow with
    | none =>
      obtain rfl : last = cap := by simpa [hlast, hnext] using h
      exact ⟨by simpa using hrefl last, by simp, .inl rfl⟩
    | some before =>
      simp only [hlast, hnext] at h
      split_ifs at h with hle
      · obtain rfl := Option.some.inj h
        exact ⟨by simpa using hrefl last, by simpa [NotAfter] using hle, .inl rfl⟩
      · obtain rfl := Option.some.inj h
        refine ⟨?_, by simpa using hrefl before, .inr rfl⟩
        intro last' hlast'
        obtain rfl := Option.some.inj hlast'
        unfold NotAfter
        omega

theorem notAfter_of_airedCap (h : airedCap tvShow today = some cap)
    (h' : airedCap tvShow today' = some cap') (hle : today ≤ today') : NotAfter cap cap' := by
  obtain ⟨hlast, hnext, -⟩ := airedCap_spec h
  obtain ⟨-, -, hcap' | hcap'⟩ := airedCap_spec h'
  · have hsome := lastCap_isSome tvShow today today'
    rw [hcap'] at hsome
    obtain ⟨last, hcap⟩ := Option.isSome_iff_exists.mp hsome
    exact (hlast last hcap).trans (notAfter_of_lastCap hcap hcap' hle)
  · exact hnext cap' hcap'

end marks

section counts

variable {tvShow : Show} {today today' season : Int} {count count' : ℕ}

theorem get_cappedCounts (tvShow : Show) (today season : Int) :
    (cappedCounts tvShow today).get season =
      ((listedCounts tvShow).get season).map (capAt (airedCap tvShow today) season) := by
  unfold cappedCounts
  cases airedCap tvShow today with
  | none => exact Option.map_id'.symm
  | some cap => exact Dict.get_mapKeyed _ _ season

/-- A season that counts as none for its date. -/
def SeasonUnaired (tvShow : Show) (today season : Int) : Prop :=
  ∃ s ∈ tvShow.seasons, s.seasonNumber = season ∧ isUnaired tvShow today s = true

theorem get_of_seasonUnaired (h : SeasonUnaired tvShow today season) :
    (cappedSeasonEpisodeCounts tvShow today).get season = some 0 := by
  obtain ⟨s, hs, rfl, hunaired⟩ := h
  have hkey : s.seasonNumber ∈ (((tvShow.seasons.filter (isUnaired tvShow today)).map
      fun s ↦ (s.seasonNumber, 0)).map Prod.fst : List Int) := by
    rw [List.map_map]
    exact List.mem_map_of_mem (List.mem_filter.mpr ⟨hs, hunaired⟩)
  obtain ⟨count, hmem, hget⟩ := Dict.exists_get_setAll hkey (cappedCounts tvShow today)
  obtain ⟨s', -, heq⟩ := List.mem_map.mp hmem
  rw [cappedSeasonEpisodeCounts, hget, ← (Prod.mk.inj heq).2]

theorem get_of_not_seasonUnaired (h : ¬SeasonUnaired tvShow today season) :
    (cappedSeasonEpisodeCounts tvShow today).get season =
      ((listedCounts tvShow).get season).map (capAt (airedCap tvShow today) season) := by
  rw [cappedSeasonEpisodeCounts, Dict.get_setAll_of_notMem, get_cappedCounts]
  intro hmem
  rw [List.map_map] at hmem
  obtain ⟨s, hs, rfl⟩ := List.mem_map.mp hmem
  obtain ⟨hs, hunaired⟩ := List.mem_filter.mp hs
  exact h ⟨s, hs, rfl, hunaired⟩

/-- A season that has begun by a day has begun by every later one. -/
theorem SeasonUnaired.of_le (h : SeasonUnaired tvShow today' season) (hle : today ≤ today') :
    SeasonUnaired tvShow today season := by
  obtain ⟨s, hs, hseason, hunaired⟩ := h
  refine ⟨s, hs, hseason, ?_⟩
  unfold isUnaired at hunaired ⊢
  rw [airedCap_isNone tvShow today today']
  cases hair : s.airDate with
  | none => simpa [hair] using hunaired
  | some air =>
    simp only [hair, Option.any_some] at hunaired ⊢
    split_ifs at hunaired ⊢
    · simp only [Bool.not_eq_true', decide_eq_false_iff_not] at hunaired ⊢
      omega
    · simp only [decide_eq_true_eq] at hunaired ⊢
      omega

/-- Every season that is listed has a count, and no other one. -/
theorem exists_count_iff : (∃ count, (cappedSeasonEpisodeCounts tvShow today).get season = some count) ↔
    ∃ count, (listedCounts tvShow).get season = some count := by
  by_cases h : SeasonUnaired tvShow today season
  · refine iff_of_true ⟨0, get_of_seasonUnaired h⟩ ?_
    obtain ⟨s, hs, rfl, -⟩ := h
    have hkey : s.seasonNumber ∈ ((tvShow.seasons.map fun s ↦
        (s.seasonNumber, s.episodeCount)).map Prod.fst) := by
      rw [List.map_map]
      exact List.mem_map_of_mem hs
    obtain ⟨count, -, hget⟩ := Dict.exists_get_setAll hkey Dict.empty
    exact ⟨count, hget⟩
  · rw [get_of_not_seasonUnaired h]
    simp

/-- A count is nothing, or what the cap leaves of the catalogue's count. -/
theorem count_cases (h : (cappedSeasonEpisodeCounts tvShow today).get season = some count) :
    (SeasonUnaired tvShow today season ∧ count = 0) ∨
      ¬SeasonUnaired tvShow today season ∧ ∃ listed, (listedCounts tvShow).get season = some listed ∧
        count = capAt (airedCap tvShow today) season listed := by
  by_cases hunaired : SeasonUnaired tvShow today season
  · rw [get_of_seasonUnaired hunaired] at h
    exact .inl ⟨hunaired, (Option.some.inj h).symm⟩
  · rw [get_of_not_seasonUnaired hunaired, Option.map_eq_some_iff] at h
    obtain ⟨listed, hlisted, hcount⟩ := h
    exact .inr ⟨hunaired, listed, hlisted, hcount.symm⟩

theorem count_le_of_le (hle : today ≤ today')
    (h : (cappedSeasonEpisodeCounts tvShow today).get season = some count)
    (h' : (cappedSeasonEpisodeCounts tvShow today').get season = some count') :
    count ≤ count' := by
  obtain ⟨-, rfl⟩ | ⟨hbegun, listed, hlisted, rfl⟩ := count_cases h
  · exact Nat.zero_le count'
  · obtain ⟨hunaired, -⟩ | ⟨-, listed', hlisted', rfl⟩ := count_cases h'
    · exact absurd (hunaired.of_le hle) hbegun
    · obtain rfl := Option.some.inj (hlisted.symm.trans hlisted')
      have hnone := airedCap_isNone tvShow today today'
      cases hcap : airedCap tvShow today with
      | none =>
        rw [hcap] at hnone
        have hcap' : airedCap tvShow today' = none := by simpa using hnone.symm
        rw [hcap']
      | some cap =>
        cases hcap' : airedCap tvShow today' with
        | none => simp [hcap, hcap'] at hnone
        | some cap' => exact capAt_mono (notAfter_of_airedCap hcap hcap' hle)

/-- An episode that is counted is not after the cap. -/
theorem notAfter_of_mem_airedEpisodes {cap position : Int × Int}
    (hcap : airedCap tvShow today = some cap) (h : position ∈ airedEpisodes tvShow today) :
    NotAfter position cap := by
  obtain ⟨entry, hentry, hposition⟩ := List.mem_flatMap.mp h
  obtain ⟨i, hi, rfl⟩ := List.mem_map.mp hposition
  have hi := List.mem_range.mp hi
  have hget := Dict.mem_entries.mp (List.mem_filter.mp hentry).1
  obtain ⟨-, hzero⟩ | ⟨-, listed, -, hcount⟩ := count_cases hget
  · omega
  · rw [hcap] at hcount
    have hle : (i : Int) + 1 ≤ capAt (some cap) entry.1 listed := by omega
    exact notAfter_of_le_capAt (by omega) hle

end counts

/-- What the counts of a show keep to, on every day. -/
structure CountsAired (tvShow : Show) : Prop where
  counted : ∀ today season, (∃ count, (cappedSeasonEpisodeCounts tvShow today).get season =
    some count) ↔ ∃ count, (listedCounts tvShow).get season = some count
  bounded : ∀ today season count, (cappedSeasonEpisodeCounts tvShow today).get season = some count →
    ∃ listed, (listedCounts tvShow).get season = some listed ∧ count ≤ listed
  capped : ∀ today cap season count, airedCap tvShow today = some cap → cap.1 < season →
    (cappedSeasonEpisodeCounts tvShow today).get season = some count → count = 0
  aired : ∀ today last, lastCap tvShow today = some last →
    ∀ position ∈ airedEpisodes tvShow today, NotAfter position last
  announced : ∀ today before, nextCap tvShow = some before →
    ∀ position ∈ airedEpisodes tvShow today, NotAfter position before
  monotone : ∀ today today' season count count', today ≤ today' →
    (cappedSeasonEpisodeCounts tvShow today).get season = some count →
      (cappedSeasonEpisodeCounts tvShow today').get season = some count' → count ≤ count'

theorem counts_aired (tvShow : Show) (extra : Option TmdbExtra) :
    CountsAired (tvShow.withExtra extra) := by
  generalize tvShow.withExtra extra = tvShow
  refine ⟨fun today season ↦ exists_count_iff, ?_, ?_, ?_, ?_,
    fun today today' season count count' ↦ count_le_of_le⟩
  · intro today season count h
    obtain ⟨listed, hlisted⟩ := exists_count_iff.mp ⟨count, h⟩
    refine ⟨listed, hlisted, ?_⟩
    obtain ⟨-, rfl⟩ | ⟨-, listed', hlisted', rfl⟩ := count_cases h
    · exact Nat.zero_le listed
    · obtain rfl := Option.some.inj (hlisted.symm.trans hlisted')
      exact capAt_le _ season listed
  · intro today cap season count hcap hseason h
    obtain ⟨-, rfl⟩ | ⟨-, listed, -, rfl⟩ := count_cases h
    · rfl
    · rw [hcap]
      exact capAt_eq_zero hseason
  · intro today last hlast position hposition
    cases hcap : airedCap tvShow today with
    | none =>
      rw [(airedCap_eq_none.mp hcap).1] at hlast
      cases hlast
    | some cap =>
      exact (notAfter_of_mem_airedEpisodes hcap hposition).trans ((airedCap_spec hcap).1 last hlast)
  · intro today before hbefore position hposition
    cases hcap : airedCap tvShow today with
    | none =>
      rw [(airedCap_eq_none.mp hcap).2] at hbefore
      cases hbefore
    | some cap =>
      exact (notAfter_of_mem_airedEpisodes hcap hposition).trans
        ((airedCap_spec hcap).2.1 before hbefore)

end AnyList.Rewatch
