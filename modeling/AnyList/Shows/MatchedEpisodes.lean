import AnyList.Shows.EpisodeMatching

namespace AnyList.Shows.EpisodeMatching

open AnyList.Library
open AnyList.Library.Partial (bind_eq_ok)
open AnyList.Library.Runs (Throughout)

section claim

variable (reading : Reading) (externalId : ℤ × ℤ → Option ℤ) (seriesTmdbId : ℤ)
  (tvdbEpisodes : List TvdbEpisode)

/-- Just one of the episodes has the identifier. -/
def NamedOnce (tmdbEpisodes : List TmdbEpisode) (id : ℤ) : Prop :=
  (tmdbEpisodes.filter fun episode ↦ decide (named externalId episode = some id)).length = 1

/-- A mapping that is one to one, leaves what was used and keeps to the identifiers. -/
structure OneToOne (tmdbEpisodes : List TmdbEpisode) (used : Finset ℤ)
    (mappings : List EpisodeOrderMapping) : Prop where
  positions : (mappings.map EpisodeOrderMapping.position).Nodup
  ids : (mappings.map EpisodeOrderMapping.tvdbId).Nodup
  unused : ∀ mapping ∈ mappings, mapping.tvdbId ∉ used
  identifiers : ∀ episode ∈ tmdbEpisodes, ∀ id, named externalId episode = some id →
    NamedOnce externalId tmdbEpisodes id → id ∉ used → (∃ tvdb ∈ tvdbEpisodes, tvdb.id = some id) →
      ∃ mapping ∈ mappings, mapping.position = episode.position ∧ mapping.tvdbId = id

/-- An iteration, on the state it meets, that maps no position again and takes by title no TVDB
episode that an identifier alone names. -/
def Respects (tmdbEpisodes : List TmdbEpisode) (state : State) (episode : TmdbEpisode) : Prop :=
  ∀ mapping, mappingOf reading externalId seriesTmdbId tvdbEpisodes state.used episode =
      .ok (some mapping) →
    mapping.position ∉ state.mappings.map EpisodeOrderMapping.position ∧
      (mapping.matchMethod = .titleDate → ¬ NamedOnce externalId tmdbEpisodes mapping.tvdbId)

/-- The state after an iteration that raises nothing. -/
def advance (state : State) (episode : TmdbEpisode) : State :=
  match mappingOf reading externalId seriesTmdbId tvdbEpisodes state.used episode with
  | .ok (some mapping) => state.add mapping
  | _ => state

end claim

section mappings

variable {reading : Reading} {externalId : ℤ × ℤ → Option ℤ} {seriesTmdbId : ℤ}
  {tvdbEpisodes : List TvdbEpisode} {used : Finset ℤ} {episode : TmdbEpisode}
  {mapping : EpisodeOrderMapping} {id : ℤ} {tvdb : TvdbEpisode}

theorem of_get_tvdbById (h : (tvdbById tvdbEpisodes).get id = some tvdb) :
    tvdb ∈ tvdbEpisodes ∧ tvdb.id = some id := by
  obtain hmem | hempty := Dict.mem_or_get_of_get_setAll h
  · obtain ⟨other, hother, heq⟩ := List.mem_filterMap.mp hmem
    obtain ⟨id', hid, hpair⟩ := Option.map_eq_some_iff.mp heq
    obtain ⟨rfl, rfl⟩ := Prod.mk.inj hpair
    exact ⟨hother, hid⟩
  · cases hempty

theorem exists_get_tvdbById (h : tvdb ∈ tvdbEpisodes) (hid : tvdb.id = some id) :
    ∃ tvdb, (tvdbById tvdbEpisodes).get id = some tvdb := by
  have hmem : (id, tvdb) ∈ tvdbEpisodes.filterMap fun episode ↦
      episode.id.map fun id ↦ (id, episode) :=
    List.mem_filterMap.mpr ⟨tvdb, h, by rw [hid]; rfl⟩
  obtain ⟨found, -, hget⟩ := Dict.exists_get_setAll (List.mem_map_of_mem hmem) Dict.empty
  exact ⟨found, hget⟩

theorem externalMatch_of_named (h : named externalId episode = some id) :
    externalMatch externalId tvdbEpisodes used episode =
      if id ∈ used then none else (tvdbById tvdbEpisodes).get id := by
  rw [externalMatch, h, Option.bind_some]

/-- What an iteration maps: a listed episode with a place, by its identifier or its title. -/
theorem of_mappingOf (h : mappingOf reading externalId seriesTmdbId tvdbEpisodes used episode =
    .ok (some mapping)) : ∃ tvdb season number,
      chosen reading externalId tvdbEpisodes used episode = some (tvdb, mapping.matchMethod) ∧
        tvdb.id = some mapping.tvdbId ∧ tvdb.seasonNumber = some season ∧
          tvdb.number = some number ∧ mapping.position = episode.position := by
  unfold mappingOf at h
  split at h
  · next id season number _ _ method hchosen =>
    split at h
    · obtain rfl := Option.some.inj (Except.ok.inj h)
      exact ⟨_, season, number, hchosen, rfl, rfl, rfl, rfl⟩
    · cases h
  · cases h

theorem chosen_externalId
    (h : chosen reading externalId tvdbEpisodes used episode = some (tvdb, .externalId)) :
    externalMatch externalId tvdbEpisodes used episode = some tvdb := by
  unfold chosen at h
  split at h
  · next found hfound => rw [hfound, (Prod.mk.inj (Option.some.inj h)).1]
  · split at h
    · cases (Prod.mk.inj (Option.some.inj h)).2
    · cases h

theorem chosen_titleDate
    (h : chosen reading externalId tvdbEpisodes used episode = some (tvdb, .titleDate)) :
    externalMatch externalId tvdbEpisodes used episode = none ∧
      tvdb ∈ candidates reading tvdbEpisodes used episode := by
  unfold chosen at h
  split at h
  · cases (Prod.mk.inj (Option.some.inj h)).2
  · next hnone =>
    split at h
    · next found hfound =>
      rw [← (Prod.mk.inj (Option.some.inj h)).1, hfound]
      exact ⟨hnone, List.mem_cons_self⟩
    · cases h

theorem mem_of_chosen {method : MatchMethod}
    (h : chosen reading externalId tvdbEpisodes used episode = some (tvdb, method))
    (hid : tvdb.id = some id) : tvdb ∈ tvdbEpisodes ∧ id ∉ used := by
  cases method with
  | externalId =>
    obtain ⟨id', -, hfound⟩ := Option.bind_eq_some_iff.mp (chosen_externalId h)
    split_ifs at hfound with hused
    obtain ⟨hmem, hid'⟩ := of_get_tvdbById hfound
    obtain rfl : id' = id := Option.some.inj (hid'.symm.trans hid)
    exact ⟨hmem, hused⟩
  | titleDate =>
    obtain ⟨hmem, htaken⟩ := List.mem_filter.mp (chosen_titleDate h).2
    rw [hid, Bool.and_eq_true] at htaken
    exact ⟨hmem, of_decide_eq_true htaken.1⟩

/-- An identifier that is not taken is the one that is mapped, by the episode it names. -/
theorem mappingOf_of_named (h : named externalId episode = some id) (hunused : id ∉ used)
    (hget : (tvdbById tvdbEpisodes).get id = some tvdb) {season number : ℤ}
    (hseason : tvdb.seasonNumber = some season) (hnumber : tvdb.number = some number) :
    ∃ mapping, mappingOf reading externalId seriesTmdbId tvdbEpisodes used episode =
        .ok (some mapping) ∧ mapping.position = episode.position ∧ mapping.tvdbId = id ∧
          mapping.matchMethod = .externalId := by
  obtain ⟨-, hid⟩ := of_get_tvdbById hget
  obtain ⟨tvdbId, tvdbSeason, tvdbNumber, name, aired⟩ := tvdb
  obtain rfl : tvdbId = some id := hid
  obtain rfl : tvdbSeason = some season := hseason
  obtain rfl : tvdbNumber = some number := hnumber
  have hmatch : externalMatch externalId tvdbEpisodes used episode = _ :=
    (externalMatch_of_named h).trans ((if_neg hunused).trans hget)
  refine ⟨⟨seriesTmdbId, episode.seasonNumber, episode.episodeNumber, episode.id, id, season, number,
    .externalId⟩, ?_, rfl, rfl, rfl⟩
  unfold mappingOf chosen
  rw [hmatch]

end mappings

section runs

variable {reading : Reading} {externalId : ℤ × ℤ → Option ℤ} {seriesTmdbId : ℤ}
  {tvdbEpisodes : List TvdbEpisode} {used : Finset ℤ} {tmdbEpisodes : List TmdbEpisode}
  {state state' : State} {episode : TmdbEpisode} {mapping : EpisodeOrderMapping} {id : ℤ}
  {tvdb : TvdbEpisode}

/-- A loop that raises nothing ends where its iterations lead. -/
theorem foldl_of_foldlM (h : tmdbEpisodes.foldlM
    (matchEpisode reading externalId seriesTmdbId tvdbEpisodes) state = .ok state') :
    tmdbEpisodes.foldl (advance reading externalId seriesTmdbId tvdbEpisodes) state = state' := by
  induction tmdbEpisodes generalizing state with
  | nil => exact Except.ok.inj h
  | cons episode rest ih =>
    rw [List.foldlM_cons] at h
    obtain ⟨next, hnext, hrest⟩ := bind_eq_ok.mp h
    obtain ⟨mapped, hmapped, hstate⟩ := bind_eq_ok.mp hnext
    have hadvance : advance reading externalId seriesTmdbId tvdbEpisodes state episode = next := by
      rw [advance, hmapped]
      cases mapped with
      | none => exact Except.ok.inj hstate
      | some mapping => exact Except.ok.inj hstate
    rw [List.foldl_cons, hadvance]
    exact ih hrest

theorem advance_cases (reading : Reading) (externalId : ℤ × ℤ → Option ℤ) (seriesTmdbId : ℤ)
    (tvdbEpisodes : List TvdbEpisode) (state : State) (episode : TmdbEpisode) :
    advance reading externalId seriesTmdbId tvdbEpisodes state episode = state ∨
      ∃ mapping, mappingOf reading externalId seriesTmdbId tvdbEpisodes state.used episode =
        .ok (some mapping) ∧
          advance reading externalId seriesTmdbId tvdbEpisodes state episode = state.add mapping := by
  rw [advance]
  split
  · next mapping heq => exact .inr ⟨mapping, heq, rfl⟩
  · exact .inl rfl

/-- The ids that are taken are those used at first and those of the mappings, once each. -/
structure Taken (used : Finset ℤ) (state : State) : Prop where
  ids : (state.mappings.map EpisodeOrderMapping.tvdbId).Nodup
  kept : ∀ id ∈ used, id ∈ state.used
  unused : ∀ mapping ∈ state.mappings, mapping.tvdbId ∉ used
  mapped : ∀ mapping ∈ state.mappings, mapping.tvdbId ∈ state.used

theorem tvdbId_of_mappingOf (h : mappingOf reading externalId seriesTmdbId tvdbEpisodes used
    episode = .ok (some mapping)) : mapping.tvdbId ∉ used := by
  obtain ⟨tvdb, _, _, hchosen, hid, -⟩ := of_mappingOf h
  exact (mem_of_chosen hchosen hid).2

theorem Taken.step (h : Taken used state) (episode : TmdbEpisode) :
    Taken used (advance reading externalId seriesTmdbId tvdbEpisodes state episode) := by
  obtain heq | ⟨mapping, hmapping, heq⟩ :=
    advance_cases reading externalId seriesTmdbId tvdbEpisodes state episode
  · rwa [heq]
  · have hnew := tvdbId_of_mappingOf hmapping
    rw [heq]
    refine ⟨?_, fun id hid ↦ Finset.mem_insert_of_mem (h.kept id hid), ?_, ?_⟩
    · rw [State.add, List.map_append, List.map_singleton]
      refine List.nodup_append.mpr ⟨h.ids, List.nodup_singleton _, ?_⟩
      rintro id hid _ hmem rfl
      obtain rfl := List.mem_singleton.mp hmem
      obtain ⟨other, hother, hsame⟩ := List.mem_map.mp hid
      exact hnew (hsame ▸ h.mapped other hother)
    · intro other hother
      obtain hother | hother := List.mem_append.mp hother
      · exact h.unused other hother
      · rw [List.mem_singleton.mp hother]
        exact fun hused ↦ hnew (h.kept _ hused)
    · intro other hother
      obtain hother | hother := List.mem_append.mp hother
      · exact Finset.mem_insert_of_mem (h.mapped other hother)
      · rw [List.mem_singleton.mp hother]
        exact Finset.mem_insert_self _ _

/-- Mappings are only appended. -/
theorem mappings_prefix (tmdbEpisodes : List TmdbEpisode) (state : State) : state.mappings <+:
    (tmdbEpisodes.foldl (advance reading externalId seriesTmdbId tvdbEpisodes) state).mappings := by
  induction tmdbEpisodes generalizing state with
  | nil => exact List.prefix_refl _
  | cons episode rest ih =>
    refine List.IsPrefix.trans ?_ (ih _)
    obtain heq | ⟨mapping, -, heq⟩ :=
      advance_cases reading externalId seriesTmdbId tvdbEpisodes state episode
    · rw [heq]
    · rw [heq]
      exact List.prefix_append _ _

/-- A missing place of the episode that an identifier names leaves the identifier without its
mapping. -/
def Misplaced (externalId : ℤ × ℤ → Option ℤ) (id : ℤ) (state : State) : Prop :=
  ∀ mapping ∈ state.mappings, (externalId mapping.position).filter (· ≠ 0) = some id →
    mapping.tvdbId ≠ id

theorem Misplaced.step (hget : (tvdbById tvdbEpisodes).get id = some tvdb)
    (hplace : tvdb.seasonNumber = none ∨ tvdb.number = none)
    (h : Misplaced externalId id state) (episode : TmdbEpisode) :
    Misplaced externalId id
      (advance reading externalId seriesTmdbId tvdbEpisodes state episode) := by
  obtain heq | ⟨mapping, hmapping, heq⟩ :=
    advance_cases reading externalId seriesTmdbId tvdbEpisodes state episode
  · rwa [heq]
  · rw [heq]
    intro other hother hnamed hid
    obtain hother | hother := List.mem_append.mp hother
    · exact h other hother hnamed hid
    · obtain rfl := List.mem_singleton.mp hother
      obtain ⟨found, season, number, hchosen, hfound, hseason, hnumber, hposition⟩ :=
        of_mappingOf hmapping
      have hunused := tvdbId_of_mappingOf hmapping
      rw [hposition] at hnamed
      have hmatch : externalMatch externalId tvdbEpisodes state.used episode = _ :=
        externalMatch_of_named hnamed
      rw [← hid, if_neg hunused, hid, hget] at hmatch
      have hsame : found = tvdb := by
        unfold chosen at hchosen
        rw [hmatch] at hchosen
        exact (Prod.mk.inj (Option.some.inj hchosen)).1.symm
      rw [hsame] at hseason hnumber
      obtain hnone | hnone := hplace
      · rw [hnone] at hseason
        cases hseason
      · rw [hnone] at hnumber
        cases hnumber

theorem mem_final (hmapping : mappingOf reading externalId seriesTmdbId tvdbEpisodes state.used
    episode = .ok (some mapping)) (rest : List TmdbEpisode) : state.mappings ++ [mapping] <+:
      (rest.foldl (advance reading externalId seriesTmdbId tvdbEpisodes)
        (advance reading externalId seriesTmdbId tvdbEpisodes state episode)).mappings := by
  have hadvance : advance reading externalId seriesTmdbId tvdbEpisodes state episode =
      state.add mapping := by
    rw [advance, hmapping]
  rw [hadvance]
  exact mappings_prefix rest (state.add mapping)

/-- A one to one mapping comes from iterations that respect positions and identifiers. -/
theorem respects_of_oneToOne (rest : List TmdbEpisode) (state : State) (htaken : Taken used state)
    (h : OneToOne externalId tvdbEpisodes tmdbEpisodes used
      (rest.foldl (advance reading externalId seriesTmdbId tvdbEpisodes) state).mappings) :
    Throughout (advance reading externalId seriesTmdbId tvdbEpisodes)
      (Respects reading externalId seriesTmdbId tvdbEpisodes tmdbEpisodes) state rest := by
  induction rest generalizing state with
  | nil => trivial
  | cons episode rest ih =>
    refine ⟨fun mapping hmapping ↦ ?_, ih _ (htaken.step episode) h⟩
    have hearlier : state.mappings ++ [mapping] <+: _ := mem_final hmapping rest
    have hnodup := h.positions.sublist (hearlier.sublist.map EpisodeOrderMapping.position)
    rw [List.map_append, List.map_singleton, List.nodup_append] at hnodup
    refine ⟨fun hmem ↦ hnodup.2.2 _ hmem _ List.mem_cons_self rfl, fun hmethod hnamed ↦ ?_⟩
    obtain ⟨tvdb, _, _, hchosen, hid, -, -, hposition⟩ := of_mappingOf hmapping
    rw [hmethod] at hchosen
    obtain ⟨hlisted, hunused⟩ := mem_of_chosen hchosen hid
    obtain ⟨owner, howner⟩ := List.length_eq_one_iff.mp hnamed
    have howner' : owner ∈ tmdbEpisodes ∧ named externalId owner = some mapping.tvdbId := by
      have hmem : owner ∈ tmdbEpisodes.filter fun episode ↦
          decide (named externalId episode = some mapping.tvdbId) := by
        rw [howner]
        exact List.mem_singleton_self owner
      exact (List.mem_filter.mp hmem).imp_right of_decide_eq_true
    obtain ⟨other, hother, hotherPosition, hotherId⟩ := h.identifiers owner howner'.1 _ howner'.2
      hnamed (fun hused ↦ hunused (htaken.kept _ hused)) ⟨tvdb, hlisted, hid⟩
    have hmem : mapping ∈ _ := hearlier.subset (List.mem_append_right _ List.mem_cons_self)
    obtain rfl : other = mapping := List.inj_on_of_nodup_map h.ids hother hmem hotherId
    have hself : named externalId episode = some other.tvdbId := by
      rw [named, ← hposition, hotherPosition]
      exact howner'.2
    obtain ⟨found, hfound⟩ := exists_get_tvdbById hlisted hid
    have hnone := (chosen_titleDate hchosen).1
    rw [externalMatch_of_named hself, if_neg hunused, hfound] at hnone
    cases hnone

/-- Iterations that respect the identifiers leave each to the episode that it names. -/
theorem identifiers_of_respects (done rest : List TmdbEpisode) (state : State)
    (hall : tmdbEpisodes = done ++ rest)
    (h : Throughout (advance reading externalId seriesTmdbId tvdbEpisodes)
      (Respects reading externalId seriesTmdbId tvdbEpisodes tmdbEpisodes) state rest)
    (hfree : ∀ id, NamedOnce externalId tmdbEpisodes id → id ∉ used →
      (∃ episode ∈ rest, named externalId episode = some id) → id ∉ state.used)
    (hplaced : ∀ id tvdb, NamedOnce externalId tmdbEpisodes id → id ∉ used →
      (tvdbById tvdbEpisodes).get id = some tvdb →
        ∃ season number, tvdb.seasonNumber = some season ∧ tvdb.number = some number)
    (hepisode : episode ∈ rest) (hid : named externalId episode = some id)
    (hnamed : NamedOnce externalId tmdbEpisodes id) (hunused : id ∉ used)
    (hlisted : ∃ tvdb ∈ tvdbEpisodes, tvdb.id = some id) :
    ∃ mapping ∈ (rest.foldl (advance reading externalId seriesTmdbId tvdbEpisodes) state).mappings,
      mapping.position = episode.position ∧ mapping.tvdbId = id := by
  induction rest generalizing done state with
  | nil => cases hepisode
  | cons first rest ih =>
    obtain hfirst | hrest := List.mem_cons.mp hepisode
    · rw [hfirst] at hid ⊢
      obtain ⟨tvdb, htvdb, htvdbId⟩ := hlisted
      obtain ⟨found, hfound⟩ := exists_get_tvdbById htvdb htvdbId
      obtain ⟨season, number, hseason, hnumber⟩ := hplaced id found hnamed hunused hfound
      obtain ⟨mapping, hmapping, hposition, htvdbId, -⟩ := mappingOf_of_named hid
        (hfree id hnamed hunused ⟨first, List.mem_cons_self, hid⟩) hfound hseason hnumber
      exact ⟨mapping, (mem_final hmapping rest).subset
        (List.mem_append_right _ List.mem_cons_self), hposition, htvdbId⟩
    · refine ih (done ++ [first]) _ (by simp [hall]) h.2 (fun other hother hfresh hlater ↦ ?_) hrest
      obtain ⟨later, hlater, hlaterId⟩ := hlater
      have hbefore := hfree other hother hfresh ⟨later, List.mem_cons_of_mem _ hlater, hlaterId⟩
      obtain heq | ⟨mapping, hmapping, heq⟩ :=
        advance_cases reading externalId seriesTmdbId tvdbEpisodes state first
      · rwa [heq]
      · rw [heq]
        intro hmem
        obtain hsame | hmem := Finset.mem_insert.mp hmem
        · obtain ⟨tvdb, _, _, hchosen, htvdbId, -⟩ := of_mappingOf hmapping
          cases hmethod : mapping.matchMethod with
          | titleDate => exact (h.1 mapping hmapping).2 hmethod (hsame ▸ hother)
          | externalId =>
            rw [hmethod] at hchosen
            obtain ⟨id', hid', hfound⟩ := Option.bind_eq_some_iff.mp (chosen_externalId hchosen)
            split_ifs at hfound
            have hfirst : named externalId first = some other := by
              rw [hid', hsame, ← htvdbId, (of_get_tvdbById hfound).2]
            have htwo : 2 ≤ (tmdbEpisodes.filter fun episode ↦
                decide (named externalId episode = some other)).length := by
              rw [hall, List.filter_append, List.filter_cons_of_pos (by simpa using hfirst),
                List.length_append, List.length_cons]
              have hpos : 0 < (rest.filter fun episode ↦
                  decide (named externalId episode = some other)).length :=
                List.length_pos_of_mem (List.mem_filter.mpr ⟨hlater, by simpa using hlaterId⟩)
              omega
            rw [NamedOnce] at hother
            omega
        · exact hbefore hmem

/-- Episode matching is one to one and respects identifiers just where its iterations map no
position again and take by title nothing that an identifier alone names, and what such an
identifier names has a place. -/
theorem matchTmdbToTvdbEpisodes_one_to_one {mappings : List EpisodeOrderMapping}
    (h : matchTmdbToTvdbEpisodes reading externalId seriesTmdbId tvdbEpisodes tmdbEpisodes used =
      .ok mappings) :
    OneToOne externalId tvdbEpisodes tmdbEpisodes used mappings ↔
      Throughout (advance reading externalId seriesTmdbId tvdbEpisodes)
          (Respects reading externalId seriesTmdbId tvdbEpisodes tmdbEpisodes) ⟨used, []⟩
          tmdbEpisodes ∧
        ∀ id tvdb, NamedOnce externalId tmdbEpisodes id → id ∉ used →
          (tvdbById tvdbEpisodes).get id = some tvdb →
            ∃ season number, tvdb.seasonNumber = some season ∧ tvdb.number = some number := by
  have hfinal : (tmdbEpisodes.foldl (advance reading externalId seriesTmdbId tvdbEpisodes)
      ⟨used, []⟩).mappings = mappings := by
    unfold matchTmdbToTvdbEpisodes at h
    split_ifs at h
    obtain ⟨state, hstate, h⟩ := bind_eq_ok.mp h
    rw [foldl_of_foldlM hstate]
    exact Except.ok.inj h
  have hinit : Taken used ⟨used, []⟩ :=
    ⟨List.nodup_nil, fun _ hid ↦ hid, List.forall_mem_nil _, List.forall_mem_nil _⟩
  have htaken : Taken used (tmdbEpisodes.foldl
      (advance reading externalId seriesTmdbId tvdbEpisodes) ⟨used, []⟩) :=
    Runs.invariant hinit fun _ episode htaken ↦ htaken.step episode
  subst hfinal
  constructor
  · intro hone
    refine ⟨respects_of_oneToOne tmdbEpisodes _ hinit hone,
      fun id tvdb hnamed hunused hget ↦ ?_⟩
    by_contra hplace
    have hmissing : tvdb.seasonNumber = none ∨ tvdb.number = none := by
      cases hseason : tvdb.seasonNumber with
      | none => exact .inl rfl
      | some season =>
        cases hnumber : tvdb.number with
        | none => exact .inr rfl
        | some number => exact absurd ⟨season, number, hseason, hnumber⟩ hplace
    have hmisplaced : Misplaced externalId id (tmdbEpisodes.foldl
        (advance reading externalId seriesTmdbId tvdbEpisodes) ⟨used, []⟩) :=
      Runs.invariant (List.forall_mem_nil _) fun _ episode hmis ↦ hmis.step hget hmissing episode
    obtain ⟨owner, howner⟩ := List.length_eq_one_iff.mp hnamed
    have hmem : owner ∈ tmdbEpisodes.filter fun episode ↦
        decide (named externalId episode = some id) := by
      rw [howner]
      exact List.mem_singleton_self owner
    obtain ⟨howner, hid⟩ := List.mem_filter.mp hmem
    obtain ⟨mapping, hmapping, hposition, htvdbId⟩ := hone.identifiers owner howner id
      (of_decide_eq_true hid) hnamed hunused ⟨tvdb, of_get_tvdbById hget⟩
    refine hmisplaced mapping hmapping ?_ htvdbId
    rw [hposition]
    exact of_decide_eq_true hid
  · rintro ⟨hsteps, hplaced⟩
    refine ⟨?_, htaken.ids, htaken.unused, fun episode hepisode id hid hnamed hunused hlisted ↦
      identifiers_of_respects [] tmdbEpisodes _ rfl hsteps (fun _ _ hfresh _ ↦ hfresh) hplaced
        hepisode hid hnamed hunused hlisted⟩
    refine hsteps.invariant (I := fun state ↦
      (state.mappings.map EpisodeOrderMapping.position).Nodup) List.nodup_nil ?_
    intro state episode hnodup hrespects
    obtain heq | ⟨mapping, hmapping, heq⟩ :=
      advance_cases reading externalId seriesTmdbId tvdbEpisodes state episode
    · rwa [heq]
    · rw [heq, State.add, List.map_append, List.map_singleton]
      refine List.nodup_append.mpr ⟨hnodup, List.nodup_singleton _, ?_⟩
      rintro position hposition _ hmem rfl
      obtain rfl := List.mem_singleton.mp hmem
      exact (hrespects mapping hmapping).1 hposition

end runs

section pilots

/-- Titles in plain ASCII, without dates. -/
def asciiReading : Reading := ⟨String.toList, fun _ ↦ none⟩

def pilot (number id : ℤ) (name : String) : TmdbEpisode := ⟨1, number, id, some name, none⟩

def tvdbPilot : TvdbEpisode := ⟨some 100, some 1, some 2, some "Pilot", none⟩

/-- The second episode has the TVDB id. -/
def secondHasId (position : ℤ × ℤ) : Option ℤ := if position = (1, 2) then some 100 else none

theorem matchTmdbToTvdbEpisodes_one_to_one_pilot :
    OneToOne secondHasId [tvdbPilot] [pilot 2 12 "Other"] ∅
        [⟨7, 1, 2, 12, 100, 1, 2, .externalId⟩] ↔
      Throughout (advance asciiReading secondHasId 7 [tvdbPilot])
          (Respects asciiReading secondHasId 7 [tvdbPilot] [pilot 2 12 "Other"]) ⟨∅, []⟩
          [pilot 2 12 "Other"] ∧
        ∀ id tvdb, NamedOnce secondHasId [pilot 2 12 "Other"] id → id ∉ (∅ : Finset ℤ) →
          (tvdbById [tvdbPilot]).get id = some tvdb →
            ∃ season number, tvdb.seasonNumber = some season ∧ tvdb.number = some number :=
  matchTmdbToTvdbEpisodes_one_to_one rfl

/-- The first episode takes by its title what the identifier of the second one names. -/
theorem matchTmdbToTvdbEpisodes_takes_title :
    ∃ mappings, matchTmdbToTvdbEpisodes asciiReading secondHasId 7 [tvdbPilot]
        [pilot 1 11 "Pilot", pilot 2 12 "Other"] ∅ = .ok mappings ∧
      ¬ OneToOne secondHasId [tvdbPilot] [pilot 1 11 "Pilot", pilot 2 12 "Other"] ∅ mappings := by
  refine ⟨[⟨7, 1, 1, 11, 100, 1, 2, .titleDate⟩], rfl, fun h ↦ ?_⟩
  obtain ⟨mapping, hmapping, hposition, -⟩ := h.identifiers (pilot 2 12 "Other") (by decide) 100 rfl
    rfl (by decide) ⟨tvdbPilot, List.mem_cons_self, rfl⟩
  obtain rfl := List.mem_singleton.mp hmapping
  exact absurd hposition (by decide)

end pilots

end AnyList.Shows.EpisodeMatching
