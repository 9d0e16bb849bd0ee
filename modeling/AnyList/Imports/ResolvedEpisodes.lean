import AnyList.Imports.GuessedEpisodes

namespace AnyList.Imports.EpisodeResolution

open AnyList.Library AnyList.Library.FirstByKey AnyList.Imports.ViewingHistory

variable {py : Python} {today : Int} {records : List Episode} {catalogue : List CatalogEpisode}

section events

variable {record : Episode} {i : ℕ} {d : Text} {p : Position}

theorem mem_events (h : records[i]? = some record) (hd : d ∈ viewingDates record) :
    ∃ event ∈ events records, event.date = d ∧ event.index = i := by
  obtain ⟨k, hk, rfl⟩ := List.getElem_of_mem hd
  let event : Event := ⟨(viewingDates record)[k],
    -((rowsOf record)[min k ((rowsOf record).length - 1)]?.getD 0), i⟩
  have hviewing : event ∈ viewings i record := List.mem_mapIdx.mpr ⟨k, hk, rfl⟩
  have hrecord : viewings i record ∈ records.mapIdx viewings := by
    refine List.mem_of_getElem? (i := i) ?_
    rw [List.getElem?_mapIdx, h, Option.map_some]
  refine ⟨event, ?_, rfl, rfl⟩
  exact (List.mem_insertionSort _).mpr (List.mem_flatten.mpr ⟨_, hrecord, hviewing⟩)

theorem viewingDates_ne_nil (record : Episode) : viewingDates record ≠ [] := by
  rw [viewingDates]
  split_ifs with h
  · exact List.cons_ne_nil _ _
  · exact h

theorem mem_anchors (h : record ∈ records) (hp : record.positionOf = some p) : p ∈ anchors records := by
  obtain ⟨i, hi⟩ := List.mem_iff_getElem?.mp h
  obtain ⟨d, hd⟩ := List.exists_mem_of_ne_nil _ (viewingDates_ne_nil record)
  obtain ⟨event, hevent, -, hindex⟩ := mem_events hi hd
  refine List.mem_filterMap.mpr ⟨event, hevent, ?_⟩
  rw [anchorOf, hindex, hi, Option.bind_some, hp]

theorem pairwise_events (records : List Episode) :
    (events records).Pairwise fun a b ↦ a.order ≤ b.order := by
  have htotal : Std.Total fun a b : Event ↦ a.order ≤ b.order :=
    ⟨fun a b ↦ le_total a.order b.order⟩
  have htrans : IsTrans Event fun a b ↦ a.order ≤ b.order := ⟨fun _ _ _ ↦ le_trans⟩
  exact List.pairwise_insertionSort _ _

theorem flatten_splitOnP {α : Type*} (p : α → Bool) (l : List α) :
    (l.splitOnP p).flatten = l.filter fun a ↦ !p a := by
  induction l with
  | nil => rfl
  | cons a l ih =>
    rw [List.splitOnP_cons_eq_if_modifyHead]
    split_ifs with h
    · rw [List.flatten_cons, ih, List.filter_cons_of_neg (by simp [h])]
      rfl
    · rw [List.filter_cons_of_pos (by simp [h]), ← ih]
      cases hsplit : l.splitOnP p with
      | nil => exact absurd hsplit (List.splitOnP_ne_nil p l)
      | cons group rest => rfl

theorem flatMap_runs (records : List Episode) : (runs records).flatMap Run.events =
    (events records).filter fun event ↦ !(anchorOf records event).isSome := by
  have hgroups : (runs records).map Run.events = groups records := by
    refine List.ext_getElem? fun i ↦ ?_
    rw [runs, List.getElem?_map, List.getElem?_mapIdx, Option.map_map]
    exact Option.map_id'
  rw [List.flatMap_def, hgroups, groups, flatten_splitOnP]

/-- The viewing that settles the guess of a title: the first one of an unknown episode. -/
theorem exists_firstViewing (py : Python) (h : records[i]? = some record) (hmatched : record.matched = false) :
    ∃ run unique event, (run, unique) ∈ firstViewings py records [] (runs records) ∧
      event ∈ unique ∧ keyOf py records event = record.key py ∧
        ∀ d ∈ viewingDates record, event.date ≤ d := by
  have hfirst (d : Text) (hd : d ∈ viewingDates record) :
      ∃ event ∈ firsts (keyOf py records) [] ((runs records).flatMap Run.events),
        keyOf py records event = record.key py ∧ event.date ≤ d := by
    obtain ⟨event, hevent, rfl, hindex⟩ := mem_events h hd
    have hkey : keyOf py records event = record.key py := by
      rw [keyOf, hindex, h, Option.map_some, Option.getD_some]
    have hunknown : event ∈ (runs records).flatMap Run.events := by
      rw [flatMap_runs, List.mem_filter, anchorOf, hindex, h, Option.bind_some,
        Episode.positionOf, hmatched]
      exact ⟨hevent, rfl⟩
    have hsorted : ((runs records).flatMap Run.events).Pairwise fun a b ↦ a.order ≤ b.order := by
      rw [flatMap_runs]
      exact (pairwise_events records).filter _
    obtain ⟨first, hmem, hkey', heq | hle⟩ := exists_first (keyOf py records) [] hsorted
      hunknown List.not_mem_nil
    · exact ⟨first, hmem, hkey'.trans hkey, le_of_eq (congrArg Event.date heq)⟩
    · exact ⟨first, hmem, hkey'.trans hkey, Prod.Lex.monotone_fst _ _ hle⟩
  obtain ⟨d, hd⟩ := List.exists_mem_of_ne_nil _ (viewingDates_ne_nil record)
  obtain ⟨event, hevent, hkey, -⟩ := hfirst d hd
  rw [← flatMap_firstViewings] at hfirst hevent
  have hnodup : (((firstViewings py records [] (runs records)).flatMap Prod.snd).map
      (keyOf py records)).Nodup := by
    rw [flatMap_firstViewings]
    exact nodup_map_firsts _ _
  obtain ⟨⟨run, unique⟩, hrun, hunique⟩ := List.mem_flatMap.mp hevent
  refine ⟨run, unique, event, hrun, hunique, hkey, fun d' hd' ↦ ?_⟩
  obtain ⟨event', hevent', hkey', hle⟩ := hfirst d' hd'
  rw [List.inj_on_of_nodup_map hnodup hevent hevent' (hkey.trans hkey'.symm)]
  exact hle

end events

section outcomes

variable {record : Episode} {ep : CatalogEpisode} {i : ℕ} {p : Position}

/-- What a guess for an unknown record keeps to. -/
structure Supported (py : Python) (today : Int) (records : List Episode)
    (catalogue : List CatalogEpisode) (record : Episode) (p : Position) : Prop where
  fresh : ∀ exact ∈ records, exact.positionOf ≠ some p
  viewed : ∃ run unique event, (run, unique) ∈ firstViewings py records [] (runs records) ∧
    event ∈ unique ∧ keyOf py records event = record.key py ∧
      (∀ d ∈ viewingDates record, event.date ≤ d) ∧ run.Between p ∧
        ∃ ep, catalog catalogue p = some ep ∧ episodeReleasedBy py today ep event.date = true

theorem supported_of_outcomes (h : records[i]? = some record) (hmatched : record.matched = false)
    (hp : (record.key py, .guessed p) ∈ (resolveRuns py today records catalogue).outcomes) :
    Supported py today records catalogue record p := by
  have hapart := apart_resolveRuns py today records catalogue
  refine ⟨fun exact hexact hposition ↦ ?_, ?_⟩
  · exact (hapart.reserved _ p hp).2 (mem_anchors hexact hposition)
  · obtain ⟨run, unique, event, hrun, hevent, hkey, hdates⟩ := exists_firstViewing py h hmatched
    have hfollows : Follows py today records catalogue
        (resolveRuns py today records catalogue).outcomes run unique :=
      follows_foldl hapart.keys (fun entry hentry ↦ hentry) hrun
    obtain ⟨hbetween, hreleased⟩ := hfollows.each event hevent p (hkey.symm ▸ hp)
    refine ⟨run, unique, event, hrun, hevent, hkey, hdates, hbetween, ?_⟩
    cases hep : catalog catalogue p with
    | none =>
      rw [hep] at hreleased
      cases hreleased
    | some ep =>
      rw [hep] at hreleased
      exact ⟨ep, rfl, hreleased⟩

theorem position_of_catalog (h : catalog catalogue p = some ep) :
    ep ∈ catalogue ∧ ep.position = some p := by
  have hmem := List.mem_filter.mp (List.mem_of_getLast? h)
  exact ⟨hmem.1, of_decide_eq_true hmem.2⟩

theorem positionFrom_ofLex {season episode : Option Int} (h : positionFrom season episode = some p) :
    positionFrom (some (ofLex p).1) (some (ofLex p).2) = some p := by
  cases season with
  | none => cases h
  | some season =>
    cases episode with
    | none => cases h
    | some episode =>
      rw [positionFrom] at h
      split_ifs at h with hne
      cases h
      exact if_pos hne

theorem positionOf_guessedEpisode (h : ep.position = some p) :
    (guessedEpisode record p ep).positionOf = some p := positionFrom_ofLex h

/-- The three ends of an unknown record. -/
theorem finish_cases (hmatched : record.matched = false) (st : State)
    (hcatalog : ∀ p, (record.key py, .guessed p) ∈ st.outcomes → ∃ ep, catalog catalogue p = some ep)
    (hkeys : (st.outcomes.map Prod.fst).Nodup) :
    (∃ p ep, (record.key py, .guessed p) ∈ st.outcomes ∧ catalog catalogue p = some ep ∧
        finish py catalogue st record = guessedEpisode record p ep) ∨
      (finish py catalogue st record).resolution = some "covered" ∨
      (finish py catalogue st record).resolution = some "discarded" := by
  rw [finish, if_neg (by rw [hmatched]; exact Bool.false_ne_true)]
  cases hguess : Dict.getEntry (record.key py) st.outcomes with
  | none => exact .inr (.inr rfl)
  | some guess =>
    cases guess with
    | guessed p =>
      have hmem := (Dict.mem_iff_getEntry hkeys).mpr hguess
      obtain ⟨ep, hep⟩ := hcatalog p hmem
      refine .inl ⟨p, ep, hmem, hep, ?_⟩
      dsimp only
      rw [hep]
    | covered right => exact .inr (.inl rfl)
    | discarded => exact .inr (.inr rfl)

end outcomes

/-- The resolution guesses the record with an index, which was unknown. -/
structure GuessedAt (records result : List Episode) (i : ℕ) (record r : Episode) : Prop where
  recordAt : records[i]? = some record
  unknown : record.matched = false
  resultAt : result[i]? = some r
  guessed : r.resolution = some "guessed"

/-- What the resolution of the unknown episodes of a show keeps to. -/
structure Resolved (py : Python) (today : Int) (records : List Episode)
    (catalogue : List CatalogEpisode) (result : List Episode) : Prop where
  exact : ∀ (i : ℕ) (record : Episode), records[i]? = some record → record.matched = true →
    result[i]? = some { record with resolution := some (record.resolution.getD "exact") }
  unknown : ∀ (i : ℕ) (record : Episode), records[i]? = some record → record.matched = false →
    ∃ r, result[i]? = some r ∧ (r.resolution = some "covered" ∨ r.resolution = some "discarded" ∨
      r.resolution = some "guessed" ∧ ∃ p, r.positionOf = some p ∧
        Supported py today records catalogue record p)
  distinct : ∀ i j record record' r r', GuessedAt records result i record r →
    GuessedAt records result j record' r' →
      (r.positionOf = r'.positionOf ↔ record.key py = record'.key py)
  increasing : ∀ run unique, (run, unique) ∈ firstViewings py records [] (runs records) →
    unique.Pairwise fun event event' ↦ ∀ i j record record' r r' p q,
      GuessedAt records result i record r → GuessedAt records result j record' r' →
        keyOf py records event = record.key py → keyOf py records event' = record'.key py →
          r.positionOf = some p → r'.positionOf = some q → p < q

theorem GuessedAt.exists_guess {i : ℕ} {record r : Episode}
    (h : GuessedAt records (resolveNetflixEpisodes py today records catalogue) i record r) :
    ∃ p, (record.key py, .guessed p) ∈ (resolveRuns py today records catalogue).outcomes ∧
      r.positionOf = some p := by
  obtain ⟨h, hmatched, hr, hguessed⟩ := h
  have hapart := apart_resolveRuns py today records catalogue
  rw [resolveNetflixEpisodes, List.getElem?_map, h, Option.map_some] at hr
  cases hr
  have hcatalog (p : Position)
      (hp : (record.key py, .guessed p) ∈ (resolveRuns py today records catalogue).outcomes) :
      ∃ ep, catalog catalogue p = some ep := by
    obtain ⟨-, _, _, _, -, -, -, -, -, ep, hep, -⟩ := supported_of_outcomes h hmatched hp
    exact ⟨ep, hep⟩
  obtain ⟨p, ep, hp, hep, heq⟩ | hcovered | hdiscarded := finish_cases hmatched _ hcatalog hapart.keys
  · exact ⟨p, hp, by rw [heq, positionOf_guessedEpisode (position_of_catalog hep).2]⟩
  · rw [hguessed] at hcovered
    exact absurd hcovered (by decide)
  · rw [hguessed] at hdiscarded
    exact absurd hdiscarded (by decide)

theorem resolveNetflixEpisodes_consistent (py : Python) (today : Int) (records : List Episode)
    (catalogue : List CatalogEpisode) : Resolved py today records catalogue
      (resolveNetflixEpisodes py today records catalogue) := by
  have hapart := apart_resolveRuns py today records catalogue
  have hguess_eq {κ : Key} {p q : Position}
      (hp : (κ, .guessed p) ∈ (resolveRuns py today records catalogue).outcomes)
      (hq : (κ, .guessed q) ∈ (resolveRuns py today records catalogue).outcomes) : p = q := by
    cases List.inj_on_of_nodup_map hapart.keys hp hq rfl
    rfl
  refine ⟨fun i record h hmatched ↦ ?_, fun i record h hmatched ↦ ?_, ?_, fun run unique hrun ↦ ?_⟩
  · rw [resolveNetflixEpisodes, List.getElem?_map, h, Option.map_some, finish, if_pos hmatched]
  · have hr : (resolveNetflixEpisodes py today records catalogue)[i]? =
        some (finish py catalogue (resolveRuns py today records catalogue) record) := by
      rw [resolveNetflixEpisodes, List.getElem?_map, h, Option.map_some]
    refine ⟨_, hr, ?_⟩
    have hcatalog (p : Position)
        (hp : (record.key py, .guessed p) ∈ (resolveRuns py today records catalogue).outcomes) :
        ∃ ep, catalog catalogue p = some ep := by
      obtain ⟨-, _, _, _, -, -, -, -, -, ep, hep, -⟩ := supported_of_outcomes h hmatched hp
      exact ⟨ep, hep⟩
    obtain ⟨p, ep, hp, hep, heq⟩ | hcovered | hdiscarded :=
      finish_cases hmatched _ hcatalog hapart.keys
    · rw [heq]
      exact .inr (.inr ⟨rfl, p, positionOf_guessedEpisode (position_of_catalog hep).2,
        supported_of_outcomes h hmatched hp⟩)
    · exact .inl hcovered
    · exact .inr (.inl hdiscarded)
  · intro i j record record' r r' h h'
    obtain ⟨p, hp, hposition⟩ := h.exists_guess
    obtain ⟨q, hq, hposition'⟩ := h'.exists_guess
    rw [hposition, hposition']
    refine ⟨fun heq ↦ ?_, fun heq ↦ ?_⟩
    · cases heq
      exact hapart.distinct _ _ p hp hq
    · rw [heq] at hp
      rw [hguess_eq hp hq]
  · have hfollows : Follows py today records catalogue
        (resolveRuns py today records catalogue).outcomes run unique :=
      follows_foldl hapart.keys (fun entry hentry ↦ hentry) hrun
    refine hfollows.increasing.imp ?_
    intro event event' hlt i j record record' r r' p q h h' hkey hkey' hposition hposition'
    obtain ⟨p', hp, heq⟩ := h.exists_guess
    obtain ⟨q', hq, heq'⟩ := h'.exists_guess
    cases hposition.symm.trans heq
    cases hposition'.symm.trans heq'
    exact hlt p q (hkey ▸ hp) (hkey' ▸ hq)

section repeated

/-- An unknown viewing of one title. -/
def unknownViewing (date : String) : Episode where
  matched := false
  seasonNumber := none
  episodeNumber := none
  seasonLabel := none
  sourceEpisodeTitle := some "Pilot".toList
  sourceTitle := some "Show: Pilot".toList
  title := some "Pilot".toList
  watchedDates := [date.toList]
  dates := []
  sourceRows := none
  sourceRowNumbers := []
  tmdbEpisodeId := none
  airDate := none
  confidence := none
  resolution := none
  reason := none
  coveredBy := none

/-- Two viewings of a title are guessed the same position. -/
theorem resolveNetflixEpisodes_shares_position :
    (resolveNetflixEpisodes plainPython 0 [unknownViewing "2024-01-02", unknownViewing "2024-01-01"]
        [⟨some 1, some 1, none, none, none, none⟩]).map
        (fun r ↦ (r.resolution, r.positionOf)) =
      [(some "guessed", some (toLex (1, 1))), (some "guessed", some (toLex (1, 1)))] := by
  decide +kernel

end repeated

end AnyList.Imports.EpisodeResolution
