import AnyList.Statistics.TitleFacts

namespace AnyList.Statistics.Input

open AnyList.Library (Dict)
open AnyList.Persistence (Value)

/-- A fact without any play. -/
structure Blank (target : Fact) : Prop where
  plays : target.plays = 0
  episodePlays : target.episodePlays = 0
  episodes : target.episodes = ∅
  years : target.years = Dict.empty
  runtimeKnown : target.runtimeKnown = 0
  runtimeEstimated : target.runtimeEstimated = 0
  runtimeMissing : target.runtimeMissing = 0
  authoritativePlays : target.authoritativePlays = 0
  unattributedPlays : target.unattributedPlays = 0

theorem blank_new (kind : MediaType) (entityId : Option ℕ) : Blank (Fact.new kind entityId) :=
  ⟨rfl, rfl, rfl, rfl, rfl, rfl, rfl, rfl, rfl⟩

/-- The value that some data state for a field. -/
def statedField (data : Dict String Value) (field : String) : Option Value :=
  (data.get field).filter isStated

theorem get_setAll_stated (base data : Dict String Value) (field : String) :
    (base.setAll (stated data)).get field = (statedField data field).or (base.get field) := by
  have hnodup : ((stated data).map Prod.fst).Nodup :=
    data.nodup.sublist (List.filter_sublist.map Prod.fst)
  by_cases hfield : field ∈ (stated data).map Prod.fst
  · obtain ⟨⟨field, v⟩, hmem, rfl⟩ := List.mem_map.mp hfield
    obtain ⟨hentry, hstated⟩ := List.mem_filter.mp hmem
    have hfound : statedField data field = some v :=
      Option.filter_eq_some_iff.mpr ⟨Dict.mem_entries.mp hentry, hstated⟩
    rw [Dict.get_setAll_of_mem hnodup hmem, hfound, Option.some_or]
  · rw [Dict.get_setAll_of_notMem hfield]
    cases hget : statedField data field with
    | none => rfl
    | some v =>
      obtain ⟨hentry, hstated⟩ := Option.filter_eq_some_iff.mp hget
      exact absurd (List.mem_map_of_mem
        (List.mem_filter.mpr ⟨Dict.mem_entries.mpr hentry, hstated⟩)) hfield

variable (i : Input)

/-- The value that the entity of a title states for a field. -/
def canonicalField (key : Key) (field : String) : Option Value :=
  ((i.entityOf key).bind i.entities.get).bind fun entity ↦ statedField entity.attributes field

def showKey (row : Show) : Key :=
  (i.canonical row.ids .series (i.showLinks.get row.id)).1.getD (.ofShow row.id)

def keyOfMedia (row : Media) : Key := (i.mediaKey i.titles.byShow row).1

/-- The local metadata of the titles. -/
def rows : List (Key × Dict String Value) :=
  (i.shows.map fun row ↦ (i.showKey row, showData row)) ++
    i.media.map fun row ↦ (i.keyOfMedia row, mediaData row)

/-- A title before its history: its data are its entity's, and its rows' where that states none. -/
structure Gathered (rows : List (Key × Dict String Value)) (key : Key) (target : Fact) : Prop where
  blank : Blank target
  unlisted : target.entryOrder = none
  entity : target.entityId = i.entityOf key
  canonical : ∀ field v, i.canonicalField key field = some v → target.data.get field = some v
  sound : ∀ field v, target.data.get field = some v → i.canonicalField key field = some v ∨
    ∃ row ∈ rows, row.1 = key ∧ statedField row.2 field = some v
  complete : ∀ row ∈ rows, row.1 = key → ∀ field v, statedField row.2 field = some v →
    (target.data.get field).isSome

structure Assembled (rows : List (Key × Dict String Value)) (facts : Dict Key Fact) : Prop where
  present : ∀ key, (facts.get key).isSome ↔ ∃ row ∈ rows, row.1 = key
  gathered : ∀ key target, facts.get key = some target → i.Gathered rows key target

variable {i} {rows : List (Key × Dict String Value)} {facts : Dict Key Fact}

theorem Gathered.mono {rows' : List (Key × Dict String Value)} {key : Key} {target : Fact}
    (h : i.Gathered rows key target) (hrows : rows ⊆ rows')
    (hkey : ∀ row ∈ rows', row.1 = key → row ∈ rows) : i.Gathered rows' key target where
  blank := h.blank
  unlisted := h.unlisted
  entity := h.entity
  canonical := h.canonical
  sound field v hv := by
    rcases h.sound field v hv with hcanonical | ⟨row, hrow, hstated⟩
    · exact .inl hcanonical
    · exact .inr ⟨row, hrows hrow, hstated⟩
  complete row hrow hrowKey := h.complete row (hkey row hrow hrowKey) hrowKey

theorem get_fact (facts : Dict Key Fact) (key : Key) (kind : MediaType)
    (data : Dict String Value) (field : String)
    (hentity : ((facts.get key).getD (Fact.new kind (i.entityOf key))).entityId =
      i.entityOf key) :
    (i.fact facts key kind data).data.get field = (i.canonicalField key field).or
      ((statedField data field).or
        (((facts.get key).getD (Fact.new kind (i.entityOf key))).data.get field)) := by
  rw [fact, canonicalField]
  simp only [hentity]
  cases (i.entityOf key).bind i.entities.get with
  | none =>
    simp only [Option.bind_none, Option.none_or]
    exact get_setAll_stated _ _ _
  | some entity =>
    simp only [Option.bind_some]
    rw [get_setAll_stated, get_setAll_stated]

theorem fact_frame (facts : Dict Key Fact) (key : Key) (kind : MediaType)
    (data : Dict String Value) :
    ∃ filled, i.fact facts key kind data =
      { (facts.get key).getD (Fact.new kind (i.entityOf key)) with data := filled } := by
  rw [fact]
  simp only
  split
  · exact ⟨_, rfl⟩
  · exact ⟨_, rfl⟩

theorem gathered_fact (h : i.Assembled rows facts) (key : Key) (kind : MediaType)
    (data : Dict String Value) :
    i.Gathered (rows ++ [(key, data)]) key (i.fact facts key kind data) := by
  have hold : i.Gathered rows key ((facts.get key).getD (Fact.new kind (i.entityOf key))) ∨
      facts.get key = none := by
    cases hget : facts.get key with
    | none => exact .inr rfl
    | some target => exact .inl (h.gathered key target hget)
  have hentity : ((facts.get key).getD (Fact.new kind (i.entityOf key))).entityId =
      i.entityOf key := by
    rcases hold with hold | hnone
    · exact hold.entity
    · rw [hnone]
      rfl
  obtain ⟨filled, hfilled⟩ := fact_frame (i := i) facts key kind data
  have hget (field : String) := get_fact facts key kind data field hentity
  refine ⟨?_, ?_, ?_, fun field v hv ↦ ?_, fun field v hv ↦ ?_,
    fun row hrow hrowKey field v hv ↦ ?_⟩
  · rw [hfilled]
    rcases hold with hold | hnone
    · obtain ⟨h₁, h₂, h₃, h₄, h₅, h₆, h₇, h₈, h₉⟩ := hold.blank
      exact ⟨h₁, h₂, h₃, h₄, h₅, h₆, h₇, h₈, h₉⟩
    · rw [hnone]
      exact ⟨rfl, rfl, rfl, rfl, rfl, rfl, rfl, rfl, rfl⟩
  · rw [hfilled]
    rcases hold with hold | hnone
    · exact hold.unlisted
    · rw [hnone]
      rfl
  · rw [hfilled]
    exact hentity
  · rw [hget, hv, Option.some_or]
  · rw [hget] at hv
    rcases Option.or_eq_some_iff.mp hv with hcanonical | ⟨-, hv⟩
    · exact .inl hcanonical
    rcases Option.or_eq_some_iff.mp hv with hstated | ⟨-, hv⟩
    · exact .inr ⟨(key, data), by simp, rfl, hstated⟩
    rcases hold with hold | hnone
    · rcases hold.sound field v hv with hcanonical | ⟨row, hrow, hstated⟩
      · exact .inl hcanonical
      · exact .inr ⟨row, List.mem_append_left _ hrow, hstated⟩
    · rw [hnone] at hv
      exact absurd hv (by simp [Fact.new])
  · rw [hget]
    rcases List.mem_append.mp hrow with hrow | hrow
    · have hsome := (h.present key).mpr ⟨row, hrow, hrowKey⟩
      obtain ⟨target, htarget⟩ := Option.isSome_iff_exists.mp hsome
      have hcomplete := (h.gathered key target htarget).complete row hrow hrowKey field v hv
      rw [htarget, Option.getD_some]
      simp [hcomplete]
    · obtain rfl := List.mem_singleton.mp hrow
      simp [hv]

/-- A title with its next row, whatever else is noted of it. -/
theorem assembled_set (h : i.Assembled rows facts) (key : Key) (kind : MediaType)
    (data : Dict String Value) {target : Fact}
    (htarget : i.Gathered (rows ++ [(key, data)]) key (i.fact facts key kind data) →
      i.Gathered (rows ++ [(key, data)]) key target) :
    i.Assembled (rows ++ [(key, data)]) (facts.set key target) where
  present key' := by
    rw [Dict.get_set]
    by_cases hk : key = key'
    · simp [hk]
    · simp [hk, h.present key']
  gathered key' target' hget := by
    rw [Dict.get_set] at hget
    split at hget
    · next hk =>
      obtain rfl := hk
      obtain rfl := Option.some.inj hget
      exact htarget (gathered_fact h key kind data)
    · next hk =>
      refine (h.gathered key' target' hget).mono (List.subset_append_left _ _)
        fun row hrow hrowKey ↦ ?_
      rcases List.mem_append.mp hrow with hrow | hrow
      · exact hrow
      · obtain rfl := List.mem_singleton.mp hrow
        exact absurd hrowKey hk

theorem Gathered.noted {key : Key} {target target' : Fact} (h : i.Gathered rows key target)
    (hdata : target'.data = target.data) (horder : target'.entryOrder = target.entryOrder)
    (hentity : target'.entityId = target.entityId) (hblank : Blank target → Blank target') :
    i.Gathered rows key target' where
  blank := hblank h.blank
  unlisted := horder.trans h.unlisted
  entity := hentity.trans h.entity
  canonical := by
    rw [hdata]
    exact h.canonical
  sound := by
    rw [hdata]
    exact h.sound
  complete := by
    rw [hdata]
    exact h.complete

theorem assembled_addShow {titles : Titles} (h : i.Assembled rows titles.facts) (row : Show) :
    i.Assembled (rows ++ [(i.showKey row, showData row)]) (i.addShow titles row).facts := by
  refine assembled_set h (i.showKey row) .series (showData row) fun hrow ↦ hrow.noted rfl rfl rfl ?_
  rintro ⟨h₁, h₂, h₃, h₄, h₅, h₆, h₇, h₈, h₉⟩
  exact ⟨h₁, h₂, h₃, h₄, h₅, h₆, h₇, h₈, h₉⟩

theorem assembled_addMedia {titles : Titles} (h : i.Assembled rows titles.facts) (row : Media) :
    i.Assembled (rows ++ [((i.mediaKey titles.byShow row).1, mediaData row)])
      (i.addMedia titles row).facts := by
  refine assembled_set h (i.mediaKey titles.byShow row).1 row.mediaType (mediaData row)
    fun hrow ↦ hrow.noted rfl rfl rfl ?_
  rintro ⟨h₁, h₂, h₃, h₄, h₅, h₆, h₇, h₈, h₉⟩
  exact ⟨h₁, h₂, h₃, h₄, h₅, h₆, h₇, h₈, h₉⟩

section folds

variable (i)

theorem byShow_foldl_addShow (shows : List Show) (titles : Titles) :
    (shows.foldl i.addShow titles).byShow =
      titles.byShow.setAll (shows.map fun row ↦ (row.id, i.showKey row)) := by
  induction shows generalizing titles with
  | nil => rfl
  | cons row shows ih => exact ih (i.addShow titles row)

theorem byShow_foldl_addMedia (media : List Media) (titles : Titles) :
    (media.foldl i.addMedia titles).byShow = titles.byShow := by
  induction media generalizing titles with
  | nil => rfl
  | cons row media ih => exact ih (i.addMedia titles row)

theorem byMedia_foldl_addMedia (media : List Media) (titles : Titles) :
    (media.foldl i.addMedia titles).byMedia = titles.byMedia.setAll
      (media.map fun row ↦ (row.id, (i.mediaKey titles.byShow row).1)) := by
  induction media generalizing titles with
  | nil => rfl
  | cons row media ih => exact ih (i.addMedia titles row)

theorem byMedia_foldl_addShow (shows : List Show) (titles : Titles) :
    (shows.foldl i.addShow titles).byMedia = titles.byMedia := by
  induction shows generalizing titles with
  | nil => rfl
  | cons row shows ih => exact ih (i.addShow titles row)

variable {i}

theorem assembled_foldl_addShow (shows : List Show) {titles : Titles}
    (h : i.Assembled rows titles.facts) :
    i.Assembled (rows ++ shows.map fun row ↦ (i.showKey row, showData row))
      (shows.foldl i.addShow titles).facts := by
  induction shows generalizing rows titles with
  | nil => simpa using h
  | cons row shows ih =>
    have hrest := ih (assembled_addShow h row)
    rwa [List.append_assoc] at hrest

theorem assembled_foldl_addMedia (media : List Media) {titles : Titles}
    (h : i.Assembled rows titles.facts) :
    i.Assembled (rows ++ media.map fun row ↦ ((i.mediaKey titles.byShow row).1, mediaData row))
      (media.foldl i.addMedia titles).facts := by
  induction media generalizing rows titles with
  | nil => simpa using h
  | cons row media ih =>
    have hrest := ih (assembled_addMedia h row)
    rwa [List.append_assoc] at hrest

end folds

variable (i)

theorem byShow_titles : i.titles.byShow =
    Dict.empty.setAll (i.shows.map fun row ↦ (row.id, i.showKey row)) := by
  rw [titles, byShow_foldl_addMedia, byShow_foldl_addShow]

theorem byMedia_titles : i.titles.byMedia =
    Dict.empty.setAll (i.media.map fun row ↦ (row.id, i.keyOfMedia row)) := by
  simp only [titles, keyOfMedia, byMedia_foldl_addMedia, byMedia_foldl_addShow,
    byShow_foldl_addMedia]

theorem assembled_titles : i.Assembled i.rows i.titles.facts := by
  have hstart : i.Assembled [] Dict.empty := ⟨by simp, by simp⟩
  let start : Titles := ⟨Dict.empty, Dict.empty, Dict.empty, 0⟩
  have hshows : i.Assembled _ (i.shows.foldl i.addShow start).facts :=
    assembled_foldl_addShow i.shows hstart
  have hall := assembled_foldl_addMedia i.media hshows
  simpa only [rows, keyOfMedia, titles, byShow_foldl_addMedia, List.nil_append] using hall

theorem get_byShow {row : Show} (h : row ∈ i.shows) :
    i.titles.byShow.get row.id = some (i.showKey row) := by
  have hnodup : ((i.shows.map fun row ↦ (row.id, i.showKey row)).map Prod.fst).Nodup := by
    simpa [Function.comp_def] using i.nodup_shows
  rw [byShow_titles]
  exact Dict.get_setAll_of_mem hnodup (List.mem_map.mpr ⟨row, h, rfl⟩) _

theorem of_get_byShow {id : ℕ} {key : Key} (h : i.titles.byShow.get id = some key) :
    ∃ row ∈ i.shows, row.id = id ∧ i.showKey row = key := by
  rw [byShow_titles] at h
  have hor := Dict.mem_or_get_of_get_setAll h
  rw [Dict.get_empty] at hor
  rcases hor with hmem | hempty
  · obtain ⟨row, hrow, heq⟩ := List.mem_map.mp hmem
    obtain ⟨hid, hkey⟩ := Prod.mk.inj heq
    exact ⟨row, hrow, hid, hkey⟩
  · cases hempty

theorem get_byMedia {row : Media} (h : row ∈ i.media) :
    i.titles.byMedia.get row.id = some (i.keyOfMedia row) := by
  have hnodup : ((i.media.map fun row ↦ (row.id, i.keyOfMedia row)).map Prod.fst).Nodup := by
    simpa [Function.comp_def] using i.nodup_media
  rw [byMedia_titles]
  exact Dict.get_setAll_of_mem hnodup (List.mem_map.mpr ⟨row, h, rfl⟩) _

theorem of_get_byMedia {id : ℕ} {key : Key} (h : i.titles.byMedia.get id = some key) :
    ∃ row ∈ i.media, row.id = id ∧ i.keyOfMedia row = key := by
  rw [byMedia_titles] at h
  have hor := Dict.mem_or_get_of_get_setAll h
  rw [Dict.get_empty] at hor
  rcases hor with hmem | hempty
  · obtain ⟨row, hrow, heq⟩ := List.mem_map.mp hmem
    obtain ⟨hid, hkey⟩ := Prod.mk.inj heq
    exact ⟨row, hrow, hid, hkey⟩
  · cases hempty

theorem isSome_of_byShow {id : ℕ} {key : Key} (h : i.titles.byShow.get id = some key) :
    (i.titles.facts.get key).isSome := by
  obtain ⟨row, hrow, -, rfl⟩ := i.of_get_byShow h
  exact (i.assembled_titles.present _).mpr
    ⟨_, List.mem_append_left _ (List.mem_map_of_mem hrow), rfl⟩

theorem isSome_of_byMedia {id : ℕ} {key : Key} (h : i.titles.byMedia.get id = some key) :
    (i.titles.facts.get key).isSome := by
  obtain ⟨row, hrow, -, rfl⟩ := i.of_get_byMedia h
  exact (i.assembled_titles.present _).mpr
    ⟨_, List.mem_append_right _ (List.mem_map_of_mem hrow), rfl⟩

/-- Every event with a key belongs to one of the facts. -/
theorem isSome_of_keyOf {row : Media} {key : Key} (h : keyOf i.titles row = some key) :
    (i.titles.facts.get key).isSome := by
  rw [keyOf] at h
  split at h
  · exact i.isSome_of_byMedia h
  · obtain ⟨id, -, hid⟩ := Option.bind_eq_some_iff.mp h
    exact i.isSome_of_byShow hid

end AnyList.Statistics.Input
