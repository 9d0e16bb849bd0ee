import AnyList.Statistics.WatchedEpisodes
import Mathlib.Data.List.Dedup
import Mathlib.Data.List.Perm.Basic

namespace AnyList.Statistics.Input

open AnyList.Library (Dict)
open AnyList.Library.Forests
open AnyList.Persistence (Value)
open Relation

/-- The same rows, each list in another order. -/
structure Reordered (i j : Input) : Prop where
  entries : i.entries.Perm j.entries
  events : i.events.Perm j.events
  shows : i.shows.Perm j.shows
  media : i.media.Perm j.media
  episodes : i.episodes.Perm j.episodes
  links : i.links = j.links
  showLinks : i.showLinks = j.showLinks
  identities : i.identities = j.identities
  entities : i.entities = j.entities
  showAnime : i.showAnime = j.showAnime

/-- The metadata that decide whether a title is hidden and how long its plays are. -/
def countedFields : List String :=
  ["genres", "original_language", "origin_countries", "origin_country", "production_countries",
    "runtime", "episode_run_time"]

/-- Where the entity of a title says nothing, its rows say the same. -/
def Consistent (i : Input) : Prop :=
  ∀ row ∈ i.rows, ∀ row' ∈ i.rows, row.1 = row'.1 → ∀ field ∈ countedFields,
    i.canonicalField row.1 field = none → ∀ v v', statedField row.2 field = some v →
      statedField row'.2 field = some v' → v = v'

section metadata

variable (reading : Reading) {data data' : Dict String Value}

theorem anime_congr (h : ∀ field ∈ countedFields, data.get field = data'.get field) :
    anime reading data = anime reading data' := by
  simp only [countedFields, List.forall_mem_cons] at h
  obtain ⟨hgenres, hlanguage, horigins, horigin, hproduction, -⟩ := h
  rw [anime, anime, countriesOf, countriesOf, hgenres, hlanguage, horigins, horigin, hproduction]

theorem runtimeFor_congr (h : ∀ field ∈ countedFields, data.get field = data'.get field)
    (row : Media) : runtimeFor reading row data = runtimeFor reading row data' := by
  simp only [countedFields, List.forall_mem_cons] at h
  obtain ⟨-, -, -, -, -, hruntime, hepisodes, -⟩ := h
  simp only [runtimeFor, hruntime, hepisodes]

end metadata

/-- In every order a list holds no key, one key or several. -/
theorem dedup_cases {κ : Type*} [DecidableEq κ] {l l' : List κ} (h : l.Perm l') :
    (l.dedup = [] ∧ l'.dedup = []) ∨ (∃ k, l.dedup = [k] ∧ l'.dedup = [k]) ∨
      ∃ a b rest a' b' rest', l.dedup = a :: b :: rest ∧ l'.dedup = a' :: b' :: rest' := by
  have hdedup := h.dedup
  generalize l.dedup = d, l'.dedup = d' at hdedup
  match d, d', hdedup with
  | [], d', hdedup => exact .inl ⟨rfl, hdedup.nil_eq.symm⟩
  | [k], d', hdedup => exact .inr (.inl ⟨k, rfl, hdedup.singleton_eq.symm⟩)
  | _ :: _ :: _, [], hdedup => exact absurd hdedup.length_eq (by simp)
  | _ :: _ :: _, [_], hdedup => exact absurd hdedup.length_eq (by simp)
  | _ :: _ :: _, _ :: _ :: _, _ => exact .inr (.inr ⟨_, _, _, _, _, _, rfl, rfl⟩)

namespace Reordered

variable {i j : Input} (h : Reordered i j)

include h

theorem symm : Reordered j i :=
  ⟨h.entries.symm, h.events.symm, h.shows.symm, h.media.symm, h.episodes.symm, h.links.symm,
    h.showLinks.symm, h.identities.symm, h.entities.symm, h.showAnime.symm⟩

theorem canonical (ids : ProviderIds) (kind : MediaType) (bridge : Option ℕ) :
    i.canonical ids kind bridge = j.canonical ids kind bridge := by
  simp only [Input.canonical, candidates, h.identities, h.entities]

theorem showKey (row : Show) : i.showKey row = j.showKey row := by
  rw [Input.showKey, Input.showKey, h.canonical, h.showLinks]

theorem canonicalField (key : Key) (field : String) :
    i.canonicalField key field = j.canonicalField key field := by
  simp only [Input.canonicalField, entityOf, h.entities]

theorem byShow (id : ℕ) : i.titles.byShow.get id = j.titles.byShow.get id := by
  have hsub {i j : Input} (h : Reordered i j) (key : Key)
      (hget : i.titles.byShow.get id = some key) : j.titles.byShow.get id = some key := by
    obtain ⟨row, hrow, rfl, rfl⟩ := i.of_get_byShow hget
    rw [j.get_byShow (h.shows.mem_iff.mp hrow), h.showKey]
  exact Option.ext fun key ↦ ⟨hsub h key, hsub h.symm key⟩

theorem keyOfMedia (row : Media) : i.keyOfMedia row = j.keyOfMedia row := by
  have hmatches : (((i.shows.filter (sharesId row)).filterMap fun s ↦
      i.titles.byShow.get s.id) ++ (i.canonical row.ids row.mediaType
        (i.links.get row.id)).1.toList).Perm
      (((j.shows.filter (sharesId row)).filterMap fun s ↦ j.titles.byShow.get s.id) ++
        (i.canonical row.ids row.mediaType (i.links.get row.id)).1.toList) := by
    simp only [h.byShow]
    exact ((h.shows.filter _).filterMap _).append_right _
  simp only [Input.keyOfMedia, mediaKey, ← h.canonical, ← h.links]
  split
  · rcases dedup_cases hmatches with ⟨hd, hd'⟩ | ⟨key, hd, hd'⟩ | ⟨_, _, _, _, _, _, hd, hd'⟩
    · rw [hd, hd']
    · rw [hd, hd']
    · rw [hd, hd']
  · rfl

theorem byMedia (id : ℕ) : i.titles.byMedia.get id = j.titles.byMedia.get id := by
  have hsub {i j : Input} (h : Reordered i j) (key : Key)
      (hget : i.titles.byMedia.get id = some key) : j.titles.byMedia.get id = some key := by
    obtain ⟨row, hrow, rfl, rfl⟩ := i.of_get_byMedia hget
    rw [j.get_byMedia (h.media.mem_iff.mp hrow), h.keyOfMedia]
  exact Option.ext fun key ↦ ⟨hsub h key, hsub h.symm key⟩

theorem keyOf (row : Media) : Input.keyOf i.titles row = Input.keyOf j.titles row := by
  simp only [Input.keyOf, h.byMedia, h.byShow]

theorem eventsOf (key : Key) : (i.eventsOf key).Perm (j.eventsOf key) := by
  simp only [Input.eventsOf, h.keyOf]
  exact h.events.filter _

theorem rows : i.rows.Perm j.rows := by
  simp only [Input.rows, h.showKey, h.keyOfMedia]
  exact (h.shows.map _).append (h.media.map _)

theorem mem_episodeIds (occurrence : ℕ × Key × Provider × ℤ) :
    occurrence ∈ i.episodeIds ↔ occurrence ∈ j.episodeIds := by
  have hcatalogued : i.catalogued.Perm j.catalogued :=
    h.episodes.append ((h.events.filter _).map _)
  simp only [Input.mem_episodeIds, hcatalogued.mem_iff, h.byShow]

theorem sameEpisode (x y : ℕ) : i.SameEpisode x y ↔ j.SameEpisode x y := by
  have hmono {i j : Input} (h : Reordered i j) (hxy : i.SameEpisode x y) : j.SameEpisode x y := by
    refine hxy.mono fun a b hab ↦ ?_
    exact hab.mono fun occurrence hocc ↦ (h.mem_episodeIds occurrence).mp hocc
  exact ⟨hmono h, hmono h.symm⟩

theorem watchedClasses (key : Key) : i.watchedClasses key = j.watchedClasses key := by
  simp only [Input.watchedClasses, (h.eventsOf key).mem_iff, h.sameEpisode]

theorem isSome_titles (key : Key) :
    (i.titles.facts.get key).isSome ↔ (j.titles.facts.get key).isSome := by
  rw [i.assembled_titles.present, j.assembled_titles.present]
  exact exists_congr fun row ↦ and_congr_left' h.rows.mem_iff

/-- Of consistent rows a title's data say the same in every order. -/
theorem get_data (hconsistent : i.Consistent) {key : Key} {target target' : Fact}
    (htarget : i.titles.facts.get key = some target)
    (htarget' : j.titles.facts.get key = some target') {field : String}
    (hfield : field ∈ countedFields) : target.data.get field = target'.data.get field := by
  have hgathered := i.assembled_titles.gathered key target htarget
  have hgathered' := j.assembled_titles.gathered key target' htarget'
  cases hcanonical : i.canonicalField key field with
  | some v =>
    rw [hgathered.canonical field v hcanonical]
    rw [h.canonicalField] at hcanonical
    rw [hgathered'.canonical field v hcanonical]
  | none =>
    cases hget : target.data.get field with
    | none =>
      cases hget' : target'.data.get field with
      | none => rfl
      | some v =>
        rcases hgathered'.sound field v hget' with hv | ⟨row, hrow, hkey, hv⟩
        · rw [← h.canonicalField, hcanonical] at hv
          cases hv
        · have hsome := hgathered.complete row (h.rows.mem_iff.mpr hrow) hkey field v hv
          rw [hget] at hsome
          cases hsome
    | some v =>
      rcases hgathered.sound field v hget with hv | ⟨row, hrow, hkey, hv⟩
      · rw [hcanonical] at hv
        cases hv
      · obtain ⟨v', hget'⟩ := Option.isSome_iff_exists.mp
          (hgathered'.complete row (h.rows.mem_iff.mp hrow) hkey field v hv)
        rcases hgathered'.sound field v' hget' with hv' | ⟨row', hrow', hkey', hv'⟩
        · rw [← h.canonicalField, hcanonical] at hv'
          cases hv'
        · have hnone : i.canonicalField row.1 field = none := hkey ▸ hcanonical
          rw [hget', hconsistent row hrow row' (h.rows.mem_iff.mpr hrow') (hkey.trans hkey'.symm)
            field hfield hnone v v' hv hv']

end Reordered

/-- Titles are built from the shows, the media and the catalogue alone. -/
theorem titles_eq {i j : Input} (h : Reordered i j) (hshows : i.shows = j.shows)
    (hmedia : i.media = j.media) : i.titles = j.titles := by
  obtain ⟨_, _, _, _, _, _, _, _, _, _, _, _, _⟩ := i
  obtain ⟨_, _, _, _, _, _, _, _, _, _, _, _, _⟩ := j
  obtain ⟨-, -, -, -, -, hlinks, hshowLinks, hidentities, hentities, -⟩ := h
  simp only at hshows hmedia hlinks hshowLinks hidentities hentities
  subst hshows hmedia hlinks hshowLinks hidentities hentities
  rfl

end AnyList.Statistics.Input
