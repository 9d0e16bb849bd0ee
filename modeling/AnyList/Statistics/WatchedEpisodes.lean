import AnyList.Statistics.TitleData
import Mathlib.Data.Set.Card

namespace AnyList.Statistics.Input

open AnyList.Library (Dict)
open AnyList.Library.Forests
open Relation

variable (i : Input)

/-- The episodes that verified provider ids make one. -/
def SameEpisode : ℕ → ℕ → Prop := EqvGen (ShareKey i.episodeIds)

theorem joinEpisode_eq (fuel : ℕ) (state : Dict (Key × Provider × ℤ) ℕ × List (ℕ × ℕ))
    (occurrence : ℕ × Key × Provider × ℤ) :
    joinEpisode fuel (unions fuel (fun id ↦ id) state.2, state.1) occurrence =
      (unions fuel (fun id ↦ id) (chainStep state occurrence).2,
        (chainStep state occurrence).1) := by
  rw [joinEpisode, chainStep]
  cases state.1.get occurrence.2 with
  | none => rfl
  | some earlier =>
    simp only [unions, List.foldl_append, List.foldl_cons, List.foldl_nil]

theorem foldl_joinEpisode (fuel : ℕ) (occurrences : List (ℕ × Key × Provider × ℤ))
    (state : Dict (Key × Provider × ℤ) ℕ × List (ℕ × ℕ)) :
    occurrences.foldl (joinEpisode fuel) (unions fuel (fun id ↦ id) state.2, state.1) =
      (unions fuel (fun id ↦ id) (occurrences.foldl chainStep state).2,
        (occurrences.foldl chainStep state).1) := by
  induction occurrences generalizing state with
  | nil => rfl
  | cons occurrence occurrences ih =>
    rw [List.foldl_cons, joinEpisode_eq, ih]
    rfl

theorem parents_spec : ∃ top n, n ≤ i.episodeIds.length ∧ Represents i.parents top n ∧
    ∀ x y, top x = top y ↔ i.SameEpisode x y := by
  have hlength := (chained i.episodeIds).length
  obtain ⟨top, htop, hlinked⟩ := unions_spec (chain i.episodeIds).2 hlength
  have hparents : i.parents =
      unions i.episodeIds.length (fun id ↦ id) (chain i.episodeIds).2 :=
    congrArg Prod.fst (foldl_joinEpisode i.episodeIds.length i.episodeIds (Dict.empty, []))
  exact ⟨top, _, hlength, hparents ▸ htop, fun x y ↦ (hlinked x y).trans (linked_chain_iff x y)⟩

def catalogued : List Media :=
  i.episodes ++ (i.events.filter fun e ↦ decide (e.2.mediaType = .episode)).map Prod.snd

theorem episodeRows_eq : i.episodeRows = Dict.indexBy Media.id i.catalogued := by
  rw [episodeRows, Dict.indexBy, catalogued, List.map_append, Dict.setAll_append]
  simp only [Dict.setAll, List.foldl_map]

theorem mem_episodeRows {row : Media} : row ∈ i.episodeRows.values ↔ row ∈ i.catalogued := by
  rw [episodeRows_eq, Dict.mem_values]
  constructor
  · rintro ⟨id, hid⟩
    exact (Dict.of_get_indexBy hid).1
  · intro hrow
    have hsub : i.catalogued ⊆ i.episodes ++ i.events.map Prod.snd := by
      intro row hrow
      rcases List.mem_append.mp hrow with hrow | hrow
      · exact List.mem_append_left _ hrow
      · obtain ⟨e, he, rfl⟩ := List.mem_map.mp hrow
        exact List.mem_append_right _ (List.mem_map_of_mem (List.mem_filter.mp he).1)
    exact ⟨row.id, Dict.get_indexBy
      (fun a ha b hb hid ↦ i.eq_of_id a (hsub ha) b (hsub hb) hid) hrow⟩

theorem mem_episodeIds {occurrence : ℕ × Key × Provider × ℤ} :
    occurrence ∈ i.episodeIds ↔ ∃ row ∈ i.catalogued, ∃ p native key,
      row.ids.given p = some native ∧ row.showId.bind i.titles.byShow.get = some key ∧
        occurrence = (row.id, key, p, native) := by
  simp only [episodeIds, List.mem_flatMap, List.mem_filterMap, mem_episodeRows]
  refine exists_congr fun row ↦ and_congr_right fun hrow ↦ ?_
  constructor
  · rintro ⟨p, -, hp⟩
    split at hp
    · next native key hnative hkey =>
      exact ⟨p, native, key, hnative, hkey, (Option.some.inj hp).symm⟩
    · cases hp
  · rintro ⟨p, native, key, hnative, hkey, rfl⟩
    refine ⟨p, by cases p <;> simp, ?_⟩
    rw [hnative, hkey]

/-- The events whose plays belong to a title. -/
def eventsOf (key : Key) : List (Event × Media) :=
  i.events.filter fun e ↦ decide (keyOf i.titles e.2 = some key)

/-- The episodes watched of a title, each with the others that are the same. -/
def watchedClasses (key : Key) : Set (Set ℕ) :=
  {c | ∃ e ∈ i.eventsOf key, e.2.mediaType = .episode ∧ c = {x | i.SameEpisode x e.2.id}}

variable {i}

theorem card_eq_ncard {key : Key} {top : ℕ → ℕ} {episodes : Finset ℕ}
    (htop : ∀ x y, top x = top y ↔ i.SameEpisode x y)
    (hmem : ∀ x, x ∈ episodes ↔ ∃ e ∈ i.eventsOf key, e.2.mediaType = .episode ∧ top e.2.id = x) :
    episodes.card = (i.watchedClasses key).ncard := by
  have himage : i.watchedClasses key = (fun root ↦ {x | top x = root}) '' ↑episodes := by
    ext c
    simp only [watchedClasses, Set.mem_ofPred_eq, Set.mem_image, Finset.mem_coe, hmem]
    constructor
    · rintro ⟨e, he, hepisode, rfl⟩
      exact ⟨top e.2.id, ⟨e, he, hepisode, rfl⟩, Set.ext fun x ↦ htop x e.2.id⟩
    · rintro ⟨root, ⟨e, he, hepisode, rfl⟩, rfl⟩
      exact ⟨e, he, hepisode, Set.ext fun x ↦ htop x e.2.id⟩
  have hinj : Set.InjOn (fun root ↦ {x | top x = root}) (episodes : Set ℕ) := by
    intro root hroot root' hroot' heq
    obtain ⟨e, -, -, rfl⟩ := (hmem root).mp hroot
    exact (Set.ext_iff.mp heq e.2.id).mp rfl
  rw [himage, hinj.ncard_image, Set.ncard_coe_finset]

end AnyList.Statistics.Input
