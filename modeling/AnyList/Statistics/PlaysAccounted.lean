import AnyList.Statistics.CountedPlays
import AnyList.Statistics.Reordered

namespace AnyList.Statistics.Input

open AnyList.Library (Dict)
open AnyList.Library.Forests (root)

variable (i : Input) (reading : Reading)

/-- The plays of hidden titles, which are counted nowhere. -/
def hiddenPlays : ℕ :=
  ((i.events.filter fun e ↦ (keyOf i.titles e.2).any (i.isHidden reading)).map fun e ↦
    plays e.1).sum

section total

variable {i} {counts : Counts}

def total (counts : Counts) : ℕ :=
  (counts.facts.values.map Fact.plays).sum + counts.orphanEpisodePlays

theorem plays_countPlays (target : Fact) (event : Event) (row : Media) (episode : ℕ) :
    (countPlays reading target event row episode).plays = target.plays + plays event :=
  (countDate_frame _ event _).1

/-- Every event adds its plays, but those of hidden titles. -/
theorem total_countEvent (e : Event × Media)
    (hpresent : ∀ key, keyOf i.titles e.2 = some key → (counts.facts.get key).isSome) :
    total (i.countEvent reading counts e) +
        (if (keyOf i.titles e.2).any (i.isHidden reading) then plays e.1 else 0) =
      total counts + plays e.1 := by
  obtain ⟨event, row⟩ := e
  simp only [countEvent, total]
  cases hkey : keyOf i.titles row with
  | none =>
    simp only [Option.any_none, Bool.false_eq_true, if_false]
    omega
  | some key =>
    cases hhidden : i.isHidden reading key with
    | true => simp [hhidden]
    | false =>
      obtain ⟨target, htarget⟩ := Option.isSome_iff_exists.mp (hpresent key hkey)
      have hsum := sum_values_set Fact.plays counts.facts key (countPlays reading target event row
        (root i.episodeIds.length counts.parents row.id).2)
      simp only [htarget, Option.map_some, Option.getD_some, plays_countPlays] at hsum
      simp only [htarget, Bool.false_eq_true, if_false, Option.any_some, hhidden]
      omega

theorem isSome_countEvent (e : Event × Media) (key : Key) (h : (counts.facts.get key).isSome) :
    ((i.countEvent reading counts e).facts.get key).isSome := by
  obtain ⟨event, row⟩ := e
  simp only [countEvent]
  split
  · exact h
  · split
    · exact h
    · split
      · exact h
      · simp only [Dict.get_set]
        split
        · rfl
        · exact h

theorem total_foldl_countEvent (events : List (Event × Media))
    (hpresent : ∀ row key, keyOf i.titles row = some key → (counts.facts.get key).isSome) :
    total (events.foldl (i.countEvent reading) counts) +
        ((events.filter fun e ↦ (keyOf i.titles e.2).any (i.isHidden reading)).map fun e ↦
          plays e.1).sum =
      total counts + (events.map fun e ↦ plays e.1).sum := by
  induction events generalizing counts with
  | nil => rfl
  | cons e events ih =>
    have hstep := total_countEvent reading e (hpresent e.2)
    have hnext (row : Media) (key : Key) (hkey : keyOf i.titles row = some key) :
        ((i.countEvent reading counts e).facts.get key).isSome :=
      isSome_countEvent reading e key (hpresent row key hkey)
    have hrest := ih hnext
    rw [List.foldl_cons, List.map_cons, List.sum_cons, List.filter_cons]
    split
    · next hhidden =>
      rw [if_pos hhidden] at hstep
      rw [List.map_cons, List.sum_cons]
      omega
    · next hhidden =>
      rw [if_neg hhidden] at hstep
      omega

theorem total_eq_zero {facts : Dict Key Fact} {parents : ℕ → ℕ}
    (h : ∀ key target, facts.get key = some target → Blank target) :
    total ⟨facts, 0, parents⟩ = 0 := by
  rw [total, Nat.add_zero]
  refine List.sum_eq_zero fun n hn ↦ ?_
  obtain ⟨target, htarget, rfl⟩ := List.mem_map.mp hn
  obtain ⟨key, hkey⟩ := Dict.mem_values.mp htarget
  exact (h key target hkey).plays

end total

theorem total_counted {counts : Counts} (h : i.counted reading = some counts) :
    total counts + i.hiddenPlays reading = (i.events.map fun e ↦ plays e.1).sum := by
  obtain ⟨facts, hfacts, rfl⟩ := Option.map_eq_some_iff.mp h
  have hget := get_foldlM_listEntry hfacts
  have hblank : ∀ key target, facts.get key = some target → Blank target := by
    intro key target hkey
    obtain ⟨title, htitle, rfl⟩ := Option.map_eq_some_iff.mp ((hget key).symm.trans hkey)
    exact (relisted_frame title _).2 (i.assembled_titles.gathered key title htitle).blank
  have hpresent : ∀ row key, keyOf i.titles row = some key → (facts.get key).isSome := by
    intro row key hkey
    rw [hget, Option.isSome_map]
    exact i.isSome_of_keyOf hkey
  have hstart : ∀ row key, keyOf i.titles row = some key →
      ((⟨facts, 0, i.parents⟩ : Counts).facts.get key).isSome := hpresent
  have htotal := total_foldl_countEvent reading i.events hstart
  rw [total_eq_zero hblank, Nat.zero_add] at htotal
  exact htotal

theorem balanced_foldl_count {top : ℕ → ℕ} {target : Fact} (events : List (Event × Media))
    (h : Balanced target) : Balanced (events.foldl (count reading top) target) := by
  induction events generalizing target with
  | nil => exact h
  | cons e events ih => exact ih (balanced_countPlays reading h e.1 e.2 (top e.2.id))

def playsIn (target : Fact) (year : ℤ) : ℕ := ((target.years.get year).map Year.plays).getD 0

/-- Two facts that count alike. -/
structure SameNumbers (target target' : Fact) : Prop where
  plays : target.plays = target'.plays
  runtimeKnown : target.runtimeKnown = target'.runtimeKnown
  runtimeEstimated : target.runtimeEstimated = target'.runtimeEstimated
  runtimeMissing : target.runtimeMissing = target'.runtimeMissing
  episodePlays : target.episodePlays = target'.episodePlays
  episodes : target.episodes.card = target'.episodes.card
  authoritativePlays : target.authoritativePlays = target'.authoritativePlays
  unattributedPlays : target.unattributedPlays = target'.unattributedPlays
  years : ∀ year, playsIn target year = playsIn target' year

section order

variable {i reading}

theorem sameNumbers_of_sums {top top' : ℕ → ℕ} {events events' : List (Event × Media)}
    {start start' target target' : Fact} (h : Sums top reading events start target)
    (h' : Sums top' reading events' start' target') (hperm : events.Perm events')
    (hstart : Blank start) (hstart' : Blank start')
    (hruntime : ∀ row, runtimeFor reading row start.data = runtimeFor reading row start'.data)
    (hcard : target.episodes.card = target'.episodes.card) : SameNumbers target target' where
  plays := by rw [h.plays, h'.plays, hstart.plays, hstart'.plays, (hperm.map _).sum_eq]
  runtimeKnown := by
    simp only [h.runtimeKnown, h'.runtimeKnown, hstart.runtimeKnown, hstart'.runtimeKnown,
      hruntime, (hperm.map _).sum_eq]
  runtimeEstimated := by
    simp only [h.runtimeEstimated, h'.runtimeEstimated, hstart.runtimeEstimated,
      hstart'.runtimeEstimated, hruntime, (hperm.map _).sum_eq]
  runtimeMissing := by
    simp only [h.runtimeMissing, h'.runtimeMissing, hstart.runtimeMissing,
      hstart'.runtimeMissing, hruntime, (hperm.map _).sum_eq]
  episodePlays := by
    rw [h.episodePlays, h'.episodePlays, hstart.episodePlays, hstart'.episodePlays,
      (hperm.map _).sum_eq]
  episodes := hcard
  authoritativePlays := by
    rw [h.authoritativePlays, h'.authoritativePlays, hstart.authoritativePlays,
      hstart'.authoritativePlays, hperm.countP_eq]
  unattributedPlays := by
    rw [h.unattributedPlays, h'.unattributedPlays, hstart.unattributedPlays,
      hstart'.unattributedPlays, (hperm.map _).sum_eq]
  years year := by
    rw [playsIn, playsIn, h.years, h'.years, hstart.years, hstart'.years, hperm.countP_eq]

theorem orphans_foldl_countEvent (events : List (Event × Media)) (counts : Counts) :
    (events.foldl (i.countEvent reading) counts).orphanEpisodePlays = counts.orphanEpisodePlays +
      ((events.filter fun e ↦ (keyOf i.titles e.2).isNone).map fun e ↦ plays e.1).sum := by
  induction events generalizing counts with
  | nil => rfl
  | cons e events ih =>
    obtain ⟨event, row⟩ := e
    have hstep : (i.countEvent reading counts (event, row)).orphanEpisodePlays =
        counts.orphanEpisodePlays + if (keyOf i.titles row).isNone then plays event else 0 := by
      simp only [countEvent]
      cases keyOf i.titles row with
      | none => rfl
      | some key =>
        simp only [Option.isNone_some, Bool.false_eq_true, if_false, Nat.add_zero]
        split
        · rfl
        · split
          · rfl
          · rfl
    rw [List.foldl_cons, ih, hstep, List.filter_cons]
    split
    · rw [List.map_cons, List.sum_cons, Nat.add_assoc]
    · rw [Nat.add_zero]

theorem Reordered.get_data_of {j : Input} (h : Reordered i j)
    (hrows : (i.shows = j.shows ∧ i.media = j.media) ∨ i.Consistent) {key : Key}
    {target target' : Fact} (htarget : i.titles.facts.get key = some target)
    (htarget' : j.titles.facts.get key = some target') :
    ∀ field ∈ countedFields, target.data.get field = target'.data.get field := by
  intro field hfield
  rcases hrows with ⟨hshows, hmedia⟩ | hconsistent
  · rw [titles_eq h hshows hmedia, htarget'] at htarget
    rw [Option.some.inj htarget]
  · exact h.get_data hconsistent htarget htarget' hfield

theorem Reordered.isHidden {j : Input} (h : Reordered i j)
    (hrows : (i.shows = j.shows ∧ i.media = j.media) ∨ i.Consistent) (key : Key) :
    i.isHidden reading key = j.isHidden reading key := by
  have hsome := h.isSome_titles key
  rw [Input.isHidden, Input.isHidden, h.showAnime]
  cases htarget : i.titles.facts.get key with
  | none =>
    rw [htarget, Option.isSome_none] at hsome
    rw [Option.not_isSome_iff_eq_none.mp fun hj ↦ absurd (hsome.mpr hj) Bool.false_ne_true]
  | some target =>
    rw [htarget, Option.isSome_some] at hsome
    obtain ⟨target', htarget'⟩ := Option.isSome_iff_exists.mp (hsome.mp rfl)
    rw [htarget', Option.any_some, Option.any_some,
      anime_congr reading (h.get_data_of hrows htarget htarget')]

theorem Reordered.isSome_listed {j : Input} (h : Reordered i j) (hlisted : i.listed.isSome) :
    j.listed.isSome := by
  have hi := (isSome_foldlM_listEntry fun _ _ hid ↦ i.isSome_of_byMedia hid).mp hlisted
  refine (isSome_foldlM_listEntry fun _ _ hid ↦ j.isSome_of_byMedia hid).mpr fun e he ↦ ?_
  rw [← h.byMedia]
  exact hi e (h.entries.mem_iff.mpr he)

theorem orphans_counted {counts : Counts} (h : i.counted reading = some counts) :
    counts.orphanEpisodePlays =
      ((i.events.filter fun e ↦ (keyOf i.titles e.2).isNone).map fun e ↦ plays e.1).sum := by
  obtain ⟨facts, hfacts, rfl⟩ := Option.map_eq_some_iff.mp h
  rw [orphans_foldl_countEvent, Nat.zero_add]

theorem Reordered.orphans {j : Input} (h : Reordered i j) {counts counts' : Counts}
    (hi : i.counted reading = some counts) (hj : j.counted reading = some counts') :
    counts'.orphanEpisodePlays = counts.orphanEpisodePlays := by
  rw [orphans_counted hi, orphans_counted hj]
  simp only [h.keyOf]
  exact (((h.events.filter _).map _).sum_eq).symm

end order

section facts

variable {i reading} {counts : Counts}

/-- What the counting leaves of a title. -/
theorem sums_counted (h : i.counted reading = some counts) :
    ∃ top, (∀ x y, top x = top y ↔ i.SameEpisode x y) ∧ ∀ key,
      (i.titles.facts.get key = none ∧ counts.facts.get key = none) ∨
      ∃ title start target, i.titles.facts.get key = some title ∧
        counts.facts.get key = some target ∧ start.data = title.data ∧ Blank start ∧
        Balanced target ∧ Sums top reading (if i.isHidden reading key = true then []
          else i.eventsOf key) start target := by
  obtain ⟨top, htop, hget⟩ := i.counted_spec h
  refine ⟨top, htop, fun key ↦ ?_⟩
  rw [hget key]
  cases htitle : i.titles.facts.get key with
  | none => exact .inl ⟨rfl, rfl⟩
  | some title =>
    obtain ⟨hdata, hblank⟩ := relisted_frame title (entriesOf i.titles key i.entries)
    have hstart := hblank (i.assembled_titles.gathered key title htitle).blank
    exact .inr ⟨title, _, _, rfl, rfl, hdata, hstart, balanced_foldl_count reading _ hstart.balanced,
      sums_foldl _⟩

theorem card_episodes {key : Key} {top : ℕ → ℕ} {start target : Fact}
    (htop : ∀ x y, top x = top y ↔ i.SameEpisode x y) (hstart : Blank start)
    (h : Sums top reading (if i.isHidden reading key = true then [] else i.eventsOf key) start
      target) : target.episodes.card =
      if i.isHidden reading key = true then 0 else (i.watchedClasses key).ncard := by
  have hmem := h.episodes
  rw [hstart.episodes] at hmem
  split
  · next hhidden =>
    rw [if_pos hhidden] at hmem
    rw [Finset.card_eq_zero, Finset.eq_empty_iff_forall_notMem]
    intro x hx
    simpa using (hmem x).mp hx
  · next hhidden =>
    rw [if_neg hhidden] at hmem
    refine card_eq_ncard htop fun x ↦ (hmem x).trans ?_
    simp

/-- In every order of the rows the facts count alike. -/
theorem sameNumbers_of_reordered {j : Input} {counts' : Counts} (h : Reordered i j)
    (hrows : (i.shows = j.shows ∧ i.media = j.media) ∨ i.Consistent)
    (hi : i.counted reading = some counts) (hj : j.counted reading = some counts') (key : Key) :
    Option.Rel SameNumbers (counts.facts.get key) (counts'.facts.get key) := by
  obtain ⟨top, htop, hall⟩ := sums_counted hi
  obtain ⟨top', htop', hall'⟩ := sums_counted hj
  have hsome := h.isSome_titles key
  rcases hall key with ⟨htitle, hnone⟩ | ⟨title, start, target, htitle, htarget, hdata, hblank, -, hsums⟩
  · rcases hall' key with ⟨-, hnone'⟩ | ⟨_, _, _, htitle', -⟩
    · rw [hnone, hnone']
      exact .none
    · rw [htitle, htitle'] at hsome
      simp at hsome
  · rcases hall' key with
      ⟨htitle', -⟩ | ⟨title', start', target', htitle', htarget', hdata', hblank', -, hsums'⟩
    · rw [htitle, htitle'] at hsome
      simp at hsome
    · have hruntime (row : Media) :
          runtimeFor reading row start.data = runtimeFor reading row start'.data := by
        rw [hdata, hdata']
        exact runtimeFor_congr reading (h.get_data_of hrows htitle htitle') row
      have hcard : target.episodes.card = target'.episodes.card := by
        rw [card_episodes htop hblank hsums, card_episodes htop' hblank' hsums',
          h.isHidden hrows, h.watchedClasses]
      have hevents : (if i.isHidden reading key = true then [] else i.eventsOf key).Perm
          (if j.isHidden reading key = true then [] else j.eventsOf key) := by
        rw [h.isHidden hrows]
        split
        · exact .rfl
        · exact h.eventsOf key
      rw [htarget, htarget']
      exact .some (sameNumbers_of_sums hsums hsums' hevents hblank hblank' hruntime hcard)

end facts

/-- Every play is counted once, in one fact or as an orphan, unless its title is hidden; each fact
splits its plays by runtime and by date; and no order of the rows matters where the rows of one
title do not contradict each other. -/
theorem plays_accounted {counts : Counts} (h : i.counted reading = some counts) :
    (counts.facts.values.map Fact.plays).sum + counts.orphanEpisodePlays + i.hiddenPlays reading =
        (i.events.map fun e ↦ plays e.1).sum ∧
      (∀ key target, counts.facts.get key = some target → Balanced target ∧
        target.episodes.card =
          if i.isHidden reading key = true then 0 else (i.watchedClasses key).ncard) ∧
      ∀ j, Reordered i j → (i.shows = j.shows ∧ i.media = j.media) ∨ i.Consistent →
        ∃ counts', j.counted reading = some counts' ∧
          counts'.orphanEpisodePlays = counts.orphanEpisodePlays ∧
          ∀ key, Option.Rel SameNumbers (counts.facts.get key) (counts'.facts.get key) := by
  refine ⟨i.total_counted reading h, fun key target htarget ↦ ?_, fun j hj hrows ↦ ?_⟩
  · obtain ⟨top, htop, hall⟩ := sums_counted h
    rcases hall key with ⟨-, hnone⟩ | ⟨_, start, _, -, htarget', -, hblank, hbalanced, hsums⟩
    · rw [hnone] at htarget
      cases htarget
    · obtain rfl := Option.some.inj (htarget'.symm.trans htarget)
      exact ⟨hbalanced, card_episodes htop hblank hsums⟩
  · obtain ⟨facts, hfacts, -⟩ := Option.map_eq_some_iff.mp h
    obtain ⟨facts', hfacts'⟩ := Option.isSome_iff_exists.mp
      (hj.isSome_listed (Option.isSome_of_eq_some hfacts))
    have hcounts : j.counted reading =
        some (j.events.foldl (j.countEvent reading) ⟨facts', 0, j.parents⟩) := by
      rw [counted, hfacts']
      rfl
    exact ⟨_, hcounts, hj.orphans h hcounts, sameNumbers_of_reordered hj hrows h hcounts⟩

section instances

def plain : Reading := ⟨id, id, fun _ ↦ none, fun code ↦ some code⟩

def played (playCount : ℤ) : Event := ⟨some playCount, none, false, false, false⟩

def animeMovie : Media :=
  ⟨1, .movie, ⟨some 10, none⟩, none, none, none,
    (Dict.empty.set "genres" (.list [.str "animation"])).set "original_language" (.str "ja")⟩

/-- An anime movie, watched once while anime are hidden. -/
def hiddenMovie : Input where
  entries := []
  events := [(played 1, animeMovie)]
  shows := []
  media := [animeMovie]
  episodes := []
  links := Dict.empty
  showLinks := Dict.empty
  identities := Dict.empty
  entities := Dict.empty
  showAnime := false
  nodup_shows := List.nodup_nil
  nodup_media := by decide
  eq_of_id := by simp

def airing (id : ℕ) (minutes : ℤ) : Show :=
  ⟨id, ⟨none, none⟩, none, Dict.empty.set "episode_run_time" (.list [.int minutes])⟩

def broadcast (id showId : ℕ) : Media :=
  ⟨id, .episode, ⟨some id, none⟩, some showId, none, none, Dict.empty⟩

/-- Two rows of one catalogued series, with an episode of each and one of an unknown show. -/
def twoShows (first second : Show) (h : (([first, second] : List Show).map Show.id).Nodup) :
    Input where
  entries := []
  events := [(played 2, broadcast 7 1), (played 1, broadcast 8 2), (played 1, broadcast 9 3)]
  shows := [first, second]
  media := []
  episodes := []
  links := Dict.empty
  showLinks := (Dict.empty.set 1 5).set 2 5
  identities := Dict.empty
  entities := Dict.empty.set 5 ⟨.series, Dict.empty⟩
  showAnime := true
  nodup_shows := h
  nodup_media := List.nodup_nil
  eq_of_id := by simp [broadcast]

theorem reordered_twoShows (first second : Show)
    (h : (([first, second] : List Show).map Show.id).Nodup)
    (h' : (([second, first] : List Show).map Show.id).Nodup) :
    Reordered (twoShows first second h) (twoShows second first h') :=
  ⟨.rfl, .rfl, .swap second first [], .rfl, .rfl, rfl, rfl, rfl, rfl, rfl⟩

def lastingLast : Input := twoShows (airing 2 0) (airing 1 30) (by decide)

def lastingFirst : Input := twoShows (airing 1 30) (airing 2 0) (by decide)

/-- The play of a hidden movie is lost, and of two contradicting rows the last one counts. -/
theorem plays_hidden_or_reordered :
    (∃ counts, hiddenMovie.counted plain = some counts ∧
      (counts.facts.values.map Fact.plays).sum + counts.orphanEpisodePlays ≠
        (hiddenMovie.events.map fun e ↦ plays e.1).sum) ∧
    Reordered lastingLast lastingFirst ∧
      (lastingLast.counted plain).map (fun counts ↦ counts.facts.values.map Fact.runtimeMissing) =
        some [0] ∧
      (lastingFirst.counted plain).map (fun counts ↦ counts.facts.values.map Fact.runtimeMissing) =
        some [3] := by
  refine ⟨?_, reordered_twoShows _ _ _ _, by decide, by decide⟩
  obtain ⟨counts, hcounts⟩ : ∃ counts, hiddenMovie.counted plain = some counts :=
    Option.isSome_iff_exists.mp (by decide)
  have hsum : (hiddenMovie.counted plain).map (fun counts ↦
      (counts.facts.values.map Fact.plays).sum + counts.orphanEpisodePlays) = some 0 := by decide
  rw [hcounts, Option.map_some] at hsum
  refine ⟨counts, hcounts, ?_⟩
  rw [Option.some.inj hsum]
  decide

theorem plays_accounted_twoShows : ∃ counts, lastingLast.counted plain = some counts ∧
    (counts.facts.values.map Fact.plays).sum + counts.orphanEpisodePlays +
      lastingLast.hiddenPlays plain = 4 := by
  obtain ⟨counts, hcounts⟩ : ∃ counts, lastingLast.counted plain = some counts :=
    Option.isSome_iff_exists.mp (by decide)
  exact ⟨counts, hcounts, (plays_accounted lastingLast plain hcounts).1.trans (by decide)⟩

end instances

end AnyList.Statistics.Input
