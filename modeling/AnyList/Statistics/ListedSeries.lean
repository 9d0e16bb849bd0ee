import AnyList.Statistics.PlaysAccounted

namespace AnyList.Statistics.Input

open AnyList.Library (Dict)

variable (i : Input) (reading : Reading)

/-- The catalogue entities that a series row and a show row lead to. -/
def leads (row : Media) : List ℕ := i.candidates row.ids row.mediaType (i.links.get row.id)

def leadsOfShow (row : Show) : List ℕ := i.candidates row.ids .series (i.showLinks.get row.id)

/-- The identity conflicts that a row adds. -/
def showConflicts (row : Show) : ℕ := (i.canonical row.ids .series (i.showLinks.get row.id)).2

def mediaConflicts (row : Media) : ℕ := (i.mediaKey i.titles.byShow row).2

theorem identityConflicts_titles : i.titles.identityConflicts =
    (i.shows.map i.showConflicts).sum + (i.media.map i.mediaConflicts).sum := by
  have hshows (shows : List Show) (titles : Titles) :
      (shows.foldl i.addShow titles).identityConflicts =
        titles.identityConflicts + (shows.map i.showConflicts).sum := by
    induction shows generalizing titles with
    | nil => rfl
    | cons row shows ih =>
      rw [List.foldl_cons, ih, List.map_cons, List.sum_cons, ← Nat.add_assoc]
      rfl
  have hmedia (media : List Media) (titles : Titles) :
      (media.foldl i.addMedia titles).identityConflicts = titles.identityConflicts +
        (media.map fun row ↦ (i.mediaKey titles.byShow row).2).sum := by
    induction media generalizing titles with
    | nil => rfl
    | cons row media ih =>
      rw [List.foldl_cons, ih, List.map_cons, List.sum_cons, ← Nat.add_assoc]
      rfl
  have hbyShow : (i.shows.foldl i.addShow ⟨Dict.empty, Dict.empty, Dict.empty, 0⟩).byShow =
      i.titles.byShow := by
    rw [byShow_titles, byShow_foldl_addShow]
  rw [titles, hmedia, hshows, hbyShow, Nat.zero_add]
  rfl

theorem canonical_fst_eq (ids : ProviderIds) (kind : MediaType) (bridge : Option ℕ) (entity : ℕ)
    (h : i.candidates ids kind bridge = [entity]) :
    i.canonical ids kind bridge = (some (.catalogue entity), 0) := by
  rw [canonical, h]

theorem canonical_eq_none (ids : ProviderIds) (kind : MediaType) (bridge : Option ℕ)
    (h : i.candidates ids kind bridge = []) : i.canonical ids kind bridge = (none, 0) := by
  rw [canonical, h]

section pair

variable {i} {row : Media} {s : Show}

/-- The rows lead to one entity at most. -/
theorem leads_cases (hone : ∀ a ∈ i.leads row ++ i.leadsOfShow s,
    ∀ b ∈ i.leads row ++ i.leadsOfShow s, a = b) :
    (i.leads row = [] ∧ i.leadsOfShow s = []) ∨
      ∃ entity, (i.leads row = [entity] ∧ i.leadsOfShow s = []) ∨
        ((i.leads row = [] ∨ i.leads row = [entity]) ∧ i.leadsOfShow s = [entity]) := by
  have hrow : (i.leads row).Nodup := List.nodup_dedup _
  have hshow : (i.leadsOfShow s).Nodup := List.nodup_dedup _
  have hsingle {l : List ℕ} (hl : l.Nodup) (hsub : l ⊆ i.leads row ++ i.leadsOfShow s) :
      l = [] ∨ ∃ entity, l = [entity] := by
    match l, hl, hsub with
    | [], _, _ => exact .inl rfl
    | [a], _, _ => exact .inr ⟨a, rfl⟩
    | a :: b :: l, hl, hsub =>
      have hab := hone a (hsub (by simp)) b (hsub (by simp))
      simp [hab] at hl
  rcases hsingle hshow (List.subset_append_right _ _) with hs | ⟨entity, hs⟩
  · rcases hsingle hrow (List.subset_append_left _ _) with hr | ⟨entity, hr⟩
    · exact .inl ⟨hr, hs⟩
    · exact .inr ⟨entity, .inl ⟨hr, hs⟩⟩
  · rcases hsingle hrow (List.subset_append_left _ _) with hr | ⟨entity', hr⟩
    · exact .inr ⟨entity, .inr ⟨.inl hr, hs⟩⟩
    · obtain rfl : entity' = entity := hone entity' (by simp [hr]) entity (by simp [hs])
      exact .inr ⟨entity', .inr ⟨.inr hr, hs⟩⟩

theorem mediaKey_eq (hseries : row.mediaType = .series) (hs : s ∈ i.shows)
    (honly : i.shows.filter (sharesId row) = [s]) {found : Option Key} {conflicts : ℕ}
    (hfound : i.canonical row.ids row.mediaType (i.links.get row.id) = (found, conflicts)) :
    i.mediaKey i.titles.byShow row = match ([i.showKey s] ++ found.toList).dedup with
      | [key] => (key, conflicts)
      | _ => (.ofMedia row.id, conflicts + 1) := by
  have hget := i.get_byShow hs
  simp only [mediaKey, hfound, if_pos hseries, honly, List.filterMap_cons, hget,
    List.filterMap_nil]
  cases found with
  | none => rfl
  | some key =>
    by_cases hkey : i.showKey s = key
    · simp [hkey]
    · simp [hkey]

/-- The row and the show have one key just when the show leads to the entity of the row. -/
theorem mediaKey_pair (hseries : row.mediaType = .series) (hs : s ∈ i.shows)
    (honly : i.shows.filter (sharesId row) = [s])
    (hone : ∀ a ∈ i.leads row ++ i.leadsOfShow s,
      ∀ b ∈ i.leads row ++ i.leadsOfShow s, a = b) :
    i.showConflicts s = 0 ∧ if i.leads row = [] ∨ i.leadsOfShow s ≠ [] then
        i.mediaKey i.titles.byShow row = (i.showKey s, 0)
      else i.mediaKey i.titles.byShow row = (.ofMedia row.id, 1) := by
  have hkey (found : Option Key) (hfound : i.canonical row.ids row.mediaType
      (i.links.get row.id) = (found, 0)) := mediaKey_eq hseries hs honly hfound
  rcases leads_cases hone with ⟨hr, hshow⟩ | ⟨entity, ⟨hr, hshow⟩ | ⟨hr, hshow⟩⟩
  · have hnone := i.canonical_eq_none _ _ _ hshow
    refine ⟨by rw [showConflicts, hnone], ?_⟩
    rw [if_pos (.inl hr), hkey none (i.canonical_eq_none _ _ _ hr)]
    rfl
  · have hnone := i.canonical_eq_none _ _ _ hshow
    refine ⟨by rw [showConflicts, hnone], ?_⟩
    have hne : i.showKey s ≠ .catalogue entity := by
      rw [showKey, hnone]
      exact Key.noConfusion
    rw [if_neg (by simp [hr, hshow]), hkey _ (i.canonical_fst_eq _ _ _ entity hr)]
    simp [hne]
  · have hsome := i.canonical_fst_eq _ _ _ entity hshow
    have hshowKey : i.showKey s = .catalogue entity := by
      rw [showKey, hsome]
      rfl
    refine ⟨by rw [showConflicts, hsome], ?_⟩
    rw [if_pos (.inr (by simp [hshow]))]
    rcases hr with hr | hr
    · rw [hkey none (i.canonical_eq_none _ _ _ hr)]
      rfl
    · rw [hkey _ (i.canonical_fst_eq _ _ _ entity hr), hshowKey]
      simp

end pair

section newest

theorem notBefore_of_not {o o' : ℤ × ℕ} (h : notBefore o o' = false) : notBefore o' o = true := by
  simp only [notBefore, Bool.or_eq_false_iff, Bool.and_eq_false_iff, decide_eq_false_iff_not,
    Bool.or_eq_true, Bool.and_eq_true, decide_eq_true_eq] at h ⊢
  omega

theorem notBefore_trans {o₁ o₂ o₃ : ℤ × ℕ} (h : notBefore o₁ o₂ = true)
    (h' : notBefore o₂ o₃ = true) : notBefore o₁ o₃ = true := by
  simp only [notBefore, Bool.or_eq_true, Bool.and_eq_true, decide_eq_true_eq] at h h' ⊢
  omega

theorem notBefore_self (o : ℤ × ℕ) : notBefore o o = true := by
  simp [notBefore]

/-- The newest of some entries is the one whose status and score a fact carries. -/
structure Newest (entries : List (Entry × Media)) (target : Fact) (newest : Entry × Media) :
    Prop where
  mem : newest ∈ entries
  last : ∀ e ∈ entries, notBefore (order newest.1) (order e.1) = true
  listed : target.listed = true
  status : target.status = some newest.1.status
  score : target.score = (effectiveScore newest.1).filter (· ≤ 10)
  entryOrder : target.entryOrder = some (order newest.1)

theorem newest_foldl {entries : List (Entry × Media)} {start : Fact} (h : start.entryOrder = none)
    (hne : entries ≠ []) : ∃ newest, Newest entries (entries.foldl relisted start) newest := by
  induction entries using List.reverseRecOn with
  | nil => exact absurd rfl hne
  | append_singleton entries e ih =>
    rw [List.foldl_append, List.foldl_cons, List.foldl_nil]
    by_cases hentries : entries = []
    · subst hentries
      refine ⟨e, by simp, by simp [notBefore_self], ?_, ?_, ?_, ?_⟩
      all_goals simp [relisted, h]
    · obtain ⟨newest, hmem, hlast, hlisted, hstatus, hscore, horder⟩ := ih hentries
      rw [relisted, horder, Option.any_some]
      split
      · next hbefore =>
        refine ⟨newest, List.mem_append_left _ hmem, fun e' he' ↦ ?_, hlisted, hstatus, hscore,
          horder⟩
        rcases List.mem_append.mp he' with he' | he'
        · exact hlast e' he'
        · obtain rfl := List.mem_singleton.mp he'
          exact hbefore
      · next hbefore =>
        have hafter := notBefore_of_not (Bool.not_eq_true _ ▸ hbefore)
        refine ⟨e, by simp, fun e' he' ↦ ?_, rfl, rfl, rfl, rfl⟩
        rcases List.mem_append.mp he' with he' | he'
        · exact notBefore_trans hafter (hlast e' he')
        · obtain rfl := List.mem_singleton.mp he'
          exact notBefore_self _

end newest

/-- The watched episodes of a show. -/
def showEvents (s : Show) : List (Event × Media) :=
  i.events.filter fun e ↦ decide (e.2.mediaType = .episode ∧ e.2.showId = some s.id)

/-- The listed series and the show's history are one title: the fact of the series carries the
status and the score of its newest entry, the plays of the show's episodes are counted in it, and
the pair adds no conflict. -/
structure OneTitle (counts : Counts) (e : Entry × Media) (s : Show) (key : Key) (target : Fact) :
    Prop where
  fact : counts.facts.get key = some target
  series : i.titles.byMedia.get e.2.id = some key
  newest : ∃ newest, Newest (entriesOf i.titles key i.entries) target newest
  episodes : ∀ event ∈ i.showEvents s, keyOf i.titles event.2 = some key
  plays : i.showEvents s ≠ [] → target.plays = ((i.eventsOf key).map fun e ↦ Input.plays e.1).sum
  unconflicted : i.showConflicts s = 0 ∧ i.mediaConflicts e.2 = 0

section titles

variable {i reading} {counts : Counts} {e : Entry × Media} {s : Show}

theorem keyOf_showEvents (hs : s ∈ i.shows) {event : Event × Media}
    (hevent : event ∈ i.showEvents s) : keyOf i.titles event.2 = some (i.showKey s) := by
  obtain ⟨hepisode, hshow⟩ := of_decide_eq_true (List.mem_filter.mp hevent).2
  rw [keyOf, if_neg (by simp [hepisode]), hshow, Option.bind_some, i.get_byShow hs]

theorem plays_pos_of_showEvents (hs : s ∈ i.shows) (hne : i.showEvents s ≠ []) :
    0 < ((i.eventsOf (i.showKey s)).map fun e ↦ plays e.1).sum := by
  obtain ⟨event, hevent⟩ := List.exists_mem_of_ne_nil _ hne
  have hmem : event ∈ i.eventsOf (i.showKey s) :=
    List.mem_filter.mpr ⟨(List.mem_filter.mp hevent).1, decide_eq_true (keyOf_showEvents hs hevent)⟩
  have hplays : plays event.1 ∈ (i.eventsOf (i.showKey s)).map fun e ↦ plays e.1 :=
    List.mem_map.mpr ⟨event, hmem, rfl⟩
  exact List.sum_pos_iff_exists_pos_nat.mpr ⟨_, hplays, one_le_plays event.1⟩

/-- The plays of a title's events are in its fact, unless it is hidden. -/
theorem plays_counted (h : i.counted reading = some counts) {key : Key} {target : Fact}
    (htarget : counts.facts.get key = some target) : target.plays =
      if i.isHidden reading key = true then 0
      else ((i.eventsOf key).map fun e ↦ plays e.1).sum := by
  obtain ⟨top, -, hall⟩ := sums_counted h
  rcases hall key with ⟨-, hnone⟩ | ⟨_, start, _, -, htarget', -, hblank, -, hsums⟩
  · rw [hnone] at htarget
    cases htarget
  · obtain rfl := Option.some.inj (htarget'.symm.trans htarget)
    rw [hsums.plays, hblank.plays, Nat.zero_add]
    split
    · rfl
    · rfl

theorem Newest.foldl_count {top : ℕ → ℕ} {entries : List (Entry × Media)} {target : Fact}
    {newest : Entry × Media} (events : List (Event × Media)) (h : Newest entries target newest) :
    Newest entries (events.foldl (count reading top) target) newest := by
  induction events generalizing target with
  | nil => exact h
  | cons event events ih =>
    refine ih ?_
    rw [count, countPlays, countDate]
    split
    · exact ⟨h.mem, h.last, h.listed, h.status, h.score, h.entryOrder⟩
    · exact ⟨h.mem, h.last, h.listed, h.status, h.score, h.entryOrder⟩

theorem newest_counted (h : i.counted reading = some counts) {key : Key} {target : Fact}
    (htarget : counts.facts.get key = some target) (he : e ∈ i.entries)
    (hkey : i.titles.byMedia.get e.2.id = some key) :
    ∃ newest, Newest (entriesOf i.titles key i.entries) target newest := by
  obtain ⟨top, -, hget⟩ := i.counted_spec h
  rw [hget key] at htarget
  obtain ⟨title, htitle, rfl⟩ := Option.map_eq_some_iff.mp htarget
  have hmem : e ∈ entriesOf i.titles key i.entries :=
    List.mem_filter.mpr ⟨he, decide_eq_true hkey⟩
  obtain ⟨newest, hnewest⟩ := newest_foldl
    (i.assembled_titles.gathered key title htitle).unlisted (List.ne_nil_of_mem hmem)
  exact ⟨newest, hnewest.foldl_count _⟩

end titles

/-- A listed series and the history of the one show that shares an id with it are one title just
when the series leads to no entity or the show does lead to one, and the show is watched only while
it is shown. -/
theorem oneTitle_iff {counts : Counts} (h : i.counted reading = some counts) {e : Entry × Media}
    (he : e ∈ i.entries) (hrow : e.2 ∈ i.media) (hseries : e.2.mediaType = .series) {s : Show}
    (honly : i.shows.filter (sharesId e.2) = [s])
    (hone : ∀ a ∈ i.leads e.2 ++ i.leadsOfShow s, ∀ b ∈ i.leads e.2 ++ i.leadsOfShow s, a = b) :
    (∃ key target, i.OneTitle counts e s key target) ↔
      (i.leads e.2 = [] ∨ i.leadsOfShow s ≠ []) ∧
        (i.showEvents s = [] ∨ i.isHidden reading (i.showKey s) = false) := by
  have hs : s ∈ i.shows := (List.mem_filter.mp (honly ▸ List.mem_singleton_self s)).1
  have hget := i.get_byMedia hrow
  obtain ⟨hshow, hpair⟩ := mediaKey_pair hseries hs honly hone
  constructor
  · rintro ⟨key, target, hone⟩
    have hleads : i.leads e.2 = [] ∨ i.leadsOfShow s ≠ [] := by
      by_contra hleads
      rw [if_neg hleads] at hpair
      have hconflicts := hone.unconflicted.2
      rw [mediaConflicts, hpair] at hconflicts
      exact absurd hconflicts one_ne_zero
    rw [if_pos hleads] at hpair
    obtain rfl : i.showKey s = key := by
      have hkey := hone.series
      rw [hget, keyOfMedia, hpair] at hkey
      exact Option.some.inj hkey
    refine ⟨hleads, ?_⟩
    by_contra hnot
    obtain ⟨hne, hhidden⟩ := not_or.mp hnot
    have hplays := hone.plays hne
    rw [plays_counted h hone.fact, if_pos (Bool.not_eq_false _ ▸ hhidden)] at hplays
    exact absurd hplays (plays_pos_of_showEvents hs hne).ne
  · rintro ⟨hleads, hshown⟩
    rw [if_pos hleads] at hpair
    have hkey : i.titles.byMedia.get e.2.id = some (i.showKey s) := by
      rw [hget, keyOfMedia, hpair]
    obtain ⟨title, htitle⟩ := Option.isSome_iff_exists.mp (i.isSome_of_byMedia hkey)
    obtain ⟨top, -, hall⟩ := sums_counted h
    rcases hall (i.showKey s) with ⟨hnone, -⟩ | ⟨_, _, target, -, htarget, -⟩
    · rw [hnone] at htitle
      cases htitle
    · refine ⟨i.showKey s, target, htarget, hkey, newest_counted h htarget he hkey,
        fun event hevent ↦ keyOf_showEvents hs hevent, fun hne ↦ ?_, hshow, ?_⟩
      · rcases hshown with hnone | hshown
        · exact absurd hnone hne
        · rw [plays_counted h htarget, hshown]
          rfl
      · rw [mediaConflicts, hpair]

section instances

def listedSeries : Media := ⟨1, .series, ⟨some 10, some 20⟩, none, none, none, Dict.empty⟩

def airedSeries : Show := ⟨1, ⟨some 10, none⟩, none, Dict.empty⟩

def watching : Entry := ⟨1, some 0, .watching, true, some 8, [], 0, none⟩

/-- A watched series whose row knows both ids and whose show knows one; the catalogue leads from
`provider` and `native` to its entity. -/
def halfKnown (provider : Provider) (native : ℤ) : Input where
  entries := [(watching, listedSeries)]
  events := [(played 1, broadcast 7 1)]
  shows := [airedSeries]
  media := [listedSeries]
  episodes := []
  links := Dict.empty
  showLinks := Dict.empty
  identities := Dict.empty.set (provider, .series, native) 5
  entities := Dict.empty.set 5 ⟨.series, Dict.empty⟩
  showAnime := true
  nodup_shows := by decide
  nodup_media := by decide
  eq_of_id := by simp

/-- Known by the id that only the row has, the series is torn from its history. -/
theorem halfKnown_two_titles : ∃ counts, (halfKnown .tvdb 20).counted plain = some counts ∧
    (halfKnown .tvdb 20).shows.filter (sharesId listedSeries) = [airedSeries] ∧
    (halfKnown .tvdb 20).leads listedSeries = [5] ∧
    (halfKnown .tvdb 20).leadsOfShow airedSeries = [] ∧
    ¬∃ key target, (halfKnown .tvdb 20).OneTitle counts (watching, listedSeries) airedSeries key
      target := by
  obtain ⟨counts, hcounts⟩ : ∃ counts, (halfKnown .tvdb 20).counted plain = some counts :=
    Option.isSome_iff_exists.mp (by decide)
  refine ⟨counts, hcounts, rfl, by decide, by decide, ?_⟩
  rintro ⟨key, target, hone⟩
  exact absurd hone.unconflicted.2 (by decide)

theorem oneTitle_halfKnown : ∃ counts, (halfKnown .tmdb 10).counted plain = some counts ∧
    ∃ key target, (halfKnown .tmdb 10).OneTitle counts (watching, listedSeries) airedSeries key
      target := by
  obtain ⟨counts, hcounts⟩ : ∃ counts, (halfKnown .tmdb 10).counted plain = some counts :=
    Option.isSome_iff_exists.mp (by decide)
  refine ⟨counts, hcounts, ?_⟩
  exact (oneTitle_iff _ plain hcounts (e := (watching, listedSeries)) (s := airedSeries)
    (List.mem_singleton_self _) (List.mem_singleton_self _) rfl rfl (by decide)).mpr
    ⟨.inr (by decide), .inr (by decide)⟩

end instances

end AnyList.Statistics.Input
