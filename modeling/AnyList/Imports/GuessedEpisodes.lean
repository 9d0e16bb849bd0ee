import AnyList.Imports.EpisodeResolution

namespace AnyList.Imports.EpisodeResolution

open AnyList.Library AnyList.Library.FirstByKey AnyList.Imports.ViewingHistory

variable {py : Python} {today : Int} {records : List Episode} {catalogue : List CatalogEpisode}

section assignment

variable {run : Run} {free used reserved : List Position} {last : Option Position}
  {unique : List Event} {event : Event} {p : Position}

theorem map_fst_assignRun (last : Option Position) (used : List Position) (unique : List Event) :
    (assignRun py today records catalogue run free last used unique).map Prod.fst = unique := by
  induction unique generalizing last used with
  | nil => rfl
  | cons event rest ih =>
    rw [assignRun]
    split <;> rw [List.map_cons, ih]

theorem of_mem_assignRun
    (h : (event, .guessed p) ∈ assignRun py today records catalogue run free last used unique) :
    p ∈ free ∧ (∀ l, last = some l → l < p) ∧
      (catalog catalogue p).any (episodeReleasedBy py today · event.date) = true := by
  induction unique generalizing last used with
  | nil => exact absurd h List.not_mem_nil
  | cons first rest ih =>
    rw [assignRun] at h
    split at h
    · rename_i chosen hfind
      have hfits := List.find?_some hfind
      rw [decide_eq_true_eq] at hfits
      obtain heq | h := List.mem_cons.mp h
      · cases heq
        exact ⟨List.mem_of_find?_eq_some hfind, hfits.2.1, hfits.2.2.2⟩
      · obtain ⟨hfree, hlast, hreleased⟩ := ih h
        exact ⟨hfree, fun l hl ↦ (hfits.2.1 l hl).trans (hlast chosen rfl), hreleased⟩
    · obtain heq | h := List.mem_cons.mp h
      · cases hright : run.right with
        | none => simp [hright] at heq
        | some right => simp [hright] at heq
      · exact ih h

/-- The positions of a run grow in the order of its viewings. -/
theorem pairwise_assignRun (last : Option Position) (used : List Position) (unique : List Event) :
    (assignRun py today records catalogue run free last used unique).Pairwise fun a b ↦
      ∀ p q, a.2 = .guessed p → b.2 = .guessed q → p < q := by
  induction unique generalizing last used with
  | nil => exact .nil
  | cons first rest ih =>
    rw [assignRun]
    split
    · rename_i chosen hfind
      refine .cons (fun b hb p q hp hq ↦ ?_) (ih (some chosen) (chosen :: used))
      cases hp
      obtain ⟨event, guess⟩ := b
      cases hq
      exact (of_mem_assignRun hb).2.1 chosen rfl
    · refine .cons (fun b hb p q hp ↦ ?_) (ih last used)
      cases hright : run.right with
      | none => simp [hright] at hp
      | some right => simp [hright] at hp

theorem mem_of_mem_trimmed (h : p ∈ trimmed py records run unique free) : p ∈ free := by
  unfold trimmed at h
  split at h
  · exact List.mem_of_mem_filter h
  · exact List.mem_of_mem_drop h
  · exact h

theorem of_mem_available (h : p ∈ available py records catalogue run unique reserved) :
    p ∉ reserved ∧ run.Between p := by
  have hp := mem_of_mem_trimmed h
  exact of_decide_eq_true (List.mem_filter.mp hp).2

end assignment

section steps

variable {st : State} {run : Run} {rs : List Run} {κ κ' : Key} {p : Position}

/-- The assignments of a run, in the order of its viewings. -/
def assigned (py : Python) (today : Int) (records : List Episode) (catalogue : List CatalogEpisode)
    (st : State) (run : Run) : List (Event × Guess) :=
  let unique := uniqueViewings py records (st.outcomes.map Prod.fst) run
  assignRun py today records catalogue run
    (available py records catalogue run unique st.reserved) run.left [] unique

theorem outcomes_resolveRun (st : State) (run : Run) :
    (resolveRun py today records catalogue st run).outcomes = st.outcomes ++
      (assigned py today records catalogue st run).map
        fun entry ↦ (keyOf py records entry.1, entry.2) := rfl

theorem reserved_resolveRun (st : State) (run : Run) :
    (resolveRun py today records catalogue st run).reserved = st.reserved ++
      (assigned py today records catalogue st run).filterMap fun entry ↦ entry.2.position := rfl

variable (py today records catalogue)

theorem map_fst_assigned (st : State) (run : Run) :
    (assigned py today records catalogue st run).map Prod.fst =
      uniqueViewings py records (st.outcomes.map Prod.fst) run :=
  map_fst_assignRun run.left [] _

theorem pairwise_assigned (st : State) (run : Run) :
    (assigned py today records catalogue st run).Pairwise fun a b ↦
      ∀ p q, a.2 = .guessed p → b.2 = .guessed q → p < q :=
  pairwise_assignRun run.left [] _

theorem keys_resolveRun (st : State) (run : Run) :
    (resolveRun py today records catalogue st run).outcomes.map Prod.fst =
      st.outcomes.map Prod.fst ++
        (uniqueViewings py records (st.outcomes.map Prod.fst) run).map (keyOf py records) := by
  rw [outcomes_resolveRun, List.map_append, List.map_map,
    ← map_fst_assigned py today records catalogue, List.map_map]
  rfl

variable {py today records catalogue}

theorem mem_foldl_resolveRun (rs : List Run) {entry : Key × Guess} (h : entry ∈ st.outcomes) :
    entry ∈ (rs.foldl (resolveRun py today records catalogue) st).outcomes := by
  induction rs generalizing st with
  | nil => exact h
  | cons run rs ih => exact ih (List.mem_append_left _ h)

/-- Every title has one guess, and every position one title at most. -/
structure Apart (records : List Episode) (st : State) : Prop where
  keys : (st.outcomes.map Prod.fst).Nodup
  anchors : ∀ p ∈ anchors records, p ∈ st.reserved
  reserved : ∀ κ p, (κ, .guessed p) ∈ st.outcomes → p ∈ st.reserved ∧ p ∉ EpisodeResolution.anchors records
  distinct : ∀ κ κ' p, (κ, .guessed p) ∈ st.outcomes → (κ', .guessed p) ∈ st.outcomes → κ = κ'

theorem exists_of_mem_resolveRun (h : (κ, .guessed p) ∈
    (resolveRun py today records catalogue st run).outcomes) :
    (κ, .guessed p) ∈ st.outcomes ∨ ∃ event, keyOf py records event = κ ∧
      (event, .guessed p) ∈ assigned py today records catalogue st run := by
  rw [outcomes_resolveRun] at h
  obtain h | h := List.mem_append.mp h
  · exact .inl h
  · obtain ⟨⟨event, guess⟩, hmem, heq⟩ := List.mem_map.mp h
    cases heq
    exact .inr ⟨event, rfl, hmem⟩

theorem notMem_reserved_of_assigned {event : Event}
    (h : (event, .guessed p) ∈ assigned py today records catalogue st run) : p ∉ st.reserved :=
  (of_mem_available (of_mem_assignRun h).1).1

theorem eq_of_assigned {event event' : Event}
    (h : (event, .guessed p) ∈ assigned py today records catalogue st run)
    (h' : (event', .guessed p) ∈ assigned py today records catalogue st run) : event = event' := by
  have hpairwise : (assigned py today records catalogue st run).Pairwise fun a b ↦
      ¬(a.2 = .guessed p ∧ b.2 = .guessed p) :=
    (pairwise_assigned py today records catalogue st run).imp
      fun {a b} hlt (hp : a.2 = .guessed p ∧ b.2 = .guessed p) ↦
        lt_irrefl p (hlt p p hp.1 hp.2)
  have hsymm : Std.Symm fun a b : Event × Guess ↦ ¬(a.2 = .guessed p ∧ b.2 = .guessed p) :=
    ⟨fun a b hab hba ↦ hab hba.symm⟩
  by_contra hne
  exact hpairwise.forall h h' (fun heq ↦ hne (congrArg Prod.fst heq)) ⟨rfl, rfl⟩

theorem Apart.resolveRun (h : Apart records st) (run : Run) :
    Apart records (resolveRun py today records catalogue st run) where
  keys := by
    rw [keys_resolveRun]
    refine List.nodup_append.mpr ⟨h.keys, nodup_map_firsts _ _, fun κ hκ κ' hκ' heq ↦ ?_⟩
    obtain ⟨event, hevent, rfl⟩ := List.mem_map.mp hκ'
    exact key_notMem_of_mem_firsts hevent (heq ▸ hκ)
  anchors p hp := List.mem_append_left _ (h.anchors p hp)
  reserved κ p hp := by
    rw [reserved_resolveRun]
    obtain hp | ⟨event, -, hmem⟩ := exists_of_mem_resolveRun hp
    · obtain ⟨hreserved, hanchor⟩ := h.reserved κ p hp
      exact ⟨List.mem_append_left _ hreserved, hanchor⟩
    · refine ⟨List.mem_append_right _ (List.mem_filterMap.mpr ⟨_, hmem, rfl⟩), fun hanchor ↦ ?_⟩
      exact notMem_reserved_of_assigned hmem (h.anchors p hanchor)
  distinct κ κ' p hp hp' := by
    obtain hp | ⟨event, rfl, hmem⟩ := exists_of_mem_resolveRun hp
    · obtain hp' | ⟨event', rfl, hmem'⟩ := exists_of_mem_resolveRun hp'
      · exact h.distinct κ κ' p hp hp'
      · exact absurd (h.reserved κ p hp).1 (notMem_reserved_of_assigned hmem')
    · obtain hp' | ⟨event', rfl, hmem'⟩ := exists_of_mem_resolveRun hp'
      · exact absurd (h.reserved κ' p hp').1 (notMem_reserved_of_assigned hmem)
      · rw [eq_of_assigned hmem hmem']

theorem Apart.foldl (h : Apart records st) (rs : List Run) :
    Apart records (rs.foldl (EpisodeResolution.resolveRun py today records catalogue) st) := by
  induction rs generalizing st with
  | nil => exact h
  | cons run rs ih => exact ih (h.resolveRun run)

theorem apart_resolveRuns (py : Python) (today : Int) (records : List Episode)
    (catalogue : List CatalogEpisode) : Apart records (resolveRuns py today records catalogue) := by
  have hstart : Apart records ⟨[], EpisodeResolution.anchors records⟩ :=
    ⟨List.nodup_nil, fun p hp ↦ hp, fun _ _ h ↦ absurd h List.not_mem_nil,
      fun _ _ _ h ↦ absurd h List.not_mem_nil⟩
  exact hstart.foldl _

end steps

section viewings

variable {st : State} {run : Run} {unique : List Event} {known : List Key} {rs : List Run}

/-- Each run with the viewings in it that are the first of their title in any run. -/
def firstViewings (py : Python) (records : List Episode) :
    List Key → List Run → List (Run × List Event)
  | _, [] => []
  | known, run :: rest =>
    (run, uniqueViewings py records known run) :: firstViewings py records
      (known ++ (uniqueViewings py records known run).map (keyOf py records)) rest

/-- What the guesses of the titles that are first viewed in a run keep to. -/
structure Follows (py : Python) (today : Int) (records : List Episode)
    (catalogue : List CatalogEpisode) (outcomes : List (Key × Guess)) (run : Run)
    (unique : List Event) : Prop where
  each : ∀ event ∈ unique, ∀ p, (keyOf py records event, .guessed p) ∈ outcomes →
    run.Between p ∧ (catalog catalogue p).any (episodeReleasedBy py today · event.date) = true
  increasing : unique.Pairwise fun event event' ↦ ∀ p q,
    (keyOf py records event, .guessed p) ∈ outcomes →
      (keyOf py records event', .guessed q) ∈ outcomes → p < q

theorem follows_resolveRun {outcomes : List (Key × Guess)} (hkeys : (outcomes.map Prod.fst).Nodup)
    (hsub : ∀ entry ∈ (resolveRun py today records catalogue st run).outcomes, entry ∈ outcomes) :
    Follows py today records catalogue outcomes run
      (uniqueViewings py records (st.outcomes.map Prod.fst) run) := by
  have hguess {event : Event} {guess guess' : Guess}
      (hmem : (event, guess) ∈ assigned py today records catalogue st run)
      (h : (keyOf py records event, guess') ∈ outcomes) : guess = guess' := by
    have hentry : (keyOf py records event, guess) ∈ outcomes :=
      hsub _ (List.mem_append_right _ (List.mem_map.mpr ⟨_, hmem, rfl⟩))
    exact congrArg Prod.snd (List.inj_on_of_nodup_map hkeys hentry h rfl)
  rw [← map_fst_assigned py today records catalogue]
  refine ⟨fun event hevent p hp ↦ ?_, List.pairwise_map.mpr ?_⟩
  · obtain ⟨⟨event, guess⟩, hmem, rfl⟩ := List.mem_map.mp hevent
    cases hguess hmem hp
    obtain ⟨hfree, -, hreleased⟩ := of_mem_assignRun hmem
    exact ⟨(of_mem_available hfree).2, hreleased⟩
  · have hpairwise := pairwise_assigned py today records catalogue st run
    exact hpairwise.imp_of_mem fun ha hb hlt p q hp hq ↦ hlt p q (hguess ha hp) (hguess hb hq)

theorem follows_foldl {outcomes : List (Key × Guess)} (hkeys : (outcomes.map Prod.fst).Nodup)
    (hsub : ∀ entry ∈ (rs.foldl (resolveRun py today records catalogue) st).outcomes,
      entry ∈ outcomes)
    (h : (run, unique) ∈ firstViewings py records (st.outcomes.map Prod.fst) rs) :
    Follows py today records catalogue outcomes run unique := by
  induction rs generalizing st with
  | nil => exact absurd h List.not_mem_nil
  | cons first rs ih =>
    obtain heq | h := List.mem_cons.mp h
    · cases heq
      exact follows_resolveRun hkeys fun entry hentry ↦
        hsub entry (mem_foldl_resolveRun rs hentry)
    · rw [← keys_resolveRun py today records catalogue] at h
      exact ih hsub h

theorem flatMap_firstViewings (known : List Key) (rs : List Run) :
    (firstViewings py records known rs).flatMap Prod.snd =
      firsts (keyOf py records) known (rs.flatMap Run.events) := by
  induction rs generalizing known with
  | nil => rfl
  | cons run rs ih => rw [firstViewings, List.flatMap_cons, List.flatMap_cons, ih, firsts_append]; rfl

end viewings

end AnyList.Imports.EpisodeResolution
