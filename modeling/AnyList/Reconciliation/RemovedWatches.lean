import AnyList.Reconciliation.Watches

namespace AnyList.Reconciliation.Watches

open AnyList.Timestamps AnyList.Reconciliation.Resolve AnyList.Reconciliation.Sources
open AnyList.Library.Members

section newest

/-- The newest known clock of a list, `none` when every clock is unknown. -/
def IsNewest (clocks : List (Option Int)) : Option Int → Prop
  | none => ∀ clock ∈ clocks, clock = none
  | some t => some t ∈ clocks ∧ ∀ t', some t' ∈ clocks → t' ≤ t

theorem IsNewest.unique {clocks clocks' : List (Option Int)} {m m' : Option Int}
    (h : IsNewest clocks m) (h' : IsNewest clocks' m') (hs : SameMembers clocks clocks') :
    m = m' := by
  cases m with
  | none =>
    cases m' with
    | none => rfl
    | some t' => exact h _ ((hs _).mpr h'.1) |>.symm
  | some t =>
    cases m' with
    | none => exact h' _ ((hs _).mp h.1)
    | some t' =>
      have hle := h'.2 t ((hs _).mp h.1)
      have hge := h.2 t' ((hs _).mpr h'.1)
      rw [Option.some.injEq]
      omega

theorem collectWatch_newest (known clock : Option Int) :
    ∃ m, collectWatch (some known) clock = some m ∧ IsNewest [known, clock] m := by
  cases known with
  | none => cases clock <;> simp [collectWatch, IsNewest]
  | some seen =>
    cases clock with
    | none => simp [collectWatch, IsNewest]
    | some t =>
      by_cases h : seen < t
      · refine ⟨some t, by simp [collectWatch, h], by simp, fun t' ht' ↦ ?_⟩
        simp only [List.mem_cons, Option.some.injEq, List.not_mem_nil, or_false] at ht'
        omega
      · refine ⟨some seen, by simp [collectWatch, h], by simp, fun t' ht' ↦ ?_⟩
        simp only [List.mem_cons, Option.some.injEq, List.not_mem_nil, or_false] at ht'
        omega

theorem IsNewest.cons_cons {known clock m m' : Option Int} {clocks : List (Option Int)}
    (h : IsNewest [known, clock] m) (h' : IsNewest (m :: clocks) m') :
    IsNewest (known :: clock :: clocks) m' := by
  cases m' with
  | none =>
    obtain rfl : m = none := h' m List.mem_cons_self
    intro x hx
    simp only [List.mem_cons] at hx
    obtain rfl | rfl | hx := hx
    exacts [h _ (by simp), h _ (by simp), h' x (List.mem_cons_of_mem _ hx)]
  | some t =>
    constructor
    · obtain rfl | ht := List.mem_cons.mp h'.1
      · exact List.mem_append_left clocks h.1
      · exact List.mem_append_right [known, clock] ht
    · intro t' ht'
      obtain ht' | ht' := List.mem_append.mp (show some t' ∈ [known, clock] ++ clocks from ht')
      · cases m with
        | none => cases h _ ht'
        | some t₁ => exact (h.2 t' ht').trans (h'.2 t₁ List.mem_cons_self)
      · exact h'.2 t' (List.mem_cons_of_mem _ ht')

theorem foldl_collectWatch (known : Option Int) (clocks : List (Option Int)) :
    ∃ m, clocks.foldl collectWatch (some known) = some m ∧ IsNewest (known :: clocks) m := by
  induction clocks generalizing known with
  | nil => exact ⟨known, rfl, by cases known <;> simp [IsNewest]⟩
  | cons clock clocks ih =>
    obtain ⟨m, hm, hnewest⟩ := collectWatch_newest known clock
    obtain ⟨m', hm', hnewest'⟩ := ih m
    exact ⟨m', by rw [List.foldl_cons, hm, hm'], hnewest.cons_cons hnewest'⟩

end newest

section evidence

variable {c first : Cycle} {mediaId : ℕ} {source : Source}

theorem evidence_cases (c : Cycle) (mediaId : ℕ) (source : Source) :
    c.clocks mediaId source = [] ∧ c.evidence mediaId source = none ∨
    ∃ m, c.evidence mediaId source = some m ∧ IsNewest (c.clocks mediaId source) m := by
  unfold Cycle.evidence
  cases c.clocks mediaId source with
  | nil => exact .inl ⟨rfl, rfl⟩
  | cons clock clocks => exact .inr (foldl_collectWatch clock clocks)

/-- The source gives no evidence of the title, or the very plays that it gave before. -/
def Repeats (first c : Cycle) (mediaId : ℕ) : Prop :=
  ∀ source, c.clocks mediaId source = [] ∨
    SameMembers (c.clocks mediaId source) (first.clocks mediaId source)

theorem evidence_repeats (h : Repeats first c mediaId) {m : Option Int}
    (hm : c.evidence mediaId source = some m) : first.evidence mediaId source = some m := by
  obtain ⟨hnil, hnone⟩ | ⟨m₁, hm₁, hnewest⟩ := evidence_cases c mediaId source
  · rw [hnone] at hm
    cases hm
  · obtain rfl : m₁ = m := Option.some.inj (hm₁.symm.trans hm)
    have hne : c.clocks mediaId source ≠ [] := by
      intro hnil
      simp [Cycle.evidence, hnil] at hm
    have hsame := (h source).resolve_left hne
    obtain ⟨hnil, -⟩ | ⟨m₂, hm₂, hnewest₂⟩ := evidence_cases first mediaId source
    · exact absurd (hsame.eq_nil_iff.mpr hnil) hne
    · rw [hm₂, hnewest.unique hnewest₂ hsame]

theorem mem_clocks_normal {clock : Option Int} (h : clock ∈ c.clocks mediaId source) :
    clock.map (fun t ↦ naiveUtc (.naive t)) = clock := by
  simp only [Cycle.clocks, List.mem_filterMap] at h
  obtain ⟨⟨s, report⟩, -, hclock⟩ := h
  cases report with
  | play id watchedAt =>
    simp only [Report.clock] at hclock
    split_ifs at hclock
    obtain rfl := Option.some.inj hclock
    cases watchedAt <;> simp
  | event watch =>
    simp only [Report.clock] at hclock
    split_ifs at hclock
    · obtain rfl := Option.some.inj hclock
      rfl
    · obtain rfl := Option.some.inj hclock
      cases watch.watchedAt <;> simp

theorem evidence_normal {m : Option Int} (h : c.evidence mediaId source = some m) :
    m.map (fun t ↦ naiveUtc (.naive t)) = m := by
  obtain ⟨-, hnone⟩ | ⟨m₁, hm₁, hnewest⟩ := evidence_cases c mediaId source
  · rw [hnone] at h
    cases h
  · obtain rfl : m₁ = m := Option.some.inj (hm₁.symm.trans h)
    cases m₁ with
    | none => rfl
    | some t => exact mem_clocks_normal hnewest.1

end evidence

/-- Every source that gave evidence of the title has it saved, with this clock. -/
def Remembers (first : Cycle) (mediaId : ℕ) (a : Account) : Prop :=
  ∀ source m, first.evidence mediaId source = some m →
    ∃ b, a.baselines source = some b ∧ b.watchObservations mediaId = some m

section remembering

variable {first c : Cycle} {mediaId : ℕ} {a : Account}

theorem recordImport_saved {baselines : Source → Option Baseline} {pull : Pull} {source : Source}
    {saved : Option Int}
    (h : ∃ b, baselines source = some b ∧ b.watchObservations mediaId = some saved) :
    ∃ b, recordImport baselines pull source = some b ∧
      b.watchObservations mediaId = some saved := by
  obtain ⟨b, hb, hsaved⟩ := h
  unfold recordImport
  split_ifs
  · by_cases hs : source = pull.source
    · subst hs
      exact ⟨{ b with observedAt := pull.finishedAt }, by simp [hb], hsaved⟩
    · exact ⟨b, by rw [Function.update_of_ne hs, hb], hsaved⟩
  · exact ⟨b, hb, hsaved⟩

theorem recordImports_saved {source : Source} {saved : Option Int} (pulls : List Pull)
    {baselines : Source → Option Baseline}
    (h : ∃ b, baselines source = some b ∧ b.watchObservations mediaId = some saved) :
    ∃ b, pulls.foldl recordImport baselines source = some b ∧
      b.watchObservations mediaId = some saved := by
  induction pulls generalizing baselines with
  | nil => exact h
  | cons pull pulls ih => exact ih (recordImport_saved h)

theorem isSome_recordImport {baselines : Source → Option Baseline} {pull : Pull} {source : Source}
    (h : (baselines source).isSome ∨ pull.recordsImport ∧ pull.source = source) :
    (recordImport baselines pull source).isSome := by
  unfold recordImport
  by_cases hr : pull.recordsImport
  · by_cases hs : source = pull.source
    · simp [hr, hs]
    · simpa [hr, Function.update_of_ne hs, Ne.symm hs] using h
  · simpa [hr] using h

theorem isSome_recordImports {source : Source} (pulls : List Pull)
    {baselines : Source → Option Baseline}
    (h : (baselines source).isSome ∨ ∃ pull ∈ pulls, pull.recordsImport ∧ pull.source = source) :
    (pulls.foldl recordImport baselines source).isSome := by
  induction pulls generalizing baselines with
  | nil => simpa using h
  | cons pull pulls ih =>
    apply ih
    obtain h | ⟨pull', hmem, hp⟩ := h
    · exact .inl (isSome_recordImport (.inl h))
    · obtain rfl | hmem := List.mem_cons.mp hmem
      · exact .inl (isSome_recordImport (.inr hp))
      · exact .inr ⟨pull', hmem, hp⟩

theorem exists_pull_of_evidence {source : Source} {m : Option Int}
    (h : c.evidence mediaId source = some m) :
    ∃ pull ∈ c.pulls, pull.source = source ∧
      ∃ report ∈ pull.reports, (report.clock mediaId).isSome := by
  have hne : c.clocks mediaId source ≠ [] := by
    intro hnil
    simp [Cycle.evidence, hnil] at h
  obtain ⟨clock, hclock⟩ := List.exists_mem_of_ne_nil _ hne
  simp only [Cycle.clocks, Cycle.reports, List.mem_filterMap, List.mem_filter, List.mem_flatMap,
    List.mem_map] at hclock
  obtain ⟨_, ⟨⟨pull, hpull, report, hreport, rfl⟩, hs⟩, hc⟩ := hclock
  exact ⟨pull, hpull, by simpa using hs, report, hreport, by simp [hc]⟩

theorem baselines_watches {source : Source} {b : Baseline}
    (hb : c.pulls.foldl recordImport a.baselines source = some b) :
    (watches a c).baselines source = some
      { b with
        watchObservations := fun id ↦ (c.evidence id source).or (b.watchObservations id) } := by
  simp [watches, persistObservations, hb]

/-- A cloud history once reported is saved by the same cycle. -/
theorem remembers_cycle
    (hrecords : ∀ pull ∈ first.pulls, ∀ report ∈ pull.reports, (report.clock mediaId).isSome →
      pull.recordsImport) : Remembers first mediaId (watches a first) := by
  intro source m hm
  obtain ⟨pull, hpull, hs, report, hreport, hclock⟩ := exists_pull_of_evidence hm
  have hsome := @isSome_recordImports source first.pulls a.baselines
    (.inr ⟨pull, hpull, hrecords pull hpull report hreport hclock, hs⟩)
  obtain ⟨b, hb⟩ := Option.isSome_iff_exists.mp hsome
  exact ⟨_, baselines_watches hb, by simp [hm]⟩

theorem remembers_step (h : Remembers first mediaId a) {s : Step}
    (hrep : ∀ c, s = .cycle c → Repeats first c mediaId) :
    Remembers first mediaId (step a s) := by
  intro source m hm
  cases s with
  | edit change => exact h source m hm
  | cycle c =>
    obtain ⟨b, hb, hsaved⟩ := recordImports_saved c.pulls (h source m hm)
    refine ⟨_, baselines_watches hb, ?_⟩
    cases he : c.evidence mediaId source with
    | none => simpa [he] using hsaved
    | some m' =>
      have hm' := evidence_repeats (hrep c rfl) he
      simp [he, Option.some.inj (hm'.symm.trans hm)]

theorem remembers_run (h : Remembers first mediaId a) {steps : List Step}
    (hrep : ∀ c, .cycle c ∈ steps → Repeats first c mediaId) :
    Remembers first mediaId (run a steps) := by
  induction steps generalizing a with
  | nil => exact h
  | cons s steps ih =>
    refine ih (remembers_step h fun c hc ↦ hrep c ?_) fun c hc ↦ hrep c (List.mem_cons_of_mem _ hc)
    rw [← hc]
    exact List.mem_cons_self

end remembering

section decisions

variable {first c : Cycle} {mediaId : ℕ} {a : Account}

/-- No streaming connection reports a new play of the title. -/
def NoNewStream (c : Cycle) (mediaId : ℕ) : Prop :=
  ∀ o ∈ streamObservations c mediaId, o.value = some false

theorem evidenceObservation_of_saved {source : Source} {m : Option Int}
    (hsaved : ∃ b, a.baselines source = some b ∧ b.watchObservations mediaId = some m)
    (hnormal : m.map (fun t ↦ naiveUtc (.naive t)) = m) :
    evidenceObservation a.baselines mediaId source m = none := by
  obtain ⟨b, hb, hobs⟩ := hsaved
  simp only [evidenceObservation, hb, Option.bind_some, hobs, Option.map_some, hnormal, if_true]

theorem value_of_mem_observations (h : Remembers first mediaId a) (hrep : Repeats first c mediaId)
    (hstream : NoNewStream c mediaId) {o : Observation Source Bool}
    (ho : o ∈ observations a.baselines c mediaId) : o.value = some false := by
  simp only [observations, mem_sortBySource, List.mem_append, List.mem_filterMap] at ho
  obtain ⟨source, -, ho⟩ | ho := ho
  · cases he : c.evidence mediaId source with
    | none => simp [he] at ho
    | some m =>
      have hm := h source m (evidence_repeats hrep he)
      simp [he, evidenceObservation_of_saved hm (evidence_normal he)] at ho
  · exact hstream o ho

theorem value_watchDecision {entry : Option Entry} {observations : List (Observation Source Bool)}
    (h : ∀ o ∈ observations, o.value = some false) :
    (watchDecision c false entry mediaId observations).value ≠ some true := by
  unfold watchDecision
  simp only [Bool.false_eq_true, if_false]
  split_ifs with h₁ h₂
  · simp [Decision.asStale]
  · simp at h₂
  · obtain hv | ⟨o, ho, hv⟩ := value_resolve none (entry.map statusChangedAt) observations
      (some c.startedAt)
    · simp [hv]
    · simp [hv, h o ho]

end decisions

section unwatched

variable {first c : Cycle} {mediaId : ℕ} {a : Account}

def Unwatched (mediaId : ℕ) (events : List WatchEvent) : Prop :=
  ∀ event ∈ events, event.mediaId = mediaId → event.completed = false

theorem watchedBefore_eq_false (h : Unwatched mediaId a.titles.events) :
    (a.titles.events.any fun event ↦ event.completed && decide (event.mediaId = mediaId)) =
      false := by
  simp only [List.any_eq_false, Bool.and_eq_true, decide_eq_true_eq, not_and]
  intro event hmem hcompleted hid
  simp [h event hmem hid] at hcompleted

/-- What the decision loop keeps true for a title the account holds no play of. -/
structure Undecided (mediaId : ℕ) (progress : Progress) : Prop where
  unwatched : Unwatched mediaId progress.titles.events
  rejected : isAccepted (progress.decisions.lookup mediaId) = false

theorem isAccepted_of_value {d : Decision Source Bool} (h : d.value ≠ some true) :
    isAccepted (some d) = false := by
  simp [isAccepted, h]

theorem events_decideWatch (before : Account) (c : Cycle) (progress : Progress) (id : ℕ) :
    ∀ event ∈ (decideWatch before c progress id).titles.events,
      event ∈ progress.titles.events := by
  intro event hevent
  unfold decideWatch at hevent
  simp only at hevent
  split_ifs at hevent
  · exact hevent
  · exact (List.mem_filter.mp hevent).1
  · exact hevent
  · exact hevent

theorem decisions_decideWatch (before : Account) (c : Cycle) (progress : Progress) (id : ℕ) :
    ∃ entry, (decideWatch before c progress id).decisions =
      (id, watchDecision c (before.titles.events.any fun event ↦
          event.completed && decide (event.mediaId = id)) entry id
        (observations before.baselines c id)) :: progress.decisions := by
  refine ⟨progress.titles.entries (c.catalogue.trackingRoot id), ?_⟩
  unfold decideWatch
  simp only
  split_ifs <;> rfl

theorem undecided_decideWatch (hun : Unwatched mediaId a.titles.events)
    (hfalse : ∀ o ∈ observations a.baselines c mediaId, o.value = some false)
    {progress : Progress} (h : Undecided mediaId progress) (id : ℕ) :
    Undecided mediaId (decideWatch a c progress id) where
  unwatched event hevent := h.unwatched event (events_decideWatch a c progress id event hevent)
  rejected := by
    obtain ⟨entry, hdec⟩ := decisions_decideWatch a c progress id
    rw [hdec]
    by_cases hid : mediaId = id
    · subst hid
      rw [List.lookup_cons_self, watchedBefore_eq_false hun]
      exact isAccepted_of_value (value_watchDecision hfalse)
    · rw [List.lookup_cons, beq_false_of_ne hid]
      exact h.rejected

theorem unwatched_confirmWatch {decisions : List (ℕ × Decision Source Bool)}
    {events : List WatchEvent} (h : Unwatched mediaId events) (confirmation : Confirmation) :
    Unwatched mediaId (confirmWatch c decisions events confirmation) := by
  intro event hevent hid
  obtain ⟨event', hmem, rfl⟩ := List.mem_map.mp hevent
  split_ifs at hid ⊢
  · exact h event' hmem hid
  · exact h event' hmem hid

theorem unwatched_stageWatch {decisions : List (ℕ × Decision Source Bool)}
    (hrejected : isAccepted (decisions.lookup mediaId) = false)
    {state : List WatchEvent × (ℕ → List Int)} (h : Unwatched mediaId state.1)
    (staged : Source × WatchEvent) : Unwatched mediaId (stageWatch c decisions state staged).1 := by
  unfold stageWatch
  simp only
  split_ifs with h₁ h₂
  · exact h
  · exact h
  · exact h
  · exact h
  · intro event hevent hid
    obtain hevent | hevent := List.mem_append.mp hevent
    · exact h event hevent hid
    · obtain rfl := List.mem_singleton.mp hevent
      subst hid
      simpa [hrejected] using h₂

/-- A cycle without a new play of the title adds none. -/
theorem unwatched_watches (hrem : Remembers first mediaId a) (hrep : Repeats first c mediaId)
    (hstream : NoNewStream c mediaId) (hun : Unwatched mediaId a.titles.events) :
    Unwatched mediaId (watches a c).titles.events := by
  have hfalse := fun o ho ↦ @value_of_mem_observations first c mediaId a hrem hrep hstream o ho
  have hdecided := List.foldlRecOn (candidateIds c) (decideWatch a c)
    (⟨hun, rfl⟩ : Undecided mediaId ⟨a.titles, [], []⟩)
    fun progress h id _ ↦ undecided_decideWatch hun hfalse h id
  unfold watches applyStagedWatches
  refine List.foldlRecOn (motive := fun state : _ × (ℕ → List Int) ↦ Unwatched mediaId state.1) _ _ ?_
    fun state h staged _ ↦ unwatched_stageWatch hdecided.rejected h staged
  exact List.foldlRecOn _ _ hdecided.unwatched
    fun events h confirmation _ ↦ unwatched_confirmWatch h confirmation

theorem unwatched_run {steps : List Step} (hrem : Remembers first mediaId a)
    (hrep : ∀ c, .cycle c ∈ steps → Repeats first c mediaId)
    (hstream : ∀ c, .cycle c ∈ steps → NoNewStream c mediaId)
    (howner : ∀ change, .edit change ∈ steps →
      ∀ titles, Unwatched mediaId titles.events → Unwatched mediaId (change titles).events)
    (hun : Unwatched mediaId a.titles.events) :
    Unwatched mediaId (run a steps).titles.events := by
  induction steps generalizing a with
  | nil => exact hun
  | cons s steps ih =>
    have hs := remembers_step hrem (s := s)
      fun c hc ↦ hrep c (hc ▸ List.mem_cons_self)
    refine ih hs (fun c hc ↦ hrep c (List.mem_cons_of_mem _ hc))
      (fun c hc ↦ hstream c (List.mem_cons_of_mem _ hc))
      (fun change hc ↦ howner change (List.mem_cons_of_mem _ hc)) ?_
    cases s with
    | cycle c =>
      exact unwatched_watches hrem (hrep c List.mem_cons_self) (hstream c List.mem_cons_self) hun
    | edit change => exact howner change List.mem_cons_self a.titles hun

end unwatched

/-- After the cycle that saved a cloud history, a title the account holds no
completed play of stays without one for as long as the history repeats, no streaming
connection reports a new play and the owner records none. -/
theorem removed_watch_not_restored (a : Account) (mediaId : ℕ) (earlier between later : List Step)
    (first : Cycle)
    (hcloud : ∀ pull ∈ first.pulls, ∀ report ∈ pull.reports, (report.clock mediaId).isSome →
      pull.source.isConnection = false)
    (hrep : ∀ c, .cycle c ∈ between ++ later → Repeats first c mediaId)
    (hstream : ∀ c, .cycle c ∈ later → NoNewStream c mediaId)
    (howner : ∀ change, .edit change ∈ later →
      ∀ titles, Unwatched mediaId titles.events → Unwatched mediaId (change titles).events)
    (hun : Unwatched mediaId (run a (earlier ++ .cycle first :: between)).titles.events) :
    Unwatched mediaId (run a (earlier ++ .cycle first :: between ++ later)).titles.events := by
  have hrecords : ∀ pull ∈ first.pulls, ∀ report ∈ pull.reports,
      (report.clock mediaId).isSome → pull.recordsImport := by
    intro pull hpull report hreport hclock
    simp [Pull.recordsImport, hcloud pull hpull report hreport hclock]
  have hsaved : Remembers first mediaId (run a (earlier ++ .cycle first :: between)) := by
    have hsplit : run a (earlier ++ .cycle first :: between) =
        run (watches (run a earlier) first) between := List.foldl_append
    rw [hsplit]
    exact remembers_run (remembers_cycle hrecords)
      fun c hc ↦ hrep c (List.mem_append_left later hc)
  have hrun : run a (earlier ++ .cycle first :: between ++ later) =
      run (run a (earlier ++ .cycle first :: between)) later := List.foldl_append
  rw [hrun]
  exact unwatched_run hsaved (fun c hc ↦ hrep c (List.mem_append_right between hc)) hstream howner
    hun

theorem Repeats.refl (c : Cycle) (mediaId : ℕ) : Repeats c c mediaId :=
  fun _ ↦ .inr (.refl _)

/-- Trakt's dated play and Simkl's undated one of a film, in every cycle. -/
def filmHistory : Cycle where
  startedAt := 1000000
  now := 1000000
  catalogue := ⟨id, fun _ ↦ none, fun _ ↦ 0⟩
  pulls := [⟨.cloud "trakt", false, 1000000, [.event ⟨1, 1, some 5000, 0, true, false, false⟩]⟩,
    ⟨.cloud "simkl", false, 1000000, [.play 1 none]⟩]
  snapshots := []
  confirmations := []
  isProtected := fun _ ↦ false
  window := 5

def emptyAccount : Account := ⟨⟨[], fun _ ↦ none, []⟩, fun _ ↦ none⟩

def removeWatches : Step := .edit fun titles ↦ { titles with events := [] }

/-- The owner's own record of a later play. -/
def watchAgain : Step := .edit fun titles ↦
  { titles with events := titles.events ++ [⟨2, 1, some 900000000, 0, true, false, false⟩] }

/-- The same cloud histories, and a media server that reports the film too. -/
def filmOnServer : Cycle :=
  { filmHistory with
    pulls := filmHistory.pulls ++
      [⟨.connection 7, true, 1000000, [.event ⟨3, 1, some 5000, 0, true, false, false⟩]⟩] }

theorem removed_watch_not_restored_film :
    Unwatched 1 (run emptyAccount ([] ++ .cycle filmHistory :: [removeWatches] ++
      [.cycle filmHistory, .cycle filmHistory])).titles.events := by
  refine removed_watch_not_restored emptyAccount 1 [] [removeWatches]
    [.cycle filmHistory, .cycle filmHistory] filmHistory ?_ ?_ ?_ ?_ ?_
  · decide
  · simpa [removeWatches] using Repeats.refl filmHistory 1
  · simp [NoNewStream, streamObservations, filmHistory]
  · simp
  · simp [run, step, removeWatches, Unwatched]

/-- The removed play comes back once the owner has recorded another one, and once
a media server reports the film. -/
theorem later_play_restores_watch :
    let s := run emptyAccount [.cycle filmHistory, removeWatches, .cycle filmHistory]
    s.titles.events = [] ∧
      (run s [watchAgain]).titles.events.map WatchEvent.id = [2] ∧
      (run s [watchAgain, .cycle filmHistory]).titles.events.map WatchEvent.id = [2, 1] ∧
      (run s [.cycle filmOnServer]).titles.events.map WatchEvent.id = [3] := by
  decide +kernel

end AnyList.Reconciliation.Watches
