import AnyList.Reconciliation.CorrectedDates

namespace AnyList.Reconciliation.WatchDates

open AnyList.Timestamps AnyList.Reconciliation.Resolve AnyList.Reconciliation.Sources
open AnyList.Reconciliation.Watches AnyList.Library.Members AnyList.Library.KeepApart

/-- An account's plays while its providers report and when the cycle applies, whatever
was edited between. A row id names the same title at both times. -/
structure Plays where
  stored : List DatedEvent
  events : List DatedEvent
  nodup : (events.map (·.id)).Nodup
  titles : ∀ e ∈ stored, ∀ e' ∈ events, e.id = e'.id → e.mediaId = e'.mediaId

/-- The corrections of a title that still find their estimate and a decision that
lets them through. -/
def liveCorrections (decisions : List (ℕ × Decision Source Bool)) (events : List DatedEvent)
    (corrections : List Correction) (mediaId : ℕ) : List Correction :=
  corrections.filter fun c ↦ decide (c.mediaId = mediaId) && decisionAllows decisions mediaId &&
    (liveEvent events c.group).isSome

def completedTimes (title : List DatedEvent) : List Int :=
  (title.filter (·.completed)).map DatedEvent.time

/-- No two completed plays of a title count as one. -/
def NoneTwice (window : ℕ) (title : List DatedEvent) : Prop :=
  (completedTimes title).Pairwise (Apart window)

section collection

variable {stored : List DatedEvent} {reports : List DateReport} {c : Correction}

theorem reconcile_correction {report : DateReport}
    (h : (reconcileInferredWatchDate stored report).2 = some c) :
    ∃ candidate ∈ stored, ((stored.filter fun e ↦ decide (e.mediaId = report.mediaId) &&
        e.completed).filter DatedEvent.isReplaceable = [candidate]) ∧
      candidate.mediaId = c.mediaId ∧ c.mediaId = report.mediaId ∧
      c.group = ⟨report.mediaId, candidate.id, candidate.watchedAt⟩ ∧
      c.normalized = naiveUtc report.watchedAt := by
  simp only [reconcileInferredWatchDate] at h
  split at h
  · simp at h
  · split at h
    · rename_i candidate hcandidate
      have hmem : candidate ∈ [candidate] := List.mem_singleton_self _
      rw [← hcandidate] at hmem
      obtain ⟨hstored, htitle⟩ := List.mem_filter.mp (List.mem_of_mem_filter hmem)
      simp only [Bool.and_eq_true, decide_eq_true_eq] at htitle
      split_ifs at h
      obtain rfl := Option.some.inj h
      exact ⟨candidate, hstored, hcandidate, htitle.1, rfl, rfl, rfl⟩
    · simp at h

theorem mem_dateCorrections (h : c ∈ dateCorrections stored reports) :
    ∃ report ∈ reports, (reconcileInferredWatchDate stored report).2 = some c :=
  List.mem_filterMap.mp h

/-- A title's sole estimate is the one that all of its corrections name. -/
theorem group_eq_of_mediaId_eq {c' : Correction} (h : c ∈ dateCorrections stored reports)
    (h' : c' ∈ dateCorrections stored reports) (hm : c.mediaId = c'.mediaId) :
    c.group = c'.group := by
  obtain ⟨report, -, hr⟩ := mem_dateCorrections h
  obtain ⟨report', -, hr'⟩ := mem_dateCorrections h'
  obtain ⟨candidate, -, hone, -, hmedia, hgroup, -⟩ := reconcile_correction hr
  obtain ⟨candidate', -, hone', -, hmedia', hgroup', -⟩ := reconcile_correction hr'
  have hsame : report.mediaId = report'.mediaId := hmedia ▸ hmedia' ▸ hm
  rw [hsame, hone'] at hone
  obtain rfl := (List.cons.inj hone).1
  rw [hgroup, hgroup', hsame]

theorem milliseconds_normalized (h : c ∈ dateCorrections stored reports) :
    milliseconds c.normalized = c.normalized := by
  obtain ⟨report, -, hr⟩ := mem_dateCorrections h
  obtain ⟨-, -, -, -, -, -, hn⟩ := reconcile_correction hr
  rw [hn, milliseconds_naiveUtc]

theorem sound_of_plays (plays : Plays) {applied : List Correction}
    (h : ∀ c ∈ applied, c ∈ dateCorrections plays.stored reports) :
    Sound applied plays.events := by
  refine ⟨plays.nodup, fun e he _ c hc hid ↦ ?_⟩
  obtain ⟨report, -, hr⟩ := mem_dateCorrections (h c hc)
  obtain ⟨candidate, hstored, -, hmedia, -, hgroup, -⟩ := reconcile_correction hr
  have hevent : c.eventId = candidate.id := congrArg Group.eventId hgroup
  rw [← hmedia, plays.titles candidate hstored e he (hevent ▸ hid)]

end collection

section dates

variable {applied applied' : List Correction} {group : Group}

instance newestTotal : Std.Total fun s t : Int ↦ t ≤ s where
  total s t := (le_total t s)

instance newestTrans : IsTrans Int fun s t ↦ t ≤ s where
  trans _ _ _ h h' := h'.trans h

theorem mem_groupDates {t : Int} :
    t ∈ groupDates applied group ↔ ∃ c ∈ applied, c.group = group ∧ c.normalized = t := by
  simp [groupDates, and_assoc]

theorem groupDates_perm (h : applied.Perm applied') :
    groupDates applied group = groupDates applied' group := by
  refine List.Perm.eq_of_pairwise (fun s t _ _ hst hts ↦ le_antisymm hts hst)
    (List.pairwise_insertionSort _ _) (List.pairwise_insertionSort _ _) ?_
  refine (List.perm_insertionSort _ _).trans (.trans ?_ (List.perm_insertionSort _ _).symm)
  refine (List.perm_ext_iff_of_nodup (nodup_distinct _) (nodup_distinct _)).mpr fun t ↦ ?_
  rw [mem_distinct, mem_distinct]
  exact ((h.filter _).map _).mem_iff

end dates

section run

variable {plays : Plays} {reports : List DateReport} {corrections : List Correction}
variable {decisions : List (ℕ × Decision Source Bool)} {configured : Option Int} {now : Int}

def appliedCorrections (decisions : List (ℕ × Decision Source Bool))
    (corrections : List Correction) : List Correction :=
  corrections.filter fun c ↦ decisionAllows decisions c.mediaId

theorem watchDates_eq (events : List DatedEvent) :
    watchDates configured now decisions events corrections =
      ((distinct ((appliedCorrections decisions corrections).map Correction.group)).foldl
        (correctGroup (dedupWindowMinutes configured) now
          (appliedCorrections decisions corrections))
        ⟨events, loadExistingWatchTimes events⟩).events :=
  rfl

/-- A title's plays change by the corrections of its one group alone. -/
theorem ofTitle_watchDates (plays : Plays) (configured : Option Int) (now : Int)
    (decisions : List (ℕ × Decision Source Bool))
    (h : ∀ c ∈ corrections, c ∈ dateCorrections plays.stored reports)
    (mediaId : ℕ) :
    (∀ c ∈ appliedCorrections decisions corrections, c.mediaId ≠ mediaId) ∧
        ofTitle mediaId (watchDates configured now decisions plays.events corrections) =
          ofTitle mediaId plays.events ∨
      ∃ group, group ∈ (appliedCorrections decisions corrections).map Correction.group ∧
        group.mediaId = mediaId ∧
        (ofTitle mediaId (watchDates configured now decisions plays.events corrections)).map
            DatedEvent.record =
          (correctedTitle (dedupWindowMinutes configured) now (ofTitle mediaId plays.events)
            (loadExistingWatchTimes plays.events mediaId) group
            (groupDates (appliedCorrections decisions corrections) group)).map
              DatedEvent.record := by
  have hw := dedupWindowMinutes_ne_zero configured
  have happlied : ∀ c ∈ appliedCorrections decisions corrections,
      c ∈ dateCorrections plays.stored reports := fun c hc ↦ h c (List.mem_of_mem_filter hc)
  have hsound : Sound (appliedCorrections decisions corrections) plays.events :=
    sound_of_plays plays happlied
  have hgroups : ∀ g ∈ distinct ((appliedCorrections decisions corrections).map Correction.group),
      g ∈ (appliedCorrections decisions corrections).map Correction.group :=
    fun g hg ↦ mem_distinct.mp hg
  by_cases hex : ∃ g ∈ (appliedCorrections decisions corrections).map Correction.group,
      g.mediaId = mediaId
  · obtain ⟨group, hgroup, rfl⟩ := hex
    refine .inr ⟨group, hgroup, rfl, ?_⟩
    obtain ⟨pre, post, hsplit⟩ := List.append_of_mem (mem_distinct.mpr hgroup)
    have hnodup := nodup_distinct ((appliedCorrections decisions corrections).map Correction.group)
    rw [hsplit] at hgroups hnodup
    have hone : ∀ g ∈ pre ++ group :: post, g.mediaId = group.mediaId → g = group := by
      intro g hg hm
      obtain ⟨c, hc, rfl⟩ := List.mem_map.mp (hgroups g hg)
      obtain ⟨c', hc', rfl⟩ := List.mem_map.mp hgroup
      exact group_eq_of_mediaId_eq (happlied c hc) (happlied c' hc') hm
    obtain ⟨-, htail, hdisjoint⟩ := List.nodup_append.mp hnodup
    have hpre : ∀ g ∈ pre, g.mediaId ≠ group.mediaId := fun g hg hm ↦
      hdisjoint g hg group List.mem_cons_self (hone g (List.mem_append_left _ hg) hm)
    have hpost : ∀ g ∈ post, g.mediaId ≠ group.mediaId := fun g hg hm ↦
      (List.nodup_cons.mp htail).1
        (hone g (List.mem_append_right _ (List.mem_cons_of_mem _ hg)) hm ▸ hg)
    have hgpre : ∀ g ∈ pre, g ∈ (appliedCorrections decisions corrections).map
        Correction.group := fun g hg ↦ hgroups g (List.mem_append_left _ hg)
    have hgpost : ∀ g ∈ post, g ∈ (appliedCorrections decisions corrections).map
        Correction.group := fun g hg ↦
      hgroups g (List.mem_append_right _ (List.mem_cons_of_mem _ hg))
    have hspre := sound_groups (s := ⟨plays.events, loadExistingWatchTimes plays.events⟩)
      now hw pre hsound hgpre
    have hopre := other_groups (s := ⟨plays.events, loadExistingWatchTimes plays.events⟩)
      now hw pre hsound hgpre hpre
    rw [watchDates_eq, hsplit, List.foldl_append, List.foldl_cons,
      (other_groups now hw post (sound_correctGroup hw hspre hgroup) hgpost hpost).1,
      ofTitle_correctGroup hw hspre hgroup, hopre.1, hopre.2]
  · have hnone : ∀ g ∈ (appliedCorrections decisions corrections).map Correction.group,
        g.mediaId ≠ mediaId := fun g hg hm ↦ hex ⟨g, hg, hm⟩
    refine .inl ⟨fun c hc ↦ hnone c.group (List.mem_map_of_mem hc), ?_⟩
    exact (other_groups (s := ⟨plays.events, loadExistingWatchTimes plays.events⟩) now hw _ hsound
      hgroups fun g hg ↦ hnone g (hgroups g hg)).1

/-- The order in which providers reported their dates leaves no trace. -/
theorem watchDates_perm (configured : Option Int) (now : Int)
    (decisions : List (ℕ × Decision Source Bool)) {corrections' : List Correction}
    (h : ∀ c ∈ corrections, c ∈ dateCorrections plays.stored reports)
    (hperm : corrections.Perm corrections') (mediaId : ℕ) :
    (ofTitle mediaId (watchDates configured now decisions plays.events corrections)).map
        DatedEvent.record =
      (ofTitle mediaId (watchDates configured now decisions plays.events corrections')).map
        DatedEvent.record := by
  have h' : ∀ c ∈ corrections', c ∈ dateCorrections plays.stored reports :=
    fun c hc ↦ h c (hperm.mem_iff.mpr hc)
  have hfilter : (appliedCorrections decisions corrections).Perm
      (appliedCorrections decisions corrections') := hperm.filter _
  obtain ⟨hnone, heq⟩ | ⟨group, hgroup, hm, heq⟩ := ofTitle_watchDates plays configured now
    decisions h mediaId
  · obtain ⟨-, heq'⟩ | ⟨group', hgroup', hm', -⟩ := ofTitle_watchDates plays configured now
      decisions h' mediaId
    · rw [heq, heq']
    · obtain ⟨c, hc, rfl⟩ := List.mem_map.mp hgroup'
      exact absurd hm' (hnone c (hfilter.mem_iff.mpr hc))
  · obtain ⟨hnone', -⟩ | ⟨group', hgroup', hm', heq'⟩ := ofTitle_watchDates plays configured now
      decisions h' mediaId
    · obtain ⟨c, hc, rfl⟩ := List.mem_map.mp hgroup
      exact absurd hm (hnone' c (hfilter.mem_iff.mp hc))
    · have hsame : group = group' := by
        obtain ⟨c, hc, rfl⟩ := List.mem_map.mp hgroup
        obtain ⟨c', hc', rfl⟩ := List.mem_map.mp hgroup'
        exact group_eq_of_mediaId_eq (h c (List.mem_of_mem_filter hc))
          (h' c' (List.mem_of_mem_filter hc')) (hm.trans hm'.symm)
      rw [heq, heq', hsame, groupDates_perm hfilter]

end run

theorem completedTimes_record (title : List DatedEvent) :
    completedTimes (title.map DatedEvent.record) = completedTimes title := by
  simp only [completedTimes, List.filter_map, List.map_map]
  rfl

theorem erase_map_perm {α β : Type*} [DecidableEq α] [DecidableEq β] (f : α → β) {l : List α}
    {a : α} (h : a ∈ l) : ((l.map f).erase (f a)).Perm ((l.erase a).map f) := by
  have hperm : (l.map f).Perm (f a :: (l.erase a).map f) := (List.perm_cons_erase h).map f
  simpa using hperm.erase (f a)

section corrected

variable {title : List DatedEvent} {event : DatedEvent} {group : Group} {newest now : Int}
variable {rest : List Int} {window : ℕ}

/-- The times a group's dates are checked against: the title's others and the newest date. -/
def checkedTimes (title : List DatedEvent) (event : DatedEvent) (newest : Int) : List Int :=
  (title.map DatedEvent.time).erase event.time ++ [newest]

theorem mem_checkedTimes (he : event ∈ title) {t : Int} :
    t ∈ checkedTimes title event newest ↔
      t = newest ∨ ∃ e ∈ title.erase event, e.time = t := by
  rw [checkedTimes, List.mem_append, (erase_map_perm DatedEvent.time he).mem_iff, List.mem_map,
    List.mem_singleton, or_comm]

theorem moved_perm (hnodup : (title.map (·.id)).Nodup) (he : event ∈ title)
    (corrected : DatedEvent) :
    (title.map (moveEvent event corrected)).Perm (corrected :: title.erase event) := by
  have hperm := (List.perm_cons_erase he).map (moveEvent event corrected)
  have hothers : (title.erase event).map (moveEvent event corrected) = title.erase event := by
    refine (List.map_congr_left fun e he' ↦ ?_).trans (List.map_id _)
    obtain ⟨hne, hmem⟩ := (List.Nodup.mem_erase_iff (List.Nodup.of_map _ hnodup)).mp he'
    have hid : e.id ≠ event.id := fun hid ↦ hne (List.inj_on_of_nodup_map hnodup hmem he hid)
    simp [moveEvent, hid]
  rwa [List.map_cons, hothers, moveEvent, if_pos rfl] at hperm

def corrected (event : DatedEvent) (newest : Int) : DatedEvent :=
  { event with watchedAt := some newest, dateInferred := false, dateShared := false }

theorem correctedTitle_live (hnodup : (title.map (·.id)).Nodup)
    (hlive : liveEvent title group = some event) (hms : milliseconds newest = newest) :
    correctedTitle window now title (title.map DatedEvent.time) group (newest :: rest) =
      title.map (moveEvent event (corrected event newest)) ++
        (keepApart (Near window) (checkedTimes title event newest) (newest :: rest)).map
          (newWatch now 0 group.mediaId) := by
  obtain ⟨-, -, hat, hr⟩ := (liveEvent_eq_some hnodup).mp hlive
  have hprevious : group.previousDate.getD event.createdAt = event.time := by rw [← hat]; rfl
  have hmoved : (replaceInferredWatchDate event (some newest) false).1 =
      corrected event newest := by
    rw [replace_of_replaceable hr, hms, corrected]
  simp only [correctedTitle, hlive, hprevious, hmoved]
  rfl

theorem completedTimes_corrected (hnodup : (title.map (·.id)).Nodup)
    (hlive : liveEvent title group = some event) (hms : milliseconds newest = newest) :
    (completedTimes (correctedTitle window now title (title.map DatedEvent.time) group
        (newest :: rest))).Perm
      ((if event.completed then [newest] else []) ++ completedTimes (title.erase event) ++
        keepApart (Near window) (checkedTimes title event newest) (newest :: rest)) := by
  have he := ((liveEvent_eq_some hnodup).mp hlive).1
  rw [correctedTitle_live hnodup hlive hms]
  have hadded (times : List Int) :
      completedTimes (times.map (newWatch now 0 group.mediaId)) = times := by
    induction times with
    | nil => rfl
    | cons t times ih => exact congrArg (t :: ·) ih
  have happend (l l' : List DatedEvent) :
      completedTimes (l ++ l') = completedTimes l ++ completedTimes l' := by
    simp [completedTimes]
  rw [happend, hadded]
  refine List.Perm.append_right _ ?_
  have hperm : (completedTimes (title.map (moveEvent event (corrected event newest)))).Perm
      (completedTimes (corrected event newest :: title.erase event)) :=
    ((moved_perm hnodup he _).filter _).map _
  refine hperm.trans ?_
  by_cases hc : event.completed <;>
    simp [completedTimes, corrected, hc, DatedEvent.time, effectiveTime]

/-- Moving the estimate and adding the other dates makes a play count twice exactly when the
newest date lies within the window of another completed play. -/
theorem noneTwice_corrected_iff (hnodup : (title.map (·.id)).Nodup)
    (hlive : liveEvent title group = some event) (hms : milliseconds newest = newest) :
    NoneTwice window (correctedTitle window now title (title.map DatedEvent.time) group
        (newest :: rest)) ↔
      (completedTimes (title.erase event)).Pairwise (Apart window) ∧
        (event.completed → ∀ t ∈ completedTimes (title.erase event), Apart window t newest) := by
  have he := ((liveEvent_eq_some hnodup).mp hlive).1
  have hsymm : ∀ {s t : Int}, Apart window s t → Apart window t s := apart_symm
  have hkept : (keepApart (Near window) (checkedTimes title event newest)
      (newest :: rest)).Pairwise fun s t ↦ ¬Near window s t := pairwise_keepApart _ _
  have hothers : ∀ s ∈ completedTimes (title.erase event), ∀ t ∈ keepApart (Near window)
      (checkedTimes title event newest) (newest :: rest), Apart window s t := by
    intro s hs t ht
    obtain ⟨e, he', rfl⟩ := List.mem_map.mp hs
    have hchecked : e.time ∈ checkedTimes title event newest :=
      (mem_checkedTimes he).mpr (.inr ⟨e, List.mem_of_mem_filter he', rfl⟩)
    exact not_not.mp (not_near_of_mem_keepApart hchecked ht)
  have hnewest : ∀ t ∈ keepApart (Near window) (checkedTimes title event newest)
      (newest :: rest), Apart window newest t := fun t ht ↦
    not_not.mp (not_near_of_mem_keepApart ((mem_checkedTimes he).mpr (.inl rfl)) ht)
  unfold NoneTwice
  rw [(completedTimes_corrected hnodup hlive hms).pairwise_iff hsymm, List.pairwise_append,
    List.pairwise_append]
  constructor
  · rintro ⟨⟨_, hpair, hcross⟩, _, _⟩
    refine ⟨hpair, fun hc t ht ↦ hsymm (hcross newest (by simp [hc]) t ht)⟩
  · rintro ⟨hpair, hclear⟩
    refine ⟨⟨?_, hpair, fun s hs t ht ↦ ?_⟩, hkept.imp fun h ↦ not_not.mp h, fun s hs t ht ↦ ?_⟩
    · split <;> simp
    · split at hs
      · rename_i hc
        obtain rfl := List.mem_singleton.mp hs
        exact hsymm (hclear hc t ht)
      · simp at hs
    · obtain hs | hs := List.mem_append.mp hs
      · split at hs
        · obtain rfl := List.mem_singleton.mp hs
          exact hnewest t ht
        · simp at hs
      · exact hothers s hs t ht

/-- Every corrected date is the time of a play, or within the window of one. -/
theorem represented_corrected (window : ℕ) (now : Int) (hnodup : (title.map (·.id)).Nodup)
    (hlive : liveEvent title group = some event) (hms : milliseconds newest = newest) {t : Int}
    (ht : t ∈ newest :: rest) :
    ∃ e ∈ correctedTitle window now title (title.map DatedEvent.time) group (newest :: rest),
      Near window e.time t := by
  have he := ((liveEvent_eq_some hnodup).mp hlive).1
  rw [correctedTitle_live hnodup hlive hms]
  have hmoved := moved_perm hnodup he (corrected event newest)
  obtain ⟨s, hs, hnear⟩ := exists_near_of_mem (near_self window)
    (checkedTimes title event newest) ht
  obtain hs | hs := List.mem_append.mp hs
  · obtain rfl | ⟨e, he', rfl⟩ := (mem_checkedTimes he).mp hs
    · exact ⟨corrected event s, List.mem_append_left _
        (hmoved.mem_iff.mpr List.mem_cons_self), hnear⟩
    · exact ⟨e, List.mem_append_left _ (hmoved.mem_iff.mpr (List.mem_cons_of_mem _ he')), hnear⟩
  · exact ⟨newWatch now 0 group.mediaId s,
      List.mem_append_right _ (List.mem_map_of_mem hs), hnear⟩

end corrected

/-- The newest live date of a title is outside the window of every completed play that
is not the estimate it replaces. -/
def NewestIsClear (window : ℕ) (title : List DatedEvent) (live : List Correction) : Prop :=
  ∀ c ∈ live, (∀ c' ∈ live, c'.normalized ≤ c.normalized) →
    ∀ e ∈ title, e.id = c.eventId → e.completed →
      ∀ o ∈ title, o.id ≠ e.id → o.completed → Apart window o.time c.normalized

section main

variable {plays : Plays} {reports : List DateReport}
variable {decisions : List (ℕ × Decision Source Bool)} {mediaId : ℕ} {group : Group}

theorem mem_liveCorrections {c : Correction} {corrections : List Correction} :
    c ∈ liveCorrections decisions plays.events corrections mediaId ↔
      c ∈ appliedCorrections decisions corrections ∧ c.mediaId = mediaId ∧
        (liveEvent plays.events c.group).isSome := by
  simp only [liveCorrections, appliedCorrections, List.mem_filter, Bool.and_eq_true,
    decide_eq_true_eq]
  constructor
  · rintro ⟨hc, ⟨hm, hallow⟩, hlive⟩
    exact ⟨⟨hc, hm ▸ hallow⟩, hm, hlive⟩
  · rintro ⟨⟨hc, hallow⟩, hm, hlive⟩
    exact ⟨hc, ⟨hm, hm ▸ hallow⟩, hlive⟩

/-- The live corrections of a title all concern its one group, and give its dates. -/
theorem live_of_group (hgroup : group ∈ (appliedCorrections decisions
      (dateCorrections plays.stored reports)).map Correction.group)
    (hm : group.mediaId = mediaId) {c : Correction}
    (hc : c ∈ liveCorrections decisions plays.events (dateCorrections plays.stored reports)
      mediaId) :
    c.group = group ∧ c.normalized ∈ groupDates (appliedCorrections decisions
      (dateCorrections plays.stored reports)) group := by
  obtain ⟨happlied, hmedia, -⟩ := mem_liveCorrections.mp hc
  obtain ⟨c', hc', rfl⟩ := List.mem_map.mp hgroup
  have hsame : c.group = c'.group := group_eq_of_mediaId_eq (List.mem_of_mem_filter happlied)
    (List.mem_of_mem_filter hc') (hmedia.trans hm.symm)
  exact ⟨hsame, mem_groupDates.mpr ⟨c, happlied, hsame, rfl⟩⟩

/-- Either no correction of a title is live and its plays stay, or its one estimate is
moved to the newest of its dates and the others are added. -/
theorem title_cases (plays : Plays) (reports : List DateReport) (configured : Option Int)
    (now : Int) (decisions : List (ℕ × Decision Source Bool)) (mediaId : ℕ) :
    liveCorrections decisions plays.events (dateCorrections plays.stored reports) mediaId = [] ∧
        (ofTitle mediaId (watchDates configured now decisions plays.events
            (dateCorrections plays.stored reports))).map DatedEvent.record =
          (ofTitle mediaId plays.events).map DatedEvent.record ∨
      ∃ group event newest rest,
        liveEvent (ofTitle mediaId plays.events) group = some event ∧
        milliseconds newest = newest ∧ (∀ t ∈ newest :: rest, t ≤ newest) ∧
        (∃ c ∈ liveCorrections decisions plays.events (dateCorrections plays.stored reports)
          mediaId, c.normalized = newest) ∧
        (∀ c ∈ liveCorrections decisions plays.events (dateCorrections plays.stored reports)
          mediaId, c.eventId = event.id ∧ c.normalized ∈ newest :: rest) ∧
        (ofTitle mediaId (watchDates configured now decisions plays.events
            (dateCorrections plays.stored reports))).map DatedEvent.record =
          (correctedTitle (dedupWindowMinutes configured) now (ofTitle mediaId plays.events)
            ((ofTitle mediaId plays.events).map DatedEvent.time) group
            (newest :: rest)).map DatedEvent.record := by
  obtain ⟨hnone, heq⟩ | ⟨group, hgroup, rfl, heq⟩ :=
    ofTitle_watchDates plays configured now decisions (fun _ hc ↦ hc) mediaId
  · refine .inl ⟨List.eq_nil_iff_forall_not_mem.mpr fun c hc ↦ ?_, congrArg _ heq⟩
    obtain ⟨happlied, hmedia, -⟩ := mem_liveCorrections.mp hc
    exact hnone c happlied hmedia
  · have hsound : Sound (appliedCorrections decisions (dateCorrections plays.stored reports))
        plays.events := sound_of_plays plays fun c hc ↦ List.mem_of_mem_filter hc
    have hof := liveEvent_ofTitle hsound hgroup
    cases hl : liveEvent (ofTitle group.mediaId plays.events) group with
    | none =>
      refine .inl ⟨List.eq_nil_iff_forall_not_mem.mpr fun c hc ↦ ?_, ?_⟩
      · have hsome := (mem_liveCorrections.mp hc).2.2
        rw [(live_of_group hgroup rfl hc).1, ← hof, hl] at hsome
        simp at hsome
      · rw [heq, correctedTitle]
        simp [hl]
    | some event =>
      obtain ⟨c, hc, hcgroup⟩ := List.mem_map.mp hgroup
      have hdate : c.normalized ∈ groupDates (appliedCorrections decisions
          (dateCorrections plays.stored reports)) group :=
        mem_groupDates.mpr ⟨c, hc, hcgroup, rfl⟩
      cases hd : groupDates (appliedCorrections decisions
          (dateCorrections plays.stored reports)) group with
      | nil =>
        rw [hd] at hdate
        exact absurd hdate List.not_mem_nil
      | cons newest rest =>
        have hid := ((liveEvent_eq_some (nodup_ofTitle plays.nodup)).mp hl).2.1
        have hsorted : (newest :: rest).Pairwise fun s t ↦ t ≤ s := by
          rw [← hd]
          exact List.pairwise_insertionSort _ _
        obtain ⟨c', hc', hc'group, hc'date⟩ := mem_groupDates.mp
          (hd ▸ List.mem_cons_self : newest ∈ groupDates _ group)
        have hlive' : c' ∈ liveCorrections decisions plays.events
            (dateCorrections plays.stored reports) group.mediaId :=
          mem_liveCorrections.mpr ⟨hc', congrArg Group.mediaId hc'group, by
            rw [hc'group, ← hof, hl]
            rfl⟩
        refine .inr ⟨group, event, newest, rest, hl, ?_, ?_, ⟨c', hlive', hc'date⟩, ?_, ?_⟩
        · rw [← hc'date]
          exact milliseconds_normalized (List.mem_of_mem_filter hc')
        · intro t ht
          obtain rfl | ht := List.mem_cons.mp ht
          · exact le_rfl
          · exact List.rel_of_pairwise_cons hsorted ht
        · intro c hc
          obtain ⟨hcg, hcd⟩ := live_of_group hgroup rfl hc
          rw [hd] at hcd
          exact ⟨(congrArg Group.eventId hcg).trans hid.symm, hcd⟩
        · rw [heq, hd]
          rfl

end main

/-- The corrections of a title have the same effect in every order, each live date is
represented, and no play of the title counts twice afterwards unless one did before. -/
structure CorrectedOnce (plays : Plays) (reports : List DateReport) (configured : Option Int)
    (now : Int) (decisions : List (ℕ × Decision Source Bool)) (mediaId : ℕ) : Prop where
  order : ∀ corrections, (dateCorrections plays.stored reports).Perm corrections →
    (ofTitle mediaId (watchDates configured now decisions plays.events
        (dateCorrections plays.stored reports))).map DatedEvent.record =
      (ofTitle mediaId (watchDates configured now decisions plays.events
        corrections)).map DatedEvent.record
  represented : ∀ c ∈ liveCorrections decisions plays.events
      (dateCorrections plays.stored reports) mediaId,
    ∃ e ∈ ofTitle mediaId (watchDates configured now decisions plays.events
      (dateCorrections plays.stored reports)), Near (dedupWindowMinutes configured) e.time
        c.normalized
  noneTwice : NoneTwice (dedupWindowMinutes configured) (ofTitle mediaId plays.events) →
    NoneTwice (dedupWindowMinutes configured) (ofTitle mediaId
      (watchDates configured now decisions plays.events (dateCorrections plays.stored reports)))

theorem exists_of_record {after title : List DatedEvent}
    (h : after.map DatedEvent.record = title.map DatedEvent.record) {e : DatedEvent}
    (he : e ∈ title) : ∃ e' ∈ after, e'.time = e.time := by
  have hmem : e.record ∈ after.map DatedEvent.record := h ▸ List.mem_map_of_mem he
  obtain ⟨e', he', heq⟩ := List.mem_map.mp hmem
  have htime : e'.record.time = e.record.time := congrArg DatedEvent.time heq
  exact ⟨e', he', htime⟩

theorem noneTwice_congr (window : ℕ) {after title : List DatedEvent}
    (h : after.map DatedEvent.record = title.map DatedEvent.record) :
    NoneTwice window after ↔ NoneTwice window title := by
  rw [NoneTwice, ← completedTimes_record, h, completedTimes_record, NoneTwice]

theorem mem_completedTimes_erase {title : List DatedEvent} (hnodup : (title.map (·.id)).Nodup)
    {event : DatedEvent} (he : event ∈ title) {t : Int} :
    t ∈ completedTimes (title.erase event) ↔
      ∃ o ∈ title, o.id ≠ event.id ∧ o.completed ∧ o.time = t := by
  simp only [completedTimes, List.mem_map, List.mem_filter,
    (List.Nodup.of_map _ hnodup).mem_erase_iff]
  constructor
  · rintro ⟨o, ⟨⟨hne, ho⟩, hc⟩, ht⟩
    exact ⟨o, ho, fun hid ↦ hne (List.inj_on_of_nodup_map hnodup ho he hid), hc, ht⟩
  · rintro ⟨o, ho, hne, hc, ht⟩
    exact ⟨o, ⟨⟨fun h ↦ hne (h ▸ rfl), ho⟩, hc⟩, ht⟩

/-- Date corrections keep one record of each play exactly when the newest date of the title
is clear of its other completed plays, or some of them already counted as one. -/
theorem dates_corrected_once_iff (plays : Plays) (reports : List DateReport)
    (configured : Option Int) (now : Int) (decisions : List (ℕ × Decision Source Bool))
    (mediaId : ℕ) :
    CorrectedOnce plays reports configured now decisions mediaId ↔
      (NoneTwice (dedupWindowMinutes configured) (ofTitle mediaId plays.events) →
        NewestIsClear (dedupWindowMinutes configured) (ofTitle mediaId plays.events)
          (liveCorrections decisions plays.events (dateCorrections plays.stored reports)
            mediaId)) := by
  have horder (corrections : List Correction)
      (hperm : (dateCorrections plays.stored reports).Perm corrections) :=
    watchDates_perm configured now decisions (fun _ hc ↦ hc) hperm mediaId
  have hnodup : ((ofTitle mediaId plays.events).map (·.id)).Nodup := nodup_ofTitle plays.nodup
  obtain ⟨hlive, heq⟩ | ⟨group, event, newest, rest, hl, hms, hmax, ⟨c, hc, rfl⟩, hall, heq⟩ :=
    title_cases plays reports configured now decisions mediaId
  · refine ⟨fun _ _ ↦ ?_, fun _ ↦ ⟨horder, ?_, (noneTwice_congr _ heq).mpr⟩⟩
    · simp [NewestIsClear, hlive]
    · simp [hlive]
  · have he := ((liveEvent_eq_some hnodup).mp hl).1
    have htwice := (noneTwice_congr (dedupWindowMinutes configured) heq).trans
      (noneTwice_corrected_iff hnodup hl hms)
    constructor
    · intro h hbefore c' hc' hnewest e hemem heid hcompleted o ho hne hoc
      have hsame : c'.normalized = c.normalized :=
        le_antisymm (hmax _ (hall c' hc').2) (hnewest c hc)
      obtain rfl : e = event :=
        List.inj_on_of_nodup_map hnodup hemem he (heid.trans (hall c' hc').1)
      rw [hsame]
      exact (htwice.mp (h.noneTwice hbefore)).2 hcompleted _
        ((mem_completedTimes_erase hnodup he).mpr ⟨o, ho, hne, hoc, rfl⟩)
    · intro h
      refine ⟨horder, fun c' hc' ↦ ?_, fun hbefore ↦ htwice.mpr ⟨?_, fun hcompleted t ht ↦ ?_⟩⟩
      · obtain ⟨e, he', hnear⟩ := represented_corrected
          (dedupWindowMinutes configured) now hnodup hl hms (hall c' hc').2
        obtain ⟨e', hmem, htime⟩ := exists_of_record heq he'
        exact ⟨e', hmem, htime ▸ hnear⟩
      · exact hbefore.sublist ((List.erase_sublist.filter _).map _)
      · obtain ⟨o, ho, hne, hoc, rfl⟩ := (mem_completedTimes_erase hnodup he).mp ht
        exact h hbefore c hc (fun c' hc' ↦ hmax _ (hall c' hc').2) event he (hall c hc).1.symm
          hcompleted o ho hne hoc

instance (window : ℕ) (title : List DatedEvent) : Decidable (NoneTwice window title) := by
  unfold NoneTwice
  infer_instance

/-- A film with an exact play and an estimate of an earlier one. -/
def filmPlays : Plays where
  stored := [⟨⟨1, 1, some 0, 0, true, true, false⟩, false⟩,
    ⟨⟨2, 1, some 400000000000, 0, true, false, false⟩, false⟩]
  events := [⟨⟨1, 1, some 0, 0, true, true, false⟩, false⟩,
    ⟨⟨2, 1, some 400000000000, 0, true, false, false⟩, false⟩]
  nodup := by decide
  titles := by decide

/-- A second provider's date for the exact play, two minutes after the first. -/
def filmReports : List DateReport := [⟨.cloud "mdblist", 1, .naive 400120000000, false⟩]

/-- The estimate is moved beside the exact play, and the film has that play twice. -/
theorem estimate_moved_beside_play :
    NoneTwice 5 (ofTitle 1 filmPlays.events) ∧
      (ofTitle 1 (watchDates none 0 [] filmPlays.events
        (dateCorrections filmPlays.stored filmReports))).map DatedEvent.time =
          [400120000000, 400000000000] ∧
      ¬CorrectedOnce filmPlays filmReports none 0 [] 1 := by
  refine ⟨by decide, by decide +kernel, fun h ↦ ?_⟩
  have hafter := h.noneTwice (by decide +kernel)
  revert hafter
  decide +kernel

end AnyList.Reconciliation.WatchDates
