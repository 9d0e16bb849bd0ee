import AnyList.Reconciliation.WatchDates

namespace AnyList.Reconciliation.WatchDates

open AnyList.Timestamps AnyList.Reconciliation.Resolve AnyList.Reconciliation.Sources
open AnyList.Reconciliation.Watches AnyList.Library.Members AnyList.Library.KeepApart

/-- Two plays at these times count as one. -/
def Near (window : ℕ) (s t : Int) : Prop := ¬Apart window s t

instance (window : ℕ) : DecidableRel (Near window) := fun s t ↦ by
  unfold Near
  infer_instance

theorem near_self (window : ℕ) (t : Int) : Near window t t := by
  simp [Near, Apart]

theorem apart_symm {window : ℕ} {s t : Int} (h : Apart window s t) : Apart window t s := by
  unfold Apart at *
  omega

theorem isDuplicateWatchTime_eq {window : ℕ} (hw : window ≠ 0) (times : List Int) (at' : Int) :
    isDuplicateWatchTime times at' window = times.any fun t ↦ Near window t at' := by
  simp [isDuplicateWatchTime, hw, Near, Apart]

section title

variable (window : ℕ) (now : Int)

/-- What the corrections of one group make of its title's plays. -/
def correctedTitle (title : List DatedEvent) (times : List Int) (group : Group)
    (dates : List Int) : List DatedEvent :=
  match liveEvent title group, dates with
  | some event, newest :: rest =>
    let corrected := (replaceInferredWatchDate event (some newest) false).1
    let times := times.erase (group.previousDate.getD event.createdAt) ++ [corrected.time]
    (title.map fun e ↦ if e.id = event.id then corrected else e) ++
      (keepApart (Near window) times (newest :: rest)).map (newWatch now 0 group.mediaId)
  | _, _ => title

end title

section live

variable {events : List DatedEvent} {group : Group} {e : DatedEvent}

theorem find_of_nodup (h : (events.map (·.id)).Nodup) (he : e ∈ events) :
    (events.find? fun e' ↦ decide (e'.id = e.id)) = some e := by
  have hsome : (events.find? fun e' ↦ decide (e'.id = e.id)).isSome :=
    List.find?_isSome.mpr ⟨e, he, by simp⟩
  obtain ⟨e', he'⟩ := Option.isSome_iff_exists.mp hsome
  have hid : e'.id = e.id := by simpa using List.find?_some he'
  rw [he', List.inj_on_of_nodup_map h (List.mem_of_find?_eq_some he') he hid]

theorem liveEvent_eq_some (h : (events.map (·.id)).Nodup) :
    liveEvent events group = some e ↔
      e ∈ events ∧ e.id = group.eventId ∧ e.watchedAt = group.previousDate ∧ e.isReplaceable := by
  simp only [liveEvent, Option.filter_eq_some_iff, Bool.and_eq_true, decide_eq_true_eq]
  constructor
  · rintro ⟨hfind, hrest⟩
    have hid : e.id = group.eventId := by simpa using List.find?_some hfind
    exact ⟨List.mem_of_find?_eq_some hfind, hid, hrest⟩
  · rintro ⟨he, hid, hrest⟩
    exact ⟨by rw [← hid, find_of_nodup h he], hrest⟩

end live

/-- Row ids are unique, and the estimates that corrections name belong to their titles. -/
structure Sound (applied : List Correction) (events : List DatedEvent) : Prop where
  nodup : (events.map (·.id)).Nodup
  titles : ∀ e ∈ events, e.isReplaceable → ∀ c ∈ applied, c.eventId = e.id → c.mediaId = e.mediaId

section sound

variable {applied : List Correction} {s : Dating} {group : Group} {mediaId : ℕ}
variable {window : ℕ} {now : Int}

theorem nodup_ofTitle {events : List DatedEvent} (h : (events.map (·.id)).Nodup) :
    ((ofTitle mediaId events).map (·.id)).Nodup :=
  h.sublist (List.filter_sublist.map _)

theorem Sound.mediaId_of_live {events : List DatedEvent} (h : Sound applied events)
    (hg : group ∈ applied.map Correction.group) {e : DatedEvent} (he : e ∈ events)
    (hid : e.id = group.eventId) (hr : e.isReplaceable) : e.mediaId = group.mediaId := by
  obtain ⟨c, hc, rfl⟩ := List.mem_map.mp hg
  exact (h.titles e he hr c hc hid.symm).symm

theorem liveEvent_ofTitle {events : List DatedEvent} (h : Sound applied events)
    (hg : group ∈ applied.map Correction.group) :
    liveEvent (ofTitle group.mediaId events) group = liveEvent events group := by
  ext e
  rw [liveEvent_eq_some (nodup_ofTitle h.nodup), liveEvent_eq_some h.nodup]
  constructor
  · rintro ⟨he, hrest⟩
    exact ⟨List.mem_of_mem_filter he, hrest⟩
  · rintro ⟨he, hid, hat, hr⟩
    exact ⟨List.mem_filter.mpr ⟨he, by simpa using h.mediaId_of_live hg he hid hr⟩, hid, hat, hr⟩

theorem le_foldl_max (ids : List ℕ) (m : ℕ) : m ≤ ids.foldl max m ∧ ∀ i ∈ ids, i ≤ ids.foldl max m := by
  induction ids generalizing m with
  | nil => simp
  | cons a ids ih =>
    obtain ⟨hm, hmem⟩ := ih (max m a)
    refine ⟨(le_max_left m a).trans hm, fun i hi ↦ ?_⟩
    obtain rfl | hi := List.mem_cons.mp hi
    · exact (le_max_right m i).trans hm
    · exact hmem i hi

theorem freshId_notMem (events : List DatedEvent) : freshId events ∉ events.map (·.id) := by
  intro h
  have := (le_foldl_max (events.map (·.id)) 0).2 _ h
  simp only [freshId] at this
  omega

/-- Adding a date touches neither the ids in use, nor an estimate, nor another title. -/
theorem addDate_cases (now : Int) (mediaId : ℕ) (hw : window ≠ 0) (s : Dating) (at' : Int) :
    ((s.times mediaId).any fun t ↦ Near window t at') ∧ addDate window now mediaId s at' = s ∨
      ((s.times mediaId).any fun t ↦ Near window t at') = false ∧
      addDate window now mediaId s at' =
        ⟨s.events ++ [newWatch now (freshId s.events) mediaId at'],
          Function.update s.times mediaId (s.times mediaId ++ [at'])⟩ := by
  rw [addDate, isDuplicateWatchTime_eq hw]
  split
  · rename_i h
    exact .inl ⟨h, rfl⟩
  · rename_i h
    exact .inr ⟨Bool.eq_false_iff.mpr h, rfl⟩

theorem sound_addDate (hw : window ≠ 0) (h : Sound applied s.events) (at' : Int) :
    Sound applied (addDate window now mediaId s at').events := by
  obtain ⟨-, heq⟩ | ⟨-, heq⟩ := addDate_cases now mediaId hw s at'
  · rwa [heq]
  · rw [heq]
    refine ⟨?_, fun e he hr ↦ ?_⟩
    · rw [List.map_append, List.nodup_append]
      refine ⟨h.nodup, by simp, fun i hi j hj hij ↦ freshId_notMem s.events ?_⟩
      obtain rfl : j = freshId s.events := by simpa [newWatch] using hj
      exact hij ▸ hi
    · obtain he | he := List.mem_append.mp he
      · exact h.titles e he hr
      · obtain rfl := List.mem_singleton.mp he
        simp [DatedEvent.isReplaceable, newWatch] at hr

theorem sound_addDates (hw : window ≠ 0) (dates : List Int) (h : Sound applied s.events) :
    Sound applied (dates.foldl (addDate window now mediaId) s).events := by
  induction dates generalizing s with
  | nil => exact h
  | cons at' dates ih => exact ih (sound_addDate hw h at')

theorem other_addDates (hw : window ≠ 0) {other : ℕ} (hne : other ≠ mediaId) (dates : List Int)
    (s : Dating) :
    ofTitle other (dates.foldl (addDate window now mediaId) s).events = ofTitle other s.events ∧
      (dates.foldl (addDate window now mediaId) s).times other = s.times other := by
  induction dates generalizing s with
  | nil => exact ⟨rfl, rfl⟩
  | cons at' dates ih =>
    rw [List.foldl_cons, (ih _).1, (ih _).2]
    obtain ⟨-, heq⟩ | ⟨-, heq⟩ := addDate_cases now mediaId hw s at'
    · rw [heq]
      exact ⟨rfl, rfl⟩
    · rw [heq]
      refine ⟨?_, Function.update_of_ne hne _ _⟩
      simp [ofTitle, List.filter_append, newWatch, Ne.symm hne]

/-- The dates of a group that are added are those a scan of the title's times keeps. -/
theorem ofTitle_addDates (hw : window ≠ 0) (dates : List Int) (s : Dating) :
    (ofTitle mediaId (dates.foldl (addDate window now mediaId) s).events).map DatedEvent.record =
      (ofTitle mediaId s.events).map DatedEvent.record ++
        (keepApart (Near window) (s.times mediaId) dates).map (newWatch now 0 mediaId) := by
  induction dates generalizing s with
  | nil => simp [keepApart]
  | cons at' dates ih =>
    rw [List.foldl_cons, ih, keepApart]
    obtain ⟨hany, heq⟩ | ⟨hany, heq⟩ := addDate_cases now mediaId hw s at'
    · rw [heq, if_pos hany]
    · rw [heq, if_neg (by simp [hany])]
      simp [ofTitle, List.filter_append, newWatch, DatedEvent.record]

end sound

theorem replace_of_replaceable {event : DatedEvent} (h : event.isReplaceable) (t : Int) :
    (replaceInferredWatchDate event (some t) false).1 =
      { event with watchedAt := some (milliseconds t), dateInferred := false, dateShared := false } := by
  have hnot : ¬(event.watchedAt ≠ none ∧ ¬event.dateInferred ∧ ¬event.dateShared) := by
    rintro ⟨-, hi, hs⟩
    simp [DatedEvent.isReplaceable, hi, hs] at h
  simp only [replaceInferredWatchDate, Option.map_some, naiveUtc_naive, if_neg hnot]
  simp

/-- The row of the estimate, moved to the date that replaces it. -/
def moveEvent (event corrected e : DatedEvent) : DatedEvent :=
  if e.id = event.id then corrected else e

section moved

variable {applied : List Correction} {events : List DatedEvent} {event : DatedEvent} {t : Int}

theorem id_moveEvent (hr : event.isReplaceable) (e : DatedEvent) :
    (moveEvent event (replaceInferredWatchDate event (some t) false).1 e).id = e.id := by
  rw [replace_of_replaceable hr]
  unfold moveEvent
  split
  · rename_i h
    exact h.symm
  · rfl

theorem mediaId_moveEvent (h : (events.map (·.id)).Nodup) (he : event ∈ events)
    (hr : event.isReplaceable) {e : DatedEvent} (he' : e ∈ events) :
    (moveEvent event (replaceInferredWatchDate event (some t) false).1 e).mediaId = e.mediaId := by
  rw [replace_of_replaceable hr]
  unfold moveEvent
  split
  · rename_i hid
    rw [List.inj_on_of_nodup_map h he' he hid]
  · rfl

theorem sound_moved (h : Sound applied events) (he : event ∈ events) (hr : event.isReplaceable) :
    Sound applied
      (events.map (moveEvent event (replaceInferredWatchDate event (some t) false).1)) := by
  refine ⟨?_, fun e he' hr' c hc hid ↦ ?_⟩
  · rw [List.map_map]
    have hids : ((·.id) ∘ moveEvent event (replaceInferredWatchDate event (some t) false).1 :
        DatedEvent → ℕ) = (·.id) := funext fun e ↦ id_moveEvent hr e
    rw [hids]
    exact h.nodup
  · obtain ⟨e, he'', rfl⟩ := List.mem_map.mp he'
    rw [mediaId_moveEvent h.nodup he hr he'']
    rw [id_moveEvent hr] at hid
    refine h.titles e he'' ?_ c hc hid
    unfold moveEvent at hr'
    split at hr'
    · simp [replace_of_replaceable hr, DatedEvent.isReplaceable] at hr'
    · exact hr'

theorem ofTitle_moved (h : (events.map (·.id)).Nodup) (he : event ∈ events)
    (hr : event.isReplaceable) (mediaId : ℕ) :
    ofTitle mediaId
        (events.map (moveEvent event (replaceInferredWatchDate event (some t) false).1)) =
      (ofTitle mediaId events).map
        (moveEvent event (replaceInferredWatchDate event (some t) false).1) := by
  simp only [ofTitle, List.filter_map]
  congr 1
  refine List.filter_congr fun e he' ↦ ?_
  simp only [Function.comp, mediaId_moveEvent h he hr he']

theorem other_moved (h : (events.map (·.id)).Nodup) (he : event ∈ events)
    (hr : event.isReplaceable) {other : ℕ} (hne : other ≠ event.mediaId) :
    ofTitle other
        (events.map (moveEvent event (replaceInferredWatchDate event (some t) false).1)) =
      ofTitle other events := by
  rw [ofTitle_moved h he hr]
  refine (List.map_congr_left fun e he' ↦ ?_).trans (List.map_id _)
  obtain ⟨he', hm⟩ := List.mem_filter.mp he'
  have hid : e.id ≠ event.id := by
    intro hid
    rw [List.inj_on_of_nodup_map h he' he hid] at hm
    exact hne (of_decide_eq_true hm).symm
  simp [moveEvent, hid]

end moved

section group

variable {applied : List Correction} {s : Dating} {group : Group} {window : ℕ} {now : Int}

/-- A group changes nothing, or it moves its estimate and then adds its dates. -/
theorem correctGroup_cases (window : ℕ) (now : Int) (hs : Sound applied s.events)
    (hg : group ∈ applied.map Correction.group) :
    correctGroup window now applied s group = s ∧
        (liveEvent s.events group = none ∨ groupDates applied group = []) ∨
      ∃ event newest rest, liveEvent s.events group = some event ∧ event ∈ s.events ∧
        event.isReplaceable ∧ event.mediaId = group.mediaId ∧
        groupDates applied group = newest :: rest ∧
        correctGroup window now applied s group =
          (newest :: rest).foldl (addDate window now group.mediaId)
            ⟨s.events.map (moveEvent event (replaceInferredWatchDate event (some newest) false).1),
              Function.update s.times group.mediaId ((s.times group.mediaId).erase
                (group.previousDate.getD event.createdAt) ++
                  [(replaceInferredWatchDate event (some newest) false).1.time])⟩ := by
  cases hl : liveEvent s.events group with
  | none => exact .inl ⟨by simp [correctGroup, hl], .inl rfl⟩
  | some event =>
    cases hd : groupDates applied group with
    | nil => exact .inl ⟨by simp [correctGroup, hd], .inr rfl⟩
    | cons newest rest =>
      obtain ⟨he, hid, -, hr⟩ := (liveEvent_eq_some hs.nodup).mp hl
      refine .inr ⟨event, newest, rest, rfl, he, hr, hs.mediaId_of_live hg he hid hr, rfl, ?_⟩
      simp only [correctGroup, hl, hd]
      rfl

theorem sound_correctGroup (hw : window ≠ 0) (hs : Sound applied s.events)
    (hg : group ∈ applied.map Correction.group) :
    Sound applied (correctGroup window now applied s group).events := by
  obtain ⟨heq, -⟩ | ⟨event, newest, rest, -, he, hr, -, -, heq⟩ :=
    correctGroup_cases window now hs hg
  · rwa [heq]
  · rw [heq]
    exact sound_addDates hw _ (sound_moved hs he hr)

theorem other_correctGroup (now : Int) (hw : window ≠ 0) (hs : Sound applied s.events)
    (hg : group ∈ applied.map Correction.group) {other : ℕ} (hne : other ≠ group.mediaId) :
    ofTitle other (correctGroup window now applied s group).events = ofTitle other s.events ∧
      (correctGroup window now applied s group).times other = s.times other := by
  obtain ⟨heq, -⟩ | ⟨event, newest, rest, -, he, hr, hm, -, heq⟩ :=
    correctGroup_cases window now hs hg
  · rw [heq]
    exact ⟨rfl, rfl⟩
  · rw [heq, (other_addDates hw hne _ _).1, (other_addDates hw hne _ _).2]
    exact ⟨other_moved hs.nodup he hr (hm ▸ hne), Function.update_of_ne hne _ _⟩

/-- A group acts on its title as the corrections of that title alone do. -/
theorem ofTitle_correctGroup (hw : window ≠ 0) (hs : Sound applied s.events)
    (hg : group ∈ applied.map Correction.group) :
    (ofTitle group.mediaId (correctGroup window now applied s group).events).map
        DatedEvent.record =
      (correctedTitle window now (ofTitle group.mediaId s.events) (s.times group.mediaId) group
        (groupDates applied group)).map DatedEvent.record := by
  obtain ⟨heq, hnone⟩ | ⟨event, newest, rest, hl, he, hr, hm, hd, heq⟩ :=
    correctGroup_cases window now hs hg
  · rw [heq]
    unfold correctedTitle
    rw [liveEvent_ofTitle hs hg]
    obtain hnone | hnone := hnone <;> simp [hnone]
  · rw [heq, ofTitle_addDates hw, ofTitle_moved hs.nodup he hr]
    unfold correctedTitle
    rw [liveEvent_ofTitle hs hg, hl, hd]
    simp only [Function.update_self, List.map_append, List.map_map]
    rfl

end group

section run

variable {applied : List Correction} {s : Dating} {window : ℕ} {now : Int} {mediaId : ℕ}

theorem sound_groups (now : Int) (hw : window ≠ 0) (groups : List Group) (hs : Sound applied s.events)
    (hg : ∀ g ∈ groups, g ∈ applied.map Correction.group) :
    Sound applied (groups.foldl (correctGroup window now applied) s).events := by
  induction groups generalizing s with
  | nil => exact hs
  | cons g groups ih =>
    exact ih (sound_correctGroup hw hs (hg g List.mem_cons_self))
      fun g' hg' ↦ hg g' (List.mem_cons_of_mem g hg')

theorem other_groups (now : Int) (hw : window ≠ 0) (groups : List Group) (hs : Sound applied s.events)
    (hg : ∀ g ∈ groups, g ∈ applied.map Correction.group)
    (hne : ∀ g ∈ groups, g.mediaId ≠ mediaId) :
    ofTitle mediaId (groups.foldl (correctGroup window now applied) s).events =
        ofTitle mediaId s.events ∧
      (groups.foldl (correctGroup window now applied) s).times mediaId = s.times mediaId := by
  induction groups generalizing s with
  | nil => exact ⟨rfl, rfl⟩
  | cons g groups ih =>
    have hg' := hg g List.mem_cons_self
    have hother := other_correctGroup now hw hs hg'
      (hne g List.mem_cons_self).symm
    rw [List.foldl_cons, ← hother.1, ← hother.2]
    exact ih (sound_correctGroup hw hs hg') (fun g' h ↦ hg g' (List.mem_cons_of_mem g h))
      fun g' h ↦ hne g' (List.mem_cons_of_mem g h)

end run

end AnyList.Reconciliation.WatchDates
