import AnyList.Activity.StreamingCards

namespace AnyList.Activity.Streaming

open AnyList.Library
open AnyList.Reconciliation.Watches (Status)

/-- The cards that hold a key, each with the date under which it holds it. -/
def homes (rows : List StreamCard) (key : String) : List (ℕ × Int) :=
  rows.filterMap fun row ↦ (row.event key).map fun event ↦ (row.id, event.date)

/-- Cards of different ids, no two of which hold one key. -/
structure OneHomeEach (rows : List StreamCard) : Prop where
  ids : (rows.map StreamCard.id).Nodup
  homes : ∀ key, (homes rows key).length ≤ 1

/-- The earliest date ever recorded for a key. -/
def earliest (rows : List StreamCard) (events : List Event) (key : String) : Option Int :=
  match (homes rows key).head?.map Prod.snd,
    (events.find? fun event ↦ decide (event.key = key)).map Event.date with
  | some date, some date' => some (min date date')
  | some date, none => some date
  | none, date => date

section cards

variable {row : StreamCard} {key key' : String} {event : Event}

@[simp] theorem id_rebuild (row : StreamCard) : (rebuild row).id = row.id := by
  rw [rebuild]
  split <;> rfl

@[simp] theorem evidence_rebuild (row : StreamCard) : (rebuild row).evidence = row.evidence := by
  rw [rebuild]
  split
  · rfl
  · rfl

@[simp] theorem id_removeEvent : (row.removeEvent key).id = row.id := by
  simp [StreamCard.removeEvent]

@[simp] theorem id_withBase : row.withBase.id = row.id := by
  rw [StreamCard.withBase]
  split <;> rfl

@[simp] theorem id_putEvent : (row.putEvent event).id = row.id := by
  simp [StreamCard.putEvent]

theorem event_removeEvent : (row.removeEvent key).event key' =
    if key' = key then none else row.event key' := by
  rw [StreamCard.event, StreamCard.removeEvent, evidence_rebuild, StreamCard.event]
  cases row.evidence with
  | none => simp
  | some evidence =>
    rw [Option.map_some, Option.bind_some, Option.bind_some, Dict.get_filterKeys]
    by_cases h : key' = key <;> simp [h]

theorem event_withBase : row.withBase.event key = row.event key := by
  rw [StreamCard.event, StreamCard.withBase, StreamCard.event]
  cases h : row.evidence with
  | none => rfl
  | some evidence => simp [h]

theorem event_putEvent : (row.putEvent event).event key =
    if key = event.key then some event else row.event key := by
  have hbase : row.withBase.event key = row.event key := event_withBase
  rw [← hbase, StreamCard.event, StreamCard.putEvent, evidence_rebuild, StreamCard.event]
  have hbased : ∃ evidence, row.withBase.evidence = some evidence := by
    rw [StreamCard.withBase]
    cases h : row.evidence with
    | none => exact ⟨_, rfl⟩
    | some evidence => exact ⟨evidence, h⟩
  obtain ⟨evidence, hevidence⟩ := hbased
  rw [hevidence, Option.map_some, Option.bind_some, Option.bind_some, Dict.get_set]
  by_cases h : key = event.key
  · rw [if_pos h, if_pos h.symm]
  · rw [if_neg h, if_neg (Ne.symm h)]

theorem event_newCard {id : ℕ} : (newCard id event).event key = none := rfl

end cards

section updates

variable {rows : List StreamCard} {id : ℕ} {f : StreamCard → StreamCard} {key : String}

theorem ids_update (hid : ∀ row, (f row).id = row.id) :
    (update id f rows).map StreamCard.id = rows.map StreamCard.id := by
  rw [update, List.map_map]
  refine List.map_congr_left fun row _ ↦ ?_
  rw [Function.comp_apply]
  split_ifs
  · exact hid row
  · rfl

/-- An update that keeps what cards hold of a key keeps its homes. -/
theorem homes_update (hid : ∀ row, (f row).id = row.id)
    (hevent : ∀ row ∈ rows, row.id = id → (f row).event key = row.event key) :
    homes (update id f rows) key = homes rows key := by
  rw [homes, homes, update, List.filterMap_map]
  refine List.filterMap_congr fun row hrow ↦ ?_
  rw [Function.comp_apply]
  split_ifs with h
  · rw [hid, hevent row hrow h]
  · rfl

theorem homes_append (rows rows' : List StreamCard) (key : String) :
    homes (rows ++ rows') key = homes rows key ++ homes rows' key := List.filterMap_append

theorem homes_eq_nil_iff : homes rows key = [] ↔ ∀ row ∈ rows, row.event key = none := by
  rw [homes, List.filterMap_eq_nil_iff]
  exact forall₂_congr fun row _ ↦ Option.map_eq_none_iff

/-- The one card of an id gets a key that no card holds. -/
theorem homes_update_of_mem {row : StreamCard} {date : Int} (hids : (rows.map StreamCard.id).Nodup)
    (hrow : row ∈ rows) (hnone : homes rows key = []) (hid : ∀ row, (f row).id = row.id)
    (hevent : ((f row).event key).map Event.date = some date) :
    homes (update row.id f rows) key = [(row.id, date)] := by
  obtain ⟨before, after, rfl⟩ := List.append_of_mem hrow
  rw [List.map_append, List.map_cons, List.nodup_middle, List.nodup_cons, ← List.map_append] at hids
  have hother : ∀ row' ∈ before ++ after, row'.id ≠ row.id := fun row' hmem heq ↦
    hids.1 (heq ▸ List.mem_map_of_mem hmem)
  have hnone' := homes_eq_nil_iff.mp hnone
  have hside {side : List StreamCard} (hsub : side ⊆ before ++ after) :
      homes (update row.id f side) key = [] := by
    have hsame : homes (update row.id f side) key = homes side key :=
      homes_update hid fun row' hmem heq ↦ absurd heq (hother row' (hsub hmem))
    rw [hsame, homes_eq_nil_iff]
    intro row' hmem
    obtain h | h := List.mem_append.mp (hsub hmem)
    · exact hnone' row' (List.mem_append_left _ h)
    · exact hnone' row' (List.mem_append_right _ (List.mem_cons_of_mem _ h))
  have hupdate : update row.id f (before ++ row :: after) =
      update row.id f before ++ (f row :: update row.id f after) := by
    simp [update]
  rw [hupdate, homes_append, hside (List.subset_append_left _ _), List.nil_append, homes,
    List.filterMap_cons]
  obtain ⟨event, hsome, rfl⟩ := Option.map_eq_some_iff.mp hevent
  rw [hsome, hid]
  have hafter := hside (List.subset_append_right before after)
  rw [homes] at hafter
  simp [hafter]

theorem freshId_notMem (rows : List StreamCard) : freshId rows ∉ rows.map StreamCard.id := by
  have hbound : ∀ (ids : List ℕ) (n : ℕ), n ≤ ids.foldl max n ∧ ∀ i ∈ ids, i ≤ ids.foldl max n := by
    intro ids
    induction ids with
    | nil => exact fun n ↦ ⟨Nat.le_refl n, fun i hi ↦ absurd hi List.not_mem_nil⟩
    | cons i ids ih =>
      intro n
      obtain ⟨hmax, hall⟩ := ih (max n i)
      refine ⟨by rw [List.foldl_cons]; omega, fun j hj ↦ ?_⟩
      rw [List.foldl_cons]
      obtain rfl | hj := List.mem_cons.mp hj
      · omega
      · exact hall j hj
  intro hmem
  have hle := (hbound (rows.map StreamCard.id) 0).2 _ hmem
  rw [freshId] at hle
  omega

end updates

section events

variable {rows : List StreamCard} {event : Event} {key : String}

/-- What recording one event does to the homes of the keys. -/
structure Recorded (rows : List StreamCard) (event : Event) (date : Int)
    (next : List StreamCard × ℕ) : Prop where
  ids : (next.1.map StreamCard.id).Nodup
  own : homes next.1 event.key = [(next.2, date)]
  others : ∀ key, key ≠ event.key → homes next.1 key = homes rows key

theorem update_putEvent {row : StreamCard} (hids : (rows.map StreamCard.id).Nodup)
    (hrow : row ∈ rows) (hnone : homes rows event.key = []) :
    Recorded rows event event.date (update row.id (StreamCard.putEvent · event) rows, row.id) where
  ids := by
    rw [ids_update fun _ ↦ id_putEvent]
    exact hids
  own := homes_update_of_mem hids hrow hnone (fun _ ↦ id_putEvent)
    (by rw [event_putEvent, if_pos rfl, Option.map_some])
  others key hkey := homes_update (fun _ ↦ id_putEvent) fun row' _ _ ↦ by
    rw [event_putEvent, if_neg hkey]

theorem recorded_placeEvent (hids : (rows.map StreamCard.id).Nodup)
    (hnone : homes rows event.key = []) : Recorded rows event event.date (placeEvent rows event) := by
  rw [placeEvent]
  cases hfind : rows.reverse.find? (StreamCard.isOpen · event.date) with
  | some row => exact update_putEvent hids (List.mem_reverse.mp (List.mem_of_find?_eq_some hfind)) hnone
  | none =>
    have happend (key : String) :
        homes (rows ++ [newCard (freshId rows) event]) key = homes rows key := by
      have hnew : homes [newCard (freshId rows) event] key = [] := rfl
      rw [homes_append, hnew, List.append_nil]
    have hids' : ((rows ++ [newCard (freshId rows) event]).map StreamCard.id).Nodup := by
      rw [List.map_append, List.nodup_append]
      refine ⟨hids, by simp, fun id hid id' hid' heq ↦ freshId_notMem rows ?_⟩
      rw [List.map_singleton, List.mem_singleton] at hid'
      rwa [heq, hid'] at hid
    have hput := update_putEvent hids' (List.mem_append_right rows (List.mem_singleton_self _))
      ((happend event.key).trans hnone)
    exact ⟨hput.ids, hput.own, fun key hkey ↦ (hput.others key hkey).trans (happend key)⟩

theorem mem_homes {row : StreamCard} {old : Event} (hrow : row ∈ rows)
    (hold : row.event key = some old) : (row.id, old.date) ∈ homes rows key :=
  List.mem_filterMap.mpr ⟨row, hrow, by rw [hold, Option.map_some]⟩

theorem eq_singleton_of_length_le_one {α : Type*} {l : List α} {a : α} (hl : l.length ≤ 1)
    (ha : a ∈ l) : l = [a] := by
  cases l with
  | nil => exact absurd ha List.not_mem_nil
  | cons b l =>
    cases l with
    | nil => rw [List.mem_singleton.mp ha]
    | cons c l => simp at hl

def dateAfter (rows : List StreamCard) (event : Event) : Int :=
  ((homes rows event.key).head?.map Prod.snd).elim event.date (min · event.date)

theorem dateAfter_le (rows : List StreamCard) (event : Event) : dateAfter rows event ≤ event.date := by
  rw [dateAfter]
  cases (homes rows event.key).head?.map Prod.snd with
  | none => exact Int.le_refl _
  | some date => exact min_le_right date event.date

theorem recorded_recordEvent (h : OneHomeEach rows) (event : Event) :
    Recorded rows event (dateAfter rows event) (recordEvent rows event) := by
  rw [recordEvent]
  cases hfind : rows.find? fun row ↦ (row.event event.key).isSome with
  | none =>
    have hnone : homes rows event.key = [] := by
      refine homes_eq_nil_iff.mpr fun row hrow ↦ ?_
      simpa using List.find?_eq_none.mp hfind row hrow
    rw [dateAfter, hnone]
    exact recorded_placeEvent h.ids hnone
  | some existing =>
    have hmem := List.mem_of_find?_eq_some hfind
    have hholds : (existing.event event.key).isSome = true := by
      simpa using List.find?_some hfind
    obtain ⟨old, hold⟩ := Option.isSome_iff_exists.mp hholds
    have hhome := eq_singleton_of_length_le_one (h.homes event.key) (mem_homes hmem hold)
    simp only [dateAfter, hhome, hold, Option.all_some, decide_eq_true_eq, List.head?_cons,
      Option.map_some, Option.elim_some]
    split_ifs with hle
    · refine ⟨h.ids, ?_, fun key _ ↦ rfl⟩
      rw [hhome, min_eq_left hle]
    · have hremoved : homes (update existing.id (StreamCard.removeEvent · event.key) rows)
          event.key = [] := by
        refine homes_eq_nil_iff.mpr fun row' hrow' ↦ ?_
        obtain ⟨row, hrow, rfl⟩ := List.mem_map.mp hrow'
        split_ifs with hid
        · rw [event_removeEvent, if_pos rfl]
        · by_contra hsome
          obtain ⟨other, hother⟩ := Option.ne_none_iff_exists'.mp hsome
          have hin := mem_homes hrow hother
          rw [hhome, List.mem_singleton, Prod.mk.injEq] at hin
          exact hid hin.1
      have hids : ((update existing.id (StreamCard.removeEvent · event.key) rows).map
          StreamCard.id).Nodup := by
        rw [ids_update fun _ ↦ id_removeEvent]
        exact h.ids
      have hplaced := recorded_placeEvent hids hremoved
      rw [min_eq_right (by omega)]
      refine ⟨hplaced.ids, hplaced.own, fun key hkey ↦ (hplaced.others key hkey).trans ?_⟩
      exact homes_update (fun _ ↦ id_removeEvent) fun row _ _ ↦ by
        rw [event_removeEvent, if_neg hkey]

theorem Recorded.oneHomeEach {date : Int} {next : List StreamCard × ℕ} (h : OneHomeEach rows)
    (hnext : Recorded rows event date next) : OneHomeEach next.1 where
  ids := hnext.ids
  homes key := by
    by_cases hkey : key = event.key
    · rw [hkey, hnext.own]
      simp
    · rw [hnext.others key hkey]
      exact h.homes key

/-- What recording a list of events does to the homes of the keys. -/
structure RecordedAll (rows : List StreamCard) (events : List Event)
    (result : List StreamCard × List ℕ) : Prop where
  cards : OneHomeEach result.1
  others : ∀ key, key ∉ events.map Event.key → homes result.1 key = homes rows key
  own : List.Forall₂ (fun event id ↦ homes result.1 event.key = [(id, dateAfter rows event)])
    events result.2

theorem recordEvents_cons (rows : List StreamCard) (event : Event) (events : List Event) :
    recordEvents rows (event :: events) =
      ((recordEvents (recordEvent rows event).1 events).1,
        (recordEvent rows event).2 :: (recordEvents (recordEvent rows event).1 events).2) := by
  have htouched : ∀ (events : List Event) (rows : List StreamCard) (touched : List ℕ),
      events.foldl (fun state event ↦
        let next := recordEvent state.1 event
        (next.1, state.2 ++ [next.2])) (rows, touched) =
      ((recordEvents rows events).1, touched ++ (recordEvents rows events).2) := by
    intro events
    induction events with
    | nil => exact fun rows touched ↦ by simp [recordEvents]
    | cons event events ih =>
      intro rows touched
      have hrest : recordEvents rows (event :: events) =
          ((recordEvents (recordEvent rows event).1 events).1,
            [(recordEvent rows event).2] ++ (recordEvents (recordEvent rows event).1 events).2) :=
        ih (recordEvent rows event).1 [(recordEvent rows event).2]
      rw [List.foldl_cons, ih, hrest, List.append_assoc]
  exact htouched events (recordEvent rows event).1 [(recordEvent rows event).2]

theorem recordedAll_recordEvents {events : List Event} (h : OneHomeEach rows)
    (hkeys : (events.map Event.key).Nodup) :
    RecordedAll rows events (recordEvents rows events) := by
  induction events generalizing rows with
  | nil => exact ⟨h, fun key _ ↦ rfl, .nil⟩
  | cons event events ih =>
    rw [List.map_cons, List.nodup_cons] at hkeys
    have hfirst := recorded_recordEvent h event
    have hrest := ih (hfirst.oneHomeEach h) hkeys.2
    rw [recordEvents_cons]
    refine ⟨hrest.cards, fun key hkey ↦ ?_, .cons ?_ ?_⟩
    · rw [List.map_cons, List.mem_cons, not_or] at hkey
      exact (hrest.others key hkey.2).trans (hfirst.others key hkey.1)
    · exact (hrest.others event.key hkeys.1).trans hfirst.own
    · have hother : ∀ event' ∈ events, event'.key ≠ event.key := fun event' hmem heq ↦
        hkeys.1 (heq ▸ List.mem_map_of_mem hmem)
      refine ((List.forall₂_and_left _ _).mpr ⟨hother, hrest.own⟩).imp fun event' id hboth ↦ ?_
      obtain ⟨hne, hown⟩ := hboth
      rw [hown, dateAfter, dateAfter, hfirst.others event'.key hne]

end events

section deletion

variable {rows : List StreamCard} {events : List Event} {key : String} {id : ℕ} {date : Int}
  {score previousScore : Option ℚ}

theorem exists_mem_of_forall₂ {α β : Type*} {r : α → β → Prop} {l : List α} {l' : List β} {a : α}
    (h : List.Forall₂ r l l') (ha : a ∈ l) : ∃ b ∈ l', r a b := by
  induction h with
  | nil => exact absurd ha List.not_mem_nil
  | cons hhead _ ih =>
    obtain rfl | ha := List.mem_cons.mp ha
    · exact ⟨_, List.mem_cons_self, hhead⟩
    · obtain ⟨b, hb, hr⟩ := ih ha
      exact ⟨b, List.mem_cons_of_mem _ hb, hr⟩

theorem homes_perm {rows' : List StreamCard} (h : OneHomeEach rows) (hperm : rows'.Perm rows) :
    homes rows' key = homes rows key := by
  have hhomes : (homes rows' key).Perm (homes rows key) := hperm.filterMap _
  cases hrows : homes rows key with
  | nil =>
    rw [hrows] at hhomes
    exact hhomes.eq_nil
  | cons home rest =>
    have hone := eq_singleton_of_length_le_one (h.homes key) (hrows ▸ List.mem_cons_self)
    rw [hrows] at hone
    rw [hrows, hone] at hhomes
    rw [hone]
    exact List.perm_singleton.mp hhomes

theorem OneHomeEach.perm {rows' : List StreamCard} (h : OneHomeEach rows)
    (hperm : rows'.Perm rows) : OneHomeEach rows' where
  ids := (hperm.map _).nodup_iff.mpr h.ids
  homes key := by
    rw [homes_perm h hperm]
    exact h.homes key

/-- The card that is the only home of a key, and what a deletion leaves of it. -/
theorem exists_home (h : homes rows key = [(id, date)]) (p : StreamCard → Bool) :
    ∃ row ∈ rows, row.id = id ∧ (row.event key).map Event.date = some date ∧
      homes (rows.filter p) key = if p row then [(id, date)] else [] := by
  have hmem : (id, date) ∈ homes rows key := by rw [h]; exact List.mem_singleton_self _
  obtain ⟨row, hrow, hevent⟩ := List.mem_filterMap.mp hmem
  obtain ⟨event, hsome, heq⟩ := Option.map_eq_some_iff.mp hevent
  obtain ⟨rfl, rfl⟩ := Prod.mk.inj heq
  refine ⟨row, hrow, rfl, by rw [hsome]; rfl, ?_⟩
  obtain ⟨before, after, rfl⟩ := List.append_of_mem hrow
  have hcons (side : List StreamCard) :
      homes (row :: side) key = (row.id, event.date) :: homes side key := by
    rw [homes, List.filterMap_cons, hsome]
    rfl
  rw [homes_append, hcons] at h
  obtain ⟨hbefore, hafter⟩ : homes before key = [] ∧ homes after key = [] := by
    have hlength := congrArg List.length h
    simp only [List.length_append, List.length_cons, List.length_nil] at hlength
    exact ⟨List.eq_nil_of_length_eq_zero (by omega), List.eq_nil_of_length_eq_zero (by omega)⟩
  have hside {side : List StreamCard} (hnone : homes side key = []) :
      homes (side.filter p) key = [] :=
    homes_eq_nil_iff.mpr fun row' hrow' ↦
      homes_eq_nil_iff.mp hnone row' (List.mem_of_mem_filter hrow')
  rw [List.filter_append, homes_append, hside hbefore, List.nil_append, List.filter_cons]
  split_ifs
  · rw [hcons, hside hafter]
  · exact hside hafter

theorem homes_filter_of_nil (h : homes rows key = []) (p : StreamCard → Bool) :
    homes (rows.filter p) key = [] :=
  homes_eq_nil_iff.mpr fun row hrow ↦ homes_eq_nil_iff.mp h row (List.mem_of_mem_filter hrow)

theorem OneHomeEach.filter (h : OneHomeEach rows) (p : StreamCard → Bool) :
    OneHomeEach (rows.filter p) where
  ids := (List.filter_sublist.map _).nodup h.ids
  homes key := (List.filter_sublist.filterMap _).length_le.trans (h.homes key)

@[simp] theorem id_rate {row : StreamCard} {score : ℚ} : (row.rate score previousScore).id = row.id := by
  cases previousScore <;> rfl

@[simp] theorem evidence_rate {row : StreamCard} {score : ℚ} :
    (row.rate score previousScore).evidence = row.evidence := by
  cases previousScore <;> rfl

@[simp] theorem createdAt_rate {row : StreamCard} {score : ℚ} :
    (row.rate score previousScore).createdAt = row.createdAt := by
  cases previousScore <;> rfl

theorem homes_rateLatest (touched : List ℕ) :
    homes (rateLatest rows touched score previousScore) key = homes rows key := by
  unfold rateLatest
  split
  · split_ifs
    · rfl
    · exact homes_update (fun _ ↦ id_rate) fun row _ _ ↦ by
        rw [StreamCard.event, evidence_rate, StreamCard.event]
  · rfl

theorem ids_rateLatest (touched : List ℕ) :
    (rateLatest rows touched score previousScore).map StreamCard.id = rows.map StreamCard.id := by
  unfold rateLatest
  split
  · split_ifs
    · rfl
    · exact ids_update fun _ ↦ id_rate
  · rfl

theorem recordedAll_sorted (h : OneHomeEach rows) (hkeys : (events.map Event.key).Nodup) :
    RecordedAll (rows.insertionSort notAfter) events
      (recordEvents (rows.insertionSort notAfter) events) :=
  recordedAll_recordEvents (h.perm (List.perm_insertionSort _ rows)) hkeys

theorem oneHomeEach_ratedCards (h : OneHomeEach rows) (hkeys : (events.map Event.key).Nodup) :
    OneHomeEach (ratedCards rows events score previousScore) where
  ids := by
    rw [ratedCards, ids_rateLatest]
    exact (recordedAll_sorted h hkeys).cards.ids
  homes key := by
    rw [ratedCards, homes_rateLatest]
    exact (recordedAll_sorted h hkeys).cards.homes key

/-- Before the deletion every key has one home, under its earliest date. -/
theorem homes_ratedCards (h : OneHomeEach rows) (hkeys : (events.map Event.key).Nodup)
    (key : String) :
    (homes (ratedCards rows events score previousScore) key).map Prod.snd =
      (earliest rows events key).toList := by
  have hrecorded := recordedAll_sorted h hkeys
  have hsorted : homes (rows.insertionSort notAfter) key = homes rows key :=
    homes_perm h (List.perm_insertionSort _ rows)
  rw [ratedCards, homes_rateLatest, earliest]
  by_cases hkey : key ∈ events.map Event.key
  · obtain ⟨event, hevent, rfl⟩ := List.mem_map.mp hkey
    obtain ⟨id, -, hown⟩ := exists_mem_of_forall₂ hrecorded.own hevent
    have hfind : events.find? (fun event' ↦ decide (event'.key = event.key)) = some event := by
      cases hsearch : events.find? fun event' ↦ decide (event'.key = event.key) with
      | none => exact absurd (List.find?_eq_none.mp hsearch event hevent) (by simp)
      | some found =>
        have hfound : found.key = event.key := by simpa using List.find?_some hsearch
        rw [List.inj_on_of_nodup_map hkeys (List.mem_of_find?_eq_some hsearch) hevent hfound]
    rw [hown, hfind, dateAfter, hsorted]
    cases (homes rows event.key).head? <;> rfl
  · rw [hrecorded.others key hkey, hsorted]
    have hfind : events.find? (fun event ↦ decide (event.key = key)) = none :=
      List.find?_eq_none.mpr fun event hmem heq ↦
        hkey (of_decide_eq_true heq ▸ List.mem_map_of_mem hmem)
    rw [hfind]
    cases hhomes : homes rows key with
    | nil => rfl
    | cons home rest =>
      have hone := eq_singleton_of_length_le_one (h.homes key) (hhomes ▸ List.mem_cons_self)
      rw [hhomes] at hone
      rw [hone]
      rfl

end deletion

section again

variable {rows : List StreamCard} {events : List Event} {ids : List ℕ} {id : ℕ}
  {score previousScore : Option ℚ} {g : StreamCard → StreamCard}

/-- Rating a card again with the same scores changes nothing. -/
theorem rate_rate (row : StreamCard) (score : ℚ) (previousScore : Option ℚ) :
    (row.rate score previousScore).rate score previousScore = row.rate score previousScore := by
  cases previousScore with
  | none => rfl
  | some previous =>
    have hstart : ∀ start : Option ℚ, ∀ kept : Option (Option ℚ),
        (start.or (kept.getD (some previous))).or
          ((if decide (start.or (kept.getD (some previous)) ≠ some score) then
            some (start.or (kept.getD (some previous))) else none).getD (some previous)) =
          start.or (kept.getD (some previous)) := by
      intro start kept
      cases hvalue : start.or (kept.getD (some previous)) with
      | some value => rfl
      | none => simp
    simp only [StreamCard.rate, hstart]

theorem recordEvent_eq_self {event : Event} {date : Int}
    (hhome : homes rows event.key = [(id, date)]) (hdate : date ≤ event.date) :
    recordEvent rows event = (rows, id) := by
  rw [recordEvent]
  cases hfind : rows.find? fun row ↦ (row.event event.key).isSome with
  | none =>
    have hnone : homes rows event.key = [] := by
      refine homes_eq_nil_iff.mpr fun row hrow ↦ ?_
      simpa using List.find?_eq_none.mp hfind row hrow
    rw [hnone] at hhome
    exact absurd hhome (by simp)
  | some existing =>
    have hholds : (existing.event event.key).isSome = true := by simpa using List.find?_some hfind
    obtain ⟨old, hold⟩ := Option.isSome_iff_exists.mp hholds
    have hin := mem_homes (List.mem_of_find?_eq_some hfind) hold
    rw [hhome, List.mem_singleton, Prod.mk.injEq] at hin
    simp only [hold, Option.all_some, decide_eq_true_eq]
    rw [if_pos (by omega), hin.1]

/-- Events whose keys have homes under dates that are no later change no card. -/
theorem recordEvents_eq_self
    (hhomes : List.Forall₂ (fun event id ↦ ∃ date ≤ event.date,
      homes rows event.key = [(id, date)]) events ids) :
    recordEvents rows events = (rows, ids) := by
  induction hhomes with
  | nil => rfl
  | cons hhead _ ih =>
    obtain ⟨date, hdate, hhome⟩ := hhead
    rw [recordEvents_cons, recordEvent_eq_self hhome hdate, ih]

theorem find?_id {row : StreamCard} (h : (rows.map StreamCard.id).Nodup) (hrow : row ∈ rows) :
    rows.find? (fun row' ↦ decide (row'.id = row.id)) = some row := by
  cases hfind : rows.find? fun row' ↦ decide (row'.id = row.id) with
  | none => exact absurd (List.find?_eq_none.mp hfind row hrow) (by simp)
  | some found =>
    have hid : found.id = row.id := by simpa using List.find?_some hfind
    rw [List.inj_on_of_nodup_map h (List.mem_of_find?_eq_some hfind) hrow hid]

/-- The latest card does not depend on what a change leaves of the cards but their times. -/
theorem latestCard_map (hg : ∀ row, (g row).createdAt = row.createdAt) (rows : List StreamCard) :
    latestCard (rows.map g) = (latestCard rows).map g := by
  have hfold : ∀ (rows : List StreamCard) (best : Option StreamCard),
      (rows.map g).foldl (fun best row ↦
        if best.all fun b ↦ decide (b.createdAt < row.createdAt) then some row else best)
        (best.map g) =
      (rows.foldl (fun best row ↦
        if best.all fun b ↦ decide (b.createdAt < row.createdAt) then some row else best) best).map
        g := by
    intro rows
    induction rows with
    | nil => exact fun best ↦ rfl
    | cons row rows ih =>
      intro best
      rw [List.map_cons, List.foldl_cons, List.foldl_cons, ← ih]
      cases best with
      | none => rfl
      | some b =>
        simp only [Option.map_some, Option.all_some, hg]
        split_ifs <;> rfl
  exact hfold rows none

theorem mem_of_latestCard {row : StreamCard} (h : latestCard rows = some row) : row ∈ rows := by
  have hfold : ∀ (rows : List StreamCard) (best : Option StreamCard),
      rows.foldl (fun best row ↦
        if best.all fun b ↦ decide (b.createdAt < row.createdAt) then some row else best) best =
        some row → row ∈ rows ∨ best = some row := by
    intro rows
    induction rows with
    | nil => exact fun best hbest ↦ .inr hbest
    | cons first rows ih =>
      intro best hbest
      rw [List.foldl_cons] at hbest
      obtain hmem | hbest := ih _ hbest
      · exact .inl (List.mem_cons_of_mem first hmem)
      · split_ifs at hbest
        · exact .inl (Option.some.inj hbest ▸ List.mem_cons_self)
        · exact .inr hbest
  exact (hfold rows none h).resolve_right (by simp)

theorem latestCard_eq_none (h : latestCard rows = none) : rows = [] := by
  cases rows with
  | nil => rfl
  | cons first rows =>
    have hfold : ∀ (rows : List StreamCard) (best : StreamCard), rows.foldl (fun best row ↦
        if best.all fun b ↦ decide (b.createdAt < row.createdAt) then some row else best)
        (some best) ≠ none := by
      intro rows
      induction rows with
      | nil => exact fun best ↦ by simp
      | cons row rows ih =>
        intro best
        rw [List.foldl_cons]
        split_ifs
        · exact ih row
        · exact ih best
    exact absurd h (hfold rows first)

/-- A card that keeps a home through the deletion has a qualifying action. -/
theorem isActive_of_survives {key : String} {date : Int}
    (h : homes ((rows.map g).filter isKept) key = [(id, date)]) (hg : ∀ row, (g row).id = row.id) :
    ∃ row ∈ rows, row.id = id ∧ g row ∈ (rows.map g).filter isKept ∧ (g row).isActive = true := by
  obtain ⟨kept, hkept, hid, hevent, -⟩ := exists_home h fun _ ↦ true
  obtain ⟨hmem, hisKept⟩ := List.mem_filter.mp hkept
  obtain ⟨row, hrow, rfl⟩ := List.mem_map.mp hmem
  refine ⟨row, hrow, (hg row).symm.trans hid, hkept, ?_⟩
  obtain ⟨event, hsome, -⟩ := Option.map_eq_some_iff.mp hevent
  rw [StreamCard.event] at hsome
  obtain ⟨evidence, hevidence, -⟩ := Option.bind_eq_some_iff.mp hsome
  rw [isKept, hevidence] at hisKept
  simpa using hisKept

/-- What the survivors are to the cards of their ids. -/
theorem cardsOf_survivors {sorted : List StreamCard} (hids : (rows.map StreamCard.id).Nodup)
    (hsorted : sorted.Perm ((rows.map g).filter isKept)) (hg : ∀ row, (g row).id = row.id)
    (hids' : ∀ id ∈ ids, ∃ row ∈ rows, row.id = id ∧ g row ∈ (rows.map g).filter isKept) :
    cardsOf sorted ids = (cardsOf rows ids).map g := by
  have hkeptIds : (sorted.map StreamCard.id).Nodup := by
    rw [(hsorted.map _).nodup_iff]
    refine (List.filter_sublist.map _).nodup ?_
    rw [List.map_map]
    have hsame : StreamCard.id ∘ g = StreamCard.id := funext hg
    rwa [hsame]
  rw [cardsOf, cardsOf, List.map_filterMap]
  refine List.filterMap_congr fun id hid ↦ ?_
  obtain ⟨row, hrow, rfl, hkept⟩ := hids' id hid
  have hfound := find?_id hkeptIds (hsorted.mem_iff.mpr hkept)
  rw [hg] at hfound
  rw [hfound, find?_id hids hrow, Option.map_some]

theorem rateLatest_none (rows : List StreamCard) (ids : List ℕ) :
    rateLatest rows ids none previousScore = rows := by
  rw [rateLatest]
  simp

theorem rateLatest_some (rows : List StreamCard) (ids : List ℕ) (score : ℚ) :
    rateLatest rows ids (some score) previousScore =
      (latestCard ((cardsOf rows ids).filter StreamCard.isActive)).elim rows fun latest ↦
        if some score = previousScore then rows
        else update latest.id (StreamCard.rate · score previousScore) rows := by
  unfold rateLatest
  cases latestCard ((cardsOf rows ids).filter StreamCard.isActive) <;> rfl

theorem mem_cardsOf {row : StreamCard} (h : row ∈ cardsOf rows ids) : row ∈ rows ∧ row.id ∈ ids := by
  obtain ⟨id, hid, hfind⟩ := List.mem_filterMap.mp h
  have hrow : row.id = id := by simpa using List.find?_some hfind
  exact ⟨List.mem_of_find?_eq_some hfind, hrow ▸ hid⟩

/-- The rating of a second recording meets the card that already has it. -/
theorem rateLatest_survivors {sorted : List StreamCard} (hids : (rows.map StreamCard.id).Nodup)
    (hsorted : sorted.Perm ((rateLatest rows ids score previousScore).filter isKept))
    (hhomes : ∀ id ∈ ids, ∃ key date,
      homes ((rateLatest rows ids score previousScore).filter isKept) key = [(id, date)]) :
    rateLatest sorted ids score previousScore = sorted := by
  cases score with
  | none => exact rateLatest_none sorted ids
  | some score =>
    rw [rateLatest_some] at hsorted hhomes ⊢
    by_cases hscore : some score = previousScore
    · simp only [if_pos hscore]
      cases latestCard ((cardsOf sorted ids).filter StreamCard.isActive) <;> rfl
    simp only [if_neg hscore] at hsorted hhomes ⊢
    cases hlatest : latestCard ((cardsOf rows ids).filter StreamCard.isActive) with
    | none =>
      rw [hlatest, Option.elim_none] at hsorted hhomes
      have hnone : ids = [] := by
        refine List.eq_nil_iff_forall_not_mem.mpr fun id hid ↦ ?_
        obtain ⟨key, date, hhome⟩ := hhomes id hid
        rw [← List.map_id rows] at hhome
        obtain ⟨row, hrow, rfl, -, hactive⟩ := isActive_of_survives hhome fun _ ↦ rfl
        have hcard : row ∈ (cardsOf rows ids).filter StreamCard.isActive :=
          List.mem_filter.mpr ⟨List.mem_filterMap.mpr ⟨row.id, hid, find?_id hids hrow⟩, hactive⟩
        rw [latestCard_eq_none hlatest] at hcard
        exact List.not_mem_nil hcard
      rw [hnone]
      rfl
    | some latest =>
      rw [hlatest, Option.elim_some, update] at hsorted hhomes
      obtain ⟨hcard, hactive⟩ := List.mem_filter.mp (mem_of_latestCard hlatest)
      obtain ⟨hmem, -⟩ := mem_cardsOf hcard
      have hg : ∀ row : StreamCard,
          (if row.id = latest.id then row.rate score previousScore else row).id = row.id := by
        intro row
        split_ifs
        · exact id_rate
        · rfl
      have hsurvive : ∀ id ∈ ids, ∃ row ∈ rows, row.id = id ∧ _ ∧ _ := fun id hid ↦ by
        obtain ⟨key, date, hhome⟩ := hhomes id hid
        exact isActive_of_survives hhome hg
      have hall : (cardsOf rows ids).filter StreamCard.isActive = cardsOf rows ids := by
        refine List.filter_eq_self.mpr fun row hrow ↦ ?_
        obtain ⟨hrow, hid⟩ := mem_cardsOf hrow
        obtain ⟨row', hrow', hid', -, hactive'⟩ := hsurvive row.id hid
        obtain rfl : row' = row := List.inj_on_of_nodup_map hids hrow' hrow hid'
        by_cases heq : row'.id = latest.id
        · rw [List.inj_on_of_nodup_map hids hrow hmem heq]
          exact hactive
        · rwa [if_neg heq] at hactive'
      rw [hall] at hlatest
      have hcards := cardsOf_survivors hids hsorted hg fun id hid ↦ by
        obtain ⟨row, hrow, hrowId, hkept, -⟩ := hsurvive id hid
        exact ⟨row, hrow, hrowId, hkept⟩
      have hallSorted : (cardsOf sorted ids).filter StreamCard.isActive = cardsOf sorted ids := by
        refine List.filter_eq_self.mpr fun row hrow ↦ ?_
        rw [hcards] at hrow
        obtain ⟨before, hbefore, rfl⟩ := List.mem_map.mp hrow
        obtain ⟨hbefore, hid⟩ := mem_cardsOf hbefore
        obtain ⟨row', hrow', hid', -, hactive'⟩ := hsurvive before.id hid
        obtain rfl : row' = before := List.inj_on_of_nodup_map hids hrow' hbefore hid'
        exact hactive'
      have hagain : latestCard ((cardsOf sorted ids).filter StreamCard.isActive) =
          some (latest.rate score previousScore) := by
        rw [hallSorted, hcards, latestCard_map ?_, hlatest, Option.map_some, if_pos rfl]
        intro row
        split_ifs
        · exact createdAt_rate
        · rfl
      rw [hagain, Option.elim_some, update, id_rate]
      refine (List.map_congr_left fun row hrow ↦ ?_).trans (List.map_id' sorted)
      obtain ⟨hrow, -⟩ := List.mem_filter.mp (hsorted.mem_iff.mp hrow)
      obtain ⟨before, -, rfl⟩ := List.mem_map.mp hrow
      rw [hg]
      split_ifs
      · exact rate_rate before score previousScore
      · rfl

end again

section recording

variable {rows : List StreamCard} {events : List Event} {score previousScore : Option ℚ}

/-- What is left of a key's home: the card that has it before the deletion, if that card has a
qualifying action. -/
theorem home_of_earliest (h : OneHomeEach rows) (hkeys : (events.map Event.key).Nodup)
    {key : String} {date : Int} (hdate : earliest rows events key = some date) :
    ∃ row ∈ ratedCards rows events score previousScore,
      (row.event key).map Event.date = some date ∧
        homes (recordStreamingActivity rows events score previousScore) key =
          if row.isActive then [(row.id, date)] else [] := by
  have hrated : (homes (ratedCards rows events score previousScore) key).map Prod.snd = [date] := by
    rw [homes_ratedCards h hkeys, hdate, Option.toList_some]
  obtain ⟨⟨id, date'⟩, hhome, hdate'⟩ := List.map_eq_singleton_iff.mp hrated
  obtain rfl : date' = date := hdate'
  obtain ⟨row, hrow, rfl, hevent, hfilter⟩ := exists_home hhome isKept
  refine ⟨row, hrow, hevent, ?_⟩
  obtain ⟨event, hsome, -⟩ := Option.map_eq_some_iff.mp hevent
  rw [StreamCard.event] at hsome
  obtain ⟨evidence, hevidence, -⟩ := Option.bind_eq_some_iff.mp hsome
  rw [recordStreamingActivity, hfilter, isKept, hevidence, Option.isNone_some, Bool.false_or]

theorem home_of_unknown (h : OneHomeEach rows) (hkeys : (events.map Event.key).Nodup)
    {key : String} (hdate : earliest rows events key = none) :
    homes (recordStreamingActivity rows events score previousScore) key = [] := by
  have hrated : (homes (ratedCards rows events score previousScore) key).map Prod.snd = [] := by
    rw [homes_ratedCards h hkeys, hdate, Option.toList_none]
  exact homes_filter_of_nil (List.map_eq_nil_iff.mp hrated) isKept

/-- Recording the events again changes no card, if no card that took one of them was deleted. -/
theorem record_again (h : OneHomeEach rows) (hkeys : (events.map Event.key).Nodup)
    (hkept : ∀ event ∈ events,
      homes (recordStreamingActivity rows events score previousScore) event.key ≠ []) :
    (recordStreamingActivity (recordStreamingActivity rows events score previousScore) events score
      previousScore).Perm (recordStreamingActivity rows events score previousScore) := by
  have hrecorded := recordedAll_sorted h hkeys
  have hresult : OneHomeEach (recordStreamingActivity rows events score previousScore) :=
    (oneHomeEach_ratedCards h hkeys).filter isKept
  have hperm := List.perm_insertionSort notAfter
    (recordStreamingActivity rows events score previousScore)
  have hhome : ∀ event ∈ events, ∀ id date,
      homes (recordEvents (rows.insertionSort notAfter) events).1 event.key = [(id, date)] →
        homes (recordStreamingActivity rows events score previousScore) event.key = [(id, date)] := by
    intro event hevent id date hown
    have hrated : homes (ratedCards rows events score previousScore) event.key = [(id, date)] := by
      rw [ratedCards, homes_rateLatest, hown]
    obtain ⟨row, -, -, -, hfilter⟩ := exists_home hrated isKept
    have hne := hkept event hevent
    rw [recordStreamingActivity, hfilter] at hne ⊢
    split_ifs at hne ⊢
    · rfl
    · exact absurd rfl hne
  have hown := (List.forall₂_and_left _ _).mpr ⟨fun event hevent ↦ hevent, hrecorded.own⟩
  have hstay : recordEvents ((recordStreamingActivity rows events score previousScore).insertionSort
      notAfter) events =
      ((recordStreamingActivity rows events score previousScore).insertionSort notAfter,
        (recordEvents (rows.insertionSort notAfter) events).2) := by
    refine recordEvents_eq_self (hown.imp fun event id hboth ↦ ?_)
    obtain ⟨hevent, hevents⟩ := hboth
    refine ⟨_, dateAfter_le (rows.insertionSort notAfter) event, ?_⟩
    rw [homes_perm hresult hperm, hhome event hevent id _ hevents]
  have hrated : ratedCards (recordStreamingActivity rows events score previousScore) events score
      previousScore =
      (recordStreamingActivity rows events score previousScore).insertionSort notAfter := by
    rw [ratedCards, hstay]
    refine rateLatest_survivors hrecorded.cards.ids hperm fun id hid ↦ ?_
    obtain ⟨event, hevent, -, hevents⟩ := exists_mem_of_forall₂ hown.flip hid
    exact ⟨event.key, _, hhome event hevent id _ hevents⟩
  have hall : ∀ row ∈ (recordStreamingActivity rows events score previousScore).insertionSort
      notAfter, isKept row = true := fun row hrow ↦
    (List.mem_filter.mp (hperm.mem_iff.mp hrow)).2
  rw [recordStreamingActivity, hrated, List.filter_eq_self.mpr hall]
  exact hperm

/-- Every key, known or recorded, has one home under the earliest date ever recorded for it, unless
that card has no qualifying action in the end and is deleted; where no card of a recorded key is
deleted, recording again changes nothing. -/
theorem events_keep_one_home (rows : List StreamCard) (events : List Event)
    (score previousScore : Option ℚ) (h : OneHomeEach rows)
    (hkeys : (events.map Event.key).Nodup) :
    OneHomeEach (recordStreamingActivity rows events score previousScore) ∧
      (∀ key date, earliest rows events key = some date →
        ∃ row ∈ ratedCards rows events score previousScore,
          (row.event key).map Event.date = some date ∧
            homes (recordStreamingActivity rows events score previousScore) key =
              if row.isActive then [(row.id, date)] else []) ∧
      (∀ key, earliest rows events key = none →
        homes (recordStreamingActivity rows events score previousScore) key = []) ∧
      ((∀ event ∈ events,
          homes (recordStreamingActivity rows events score previousScore) event.key ≠ []) →
        (recordStreamingActivity (recordStreamingActivity rows events score previousScore) events
          score previousScore).Perm (recordStreamingActivity rows events score previousScore)) :=
  ⟨(oneHomeEach_ratedCards h hkeys).filter isKept, fun _ _ ↦ home_of_earliest h hkeys,
    fun _ ↦ home_of_unknown h hkeys, record_again h hkeys⟩

end recording

/-- A card of one rating, from 7 to 8, in the evening of day 100. -/
def ratingCard : StreamCard where
  id := 1
  status := .watching
  score := some 8
  details := { Details.empty with ratingChanged := true }
  rating := ⟨false, some 7, some (some 7), none⟩
  evidence := none
  createdAt := 100 * day + 72000000000

def finishEvent : Event where
  key := "finish"
  date := 100 * day
  status := .completed
  episodesWatched := 0
  position := none
  statusChanged := some true
  startedWatching := none
  finishedSeasons := []

theorem oneHomeEach_singleton {row : StreamCard} : OneHomeEach [row] where
  ids := List.nodup_singleton _
  homes _ := List.length_filterMap_le _ [row]

theorem finish_lost_with_the_rating :
    OneHomeEach [ratingCard] ∧
      earliest [ratingCard] [finishEvent] "finish" = some (100 * day) ∧
      homes (recordStreamingActivity [ratingCard] [finishEvent] (some 7) (some 8)) "finish" = [] :=
  ⟨oneHomeEach_singleton, by decide +kernel, by decide +kernel⟩

theorem finish_keeps_one_home :
    homes (recordStreamingActivity [ratingCard] [finishEvent] none none) "finish" ≠ [] ∧
      (recordStreamingActivity (recordStreamingActivity [ratingCard] [finishEvent] none none)
        [finishEvent] none none).Perm
        (recordStreamingActivity [ratingCard] [finishEvent] none none) := by
  have hkept : homes (recordStreamingActivity [ratingCard] [finishEvent] none none) "finish" ≠ [] := by
    decide +kernel
  obtain ⟨-, -, -, hagain⟩ := events_keep_one_home [ratingCard] [finishEvent] none none
    oneHomeEach_singleton (List.nodup_singleton _)
  refine ⟨hkept, hagain fun event hevent ↦ ?_⟩
  rw [List.mem_singleton.mp hevent]
  exact hkept

end AnyList.Activity.Streaming
