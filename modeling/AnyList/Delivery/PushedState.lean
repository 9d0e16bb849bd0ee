import AnyList.Delivery.StremioDelivery

namespace AnyList.Delivery.StremioDelivery

open AnyList.Library AnyList.Delivery.WatchedBitfield AnyList.Delivery.StremioPayloads

section records

variable {db : Database} {record : WatchRecord} {mediaId : ℕ}

/-- A record names its episode in full or not at all. -/
def Placed (record : WatchRecord) : Prop :=
  record.position = none ∧ record.season = none ∧ record.episode = none ∨
    ∃ season episode, record.position = some (season, episode) ∧ record.season = some season ∧
      record.episode = some episode ∧ record.contentType = .series

theorem placed_mediaRecord (h : db.mediaRecord mediaId = some record) : Placed record := by
  unfold Database.mediaRecord at h
  simp only [Option.bind_eq_bind, Option.bind_eq_some_iff] at h
  obtain ⟨media, -, contentId, -, h⟩ := h
  split at h <;> simp only [Option.some.injEq, reduceCtorEq] at h <;> subst h
  · exact .inr ⟨_, _, rfl, rfl, rfl, rfl⟩
  · exact .inl ⟨rfl, rfl, rfl⟩
  · exact .inl ⟨rfl, rfl, rfl⟩

theorem placed_watchedItem {media : Media} {watchedAt : Option Int}
    (h : db.watchedItem media watchedAt = some record) : Placed record := by
  unfold Database.watchedItem at h
  split at h
  · obtain ⟨contentId, -, rfl⟩ := Option.map_eq_some_iff.mp h
    exact .inl ⟨rfl, rfl, rfl⟩
  · obtain ⟨contentId, -, rfl⟩ := Option.map_eq_some_iff.mp h
    exact .inr ⟨_, _, rfl, rfl, rfl, rfl⟩
  · obtain ⟨contentId, -, rfl⟩ := Option.map_eq_some_iff.mp h
    exact .inl ⟨rfl, rfl, rfl⟩
  · simp at h

/-- Placed records of one title and one position share a key. -/
theorem watchKey_eq_iff {record record' : WatchRecord} (h : Placed record) (h' : Placed record') :
    watchKey record = watchKey record' ↔
      record.contentId = record'.contentId ∧ record.position = record'.position := by
  obtain ⟨hp, hs, he⟩ | ⟨season, episode, hp, hs, he, -⟩ := h <;>
    obtain ⟨hp', hs', he'⟩ | ⟨season', episode', hp', hs', he', -⟩ := h' <;>
      simp [watchKey, hp, hs, he, hp', hs', he']

theorem mem_overrideRecords {overrides : List (ℕ × Bool)}
    (h : record ∈ overrideRecords db overrides) : ∃ override ∈ overrides, ∃ plain,
      db.mediaRecord override.1 = some plain ∧ watchKey record = watchKey plain ∧
        record.position = plain.position ∧ record.watched = override.2 ∧ Placed record := by
  obtain ⟨override, hoverride, h⟩ := List.mem_filterMap.mp h
  obtain ⟨plain, hplain, rfl⟩ := Option.map_eq_some_iff.mp h
  have hplaced := placed_mediaRecord hplain
  exact ⟨override, hoverride, plain, hplain, rfl, rfl, rfl, hplaced⟩

variable {overrides : List (ℕ × Bool)}

theorem mem_byKey {records : List WatchRecord} {entry : (String × Option Int × Option Int) × WatchRecord}
    (h : entry ∈ byKey records) : entry.2 ∈ records ∧ entry.1 = watchKey entry.2 := by
  obtain ⟨record, hrecord, rfl⟩ := List.mem_map.mp h
  exact ⟨hrecord, rfl⟩

/-- Every record of the push stands under its own key. -/
theorem watchedByKey_get {key : String × Option Int × Option Int}
    (h : ((Dict.empty.setAll (byKey (db.buildWatchedItems (overrides.map Prod.fst)))).setAll
      (byKey (overrideRecords db overrides))).get key = some record) :
    key = watchKey record ∧ Placed record := by
  obtain h | h := Dict.mem_or_get_of_get_setAll h
  · obtain ⟨hmem, hkey⟩ := mem_byKey h
    obtain ⟨_, -, _, -, -, -, -, hplaced⟩ := mem_overrideRecords hmem
    exact ⟨hkey, hplaced⟩
  · obtain h | h := Dict.mem_or_get_of_get_setAll h
    · obtain ⟨hmem, hkey⟩ := mem_byKey h
      obtain ⟨media, -, hitem⟩ := List.mem_filterMap.mp hmem
      exact ⟨hkey, placed_watchedItem hitem⟩
    · simp at h

theorem placed_of_mem_watchedRecords (h : record ∈ watchedRecords db overrides) :
    Placed record := by
  obtain ⟨key, hget⟩ := Dict.mem_values.mp (List.mem_of_mem_filter h)
  exact (watchedByKey_get hget).2

theorem pairwise_watchedRecords : (watchedRecords db overrides).Pairwise
    fun record record' ↦
      (record.contentId, record.position) ≠ (record'.contentId, record'.position) := by
  refine List.Pairwise.filter _ ?_
  rw [Dict.values, List.pairwise_map]
  have hnodup := Dict.nodup ((Dict.empty.setAll (byKey (db.buildWatchedItems
    (overrides.map Prod.fst)))).setAll (byKey (overrideRecords db overrides)))
  rw [List.Nodup, List.pairwise_map] at hnodup
  refine hnodup.imp_of_mem fun {entry entry'} hmem hmem' hne heq ↦ hne ?_
  obtain ⟨hkey, hplaced⟩ := watchedByKey_get (Dict.mem_entries.mp hmem)
  obtain ⟨hkey', hplaced'⟩ := watchedByKey_get (Dict.mem_entries.mp hmem')
  rw [hkey, hkey', watchKey_eq_iff hplaced hplaced']
  exact Prod.ext_iff.mp heq

/-- A pushed title's record carries the state of an override with its key. -/
theorem exists_mem_watchedRecords {override : ℕ × Bool} (ho : override ∈ overrides)
    {plain : WatchRecord} (hplain : db.mediaRecord override.1 = some plain) :
    ∃ record ∈ watchedRecords db overrides, record.contentId = plain.contentId ∧
      record.position = plain.position ∧ ∃ override' ∈ overrides, ∃ plain',
        db.mediaRecord override'.1 = some plain' ∧ watchKey plain' = watchKey plain ∧
          record.watched = override'.2 := by
  have hkey : watchKey plain ∈ (byKey (overrideRecords db overrides)).map Prod.fst := by
    simp only [byKey, List.map_map, List.mem_map, Function.comp_apply, overrideRecords,
      List.mem_filterMap, Option.map_eq_some_iff]
    exact ⟨_, ⟨override, ho, plain, hplain, rfl⟩, rfl⟩
  obtain ⟨record, hmem, hget⟩ := Dict.exists_get_setAll hkey
    (Dict.empty.setAll (byKey (db.buildWatchedItems (overrides.map Prod.fst))))
  obtain ⟨hrecord, hwatchKey⟩ := mem_byKey hmem
  obtain ⟨override', ho', plain', hplain', hkey', -, hwatched, hplaced⟩ :=
    mem_overrideRecords hrecord
  have hsame := (watchKey_eq_iff hplaced (placed_mediaRecord hplain)).mp hwatchKey.symm
  refine ⟨record, ?_, hsame.1, hsame.2, override', ho', plain', hplain', ?_, hwatched⟩
  · refine List.mem_filter.mpr ⟨Dict.mem_values.mpr ⟨_, hget⟩, decide_eq_true ?_⟩
    refine List.mem_filterMap.mpr ⟨override.1, List.mem_map_of_mem ho, ?_⟩
    rw [hplain, Option.map_some, hsame.1]
  · exact hkey'.symm.trans hwatchKey.symm

end records

section candidates

variable {texts : Texts} {now : String} {meta' : String → List Video} {remote candidates : Library}
  {record : WatchRecord} {records : List WatchRecord} {contentId : String}
  {position : Option (Int × Int)}

/-- A title's item while the push collects its changes. -/
def current (remote candidates : Library) (contentId : String) : Option Item :=
  (candidates.get contentId).or (remote.get contentId)

theorem current_writeRecord_of_ne (h : record.contentId ≠ contentId) :
    current remote (writeRecord texts now meta' remote candidates record) contentId =
      current remote candidates contentId := by
  cases hbase : (candidates.get record.contentId).or (remote.get record.contentId) with
  | some item => simp only [current, writeRecord, hbase, Dict.get_set_of_ne _ _ h]
  | none =>
    cases hw : record.watched <;>
      simp [current, writeRecord, hbase, hw, Dict.get_set_of_ne _ _ h]

theorem current_writeRecord_self :
    current remote (writeRecord texts now meta' remote candidates record) record.contentId =
      match current remote candidates record.contentId with
      | some item => some (withWatchState texts item record (meta' record.contentId))
      | none =>
        if record.watched then
          some (withWatchState texts (newLibraryItem record now false) record
            (meta' record.contentId))
        else none := by
  unfold writeRecord
  cases h : (candidates.get record.contentId).or (remote.get record.contentId) with
  | some item => simp [current, h]
  | none =>
    cases record.watched <;> simp [current, h]

theorem shownWatched_newLibraryItem {videos : List Video} :
    shownWatched texts videos (some (newLibraryItem record now false)) position =
      shownWatched texts videos none position := rfl

theorem shownWatched_absent {videos : List Video}
    (hmatch : ∀ at' ∈ position, (matchingVideo texts videos at').isSome) :
    shownWatched texts videos none position = some false := by
  cases position with
  | none => rfl
  | some at' =>
    obtain ⟨video, hvideo⟩ := Option.isSome_iff_exists.mp (hmatch at' rfl)
    simp [shownWatched, hvideo, defaultState]

variable (hids : ∀ contentId, (videoIds texts (meta' contentId)).Nodup)

include hids

theorem shown_writeRecord
    (hmatch : ∀ at' ∈ record.position, (matchingVideo texts (meta' record.contentId) at').isSome) :
    shownWatched texts (meta' record.contentId)
      (current remote (writeRecord texts now meta' remote candidates record) record.contentId)
      record.position = some record.watched := by
  rw [current_writeRecord_self]
  cases current remote candidates record.contentId with
  | some item => exact shownWatched_withWatchState (hids _) hmatch
  | none =>
    cases hw : record.watched with
    | true =>
      rw [← hw]
      simpa only [hw, if_true] using shownWatched_withWatchState (hids _) hmatch
    | false => simpa using shownWatched_absent hmatch

theorem shown_writeRecord_of_ne
    (hne : (record.contentId, record.position) ≠ (contentId, position)) :
    shownWatched texts (meta' contentId)
      (current remote (writeRecord texts now meta' remote candidates record) contentId) position =
        shownWatched texts (meta' contentId) (current remote candidates contentId) position := by
  by_cases hid : record.contentId = contentId
  · subst hid
    have hp : position ≠ record.position := fun heq ↦ hne (by rw [heq])
    rw [current_writeRecord_self]
    cases current remote candidates record.contentId with
    | some item => exact shownWatched_withWatchState_of_ne (hids _) hp
    | none =>
      cases hw : record.watched with
      | true =>
        simp only [if_true]
        rw [shownWatched_withWatchState_of_ne (hids _) hp, shownWatched_newLibraryItem]
      | false => rfl
  · rw [current_writeRecord_of_ne hid]

theorem shown_foldl_of_ne
    (hne : ∀ record ∈ records, (record.contentId, record.position) ≠ (contentId, position)) :
    shownWatched texts (meta' contentId)
      (current remote (records.foldl (writeRecord texts now meta' remote) candidates) contentId)
      position =
        shownWatched texts (meta' contentId) (current remote candidates contentId) position := by
  induction records generalizing candidates with
  | nil => rfl
  | cons record records ih =>
    rw [List.foldl_cons, ih fun record' h ↦ hne record' (List.mem_cons_of_mem record h)]
    exact shown_writeRecord_of_ne hids (hne record List.mem_cons_self)

/-- After all its records, each pushed title or episode shows its own record's state. -/
theorem shown_foldl (hdistinct : records.Pairwise fun record record' ↦
      (record.contentId, record.position) ≠ (record'.contentId, record'.position))
    (hrecord : record ∈ records)
    (hmatch : ∀ at' ∈ record.position, (matchingVideo texts (meta' record.contentId) at').isSome) :
    shownWatched texts (meta' record.contentId)
      (current remote (records.foldl (writeRecord texts now meta' remote) candidates)
        record.contentId) record.position = some record.watched := by
  obtain ⟨earlier, later, rfl⟩ := List.append_of_mem hrecord
  have hlater := (List.pairwise_cons.mp (List.pairwise_append.mp hdistinct).2.1).1
  rw [List.foldl_append, List.foldl_cons, shown_foldl_of_ne hids fun record' h ↦ (hlater record' h).symm]
  exact shown_writeRecord hids hmatch

end candidates

section changes

variable {texts : Texts} {now : String} {remote candidates : Library} {contentId : String}

theorem putBatch_foldl {putError : ℕ → Option String} {changes : List (String × Item)} (n : ℕ)
    (h : ((List.range n).foldl (putBatch putError changes) (remote, none)).2 = none) :
    ((List.range n).foldl (putBatch putError changes) (remote, none)).1 =
      remote.setAll (changes.take (n * batchSize)) := by
  induction n with
  | zero => simp [Dict.setAll]
  | succ n ih =>
    rw [List.range_succ, List.foldl_append, List.foldl_cons, List.foldl_nil] at h ⊢
    cases hprefix : ((List.range n).foldl (putBatch putError changes) (remote, none)).2 with
    | some error => simp [putBatch, hprefix] at h
    | none =>
      cases hput : putError n with
      | some error => simp [putBatch, hprefix, hput] at h
      | none =>
        rw [putBatch, hprefix, hput]
        dsimp only
        rw [ih hprefix, ← Dict.setAll_append, Nat.succ_mul, List.take_add]

/-- A push that raises nothing has written all of its changes. -/
theorem putChanges_eq {putError : ℕ → Option String} {changes : List (String × Item)}
    (h : (putChanges remote putError changes).2 = none) :
    (putChanges remote putError changes).1 = remote.setAll changes := by
  rw [putChanges, putBatch_foldl _ h, List.take_of_length_le]
  unfold batchSize
  omega

theorem get_changes_state :
    ((remote.setAll (changes now remote candidates)).get contentId).bind Item.state =
      (current remote candidates contentId).bind Item.state := by
  have hmem : ∀ {id item}, (id, item) ∈ changes now remote candidates →
      ∃ candidate, candidates.get id = some candidate ∧ item = { candidate with mtime := now } := by
    intro id item h
    obtain ⟨⟨id', candidate⟩, hentry, h⟩ := List.mem_filterMap.mp h
    simp only [Option.ite_none_left_eq_some, Option.some.injEq, Prod.mk.injEq] at h
    obtain ⟨-, rfl, rfl⟩ := h
    exact ⟨candidate, Dict.mem_entries.mp hentry, rfl⟩
  by_cases hchanged : contentId ∈ (changes now remote candidates).map Prod.fst
  · obtain ⟨item, hitem, hget⟩ := Dict.exists_get_setAll hchanged remote
    obtain ⟨candidate, hcandidate, rfl⟩ := hmem hitem
    simp [hget, current, hcandidate]
  · rw [Dict.get_setAll_of_notMem hchanged, current]
    cases hcandidate : candidates.get contentId with
    | none => simp
    | some candidate =>
      cases hremote : remote.get contentId with
      | none =>
        refine absurd (List.mem_map.mpr ⟨(contentId, { candidate with mtime := now }), ?_, rfl⟩)
          hchanged
        exact List.mem_filterMap.mpr ⟨_, Dict.mem_entries.mpr hcandidate, by simp [hremote]⟩
      | some existing =>
        by_cases hsame : sameItem existing { candidate with mtime := now } = true
        · simpa using sameItem_eq_true hsame
        · refine absurd (List.mem_map.mpr ⟨(contentId, { candidate with mtime := now }), ?_, rfl⟩)
            hchanged
          exact List.mem_filterMap.mpr ⟨_, Dict.mem_entries.mpr hcandidate, by simp [hremote, hsame]⟩

end changes

end AnyList.Delivery.StremioDelivery
