import AnyList.Delivery.WatchIntents
import AnyList.Delivery.PushedState

namespace AnyList.Delivery.WatchIntents

open AnyList.Library AnyList.Delivery.WatchedBitfield AnyList.Delivery.StremioPayloads
open AnyList.Delivery.StremioDelivery

section overrides

variable {db : Database} {batch : List WatchIntent}

theorem mem_overrides {override : ℕ × Bool} :
    override ∈ overrides db batch ↔ ∃ row ∈ batch, (db.findMedia row.mediaId).isSome ∧
      override = (row.mediaId, isWatched db row.mediaId) := by
  have hwrites : ∀ write, write ∈ (batch.filter fun row ↦ (db.findMedia row.mediaId).isSome).map
      (fun row ↦ (row.mediaId, isWatched db row.mediaId)) ↔ ∃ row ∈ batch,
        (db.findMedia row.mediaId).isSome ∧ write = (row.mediaId, isWatched db row.mediaId) := by
    intro write
    simp only [List.mem_map, List.mem_filter, and_assoc, eq_comm]
  obtain ⟨mediaId, watched⟩ := override
  rw [overrides, Dict.mem_entries]
  constructor
  · intro h
    obtain hmem | hget := Dict.mem_or_get_of_get_setAll h
    · exact (hwrites _).mp hmem
    · simp at hget
  · rintro ⟨row, hrow, hmedia, heq⟩
    obtain ⟨rfl, rfl⟩ := Prod.mk.inj heq
    have hmem := (hwrites (row.mediaId, isWatched db row.mediaId)).mpr ⟨row, hrow, hmedia, rfl⟩
    obtain ⟨watched, hwatched, hget⟩ :=
      Dict.exists_get_setAll (List.mem_map_of_mem hmem) (Dict.empty (κ := ℕ))
    obtain ⟨row', -, -, heq⟩ := (hwrites _).mp hwatched
    obtain ⟨hid, rfl⟩ := Prod.mk.inj heq
    have hsame : isWatched db row.mediaId = isWatched db row'.mediaId := congrArg (isWatched db) hid
    rw [hsame]
    exact hget

end overrides

variable (texts : Texts) (db : Database)

/-- The title's record, after the push, shows the intent's state. -/
def Reflected (catalogue : String → Option (List Video)) (library : Library)
    (row : WatchIntent) : Prop :=
  ∃ record, db.mediaRecord row.mediaId = some record ∧
    shownWatched texts ((catalogue record.contentId).getD []) (library.get record.contentId)
      record.position = some row.desiredWatched

/-- Every intent of the batch has an identifier, an episode's intent a catalogue video,
and intents that share an identifier and episode agree. -/
def Deliverable (catalogue : String → Option (List Video)) (batch : List WatchIntent) : Prop :=
  ∀ row ∈ batch, (db.findMedia row.mediaId).isSome → ∃ record,
    db.mediaRecord row.mediaId = some record ∧
      (∀ position ∈ record.position,
        (matchingVideo texts ((catalogue record.contentId).getD []) position).isSome) ∧
      ∀ row' ∈ batch, ∀ record', db.mediaRecord row'.mediaId = some record' →
        watchKey record' = watchKey record → isWatched db row'.mediaId = isWatched db row.mediaId

/-- The catalogue of the batch's titles lists no video id twice. -/
def UniqueVideos (catalogue : String → Option (List Video)) (batch : List WatchIntent) : Prop :=
  ∀ row ∈ batch, ∀ record, db.mediaRecord row.mediaId = some record →
    (videoIds texts ((catalogue record.contentId).getD [])).Nodup

variable {texts db} {answers : Answers} {standing : Standing} {connectionId : ℕ}
  {intents batch : List WatchIntent} {remote : Library}

section pushed

variable {row : WatchIntent} {record : WatchRecord}

theorem findMedia_isSome (h : db.mediaRecord row.mediaId = some record) :
    (db.findMedia row.mediaId).isSome := by
  simp only [Database.mediaRecord, Option.bind_eq_bind, Option.bind_eq_some_iff] at h
  obtain ⟨media, hmedia, -⟩ := h
  simp [hmedia]

theorem videoIds_seriesMeta_nodup {catalogue : String → Option (List Video)}
    (h : UniqueVideos texts db catalogue batch) (contentId : String) :
    (videoIds texts (seriesMeta catalogue (watchedRecords db (overrides db batch))
      contentId)).Nodup := by
  unfold seriesMeta
  split_ifs with hany
  · obtain ⟨record, hrecord, hid⟩ := List.any_eq_true.mp hany
    obtain ⟨-, rfl⟩ := decide_eq_true_eq.mp hid
    have hchanged := of_decide_eq_true (List.mem_filter.mp hrecord).2
    obtain ⟨mediaId, hmediaId, hcontent⟩ := List.mem_filterMap.mp hchanged
    obtain ⟨override, hoverride, rfl⟩ := List.mem_map.mp hmediaId
    obtain ⟨row, hrow, -, rfl⟩ := mem_overrides.mp hoverride
    obtain ⟨plain, hplain, hsame⟩ := Option.map_eq_some_iff.mp hcontent
    rw [← hsame]
    exact h row hrow plain hplain
  · simp [videoIds, sortedVideos]

/-- A push that raises nothing shows each title as the override of its key. -/
theorem shown_pushConnection (hunique : UniqueVideos texts db answers.catalogue batch)
    (hpush : (pushConnection texts db answers remote (overrides db batch)).2 = none)
    (hrow : row ∈ batch) (hrecord : db.mediaRecord row.mediaId = some record)
    (hmatch : ∀ position ∈ record.position,
      (matchingVideo texts ((answers.catalogue record.contentId).getD []) position).isSome) :
    ∃ row' ∈ batch, ∃ record', db.mediaRecord row'.mediaId = some record' ∧
      watchKey record' = watchKey record ∧
      shownWatched texts ((answers.catalogue record.contentId).getD [])
        ((pushConnection texts db answers remote (overrides db batch)).1.get record.contentId)
        record.position = some (isWatched db row'.mediaId) := by
  have hoverride : (row.mediaId, isWatched db row.mediaId) ∈ overrides db batch :=
    mem_overrides.mpr ⟨row, hrow, findMedia_isSome hrecord, rfl⟩
  obtain ⟨pushed, hpushed, hid, hposition, override', hoverride', record', hrecord', hkey, hwatched⟩ :=
    exists_mem_watchedRecords hoverride hrecord
  obtain ⟨row', hrow', -, rfl⟩ := mem_overrides.mp hoverride'
  refine ⟨row', hrow', record', hrecord', hkey, ?_⟩
  cases hread : answers.readError with
  | some error => simp [pushConnection, hread] at hpush
  | none =>
    simp only [pushConnection, hread] at hpush ⊢
    rw [putChanges_eq hpush]
    have hmeta : ∀ position ∈ record.position, (answers.catalogue record.contentId).getD [] =
        seriesMeta answers.catalogue (watchedRecords db (overrides db batch)) record.contentId := by
      intro position hp
      rw [seriesMeta, if_pos]
      refine List.any_eq_true.mpr ⟨pushed, hpushed, decide_eq_true ⟨?_, hid⟩⟩
      obtain ⟨hnone, -⟩ | ⟨_, _, -, -, -, htype⟩ := placed_of_mem_watchedRecords hpushed
      · simp [← hposition, hnone] at hp
      · exact htype
    rw [shownWatched_congr get_changes_state, shownWatched_videos_congr hmeta, ← hid, ← hposition]
    refine (shown_foldl (videoIds_seriesMeta_nodup hunique) pairwise_watchedRecords hpushed
      ?_).trans (congrArg some hwatched)
    intro position hp
    rw [hposition] at hp
    rw [hid, ← hmeta position hp]
    exact hmatch position hp

end pushed

section dispatch

variable {row : WatchIntent}

theorem state_of_mem_batchOf (h : row ∈ batchOf intents connectionId) : row.state = .pending := by
  have hselected := List.mem_of_mem_take (List.mem_of_mem_filter h)
  exact of_decide_eq_true (List.mem_filter.mp ((List.mem_insertionSort _).mp hselected)).2

/-- The push was made and raised nothing. -/
def Written (texts : Texts) (db : Database) (answers : Answers) (standing : Standing)
    (connectionId : ℕ) (intents : List WatchIntent) (remote : Library) : Prop :=
  standing = ⟨false, true, true⟩ ∧ (pushConnection texts db answers remote
    (overrides db (batchOf intents connectionId))).2 = none

theorem deliver_of_media (error : Option String) (h : (db.findMedia row.mediaId).isSome) :
    (deliver db error row).mediaId = row.mediaId ∧
      (deliver db error row).desiredWatched = isWatched db row.mediaId ∧
      (deliver db error row).state = if error = none then .applied else row.state := by
  obtain ⟨media, hmedia⟩ := Option.isSome_iff_exists.mp h
  cases error <;> simp [deliver, hmedia]

theorem deliver_of_no_media {error : Option String} (h : db.findMedia row.mediaId = none) :
    deliver db error row = row.cancel := by
  simp [deliver, h]

/-- An applied intent belongs to a push that raised nothing, and names a known title. -/
theorem of_applied (h : row ∈ (dispatchWatchIntents texts db answers standing connectionId intents
      remote).batch) (happlied : row.state = .applied) :
    Written texts db answers standing connectionId intents remote ∧
      ∃ before ∈ batchOf intents connectionId, (db.findMedia before.mediaId).isSome ∧
        row.mediaId = before.mediaId ∧ row.desiredWatched = isWatched db before.mediaId := by
  obtain ⟨cycleActive, pushWatched, reconciled⟩ := standing
  simp only [dispatchWatchIntents] at h
  split_ifs at h with hactive hpush hmissing hmerge
  · rw [state_of_mem_batchOf h] at happlied
    cases happlied
  · obtain ⟨before, -, rfl⟩ := List.mem_map.mp h
    cases happlied
  · obtain ⟨before, hbefore, rfl⟩ := List.mem_map.mp h
    cases hmedia : db.findMedia before.mediaId with
    | none =>
      rw [deliver_of_no_media hmedia] at happlied
      cases happlied
    | some media =>
      have hsome : (db.findMedia before.mediaId).isSome := by simp [hmedia]
      obtain ⟨hid, hdesired, hstate⟩ := deliver_of_media (pushConnection texts db answers remote
        (overrides db (batchOf intents connectionId))).2 hsome
      refine ⟨⟨?_, ?_⟩, before, hbefore, hsome, hid, hdesired⟩
      · rw [Bool.eq_false_iff.mpr hactive, hpush, hmerge]
      · by_contra herror
        rw [hstate, if_neg herror, state_of_mem_batchOf hbefore] at happlied
        cases happlied
  · obtain ⟨before, hbefore, rfl⟩ := List.mem_map.mp h
    have hpending := state_of_mem_batchOf hbefore
    cases hmedia : db.findMedia before.mediaId <;>
      simp [defer, hmedia, WatchIntent.cancel, hpending] at happlied
  · obtain ⟨before, -, rfl⟩ := List.mem_map.mp h
    cases happlied

theorem dispatch_of_written (hwritten : Written texts db answers standing connectionId intents remote)
    (hbefore : row ∈ batchOf intents connectionId) (hmedia : (db.findMedia row.mediaId).isSome) :
    dispatchWatchIntents texts db answers standing connectionId intents remote =
      ⟨(batchOf intents connectionId).map (deliver db none),
        (pushConnection texts db answers remote
          (overrides db (batchOf intents connectionId))).1⟩ := by
  obtain ⟨rfl, hnone⟩ := hwritten
  have hsome : ¬(batchOf intents connectionId).all fun row ↦ (db.findMedia row.mediaId).isNone := by
    intro hall
    have := List.all_eq_true.mp hall row hbefore
    simp_all
  simp [dispatchWatchIntents, hsome, hnone]

end dispatch

/-- Every applied intent of a dispatch is reflected by the library it leaves. -/
def Acknowledged (texts : Texts) (db : Database) (answers : Answers) (standing : Standing)
    (connectionId : ℕ) (intents : List WatchIntent) (remote : Library) : Prop :=
  let outcome := dispatchWatchIntents texts db answers standing connectionId intents remote
  ∀ row ∈ outcome.batch, row.state = .applied →
    Reflected texts db answers.catalogue outcome.library row

theorem acknowledged_of_not_written
    (h : ¬Written texts db answers standing connectionId intents remote) :
    Acknowledged texts db answers standing connectionId intents remote :=
  fun _ hrow happlied ↦ absurd (of_applied hrow happlied).1 h

theorem acknowledged_of_deliverable
    (hdeliverable : Deliverable texts db answers.catalogue (batchOf intents connectionId))
    (hunique : UniqueVideos texts db answers.catalogue (batchOf intents connectionId)) :
    Acknowledged texts db answers standing connectionId intents remote := by
  intro row hrow happlied
  obtain ⟨hwritten, before, hbefore, hmedia, hid, hdesired⟩ := of_applied hrow happlied
  obtain ⟨record, hrecord, hmatch, hagree⟩ := hdeliverable before hbefore hmedia
  obtain ⟨before', hbefore', record', hrecord', hkey, hshown⟩ :=
    shown_pushConnection hunique hwritten.2 hbefore hrecord hmatch
  refine ⟨record, by rw [hid, hrecord], ?_⟩
  rw [hdesired, ← hagree before' hbefore' record' hrecord' hkey]
  simpa only [dispatch_of_written hwritten hbefore hmedia] using hshown

theorem deliverable_of_acknowledged
    (hack : Acknowledged texts db answers standing connectionId intents remote)
    (hwritten : Written texts db answers standing connectionId intents remote) :
    Deliverable texts db answers.catalogue (batchOf intents connectionId) := by
  have hreflected : ∀ row ∈ batchOf intents connectionId, (db.findMedia row.mediaId).isSome →
      ∃ record, db.mediaRecord row.mediaId = some record ∧
        shownWatched texts ((answers.catalogue record.contentId).getD [])
          ((pushConnection texts db answers remote
            (overrides db (batchOf intents connectionId))).1.get record.contentId)
          record.position = some (isWatched db row.mediaId) := by
    intro row hrow hmedia
    obtain ⟨hid, hdesired, hstate⟩ := deliver_of_media none hmedia
    have hdispatch := dispatch_of_written hwritten hrow hmedia
    have h := hack (deliver db none row)
    simp only [hdispatch] at h
    obtain ⟨record, hrecord, hshown⟩ := h (List.mem_map_of_mem hrow) (by simpa using hstate)
    rw [hid] at hrecord
    rw [hdesired] at hshown
    exact ⟨record, hrecord, hshown⟩
  intro row hrow hmedia
  obtain ⟨record, hrecord, hshown⟩ := hreflected row hrow hmedia
  refine ⟨record, hrecord, ?_, ?_⟩
  · intro position hp
    rw [hp, shownWatched, Option.map_eq_some_iff] at hshown
    obtain ⟨video, hvideo, -⟩ := hshown
    simp [hvideo]
  · intro row' hrow' record' hrecord' hkey
    obtain ⟨record'', hrecord'', hshown'⟩ := hreflected row' hrow' (findMedia_isSome hrecord')
    obtain rfl := Option.some.inj (hrecord'.symm.trans hrecord'')
    obtain ⟨hid, hposition⟩ :=
      (watchKey_eq_iff (placed_mediaRecord hrecord') (placed_mediaRecord hrecord)).mp hkey
    rw [hid, hposition] at hshown'
    exact Option.some.inj (hshown'.symm.trans hshown)

/-- Nothing but a completed push takes an intent of a known title out of the queue of a
connection that still takes watch writes. -/
theorem pending_of_not_applied {row : WatchIntent} (hpush : standing.pushWatched = true)
    (hrow : row ∈ (dispatchWatchIntents texts db answers standing connectionId intents
      remote).batch) (hmedia : (db.findMedia row.mediaId).isSome) (happlied : row.state ≠ .applied) :
    row.state = .pending := by
  have hcancelled : ∀ before ∈ batchOf intents connectionId, row.mediaId = before.mediaId →
      db.findMedia before.mediaId ≠ none := by
    intro before _ hid hnone
    simp [hid, hnone] at hmedia
  obtain ⟨cycleActive, pushWatched, reconciled⟩ := standing
  obtain rfl : pushWatched = true := hpush
  simp only [dispatchWatchIntents, not_true_eq_false, if_false] at hrow
  split_ifs at hrow with hactive hmissing hmerge
  · exact state_of_mem_batchOf hrow
  · obtain ⟨before, hbefore, rfl⟩ := List.mem_map.mp hrow
    exact absurd (by simpa using List.all_eq_true.mp hmissing before hbefore)
      (hcancelled before hbefore rfl)
  · obtain ⟨before, hbefore, rfl⟩ := List.mem_map.mp hrow
    cases hknown : db.findMedia before.mediaId with
    | none =>
      rw [deliver_of_no_media hknown] at hmedia
      simp [WatchIntent.cancel, hknown] at hmedia
    | some media =>
      obtain ⟨-, -, hstate⟩ := deliver_of_media (pushConnection texts db answers remote
        (overrides db (batchOf intents connectionId))).2
        (show (db.findMedia before.mediaId).isSome by simp [hknown])
      rw [hstate] at happlied ⊢
      split_ifs at happlied ⊢
      · exact absurd rfl happlied
      · exact state_of_mem_batchOf hbefore
  · obtain ⟨before, hbefore, rfl⟩ := List.mem_map.mp hrow
    cases hknown : db.findMedia before.mediaId with
    | none => simp [defer, WatchIntent.cancel, hknown] at hmedia
    | some media => simpa [defer, hknown] using state_of_mem_batchOf hbefore

/-- A dispatch acknowledges only what the provider reflects when its push fails or every
intent can be written, given catalogues without repeated ids; when it does, the push
failed or every intent could be written. What it does not acknowledge stays queued. -/
theorem acknowledged_iff_deliverable (texts : Texts) (db : Database) (answers : Answers)
    (standing : Standing) (connectionId : ℕ) (intents : List WatchIntent) (remote : Library) :
    (¬Written texts db answers standing connectionId intents remote ∨
      Deliverable texts db answers.catalogue (batchOf intents connectionId) ∧
        UniqueVideos texts db answers.catalogue (batchOf intents connectionId) →
      Acknowledged texts db answers standing connectionId intents remote) ∧
    (Acknowledged texts db answers standing connectionId intents remote →
      ¬Written texts db answers standing connectionId intents remote ∨
        Deliverable texts db answers.catalogue (batchOf intents connectionId)) ∧
    ∀ row ∈ (dispatchWatchIntents texts db answers standing connectionId intents remote).batch,
      standing.pushWatched = true → (db.findMedia row.mediaId).isSome → row.state ≠ .applied →
        row.state = .pending := by
  refine ⟨?_, ?_, ?_⟩
  · rintro (hfailed | ⟨hdeliverable, hunique⟩)
    · exact acknowledged_of_not_written hfailed
    · exact acknowledged_of_deliverable hdeliverable hunique
  · intro hack
    by_cases hwritten : Written texts db answers standing connectionId intents remote
    · exact .inr (deliverable_of_acknowledged hack hwritten)
    · exact .inl hwritten
  · intro row hrow hpush hmedia happlied
    exact pending_of_not_applied hpush hrow hmedia happlied

section films

def readDigits (text : String) : Option Int :=
  if text.toList ≠ [] ∧ text.toList.all Char.isDigit then
    some ((Nat.ofDigitChars 10 text.toList 0 : ℕ) : Int)
  else none

theorem readDigits_toString (n : ℕ) : readDigits (toString n) = some (n : Int) := by
  have htext : (toString n).toList = Nat.toDigits 10 n := by
    rw [Nat.toString_eq_repr, Nat.repr_eq_ofList_toDigits, String.toList_ofList]
  have hdigits : (Nat.toDigits 10 n).all Char.isDigit = true :=
    List.all_eq_true.mpr fun c hc ↦ Nat.isDigit_of_mem_toDigits (by decide) (by decide) hc
  rw [readDigits, htext, if_pos ⟨Nat.toDigits_ne_nil, hdigits⟩, Nat.ofDigitChars_ten_toDigits]

def byteChar (byte : BitVec 8) : Char := Char.ofNat (byte.toNat + 256)

def charByte (c : Char) : BitVec 8 := BitVec.ofNat 8 (c.toNat - 256)

theorem byteChar_spec : ∀ byte, charByte (byteChar byte) = byte ∧ byteChar byte ≠ ':' := by
  decide +kernel

/-- Plain digits, and one letter for each byte. -/
def plainTexts : Texts where
  int := readDigits
  pack bytes := String.ofList (bytes.map byteChar)
  unpack text := some (text.toList.map charByte)
  iso := toString
  int_toString := readDigits_toString
  unpack_pack bytes := by
    have hround : bytes.map (charByte ∘ byteChar) = bytes :=
      (List.map_congr_left fun byte _ ↦ (byteChar_spec byte).1).trans (List.map_id' bytes)
    simp [hround]
  colon_notMem_pack bytes := by
    simp only [String.toList_ofList, List.mem_map, not_exists, not_and]
    exact fun byte _ ↦ (byteChar_spec byte).2

/-- A film with an identifier, a film without one, and an episode. -/
def shelf : Database where
  media := [⟨1, .movie, "Film", some 11, none, some "tt1", none, none, none⟩,
    ⟨2, .movie, "Obscure film", some 12, none, none, none, none, none⟩,
    ⟨3, .episode, "Special", none, none, none, some 5, some 0, some 4⟩]
  shows := [⟨5, "Show", some 13, none, some "tt3"⟩]
  events := [⟨1, true, none, 7000⟩, ⟨2, true, none, 7000⟩, ⟨3, true, none, 7000⟩]
  tracked := [1, 2]

/-- The catalogue knows the show's first episode only. -/
def answered : Answers where
  readError := none
  putError _ := none
  catalogue contentId := if contentId = "tt3" then some [⟨"tt3:1:1", some 1, some 1, ""⟩] else none
  now := "now"

def queued (mediaId : ℕ) : WatchIntent := ⟨mediaId, 9, mediaId, true, .pending, 0, none, 0⟩

def open' : Standing := ⟨false, true, true⟩

theorem acknowledged_film :
    Acknowledged plainTexts shelf answered open' 9 [queued 1] Dict.empty := by
  refine (acknowledged_iff_deliverable plainTexts shelf answered open' 9 [queued 1]
    Dict.empty).1 (.inr ⟨?_, ?_⟩)
  · have hbatch : batchOf [queued 1] 9 = [queued 1] := by decide
    have hrecord : shelf.mediaRecord 1 = some ⟨"tt1", .movie, "Film", none, none, true, none⟩ := by
      decide
    intro row hrow _
    obtain rfl : row = queued 1 := by simpa [hbatch] using hrow
    refine ⟨_, hrecord, by simp [WatchRecord.position], ?_⟩
    intro row' hrow' _ _ _
    obtain rfl : row' = queued 1 := by simpa [hbatch] using hrow'
    rfl
  · have hbatch : batchOf [queued 1] 9 = [queued 1] := by decide
    have hrecord : shelf.mediaRecord 1 = some ⟨"tt1", .movie, "Film", none, none, true, none⟩ := by
      decide
    intro row hrow record h
    obtain rfl : row = queued 1 := by simpa [hbatch] using hrow
    obtain rfl := Option.some.inj (hrecord.symm.trans h)
    simp [answered, videoIds, sortedVideos]

/-- A film without an identifier is marked applied, and so is an episode that the
catalogue lacks. -/
theorem acknowledges_unwritten_titles :
    ¬Acknowledged plainTexts shelf answered open' 9 [queued 2] Dict.empty ∧
      ¬Acknowledged plainTexts shelf answered open' 9 [queued 3] Dict.empty := by
  constructor
  · intro hack
    have happlied : ∃ row ∈ (dispatchWatchIntents plainTexts shelf answered open' 9 [queued 2]
        Dict.empty).batch, row.mediaId = 2 ∧ row.state = .applied := by decide +kernel
    obtain ⟨row, hrow, hid, hstate⟩ := happlied
    obtain ⟨record, hrecord, -⟩ := hack row hrow hstate
    have hnone : shelf.mediaRecord 2 = none := by decide
    rw [hid, hnone] at hrecord
    cases hrecord
  · intro hack
    have happlied : ∃ row ∈ (dispatchWatchIntents plainTexts shelf answered open' 9 [queued 3]
        Dict.empty).batch, row.mediaId = 3 ∧ row.state = .applied := by decide +kernel
    obtain ⟨row, hrow, hid, hstate⟩ := happlied
    obtain ⟨record, hrecord, hshown⟩ := hack row hrow hstate
    have hepisode : shelf.mediaRecord 3 =
        some ⟨"tt3", .series, "Show", some 0, some 4, true, none⟩ := by decide
    rw [hid, hepisode] at hrecord
    obtain rfl := Option.some.inj hrecord
    have hunmatched : matchingVideo plainTexts ((answered.catalogue "tt3").getD []) (0, 4) = none := by
      decide +kernel
    simp [shownWatched, WatchRecord.position, hunmatched] at hshown

end films

end AnyList.Delivery.WatchIntents

namespace AnyList.Delivery.WatchedBitfield

open AnyList.Delivery.WatchIntents (plainTexts)

/-- The watched videos are read back over the list they were written over, and over every list that
has grown around it. -/
theorem decode_encode_grown (texts : Texts) {watchedIds : Finset String}
    {before videoIds after : List String} (h : (before ++ videoIds ++ after).Nodup)
    (hwatched : ∀ videoId ∈ watchedIds, videoId ∈ videoIds) :
    decodeWatchedBitfield texts (encodeWatchedBitfield texts watchedIds videoIds) videoIds =
        watchedIds ∧
      decodeWatchedBitfield texts (encodeWatchedBitfield texts watchedIds videoIds)
          (before ++ videoIds ++ after) = watchedIds := by
  have hvideos : videoIds.Nodup := (List.nodup_append.mp (List.nodup_append.mp h).1).2.1
  constructor
  · ext videoId
    rw [mem_decode_encodeWatchedBitfield texts hvideos]
    exact and_iff_left_of_imp (hwatched videoId)
  · ext videoId
    rw [mem_decode_grown texts h]
    exact and_iff_left_of_imp (hwatched videoId)

theorem decode_encode_special_and_finale :
    decodeWatchedBitfield plainTexts (encodeWatchedBitfield plainTexts {"tt1:1:1"} ["tt1:1:1"])
        ["tt1:1:1"] = {"tt1:1:1"} ∧
      decodeWatchedBitfield plainTexts (encodeWatchedBitfield plainTexts {"tt1:1:1"} ["tt1:1:1"])
          (["tt1:0:1"] ++ ["tt1:1:1"] ++ ["tt1:1:2"]) = {"tt1:1:1"} :=
  decode_encode_grown plainTexts (by decide) (by simp)

end AnyList.Delivery.WatchedBitfield
