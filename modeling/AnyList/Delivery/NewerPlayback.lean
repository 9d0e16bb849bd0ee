import AnyList.Delivery.ClearedRecords
import AnyList.Delivery.ResumeWrites

namespace AnyList.Delivery.StremioResume

open AnyList.Library AnyList.Library.Octets AnyList.Library.Json AnyList.Delivery.StremioClear

variable {rt : Runtime} {record : Resume} {replies : Replies} {rows : List Fields}
  {item state state' : Fields}

/-- What a write leaves of a record that already holds the playback of the resume. -/
structure PlaybackKept (rt : Runtime) (record : Resume) (item state candidate : Fields) : Prop where
  position : same (get "timeOffset" state) (get "timeOffset" (stateOf candidate)) = true
  duration : same (get "duration" state) (get "duration" (stateOf candidate)) = true
  video : matchingVideo rt record state = true ∧
    get "video_id" (stateOf candidate) = videoIdOf rt record
  visible : truthy (get "removed" item) = false →
    get "removed" candidate = get "removed" item ∧ get "temp" candidate = get "temp" item ∧
      newerPlaybackDate rt record.lastWatched (get "lastWatched" state) = some true
  hidden : truthy (get "removed" item) = true →
    get "removed" candidate = .bool false ∧ get "temp" candidate = .bool true
  state : ∀ key, key ∉ ["timeOffset", "duration", "video_id", "lastWatched"].map text →
    Dict.getEntry key (stateOf candidate) = Dict.getEntry key state
  fields : ∀ key, key ∉ ["state", "_mtime", "removed", "temp"].map text →
    Dict.getEntry key candidate = Dict.getEntry key item

section fields

variable {name name' : String} {value : Value} {fields : Fields} {key : Text}

theorem get_update_self : get name (update name value fields) = value := by
  rw [StremioClear.get, getEntry_update_self, Option.getD_some]

theorem get_update_of_ne (h : text name ≠ text name') :
    get name (update name' value fields) = get name fields := by
  rw [StremioClear.get, getEntry_update_of_ne h, StremioClear.get]

theorem get_shown (hremoved : text name ≠ text "removed") (htemp : text name ≠ text "temp") :
    get name (shown item) = get name item := by
  rw [shown]
  split_ifs
  · rw [get_update_of_ne htemp, get_update_of_ne hremoved]
  · rfl

theorem stateOf_candidateOf : stateOf (candidateOf rt item state) = state := by
  rw [stateOf, candidateOf, get_shown (by decide) (by decide), get_update_of_ne (by decide),
    get_update_self]

theorem getEntry_candidateOf (h : key ∉ ["state", "_mtime", "removed", "temp"].map text) :
    Dict.getEntry key (candidateOf rt item state) = Dict.getEntry key item := by
  simp only [List.map_cons, List.map_nil, List.mem_cons, List.not_mem_nil, or_false, not_or] at h
  obtain ⟨hstate, hmtime, hremoved, htemp⟩ := h
  have hitem : Dict.getEntry key (update "_mtime" (.str rt.now) (update "state" (.obj state) item)) =
      Dict.getEntry key item := by
    rw [getEntry_update_of_ne hmtime, getEntry_update_of_ne hstate]
  rw [candidateOf, shown]
  split_ifs
  · rw [getEntry_update_of_ne htemp, getEntry_update_of_ne hremoved, hitem]
  · exact hitem

theorem get_candidateOf_of_visible (h : truthy (get "removed" item) = false)
    (hstate : text name ≠ text "state") (hmtime : text name ≠ text "_mtime") :
    get name (candidateOf rt item state) = get name item := by
  rw [candidateOf, shown, get_update_of_ne (by decide), get_update_of_ne (by decide), h,
    if_neg Bool.false_ne_true, get_update_of_ne hmtime, get_update_of_ne hstate]

theorem get_candidateOf_of_hidden (h : truthy (get "removed" item) = true) :
    get "removed" (candidateOf rt item state) = .bool false ∧
      get "temp" (candidateOf rt item state) = .bool true := by
  rw [candidateOf, shown, get_update_of_ne (by decide), get_update_of_ne (by decide), if_pos h]
  refine ⟨?_, get_update_self⟩
  rw [get_update_of_ne (by decide), get_update_self]

end fields

/-- The state with the resume's playback, before its viewing date. -/
def withPlayback (rt : Runtime) (record : Resume) (state : Fields) : Fields :=
  update "video_id" (videoIdOf rt record)
    (update "duration" record.duration (update "timeOffset" record.position state))

theorem of_writtenState (h : writtenState rt record state = some state') :
    state' = withPlayback rt record state ∨
      ∃ value, state' = update "lastWatched" value (withPlayback rt record state) := by
  rw [writtenState] at h
  split_ifs at h with hnone
  · exact .inl (Option.some.inj h).symm
  · cases hdate : rt.lastWatched record.lastWatched with
    | none => simp [hdate] at h
    | some date =>
      rw [hdate] at h
      cases date with
      | none => exact .inl (Option.some.inj h).symm
      | some t => exact .inr ⟨.str t, (Option.some.inj h).symm⟩

theorem get_writtenState (h : writtenState rt record state = some state') :
    get "timeOffset" state' = record.position ∧ get "duration" state' = record.duration ∧
      get "video_id" state' = videoIdOf rt record := by
  have hplayback : get "timeOffset" (withPlayback rt record state) = record.position ∧
      get "duration" (withPlayback rt record state) = record.duration ∧
        get "video_id" (withPlayback rt record state) = videoIdOf rt record := by
    refine ⟨?_, ?_, get_update_self⟩
    · rw [withPlayback, get_update_of_ne (by decide), get_update_of_ne (by decide), get_update_self]
    · rw [withPlayback, get_update_of_ne (by decide), get_update_self]
  obtain rfl | ⟨value, rfl⟩ := of_writtenState h
  · exact hplayback
  · rw [get_update_of_ne (by decide), get_update_of_ne (by decide), get_update_of_ne (by decide)]
    exact hplayback

theorem getEntry_writtenState (h : writtenState rt record state = some state') {key : Text}
    (hkey : key ∉ ["timeOffset", "duration", "video_id", "lastWatched"].map text) :
    Dict.getEntry key state' = Dict.getEntry key state := by
  simp only [List.map_cons, List.map_nil, List.mem_cons, List.not_mem_nil, or_false, not_or] at hkey
  obtain ⟨hposition, hduration, hvideo, hdate⟩ := hkey
  have hplayback : Dict.getEntry key (withPlayback rt record state) = Dict.getEntry key state := by
    rw [withPlayback, getEntry_update_of_ne hvideo, getEntry_update_of_ne hduration,
      getEntry_update_of_ne hposition]
  obtain rfl | ⟨value, rfl⟩ := of_writtenState h
  · exact hplayback
  · rw [getEntry_update_of_ne hdate, hplayback]

section push

variable {observed remote : Option ℤ}

theorem same_of_matchingProgress (h : matchingProgress rt record state = true) :
    same (get "timeOffset" state) record.position = true ∧
      same (get "duration" state) record.duration = true ∧ matchingVideo rt record state = true := by
  rw [matchingProgress, sameProgress, Bool.and_eq_true, Bool.and_eq_true, Bool.and_eq_true,
    Bool.and_eq_true] at h
  obtain ⟨⟨⟨⟨hposition, hduration⟩, -⟩, -⟩, hvideo⟩ := h
  refine ⟨?_, ?_, hvideo⟩
  · rw [remoteProgress] at hposition
    split_ifs at hposition <;> exact hposition
  · rw [remoteProgress] at hduration
    split_ifs at hduration <;> exact hduration

/-- Every way a push goes: only the last one writes. -/
theorem pushRows_cases (rt : Runtime) (record : Resume) (replies : Replies) (rows : List Fields) :
    (pushRows rt record replies rows).written = [] ∨
      ∃ state observed remote,
        stateDict rt (itemOf rt record rows) = some state ∧
        upToDate rt record (itemOf rt record rows) state = some false ∧
        observedAt rt record = some observed ∧ remoteAt rt rows = some remote ∧
        refused rt record observed remote state = false ∧
        pushRows rt record replies rows = write rt record replies (itemOf rt record rows) state := by
  rw [pushRows]
  by_cases htype : otherType record (itemOf rt record rows) = true
  · rw [if_pos htype]
    exact .inl rfl
  · rw [if_neg htype]
    cases hstate : stateDict rt (itemOf rt record rows) with
    | none => exact .inl rfl
    | some state =>
      dsimp only
      cases hdone : upToDate rt record (itemOf rt record rows) state with
      | none => exact .inl rfl
      | some done =>
        cases done with
        | true => exact .inl rfl
        | false =>
          dsimp only
          cases hobserved : observedAt rt record with
          | none => exact .inl rfl
          | some observed =>
            cases hremote : remoteAt rt rows with
            | none => exact .inl rfl
            | some remote =>
              dsimp only
              by_cases hrefused : refused rt record observed remote state = true
              · rw [if_pos hrefused]
                exact .inl rfl
              · rw [if_neg hrefused]
                exact .inr ⟨state, observed, remote, rfl, hdone, rfl, rfl,
                  Bool.eq_false_of_not_eq_true hrefused, rfl⟩

theorem matchingProgress_of_later {o r : ℤ} (h : o < r)
    (hrefused : refused rt record (some o) (some r) state = false) :
    matchingProgress rt record state = true := by
  simpa [refused, h] using hrefused

theorem newer_of_visible (hmatch : matchingProgress rt record state = true)
    (hvisible : truthy (get "removed" item) = false)
    (h : upToDate rt record item state = some false) :
    newerPlaybackDate rt record.lastWatched (get "lastWatched" state) = some true := by
  rw [upToDate, hmatch, hvisible, if_pos (by rfl)] at h
  obtain ⟨newer, hnewer, hfalse⟩ := Option.map_eq_some_iff.mp h
  cases newer with
  | true => exact hnewer
  | false => cases hfalse

theorem playbackKept_candidateOf (hmatch : matchingProgress rt record state = true)
    (hdone : upToDate rt record item state = some false)
    (hstate : writtenState rt record state = some state') :
    PlaybackKept rt record item state (candidateOf rt item state') := by
  obtain ⟨hposition, hduration, hvideo⟩ := same_of_matchingProgress hmatch
  obtain ⟨hposition', hduration', hvideo'⟩ := get_writtenState hstate
  refine ⟨?_, ?_, ⟨hvideo, ?_⟩, fun hvisible ↦ ⟨?_, ?_, newer_of_visible hmatch hvisible hdone⟩,
    get_candidateOf_of_hidden, fun key hkey ↦ ?_, fun key hkey ↦ getEntry_candidateOf hkey⟩
  · rw [stateOf_candidateOf, hposition']
    exact hposition
  · rw [stateOf_candidateOf, hduration']
    exact hduration
  · rw [stateOf_candidateOf, hvideo']
  · exact get_candidateOf_of_visible hvisible (by decide) (by decide)
  · exact get_candidateOf_of_visible hvisible (by decide) (by decide)
  · rw [stateOf_candidateOf]
    exact getEntry_writtenState hstate hkey

theorem pushRows_of_other (hstate : stateDict rt (itemOf rt record rows) = some state)
    (hmatch : matchingProgress rt record state = false) {o r : ℤ}
    (hobserved : observedAt rt record = some (some o)) (hremote : remoteAt rt rows = some (some r))
    (hlater : o < r) : (pushRows rt record replies rows).result = .changed := by
  have hdone : upToDate rt record (itemOf rt record rows) state = some false := by
    rw [upToDate, hmatch]
    rfl
  have hrefused : refused rt record (some o) (some r) state = true := by
    rw [refused, hmatch]
    simpa using hlater
  rw [pushRows]
  split_ifs
  · rfl
  · rw [hstate]
    dsimp only
    rw [hdone, hobserved, hremote]
    dsimp only
    rw [if_pos hrefused]

theorem write_cases (rt : Runtime) (record : Resume) (replies : Replies) (item state : Fields) :
    (write rt record replies item state).written = [] ∨
      ∃ state', writtenState rt record state = some state' ∧
        (write rt record replies item state).written = [candidateOf rt item state'] := by
  rw [write]
  cases hstate : writtenState rt record state with
  | none => exact .inl rfl
  | some state' => exact .inr ⟨state', rfl, rfl⟩

theorem readBack_ne_changed (reply : Option (List Value)) :
    readBack rt record reply ≠ .changed := by
  rw [readBack]
  split
  · split_ifs <;> exact fun h ↦ by cases h
  · exact fun h ↦ by cases h

theorem write_result_ne_changed : (write rt record replies item state).result ≠ .changed := by
  rw [write]
  cases writtenState rt record state with
  | none => exact fun h ↦ by cases h
  | some state' =>
    dsimp only
    split_ifs
    · exact readBack_ne_changed _
    · exact fun h ↦ by cases h

end push

/-- The outcome and the action behind a delivery whose record changed after it was queued. -/
structure NewerKept (rt : Runtime) (record : Resume) (status : Option String) (item : Fields)
    (action : Action) (delivery : Outcome × Action) : Prop where
  written : delivery.1.written = [] ∨ ∃ state candidate, stateDict rt item = some state ∧
    delivery.1.written = [candidate] ∧ PlaybackKept rt record item state candidate
  conflict : delivery.1.result = .changed → delivery.1.written = [] ∧
    delivery.2.state = .conflict ∧ delivery.2.reviews = action.reviews ++ [changedReview status]
  refused : ∀ state, stateDict rt item = some state → matchingProgress rt record state = false →
    delivery.1.result = .changed

theorem dispatchUpsert_keeps_newer (rt : Runtime) (record : Resume) (status : Option String)
    (error : String) (replies : Replies) (action : Action) (item : Fields) (rows : List Fields)
    (o r : ℤ) (hrows : datastoreGet replies.rows = some (item :: rows))
    (hobserved : observedAt rt record = some (some o))
    (hremote : remoteAt rt (item :: rows) = some (some r)) (hlater : o < r) :
    NewerKept rt record status item action
      (dispatchUpsert rt record status error replies action) := by
  have hpush : pushStremioProgress rt record replies = pushRows rt record replies (item :: rows) := by
    rw [pushStremioProgress, hrows]
  have hcases := pushRows_cases rt record replies (item :: rows)
  rw [← hpush, show itemOf rt record (item :: rows) = item from rfl, hobserved, hremote] at hcases
  refine ⟨?_, fun hchanged ↦ ⟨?_, ?_, ?_⟩, fun state hstate hmatch ↦ ?_⟩
  · obtain hkept | ⟨state, observed, remote, hstate, hdone, ho, hr, hrefused, hwrite⟩ := hcases
    · exact .inl hkept
    · cases ho
      cases hr
      rw [dispatchUpsert, hwrite]
      obtain hnone | ⟨state', hstate', hwritten⟩ := write_cases rt record replies item state
      · exact .inl hnone
      · exact .inr ⟨state, _, hstate, hwritten,
          playbackKept_candidateOf (matchingProgress_of_later hlater hrefused) hdone hstate'⟩
  · obtain hkept | ⟨state, observed, remote, -, -, -, -, -, hwrite⟩ := hcases
    · exact hkept
    · rw [dispatchUpsert, hwrite] at hchanged
      exact absurd hchanged write_result_ne_changed
  · rw [dispatchUpsert] at hchanged ⊢
    rw [hchanged]
    rfl
  · rw [dispatchUpsert] at hchanged ⊢
    rw [hchanged]
    rfl
  · rw [dispatchUpsert, hpush]
    exact pushRows_of_other hstate hmatch hobserved hremote hlater

section hidden

/-- A hidden film, modified a day after the resume for its own playback was queued. -/
def hiddenMovie : Fields :=
  [(text "_id", .str (text "tt1234567")), (text "type", .str (text "movie")),
    (text "removed", .bool true), (text "temp", .bool false),
    (text "_mtime", .str (text "2026-09-21T12:00:00Z")),
    (text "state", .obj [(text "timeOffset", .int 1000), (text "duration", .int 120000),
      (text "video_id", .str (text "tt1234567"))])]

def hiddenResume : Resume where
  contentId := text "tt1234567"
  contentType := .str (text "movie")
  name := .null
  title := .null
  poster := .null
  posterShape := .null
  season := .null
  episode := .null
  position := .int 1000
  duration := .int 120000
  videoId := .null
  observedAt := .str (text "2026-09-20T12:00:00Z")
  lastWatched := .null

def twoDays : Value → Option (Option ℤ)
  | .str t =>
    if t = text "2026-09-20T12:00:00Z" then some (some 1789905600000)
    else if t = text "2026-09-21T12:00:00Z" then some (some 1789992000000)
    else some none
  | _ => some none

def twoDaysRuntime : Runtime where
  str _ := []
  dict _ := none
  instant := twoDays
  lastWatched _ := some none
  now := text "2026-09-21T12:30:00Z"

def hiddenReplies : Replies where
  rows := some [.obj hiddenMovie]
  acknowledged := true
  readback := some [.obj (update "removed" (.bool false) hiddenMovie)]

theorem dispatchUpsert_keeps_newer_hidden :
    NewerKept twoDaysRuntime hiddenResume (some "watching") hiddenMovie ⟨.pending, 0, none, []⟩
      (dispatchUpsert twoDaysRuntime hiddenResume (some "watching") "" hiddenReplies
        ⟨.pending, 0, none, []⟩) :=
  dispatchUpsert_keeps_newer twoDaysRuntime hiddenResume (some "watching") "" hiddenReplies _
    hiddenMovie [] 1789905600000 1789992000000 rfl rfl rfl (by decide)

/-- The newer hidden record is shown again, without a conflict. -/
theorem pushStremioProgress_shows_hidden :
    observedAt twoDaysRuntime hiddenResume = some (some 1789905600000) ∧
      remoteAt twoDaysRuntime [hiddenMovie] = some (some 1789992000000) ∧
      (pushStremioProgress twoDaysRuntime hiddenResume hiddenReplies).result = .done ∧
      (pushStremioProgress twoDaysRuntime hiddenResume hiddenReplies).written.map
        (fun candidate ↦ truthy (get "removed" candidate)) = [false] ∧
      truthy (get "removed" hiddenMovie) = true :=
  ⟨rfl, rfl, by decide +kernel, by decide +kernel, by decide +kernel⟩

end hidden

end AnyList.Delivery.StremioResume
