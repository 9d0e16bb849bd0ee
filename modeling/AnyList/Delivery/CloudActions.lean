import AnyList.Library.BatchPasses
import AnyList.Library.Dict
import AnyList.Library.Runs
import AnyList.Streaming.Account

namespace AnyList.Delivery.CloudActions

open AnyList.Library AnyList.Library.BatchPasses AnyList.Library.Runs
open AnyList.Streaming (ReviewState Target TrackingDeletion)

inductive Provider
  | trakt
  | simkl
  | mdblist
  deriving DecidableEq

namespace Provider

def value : Provider → String
  | trakt => "trakt"
  | simkl => "simkl"
  | mdblist => "mdblist"

def target (p : Provider) : Target := .provider p.value

end Provider

inductive MediaType
  | movie
  | series
  deriving DecidableEq

structure Media where
  id : ℕ
  mediaType : MediaType
  tmdbId : Option ℕ

structure Episode where
  seasonNumber : Option ℕ
  episodeNumber : Option ℕ

/-- What a reset takes along of a title that is deleted here. -/
structure Payload where
  mediaType : MediaType
  tmdbId : Option ℕ
  episodes : List (ℕ × ℕ)
  deriving DecidableEq

def deletionPayload (media : Media) (episodes : List Episode) : Payload where
  mediaType := media.mediaType
  tmdbId := media.tmdbId
  episodes := if media.mediaType = .series then
      episodes.filterMap fun row ↦
        match row.seasonNumber, row.episodeNumber with
        | some season, some episode => if 0 < season then some (season, episode) else none
        | _, _ => none
    else []

inductive ActionState
  | pending
  | conflict
  | applied
  | cancelled
  deriving DecidableEq

/-- A durable local decision waiting to be acknowledged by a cloud tracker. -/
structure CloudAction where
  id : ℕ
  provider : Provider
  mediaId : ℕ
  action : String
  payload : Option Payload
  state : ActionState
  attempts : ℕ
  lastError : Option String
  deriving DecidableEq

namespace CloudAction

variable (a : CloudAction)

def isReset : Bool := decide (a.action = "reset")

/-- Work that may still be delivered. -/
def live : Bool := decide (a.state = .pending ∨ a.state = .conflict)

def cancel : CloudAction := { a with state := .cancelled, payload := none }

end CloudAction

/-- The push flags of the account. -/
structure Settings where
  traktConnected : Bool
  traktPushWatched : Bool
  traktPushRatings : Bool
  traktPushCollection : Bool
  traktPushDropped : Bool
  simklConnected : Bool
  simklPushWatched : Bool
  simklPushRatings : Bool
  mdblistConnected : Bool
  mdblistPushWatched : Bool
  mdblistPushRatings : Bool
  mdblistPushWatchlist : Bool
  mdblistPushCollection : Bool
  mdblistPushDropped : Bool

namespace Settings

variable (settings : Settings)

def pushes : Provider → Bool
  | .trakt => settings.traktPushWatched || settings.traktPushRatings ||
      settings.traktPushCollection || settings.traktPushDropped
  | .simkl => settings.simklPushWatched || settings.simklPushRatings
  | .mdblist => settings.mdblistPushWatched || settings.mdblistPushRatings ||
      settings.mdblistPushWatchlist || settings.mdblistPushCollection || settings.mdblistPushDropped

/-- The trackers that take a new reset. The collection flag of the last one alone does not count. -/
def connected : List Provider :=
  (if settings.traktConnected && settings.pushes .trakt then [.trakt] else []) ++
    (if settings.simklConnected && settings.pushes .simkl then [.simkl] else []) ++
    (if settings.mdblistConnected && (settings.mdblistPushWatched || settings.mdblistPushRatings ||
        settings.mdblistPushWatchlist || settings.mdblistPushDropped) then [.mdblist] else [])

end Settings

/-- The shows, seasons and episodes of a removal, or its film. -/
structure Body where
  movies : List ℕ
  shows : List (ℕ × List (ℕ × List ℕ))
  deriving DecidableEq

def mdblistPayload (tmdbId : ℕ) (payload : Payload) : Body :=
  if payload.mediaType = .movie then ⟨[tmdbId], []⟩
  else
    let seasons := (Dict.groupBy Prod.fst payload.episodes).entries.map fun season ↦
      (season.1, season.2.map Prod.snd)
    ⟨[], [(tmdbId, seasons.insertionSort fun a b ↦ a.1 ≤ b.1)]⟩

/-- A removal at a tracker. -/
inductive Call
  | movieHistory (tmdbId : ℕ)
  | movieRating (tmdbId : ℕ)
  | episodeHistory (tmdbId season episode : ℕ)
  | showRating (tmdbId : ℕ)
  | watchlist (kind : String) (tmdbId : ℕ)
  | hidden (section_ : String) (tmdbId : ℕ)
  | watched (body : Body)
  | ratings (body : Body)
  | watchlistBody (body : Body)
  | dropped (tmdbId : ℕ)
  deriving DecidableEq

/-- The removals of a reset, in their order. -/
def resetCalls (provider : Provider) (payload : Payload) (tmdbId : ℕ) : List Call :=
  let episodes := payload.episodes.map fun row ↦ Call.episodeHistory tmdbId row.1 row.2
  match provider, payload.mediaType with
  | .trakt, .movie => [.movieHistory tmdbId, .movieRating tmdbId, .watchlist "movies" tmdbId]
  | .trakt, .series => episodes ++
      [.showRating tmdbId, .watchlist "shows" tmdbId, .hidden "dropped" tmdbId]
  | .simkl, .movie => [.movieHistory tmdbId, .movieRating tmdbId]
  | .simkl, .series => episodes ++ [.showRating tmdbId]
  | .mdblist, mediaType =>
    let body := mdblistPayload tmdbId payload
    [.watched body, .ratings body, .watchlistBody body] ++
      if mediaType = .movie then [] else [.dropped tmdbId]

structure SyncReview where
  mediaId : ℕ
  outboundPending : Bool
  state : ReviewState
  deriving DecidableEq

structure Outbox where
  actions : List CloudAction
  deletions : List TrackingDeletion
  reviews : List SyncReview

/-- A deleted title queues a reset for each tracker that takes one; rows get their ids in order. -/
def queueCloudResets (s : Outbox) (settings : Option Settings) (freshId : ℕ) (media : Media)
    (episodes : List Episode) : Outbox × List Provider :=
  let connected := settings.elim [] Settings.connected
  let rows := connected.mapIdx fun n provider ↦
    { id := freshId + n
      provider
      mediaId := media.id
      action := "reset"
      payload := some (deletionPayload media episodes)
      state := .pending
      attempts := 0
      lastError := none : CloudAction }
  ({ s with actions := s.actions ++ rows }, connected)

/-- What a dispatch meets: the account's settings, its tracked titles, the trackers whose merge is
settled, and the error, if any, that a removal for an action is answered with. -/
structure Pass where
  settings : Option Settings
  tracked : ℕ → Bool
  approved : Provider → Bool
  answer : (actionId : ℕ) → Call → Option String

namespace Outbox

variable (s : Outbox)

def hasLiveReset (mediaId : ℕ) (provider : Provider) : Bool :=
  s.actions.any fun a ↦ decide (a.mediaId = mediaId ∧ a.provider = provider) && a.isReset && a.live

def removeTarget (mediaId : ℕ) (provider : Provider) : Outbox :=
  { s with deletions := s.deletions.map fun marker ↦
      if marker.mediaId = mediaId then
        { marker with pendingConnections :=
            marker.pendingConnections.filter fun target ↦ decide (target ≠ provider.target) }
      else marker }

def deletion (mediaId : ℕ) : Option TrackingDeletion :=
  s.deletions.find? fun marker ↦ decide (marker.mediaId = mediaId)

/-- A tombstone that waits for nothing. -/
def settled (mediaId : ℕ) : Bool :=
  (s.deletion mediaId).any fun marker ↦ decide (marker.pendingConnections = [])

def closeReviews (mediaId : ℕ) (p : SyncReview → Bool) (state : ReviewState) : Outbox :=
  { s with reviews := s.reviews.map fun review ↦
      if review.mediaId = mediaId ∧ review.outboundPending = true ∧ p review = true then
        { review with state } else review }

end Outbox

/-- Remove a target once it has no live reset row; retain the tombstone. -/
def settleMarkerTarget (s : Outbox) (mediaId : ℕ) (provider : Provider) : Outbox :=
  if s.hasLiveReset mediaId provider then s
  else
    let s := s.removeTarget mediaId provider
    if s.settled mediaId then
      s.closeReviews mediaId (fun review ↦ decide (review.state = .pending)) .corrected
    else s

namespace Pass

variable (w : Pass)

def enabled (provider : Provider) : Bool := w.settings.any fun settings ↦ settings.pushes provider

/-- A reset whose tracker takes no writes any more. -/
def disabled (a : CloudAction) : Bool := a.isReset && a.live && !w.enabled a.provider

def disable (a : CloudAction) : CloudAction := { a.cancel with lastError := none }

/-- Cancel the row of an action, then let its tombstone go on. -/
def cancelDisabled (s : Outbox) (a : CloudAction) : Outbox :=
  if w.disabled a then
    settleMarkerTarget
      { s with actions := s.actions.map fun row ↦ if row.id = a.id then disable row else row }
      a.mediaId a.provider
  else s

/-- A tombstone may list a tracker without any row of it. -/
def settleListed (s : Outbox) (listed : ℕ × Target) : Outbox :=
  match [Provider.trakt, .simkl, .mdblist].find? fun p ↦ decide (p.target = listed.2) with
  | some provider => if w.enabled provider then s else settleMarkerTarget s listed.1 provider
  | none => s

def cleanupDisabledCloudActions (s : Outbox) : Outbox :=
  let s := (s.actions.insertionSort fun a b ↦ a.id ≤ b.id).foldl w.cancelDisabled s
  (s.deletions.flatMap fun marker ↦ marker.pendingConnections.map (marker.mediaId, ·)).foldl
    w.settleListed s

/-- The error that a reset ends with: that of the first removal that has one. -/
def applyReset (a : CloudAction) : Option String :=
  match w.settings, a.payload.bind Payload.tmdbId with
  | none, _ => some "ValueError"
  | _, none | _, some 0 => some "ValueError"
  | some _, some tmdbId =>
    match a.payload with
    | none => some "ValueError"
    | some payload => (resetCalls a.provider payload tmdbId).findSome? (w.answer a.id)

/-- What becomes of a selected action. -/
def handle (marked : Bool) (a : CloudAction) : CloudAction :=
  if w.tracked a.mediaId = true ∨ ¬marked = true ∨ ¬a.isReset = true then a.cancel
  else if ¬w.approved a.provider = true then a
  else match w.applyReset a with
    | some error => { a with attempts := a.attempts + 1, lastError := some error }
    | none => { a with
        attempts := a.attempts + 1
        state := .applied
        lastError := none
        payload := none }

/-- An acknowledged reset takes its tracker off the tombstone. -/
def acknowledge (s : Outbox) (a : CloudAction) : Outbox :=
  let s := s.removeTarget a.mediaId a.provider
  if s.settled a.mediaId then s.closeReviews a.mediaId (fun _ ↦ true) .confirmed else s

end Pass

def selectLimit : ℕ := 25

def pendingActions (s : Outbox) : List CloudAction :=
  s.actions.filter fun a ↦ decide (a.state = .pending)

def selectActions (s : Outbox) : List CloudAction :=
  batch CloudAction.id selectLimit (pendingActions s)

namespace Pass

variable (w : Pass)

def handleIn (s : Outbox) (a : CloudAction) : CloudAction :=
  w.handle (s.deletion a.mediaId).isSome a

/-- The batch of a dispatch: no action of it adds a tombstone or takes one away, so that each row is
handled by itself and the acknowledged ones are taken off the tombstones. -/
def dispatchBatch (s : Outbox) : Outbox :=
  let selected := selectActions s
  let acknowledged := selected.filter fun a ↦ decide ((w.handleIn s a).state = .applied)
  acknowledged.foldl acknowledge
    { s with actions := s.actions.map fun a ↦ if a ∈ selected then w.handleIn s a else a }

def dispatchCloudActions (s : Outbox) : Outbox := w.dispatchBatch (w.cleanupDisabledCloudActions s)

end Pass

/-- The outbox after so many dispatches. -/
def after (w : Pass) (s : Outbox) : ℕ → Outbox
  | 0 => s
  | n + 1 => w.dispatchCloudActions (after w s n)

section cleanup

variable {w : Pass} {s : Outbox} {mediaId : ℕ} {provider : Provider} {a : CloudAction}

theorem actions_settleMarkerTarget : (settleMarkerTarget s mediaId provider).actions = s.actions := by
  unfold settleMarkerTarget
  split_ifs
  · rfl
  · dsimp only
    split_ifs <;> rfl

theorem deletion_removeTarget (id : ℕ) : (s.removeTarget mediaId provider).deletion id =
    (s.deletion id).map fun marker ↦ if marker.mediaId = mediaId then
      { marker with pendingConnections :=
          marker.pendingConnections.filter fun target ↦ decide (target ≠ provider.target) }
      else marker := by
  have hid (marker : TrackingDeletion) : (if marker.mediaId = mediaId then
      { marker with pendingConnections :=
          marker.pendingConnections.filter fun target ↦ decide (target ≠ provider.target) }
      else marker).mediaId = marker.mediaId := by
    split_ifs <;> rfl
  rw [Outbox.deletion, Outbox.deletion, Outbox.removeTarget, List.find?_map]
  simp only [Function.comp_def, hid]

/-- A tombstone stays, whatever it still waits for. -/
theorem isSome_deletion_removeTarget (id : ℕ) :
    ((s.removeTarget mediaId provider).deletion id).isSome = (s.deletion id).isSome := by
  rw [deletion_removeTarget, Option.isSome_map]

theorem isSome_deletion_settleMarkerTarget (id : ℕ) :
    ((settleMarkerTarget s mediaId provider).deletion id).isSome = (s.deletion id).isSome := by
  unfold settleMarkerTarget
  split_ifs
  · rfl
  · dsimp only
    split_ifs
    · exact isSome_deletion_removeTarget id
    · exact isSome_deletion_removeTarget id

theorem isSome_deletion_acknowledge (id : ℕ) :
    ((Pass.acknowledge s a).deletion id).isSome = (s.deletion id).isSome := by
  unfold Pass.acknowledge
  dsimp only
  split_ifs
  · exact isSome_deletion_removeTarget id
  · exact isSome_deletion_removeTarget id

theorem actions_acknowledge : (Pass.acknowledge s a).actions = s.actions := by
  unfold Pass.acknowledge
  dsimp only
  split_ifs <;> rfl

theorem actions_foldl_cancelDisabled (l : List CloudAction) (s : Outbox) :
    (l.foldl w.cancelDisabled s).actions = s.actions.map fun row ↦
      if ∃ a ∈ l, a.id = row.id ∧ w.disabled a = true then Pass.disable row else row := by
  induction l generalizing s with
  | nil => simp
  | cons a rest ih =>
    rw [List.foldl_cons, ih, Pass.cancelDisabled]
    by_cases ha : w.disabled a = true
    · rw [if_pos ha, actions_settleMarkerTarget, List.map_map]
      refine List.map_congr_left fun row _ ↦ ?_
      rw [Function.comp_apply]
      by_cases hid : row.id = a.id
      · rw [if_pos hid, if_pos (c := ∃ a' ∈ a :: rest, _)
          ⟨a, List.mem_cons_self, hid.symm, ha⟩]
        split_ifs <;> rfl
      · have hiff : (∃ a' ∈ a :: rest, a'.id = row.id ∧ w.disabled a' = true) ↔
            ∃ a' ∈ rest, a'.id = row.id ∧ w.disabled a' = true := by
          simp [Ne.symm hid]
        rw [if_neg hid, if_congr hiff rfl rfl]
    · rw [if_neg ha]
      refine List.map_congr_left fun row _ ↦ ?_
      have hiff : (∃ a' ∈ a :: rest, a'.id = row.id ∧ w.disabled a' = true) ↔
          ∃ a' ∈ rest, a'.id = row.id ∧ w.disabled a' = true := by
        simp [ha]
      rw [if_congr hiff rfl rfl]

theorem actions_settleListed (s : Outbox) (listed : ℕ × Target) :
    (w.settleListed s listed).actions = s.actions := by
  unfold Pass.settleListed
  split
  · split_ifs
    · rfl
    · exact actions_settleMarkerTarget
  · rfl

theorem isSome_deletion_settleListed (s : Outbox) (listed : ℕ × Target) (id : ℕ) :
    ((w.settleListed s listed).deletion id).isSome = (s.deletion id).isSome := by
  unfold Pass.settleListed
  split
  · split_ifs
    · rfl
    · exact isSome_deletion_settleMarkerTarget id
  · rfl

theorem isSome_deletion_cancelDisabled (s : Outbox) (a : CloudAction) (id : ℕ) :
    ((w.cancelDisabled s a).deletion id).isSome = (s.deletion id).isSome := by
  unfold Pass.cancelDisabled
  split_ifs
  · exact isSome_deletion_settleMarkerTarget id
  · rfl

/-- A cleanup cancels the resets of the trackers that take no writes, and leaves other rows. -/
theorem actions_cleanup (hids : (s.actions.map CloudAction.id).Nodup) :
    (w.cleanupDisabledCloudActions s).actions =
      s.actions.map fun a ↦ if w.disabled a then Pass.disable a else a := by
  unfold Pass.cleanupDisabledCloudActions
  dsimp only
  rw [foldl_unchanged (f := Outbox.actions) actions_settleListed, actions_foldl_cancelDisabled]
  refine List.map_congr_left fun row hrow ↦ ?_
  refine if_congr ?_ rfl rfl
  constructor
  · rintro ⟨a, ha, hid, hdisabled⟩
    obtain rfl := List.inj_on_of_nodup_map hids
      ((List.perm_insertionSort _ s.actions).mem_iff.mp ha) hrow hid
    exact hdisabled
  · intro hdisabled
    exact ⟨row, (List.perm_insertionSort _ s.actions).mem_iff.mpr hrow, rfl, hdisabled⟩

theorem isSome_deletion_cleanup (id : ℕ) :
    ((w.cleanupDisabledCloudActions s).deletion id).isSome = (s.deletion id).isSome := by
  unfold Pass.cleanupDisabledCloudActions
  dsimp only
  rw [foldl_unchanged (f := fun s : Outbox ↦ (s.deletion id).isSome)
      fun s listed ↦ isSome_deletion_settleListed s listed id,
    foldl_unchanged (f := fun s : Outbox ↦ (s.deletion id).isSome)
      fun s a ↦ isSome_deletion_cancelDisabled s a id]

theorem actions_dispatchBatch : (w.dispatchBatch s).actions =
    s.actions.map fun a ↦ if a ∈ selectActions s then w.handleIn s a else a := by
  unfold Pass.dispatchBatch
  dsimp only
  rw [foldl_unchanged (f := Outbox.actions) fun s a ↦ actions_acknowledge]

theorem isSome_deletion_dispatchBatch (id : ℕ) :
    ((w.dispatchBatch s).deletion id).isSome = (s.deletion id).isSome := by
  unfold Pass.dispatchBatch
  dsimp only
  rw [foldl_unchanged (f := fun s : Outbox ↦ (s.deletion id).isSome)
    fun s a ↦ isSome_deletion_acknowledge id]
  rfl

end cleanup

section queued

variable {w : Pass} {s : Outbox} {settings : Settings} {provider : Provider} {freshId : ℕ}
  {media : Media} {episodes : List Episode} {a : CloudAction}

/-- A tracker that takes a new reset takes writes. -/
theorem pushes_of_mem_connected (h : provider ∈ settings.connected) :
    settings.pushes provider = true := by
  unfold Settings.connected at h
  unfold Settings.pushes
  rw [List.mem_append, List.mem_append] at h
  obtain (h | h) | h := h
  · split_ifs at h with hconnected
    · rw [Bool.and_eq_true] at hconnected
      obtain rfl := List.mem_singleton.mp h
      exact hconnected.2
    · cases h
  · split_ifs at h with hconnected
    · rw [Bool.and_eq_true] at hconnected
      obtain rfl := List.mem_singleton.mp h
      exact hconnected.2
    · cases h
  · split_ifs at h with hconnected
    · obtain rfl := List.mem_singleton.mp h
      simp only [Bool.and_eq_true, Bool.or_eq_true] at hconnected ⊢
      tauto
    · cases h

/-- Each tracker that a deletion waits for has a reset, which its cleanup does not cancel as long as
the settings stay. -/
theorem hasLiveReset_queueCloudResets (hw : w.settings = some settings)
    (h : provider ∈ (queueCloudResets s (some settings) freshId media episodes).2) :
    ∃ a ∈ (queueCloudResets s (some settings) freshId media episodes).1.actions,
      a.mediaId = media.id ∧ a.provider = provider ∧ a.isReset = true ∧ a.live = true ∧
        w.disabled a = false := by
  have hconnected : provider ∈ settings.connected := h
  obtain ⟨n, hn, rfl⟩ := List.mem_iff_getElem.mp hconnected
  refine ⟨_, List.mem_append_right _ (List.mem_mapIdx.mpr ⟨n, hn, rfl⟩), rfl, rfl, rfl, rfl, ?_⟩
  have hpushes : settings.pushes settings.connected[n] = true :=
    pushes_of_mem_connected (List.getElem_mem hn)
  unfold Pass.disabled Pass.enabled
  rw [hw, Option.any_some]
  change (_ && !settings.pushes settings.connected[n]) = false
  rw [hpushes, Bool.not_true, Bool.and_false]

end queued

section queue

variable {w : Pass} {s : Outbox} {a b : CloudAction}

/-- An action that a dispatch leaves waiting: its tracker has no settled merge, or does not answer
all its removals. -/
def Waits (w : Pass) (s : Outbox) (a : CloudAction) : Prop :=
  w.tracked a.mediaId = false ∧ (s.deletion a.mediaId).isSome = true ∧ a.isReset = true ∧
    (w.approved a.provider = true → w.applyReset a ≠ none)

instance : Decidable (Waits w s a) := by
  unfold Waits
  infer_instance

/-- The parts of an action that its dispatches keep while it waits. -/
structure SameWork (a b : CloudAction) : Prop where
  id : b.id = a.id
  provider : b.provider = a.provider
  mediaId : b.mediaId = a.mediaId
  action : b.action = a.action
  payload : b.state = .pending → b.payload = a.payload

theorem SameWork.trans {c : CloudAction} (h : SameWork a b) (h' : SameWork b c)
    (hpending : c.state = .pending → b.state = .pending) : SameWork a c :=
  ⟨h'.id.trans h.id, h'.provider.trans h.provider, h'.mediaId.trans h.mediaId,
    h'.action.trans h.action, fun hc ↦ (h'.payload hc).trans (h.payload (hpending hc))⟩

theorem SameWork.waits_iff {t : Outbox} (h : SameWork a b) (hpending : b.state = .pending)
    (hsame : ∀ id, (t.deletion id).isSome = (s.deletion id).isSome) : Waits w t b ↔ Waits w s a := by
  rw [Waits, Waits, h.mediaId, h.provider, hsame]
  unfold CloudAction.isReset Pass.applyReset
  rw [h.action, h.payload hpending, h.id, h.provider]

theorem sameWork_handleIn : SameWork a (w.handleIn s a) := by
  unfold Pass.handleIn Pass.handle
  split_ifs
  · exact ⟨rfl, rfl, rfl, rfl, fun h ↦ by cases h⟩
  · cases w.applyReset a with
    | some error => exact ⟨rfl, rfl, rfl, rfl, fun _ ↦ rfl⟩
    | none => exact ⟨rfl, rfl, rfl, rfl, fun h ↦ by cases h⟩
  · exact ⟨rfl, rfl, rfl, rfl, fun _ ↦ rfl⟩

theorem state_handleIn (hpending : a.state = .pending) :
    (w.handleIn s a).state = .pending ↔ Waits w s a := by
  unfold Pass.handleIn Pass.handle Waits
  by_cases hcancel : w.tracked a.mediaId = true ∨ ¬(s.deletion a.mediaId).isSome = true ∨
      ¬a.isReset = true
  · rw [if_pos hcancel]
    refine iff_of_false (by simp [CloudAction.cancel]) ?_
    rintro ⟨htracked, hmarked, hreset, -⟩
    simp [htracked, hmarked, hreset] at hcancel
  rw [if_neg hcancel]
  rw [not_or, not_or, not_not, not_not] at hcancel
  obtain ⟨htracked, hmarked, hreset⟩ := hcancel
  rw [Bool.not_eq_true] at htracked
  by_cases happroved : w.approved a.provider = true
  · rw [if_neg (not_not_intro happroved)]
    cases happly : w.applyReset a with
    | some error => exact iff_of_true hpending ⟨htracked, hmarked, hreset, fun _ ↦ by simp⟩
    | none => exact iff_of_false (by simp) fun h ↦ h.2.2.2 happroved rfl
  · rw [if_pos happroved]
    exact iff_of_true hpending ⟨htracked, hmarked, hreset, fun h ↦ absurd h happroved⟩

/-- A cleaned outbox: none of its pending resets is for a tracker that takes no writes. -/
structure Clean (w : Pass) (t : Outbox) : Prop where
  nodup : (t.actions.map CloudAction.id).Nodup
  enabled : ∀ a ∈ t.actions, a.state = .pending → w.disabled a = false

theorem id_cleaned (a : CloudAction) : (if w.disabled a then Pass.disable a else a).id = a.id := by
  split_ifs <;> rfl

theorem clean_cleanup (hids : (s.actions.map CloudAction.id).Nodup) :
    Clean w (w.cleanupDisabledCloudActions s) := by
  constructor
  · have hsame : s.actions.map (CloudAction.id ∘ fun a ↦ if w.disabled a then Pass.disable a else a) =
        s.actions.map CloudAction.id := List.map_congr_left fun a _ ↦ id_cleaned a
    rw [actions_cleanup hids, List.map_map, hsame]
    exact hids
  · intro a ha hpending
    rw [actions_cleanup hids] at ha
    obtain ⟨row, -, rfl⟩ := List.mem_map.mp ha
    by_cases hdisabled : w.disabled row = true
    · rw [if_pos hdisabled] at hpending
      cases hpending
    · rw [if_neg hdisabled]
      exact Bool.eq_false_of_not_eq_true hdisabled

/-- The cleaned outbox that the next dispatch starts from. -/
def cleaned (w : Pass) (s : Outbox) (n : ℕ) : Outbox := w.cleanupDisabledCloudActions (after w s n)

def pendingIds (t : Outbox) : List ℕ := (pendingActions t).map CloudAction.id

/-- A dispatch lets go of an action that does not wait. -/
def leaves (w : Pass) (t : Outbox) (id : ℕ) : Bool :=
  t.actions.any fun a ↦ decide (a.id = id ∧ ¬Waits w t a)

theorem leaves_eq {t : Outbox} (ht : Clean w t) (ha : a ∈ t.actions) :
    leaves w t a.id = true ↔ ¬Waits w t a := by
  rw [leaves, List.any_eq_true]
  constructor
  · rintro ⟨b, hb, h⟩
    obtain ⟨hid, hwaits⟩ := of_decide_eq_true h
    obtain rfl := List.inj_on_of_nodup_map ht.nodup hb ha hid
    exact hwaits
  · intro h
    exact ⟨a, ha, decide_eq_true ⟨rfl, h⟩⟩

theorem mem_pendingActions {t : Outbox} :
    a ∈ pendingActions t ↔ a ∈ t.actions ∧ a.state = .pending := by
  rw [pendingActions, List.mem_filter, decide_eq_true_eq]

theorem mem_selectActions_iff {t : Outbox} (ht : Clean w t) (ha : a ∈ pendingActions t) :
    a ∈ selectActions t ↔ a.id ∈ batch id selectLimit (pendingIds t) := by
  rw [pendingIds, ← map_batch, List.mem_map]
  constructor
  · intro h
    exact ⟨a, h, rfl⟩
  · rintro ⟨b, hb, hid⟩
    have hmem := (mem_pendingActions.mp (mem_of_mem_batch hb)).1
    obtain rfl := List.inj_on_of_nodup_map ht.nodup hmem (mem_pendingActions.mp ha).1 hid
    exact hb

/-- What a dispatch and the next cleanup make of a row of a cleaned outbox. -/
def nextRow (w : Pass) (t : Outbox) (a : CloudAction) : CloudAction :=
  let a := if a ∈ selectActions t then w.handleIn t a else a
  if w.disabled a then Pass.disable a else a

theorem nextRow_of_pending {t : Outbox} (ht : Clean w t) (ha : a ∈ pendingActions t) :
    SameWork a (nextRow w t a) ∧ ((nextRow w t a).state = .pending ↔
      ¬(a ∈ selectActions t ∧ ¬Waits w t a)) := by
  obtain ⟨hmem, hpending⟩ := mem_pendingActions.mp ha
  have henabled (b : CloudAction) (hwork : SameWork a b) (hb : b.state = .pending) :
      w.disabled b = false := by
    have h := ht.enabled a hmem hpending
    unfold Pass.disabled CloudAction.isReset CloudAction.live at h ⊢
    rw [hwork.action, hwork.provider]
    rw [hpending] at h
    rw [hb]
    exact h
  have hsame : SameWork a (if a ∈ selectActions t then w.handleIn t a else a) := by
    split_ifs
    · exact sameWork_handleIn
    · exact ⟨rfl, rfl, rfl, rfl, fun _ ↦ rfl⟩
  have hstate : (if a ∈ selectActions t then w.handleIn t a else a).state = .pending ↔
      ¬(a ∈ selectActions t ∧ ¬Waits w t a) := by
    split_ifs with hselected
    · rw [state_handleIn hpending]
      simp [hselected]
    · exact iff_of_true hpending fun h ↦ hselected h.1
  unfold nextRow
  dsimp only
  by_cases hdisabled : w.disabled (if a ∈ selectActions t then w.handleIn t a else a) = true
  · rw [if_pos hdisabled]
    have hnot : (if a ∈ selectActions t then w.handleIn t a else a).state ≠ .pending := fun hb ↦ by
      rw [henabled _ hsame hb] at hdisabled
      cases hdisabled
    have hnever : ActionState.cancelled ≠ .pending := by decide
    refine ⟨hsame.trans ⟨rfl, rfl, rfl, rfl, fun h ↦ absurd h hnever⟩ fun h ↦ absurd h hnever, ?_⟩
    exact iff_of_false hnever fun h ↦ hnot (hstate.mpr h)
  · rw [if_neg hdisabled]
    exact ⟨hsame, hstate⟩

theorem nextRow_of_not_pending {t : Outbox} (hstate : a.state ≠ .pending) :
    (nextRow w t a).id = a.id ∧ (nextRow w t a).state ≠ .pending := by
  have hnot : a ∉ selectActions t := fun h ↦
    hstate (mem_pendingActions.mp (mem_of_mem_batch h)).2
  unfold nextRow
  dsimp only
  rw [if_neg hnot]
  split_ifs
  · exact ⟨rfl, fun h ↦ by cases h⟩
  · exact ⟨rfl, hstate⟩

theorem id_nextRow {t : Outbox} (ht : Clean w t) (ha : a ∈ t.actions) : (nextRow w t a).id = a.id := by
  by_cases hstate : a.state = .pending
  · exact (nextRow_of_pending ht (mem_pendingActions.mpr ⟨ha, hstate⟩)).1.id
  · exact (nextRow_of_not_pending hstate).1

theorem nodup_dispatchBatch {t : Outbox} (ht : Clean w t) :
    ((w.dispatchBatch t).actions.map CloudAction.id).Nodup := by
  have hsame : t.actions.map (CloudAction.id ∘ fun a ↦ if a ∈ selectActions t then w.handleIn t a
      else a) = t.actions.map CloudAction.id := by
    refine List.map_congr_left fun a _ ↦ ?_
    rw [Function.comp_apply]
    split_ifs
    · exact sameWork_handleIn.id
    · rfl
  rw [actions_dispatchBatch, List.map_map, hsame]
  exact ht.nodup

theorem clean_cleaned (hids : (s.actions.map CloudAction.id).Nodup) (n : ℕ) :
    Clean w (cleaned w s n) := by
  induction n with
  | zero => exact clean_cleanup hids
  | succ n ih => exact clean_cleanup (nodup_dispatchBatch ih)

theorem actions_cleaned_succ (hids : (s.actions.map CloudAction.id).Nodup) (n : ℕ) :
    (cleaned w s (n + 1)).actions = (cleaned w s n).actions.map (nextRow w (cleaned w s n)) := by
  change (w.cleanupDisabledCloudActions (w.dispatchBatch (cleaned w s n))).actions = _
  rw [actions_cleanup (nodup_dispatchBatch (clean_cleaned hids n)), actions_dispatchBatch,
    List.map_map]
  rfl

theorem isSome_deletion_cleaned (n id : ℕ) :
    ((cleaned w s n).deletion id).isSome = (s.deletion id).isSome := by
  rw [cleaned, isSome_deletion_cleanup]
  induction n with
  | zero => rfl
  | succ n ih =>
    rw [after, Pass.dispatchCloudActions, isSome_deletion_dispatchBatch, isSome_deletion_cleanup, ih]

/-- What waits after some dispatches was queued as it is. -/
theorem exists_sameWork (hids : (s.actions.map CloudAction.id).Nodup) {n : ℕ}
    (ha : a ∈ pendingActions (cleaned w s n)) :
    ∃ queued ∈ pendingActions (cleaned w s 0), SameWork queued a := by
  induction n generalizing a with
  | zero => exact ⟨a, ha, rfl, rfl, rfl, rfl, fun _ ↦ rfl⟩
  | succ n ih =>
    obtain ⟨hmem, hpending⟩ := mem_pendingActions.mp ha
    rw [actions_cleaned_succ hids] at hmem
    obtain ⟨b, hb, rfl⟩ := List.mem_map.mp hmem
    by_cases hstate : b.state = .pending
    · have hb' := mem_pendingActions.mpr ⟨hb, hstate⟩
      obtain ⟨queued, hqueued, hwork⟩ := ih hb'
      exact ⟨queued, hqueued, hwork.trans (nextRow_of_pending (clean_cleaned hids n) hb').1
        fun _ ↦ hstate⟩
    · exact absurd hpending (nextRow_of_not_pending hstate).2

theorem leaves_cleaned (hids : (s.actions.map CloudAction.id).Nodup) {n : ℕ}
    (ha : a ∈ pendingActions (cleaned w s n)) :
    leaves w (cleaned w s n) a.id = leaves w (cleaned w s 0) a.id := by
  obtain ⟨hmem, hpending⟩ := mem_pendingActions.mp ha
  obtain ⟨queued, hqueued, hwork⟩ := exists_sameWork hids ha
  have hsame (id : ℕ) : ((cleaned w s n).deletion id).isSome =
      ((cleaned w s 0).deletion id).isSome :=
    (isSome_deletion_cleaned n id).trans (isSome_deletion_cleaned 0 id).symm
  rw [Bool.eq_iff_iff, leaves_eq (clean_cleaned hids n) hmem, hwork.id,
    leaves_eq (clean_cleaned hids 0) (mem_pendingActions.mp hqueued).1,
    hwork.waits_iff hpending hsame]

theorem pendingIds_cleaned_succ (hids : (s.actions.map CloudAction.id).Nodup) (n : ℕ) :
    pendingIds (cleaned w s (n + 1)) =
      workOff selectLimit (leaves w (cleaned w s 0)) (pendingIds (cleaned w s n)) := by
  have ht := clean_cleaned (w := w) hids n
  have hrow (a : CloudAction) (ha : a ∈ (cleaned w s n).actions) :
      decide ((nextRow w (cleaned w s n) a).state = .pending) =
        (decide (a.state = .pending) && !(decide (a.id ∈ batch id selectLimit
          (pendingIds (cleaned w s n))) && leaves w (cleaned w s 0) a.id)) := by
    by_cases hstate : a.state = .pending
    · have ha' := mem_pendingActions.mpr ⟨ha, hstate⟩
      rw [Bool.eq_iff_iff, decide_eq_true_eq, (nextRow_of_pending ht ha').2,
        mem_selectActions_iff ht ha', ← leaves_eq ht ha, leaves_cleaned hids ha']
      simp [hstate, imp_iff_not_or]
    · rw [decide_eq_false (nextRow_of_not_pending hstate).2, decide_eq_false hstate, Bool.false_and]
  rw [pendingIds, pendingActions, actions_cleaned_succ hids, List.filter_map, List.map_map, workOff,
    pendingIds, List.filter_map, pendingActions, List.filter_filter]
  have hfilter : (cleaned w s n).actions.filter
      ((fun a ↦ decide (a.state = .pending)) ∘ nextRow w (cleaned w s n)) =
      (cleaned w s n).actions.filter fun a ↦ ((fun i ↦ !(decide (i ∈ batch id selectLimit
        (pendingIds (cleaned w s n))) && leaves w (cleaned w s 0) i)) ∘ CloudAction.id) a &&
          decide (a.state = .pending) := by
    refine List.filter_congr fun a ha ↦ ?_
    rw [Function.comp_apply, hrow a ha, Bool.and_comm]
    rfl
  rw [hfilter]
  exact List.map_congr_left fun a ha ↦ id_nextRow ht (List.mem_of_mem_filter ha)

theorem pendingIds_cleaned (hids : (s.actions.map CloudAction.id).Nodup) (n : ℕ) :
    pendingIds (cleaned w s n) =
      worked selectLimit (leaves w (cleaned w s 0)) (pendingIds (cleaned w s 0)) n := by
  induction n with
  | zero => rfl
  | succ n ih => rw [pendingIds_cleaned_succ hids, ih, worked]

/-- The actions before a given one that wait for ever, or that do not. -/
def waitingBefore (w : Pass) (s : Outbox) (a : CloudAction) : List CloudAction :=
  (pendingActions (cleaned w s 0)).filter fun b ↦ decide (Waits w s b ∧ b.id < a.id)

def leavingBefore (w : Pass) (s : Outbox) (a : CloudAction) : List CloudAction :=
  (pendingActions (cleaned w s 0)).filter fun b ↦ decide (¬Waits w s b ∧ b.id < a.id)

theorem waits_cleaned_zero : Waits w (cleaned w s 0) b ↔ Waits w s b := by
  unfold Waits
  rw [isSome_deletion_cleaned]

theorem card_before (hids : (s.actions.map CloudAction.id).Nodup) (p : ℕ → Bool) (q : CloudAction → Bool)
    (h : ∀ b ∈ pendingActions (cleaned w s 0), q b = (p b.id && decide (b.id < a.id))) :
    (before (pendingIds (cleaned w s 0)) p a.id).card =
      ((pendingActions (cleaned w s 0)).filter q).length := by
  have hset : before (pendingIds (cleaned w s 0)) p a.id =
      (((pendingActions (cleaned w s 0)).filter q).map CloudAction.id).toFinset := by
    ext id
    simp only [before, Finset.mem_filter, List.mem_toFinset, pendingIds, List.mem_map,
      List.mem_filter]
    constructor
    · rintro ⟨⟨b, hb, rfl⟩, hlt, hp⟩
      exact ⟨b, ⟨hb, by rw [h b hb, hp, decide_eq_true hlt]; rfl⟩, rfl⟩
    · rintro ⟨b, ⟨hb, hq⟩, rfl⟩
      rw [h b hb, Bool.and_eq_true, decide_eq_true_eq] at hq
      exact ⟨⟨b, hb, rfl⟩, hq.2, hq.1⟩
  have hnodup : (((pendingActions (cleaned w s 0)).filter q).map CloudAction.id).Nodup :=
    (clean_cleaned hids 0).nodup.sublist ((List.filter_sublist.trans List.filter_sublist).map _)
  rw [hset, List.toFinset_card_of_nodup hnodup, List.length_map]

theorem card_waitingBefore (hids : (s.actions.map CloudAction.id).Nodup) (a : CloudAction) :
    (before (pendingIds (cleaned w s 0)) (fun id ↦ !leaves w (cleaned w s 0) id) a.id).card =
      (waitingBefore w s a).length := by
  refine card_before hids _ _ fun b hb ↦ ?_
  have hleaves := leaves_eq (clean_cleaned (w := w) hids 0) (mem_pendingActions.mp hb).1
  rw [waits_cleaned_zero] at hleaves
  rw [Bool.eq_iff_iff, decide_eq_true_eq, Bool.and_eq_true, decide_eq_true_eq, Bool.not_eq_true',
    ← Bool.not_eq_true, hleaves, not_not]

theorem card_leavingBefore (hids : (s.actions.map CloudAction.id).Nodup) (a : CloudAction) :
    (before (pendingIds (cleaned w s 0)) (leaves w (cleaned w s 0)) a.id).card =
      (leavingBefore w s a).length := by
  refine card_before hids _ _ fun b hb ↦ ?_
  have hleaves := leaves_eq (clean_cleaned (w := w) hids 0) (mem_pendingActions.mp hb).1
  rw [waits_cleaned_zero] at hleaves
  rw [Bool.eq_iff_iff, decide_eq_true_eq, Bool.and_eq_true, decide_eq_true_eq, hleaves]

/-- An action that has been acknowledged or cancelled. -/
def Settled (w : Pass) (s : Outbox) (a : CloudAction) (n : ℕ) : Prop :=
  ∃ a' ∈ (after w s n).actions, a'.id = a.id ∧ a'.state ≠ .pending

theorem settled_of_reached (hids : (s.actions.map CloudAction.id).Nodup)
    (ha : a ∈ pendingActions (cleaned w s 0)) (hgoes : ¬Waits w s a) {n : ℕ}
    (h : a.id ∈ batch id selectLimit (pendingIds (cleaned w s n))) : Settled w s a (n + 1) := by
  have ht := clean_cleaned (w := w) hids n
  obtain ⟨b, hb, hid⟩ := List.mem_map.mp (mem_of_mem_batch h)
  obtain ⟨hmem, hpending⟩ := mem_pendingActions.mp hb
  have hselected : b ∈ selectActions (cleaned w s n) := (mem_selectActions_iff ht hb).mpr (hid ▸ h)
  have hleaves : ¬Waits w (cleaned w s n) b := by
    rw [← leaves_eq ht hmem, leaves_cleaned hids hb, hid,
      leaves_eq (clean_cleaned hids 0) (mem_pendingActions.mp ha).1, waits_cleaned_zero]
    exact hgoes
  refine ⟨w.handleIn (cleaned w s n) b, ?_, sameWork_handleIn.id.trans hid,
    fun hstate ↦ hleaves ((state_handleIn hpending).mp hstate)⟩
  change _ ∈ (w.dispatchBatch (cleaned w s n)).actions
  rw [actions_dispatchBatch]
  exact List.mem_map.mpr ⟨b, hmem, if_pos hselected⟩

theorem nodup_after (hids : (s.actions.map CloudAction.id).Nodup) (n : ℕ) :
    ((after w s n).actions.map CloudAction.id).Nodup := by
  cases n with
  | zero => exact hids
  | succ n => exact nodup_dispatchBatch (clean_cleaned hids n)

theorem reached_of_settled (hids : (s.actions.map CloudAction.id).Nodup)
    (ha : a ∈ pendingActions (cleaned w s 0)) {n : ℕ} (h : Settled w s a n) :
    ∃ m, a.id ∈ batch id selectLimit (pendingIds (cleaned w s m)) := by
  obtain ⟨a', hmem, hid, hstate⟩ := h
  by_contra hnever
  have hstands : a.id ∈ pendingIds (cleaned w s n) := by
    rw [pendingIds_cleaned hids]
    refine mem_worked (List.mem_map_of_mem ha) (.inr fun m _ hm ↦ hnever ⟨m, ?_⟩)
    rw [pendingIds_cleaned hids]
    exact hm
  obtain ⟨b, hb, hid'⟩ := List.mem_map.mp hstands
  obtain ⟨hmem', hpending⟩ := mem_pendingActions.mp hb
  rw [cleaned, actions_cleanup (nodup_after hids n)] at hmem'
  obtain ⟨row, hrow, rfl⟩ := List.mem_map.mp hmem'
  obtain rfl : row = a' := List.inj_on_of_nodup_map (nodup_after hids n) hrow hmem
    ((id_cleaned row).symm.trans (hid'.trans hid.symm))
  split_ifs at hpending with hdisabled
  · cases hpending
  · exact hstate hpending

/-- An action that its tracker would let go is settled exactly when the actions before it that wait
for ever leave a place in the batch, and then before long. -/
theorem settled_iff (hids : (s.actions.map CloudAction.id).Nodup)
    (ha : a ∈ pendingActions (w.cleanupDisabledCloudActions s)) (hgoes : ¬Waits w s a) :
    ((∃ n, Settled w s a n) ↔ (waitingBefore w s a).length < selectLimit) ∧
      ((waitingBefore w s a).length < selectLimit →
        ∃ n ≤ (leavingBefore w s a).length / (selectLimit - (waitingBefore w s a).length),
          Settled w s a (n + 1)) := by
  have hq : (pendingIds (cleaned w s 0)).Nodup :=
    (clean_cleaned hids 0).nodup.sublist (List.filter_sublist.map _)
  have hi : a.id ∈ pendingIds (cleaned w s 0) := List.mem_map_of_mem ha
  have hreached : (∃ n, a.id ∈ batch id selectLimit (pendingIds (cleaned w s n))) ↔
      (waitingBefore w s a).length < selectLimit := by
    rw [← card_waitingBefore hids a, ← reached_iff hq hi]
    exact exists_congr fun n ↦ by rw [pendingIds_cleaned hids n]
  refine ⟨⟨fun ⟨n, hn⟩ ↦ hreached.mp (reached_of_settled hids ha hn), fun h ↦ ?_⟩, fun h ↦ ?_⟩
  · obtain ⟨n, hn⟩ := hreached.mpr h
    exact ⟨n + 1, settled_of_reached hids ha hgoes hn⟩
  · rw [← card_waitingBefore hids a] at h ⊢
    rw [← card_leavingBefore hids a]
    obtain ⟨n, hle, hn⟩ := exists_reached hq hi h
    rw [← pendingIds_cleaned hids] at hn
    exact ⟨n, hle, settled_of_reached hids ha hgoes hn⟩

/-- Two films deleted here: the first waits for a merge, the second is removed at once. -/
def mergingPass : Pass where
  settings := some ⟨true, true, false, false, false, true, true, false, false, false, false, false,
    false, false⟩
  tracked _ := false
  approved p := decide (p = .trakt)
  answer _ _ := none

def mergingOutbox : Outbox where
  actions := [⟨1, .simkl, 7, "reset", some ⟨.movie, some 70, []⟩, .pending, 0, none⟩,
    ⟨2, .trakt, 7, "reset", some ⟨.movie, some 70, []⟩, .pending, 0, none⟩]
  deletions := [⟨7, 0, [Provider.simkl.target, Provider.trakt.target]⟩]
  reviews := [⟨7, true, .pending⟩]

theorem settled_iff_merging :
    ((∃ n, Settled mergingPass mergingOutbox
        ⟨2, .trakt, 7, "reset", some ⟨.movie, some 70, []⟩, .pending, 0, none⟩ n) ↔ 1 < selectLimit) ∧
      (1 < selectLimit → ∃ n ≤ 0 / (selectLimit - 1), Settled mergingPass mergingOutbox
        ⟨2, .trakt, 7, "reset", some ⟨.movie, some 70, []⟩, .pending, 0, none⟩ (n + 1)) :=
  settled_iff (w := mergingPass) (s := mergingOutbox) (by decide) (by decide +kernel)
    (by decide +kernel)

end queue

section tombstones

variable {w : Pass} {s s' s'' : Outbox} {id mediaId : ℕ} {provider : Provider} {target : Target}
  {lets lets' : Provider → Prop}

/-- The targets that the tombstone of a title still waits for. -/
def Outbox.waitsFor (s : Outbox) (mediaId : ℕ) : List Target :=
  (s.deletion mediaId).elim [] TrackingDeletion.pendingConnections

/-- A deletion whose review says that it went through. -/
def Outbox.Confirmed (s : Outbox) (mediaId : ℕ) : Prop :=
  ∃ review ∈ s.reviews, review.mediaId = mediaId ∧ review.outboundPending = true ∧
    review.state = .confirmed

instance : Decidable (s.Confirmed mediaId) := by
  unfold Outbox.Confirmed
  infer_instance

/-- A tracker answers every removal of a selected reset of the title without an error. -/
def Acknowledges (w : Pass) (t : Outbox) (provider : Provider) (mediaId : ℕ) : Prop :=
  ∃ a ∈ selectActions t, a.mediaId = mediaId ∧ a.provider = provider ∧ a.isReset = true ∧
    w.tracked mediaId = false ∧ w.approved provider = true ∧
    ∃ payload tmdbId, a.payload = some payload ∧ payload.tmdbId = some tmdbId ∧
      ∀ call ∈ resetCalls provider payload tmdbId, w.answer a.id call = none

/-- A change of the outbox that takes trackers off the tombstone of a title for a reason only, and
says that the deletion went through only once the tombstone waits for nothing. -/
structure Drops (mediaId : ℕ) (lets : Provider → Prop) (s s' : Outbox) : Prop where
  subset : s'.waitsFor mediaId ⊆ s.waitsFor mediaId
  reason : ∀ target ∈ s.waitsFor mediaId, target ∉ s'.waitsFor mediaId →
    ∃ provider, provider.target = target ∧ lets provider
  confirmed : s'.Confirmed mediaId → s.Confirmed mediaId ∨ s'.waitsFor mediaId = []

theorem Drops.of_eq (hdeletions : s'.deletions = s.deletions) (hreviews : s'.reviews = s.reviews) :
    Drops mediaId lets s s' := by
  have hwaits : s'.waitsFor mediaId = s.waitsFor mediaId := by
    unfold Outbox.waitsFor Outbox.deletion
    rw [hdeletions]
  refine ⟨fun target h ↦ hwaits ▸ h, fun target h hnot ↦ absurd (hwaits ▸ h) hnot, fun h ↦ .inl ?_⟩
  unfold Outbox.Confirmed at h ⊢
  rw [← hreviews]
  exact h

theorem drops_actions (actions : List CloudAction) :
    Drops mediaId lets s { s with actions } :=
  .of_eq rfl rfl

theorem Drops.trans (h : Drops mediaId lets s s') (h' : Drops mediaId lets s' s'') :
    Drops mediaId lets s s'' := by
  refine ⟨List.Subset.trans h'.subset h.subset, fun target hmem hnot ↦ ?_, fun hconfirmed ↦ ?_⟩
  · by_cases hmem' : target ∈ s'.waitsFor mediaId
    · exact h'.reason target hmem' hnot
    · exact h.reason target hmem hmem'
  · obtain hconfirmed' | hnone := h'.confirmed hconfirmed
    · refine (h.confirmed hconfirmed').imp_right fun hnone ↦ List.subset_nil.mp ?_
      rw [← hnone]
      exact h'.subset
    · exact .inr hnone

theorem Drops.mono (h : Drops mediaId lets s s') (hlets : ∀ p, lets p → lets' p) :
    Drops mediaId lets' s s' := by
  refine ⟨h.subset, fun target hmem hnot ↦ ?_, h.confirmed⟩
  obtain ⟨provider, htarget, hprovider⟩ := h.reason target hmem hnot
  exact ⟨provider, htarget, hlets provider hprovider⟩

theorem Drops.foldl {α : Type*} {step : Outbox → α → Outbox} {l : List α}
    (h : ∀ s, ∀ x ∈ l, Drops mediaId lets s (step s x)) (s : Outbox) :
    Drops mediaId lets s (l.foldl step s) := by
  induction l generalizing s with
  | nil => exact .of_eq rfl rfl
  | cons x rest ih =>
    exact (h s x List.mem_cons_self).trans
      (ih (fun s y hy ↦ h s y (List.mem_cons_of_mem x hy)) (step s x))

theorem waitsFor_removeTarget : (s.removeTarget id provider).waitsFor mediaId =
    if mediaId = id then (s.waitsFor mediaId).filter fun target ↦ decide (target ≠ provider.target)
    else s.waitsFor mediaId := by
  unfold Outbox.waitsFor
  rw [deletion_removeTarget]
  cases hfind : s.deletion mediaId with
  | none => split_ifs <;> rfl
  | some marker =>
    have hmarker : marker.mediaId = mediaId := by simpa using List.find?_some hfind
    rw [Option.map_some, Option.elim_some, Option.elim_some, hmarker]
    split_ifs <;> rfl

theorem drops_removeTarget (hlets : mediaId = id → lets provider) :
    Drops mediaId lets s (s.removeTarget id provider) := by
  refine ⟨?_, fun target hmem hnot ↦ ?_, .inl⟩
  · rw [waitsFor_removeTarget]
    split_ifs
    · exact List.filter_subset_self _
    · exact List.Subset.refl _
  · rw [waitsFor_removeTarget] at hnot
    split_ifs at hnot with hid
    · refine ⟨provider, ?_, hlets hid⟩
      by_contra hne
      exact hnot (List.mem_filter.mpr ⟨hmem, decide_eq_true (Ne.symm hne)⟩)
    · exact absurd hmem hnot

theorem waitsFor_of_settled (h : s.settled mediaId = true) : s.waitsFor mediaId = [] := by
  unfold Outbox.settled at h
  unfold Outbox.waitsFor
  cases hmarker : s.deletion mediaId with
  | none => rfl
  | some marker => simpa [hmarker] using h

theorem drops_closeReviews {p : SyncReview → Bool} {state : ReviewState}
    (h : state = .confirmed → s.settled id = true) :
    Drops mediaId lets s (s.closeReviews id p state) := by
  refine ⟨List.Subset.refl _, fun target hmem hnot ↦ absurd hmem hnot, fun hconfirmed ↦ ?_⟩
  obtain ⟨review, hmem, hid, hpending, hstate⟩ := hconfirmed
  obtain ⟨row, hrow, rfl⟩ := List.mem_map.mp hmem
  split_ifs at hid hpending hstate with hcloses
  · obtain rfl : row.mediaId = mediaId := hid
    refine .inr (waitsFor_of_settled ?_)
    rw [hcloses.1]
    exact h hstate
  · exact .inl ⟨row, hrow, hid, hpending, hstate⟩

theorem drops_settleMarkerTarget (hlets : mediaId = id → lets provider) :
    Drops mediaId lets s (settleMarkerTarget s id provider) := by
  unfold settleMarkerTarget
  split_ifs
  · exact .of_eq rfl rfl
  · dsimp only
    split_ifs
    · exact (drops_removeTarget hlets).trans (drops_closeReviews fun h ↦ by cases h)
    · exact drops_removeTarget hlets

theorem drops_acknowledge {a : CloudAction} (hlets : mediaId = a.mediaId → lets a.provider) :
    Drops mediaId lets s (Pass.acknowledge s a) := by
  unfold Pass.acknowledge
  dsimp only
  split_ifs with hsettled
  · exact (drops_removeTarget hlets).trans (drops_closeReviews fun _ ↦ hsettled)
  · exact drops_removeTarget hlets

/-- A cleanup takes only the trackers that take no writes off a tombstone. -/
theorem drops_cleanup :
    Drops mediaId (fun p ↦ w.enabled p = false) s (w.cleanupDisabledCloudActions s) := by
  unfold Pass.cleanupDisabledCloudActions
  dsimp only
  refine Drops.trans (Drops.foldl (fun s a _ ↦ ?_) s) (Drops.foldl (fun s listed _ ↦ ?_) _)
  · unfold Pass.cancelDisabled
    split_ifs with hdisabled
    · refine (drops_actions _).trans (drops_settleMarkerTarget fun _ ↦ ?_)
      rw [Pass.disabled, Bool.and_eq_true, Bool.not_eq_true'] at hdisabled
      exact hdisabled.2
    · exact .of_eq rfl rfl
  · unfold Pass.settleListed
    split
    · split_ifs with henabled
      · exact .of_eq rfl rfl
      · exact drops_settleMarkerTarget fun _ ↦ Bool.eq_false_of_not_eq_true henabled
    · exact .of_eq rfl rfl

theorem applyReset_eq_none {a : CloudAction} (h : w.applyReset a = none) :
    ∃ payload tmdbId, a.payload = some payload ∧ payload.tmdbId = some tmdbId ∧
      ∀ call ∈ resetCalls a.provider payload tmdbId, w.answer a.id call = none := by
  unfold Pass.applyReset at h
  cases hpayload : a.payload with
  | none =>
    rw [hpayload] at h
    cases hsettings : w.settings <;> simp [hsettings] at h
  | some payload =>
    cases htmdb : payload.tmdbId with
    | none =>
      rw [hpayload, Option.bind_some, htmdb] at h
      cases hsettings : w.settings <;> simp [hsettings] at h
    | some tmdbId =>
      refine ⟨payload, tmdbId, rfl, htmdb, fun call hcall ↦ ?_⟩
      rw [hpayload, Option.bind_some, htmdb] at h
      cases hsettings : w.settings with
      | none => simp [hsettings] at h
      | some settings =>
        cases tmdbId with
        | zero => simp [hsettings] at h
        | succ n =>
          simp only [hsettings, List.findSome?_eq_none_iff] at h
          exact h call hcall

theorem acknowledges_of_applied {a : CloudAction} (hselected : a ∈ selectActions s)
    (happlied : (w.handleIn s a).state = .applied) : Acknowledges w s a.provider a.mediaId := by
  have hpending := (mem_pendingActions.mp (mem_of_mem_batch hselected)).2
  unfold Pass.handleIn Pass.handle at happlied
  split_ifs at happlied with hcancel happroved
  · cases happlied
  · rw [not_or, not_or, not_not, not_not, Bool.not_eq_true] at hcancel
    refine ⟨a, hselected, rfl, rfl, hcancel.2.2, hcancel.1, happroved, ?_⟩
    cases happly : w.applyReset a with
    | none => exact applyReset_eq_none happly
    | some error =>
      rw [happly] at happlied
      rw [show a.state = .applied from happlied] at hpending
      cases hpending
  · rw [hpending] at happlied
    cases happlied

theorem drops_dispatchBatch :
    Drops mediaId (fun p ↦ Acknowledges w s p mediaId) s (w.dispatchBatch s) := by
  unfold Pass.dispatchBatch
  dsimp only
  refine (drops_actions _).trans (Drops.foldl (fun t a ha ↦ ?_) _)
  obtain ⟨hselected, happlied⟩ := List.mem_filter.mp ha
  refine drops_acknowledge fun hid ↦ ?_
  rw [hid]
  exact acknowledges_of_applied hselected (of_decide_eq_true happlied)

/-- A tracker that takes no writes, or that acknowledges the reset of the title. -/
def LetsGo (mediaId : ℕ) (provider : Provider) (s : Outbox) (w : Pass) : Prop :=
  w.enabled provider = false ∨
    Acknowledges w (w.cleanupDisabledCloudActions s) provider mediaId

theorem drops_dispatchCloudActions :
    Drops mediaId (LetsGo mediaId · s w) s (w.dispatchCloudActions s) :=
  (drops_cleanup.mono fun _ ↦ .inl).trans (drops_dispatchBatch.mono fun _ ↦ .inr)

/-- A tombstone goes on waiting for a target until its tracker lets go of it. -/
theorem forgotten {passes : List Pass} (hlisted : target ∈ s.waitsFor mediaId)
    (hgone : target ∉ (passes.foldl (fun s w ↦ w.dispatchCloudActions s) s).waitsFor mediaId) :
    ∃ provider, provider.target = target ∧
      Sometime (fun s w ↦ w.dispatchCloudActions s) (LetsGo mediaId provider) s passes := by
  induction passes generalizing s with
  | nil => exact absurd hlisted hgone
  | cons w rest ih =>
    by_cases hmem : target ∈ (w.dispatchCloudActions s).waitsFor mediaId
    · obtain ⟨provider, htarget, hlets⟩ := ih hmem hgone
      exact ⟨provider, htarget, .inr hlets⟩
    · obtain ⟨provider, htarget, hlets⟩ := drops_dispatchCloudActions.reason target hlisted hmem
      exact ⟨provider, htarget, .inl hlets⟩

/-- A review says that a deletion went through only when each target that its tombstone waited for
has been let go of. -/
theorem confirmed_only_after {passes : List Pass} (hnew : ¬s.Confirmed mediaId)
    (hconfirmed : (passes.foldl (fun s w ↦ w.dispatchCloudActions s) s).Confirmed mediaId)
    (hlisted : target ∈ s.waitsFor mediaId) :
    ∃ provider, provider.target = target ∧
      Sometime (fun s w ↦ w.dispatchCloudActions s) (LetsGo mediaId provider) s passes := by
  have hsettled : (passes.foldl (fun s w ↦ w.dispatchCloudActions s) s).waitsFor mediaId = [] := by
    refine invariant (I := fun s : Outbox ↦ s.Confirmed mediaId → s.waitsFor mediaId = [])
      (fun h ↦ absurd h hnew) (fun t w ht hafter ↦ ?_) hconfirmed
    · have hdrops : Drops mediaId (LetsGo mediaId · t w) t (w.dispatchCloudActions t) :=
        drops_dispatchCloudActions
      obtain hbefore | hnone := hdrops.confirmed hafter
      · exact List.subset_nil.mp (ht hbefore ▸ hdrops.subset)
      · exact hnone
  refine forgotten hlisted ?_
  rw [hsettled]
  exact List.not_mem_nil

/-- The merge that the first film waited for is settled. -/
def mergedPass : Pass := { mergingPass with approved := fun _ ↦ true }

theorem confirmed_only_after_merged :
    ∃ provider, provider.target = Provider.simkl.target ∧
      Sometime (fun s w ↦ w.dispatchCloudActions s) (LetsGo 7 provider) mergingOutbox
        [mergingPass, mergedPass] :=
  confirmed_only_after (by decide +kernel) (by decide +kernel) (by decide +kernel)

end tombstones

end AnyList.Delivery.CloudActions
