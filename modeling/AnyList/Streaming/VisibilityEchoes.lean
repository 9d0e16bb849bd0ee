import AnyList.Streaming.Visibility

namespace AnyList.Streaming

open AnyList.Library AnyList.Library.Members
open AnyList.Reconciliation.Watches (Status)

section keys

variable (reading : Reading) (cat : Catalogue) (conn : Connection) (previous : Stored)
  (snap : Snapshot)

/-- The keys a known surface reports for the first time. -/
def newlyHidden (surface : Surface) : List String :=
  match observedVisibility reading conn snap surface, previous.nuvioVisibility surface with
  | some current, some hidden => current.filter fun key ↦ decide (key ∉ hidden)
  | _, _ => []

/-- AnyList has hidden the key itself. -/
def isMarked (surface : Surface) (key : String) : Bool :=
  (previous.visibilityEcho surface).any fun markers ↦ decide (markers.get key = some true)

def AllEchoed : Prop :=
  ∀ surface, ∀ key ∈ newlyHidden reading conn previous snap surface,
    isMarked previous surface key = true

def isTitled (surface : Surface) (key : String) : Bool :=
  ((dismissalTarget reading previous snap surface key).bind (seriesOrFilm cat)).isSome

/-- An observation takes the key for a dismissal of its owner. -/
def ObservationTakes (surface : Surface) (key : String) : Prop :=
  (surface, key) ∈ ownerDismissals reading conn previous snap ∧
    isTitled reading cat previous snap surface key = true

def PlaybackTakes (surface : Surface) (key : String) : Prop :=
  ∃ value, ((surface, key), value) ∈ playbackDismissals cat conn previous snap

/-- A pull of AnyList's own hides decides nothing, and the observation and the status decision
take the same reported keys for dismissals. -/
structure OwnersDecide : Prop where
  echoed : AllEchoed reading conn previous snap →
    visibilityTmdbIds reading conn previous snap = [] ∧
      playbackDismissals cat conn previous snap = []
  agree : ∀ surface keys, snap.cwVisibility surface = some keys → ∀ key ∈ keys,
    (ObservationTakes reading cat conn previous snap surface (reading.strip key) ↔
      PlaybackTakes cat conn previous snap surface key)

def OwnerHid (surface : Surface) (hidden : List String) (key : String) : Prop :=
  reading.strip key ≠ "" ∧ reading.strip key ∉ hidden ∧
    isMarked previous surface (reading.strip key) = false

def IsCompletedFilm (tmdbId : Int) (base : String) : Prop :=
  (cat.find tmdbId .movie).isSome = true ∧ ∃ row ∈ completedViewing snap, row.contentId = base

/-- A new key of a mapped title of the catalogue, but for a film that the pull completes. -/
def Retold (surface : Surface) (hidden : List String) (key : String) : Prop :=
  key ∉ hidden ∧ ∃ tmdbId, earlyMapping previous snap (baseKey surface key) = some tmdbId ∧
    (seriesOrFilm cat tmdbId).isSome = true ∧ ¬ IsCompletedFilm cat snap tmdbId (baseKey surface key)

/-- Every key of a title that a surface newly reports is one that its owner hid. -/
def EchoFree : Prop :=
  ∀ surface keys hidden, conn.type = .nuvio → snap.cwVisibility surface = some keys →
    previous.nuvioVisibility surface = some hidden → ∀ key ∈ keys,
      (Retold cat previous snap surface hidden key → OwnerHid reading previous surface hidden key ∧
        isTitled reading cat previous snap surface (reading.strip key) = true) ∧
      (OwnerHid reading previous surface hidden key →
        isTitled reading cat previous snap surface (reading.strip key) = true →
        Retold cat previous snap surface hidden key)

end keys

section agreement

variable {reading : Reading} {cat : Catalogue} {conn : Connection} {previous : Stored}
  {snap : Snapshot} {surface : Surface} {key : String}

theorem mem_surfaces (surface : Surface) : surface ∈ surfaces := by
  cases surface <;> decide

theorem isAcknowledged_of_mem {current : List String} (h : key ∈ current) :
    isAcknowledged previous surface current key = isMarked previous surface key := by
  simp [isAcknowledged, isMarked, h]

theorem mem_ownerDismissals :
    (surface, key) ∈ ownerDismissals reading conn previous snap ↔
      key ∈ newlyHidden reading conn previous snap surface ∧
        isMarked previous surface key = false := by
  have hsurface : (surface, key) ∈ ownerDismissals reading conn previous snap ↔
      key ∈ surfaceDismissals reading conn previous snap surface := by
    simp only [ownerDismissals, List.mem_flatMap, List.mem_map, Prod.mk.injEq]
    constructor
    · rintro ⟨surface', _, key', hkey, hs, hk⟩
      rwa [← hs, ← hk]
    · exact fun hkey ↦ ⟨surface, mem_surfaces surface, key, hkey, rfl, rfl⟩
  rw [hsurface, surfaceDismissals, newlyHidden]
  cases observedVisibility reading conn snap surface with
  | none => simp
  | some current =>
    cases previous.nuvioVisibility surface with
    | none => simp
    | some hidden =>
      simp only [List.mem_filter, Bool.and_eq_true, Bool.not_eq_true', and_assoc]
      refine and_congr_right fun hkey ↦ and_congr_right fun _ ↦ ?_
      rw [isAcknowledged_of_mem hkey]

theorem mem_newlyHidden {keys hidden : List String} (hconn : conn.type = .nuvio)
    (hkeys : snap.cwVisibility surface = some keys)
    (hhidden : previous.nuvioVisibility surface = some hidden) :
    key ∈ newlyHidden reading conn previous snap surface ↔
      (∃ raw ∈ keys, reading.strip raw = key) ∧ key ≠ "" ∧ key ∉ hidden := by
  simp only [newlyHidden, observedVisibility, if_pos hconn, hkeys, hhidden, Option.map_some]
  simp only [List.mem_filter, mem_distinct, List.mem_map, decide_eq_true_eq, and_assoc]

theorem isSome_dismissalCandidate :
    (dismissalCandidate cat previous snap surface key).isSome = true ↔
      ∃ tmdbId, earlyMapping previous snap (baseKey surface key) = some tmdbId ∧
        (seriesOrFilm cat tmdbId).isSome = true ∧
        ¬ IsCompletedFilm cat snap tmdbId (baseKey surface key) := by
  simp only [dismissalCandidate]
  cases hmapping : earlyMapping previous snap (baseKey surface key) with
  | none => simp
  | some tmdbId =>
    cases htitle : seriesOrFilm cat tmdbId with
    | none => simp [htitle]
    | some media =>
      have hfilm : IsCompletedFilm cat snap tmdbId (baseKey surface key) ↔
          ((cat.find tmdbId .movie).isSome && (completedViewing snap).any fun row ↦
            decide (row.contentId = baseKey surface key)) = true := by
        simp [IsCompletedFilm]
      simp only [Option.bind_some, htitle, Option.some.injEq, exists_eq_left', Option.isSome_some,
        true_and, hfilm]
      split
      · rename_i hcompleted
        simp [hcompleted]
      · rename_i hcompleted
        simp [hcompleted]

theorem playbackTakes_iff {keys hidden : List String} (hconn : conn.type = .nuvio)
    (hkeys : snap.cwVisibility surface = some keys)
    (hhidden : previous.nuvioVisibility surface = some hidden) (hkey : key ∈ keys) :
    PlaybackTakes cat conn previous snap surface key ↔
      Retold cat previous snap surface hidden key := by
  simp only [PlaybackTakes, playbackDismissals, if_pos hconn, List.mem_flatMap, List.mem_map,
    Prod.exists, Prod.mk.injEq]
  constructor
  · rintro ⟨id, status, surface', _, key', id', status', hmem, ⟨hs, hk⟩, _⟩
    subst hs hk
    simp only [surfaceCandidates, hkeys, hhidden, List.mem_filterMap, List.mem_filter,
      decide_eq_true_eq, Option.map_eq_some_iff, Prod.mk.injEq, Prod.exists] at hmem
    obtain ⟨k, ⟨_, hnew⟩, i, st, hcandidate, hk, _⟩ := hmem
    subst hk
    have hsome := Option.isSome_iff_exists.mpr ⟨_, hcandidate⟩
    exact ⟨hnew, isSome_dismissalCandidate.mp hsome⟩
  · rintro ⟨hnew, hnamed⟩
    obtain ⟨⟨id, status⟩, hvalue⟩ :=
      Option.isSome_iff_exists.mp (isSome_dismissalCandidate.mpr hnamed)
    refine ⟨id, status, surface, mem_surfaces surface, key, id, status, ?_, ⟨rfl, rfl⟩, rfl, rfl⟩
    simp only [surfaceCandidates, hkeys, hhidden, List.mem_filterMap, List.mem_filter,
      decide_eq_true_eq]
    exact ⟨key, ⟨hkey, hnew⟩, by rw [hvalue]; rfl⟩

theorem observationTakes_iff {keys hidden : List String} (hconn : conn.type = .nuvio)
    (hkeys : snap.cwVisibility surface = some keys)
    (hhidden : previous.nuvioVisibility surface = some hidden) (hkey : key ∈ keys) :
    ObservationTakes reading cat conn previous snap surface (reading.strip key) ↔
      OwnerHid reading previous surface hidden key ∧
        isTitled reading cat previous snap surface (reading.strip key) = true := by
  rw [ObservationTakes, mem_ownerDismissals, mem_newlyHidden hconn hkeys hhidden, OwnerHid]
  constructor
  · rintro ⟨⟨⟨_, hne, hnew⟩, hmarked⟩, htitled⟩
    exact ⟨⟨hne, hnew, hmarked⟩, htitled⟩
  · rintro ⟨⟨hne, hnew, hmarked⟩, htitled⟩
    exact ⟨⟨⟨⟨key, hkey, rfl⟩, hne, hnew⟩, hmarked⟩, htitled⟩

theorem newlyHidden_reported (h : key ∈ newlyHidden reading conn previous snap surface) :
    conn.type = .nuvio ∧ ∃ keys hidden, snap.cwVisibility surface = some keys ∧
      previous.nuvioVisibility surface = some hidden := by
  unfold newlyHidden at h
  split at h
  · rename_i current hidden hcurrent hhidden
    unfold observedVisibility at hcurrent
    split at hcurrent
    · obtain ⟨keys, hkeys, _⟩ := Option.map_eq_some_iff.mp hcurrent
      exact ⟨‹_›, keys, hidden, hkeys, hhidden⟩
    · cases hcurrent
  · simp at h

theorem playbackTakes_reported (h : PlaybackTakes cat conn previous snap surface key) :
    conn.type = .nuvio ∧ ∃ keys hidden, snap.cwVisibility surface = some keys ∧
      previous.nuvioVisibility surface = some hidden ∧ key ∈ keys := by
  obtain ⟨value, h⟩ := h
  unfold playbackDismissals at h
  split at h
  swap
  · simp at h
  obtain ⟨surface', _, hmem⟩ := List.mem_flatMap.mp h
  obtain ⟨⟨key', value'⟩, hcandidate, heq⟩ := List.mem_map.mp hmem
  obtain ⟨⟨rfl, rfl⟩, rfl⟩ := by simpa only [Prod.mk.injEq] using heq
  unfold surfaceCandidates at hcandidate
  split at hcandidate
  · rename_i keys hidden hkeys hhidden
    obtain ⟨k, hk, hvalue⟩ := List.mem_filterMap.mp hcandidate
    obtain ⟨_, _, heq⟩ := Option.map_eq_some_iff.mp hvalue
    obtain ⟨rfl, _⟩ := Prod.mk.inj heq
    exact ⟨‹_›, keys, hidden, hkeys, hhidden, List.mem_of_mem_filter hk⟩
  · simp at hcandidate

theorem observationTakes_reported
    (h : ObservationTakes reading cat conn previous snap surface key) :
    conn.type = .nuvio ∧ ∃ keys hidden, snap.cwVisibility surface = some keys ∧
      previous.nuvioVisibility surface = some hidden :=
  newlyHidden_reported (mem_ownerDismissals.mp h.1).1

theorem ownerDismissals_of_allEchoed (h : AllEchoed reading conn previous snap) :
    ownerDismissals reading conn previous snap = [] := by
  rw [List.eq_nil_iff_forall_not_mem]
  intro (surface, key) hmem
  obtain ⟨hkey, hmarked⟩ := mem_ownerDismissals.mp hmem
  rw [h surface key hkey] at hmarked
  cases hmarked

theorem agree_iff :
    (∀ surface keys, snap.cwVisibility surface = some keys → ∀ key ∈ keys,
      (ObservationTakes reading cat conn previous snap surface (reading.strip key) ↔
        PlaybackTakes cat conn previous snap surface key)) ↔
      EchoFree reading cat conn previous snap := by
  constructor
  · intro h surface keys hidden hconn hkeys hhidden key hkey
    have hagree := h surface keys hkeys key hkey
    rw [observationTakes_iff hconn hkeys hhidden hkey,
      playbackTakes_iff hconn hkeys hhidden hkey] at hagree
    exact ⟨hagree.mpr, fun hown htitled ↦ hagree.mp ⟨hown, htitled⟩⟩
  · intro h surface keys hkeys key hkey
    constructor
    · intro htakes
      obtain ⟨hconn, _, hidden, _, hhidden⟩ := observationTakes_reported htakes
      obtain ⟨hown, htitled⟩ := (observationTakes_iff hconn hkeys hhidden hkey).mp htakes
      rw [playbackTakes_iff hconn hkeys hhidden hkey]
      exact (h surface keys hidden hconn hkeys hhidden key hkey).2 hown htitled
    · intro htakes
      obtain ⟨hconn, _, hidden, _, hhidden, _⟩ := playbackTakes_reported htakes
      rw [observationTakes_iff hconn hkeys hhidden hkey]
      exact (h surface keys hidden hconn hkeys hhidden key hkey).1
        ((playbackTakes_iff hconn hkeys hhidden hkey).mp htakes)

/-- Without an echo among them, the titles that a surface newly reports are dismissals to the
observation and to the status decision alike. -/
theorem owners_decide_iff (reading : Reading) (cat : Catalogue) (conn : Connection)
    (stored : Stored) (writes : List (List (Surface × List (String × Bool)))) (snap : Snapshot) :
    OwnersDecide reading cat conn (writes.foldl (recordVisibilityEcho reading) stored) snap ↔
      EchoFree reading cat conn (writes.foldl (recordVisibilityEcho reading) stored) snap := by
  refine ⟨fun h ↦ agree_iff.mp h.agree, fun h ↦ ⟨fun hechoed ↦ ?_, agree_iff.mpr h⟩⟩
  have hnone := ownerDismissals_of_allEchoed hechoed
  refine ⟨by rw [visibilityTmdbIds, hnone]; rfl, List.eq_nil_iff_forall_not_mem.mpr ?_⟩
  intro ((surface, key), value) hmem
  obtain ⟨_, keys, _, hkeys, _, hkey⟩ := playbackTakes_reported ⟨value, hmem⟩
  have htakes := (agree_iff.mpr h surface keys hkeys key hkey).mpr ⟨value, hmem⟩
  rw [ObservationTakes, hnone] at htakes
  exact absurd htakes.1 List.not_mem_nil

/-- The reader of a provider whose keys carry no blanks. -/
def plainReading : Reading where
  clock _ := none
  watchDate _ := none
  isoZ _ := ""
  strip text := text
  int _ := none

def oneSeries : Catalogue where
  media := [⟨7, .series, 100, some "tt1"⟩]
  released _ := none
  refreshed _ := false
  watchedMedia _ _ _ _ := none
  seriesOf _ := none
  titleOf _ := none
  siblings _ := none
  regular _ := []

def nuvioAccount : Connection := ⟨1, "Nuvio", .nuvio, true, true⟩

/-- A series that no surface hides. -/
def nothingHidden : Stored :=
  { Stored.empty with
    mappings := Dict.empty.set "tt1" 100
    nuvioVisibility := fun _ ↦ some [] }

def seriesHidden : Snapshot where
  library := []
  watched := []
  progress := []
  tmdbIds := .empty
  syncPlayback := true
  syncWatched := true
  cwVisibility surface := if surface = .tv then some ["tt1"] else some []

/-- AnyList hides a series, and the next pull of the cycle pauses it. -/
theorem own_hide_decides : ¬ OwnersDecide plainReading oneSeries nuvioAccount
    ([[(Surface.tv, [("tt1", true)])]].foldl (recordVisibilityEcho plainReading) nothingHidden)
    seriesHidden := by
  intro h
  have hechoed : AllEchoed plainReading nuvioAccount
      ([[(Surface.tv, [("tt1", true)])]].foldl (recordVisibilityEcho plainReading) nothingHidden)
      seriesHidden := by
    intro surface
    cases surface <;> decide
  exact absurd (h.echoed hechoed).2 (by decide)

end agreement

end AnyList.Streaming
