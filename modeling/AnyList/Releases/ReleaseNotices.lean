import AnyList.Library.LocalFold
import AnyList.Releases.SeasonReleases

namespace AnyList.Releases

open AnyList.Library

variable {inbox inbox' : Inbox} {scan : Scan} {key key' : ObservationKey}

def releaseKey (key : ObservationKey) : EventKey :=
  ⟨.newSeasonRelease, key.mediaId, key.seasonNumber, none⟩

/-- The release notices a user ever had of a season, dismissed ones included. -/
def releaseCount (notices : List Notice) (key : ObservationKey) : ℕ :=
  notices.countP fun notice ↦
    decide (notice.userId = key.userId ∧ notice.seasonEventKey = releaseKey key)

def stored (inbox : Inbox) (key : ObservationKey) : Observation :=
  (inbox.observations.get key).getD .initial

/-- The day on which a scan finds a season it observes. -/
def observedDay (inbox : Inbox) (scan : Scan) (key : ObservationKey) : Option Int :=
  if key ∈ scan.observationKeys inbox.observations then
    (scan.currentSeason key).map Season.airDate else none

/-- Whether a scan decides that a season is to be announced as released. -/
def Decides (inbox : Inbox) (scan : Scan) (key : ObservationKey) : Prop :=
  ∃ day, observedDay inbox scan key = some day ∧
    ((stored inbox key).transition day scan.today).sendReleaseNotice = true

section upserts

variable {notices : List Notice} {season : Season}

theorem releaseCount_upsert_of_date :
    releaseCount (upsertSeasonNotice notices .newSeasonReleaseDate key' season) key =
      releaseCount notices key := by
  simp only [upsertSeasonNotice]
  split_ifs
  · rfl
  · simp [releaseCount, releaseKey, seasonEventDedupeKey]

theorem releaseCount_upsert_of_ne (hnumber : season.number = key'.seasonNumber) (h : key' ≠ key) :
    releaseCount (upsertSeasonNotice notices .newSeasonRelease key' season) key =
      releaseCount notices key := by
  simp only [upsertSeasonNotice]
  split_ifs
  · rfl
  · rw [releaseCount, List.countP_append, List.countP_singleton, if_neg, Nat.add_zero]
    · rfl
    · simp only [seasonEventDedupeKey, releaseKey, hnumber, EventKey.mk.injEq, decide_eq_true_eq]
      rintro ⟨huser, -, hmedia, hseason, -⟩
      obtain ⟨user, media, number⟩ := key'
      obtain ⟨user', media', number'⟩ := key
      obtain rfl : user = user' := huser
      obtain rfl : media = media' := hmedia
      obtain rfl : number = number' := hseason
      exact h rfl

theorem releaseCount_upsert_self (hnumber : season.number = key.seasonNumber) :
    releaseCount (upsertSeasonNotice notices .newSeasonRelease key season) key =
      max (releaseCount notices key) 1 := by
  have hkey : seasonEventDedupeKey .newSeasonRelease key.mediaId season.number season.airDate =
      releaseKey key := by
    simp [seasonEventDedupeKey, releaseKey, hnumber]
  simp only [upsertSeasonNotice, hkey]
  split_ifs with hany
  · have hpos : 0 < releaseCount notices key := by
      rw [releaseCount, List.countP_pos_iff]
      simpa using hany
    omega
  · have hzero : releaseCount notices key = 0 := by
      rw [releaseCount, List.countP_eq_zero]
      simpa using hany
    rw [hzero, releaseCount, List.countP_append, ← releaseCount, hzero]
    simp

theorem releaseCount_retire : releaseCount (retireDateNotices scan notices) key =
    releaseCount notices key := by
  rw [releaseCount, retireDateNotices, List.countP_map]
  refine List.countP_congr fun notice _ ↦ ?_
  simp only [Function.comp_apply]
  split_ifs <;> rfl

end upserts

section processing

theorem currentSeason_number {season : Season} (h : scan.currentSeason key = some season) :
    season.number = key.seasonNumber := by
  obtain ⟨metadata, -, hseason⟩ := Option.bind_eq_some_iff.mp h
  exact number_of_seasonByNumber hseason

/-- What concerns one season in an inbox. -/
def view (key : ObservationKey) (inbox : Inbox) : Option Observation × ℕ :=
  (inbox.observations.get key, releaseCount inbox.notices key)

theorem view_process_of_ne (h : key' ≠ key) :
    view key (processSeason scan inbox key') = view key inbox := by
  unfold processSeason
  split
  · next season observation hseason hobservation =>
    have hnumber := currentSeason_number hseason
    refine Prod.ext (Dict.get_set_of_ne _ _ h) ?_
    simp only [view]
    split_ifs <;>
      simp only [releaseCount_upsert_of_ne hnumber h, releaseCount_upsert_of_date]
  · rfl

theorem view_process_self {season : Season} {observation : Observation}
    (hseason : scan.currentSeason key = some season)
    (hobservation : inbox.observations.get key = some observation) :
    view key (processSeason scan inbox key) =
      (some (observation.advance season.airDate scan.today),
        if (observation.transition season.airDate scan.today).sendReleaseNotice &&
            (scan.isEligible key && scan.releaseEnabled key.userId)
        then max (releaseCount inbox.notices key) 1 else releaseCount inbox.notices key) := by
  have hnumber := currentSeason_number hseason
  simp only [processSeason, hseason, hobservation]
  refine Prod.ext (Dict.get_set_self _ _ _) ?_
  simp only [view]
  split_ifs <;> simp only [releaseCount_upsert_self hnumber, releaseCount_upsert_of_date]

theorem get_ensureObservations (observations : Dict ObservationKey Observation)
    (keys : List ObservationKey) (key : ObservationKey) :
    (ensureObservations observations keys).get key =
      if key ∈ keys then some ((observations.get key).getD .initial) else observations.get key := by
  induction keys generalizing observations with
  | nil => rfl
  | cons first keys ih =>
    rw [ensureObservations, List.foldl_cons, ← ensureObservations, ih]
    by_cases hfirst : first = key
    · subst hfirst
      cases hget : observations.get first <;> simp [hget]
    · cases hget : observations.get first <;>
        simp [Ne.symm hfirst, Dict.get_set_of_ne _ _ hfirst]

theorem mem_candidates {keys : List ObservationKey} :
    key ∈ scan.candidates keys ↔ key ∈ keys ∧ (scan.currentSeason key).isSome = true := by
  simp only [Scan.candidates, List.mem_flatMap, List.mem_filter, Bool.and_eq_true,
    decide_eq_true_eq]
  constructor
  · rintro ⟨pair, -, hkey, rfl, hseason⟩
    exact ⟨hkey, hseason⟩
  · rintro ⟨hkey, hseason⟩
    refine ⟨key.pair, ?_, hkey, rfl, hseason⟩
    obtain ⟨season, hsome⟩ := Option.isSome_iff_exists.mp hseason
    obtain ⟨metadata, hmetadata, -⟩ := Option.bind_eq_some_iff.mp hsome
    exact Dict.mem_keys.mpr ⟨metadata, hmetadata⟩

theorem nodup_candidates (scan : Scan) {keys : List ObservationKey} (h : keys.Nodup) :
    (scan.candidates keys).Nodup := by
  refine List.nodup_flatMap.mpr ⟨fun pair _ ↦ h.filter _, ?_⟩
  refine scan.metadataByPair.nodup.imp fun hne ↦ ?_
  refine List.disjoint_left.mpr fun k hk hk' ↦ hne ?_
  simp only [List.mem_filter, Bool.and_eq_true, decide_eq_true_eq] at hk hk'
  exact hk.2.1.symm.trans hk'.2.1

theorem view_process_congr (h : view key inbox = view key inbox') :
    view key (processSeason scan inbox key) = view key (processSeason scan inbox' key) := by
  obtain ⟨hget, hcount⟩ := Prod.mk.inj h
  cases hseason : scan.currentSeason key with
  | none => simpa only [processSeason, hseason] using h
  | some season =>
    cases hobservation : inbox.observations.get key with
    | none =>
      simpa only [processSeason, hseason, hobservation, ← hget, hobservation] using h
    | some observation =>
      rw [view_process_self hseason hobservation,
        view_process_self hseason (hget.symm.trans hobservation), hcount]

/-- What a scan does about one season. -/
theorem view_refresh (scan : Scan) (inbox : Inbox) (key : ObservationKey) :
    view key (refreshSeasonReleaseNotifications inbox scan) =
      match observedDay inbox scan key with
      | some day =>
        (some ((stored inbox key).advance day scan.today),
          if ((stored inbox key).transition day scan.today).sendReleaseNotice &&
              (scan.isEligible key && scan.releaseEnabled key.userId)
          then max (releaseCount inbox.notices key) 1 else releaseCount inbox.notices key)
      | none =>
        (if key ∈ scan.observationKeys inbox.observations then some (stored inbox key)
          else inbox.observations.get key, releaseCount inbox.notices key) := by
  have hlocal := LocalFold.foldl_local (f := processSeason scan) (view key) key
    (fun s j hj ↦ view_process_of_ne hj) (fun s s' h ↦ view_process_congr h)
    (nodup_candidates scan (List.nodup_dedup (scan.nextKeys ++
      inbox.observations.keys.filter fun key ↦ (scan.currentSeason key).isSome)))
    { observations := ensureObservations inbox.observations
        (scan.observationKeys inbox.observations)
      notices := retireDateNotices scan inbox.notices }
  refine hlocal.trans ?_
  change (if key ∈ scan.candidates (scan.observationKeys inbox.observations) then _ else _) = _
  simp only [mem_candidates, observedDay]
  by_cases hkey : key ∈ scan.observationKeys inbox.observations
  · have hget := get_ensureObservations inbox.observations
      (scan.observationKeys inbox.observations) key
    rw [if_pos hkey] at hget
    cases hseason : scan.currentSeason key with
    | none =>
      simp only [hkey, if_true, Option.isSome_none, and_false, if_false, Option.map_none,
        Bool.false_eq_true]
      exact Prod.ext hget releaseCount_retire
    | some season =>
      simp only [hkey, if_true, Option.isSome_some, and_self, Option.map_some]
      rw [view_process_self hseason hget, releaseCount_retire]
      rfl
  · have hget := get_ensureObservations inbox.observations
      (scan.observationKeys inbox.observations) key
    rw [if_neg hkey] at hget
    simp only [hkey, false_and, if_false]
    exact Prod.ext hget releaseCount_retire

end processing

end AnyList.Releases
