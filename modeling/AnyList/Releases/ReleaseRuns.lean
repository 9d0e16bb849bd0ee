import AnyList.Library.Runs
import AnyList.Releases.ReleaseNotices

namespace AnyList.Releases

open AnyList.Library.Runs
open AnyList.Reconciliation.Watches (Status)

variable {inbox : Inbox} {scan : Scan} {key : ObservationKey} {day : Int}

/-- Whether a scan finds a season under another date than the stored one, still to come. -/
def Corrects (key : ObservationKey) (inbox : Inbox) (scan : Scan) : Prop :=
  ∃ day, observedDay inbox scan key = some day ∧ scan.today < day ∧
    (stored inbox key).releaseDate ≠ some day

def Announces (key : ObservationKey) (scan : Scan) : Bool :=
  scan.isEligible key && scan.releaseEnabled key.userId

/-- A processed date has come by the day of the last scan. -/
def ProcessedBy (last : Int) (observation : Observation) : Prop :=
  observation.releaseProcessed = true → ∃ day, observation.releaseDate = some day ∧ day ≤ last

section steps

theorem stored_refresh_of_none (h : observedDay inbox scan key = none) :
    stored (refreshSeasonReleaseNotifications inbox scan) key = stored inbox key := by
  have hview := congrArg Prod.fst (view_refresh scan inbox key)
  simp only [h, view] at hview
  rw [stored, hview]
  split_ifs <;> rfl

theorem stored_refresh_of_some (h : observedDay inbox scan key = some day) :
    stored (refreshSeasonReleaseNotifications inbox scan) key =
      (stored inbox key).advance day scan.today := by
  have hview := congrArg Prod.fst (view_refresh scan inbox key)
  simp only [h, view] at hview
  rw [stored, hview]
  rfl

theorem releaseCount_refresh_of_none (h : observedDay inbox scan key = none) :
    releaseCount (refreshSeasonReleaseNotifications inbox scan).notices key =
      releaseCount inbox.notices key := by
  have hview := congrArg Prod.snd (view_refresh scan inbox key)
  simpa only [h, view] using hview

theorem releaseCount_refresh_of_some (h : observedDay inbox scan key = some day) :
    releaseCount (refreshSeasonReleaseNotifications inbox scan).notices key =
      if ((stored inbox key).transition day scan.today).sendReleaseNotice && Announces key scan
      then max (releaseCount inbox.notices key) 1 else releaseCount inbox.notices key := by
  have hview := congrArg Prod.snd (view_refresh scan inbox key)
  simp only [h, view] at hview
  exact hview

theorem releaseCount_refresh_of_not_decides (h : ¬Decides inbox scan key) :
    releaseCount (refreshSeasonReleaseNotifications inbox scan).notices key =
      releaseCount inbox.notices key := by
  cases hday : observedDay inbox scan key with
  | none => exact releaseCount_refresh_of_none hday
  | some day =>
    have hsend : ((stored inbox key).transition day scan.today).sendReleaseNotice = false :=
      Bool.eq_false_iff.mpr fun hsend ↦ h ⟨day, hday, hsend⟩
    simp [releaseCount_refresh_of_some hday, hsend]

variable {observation : Observation} {today last : Int}

theorem ProcessedBy.advance (h : ProcessedBy last observation) (hlast : last ≤ today) :
    ProcessedBy today (observation.advance day today) := by
  intro hprocessed
  refine ⟨day, rfl, ?_⟩
  by_contra hfuture
  simp only [Observation.advance, Observation.transition, observationTransition, Bool.or_eq_true,
    Bool.and_eq_true, Bool.not_eq_true', Bool.and_eq_false_iff, decide_eq_true_eq,
    decide_eq_false_iff_not] at hprocessed
  obtain ⟨hprocessed, hsame | hpast⟩ := hprocessed.resolve_right hfuture
  · obtain ⟨day', hday', hle⟩ := h hprocessed
    rw [hday', Classical.not_not, Option.some.injEq] at hsame
    omega
  · omega

theorem processed_advance_of_le (h : day ≤ today) :
    (observation.advance day today).releaseProcessed = true := by
  simp [Observation.advance, Observation.transition, observationTransition, h]

theorem processed_advance (h : observation.releaseProcessed = true)
    (hsame : today < day → observation.releaseDate = some day) :
    (observation.advance day today).releaseProcessed = true := by
  by_cases hday : day ≤ today
  · exact processed_advance_of_le hday
  · simp [Observation.advance, Observation.transition, observationTransition, h,
      hsame (not_le.mp hday)]

/-- A date still to come is not processed, and its season counts as seen. -/
theorem advance_of_lt (h : ProcessedBy last observation) (hlast : last ≤ today)
    (hday : today < day) : observation.advance day today = ⟨some day, true, false⟩ := by
  have hprocessed : (observation.advance day today).releaseProcessed = false := by
    refine Bool.eq_false_iff.mpr fun hprocessed ↦ ?_
    obtain ⟨day', hday', hle⟩ := h.advance hlast hprocessed
    obtain rfl : day = day' := Option.some.inj hday'
    omega
  refine congrArg₂ (Observation.mk (some day)) ?_ hprocessed
  simp [Observation.transition, observationTransition, hday.le]

theorem sendReleaseNotice_iff : (observation.transition day today).sendReleaseNotice = true ↔
    observation.releaseProcessed = false ∧ day ≤ today ∧
      (day = today ∨ observation.seenUpcoming = true) := by
  simp only [Observation.transition, observationTransition, Bool.and_eq_true, Bool.not_eq_true',
    Bool.and_eq_false_iff, Bool.or_eq_true, decide_eq_true_eq, Bool.not_eq_false']
  constructor
  · rintro ⟨hprocessed, hday⟩
    have hle : day ≤ today := by omega
    refine ⟨hprocessed.resolve_right fun hfuture ↦ ?_, hle, ?_⟩
    · omega
    · exact hday.imp_right And.right
  · rintro ⟨hprocessed, hle, hday⟩
    refine ⟨.inl hprocessed, ?_⟩
    by_cases heq : day = today
    · exact .inl heq
    · exact .inr ⟨by omega, hday.resolve_left heq⟩

end steps

section runs

/-- The scans of a run are made on non-decreasing days. -/
def InOrder (scans : List Scan) : Prop := scans.Pairwise fun scan later ↦ scan.today ≤ later.today

def inboxAfter (scans : List Scan) : Inbox := scans.foldl refreshSeasonReleaseNotifications .empty

def IsUnobserved (key : ObservationKey) (inbox : Inbox) (scan : Scan) : Prop :=
  observedDay inbox scan key = none

/-- A scan before a date that finds it unchanged, or no date at all. -/
def IsAwaiting (key : ObservationKey) (day : Int) (inbox : Inbox) (scan : Scan) : Prop :=
  observedDay inbox scan key = none ∨ observedDay inbox scan key = some day ∧ scan.today < day

variable {scans past later : List Scan} {last : Int}

theorem inboxAfter_append :
    inboxAfter (past ++ later) = later.foldl refreshSeasonReleaseNotifications (inboxAfter past) :=
  List.foldl_append

theorem ProcessedBy.mono {observation : Observation} {last' : Int}
    (h : ProcessedBy last observation) (hle : last ≤ last') : ProcessedBy last' observation := by
  intro hprocessed
  obtain ⟨day, hday, hlast⟩ := h hprocessed
  exact ⟨day, hday, hlast.trans hle⟩

theorem ProcessedBy.refresh (h : ProcessedBy last (stored inbox key)) (hlast : last ≤ scan.today) :
    ProcessedBy scan.today (stored (refreshSeasonReleaseNotifications inbox scan) key) := by
  cases hday : observedDay inbox scan key with
  | none =>
    rw [stored_refresh_of_none hday]
    exact h.mono hlast
  | some day =>
    rw [stored_refresh_of_some hday]
    exact h.advance hlast

theorem ProcessedBy.run {bound : Int} (h : ProcessedBy last (stored inbox key))
    (hlast : last ≤ bound) (hdays : ∀ scan ∈ scans, last ≤ scan.today)
    (hbound : ∀ scan ∈ scans, scan.today ≤ bound) (horder : InOrder scans) :
    ProcessedBy bound (stored (scans.foldl refreshSeasonReleaseNotifications inbox) key) := by
  induction scans generalizing inbox last with
  | nil => exact h.mono hlast
  | cons scan scans ih =>
    rw [List.forall_mem_cons] at hdays hbound
    obtain ⟨hlater, horder⟩ := List.pairwise_cons.mp horder
    exact ih (h.refresh hdays.1) hbound.1 hlater hbound.2 horder

/-- A run keeps to dates that have come. -/
theorem processedBy_inboxAfter {bound : Int} (hbound : ∀ scan ∈ scans, scan.today ≤ bound)
    (horder : InOrder scans) : ProcessedBy bound (stored (inboxAfter scans) key) := by
  have hinitial (last : Int) : ProcessedBy last (stored .empty key) := fun h ↦
    absurd h Bool.false_ne_true
  cases scans with
  | nil => exact hinitial bound
  | cons scan scans =>
    exact (hinitial scan.today).run (hbound scan List.mem_cons_self)
      (List.forall_mem_cons.mpr ⟨le_rfl, (List.pairwise_cons.mp horder).1⟩) hbound horder

theorem processed_le_last {observation : Observation} (horder : InOrder (past ++ [scan]))
    (h : (inboxAfter (past ++ [scan])).observations.get key = some observation)
    (hprocessed : observation.releaseProcessed = true) :
    ∃ day, observation.releaseDate = some day ∧ day ≤ scan.today := by
  have hbound : ∀ s ∈ past ++ [scan], s.today ≤ scan.today := by
    rw [List.forall_mem_append]
    exact ⟨fun s hs ↦ (List.pairwise_append.mp horder).2.2 s hs scan (List.mem_singleton_self _),
      by simp⟩
  have hstored : stored (inboxAfter (past ++ [scan])) key = observation := by
    rw [stored, h, Option.getD_some]
  exact hstored ▸ processedBy_inboxAfter hbound horder <| hstored ▸ hprocessed

theorem releaseCount_refresh_le (h : releaseCount inbox.notices key ≤ 1) :
    releaseCount (refreshSeasonReleaseNotifications inbox scan).notices key ≤ 1 := by
  cases hday : observedDay inbox scan key with
  | none => rwa [releaseCount_refresh_of_none hday]
  | some day =>
    rw [releaseCount_refresh_of_some hday]
    split_ifs <;> omega

theorem releaseCount_le_refresh : releaseCount inbox.notices key ≤
    releaseCount (refreshSeasonReleaseNotifications inbox scan).notices key := by
  cases hday : observedDay inbox scan key with
  | none => rw [releaseCount_refresh_of_none hday]
  | some day =>
    rw [releaseCount_refresh_of_some hday]
    split_ifs <;> omega

/-- A user is told at most once that a season is out. -/
theorem releaseCount_le_one : releaseCount (inboxAfter scans).notices key ≤ 1 :=
  invariant (I := fun inbox : Inbox ↦ releaseCount inbox.notices key ≤ 1) (Nat.zero_le 1)
    fun _ _ h ↦ releaseCount_refresh_le h

theorem releaseCount_eq_zero_of_unobserved
    (h : Throughout refreshSeasonReleaseNotifications (IsUnobserved key) .empty past) :
    releaseCount (inboxAfter past).notices key = 0 :=
  h.invariant (I := fun inbox : Inbox ↦ releaseCount inbox.notices key = 0) rfl fun _ _ hzero hnone ↦
    (releaseCount_refresh_of_none hnone).trans hzero

theorem decides_iff : Decides inbox scan key ↔ ∃ day, observedDay inbox scan key = some day ∧
    (stored inbox key).releaseProcessed = false ∧ day ≤ scan.today ∧
      (day = scan.today ∨ (stored inbox key).seenUpcoming = true) := by
  simp only [Decides, sendReleaseNotice_iff]

/-- What was processed stays so, until another date to come is found. -/
theorem processed_refresh (h : (stored inbox key).releaseProcessed = true)
    (hnot : ¬Corrects key inbox scan) :
    (stored (refreshSeasonReleaseNotifications inbox scan) key).releaseProcessed = true := by
  cases hday : observedDay inbox scan key with
  | none => rwa [stored_refresh_of_none hday]
  | some day =>
    rw [stored_refresh_of_some hday]
    refine processed_advance h fun hlt ↦ ?_
    by_contra hne
    exact hnot ⟨day, hday, hlt, hne⟩

theorem Decides.processed (h : Decides inbox scan key) :
    (stored (refreshSeasonReleaseNotifications inbox scan) key).releaseProcessed = true := by
  obtain ⟨day, hday, -, hle, -⟩ := decides_iff.mp h
  rw [stored_refresh_of_some hday]
  exact processed_advance_of_le hle

/-- Between two decisions a season is found under a corrected date to come. -/
theorem corrected_between_decisions {first : Scan} {mid : List Scan}
    (hfirst : Decides (inboxAfter past) first key)
    (hscan : Decides (inboxAfter (past ++ first :: mid)) scan key) :
    Sometime refreshSeasonReleaseNotifications (Corrects key) (inboxAfter (past ++ [first])) mid := by
  have hafter : inboxAfter (past ++ [first]) =
      refreshSeasonReleaseNotifications (inboxAfter past) first := inboxAfter_append
  rw [hafter]
  refine sometime_or_throughout.resolve_right fun hnever ↦ ?_
  have hprocessed := hnever.invariant
    (I := fun inbox : Inbox ↦ (stored inbox key).releaseProcessed = true) hfirst.processed
    fun _ _ h hnot ↦ processed_refresh h hnot
  obtain ⟨day, -, hopen, -⟩ := decides_iff.mp hscan
  rw [inboxAfter_append, List.foldl_cons, hprocessed] at hopen
  exact Bool.noConfusion hopen

/-- A season that was out when it was first observed is not announced before a corrected date to
come is found. -/
theorem releaseCount_of_late (hpast : Throughout refreshSeasonReleaseNotifications
      (IsUnobserved key) .empty past)
    (hday : observedDay (inboxAfter past) scan key = some day) (hlate : day < scan.today)
    (hlater : Throughout refreshSeasonReleaseNotifications
      (fun inbox scan ↦ ¬Corrects key inbox scan) (inboxAfter (past ++ [scan])) later) :
    releaseCount (inboxAfter (past ++ scan :: later)).notices key = 0 := by
  have hunseen : stored (inboxAfter past) key = .initial :=
    hpast.invariant (I := fun inbox ↦ stored inbox key = .initial) rfl fun _ _ hinitial hnone ↦
      (stored_refresh_of_none hnone).trans hinitial
  have hsilent : ¬Decides (inboxAfter past) scan key := by
    rw [decides_iff]
    rintro ⟨day', hday', -, -, hseen⟩
    obtain rfl : day = day' := Option.some.inj (hday.symm.trans hday')
    rw [hunseen] at hseen
    exact hseen.elim hlate.ne Bool.false_ne_true
  have hone : inboxAfter (past ++ [scan]) =
      refreshSeasonReleaseNotifications (inboxAfter past) scan := inboxAfter_append
  have hstart : (stored (inboxAfter (past ++ [scan])) key).releaseProcessed = true ∧
      releaseCount (inboxAfter (past ++ [scan])).notices key = 0 := by
    rw [hone, stored_refresh_of_some hday, releaseCount_refresh_of_not_decides hsilent]
    exact ⟨processed_advance_of_le hlate.le, releaseCount_eq_zero_of_unobserved hpast⟩
  have hrun := hlater.invariant
    (I := fun inbox ↦ (stored inbox key).releaseProcessed = true ∧
      releaseCount inbox.notices key = 0) hstart ?_
  · have hsplit : past ++ scan :: later = past ++ [scan] ++ later := by simp
    rw [hsplit, inboxAfter_append]
    exact hrun.2
  · rintro inbox scan ⟨hprocessed, hzero⟩ hnot
    refine ⟨processed_refresh hprocessed hnot, ?_⟩
    rw [releaseCount_refresh_of_not_decides, hzero]
    rw [decides_iff]
    rintro ⟨-, -, hopen, -⟩
    rw [hprocessed] at hopen
    exact Bool.noConfusion hopen

/-- A date that was found while it was to come and stays until a scan finds it passed is decided
upon by that scan. -/
theorem decides_of_awaited {first : Scan} {mid : List Scan}
    (horder : InOrder (past ++ first :: mid))
    (hfirst : observedDay (inboxAfter past) first key = some day) (hcoming : first.today < day)
    (hmid : Throughout refreshSeasonReleaseNotifications (IsAwaiting key day)
      (inboxAfter (past ++ [first])) mid)
    (hday : observedDay (inboxAfter (past ++ first :: mid)) scan key = some day)
    (hpassed : day ≤ scan.today) : Decides (inboxAfter (past ++ first :: mid)) scan key := by
  have hbefore : ∀ s ∈ past, s.today ≤ first.today := fun s hs ↦
    (List.pairwise_append.mp horder).2.2 s hs first List.mem_cons_self
  have hprocessed : ProcessedBy first.today (stored (inboxAfter past) key) :=
    processedBy_inboxAfter hbefore (List.pairwise_append.mp horder).1
  have hone : inboxAfter (past ++ [first]) =
      refreshSeasonReleaseNotifications (inboxAfter past) first := inboxAfter_append
  have hstart : stored (inboxAfter (past ++ [first])) key = ⟨some day, true, false⟩ := by
    rw [hone, stored_refresh_of_some hfirst, advance_of_lt hprocessed le_rfl hcoming]
  have hrun := hmid.invariant (I := fun inbox ↦ stored inbox key = ⟨some day, true, false⟩) hstart ?_
  · have hsplit : past ++ first :: mid = past ++ [first] ++ mid := by simp
    rw [hsplit, inboxAfter_append] at hday ⊢
    exact decides_iff.mpr ⟨day, hday, by rw [hrun], hpassed, .inr (by rw [hrun])⟩
  · rintro inbox s hawaiting (hnone | ⟨hsame, hlt⟩)
    · rw [stored_refresh_of_none hnone, hawaiting]
    · rw [stored_refresh_of_some hsame, hawaiting]
      exact advance_of_lt (fun h ↦ absurd h Bool.false_ne_true) le_rfl hlt

theorem releaseCount_of_decides (h : Decides (inboxAfter past) scan key)
    (hannounces : Announces key scan = true) :
    releaseCount (inboxAfter (past ++ scan :: later)).notices key = 1 := by
  obtain ⟨day, hday, hsend⟩ := h
  have hcount := releaseCount_refresh_of_some hday
  rw [hsend, hannounces, Bool.and_self, if_pos rfl] at hcount
  have hmono : 1 ≤ releaseCount (inboxAfter (past ++ scan :: later)).notices key := by
    rw [inboxAfter_append, List.foldl_cons]
    refine invariant (I := fun inbox : Inbox ↦ 1 ≤ releaseCount inbox.notices key) ?_
      fun _ _ h ↦ h.trans releaseCount_le_refresh
    rw [hcount]
    exact le_max_right _ _
  exact le_antisymm releaseCount_le_one hmono

end runs

section scans

/-- A scan of one user's series, whose second season the provider lists with a date. -/
def scanOf (today : Int) (status : Status) (day : Int) : Scan where
  today := today
  now := today
  rows := [⟨1, 12, status, [⟨2, some day⟩]⟩]
  preferences _ := none

def secondSeason : ObservationKey := ⟨1, 12, 2⟩

/-- The series is joined to two shows, of which the last lists the second season as out. -/
def scanOfBoth (today : Int) : Scan :=
  { scanOf today .watching 5 with
    rows := [⟨1, 12, .watching, [⟨2, some 20⟩]⟩, ⟨1, 12, .watching, [⟨2, some 5⟩]⟩] }

end scans

end AnyList.Releases
