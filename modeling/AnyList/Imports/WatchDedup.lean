import AnyList.Library.Dict
import AnyList.Library.Doubles
import AnyList.Library.Runs
import Mathlib.Data.List.Sort
import Mathlib.Tactic.NormNum

namespace AnyList.Imports.WatchDedup

open AnyList.Library AnyList.Library.Doubles

/-- The microseconds from the first to past the last year that a `datetime` can have. -/
def calendar : ℤ := 315537897600000000

/-- A naive `datetime`, in microseconds from the start of year 1. -/
structure Datetime where
  ticks : ℤ
  nonneg : 0 ≤ ticks
  lt_calendar : ticks < calendar
  deriving DecidableEq

/-- `timedelta(minutes=...)` in microseconds: `none` is its `OverflowError`. -/
def timedelta (minutes : ℤ) : Option ℤ :=
  if -999999999 ≤ minutes / 1440 ∧ minutes / 1440 ≤ 999999999 then some (minutes * 60000000)
  else none

/-- The sum of a date and a duration: `none` is its `OverflowError`. -/
def Datetime.add (at' : Datetime) (delta : ℤ) : Option Datetime :=
  if h : 0 ≤ at'.ticks + delta ∧ at'.ticks + delta < calendar then
    some ⟨at'.ticks + delta, h.1, h.2⟩
  else none

/-- `timedelta.total_seconds`: a double. -/
def totalSeconds (microseconds : ℤ) : ℚ := nearest 53 (microseconds / 1000000)

structure WatchEvent where
  id : ℕ
  userId : ℕ
  mediaId : ℕ
  watchedAt : Option Datetime
  createdAt : Datetime
  deriving DecidableEq

def WatchEvent.effectiveTime (event : WatchEvent) : Datetime := event.watchedAt.getD event.createdAt

def findDuplicateWatchEvent (now : Datetime) (events : List WatchEvent) (userId mediaId : ℕ)
    (candidateTime : Option Datetime) (windowMinutes : ℤ) (excludeId : Option ℕ) :
    Option (Option WatchEvent) :=
  if windowMinutes = 0 then some none
  else do
    let at' := candidateTime.getD now
    let delta ← timedelta windowMinutes
    let start ← at'.add (-delta)
    let stop ← at'.add delta
    let rows := events.filter fun event ↦
      decide (event.userId = userId) && decide (event.mediaId = mediaId) &&
        (decide (start.ticks ≤ event.effectiveTime.ticks) &&
          decide (event.effectiveTime.ticks ≤ stop.ticks)) &&
        excludeId.all fun id ↦ decide (event.id ≠ id)
    return (rows.insertionSort fun event event' ↦ event.id ≤ event'.id).head?

abbrev Times := Dict ℕ (List Datetime)

/-- `times.setdefault(media_id, []).append(at)`. -/
def addTime (times : Times) (mediaId : ℕ) (at' : Datetime) : Times :=
  times.upsert mediaId [] (· ++ [at'])

def loadExistingWatchTimes (events : List WatchEvent) (userId : ℕ) : Times :=
  (events.filter fun event ↦ decide (event.userId = userId)).foldl
    (fun times event ↦ addTime times event.mediaId event.effectiveTime) Dict.empty

def isDuplicateWatchTime (now : Datetime) (existingTimes : Times) (mediaId : ℕ)
    (candidateTime : Option Datetime) (windowMinutes : ℤ) : Option Bool :=
  if windowMinutes = 0 then some false
  else do
    let at' := candidateTime.getD now
    let tolerance := totalSeconds (← timedelta windowMinutes)
    return ((existingTimes.get mediaId).getD []).any fun existingAt ↦
      decide (|totalSeconds (existingAt.ticks - at'.ticks)| ≤ tolerance)

/-- A bulk import: the rows of the database and the times it preloaded. -/
structure BulkImport where
  events : List WatchEvent
  times : Times

def preload (userId : ℕ) (events : List WatchEvent) : BulkImport :=
  ⟨events, loadExistingWatchTimes events userId⟩

/-- A play that the loop accepts: it is inserted and its time appended. -/
structure AcceptedPlay where
  id : ℕ
  mediaId : ℕ
  watchedAt : Option Datetime
  createdAt : Datetime
  deriving DecidableEq

def AcceptedPlay.event (userId : ℕ) (play : AcceptedPlay) : WatchEvent :=
  ⟨play.id, userId, play.mediaId, play.watchedAt, play.createdAt⟩

def accept (userId : ℕ) (s : BulkImport) (play : AcceptedPlay) : BulkImport where
  events := s.events ++ [play.event userId]
  times := addTime s.times play.mediaId (play.event userId).effectiveTime

/-- The preloaded check answers as the query does. -/
def ChecksAgree (now : Datetime) (s : BulkImport) (userId mediaId : ℕ)
    (candidateTime : Option Datetime) (windowMinutes : ℤ) : Prop :=
  isDuplicateWatchTime now s.times mediaId candidateTime windowMinutes = some true ↔
    ∃ event, findDuplicateWatchEvent now s.events userId mediaId candidateTime windowMinutes none =
      some (some event)

/-- The window is empty or out of the range of durations, or its ends are dates and a double
tells a microsecond beside them. -/
def Measurable (at' : Datetime) (windowMinutes : ℤ) : Prop :=
  windowMinutes ≤ 0 ∨ timedelta windowMinutes = none ∨
    0 ≤ at'.ticks - windowMinutes * 60000000 ∧
      at'.ticks + windowMinutes * 60000000 < calendar ∧ windowMinutes * 60 < 2 ^ 34

section seconds

variable {microseconds seconds : ℤ}

theorem totalSeconds_seconds (hne : seconds ≠ 0) (h : -2 ^ 53 < seconds) (h' : seconds < 2 ^ 53) :
    totalSeconds (seconds * 1000000) = seconds := by
  have hcast : (((seconds * 1000000 : ℤ) : ℚ) / 1000000) = seconds := by
    push_cast
    field_simp
  rw [totalSeconds, hcast, nearest]
  obtain hneg | hpos := lt_or_gt_of_ne hne
  · have hround : roundMagnitude 53 ((-seconds : ℤ) : ℚ) = (-seconds : ℤ) :=
      roundMagnitude_intCast (by omega) (by exact_mod_cast (by omega : -seconds < 2 ^ 53))
    push_cast at hround
    rw [if_pos (by exact_mod_cast hneg), hround, neg_neg]
  · rw [if_neg (by exact_mod_cast hpos.not_gt), roundMagnitude_intCast hpos]
    exact_mod_cast h'

theorem abs_totalSeconds (microseconds : ℤ) :
    |totalSeconds microseconds| = roundMagnitude 53 ((|microseconds| : ℤ) / 1000000 : ℚ) := by
  rw [totalSeconds, abs_nearest, abs_div, Int.cast_abs]
  norm_num

/-- Under 2^34 seconds a double tells a microsecond. -/
theorem lt_roundMagnitude_of_lt (hpos : 0 < seconds) (hsmall : seconds < 2 ^ 34)
    (hlarge : microseconds < 2 ^ 53 * 1000000) (h : seconds * 1000000 < microseconds) :
    (seconds : ℚ) < roundMagnitude 53 (microseconds / 1000000 : ℚ) := by
  have hx : (seconds : ℚ) + 1 / 1000000 ≤ microseconds / 1000000 := by
    have hstep : (seconds : ℚ) * 1000000 + 1 ≤ microseconds := by exact_mod_cast h
    linarith
  have hpos' : (0 : ℚ) < seconds := by exact_mod_cast hpos
  have hxpos : (0 : ℚ) < microseconds / 1000000 := by linarith
  obtain hunder | hover := lt_or_ge (microseconds / 1000000 : ℚ) (2 ^ 34)
  · have hulp : ulp 53 (microseconds / 1000000 : ℚ) ≤ 2 ^ (33 + 1 - (53 : ℕ) : ℤ) :=
      ulp_le hxpos (by exact_mod_cast hunder)
    have hnear := (abs_le.mp (abs_roundMagnitude_sub_le 53 (microseconds / 1000000 : ℚ))).1
    have hnum : (2 : ℚ) ^ (33 + 1 - (53 : ℕ) : ℤ) < 2 / 1000000 := by norm_num
    linarith
  · have hbound : (microseconds / 1000000 : ℚ) < 2 ^ 53 := by
      rw [div_lt_iff₀ (by norm_num)]
      exact_mod_cast hlarge
    have hgrid := onGrid_intCast hxpos hbound (2 ^ 34)
    have hle := le_roundMagnitude hgrid (by exact_mod_cast hover)
    refine lt_of_lt_of_le ?_ hle
    exact_mod_cast hsmall

theorem roundMagnitude_le_of_le (hpos : 0 < microseconds) (hsmall : seconds < 2 ^ 53)
    (h : microseconds ≤ seconds * 1000000) :
    roundMagnitude 53 (microseconds / 1000000 : ℚ) ≤ seconds := by
  have hxpos : (0 : ℚ) < microseconds / 1000000 := by
    have hpos' : (0 : ℚ) < microseconds := by exact_mod_cast hpos
    positivity
  have hx : (microseconds / 1000000 : ℚ) ≤ seconds := by
    rw [div_le_iff₀ (by norm_num)]
    exact_mod_cast h
  have hbound : (seconds : ℚ) < 2 ^ 53 := by exact_mod_cast hsmall
  exact roundMagnitude_le (onGrid_intCast hxpos (hx.trans_lt hbound) seconds) hx

/-- From 2^34 seconds on a double takes the next microsecond for none. -/
theorem roundMagnitude_next (hlarge : 2 ^ 34 ≤ seconds) (hsmall : seconds < 2 ^ 52) :
    roundMagnitude 53 (((seconds * 1000000 + 1 : ℤ) : ℚ) / 1000000) = seconds := by
  have hx : (((seconds * 1000000 + 1 : ℤ) : ℚ) / 1000000) = seconds + 1 / 1000000 := by
    push_cast
    field_simp
  have hseconds : (2 : ℚ) ^ 34 ≤ seconds := by exact_mod_cast hlarge
  have hsmall' : (seconds : ℚ) < 2 ^ 52 := by exact_mod_cast hsmall
  rw [hx]
  have hulp : 2 ^ (34 + 1 - (53 : ℕ) : ℤ) ≤ ulp 53 ((seconds : ℚ) + 1 / 1000000) := by
    refine le_ulp ?_
    have hpow : (2 : ℚ) ^ (34 : ℤ) = 2 ^ 34 := by norm_cast
    rw [hpow]
    linarith
  have hnum : (2 : ℚ) / 1000000 < 2 ^ (34 + 1 - (53 : ℕ) : ℤ) := by norm_num
  have hpos : (0 : ℚ) < seconds + 1 / 1000000 := by linarith
  refine roundMagnitude_eq (onGrid_intCast hpos (by linarith) seconds) ?_
  rw [add_sub_cancel_left, abs_of_pos (by norm_num)]
  linarith

end seconds

/-- What the preloaded check asks of one time. -/
def IsNear (at' : Datetime) (windowMinutes : ℤ) (t : Datetime) : Prop :=
  windowMinutes ≠ 0 ∧ ∃ delta ∈ timedelta windowMinutes,
    |totalSeconds (t.ticks - at'.ticks)| ≤ totalSeconds delta

/-- What the query asks of one time. -/
def IsBetween (at' : Datetime) (windowMinutes : ℤ) (t : Datetime) : Prop :=
  windowMinutes ≠ 0 ∧ ∃ delta ∈ timedelta windowMinutes, ∃ start ∈ at'.add (-delta),
    ∃ stop ∈ at'.add delta, start.ticks ≤ t.ticks ∧ t.ticks ≤ stop.ticks

section windows

variable {at' t : Datetime} {windowMinutes delta : ℤ}

theorem mem_timedelta : delta ∈ timedelta windowMinutes ↔ delta = windowMinutes * 60000000 ∧
    -999999999 ≤ windowMinutes / 1440 ∧ windowMinutes / 1440 ≤ 999999999 := by
  rw [timedelta]
  split_ifs with h
  · simp [h, eq_comm]
  · simp [h]

theorem mem_add {sum : Datetime} : sum ∈ at'.add delta ↔ sum.ticks = at'.ticks + delta := by
  rw [Datetime.add]
  split_ifs with h
  · rw [Option.mem_some_iff, Datetime.mk.injEq, eq_comm]
  · refine iff_of_false (by simp) fun heq ↦ h ?_
    rw [← heq]
    exact ⟨sum.nonneg, sum.lt_calendar⟩

theorem isBetween_iff (hpos : 0 < windowMinutes) (h : timedelta windowMinutes ≠ none) :
    IsBetween at' windowMinutes t ↔ 0 ≤ at'.ticks - windowMinutes * 60000000 ∧
      at'.ticks + windowMinutes * 60000000 < calendar ∧
      |t.ticks - at'.ticks| ≤ windowMinutes * 60000000 := by
  obtain ⟨delta, hdelta⟩ := Option.ne_none_iff_exists'.mp h
  obtain ⟨rfl, hrange⟩ := mem_timedelta.mp hdelta
  rw [abs_le]
  constructor
  · intro hbetween
    obtain ⟨-, delta', hdelta', start, hstart, stop, hstop, hle, hle'⟩ := hbetween
    obtain ⟨rfl, -⟩ := mem_timedelta.mp hdelta'
    have hticks := mem_add.mp hstart
    have hticks' := mem_add.mp hstop
    have hstart' := start.nonneg
    have hstop' := stop.lt_calendar
    refine ⟨?_, ?_, ?_, ?_⟩ <;> omega
  · intro hwithin
    obtain ⟨hstart, hstop, hle, hle'⟩ := hwithin
    have hnonneg := at'.nonneg
    have hlt := at'.lt_calendar
    refine ⟨by omega, _, hdelta, ⟨at'.ticks - windowMinutes * 60000000, hstart, by omega⟩,
      mem_add.mpr rfl, ⟨at'.ticks + windowMinutes * 60000000, by omega, hstop⟩,
      mem_add.mpr rfl, ?_, ?_⟩
    · dsimp only
      omega
    · dsimp only
      omega

theorem totalSeconds_window (hne : windowMinutes ≠ 0) (h : delta ∈ timedelta windowMinutes) :
    totalSeconds delta = (windowMinutes * 60 : ℤ) := by
  obtain ⟨rfl, hrange⟩ := mem_timedelta.mp h
  rw [← totalSeconds_seconds (by omega) (by omega) (by omega)]
  congr 1
  omega

theorem isNear_iff (hpos : 0 < windowMinutes) (h : timedelta windowMinutes ≠ none) :
    IsNear at' windowMinutes t ↔
      roundMagnitude 53 ((|t.ticks - at'.ticks| : ℤ) / 1000000 : ℚ) ≤ (windowMinutes * 60 : ℤ) := by
  obtain ⟨delta, hdelta⟩ := Option.ne_none_iff_exists'.mp h
  rw [← abs_totalSeconds, ← totalSeconds_window hpos.ne' hdelta]
  constructor
  · intro hnear
    obtain ⟨-, delta', hdelta', hle⟩ := hnear
    rwa [Option.mem_unique hdelta hdelta']
  · intro hle
    exact ⟨hpos.ne', delta, hdelta, hle⟩

/-- An empty window holds no time on either side. -/
theorem isNear_iff_isBetween_of_nonpos (h : windowMinutes ≤ 0) :
    IsNear at' windowMinutes t ↔ IsBetween at' windowMinutes t := by
  refine iff_of_false (fun hnear ↦ ?_) fun hbetween ↦ ?_
  · obtain ⟨hne, delta, hdelta, hle⟩ := hnear
    rw [totalSeconds_window hne hdelta] at hle
    have hnonneg : 0 ≤ windowMinutes * 60 := by exact_mod_cast (abs_nonneg _).trans hle
    omega
  · obtain ⟨hne, delta, hdelta, start, hstart, stop, hstop, hle, hle'⟩ := hbetween
    obtain ⟨rfl, -⟩ := mem_timedelta.mp hdelta
    have hticks := mem_add.mp hstart
    have hticks' := mem_add.mp hstop
    omega

theorem isNear_iff_isBetween (hpos : 0 < windowMinutes) (h : timedelta windowMinutes ≠ none)
    (hstart : 0 ≤ at'.ticks - windowMinutes * 60000000)
    (hstop : at'.ticks + windowMinutes * 60000000 < calendar) (hsmall : windowMinutes * 60 < 2 ^ 34) :
    IsNear at' windowMinutes t ↔ IsBetween at' windowMinutes t := by
  rw [isNear_iff hpos h, isBetween_iff hpos h, and_iff_right hstart, and_iff_right hstop]
  have hbound : |t.ticks - at'.ticks| < 2 ^ 53 * 1000000 := by
    have ht := t.nonneg
    have ht' := t.lt_calendar
    have hat := at'.nonneg
    have hat' := at'.lt_calendar
    rw [calendar] at ht' hat'
    rw [abs_lt]
    omega
  constructor
  · intro hle
    by_contra hfar
    have hlt : windowMinutes * 60 * 1000000 < |t.ticks - at'.ticks| := by omega
    exact absurd hle (not_le.mpr (lt_roundMagnitude_of_lt (by omega) hsmall hbound hlt))
  · intro hle
    obtain hzero | hne := (abs_nonneg (t.ticks - at'.ticks)).eq_or_lt
    · rw [← hzero, Int.cast_zero, zero_div, roundMagnitude_zero]
      exact_mod_cast (by omega : 0 ≤ windowMinutes * 60)
    · exact roundMagnitude_le_of_le hne (by omega) (by omega)

/-- A window that the query cannot form, around a play at the same time. -/
theorem isNear_self (hpos : 0 < windowMinutes) (h : timedelta windowMinutes ≠ none) :
    IsNear at' windowMinutes at' := by
  rw [isNear_iff hpos h, sub_self, abs_zero, Int.cast_zero, zero_div, roundMagnitude_zero]
  exact_mod_cast (by omega : 0 ≤ windowMinutes * 60)

/-- A window that a double cannot measure has a date one microsecond beside it. -/
theorem exists_beside (hpos : 0 < windowMinutes)
    (hstart : 0 ≤ at'.ticks - windowMinutes * 60000000)
    (hstop : at'.ticks + windowMinutes * 60000000 < calendar) :
    ∃ t : Datetime, |t.ticks - at'.ticks| = windowMinutes * 60000000 + 1 := by
  by_cases hlast : at'.ticks + windowMinutes * 60000000 + 1 < calendar
  · refine ⟨⟨at'.ticks + windowMinutes * 60000000 + 1, by omega, hlast⟩, ?_⟩
    rw [abs_of_nonneg (by dsimp only; omega)]
    dsimp only
    omega
  · have hodd : 0 ≤ at'.ticks - windowMinutes * 60000000 - 1 := by
      rw [calendar] at hstop hlast
      omega
    refine ⟨⟨at'.ticks - windowMinutes * 60000000 - 1, hodd, by omega⟩, ?_⟩
    rw [abs_of_nonpos (by dsimp only; omega)]
    dsimp only
    omega

theorem forall_isNear_iff_isBetween :
    (∀ t, IsNear at' windowMinutes t ↔ IsBetween at' windowMinutes t) ↔
      Measurable at' windowMinutes := by
  rw [Measurable]
  obtain hnonpos | hpos := le_or_gt windowMinutes 0
  · exact iff_of_true (fun t ↦ isNear_iff_isBetween_of_nonpos hnonpos) (.inl hnonpos)
  by_cases h : timedelta windowMinutes = none
  · refine iff_of_true (fun t ↦ ?_) (.inr (.inl h))
    rw [IsNear, IsBetween, h]
    simp
  constructor
  · intro hagree
    have hwithin := (isBetween_iff hpos h).mp ((hagree at').mp (isNear_self hpos h))
    obtain ⟨hstart, hstop, -⟩ := hwithin
    refine .inr (.inr ⟨hstart, hstop, ?_⟩)
    by_contra hlarge
    obtain ⟨t, ht⟩ := exists_beside hpos hstart hstop
    have hnear : IsNear at' windowMinutes t := by
      have hlarge' : 2 ^ 34 ≤ windowMinutes * 60 := by omega
      have hbound : windowMinutes * 60 < 2 ^ 52 := by
        have hnonneg := at'.nonneg
        rw [calendar] at hstop
        omega
      have hticks : windowMinutes * 60000000 + 1 = windowMinutes * 60 * 1000000 + 1 := by omega
      rw [isNear_iff hpos h, ht, hticks, roundMagnitude_next hlarge' hbound]
    obtain ⟨-, -, hle⟩ := (isBetween_iff hpos h).mp ((hagree t).mp hnear)
    omega
  · intro hmeasurable t
    obtain hnonpos | hnone | ⟨hstart, hstop, hsmall⟩ := hmeasurable
    · exact isNear_iff_isBetween_of_nonpos hnonpos
    · exact absurd hnone h
    · exact isNear_iff_isBetween hpos h hstart hstop hsmall

end windows

section imports

variable {now : Datetime} {s : BulkImport} {userId mediaId : ℕ} {candidateTime : Option Datetime}
  {windowMinutes : ℤ}

def isOf (userId mediaId : ℕ) (event : WatchEvent) : Bool :=
  decide (event.userId = userId) && decide (event.mediaId = mediaId)

/-- The preloaded times are those of the rows. -/
def Tracks (userId : ℕ) (s : BulkImport) : Prop :=
  ∀ mediaId, (s.times.get mediaId).getD [] =
    (s.events.filter (isOf userId mediaId)).map WatchEvent.effectiveTime

theorem getD_get_addTime (times : Times) (mediaId mediaId' : ℕ) (at' : Datetime) :
    ((addTime times mediaId at').get mediaId').getD [] =
      (times.get mediaId').getD [] ++ if mediaId = mediaId' then [at'] else [] := by
  rw [addTime, Dict.get_upsert]
  split_ifs with h
  · rw [h, Option.getD_some]
  · rw [List.append_nil]

theorem loadExistingWatchTimes_append (events : List WatchEvent) (event : WatchEvent) :
    loadExistingWatchTimes (events ++ [event]) userId =
      if event.userId = userId then
        addTime (loadExistingWatchTimes events userId) event.mediaId event.effectiveTime
      else loadExistingWatchTimes events userId := by
  rw [loadExistingWatchTimes, List.filter_append, List.foldl_append, ← loadExistingWatchTimes]
  split_ifs with h <;> simp [h]

theorem tracks_preload (userId : ℕ) (events : List WatchEvent) : Tracks userId (preload userId events) := by
  intro mediaId
  rw [preload]
  induction events using List.reverseRecOn with
  | nil => rfl
  | append_singleton events event ih =>
    dsimp only at ih ⊢
    rw [loadExistingWatchTimes_append, List.filter_append, List.map_append, ← ih]
    by_cases huser : event.userId = userId
    · rw [if_pos huser, getD_get_addTime]
      by_cases hmedia : event.mediaId = mediaId <;> simp [isOf, huser, hmedia]
    · rw [if_neg huser]
      simp [isOf, huser]

theorem Tracks.accept (h : Tracks userId s) (play : AcceptedPlay) :
    Tracks userId (accept userId s play) := by
  intro mediaId
  rw [WatchDedup.accept]
  dsimp only
  rw [getD_get_addTime, h mediaId, List.filter_append, List.map_append]
  by_cases hmedia : play.mediaId = mediaId <;> simp [isOf, AcceptedPlay.event, hmedia]

theorem isDuplicateWatchTime_iff (h : Tracks userId s) :
    isDuplicateWatchTime now s.times mediaId candidateTime windowMinutes = some true ↔
      ∃ event ∈ s.events, isOf userId mediaId event = true ∧
        IsNear (candidateTime.getD now) windowMinutes event.effectiveTime := by
  rw [isDuplicateWatchTime, h mediaId]
  split_ifs with hzero
  · simp [IsNear, hzero]
  · cases hdelta : timedelta windowMinutes with
    | none => simp [IsNear, hdelta]
    | some delta =>
      simp only [Option.bind_eq_bind, Option.bind_some, Option.pure_def, Option.some.injEq,
        List.any_map, List.any_filter, List.any_eq_true, Function.comp_apply, Bool.and_eq_true,
        decide_eq_true_eq, IsNear, hdelta, Option.mem_some_iff, exists_eq_left']
      refine exists_congr fun event ↦ and_congr_right fun _ ↦ and_congr_right fun _ ↦ ?_
      exact (and_iff_right hzero).symm

theorem exists_head?_iff {α : Type*} {l : List α} : (∃ a, l.head? = some a) ↔ ∃ a, a ∈ l := by
  cases l <;> simp

theorem findDuplicateWatchEvent_iff (events : List WatchEvent) :
    (∃ event, findDuplicateWatchEvent now events userId mediaId candidateTime windowMinutes none =
        some (some event)) ↔
      ∃ event ∈ events, isOf userId mediaId event = true ∧
        IsBetween (candidateTime.getD now) windowMinutes event.effectiveTime := by
  rw [findDuplicateWatchEvent]
  split_ifs with hzero
  · simp [IsBetween, hzero]
  cases hdelta : timedelta windowMinutes with
  | none => simp [IsBetween, hdelta]
  | some delta =>
    cases hstart : (candidateTime.getD now).add (-delta) with
    | none => simp [IsBetween, hdelta, hstart]
    | some start =>
      cases hstop : (candidateTime.getD now).add delta with
      | none => simp [IsBetween, hdelta, hstart, hstop]
      | some stop =>
        simp only [Option.bind_eq_bind, Option.bind_some, Option.pure_def, Option.some.injEq,
          exists_head?_iff, List.mem_insertionSort, List.mem_filter, Bool.and_eq_true,
          decide_eq_true_eq, Option.all_none, and_true, IsBetween, hdelta, hstart, hstop,
          Option.mem_some_iff, exists_eq_left', isOf]
        refine exists_congr fun event ↦ and_congr_right fun _ ↦ and_congr_right fun _ ↦ ?_
        exact (and_iff_right hzero).symm

end imports

/-- A play of the first moment of year 1. -/
def firstMoment : Datetime := ⟨0, le_rfl, by decide⟩

def firstPlay : WatchEvent := ⟨1, 1, 1, some firstMoment, firstMoment⟩

end AnyList.Imports.WatchDedup
