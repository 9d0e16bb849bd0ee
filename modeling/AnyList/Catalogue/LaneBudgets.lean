import AnyList.Catalogue.ProviderLane
import Mathlib.Order.MinMax

namespace AnyList.Catalogue.ProviderLane

open AnyList.Library.Runs AnyList.Library.Tally

section law

variable (calendar : Calendar) (settings : Settings)

def Server.times (s : Server) : List ℕ := s.sent.map Sent.time

/-- The next request is never put forward again, none comes before a deadline it was deferred to or
within the interval of another, and the calendar months and days keep to their budgets. -/
structure Kept (s : Server) : Prop where
  forward : s.reached ≤ s.nextRequest
  cooled : ∀ r ∈ s.sent, r.deferred ≤ r.time
  spaced : s.times.Pairwise fun time earlier ↦ earlier + settings.interval ≤ time
  monthly : settings.provider = "rawg" → ∀ m,
    s.times.countP (fun time ↦ decide (calendar.month time = m)) ≤ settings.rawgMonthlyBudget
  daily : settings.provider = "hardcover" → ∀ d,
    s.times.countP (fun time ↦ decide (day time = d)) ≤ settings.hardcoverDailyBudget

/-- What a request that has slept must find: no deferral beyond its time, nor a new month or day. -/
def Rested (s : Server) (now : ℕ) : Prop :=
  s.deferred ≤ s.clock ∧
    (settings.provider = "rawg" → calendar.month s.clock = calendar.month now) ∧
    (settings.provider = "hardcover" → day s.clock = day now)

instance decidableRested (s : Server) (now : ℕ) : Decidable (Rested calendar settings s now) :=
  inferInstanceAs (Decidable (_ ∧ _ ∧ _))

/-- What a step must find: the end of a request no deferral beyond its interval, a deferral the row,
and a request that is sent after its sleep what it has slept for. -/
def Stage.Safe (s : Server) : Stage → Prop
  | .inside _ => s.nextRequest ≤ s.clock + settings.interval
  | .deferring _ => s.row ≠ none
  | .sleeping row now wake => wake ≤ s.clock ∧ (account calendar settings row now).isOk = true →
    Rested calendar settings s now
  | _ => True

def Safe (s : Server) : Event → Prop
  | .advance id => ∀ stage ∈ s.workers id, stage.Safe calendar settings s
  | _ => True

instance decidableStageSafe (s : Server) (stage : Stage) :
    Decidable (stage.Safe calendar settings s) :=
  match stage with
  | .inside _ => inferInstanceAs (Decidable (s.nextRequest ≤ s.clock + settings.interval))
  | .deferring _ => inferInstanceAs (Decidable (s.row ≠ none))
  | .sleeping _ _ _ => inferInstanceAs (Decidable (_ → Rested calendar settings s _))
  | .arrived | .locked | .failed _ | .left => .isTrue trivial

instance decidableSafe (s : Server) (event : Event) : Decidable (Safe calendar settings s event) :=
  match event with
  | .advance id =>
    inferInstanceAs (Decidable (∀ stage ∈ s.workers id, stage.Safe calendar settings s))
  | .enter _ | .defer _ _ | .pass _ => .isTrue trivial

/-- A row that counts the requests of its month and its day. -/
structure Counts (s : Server) (row : MetadataProviderBudget) : Prop where
  monthly : settings.provider = "rawg" →
    Tallies calendar.month s.times row.month row.requestCount
  daily : settings.provider = "hardcover" →
    Tallies day s.times row.day row.dailyRequestCount
  month : ∀ m, row.month = some m → m ≤ calendar.month s.clock
  day : ∀ d, row.day = some d → d ≤ ProviderLane.day s.clock

/-- The time from which the interval of every request has passed. -/
def Clear (s : Server) (time : ℕ) : Prop := ∀ r ∈ s.times, r + settings.interval ≤ time

def Stage.Sound (s : Server) (id : ℕ) : Stage → Prop
  | .locked => s.lock = some id
  | .sleeping row now wake => s.lock = some id ∧ now ≤ s.clock ∧
    Counts calendar settings s row ∧ Clear settings s wake
  | .inside row => s.lock = some id ∧ Counts calendar settings s row
  | _ => True

structure Sound (s : Server) : Prop where
  kept : Kept calendar settings s
  deferred : s.deferred ≤ s.reached
  past : ∀ time ∈ s.times, time ≤ s.clock
  between : (∀ id row, s.workers id ≠ some (.inside row)) →
    Clear settings s s.nextRequest ∧ Counts calendar settings s (s.row.getD .new)
  stages : ∀ id stage, s.workers id = some stage → stage.Sound calendar settings s id

/-- What the accounting of a request checks and counts. -/
structure Accounted (row counted : MetadataProviderBudget) (now : ℕ) : Prop where
  month : counted.month = some (calendar.month now)
  requests : counted.requestCount = roll calendar.month now row.month row.requestCount + 1
  monthly : settings.provider = "rawg" →
    roll calendar.month now row.month row.requestCount < settings.rawgMonthlyBudget
  daily : settings.provider = "hardcover" → counted.day = some (ProviderLane.day now) ∧
    counted.dailyRequestCount = roll ProviderLane.day now row.day row.dailyRequestCount + 1 ∧
    roll ProviderLane.day now row.day row.dailyRequestCount < settings.hardcoverDailyBudget
  other : settings.provider ≠ "hardcover" → counted.day = row.day

variable {calendar settings} {s s' : Server} {id : ℕ} {row : MetadataProviderBudget} {now : ℕ}

open MetadataProviderBudget in
theorem account_eq_ok {counted : MetadataProviderBudget}
    (hok : account calendar settings row now = .ok counted) :
    Accounted calendar settings row counted now := by
  rw [account] at hok
  dsimp only at hok
  split_ifs at hok with hfull hhardcover hspent
  · obtain rfl := Except.ok.inj hok
    rw [dailyRequestCount_inDay, day_inMonth, dailyRequestCount_inMonth] at hspent
    refine ⟨?_, ?_, fun hrawg ↦ ?_, fun _ ↦ ⟨day_inDay _ _, ?_, Nat.not_le.mp hspent⟩,
      fun hother ↦ absurd hhardcover hother⟩
    · rw [month_inDay, month_inMonth]
    · rw [requestCount_inDay, requestCount_inMonth, roll]
    · exact absurd (hrawg.symm.trans hhardcover) (by decide)
    · rw [dailyRequestCount_inDay, day_inMonth, dailyRequestCount_inMonth, roll]
  · obtain rfl := Except.ok.inj hok
    refine ⟨month_inMonth _ _, ?_, fun hrawg ↦ ?_, fun h ↦ absurd h hhardcover,
      fun _ ↦ day_inMonth _ _⟩
    · rw [requestCount_inMonth, roll]
    · rw [requestCount_inMonth] at hfull
      exact Nat.not_le.mp fun hle ↦ hfull ⟨hrawg, hle⟩

/-- A counted request is one of the month and the day in which it was sent. -/
theorem Counts.cons (h : Counts calendar settings s row) {counted : MetadataProviderBudget}
    (hnow : now ≤ s.clock)
    (hmonth : settings.provider = "rawg" → calendar.month s.clock = calendar.month now)
    (hday : settings.provider = "hardcover" → ProviderLane.day s.clock = ProviderLane.day now)
    (ha : Accounted calendar settings row counted now) (htimes : s'.times = s.clock :: s.times)
    (hclock : s'.clock = s.clock) : Counts calendar settings s' counted where
  monthly := fun hrawg ↦ by
    rw [htimes, ha.month, ha.requests, roll, ← hmonth hrawg]
    exact (h.monthly hrawg).cons h.month
  daily := fun hhardcover ↦ by
    obtain ⟨hcounted, hrequests, -⟩ := ha.daily hhardcover
    rw [htimes, hcounted, hrequests, roll, ← hday hhardcover]
    exact (h.daily hhardcover).cons h.day
  month := fun m hm ↦ by
    rw [ha.month] at hm
    rw [hclock, ← Option.some.inj hm]
    exact calendar.monotone hnow
  day := fun d hd ↦ by
    rw [hclock]
    by_cases hhardcover : settings.provider = "hardcover"
    · rw [(ha.daily hhardcover).1] at hd
      rw [← Option.some.inj hd]
      exact Nat.div_le_div_right hnow
    · rw [ha.other hhardcover] at hd
      exact h.day d hd

/-- What the worker `i` finds as it was when it holds the lane. -/
structure Later (s s' : Server) (i : ℕ) : Prop where
  held : s.lock = some i → s'.lock = some i ∧ s'.times = s.times
  clock : s.clock ≤ s'.clock

theorem Counts.later (h : Counts calendar settings s row) (htimes : s'.times = s.times)
    (hclock : s.clock ≤ s'.clock) : Counts calendar settings s' row where
  monthly := fun hrawg ↦ htimes ▸ h.monthly hrawg
  daily := fun hhardcover ↦ htimes ▸ h.daily hhardcover
  month := fun m hm ↦ Nat.le_trans (h.month m hm) (calendar.monotone hclock)
  day := fun d hd ↦ Nat.le_trans (h.day d hd) (Nat.div_le_div_right hclock)

theorem Counts.congr {row' : MetadataProviderBudget} (h : Counts calendar settings s row)
    (hmonth : row'.month = row.month) (hrequests : row'.requestCount = row.requestCount)
    (hday : row'.day = row.day) (hdaily : row'.dailyRequestCount = row.dailyRequestCount) :
    Counts calendar settings s row' where
  monthly := fun hrawg ↦ by
    rw [hmonth, hrequests]
    exact h.monthly hrawg
  daily := fun hhardcover ↦ by
    rw [hday, hdaily]
    exact h.daily hhardcover
  month := fun m hm ↦ h.month m (hmonth ▸ hm)
  day := fun d hd ↦ h.day d (hday ▸ hd)

theorem Stage.Sound.later {i : ℕ} {stage : Stage} (h : stage.Sound calendar settings s i)
    (hl : Later s s' i) : stage.Sound calendar settings s' i := by
  cases stage with
  | locked => exact (hl.held h).1
  | sleeping row now wake =>
    obtain ⟨hheld, hnow, hcounts, hclear⟩ := h
    obtain ⟨hheld, htimes⟩ := hl.held hheld
    refine ⟨hheld, Nat.le_trans hnow hl.clock, hcounts.later htimes hl.clock, ?_⟩
    rw [Clear, htimes]
    exact hclear
  | inside row =>
    obtain ⟨hheld, htimes⟩ := hl.held h.1
    exact ⟨hheld, h.2.later htimes hl.clock⟩
  | _ => trivial

theorem workers_go_self {stage : Stage} : (s.go id stage).workers id = some stage :=
  Function.update_self ..

theorem workers_go_of_ne {stage : Stage} {i : ℕ} (h : i ≠ id) :
    (s.go id stage).workers i = s.workers i := Function.update_of_ne h ..

theorem stages_go (h : Sound calendar settings s) {stage : Stage}
    (hworkers : s'.workers = (s.go id stage).workers) (hstage : stage.Sound calendar settings s' id)
    (hothers : ∀ i, i ≠ id → Later s s' i) (i : ℕ) (other : Stage)
    (hi : s'.workers i = some other) : other.Sound calendar settings s' i := by
  rw [hworkers] at hi
  by_cases hid : i = id
  · subst hid
    exact Option.some.inj (workers_go_self.symm.trans hi) ▸ hstage
  · rw [workers_go_of_ne hid] at hi
    exact (h.stages i other hi).later (hothers i hid)

/-- Nobody else is in the lane when a worker holds it. -/
theorem Sound.nobody (h : Sound calendar settings s) (hid : ∀ row, s.workers id ≠ some (.inside row))
    (hheld : s.lock = some id) (i : ℕ) (row : MetadataProviderBudget) :
    s.workers i ≠ some (.inside row) := by
  intro hi
  have hother := (h.stages i _ hi).1
  obtain rfl := Option.some.inj (hheld.symm.trans hother)
  exact hid row hi

/-- A worker that goes on without a request and without a write. -/
theorem Sound.quiet (h : Sound calendar settings s) {stage : Stage} (lock : Option ℕ)
    (hid : ∀ row, s.workers id ≠ some (.inside row))
    (hstage : stage.Sound calendar settings { s.go id stage with lock := lock } id)
    (hlock : ∀ i, i ≠ id → s.lock = some i → lock = some i) :
    Sound calendar settings { s.go id stage with lock := lock } where
  kept := ⟨h.kept.forward, h.kept.cooled, h.kept.spaced, h.kept.monthly, h.kept.daily⟩
  deferred := h.deferred
  past := h.past
  between := by
    intro hnobody
    obtain ⟨hclear, hcounts⟩ := h.between fun i row hi ↦ by
      by_cases heq : i = id
      · exact hid row (heq ▸ hi)
      · exact hnobody i row ((workers_go_of_ne heq).trans hi)
    exact ⟨hclear, hcounts.later rfl (Nat.le_refl _)⟩
  stages := stages_go h rfl hstage fun i heq ↦ ⟨fun hheld ↦ ⟨hlock i heq hheld, rfl⟩, Nat.le_refl _⟩

theorem Sound.release (h : Sound calendar settings s) {stage : Stage}
    (hid : ∀ row, s.workers id ≠ some (.inside row))
    (hstage : ∀ s', stage.Sound calendar settings s' id) :
    Sound calendar settings (s.release id stage) :=
  h.quiet _ hid (hstage _) fun i heq hheld ↦ by
    rw [hheld]
    exact if_neg fun h ↦ heq (Option.some.inj h)

/-- A request that is sent when nothing holds it back. -/
theorem Sound.admitted (h : Sound calendar settings s)
    (hid : ∀ row, s.workers id ≠ some (.inside row)) (hheld : s.lock = some id)
    (hnow : now ≤ s.clock) (hcounts : Counts calendar settings s row)
    (hclear : Clear settings s s.clock)
    (hsafe : (account calendar settings row now).isOk = true → Rested calendar settings s now) :
    Sound calendar settings (s.admitted calendar settings id row now) := by
  rw [Server.admitted]
  cases hok : account calendar settings row now with
  | error error => exact h.release hid fun _ ↦ trivial
  | ok counted =>
    obtain ⟨hdeferred, hmonth, hday⟩ := hsafe (by rw [hok]; rfl)
    have ha := account_eq_ok hok
    refine ⟨⟨h.kept.forward, ?_, ?_, ?_, ?_⟩, h.deferred, ?_, ?_, ?_⟩
    · intro r hr
      rcases List.mem_cons.mp hr with rfl | hr
      · exact hdeferred
      · exact h.kept.cooled r hr
    · exact List.pairwise_cons.mpr ⟨hclear, h.kept.spaced⟩
    · intro hrawg
      refine (hcounts.monthly hrawg).countP_cons_le hcounts.month ?_ (h.kept.monthly hrawg)
      rw [roll, hmonth hrawg]
      exact ha.monthly hrawg
    · intro hhardcover
      refine (hcounts.daily hhardcover).countP_cons_le hcounts.day ?_ (h.kept.daily hhardcover)
      rw [roll, hday hhardcover]
      exact (ha.daily hhardcover).2.2
    · intro time ht
      rcases List.mem_cons.mp ht with rfl | ht
      · exact Nat.le_refl _
      · exact h.past time ht
    · intro hnobody
      exact absurd workers_go_self (hnobody id counted)
    · exact stages_go h rfl ⟨hheld, hcounts.cons hnow hmonth hday ha rfl rfl⟩ fun i heq ↦
        ⟨fun hother ↦ absurd (Option.some.inj (hother.symm.trans hheld)) heq, Nat.le_refl _⟩

theorem Sound.entered (h : Sound calendar settings s) (hlocked : s.workers id = some .locked) :
    Sound calendar settings (s.entered calendar settings id) := by
  have hid (row : MetadataProviderBudget) : s.workers id ≠ some (.inside row) := by
    rw [hlocked]
    simp
  have hheld : s.lock = some id := h.stages id _ hlocked
  obtain ⟨hclear, hcounts⟩ := h.between (h.nobody hid hheld)
  have hsend (hnext : s.nextRequest ≤ s.clock) :
      Sound calendar settings (s.admitted calendar settings id (s.row.getD .new) s.clock) := by
    refine h.admitted hid hheld (Nat.le_refl _) hcounts (fun time ht ↦ ?_) fun _ ↦
      ⟨?_, fun _ ↦ rfl, fun _ ↦ rfl⟩
    · exact Nat.le_trans (hclear time ht) hnext
    · exact Nat.le_trans (Nat.le_trans h.deferred h.kept.forward) hnext
  have hnext : s.nextRequest = ((s.row.getD .new).nextRequestAt).getD 0 := by
    rw [Server.nextRequest]
    cases s.row <;> rfl
  rw [Server.entered]
  cases hstored : (s.row.getD .new).nextRequestAt with
  | none =>
    rw [hstored] at hnext
    exact hsend (hnext ▸ Nat.zero_le _)
  | some next =>
    rw [hstored] at hnext
    dsimp only
    split_ifs with hearly
    · exact h.release hid fun _ ↦ trivial
    · refine h.quiet s.lock hid ⟨hheld, Nat.le_refl _, ?_, ?_⟩ fun _ _ hother ↦ hother
      · exact hcounts.later rfl (Nat.le_refl _)
      · exact fun time ht ↦ Nat.le_trans (hclear time ht) (Nat.le_of_eq hnext)
    · exact hsend (hnext ▸ Nat.not_lt.mp hearly)

theorem Sound.exit (h : Sound calendar settings s) (hinside : s.workers id = some (.inside row))
    (hsafe : s.nextRequest ≤ s.clock + settings.interval) :
    Sound calendar settings (s.exit settings id row) := by
  obtain ⟨hheld, hcounts⟩ := h.stages id _ hinside
  refine ⟨⟨?_, h.kept.cooled, h.kept.spaced, h.kept.monthly, h.kept.daily⟩, ?_, h.past, ?_, ?_⟩
  · exact Nat.max_le.mpr ⟨Nat.le_trans h.kept.forward hsafe, Nat.le_refl _⟩
  · exact Nat.le_trans h.deferred (Nat.le_max_left _ _)
  · have hcounts : Counts calendar settings (s.exit settings id row) row :=
      hcounts.later rfl (Nat.le_refl _)
    exact fun _ ↦ ⟨fun time ht ↦ Nat.add_le_add_right (h.past time ht) _,
      hcounts.congr rfl rfl rfl rfl⟩
  · exact stages_go h rfl trivial fun i heq ↦
      ⟨fun hother ↦ absurd (Option.some.inj (hother.symm.trans hheld)) heq, Nat.le_refl _⟩

theorem Sound.defer (h : Sound calendar settings s)
    (hid : ∀ row, s.workers id ≠ some (.inside row)) (hsafe : s.row ≠ none) (deadline : ℕ) :
    Sound calendar settings (s.defer id deadline) := by
  obtain ⟨row, hrow⟩ := Option.ne_none_iff_exists'.mp hsafe
  have hnext : (s.defer id deadline).nextRequest = max s.nextRequest deadline := by
    rw [Server.defer, Server.nextRequest, Server.nextRequest, hrow]
    rfl
  refine ⟨⟨?_, h.kept.cooled, h.kept.spaced, h.kept.monthly, h.kept.daily⟩, ?_, h.past, ?_, ?_⟩
  · rw [hnext]
    exact max_le_max h.kept.forward (Nat.le_refl _)
  · exact max_le_max h.deferred (Nat.le_refl deadline)
  · intro hnobody
    obtain ⟨hclear, hcounts⟩ := h.between fun i row hi ↦ by
      by_cases heq : i = id
      · exact hid row (heq ▸ hi)
      · exact hnobody i row ((workers_go_of_ne heq).trans hi)
    refine ⟨fun time ht ↦ ?_, ?_⟩
    · rw [hnext]
      exact Nat.le_trans (hclear time ht) (Nat.le_max_left _ _)
    · rw [hrow, Option.getD_some] at hcounts
      have hcounts : Counts calendar settings (s.defer id deadline) row :=
        hcounts.later rfl (Nat.le_refl _)
      rw [Server.defer, hrow] at hcounts ⊢
      exact hcounts.congr rfl rfl rfl rfl
  · refine stages_go h rfl trivial fun i heq ↦ ⟨fun hother ↦ ⟨?_, rfl⟩, Nat.le_refl _⟩
    rw [Server.defer, Server.release, hother]
    exact if_neg fun h ↦ heq (Option.some.inj h)

theorem Sound.advance (h : Sound calendar settings s) {stage : Stage}
    (hid : s.workers id = some stage) (hsafe : stage.Safe calendar settings s) :
    Sound calendar settings (s.advance calendar settings id stage) := by
  have hstage := h.stages id stage hid
  have hout (hno : ∀ row, stage ≠ .inside row) (row : MetadataProviderBudget) :
      s.workers id ≠ some (.inside row) := by
    rw [hid]
    exact fun heq ↦ hno row (Option.some.inj heq)
  cases stage with
  | arrived =>
    rw [Server.advance]
    split_ifs with hfree
    · exact h.quiet (some id) (hout (by simp)) rfl fun _ _ hheld ↦ by cases hfree.symm.trans hheld
    · exact h
  | locked => exact h.entered hid
  | sleeping row now wake =>
    obtain ⟨hheld, hnow, hcounts, hclear⟩ := hstage
    rw [Server.advance]
    split_ifs with hearly
    · exact h
    · have hwake := Nat.not_lt.mp hearly
      exact h.admitted (hout (by simp)) hheld hnow hcounts
        (fun time ht ↦ Nat.le_trans (hclear time ht) hwake) fun hok ↦ hsafe ⟨hwake, hok⟩
  | inside row => exact h.exit hid hsafe
  | deferring deadline => exact h.defer (hout (by simp)) hsafe deadline
  | failed _ | left => exact h

theorem Sound.step (h : Sound calendar settings s) (event : Event)
    (hsafe : Safe calendar settings s event) :
    Sound calendar settings (step calendar settings s event) := by
  have hnew (id : ℕ) (stage : Stage) (hid : s.workers id = none)
      (hstage : ∀ s', stage.Sound calendar settings s' id) :
      Sound calendar settings (s.go id stage) :=
    h.quiet s.lock (by simp [hid]) (hstage _) fun _ _ hheld ↦ hheld
  cases event with
  | enter id =>
    rw [ProviderLane.step]
    split_ifs with hid
    · exact hnew id _ hid fun _ ↦ trivial
    · exact h
  | defer id delay =>
    rw [ProviderLane.step]
    split_ifs with hid
    · exact hnew id _ hid fun _ ↦ trivial
    · exact h
  | advance id =>
    rw [ProviderLane.step]
    cases hid : s.workers id with
    | none => exact h
    | some stage => exact h.advance hid (hsafe stage hid)
  | pass time =>
    refine ⟨⟨h.kept.forward, h.kept.cooled, h.kept.spaced, h.kept.monthly, h.kept.daily⟩,
      h.deferred, fun time ht ↦ Nat.le_trans (h.past time ht) (Nat.le_add_right _ _),
      fun hnobody ↦ ?_, fun i stage hi ↦ ?_⟩
    · obtain ⟨hclear, hcounts⟩ := h.between hnobody
      exact ⟨hclear, hcounts.later rfl (Nat.le_add_right _ _)⟩
    · exact (h.stages i stage hi).later ⟨fun hheld ↦ ⟨hheld, rfl⟩, Nat.le_add_right _ _⟩

theorem sound_initial : Sound calendar settings .initial where
  kept := ⟨Nat.le_refl _, fun _ hr ↦ absurd hr List.not_mem_nil, .nil,
    fun _ _ ↦ Nat.zero_le _, fun _ _ ↦ Nat.zero_le _⟩
  deferred := Nat.le_refl _
  past := fun _ ht ↦ absurd ht List.not_mem_nil
  between := fun _ ↦ ⟨fun _ ht ↦ absurd ht List.not_mem_nil,
    fun _ ↦ tallies_nil, fun _ ↦ tallies_nil, fun _ hm ↦ (by cases hm), fun _ hd ↦ by cases hd⟩
  stages := fun _ _ hi ↦ by cases hi

end law

/-- In a run whose steps all find what they need, no cooldown is shortened and no budget is
exceeded. -/
theorem kept_of_throughout (calendar : Calendar) (settings : Settings) (events : List Event)
    (h : Throughout (step calendar settings) (Safe calendar settings) .initial events) (n : ℕ) :
    Kept calendar settings ((events.take n).foldl (step calendar settings) .initial) :=
  ((h.take n).invariant sound_initial fun _ event hs hsafe ↦ hs.step event hsafe).kept

/-- Months of thirty days. -/
def evenMonths : Calendar :=
  ⟨fun now ↦ now / seconds (30 * 86400), fun _ _ h ↦ Nat.div_le_div_right h⟩

def rawgSettings : Settings := ⟨"rawg", seconds 1, 19000, 0⟩

/-- A request, a deferral, and a request that sleeps until the deadline. -/
def patientRun : List Event :=
  [.enter 1, .advance 1, .advance 1, .advance 1, .defer 2 (seconds 4), .advance 2, .enter 3,
    .advance 3, .advance 3, .pass (seconds 4), .advance 3, .advance 3]

theorem patientRun_kept :
    (patientRun.foldl (step evenMonths rawgSettings) .initial).times = [seconds 4, 0] ∧
      Kept evenMonths rawgSettings
        ((patientRun.take 12).foldl (step evenMonths rawgSettings) .initial) :=
  ⟨by decide, kept_of_throughout evenMonths rawgSettings patientRun (by decide) 12⟩

/-- A worker is in the lane when another defers, and leaves it afterwards. -/
def overwrittenDeferral : List Event :=
  [.enter 1, .advance 1, .advance 1, .defer 2 (seconds 60), .advance 1, .advance 2,
    .pass (seconds 60), .enter 3, .advance 3, .advance 3, .defer 4 (seconds 60), .advance 4,
    .advance 3, .pass (seconds 1), .enter 5, .advance 5, .advance 5]

/-- The next request is sent before the deadline that the provider was deferred to. -/
theorem overwrittenDeferral_notKept :
    (overwrittenDeferral.foldl (step evenMonths rawgSettings) .initial).sent.head? =
        some ⟨seconds 61, seconds 120⟩ ∧
      ¬∀ n, Kept evenMonths rawgSettings
        ((overwrittenDeferral.take n).foldl (step evenMonths rawgSettings) .initial) := by
  have hhead : (overwrittenDeferral.foldl (step evenMonths rawgSettings) .initial).sent.head? =
      some ⟨seconds 61, seconds 120⟩ := by decide
  refine ⟨hhead, fun h ↦ ?_⟩
  have hcooled := (h 17).cooled _ (List.mem_of_mem_head? hhead)
  simp [seconds] at hcooled

end AnyList.Catalogue.ProviderLane
