import AnyList.Library.Runs
import AnyList.Library.Quotas
import Mathlib.Logic.Function.Basic
import Mathlib.Data.Nat.Basic
import Mathlib.Order.Monotone.Defs

namespace AnyList.Catalogue.ProviderLane

open AnyList.Library.Runs AnyList.Library.Tally

/-- The shared row of a provider; times are in microseconds. -/
structure MetadataProviderBudget where
  nextRequestAt : Option ℕ
  month : Option ℕ
  day : Option ℕ
  dailyRequestCount : ℕ
  requestCount : ℕ
  deriving DecidableEq

/-- A row that a lane has inserted. -/
def MetadataProviderBudget.new : MetadataProviderBudget := ⟨none, none, none, 0, 0⟩

namespace MetadataProviderBudget

variable (row : MetadataProviderBudget) (period : ℕ)

/-- A new month starts its count again. -/
def inMonth : MetadataProviderBudget :=
  if row.month ≠ some period then { row with month := some period, requestCount := 0 } else row

/-- A new day starts its count again. -/
def inDay : MetadataProviderBudget :=
  if row.day ≠ some period then { row with day := some period, dailyRequestCount := 0 } else row

theorem month_inMonth : (row.inMonth period).month = some period := by
  rw [inMonth]
  split_ifs with h
  · rfl
  · exact not_not.mp h

theorem requestCount_inMonth : (row.inMonth period).requestCount =
    if row.month = some period then row.requestCount else 0 := by
  by_cases h : row.month = some period <;> simp [inMonth, h]

theorem day_inMonth : (row.inMonth period).day = row.day := by
  rw [inMonth]
  split_ifs <;> rfl

theorem dailyRequestCount_inMonth :
    (row.inMonth period).dailyRequestCount = row.dailyRequestCount := by
  rw [inMonth]
  split_ifs <;> rfl

theorem day_inDay : (row.inDay period).day = some period := by
  rw [inDay]
  split_ifs with h
  · rfl
  · exact not_not.mp h

theorem dailyRequestCount_inDay : (row.inDay period).dailyRequestCount =
    if row.day = some period then row.dailyRequestCount else 0 := by
  by_cases h : row.day = some period <;> simp [inDay, h]

theorem month_inDay : (row.inDay period).month = row.month := by
  rw [inDay]
  split_ifs <;> rfl

theorem requestCount_inDay : (row.inDay period).requestCount = row.requestCount := by
  rw [inDay]
  split_ifs <;> rfl

end MetadataProviderBudget

structure ProviderError where
  code : String
  retryAfter : Option ℕ
  deriving DecidableEq

/-- The months of the calendar, by their number. -/
structure Calendar where
  month : ℕ → ℕ
  monotone : Monotone month

def seconds (n : ℕ) : ℕ := n * 1000000

def day (now : ℕ) : ℕ := now / seconds 86400

structure Settings where
  provider : String
  interval : ℕ
  rawgMonthlyBudget : ℕ
  hardcoverDailyBudget : ℕ

inductive Stage
  | arrived
  | locked
  | sleeping (row : MetadataProviderBudget) (now wake : ℕ)
  | inside (row : MetadataProviderBudget)
  | deferring (deadline : ℕ)
  | failed (error : ProviderError)
  | left
  deriving DecidableEq

/-- A request that entered the lane, with the latest deadline deferred to before. -/
structure Sent where
  time : ℕ
  deferred : ℕ
  deriving DecidableEq

/-- The row, the worker that holds the lane, and the workers. The server notes the latest time the
next request was put off to, by anybody and by deferrals, and the requests. -/
structure Server where
  row : Option MetadataProviderBudget
  clock : ℕ
  lock : Option ℕ
  workers : ℕ → Option Stage
  reached : ℕ
  deferred : ℕ
  sent : List Sent

inductive Event
  | enter (id : ℕ)
  | defer (id delay : ℕ)
  | advance (id : ℕ)
  | pass (time : ℕ)

section lane

variable (calendar : Calendar) (settings : Settings)

/-- The accounting of a request. -/
def account (row : MetadataProviderBudget) (now : ℕ) :
    Except ProviderError MetadataProviderBudget :=
  let row := row.inMonth (calendar.month now)
  if settings.provider = "rawg" ∧ settings.rawgMonthlyBudget ≤ row.requestCount then
    .error ⟨"monthly_budget", none⟩
  else if settings.provider = "hardcover" then
    let row := row.inDay (day now)
    if settings.hardcoverDailyBudget ≤ row.dailyRequestCount then
      .error ⟨"daily_budget", some ((day now + 1) * seconds 86400 - now)⟩
    else .ok { row with
      dailyRequestCount := row.dailyRequestCount + 1
      requestCount := row.requestCount + 1 }
  else .ok { row with requestCount := row.requestCount + 1 }

namespace Server

variable (s : Server) (id : ℕ)

def initial : Server := ⟨none, 0, none, fun _ ↦ none, 0, 0, []⟩

def nextRequest : ℕ := (s.row.bind MetadataProviderBudget.nextRequestAt).getD 0

def go (stage : Stage) : Server :=
  { s with workers := Function.update s.workers id (some stage) }

/-- A worker whose transaction ends, and with it its hold on the lane. -/
def release (stage : Stage) : Server :=
  { s.go id stage with lock := if s.lock = some id then none else s.lock }

/-- A worker that has waited, and sends its request if the budget admits it. -/
def admitted (row : MetadataProviderBudget) (now : ℕ) : Server :=
  match account calendar settings row now with
  | .error error => s.release id (.failed error)
  | .ok row => { s.go id (.inside row) with sent := ⟨s.clock, s.deferred⟩ :: s.sent }

/-- The row and the time that a worker finds when it has the lane. -/
def entered : Server :=
  let row := s.row.getD .new
  match row.nextRequestAt with
  | none => s.admitted calendar settings id row s.clock
  | some next =>
    if s.clock < next then
      if seconds 5 < next - s.clock then
        s.release id (.failed ⟨"rate_limited", some (next - s.clock)⟩)
      else s.go id (.sleeping row s.clock next)
    else s.admitted calendar settings id row s.clock

/-- The end of a request, which writes the row that the worker read when it entered. -/
def exit (row : MetadataProviderBudget) : Server :=
  { s.release id .left with
    row := some { row with nextRequestAt := some (s.clock + settings.interval) }
    reached := max s.reached (s.clock + settings.interval) }

/-- The later of a stored time and a deadline. -/
def greatest (stored : Option ℕ) (deadline : ℕ) : ℕ := max (stored.getD 0) deadline

def defer (deadline : ℕ) : Server :=
  { s.release id .left with
    row := s.row.map fun row ↦
      { row with nextRequestAt := some (greatest row.nextRequestAt deadline) }
    reached := max s.reached deadline
    deferred := max s.deferred deadline }

def advance : Stage → Server
  | .arrived => if s.lock = none then { s.go id .locked with lock := some id } else s
  | .locked => s.entered calendar settings id
  | .sleeping row now wake =>
    if s.clock < wake then s else s.admitted calendar settings id row now
  | .inside row => s.exit settings id row
  | .deferring deadline => s.defer id deadline
  | .failed _ | .left => s

end Server

def step (s : Server) : Event → Server
  | .enter id => if s.workers id = none then s.go id .arrived else s
  | .defer id delay => if s.workers id = none then s.go id (.deferring (s.clock + delay)) else s
  | .advance id => (s.workers id).elim s (s.advance calendar settings id)
  | .pass time => { s with clock := s.clock + time }

end lane

end AnyList.Catalogue.ProviderLane
