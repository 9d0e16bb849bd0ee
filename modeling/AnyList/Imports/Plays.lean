import AnyList.Reconciliation.WatchDates

namespace AnyList.Imports

open AnyList.Timestamps
open AnyList.Reconciliation.WatchDates (day isMidnight)

/-- A watch event of one title, with naive dates in microseconds. -/
structure Play where
  watchedAt : Option Int
  createdAt : Int
  completed : Bool
  dateInferred : Bool
  dateShared : Bool
  provisional : Bool
  deriving DecidableEq

namespace Play

def isReplaceable (play : Play) : Bool := play.completed && (play.dateInferred || play.dateShared)

def isConfident (play : Play) : Bool := play.completed && !play.dateInferred

def effectiveTime (play : Play) : Int := play.watchedAt.getD play.createdAt

end Play

section reconcile

def replaceInferredWatchDate (play : Play) (watchedAt : Option Int) (inferred : Bool) :
    Play × Bool :=
  match watchedAt.map milliseconds with
  | none => (play, false)
  | some normalized =>
    if play.watchedAt ≠ none ∧ ¬play.dateInferred ∧ ¬play.dateShared then (play, false)
    else if inferred ∧ play.watchedAt ≠ none ∧ ¬play.dateShared then (play, false)
    else ({ play with watchedAt := some normalized, dateInferred := inferred, dateShared := false },
      true)

/-- The plays once a reported date has replaced the sole estimate among them, or `none` where the
date is no news of an estimate. -/
def reconcileInferredWatchDate (plays : List Play) (watchedAt : Int) (authoritative : Bool) :
    Option (List Play) :=
  let normalized := milliseconds watchedAt
  if plays.any fun p ↦ p.isConfident && decide (p.watchedAt = some normalized) then none
  else
    match plays.filter Play.isReplaceable with
    | [candidate] =>
      let current := candidate.watchedAt.map milliseconds
      if current = some normalized then some plays
      else if ¬candidate.dateShared ∧ current.map day = some (day normalized) ∧
          (¬authoritative ∨ isMidnight normalized) then some plays
      else if (replaceInferredWatchDate candidate (some normalized) false).2 then
        some (plays.map fun p ↦
          if p.isReplaceable then (replaceInferredWatchDate p (some normalized) false).1 else p)
      else none
    | _ => none

end reconcile

end AnyList.Imports
