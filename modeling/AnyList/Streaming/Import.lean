import AnyList.Streaming.Account

namespace AnyList.Streaming

open AnyList.Library AnyList.Timestamps
open AnyList.Reconciliation.Watches (Status)

/-- The stored viewing of a title: what was watched, whether something is playing, the days of
its plays, and the dated completed plays. -/
structure Evidence where
  watched : List ℕ
  playing : Bool
  days : List Int
  dated : List (ℕ × Int)

namespace Evidence

def none : Evidence := ⟨[], false, [], []⟩

def dayOf (t : Int) : Int := t - t % 86400000000

def addPlay (e : Evidence) (play : Play) : Evidence where
  watched := if play.completed then e.watched ++ [play.mediaId] else e.watched
  playing := e.playing || !play.completed
  days := e.days ++ (play.watchedAt.map dayOf).toList
  dated := if play.completed then e.dated ++ (play.watchedAt.map fun t ↦ (play.mediaId, t)).toList
    else e.dated

def addPlaying (e : Evidence) : Evidence := { e with playing := true }

def datesOf (e : Evidence) (mediaId : ℕ) : List Int :=
  (e.dated.filter fun entry ↦ decide (entry.1 = mediaId)).map Prod.snd

end Evidence

section evidence

variable (cat : Catalogue)

def addEvidence (evidence : Dict ℕ Evidence) (title : ℕ) (f : Evidence → Evidence) :
    Dict ℕ Evidence :=
  evidence.set title (f ((evidence.get title).getD .none))

def playEvidence (evidence : Dict ℕ Evidence) (play : Play) : Dict ℕ Evidence :=
  match cat.titleOf play.mediaId with
  | some title => addEvidence evidence title (·.addPlay play)
  | none => evidence

def playingEvidence (evidence : Dict ℕ Evidence) (mediaId : ℕ) : Dict ℕ Evidence :=
  match cat.titleOf mediaId with
  | some title => addEvidence evidence title Evidence.addPlaying
  | none => evidence

def collectEvidence (t : Tracking) : Dict ℕ Evidence :=
  t.rated.foldl (fun evidence title ↦ addEvidence evidence title id)
    (t.playing.foldl (playingEvidence cat) (t.plays.foldl (playEvidence cat) .empty))

/-- What is stored of a deleted title is deleted with it. -/
def dropDeleted (deleted : ℕ → Bool) (t : Tracking) : Tracking :=
  let isDeleted (mediaId : ℕ) : Bool := (cat.titleOf mediaId).any deleted
  { t with
    plays := t.plays.filter fun play ↦ !isDeleted play.mediaId
    playing := t.playing.filter fun mediaId ↦ !isDeleted mediaId
    rated := t.rated.filter fun mediaId ↦ !deleted mediaId }

end evidence

section titles

variable (cat : Catalogue) (now : Int)

/-- The episodes before the last watched one, with the dates of the episodes after them. -/
def fillIns (e : Evidence) : List Episode → List (Episode × Int)
  | [] => []
  | episode :: later =>
    if later.any fun next ↦ decide (next.mediaId ∈ e.watched) then
      let date := (later.findSome? fun next ↦ (e.datesOf next.mediaId).max?).or e.days.max?
      if episode.mediaId ∈ e.watched then fillIns e later
      else (episode, milliseconds (date.getD now)) :: fillIns e later
    else []

def filledPlay (fill : Episode × Int) : Play where
  mediaId := fill.1.mediaId
  completed := true
  watchedAt := some fill.2
  dateInferred := true
  dateShared := false
  createdAt := now

/-- The number of episodes up to the last watched one. -/
def reached (e : Evidence) (episodes : List Episode) : ℕ :=
  (episodes.reverse.dropWhile fun episode ↦ decide (episode.mediaId ∉ e.watched)).length

def importedEntry (media : Media) (e : Evidence) (count : ℕ) (complete : Bool) : TrackedEntry where
  status := observedStatus none complete (e.playing || decide (0 < count))
  progress := count
  startDate := if media.kind = .movie ∧ complete = true then none else e.days.min?
  finishDate := if complete then
      match media.kind with
      | .movie => ((e.datesOf media.id).map Evidence.dayOf).min?
      | .series => e.days.max?
    else none
  statusSource := .other "history-import"
  statusChangedAt := some (milliseconds now)
  updatedAt := now

def importTitle (t : Tracking) (media : Media) (e : Evidence) : Tracking :=
  match media.kind with
  | .movie =>
    let count := e.watched.dedup.length
    t.setEntry media.id (importedEntry now media e count (decide (0 < count)))
  | .series =>
    let episodes := (e.watched.findSome? cat.siblings).getD []
    let count := if 0 < reached e episodes then reached e episodes else e.watched.dedup.length
    let complete := cat.refreshed media.id && decide (episodes ≠ [] ∧ count = episodes.length)
    { t with plays := t.plays ++ (fillIns now e episodes).map (filledPlay now) }.setEntry media.id
      (importedEntry now media e count complete)

/-- A title of the list keeps what its owner chose. -/
def importStep (acc : Tracking × List ℕ) (item : ℕ × Evidence) : Tracking × List ℕ :=
  match acc.1.entries.get item.1, cat.byId item.1 with
  | none, some media => (importTitle cat now acc.1 media item.2, acc.2 ++ [item.1])
  | _, _ => acc

/-- Imports stored viewing into the list, and the titles it added. -/
def importTrackingHistory (deleted : ℕ → Bool) (t : Tracking) : Tracking × List ℕ :=
  let kept := dropDeleted cat deleted t
  (collectEvidence cat kept).entries.foldl (importStep cat now) (kept, [])

end titles

end AnyList.Streaming
