import AnyList.Editor.ProgressRequests
import Mathlib.Data.List.Nodup
import Mathlib.Data.List.TakeDrop

namespace AnyList.Editor.ProgressRequests

open AnyList.Library.Transactions AnyList.Library.Transactions.Request AnyList.Timestamps
open AnyList.Reconciliation.Watches (Status)

section plays

variable {ids adding : List ℕ} {id watchedAt : ℕ} {plays : List Play} {at' : Int}

def Watched (plays : List Play) (id : ℕ) : Prop :=
  ∃ play ∈ plays, play.mediaId = id ∧ play.completed = true

theorem mem_watchedIds : id ∈ watchedIds ids plays ↔ id ∈ ids ∧ Watched plays id := by
  simp [watchedIds, Watched]

theorem watched_dateShared : Watched (dateShared ids at' plays) id ↔ Watched plays id := by
  have hplay (play : Play) : ((if play.mediaId ∈ ids ∧ play.completed ∧ play.dateShared then
      { play with watchedAt := some at', dateInferred := true, dateShared := false }
      else play : Play).mediaId = id ∧ (if play.mediaId ∈ ids ∧ play.completed ∧ play.dateShared then
      { play with watchedAt := some at', dateInferred := true, dateShared := false }
      else play : Play).completed = true) ↔ play.mediaId = id ∧ play.completed = true := by
    split_ifs <;> rfl
  simp only [Watched, dateShared, List.mem_map, exists_exists_and_eq_and, hplay]

theorem watched_addPlays :
    Watched (addPlays adding at' plays) id ↔ Watched plays id ∨ id ∈ adding := by
  simp only [Watched, addPlays, List.mem_append, or_and_right, exists_or, List.mem_map,
    exists_exists_and_eq_and]
  simp

theorem watched_removePlays :
    Watched (removePlays ids plays) id ↔ Watched plays id ∧ id ∉ ids := by
  simp only [Watched, removePlays, List.mem_filter, decide_eq_true_eq]
  refine ⟨?_, ?_⟩
  · rintro ⟨play, ⟨hplay, hnot⟩, rfl, hcompleted⟩
    exact ⟨⟨play, hplay, rfl, hcompleted⟩, hnot⟩
  · rintro ⟨⟨play, hplay, rfl, hcompleted⟩, hnot⟩
    exact ⟨play, ⟨hplay, hnot⟩, rfl, hcompleted⟩

end plays

section catalogue

variable {cat : Catalogue} {now : Now} {title : TitleRow}

theorem nodup_releasedEpisodes (cat : Catalogue) (now : Now) (title : TitleRow) :
    ((releasedEpisodes cat now title).map Episode.id).Nodup := by
  rw [releasedEpisodes]
  cases title.type with
  | movie => dsimp only; split_ifs <;> simp
  | series =>
    dsimp only
    split
    · simp
    · refine ((List.perm_insertionSort _ _).map Episode.id).nodup_iff.mpr ?_
      rw [List.map_map]
      exact cat.nodup.sublist (List.filter_sublist.map _)

end catalogue

section target

variable {edit : EntryEdit} {ids watched : List ℕ} {requested : Option ℕ}

theorem lastWatched_le : EntryEdit.lastWatched ids watched ≤ ids.length := by
  have hfold (entries : List (ℕ × ℕ)) (n : ℕ) (hn : n ≤ ids.length)
      (hentries : ∀ entry ∈ entries, entry.2 < ids.length) :
      entries.foldl (fun n (entry : ℕ × ℕ) ↦ max n (entry.2 + 1)) n ≤ ids.length := by
    induction entries generalizing n with
    | nil => exact hn
    | cons entry entries ih =>
      refine ih _ (max_le hn (hentries entry List.mem_cons_self)) fun entry' hentry' ↦ ?_
      exact hentries entry' (List.mem_cons_of_mem entry hentry')
  refine hfold _ 0 (Nat.zero_le _) fun entry hentry ↦ ?_
  have hmem := List.mem_zipIdx (List.mem_of_mem_filter hentry)
  omega

theorem target_le (hchange : ∀ id watched, edit.episodeChange = some (id, watched) → id ∈ ids)
    (hrequested : ∀ n ∈ requested, n ≤ ids.length) :
    edit.target ids watched requested ≤ ids.length := by
  rw [EntryEdit.target]
  split
  · cases requested with
    | none => exact Nat.zero_le _
    | some n => exact hrequested n rfl
  · next id hsome => exact max_le (List.idxOf_lt_length_of_mem (hchange id true hsome)) lastWatched_le
  · next id hsome => exact (List.idxOf_lt_length_of_mem (hchange id false hsome)).le

end target

/-- The first `target` episodes are watched, and none of the others. -/
def OnlyFirst (episodes : List Episode) (target : ℕ) (plays : List Play) : Prop :=
  ∀ episode ∈ episodes, Watched plays episode.id ↔ episode ∈ episodes.take target

theorem mem_take_iff {episodes : List Episode} (hnodup : (episodes.map Episode.id).Nodup) {n : ℕ}
    {episode : Episode} (h : episode ∈ episodes) :
    episode ∈ episodes.take n ↔ episode.id ∈ (episodes.map Episode.id).take n := by
  rw [← List.map_take]
  refine ⟨List.mem_map_of_mem, fun hid ↦ ?_⟩
  obtain ⟨other, hother, heq⟩ := List.mem_map.mp hid
  exact List.inj_on_of_nodup_map hnodup (List.mem_of_mem_take hother) h heq ▸ hother

section saving

variable {A O : Type} {fx : Effects A O} {cat : Catalogue} {now : Now} {title : TitleRow}
  {edit : EntryEdit} {previous : Option EntryRow} {entry : EntryRow} {plays : List Play}

/-- The plays after a save of the first `n` of the episodes `ids`. -/
theorem watched_saved {ids marking adding removing : List ℕ} {n : ℕ} {at' : Int} {id : ℕ}
    (hnodup : ids.Nodup) (hid : id ∈ ids)
    (hmarking : ∀ id, id ∈ ids.take n → id ∉ watchedIds ids plays → id ∈ adding)
    (hadding : ∀ id ∈ adding, id ∈ ids.take n)
    (hremoving : removing = (watchedIds ids plays).filter fun id ↦ decide (id ∈ ids.drop n)) :
    Watched (if removing ≠ [] then
        removePlays (ids.drop n) (addPlays adding at' (dateShared marking at' plays))
      else addPlays adding at' (dateShared marking at' plays)) id ↔ id ∈ ids.take n := by
  have hsplit : id ∈ ids.take n ∨ id ∈ ids.drop n := by
    rw [← List.mem_append, List.take_append_drop]
    exact hid
  have hdisjoint : id ∈ ids.take n → id ∉ ids.drop n := fun htake hdrop ↦
    List.disjoint_take_drop hnodup le_rfl htake hdrop
  have hunwatched : removing = [] → id ∈ ids.drop n → ¬Watched plays id := by
    intro hnil hdrop hwatched
    rw [hremoving, List.filter_eq_nil_iff] at hnil
    exact hnil id (mem_watchedIds.mpr ⟨hid, hwatched⟩) (decide_eq_true hdrop)
  have hadded : Watched (addPlays adding at' (dateShared marking at' plays)) id ↔
      Watched plays id ∨ id ∈ adding := by
    rw [watched_addPlays, watched_dateShared]
  have hkept : id ∈ ids.take n → Watched plays id ∨ id ∈ adding := by
    intro htake
    by_cases hwatched : Watched plays id
    · exact .inl hwatched
    · exact .inr (hmarking id htake fun hmem ↦ hwatched (mem_watchedIds.mp hmem).2)
  split_ifs with hnil
  · rw [watched_removePlays, hadded]
    refine ⟨fun ⟨_, hnot⟩ ↦ hsplit.resolve_right hnot, fun htake ↦ ⟨hkept htake, hdisjoint htake⟩⟩
  · rw [hadded]
    refine ⟨fun hwatched ↦ ?_, hkept⟩
    refine hsplit.resolve_right fun hdrop ↦ ?_
    obtain hwatched | hwatched := hwatched
    · exact hunwatched (not_ne_iff.mp hnil) hdrop hwatched
    · exact hdisjoint (hadding id hwatched) hdrop

/-- What a request for progress aims at, from the plays and the statuses before and after. -/
def goal (cat : Catalogue) (now : Now) (title : TitleRow) (edit : EntryEdit) (plays : List Play)
    (previous : Option Status) (status : Status) : ℕ :=
  let episodes := releasedEpisodes cat now title
  let ids := episodes.map Episode.id
  edit.target ids (watchedIds ids plays) (edit.requested title episodes previous status)

/-- The episodes that a request takes back. -/
def takenBack (cat : Catalogue) (now : Now) (title : TitleRow) (plays : List Play) (n : ℕ) :
    List ℕ :=
  let ids := (releasedEpisodes cat now title).map Episode.id
  (watchedIds ids plays).filter fun id ↦ decide (id ∈ ids.drop n)

theorem drivesMovie_of_series (h : title.type = .series) : edit.drivesMovie title = false := by
  simp [EntryEdit.drivesMovie, h]

theorem progress_progressSaved (n count : ℕ) :
    (progressSaved now edit previous entry n count).1.progress = n := by
  rw [progressSaved]
  dsimp only
  split_ifs <;> rfl

theorem ensures_setEntry {P : Account A O → Prop} (row : EntryRow)
    (h : ∀ db, P db → P { db with entry := some row }) :
    Ensures (setEntry row : SaveRequest A O Unit) P fun _ ↦ P :=
  ensures_write h

theorem savePlays_ensures {episodes : List Episode} {watched : List ℕ} {n : ℕ} {at' : Int}
    (h : title.type = .series) (hnodup : (episodes.map Episode.id).Nodup)
    (hwatched : watched = watchedIds (episodes.map Episode.id) plays) :
    Ensures (savePlays fx title edit previous episodes watched n at')
      (fun db : Account A O ↦ db.plays = plays)
      fun _ db ↦ ((watched.filter fun id ↦ decide (id ∈ (episodes.map Episode.id).drop n)) ≠ [] →
        edit.confirmed = true) ∧ OnlyFirst episodes n db.plays := by
  have hremoving : edit.removing title ((episodes.map Episode.id).drop n) watched =
      watched.filter fun id ↦ decide (id ∈ (episodes.map Episode.id).drop n) := by
    rw [EntryEdit.removing, drivesMovie_of_series h]
    rfl
  rw [← hremoving]
  unfold savePlays
  dsimp only
  generalize hmarking : edit.marking ((episodes.map Episode.id).take n) watched = marking
  generalize hadding : adding title previous marking watched = added
  generalize edit.removing title ((episodes.map Episode.id).drop n) watched = removing at *
  refine Ensures.bind (Q := fun _ db ↦ db.plays = dateShared marking at' plays) (ensures_write ?_)
    fun _ ↦ ?_
  · rintro db rfl
    rfl
  refine (ensures_reject _ _ _).bind fun _ ↦ ?_
  refine Ensures.bind (Q := fun _ db ↦ ¬(removing ≠ [] ∧ edit.confirmed = false) ∧
    db.plays = addPlays added at' (dateShared marking at' plays)) (ensures_write ?_) fun _ ↦ ?_
  · rintro db ⟨hconfirmed, hplays⟩
    exact ⟨hconfirmed, by rw [hplays]⟩
  have hafter (episode : Episode) (hepisode : episode ∈ episodes) :
      Watched (if removing ≠ [] then removePlays ((episodes.map Episode.id).drop n)
          (addPlays added at' (dateShared marking at' plays))
        else addPlays added at' (dateShared marking at' plays)) episode.id ↔
      episode ∈ episodes.take n := by
    rw [mem_take_iff hnodup hepisode]
    refine watched_saved hnodup (List.mem_map_of_mem hepisode) ?_ ?_ (hwatched ▸ hremoving)
    · intro id htake hnot
      have hnot' : id ∉ watched := hwatched ▸ hnot
      rw [← hadding, adding, ← hmarking, EntryEdit.marking]
      simp [htake, hnot']
    · intro id hid
      rw [← hadding, adding, ← hmarking, EntryEdit.marking] at hid
      exact List.mem_of_mem_filter (List.mem_of_mem_filter hid)
  have hconfirm (h : ¬(removing ≠ [] ∧ edit.confirmed = false)) (hne : removing ≠ []) :
      edit.confirmed = true := by
    cases hconfirmed : edit.confirmed with
    | true => rfl
    | false => exact absurd ⟨hne, hconfirmed⟩ h
  refine ensures_ite (fun hne ↦ ?_) fun hnil ↦ ?_
  · refine ensures_write fun db ⟨hconfirmed, hplays⟩ ↦ ⟨hconfirm hconfirmed, fun episode hepisode ↦ ?_⟩
    rw [hplays, ← hafter episode hepisode, if_pos hne]
  · refine (ensures_pure () _).mono (fun _ hdb ↦ hdb) fun _ db ⟨_, hconfirmed, hplays⟩ ↦ ?_
    refine ⟨hconfirm hconfirmed, fun episode hepisode ↦ ?_⟩
    rw [hplays, ← hafter episode hepisode, if_neg hnil]

theorem saveProgress_ensures (h : title.type = .series) :
    Ensures (saveProgress fx cat now title edit previous entry)
      (fun db : Account A O ↦ db.plays = plays)
      fun saving db ↦
        let n := goal cat now title edit plays (previous.map fun row ↦ row.status) entry.status
        saving.entry.progress = n ∧ n ≤ (releasedEpisodes cat now title).length ∧
          (takenBack cat now title plays n ≠ [] → edit.confirmed = true) ∧
          OnlyFirst (releasedEpisodes cat now title) n db.plays := by
  have hepisodes : edit.episodes title cat now = releasedEpisodes cat now title := by
    rw [EntryEdit.episodes, drivesMovie_of_series h]
    rfl
  unfold saveProgress
  dsimp only
  rw [hepisodes]
  refine (ensures_reject _ _ _).bind fun _ ↦ ?_
  refine (ensures_reject _ _ _).bind fun _ ↦ ?_
  refine (ensures_read _).bind fun account ↦ ?_
  refine (ensures_reject _ _ _).bind fun _ ↦ ?_
  refine Ensures.assume (fun db hdb ↦ ?_) fun (hassume : account.plays = plays ∧
    goal cat now title edit plays (previous.map fun row ↦ row.status) entry.status ≤
      (releasedEpisodes cat now title).length) ↦ ?_
  · obtain ⟨hchange, rfl, hrequested, -, rfl⟩ := hdb
    refine ⟨rfl, ?_⟩
    rw [← List.length_map (f := Episode.id)]
    refine target_le (fun id watched hsome ↦ ?_) fun n hn ↦ ?_
    · rw [hsome] at hchange
      simpa using hchange
    · obtain ⟨-, hnot⟩ := not_or.mp hrequested
      rw [hn] at hnot
      simpa using hnot
  obtain ⟨hplays, hle⟩ := hassume
  rw [hplays]
  refine ((savePlays_ensures h (nodup_releasedEpisodes cat now title) rfl).mono
    (fun db hdb ↦ hdb.2.2.2.2) fun _ db hdb ↦ hdb).bind fun _ ↦ ?_
  refine (ensures_setEntry _ fun db hdb ↦ hdb).bind fun _ ↦ ?_
  refine (ensures_pure _ _).mono (fun db hdb ↦ hdb) fun saving db hdb ↦ ?_
  obtain ⟨rfl, hconfirmed, honly⟩ := hdb
  exact ⟨progress_progressSaved _ _, hle, hconfirmed, honly⟩

end saving

section saved

variable {A O : Type} {fx : Effects A O} {cat : Catalogue} {now : Now} {title : TitleRow}
  {edit : EntryEdit} {account : Account A O}

def previousStatus (account : Account A O) : Option Status := account.entry.map fun row ↦ row.status

/-- The status a request leaves before its progress is saved. -/
def statusAfter (edit : EntryEdit) (account : Account A O) : Status :=
  (given edit.patch.status).getD ((previousStatus account).getD .planning)

/-- Whether a request asks for progress of a title. -/
def Asks (title : TitleRow) (edit : EntryEdit) (account : Account A O) : Prop :=
  edit.onlyFavorite = false ∧
    edit.asksProgress title (previousStatus account) (statusAfter edit account) = true

/-- The progress that a request asks for. -/
def progressGoal (cat : Catalogue) (now : Now) (title : TitleRow) (edit : EntryEdit)
    (account : Account A O) : ℕ :=
  goal cat now title edit account.plays (previousStatus account) (statusAfter edit account)

/-- The entry counts the first released episodes, which are the watched ones, and no play was
taken back without consent. -/
structure InStep (cat : Catalogue) (now : Now) (title : TitleRow) (edit : EntryEdit)
    (account stored : Account A O) : Prop where
  progress : ∃ entry, stored.entry = some entry ∧
    entry.progress = progressGoal cat now title edit account
  released : progressGoal cat now title edit account ≤ (releasedEpisodes cat now title).length
  consent : takenBack cat now title account.plays (progressGoal cat now title edit account) ≠ [] →
    edit.confirmed = true
  watched : OnlyFirst (releasedEpisodes cat now title) (progressGoal cat now title edit account)
    stored.plays

theorem ensures_checkFields {P : Account A O → Prop} (entry : EntryRow) :
    Ensures (checkFields title edit entry : SaveRequest A O Unit) P fun _ ↦ P := by
  unfold checkFields
  refine (ensures_reject _ _ _).bind fun _ ↦ ?_
  refine (ensures_reject _ _ _).bind fun _ ↦ ?_
  exact (ensures_reject _ _ _).mono (fun _ hdb ↦ hdb) fun _ _ hdb ↦ hdb.2.2.2

theorem ensures_checkNulls {P : Account A O → Prop} :
    Ensures (checkNulls edit : SaveRequest A O Unit) P fun _ ↦ P := by
  unfold checkNulls
  refine (ensures_reject _ _ _).bind fun _ ↦ ?_
  exact (ensures_reject _ _ _).mono (fun _ hdb ↦ hdb) fun _ _ hdb ↦ hdb.2.2

/-- What follows a save keeps the plays and the progress. -/
theorem ensures_finish {P : List Play → Prop} (previous : Option EntryRow) (saving : Saving) :
    Ensures (finish fx now previous saving : SaveRequest A O Unit) (fun db ↦ P db.plays)
      fun _ db ↦ (∃ entry, db.entry = some entry ∧ entry.progress = saving.entry.progress) ∧
        P db.plays := by
  unfold finish
  refine Ensures.bind (Q := fun _ (db : Account A O) ↦ (∃ entry, db.entry = some entry ∧
    entry.progress = saving.entry.progress) ∧ P db.plays) (ensures_write fun db hdb ↦ ?_)
    fun _ ↦ ensures_write fun db hdb ↦ hdb
  refine ⟨⟨_, rfl, ?_⟩, hdb⟩
  split_ifs <;> rfl

theorem previousStatus_favor (edit : EntryEdit) (account : Account A O) :
    (favor edit account).entry.map (fun row ↦ row.status) = previousStatus account := by
  rw [favor, previousStatus, Option.map_map]
  rfl

theorem status_getD_newEntryRow (entry : Option EntryRow) (favorite : Bool) :
    (entry.getD (newEntryRow favorite)).status = (entry.map fun row ↦ row.status).getD .planning := by
  cases entry <;> rfl

theorem commits_saveEntry (h : title.type = .series) (hasks : Asks title edit account) :
    Commits (saveEntry fx cat now (some title) edit) (fun db ↦ db = account)
      fun _ stored ↦ InStep cat now title edit account stored := by
  unfold saveEntry
  dsimp only
  refine (ensures_reject _ _ _).commits fun _ ↦ ?_
  refine (ensures_reject _ _ _).commits fun _ ↦ ?_
  refine (ensures_read _).commits fun seen ↦ ?_
  refine Commits.assume (fun db hdb ↦ hdb.1.trans hdb.2.2.2) fun (hseen : seen = account) ↦ ?_
  subst hseen
  refine Ensures.commits (Q := fun _ db ↦ db = favor edit seen) (ensures_write fun db hdb ↦ ?_)
    fun _ ↦ ?_
  · rw [hdb.2.2.2]
  refine (ensures_read _).commits fun account ↦ ?_
  refine Commits.assume (fun db hdb ↦ hdb.1.trans hdb.2) fun (haccount : account = favor edit seen) ↦ ?_
  subst haccount
  rw [if_neg (by simp [hasks.1])]
  have hprevious := previousStatus_favor edit seen
  have hbase : ((favor edit seen).entry.getD (newEntryRow seen.favorite)).status =
      (previousStatus seen).getD .planning := by
    rw [status_getD_newEntryRow, hprevious]
  generalize hentry : (favor edit seen).entry.getD (newEntryRow seen.favorite) = entry at *
  rw [hbase, hprevious, ← statusAfter, if_pos hasks.2]
  refine Ensures.commits (Q := fun _ (db : Account A O) ↦ db.plays = seen.plays)
    (ensures_write fun db hdb ↦ ?_) fun _ ↦ ?_
  · rw [hdb.2, openEntry]
    split <;> rfl
  refine (ensures_checkFields _).commits fun _ ↦ ?_
  refine (ensures_setEntry _ fun db hdb ↦ hdb).commits fun _ ↦ ?_
  refine ensures_checkNulls.commits fun _ ↦ ?_
  refine (ensures_setEntry _ fun db hdb ↦ hdb).commits fun _ ↦ ?_
  refine (saveProgress_ensures h).commits fun saving ↦ ?_
  rw [hprevious]
  refine Commits.assume (fun db hdb ↦ ⟨hdb.1, hdb.2.1, hdb.2.2.1⟩) fun
    (hsaved : saving.entry.progress = progressGoal cat now title edit seen ∧
      progressGoal cat now title edit seen ≤ (releasedEpisodes cat now title).length ∧
      (takenBack cat now title seen.plays (progressGoal cat now title edit seen) ≠ [] →
        edit.confirmed = true)) ↦ ?_
  obtain ⟨hprogress, hreleased, hconsent⟩ := hsaved
  refine ((ensures_finish (P := OnlyFirst (releasedEpisodes cat now title)
    (progressGoal cat now title edit seen)) _ saving).mono (fun db hdb ↦ hdb.2.2.2)
    fun _ db hdb ↦ hdb).commits fun _ ↦ ?_
  refine (commits_commit _).mono (fun db hdb ↦ hdb) fun _ db ⟨⟨row, hrow, hrowProgress⟩, honly⟩ ↦ ?_
  exact ⟨⟨row, hrow, hrowProgress.trans hprogress⟩, hreleased, hconsent, honly⟩

/-- Nothing but its last step commits a save. -/
theorem commits_saveEntry_any (fx : Effects A O) (cat : Catalogue) (now : Now)
    (title : Option TitleRow) (edit : EntryEdit) :
    Commits (saveEntry fx cat now title edit) (fun _ ↦ True) fun _ _ ↦ True := by
  have hprogress (title : TitleRow) (previous : Option EntryRow) (entry : EntryRow) :
      Ensures (saveProgress fx cat now title edit previous entry) (fun _ ↦ True)
        fun _ _ ↦ True := by
    unfold saveProgress savePlays
    dsimp only
    refine (ensures_reject _ _ _).bind fun _ ↦ ?_
    refine (ensures_reject _ _ _).bind fun _ ↦ ?_
    refine (ensures_read _).bind fun _ ↦ ?_
    refine (ensures_reject _ _ _).bind fun _ ↦ ?_
    refine Ensures.bind (Q := fun _ _ ↦ True) ?_ fun _ ↦ ?_
    · refine Ensures.bind (Q := fun _ _ ↦ True) (ensures_write fun _ _ ↦ trivial) fun _ ↦ ?_
      refine (ensures_reject _ _ _).bind fun _ ↦ ?_
      refine Ensures.bind (Q := fun _ _ ↦ True) (ensures_write fun _ _ ↦ trivial) fun _ ↦ ?_
      exact ensures_ite (fun _ ↦ ensures_write fun _ _ ↦ trivial) fun _ ↦
        (ensures_pure _ _).mono (fun _ hdb ↦ hdb) fun _ _ _ ↦ trivial
    · exact (ensures_setEntry _ fun _ _ ↦ trivial).bind fun _ ↦
        (ensures_pure _ _).mono (fun _ hdb ↦ hdb) fun _ _ _ ↦ trivial
  have hfinish (previous : Option EntryRow) (saving : Saving) :
      Commits (finish fx now previous saving >>= fun _ ↦ commit : SaveRequest A O Unit)
        (fun _ ↦ True) fun _ _ ↦ True :=
    (ensures_finish (P := fun _ ↦ True) previous saving).commits fun _ ↦
      (commits_commit _).mono (fun _ hdb ↦ hdb) fun _ _ _ ↦ trivial
  cases title with
  | none => exact commits_raise _
  | some title =>
    unfold saveEntry
    dsimp only
    refine (ensures_reject _ _ _).commits fun _ ↦ ?_
    refine (ensures_reject _ _ _).commits fun _ ↦ ?_
    refine (ensures_read _).commits fun _ ↦ ?_
    refine Ensures.commits (Q := fun _ _ ↦ True) (ensures_write fun _ _ ↦ trivial) fun _ ↦ ?_
    refine (ensures_read _).commits fun _ ↦ ?_
    refine commits_ite (fun _ ↦ (commits_commit _).mono (fun _ hdb ↦ hdb) fun _ _ _ ↦ trivial)
      fun _ ↦ ?_
    refine Ensures.commits (Q := fun _ _ ↦ True) (ensures_write fun _ _ ↦ trivial) fun _ ↦ ?_
    refine (ensures_checkFields _).commits fun _ ↦ ?_
    refine (ensures_setEntry _ fun _ _ ↦ trivial).commits fun _ ↦ ?_
    refine ensures_checkNulls.commits fun _ ↦ ?_
    refine (ensures_setEntry _ fun _ _ ↦ trivial).commits fun _ ↦ ?_
    refine commits_ite (fun _ ↦ ?_) fun _ ↦ ?_
    · exact (hprogress _ _ _).commits fun saving ↦ hfinish _ saving
    · refine (ensures_pure _ _).commits fun saving ↦ ?_
      exact (hfinish _ saving).mono (fun _ _ ↦ trivial) fun _ _ _ ↦ trivial

end saved

section endpoints

variable {A O : Type} {fx : Effects A O} {cat : Catalogue} {now : Now} {title : TitleRow}
  {request : ProgressRequest} {account stored : Account A O}

/-- The edit that a request for progress comes down to. -/
def ProgressRequest.edit (cat : Catalogue) (now : Now) (title : TitleRow) :
    ProgressRequest → Option EntryEdit
  | .entry patch markReleasedWatched =>
    some { patch := patch, markReleasedWatched := markReleasedWatched }
  | .episode id watched confirmRollback => some (episodeEdit id watched confirmRollback)
  | .season number watched confirmRollback =>
    if 0 < number then
      (seasonEndpoint (releasedEpisodes cat now title) number watched).map fun id ↦
        episodeEdit id watched confirmRollback
    else none

/-- A request for a number of episodes, for all that are released, for a status that completes the
series, for an episode or for a season. -/
def ProgressRequest.AsksProgress (title : TitleRow) (account : Account A O) : ProgressRequest → Prop
  | .entry patch markReleasedWatched =>
    (given patch.progress).isSome ∨ markReleasedWatched = some true ∨
      EntryEdit.completesSeries title (previousStatus account) (statusAfter ⟨patch, none, none, false⟩ account)
  | _ => True

theorem commits_handle_any (fx : Effects A O) (cat : Catalogue) (now : Now)
    (title : Option TitleRow) (request : ProgressRequest) :
    Commits (handle fx cat now title request) (fun _ ↦ True) fun _ _ ↦ True := by
  cases request with
  | entry patch markReleasedWatched => exact commits_saveEntry_any fx cat now title _
  | episode id watched confirmRollback => exact commits_saveEntry_any fx cat now title _
  | season number watched confirmRollback =>
    rw [handle]
    split
    · exact commits_raise _
    · split
      · exact commits_raise _
      · exact commits_saveEntry_any fx cat now _ _

theorem asks_episodeEdit (title : TitleRow) (id : ℕ) (watched confirmRollback : Bool)
    (account : Account A O) : Asks title (episodeEdit id watched confirmRollback) account := by
  refine ⟨rfl, ?_⟩
  simp [EntryEdit.asksProgress, episodeEdit]

theorem onlyFavorite_eq_false {patch : EntryPatch} {markReleasedWatched : Option Bool}
    (h : (ProgressRequest.entry patch markReleasedWatched).AsksProgress title account) :
    (⟨patch, markReleasedWatched, none, false⟩ : EntryEdit).onlyFavorite = false := by
  rw [EntryEdit.onlyFavorite]
  by_contra hfavorite
  obtain ⟨hpatch, hmark⟩ := Bool.and_eq_true_iff.mp (Bool.eq_true_of_not_eq_false hfavorite)
  obtain hprogress | hreleased | hcompletes := h
  · rw [patch.progress_of_onlyFavorite hpatch] at hprogress
    cases hprogress
  · subst hreleased
    cases hmark
  · obtain ⟨-, hcompleted, hprevious⟩ := of_decide_eq_true hcompletes
    rw [statusAfter, patch.status_of_onlyFavorite hpatch] at hcompleted
    cases hstatus : previousStatus account with
    | none =>
      rw [hstatus] at hcompleted
      cases hcompleted
    | some status =>
      rw [hstatus] at hcompleted hprevious
      exact hprevious (congrArg some hcompleted)

theorem asks_of_asksProgress {patch : EntryPatch} {markReleasedWatched : Option Bool}
    (h : (ProgressRequest.entry patch markReleasedWatched).AsksProgress title account) :
    Asks title ⟨patch, markReleasedWatched, none, false⟩ account := by
  refine ⟨onlyFavorite_eq_false h, ?_⟩
  simp only [EntryEdit.asksProgress, EntryEdit.marksReleased, Bool.or_eq_true]
  obtain hprogress | hreleased | hcompletes := h
  · exact .inl (.inl (.inl (.inl hprogress)))
  · subst hreleased
    exact .inl (.inl (.inl (.inr rfl)))
  · exact .inl (.inl (.inr hcompletes))

theorem commits_handle (h : title.type = .series) (hasks : request.AsksProgress title account) :
    Commits (handle fx cat now (some title) request) (fun db ↦ db = account) fun _ stored ↦
      ∃ edit, request.edit cat now title = some edit ∧ InStep cat now title edit account stored := by
  cases request with
  | entry patch markReleasedWatched =>
    exact (commits_saveEntry h (asks_of_asksProgress hasks)).mono (fun _ hdb ↦ hdb)
      fun _ stored hstored ↦ ⟨_, rfl, hstored⟩
  | episode id watched confirmRollback =>
    exact (commits_saveEntry h (asks_episodeEdit title id watched confirmRollback account)).mono
      (fun _ hdb ↦ hdb) fun _ stored hstored ↦ ⟨_, rfl, hstored⟩
  | season number watched confirmRollback =>
    rw [handle, ProgressRequest.edit]
    by_cases hnumber : 0 < number
    · have hfilter : (some title).filter (fun title ↦ decide (title.type = .series ∧ 0 < number)) =
          some title := by
        simp [h, hnumber]
      rw [hfilter, if_pos hnumber]
      cases hendpoint : seasonEndpoint (releasedEpisodes cat now title) number watched with
      | none =>
        simp only [hendpoint]
        exact commits_raise _
      | some id =>
        simp only [hendpoint]
        exact (commits_saveEntry h (asks_episodeEdit title id watched confirmRollback account)).mono
          (fun _ hdb ↦ hdb) fun _ stored hstored ↦ ⟨_, rfl, hstored⟩
    · have hfilter : (some title).filter (fun title ↦ decide (title.type = .series ∧ 0 < number)) =
          none := by
        simp [hnumber]
      rw [hfilter]
      exact commits_raise _

theorem stored_of_error {title : Option TitleRow} {e : HttpError}
    (h : (handle fx cat now title request).answer account = (.error e, stored)) :
    stored = account := by
  have hanswer := (commits_handle_any fx cat now title request).answer account trivial
  rw [h] at hanswer
  exact hanswer

theorem inStep_of_ok (h : title.type = .series) (hasks : request.AsksProgress title account)
    (hok : (handle fx cat now (some title) request).answer account = (.ok (), stored)) :
    ∃ edit, request.edit cat now title = some edit ∧
      InStep cat now title edit account stored := by
  have hcommits : Commits (handle fx cat now (some title) request) (fun db ↦ db = account)
      fun _ stored ↦ ∃ edit, request.edit cat now title = some edit ∧
        InStep cat now title edit account stored := commits_handle h hasks
  have hanswer := hcommits.answer account rfl
  rw [hok] at hanswer
  exact hanswer

/-- A request for progress that is answered leaves the first episodes watched and counted; one
that would take plays back without consent is rejected, and a rejected one changes nothing. -/
theorem progress_kept_in_step (fx : Effects A O) (cat : Catalogue) (now : Now)
    (title : Option TitleRow) (request : ProgressRequest) (account : Account A O) :
    (∀ e stored, (handle fx cat now title request).answer account = (.error e, stored) →
      stored = account) ∧
    ∀ series, title = some series → series.type = .series → request.AsksProgress series account →
      (∀ stored, (handle fx cat now title request).answer account = (.ok (), stored) →
        ∃ edit, request.edit cat now series = some edit ∧
          InStep cat now series edit account stored) ∧
      ∀ edit, request.edit cat now series = some edit → edit.confirmed = false →
        takenBack cat now series account.plays (progressGoal cat now series edit account) ≠ [] →
          ∃ e, (handle fx cat now title request).answer account = (.error e, account) := by
  refine ⟨fun e stored ↦ stored_of_error, ?_⟩
  rintro series rfl hseries hasks
  refine ⟨fun stored ↦ inStep_of_ok hseries hasks, fun edit hedit hconfirmed htaken ↦ ?_⟩
  cases hanswer : (handle fx cat now (some series) request).answer account with
  | mk result stored =>
    cases result with
    | error e => exact ⟨e, by rw [stored_of_error hanswer]⟩
    | ok answer =>
      obtain ⟨edit', hedit', hstep⟩ := inStep_of_ok hseries hasks hanswer
      obtain rfl : edit = edit' := Option.some.inj (hedit.symm.trans hedit')
      have hconsent := hstep.consent htaken
      rw [hconfirmed] at hconsent
      cases hconsent

end endpoints

section threeEpisodes

def threeEpisodes : Catalogue where
  shows := [⟨1, some 1396, none⟩]
  episodes := [⟨⟨11, 1, 1⟩, 1, some 0, false, none, none⟩, ⟨⟨12, 1, 2⟩, 1, some 0, false, none, none⟩,
    ⟨⟨13, 1, 3⟩, 1, some 0, false, none, none⟩]
  nodup := by decide

def oneSeries : TitleRow where
  id := 9
  type := .series
  tmdbId := some 1396
  tvdbId := none
  releaseDate := none
  catalogueRefreshed := true
  episodeIds := none
  byTvdb := false
  importEpisodeMediaIds := []

/-- Two of the three episodes are watched, and the entry lags behind. -/
def lagging : Account Unit Unit where
  entry := some { newEntryRow false with progress := 1 }
  favorite := false
  deleted := false
  outboundPending := false
  plays := [⟨11, true, some 0, false, false⟩, ⟨13, true, some 0, false, false⟩]
  activity := ()
  others := ()

def noEffects : Effects Unit Unit := ⟨fun _ _ _ _ ↦ (), fun _ _ _ _ _ ↦ (), fun _ _ _ _ _ ↦ ()⟩

theorem progress_kept_in_step_lagging :
    (∃ stored, (handle noEffects threeEpisodes ⟨0, 0, 0⟩ (some oneSeries)
        (.entry { progress := some (some 2), confirmRollback := some true } none)).answer lagging =
          (.ok (), stored) ∧ ∃ edit, InStep threeEpisodes ⟨0, 0, 0⟩ oneSeries edit lagging stored) ∧
      ∃ e, (handle noEffects threeEpisodes ⟨0, 0, 0⟩ (some oneSeries) (.episode 12 false false)).answer
        lagging = (.error e, lagging) := by
  obtain ⟨-, hkept⟩ := progress_kept_in_step noEffects threeEpisodes ⟨0, 0, 0⟩ (some oneSeries)
    (.entry { progress := some (some 2), confirmRollback := some true } none) lagging
  obtain ⟨-, hkept'⟩ := progress_kept_in_step noEffects threeEpisodes ⟨0, 0, 0⟩ (some oneSeries)
    (.episode 12 false false) lagging
  refine ⟨⟨_, rfl, ?_⟩, ?_⟩
  · obtain ⟨edit, -, hstep⟩ := (hkept oneSeries rfl rfl (.inl rfl)).1 _ rfl
    exact ⟨edit, hstep⟩
  · exact (hkept' oneSeries rfl rfl trivial).2 _ rfl rfl (by decide +kernel)

end threeEpisodes

end AnyList.Editor.ProgressRequests
