import AnyList.Streaming.HistoryTables

namespace AnyList.Streaming

open AnyList.Library
open AnyList.Reconciliation.Watches (Status)

section evidence

variable {cat : Catalogue} {α : Type*} {step : Dict ℕ Evidence → α → Dict ℕ Evidence}
  {name : α → Option ℕ} {add : α → Evidence → Evidence} {title mediaId : ℕ}

theorem mem_watched_foldl (h : AddsTo step name add) {W : α → Prop}
    (hadd : ∀ item e, mediaId ∈ (add item e).watched ↔ mediaId ∈ e.watched ∨ W item)
    (items : List α) (evidence : Dict ℕ Evidence) :
    mediaId ∈ (((items.foldl step evidence).get title).getD .none).watched ↔
      mediaId ∈ ((evidence.get title).getD .none).watched ∨
        ∃ item ∈ items, name item = some title ∧ W item := by
  induction items generalizing evidence with
  | nil => simp
  | cons first rest ih =>
    rw [List.foldl_cons, ih, h evidence first title]
    by_cases hname : name first = some title
    · rw [if_pos hname, Option.getD_some, hadd, or_assoc, List.exists_mem_cons_iff]
      simp only [hname, true_and]
    · rw [if_neg hname, List.exists_mem_cons_iff]
      simp only [hname, false_and, false_or]

/-- The evidence of a title holds its completed plays. -/
theorem mem_watched_collectEvidence {t : Tracking} {e : Evidence}
    (h : (collectEvidence cat t).get title = some e) :
    mediaId ∈ e.watched ↔ ∃ play ∈ t.plays,
      cat.titleOf play.mediaId = some title ∧ play.completed = true ∧ play.mediaId = mediaId := by
  have hplays (play : Play) (e : Evidence) : mediaId ∈ (e.addPlay play).watched ↔
      mediaId ∈ e.watched ∨ play.completed = true ∧ play.mediaId = mediaId := by
    rw [Evidence.addPlay]
    cases play.completed <;> simp [eq_comm]
  have hplaying (_ : ℕ) (e : Evidence) :
      mediaId ∈ e.addPlaying.watched ↔ mediaId ∈ e.watched ∨ False := (or_false _).symm.to_iff
  have hrated (_ : ℕ) (e : Evidence) :
      mediaId ∈ (id e).watched ↔ mediaId ∈ e.watched ∨ False := (or_false _).symm.to_iff
  have he : e = ((collectEvidence cat t).get title).getD .none := by
    rw [h]
    rfl
  rw [he, collectEvidence, mem_watched_foldl rated_addsTo hrated,
    mem_watched_foldl (playingEvidence_addsTo cat) hplaying,
    mem_watched_foldl (playEvidence_addsTo cat) hplays]
  simp [Evidence.none]

end evidence

section fills

variable {now : Int} {e : Evidence} {episodes later : List Episode} {episode : Episode}

theorem reached_cons (h : ∃ next ∈ later, next.mediaId ∈ e.watched) :
    reached e (episode :: later) = reached e later + 1 := by
  obtain ⟨next, hnext, hwatched⟩ := h
  have hne : later.reverse.dropWhile (fun episode ↦ decide (episode.mediaId ∉ e.watched)) ≠ [] := by
    intro hnil
    have hall := List.dropWhile_eq_nil_iff.mp hnil next (List.mem_reverse.mpr hnext)
    exact of_decide_eq_true hall hwatched
  rw [reached, List.reverse_cons, List.dropWhile_append, if_neg (by simpa using hne),
    List.length_append, List.length_singleton, reached]

theorem reached_cons_of_not (h : ¬ ∃ next ∈ later, next.mediaId ∈ e.watched) :
    reached e (episode :: later) = if episode.mediaId ∈ e.watched then 1 else 0 := by
  have hnil : later.reverse.dropWhile (fun episode ↦ decide (episode.mediaId ∉ e.watched)) = [] :=
    List.dropWhile_eq_nil_iff.mpr fun next hnext ↦
      decide_eq_true fun hwatched ↦ h ⟨next, List.mem_reverse.mp hnext, hwatched⟩
  rw [reached, List.reverse_cons, List.dropWhile_append, hnil]
  by_cases hwatched : episode.mediaId ∈ e.watched <;> simp [hwatched]

theorem reached_pos : 0 < reached e episodes ↔
    ∃ episode ∈ episodes, episode.mediaId ∈ e.watched := by
  cases episodes with
  | nil => simp [reached]
  | cons first later =>
    by_cases h : ∃ next ∈ later, next.mediaId ∈ e.watched
    · rw [reached_cons h, List.exists_mem_cons_iff]
      exact iff_of_true (Nat.succ_pos _) (.inr h)
    · rw [reached_cons_of_not h, List.exists_mem_cons_iff]
      split_ifs with hwatched
      · exact iff_of_true Nat.one_pos (.inl hwatched)
      · exact iff_of_false (Nat.lt_irrefl 0) fun hor ↦ hor.elim hwatched h

/-- With the filled-in plays, just the episodes up to the last watched one are watched. -/
theorem watched_or_filled_iff (hnodup : (episodes.map Episode.mediaId).Nodup) {i : ℕ}
    (hi : episodes[i]? = some episode) :
    (episode.mediaId ∈ e.watched ∨
      ∃ fill ∈ fillIns now e episodes, fill.1.mediaId = episode.mediaId) ↔
      i < reached e episodes := by
  induction episodes generalizing i with
  | nil => simp at hi
  | cons first later ih =>
    rw [List.map_cons, List.nodup_cons] at hnodup
    obtain ⟨hfirst, hnodup⟩ := hnodup
    have hany : (later.any fun next ↦ decide (next.mediaId ∈ e.watched)) = true ↔
        ∃ next ∈ later, next.mediaId ∈ e.watched := by
      simp only [List.any_eq_true, decide_eq_true_eq]
    rw [fillIns]
    by_cases h : ∃ next ∈ later, next.mediaId ∈ e.watched
    · rw [if_pos (hany.mpr h), reached_cons h]
      cases i with
      | zero =>
        obtain rfl : first = episode := Option.some.inj hi
        refine iff_of_true ?_ (Nat.succ_pos _)
        by_cases hwatched : first.mediaId ∈ e.watched
        · exact .inl hwatched
        · rw [if_neg hwatched]
          exact .inr ⟨_, List.mem_cons_self, rfl⟩
      | succ j =>
        rw [List.getElem?_cons_succ] at hi
        have hne : first.mediaId ≠ episode.mediaId := fun heq ↦
          hfirst (heq ▸ List.mem_map_of_mem (List.mem_of_getElem? hi))
        rw [Nat.add_lt_add_iff_right, ← ih hnodup hi]
        refine or_congr_right ?_
        split_ifs
        · exact Iff.rfl
        · rw [List.exists_mem_cons_iff]
          exact or_iff_right hne
    · rw [if_neg fun hlater ↦ h (hany.mp hlater), reached_cons_of_not h]
      cases i with
      | zero =>
        obtain rfl : first = episode := Option.some.inj hi
        split_ifs with hwatched
        · exact iff_of_true (.inl hwatched) Nat.one_pos
        · exact iff_of_false (by simpa using hwatched) (Nat.lt_irrefl 0)
      | succ j =>
        rw [List.getElem?_cons_succ] at hi
        have hnot : episode.mediaId ∉ e.watched := fun hwatched ↦
          h ⟨episode, List.mem_of_getElem? hi, hwatched⟩
        refine iff_of_false (by simpa using hnot) ?_
        split_ifs <;> omega

theorem reached_le_length : reached e episodes ≤ episodes.length := by
  have hlength : episodes.reverse.length = episodes.length := List.length_reverse
  rw [reached, ← hlength]
  exact (List.dropWhile_sublist _).length_le

end fills

section titles

variable (cat : Catalogue) (now : Int) (media : Media) (e : Evidence)

/-- The episodes by which an import counts the progress of a title. -/
def countedEpisodes : List Episode := (e.watched.findSome? cat.siblings).getD []

def newPlays : List Play :=
  match media.kind with
  | .movie => []
  | .series => (fillIns now e (countedEpisodes cat e)).map (filledPlay now)

def newEntry : TrackedEntry :=
  match media.kind with
  | .movie =>
    let count := e.watched.dedup.length
    importedEntry now media e count (decide (0 < count))
  | .series =>
    let episodes := countedEpisodes cat e
    let count := if 0 < reached e episodes then reached e episodes else e.watched.dedup.length
    let complete := cat.refreshed media.id && decide (episodes ≠ [] ∧ count = episodes.length)
    importedEntry now media e count complete

theorem importTitle_eq (t : Tracking) : importTitle cat now t media e =
    { t with plays := t.plays ++ newPlays cat now media e }.setEntry media.id
      (newEntry cat now media e) := by
  unfold importTitle newPlays newEntry
  cases media.kind with
  | movie => simp
  | series => rfl

variable {cat now media e} {acc : Tracking × List ℕ} {items : List (ℕ × Evidence)} {title : ℕ}
  {entry : TrackedEntry} {play : Play}

theorem id_of_byId (h : cat.byId title = some media) : media.id = title :=
  by simpa using List.find?_some h

theorem importStep_of_new (hentry : acc.1.entries.get title = none)
    (hmedia : cat.byId title = some media) :
    (importStep cat now acc (title, e)).1 = importTitle cat now acc.1 media e := by
  simp only [importStep, hentry, hmedia]

/-- A step leaves what the list has, and adds the title of its item. -/
theorem get_importStep_of_ne {item : ℕ × Evidence} (h : title ≠ item.1) :
    (importStep cat now acc item).1.entries.get title = acc.1.entries.get title := by
  unfold importStep
  split
  · next other _ hmedia =>
    rw [importTitle_eq, Tracking.setEntry]
    refine Dict.get_set_of_ne _ _ fun heq ↦ h ?_
    rw [← heq, id_of_byId hmedia]
  · rfl

theorem get_importStep_of_some {item : ℕ × Evidence}
    (h : acc.1.entries.get title = some entry) :
    (importStep cat now acc item).1.entries.get title = some entry := by
  by_cases hitem : title = item.1
  · subst hitem
    unfold importStep
    rw [h]
    exact h
  · exact (get_importStep_of_ne hitem).trans h

theorem get_foldl_importStep_of_some (h : acc.1.entries.get title = some entry) :
    (items.foldl (importStep cat now) acc).1.entries.get title = some entry := by
  induction items generalizing acc with
  | nil => exact h
  | cons item items ih => exact ih (get_importStep_of_some h)

theorem get_foldl_importStep_of_notMem (h : title ∉ items.map Prod.fst) :
    (items.foldl (importStep cat now) acc).1.entries.get title = acc.1.entries.get title := by
  induction items generalizing acc with
  | nil => rfl
  | cons item items ih =>
    obtain ⟨hitem, hrest⟩ := List.ne_and_not_mem_of_not_mem_cons h
    exact (ih hrest).trans (get_importStep_of_ne hitem)

theorem get_foldl_importStep_of_new (hmem : (title, e) ∈ items)
    (hnodup : (items.map Prod.fst).Nodup) (hentry : acc.1.entries.get title = none)
    (hmedia : cat.byId title = some media) :
    (items.foldl (importStep cat now) acc).1.entries.get title =
      some (newEntry cat now media e) := by
  induction items generalizing acc with
  | nil => cases hmem
  | cons item items ih =>
    rw [List.map_cons, List.nodup_cons] at hnodup
    obtain ⟨hitem, hnodup⟩ := hnodup
    obtain rfl | hmem := List.mem_cons.mp hmem
    · rw [List.foldl_cons]
      refine get_foldl_importStep_of_some ?_
      rw [importStep_of_new hentry hmedia, importTitle_eq, ← id_of_byId hmedia]
      exact Dict.get_set_self _ _ _
    · refine ih hmem hnodup ((get_importStep_of_ne fun heq ↦ hitem ?_).trans hentry)
      exact heq ▸ List.mem_map_of_mem (f := Prod.fst) hmem

/-- The plays that an import adds are those of the titles that were not on the list. -/
theorem mem_plays_foldl_importStep (hnodup : (items.map Prod.fst).Nodup) :
    play ∈ (items.foldl (importStep cat now) acc).1.plays ↔ play ∈ acc.1.plays ∨
      ∃ item ∈ items, ∃ media, acc.1.entries.get item.1 = none ∧ cat.byId item.1 = some media ∧
        play ∈ newPlays cat now media item.2 := by
  induction items generalizing acc with
  | nil => simp
  | cons item items ih =>
    rw [List.map_cons, List.nodup_cons] at hnodup
    obtain ⟨hitem, hnodup⟩ := hnodup
    have hfirst : play ∈ (importStep cat now acc item).1.plays ↔ play ∈ acc.1.plays ∨
        ∃ media, acc.1.entries.get item.1 = none ∧ cat.byId item.1 = some media ∧
          play ∈ newPlays cat now media item.2 := by
      cases hentry : acc.1.entries.get item.1 with
      | some entry => simp [importStep, hentry]
      | none =>
        cases hmedia : cat.byId item.1 with
        | none => simp [importStep, hentry, hmedia]
        | some media =>
          rw [importStep_of_new hentry hmedia, importTitle_eq, Tracking.setEntry, List.mem_append]
          simp
    rw [List.foldl_cons, ih hnodup, hfirst, or_assoc, List.exists_mem_cons_iff]
    refine or_congr_right (or_congr_right (exists_congr fun other ↦ and_congr_right fun hother ↦ ?_))
    have hne : other.1 ≠ item.1 := fun heq ↦ hitem (heq ▸ List.mem_map_of_mem hother)
    rw [get_importStep_of_ne hne]

end titles

end AnyList.Streaming
