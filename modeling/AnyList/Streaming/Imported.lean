import AnyList.Streaming.Import
import AnyList.Library.Members

namespace AnyList.Streaming

open AnyList.Library AnyList.Library.Members

/-- The episodes listed for a title are filed under it. -/
structure Catalogue.Agrees (cat : Catalogue) : Prop where
  released : ∀ title episodes, cat.released title = some episodes →
    ∀ episode ∈ episodes, cat.titleOf episode.mediaId = some title
  siblings : ∀ mediaId episodes, cat.siblings mediaId = some episodes →
    ∀ episode ∈ episodes, cat.titleOf episode.mediaId = cat.titleOf mediaId

/-- A title that an import has nothing to do for. -/
def IsListed (cat : Catalogue) (deleted : ℕ → Bool) (t : Tracking) (title : ℕ) : Prop :=
  deleted title = false ∧ ((t.entries.get title).isSome ∨ cat.byId title = none)

/-- All stored viewing is of listed titles. -/
structure Imported (cat : Catalogue) (deleted : ℕ → Bool) (t : Tracking) : Prop where
  plays : ∀ play ∈ t.plays, ∀ title, cat.titleOf play.mediaId = some title →
    IsListed cat deleted t title
  playing : ∀ mediaId ∈ t.playing, ∀ title, cat.titleOf mediaId = some title →
    IsListed cat deleted t title
  rated : ∀ title ∈ t.rated, IsListed cat deleted t title

/-- What every step of an observation keeps of the list: its titles stay, and new plays belong to
them. -/
structure Keeps (cat : Catalogue) (deleted : ℕ → Bool) (t t' : Tracking) : Prop where
  entries : ∀ title, (t.entries.get title).isSome → (t'.entries.get title).isSome
  playing : t'.playing = t.playing
  rated : t'.rated = t.rated
  plays : ∀ play ∈ t'.plays, play ∈ t.plays ∨ ∃ title, cat.titleOf play.mediaId = some title ∧
    deleted title = false ∧ (t'.entries.get title).isSome

namespace Keeps

variable {cat : Catalogue} {deleted : ℕ → Bool} {t t' t'' : Tracking}

theorem refl (t : Tracking) : Keeps cat deleted t t :=
  ⟨fun _ h ↦ h, rfl, rfl, fun _ h ↦ .inl h⟩

theorem trans (h : Keeps cat deleted t t') (h' : Keeps cat deleted t' t'') :
    Keeps cat deleted t t'' := by
  refine ⟨fun title hsome ↦ h'.entries title (h.entries title hsome), h'.playing.trans h.playing,
    h'.rated.trans h.rated, fun play hplay ↦ ?_⟩
  obtain hplay | hnew := h'.plays play hplay
  · obtain hplay | ⟨title, htitle, hdeleted, hsome⟩ := h.plays play hplay
    · exact .inl hplay
    · exact .inr ⟨title, htitle, hdeleted, h'.entries title hsome⟩
  · exact .inr hnew

/-- A step that only reviews, calls and sets entries. -/
theorem of_plays (hentries : ∀ title, (t.entries.get title).isSome → (t'.entries.get title).isSome)
    (hplaying : t'.playing = t.playing) (hrated : t'.rated = t.rated) (hplays : t'.plays = t.plays) :
    Keeps cat deleted t t' :=
  ⟨hentries, hplaying, hrated, fun _ hplay ↦ .inl (hplays ▸ hplay)⟩

theorem setEntry (t : Tracking) (mediaId : ℕ) (entry : TrackedEntry) :
    Keeps cat deleted t (t.setEntry mediaId entry) := by
  refine of_plays (fun title hsome ↦ ?_) rfl rfl rfl
  simp only [Tracking.setEntry, Dict.get_set]
  split
  · rfl
  · exact hsome

theorem imported (h : Keeps cat deleted t t') (ht : Imported cat deleted t) :
    Imported cat deleted t' := by
  have hlisted (title : ℕ) (hlist : IsListed cat deleted t title) : IsListed cat deleted t' title :=
    ⟨hlist.1, hlist.2.imp_left (h.entries title)⟩
  refine ⟨fun play hplay title htitle ↦ ?_, fun mediaId hmem title htitle ↦ ?_,
    fun title hmem ↦ ?_⟩
  · obtain hplay | ⟨title', htitle', hdeleted, hsome⟩ := h.plays play hplay
    · exact hlisted title (ht.plays play hplay title htitle)
    · obtain rfl : title' = title := Option.some.inj (htitle'.symm.trans htitle)
      exact ⟨hdeleted, .inl hsome⟩
  · exact hlisted title (ht.playing mediaId (h.playing ▸ hmem) title htitle)
  · exact hlisted title (ht.rated title (h.rated ▸ hmem))

end Keeps

section evidence

variable {cat : Catalogue} {α : Type*} {step : Dict ℕ Evidence → α → Dict ℕ Evidence}
  {name : α → Option ℕ} {add : α → Evidence → Evidence}

/-- A fold that adds each item to the evidence of the title it names. -/
def AddsTo (step : Dict ℕ Evidence → α → Dict ℕ Evidence) (name : α → Option ℕ)
    (add : α → Evidence → Evidence) : Prop :=
  ∀ evidence item title, (step evidence item).get title =
    if name item = some title then some (add item ((evidence.get title).getD .none))
    else evidence.get title

theorem isSome_foldl_evidence (h : AddsTo step name add) (items : List α)
    (evidence : Dict ℕ Evidence) (title : ℕ) : ((items.foldl step evidence).get title).isSome ↔
      (evidence.get title).isSome ∨ ∃ item ∈ items, name item = some title := by
  induction items generalizing evidence with
  | nil => simp
  | cons first rest ih =>
    rw [List.foldl_cons, ih, h evidence first title]
    by_cases hname : name first = some title <;> simp [hname]

/-- What each title's evidence counts as watched is filed under the title. -/
def Filed (cat : Catalogue) (evidence : Dict ℕ Evidence) : Prop :=
  ∀ title e, evidence.get title = some e → ∀ mediaId ∈ e.watched, cat.titleOf mediaId = some title

theorem filed_foldl_evidence (h : AddsTo step name add)
    (hadd : ∀ item title, name item = some title → ∀ e, ∀ mediaId ∈ (add item e).watched,
      mediaId ∈ e.watched ∨ cat.titleOf mediaId = some title) (items : List α)
    (evidence : Dict ℕ Evidence) (hfiled : Filed cat evidence) :
    Filed cat (items.foldl step evidence) := by
  induction items generalizing evidence with
  | nil => exact hfiled
  | cons first rest ih =>
    apply ih
    intro title e hget mediaId hmem
    rw [h evidence first title] at hget
    split at hget
    · rename_i hname
      obtain rfl := Option.some.inj hget
      obtain hold | htitle := hadd first title hname _ mediaId hmem
      · cases hprior : evidence.get title with
        | none => simp [hprior, Evidence.none] at hold
        | some prior =>
          rw [hprior] at hold
          exact hfiled title prior hprior mediaId hold
      · exact htitle
    · exact hfiled title e hget mediaId hmem

theorem playEvidence_addsTo (cat : Catalogue) : AddsTo (playEvidence cat)
    (fun play ↦ cat.titleOf play.mediaId) fun play e ↦ e.addPlay play := by
  intro evidence play title
  simp only [playEvidence, addEvidence]
  cases cat.titleOf play.mediaId with
  | none => simp
  | some title' =>
    by_cases heq : title' = title
    · subst heq
      simp
    · simp [Dict.get_set, heq]

theorem playingEvidence_addsTo (cat : Catalogue) : AddsTo (playingEvidence cat) cat.titleOf
    fun _ ↦ Evidence.addPlaying := by
  intro evidence mediaId title
  simp only [playingEvidence, addEvidence]
  cases cat.titleOf mediaId with
  | none => simp
  | some title' =>
    by_cases heq : title' = title
    · subst heq
      simp
    · simp [Dict.get_set, heq]

theorem rated_addsTo : AddsTo (fun evidence title ↦ addEvidence evidence title id) some
    fun _ ↦ id := by
  intro evidence title' title
  by_cases heq : title' = title
  · subst heq
    simp [addEvidence]
  · simp [addEvidence, Dict.get_set, heq]

/-- The titles that some stored viewing names. -/
def Tracking.Names (cat : Catalogue) (t : Tracking) (title : ℕ) : Prop :=
  (∃ play ∈ t.plays, cat.titleOf play.mediaId = some title) ∨
    (∃ mediaId ∈ t.playing, cat.titleOf mediaId = some title) ∨ title ∈ t.rated

theorem isSome_collectEvidence {t : Tracking} {title : ℕ} :
    ((collectEvidence cat t).get title).isSome ↔ t.Names cat title := by
  rw [collectEvidence, isSome_foldl_evidence rated_addsTo,
    isSome_foldl_evidence (playingEvidence_addsTo cat),
    isSome_foldl_evidence (playEvidence_addsTo cat)]
  simp [Tracking.Names, or_assoc]

theorem filed_collectEvidence (cat : Catalogue) (t : Tracking) :
    Filed cat (collectEvidence cat t) := by
  apply filed_foldl_evidence rated_addsTo fun _ _ _ e mediaId hmem ↦ .inl hmem
  apply filed_foldl_evidence (playingEvidence_addsTo cat) fun _ _ _ e mediaId hmem ↦ .inl hmem
  apply filed_foldl_evidence (playEvidence_addsTo cat)
  · intro play title htitle e mediaId hmem
    simp only [Evidence.addPlay] at hmem
    split at hmem
    · obtain hmem | hmem := List.mem_append.mp hmem
      · exact .inl hmem
      · obtain rfl := List.mem_singleton.mp hmem
        exact .inr htitle
    · exact .inl hmem
  · intro title e hget
    simp at hget

end evidence

section imports

variable {cat : Catalogue} {deleted : ℕ → Bool} {now : Int}

theorem importStep_of_listed {acc : Tracking × List ℕ} {item : ℕ × Evidence}
    (h : IsListed cat deleted acc.1 item.1) : importStep cat now acc item = acc := by
  unfold importStep
  obtain ⟨_, hsome | hnone⟩ := h
  · obtain ⟨entry, hentry⟩ := Option.isSome_iff_exists.mp hsome
    rw [hentry]
  · rw [hnone]
    cases acc.1.entries.get item.1 <;> rfl

theorem dropDeleted_of_imported {t : Tracking} (h : Imported cat deleted t) :
    dropDeleted cat deleted t = t := by
  have hkept (mediaId : ℕ) (hlisted : ∀ title, cat.titleOf mediaId = some title →
      IsListed cat deleted t title) : (!(cat.titleOf mediaId).any deleted) = true := by
    cases htitle : cat.titleOf mediaId with
    | none => rfl
    | some title => simp [(hlisted title htitle).1]
  have hplays := List.filter_eq_self.mpr fun play hplay ↦ hkept play.mediaId (h.plays play hplay)
  have hplaying := List.filter_eq_self.mpr fun mediaId hmem ↦ hkept mediaId (h.playing mediaId hmem)
  have hrated : t.rated.filter (fun title ↦ !deleted title) = t.rated := by
    refine List.filter_eq_self.mpr fun title hmem ↦ ?_
    rw [(h.rated title hmem).1]
    rfl
  simp only [dropDeleted, hplays, hplaying, hrated]

/-- Nothing is left to import. -/
theorem importTrackingHistory_of_imported {t : Tracking} (h : Imported cat deleted t) :
    importTrackingHistory cat now deleted t = (t, []) := by
  unfold importTrackingHistory
  rw [dropDeleted_of_imported h]
  refine foldl_stationary fun item hitem ↦ ?_
  have hnamed := isSome_collectEvidence.mp
    (Option.isSome_iff_exists.mpr ⟨item.2, Dict.mem_entries.mp hitem⟩)
  have hlisted : IsListed cat deleted t item.1 := by
    obtain ⟨play, hplay, htitle⟩ | ⟨mediaId, hmem, htitle⟩ | hmem := hnamed
    · exact h.plays play hplay _ htitle
    · exact h.playing mediaId hmem _ htitle
    · exact h.rated _ hmem
  exact importStep_of_listed hlisted

theorem mem_of_mem_fillIns {e : Evidence} {episodes : List Episode} {fill : Episode × Int}
    (h : fill ∈ fillIns now e episodes) : fill.1 ∈ episodes := by
  induction episodes with
  | nil => simp [fillIns] at h
  | cons episode later ih =>
    unfold fillIns at h
    split_ifs at h
    · exact List.mem_cons_of_mem _ (ih h)
    · obtain rfl | h := List.mem_cons.mp h
      · exact List.mem_cons_self
      · exact List.mem_cons_of_mem _ (ih h)
    · simp at h

variable (hcat : cat.Agrees)

include hcat

theorem keeps_importTitle (t : Tracking) (media : Media) (e : Evidence)
    (hdeleted : deleted media.id = false)
    (hfiled : ∀ mediaId ∈ e.watched, cat.titleOf mediaId = some media.id) :
    Keeps cat deleted t (importTitle cat now t media e) := by
  unfold importTitle
  split
  · exact Keeps.setEntry t _ _
  · have hentry (title : ℕ) (entry : TrackedEntry) (t' : Tracking)
        (hsome : (t'.entries.get title).isSome ∨ title = media.id) :
        ((t'.setEntry media.id entry).entries.get title).isSome := by
      simp only [Tracking.setEntry, Dict.get_set]
      split
      · rfl
      · rename_i hne
        exact hsome.resolve_right fun heq ↦ hne heq.symm
    refine ⟨fun title hsome ↦ hentry title _ _ (.inl hsome), rfl, rfl, fun play hplay ↦ ?_⟩
    obtain hplay | hplay := List.mem_append.mp hplay
    · exact .inl hplay
    · obtain ⟨fill, hfill, rfl⟩ := List.mem_map.mp hplay
      have hmem := mem_of_mem_fillIns hfill
      refine .inr ⟨media.id, ?_, hdeleted, hentry media.id _ _ (.inr rfl)⟩
      cases hepisodes : e.watched.findSome? cat.siblings with
      | none => simp [hepisodes] at hmem
      | some episodes =>
        rw [hepisodes] at hmem
        obtain ⟨mediaId, hwatched, hsiblings⟩ := List.exists_of_findSome?_eq_some hepisodes
        exact (hcat.siblings mediaId episodes hsiblings fill.1 hmem).trans
          (hfiled mediaId hwatched)

theorem keeps_importStep (acc : Tracking × List ℕ) (item : ℕ × Evidence)
    (hdeleted : deleted item.1 = false)
    (hfiled : ∀ mediaId ∈ item.2.watched, cat.titleOf mediaId = some item.1) :
    Keeps cat deleted acc.1 (importStep cat now acc item).1 := by
  unfold importStep
  split
  · rename_i media _ hmedia
    have hid : media.id = item.1 := by simpa using List.find?_some hmedia
    rw [← hid] at hdeleted hfiled
    exact keeps_importTitle hcat acc.1 media item.2 hdeleted hfiled
  · exact Keeps.refl _

omit hcat in
theorem listed_importStep (acc : Tracking × List ℕ) (item : ℕ × Evidence)
    (hdeleted : deleted item.1 = false) :
    IsListed cat deleted (importStep cat now acc item).1 item.1 := by
  refine ⟨hdeleted, ?_⟩
  unfold importStep
  split
  · rename_i media _ hmedia
    obtain hid : media.id = item.1 := by simpa using List.find?_some hmedia
    left
    unfold importTitle
    split <;> simp [Tracking.setEntry, hid]
  · rename_i hother
    cases hentry : acc.1.entries.get item.1 with
    | some entry => exact .inl rfl
    | none =>
      cases hmedia : cat.byId item.1 with
      | none => exact .inr rfl
      | some media => exact absurd hmedia (hother media hentry)

/-- An import lists every title that it goes over, and keeps what was listed. -/
theorem foldl_importStep (now : Int) (items : List (ℕ × Evidence)) (acc : Tracking × List ℕ)
    (hdeleted : ∀ item ∈ items, deleted item.1 = false)
    (hfiled : ∀ item ∈ items, ∀ mediaId ∈ item.2.watched, cat.titleOf mediaId = some item.1) :
    Keeps cat deleted acc.1 (items.foldl (importStep cat now) acc).1 ∧
      ∀ item ∈ items, IsListed cat deleted (items.foldl (importStep cat now) acc).1 item.1 := by
  induction items generalizing acc with
  | nil => exact ⟨Keeps.refl _, by simp⟩
  | cons first rest ih =>
    have hfirst := hdeleted first List.mem_cons_self
    obtain ⟨hkeeps, hlisted⟩ := ih (importStep cat now acc first)
      (fun item hitem ↦ hdeleted item (List.mem_cons_of_mem first hitem))
      fun item hitem ↦ hfiled item (List.mem_cons_of_mem first hitem)
    refine ⟨(keeps_importStep hcat acc first hfirst (hfiled first List.mem_cons_self)).trans hkeeps,
      fun item hitem ↦ ?_⟩
    obtain rfl | hitem := List.mem_cons.mp hitem
    · obtain ⟨_, hsome⟩ : IsListed cat deleted (importStep cat now acc item).1 item.1 :=
        listed_importStep acc item hfirst
      exact ⟨hfirst, hsome.imp_left (hkeeps.entries item.1)⟩
    · exact hlisted item hitem

theorem imported_importTrackingHistory (t : Tracking) :
    Imported cat deleted (importTrackingHistory cat now deleted t).1 := by
  have hplay (mediaId title : ℕ) (htitle : cat.titleOf mediaId = some title)
      (hkept : (!(cat.titleOf mediaId).any deleted) = true) : deleted title = false := by
    simpa [htitle] using hkept
  have hnamed (title : ℕ) (h : (dropDeleted cat deleted t).Names cat title) :
      deleted title = false := by
    obtain ⟨play, hmem, htitle⟩ | ⟨mediaId, hmem, htitle⟩ | hmem := h
    · exact hplay play.mediaId title htitle (List.mem_filter.mp hmem).2
    · exact hplay mediaId title htitle (List.mem_filter.mp hmem).2
    · simpa using (List.mem_filter.mp hmem).2
  have hitems : ∀ item ∈ (collectEvidence cat (dropDeleted cat deleted t)).entries,
      deleted item.1 = false := by
    intro item hitem
    have hget := Dict.mem_entries.mp hitem
    exact hnamed item.1 (isSome_collectEvidence.mp (Option.isSome_iff_exists.mpr ⟨item.2, hget⟩))
  obtain ⟨hkeeps, hlisted⟩ := foldl_importStep hcat now _ (dropDeleted cat deleted t, [])
    hitems fun item hitem ↦ filed_collectEvidence cat _ item.1 item.2 (Dict.mem_entries.mp hitem)
  have hall (title : ℕ) (h : (dropDeleted cat deleted t).Names cat title) :
      IsListed cat deleted (importTrackingHistory cat now deleted t).1 title := by
    obtain ⟨e, he⟩ := Option.isSome_iff_exists.mp (isSome_collectEvidence.mpr h)
    exact hlisted (title, e) (Dict.mem_entries.mpr he)
  refine ⟨fun play hmem title htitle ↦ ?_, fun mediaId hmem title htitle ↦ ?_,
    fun title hmem ↦ ?_⟩
  · obtain hmem | ⟨title', htitle', hdeleted, hsome⟩ := hkeeps.plays play hmem
    · exact hall title (.inl ⟨play, hmem, htitle⟩)
    · obtain rfl : title' = title := Option.some.inj (htitle'.symm.trans htitle)
      exact ⟨hdeleted, .inl hsome⟩
  · exact hall title (.inr (.inl ⟨mediaId, hkeeps.playing ▸ hmem, htitle⟩))
  · exact hall title (.inr (.inr (hkeeps.rated ▸ hmem)))

end imports

end AnyList.Streaming
