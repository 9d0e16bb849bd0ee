import AnyList.Activity.Cards

namespace AnyList.Activity

open AnyList.Library
open AnyList.Reconciliation.Watches (Status)

variable (userId mediaId : ℕ)

def openCards (feed : Table Card) (now : Int) : List Card :=
  (feed.rows.map Prod.snd).filter fun row ↦
    decide (row.userId = userId ∧ row.mediaId = mediaId) && isOpen now row

/-- Each edit is recorded against the progress that the one before it left. -/
def recordEdits (feed : Table Card) (previous : ℕ) : List Edit → Table Card
  | [] => feed
  | edit :: rest =>
    recordEdits (recordProgressActivity previous edit feed userId mediaId) edit.progress rest

/-- The cards tell the net progress since `start`, and there is none to tell without a gain. -/
def IsNet (start progress : ℕ) (cards : List Card) : Prop :=
  cards.map (fun row ↦ row.payload.episodesWatched) =
    if start < progress then [some (progress - start)] else []

instance (start progress : ℕ) (cards : List Card) : Decidable (IsNet start progress cards) :=
  inferInstanceAs (Decidable (_ = _))

/-- After every one of the edits the cards tell the net progress since `start`. -/
def KeepsNet (start : ℕ) (feed : Table Card) (previous : ℕ) (edits : List Edit) : Prop :=
  ∀ past edit rest, edits = past ++ edit :: rest →
    IsNet start edit.progress (openCards userId mediaId
      (recordEdits userId mediaId feed previous (past ++ [edit])) edit.now)

/-- No edit raises the progress from below `start`. -/
def NoRegain (start : ℕ) (edits : List Edit) : Prop :=
  edits.IsChain fun edit next ↦ edit.progress < start → next.progress ≤ edit.progress

/-- Edits of the progress alone, in the order of their clocks and within a day of `opened`. -/
structure InWindow (opened : Int) (edits : List Edit) : Prop where
  countOnly : ∀ edit ∈ edits, edit.watchedIds = none
  since : ∀ edit ∈ edits, opened ≤ edit.now
  before : ∀ edit ∈ edits, edit.now < opened + day
  ordered : edits.Pairwise fun edit later ↦ edit.now ≤ later.now

/-- At `opened` the title has cards of the past only, none of whose windows is open. -/
structure NoneOpen (feed : Table Card) (opened : Int) : Prop where
  recorded : ∀ row ∈ feed.rows, row.2.userId = userId → row.2.mediaId = mediaId →
    windowStart row.2 ≤ row.2.createdAt ∧ row.2.createdAt ≤ opened
  closed : openCards userId mediaId feed opened = []

/-- The card of a window that began at progress `start` and now stands at `progress`. -/
structure Counts (start progress : ℕ) (opened last : Int) (card : Card) : Prop where
  user : card.userId = userId
  media : card.mediaId = mediaId
  created : card.createdAt = last
  window : ∃ w, card.payload.windowStartedAt = some w ∧ opened ≤ w ∧ w ≤ last
  starts : card.payload.progressStart = some start
  gained : start < progress
  watched : card.payload.episodesWatched = some (progress - start)
  inexact : card.payload.watchedStartIds = none
  statusKept : card.payload.statusChanged = false
  ratingKept : card.payload.ratingChanged = false

/-- Where the window of the edits stands: without a card and without a gain, or with the card
that counts it as the newest row. -/
inductive Standing (old : List (ℕ × Card)) (start progress : ℕ) (opened last : Int)
    (feed : Table Card) : Prop
  | without : feed.rows = old → progress ≤ start → Standing old start progress opened last feed
  | counted (id : ℕ) (card : Card) : feed.rows = old ++ [(id, card)] →
      Counts userId mediaId start progress opened last card →
      Standing old start progress opened last feed

section latest

theorem mem_latest {rows : List (ℕ × Card)} {row : ℕ × Card} (h : latest rows = some row) :
    row ∈ rows := by
  induction rows using List.reverseRecOn generalizing row with
  | nil => simp [latest] at h
  | append_singleton rows last ih =>
    rw [latest, List.foldl_append, List.foldl_cons, List.foldl_nil] at h
    split at h
    · obtain rfl := Option.some.inj h
      simp
    · exact List.mem_append_left _ (ih h)

theorem latest_append {rows : List (ℕ × Card)} {last : ℕ × Card}
    (h : ∀ row ∈ rows, row.2.createdAt ≤ last.2.createdAt) :
    latest (rows ++ [last]) = some last := by
  rw [latest, List.foldl_append, List.foldl_cons, List.foldl_nil, if_pos]
  change (latest rows).all _ = true
  cases hl : latest rows with
  | none => rfl
  | some row => simpa using h row (mem_latest hl)

end latest

section rows

variable {userId mediaId} {feed : Table Card} {opened : Int}

theorem NoneOpen.isOpen_eq_false (h : NoneOpen userId mediaId feed opened) {now : Int}
    (hnow : opened ≤ now) {row : ℕ × Card} (hrow : row ∈ feed.rows)
    (hu : row.2.userId = userId) (hm : row.2.mediaId = mediaId) : isOpen now row.2 = false := by
  have hclosed : isOpen opened row.2 = false := by
    have hnot := List.filter_eq_nil_iff.mp h.closed row.2 (List.mem_map_of_mem hrow)
    simpa [hu, hm] using hnot
  obtain ⟨hstart, hcreated⟩ := h.recorded row hrow hu hm
  simp only [isOpen, decide_eq_false_iff_not] at hclosed ⊢
  omega

theorem NoneOpen.openCards_eq (h : NoneOpen userId mediaId feed opened) {now : Int}
    (hnow : opened ≤ now) {feed' : Table Card} {extra : List (ℕ × Card)}
    (hrows : feed'.rows = feed.rows ++ extra) :
    openCards userId mediaId feed' now = (extra.map Prod.snd).filter fun row ↦
      decide (row.userId = userId ∧ row.mediaId = mediaId) && isOpen now row := by
  rw [openCards, hrows, List.map_append, List.filter_append, List.filter_eq_nil_iff.mpr]
  · rfl
  · intro card hcard
    obtain ⟨row, hrow, rfl⟩ := List.mem_map.mp hcard
    rw [Bool.and_eq_true, decide_eq_true_iff]
    rintro ⟨⟨hu, hm⟩, hopen⟩
    rw [h.isOpen_eq_false hnow hrow hu hm] at hopen
    exact Bool.noConfusion hopen

theorem NoneOpen.activeCard_eq_none (h : NoneOpen userId mediaId feed opened) {now : Int}
    (hnow : opened ≤ now) {feed' : Table Card} (hrows : feed'.rows = feed.rows) :
    activeCard feed' userId mediaId now = none := by
  rw [activeCard, hrows, Option.filter_eq_none_iff]
  intro row hrow
  obtain ⟨hmem, hrecent⟩ := List.mem_filter.mp (mem_latest hrow)
  simp only [isRecent, decide_eq_true_eq] at hrecent
  simp [h.isOpen_eq_false hnow hmem hrecent.1 hrecent.2.1]

variable {start progress : ℕ} {last : Int} {card : Card}

theorem Counts.isOpen (h : Counts userId mediaId start progress opened last card) {now : Int}
    (hnow : last ≤ now) (hend : now < opened + day) : isOpen now card = true := by
  obtain ⟨w, hw, hle, hlast⟩ := h.window
  simp only [Activity.isOpen, windowStart, hw, Option.getD_some, decide_eq_true_eq]
  omega

theorem Counts.activeCard_eq (h : Counts userId mediaId start progress opened last card)
    (hfeed : NoneOpen userId mediaId feed opened) {now : Int} (hopened : opened ≤ last)
    (hnow : last ≤ now) (hend : now < opened + day) {feed' : Table Card} {id : ℕ}
    (hrows : feed'.rows = feed.rows ++ [(id, card)]) :
    activeCard feed' userId mediaId now = some (id, card) := by
  have hrecent : isRecent userId mediaId now card = true := by
    refine decide_eq_true ⟨h.user, h.media, ?_, ?_⟩ <;> rw [h.created] <;> omega
  have hlatest : latest (feed'.rows.filter fun row ↦ isRecent userId mediaId now row.2) =
      some (id, card) := by
    have hone : [(id, card)].filter (fun row ↦ isRecent userId mediaId now row.2) = [(id, card)] :=
      List.filter_eq_self.mpr (by simpa using hrecent)
    rw [hrows, List.filter_append, hone]
    refine latest_append fun row hrow ↦ ?_
    obtain ⟨hmem, hr⟩ := List.mem_filter.mp hrow
    simp only [isRecent, decide_eq_true_eq] at hr
    have hcreated := (hfeed.recorded row hmem hr.1 hr.2.1).2
    rw [h.created]
    omega
  rw [activeCard, hlatest, Option.filter_some, if_pos]
  exact h.isOpen hnow hend

theorem Standing.isNet {feed' : Table Card}
    (h : Standing userId mediaId feed.rows start progress opened last feed')
    (hfeed : NoneOpen userId mediaId feed opened) (hopened : opened ≤ last)
    (hend : last < opened + day) :
    IsNet start progress (openCards userId mediaId feed' last) := by
  cases h with
  | without hrows hle =>
    rw [IsNet, hfeed.openCards_eq hopened (hrows.trans (List.append_nil _).symm),
      if_neg (Nat.not_lt.mpr hle)]
    rfl
  | counted id card hrows hcounts =>
    rw [IsNet, hfeed.openCards_eq hopened hrows, if_pos hcounts.gained]
    simp [hcounts.user, hcounts.media, hcounts.isOpen le_rfl hend, hcounts.watched]

end rows

section edits

variable {previous : ℕ} {edit : Edit}

theorem progressDetails_of_count {row : Option Card} (hcount : edit.watchedIds = none)
    (hexact : ∀ card, row = some card → card.payload.watchedStartIds = none) :
    progressDetails previous edit row =
      let details := setActivityWindow ((row.map Card.payload).getD .empty) row edit.now
      spanDetails edit (baseline previous details) (countDetails previous edit details) := by
  have hids : (countDetails previous edit (setActivityWindow ((row.map Card.payload).getD .empty)
      row edit.now)).watchedStartIds = none := by
    cases row with
    | none => rfl
    | some card =>
      have h := hexact card rfl
      unfold countDetails setActivityWindow
      split
      · exact h
      · exact h
  rw [progressDetails]
  simp only [hcount, hids, Option.isSome_none, Bool.or_self, Bool.false_eq_true, if_false]

theorem hasActivityEvent_span (status : Status) {details : Details} {start : ℕ}
    (hcount : details.episodesWatched = some (edit.progress - start))
    (hstatus : details.statusChanged = false) (hrating : details.ratingChanged = false) :
    hasActivityEvent status (spanDetails edit start details) = decide (start < edit.progress) := by
  have hspan : edit.progress ≤ start →
      (edit.catalogue.activitySpan start edit.progress).2.2 = [] := fun h ↦ by
    rw [Catalogue.activitySpan_of_le _ h]
  by_cases h : start < edit.progress
  · have hne : edit.progress - start ≠ 0 := by omega
    simp [hasActivityEvent, spanDetails, hcount, hstatus, hrating, h, hne]
  · have hzero : edit.progress - start = 0 := by omega
    simp [hasActivityEvent, spanDetails, hcount, hstatus, hrating, h, hzero,
      hspan (Nat.not_lt.mp h)]

variable {userId mediaId : ℕ} {feed feed' : Table Card} {opened last : Int} {start : ℕ}

/-- Without an open window an edit opens its own, which counts from the previous progress. -/
theorem record_without (previous : ℕ) (hfeed : NoneOpen userId mediaId feed opened) (hopened : opened ≤ edit.now)
    (hcount : edit.watchedIds = none) (hrows : feed'.rows = feed.rows) :
    Standing userId mediaId feed.rows previous edit.progress edit.now edit.now
      (recordProgressActivity previous edit feed' userId mediaId) := by
  have hactive := hfeed.activeCard_eq_none hopened hrows
  have hdetails : progressDetails previous edit none =
      spanDetails edit previous (countDetails previous edit
        (setActivityWindow .empty none edit.now)) :=
    progressDetails_of_count hcount (by simp)
  have hevent : hasActivityEvent edit.status (progressDetails previous edit none) =
      decide (previous < edit.progress) := by
    rw [hdetails]
    exact hasActivityEvent_span _ rfl rfl rfl
  simp only [recordProgressActivity, hactive, Option.map_none, hevent, decide_eq_true_eq]
  split_ifs with hgain
  · refine .counted feed'.next _ (congrArg (· ++ _) hrows) ?_
    rw [hdetails]
    exact ⟨rfl, rfl, rfl, ⟨edit.now, rfl, le_rfl, le_rfl⟩, rfl, hgain, rfl, rfl, rfl, rfl⟩
  · exact .without hrows (Nat.not_lt.mp hgain)

/-- Within its window an edit is counted from where the window began. -/
theorem record_counted (hfeed : NoneOpen userId mediaId feed opened) (hopened : opened ≤ last)
    (hlast : last ≤ edit.now) (hend : edit.now < opened + day) (hcount : edit.watchedIds = none)
    {id : ℕ} {card : Card} (hrows : feed'.rows = feed.rows ++ [(id, card)])
    (hcard : Counts userId mediaId start previous opened last card) :
    Standing userId mediaId feed.rows start edit.progress opened edit.now
      (recordProgressActivity previous edit feed' userId mediaId) := by
  have hactive := hcard.activeCard_eq hfeed hopened hlast hend hrows
  obtain ⟨w, hw, hle, hwlast⟩ := hcard.window
  have hset : setActivityWindow card.payload (some card) edit.now = card.payload := by
    rw [setActivityWindow, hw, Option.isSome_some, if_pos rfl]
  have hbase : baseline previous card.payload = start := by
    rw [baseline, hcard.starts]
  have hdetails : progressDetails previous edit (some card) =
      spanDetails edit start (countDetails previous edit card.payload) := by
    refine (progressDetails_of_count hcount fun c hc ↦ ?_).trans ?_
    · obtain rfl := Option.some.inj hc
      exact hcard.inexact
    · simp only [Option.map_some, Option.getD_some, hset, hbase]
  have hwatched : (countDetails previous edit card.payload).episodesWatched =
      some (edit.progress - start) := by
    rw [countDetails, hbase]
  have hevent : hasActivityEvent edit.status (progressDetails previous edit (some card)) =
      decide (start < edit.progress) := by
    rw [hdetails]
    exact hasActivityEvent_span _ hwatched hcard.statusKept hcard.ratingKept
  simp only [recordProgressActivity, hactive, Option.map_some, hevent, decide_eq_true_eq]
  split_ifs with hgain
  · refine .counted id _ (Table.rows_modifyAt_last hrows _) ?_
    rw [hdetails]
    exact ⟨hcard.user, hcard.media, rfl, ⟨w, hw, hle, hwlast.trans hlast⟩, congrArg some hbase,
      hgain, hwatched, hcard.inexact, hcard.statusKept, hcard.ratingKept⟩
  · exact .without (Table.rows_eraseAt_last hrows) (Nat.not_lt.mp hgain)

theorem Counts.of_le {progress : ℕ} {opened' : Int} {card : Card}
    (h : Counts userId mediaId start progress opened' last card) (hle : opened ≤ opened') :
    Counts userId mediaId start progress opened last card := by
  obtain ⟨w, hw, hopened, hlast⟩ := h.window
  exact { h with window := ⟨w, hw, hle.trans hopened, hlast⟩ }

theorem Standing.record (h : Standing userId mediaId feed.rows start previous opened last feed')
    (hfeed : NoneOpen userId mediaId feed opened) (hopened : opened ≤ last)
    (hlast : last ≤ edit.now) (hend : edit.now < opened + day) (hcount : edit.watchedIds = none)
    (hregain : previous < start → edit.progress ≤ previous) :
    Standing userId mediaId feed.rows start edit.progress opened edit.now
      (recordProgressActivity previous edit feed' userId mediaId) := by
  cases h with
  | counted id card hrows hcard =>
    exact record_counted hfeed hopened hlast hend hcount hrows hcard
  | without hrows hle =>
    cases record_without previous hfeed (hopened.trans hlast) hcount hrows with
    | without hrows' hle' => exact .without hrows' (hle'.trans hle)
    | counted id card hrows' hcard =>
      have hgained := hcard.gained
      obtain rfl : previous = start := by
        by_contra hne
        have := hregain (by omega)
        omega
      exact .counted id card hrows' (hcard.of_le (hopened.trans hlast))

/-- A gain from below where the window began is counted from the lower progress. -/
theorem Standing.not_isNet (h : Standing userId mediaId feed.rows start previous opened last feed')
    (hfeed : NoneOpen userId mediaId feed opened) (hopened : opened ≤ edit.now)
    (hcount : edit.watchedIds = none) (hbelow : previous < start)
    (hgain : previous < edit.progress) :
    ¬IsNet start edit.progress (openCards userId mediaId
      (recordProgressActivity previous edit feed' userId mediaId) edit.now) := by
  cases h with
  | counted id card hrows hcard =>
    have := hcard.gained
    omega
  | without hrows hle =>
    cases record_without previous hfeed hopened hcount hrows with
    | without hrows' hle' => omega
    | counted id card hrows' hcard =>
      have hopen := hcard.isOpen le_rfl (Int.lt_add_of_pos_right _ (by decide))
      rw [IsNet, hfeed.openCards_eq hopened hrows']
      simp only [List.map_cons, List.map_nil, hcard.user, hcard.media, hopen, and_self,
        decide_true, Bool.and_self, List.filter_cons_of_pos, List.filter_nil, hcard.watched]
      split_ifs
      · simp only [List.cons.injEq, Option.some.injEq, and_true]
        omega
      · simp

end edits

section runs

variable {userId mediaId} {feed feed' : Table Card} {opened last : Int} {start previous : ℕ}

theorem keepsNet_nil : KeepsNet userId mediaId start feed previous [] := by
  intro past edit rest h
  simp at h

theorem keepsNet_cons {edit : Edit} {rest : List Edit} :
    KeepsNet userId mediaId start feed previous (edit :: rest) ↔
      IsNet start edit.progress (openCards userId mediaId
        (recordProgressActivity previous edit feed userId mediaId) edit.now) ∧
      KeepsNet userId mediaId start (recordProgressActivity previous edit feed userId mediaId)
        edit.progress rest := by
  constructor
  · intro h
    exact ⟨h [] edit rest rfl, fun past e later hsplit ↦
      h (edit :: past) e later (congrArg _ hsplit)⟩
  · rintro ⟨hfirst, hrest⟩ past e later hsplit
    cases past with
    | nil =>
      obtain ⟨rfl, rfl⟩ := List.cons.inj hsplit
      exact hfirst
    | cons first past =>
      obtain ⟨rfl, htail⟩ := List.cons.inj hsplit
      exact hrest past e later htail

theorem InWindow.tail {edit : Edit} {rest : List Edit} (h : InWindow opened (edit :: rest)) :
    InWindow opened rest where
  countOnly e he := h.countOnly e (List.mem_cons_of_mem _ he)
  since e he := h.since e (List.mem_cons_of_mem _ he)
  before e he := h.before e (List.mem_cons_of_mem _ he)
  ordered := h.ordered.of_cons

/-- The edits of a window, from anywhere in it. -/
theorem Standing.keepsNet_iff {edits : List Edit}
    (h : Standing userId mediaId feed.rows start previous opened last feed')
    (hfeed : NoneOpen userId mediaId feed opened) (hopened : opened ≤ last)
    (hwindow : InWindow opened edits) (hlast : ∀ edit ∈ edits, last ≤ edit.now) :
    KeepsNet userId mediaId start feed' previous edits ↔
      (previous :: edits.map Edit.progress).IsChain fun p q ↦ p < start → q ≤ p := by
  induction edits generalizing feed' previous last with
  | nil => simp [keepsNet_nil]
  | cons edit rest ih =>
    have hnow := hlast edit (List.mem_cons_self ..)
    have hsince := hwindow.since edit (List.mem_cons_self ..)
    have hend := hwindow.before edit (List.mem_cons_self ..)
    have hcount := hwindow.countOnly edit (List.mem_cons_self ..)
    rw [keepsNet_cons, List.map_cons, List.isChain_cons_cons]
    by_cases hregain : previous < start → edit.progress ≤ previous
    · have hnext := h.record hfeed hopened hnow hend hcount hregain
      rw [ih hnext hsince hwindow.tail (List.pairwise_cons.mp hwindow.ordered).1]
      exact and_congr_left fun _ ↦ iff_of_true (hnext.isNet hfeed hsince hend) hregain
    · have hnot : ¬IsNet start edit.progress (openCards userId mediaId
          (recordProgressActivity previous edit feed' userId mediaId) edit.now) :=
        h.not_isNet hfeed hsince hcount (by omega) (by omega)
      exact iff_of_false (fun hnet ↦ hnot hnet.1) fun hchain ↦ hregain hchain.1

end runs

section edits

def shortSeason : Catalogue where
  isSeries := true
  episodes := (List.range 8).map fun n ↦ ⟨n + 1, 1, n + 1⟩
  expected number := if number = 1 then 8 else 0
  completedPlays := []

def setProgress (progress : ℕ) (now : Int) : Edit where
  progress := progress
  status := .watching
  score := none
  previousWatchedIds := none
  watchedIds := none
  catalogue := shortSeason
  now := now

theorem noneOpen_empty (opened : Int) : NoneOpen 1 2 .empty opened where
  recorded _ hrow := absurd hrow List.not_mem_nil
  closed := rfl

end edits

end AnyList.Activity
