import AnyList.Library.Runs
import Mathlib.Data.List.Sort
import Mathlib.Order.Lattice

namespace AnyList.Activity.FeedPages

open AnyList.Library.LongRuns

/-- An activity row, with its author and whether its title is anime. -/
structure Row where
  id : Int
  createdAt : Int
  userId : ℕ
  isAnime : Bool
  deriving DecidableEq

/-- A decoded cursor. -/
structure Cursor where
  createdAt : Int
  id : Int
  deriving DecidableEq

def Row.cursor (row : Row) : Cursor := ⟨row.createdAt, row.id⟩

def isAfter (after : Cursor) (row : Row) : Bool :=
  decide (after.createdAt < row.createdAt) ||
    (decide (row.createdAt = after.createdAt) && decide (after.id < row.id))

def Row.notAfter (row row' : Row) : Prop :=
  row.createdAt < row'.createdAt ∨ row.createdAt = row'.createdAt ∧ row.id ≤ row'.id

instance decidableNotAfter : DecidableRel Row.notAfter :=
  fun _ _ ↦ inferInstanceAs (Decidable (_ ∨ _ ∧ _))

instance totalNotAfter : Std.Total Row.notAfter where
  total row row' := by simp only [Row.notAfter]; omega

instance transNotAfter : IsTrans Row Row.notAfter where
  trans row row' row'' h h' := by simp only [Row.notAfter] at h h' ⊢; omega

/-- The activity table, and the authors that the viewer follows and whose profile is public. -/
structure Feed where
  rows : List Row
  nodup_ids : (rows.map Row.id).Nodup
  followed : ℕ → Bool

structure Page where
  results : List Row
  cursor : Cursor
  hasMore : Bool

namespace Feed

variable (feed : Feed) (showAnime : Bool)

def shown (row : Row) : Bool := showAnime || !row.isAnime

/-- The rows of followed authors, oldest first. -/
def selected : List Row :=
  (feed.rows.filter fun row ↦ feed.followed row.userId).insertionSort Row.notAfter

def nextCursor (hasMore : Bool) (rows : List Row) (watermark : Int) : Cursor :=
  match hasMore, rows.getLast? with
  | true, some row => row.cursor
  | _, _ => ⟨watermark, 0⟩

/-- One request for the feed; the results come newest first. -/
def activity (watermark : Int) (cursor : Option Cursor) : Page :=
  match cursor with
  | some after =>
    let rows := (feed.selected.filter (isAfter after)).take 61
    let hasMore := decide (60 < rows.length)
    let rows := if hasMore then rows.take 60 else rows
    let rows := rows.filter (shown showAnime)
    ⟨rows.reverse, nextCursor hasMore rows watermark, hasMore⟩
  | none =>
    let rows := (feed.selected.reverse.take 60).filter (shown showAnime)
    ⟨rows, nextCursor false rows watermark, false⟩

/-- The rows that a viewer gets who follows the cursors until there is no more; request `i` is
made at `clock i`. -/
def follow : ℕ → (ℕ → Int) → Cursor → Option (List Row)
  | 0, _, _ => none
  | n + 1, clock, cursor =>
    let page := feed.activity showAnime (clock 0) (some cursor)
    if page.hasMore then
      (follow n (fun i ↦ clock (i + 1)) page.cursor).map (page.results ++ ·)
    else some page.results

/-- The rows that a viewer who has seen everything up to the cursor is to get. -/
def unseen (cursor : Cursor) : List Row :=
  feed.rows.filter fun row ↦
    feed.followed row.userId && isAfter cursor row && shown showAnime row

/-- Following the cursors ends, with every unseen row once and nothing else. -/
def Complete (clock : ℕ → Int) (cursor : Cursor) : Prop :=
  ∃ n rows, feed.follow showAnime n clock cursor = some rows ∧
    rows.Perm (feed.unseen showAnime cursor)

def newer (cursor : Cursor) : List Row := feed.selected.filter (isAfter cursor)

/-- Past the cursor, 60 hidden rows come in a row with more rows behind them. -/
def BlankPage (cursor : Cursor) : Prop := HasRun (shown showAnime) 60 (· ≠ []) (feed.newer cursor)

/-- Past the cursor, 60 hidden rows come in a row with a shown row somewhere behind them. -/
def Cut (cursor : Cursor) : Prop :=
  HasRun (shown showAnime) 60 (fun rest ↦ ∃ row ∈ rest, shown showAnime row = true)
    (feed.newer cursor)

variable {feed showAnime} {cursor : Cursor} {clock : ℕ → Int} {n : ℕ}

theorem isAfter_iff {row : Row} : isAfter cursor row = true ↔
    cursor.createdAt < row.createdAt ∨ row.createdAt = cursor.createdAt ∧ cursor.id < row.id := by
  rw [isAfter, Bool.or_eq_true, Bool.and_eq_true, decide_eq_true_iff, decide_eq_true_iff,
    decide_eq_true_iff]

theorem isAfter_trans {row row' : Row} (h : isAfter cursor row = true)
    (h' : isAfter row.cursor row' = true) : isAfter cursor row' = true := by
  rw [isAfter_iff] at h h' ⊢
  simp only [Row.cursor] at h'
  omega

theorem not_isAfter_self (row : Row) : isAfter row.cursor row = false := by
  simp [isAfter, Row.cursor]

theorem pairwise_selected :
    feed.selected.Pairwise fun row row' ↦ isAfter row.cursor row' = true := by
  have hsorted := List.pairwise_insertionSort Row.notAfter
    (feed.rows.filter fun row ↦ feed.followed row.userId)
  have hperm := List.perm_insertionSort Row.notAfter
    (feed.rows.filter fun row ↦ feed.followed row.userId)
  have hnodup : (feed.rows.filter fun row ↦ feed.followed row.userId).Pairwise
      fun row row' ↦ row.id ≠ row'.id := (List.pairwise_map.mp feed.nodup_ids).filter _
  have hne := hperm.symm.pairwise hnodup fun h ↦ h.symm
  refine (hsorted.and hne).imp fun {row row'} h ↦ ?_
  obtain ⟨hle, hne⟩ := h
  simp only [Row.notAfter] at hle
  simp only [isAfter_iff, Row.cursor]
  omega

theorem unseen_perm : (feed.unseen showAnime cursor).Perm
    ((feed.newer cursor).filter (shown showAnime)) := by
  have hunseen : feed.unseen showAnime cursor =
      (((feed.rows.filter fun row ↦ feed.followed row.userId).filter (isAfter cursor)).filter
        (shown showAnime)) := by
    rw [List.filter_filter, List.filter_filter, unseen]
    refine List.filter_congr fun row _ ↦ ?_
    rw [Bool.and_comm, Bool.and_assoc, Bool.and_comm (isAfter cursor row)]
  rw [hunseen]
  exact (((List.perm_insertionSort _ _).symm.filter _).filter _)

theorem mem_newer {row : Row} (h : row ∈ feed.newer cursor) : isAfter cursor row = true :=
  (List.mem_filter.mp h).2

/-- Behind a row that is newer than the cursor come the rows newer than that row. -/
theorem newer_of_split {before rest : List Row} {row : Row}
    (h : feed.newer cursor = before ++ row :: rest) : feed.newer row.cursor = rest := by
  have hmem : row ∈ feed.newer cursor := by rw [h]; simp
  have hafter : isAfter cursor row = true := mem_newer hmem
  have hsorted : (before ++ row :: rest).Pairwise
      fun row row' ↦ isAfter row.cursor row' = true := h ▸ pairwise_selected.filter _
  have hnewer : feed.newer row.cursor = (feed.newer cursor).filter (isAfter row.cursor) := by
    rw [newer, newer, List.filter_filter]
    refine List.filter_congr fun row' _ ↦ ?_
    cases hrow : isAfter row.cursor row' with
    | false => rfl
    | true => rw [isAfter_trans hafter hrow, Bool.and_self]
  obtain ⟨-, hcons, hbefore⟩ := List.pairwise_append.mp hsorted
  have hnone : before.filter (isAfter row.cursor) = [] := by
    refine List.filter_eq_nil_iff.mpr fun row' hmem hrow ↦ ?_
    have hself := isAfter_trans hrow (hbefore row' hmem row List.mem_cons_self)
    rw [not_isAfter_self] at hself
    exact absurd hself (by simp)
  rw [hnewer, h, List.filter_append, hnone, List.filter_cons, not_isAfter_self, if_neg (by simp),
    List.nil_append, List.filter_eq_self]
  exact (List.pairwise_cons.mp hcons).1

theorem follow_of_length_le (h : (feed.newer cursor).length ≤ 60) :
    feed.follow showAnime (n + 1) clock cursor =
      some ((feed.newer cursor).filter (shown showAnime)).reverse := by
  have htake : (feed.selected.filter (isAfter cursor)).take 61 = feed.newer cursor :=
    List.take_of_length_le (by simp only [newer] at h; omega)
  simp only [follow, activity, htake, decide_eq_true_eq, if_neg (Nat.not_lt.mpr h)]

theorem follow_of_lt_length (h : 60 < (feed.newer cursor).length) :
    feed.follow showAnime (n + 1) clock cursor =
      (feed.follow showAnime n (fun i ↦ clock (i + 1))
        (nextCursor true (((feed.newer cursor).take 60).filter (shown showAnime)) (clock 0))).map
        ((((feed.newer cursor).take 60).filter (shown showAnime)).reverse ++ ·) := by
  have hlength : 60 < ((feed.selected.filter (isAfter cursor)).take 61).length := by
    simp only [newer] at h
    rw [List.length_take]
    omega
  have htake : ((feed.selected.filter (isAfter cursor)).take 61).take 60 =
      (feed.newer cursor).take 60 := by
    rw [List.take_take, newer]
    rfl
  rw [follow, activity]
  simp only [hlength, decide_true, if_true, htake]

/-- The cases of a request: it is the last one, all that it reads is hidden, or its last shown
row makes the next cursor. -/
theorem request_cases (feed : Feed) (showAnime : Bool) (cursor : Cursor) :
    (feed.newer cursor).length ≤ 60 ∨
      (60 < (feed.newer cursor).length ∧
        ∀ row ∈ (feed.newer cursor).take 60, shown showAnime row = false) ∨
      ∃ before row rest, feed.newer cursor = before ++ row :: rest ∧
        before.length < 60 ∧ shown showAnime row = true ∧
        ∀ n clock, feed.follow showAnime (n + 1) clock cursor =
          (feed.follow showAnime n (fun i ↦ clock (i + 1)) row.cursor).map
            (((before ++ [row]).filter (shown showAnime)).reverse ++ ·) := by
  by_cases hlength : (feed.newer cursor).length ≤ 60
  · exact .inl hlength
  rw [Nat.not_le] at hlength
  obtain hall | ⟨before, row, rest, htake, hrow, hrest⟩ :=
    exists_last (shown showAnime) ((feed.newer cursor).take 60)
  · exact .inr (.inl ⟨hlength, hall⟩)
  refine .inr (.inr ⟨before, row, rest ++ (feed.newer cursor).drop 60, ?_, ?_, hrow, ?_⟩)
  · rw [← List.cons_append, ← List.append_assoc, ← htake, List.take_append_drop]
  · have hcount := congrArg List.length htake
    simp only [List.length_take, List.length_append, List.length_cons] at hcount
    omega
  · intro n clock
    have hfilter : ((feed.newer cursor).take 60).filter (shown showAnime) =
        (before ++ [row]).filter (shown showAnime) := by
      have hnone : rest.filter (shown showAnime) = [] :=
        List.filter_eq_nil_iff.mpr fun row' hmem ↦ by rw [hrest row' hmem]; simp
      rw [htake, List.filter_append, List.filter_append, List.filter_cons, hrow, if_pos rfl, hnone,
        List.filter_cons, hrow, if_pos rfl, List.filter_nil]
    have hnext : nextCursor true ((before ++ [row]).filter (shown showAnime)) (clock 0) =
        row.cursor := by
      rw [List.filter_append, List.filter_cons, hrow, if_pos rfl, List.filter_nil]
      simp only [nextCursor, List.getLast?_concat]
    rw [follow_of_lt_length hlength, hfilter, hnext]

theorem newer_nil_of_late (hlate : ∀ row ∈ feed.rows, row.createdAt < clock 0) :
    feed.newer ⟨clock 0, 0⟩ = [] := by
  refine List.filter_eq_nil_iff.mpr fun row hmem hafter ↦ ?_
  have hrow : row ∈ feed.rows :=
    List.mem_of_mem_filter ((List.perm_insertionSort _ _).mem_iff.mp hmem)
  have hlt := hlate row hrow
  rw [isAfter_iff] at hafter
  simp only at hafter
  omega

theorem follow_of_blank (hlength : 60 < (feed.newer cursor).length)
    (hall : ∀ row ∈ (feed.newer cursor).take 60, shown showAnime row = false) :
    feed.follow showAnime (n + 1) clock cursor =
      feed.follow showAnime n (fun i ↦ clock (i + 1)) ⟨clock 0, 0⟩ := by
  have hnone : ((feed.newer cursor).take 60).filter (shown showAnime) = [] :=
    List.filter_eq_nil_iff.mpr fun row hmem ↦ by rw [hall row hmem]; simp
  rw [follow_of_lt_length hlength, hnone]
  simp [nextCursor]

theorem filter_newer {before rest : List Row} {row : Row}
    (h : feed.newer cursor = before ++ row :: rest) :
    (feed.newer cursor).filter (shown showAnime) =
      (before ++ [row]).filter (shown showAnime) ++
        (feed.newer row.cursor).filter (shown showAnime) := by
  rw [newer_of_split h, ← List.filter_append, h, List.append_assoc, List.singleton_append]

theorem complete_of_length_le (h : (feed.newer cursor).length ≤ 60) :
    feed.Complete showAnime clock cursor :=
  ⟨1, _, follow_of_length_le h, (List.reverse_perm _).trans unseen_perm.symm⟩

theorem complete_of_shown {before rest : List Row} {row : Row}
    (h : feed.newer cursor = before ++ row :: rest)
    (hfollow : ∀ n clock, feed.follow showAnime (n + 1) clock cursor =
      (feed.follow showAnime n (fun i ↦ clock (i + 1)) row.cursor).map
        (((before ++ [row]).filter (shown showAnime)).reverse ++ ·)) :
    feed.Complete showAnime clock cursor ↔
      feed.Complete showAnime (fun i ↦ clock (i + 1)) row.cursor := by
  have hunseen : (feed.unseen showAnime cursor).Perm
      (((before ++ [row]).filter (shown showAnime)).reverse ++
        feed.unseen showAnime row.cursor) := by
    refine unseen_perm.trans ?_
    rw [filter_newer h]
    exact (List.reverse_perm _).symm.append unseen_perm.symm
  constructor
  · intro hcomplete
    obtain ⟨n, rows, hrows, hperm⟩ := hcomplete
    cases n with
    | zero => exact absurd hrows (by simp [follow])
    | succ n =>
      rw [hfollow] at hrows
      obtain ⟨later, hlater, rfl⟩ := Option.map_eq_some_iff.mp hrows
      exact ⟨n, later, hlater, (List.perm_append_left_iff _).mp (hperm.trans hunseen)⟩
  · intro hcomplete
    obtain ⟨n, rows, hrows, hperm⟩ := hcomplete
    refine ⟨n + 1, _, by rw [hfollow, hrows]; rfl, ?_⟩
    exact (hperm.append_left _).trans hunseen.symm

theorem complete_of_not_blankPage (h : ¬feed.BlankPage showAnime cursor) :
    feed.Complete showAnime clock cursor := by
  induction hm : (feed.newer cursor).length using Nat.strong_induction_on
    generalizing cursor clock with
  | _ m ih =>
    obtain hlength | ⟨hlength, hall⟩ | ⟨before, row, rest, hsplit, hbefore, hrow, hfollow⟩ :=
      request_cases feed showAnime cursor
    · exact complete_of_length_le hlength
    · exact absurd (hasRun_of_take hlength.le hall
        (by rw [← List.length_pos_iff, List.length_drop]; omega)) h
    · rw [complete_of_shown hsplit hfollow]
      have hnewer := newer_of_split hsplit
      rw [BlankPage, hsplit, hasRun_append_cons hbefore hrow, ← hnewer] at h
      refine ih _ ?_ h rfl
      rw [hnewer, ← hm, hsplit]
      simp only [List.length_append, List.length_cons]
      omega

/-- A watermark from before the rows sends the viewer back over the blank page for ever. -/
theorem follow_of_early {early : Int} (hearly : feed.BlankPage showAnime ⟨early, 0⟩)
    (h : feed.BlankPage showAnime cursor) :
    feed.follow showAnime n (fun _ ↦ early) cursor = none := by
  induction n generalizing cursor with
  | zero => rfl
  | succ n ih =>
    obtain hlength | ⟨hlength, hall⟩ | ⟨before, row, rest, hsplit, hbefore, hrow, hfollow⟩ :=
      request_cases feed showAnime cursor
    · exact absurd h.lt_length (by omega)
    · rw [follow_of_blank hlength hall]
      exact ih hearly
    · rw [BlankPage, hsplit, hasRun_append_cons hbefore hrow, ← newer_of_split hsplit] at h
      rw [hfollow, ih h]
      rfl

theorem exists_early (feed : Feed) : ∃ early : Int, feed.newer ⟨early, 0⟩ = feed.selected := by
  have hbound : ∀ rows : List Row, ∃ early : Int, ∀ row ∈ rows, early < row.createdAt := by
    intro rows
    induction rows with
    | nil => exact ⟨0, fun row hrow ↦ absurd hrow List.not_mem_nil⟩
    | cons row rows ih =>
      obtain ⟨early, hearly⟩ := ih
      refine ⟨min early (row.createdAt - 1), fun row' hmem ↦ ?_⟩
      obtain rfl | hmem := List.mem_cons.mp hmem
      · omega
      · have := hearly row' hmem
        omega
  obtain ⟨early, hearly⟩ := hbound feed.selected
  refine ⟨early, List.filter_eq_self.mpr fun row hrow ↦ ?_⟩
  rw [isAfter_iff]
  exact .inl (hearly row hrow)

theorem blankPage_of_newer_eq_selected {early : Cursor} (hearly : feed.newer early = feed.selected)
    (h : feed.BlankPage showAnime cursor) : feed.BlankPage showAnime early := by
  obtain ⟨before, hbefore⟩ := exists_append_filter (p := isAfter cursor) feed.pairwise_selected
    fun row row' hlt hafter ↦ isAfter_trans hafter hlt
  rw [BlankPage, hearly, hbefore]
  exact h.append before

theorem complete_iff_not_blankPage :
    (∀ clock, feed.Complete showAnime clock cursor) ↔ ¬feed.BlankPage showAnime cursor := by
  constructor
  · intro hcomplete h
    obtain ⟨early, hearly⟩ := exists_early feed
    obtain ⟨n, rows, hrows, -⟩ := hcomplete fun _ ↦ early
    rw [follow_of_early (blankPage_of_newer_eq_selected hearly h) h] at hrows
    exact absurd hrows (by simp)
  · intro h clock
    exact complete_of_not_blankPage h

theorem cut_of_blank (hlength : 60 < (feed.newer cursor).length)
    (hall : ∀ row ∈ (feed.newer cursor).take 60, shown showAnime row = false) :
    feed.Cut showAnime cursor ↔ ∃ row ∈ feed.newer cursor, shown showAnime row = true := by
  constructor
  · intro h
    obtain ⟨before, run, rest, hnewer, -, -, row, hrow, hshown⟩ := h
    refine ⟨row, ?_, hshown⟩
    rw [hnewer]
    exact List.mem_append_right _ (List.mem_append_right _ hrow)
  · intro h
    obtain ⟨row, hrow, hshown⟩ := h
    refine hasRun_of_take hlength.le hall ⟨row, ?_, hshown⟩
    rw [← List.take_append_drop 60 (feed.newer cursor)] at hrow
    obtain htake | hdrop := List.mem_append.mp hrow
    · rw [hall row htake] at hshown
      exact absurd hshown (by simp)
    · exact hdrop

theorem complete_of_blank (hlate : ∀ row ∈ feed.rows, row.createdAt < clock 0)
    (hlength : 60 < (feed.newer cursor).length)
    (hall : ∀ row ∈ (feed.newer cursor).take 60, shown showAnime row = false) :
    feed.Complete showAnime clock cursor ↔
      ¬∃ row ∈ feed.newer cursor, shown showAnime row = true := by
  have hempty : feed.newer ⟨clock 0, 0⟩ = [] := newer_nil_of_late hlate
  have hend : ∀ n clock', feed.follow showAnime (n + 1) clock' ⟨clock 0, 0⟩ = some [] := by
    intro n clock'
    rw [follow_of_length_le (by rw [hempty]; simp), hempty]
    rfl
  have hnone : (feed.unseen showAnime cursor = [] ↔
      ¬∃ row ∈ feed.newer cursor, shown showAnime row = true) := by
    rw [← List.perm_nil, unseen_perm.congr_left, List.perm_nil, List.filter_eq_nil_iff]
    simp
  rw [← hnone]
  constructor
  · intro h
    obtain ⟨n, rows, hrows, hperm⟩ := h
    match n with
    | 0 => exact absurd hrows (by simp [follow])
    | 1 =>
      rw [follow_of_blank hlength hall] at hrows
      exact absurd hrows (by simp [follow])
    | n + 2 =>
      rw [follow_of_blank hlength hall, hend, Option.some.injEq] at hrows
      rw [← hrows] at hperm
      exact hperm.nil_eq.symm
  · intro h
    refine ⟨2, [], ?_, by rw [h]⟩
    rw [follow_of_blank hlength hall, hend]

/-- When every row is older than the requests, rows are lost exactly behind a blank page. -/
theorem complete_iff_not_cut (hlate : ∀ i, ∀ row ∈ feed.rows, row.createdAt < clock i) :
    feed.Complete showAnime clock cursor ↔ ¬feed.Cut showAnime cursor := by
  induction hm : (feed.newer cursor).length using Nat.strong_induction_on
    generalizing cursor clock with
  | _ m ih =>
    obtain hlength | ⟨hlength, hall⟩ | ⟨before, row, rest, hsplit, hbefore, hrow, hfollow⟩ :=
      request_cases feed showAnime cursor
    · refine iff_of_true (complete_of_length_le hlength) fun h ↦ ?_
      obtain ⟨start, run, rest, hnewer, hrun, -, row, hrow, -⟩ := h
      have hpos := List.length_pos_of_mem hrow
      rw [hnewer] at hlength
      simp only [List.length_append] at hlength
      omega
    · rw [complete_of_blank (hlate 0) hlength hall, cut_of_blank hlength hall]
    · have hnewer := newer_of_split hsplit
      rw [complete_of_shown hsplit hfollow, Cut, hsplit, hasRun_append_cons hbefore hrow, ← hnewer]
      refine ih _ ?_ (fun i ↦ hlate (i + 1)) rfl
      rw [hnewer, ← hm, hsplit]
      simp only [List.length_append, List.length_cons]
      omega

/-- Following the cursors loses nothing, whenever the requests are made, exactly when no 60 hidden
rows in a row have more rows behind them; when every row is older than the requests, exactly when
no such 60 have a shown row behind them. -/
theorem pages_lose_nothing_iff (feed : Feed) (showAnime : Bool) (cursor : Cursor) :
    ((∀ clock, feed.Complete showAnime clock cursor) ↔ ¬feed.BlankPage showAnime cursor) ∧
      ∀ clock : ℕ → Int, (∀ i, ∀ row ∈ feed.rows, row.createdAt < clock i) →
        (feed.Complete showAnime clock cursor ↔ ¬feed.Cut showAnime cursor) :=
  ⟨complete_iff_not_blankPage, fun _ hlate ↦ complete_iff_not_cut hlate⟩

/-- Sixty anime rows and then a film. -/
def animeMonth : Feed where
  rows := (List.range 60).map (fun i : ℕ ↦ ⟨i + 1, i, 7, true⟩) ++ [⟨61, 60, 7, false⟩]
  nodup_ids := by decide +kernel
  followed := fun userId ↦ userId == 7

theorem animeMonth_late (i : ℕ) :
    ∀ row ∈ animeMonth.rows, row.createdAt < (fun j : ℕ ↦ (100 + j : Int)) i := by
  have hbound : ∀ row ∈ animeMonth.rows, row.createdAt < 100 := by decide +kernel
  intro row hrow
  have := hbound row hrow
  simp only
  omega

theorem animeMonth_cut : animeMonth.Cut false ⟨0, 0⟩ := by
  refine hasRun_of_take ?_ ?_ ?_ <;> decide +kernel

theorem animeMonth_loses_the_film :
    ¬animeMonth.Complete false (fun j : ℕ ↦ (100 + j : Int)) ⟨0, 0⟩ :=
  fun h ↦ (complete_iff_not_cut animeMonth_late).mp h animeMonth_cut

theorem pages_lose_nothing_animeMonth :
    ¬animeMonth.Complete false (fun j : ℕ ↦ (100 + j : Int)) ⟨0, 0⟩ ∧
      animeMonth.Complete true (fun j : ℕ ↦ (100 + j : Int)) ⟨0, 0⟩ := by
  constructor
  · intro h
    exact ((pages_lose_nothing_iff animeMonth false ⟨0, 0⟩).2 _ animeMonth_late).mp h animeMonth_cut
  · refine ((pages_lose_nothing_iff animeMonth true ⟨0, 0⟩).2 _ animeMonth_late).mpr fun h ↦ ?_
    obtain ⟨before, run, rest, -, hlength, hrun, -⟩ := h
    cases run with
    | nil => exact absurd hlength (by simp)
    | cons row run => exact absurd (hrun row List.mem_cons_self) (by simp [shown])

end Feed

end AnyList.Activity.FeedPages
