import AnyList.Statistics.WatchedEpisodes
import Mathlib.Algebra.BigOperators.Group.List.Basic
import Mathlib.Algebra.Order.Ring.Nat
import Mathlib.Data.Finset.Image
import Mathlib.Data.Set.Card

namespace AnyList.Statistics.Input

open AnyList.Library (Dict)
open AnyList.Library.Dict (getEntry setEntry)
open AnyList.Library.Forests
open Relation

section sums

variable {κ α : Type*} [DecidableEq κ]

theorem sum_setEntry (f : α → ℕ) (k : κ) (a : α) {entries : List (κ × α)} :
    ((setEntry k a entries).map fun entry ↦ f entry.2).sum +
        ((getEntry k entries).map f).getD 0 =
      (entries.map fun entry ↦ f entry.2).sum + f a := by
  induction entries with
  | nil => simp [setEntry, getEntry]
  | cons entry entries ih =>
    by_cases hk : entry.1 = k
    · simp only [setEntry, getEntry, if_pos hk, List.map_cons, List.sum_cons, Option.map_some,
        Option.getD_some]
      omega
    · simp only [setEntry, getEntry, if_neg hk, List.map_cons, List.sum_cons]
      omega

/-- Writing a key changes a sum over the values by the new value less the one it replaces. -/
theorem sum_values_set (f : α → ℕ) (d : Dict κ α) (k : κ) (a : α) :
    ((d.set k a).values.map f).sum + ((d.get k).map f).getD 0 = (d.values.map f).sum + f a := by
  rw [Dict.values, Dict.values, List.map_map, List.map_map]
  exact sum_setEntry f k a

end sums

def yearPlays (target : Fact) : ℕ := (target.years.values.map Year.plays).sum

/-- A fact's plays are split by runtime and by date, and the dated ones by year. -/
structure Balanced (target : Fact) : Prop where
  runtime : target.plays = target.runtimeKnown + target.runtimeEstimated + target.runtimeMissing
  date : target.plays = target.authoritativePlays + target.unattributedPlays
  years : yearPlays target = target.authoritativePlays

theorem Blank.balanced {target : Fact} (h : Blank target) : Balanced target where
  runtime := by rw [h.plays, h.runtimeKnown, h.runtimeEstimated, h.runtimeMissing]
  date := by rw [h.plays, h.authoritativePlays, h.unattributedPlays]
  years := by
    rw [yearPlays, h.years, h.authoritativePlays]
    rfl

section counting

variable (reading : Reading)

theorem one_le_plays (event : Event) : 1 ≤ plays event := by
  rw [plays]
  omega

theorem yearPlays_addYear (years : Dict ℤ Year) (year : ℤ) (minutes : ℚ) :
    ((addYear years year minutes).values.map Year.plays).sum = (years.values.map Year.plays).sum + 1 := by
  have hsum := sum_values_set Year.plays years year
    ⟨((years.get year).getD ⟨0, 0⟩).minutes + minutes, ((years.get year).getD ⟨0, 0⟩).plays + 1⟩
  rw [addYear, Dict.upsert]
  cases hget : years.get year with
  | none =>
    rw [hget] at hsum
    simp only [Option.map_none, Option.getD_none] at hsum ⊢
    omega
  | some total =>
    rw [hget] at hsum
    simp only [Option.map_some, Option.getD_some] at hsum ⊢
    omega

theorem countDate_frame (target : Fact) (event : Event) (minutes : ℚ) :
    (countDate target event minutes).plays = target.plays ∧
      (countDate target event minutes).runtimeKnown = target.runtimeKnown ∧
      (countDate target event minutes).runtimeEstimated = target.runtimeEstimated ∧
      (countDate target event minutes).runtimeMissing = target.runtimeMissing ∧
      (countDate target event minutes).episodePlays = target.episodePlays ∧
      (countDate target event minutes).episodes = target.episodes ∧
      (countDate target event minutes).data = target.data := by
  rw [countDate]
  split <;> exact ⟨rfl, rfl, rfl, rfl, rfl, rfl, rfl⟩

theorem countDate_balance (target : Fact) (event : Event) (minutes : ℚ)
    (h : yearPlays target = target.authoritativePlays) :
    (countDate target event minutes).authoritativePlays +
        (countDate target event minutes).unattributedPlays =
      target.authoritativePlays + target.unattributedPlays + plays event ∧
    yearPlays (countDate target event minutes) =
      (countDate target event minutes).authoritativePlays := by
  have hplays := one_le_plays event
  rw [countDate]
  split
  · refine ⟨by simp only; omega, ?_⟩
    rw [yearPlays, yearPlays_addYear]
    exact congrArg (· + 1) h
  · exact ⟨by simp only; omega, h⟩

theorem split_quality (found : Quality) (n : ℕ) :
    n = (if found = .known then n else 0) + (if found = .estimated then n else 0) +
      if found = .missing then n else 0 := by
  cases found <;> simp

theorem balanced_countPlays {target : Fact} (h : Balanced target) (event : Event) (row : Media)
    (episode : ℕ) : Balanced (countPlays reading target event row episode) := by
  let counted := countRuntime reading target event row episode
  let minutes := (runtimeFor reading row target.data).1.getD 0
  obtain ⟨hplays, hknown, hestimated, hmissing, -⟩ := countDate_frame counted event minutes
  obtain ⟨hdate, hyears⟩ := countDate_balance counted event minutes h.years
  have hsplit := split_quality (runtimeFor reading row target.data).2 (plays event)
  have hruntime := h.runtime
  have hdate' := h.date
  refine ⟨?_, ?_, hyears⟩
  · refine hplays.trans ?_
    refine Eq.trans ?_ (congrArg₂ (· + ·) (congrArg₂ (· + ·) hknown hestimated) hmissing).symm
    simp only [counted, countRuntime]
    omega
  · refine hplays.trans ?_
    refine Eq.trans ?_ hdate.symm
    simp only [counted, countRuntime]
    omega

end counting

section listing

variable {i : Input} {titles : Titles} {facts facts' : Dict Key Fact}

/-- What an entry makes of its title: the newest one is kept. -/
def relisted (target : Fact) (e : Entry × Media) : Fact :=
  if target.entryOrder.any fun o ↦ notBefore o (order e.1) then target
  else
    { target with
      listed := true
      status := some e.1.status
      score := (effectiveScore e.1).filter (· ≤ 10)
      progress := max e.1.progress 0
      entryOrder := some (order e.1)
      detailMediaId := some e.2.id
      completionYear := if e.1.status = .completed then e.1.finishYear else none }

theorem listEntry_eq (titles : Titles) (facts : Dict Key Fact) (e : Entry × Media) :
    listEntry titles facts e = (titles.byMedia.get e.2.id).bind fun key ↦
      (facts.get key).map fun target ↦ facts.set key (relisted target e) := by
  obtain ⟨entry, row⟩ := e
  simp only [listEntry, relisted]
  cases titles.byMedia.get row.id with
  | none => rfl
  | some key =>
    cases hget : facts.get key with
    | none => simp [hget]
    | some target =>
      have hself : facts.set key target = facts := by
        ext1
        exact Dict.setEntry_of_getEntry hget
      simp only [Option.bind_eq_bind, Option.bind_some, hget, Option.map_some]
      split
      · rw [hself]
        rfl
      · rfl

/-- The entries whose rows belong to a title. -/
def entriesOf (titles : Titles) (key : Key) (entries : List (Entry × Media)) :
    List (Entry × Media) :=
  entries.filter fun e ↦ decide (titles.byMedia.get e.2.id = some key)

theorem get_foldlM_listEntry {entries : List (Entry × Media)}
    (h : entries.foldlM (listEntry titles) facts = some facts') (key : Key) :
    facts'.get key = (facts.get key).map fun target ↦
      (entriesOf titles key entries).foldl relisted target := by
  induction entries generalizing facts with
  | nil =>
    obtain rfl := Option.some.inj h
    simp [entriesOf]
  | cons e entries ih =>
    rw [List.foldlM_cons, listEntry_eq] at h
    obtain ⟨facts₁, hstep, hrest⟩ := Option.bind_eq_some_iff.mp h
    obtain ⟨key', hkey', hmap⟩ := Option.bind_eq_some_iff.mp hstep
    obtain ⟨target, htarget, rfl⟩ := Option.map_eq_some_iff.mp hmap
    rw [ih hrest, Dict.get_set]
    by_cases hk : key' = key
    · subst hk
      simp [entriesOf, hkey', htarget]
    · simp [entriesOf, hkey', hk]

theorem isSome_foldlM_listEntry {entries : List (Entry × Media)}
    (hfacts : ∀ id key, titles.byMedia.get id = some key → (facts.get key).isSome) :
    (entries.foldlM (listEntry titles) facts).isSome ↔
      ∀ e ∈ entries, (titles.byMedia.get e.2.id).isSome := by
  induction entries generalizing facts with
  | nil => simp
  | cons e entries ih =>
    rw [List.foldlM_cons, listEntry_eq, List.forall_mem_cons]
    cases hkey : titles.byMedia.get e.2.id with
    | none => simp
    | some key =>
      obtain ⟨target, htarget⟩ := Option.isSome_iff_exists.mp (hfacts e.2.id key hkey)
      have hnext : ∀ id key', titles.byMedia.get id = some key' →
          ((facts.set key (relisted target e)).get key').isSome := by
        intro id key' hid
        rw [Dict.get_set]
        split
        · rfl
        · exact hfacts id key' hid
      simp only [Option.bind_some, htarget, Option.map_some, Option.isSome_some, true_and]
      exact ih hnext

theorem relisted_frame (target : Fact) (entries : List (Entry × Media)) :
    (entries.foldl relisted target).data = target.data ∧
      (Blank target → Blank (entries.foldl relisted target)) := by
  induction entries generalizing target with
  | nil => exact ⟨rfl, id⟩
  | cons e entries ih =>
    obtain ⟨hdata, hblank⟩ := ih (relisted target e)
    have hstep : (relisted target e).data = target.data ∧
        (Blank target → Blank (relisted target e)) := by
      rw [relisted]
      split
      · exact ⟨rfl, id⟩
      · exact ⟨rfl, fun ⟨h₁, h₂, h₃, h₄, h₅, h₆, h₇, h₈, h₉⟩ ↦
          ⟨h₁, h₂, h₃, h₄, h₅, h₆, h₇, h₈, h₉⟩⟩
    exact ⟨hdata.trans hstep.1, fun h ↦ hblank (hstep.2 h)⟩

end listing

section run

variable (i : Input) (reading : Reading)

def count (top : ℕ → ℕ) (target : Fact) (e : Event × Media) : Fact :=
  countPlays reading target e.1 e.2 (top e.2.id)

variable {i reading} {top : ℕ → ℕ} {n : ℕ} {counts : Counts} {events : List (Event × Media)}

theorem get_countEvent (hparents : Represents counts.parents top n) (hn : n ≤ i.episodeIds.length)
    (e : Event × Media) (key : Key) :
    (i.countEvent reading counts e).facts.get key =
      if keyOf i.titles e.2 = some key ∧ ¬ i.isHidden reading key = true then
        (counts.facts.get key).map (count reading top · e)
      else counts.facts.get key := by
  obtain ⟨event, row⟩ := e
  simp only [countEvent]
  cases hkey : keyOf i.titles row with
  | none => simp
  | some key' =>
    simp only [Option.some.injEq]
    cases hhidden : i.isHidden reading key' with
    | true =>
      by_cases hk : key' = key
      · subst hk
        simp [hhidden]
      · simp [hk]
    | false =>
      obtain ⟨hroot, -⟩ := root_spec hparents hn row.id
      simp only [Bool.false_eq_true, if_false]
      cases hget : counts.facts.get key' with
      | none =>
        by_cases hk : key' = key
        · subst hk
          simp [hget]
        · simp [hk]
      | some target =>
        simp only [Dict.get_set, hroot]
        by_cases hk : key' = key
        · subst hk
          simp [hhidden, hget, count]
        · simp [hk]

theorem represents_countEvent (hparents : Represents counts.parents top n)
    (hn : n ≤ i.episodeIds.length) (e : Event × Media) :
    Represents (i.countEvent reading counts e).parents top n := by
  obtain ⟨event, row⟩ := e
  obtain ⟨-, hrest⟩ := root_spec hparents hn row.id
  simp only [countEvent]
  split
  · exact hparents
  · split
    · exact hparents
    · split
      · exact hparents
      · simp only
        split
        · exact hrest
        · exact hparents

theorem get_foldl_countEvent (hparents : Represents counts.parents top n)
    (hn : n ≤ i.episodeIds.length) (key : Key) :
    (events.foldl (i.countEvent reading) counts).facts.get key =
      if i.isHidden reading key = true then counts.facts.get key
      else (counts.facts.get key).map fun target ↦
        (events.filter fun e ↦ decide (keyOf i.titles e.2 = some key)).foldl (count reading top)
          target := by
  induction events generalizing counts with
  | nil => simp
  | cons e events ih =>
    rw [List.foldl_cons, ih (represents_countEvent hparents hn e), get_countEvent hparents hn]
    by_cases hhidden : i.isHidden reading key = true
    · simp [hhidden]
    · by_cases hkey : keyOf i.titles e.2 = some key
      · simp [hhidden, hkey, Function.comp_def]
      · simp [hhidden, hkey]

/-- What the counting of some events makes of a fact. -/
structure Sums (top : ℕ → ℕ) (reading : Reading) (events : List (Event × Media))
    (target target' : Fact) : Prop where
  data : target'.data = target.data
  plays : target'.plays = target.plays + (events.map fun e ↦ Input.plays e.1).sum
  runtimeKnown : target'.runtimeKnown = target.runtimeKnown + (events.map fun e ↦
    if (runtimeFor reading e.2 target.data).2 = .known then Input.plays e.1 else 0).sum
  runtimeEstimated : target'.runtimeEstimated = target.runtimeEstimated + (events.map fun e ↦
    if (runtimeFor reading e.2 target.data).2 = .estimated then Input.plays e.1 else 0).sum
  runtimeMissing : target'.runtimeMissing = target.runtimeMissing + (events.map fun e ↦
    if (runtimeFor reading e.2 target.data).2 = .missing then Input.plays e.1 else 0).sum
  episodePlays : target'.episodePlays = target.episodePlays + (events.map fun e ↦
    if e.2.mediaType = .episode then Input.plays e.1 else 0).sum
  episodes : ∀ x, x ∈ target'.episodes ↔
    x ∈ target.episodes ∨ ∃ e ∈ events, e.2.mediaType = .episode ∧ top e.2.id = x
  authoritativePlays : target'.authoritativePlays = target.authoritativePlays +
    events.countP fun e ↦ dated e.1
  unattributedPlays : target'.unattributedPlays = target.unattributedPlays + (events.map fun e ↦
    Input.plays e.1 - if dated e.1 = true then 1 else 0).sum
  years : ∀ year, ((target'.years.get year).map Year.plays).getD 0 =
    ((target.years.get year).map Year.plays).getD 0 +
      events.countP fun e ↦ dated e.1 && decide (e.1.watchedYear = some year)

theorem countDate_dates (target : Fact) (event : Event) (minutes : ℚ) :
    (countDate target event minutes).authoritativePlays =
        target.authoritativePlays + (if dated event = true then 1 else 0) ∧
      (countDate target event minutes).unattributedPlays =
        target.unattributedPlays + (plays event - if dated event = true then 1 else 0) ∧
      ∀ year, (((countDate target event minutes).years.get year).map Year.plays).getD 0 =
        ((target.years.get year).map Year.plays).getD 0 +
          if (dated event && decide (event.watchedYear = some year)) = true then 1 else 0 := by
  rw [countDate]
  cases hyear : event.watchedYear with
  | none =>
    have hdated : dated event = false := by simp [dated, hyear]
    simp [hdated]
  | some year =>
    cases hdated : dated event with
    | false => simp
    | true =>
      refine ⟨by simp, by simp, fun year' ↦ ?_⟩
      simp only [addYear, Dict.get_upsert]
      by_cases hy : year = year'
      · subst hy
        cases target.years.get year <;> simp
      · simp [hy]

theorem sums_count (target : Fact) (e : Event × Media) :
    Sums top reading [e] target (count reading top target e) := by
  obtain ⟨event, row⟩ := e
  let counted := countRuntime reading target event row (top row.id)
  let minutes := (runtimeFor reading row target.data).1.getD 0
  obtain ⟨hplays, hknown, hestimated, hmissing, hepisode, hepisodes, hdata⟩ :=
    countDate_frame counted event minutes
  obtain ⟨hauthoritative, hunattributed, hyears⟩ := countDate_dates counted event minutes
  refine ⟨hdata, hplays.trans ?_, hknown.trans ?_, hestimated.trans ?_, hmissing.trans ?_,
    hepisode.trans ?_, fun x ↦ ?_, hauthoritative.trans ?_, hunattributed.trans ?_,
    fun year ↦ (hyears year).trans ?_⟩
  · simp [counted, countRuntime]
  · simp [counted, countRuntime]
  · simp [counted, countRuntime]
  · simp [counted, countRuntime]
  · simp [counted, countRuntime]
  · have hmem : x ∈ (count reading top target (event, row)).episodes ↔ x ∈ counted.episodes :=
      iff_of_eq (congrArg (x ∈ ·) hepisodes)
    rw [hmem]
    by_cases hrow : row.mediaType = .episode
    · simp [counted, countRuntime, hrow, or_comm, eq_comm]
    · simp [counted, countRuntime, hrow]
  · simp [counted, countRuntime, List.countP_cons]
  · simp [counted, countRuntime]
  · simp [counted, countRuntime, List.countP_cons]

theorem Sums.trans {events' : List (Event × Media)} {target₁ target₂ target₃ : Fact}
    (h : Sums top reading events target₁ target₂)
    (h' : Sums top reading events' target₂ target₃) :
    Sums top reading (events ++ events') target₁ target₃ := by
  have hdata := h.data
  refine ⟨h'.data.trans hdata, ?_, ?_, ?_, ?_, ?_, fun x ↦ ?_, ?_, ?_, fun year ↦ ?_⟩
  · rw [h'.plays, h.plays, List.map_append, List.sum_append, Nat.add_assoc]
  · rw [h'.runtimeKnown, h.runtimeKnown, hdata, List.map_append, List.sum_append, Nat.add_assoc]
  · rw [h'.runtimeEstimated, h.runtimeEstimated, hdata, List.map_append, List.sum_append,
      Nat.add_assoc]
  · rw [h'.runtimeMissing, h.runtimeMissing, hdata, List.map_append, List.sum_append,
      Nat.add_assoc]
  · rw [h'.episodePlays, h.episodePlays, List.map_append, List.sum_append, Nat.add_assoc]
  · simp only [h'.episodes, h.episodes, List.mem_append, or_and_right, exists_or, or_assoc]
  · rw [h'.authoritativePlays, h.authoritativePlays, List.countP_append, Nat.add_assoc]
  · rw [h'.unattributedPlays, h.unattributedPlays, List.map_append, List.sum_append,
      Nat.add_assoc]
  · rw [h'.years, h.years, List.countP_append, Nat.add_assoc]

theorem sums_foldl (target : Fact) :
    Sums top reading events target (events.foldl (count reading top) target) := by
  induction events generalizing target with
  | nil => exact ⟨rfl, rfl, rfl, rfl, rfl, rfl, fun x ↦ by simp, rfl, rfl, fun year ↦ rfl⟩
  | cons e events ih => exact (sums_count target e).trans (ih (count reading top target e))

variable (i) in
/-- What every fact ends as: its title, with its entries and, unless it is hidden, its plays. -/
theorem counted_spec (h : i.counted reading = some counts) :
    ∃ top, (∀ x y, top x = top y ↔ i.SameEpisode x y) ∧ ∀ key, counts.facts.get key =
      (i.titles.facts.get key).map fun target ↦
        (if i.isHidden reading key = true then [] else i.eventsOf key).foldl (count reading top)
          ((entriesOf i.titles key i.entries).foldl relisted target) := by
  obtain ⟨top, n, hn, hparents, htop⟩ := i.parents_spec
  obtain ⟨facts, hfacts, rfl⟩ := Option.map_eq_some_iff.mp h
  refine ⟨top, htop, fun key ↦ ?_⟩
  rw [get_foldl_countEvent hparents hn, get_foldlM_listEntry hfacts]
  split
  · simp
  · simp only [Option.map_map]
    rfl

end run

end AnyList.Statistics.Input
