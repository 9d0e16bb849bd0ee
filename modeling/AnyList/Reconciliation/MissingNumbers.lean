import AnyList.Library.Partial
import AnyList.Library.Runs
import AnyList.Reconciliation.Completions

namespace AnyList.Reconciliation.Completions

open AnyList.Library AnyList.Library.Runs
open AnyList.Timestamps AnyList.Reconciliation.Resolve AnyList.Reconciliation.Sources
open AnyList.Reconciliation.Watches

/-! The comparisons of the source where they may have no answer: `none` is its `TypeError`. -/

namespace Playback

def covers? (completion observed : Playback) : Option Bool :=
  if completion.status = .completed then some true
  else if observed.isResume then (observed.compareNumbers completion).map Ordering.isLE
  else some false

def isAfter? (observed completion : Playback) : Option Bool :=
  if observed.isResume then
    (observed.compareNumbers completion).map fun order ↦ decide (order = .gt)
  else some false

/-- Two playbacks lack the same numbers, as far as the first number in which they differ. -/
def Comparable (playback playback' : Playback) : Prop :=
  playback.season.isSome = playback'.season.isSome ∧
    (playback.season = playback'.season → playback.episode.isSome = playback'.episode.isSome)

end Playback

def numbers (o : PlaybackObservation) : Playback := o.value.getD (.bare .watching)

def instant? (o : PlaybackObservation) : Option Int := o.changedAt.map DateTime.instant

/-- An unknown clock is `datetime.min`. -/
def compareClock : Option Int → Option Int → Ordering
  | none, none => .eq
  | none, some _ => .lt
  | some _, none => .gt
  | some clock, some clock' => compare clock clock'

def compareCompletions (c c' : PlaybackObservation) : Option Ordering :=
  match compareClock (instant? c) (instant? c') with
  | .eq =>
    match (numbers c).compareNumbers (numbers c') with
    | some .eq => some (compare (sourceKey c.source) (sourceKey c'.source))
    | order => order
  | order => some order

def sortCompletions? (completions : List PlaybackObservation) :
    Option (List PlaybackObservation) := Partial.sort compareCompletions completions

def isSetAside? (result : List PlaybackObservation) (completion : PlaybackObservation) :
    Option Bool :=
  match completion.value with
  | none => some false
  | some done =>
    if done.status = .completed then some false
    else result.anyM fun o ↦ o.value.elim (some false) fun playback ↦ playback.isAfter? done

def covered? (completion o : PlaybackObservation) : Option Bool :=
  match completion.value, o.value with
  | some done, some playback => done.covers? playback
  | _, _ => some false

def coverResumes? (result : List PlaybackObservation) (completion : PlaybackObservation) :
    Option (List PlaybackObservation) :=
  (isSetAside? result completion).bind fun aside ↦
    if aside then some result
    else (Partial.filter (fun o ↦ (covered? completion o).map fun covered ↦
      !(covered && (isNewer completion o || replacesOwn completion o))) result).map
        (· ++ [completion])

def reconcileCompletions? (observations completions : List PlaybackObservation) :
    Option (List PlaybackObservation) := completions.foldlM coverResumes? observations

/-- The playback rows of one title: its resumes and its completions. -/
structure TitleRows where
  resumes : List PlaybackObservation
  completions : List PlaybackObservation

namespace TitleRows

variable (title : TitleRows)

/-- A series with history alone needs no status decision. -/
def isReconciled : Bool :=
  title.completions.head?.any fun first ↦
    first.value.any (·.status = .completed) || !title.resumes.isEmpty

def observations? : Option (List PlaybackObservation) :=
  if title.isReconciled then
    (sortCompletions? title.completions).bind (reconcileCompletions? title.resumes)
  else if title.completions = [] then some title.resumes
  else some []

end TitleRows

/-- The playback part of an account decision: it takes every title or none. -/
def accountObservations? (titles : List TitleRows) : Option (List (List PlaybackObservation)) :=
  titles.mapM TitleRows.observations?

/-- Every resume that a completion cannot be compared with stands behind one for which the
completion is set aside. -/
def StepReads (result : List PlaybackObservation) (completion : PlaybackObservation) : Prop :=
  ∀ done ∈ completion.value, done.status ≠ .completed →
    ∀ before o after playback, result = before ++ o :: after → o.value = some playback →
      playback.isResume = true → ¬playback.Comparable done →
        ∃ o' ∈ before, o'.value.any (·.isAfter done) = true

/-- No two completions of one clock lack different numbers, and each completion that lacks one
meets no resume that it would have to be compared with in it. -/
def TitleRows.Reads (title : TitleRows) : Prop :=
  title.isReconciled = true →
    (title.completions.Pairwise fun c c' ↦
      instant? c = instant? c' → (numbers c).Comparable (numbers c')) ∧
    Throughout coverResumes StepReads title.resumes (sortCompletions title.completions)

section comparisons

variable {playback playback' done : Playback} {order : Ordering} {c c' : PlaybackObservation}

theorem compares_compare {α : Type*} [LinearOrder α] (a b : α) : (compare a b).Compares a b := by
  rw [← cmp_eq_compare]
  exact cmp_compares a b

theorem compares_coe {α : Type*} [LinearOrder α] {a b : α} (h : order.Compares a b) :
    order.Compares (orFirst (some a)) (orFirst (some b)) := by
  cases order with
  | lt => exact WithBot.coe_lt_coe.mpr h
  | eq => exact congrArg WithBot.some h
  | gt => exact WithBot.coe_lt_coe.mpr h

theorem compares_compareNumber {number number' : Option ℕ}
    (h : Playback.compareNumber number number' = some order) :
    order.Compares (orFirst number) (orFirst number') := by
  cases number with
  | none =>
    cases number' with
    | none =>
      obtain rfl : Ordering.eq = order := Option.some.inj h
      rfl
    | some _ => exact absurd h (by simp [Playback.compareNumber])
  | some number =>
    cases number' with
    | none => exact absurd h (by simp [Playback.compareNumber])
    | some number' =>
      obtain rfl : compare number number' = order := Option.some.inj h
      exact compares_coe (compares_compare number number')

theorem compares_compareClock (clock clock' : Option Int) :
    (compareClock clock clock').Compares (orFirst clock) (orFirst clock') := by
  cases clock <;> cases clock'
  · rfl
  · exact WithBot.bot_lt_coe _
  · exact WithBot.bot_lt_coe _
  · exact compares_coe (compares_compare _ _)

theorem compares_toLex {α β : Type*} [PartialOrder α] [Preorder β] {a a' : α}
    {b b' : β} (order' : Ordering) (h : order.Compares a a')
    (h' : order = .eq → order'.Compares b b') :
    (order.then order').Compares (toLex (a, b)) (toLex (a', b')) := by
  cases order with
  | lt => exact Prod.Lex.toLex_lt_toLex.mpr (.inl h)
  | gt => exact Prod.Lex.toLex_lt_toLex.mpr (.inl h)
  | eq =>
    obtain rfl : a = a' := h
    cases order' with
    | lt => exact Prod.Lex.toLex_lt_toLex.mpr (.inr ⟨rfl, h' rfl⟩)
    | eq => exact congrArg (fun b ↦ toLex (a, b)) (h' rfl)
    | gt => exact Prod.Lex.toLex_lt_toLex.mpr (.inr ⟨rfl, h' rfl⟩)

theorem bind_season (o : PlaybackObservation) : o.value.bind Playback.season = (numbers o).season := by
  cases h : o.value <;> simp [numbers, h, Playback.bare]

theorem bind_episode (o : PlaybackObservation) :
    o.value.bind Playback.episode = (numbers o).episode := by
  cases h : o.value <;> simp [numbers, h, Playback.bare]

/-- The numbers and then the sources, as the sort key has them. -/
theorem compares_numbers {source source' : String} {tie : Ordering} (htie : tie.Compares source source')
    (h : (match playback.compareNumbers playback' with
      | some .eq => some tie
      | order => order) = some order) :
    order.Compares
      (toLex (orFirst playback.season, toLex (orFirst playback.episode, source)))
      (toLex (orFirst playback'.season, toLex (orFirst playback'.episode, source'))) := by
  rw [Playback.compareNumbers] at h
  cases hseason : Playback.compareNumber playback.season playback'.season with
  | none => simp [hseason] at h
  | some first =>
    have hfirst := compares_compareNumber hseason
    cases hepisode : Playback.compareNumber playback.episode playback'.episode with
    | none =>
      cases first with
      | eq => simp [hseason, hepisode] at h
      | lt =>
        obtain rfl : Ordering.lt = order := by simpa [hseason] using h
        exact compares_toLex .eq hfirst fun h ↦ absurd h (by decide)
      | gt =>
        obtain rfl : Ordering.gt = order := by simpa [hseason] using h
        exact compares_toLex .eq hfirst fun h ↦ absurd h (by decide)
    | some second =>
      have horder : first.then (second.then tie) = order := by
        cases first <;> cases second <;> simpa [hseason, hepisode] using h
      rw [← horder]
      exact compares_toLex _ hfirst fun _ ↦
        compares_toLex _ (compares_compareNumber hepisode) fun _ ↦ htie

/-- Where the sort key has an answer, it is the order of the keys. -/
theorem compares_compareCompletions (h : compareCompletions c c' = some order) :
    order.Compares (completionKey c) (completionKey c') := by
  have hclock := compares_compareClock (instant? c) (instant? c')
  rw [completionKey, completionKey, bind_season, bind_season, bind_episode, bind_episode]
  rw [compareCompletions] at h
  cases hfirst : compareClock (instant? c) (instant? c') with
  | lt =>
    rw [hfirst] at h hclock
    obtain rfl : Ordering.lt = order := Option.some.inj h
    exact compares_toLex .eq hclock fun h ↦ absurd h (by decide)
  | gt =>
    rw [hfirst] at h hclock
    obtain rfl : Ordering.gt = order := Option.some.inj h
    exact compares_toLex .eq hclock fun h ↦ absurd h (by decide)
  | eq =>
    rw [hfirst] at h hclock
    exact compares_toLex order hclock fun _ ↦ compares_numbers (compares_compare _ _) h

theorem compareNumber_eq_none {number number' : Option ℕ} :
    Playback.compareNumber number number' = none ↔ number.isSome ≠ number'.isSome := by
  cases number <;> cases number' <;> simp [Playback.compareNumber]

theorem compareNumber_eq_eq {number number' : Option ℕ} :
    Playback.compareNumber number number' = some .eq ↔ number = number' := by
  cases number <;> cases number' <;> simp [Playback.compareNumber]

theorem compareNumbers_ne_none :
    playback.compareNumbers playback' ≠ none ↔ playback.Comparable playback' := by
  rw [Playback.compareNumbers, Playback.Comparable]
  cases hseason : Playback.compareNumber playback.season playback'.season with
  | none =>
    have hne := compareNumber_eq_none.mp hseason
    exact iff_of_false (by simp) fun h ↦ hne h.1
  | some order =>
    have hsame : playback.season.isSome = playback'.season.isSome := by
      by_contra hne
      rw [compareNumber_eq_none.mpr hne] at hseason
      exact absurd hseason (by simp)
    have heq : order = .eq ↔ playback.season = playback'.season := by
      rw [← compareNumber_eq_eq, hseason, Option.some.injEq]
    cases order with
    | eq =>
      have hepisode : Playback.compareNumber playback.episode playback'.episode ≠ none ↔
          playback.episode.isSome = playback'.episode.isSome := by
        rw [ne_eq, compareNumber_eq_none, not_not]
      simpa [hsame, heq.mp rfl] using hepisode
    | lt =>
      exact iff_of_true (by simp) ⟨hsame, fun h ↦ absurd (heq.mpr h) (by decide)⟩
    | gt =>
      exact iff_of_true (by simp) ⟨hsame, fun h ↦ absurd (heq.mpr h) (by decide)⟩

theorem compareClock_eq_eq {clock clock' : Option Int} :
    compareClock clock clock' = .eq ↔ clock = clock' := by
  cases clock <;> cases clock' <;> simp [compareClock]

theorem compareCompletions_ne_none : compareCompletions c c' ≠ none ↔
    (instant? c = instant? c' → (numbers c).Comparable (numbers c')) := by
  rw [compareCompletions, ← compareClock_eq_eq, ← compareNumbers_ne_none]
  cases compareClock (instant? c) (instant? c') with
  | lt => simp
  | gt => simp
  | eq =>
    cases (numbers c).compareNumbers (numbers c') with
    | none => simp
    | some order => cases order <;> simp

theorem orFirst_injective {α : Type*} : Function.Injective (orFirst (α := α)) := by
  intro a b h
  cases a <;> cases b
  · rfl
  · exact absurd h (WithBot.bot_ne_coe)
  · exact absurd h (WithBot.coe_ne_bot)
  · exact congrArg some (WithBot.coe_injective h)

/-- Between ends that agree on the first part, a chain agrees on it and goes on in the second. -/
theorem toLex_between {α β : Type*} [PartialOrder α] [Preorder β] {a b c : α} {x y z : β}
    (hab : toLex (a, x) ≤ toLex (b, y)) (hbc : toLex (b, y) ≤ toLex (c, z)) (hac : a = c) :
    a = b ∧ x ≤ y ∧ y ≤ z := by
  subst hac
  have hle : a ≤ b := Prod.Lex.monotone_fst _ _ hab
  have hge : b ≤ a := Prod.Lex.monotone_fst _ _ hbc
  obtain rfl := le_antisymm hle hge
  rw [Prod.Lex.toLex_le_toLex] at hab hbc
  exact ⟨rfl, (hab.resolve_left (lt_irrefl a)).2, (hbc.resolve_left (lt_irrefl a)).2⟩

theorem Playback.Comparable.symm (h : playback.Comparable playback') :
    playback'.Comparable playback := ⟨h.1.symm, fun hseason ↦ (h.2 hseason.symm).symm⟩

/-- Between the ends of a chain that agree on the season, every link agrees on it. -/
theorem answers_compareCompletions : Partial.Answers compareCompletions
    fun c c' ↦ completionKey c ≤ completionKey c' where
  lt h := not_le_of_gt ((compares_compareCompletions h).eq_lt.mp rfl)
  not_lt h horder := (compares_compareCompletions h).ne_lt.mp horder
  symm {c c'} h := by
    by_contra hne
    rw [← ne_eq, compareCompletions_ne_none] at hne
    exact compareCompletions_ne_none.mpr (fun hclock ↦ (hne hclock.symm).symm) h
  chain {a b c} hab hbc hba hcb := by
    rw [compareCompletions_ne_none] at hba hcb ⊢
    intro hclock
    simp only [completionKey, bind_season, bind_episode] at hab hbc
    obtain ⟨hclock_ab, hab, hbc⟩ := toLex_between hab hbc (congrArg orFirst hclock.symm)
    have hab' := hba (orFirst_injective hclock_ab).symm
    have hbc' := hcb (hclock.trans (orFirst_injective hclock_ab))
    refine ⟨hbc'.1.trans hab'.1, fun hseason ↦ ?_⟩
    obtain ⟨hseason_ab, -, -⟩ := toLex_between hab hbc (congrArg orFirst hseason.symm)
    have hseason_ab := orFirst_injective hseason_ab
    exact (hbc'.2 (hseason.trans hseason_ab)).trans (hab'.2 hseason_ab.symm)

theorem sortCompletions?_eq_some_iff {completions sorted : List PlaybackObservation} :
    sortCompletions? completions = some sorted ↔
      (completions.Pairwise fun c c' ↦
        instant? c = instant? c' → (numbers c).Comparable (numbers c')) ∧
      sorted = sortCompletions completions := by
  rw [sortCompletions?, Partial.sort_eq_some_iff answers_compareCompletions, sortCompletions]
  refine and_congr_left' (List.Pairwise.iff fun c c' ↦ ?_)
  rw [compareCompletions_ne_none]
  exact ⟨fun h hclock ↦ (h hclock.symm).symm, fun h hclock ↦ (h hclock.symm).symm⟩

end comparisons

section steps

variable {playback done : Playback} {result observations completions : List PlaybackObservation}
  {completion o : PlaybackObservation}

theorem isAfter?_eq_none_iff : playback.isAfter? done = none ↔
    playback.isResume = true ∧ ¬playback.Comparable done := by
  rw [Playback.isAfter?, ← compareNumbers_ne_none]
  split_ifs with h <;> simp [h]

theorem isAfter?_eq_some {answer : Bool} (h : playback.isAfter? done = some answer) :
    answer = playback.isAfter done := by
  rw [Playback.isAfter?] at h
  rw [Playback.isAfter]
  split_ifs at h with hresume
  · obtain ⟨order, horder, rfl⟩ := Option.map_eq_some_iff.mp h
    simp [hresume, horder]
  · simpa [hresume] using h.symm

theorem isAfter?_of_isAfter (h : playback.isAfter done = true) :
    playback.isAfter? done = some true := by
  rw [Playback.isAfter, Bool.and_eq_true, decide_eq_true_eq] at h
  rw [Playback.isAfter?, if_pos h.1, h.2]
  rfl

theorem covers?_eq_some (h : done.status = .completed ∨ playback.isAfter? done ≠ none) :
    done.covers? playback = some (done.covers playback) := by
  rw [Playback.covers?, Playback.covers]
  by_cases hdone : done.status = .completed
  · simp [hdone]
  have hafter := h.resolve_left hdone
  rw [if_neg hdone, decide_eq_false hdone, Bool.false_or]
  split_ifs with hresume
  · rw [Playback.isAfter?, if_pos hresume, ne_eq, Option.map_eq_none_iff] at hafter
    obtain ⟨order, horder⟩ := Option.ne_none_iff_exists'.mp hafter
    simp [hresume, horder]
  · simp [hresume]

/-- The test of the search for a later resume. -/
theorem elim_isAfter?_eq (o : PlaybackObservation) (done : Playback) :
    o.value.elim (some false) (fun playback ↦ playback.isAfter? done) = none ∨
      o.value.elim (some false) (fun playback ↦ playback.isAfter? done) =
        some (o.value.any (·.isAfter done)) := by
  cases hv : o.value with
  | none => exact .inr rfl
  | some playback =>
    cases h : playback.isAfter? done with
    | none => exact .inl h
    | some answer =>
      rw [isAfter?_eq_some h] at h
      exact .inr h

theorem isSetAside?_eq_none_iff :
    isSetAside? result completion = none ↔ ¬StepReads result completion := by
  rw [isSetAside?, StepReads]
  cases hv : completion.value with
  | none => simp
  | some done =>
    by_cases hdone : done.status = .completed
    · simp [hdone]
    simp only [if_neg hdone, Partial.anyM_eq_none_iff]
    constructor
    · intro h hreads
      obtain ⟨before, o, after, rfl, ho, hbefore⟩ := h
      cases hvalue : o.value with
      | none => exact absurd ho (by simp [hvalue])
      | some playback =>
        rw [hvalue, Option.elim_some, isAfter?_eq_none_iff] at ho
        obtain ⟨o', ho', hafter⟩ := hreads done rfl hdone before o after playback rfl hvalue ho.1 ho.2
        refine hbefore o' ho' ?_
        cases hvalue' : o'.value with
        | none => exact absurd hafter (by simp [hvalue'])
        | some playback' =>
          rw [hvalue', Option.any_some] at hafter
          exact isAfter?_of_isAfter hafter
    · intro h
      push Not at h
      obtain ⟨done', hdone', -, before, o, after, playback, rfl, ho, hresume, hnot, hbefore⟩ := h
      obtain rfl := Option.some.inj hdone'
      refine ⟨before, o, after, rfl, ?_, fun o' ho' htrue ↦ hbefore o' ho' ?_⟩
      · rw [ho, Option.elim_some, isAfter?_eq_none_iff]
        exact ⟨hresume, hnot⟩
      · obtain hnone | hsome := elim_isAfter?_eq o' done
        · exact absurd (hnone.symm.trans htrue) (by simp)
        · exact Option.some.inj (hsome.symm.trans htrue)

theorem isSetAside?_eq_some {answer : Bool} (h : isSetAside? result completion = some answer) :
    answer = isSetAside result completion := by
  rw [isSetAside?] at h
  rw [isSetAside]
  cases hv : completion.value with
  | none => simpa [hv] using h.symm
  | some done =>
    rw [hv] at h
    by_cases hdone : done.status = .completed
    · simpa [hdone] using h.symm
    · simp only [if_neg hdone] at h
      rw [Partial.anyM_eq_some (fun o _ ↦ elim_isAfter?_eq o done) h]
      simp [hdone]

/-- A completion that is not set aside was compared with every resume. -/
theorem covered?_eq (h : isSetAside? result completion = some false) (ho : o ∈ result) :
    covered? completion o = some (covers completion o) := by
  rw [covered?, covers]
  cases hv : completion.value with
  | none => rfl
  | some done =>
    cases hvalue : o.value with
    | none => rfl
    | some playback =>
      simp only [Option.any_some]
      refine covers?_eq_some (or_iff_not_imp_left.mpr fun hdone hnone ↦ ?_)
      rw [isSetAside?, hv] at h
      simp only [if_neg hdone] at h
      have htest := Partial.of_anyM_eq_false h o ho
      rw [hvalue, Option.elim_some, hnone] at htest
      exact absurd htest (by simp)

theorem coverResumes?_eq_none (h : ¬StepReads result completion) :
    coverResumes? result completion = none := by
  rw [coverResumes?, isSetAside?_eq_none_iff.mpr h, Option.bind_none]

theorem coverResumes?_eq_some (h : StepReads result completion) :
    coverResumes? result completion = some (coverResumes result completion) := by
  rw [coverResumes?, coverResumes]
  cases haside : isSetAside? result completion with
  | none => exact absurd h (isSetAside?_eq_none_iff.mp haside)
  | some aside =>
    rw [Option.bind_some, ← isSetAside?_eq_some haside]
    cases aside with
    | true => rfl
    | false =>
      have hfilter : Partial.filter (fun o ↦ (covered? completion o).map fun covered ↦
          !(covered && (isNewer completion o || replacesOwn completion o))) result =
            some (result.filter fun o ↦
              !(covers completion o && (isNewer completion o || replacesOwn completion o))) :=
        Partial.filter_eq_some fun o ho ↦ by rw [covered?_eq haside ho, Option.map_some]
      rw [if_neg (by simp), if_neg (by simp), hfilter, Option.map_some]

theorem reconcileCompletions?_eq_some_iff : reconcileCompletions? observations completions = some result ↔
    Throughout coverResumes StepReads observations completions ∧
      result = reconcileCompletions observations completions :=
  foldlM_eq_some_iff (fun _ _ ↦ coverResumes?_eq_some) fun _ _ ↦ coverResumes?_eq_none

end steps

namespace TitleRows

variable {title : TitleRows} {observations : List PlaybackObservation}

theorem titleObservations_eq_ite (title : TitleRows) :
    titleObservations title.resumes title.completions =
      if title.isReconciled then
        reconcileCompletions title.resumes (sortCompletions title.completions)
      else if title.completions = [] then title.resumes
      else [] := by
  cases hcompletions : title.completions with
  | nil => simp [titleObservations, isReconciled, hcompletions]
  | cons first rest =>
    cases hresumes : title.resumes with
    | nil =>
      cases hfirst : first.value.any (·.status = .completed) <;>
        simp [titleObservations, isReconciled, hcompletions, hresumes, hfirst]
    | cons o resumes => simp [titleObservations, isReconciled, hcompletions, hresumes]

/-- A title has its observations, those of the decision, exactly when its rows are comparable. -/
theorem observations?_eq_some_iff : title.observations? = some observations ↔
    title.Reads ∧ observations = titleObservations title.resumes title.completions := by
  rw [observations?, Reads, titleObservations_eq_ite]
  by_cases hreconciled : title.isReconciled = true
  · rw [if_pos hreconciled, if_pos hreconciled, Option.bind_eq_some_iff]
    constructor
    · intro h
      obtain ⟨sorted, hsort, hresult⟩ := h
      obtain ⟨hpairs, rfl⟩ := sortCompletions?_eq_some_iff.mp hsort
      obtain ⟨hsteps, rfl⟩ := reconcileCompletions?_eq_some_iff.mp hresult
      exact ⟨fun _ ↦ ⟨hpairs, hsteps⟩, rfl⟩
    · intro h
      obtain ⟨hreads, rfl⟩ := h
      obtain ⟨hpairs, hsteps⟩ := hreads hreconciled
      exact ⟨_, sortCompletions?_eq_some_iff.mpr ⟨hpairs, rfl⟩,
        reconcileCompletions?_eq_some_iff.mpr ⟨hsteps, rfl⟩⟩
  · rw [if_neg hreconciled, if_neg hreconciled]
    split_ifs with hnil
    · simp [hreconciled, eq_comm]
    · simp [hreconciled, eq_comm]

end TitleRows

theorem accountObservations?_eq_some {titles : List TitleRows} (h : ∀ title ∈ titles, title.Reads) :
    accountObservations? titles =
      some (titles.map fun title ↦ titleObservations title.resumes title.completions) := by
  induction titles with
  | nil => rfl
  | cons title titles ih =>
    have hhead : title.observations? =
        some (titleObservations title.resumes title.completions) :=
      TitleRows.observations?_eq_some_iff.mpr ⟨h title List.mem_cons_self, rfl⟩
    have htail := ih fun t ht ↦ h t (List.mem_cons_of_mem _ ht)
    rw [accountObservations?] at htail ⊢
    rw [List.mapM_cons, hhead, htail]
    rfl

/-- Reading an account's playback rows raises no error exactly when the rows of each of its titles
are comparable. -/
theorem playback_reads_iff (titles : List TitleRows) :
    (accountObservations? titles).isSome = true ↔ ∀ title ∈ titles, title.Reads := by
  constructor
  · intro h
    induction titles with
    | nil => simp
    | cons title titles ih =>
      rw [accountObservations?, List.mapM_cons] at h
      cases hhead : title.observations? with
      | none => simp [hhead] at h
      | some observations =>
        cases htail : titles.mapM TitleRows.observations? with
        | none => simp [hhead, htail] at h
        | some rest =>
          have hrest := ih (by rw [accountObservations?, htail]; rfl)
          have htitle := (TitleRows.observations?_eq_some_iff.mp hhead).1
          exact List.forall_mem_cons.mpr ⟨htitle, hrest⟩
  · intro h
    rw [accountObservations?_eq_some h]
    rfl

/-- A resume point at an episode, with an earlier completion that names its season and no
episode. -/
def rowWithoutEpisode : TitleRows where
  resumes := [⟨.connection 1, some ⟨.watching, some 1, some 3, some 600000, some 2400000⟩,
    some (.naive 20), none, none, false⟩]
  completions := [⟨.connection 1, some ⟨.watching, some 1, none, none, none⟩,
    some (.naive 10), none, none, false⟩]

theorem row_without_episode_aborts :
    ¬(accountObservations? [rowWithoutEpisode]).isSome = true := by
  decide

end AnyList.Reconciliation.Completions
