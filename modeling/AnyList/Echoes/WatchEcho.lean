import AnyList.Library.Dict
import AnyList.Library.Runs
import Mathlib.Data.Int.Order.Basic
import Mathlib.Data.List.Pairwise
import Mathlib.Data.List.Perm.Subperm

namespace AnyList.Echoes.WatchEcho

open AnyList.Library AnyList.Library.Runs

/-- A user and a title. -/
abbrev Key := ℕ × ℕ

abbrev Queues := Dict Key (List Int)

def pushedWatchedTtl : Int := 600000000

def queue (queues : Queues) (key : Key) : List Int := (queues.get key).getD []

def isFresh (now pushedAt : Int) : Bool := decide (now - pushedAt < pushedWatchedTtl)

/-- Forgets the queues of which every mark has expired, once there are many queues. -/
def prune (queues : Queues) (now : Int) : Queues :=
  if 5000 < queues.keys.length then
    queues.filterKeys fun key ↦
      !(queue queues key).all fun pushedAt ↦ decide (pushedAt < now - pushedWatchedTtl)
  else queues

def markPushedWatched (queues : Queues) (key : Key) (now : Int) : Queues :=
  (prune queues now).upsert key [] (· ++ [now])

def consumeRecentlyPushedWatched (queues : Queues) (key : Key) (now : Int) : Queues × Bool :=
  match queue queues key with
  | [] => (queues, false)
  | [pushedAt] => (queues.filterKeys fun key' ↦ decide (key' ≠ key), isFresh now pushedAt)
  | pushedAt :: rest => (queues.set key rest, isFresh now pushedAt)

section queues

variable {queues : Queues} {key key' : Key} {now : Int}

theorem queue_prune :
    queue (prune queues now) key = queue queues key ∨
      queue (prune queues now) key = [] ∧
        ∀ pushedAt ∈ queue queues key, pushedWatchedTtl ≤ now - pushedAt := by
  unfold prune
  split
  · rw [queue, Dict.get_filterKeys]
    split
    · exact .inl rfl
    · next h =>
      refine .inr ⟨rfl, fun pushedAt hmem ↦ ?_⟩
      simp only [Bool.not_eq_true', Bool.not_eq_false, List.all_eq_true, decide_eq_true_eq] at h
      have hlt := h pushedAt hmem
      omega
  · exact .inl rfl

theorem queue_mark :
    queue (markPushedWatched queues key now) key' =
      if key = key' then queue (prune queues now) key ++ [now] else queue (prune queues now) key' := by
  rw [markPushedWatched, queue, Dict.get_upsert]
  split <;> rfl

theorem queue_consume :
    queue (consumeRecentlyPushedWatched queues key now).1 key' =
      if key = key' then (queue queues key).tail else queue queues key' := by
  unfold consumeRecentlyPushedWatched
  split
  · next hnil =>
    split
    · next hkey => rw [← hkey, hnil, List.tail_nil]
    · rfl
  · next pushedAt hone =>
    rw [queue, Dict.get_filterKeys, hone]
    by_cases hkey : key = key'
    · simp [hkey]
    · simp [hkey, Ne.symm hkey, queue]
  · next pushedAt rest _ hcons =>
    rw [queue, Dict.get_set, hcons]
    by_cases hkey : key = key'
    · simp [hkey]
    · simp [hkey, queue]

theorem consume_eq_true :
    (consumeRecentlyPushedWatched queues key now).2 = true ↔
      ∃ pushedAt ∈ (queue queues key).head?, isFresh now pushedAt = true := by
  unfold consumeRecentlyPushedWatched
  split <;> simp_all

end queues

inductive Call
  | mark (key : Key) (now : Int)
  | consume (key : Key) (now : Int)

def Call.now : Call → Int
  | mark _ now => now
  | consume _ now => now

/-- The marks of a key that no consume has answered yet, and how many there were of each. -/
structure Ledger where
  unused : List Int
  marks : ℕ
  accepted : ℕ

structure World where
  queues : Queues
  ledger : Key → Ledger

def World.empty : World := ⟨Dict.empty, fun _ ↦ ⟨[], 0, 0⟩⟩

/-- A consume that is answered uses the mark that it takes. -/
def step (s : World) : Call → World
  | .mark key now =>
    { queues := markPushedWatched s.queues key now
      ledger := Function.update s.ledger key
        ⟨(s.ledger key).unused ++ [now], (s.ledger key).marks + 1, (s.ledger key).accepted⟩ }
  | .consume key now =>
    { queues := (consumeRecentlyPushedWatched s.queues key now).1
      ledger :=
        if (consumeRecentlyPushedWatched s.queues key now).2 then
          Function.update s.ledger key
            ⟨(s.ledger key).unused.erase ((queue s.queues key).headD 0), (s.ledger key).marks,
              (s.ledger key).accepted + 1⟩
        else s.ledger }

/-- An echo is answered while a mark less than ten minutes old waits for one. -/
def Answered (s : World) : Call → Prop
  | .mark _ _ => True
  | .consume key now =>
    (∃ pushedAt ∈ (s.ledger key).unused, now - pushedAt < pushedWatchedTtl) →
      (consumeRecentlyPushedWatched s.queues key now).2 = true

/-- No expired mark is first in the queue of which the last is fresh. -/
def Unmixed (s : World) : Call → Prop
  | .mark _ _ => True
  | .consume key now =>
    ∀ first ∈ (queue s.queues key).head?, ∀ last ∈ (queue s.queues key).getLast?,
      now - last < pushedWatchedTtl → now - first < pushedWatchedTtl

/-- What a queue and the ledger of its key have in common at a time. -/
structure Accounted (now : Int) (queue : List Int) (ledger : Ledger) : Prop where
  sorted : queue.Pairwise (· ≤ ·)
  past : ∀ pushedAt ∈ queue, pushedAt ≤ now
  waiting : queue.Subperm ledger.unused
  expired : ∀ pushedAt, ledger.unused.count pushedAt ≤ queue.count pushedAt ∨
    pushedWatchedTtl ≤ now - pushedAt
  balance : ledger.unused.length + ledger.accepted = ledger.marks

def Invariant (now : Int) (s : World) : Prop := ∀ key, Accounted now (queue s.queues key) (s.ledger key)

section steps

variable {s : World} {key : Key} {now : Int} {ledger : Ledger} {marks : List Int}

theorem Accounted.later {later : Int} (h : Accounted now marks ledger) (hle : now ≤ later) :
    Accounted later marks ledger where
  sorted := h.sorted
  past pushedAt hmem := le_trans (h.past pushedAt hmem) hle
  waiting := h.waiting
  expired pushedAt := (h.expired pushedAt).imp_right fun hold ↦ by omega
  balance := h.balance

theorem Accounted.nil (h : Accounted now marks ledger)
    (hold : ∀ pushedAt ∈ marks, pushedWatchedTtl ≤ now - pushedAt) : Accounted now [] ledger where
  sorted := .nil
  past := by simp
  waiting := List.nil_subperm
  expired pushedAt := by
    by_cases hmem : pushedAt ∈ marks
    · exact .inr (hold pushedAt hmem)
    · refine (h.expired pushedAt).imp_left fun hcount ↦ ?_
      rw [List.count_eq_zero_of_not_mem hmem] at hcount
      exact Nat.le_trans hcount (Nat.zero_le _)
  balance := h.balance

theorem Accounted.mark (h : Accounted now marks ledger) :
    Accounted now (marks ++ [now]) ⟨ledger.unused ++ [now], ledger.marks + 1, ledger.accepted⟩ where
  sorted := by
    refine List.pairwise_append.mpr ⟨h.sorted, List.pairwise_singleton _ _, fun m hm n hn ↦ ?_⟩
    rw [List.mem_singleton.mp hn]
    exact h.past m hm
  past pushedAt hmem := by
    rcases List.mem_append.mp hmem with hmem | hmem
    · exact h.past pushedAt hmem
    · exact le_of_eq (List.mem_singleton.mp hmem)
  waiting := h.waiting.append (List.Subperm.refl [now])
  expired pushedAt := by
    refine (h.expired pushedAt).imp_left fun hcount ↦ ?_
    rw [List.count_append, List.count_append]
    omega
  balance := by
    have hbalance := h.balance
    simp only [List.length_append, List.length_singleton]
    omega

/-- A mark that is taken unanswered has expired. -/
theorem Accounted.drop {first : Int} {rest : List Int} (h : Accounted now (first :: rest) ledger)
    (hold : pushedWatchedTtl ≤ now - first) : Accounted now rest ledger where
  sorted := h.sorted.of_cons
  past pushedAt hmem := h.past pushedAt (List.mem_cons_of_mem first hmem)
  waiting := (List.sublist_cons_self first rest).subperm.trans h.waiting
  expired pushedAt := by
    by_cases hfirst : first = pushedAt
    · exact .inr (hfirst ▸ hold)
    · refine (h.expired pushedAt).imp_left fun hcount ↦ ?_
      rwa [List.count_cons_of_ne hfirst] at hcount
  balance := h.balance

theorem Accounted.use {first : Int} {rest : List Int} (h : Accounted now (first :: rest) ledger) :
    Accounted now rest ⟨ledger.unused.erase first, ledger.marks, ledger.accepted + 1⟩ where
  sorted := h.sorted.of_cons
  past pushedAt hmem := h.past pushedAt (List.mem_cons_of_mem first hmem)
  waiting := by simpa using h.waiting.erase first
  expired pushedAt := by
    refine (h.expired pushedAt).imp_left fun hcount ↦ ?_
    rw [List.count_cons] at hcount
    rw [List.count_erase]
    omega
  balance := by
    have hmem : first ∈ ledger.unused := h.waiting.subset List.mem_cons_self
    have hbalance := h.balance
    have hpos := List.length_pos_of_mem hmem
    simp only [List.length_erase_of_mem hmem]
    omega

theorem Accounted.mem_of_fresh {pushedAt : Int} (h : Accounted now marks ledger)
    (hmem : pushedAt ∈ ledger.unused) (hfresh : now - pushedAt < pushedWatchedTtl) :
    pushedAt ∈ marks := by
  have hcount := (h.expired pushedAt).resolve_right (by omega)
  have hpos := List.count_pos_iff.mpr hmem
  exact List.count_pos_iff.mp (by omega)

/-- Whether an echo is answered as it should be is seen at both ends of the queue. -/
theorem answered_iff_unmixed (h : Accounted now (queue s.queues key) (s.ledger key)) :
    Answered s (.consume key now) ↔ Unmixed s (.consume key now) := by
  rw [Answered, consume_eq_true]
  constructor
  · intro hanswered first hfirst last hlast hfresh
    have hmem : last ∈ queue s.queues key := List.mem_of_getLast? hlast
    obtain ⟨head, hhead, hheadFresh⟩ := hanswered ⟨last, h.waiting.subset hmem, hfresh⟩
    obtain rfl : head = first := Option.some.inj (hhead.symm.trans hfirst)
    exact of_decide_eq_true hheadFresh
  · rintro hunmixed ⟨pushedAt, hunused, hfresh⟩
    have hmem := h.mem_of_fresh hunused hfresh
    have hne := List.ne_nil_of_mem hmem
    have hlast : pushedAt ≤ (queue s.queues key).getLast hne := h.sorted.rel_getLast hmem
    refine ⟨(queue s.queues key).head hne, List.head?_eq_some_head hne, decide_eq_true ?_⟩
    exact hunmixed _ (List.head?_eq_some_head hne) _ (List.getLast?_eq_some_getLast hne) (by omega)

theorem invariant_prune (h : Invariant now s) (key : Key) :
    Accounted now (queue (prune s.queues now) key) (s.ledger key) := by
  have hprune : queue (prune s.queues now) key = queue s.queues key ∨
      queue (prune s.queues now) key = [] ∧
        ∀ pushedAt ∈ queue s.queues key, pushedWatchedTtl ≤ now - pushedAt := queue_prune
  rcases hprune with hsame | ⟨hnil, hold⟩
  · rw [hsame]
    exact h key
  · rw [hnil]
    exact (h key).nil hold

theorem invariant_mark (h : Invariant now s) (key : Key) :
    Invariant now (step s (.mark key now)) := by
  intro key'
  show Accounted now (queue (markPushedWatched s.queues key now) key') _
  rw [queue_mark]
  by_cases hkey : key = key'
  · subst hkey
    simpa [step] using (invariant_prune h key).mark
  · simpa [step, hkey, Ne.symm hkey] using invariant_prune h key'

theorem invariant_consume (h : Invariant now s) (key : Key) :
    Invariant now (step s (.consume key now)) := by
  intro key'
  show Accounted now (queue (consumeRecentlyPushedWatched s.queues key now).1 key')
    ((step s (.consume key now)).ledger key')
  rw [queue_consume]
  by_cases hkey : key = key'
  · subst hkey
    have hkeyed := h key
    cases hqueue : queue s.queues key with
    | nil =>
      rw [hqueue] at hkeyed
      simpa [step, consumeRecentlyPushedWatched, hqueue] using hkeyed
    | cons first rest =>
      rw [hqueue] at hkeyed
      by_cases hfresh : isFresh now first = true
      · have htrue : (consumeRecentlyPushedWatched s.queues key now).2 = true :=
          consume_eq_true.mpr ⟨first, by simp [hqueue], hfresh⟩
        simpa [step, htrue, hqueue] using hkeyed.use
      · have hfalse : (consumeRecentlyPushedWatched s.queues key now).2 = false := by
          rw [← Bool.not_eq_true, consume_eq_true, hqueue]
          simpa using hfresh
        have hold : pushedWatchedTtl ≤ now - first := by
          rw [isFresh, decide_eq_true_eq] at hfresh
          omega
        simpa [step, hfalse] using hkeyed.drop hold
  · have hledger : (step s (.consume key now)).ledger key' = s.ledger key' := by
      simp only [step]
      split
      · rw [Function.update_of_ne (Ne.symm hkey)]
      · rfl
    rw [if_neg hkey, hledger]
    exact h key'

theorem invariant_step {call : Call} (h : Invariant call.now s) :
    Invariant call.now (step s call) := by
  cases call with
  | mark key now => exact invariant_mark h key
  | consume key now => exact invariant_consume h key

end steps

/-- Calls at times that never go back. -/
structure Calls where
  calls : List Call
  chronological : calls.Pairwise fun call later ↦ call.now ≤ later.now

theorem throughout_iff {s : World} {calls : List Call}
    (hchronological : calls.Pairwise fun call later ↦ call.now ≤ later.now)
    (h : ∀ call ∈ calls, Invariant call.now s) :
    Throughout step Answered s calls ↔ Throughout step Unmixed s calls := by
  induction calls generalizing s with
  | nil => rfl
  | cons call calls ih =>
    obtain ⟨hlater, hchronological⟩ := List.pairwise_cons.mp hchronological
    have hcall := h call List.mem_cons_self
    have hrest : ∀ later ∈ calls, Invariant later.now (step s call) := fun later hmem key ↦
      (invariant_step hcall key).later (hlater later hmem)
    have hhere : Answered s call ↔ Unmixed s call := by
      cases call with
      | mark key now => rfl
      | consume key now => exact answered_iff_unmixed (hcall key)
    exact and_congr hhere (ih hchronological hrest)

theorem balance_foldl {s : World} {calls : List Call}
    (hchronological : calls.Pairwise fun call later ↦ call.now ≤ later.now)
    (h : ∀ call ∈ calls, Invariant call.now s)
    (hs : ∀ key, (s.ledger key).accepted ≤ (s.ledger key).marks) (key : Key) :
    ((calls.foldl step s).ledger key).accepted ≤ ((calls.foldl step s).ledger key).marks := by
  induction calls generalizing s with
  | nil => exact hs key
  | cons call calls ih =>
    obtain ⟨hlater, hchronological⟩ := List.pairwise_cons.mp hchronological
    have hstep := invariant_step (h call List.mem_cons_self)
    refine ih hchronological (fun later hmem key ↦ (hstep key).later (hlater later hmem)) ?_
    intro key
    have hbalance := (hstep key).balance
    omega

theorem invariant_empty (now : Int) : Invariant now .empty := by
  intro key
  exact ⟨.nil, by simp [World.empty, queue], List.nil_subperm, fun _ ↦ .inl (Nat.le_refl _), rfl⟩

/-- No more echoes are answered than writes were marked, and every echo of a write less than ten
minutes old is answered if and only if no expired mark is ever ahead of a fresh one. -/
theorem echoes_answered_iff (calls : Calls) :
    (Throughout step Answered .empty calls.calls ∧
        ∀ key, ((calls.calls.foldl step .empty).ledger key).accepted ≤
          ((calls.calls.foldl step .empty).ledger key).marks) ↔
      Throughout step Unmixed .empty calls.calls := by
  rw [throughout_iff calls.chronological fun call _ ↦ invariant_empty call.now]
  exact and_iff_left (balance_foldl calls.chronological (fun call _ ↦ invariant_empty call.now)
    fun _ ↦ Nat.le_refl _)

/-- An echo was lost ten minutes before a second write, whose own echo comes at once. -/
def lostEcho : Calls where
  calls := [.mark (1, 2) 0, .mark (1, 2) 600000000, .consume (1, 2) 600000001]
  chronological := by decide

theorem fresh_write_unanswered : ¬Throughout step Answered .empty lostEcho.calls := by
  rintro ⟨-, -, hanswered, -⟩
  have hfresh : (600000000 : Int) ∈ ((step (step .empty (.mark (1, 2) 0))
      (.mark (1, 2) 600000000)).ledger (1, 2)).unused := by decide
  exact absurd (hanswered ⟨_, hfresh, by decide⟩) (by decide)

end AnyList.Echoes.WatchEcho
