import AnyList.Imports.ImportDraft
import AnyList.Library.Runs
import Mathlib.Data.List.Nodup

namespace AnyList.Imports.ImportDraft

open AnyList.Library.Patches AnyList.Library.Runs

variable {V : Type*} {d : Draft V} {saveBatch : Bool} {pending pending' : List (ImportPatch V)}
  {inFlight : List ℕ} {itemId : String} {changes : String → Option V} {key : String × String} {v : V}

def latestOf (patches : List (ImportPatch V)) : Values V := latest (patches.map ImportPatch.fields)

/-- The choices still to be sent give every field the value staged last. -/
def Kept (d : Draft V) : Prop := ∀ key v, d.staged key = some v → d.projected key = some v

/-- With nothing left to send, the server has every field as it was staged last. -/
def Delivered (d : Draft V) : Prop :=
  d.pending = [] → ∀ key v, d.staged key = some v → d.server key = some v

section condition

variable (inFlight itemId changes)

/-- No choice after the one that takes in the new values gives one of their fields another. -/
def Lasting : List (ImportPatch V) → Prop
  | [] => True
  | patch :: rest =>
    if patch.uid ∉ inFlight ∧ patch.itemId = itemId then
      ∀ field v w, changes field = some v → latestOf rest (itemId, field) = some w → w = v
    else Lasting rest

end condition

/-- A choice is not merged behind a later one for the same field, and a server snapshot has the
staged values that are no longer to be sent. -/
def Meets (d : Draft V) : Event V → Prop
  | .stage itemId changes => Lasting d.inFlight itemId changes d.pending
  | .rebase fresh => ∀ key v, d.staged key = some v → latestOf d.pending key = none → fresh key = some v
  | _ => True

section values

theorem applyAll_eq (patches : List (ImportPatch V)) (values : Values V) :
    applyAll patches values = lay (latestOf patches) values := foldl_lay _ _

theorem projected_eq : d.projected key = (latestOf d.pending key).or (d.lastSnapshot key) := by
  rw [Draft.projected, applyAll_eq, lay]

theorem latestOf_append : latestOf (pending ++ pending') key =
    (latestOf pending' key).or (latestOf pending key) := by
  rw [latestOf, List.map_append]
  exact latest_append

theorem latestOf_cons {patch : ImportPatch V} : latestOf (patch :: pending) key =
    (latestOf pending key).or (patch.fields key) := rfl

theorem fields_assign {patch : ImportPatch V} (h : patch.itemId = itemId) (uid : ℕ) :
    (patch.assign changes).fields key =
      (ImportPatch.fields ⟨uid, itemId, changes⟩ key).or (patch.fields key) := by
  subst h
  by_cases hkey : key.1 = patch.itemId
  · simp [ImportPatch.fields, ImportPatch.assign, lay, hkey]
  · simp [ImportPatch.fields, ImportPatch.assign, hkey]

theorem fields_eq_some {uid : ℕ} : ImportPatch.fields ⟨uid, itemId, changes⟩ key = some v ↔
    key.1 = itemId ∧ changes key.2 = some v := by
  simp [ImportPatch.fields]

theorem latestOf_renumber (next : ℕ) (patches : List (ImportPatch V)) :
    latestOf (Draft.renumber next patches) = latestOf patches := by
  rw [latestOf, latestOf, Draft.renumber, List.map_map]
  congr 1
  have hfields : (ImportPatch.fields ∘ fun patch : ImportPatch V × ℕ ↦
      { patch.1 with uid := next + patch.2 }) = ImportPatch.fields ∘ Prod.fst := rfl
  rw [hfields, ← List.map_map, List.zipIdx_map_fst]

end values

section merge

/-- What merging does: a choice is put last, or the first one for its item that is not in flight
takes it in. -/
theorem mergeInto_cases (inFlight : List ℕ) (itemId : String) (changes : String → Option V)
    (pending : List (ImportPatch V)) :
    (mergeInto inFlight itemId changes pending = none ∧ Lasting inFlight itemId changes pending) ∨
      ∃ before patch after, pending = before ++ patch :: after ∧ patch.uid ∉ inFlight ∧
        patch.itemId = itemId ∧
        mergeInto inFlight itemId changes pending =
          some (before ++ patch.assign changes :: after) ∧
        (Lasting inFlight itemId changes pending ↔ ∀ field v w, changes field = some v →
          latestOf after (itemId, field) = some w → w = v) := by
  induction pending with
  | nil => exact .inl ⟨rfl, trivial⟩
  | cons patch rest ih =>
    by_cases hpatch : patch.uid ∉ inFlight ∧ patch.itemId = itemId
    · refine .inr ⟨[], patch, rest, rfl, hpatch.1, hpatch.2, ?_, ?_⟩
      · rw [mergeInto, if_pos hpatch, List.nil_append]
      · rw [Lasting, if_pos hpatch]
    · rw [mergeInto, if_neg hpatch, Lasting, if_neg hpatch]
      rcases ih with ⟨hnone, hlasting⟩ | ⟨before, target, after, rfl, huid, hitem, hmerge, hlasting⟩
      · exact .inl ⟨by rw [hnone, Option.map_none], hlasting⟩
      · refine .inr ⟨patch :: before, target, after, rfl, huid, hitem, ?_, hlasting⟩
        rw [hmerge, Option.map_some, List.cons_append]

theorem pending_stage (d : Draft V) (itemId : String) (changes : String → Option V) :
    (∃ patch : ImportPatch V, patch = ⟨d.next, itemId, changes⟩ ∧
      (d.stage itemId changes).pending = d.pending ++ [patch] ∧ Meets d (.stage itemId changes)) ∨
    ∃ before patch after, d.pending = before ++ patch :: after ∧ patch.uid ∉ d.inFlight ∧
      patch.itemId = itemId ∧
      (d.stage itemId changes).pending = before ++ patch.assign changes :: after ∧
      (Meets d (.stage itemId changes) ↔ ∀ field v w, changes field = some v →
        latestOf after (itemId, field) = some w → w = v) := by
  rcases mergeInto_cases d.inFlight itemId changes d.pending with
    ⟨hnone, hlasting⟩ | ⟨before, patch, after, hpending, huid, hitem, hmerge, hlasting⟩
  · exact .inl ⟨_, rfl, by rw [Draft.stage, hnone, Option.getD_none], hlasting⟩
  · refine .inr ⟨before, patch, after, hpending, huid, hitem, ?_, hlasting⟩
    rw [Draft.stage, hmerge, Option.getD_some]

theorem latestOf_stage_eq_none : latestOf (d.stage itemId changes).pending key = none ↔
    ImportPatch.fields ⟨d.next, itemId, changes⟩ key = none ∧ latestOf d.pending key = none := by
  rcases pending_stage d itemId changes with
    ⟨patch, rfl, hpending, -⟩ | ⟨before, patch, after, hbefore, -, hitem, hpending, -⟩
  · rw [hpending, latestOf_append, Option.or_eq_none_iff]
    rfl
  · rw [hpending, hbefore, latestOf_append, latestOf_append, latestOf_cons, latestOf_cons,
      fields_assign hitem d.next]
    simp only [Option.or_eq_none_iff]
    tauto

end merge

/-- What holds of a batch that is being saved: it heads the choices still to be sent, or these
were replaced; the server has its values once it received it. -/
structure InFlight (d : Draft V) (batch : List (ImportPatch V)) (received : Bool) : Prop where
  sent : d.inFlight = batch.map ImportPatch.uid
  place : (∃ rest, d.pending = batch ++ rest ∧ ∀ patch ∈ rest, patch.uid ∉ d.inFlight) ∨
    ∀ patch ∈ d.pending, patch.uid ∉ d.inFlight
  covered : ∀ key, latestOf batch key ≠ none → latestOf d.pending key ≠ none ∨ d.staged key = none
  written : received = true → ∀ key v, latestOf batch key = some v → d.server key = some v

structure Sound (d : Draft V) : Prop where
  kept : Kept d
  agree : ∀ key v, d.staged key = some v → latestOf d.pending key = none → d.server key = some v
  uids : ∀ patch ∈ d.pending, patch.uid < d.next
  flightUids : ∀ uid ∈ d.inFlight, uid < d.next
  nodup : (d.pending.map ImportPatch.uid).Nodup
  flight : ∀ batch received, d.flushing = .saving batch received → InFlight d batch received

theorem Sound.delivered (h : Sound d) : Delivered d := by
  intro hpending key v hv
  refine h.agree key v hv ?_
  rw [hpending]
  rfl

theorem sound_start (session : Values V) : Sound (Draft.start session) where
  kept key v h := by simp [Draft.start] at h
  agree key v h := by simp [Draft.start] at h
  uids patch h := by simp [Draft.start] at h
  flightUids uid h := by simp [Draft.start] at h
  nodup := List.nodup_nil
  flight batch received h := by simp [Draft.start] at h

section stage

theorem kept_iff : Kept d ↔ ∀ key v, d.staged key = some v →
    (latestOf d.pending key).or (d.lastSnapshot key) = some v := by
  simp only [Kept, projected_eq]

theorem staged_stage : (d.stage itemId changes).staged key =
    (ImportPatch.fields ⟨d.next, itemId, changes⟩ key).or (d.staged key) := rfl

/-- Staging keeps every choice exactly when the new values are not merged behind older ones. -/
theorem kept_stage_iff (h : Kept d) :
    Kept (d.stage itemId changes) ↔ Meets d (.stage itemId changes) := by
  rw [kept_iff] at h ⊢
  rcases pending_stage d itemId changes with
    ⟨patch, rfl, hpending, hmeets⟩ | ⟨before, patch, after, hbefore, -, hitem, hpending, hmeets⟩
  · refine iff_of_true (fun key v hv ↦ ?_) hmeets
    rw [staged_stage] at hv
    rw [hpending, latestOf_append]
    change (((ImportPatch.fields ⟨d.next, itemId, changes⟩ key).or _).or _) = _
    cases hnew : ImportPatch.fields ⟨d.next, itemId, changes⟩ key with
    | none =>
      rw [hnew, Option.none_or] at hv
      rw [Option.none_or]
      exact h key v hv
    | some w =>
      rw [hnew, Option.some_or] at hv
      rw [Option.some_or, Option.some_or]
      exact hv
  · rw [hmeets]
    have hlatest (key : String × String) : latestOf (d.stage itemId changes).pending key =
        (latestOf after key).or ((ImportPatch.fields ⟨d.next, itemId, changes⟩ key).or
          ((patch.fields key).or (latestOf before key))) := by
      rw [hpending, latestOf_append, latestOf_cons, fields_assign hitem d.next]
      simp only [Option.or_assoc]
    constructor
    · intro hkept field v w hv hw
      have hfields : ImportPatch.fields ⟨d.next, itemId, changes⟩ (itemId, field) = some v :=
        fields_eq_some.mpr ⟨rfl, hv⟩
      have hstaged := hkept (itemId, field) v (by rw [staged_stage, hfields, Option.some_or])
      rw [hlatest, hw, Option.some_or, Option.some_or] at hstaged
      exact Option.some.inj hstaged
    · intro hlast key v hv
      rw [hlatest]
      rw [staged_stage] at hv
      cases hnew : ImportPatch.fields ⟨d.next, itemId, changes⟩ key with
      | none =>
        rw [hnew, Option.none_or] at hv
        have hold := h key v hv
        rw [hbefore, latestOf_append, latestOf_cons] at hold
        rw [Option.none_or, ← Option.or_assoc]
        exact hold
      | some w =>
        rw [hnew, Option.some_or] at hv
        obtain rfl := Option.some.inj hv
        obtain ⟨rfl, hchanges⟩ := fields_eq_some.mp hnew
        cases hafter : latestOf after key with
        | none => rfl
        | some w' => rw [Option.some_or, Option.some_or, hlast key.2 w w' hchanges hafter]

theorem mem_stage {patch : ImportPatch V} (h : patch ∈ (d.stage itemId changes).pending) :
    patch.uid = d.next ∨ ∃ old ∈ d.pending, old.uid = patch.uid := by
  rcases pending_stage d itemId changes with
    ⟨new, rfl, hpending, -⟩ | ⟨before, target, after, hbefore, -, -, hpending, -⟩
  · rw [hpending, List.mem_append, List.mem_singleton] at h
    rcases h with h | rfl
    · exact .inr ⟨patch, h, rfl⟩
    · exact .inl rfl
  · rw [hpending, List.mem_append, List.mem_cons] at h
    rw [hbefore]
    rcases h with h | rfl | h
    · exact .inr ⟨patch, List.mem_append_left _ h, rfl⟩
    · exact .inr ⟨target, List.mem_append_right _ List.mem_cons_self, rfl⟩
    · exact .inr ⟨patch, List.mem_append_right _ (List.mem_cons_of_mem _ h), rfl⟩

theorem nodup_stage (h : Sound d) : ((d.stage itemId changes).pending.map ImportPatch.uid).Nodup := by
  rcases pending_stage d itemId changes with
    ⟨patch, rfl, hpending, -⟩ | ⟨before, patch, after, hbefore, -, -, hpending, -⟩
  · rw [hpending, List.map_append]
    refine List.nodup_append.mpr ⟨h.nodup, List.nodup_singleton _, fun uid huid uid' hnew ↦ ?_⟩
    obtain ⟨old, hold, rfl⟩ := List.mem_map.mp huid
    obtain rfl := List.mem_singleton.mp hnew
    exact Nat.ne_of_lt (h.uids old hold)
  · have huids : ((d.stage itemId changes).pending.map ImportPatch.uid) =
        d.pending.map ImportPatch.uid := by
      rw [hpending, hbefore, List.map_append, List.map_append, List.map_cons, List.map_cons]
      rfl
    rw [huids]
    exact h.nodup

/-- A batch under way stays at the head of the choices, which take in new ones behind it. -/
theorem place_stage {batch : List (ImportPatch V)} {received : Bool} (h : InFlight d batch received)
    (hnext : ∀ uid ∈ d.inFlight, uid < d.next) :
    (∃ rest, (d.stage itemId changes).pending = batch ++ rest ∧
        ∀ patch ∈ rest, patch.uid ∉ d.inFlight) ∨
      ∀ patch ∈ (d.stage itemId changes).pending, patch.uid ∉ d.inFlight := by
  have hfresh : d.next ∉ d.inFlight := fun hmem ↦ absurd (hnext _ hmem) (Nat.lt_irrefl _)
  rcases h.place with ⟨rest, hrest, hout⟩ | hout
  · left
    rcases pending_stage d itemId changes with
      ⟨patch, rfl, hpending, -⟩ | ⟨before, patch, after, hbefore, huid, -, hpending, -⟩
    · refine ⟨rest ++ [⟨d.next, itemId, changes⟩], ?_, fun p hp ↦ ?_⟩
      · rw [hpending, hrest, List.append_assoc]
      · rcases List.mem_append.mp hp with hp | hp
        · exact hout p hp
        · rw [List.mem_singleton.mp hp]
          exact hfresh
    · have hnot : patch ∉ batch := fun hmem ↦
        huid (h.sent ▸ List.mem_map_of_mem hmem)
      have hsplit : ∃ middle, before = batch ++ middle ∧ rest = middle ++ patch :: after := by
        rcases List.append_eq_append_iff.mp (hbefore.symm.trans hrest) with
          ⟨middle, hbatch, hafter⟩ | ⟨middle, hbatch, hafter⟩
        · cases middle with
          | nil => exact ⟨[], by simpa using hbatch.symm, by simpa using hafter.symm⟩
          | cons p middle =>
            rw [List.cons_append, List.cons.injEq] at hafter
            rw [hbatch, hafter.1] at hnot
            exact absurd (List.mem_append_right _ List.mem_cons_self) hnot
        · exact ⟨middle, hbatch, hafter⟩
      obtain ⟨middle, rfl, rfl⟩ := hsplit
      refine ⟨middle ++ patch.assign changes :: after, ?_, fun p hp ↦ ?_⟩
      · rw [hpending, List.append_assoc]
      · rcases List.mem_append.mp hp with hp | hp
        · exact hout p (List.mem_append_left _ hp)
        · rcases List.mem_cons.mp hp with rfl | hp
          · exact huid
          · exact hout p (List.mem_append_right _ (List.mem_cons_of_mem _ hp))
  · right
    intro patch hpatch
    rcases mem_stage hpatch with huid | ⟨old, hold, huid⟩
    · rw [huid]
      exact hfresh
    · rw [← huid]
      exact hout old hold

theorem sound_stage (h : Sound d) (hmeets : Meets d (.stage itemId changes)) :
    Sound (d.stage itemId changes) where
  kept := (kept_stage_iff h.kept).mpr hmeets
  agree key v hv hnone := by
    obtain ⟨hnew, hold⟩ := latestOf_stage_eq_none.mp hnone
    rw [staged_stage, hnew, Option.none_or] at hv
    exact h.agree key v hv hold
  uids patch hpatch := by
    rcases mem_stage hpatch with huid | ⟨old, hold, huid⟩
    · exact huid ▸ Nat.lt_succ_self _
    · exact huid ▸ Nat.lt_succ_of_lt (h.uids old hold)
  flightUids uid huid := Nat.lt_succ_of_lt (h.flightUids uid huid)
  nodup := nodup_stage h
  flight batch received hflushing := by
    have hflight := h.flight batch received hflushing
    refine ⟨hflight.sent, place_stage hflight h.flightUids, fun key hkey ↦ ?_, hflight.written⟩
    rw [Ne, latestOf_stage_eq_none, not_and_or, staged_stage, Option.or_eq_none_iff]
    rcases hflight.covered key hkey with hpending | hstaged
    · exact .inl (.inr hpending)
    · by_cases hnew : ImportPatch.fields ⟨d.next, itemId, changes⟩ key = none
      · exact .inr ⟨hnew, hstaged⟩
      · exact .inl (.inl hnew)

end stage

section saves

theorem sendNext_cases (d : Draft V) (saveBatch : Bool) :
    d.sendNext saveBatch = { d with flushing := .settling false } ∨
      ∃ batch after, d.pending = batch ++ after ∧ d.sendNext saveBatch =
        { d with inFlight := batch.map ImportPatch.uid, flushing := .saving batch false } := by
  rw [Draft.sendNext]
  split
  · exact .inl rfl
  · next patch rest hpending =>
    right
    cases saveBatch with
    | true => exact ⟨patch :: rest, [], by rw [hpending, List.append_nil], rfl⟩
    | false => exact ⟨[patch], rest, by rw [hpending, List.singleton_append], rfl⟩

/-- What lets a flush go on: the values no longer to be sent are on the server. -/
theorem sound_sendNext (hkept : Kept d)
    (hagree : ∀ key v, d.staged key = some v → latestOf d.pending key = none → d.server key = some v)
    (huids : ∀ patch ∈ d.pending, patch.uid < d.next)
    (hflightUids : ∀ uid ∈ d.inFlight, uid < d.next)
    (hnodup : (d.pending.map ImportPatch.uid).Nodup) : Sound (d.sendNext saveBatch) := by
  rcases sendNext_cases d saveBatch with heq | ⟨batch, after, hafter, heq⟩
  · rw [heq]
    exact ⟨hkept, hagree, huids, hflightUids, hnodup, fun batch received h ↦ by simp at h⟩
  · rw [heq]
    refine ⟨hkept, hagree, huids, fun uid huid ↦ ?_, hnodup, fun batch received h ↦ ?_⟩
    · obtain ⟨p, hp, rfl⟩ := List.mem_map.mp huid
      exact huids p (hafter ▸ List.mem_append_left _ hp)
    · obtain ⟨rfl, rfl⟩ := Flushing.saving.inj h
      refine ⟨rfl, .inl ⟨after, hafter, fun p hp hmem ↦ ?_⟩, fun key hkey ↦ .inl ?_, by simp⟩
      · rw [hafter, List.map_append, List.nodup_append] at hnodup
        exact hnodup.2.2 p.uid hmem p.uid (List.mem_map_of_mem hp) rfl
      · change latestOf d.pending key ≠ none
        rw [hafter, latestOf_append]
        exact fun hnone ↦ hkey (Option.or_eq_none_iff.mp hnone).2

/-- Once the server received a batch, it has what the choices beyond the batch do not give. -/
theorem answered {batch : List (ImportPatch V)} (h : Sound d) (hflight : InFlight d batch true)
    (hv : d.staged key = some v)
    (hpending : pending = d.pending.filter fun patch ↦ patch.uid ∉ d.inFlight) :
    (latestOf pending key).or (d.server key) = some v := by
  have hkept := kept_iff.mp h.kept key v hv
  have hagree := h.agree key v hv
  rcases hflight.place with ⟨rest, hrest, hout⟩ | hout
  · have hfilter : pending = rest := by
      rw [hpending, hrest, List.filter_append]
      have hbatch : batch.filter (fun patch ↦ decide (patch.uid ∉ d.inFlight)) = [] := by
        refine List.filter_eq_nil_iff.mpr fun p hp hcond ↦ ?_
        exact of_decide_eq_true hcond (hflight.sent ▸ List.mem_map_of_mem hp)
      rw [hbatch, List.nil_append]
      exact List.filter_eq_self.mpr fun p hp ↦ decide_eq_true (hout p hp)
    rw [hfilter]
    rw [hrest, latestOf_append] at hkept hagree
    cases hlatest : latestOf rest key with
    | some w =>
      rw [hlatest, Option.some_or, Option.some_or] at hkept
      rw [Option.some_or]
      exact hkept
    | none =>
      rw [hlatest, Option.none_or] at hkept hagree
      rw [Option.none_or]
      cases hbatch : latestOf batch key with
      | some w =>
        rw [hbatch, Option.some_or] at hkept
        obtain rfl := Option.some.inj hkept
        exact hflight.written rfl key w hbatch
      | none => exact hagree hbatch
  · have hfilter : pending = d.pending := by
      rw [hpending]
      exact List.filter_eq_self.mpr fun p hp ↦ decide_eq_true (hout p hp)
    rw [hfilter]
    cases hlatest : latestOf d.pending key with
    | some w =>
      rw [hlatest, Option.some_or] at hkept
      rw [Option.some_or]
      exact hkept
    | none =>
      rw [Option.none_or]
      exact hagree hlatest

theorem sound_answer (h : Sound d) : Sound (d.answer saveBatch) := by
  rw [Draft.answer]
  cases hflushing : d.flushing with
  | idle => exact h
  | settling failed => exact h
  | saving batch received =>
    cases received with
    | false => exact h
    | true =>
      have hflight := h.flight batch true hflushing
      have hanswered (key v) (hv : d.staged key = some v) := answered h hflight hv rfl
      refine sound_sendNext (kept_iff.mpr hanswered) (fun key v hv hnone ↦ ?_) (fun p hp ↦ ?_)
        h.flightUids ?_
      · have hserver := hanswered key v hv
        dsimp only [Draft.rebase] at hnone
        rw [hnone, Option.none_or] at hserver
        exact hserver
      · exact h.uids p (List.mem_of_mem_filter hp)
      · exact h.nodup.sublist (List.filter_sublist.map _)

theorem sound_receive (h : Sound d) : Sound d.receive := by
  rw [Draft.receive]
  cases hflushing : d.flushing with
  | idle => exact h
  | settling failed => exact h
  | saving batch received =>
    cases received with
    | true => exact h
    | false =>
      have hflight := h.flight batch false hflushing
      dsimp only
      refine ⟨h.kept, fun key v hv hnone ↦ ?_, h.uids, h.flightUids, h.nodup, fun batch' received h' ↦ ?_⟩
      · dsimp only at hv hnone ⊢
        rw [applyAll_eq, lay_of_none]
        · exact h.agree key v hv hnone
        · by_contra hkey
          rcases hflight.covered key hkey with hpending | hstaged
          · exact hpending hnone
          · rw [hstaged] at hv
            exact absurd hv (by simp)
      · obtain ⟨rfl, rfl⟩ := Flushing.saving.inj h'
        refine ⟨hflight.sent, hflight.place, hflight.covered, fun _ key v hkey ↦ ?_⟩
        dsimp only
        rw [applyAll_eq, lay_of_some hkey]

theorem sound_fail (h : Sound d) : Sound d.fail := by
  rw [Draft.fail]
  cases hflushing : d.flushing with
  | idle => exact h
  | settling failed => exact h
  | saving batch received =>
    exact ⟨h.kept, h.agree, h.uids, h.flightUids, h.nodup, fun _ _ h' ↦ by simp at h'⟩

theorem sound_settle (h : Sound d) : Sound d.settle := by
  rw [Draft.settle]
  cases hflushing : d.flushing with
  | idle => exact h
  | saving batch received => exact h
  | settling failed =>
    exact ⟨h.kept, h.agree, h.uids, by simp, h.nodup, fun _ _ h' ↦ by simp at h'⟩

theorem sound_flush (h : Sound d) : Sound (d.flush saveBatch) := by
  rw [Draft.flush]
  cases hflushing : d.flushing with
  | idle => exact sound_sendNext h.kept h.agree h.uids h.flightUids h.nodup
  | saving batch received => exact h
  | settling failed => exact h

end saves

section replace

theorem kept_rebase_iff (h : Kept d) {fresh : Values V} :
    Kept (d.rebase fresh) ↔ Meets d (.rebase fresh) := by
  rw [kept_iff] at h ⊢
  refine forall_congr' fun key ↦ forall_congr' fun v ↦ forall_congr' fun hv ↦ ?_
  have hkept := h key v hv
  dsimp only [Draft.rebase]
  cases hlatest : latestOf d.pending key with
  | some w =>
    rw [hlatest, Option.some_or] at hkept
    rw [Option.some_or]
    exact iff_of_true hkept fun hnone ↦ absurd hnone (by simp)
  | none =>
    rw [Option.none_or]
    exact ⟨fun hfresh _ ↦ hfresh, fun hfresh ↦ hfresh rfl⟩

theorem sound_rebase (h : Sound d) {fresh : Values V} (hmeets : Meets d (.rebase fresh)) :
    Sound (d.rebase fresh) :=
  ⟨(kept_rebase_iff h.kept).mpr hmeets, h.agree, h.uids, h.flightUids, h.nodup,
    fun batch received hflushing ↦
      have hflight := h.flight batch received hflushing
      ⟨hflight.sent, hflight.place, hflight.covered, hflight.written⟩⟩

variable {patches : List (ImportPatch V)}

theorem mem_renumber {next : ℕ} {patch : ImportPatch V} (h : patch ∈ Draft.renumber next patches) :
    next ≤ patch.uid ∧ patch.uid < next + patches.length := by
  obtain ⟨⟨p, i⟩, hp, rfl⟩ := List.mem_map.mp h
  have hlt := List.snd_lt_of_mem_zipIdx hp
  dsimp only at hlt ⊢
  omega

theorem nodup_renumber (next : ℕ) (patches : List (ImportPatch V)) :
    ((Draft.renumber next patches).map ImportPatch.uid).Nodup := by
  have huids : (Draft.renumber next patches).map ImportPatch.uid =
      (List.range patches.length).map (next + ·) := by
    rw [Draft.renumber, List.map_map, List.range_eq_range', ← List.zipIdx_map_snd, List.map_map]
    rfl
  rw [huids]
  exact List.nodup_range.map fun i j h ↦ Nat.add_left_cancel h

theorem staged_restore : (d.restore patches).staged key =
    (latestOf patches key).or (if latestOf d.pending key = none then d.staged key else none) := rfl

theorem sound_restore (h : Sound d) : Sound (d.restore patches) := by
  have hlatest (key : String × String) :
      latestOf (d.restore patches).pending key = latestOf patches key := by
    rw [Draft.restore, latestOf_renumber]
  have hold {key : String × String} {v : V} (hnone : latestOf patches key = none)
      (hv : (d.restore patches).staged key = some v) :
      d.staged key = some v ∧ latestOf d.pending key = none := by
    rw [staged_restore, hnone, Option.none_or] at hv
    split_ifs at hv with hpending
    exact ⟨hv, hpending⟩
  refine ⟨kept_iff.mpr fun key v hv ↦ ?_, fun key v hv hnone ↦ ?_, fun patch hpatch ↦ ?_,
    fun uid huid ↦ ?_, nodup_renumber _ _, fun batch received hflushing ↦ ?_⟩
  · rw [hlatest]
    cases hpatches : latestOf patches key with
    | some w =>
      rw [staged_restore, hpatches, Option.some_or] at hv
      rw [Option.some_or]
      exact hv
    | none =>
      obtain ⟨hstaged, hpending⟩ := hold hpatches hv
      have hkept := kept_iff.mp h.kept key v hstaged
      rw [hpending, Option.none_or] at hkept
      rw [Option.none_or]
      exact hkept
  · rw [hlatest] at hnone
    obtain ⟨hstaged, hpending⟩ := hold hnone hv
    exact h.agree key v hstaged hpending
  · exact (mem_renumber hpatch).2
  · exact Nat.lt_of_lt_of_le (h.flightUids uid huid) (Nat.le_add_right _ _)
  · have hflight := h.flight batch received hflushing
    refine ⟨hflight.sent, .inr fun patch hpatch hmem ↦ ?_, fun key hkey ↦ ?_, hflight.written⟩
    · have hle := (mem_renumber hpatch).1
      have hlt := h.flightUids _ hmem
      omega
    · rw [hlatest, staged_restore]
      cases hpatches : latestOf patches key with
      | some w => exact .inl (by simp)
      | none =>
        right
        rw [Option.none_or]
        rcases hflight.covered key hkey with hpending | hstaged
        · rw [if_neg hpending]
        · rw [hstaged, ite_self]

end replace

theorem sound_step (h : Sound d) {event : Event V} (hmeets : Meets d event) :
    Sound (step saveBatch d event) := by
  cases event with
  | stage itemId changes => exact sound_stage h hmeets
  | rebase fresh => exact sound_rebase h hmeets
  | snapshot => exact h
  | restore patches => exact sound_restore h
  | flush => exact sound_flush h
  | receive => exact sound_receive h
  | answer => exact sound_answer h
  | fail => exact sound_fail h
  | settle => exact sound_settle h

theorem meets_of_kept (h : Sound d) {event : Event V} (hkept : Kept (step saveBatch d event)) :
    Meets d event := by
  cases event with
  | stage itemId changes => exact (kept_stage_iff h.kept).mp hkept
  | rebase fresh => exact (kept_rebase_iff h.kept).mp hkept
  | _ => trivial

/-- Over a run no staged choice is lost or reverted exactly when none is merged behind a later one
for the same field and no rebase is given a snapshot without what the server already had. -/
theorem choices_kept_iff (saveBatch : Bool) (session : Values V) (events : List (Event V)) :
    (∀ n, Kept ((events.take n).foldl (step saveBatch) (.start session)) ∧
        Delivered ((events.take n).foldl (step saveBatch) (.start session))) ↔
      Throughout (step saveBatch) Meets (.start session) events :=
  forall_take_iff_throughout (C := fun d ↦ Kept d ∧ Delivered d) (sound_start session)
    (fun _ h ↦ ⟨h.kept, h.delivered⟩) (fun _ _ h hmeets ↦ sound_step h hmeets)
    fun _ _ h hkept ↦ meets_of_kept h hkept.1

def setField (field : String) (value : ℕ) : String → Option ℕ :=
  fun name ↦ if name = field then some value else none

/-- A choice is staged, changed while its save is under way, and changed again after the save
failed. -/
def changedAfterFailure : List (Event ℕ) :=
  [.stage "a" (setField "episode" 1), .flush, .stage "a" (setField "episode" 2), .fail, .settle,
    .stage "a" (setField "episode" 3)]

/-- The older of the two choices is the one that would be sent last. -/
theorem changedAfterFailure_reverted :
    ((changedAfterFailure.foldl (step true) (.start fun _ ↦ none)).staged ("a", "episode") = some 3 ∧
      (changedAfterFailure.foldl (step true) (.start fun _ ↦ none)).projected ("a", "episode") =
        some 2) ∧
    ¬∀ n, Kept ((changedAfterFailure.take n).foldl (step true) (.start fun _ ↦ none)) ∧
      Delivered ((changedAfterFailure.take n).foldl (step true) (.start fun _ ↦ none)) := by
  have hstaged : (changedAfterFailure.foldl (step true) (.start fun _ ↦ none)).staged
      ("a", "episode") = some 3 := by decide
  have hprojected : (changedAfterFailure.foldl (step true) (.start fun _ ↦ none)).projected
      ("a", "episode") = some 2 := by decide
  refine ⟨⟨hstaged, hprojected⟩, fun h ↦ ?_⟩
  have hkept := (h 6).1 ("a", "episode") 3 hstaged
  exact absurd (hprojected.symm.trans hkept) (by decide)

end AnyList.Imports.ImportDraft
