import AnyList.Library.Chains
import AnyList.Library.Dict
import Mathlib.Data.List.Sort
import Mathlib.Data.Rat.Defs

namespace AnyList.Migrations.DuplicatePlays

open AnyList.Library AnyList.Library.Chains

/-- A completed watch event; times are in microseconds. -/
structure WatchEventRow where
  id : ℕ
  userId : ℕ
  mediaId : ℕ
  watchedAt : ℤ
  progressPercent : Option ℚ
  progressSeconds : Option ℤ
  deriving DecidableEq

def reconcileWindow : ℤ := 10 * 60 * 1000000

namespace WatchEventRow

variable (row : WatchEventRow)

def isWebhookSignature : Bool :=
  decide (row.progressPercent = some 1) && row.progressSeconds.isSome

def isBackfillSignature : Bool := row.progressPercent.isNone && row.progressSeconds.isNone

def group : ℕ × ℕ := (row.userId, row.mediaId)

end WatchEventRow

def resolveCluster : List WatchEventRow → List ℕ
  | [a, b] =>
    if a.isWebhookSignature && b.isBackfillSignature then [b.id]
    else if b.isWebhookSignature && a.isBackfillSignature then [a.id]
    else []
  | _ => []

/-- The ids to delete and the open cluster after one more row. -/
def nextRow (state : List ℕ × List WatchEventRow) (row : WatchEventRow) :
    List ℕ × List WatchEventRow :=
  if state.2.getLast?.any fun last ↦ decide (reconcileWindow < row.watchedAt - last.watchedAt) then
    (state.1 ++ resolveCluster state.2, [row])
  else (state.1, state.2 ++ [row])

def findInGroup (rows : List WatchEventRow) : List ℕ :=
  let ordered := rows.insertionSort fun r r' ↦ r.watchedAt ≤ r'.watchedAt
  let (toDelete, cluster) := ordered.foldl nextRow ([], [])
  toDelete ++ resolveCluster cluster

def findDuplicateWatchEventIds (rows : List WatchEventRow) : List ℕ :=
  (Dict.groupBy WatchEventRow.group rows).values.flatMap findInGroup

/-- Two rows of one user and one title, at most the window apart. -/
def Nearby (r r' : WatchEventRow) : Prop :=
  r.group = r'.group ∧ Near WatchEventRow.watchedAt reconcileWindow r r'

/-- A backfilled row that gaps of at most the window link to a webhook's row and to no other. -/
structure IsEcho (rows : List WatchEventRow) (row webhook : WatchEventRow) : Prop where
  backfilled : row.isBackfillSignature
  received : webhook.isWebhookSignature
  alone : ∀ other, Linked Nearby rows row other ↔ other = row ∨ other = webhook

variable {rows rows' : List WatchEventRow} {row webhook other : WatchEventRow} {id : ℕ}

theorem not_backfill_of_webhook (h : row.isWebhookSignature) : ¬row.isBackfillSignature := by
  rw [WatchEventRow.isWebhookSignature, Bool.and_eq_true, decide_eq_true_iff] at h
  rw [WatchEventRow.isBackfillSignature, h.1]
  simp

theorem mem_resolveCluster {cluster : List WatchEventRow} :
    id ∈ resolveCluster cluster ↔ ∃ row webhook, row.isBackfillSignature ∧
      webhook.isWebhookSignature ∧ row.id = id ∧
        (cluster = [row, webhook] ∨ cluster = [webhook, row]) := by
  constructor
  · intro h
    match cluster, h with
    | [a, b], h =>
      rw [resolveCluster] at h
      split_ifs at h with hab hba
      · rw [Bool.and_eq_true] at hab
        exact ⟨b, a, hab.2, hab.1, (List.mem_singleton.mp h).symm, .inr rfl⟩
      · rw [Bool.and_eq_true] at hba
        exact ⟨a, b, hba.2, hba.1, (List.mem_singleton.mp h).symm, .inl rfl⟩
      · exact absurd h List.not_mem_nil
  · rintro ⟨row, webhook, hrow, hwebhook, rfl, rfl | rfl⟩
    · have hnot := not_backfill_of_webhook hwebhook
      simp [resolveCluster, hrow, hwebhook, hnot]
    · simp [resolveCluster, hrow, hwebhook]

section clusters

abbrev clusters (rows : List WatchEventRow) : List (List WatchEventRow) :=
  chains WatchEventRow.watchedAt reconcileWindow rows

abbrev Ordered (rows : List WatchEventRow) : Prop := rows.Pairwise fun r r' ↦ r.watchedAt ≤ r'.watchedAt

theorem clusters_of_chain {cluster : List WatchEventRow}
    (h : cluster.IsChain fun r r' ↦ r'.watchedAt - r.watchedAt ≤ reconcileWindow) :
    (clusters cluster).flatMap resolveCluster = resolveCluster cluster := by
  obtain rfl | hne := eq_or_ne cluster []
  · rfl
  · have hone : clusters cluster = [cluster] :=
      List.splitBy_of_isChain hne (h.imp fun _ _ hle ↦ decide_eq_true hle)
    rw [hone, List.flatMap_cons, List.flatMap_nil, List.append_nil]

theorem clusters_append_cons {cluster : List WatchEventRow} {last : WatchEventRow}
    (hlast : cluster.getLast? = some last)
    (hgap : reconcileWindow < row.watchedAt - last.watchedAt) :
    clusters (cluster ++ row :: rows) = clusters cluster ++ clusters (row :: rows) := by
  refine List.splitBy_append_cons rows fun x hx ↦ ?_
  obtain rfl : last = x := Option.some.inj (hlast.symm.trans hx)
  exact decide_eq_false (Int.not_le.mpr hgap)

/-- The loop over the ordered rows resolves their clusters. -/
theorem foldl_nextRow {cluster : List WatchEventRow}
    (h : cluster.IsChain fun r r' ↦ r'.watchedAt - r.watchedAt ≤ reconcileWindow)
    (rows : List WatchEventRow) (toDelete : List ℕ) :
    (rows.foldl nextRow (toDelete, cluster)).1 ++
        resolveCluster (rows.foldl nextRow (toDelete, cluster)).2 =
      toDelete ++ (clusters (cluster ++ rows)).flatMap resolveCluster := by
  induction rows generalizing cluster toDelete with
  | nil => rw [List.append_nil, clusters_of_chain h, List.foldl_nil]
  | cons row rest ih =>
    rw [List.foldl_cons, nextRow]
    split_ifs with hcut
    · obtain ⟨last, hlast, hgap⟩ := (Option.any_eq_true ..).mp hcut
      rw [ih (List.isChain_singleton row), clusters_append_cons hlast (of_decide_eq_true hgap),
        List.flatMap_append, clusters_of_chain h, List.append_assoc, List.singleton_append]
    · have hchain : (cluster ++ [row]).IsChain fun r r' ↦
          r'.watchedAt - r.watchedAt ≤ reconcileWindow := by
        refine h.append (List.isChain_singleton row) fun last hlast next hnext ↦ ?_
        obtain rfl : row = next := Option.some.inj hnext
        refine Int.not_lt.mp fun hgap ↦ hcut ((Option.any_eq_true ..).mpr ?_)
        exact ⟨last, hlast, decide_eq_true hgap⟩
      rw [ih hchain, List.append_assoc, List.singleton_append]

theorem mem_findInGroup : id ∈ findInGroup rows ↔
    ∃ cluster ∈ clusters (rows.insertionSort fun r r' ↦ r.watchedAt ≤ r'.watchedAt),
      id ∈ resolveCluster cluster := by
  have h := foldl_nextRow List.isChain_nil
    (rows.insertionSort fun r r' ↦ r.watchedAt ≤ r'.watchedAt) []
  rw [findInGroup]
  exact (Eq.to_iff (congrArg (id ∈ ·) h)).trans List.mem_flatMap

/-- Two items without repetition are listed one way or the other. -/
theorem eq_pair_of_mem_iff {cluster : List WatchEventRow} (h : cluster.Nodup) (hne : row ≠ webhook)
    (hmem : ∀ other, other ∈ cluster ↔ other = row ∨ other = webhook) :
    cluster = [row, webhook] ∨ cluster = [webhook, row] := by
  have hperm : cluster.Perm [row, webhook] :=
    (List.perm_ext_iff_of_nodup h (by simpa using hne)).mpr (by simpa using hmem)
  obtain ⟨a, b, rfl⟩ := List.length_eq_two.mp hperm.length_eq
  have hab : a ≠ b := by simpa using h
  obtain rfl | rfl := (hmem a).mp List.mem_cons_self
  · obtain rfl | rfl := (hmem b).mp (List.mem_cons_of_mem _ List.mem_cons_self)
    · exact absurd rfl hab
    · exact .inl rfl
  · obtain rfl | rfl := (hmem b).mp (List.mem_cons_of_mem _ List.mem_cons_self)
    · exact .inr rfl
    · exact absurd rfl hab

theorem linked_congr {near : WatchEventRow → WatchEventRow → Prop}
    (h : ∀ r, r ∈ rows ↔ r ∈ rows') : Linked near rows row other ↔ Linked near rows' row other :=
  ⟨fun hl ↦ hl.mono (fun r ↦ (h r).mp) fun _ _ ↦ id, fun hl ↦ hl.mono (fun r ↦ (h r).mpr) fun _ _ ↦ id⟩

/-- In a group, what the loop returns are the backfilled rows that are linked to one webhook's. -/
theorem mem_findInGroup_iff (hrows : rows.Nodup) : id ∈ findInGroup rows ↔
    ∃ row ∈ rows, ∃ webhook, row.id = id ∧ row.isBackfillSignature ∧
      webhook.isWebhookSignature ∧ ∀ other,
        Linked (Near WatchEventRow.watchedAt reconcileWindow) rows row other ↔
          other = row ∨ other = webhook := by
  rw [mem_findInGroup]
  set ordered := rows.insertionSort fun r r' ↦ r.watchedAt ≤ r'.watchedAt with hordered
  have hperm : ordered.Perm rows := List.perm_insertionSort _ _
  have hsorted : ordered.Pairwise fun r r' ↦ r.watchedAt ≤ r'.watchedAt :=
    List.pairwise_insertionSort _ _
  have hlinked (row other : WatchEventRow) :
      Linked (Near WatchEventRow.watchedAt reconcileWindow) ordered row other ↔
        Linked (Near WatchEventRow.watchedAt reconcileWindow) rows row other :=
    linked_congr fun _ ↦ hperm.mem_iff
  constructor
  · rintro ⟨cluster, hcluster, hid⟩
    obtain ⟨row, webhook, hrow, hwebhook, rfl, hpair⟩ := mem_resolveCluster.mp hid
    have hmem (other : WatchEventRow) : other ∈ cluster ↔ other = row ∨ other = webhook := by
      obtain rfl | rfl := hpair <;> simp [or_comm]
    have hin : row ∈ cluster := (hmem row).mpr (.inl rfl)
    refine ⟨row, hperm.mem_iff.mp (mem_iff_exists_chain.mpr ⟨cluster, hcluster, hin⟩), webhook, rfl,
      hrow, hwebhook, fun other ↦ ?_⟩
    rw [← hlinked, linked_iff_mem hsorted hcluster hin, hmem]
  · rintro ⟨row, hmem, webhook, rfl, hrow, hwebhook, halone⟩
    obtain ⟨cluster, hcluster, hin⟩ := mem_iff_exists_chain.mp (hperm.mem_iff.mpr hmem)
    obtain ⟨before, after, heq, -, -⟩ := exists_of_mem_chains hsorted hcluster
    have hnodup : cluster.Nodup := by
      have hall : (before ++ cluster ++ after).Nodup := heq ▸ hperm.nodup_iff.mpr hrows
      exact hall.of_append_left.of_append_right
    have hne : row ≠ webhook := by
      rintro rfl
      exact not_backfill_of_webhook hwebhook hrow
    refine ⟨cluster, hcluster, mem_resolveCluster.mpr ⟨row, webhook, hrow, hwebhook, rfl,
      eq_pair_of_mem_iff hnodup hne fun other ↦ ?_⟩⟩
    rw [← linked_iff_mem hsorted hcluster hin, hlinked, halone]

end clusters

section echoes

theorem linked_in_group : Linked Nearby rows row other ↔
    Linked (Near WatchEventRow.watchedAt reconcileWindow)
      (rows.filter fun r ↦ r.group = row.group) row other := by
  constructor
  · intro h
    have hgroup : other.group = row.group ∧ Linked (Near WatchEventRow.watchedAt reconcileWindow)
        (rows.filter fun r ↦ r.group = row.group) row other := by
      induction h with
      | refl => exact ⟨rfl, .refl row⟩
      | tail _ hstep ih =>
        obtain ⟨hleft, hright, hsame, hnear⟩ := hstep
        have hnext := hsame.symm.trans ih.1
        exact ⟨hnext, ih.2.tail ⟨List.mem_filter.mpr ⟨hleft, decide_eq_true ih.1⟩,
          List.mem_filter.mpr ⟨hright, decide_eq_true hnext⟩, hnear⟩⟩
    exact hgroup.2
  · intro h
    induction h with
    | refl => exact .refl row
    | tail _ hstep ih =>
      obtain ⟨hleft, hright, hnear⟩ := hstep
      obtain ⟨hleft, hgroup⟩ := List.mem_filter.mp hleft
      obtain ⟨hright, hgroup'⟩ := List.mem_filter.mp hright
      exact ih.tail ⟨hleft, hright,
        (of_decide_eq_true hgroup).trans (of_decide_eq_true hgroup').symm, hnear⟩

theorem mem_findDuplicateWatchEventIds (hrows : rows.Nodup) :
    id ∈ findDuplicateWatchEventIds rows ↔
      ∃ row ∈ rows, ∃ webhook, row.id = id ∧ IsEcho rows row webhook := by
  rw [findDuplicateWatchEventIds, List.mem_flatMap]
  constructor
  · rintro ⟨group, hgroup, hid⟩
    obtain ⟨key, hkey⟩ := Dict.mem_values.mp hgroup
    rw [Dict.get_groupBy] at hkey
    split_ifs at hkey
    obtain rfl := Option.some.inj hkey
    obtain ⟨row, hrow, webhook, rfl, hbackfilled, hreceived, halone⟩ :=
      (mem_findInGroup_iff (hrows.filter _)).mp hid
    obtain ⟨hmem, hrowkey⟩ := List.mem_filter.mp hrow
    obtain rfl := of_decide_eq_true hrowkey
    exact ⟨row, hmem, webhook, rfl, hbackfilled, hreceived, fun other ↦
      linked_in_group.trans (halone other)⟩
  · rintro ⟨row, hmem, webhook, rfl, hecho⟩
    refine ⟨rows.filter fun r ↦ r.group = row.group, Dict.mem_values.mpr ⟨row.group, ?_⟩,
      (mem_findInGroup_iff (hrows.filter _)).mpr ⟨row, ?_, webhook, rfl, hecho.backfilled,
        hecho.received, fun other ↦ linked_in_group.symm.trans (hecho.alone other)⟩⟩
    · rw [Dict.get_groupBy, if_pos ⟨row, hmem, rfl⟩]
    · exact List.mem_filter.mpr ⟨hmem, decide_eq_true rfl⟩

theorem nearby_symm (r r' : WatchEventRow) (h : Nearby r r') : Nearby r' r :=
  ⟨h.1.symm, h.2.2, h.2.1⟩

namespace IsEcho

theorem ne (h : IsEcho rows row webhook) : webhook ≠ row := by
  rintro rfl
  exact not_backfill_of_webhook h.received h.backfilled

theorem mem (h : IsEcho rows row webhook) : webhook ∈ rows := by
  cases (h.alone webhook).mpr (.inr rfl) with
  | refl => exact absurd rfl h.ne
  | tail _ hstep => exact hstep.2.1

theorem group_eq (h : IsEcho rows row webhook) : webhook.group = row.group :=
  ((h.alone webhook).mpr (.inr rfl)).invariant (P := fun r ↦ r.group = row.group) rfl
    fun _ _ hgroup _ _ hnear ↦ hnear.1.symm.trans hgroup

theorem congr (h : ∀ r, r ∈ rows ↔ r ∈ rows') : IsEcho rows row webhook ↔ IsEcho rows' row webhook :=
  ⟨fun he ↦ ⟨he.backfilled, he.received, fun other ↦ (linked_congr h).symm.trans (he.alone other)⟩,
    fun he ↦ ⟨he.backfilled, he.received, fun other ↦ (linked_congr h).trans (he.alone other)⟩⟩

end IsEcho

variable (hids : (rows.map WatchEventRow.id).Nodup)

include hids

theorem id_mem_iff (hrow : row ∈ rows) :
    row.id ∈ findDuplicateWatchEventIds rows ↔ ∃ webhook, IsEcho rows row webhook := by
  rw [mem_findDuplicateWatchEventIds (List.Nodup.of_map _ hids)]
  constructor
  · rintro ⟨row', hrow', webhook, hid, hecho⟩
    obtain rfl : row' = row := List.inj_on_of_nodup_map hids hrow' hrow hid
    exact ⟨webhook, hecho⟩
  · rintro ⟨webhook, hecho⟩
    exact ⟨row, hrow, webhook, rfl, hecho⟩

theorem webhook_kept (hrow : row ∈ rows) (h : row.isWebhookSignature) :
    row.id ∉ findDuplicateWatchEventIds rows := by
  rw [id_mem_iff hids hrow]
  rintro ⟨webhook, hecho⟩
  exact not_backfill_of_webhook h hecho.backfilled

/-- A backfilled row that stays has nothing deleted linked to it. -/
theorem linked_kept (hrow : row.isBackfillSignature)
    (hkept : row.id ∉ findDuplicateWatchEventIds rows) (h : Linked Nearby rows row other) :
    Linked Nearby (rows.filter fun r ↦ r.id ∉ findDuplicateWatchEventIds rows) row other := by
  have hstays {r : WatchEventRow} (hmem : r ∈ rows) (hl : Linked Nearby rows row r) :
      r ∈ rows.filter fun r ↦ r.id ∉ findDuplicateWatchEventIds rows := by
    refine List.mem_filter.mpr ⟨hmem, decide_eq_true fun hid ↦ ?_⟩
    obtain ⟨webhook, hecho⟩ := (id_mem_iff hids hmem).mp hid
    obtain rfl | rfl := (hecho.alone row).mp (hl.symm nearby_symm)
    · exact hkept hid
    · exact not_backfill_of_webhook hecho.received hrow
  induction h with
  | refl => exact .refl row
  | tail hlinked hstep ih =>
    obtain ⟨hleft, hright, hnear⟩ := hstep
    exact ih.tail ⟨hstays hleft hlinked, hstays hright (hlinked.tail ⟨hleft, hright, hnear⟩), hnear⟩

theorem findDuplicateWatchEventIds_kept :
    findDuplicateWatchEventIds
      (rows.filter fun r ↦ r.id ∉ findDuplicateWatchEventIds rows) = [] := by
  refine List.eq_nil_iff_forall_not_mem.mpr fun id hid ↦ ?_
  rw [mem_findDuplicateWatchEventIds ((List.Nodup.of_map _ hids).filter _)] at hid
  obtain ⟨row, hrow, webhook, rfl, hecho⟩ := hid
  obtain ⟨hmem, hkept⟩ := List.mem_filter.mp hrow
  have hkept := of_decide_eq_true hkept
  refine hkept ((id_mem_iff hids hmem).mpr ⟨webhook, hecho.backfilled, hecho.received,
    fun other ↦ ?_⟩)
  rw [← hecho.alone]
  exact ⟨linked_kept hids hecho.backfilled hkept,
    fun h ↦ h.mono (fun r hr ↦ (List.mem_filter.mp hr).1) fun _ _ ↦ id⟩

end echoes

/-- What the migration deletes: whatever the order of the rows, the backfilled rows that gaps of at
most the window link to one webhook's row, which stays, and to no other. -/
structure RemovesOnlyEchoes (rows : List WatchEventRow) : Prop where
  order : ∀ rows', rows'.Perm rows →
    ∀ id, id ∈ findDuplicateWatchEventIds rows' ↔ id ∈ findDuplicateWatchEventIds rows
  echoes : ∀ id ∈ findDuplicateWatchEventIds rows, ∃ row ∈ rows, row.id = id ∧
    row.isBackfillSignature ∧ ∃ webhook ∈ rows, webhook ≠ row ∧ webhook.isWebhookSignature ∧
      webhook.id ∉ findDuplicateWatchEventIds rows ∧
        ∀ other, Linked Nearby rows row other ↔ other = row ∨ other = webhook
  kept : ∀ row ∈ rows, ∃ other ∈ rows, other.userId = row.userId ∧ other.mediaId = row.mediaId ∧
    other.id ∉ findDuplicateWatchEventIds rows
  again : findDuplicateWatchEventIds
    (rows.filter fun row ↦ row.id ∉ findDuplicateWatchEventIds rows) = []

theorem removes_only_echoes (hids : (rows.map WatchEventRow.id).Nodup) : RemovesOnlyEchoes rows where
  order rows' hperm id := by
    have hrows := List.Nodup.of_map _ hids
    rw [mem_findDuplicateWatchEventIds hrows,
      mem_findDuplicateWatchEventIds (hperm.nodup_iff.mpr hrows)]
    simp only [hperm.mem_iff, IsEcho.congr fun r ↦ hperm.mem_iff]
  echoes id hid := by
    obtain ⟨row, hrow, webhook, rfl, hecho⟩ :=
      (mem_findDuplicateWatchEventIds (List.Nodup.of_map _ hids)).mp hid
    exact ⟨row, hrow, rfl, hecho.backfilled, webhook, hecho.mem, hecho.ne, hecho.received,
      webhook_kept hids hecho.mem hecho.received, hecho.alone⟩
  kept row hrow := by
    by_cases hid : row.id ∈ findDuplicateWatchEventIds rows
    · obtain ⟨webhook, hecho⟩ := (id_mem_iff hids hrow).mp hid
      obtain ⟨huser, hmedia⟩ := Prod.mk.inj hecho.group_eq
      exact ⟨webhook, hecho.mem, huser, hmedia, webhook_kept hids hecho.mem hecho.received⟩
    · exact ⟨row, hrow, rfl, rfl, hid⟩
  again := findDuplicateWatchEventIds_kept hids

theorem removes_only_echoes_pair :
    ([⟨1, 1, 100, 0, some 1, some 1234⟩, ⟨2, 1, 100, 240000000, none, none⟩] :
      List WatchEventRow).map WatchEventRow.id = [1, 2] ∧
    RemovesOnlyEchoes
      [⟨1, 1, 100, 0, some 1, some 1234⟩, ⟨2, 1, 100, 240000000, none, none⟩] :=
  ⟨rfl, removes_only_echoes (by decide)⟩

example : findDuplicateWatchEventIds
    [⟨1, 1, 100, 0, some 1, some 1234⟩, ⟨2, 1, 100, 240000000, none, none⟩] = [2] := by decide

end AnyList.Migrations.DuplicatePlays
