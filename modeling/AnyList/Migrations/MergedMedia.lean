import AnyList.Migrations.MergedDependents

namespace AnyList.Migrations

open AnyList.Library.UniqueRows

variable {π : Type*}

section media

variable {media : List (Media π)} {m n : Media π}

/-- The first row under an id and a type. -/
structure First (media : List (Media π)) (m w : Media π) : Prop where
  mem : w ∈ media
  tmdbId : w.tmdbId = m.tmdbId
  mediaType : w.mediaType = m.mediaType
  least : ∀ n ∈ media, n.tmdbId = m.tmdbId → n.mediaType = m.mediaType → w.id ≤ n.id

theorem firstValue_spec (hm : m ∈ media) : First media m (firstValue media m) := by
  rw [firstValue]
  cases hmin : (media.filter fun n ↦ decide (n.tmdbId = m.tmdbId ∧
      n.mediaType = m.mediaType)).argmin Media.id with
  | none =>
    refine absurd (List.argmin_eq_none.mp hmin) (List.ne_nil_of_mem (a := m) ?_)
    exact List.mem_filter.mpr ⟨hm, decide_eq_true ⟨rfl, rfl⟩⟩
  | some w =>
    obtain ⟨hw, hsame⟩ := List.mem_filter.mp (List.argmin_mem hmin)
    obtain ⟨htmdb, htype⟩ := of_decide_eq_true hsame
    refine ⟨hw, htmdb, htype, fun n hn hntmdb hntype ↦ ?_⟩
    exact List.le_of_mem_argmin (List.mem_filter.mpr ⟨hn, decide_eq_true ⟨hntmdb, hntype⟩⟩) hmin

variable (hids : (media.map Media.id).Nodup)

include hids

theorem First.eq {w w' : Media π} (h : First media m w) (h' : First media n w')
    (htmdb : m.tmdbId = n.tmdbId) (htype : m.mediaType = n.mediaType) : w = w' := by
  refine List.inj_on_of_nodup_map hids h.mem h'.mem (Nat.le_antisymm ?_ ?_)
  · exact h.least w' h'.mem (h'.tmdbId.trans htmdb.symm) (h'.mediaType.trans htype.symm)
  · exact h'.least w h.mem (h.tmdbId.trans htmdb) (h.mediaType.trans htype)

/-- What makes a row a loser. -/
structure Loses (media : List (Media π)) (m : Media π) : Prop where
  tmdbId : m.tmdbId.isSome
  later : m.id ≠ (firstValue media m).id
  season : m.seasonNumber = (firstValue media m).seasonNumber
  episode : m.episodeNumber = (firstValue media m).episodeNumber

omit hids in
theorem mem_mediaDedup {d : ℕ × ℕ} : d ∈ mediaDedup media ↔
    ∃ m ∈ media, Loses media m ∧ d = (m.id, (firstValue media m).id) := by
  simp only [mediaDedup, List.mem_map, List.mem_filter, decide_eq_true_eq]
  constructor
  · rintro ⟨m, ⟨hm, h₁, h₂, h₃, h₄⟩, rfl⟩
    exact ⟨m, hm, ⟨h₁, h₂, h₃, h₄⟩, rfl⟩
  · rintro ⟨m, hm, ⟨h₁, h₂, h₃, h₄⟩, rfl⟩
    exact ⟨m, ⟨hm, h₁, h₂, h₃, h₄⟩, rfl⟩

theorem firstValue_firstValue (hm : m ∈ media) :
    firstValue media (firstValue media m) = firstValue media m := by
  have hfirst := firstValue_spec hm
  exact (firstValue_spec hfirst.mem).eq hids hfirst hfirst.tmdbId hfirst.mediaType

theorem winnerOf_of_loses (hm : m ∈ media) (h : Loses media m) :
    winnerOf (mediaDedup media) m.id = some (firstValue media m).id := by
  cases hw : winnerOf (mediaDedup media) m.id with
  | none =>
    have hmem := mem_mediaDedup.mpr ⟨m, hm, h, rfl⟩
    rw [winnerOf, Option.map_eq_none_iff, List.find?_eq_none] at hw
    exact absurd (decide_eq_true rfl) (hw _ hmem)
  | some w =>
    obtain ⟨n, hn, -, heq⟩ := mem_mediaDedup.mp (mem_of_winnerOf hw)
    obtain ⟨hid, rfl⟩ := Prod.mk.inj heq
    rw [List.inj_on_of_nodup_map hids hn hm hid.symm]

theorem winnerOf_of_not_loses (hm : m ∈ media) (h : ¬ Loses media m) :
    winnerOf (mediaDedup media) m.id = none := by
  cases hw : winnerOf (mediaDedup media) m.id with
  | none => rfl
  | some w =>
    obtain ⟨n, hn, hloses, heq⟩ := mem_mediaDedup.mp (mem_of_winnerOf hw)
    obtain rfl := List.inj_on_of_nodup_map hids hn hm (Prod.mk.inj heq).1.symm
    exact absurd hloses h

theorem not_loses_firstValue (hm : m ∈ media) : ¬ Loses media (firstValue media m) := by
  intro h
  have hlater := h.later
  rw [firstValue_firstValue hids hm] at hlater
  exact hlater rfl

theorem sound_mediaDedup : Sound (mediaDedup media) := by
  intro d hd
  obtain ⟨m, hm, -, rfl⟩ := mem_mediaDedup.mp hd
  exact winnerOf_of_not_loses hids (firstValue_spec hm).mem (not_loses_firstValue hids hm)

omit hids in
variable (media) in
/-- The rows that stay; those that share an id without being the same lose it. -/
def stayingMedia : List (Media π) :=
  (media.filter fun m ↦ !isLoser (mediaDedup media) m.id).map fun m ↦
    if m.id ∈ mediaTmdbUnlink media (mediaDedup media) then { m with tmdbId := none } else m

theorem mem_unlink (hm : m ∈ media) : m.id ∈ mediaTmdbUnlink media (mediaDedup media) ↔
    m.tmdbId.isSome ∧ m.id ≠ (firstValue media m).id ∧
      isLoser (mediaDedup media) m.id = false := by
  simp only [mediaTmdbUnlink, List.mem_map, List.mem_filter, Bool.and_eq_true, decide_eq_true_eq,
    Bool.not_eq_true']
  constructor
  · rintro ⟨n, ⟨hn, ⟨h₁, h₂⟩, h₃⟩, hid⟩
    obtain rfl := List.inj_on_of_nodup_map hids hn hm hid
    exact ⟨h₁, h₂, h₃⟩
  · rintro ⟨h₁, h₂, h₃⟩
    exact ⟨m, ⟨hm, ⟨h₁, h₂⟩, h₃⟩, rfl⟩

/-- A row that keeps its id is the first one under it. -/
theorem first_of_key (hm : m ∈ media) (hstays : isLoser (mediaDedup media) m.id = false)
    {k : ℤ × MediaType} (hk : (if m.id ∈ mediaTmdbUnlink media (mediaDedup media) then
      { m with tmdbId := none } else m).key = some k) :
    m = firstValue media m ∧ m.tmdbId = some k.1 ∧ m.mediaType = k.2 := by
  split at hk
  · cases hk
  · next hnot =>
    obtain ⟨t, ht, rfl⟩ := Option.map_eq_some_iff.mp hk
    refine ⟨?_, ht, rfl⟩
    have hid : m.id = (firstValue media m).id := by
      by_contra hne
      exact hnot ((mem_unlink hids hm).mpr ⟨by rw [ht]; rfl, hne, hstays⟩)
    exact List.inj_on_of_nodup_map hids hm (firstValue_spec hm).mem hid

theorem unique_stayingMedia : UniqueOn Media.key (stayingMedia media) := by
  rw [stayingMedia, UniqueOn, List.pairwise_map, List.pairwise_filter]
  have hids' : media.Pairwise fun m n ↦ m.id ≠ n.id := List.pairwise_map.mp hids
  refine List.Pairwise.imp_of_mem ?_ hids'
  intro m n hm hn hne hmstays hnstays k hk hk'
  rw [Bool.not_eq_true'] at hmstays hnstays
  obtain ⟨hmfirst, hmtmdb, hmtype⟩ := first_of_key hids hm hmstays hk
  obtain ⟨hnfirst, hntmdb, hntype⟩ := first_of_key hids hn hnstays hk'
  have heq := (firstValue_spec hm).eq hids (firstValue_spec hn) (hmtmdb.trans hntmdb.symm)
    (hmtype.trans hntype.symm)
  exact hne (congrArg Media.id (hmfirst.trans (heq.trans hnfirst.symm)))

omit hids in
/-- Two rows of one title, of which the first stays. -/
structure MergedInto (media : List (Media π)) (m w : Media π) : Prop extends First media m w where
  known : m.tmdbId.isSome
  season : m.seasonNumber = w.seasonNumber
  episode : m.episodeNumber = w.episodeNumber

/-- Where a row ends up. -/
theorem home_cases (hm : m ∈ media) :
    (owner (mediaDedup media) m.id = m.id ∧
      (m ∈ stayingMedia media ∨ { m with tmdbId := none } ∈ stayingMedia media)) ∨
    ∃ w ∈ stayingMedia media, owner (mediaDedup media) m.id = w.id ∧ MergedInto media m w ∧
      ∀ m' ∈ stayingMedia media, m'.id ≠ m.id := by
  have hstaying {n : Media π} (hn : n ∈ media) (h : ¬ Loses media n) :
      (if n.id ∈ mediaTmdbUnlink media (mediaDedup media) then { n with tmdbId := none } else n) ∈
        stayingMedia media := by
    refine List.mem_map_of_mem (f := fun n : Media π ↦
      if n.id ∈ mediaTmdbUnlink media (mediaDedup media) then { n with tmdbId := none } else n)
      (List.mem_filter.mpr ⟨hn, ?_⟩)
    rw [winnerOf_eq_none.mp (winnerOf_of_not_loses hids hn h)]
    rfl
  by_cases hloses : Loses media m
  · have hwinner := winnerOf_of_loses hids hm hloses
    have hfirst := firstValue_spec hm
    refine .inr ⟨firstValue media m, ?_, owner_of_winner hwinner,
      ⟨hfirst, hloses.tmdbId, hloses.season, hloses.episode⟩, fun m' hm' hid ↦ ?_⟩
    · have hmem := hstaying hfirst.mem (not_loses_firstValue hids hm)
      rwa [if_neg fun hunlink ↦ ((mem_unlink hids hfirst.mem).mp hunlink).2.1
        (by rw [firstValue_firstValue hids hm])] at hmem
    · obtain ⟨n, hn, rfl⟩ := List.mem_map.mp hm'
      have hnid : n.id = m.id := by
        split at hid
        · exact hid
        · exact hid
      have hlost := (List.mem_filter.mp hn).2
      rw [hnid, Bool.not_eq_true', ← winnerOf_eq_none, hwinner] at hlost
      cases hlost
  · refine .inl ⟨owner_of_none (winnerOf_of_not_loses hids hm hloses), ?_⟩
    have hmem := hstaying hm hloses
    split at hmem
    · exact .inr hmem
    · exact .inl hmem

omit hids in
theorem of_mem_stayingMedia (h : m ∈ stayingMedia media) : ∃ n ∈ media,
    owner (mediaDedup media) n.id = n.id ∧ (m = n ∨ m = { n with tmdbId := none }) := by
  obtain ⟨n, hn, rfl⟩ := List.mem_map.mp h
  obtain ⟨hn, hstays⟩ := List.mem_filter.mp hn
  rw [Bool.not_eq_true', ← winnerOf_eq_none] at hstays
  refine ⟨n, hn, owner_of_none hstays, ?_⟩
  split
  · exact .inr rfl
  · exact .inl rfl

end media

end AnyList.Migrations
