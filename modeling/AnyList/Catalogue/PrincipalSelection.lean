import AnyList.Catalogue.PrincipalCredits

namespace AnyList.Catalogue.PrincipalCredits

open AnyList.Library AnyList.Library.Quotas

section sorting

variable {α β : Type*} [LinearOrder β] {key : α → β} {l l' : List α}

def sortBy (key : α → β) (l : List α) : List α := l.insertionSort fun a b ↦ key a ≤ key b

theorem pairwise_sortBy (key : α → β) (l : List α) :
    (sortBy key l).Pairwise fun a b ↦ key a ≤ key b :=
  have : Std.Total fun a b ↦ key a ≤ key b := ⟨fun a b ↦ le_total (key a) (key b)⟩
  have : IsTrans α fun a b ↦ key a ≤ key b := ⟨fun _ _ _ ↦ le_trans⟩
  List.pairwise_insertionSort _ l

theorem perm_sortBy (key : α → β) (l : List α) : (sortBy key l).Perm l :=
  List.perm_insertionSort _ l

/-- A key that tells the elements apart sorts them in one way. -/
theorem sortBy_eq_of_perm (hkey : Function.Injective key) (h : l.Perm l') :
    sortBy key l = sortBy key l' := by
  refine List.Perm.eq_of_pairwise (fun a b _ _ hab hba ↦ hkey (le_antisymm hab hba))
    (pairwise_sortBy key l) (pairwise_sortBy key l') ?_
  exact (perm_sortBy key l).trans (h.trans (perm_sortBy key l').symm)

theorem pairwise_lt_sortBy (hkey : Function.Injective key) (hl : l.Nodup) :
    (sortBy key l).Pairwise fun a b ↦ key a < key b := by
  have hnodup : (sortBy key l).Nodup := (perm_sortBy key l).nodup_iff.mpr hl
  refine ((pairwise_sortBy key l).and hnodup).imp fun h ↦ ?_
  exact lt_of_le_of_ne h.1 fun heq ↦ h.2 (hkey heq)

theorem filter_or_perm {p q : α → Bool} (h : ∀ a ∈ l, p a = true → q a = false) :
    (l.filter p ++ l.filter q).Perm (l.filter fun a ↦ p a || q a) := by
  have hsplit := List.filter_append_perm p (l.filter fun a ↦ p a || q a)
  rw [List.filter_filter, List.filter_filter] at hsplit
  refine List.Perm.trans (List.Perm.of_eq ?_) hsplit
  congr 1
  · exact List.filter_congr fun a _ ↦ by cases p a <;> simp
  · refine List.filter_congr fun a ha ↦ ?_
    cases hp : p a with
    | true => simp [h a ha hp]
    | false => simp

/-- The pieces of a list by a key, one for each of the wanted values. -/
theorem flatMap_filter_perm [DecidableEq α] {γ : Type*} (of : γ → α) {wanted : List α}
    (h : wanted.Nodup) (items : List γ) :
    (wanted.flatMap fun a ↦ items.filter fun item ↦ of item = a).Perm
      (items.filter fun item ↦ of item ∈ wanted) := by
  induction wanted with
  | nil => simp
  | cons a wanted ih =>
    obtain ⟨hnot, hrest⟩ := List.nodup_cons.mp h
    rw [List.flatMap_cons]
    refine ((ih hrest).append_left _).trans ?_
    refine (filter_or_perm fun item _ hitem ↦ ?_).trans (List.Perm.of_eq ?_)
    · rw [of_decide_eq_true hitem]
      exact decide_eq_false hnot
    · exact List.filter_congr fun item _ ↦ by simp

end sorting

section ranks

variable {ι : Type*} {py : Unicode} {entries entries' : List (Row ι)}

theorem min?_eq_of_perm {α : Type*} [LinearOrder α] {l l' : List α} (h : l.Perm l') :
    l.min? = l'.min? := by
  cases hmin : l.min? with
  | none =>
    rw [List.min?_eq_none_iff] at hmin
    rw [hmin, List.nil_perm] at h
    rw [h, List.min?_nil]
  | some a =>
    rw [List.min?_eq_some_iff] at hmin
    symm
    rw [List.min?_eq_some_iff]
    exact ⟨h.mem_iff.mp hmin.1, fun b hb ↦ hmin.2 b (h.mem_iff.mpr hb)⟩

theorem foldl_max_eq_of_perm {α : Type*} [LinearOrder α] {l l' : List α} (h : l.Perm l') (a : α) :
    l.foldl max a = l'.foldl max a :=
  h.foldl_eq' (fun x _ y _ z ↦ max_right_comm z x y) a

theorem position_eq_of_perm (h : entries.Perm entries') : position entries = position entries' := by
  rw [position, position, min?_eq_of_perm (h.filterMap _)]

theorem appearances_eq_of_perm (h : entries.Perm entries') :
    appearances entries = appearances entries' :=
  foldl_max_eq_of_perm (h.map _) 0

theorem recognition_eq_of_perm (h : entries.Perm entries') :
    recognition entries = recognition entries' :=
  foldl_max_eq_of_perm (h.map _) 0

theorem isFeatured_eq_of_perm (h : entries.Perm entries') :
    isFeatured entries = isFeatured entries' := h.any_eq

theorem bestGroup_eq_of_perm (h : entries.Perm entries') :
    bestGroup py entries = bestGroup py entries' := by
  rw [bestGroup, bestGroup, min?_eq_of_perm (h.filterMap _)]

/-- The first row of one person tells what every row of that person tells. -/
theorem hasImage_eq_of_perm (h : entries.Perm entries')
    (hsame : ∀ row ∈ entries, ∀ row' ∈ entries, row.2 = row'.2) :
    hasImage entries = hasImage entries' := by
  cases entries with
  | nil => rw [List.nil_perm.mp h]
  | cons row entries =>
    cases entries' with
    | nil => exact absurd h.symm (List.not_perm_nil_cons row entries)
    | cons row' entries' =>
      have hmem : row' ∈ row :: entries := h.mem_iff.mpr List.mem_cons_self
      simp only [hasImage, List.head?_cons, Option.any_some]
      rw [hsame row List.mem_cons_self row' hmem]

end ranks

section selection

variable {ι : Type*} [DecidableEq ι] (py : Unicode) (ids : Naming ι) (kind : WorkKind)
  (rows : List (Row ι))

/-- A person's rows of one side stand better than another's. -/
def isBetter (b a : ι) : Bool := crewKey py ids kind rows b < crewKey py ids kind rows a

/-- The rows of the selected people and of the organisations. -/
def isKept (cast crew : List ι) (row : Row ι) : Bool :=
  isOrganization row || (isCastRow py kind row && decide (row.2.id ∈ cast)) ||
    (isCrewRow py kind row && decide (row.2.id ∈ crew))

/-- `result` is what the selection of these people keeps of the rows. -/
structure Selects (cast crew : List ι) (result : List (Row ι)) : Prop where
  cast_nodup : cast.Nodup
  crew_nodup : crew.Nodup
  of_mem_cast : ∀ id ∈ cast, ∃ row ∈ rows, isCastRow py kind row = true ∧ row.2.id = id
  of_mem_crew : ∀ id ∈ crew, ∃ row ∈ rows, isCrewRow py kind row = true ∧ row.2.id = id
  cast_le : cast.length ≤ castLimit kind
  crew_le : crew.length ≤ crewLimit
  group_le : ∀ rank, (crew.filter fun id ↦ crewGroup py kind rows id = rank).length ≤ groupLimit rank
  kept : result.Perm (rows.filter (isKept py kind cast crew))
  dropped : ∀ row ∈ rows, isCrewRow py kind row = true → row.2.id ∉ crew →
    crewLimit ≤ (crew.filter fun id ↦ isBetter py ids kind rows id row.2.id).length ∨
      groupLimit (crewGroup py kind rows row.2.id) ≤
        (crew.filter fun id ↦
          decide (crewGroup py kind rows id = crewGroup py kind rows row.2.id) &&
            isBetter py ids kind rows id row.2.id).length

/-- The rows of one person name the same person. -/
def SamePersons : Prop := ∀ row ∈ rows, ∀ row' ∈ rows, row.2.id = row'.2.id → row.2 = row'.2

variable {py ids kind rows} {side : Row ι → Bool} {id : ι}

theorem entriesOf_eq (rows : List (Row ι)) (side : Row ι → Bool) (id : ι) :
    entriesOf rows side id = (rows.filter side).filter fun row ↦ row.2.id = id := by
  rw [entriesOf, people, Dict.get_groupBy]
  split_ifs with h
  · rfl
  · rw [Option.getD_none, eq_comm, List.filter_eq_nil_iff]
    exact fun row hrow hid ↦ h ⟨row, hrow, of_decide_eq_true hid⟩

theorem mem_keys_people : id ∈ (people rows side).keys ↔
    ∃ row ∈ rows, side row = true ∧ row.2.id = id := by
  rw [Dict.mem_keys, people, Dict.get_groupBy]
  simp only [List.mem_filter, and_assoc]
  split_ifs with h
  · exact iff_of_true ⟨_, rfl⟩ h
  · exact iff_of_false (by simp) h

theorem crewKey_injective : Function.Injective (crewKey py ids kind rows) := by
  intro a b h
  simp only [crewKey, crewRank, EmbeddingLike.apply_eq_iff_eq, Prod.mk.injEq] at h
  exact ids.str_injective h.2.2.2.2.2

def castKey (py : Unicode) (ids : Naming ι) (kind : WorkKind) (rows : List (Row ι)) (id : ι) :
    CastRank := castRank ids kind (entriesOf rows (isCastRow py kind) id) id

theorem castKey_injective : Function.Injective (castKey py ids kind rows) := by
  intro a b h
  by_cases hkind : kind = .movie
  · simp only [castKey, castRank, if_pos hkind, EmbeddingLike.apply_eq_iff_eq, Prod.mk.injEq] at h
    exact ids.str_injective h.2.2.2.2.2
  · simp only [castKey, castRank, if_neg hkind, EmbeddingLike.apply_eq_iff_eq, Prod.mk.injEq] at h
    exact ids.str_injective h.2.2.2.2.2

theorem selectedCast_eq : selectedCast py ids kind rows =
    (sortBy (castKey py ids kind rows) (people rows (isCastRow py kind)).keys).take
      (castLimit kind) := rfl

theorem selectedCrew_eq : selectedCrew py ids kind rows =
    (takeAll (crewGroup py kind rows) groupLimit crewLimit
      (sortBy (crewKey py ids kind rows) (people rows (isCrewRow py kind)).keys)).members := rfl

theorem fills_selectedCrew (py : Unicode) (ids : Naming ι) (kind : WorkKind) (rows : List (Row ι)) :
    Fills (crewGroup py kind rows) groupLimit crewLimit
    (isBetter py ids kind rows)
    (sortBy (crewKey py ids kind rows) (people rows (isCrewRow py kind)).keys)
    (takeAll (crewGroup py kind rows) groupLimit crewLimit
      (sortBy (crewKey py ids kind rows) (people rows (isCrewRow py kind)).keys)) := by
  refine fills_takeAll ((pairwise_lt_sortBy crewKey_injective (people rows _).nodup).imp ?_)
  exact fun h ↦ decide_eq_true h

/-- The rows of the selected people of one side. -/
theorem flatMap_entriesOf_perm {wanted : List ι} (h : wanted.Nodup) :
    (wanted.flatMap (entriesOf rows side)).Perm
      (rows.filter fun row ↦ side row && decide (row.2.id ∈ wanted)) := by
  have hentries : entriesOf rows side =
      fun id ↦ (rows.filter side).filter fun row ↦ row.2.id = id :=
    funext (entriesOf_eq rows side)
  rw [hentries]
  refine (flatMap_filter_perm (fun row : Row ι ↦ row.2.id) h _).trans (List.Perm.of_eq ?_)
  rw [List.filter_filter]
  exact List.filter_congr fun row _ ↦ Bool.and_comm _ _

theorem selectedRows_perm (hcast : (selectedCast py ids kind rows).Nodup)
    (hcrew : (selectedCrew py ids kind rows).Nodup) : (selectedRows py ids kind rows).Perm
      (rows.filter (isKept py kind (selectedCast py ids kind rows) (selectedCrew py ids kind rows))) := by
  rw [selectedRows]
  have hsides : ∀ row ∈ rows,
      (isCastRow py kind row && decide (row.2.id ∈ selectedCast py ids kind rows)) = true →
        (isCrewRow py kind row && decide (row.2.id ∈ selectedCrew py ids kind rows)) = false := by
    intro row _ hrow
    simp only [isCastRow, isCrewRow, Bool.and_eq_true] at hrow ⊢
    simp [hrow.1.2]
  refine (((flatMap_entriesOf_perm hcast).append (flatMap_entriesOf_perm hcrew)).append_right _).trans ?_
  refine ((filter_or_perm hsides).append_right _).trans ?_
  refine (filter_or_perm fun row _ hrow ↦ ?_).trans (List.Perm.of_eq ?_)
  · simp only [isCastRow, isCrewRow, Bool.or_eq_true, Bool.and_eq_true, Bool.not_eq_true'] at hrow
    obtain hrow | hrow := hrow
    · exact hrow.1.1.1
    · exact hrow.1.1.1
  · refine List.filter_congr fun row _ ↦ ?_
    rw [isKept, Bool.or_comm, Bool.or_assoc]

theorem selects (py : Unicode) (ids : Naming ι) (kind : WorkKind) (rows : List (Row ι)) :
    Selects py ids kind rows (selectedCast py ids kind rows) (selectedCrew py ids kind rows)
      (selectedRows py ids kind rows) := by
  have hfills := fills_selectedCrew py ids kind rows
  have hkeys := (perm_sortBy (castKey py ids kind rows) (people rows (isCastRow py kind)).keys)
  have hcast : (selectedCast py ids kind rows).Nodup := by
    rw [selectedCast_eq]
    exact (List.take_sublist _ _).nodup (hkeys.nodup_iff.mpr (people rows _).nodup)
  have hcrewKeys := (perm_sortBy (crewKey py ids kind rows) (people rows (isCrewRow py kind)).keys)
  have hcrew : (selectedCrew py ids kind rows).Nodup :=
    hfills.sublist.nodup (hcrewKeys.nodup_iff.mpr (people rows _).nodup)
  refine ⟨hcast, hcrew, ?_, ?_, ?_, hfills.length_le, hfills.group_le,
    selectedRows_perm hcast hcrew, ?_⟩
  · intro id hid
    rw [selectedCast_eq] at hid
    exact mem_keys_people.mp (hkeys.mem_iff.mp (List.mem_of_mem_take hid))
  · intro id hid
    exact mem_keys_people.mp (hcrewKeys.mem_iff.mp (hfills.sublist.subset hid))
  · rw [selectedCast_eq, List.length_take]
    exact min_le_left _ _
  · intro row hrow hside hnot
    refine hfills.dropped _ (hcrewKeys.mem_iff.mpr ?_) hnot
    exact mem_keys_people.mpr ⟨row, hrow, hside, rfl⟩

section permuted

variable {rows' : List (Row ι)}

theorem entriesOf_perm (h : rows'.Perm rows) (side : Row ι → Bool) (id : ι) :
    (entriesOf rows' side id).Perm (entriesOf rows side id) := by
  rw [entriesOf_eq, entriesOf_eq]
  exact (h.filter _).filter _

theorem keys_people_perm (h : rows'.Perm rows) (side : Row ι → Bool) :
    (people rows' side).keys.Perm (people rows side).keys := by
  refine (List.perm_ext_iff_of_nodup (people rows' side).nodup (people rows side).nodup).mpr ?_
  intro id
  rw [← Dict.keys, ← Dict.keys, mem_keys_people, mem_keys_people]
  simp only [h.mem_iff]

theorem castKey_eq_of_perm (h : rows'.Perm rows) :
    castKey py ids kind rows' = castKey py ids kind rows := by
  funext id
  have hentries := entriesOf_perm h (isCastRow py kind) id
  simp only [castKey, castRank, position_eq_of_perm hentries, recognition_eq_of_perm hentries,
    appearances_eq_of_perm hentries, isFeatured_eq_of_perm hentries]

theorem crewKey_eq_of_perm (h : rows'.Perm rows) (hsame : SamePersons rows) :
    crewKey py ids kind rows' = crewKey py ids kind rows := by
  funext id
  have hentries := entriesOf_perm h (isCrewRow py kind) id
  have himage : hasImage (entriesOf rows' (isCrewRow py kind) id) =
      hasImage (entriesOf rows (isCrewRow py kind) id) := by
    refine (hasImage_eq_of_perm hentries.symm fun row hrow row' hrow' ↦ ?_).symm
    rw [entriesOf_eq, List.mem_filter, List.mem_filter, decide_eq_true_eq] at hrow hrow'
    exact hsame row hrow.1.1 row' hrow'.1.1 (hrow.2.trans hrow'.2.symm)
  simp only [crewKey, crewRank, position_eq_of_perm hentries, recognition_eq_of_perm hentries,
    appearances_eq_of_perm hentries, bestGroup_eq_of_perm hentries, himage]

theorem crewGroup_eq_of_perm (h : rows'.Perm rows) :
    crewGroup py kind rows' = crewGroup py kind rows :=
  funext fun id ↦ bestGroup_eq_of_perm (entriesOf_perm h (isCrewRow py kind) id)

theorem selectedRows_perm_of_perm (h : rows'.Perm rows) (hsame : SamePersons rows) :
    (selectedRows py ids kind rows').Perm (selectedRows py ids kind rows) := by
  have hcast : selectedCast py ids kind rows' = selectedCast py ids kind rows := by
    rw [selectedCast_eq, selectedCast_eq, castKey_eq_of_perm h,
      sortBy_eq_of_perm castKey_injective (keys_people_perm h (isCastRow py kind))]
  have hcrew : selectedCrew py ids kind rows' = selectedCrew py ids kind rows := by
    rw [selectedCrew_eq, selectedCrew_eq, crewKey_eq_of_perm h hsame, crewGroup_eq_of_perm h,
      sortBy_eq_of_perm crewKey_injective (keys_people_perm h (isCrewRow py kind))]
  rw [selectedRows, selectedRows, hcast, hcrew]
  refine ((List.Perm.flatMap_left _ fun id _ ↦ ?_).append (List.Perm.flatMap_left _ fun id _ ↦ ?_)).append
    (h.filter _)
  · exact entriesOf_perm h _ id
  · exact entriesOf_perm h _ id

end permuted

/-- The selection is bounded, complete for each person and the same for every order of the rows. -/
theorem principal_selection (py : Unicode) (ids : Naming ι) (kind : WorkKind)
    (hkind : kind ≠ .other) (rows result : List (Row ι))
    (h : selectCredits py ids kind rows = some result) :
    (∃ cast crew, Selects py ids kind rows cast crew result) ∧
    (SamePersons rows → ∀ rows' : List (Row ι), rows'.Perm rows →
      ∃ result', selectCredits py ids kind rows' = some result' ∧ result'.Perm result) := by
  rw [selectCredits, if_neg hkind] at h
  split_ifs at h with hreadable
  obtain rfl := Option.some.inj h
  refine ⟨⟨_, _, selects py ids kind rows⟩, fun hsame rows' hperm ↦ ?_⟩
  refine ⟨selectedRows py ids kind rows', ?_, selectedRows_perm_of_perm hperm hsame⟩
  rw [selectCredits, if_neg hkind, if_pos]
  rwa [hperm.all_eq]

end selection

/-- Python on ASCII texts. -/
def asciiUnicode : Unicode where
  isSpace c := c == ' '
  isWord c := c.isAlphanum || c == '_'
  casefold text := text.map Char.toLower
  ignoreCase c c' := c.toLower == c'.toLower

def digitIds : Naming (Fin 10) where
  str id := [Nat.digitChar id]
  str_injective := by decide

def jobRow (index : ℕ) (job : String) (id : Fin 10) : Row (Fin 10) :=
  (⟨index, "contributor".toList, some job.toList, none, none, ⟨none, none, none, none⟩⟩,
    ⟨id, .person, none⟩)

/-- Three directors who are producers too. -/
def directingProducers : List (Row (Fin 10)) :=
  [jobRow 0 "Director" 1, jobRow 1 "Producer" 1, jobRow 2 "Director" 2, jobRow 3 "Producer" 2,
    jobRow 4 "Director" 3, jobRow 5 "Producer" 3]

theorem principal_selection_directors :
    (∃ cast crew, Selects asciiUnicode digitIds .movie directingProducers cast crew
      directingProducers) ∧
    ∀ rows' : List (Row (Fin 10)), rows'.Perm directingProducers →
      ∃ result', selectCredits asciiUnicode digitIds .movie rows' = some result' ∧
        result'.Perm directingProducers := by
  have h := principal_selection asciiUnicode digitIds .movie (by decide) directingProducers
    directingProducers (by decide +kernel)
  refine ⟨h.1, h.2 ?_⟩
  unfold SamePersons
  decide

/-- The people who have a row of a group. -/
def peopleOf {ι : Type*} [DecidableEq ι] (py : Unicode) (rank : ℕ) (rows : List (Row ι)) : List ι :=
  ((rows.filter fun row ↦ decide (group py row.1 = some rank)).map fun row ↦ row.2.id).dedup

theorem three_producers_selected :
    ¬∀ result, selectCredits asciiUnicode digitIds .movie directingProducers = some result →
      ∀ rank, (peopleOf asciiUnicode rank result).length ≤ groupLimit rank := by
  intro h
  have hresult : selectCredits asciiUnicode digitIds .movie directingProducers =
      some directingProducers := by decide +kernel
  have hlimit : ¬(peopleOf asciiUnicode 10 directingProducers).length ≤ groupLimit 10 := by
    decide +kernel
  exact hlimit (h directingProducers hresult 10)

end AnyList.Catalogue.PrincipalCredits
