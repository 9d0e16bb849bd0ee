import AnyList.Catalogue.ContributorIdentities
import AnyList.Library.Partial
import Mathlib.Logic.Relation

namespace AnyList.Catalogue.ContributorIdentities

open AnyList.Library AnyList.Library.Aliases AnyList.Library.Runs
open AnyList.Library.Partial (bind_eq_ok rel_of_foldlM_eq_ok)

section records

/-- What the descriptive fields of an entity leave alone. -/
structure SameEntity (e e' : Entity) : Prop where
  kind : e'.kind = e.kind
  canonicalId : ∀ t : Contributor, t.canonicalId e' = t.canonicalId e

variable {e e' e'' : Entity} {t : Contributor}

theorem SameEntity.refl (e : Entity) : SameEntity e e := ⟨rfl, fun _ ↦ rfl⟩

theorem SameEntity.trans (h : SameEntity e e') (h' : SameEntity e' e'') : SameEntity e e'' :=
  ⟨h'.kind.trans h.kind, fun t ↦ (h'.canonicalId t).trans (h.canonicalId t)⟩

theorem aliasTarget_eq_or (e : Entity) :
    aliasTarget e = (Contributor.person.canonicalId e).or (Contributor.company.canonicalId e) := rfl

theorem SameEntity.aliasTarget (h : SameEntity e e') : aliasTarget e' = aliasTarget e := by
  rw [aliasTarget_eq_or, aliasTarget_eq_or, h.canonicalId, h.canonicalId]

/-- Persons stand for persons, and organizations for organizations. -/
def KindsAgree (e : Entity) : Prop := ∀ t : Contributor, t.canonicalId e ≠ none → e.kind = t.kind

theorem SameEntity.kindsAgree (h : SameEntity e e') (he : KindsAgree e) : KindsAgree e' := by
  intro t ht
  rw [h.canonicalId] at ht
  exact h.kind.trans (he t ht)

theorem kind_injective {t t' : Contributor} (h : t.kind = t'.kind) : t = t' := by
  cases t <;> cases t' <;> first | rfl | cases h

theorem KindsAgree.aliasTarget_eq (he : KindsAgree e) (hkind : e.kind = t.kind) :
    aliasTarget e = t.canonicalId e := by
  have hother (t' : Contributor) (hne : t' ≠ t) : t'.canonicalId e = none := by
    by_contra h
    exact hne (kind_injective ((he t' h).symm.trans hkind))
  rw [aliasTarget_eq_or]
  cases t with
  | person => rw [hother .company (by decide), Option.or_none]
  | company => rw [hother .person (by decide), Option.none_or]

theorem sameEntity_setColumn (e : Entity) (value : String) (column : Column) :
    SameEntity e (e.setColumn value column) := by
  cases column <;> exact ⟨rfl, fun t ↦ by cases t <;> rfl⟩

theorem sameEntity_mergeColumn (source : Source) (values : Record)
    (state : Entity × Dict Field Source) (column : Column) :
    SameEntity state.1 (mergeColumn source values state column).1 := by
  unfold mergeColumn
  dsimp only
  split_ifs
  · exact .refl _
  · exact .refl _
  · exact sameEntity_setColumn ..
  · exact .refl _

theorem sameEntity_mergeFields (e : Entity) (values : Record) (source : Source) :
    SameEntity e (mergeFields e values source) := by
  have hfold (columns : List Column) (state : Entity × Dict Field Source) :
      SameEntity state.1 (columns.foldl (mergeColumn source values) state).1 := by
    induction columns generalizing state with
    | nil => exact .refl _
    | cons column columns ih =>
      rw [List.foldl_cons]
      exact (sameEntity_mergeColumn source values state column).trans (ih _)
  have h := hfold Column.all (e, e.fieldSources)
  exact ⟨h.kind, fun t ↦ (by cases t <;> rfl : _ = _).trans (h.canonicalId t)⟩

theorem sameEntity_copyField (e e' : Entity) (field : Field) : SameEntity e (copyField e e' field) := by
  rcases field with (_ | _ | _) | key <;> exact ⟨rfl, fun t ↦ by cases t <;> rfl⟩

theorem sameEntity_keepProtected {aliasRow rootRow rootRow' : Entity} {field : Field}
    (h : keepProtected aliasRow rootRow field = .ok rootRow') : SameEntity rootRow rootRow' := by
  unfold keepProtected at h
  split_ifs at h
  · obtain rfl := Except.ok.inj h
    have hcopy := sameEntity_copyField rootRow aliasRow field
    exact ⟨hcopy.kind, fun t ↦ (by cases t <;> rfl : _ = _).trans (hcopy.canonicalId t)⟩
  · obtain rfl := Except.ok.inj h
    exact .refl _

theorem sameEntity_mergedRoot {contributor : Contributor} {aliasRow rootRow rootRow' : Entity}
    (h : mergedRoot contributor aliasRow rootRow = .ok rootRow') : SameEntity rootRow rootRow' := by
  unfold mergedRoot at h
  obtain ⟨kept, hkept, h⟩ := bind_eq_ok.mp h
  have hprotected : SameEntity rootRow kept :=
    rel_of_foldlM_eq_ok (R := SameEntity) .refl .trans (fun _ _ _ ↦ sameEntity_keepProtected) hkept
  have hmerge := hprotected.trans
    (sameEntity_mergeFields kept (missingFields aliasRow kept) tvdbSource)
  change (if _ then _ else _) = _ at h
  split_ifs at h
  · obtain rfl := Except.ok.inj h
    exact ⟨hmerge.kind, fun t ↦ (by cases t <;> rfl : _ = _).trans (hmerge.canonicalId t)⟩
  · obtain rfl := Except.ok.inj h
    exact hmerge

end records

section tables

/-- The entity that an entity of the tables stands for. -/
def Tables.target (c : Tables) (id : ℕ) : Option ℕ := (c.entities.get id).bind aliasTarget

/-- The contributor that an entity of the tables is, itself or as an alias. -/
def Tables.root (c : Tables) (id : ℕ) : ℕ := Aliases.root c.target id

/-- Aliases lead to roots of their own kind, and identifiers to one root each. -/
structure Canonical (c : Tables) : Prop where
  kinds : ∀ id e, c.entities.get id = some e → KindsAgree e
  flat : Flat c.target
  roots : ∀ id e r, c.entities.get id = some e → aliasTarget e = some r →
    ∃ root, c.entities.get r = some root ∧ root.kind = e.kind
  owners : ∀ m ∈ c.identities, ∃ e, c.entities.get m.entityId = some e ∧ aliasTarget e = none ∧
    e.kind ∈ namespaceKinds m.identity.provider
  unique : (c.identities.map Mapping.identity).Nodup

theorem canonical_empty : Canonical empty where
  kinds id e h := by cases h
  flat id r h := by cases h
  roots id e r h := by cases h
  owners m h := by cases h
  unique := List.nodup_nil

/-- A bridge that joins two different roots of one kind. -/
structure Joins (c : Tables) (t : Contributor) (aliasId rootId : ℕ)
    (aliasRow rootRow merged : Entity) : Prop where
  ne : aliasId ≠ rootId
  getAlias : c.entities.get aliasId = some aliasRow
  getRoot : c.entities.get rootId = some rootRow
  aliasIsRoot : aliasTarget aliasRow = none
  rootIsRoot : aliasTarget rootRow = none
  aliasKind : aliasRow.kind = t.kind
  rootKind : rootRow.kind = t.kind
  merged : SameEntity rootRow merged

/-- One change of the tables: of the fields of an entity, a new entity, a new identifier of a root,
or an alias for a root. -/
inductive Change (c : Tables) : Tables → Prop
  | edit (id : ℕ) (f : Entity → Entity) (hf : ∀ e, SameEntity e (f e)) :
    Change c { c with entities := c.entities.modifyAt id f }
  | insert (e : Entity) (he : KindsAgree e) (hroot : aliasTarget e = none) :
    Change c { c with entities := c.entities.insert e }
  | bind (x : Identity) (entityId : ℕ) (source : Source) (e : Entity)
    (hget : c.entities.get entityId = some e) (hroot : aliasTarget e = none)
    (hkind : e.kind ∈ namespaceKinds x.provider) (hnew : c.mapping x = none) :
    Change c { c with identities := c.identities ++ [⟨x, entityId, source⟩] }
  | bridge (t : Contributor) (aliasId rootId : ℕ) (aliasRow rootRow merged : Entity)
    (hjoins : Joins c t aliasId rootId aliasRow rootRow merged) :
    Change c (c.bridge t aliasId rootId merged)

/-- Nothing that the tables held is lost: entities keep their kinds, what led to one contributor
leads to one contributor, and an identifier to the one that its entity has become. -/
structure Extends (c c' : Tables) : Prop where
  entities : ∀ id e, c.entities.get id = some e → ∃ e', c'.entities.get id = some e' ∧ e'.kind = e.kind
  root_root : ∀ id, c'.root (c.root id) = c'.root id
  identities : ∀ m ∈ c.identities, ∃ m' ∈ c'.identities,
    m'.identity = m.identity ∧ m'.entityId = c'.root m.entityId

variable {c c' c'' : Tables}

theorem Canonical.extends_refl (h : Canonical c) : Extends c c where
  entities id e he := ⟨e, he, rfl⟩
  root_root := h.flat.root_root
  identities m hm := by
    obtain ⟨e, he, htarget, -⟩ := h.owners m hm
    have hnone : c.target m.entityId = none := by rw [Tables.target, he, Option.bind_some, htarget]
    exact ⟨m, hm, rfl, (root_of_none hnone).symm⟩

theorem Extends.trans (h : Extends c c') (h' : Extends c' c'') : Extends c c'' where
  entities id e he := by
    obtain ⟨e', he', hkind⟩ := h.entities id e he
    obtain ⟨e'', he'', hkind'⟩ := h'.entities id e' he'
    exact ⟨e'', he'', hkind'.trans hkind⟩
  root_root id := by
    rw [← h'.root_root (c.root id), h.root_root, h'.root_root]
  identities m hm := by
    obtain ⟨m', hm', hidentity, hid⟩ := h.identities m hm
    obtain ⟨m'', hm'', hidentity', hid'⟩ := h'.identities m' hm'
    exact ⟨m'', hm'', hidentity'.trans hidentity, by rw [hid', hid, h'.root_root]⟩

section edit

variable {id : ℕ} {f : Entity → Entity}

theorem get_edit (hf : ∀ e, SameEntity e (f e)) {i : ℕ} {e' : Entity}
    (h : (c.entities.modifyAt id f).get i = some e') :
    ∃ e, c.entities.get i = some e ∧ SameEntity e e' := by
  rw [Table.modifyAt, Table.get_modify, Option.map_eq_some_iff] at h
  obtain ⟨e, he, rfl⟩ := h
  refine ⟨e, he, ?_⟩
  by_cases hi : i = id
  · rw [if_pos hi]
    exact hf e
  · rw [if_neg hi]
    exact .refl e

theorem exists_get_edit (id : ℕ) (hf : ∀ e, SameEntity e (f e)) {i : ℕ} {e : Entity}
    (h : c.entities.get i = some e) :
    ∃ e', (c.entities.modifyAt id f).get i = some e' ∧ SameEntity e e' := by
  rw [Table.modifyAt, Table.get_modify, h, Option.map_some]
  refine ⟨_, rfl, ?_⟩
  by_cases hi : i = id
  · rw [if_pos hi]
    exact hf e
  · rw [if_neg hi]
    exact .refl e

theorem target_edit (hf : ∀ e, SameEntity e (f e)) :
    Tables.target { c with entities := c.entities.modifyAt id f } = c.target := by
  funext i
  rw [Tables.target, Tables.target]
  change ((c.entities.modifyAt id f).get i).bind aliasTarget = _
  cases h : c.entities.get i with
  | none => rw [Table.modifyAt, Table.get_modify, h, Option.map_none]
  | some e =>
    obtain ⟨e', he', hsame⟩ := exists_get_edit id hf h
    rw [he', Option.bind_some, Option.bind_some, hsame.aliasTarget]

theorem Canonical.edit (h : Canonical c) (hf : ∀ e, SameEntity e (f e)) :
    Canonical { c with entities := c.entities.modifyAt id f } where
  kinds i e' he' := by
    obtain ⟨e, he, hsame⟩ := get_edit hf he'
    exact hsame.kindsAgree (h.kinds i e he)
  flat := by
    rw [target_edit hf]
    exact h.flat
  roots i e' r he' hr := by
    obtain ⟨e, he, hsame⟩ := get_edit hf he'
    rw [hsame.aliasTarget] at hr
    obtain ⟨root, hroot, hkind⟩ := h.roots i e r he hr
    obtain ⟨root', hroot', hsame'⟩ := exists_get_edit id hf hroot
    exact ⟨root', hroot', by rw [hsame'.kind, hkind, hsame.kind]⟩
  owners m hm := by
    obtain ⟨e, he, htarget, hkind⟩ := h.owners m hm
    obtain ⟨e', he', hsame⟩ := exists_get_edit id hf he
    exact ⟨e', he', hsame.aliasTarget.trans htarget, hsame.kind ▸ hkind⟩
  unique := h.unique

theorem Canonical.extends_edit (h : Canonical c) (hf : ∀ e, SameEntity e (f e)) :
    Extends c { c with entities := c.entities.modifyAt id f } where
  entities i e he := by
    obtain ⟨e', he', hsame⟩ := exists_get_edit id hf he
    exact ⟨e', he', hsame.kind⟩
  root_root i := by
    change Aliases.root _ (Aliases.root c.target i) = Aliases.root _ i
    rw [target_edit hf]
    exact h.flat.root_root i
  identities m hm := by
    rw [Tables.root, target_edit hf]
    exact h.extends_refl.identities m hm

end edit

section insert

variable {e : Entity}

theorem target_insert (hroot : aliasTarget e = none) :
    Tables.target { c with entities := c.entities.insert e } = c.target := by
  funext i
  rw [Tables.target, Tables.target]
  change ((c.entities.insert e).get i).bind aliasTarget = _
  rw [Table.get_insert]
  split_ifs with hi
  · rw [hi, Table.get_next, Option.bind_some, hroot, Option.bind_none]
  · rfl

theorem get_insert_of_get {i : ℕ} {e' : Entity} (h : c.entities.get i = some e') :
    (c.entities.insert e).get i = some e' := by
  rw [Table.get_insert, if_neg, h]
  rintro rfl
  rw [Table.get_next] at h
  cases h

theorem Canonical.insert (h : Canonical c) (he : KindsAgree e) (hroot : aliasTarget e = none) :
    Canonical { c with entities := c.entities.insert e } where
  kinds i e' he' := by
    change (c.entities.insert e).get i = some e' at he'
    rw [Table.get_insert] at he'
    split_ifs at he' with hi
    · obtain rfl := Option.some.inj he'
      exact he
    · exact h.kinds i e' he'
  flat := by
    rw [target_insert hroot]
    exact h.flat
  roots i e' r he' hr := by
    change (c.entities.insert e).get i = some e' at he'
    rw [Table.get_insert] at he'
    split_ifs at he' with hi
    · obtain rfl := Option.some.inj he'
      rw [hroot] at hr
      cases hr
    · obtain ⟨root, hget, hkind⟩ := h.roots i e' r he' hr
      exact ⟨root, get_insert_of_get hget, hkind⟩
  owners m hm := by
    obtain ⟨e', he', htarget⟩ := h.owners m hm
    exact ⟨e', get_insert_of_get he', htarget⟩
  unique := h.unique

theorem Canonical.extends_insert (h : Canonical c) (hroot : aliasTarget e = none) :
    Extends c { c with entities := c.entities.insert e } where
  entities i e' he' := ⟨e', get_insert_of_get he', rfl⟩
  root_root i := by
    change Aliases.root _ (Aliases.root c.target i) = Aliases.root _ i
    rw [target_insert hroot]
    exact h.flat.root_root i
  identities m hm := by
    rw [Tables.root, target_insert hroot]
    exact h.extends_refl.identities m hm

end insert

section bind

variable {x : Identity} {entityId : ℕ} {source : Source} {e : Entity}

theorem mapping_eq_none : c.mapping x = none ↔ ∀ m ∈ c.identities, m.identity ≠ x := by
  simp only [Tables.mapping, List.find?_eq_none, decide_eq_true_eq]

theorem mapping_eq_some {m : Mapping} (h : c.mapping x = some m) :
    m ∈ c.identities ∧ m.identity = x :=
  ⟨List.mem_of_find?_eq_some h, by simpa using List.find?_some h⟩

theorem Canonical.bind (h : Canonical c) (hget : c.entities.get entityId = some e)
    (hroot : aliasTarget e = none) (hkind : e.kind ∈ namespaceKinds x.provider)
    (hnew : c.mapping x = none) :
    Canonical { c with identities := c.identities ++ [⟨x, entityId, source⟩] } where
  kinds := h.kinds
  flat := h.flat
  roots := h.roots
  owners m hm := by
    obtain hm | hm := List.mem_append.mp hm
    · exact h.owners m hm
    · obtain rfl := List.mem_singleton.mp hm
      exact ⟨e, hget, hroot, hkind⟩
  unique := by
    rw [List.map_append, List.map_singleton, List.nodup_append]
    refine ⟨h.unique, List.nodup_singleton _, ?_⟩
    intro y hy z hz
    obtain ⟨m, hm, rfl⟩ := List.mem_map.mp hy
    obtain rfl := List.mem_singleton.mp hz
    exact mapping_eq_none.mp hnew m hm

theorem Canonical.extends_bind (h : Canonical c) :
    Extends c { c with identities := c.identities ++ [⟨x, entityId, source⟩] } where
  entities i e he := ⟨e, he, rfl⟩
  root_root := h.flat.root_root
  identities m hm := by
    obtain ⟨m', hm', hsame⟩ := h.extends_refl.identities m hm
    exact ⟨m', List.mem_append_left _ hm', hsame⟩

end bind

section bridge

variable {t : Contributor} {aliasId rootId : ℕ} {aliasRow rootRow merged : Entity}

theorem canonicalId_setCanonicalId (t : Contributor) (id : ℕ) (e : Entity) :
    t.canonicalId (t.setCanonicalId id e) = some id := by
  cases t <;> rfl

theorem kind_setCanonicalId (t : Contributor) (id : ℕ) (e : Entity) :
    (t.setCanonicalId id e).kind = e.kind := by
  cases t <;> rfl

theorem KindsAgree.setCanonicalId {e : Entity} (he : KindsAgree e) (hkind : e.kind = t.kind)
    (id : ℕ) : KindsAgree (t.setCanonicalId id e) := by
  intro t' ht'
  rw [kind_setCanonicalId]
  by_cases h : t' = t
  · rw [h, hkind]
  · refine he t' ?_
    cases t <;> cases t' <;> first | exact absurd rfl h | exact ht'

variable (hjoins : Joins c t aliasId rootId aliasRow rootRow merged)

theorem get_bridge (i : ℕ) : (c.bridge t aliasId rootId merged).entities.get i =
    (c.entities.get i).map fun e ↦
      let e := if i = rootId then merged else e
      let e := if i = aliasId then t.setCanonicalId rootId e else e
      if t.canonicalId e = some aliasId then t.setCanonicalId rootId e else e := by
  simp only [Tables.bridge, Table.modifyAt, Table.get_modify, Option.map_map, Function.comp_def]

include hjoins

theorem Joins.canonicalId_merged (h : Canonical c) : t.canonicalId merged = none := by
  rw [hjoins.merged.canonicalId,
    ← (h.kinds _ _ hjoins.getRoot).aliasTarget_eq hjoins.rootKind, hjoins.rootIsRoot]

theorem Joins.get_root (h : Canonical c) :
    (c.bridge t aliasId rootId merged).entities.get rootId = some merged := by
  simp [get_bridge, hjoins.getRoot, hjoins.ne.symm, hjoins.canonicalId_merged h]

theorem Joins.get_alias : (c.bridge t aliasId rootId merged).entities.get aliasId =
    some (t.setCanonicalId rootId aliasRow) := by
  simp [get_bridge, hjoins.getAlias, hjoins.ne, hjoins.ne.symm, canonicalId_setCanonicalId]

omit hjoins in
theorem get_bridge_of_ne {i : ℕ} (halias : i ≠ aliasId) (hroot : i ≠ rootId) :
    (c.bridge t aliasId rootId merged).entities.get i = (c.entities.get i).map fun e ↦
      if t.canonicalId e = some aliasId then t.setCanonicalId rootId e else e := by
  simp [get_bridge, halias, hroot]

/-- What a bridge makes of an entity: the same, or an alias of the root where it was the alias or
stood for it. -/
theorem Joins.exists_get (h : Canonical c) {i : ℕ} {e : Entity} (hget : c.entities.get i = some e) :
    ∃ e', (c.bridge t aliasId rootId merged).entities.get i = some e' ∧ KindsAgree e' ∧
      e'.kind = e.kind ∧ aliasTarget e' = redirect c.target aliasId rootId i := by
  have htarget : c.target i = aliasTarget e := by rw [Tables.target, hget, Option.bind_some]
  by_cases halias : i = aliasId
  · subst halias
    obtain rfl : e = aliasRow := Option.some.inj (hget.symm.trans hjoins.getAlias)
    have hkinds := (h.kinds _ _ hget).setCanonicalId hjoins.aliasKind rootId
    refine ⟨_, hjoins.get_alias, hkinds, kind_setCanonicalId .., ?_⟩
    rw [hkinds.aliasTarget_eq ((kind_setCanonicalId ..).trans hjoins.aliasKind),
      canonicalId_setCanonicalId, redirect, if_pos (.inl rfl)]
  by_cases hroot : i = rootId
  · subst hroot
    obtain rfl : e = rootRow := Option.some.inj (hget.symm.trans hjoins.getRoot)
    refine ⟨_, hjoins.get_root h, hjoins.merged.kindsAgree (h.kinds _ _ hget), hjoins.merged.kind, ?_⟩
    rw [hjoins.merged.aliasTarget, hjoins.rootIsRoot,
      redirect_eq_none (htarget.trans hjoins.rootIsRoot) halias]
  · rw [get_bridge_of_ne halias hroot, hget, Option.map_some]
    refine ⟨_, rfl, ?_⟩
    by_cases hid : t.canonicalId e = some aliasId
    · have hkind : e.kind = t.kind :=
        h.kinds _ _ hget t fun hnone ↦ Option.some_ne_none _ (hid.symm.trans hnone)
      have hkinds := (h.kinds _ _ hget).setCanonicalId hkind rootId
      have hold : c.target i = some aliasId := by
        rw [htarget, (h.kinds _ _ hget).aliasTarget_eq hkind, hid]
      rw [if_pos hid]
      refine ⟨hkinds, kind_setCanonicalId .., ?_⟩
      rw [hkinds.aliasTarget_eq ((kind_setCanonicalId ..).trans hkind), canonicalId_setCanonicalId,
        redirect, if_pos (.inr hold)]
    · rw [if_neg hid]
      refine ⟨h.kinds _ _ hget, rfl, ?_⟩
      rw [redirect, if_neg, htarget]
      rintro (hi | hi)
      · exact halias hi
      · rw [htarget] at hi
        obtain ⟨root, hget', hkind'⟩ := h.roots _ _ _ hget hi
        obtain rfl : root = aliasRow := Option.some.inj (hget'.symm.trans hjoins.getAlias)
        rw [(h.kinds _ _ hget).aliasTarget_eq (hkind'.symm.trans hjoins.aliasKind)] at hi
        exact hid hi

theorem Joins.of_get (h : Canonical c) {i : ℕ} {e' : Entity}
    (hget : (c.bridge t aliasId rootId merged).entities.get i = some e') :
    ∃ e, c.entities.get i = some e ∧ KindsAgree e' ∧ e'.kind = e.kind ∧
      aliasTarget e' = redirect c.target aliasId rootId i := by
  cases hold : c.entities.get i with
  | none =>
    rw [get_bridge, hold] at hget
    cases hget
  | some e =>
    obtain ⟨e'', hget'', hprops⟩ := hjoins.exists_get h hold
    obtain rfl := Option.some.inj (hget''.symm.trans hget)
    exact ⟨e, rfl, hprops⟩

theorem Joins.target (h : Canonical c) : (c.bridge t aliasId rootId merged).target =
    redirect c.target aliasId rootId := by
  funext i
  rw [Tables.target]
  cases hold : c.entities.get i with
  | none =>
    have hne (id : ℕ) (e : Entity) (he : c.entities.get id = some e) : i ≠ id := by
      rintro rfl
      exact Option.some_ne_none e (he.symm.trans hold)
    rw [get_bridge, hold, Option.map_none, Option.bind_none, redirect_eq_none]
    · rw [Tables.target, hold, Option.bind_none]
    · exact hne _ _ hjoins.getAlias
  | some e =>
    obtain ⟨e', hget, -, -, htarget⟩ := hjoins.exists_get h hold
    rw [hget, Option.bind_some, htarget]

omit hjoins in
theorem Canonical.target_of_isRoot {i : ℕ} {e : Entity} (hget : c.entities.get i = some e)
    (hroot : aliasTarget e = none) : c.target i = none := by
  rw [Tables.target, hget, Option.bind_some, hroot]

theorem Canonical.bridge (h : Canonical c) : Canonical (c.bridge t aliasId rootId merged) where
  kinds i e' he' := by
    obtain ⟨e, -, hkinds, -⟩ := hjoins.of_get h he'
    exact hkinds
  flat := by
    rw [hjoins.target h]
    exact h.flat.redirect (target_of_isRoot hjoins.getRoot hjoins.rootIsRoot) hjoins.ne.symm
  roots i e' r he' hr := by
    obtain ⟨e, he, -, hkind, htarget⟩ := hjoins.of_get h he'
    rw [htarget, redirect] at hr
    split_ifs at hr with hi
    · obtain rfl := Option.some.inj hr
      refine ⟨merged, hjoins.get_root h, ?_⟩
      rw [hjoins.merged.kind, hjoins.rootKind, hkind]
      obtain rfl | hi := hi
      · rw [Option.some.inj (he.symm.trans hjoins.getAlias), hjoins.aliasKind]
      · rw [Tables.target, he, Option.bind_some] at hi
        obtain ⟨root, hget, hroot⟩ := h.roots i e _ he hi
        rw [← hroot, Option.some.inj (hget.symm.trans hjoins.getAlias), hjoins.aliasKind]
    · rw [Tables.target, he, Option.bind_some] at hr
      obtain ⟨root, hget, hroot⟩ := h.roots i e r he hr
      obtain ⟨root', hget', -, hkind', -⟩ := hjoins.exists_get h hget
      exact ⟨root', hget', by rw [hkind', hroot, hkind]⟩
  owners m hm := by
    obtain ⟨m, hold, rfl⟩ := List.mem_map.mp hm
    obtain ⟨e, he, htarget, hkind⟩ := h.owners m hold
    by_cases hid : m.entityId = aliasId
    · rw [if_pos hid]
      refine ⟨merged, hjoins.get_root h, ?_, ?_⟩
      · rw [hjoins.merged.aliasTarget, hjoins.rootIsRoot]
      · rw [hid] at he
        obtain rfl := Option.some.inj (he.symm.trans hjoins.getAlias)
        rwa [hjoins.merged.kind, hjoins.rootKind, ← hjoins.aliasKind]
    · rw [if_neg hid]
      obtain ⟨e', he', -, hkind', htarget'⟩ := hjoins.exists_get h he
      refine ⟨e', he', ?_, hkind' ▸ hkind⟩
      rw [htarget', redirect_eq_none (target_of_isRoot he htarget) hid]
  unique := by
    have hsame : (c.bridge t aliasId rootId merged).identities.map Mapping.identity =
        c.identities.map Mapping.identity := by
      rw [Tables.bridge, List.map_map]
      refine List.map_congr_left fun m _ ↦ ?_
      rw [Function.comp_apply]
      split_ifs <;> rfl
    rw [hsame]
    exact h.unique

theorem Canonical.extends_bridge (h : Canonical c) :
    Extends c (c.bridge t aliasId rootId merged) where
  entities i e he := by
    obtain ⟨e', he', -, hkind, -⟩ := hjoins.exists_get h he
    exact ⟨e', he', hkind⟩
  root_root i := by
    change Aliases.root _ (Aliases.root c.target i) = Aliases.root _ i
    rw [hjoins.target h]
    exact root_redirect_root h.flat (target_of_isRoot hjoins.getAlias hjoins.aliasIsRoot) i
  identities m hm := by
    obtain ⟨e, he, htarget, -⟩ := h.owners m hm
    have hroot : Aliases.root c.target m.entityId = m.entityId :=
      root_of_none (target_of_isRoot he htarget)
    refine ⟨_, List.mem_map_of_mem hm, ?_, ?_⟩
    · split_ifs <;> rfl
    · change _ = Aliases.root _ m.entityId
      rw [hjoins.target h, root_redirect (target_of_isRoot hjoins.getAlias hjoins.aliasIsRoot), hroot]
      split_ifs <;> rfl

end bridge

section changes

theorem Change.canonical (hchange : Change c c') (h : Canonical c) : Canonical c' := by
  cases hchange with
  | edit id f hf => exact h.edit hf
  | insert e he hroot => exact h.insert he hroot
  | bind x entityId source e hget hroot hkind hnew => exact h.bind hget hroot hkind hnew
  | bridge t aliasId rootId aliasRow rootRow merged hjoins => exact h.bridge hjoins

theorem Change.extends (hchange : Change c c') (h : Canonical c) : Extends c c' := by
  cases hchange with
  | edit id f hf => exact h.extends_edit hf
  | insert e he hroot => exact h.extends_insert hroot
  | bind x entityId source e hget hroot hkind hnew => exact h.extends_bind
  | bridge t aliasId rootId aliasRow rootRow merged hjoins => exact h.extends_bridge hjoins

abbrev Changes : Tables → Tables → Prop := Relation.ReflTransGen Change

theorem Changes.canonical (hchanges : Changes c c') (h : Canonical c) : Canonical c' := by
  induction hchanges with
  | refl => exact h
  | tail _ hchange ih => exact hchange.canonical ih

theorem Changes.extends (hchanges : Changes c c') (h : Canonical c) : Extends c c' := by
  induction hchanges with
  | refl => exact h.extends_refl
  | tail hchanges hchange ih => exact ih.trans (hchange.extends (Changes.canonical hchanges h))

end changes

end tables

section operations

variable {py : Python} {c c' : Tables} {id : ℕ}

/-- An entity that is no alias. -/
def IsRoot (c : Tables) (id : ℕ) : Prop :=
  ∃ e, c.entities.get id = some e ∧ aliasTarget e = none

theorem IsRoot.target (h : IsRoot c id) : c.target id = none := by
  obtain ⟨e, he, hroot⟩ := h
  rw [Tables.target, he, Option.bind_some, hroot]

theorem validateIdentity_eq_ok {x x' : Identity} {kind : Kind}
    (h : validateIdentity py x (some kind) = .ok x') : kind ∈ namespaceKinds x'.provider := by
  simp only [validateIdentity, Option.any_some, decide_eq_true_eq] at h
  split_ifs at h with hempty hkind hstrip
  cases hnative : normalize py x.provider (py.strip x.externalId) with
  | error message => rw [hnative] at h; cases h
  | ok native =>
    rw [hnative] at h
    obtain rfl := Except.ok.inj h
    exact hkind

theorem resolveIdentity_eq_some {x : Identity} {m : Mapping}
    (h : resolveIdentity py c x = .ok (some m)) : m ∈ c.identities := by
  unfold resolveIdentity at h
  cases hx : validateIdentity py x none with
  | error message => rw [hx] at h; cases h
  | ok x' =>
    rw [hx] at h
    exact (mapping_eq_some (Except.ok.inj h)).1

theorem Canonical.isRoot_of_mem (h : Canonical c) {m : Mapping} (hm : m ∈ c.identities) :
    IsRoot c m.entityId := by
  obtain ⟨e, he, hroot, -⟩ := h.owners m hm
  exact ⟨e, he, hroot⟩

/-- What binding an identifier does: nothing where it is bound already. -/
theorem changes_bindIdentity {entityId : ℕ} {x : Identity} {source : Source}
    (hroot : IsRoot c entityId) (h : bindIdentity py c entityId x source = .ok c') :
    Changes c c' ∧ IsRoot c' entityId := by
  obtain ⟨e, he, htarget⟩ := hroot
  unfold bindIdentity at h
  rw [he] at h
  obtain ⟨x', hx', h⟩ := bind_eq_ok.mp h
  obtain ⟨found, hfound, h⟩ := bind_eq_ok.mp h
  cases found with
  | some previous =>
    change (if _ then _ else _) = _ at h
    split_ifs at h
    obtain rfl := Except.ok.inj h
    exact ⟨.refl, e, he, htarget⟩
  | none =>
    change (if _ then _ else _) = _ at h
    split_ifs at h with hmapping
    obtain rfl := Except.ok.inj h
    have hnew : c.mapping x' = none := Option.not_isSome_iff_eq_none.mp hmapping
    exact ⟨.single (.bind x' entityId source e he htarget (validateIdentity_eq_ok hx') hnew),
      e, he, htarget⟩

theorem changes_bridgeMappings (hc : Canonical c) {t : Contributor} {tvdb tmdb : Mapping}
    (htvdb : tvdb ∈ c.identities) (htmdb : tmdb ∈ c.identities)
    (hne : tvdb.entityId ≠ tmdb.entityId) (h : bridgeMappings c t tvdb tmdb = .ok c') :
    Changes c c' := by
  obtain ⟨aliasRow, halias, haliasTarget⟩ := hc.isRoot_of_mem htvdb
  obtain ⟨rootRow, hroot, hrootTarget⟩ := hc.isRoot_of_mem htmdb
  unfold bridgeMappings at h
  simp only [halias, hroot] at h
  split_ifs at h with hinvalid hcontradicts
  obtain ⟨merged, hmerged, h⟩ := bind_eq_ok.mp h
  obtain rfl := Except.ok.inj h
  simp only [ne_eq, not_or, not_not] at hinvalid
  exact .single (.bridge t _ _ aliasRow rootRow merged
    ⟨hne, halias, hroot, haliasTarget, hrootTarget, hinvalid.1, hinvalid.2.1,
      sameEntity_mergedRoot hmerged⟩)

theorem changes_reconcile (hc : Canonical c) {t : Contributor} {identities : List Identity}
    {source : Source} (h : reconcileContributorIdentities py c t identities source = .ok c') :
    Changes c c' := by
  unfold reconcileContributorIdentities at h
  split_ifs at h with hsource
  · obtain rfl := Except.ok.inj h
    exact .refl
  cases hpair : pair t identities with
  | none =>
    rw [hpair] at h
    obtain rfl := Except.ok.inj h
    exact .refl
  | some xy =>
    obtain ⟨x, y⟩ := xy
    rw [hpair] at h
    obtain ⟨_, _, h⟩ := bind_eq_ok.mp h
    cases hx : c.mapping x with
    | none =>
      rw [hx] at h
      obtain rfl := Except.ok.inj h
      exact .refl
    | some tvdb =>
      cases hy : c.mapping y with
      | none =>
        rw [hx, hy] at h
        obtain rfl := Except.ok.inj h
        exact .refl
      | some tmdb =>
        simp only [hx, hy] at h
        split_ifs at h with hsame
        · obtain rfl := Except.ok.inj h
          exact .refl
        · exact changes_bridgeMappings hc (mapping_eq_some hx).1 (mapping_eq_some hy).1 hsame h

theorem changes_reconcileRecord (hc : Canonical c) {values : Record} {source : Source}
    (h : reconcileRecord py c values source = .ok c') : Changes c c' := by
  unfold reconcileRecord at h
  cases ht : Contributor.ofKind values.kind with
  | none =>
    rw [ht] at h
    obtain rfl := Except.ok.inj h
    exact .refl
  | some t =>
    rw [ht] at h
    exact changes_reconcile hc h

theorem isRoot_of_mem_matchedIds (hc : Canonical c) {values : Record} {ids : List ℕ}
    (h : matchedIds py c values = .ok ids) : ∀ id ∈ ids, IsRoot c id := by
  refine rel_of_foldlM_eq_ok (R := fun ids ids' ↦ (∀ id ∈ ids, IsRoot c id) → ∀ id ∈ ids', IsRoot c id)
    (fun _ hids ↦ hids) (fun h h' hids ↦ h' (h hids)) ?_ h (by simp)
  intro ids x ids' hstep hids
  obtain ⟨_, -, hstep⟩ := bind_eq_ok.mp hstep
  obtain ⟨found, hfound, hstep⟩ := bind_eq_ok.mp hstep
  cases found with
  | none =>
    obtain rfl := Except.ok.inj hstep
    exact hids
  | some m =>
    obtain rfl := Except.ok.inj hstep
    intro id hid
    obtain rfl | hid := List.mem_insert_iff.mp hid
    · exact hc.isRoot_of_mem (resolveIdentity_eq_some hfound)
    · exact hids id hid

theorem changes_matchedEntity (hc : Canonical c) {values : Record} {source : Source} {id : ℕ}
    (h : matchedEntity py c values source = .ok (id, c')) : Changes c c' ∧ IsRoot c' id := by
  obtain ⟨ids, hids, h⟩ := bind_eq_ok.mp h
  have hroots := isRoot_of_mem_matchedIds hc hids
  match ids with
  | [] =>
    cases hname : values.name with
    | none => simp [hname] at h
    | some name =>
      simp only [hname] at h
      obtain ⟨rfl, rfl⟩ := Prod.mk.inj (Except.ok.inj h)
      have hkinds : KindsAgree (newEntity values name source) := by
        intro t ht
        cases t <;> exact absurd rfl ht
      refine ⟨.single (.insert _ hkinds rfl), newEntity values name source, ?_, rfl⟩
      rw [Table.get_insert, if_pos rfl]
  | [entityId] =>
    obtain ⟨e, he, hroot⟩ := hroots entityId (List.mem_singleton_self _)
    simp only [he] at h
    split_ifs at h
    obtain ⟨rfl, rfl⟩ := Prod.mk.inj (Except.ok.inj h)
    exact ⟨.refl, e, he, hroot⟩
  | _ :: _ :: _ => cases h

theorem isRoot_edit {id i : ℕ} {f : Entity → Entity} (hf : ∀ e, SameEntity e (f e))
    (h : IsRoot c i) : IsRoot { c with entities := c.entities.modifyAt id f } i := by
  obtain ⟨e, he, hroot⟩ := h
  obtain ⟨e', he', hsame⟩ := exists_get_edit id hf he
  exact ⟨e', he', hsame.aliasTarget.trans hroot⟩

theorem changes_bindAll {id : ℕ} {identities : List Identity} {source : Source}
    (hroot : IsRoot c id)
    (h : identities.foldlM (fun c x ↦ bindIdentity py c id x source) c = .ok c') : Changes c c' := by
  refine (rel_of_foldlM_eq_ok (R := fun c c' ↦ IsRoot c id → Changes c c' ∧ IsRoot c' id)
    (fun _ hroot ↦ ⟨.refl, hroot⟩) ?_ (fun _ _ _ hstep hroot ↦ changes_bindIdentity hroot hstep)
    h hroot).1
  intro s s' s'' h h' hroot
  obtain ⟨hchanges, hroot'⟩ := h hroot
  obtain ⟨hchanges', hroot''⟩ := h' hroot'
  exact ⟨hchanges.trans hchanges', hroot''⟩

theorem changes_upsertEntity (hc : Canonical c) {values : Record} {source : Source} {id : ℕ}
    (h : upsertEntity py c values source = .ok (id, c')) : Changes c c' := by
  unfold upsertEntity at h
  split_ifs at h
  obtain ⟨c₁, h₁, h⟩ := bind_eq_ok.mp h
  obtain ⟨⟨id', c₂⟩, h₂, h⟩ := bind_eq_ok.mp h
  obtain ⟨c₃, h₃, h⟩ := bind_eq_ok.mp h
  obtain ⟨rfl, rfl⟩ := Prod.mk.inj (Except.ok.inj h)
  have hchanges := changes_reconcileRecord hc h₁
  obtain ⟨hchanges₂, hroot⟩ := changes_matchedEntity (hchanges.canonical hc) h₂
  have hsame (e : Entity) : SameEntity e (mergeFields e values source) := sameEntity_mergeFields ..
  refine (hchanges.trans hchanges₂).trans (.head (.edit id' _ hsame) ?_)
  exact changes_bindAll (isRoot_edit hsame hroot) h₃

theorem changes_verifiedTvdbPerson (hc : Canonical c) {native : String} {raw : RawPerson}
    {linked : Bool} (h : verifiedTvdbPerson py c native raw = .ok (linked, c')) : Changes c c' := by
  unfold verifiedTvdbPerson at h
  split_ifs at h
  cases htmdb : tvdbTmdbPerson py raw with
  | none =>
    rw [htmdb] at h
    obtain ⟨-, rfl⟩ := Prod.mk.inj (Except.ok.inj h)
    exact .refl
  | some tmdb =>
    rw [htmdb] at h
    obtain ⟨c₁, h₁, h⟩ := bind_eq_ok.mp h
    have hchanges := changes_reconcile hc h₁
    obtain ⟨found, hfound, h⟩ := bind_eq_ok.mp h
    cases found with
    | none =>
      obtain ⟨-, rfl⟩ := Prod.mk.inj (Except.ok.inj h)
      exact hchanges
    | some m =>
      obtain ⟨c₂, h₂, h⟩ := bind_eq_ok.mp h
      obtain ⟨-, rfl⟩ := Prod.mk.inj (Except.ok.inj h)
      have hroot := (hchanges.canonical hc).isRoot_of_mem (resolveIdentity_eq_some hfound)
      exact hchanges.trans (changes_bindIdentity hroot h₂).1

theorem sameEntity_correct (changes : Correction) (e : Entity) : SameEntity e (correct changes e) :=
  ⟨rfl, fun t ↦ by cases t <;> rfl⟩

end operations

section runs

variable {py : Python} {c : Tables}

/-- An administrator binds identifiers to roots only. -/
def RootBinding (c : Tables) : Request → Prop
  | .bind entityId _ => c.target entityId = none
  | _ => True

theorem changes_step (hc : Canonical c) {request : Request} (hrequest : RootBinding c request) :
    Changes c (step py c request) := by
  unfold step
  cases hresult : request.result py c with
  | error message => exact .refl
  | ok c' =>
    cases request with
    | upsert values source =>
      cases h : upsertEntity py c values source with
      | error message => rw [Request.result, h] at hresult; cases hresult
      | ok r =>
        rw [Request.result, h] at hresult
        obtain rfl := Except.ok.inj hresult
        exact changes_upsertEntity hc h
    | verify native raw =>
      cases h : verifiedTvdbPerson py c native raw with
      | error message => rw [Request.result, h] at hresult; cases hresult
      | ok r =>
        rw [Request.result, h] at hresult
        obtain rfl := Except.ok.inj hresult
        exact changes_verifiedTvdbPerson hc h
    | bind entityId x =>
      have hroot : IsRoot c entityId := by
        cases hget : c.entities.get entityId with
        | none => rw [Request.result, bindIdentity, hget] at hresult; cases hresult
        | some e =>
          change c.target entityId = none at hrequest
          rw [Tables.target, hget, Option.bind_some] at hrequest
          exact ⟨e, hget, hrequest⟩
      exact (changes_bindIdentity hroot hresult).1
    | correct entityId changes =>
      obtain rfl := Except.ok.inj hresult
      exact .single (.edit entityId _ (sameEntity_correct changes))

theorem changes_run {requests : List Request}
    (h : Throughout (step py) RootBinding c requests) (hc : Canonical c) :
    Changes c (run py c requests) := by
  have hstep (c' : Tables) (request : Request) (hc' : Changes c c')
      (hrequest : RootBinding c' request) : Changes c (step py c' request) :=
    hc'.trans (changes_step (Changes.canonical hc' hc) hrequest)
  exact h.invariant (I := Changes c) .refl hstep

/-- Whatever the records, bridges, bindings and corrections and their order, aliases lead to roots
of their kind, and every identifier belongs to one root. -/
theorem contributors_stay_canonical {requests : List Request}
    (h : Throughout (step py) RootBinding c requests) (hc : Canonical c) :
    Canonical (run py c requests) :=
  (changes_run h hc).canonical hc

/-- Texts without blanks, and digits only of the ten. -/
def plainPython : Python where
  strip := id
  upper := id
  isSpace _ := false
  digits text := if text.toList.all digit then
    some (text.toList.foldl (fun n c ↦ 10 * n + digitValue c) 0) else none
  decimals text := if text.toList.all digit then
    some (text.toList.foldl (fun n c ↦ 10 * n + digitValue c) 0) else none

def personRecord (name : String) (identities : List Identity) : Record :=
  ⟨.person, some name, none, none, .empty, identities⟩

/-- A person of each provider, the bridge between the two and an author of the reviewed person. -/
def bridgedRequests : List Request :=
  [.upsert (personRecord "A. Actor" [⟨"tvdb.person", "7"⟩]) tvdbSource,
   .upsert (personRecord "Ann Actor" [⟨"tmdb.person", "9"⟩]) ⟨"tmdb", by decide⟩,
   .verify "7" ⟨"7", [("IMDB", "nm1"), ("TheMovieDB.com", "9")]⟩,
   .bind 2 ⟨"hardcover.author", "3"⟩]

theorem rootBinding_bridged :
    Throughout (step plainPython) RootBinding empty bridgedRequests := by
  refine ⟨trivial, trivial, trivial, ?_, trivial⟩
  change Tables.target _ 2 = none
  decide +kernel

theorem contributors_stay_canonical_bridged :
    (run plainPython empty bridgedRequests).target 1 = some 2 ∧
      Canonical (run plainPython empty bridgedRequests) :=
  ⟨by decide +kernel, contributors_stay_canonical rootBinding_bridged canonical_empty⟩

/-- No later request splits a contributor, loses one of its identifiers or strands an entity that
stood for it. -/
theorem contributors_never_split {requests : List Request}
    (h : Throughout (step py) RootBinding c requests) (hc : Canonical c) :
    Extends c (run py c requests) :=
  (changes_run h hc).extends hc

theorem contributors_never_split_bridged :
    Extends (run plainPython empty (bridgedRequests.take 2))
      (run plainPython (run plainPython empty (bridgedRequests.take 2)) (bridgedRequests.drop 2)) :=
  contributors_never_split rootBinding_bridged.2.2
    ((changes_run (rootBinding_bridged.take 2) canonical_empty).canonical canonical_empty)

end runs

end AnyList.Catalogue.ContributorIdentities
