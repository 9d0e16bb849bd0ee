import Mathlib.Data.List.Dedup
import Mathlib.Data.List.Sort
import AnyList.Library.Dict

namespace AnyList.Catalogue.ScreenCharacters

open AnyList.Library

/-- The texts of a role: what is left of a label without its remarks, the words of a text in lower
case, the parts of a text between slashes, and a digest. -/
structure Python where
  roleName : String → String
  words : String → String
  splitSlash : String → List String
  digest : String → String

structure CatalogueCredit where
  id : ℕ
  contributorId : ℕ
  provider : String
  characterLabel : Option String
  deriving DecidableEq

structure ScreenCharacter where
  actorId : ℕ
  roleKey : String
  name : String
  aliases : List String
  deriving DecidableEq

def generic : List String :=
  ["self", "himself", "herself", "themselves", "narrator", "host", "announcer", "voice", "unknown",
    "uncredited", "man", "woman", "boy", "girl", "child", "officer", "police officer", "doctor",
    "guard", "soldier", "reporter", "waiter", "waitress"]

def startsWith (start text : String) : Bool := start.toList.isPrefixOf text.toList

def cut (n : ℕ) (text : String) : String := String.ofList (text.toList.take n)

def sorted (labels : List String) : List String := labels.dedup.insertionSort fun a b ↦ ¬b < a

/-- A row that stands for a role of one title only. -/
def ScreenCharacter.isWork (row : ScreenCharacter) : Bool := startsWith "work:" row.roleKey

namespace Python

variable (py : Python)

def normalizedRole (value : String) : String := py.words (py.roleName value)

def roleParts (value : String) : List String :=
  ((py.splitSlash (py.roleName value)).map py.normalizedRole).filter (· ≠ "")

def reusableRole (value : String) : Bool :=
  py.roleParts value ≠ [] && (py.roleParts value).all fun part ↦
    !(decide (part ∈ generic) || startsWith "self " part || startsWith "himself " part ||
      startsWith "herself " part || startsWith "uncredited " part)

def boundedKey (value : String) : String :=
  if value.length ≤ 500 then value else cut 430 value ++ ":" ++ py.digest value

def label (c : CatalogueCredit) : String := c.characterLabel.elim "" py.roleName

/-- The roles of an actor as the first provider names them. -/
def primary (credits : List CatalogueCredit) (actor : ℕ) : List String :=
  ((credits.filter fun c ↦ decide (c.provider = "tmdb" ∧ c.contributorId = actor ∧
    py.words (py.label c) ≠ "")).map py.label).dedup

/-- The label that a credit is matched by, and all labels that it has. -/
def matched (credits : List CatalogueCredit) (c : CatalogueCredit) : String × List String :=
  let label := py.label c
  match py.primary credits c.contributorId with
  | [canonical] =>
    if c.provider ≠ "tmdb" ∧ py.reusableRole label = true ∧ py.reusableRole canonical = true ∧
        ∃ part ∈ py.roleParts label, part ∈ py.roleParts canonical then
      (canonical, [py.normalizedRole label, py.normalizedRole canonical])
    else (label, [py.normalizedRole label])
  | _ => (label, [py.normalizedRole label])

def workKey (workId : ℕ) (label : String) : String :=
  py.boundedKey ("work:" ++ toString workId ++ ":" ++ py.normalizedRole label)

def key (workId : ℕ) (label : String) : String :=
  if py.reusableRole label then py.boundedKey (py.normalizedRole label) else py.workKey workId label

end Python

/-- The rows that are known so far, the stored ones first, with the index of their keys and of the
labels that may stand for one of them, and the labels that each has been given. -/
structure Plan where
  rows : List ScreenCharacter
  exact : Dict (ℕ × String) ℕ
  aliases : List ((ℕ × String) × ℕ)
  labels : List (List String)
  selected : List (CatalogueCredit × Option ℕ)

namespace Plan

variable (plan : Plan)

def empty : Plan := ⟨[], Dict.empty, [], [], []⟩

def index (row : ScreenCharacter) : Plan :=
  { plan with
    rows := plan.rows ++ [row]
    exact := plan.exact.set (row.actorId, row.roleKey) plan.rows.length
    aliases := plan.aliases ++ if row.isWork then [] else
      row.aliases.map fun label ↦ ((row.actorId, label), plan.rows.length)
    labels := plan.labels ++ [row.aliases] }

def select (c : CatalogueCredit) (row : Option ℕ) : Plan :=
  { plan with selected := plan.selected ++ [(c, row)] }

def matching (actor : ℕ) (key : String) (labels : List String) (reusable : Bool) : List ℕ :=
  match plan.exact.get (actor, key) with
  | some n => [n]
  | none => if reusable then ((plan.aliases.filter fun known ↦
      decide (known.1.1 = actor ∧ known.1.2 ∈ labels)).map Prod.snd).dedup else []

/-- The row at a position gets the labels of a credit. -/
def link (n : ℕ) (labels : List String) : Plan :=
  { plan with
    labels := plan.labels.modify n (· ++ labels)
    aliases := plan.aliases ++ match plan.rows[n]? with
      | some row => if row.isWork then [] else labels.map fun label ↦ ((row.actorId, label), n)
      | none => [] }

def take (py : Python) (workId : ℕ) (credits : List CatalogueCredit) (c : CatalogueCredit) : Plan :=
  if py.normalizedRole (py.label c) = "" then plan.select c none
  else
    let (label, labels) := py.matched credits c
    let key := py.key workId label
    match plan.matching c.contributorId key labels (py.reusableRole label) with
    | [n] => (plan.link n labels).select c (some n)
    | _ => (plan.index ⟨c.contributorId, key, cut 500 label, sorted labels⟩).select c
        (some plan.rows.length)

end Plan

/-- The credits of the first provider come first, each side in the order of the ids. -/
def inOrder (credits : List CatalogueCredit) : List CatalogueCredit :=
  credits.insertionSort fun a b ↦ a.provider = "tmdb" ∧ b.provider ≠ "tmdb" ∨
    (a.provider = "tmdb" ↔ b.provider = "tmdb") ∧ a.id ≤ b.id

/-- The plan of the credits of a title over the stored rows of their actors. -/
def characterPlan (py : Python) (credits : List CatalogueCredit) (registry : List ScreenCharacter)
    (workId : ℕ) : Plan :=
  (inOrder credits).foldl (·.take py workId credits) (registry.foldl Plan.index .empty)

/-- The rows that are stored with other aliases than they had. -/
def Plan.changed (plan : Plan) : List (ℕ × List String) :=
  (plan.rows.zip plan.labels).zipIdx.filterMap fun row ↦
    if sorted row.1.2 = row.1.1.aliases then none else some (row.2, sorted row.1.2)

section plan

variable {py : Python} {workId : ℕ} {credits : List CatalogueCredit} {c : CatalogueCredit}
  {registry : List ScreenCharacter} {plan : Plan} {row : ScreenCharacter} {labels : List String}
  {n : ℕ}

/-- A credit has no role, or a row of its actor that knows its label; a role that is no name of a
character has a row of its title. -/
def Linked (py : Python) (workId : ℕ) (plan : Plan) (x : CatalogueCredit × Option ℕ) : Prop :=
  x.2 = none ∧ py.normalizedRole (py.label x.1) = "" ∨
    ∃ n row labels, x.2 = some n ∧ plan.rows[n]? = some row ∧ plan.labels[n]? = some labels ∧
      row.actorId = x.1.contributorId ∧ py.normalizedRole (py.label x.1) ∈ labels ∧
        (py.reusableRole (py.label x.1) = false → row.roleKey = py.workKey workId (py.label x.1))

/-- The indices of a plan are those of its rows, whose aliases stay theirs. -/
structure Indexed (py : Python) (workId : ℕ) (plan : Plan) : Prop where
  length : plan.labels.length = plan.rows.length
  exact : ∀ (actor : ℕ) (key : String) (n : ℕ), plan.exact.get (actor, key) = some n ↔
    ∃ row, plan.rows[n]? = some row ∧ row.actorId = actor ∧ row.roleKey = key
  aliases : ∀ known ∈ plan.aliases, ∃ row, plan.rows[known.2]? = some row ∧ row.actorId = known.1.1
  kept : ∀ (n : ℕ) (row : ScreenCharacter) (labels : List String), plan.rows[n]? = some row →
    plan.labels[n]? = some labels → row.aliases ⊆ labels
  linked : ∀ x ∈ plan.selected, Linked py workId plan x

theorem mem_sorted {label : String} : label ∈ sorted labels ↔ label ∈ labels := by
  rw [sorted, (List.perm_insertionSort _ _).mem_iff, List.mem_dedup]

theorem indexed_empty : Indexed py workId .empty := by
  refine ⟨rfl, fun actor key n ↦ ?_, fun known h ↦ (by cases h), fun n row labels h ↦ ?_,
    fun x h ↦ (by cases h)⟩
  · constructor
    · intro h
      cases h
    · rintro ⟨row, h, -⟩
      simp [Plan.empty] at h
  · simp [Plan.empty] at h

theorem getElem?_concat_length {α : Type} (l : List α) (a : α) : (l ++ [a])[l.length]? = some a := by
  simp

theorem getElem?_concat_of_some {α : Type} {l : List α} {a b : α} {n : ℕ} (h : l[n]? = some b) :
    (l ++ [a])[n]? = some b := by
  rw [List.getElem?_append_left (List.getElem?_eq_some_iff.mp h).1]
  exact h

theorem getElem?_concat_cases {α : Type} {l : List α} {a b : α} {n : ℕ}
    (h : (l ++ [a])[n]? = some b) : l[n]? = some b ∨ n = l.length ∧ b = a := by
  rw [List.getElem?_append] at h
  split_ifs at h with hlt
  · exact .inl h
  · rw [List.getElem?_singleton] at h
    split_ifs at h with hzero
    · exact .inr ⟨by omega, (Option.some.inj h).symm⟩

theorem Linked.index {x : CatalogueCredit × Option ℕ} (h : Linked py workId plan x)
    (row : ScreenCharacter) : Linked py workId (plan.index row) x := by
  refine h.imp_right fun h ↦ ?_
  obtain ⟨n, known, labels, hx, hknown, hlabels, hrest⟩ := h
  exact ⟨n, known, labels, hx, getElem?_concat_of_some hknown, getElem?_concat_of_some hlabels, hrest⟩

/-- A row whose key is new goes into the indices. -/
theorem Indexed.index (h : Indexed py workId plan) (row : ScreenCharacter)
    (hnew : plan.exact.get (row.actorId, row.roleKey) = none) : Indexed py workId (plan.index row) := by
  refine ⟨?_, fun actor key n ↦ ?_, fun known hknown ↦ ?_, fun n known labels hrow hlabels ↦ ?_,
    fun x hx ↦ (h.linked x hx).index row⟩
  · change (plan.labels ++ [row.aliases]).length = (plan.rows ++ [row]).length
    rw [List.length_append, List.length_append, h.length]
    rfl
  · change (plan.exact.set (row.actorId, row.roleKey) plan.rows.length).get (actor, key) = some n ↔ _
    rw [Dict.get_set]
    by_cases hkey : (actor, key) = (row.actorId, row.roleKey)
    · obtain ⟨rfl, rfl⟩ := Prod.mk.inj hkey
      rw [if_pos rfl, Option.some.injEq]
      constructor
      · rintro rfl
        exact ⟨row, getElem?_concat_length _ _, rfl, rfl⟩
      · rintro ⟨known, hknown, hactor, hrole⟩
        obtain hold | ⟨hn, -⟩ := getElem?_concat_cases hknown
        · rw [(h.exact _ _ n).mpr ⟨known, hold, hactor, hrole⟩] at hnew
          cases hnew
        · exact hn.symm
    · rw [if_neg (Ne.symm hkey), h.exact]
      constructor
      · rintro ⟨known, hknown, hrest⟩
        exact ⟨known, getElem?_concat_of_some hknown, hrest⟩
      · rintro ⟨known, hknown, hactor, hrole⟩
        obtain hold | ⟨-, rfl⟩ := getElem?_concat_cases hknown
        · exact ⟨known, hold, hactor, hrole⟩
        · rw [hactor, hrole] at hkey
          exact absurd rfl hkey
  · obtain hold | hnew := List.mem_append.mp hknown
    · obtain ⟨owner, howner, hactor⟩ := h.aliases known hold
      exact ⟨owner, getElem?_concat_of_some howner, hactor⟩
    · split_ifs at hnew
      · cases hnew
      · obtain ⟨label, -, rfl⟩ := List.mem_map.mp hnew
        exact ⟨row, getElem?_concat_length _ _, rfl⟩
  · obtain hold | ⟨hn, rfl⟩ := getElem?_concat_cases hrow
    · obtain hlabels | ⟨hn, -⟩ := getElem?_concat_cases hlabels
      · exact h.kept n known labels hold hlabels
      · have hlt := (List.getElem?_eq_some_iff.mp hold).1
        have hlength := h.length
        omega
    · obtain hlabels | ⟨-, rfl⟩ := getElem?_concat_cases hlabels
      · have hlt := (List.getElem?_eq_some_iff.mp hlabels).1
        have hlength := h.length
        omega
      · exact List.Subset.refl _

theorem getElem?_labels_link (n m : ℕ) : (plan.link n labels).labels[m]? =
    (plan.labels[m]?).map fun old ↦ if n = m then old ++ labels else old := by
  change (plan.labels.modify n (· ++ labels))[m]? = _
  rw [List.getElem?_modify]
  by_cases h : n = m
  · simp [h]
  · simp [h]

theorem Linked.link {x : CatalogueCredit × Option ℕ} (h : Linked py workId plan x) :
    Linked py workId (plan.link n labels) x := by
  refine h.imp_right fun h ↦ ?_
  obtain ⟨m, known, old, hx, hknown, hold, hactor, hmem, hrest⟩ := h
  refine ⟨m, known, _, hx, hknown, (getElem?_labels_link n m).trans (by rw [hold]; rfl), hactor, ?_,
    hrest⟩
  split_ifs
  · exact List.mem_append_left _ hmem
  · exact hmem

theorem Indexed.link (h : Indexed py workId plan) (n : ℕ) (labels : List String) :
    Indexed py workId (plan.link n labels) := by
  refine ⟨(List.length_modify ..).trans h.length, h.exact, fun known hknown ↦ ?_,
    fun m row after hrow hafter ↦ ?_, fun x hx ↦ (h.linked x hx).link⟩
  · obtain hold | hnew := List.mem_append.mp hknown
    · exact h.aliases known hold
    · cases hrow : plan.rows[n]? with
      | none =>
        rw [hrow] at hnew
        cases hnew
      | some row =>
        rw [hrow] at hnew
        dsimp only at hnew
        split_ifs at hnew
        · cases hnew
        · obtain ⟨label, -, rfl⟩ := List.mem_map.mp hnew
          exact ⟨row, hrow, rfl⟩
  · rw [getElem?_labels_link] at hafter
    obtain ⟨old, hold, rfl⟩ := Option.map_eq_some_iff.mp hafter
    have hsubset := h.kept m row old hrow hold
    split_ifs
    · exact List.Subset.trans hsubset (List.subset_append_left _ _)
    · exact hsubset

theorem Indexed.select (h : Indexed py workId plan) {x : CatalogueCredit × Option ℕ}
    (hx : Linked py workId plan x) : Indexed py workId (plan.select x.1 x.2) := by
  refine ⟨h.length, h.exact, h.aliases, h.kept, fun y hy ↦ ?_⟩
  obtain hy | hy := List.mem_append.mp hy
  · exact h.linked y hy
  · rw [List.mem_singleton.mp hy]
    exact hx

/-- A matching row belongs to the actor, and has the key that was looked for or a known label. -/
theorem Indexed.of_matching (h : Indexed py workId plan) {actor : ℕ} {key : String} {reusable : Bool}
    (hn : plan.matching actor key labels reusable = [n]) :
    ∃ row, plan.rows[n]? = some row ∧ row.actorId = actor ∧
      (reusable = false → row.roleKey = key) := by
  unfold Plan.matching at hn
  cases hexact : plan.exact.get (actor, key) with
  | some m =>
    rw [hexact] at hn
    obtain rfl := List.singleton_inj.mp hn
    obtain ⟨row, hrow, hactor, hkey⟩ := (h.exact actor key m).mp hexact
    exact ⟨row, hrow, hactor, fun _ ↦ hkey⟩
  | none =>
    rw [hexact] at hn
    dsimp only at hn
    split_ifs at hn with hreusable
    have hmem : n ∈ ((plan.aliases.filter fun known ↦
        decide (known.1.1 = actor ∧ known.1.2 ∈ labels)).map Prod.snd).dedup := by
      rw [hn]
      exact List.mem_singleton_self n
    obtain ⟨known, hknown, rfl⟩ := List.mem_map.mp (List.mem_dedup.mp hmem)
    obtain ⟨hknown, hactor⟩ := List.mem_filter.mp hknown
    obtain ⟨row, hrow, howner⟩ := h.aliases known hknown
    refine ⟨row, hrow, howner.trans (of_decide_eq_true hactor).1, fun hfalse ↦ ?_⟩
    rw [hreusable] at hfalse
    cases hfalse

theorem matched_cases (py : Python) (credits : List CatalogueCredit) (c : CatalogueCredit) :
    py.normalizedRole (py.label c) ∈ (py.matched credits c).2 ∧
      (py.reusableRole (py.label c) = false → (py.matched credits c).1 = py.label c) := by
  unfold Python.matched
  dsimp only
  split
  · split_ifs with h
    · refine ⟨List.mem_cons_self, fun hfalse ↦ ?_⟩
      rw [h.2.1] at hfalse
      cases hfalse
    · exact ⟨List.mem_singleton_self _, fun _ ↦ rfl⟩
  · exact ⟨List.mem_singleton_self _, fun _ ↦ rfl⟩

/-- A credit goes to a row of its actor, or to a new one. -/
theorem Indexed.take (h : Indexed py workId plan) (credits : List CatalogueCredit)
    (c : CatalogueCredit) : Indexed py workId (plan.take py workId credits c) := by
  obtain ⟨hlabel, hown⟩ := matched_cases py credits c
  unfold Plan.take
  split_ifs with hblank
  · exact h.select (x := (c, none)) (.inl ⟨rfl, hblank⟩)
  have hkey (hfalse : py.reusableRole (py.label c) = false) :
      py.reusableRole (py.matched credits c).1 = false ∧
        py.key workId (py.matched credits c).1 = py.workKey workId (py.label c) := by
    rw [hown hfalse]
    exact ⟨hfalse, by rw [Python.key, hfalse]; rfl⟩
  dsimp only
  split
  · rename_i n hmatching
    obtain ⟨row, hrow, hactor, hrole⟩ := h.of_matching hmatching
    obtain ⟨old, hold⟩ : ∃ old, plan.labels[n]? = some old := by
      have hlt := (List.getElem?_eq_some_iff.mp hrow).1
      rw [← h.length] at hlt
      exact ⟨_, List.getElem?_eq_getElem hlt⟩
    refine (h.link n _).select (x := (c, some n)) (.inr ⟨n, row, old ++ (py.matched credits c).2, rfl,
      hrow, ?_, hactor, List.mem_append_right _ hlabel, fun hfalse ↦ ?_⟩)
    · rw [getElem?_labels_link, hold, Option.map_some, if_pos rfl]
    · rw [hrole (hkey hfalse).1, (hkey hfalse).2]
  · rename_i hmatching
    have hnew : plan.exact.get (c.contributorId, py.key workId (py.matched credits c).1) = none := by
      cases hexact : plan.exact.get (c.contributorId, py.key workId (py.matched credits c).1) with
      | none => rfl
      | some n =>
        refine absurd ?_ (hmatching n)
        unfold Plan.matching
        rw [hexact]
    have hindexed := h.index ⟨c.contributorId, py.key workId (py.matched credits c).1,
      cut 500 (py.matched credits c).1, sorted (py.matched credits c).2⟩ hnew
    refine hindexed.select (x := (c, some plan.rows.length)) (.inr ⟨_, _, _, rfl,
      getElem?_concat_length _ _, ?_, rfl, mem_sorted.mpr hlabel, fun hfalse ↦ (hkey hfalse).2⟩)
    rw [← h.length]
    exact getElem?_concat_length _ _

theorem indexed_registry (py : Python) (workId : ℕ)
    (hkeys : (registry.map fun row ↦ (row.actorId, row.roleKey)).Nodup) :
    Indexed py workId (registry.foldl Plan.index .empty) ∧
      (registry.foldl Plan.index .empty).rows = registry := by
  induction registry using List.reverseRecOn with
  | nil => exact ⟨indexed_empty, rfl⟩
  | append_singleton registry row ih =>
    rw [List.map_append, List.nodup_append] at hkeys
    obtain ⟨hold, -, hapart⟩ := hkeys
    obtain ⟨hindexed, hrows⟩ := ih hold
    rw [List.foldl_append, List.foldl_cons, List.foldl_nil]
    refine ⟨hindexed.index row ?_, ?_⟩
    · cases hexact : (registry.foldl Plan.index .empty).exact.get (row.actorId, row.roleKey) with
      | none => rfl
      | some n =>
        obtain ⟨known, hknown, hactor, hrole⟩ := (hindexed.exact _ _ n).mp hexact
        rw [hrows] at hknown
        have hmem := List.mem_map_of_mem (f := fun row ↦ (row.actorId, row.roleKey))
          (List.mem_of_getElem? hknown)
        refine absurd ?_ (hapart _ hmem _ (List.mem_singleton_self _))
        rw [hactor, hrole]
    · change (registry.foldl Plan.index .empty).rows ++ [row] = _
      rw [hrows]

/-- A credit adds at most a row after the others, and is selected once. -/
theorem take_adds (py : Python) (workId : ℕ) (plan : Plan) (credits : List CatalogueCredit)
    (c : CatalogueCredit) :
    plan.rows <+: (plan.take py workId credits c).rows ∧
      (plan.take py workId credits c).selected.map Prod.fst = plan.selected.map Prod.fst ++ [c] := by
  have hselected (l : List (CatalogueCredit × Option ℕ)) (row : Option ℕ) :
      (l ++ [(c, row)]).map Prod.fst = l.map Prod.fst ++ [c] := List.map_append
  unfold Plan.take
  split_ifs
  · exact ⟨List.prefix_rfl, hselected _ _⟩
  · dsimp only
    split
    · exact ⟨List.prefix_rfl, hselected _ _⟩
    · exact ⟨List.prefix_append _ _, hselected _ _⟩

theorem foldl_take (credits rest : List CatalogueCredit) (h : Indexed py workId plan) :
    Indexed py workId (rest.foldl (·.take py workId credits) plan) ∧
      plan.rows <+: (rest.foldl (·.take py workId credits) plan).rows ∧
      (rest.foldl (·.take py workId credits) plan).selected.map Prod.fst =
        plan.selected.map Prod.fst ++ rest := by
  induction rest generalizing plan with
  | nil => exact ⟨h, List.prefix_rfl, (List.append_nil _).symm⟩
  | cons c rest ih =>
    obtain ⟨hindexed, hrows, hselected⟩ := ih (h.take credits c)
    obtain ⟨hrows', hselected'⟩ := take_adds py workId plan credits c
    refine ⟨hindexed, hrows'.trans hrows, ?_⟩
    rw [List.foldl_cons, hselected, hselected', List.append_assoc, List.singleton_append]

theorem Indexed.nodup (h : Indexed py workId plan) :
    (plan.rows.map fun row ↦ (row.actorId, row.roleKey)).Nodup := by
  rw [List.nodup_iff_getElem?_ne_getElem?]
  intro i j hlt hj heq
  rw [List.length_map] at hj
  have hi : i < plan.rows.length := by omega
  rw [List.getElem?_map, List.getElem?_map, List.getElem?_eq_getElem hi,
    List.getElem?_eq_getElem hj, Option.map_some, Option.map_some, Option.some.injEq] at heq
  obtain ⟨hactor, hrole⟩ := Prod.mk.inj heq
  have hfirst := (h.exact _ _ i).mpr ⟨_, List.getElem?_eq_getElem hi, hactor, hrole⟩
  have hsecond := (h.exact _ _ j).mpr ⟨_, List.getElem?_eq_getElem hj, rfl, rfl⟩
  rw [hfirst, Option.some.injEq] at hsecond
  omega

/-- The plan of any credits keeps the stored rows where they are and adds rows for other roles only;
each credit is selected once, with a row of its actor that knows its label, and with one of its own
title where the role names no character; and no row loses an alias. -/
theorem characterPlan_keeps (py : Python) (workId : ℕ) (credits : List CatalogueCredit)
    (hkeys : (registry.map fun row ↦ (row.actorId, row.roleKey)).Nodup) :
    registry <+: (characterPlan py credits registry workId).rows ∧
      ((characterPlan py credits registry workId).rows.map
        fun row ↦ (row.actorId, row.roleKey)).Nodup ∧
      ((characterPlan py credits registry workId).selected.map Prod.fst).Perm credits ∧
      (∀ x ∈ (characterPlan py credits registry workId).selected,
        Linked py workId (characterPlan py credits registry workId) x) ∧
      ∀ change ∈ (characterPlan py credits registry workId).changed,
        ∃ row, (characterPlan py credits registry workId).rows[change.1]? = some row ∧
          row.aliases ⊆ change.2 := by
  obtain ⟨hregistry, hrows⟩ := indexed_registry py workId hkeys
  obtain ⟨hindexed, hstart, hselected⟩ := foldl_take credits (inOrder credits) hregistry
  rw [hrows] at hstart
  have hnone : (registry.foldl Plan.index .empty).selected = [] :=
    List.foldlRecOn (motive := fun plan : Plan ↦ plan.selected = []) registry Plan.index rfl
      fun plan hplan row _ ↦ hplan
  rw [hnone, List.map_nil, List.nil_append] at hselected
  refine ⟨hstart, hindexed.nodup, ?_, hindexed.linked, fun change hchange ↦ ?_⟩
  · unfold characterPlan
    rw [hselected]
    exact List.perm_insertionSort _ _
  · obtain ⟨⟨⟨row, labels⟩, n⟩, hmem, hsorted⟩ := List.mem_filterMap.mp hchange
    dsimp only at hsorted
    split_ifs at hsorted
    obtain rfl := Option.some.inj hsorted
    have hzip := List.mem_zipIdx_iff_getElem?.mp hmem
    obtain ⟨hrow, hlabels⟩ := List.getElem?_zip_eq_some.mp hzip
    refine ⟨row, hrow, fun label hlabel ↦ mem_sorted.mpr ?_⟩
    exact hindexed.kept n row labels hrow hlabels hlabel

/-- One stored role of an actor, who is credited under two spellings and as a narrator. -/
def plainPython : Python where
  roleName := id
  words := id
  splitSlash value := [value]
  digest := id

def sampleRegistry : List ScreenCharacter := [⟨1, "spy", "Spy", ["agent", "spy"]⟩]

def sampleCredits : List CatalogueCredit :=
  [⟨2, 1, "tvdb", some "agent"⟩, ⟨1, 1, "tmdb", some "spy"⟩, ⟨3, 1, "tvdb", some "narrator"⟩]

theorem characterPlan_keeps_sample :
    sampleRegistry <+: (characterPlan plainPython sampleCredits sampleRegistry 9).rows ∧
      ((characterPlan plainPython sampleCredits sampleRegistry 9).rows.map
        fun row ↦ (row.actorId, row.roleKey)).Nodup ∧
      ((characterPlan plainPython sampleCredits sampleRegistry 9).selected.map Prod.fst).Perm
        sampleCredits ∧
      (∀ x ∈ (characterPlan plainPython sampleCredits sampleRegistry 9).selected,
        Linked plainPython 9 (characterPlan plainPython sampleCredits sampleRegistry 9) x) ∧
      ∀ change ∈ (characterPlan plainPython sampleCredits sampleRegistry 9).changed,
        ∃ row, (characterPlan plainPython sampleCredits sampleRegistry 9).rows[change.1]? = some row ∧
          row.aliases ⊆ change.2 :=
  characterPlan_keeps plainPython 9 sampleCredits (by decide)

end plan

end AnyList.Catalogue.ScreenCharacters
