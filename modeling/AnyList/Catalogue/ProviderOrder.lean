import AnyList.Catalogue.MergedRecord
import AnyList.Library.Members
import AnyList.Library.RankedCells
import Mathlib.Data.List.Pairwise

namespace AnyList.Catalogue

open AnyList.Library (Dict)
open AnyList.Library.Dict (getEntry)
open AnyList.Library.RankedCells (Cell Outcome Open offer outcome_foldl)
open AnyList.Library.Members (foldl_stationary)
open AnyList.Persistence (Value)

/-- What a field holds, with its recorded source. -/
def Entity.cell (row : Entity) : Field → Cell Value Source
  | .column c => ⟨(row.column c).map .str, row.fieldSources.get (.column c)⟩
  | .attributes key => ⟨row.attributes.get key, row.fieldSources.get (.attributes key)⟩

/-- The value that a record supplies for a field. -/
def Record.supplies (values : Record) : Field → Option Value
  | .column c =>
    if stated (values.column c) = true ∧ ¬ (c = .name ∧ values.placeholderName = true) then
      (values.column c).map .str
    else none
  | .attributes key => (values.attributes.get key).filter hasValue

/-- A field with no known value: nothing is there, or a name that only stands for an identifier. -/
def vacant : Field → Cell Value Source → Bool
  | .column c, ⟨some (.str old), source⟩ =>
    decide (old = "") || (decide (c = .name) && decide (':' ∈ old.toList) && decide (source = none))
  | .column _, _ => true
  | .attributes _, cell => absent cell.value

/-- The image of a person has rules of its own, by which the portrait of one provider is kept. -/
def Ordinary (kind : Kind) (f : Field) : Prop := kind = .person → f ≠ .column .imageUrl

section steps

variable {source : Source} {values : Record} {state : Entity × Dict Field Source}

def columnCell (state : Entity × Dict Field Source) (c : Column) : Cell Value Source :=
  ⟨(state.1.column c).map .str, state.2.get (.column c)⟩

def attributeCell (state : Dict String Value × Dict Field Source) (key : String) :
    Cell Value Source :=
  ⟨state.1.get key, state.2.get (.attributes key)⟩

theorem columnCell_source (state : Entity × Dict Field Source) (c : Column) :
    (columnCell state c).source = state.2.get (.column c) := rfl

/-- One offer to a field, where a record makes one. -/
def offered (kind : Kind) (source : Source) (f : Field) (cell : Cell Value Source) :
    Option Value → Cell Value Source
  | none => cell
  | some v => offer (sourceRank kind) (vacant f · = true) cell (v, source)

@[simp] theorem column_setColumn (row : Entity) (value : String) (c : Column) :
    (row.setColumn value c).column c = some value := by
  cases c <;> rfl

theorem column_setColumn_of_ne (row : Entity) (value : String) {c c' : Column} (h : c ≠ c') :
    (row.setColumn value c).column c' = row.column c' := by
  cases c <;> cases c' <;> first | rfl | exact absurd rfl h

structure SameBeyondColumns (row row' : Entity) : Prop where
  kind : row'.kind = row.kind
  attributes : row'.attributes = row.attributes
  fieldSources : row'.fieldSources = row.fieldSources
  protectedFields : row'.protectedFields = row.protectedFields

theorem sameBeyondColumns_setColumn (row : Entity) (value : String) (c : Column) :
    SameBeyondColumns row (row.setColumn value c) := by
  cases c <;> exact ⟨rfl, rfl, rfl, rfl⟩

theorem mergeColumn_cases (source : Source) (values : Record) (state : Entity × Dict Field Source)
    (c : Column) :
    mergeColumn source values state c = state ∨
      ∃ value, mergeColumn source values state c =
        (state.1.setColumn value c, state.2.set (.column c) source) := by
  obtain ⟨row, sources⟩ := state
  simp only [mergeColumn]
  split
  · exact .inl rfl
  · split
    · exact .inl rfl
    · split
      · exact .inr ⟨_, rfl⟩
      · exact .inl rfl

theorem sameBeyondColumns_mergeColumn (state : Entity × Dict Field Source) (c : Column) :
    SameBeyondColumns state.1 (mergeColumn source values state c).1 := by
  rcases mergeColumn_cases source values state c with h | ⟨value, h⟩
  · rw [h]
    exact ⟨rfl, rfl, rfl, rfl⟩
  · rw [h]
    exact sameBeyondColumns_setColumn state.1 value c

theorem columnCell_mergeColumn_of_ne {c c' : Column} (h : c ≠ c') :
    columnCell (mergeColumn source values state c) c' = columnCell state c' := by
  rcases mergeColumn_cases source values state c with hcase | ⟨value, hcase⟩
  · rw [hcase]
  · rw [hcase, columnCell, columnCell, column_setColumn_of_ne state.1 value h,
      Dict.get_set_of_ne _ _ (by simpa using h)]

theorem get_attribute_mergeColumn (c : Column) (key : String) :
    (mergeColumn source values state c).2.get (.attributes key) = state.2.get (.attributes key) := by
  rcases mergeColumn_cases source values state c with hcase | ⟨value, hcase⟩
  · rw [hcase]
  · rw [hcase, Dict.get_set_of_ne _ _ (by simp)]

theorem exists_of_stated {text : Option String} (h : stated text = true) :
    ∃ value, text = some value ∧ value ≠ "" := by
  simpa [stated, Option.any_eq_true] using h

theorem outranks_iff {kind : Kind} {oldSource : Option Source} :
    outranks kind source oldSource = true ↔
      ∃ old ∈ oldSource, sourceRank kind old ≤ sourceRank kind source := by
  simp [outranks, Option.any_eq_true]

theorem vacant_columnCell_iff {c : Column} :
    vacant (.column c) (columnCell state c) = true ↔
      ¬ stated (state.1.column c) = true ∨
        (c = .name ∧ ':' ∈ ((state.1.column c).getD "").toList ∧ state.2.get (.column c) = none) := by
  rw [columnCell]
  cases state.1.column c with
  | none => simp [vacant, stated]
  | some old => simp [vacant, stated, and_assoc]

theorem columnCell_mergeColumn {c : Column} (h : Ordinary state.1.kind (.column c)) :
    columnCell (mergeColumn source values state c) c =
      if .column c ∈ state.1.protectedFields then columnCell state c
      else offered state.1.kind source (.column c) (columnCell state c)
        (values.supplies (.column c)) := by
  obtain ⟨row, sources⟩ := state
  simp only [mergeColumn]
  by_cases hprotected : .column c ∈ row.protectedFields
  · rw [if_pos (.inr (.inl hprotected)), if_pos hprotected]
  rw [if_neg hprotected]
  by_cases hsupplied : stated (values.column c) = true ∧
      ¬ (c = .name ∧ values.placeholderName = true)
  · obtain ⟨value, hvalue, hne⟩ := exists_of_stated hsupplied.1
    have hthere : ¬ ((values.column c).getD "" = "" ∨ Field.column c ∈ row.protectedFields ∨
        (c = .name ∧ values.placeholderName = true)) := by
      simpa [hvalue, hne, hprotected] using hsupplied.2
    have hkept : ¬ (c = .imageUrl ∧ row.kind = .person ∧ source.name = "tvdb" ∧
        startsWith ((row.column c).getD "") tmdbPortraits = true) := by
      rintro ⟨rfl, hperson, -⟩
      exact h hperson rfl
    have hpreferred : ¬ (c = .imageUrl ∧
        preferredPersonPortrait row ((values.column c).getD "") source = true) := by
      rintro ⟨rfl, hportrait⟩
      have hperson : row.kind = .person := by
        simp only [preferredPersonPortrait, Bool.and_eq_true, decide_eq_true_eq] at hportrait
        exact hportrait.1.1.1.1.1
      exact h hperson rfl
    have hopen := @vacant_columnCell_iff (row, sources) c
    rw [if_neg hthere, if_neg hkept, Record.supplies, if_pos hsupplied, hvalue]
    simp only [Option.map_some, offered, offer, Open, hopen, ← outranks_iff, Option.getD_some]
    rw [hvalue] at hpreferred
    simp only [Option.getD_some] at hpreferred
    simp only [hpreferred, false_or, or_assoc, columnCell_source]
    split
    · simp [columnCell]
    · rfl
  · have hthere : (values.column c).getD "" = "" ∨ Field.column c ∈ row.protectedFields ∨
        (c = .name ∧ values.placeholderName = true) := by
      by_cases hstated : stated (values.column c) = true
      · exact .inr (.inr (not_not.mp fun hnot ↦ hsupplied ⟨hstated, hnot⟩))
      · refine .inl ?_
        cases hvalue : values.column c with
        | none => rfl
        | some value => simpa [stated, hvalue] using hstated
    rw [if_pos hthere, Record.supplies, if_neg hsupplied]
    rfl

/-- A protected column, and one that is known without a recorded source, stays as it is, the image
of a person included. -/
theorem columnCell_mergeColumn_of_kept {c : Column}
    (hsources : state.2.get (.column c) = state.1.fieldSources.get (.column c))
    (h : .column c ∈ state.1.protectedFields ∨
      (¬ vacant (.column c) (columnCell state c) = true ∧ state.2.get (.column c) = none)) :
    columnCell (mergeColumn source values state c) c = columnCell state c := by
  obtain ⟨row, sources⟩ := state
  simp only [mergeColumn]
  split
  · rfl
  · next hthere =>
    split
    · rfl
    · split
      · next hcond =>
        exfalso
        rcases h with hprotected | ⟨hknown, hnone⟩
        · exact hthere (.inr (.inl hprotected))
        · rw [vacant_columnCell_iff] at hknown
          have hrow : row.fieldSources.get (.column c) = none := hsources.symm.trans hnone
          rcases hcond with hold | hold | ⟨rfl, hportrait⟩ | hold
          · exact hknown (.inl hold)
          · exact hknown (.inr hold)
          · simp [preferredPersonPortrait, hrow] at hportrait
          · simp [outranks, show sources.get (.column c) = none from hnone] at hold
      · rfl

theorem mergeAttribute_cases (source : Source) (row : Entity)
    (attributes : Dict String Value × Dict Field Source) (entry : String × Value) :
    mergeAttribute source row attributes entry =
      if hasValue entry.2 = true ∧ .attributes entry.1 ∉ row.protectedFields ∧
          Open (sourceRank row.kind) (vacant (.attributes entry.1) · = true)
            (attributeCell attributes entry.1) source then
        (attributes.1.set entry.1 entry.2, attributes.2.set (.attributes entry.1) source)
      else attributes := by
  obtain ⟨attrs, sources⟩ := attributes
  obtain ⟨key, value⟩ := entry
  have hopen : Open (sourceRank row.kind) (vacant (.attributes key) · = true)
      (attributeCell (attrs, sources) key) source ↔
        absent (attrs.get key) = true ∨
          outranks row.kind source (sources.get (.attributes key)) = true := by
    rw [outranks_iff]
    rfl
  simp only [mergeAttribute, hopen]
  by_cases hthere : ¬ hasValue value = true ∨ Field.attributes key ∈ row.protectedFields
  · rw [if_pos hthere, if_neg]
    rintro ⟨hvalue, hprotected, -⟩
    exact hthere.elim (· hvalue) hprotected
  · obtain ⟨hvalue, hprotected⟩ := not_or.mp hthere
    rw [if_neg hthere]
    refine if_congr ?_ rfl rfl
    exact ⟨fun h ↦ ⟨not_not.mp hvalue, hprotected, h⟩, fun h ↦ h.2.2⟩

variable {row : Entity} {attributes : Dict String Value × Dict Field Source}

theorem get_column_mergeAttribute (entry : String × Value) (c : Column) :
    (mergeAttribute source row attributes entry).2.get (.column c) =
      attributes.2.get (.column c) := by
  rw [mergeAttribute_cases]
  split
  · exact Dict.get_set_of_ne _ _ (by simp)
  · rfl

theorem attributeCell_mergeAttribute_of_ne {entry : String × Value} {key : String}
    (h : entry.1 ≠ key) :
    attributeCell (mergeAttribute source row attributes entry) key =
      attributeCell attributes key := by
  rw [mergeAttribute_cases]
  split
  · rw [attributeCell, Dict.get_set_of_ne _ _ h, Dict.get_set_of_ne _ _ (by simpa using h)]
    rfl
  · rfl

theorem attributeCell_mergeAttribute (key : String) (value : Value) :
    attributeCell (mergeAttribute source row attributes (key, value)) key =
      if .attributes key ∈ row.protectedFields then attributeCell attributes key
      else offered row.kind source (.attributes key) (attributeCell attributes key)
        ((some value).filter hasValue) := by
  rw [mergeAttribute_cases]
  by_cases hprotected : .attributes key ∈ row.protectedFields
  · rw [if_pos hprotected, if_neg fun h ↦ h.2.1 hprotected]
  · rw [if_neg hprotected]
    cases hvalue : hasValue value with
    | false => rw [if_neg (by simp), Option.filter_some_neg (by simp [hvalue]), offered]
    | true =>
      rw [Option.filter_some_pos hvalue]
      simp only [offered, offer, hprotected, not_false_eq_true, true_and]
      split
      · simp [attributeCell]
      · rfl

theorem attributeCell_foldl (entries : List (String × Value))
    (hentries : (entries.map Prod.fst).Nodup) (key : String) :
    attributeCell (entries.foldl (mergeAttribute source row) attributes) key =
      if .attributes key ∈ row.protectedFields then attributeCell attributes key
      else offered row.kind source (.attributes key) (attributeCell attributes key)
        ((getEntry key entries).filter hasValue) := by
  induction entries generalizing attributes with
  | nil => simp [getEntry, offered]
  | cons entry entries ih =>
    obtain ⟨hnot, hentries⟩ := List.nodup_cons.mp hentries
    rw [List.foldl_cons, ih hentries, getEntry]
    by_cases hkey : entry.1 = key
    · subst hkey
      rw [if_pos rfl, Dict.getEntry_eq_none.mpr hnot, Option.filter_none, offered, ite_self]
      exact attributeCell_mergeAttribute entry.1 entry.2
    · rw [if_neg hkey, attributeCell_mergeAttribute_of_ne hkey]

theorem get_column_foldl (entries : List (String × Value)) (c : Column) :
    (entries.foldl (mergeAttribute source row) attributes).2.get (.column c) =
      attributes.2.get (.column c) := by
  induction entries generalizing attributes with
  | nil => rfl
  | cons entry entries ih => rw [List.foldl_cons, ih, get_column_mergeAttribute]

theorem SameBeyondColumns.trans {row₁ row₂ row₃ : Entity} (h : SameBeyondColumns row₁ row₂)
    (h' : SameBeyondColumns row₂ row₃) : SameBeyondColumns row₁ row₃ :=
  ⟨h'.kind.trans h.kind, h'.attributes.trans h.attributes, h'.fieldSources.trans h.fieldSources,
    h'.protectedFields.trans h.protectedFields⟩

theorem sameBeyondColumns_foldl (state : Entity × Dict Field Source) (columns : List Column) :
    SameBeyondColumns state.1 (columns.foldl (mergeColumn source values) state).1 := by
  induction columns generalizing state with
  | nil => exact ⟨rfl, rfl, rfl, rfl⟩
  | cons c columns ih => exact (sameBeyondColumns_mergeColumn state c).trans (ih _)

theorem columnCell_foldl_of_notMem {columns : List Column} {c : Column} (h : c ∉ columns) :
    columnCell (columns.foldl (mergeColumn source values) state) c = columnCell state c := by
  induction columns generalizing state with
  | nil => rfl
  | cons c' columns ih =>
    obtain ⟨hne, hnot⟩ := List.ne_and_not_mem_of_not_mem_cons h
    rw [List.foldl_cons, ih hnot, columnCell_mergeColumn_of_ne hne.symm]

theorem get_attribute_foldl (columns : List Column) (key : String) :
    (columns.foldl (mergeColumn source values) state).2.get (.attributes key) =
      state.2.get (.attributes key) := by
  induction columns generalizing state with
  | nil => rfl
  | cons c columns ih => rw [List.foldl_cons, ih, get_attribute_mergeColumn]

theorem exists_around (c : Column) :
    ∃ before after, Column.all = before ++ c :: after ∧ c ∉ before ∧ c ∉ after := by
  cases c with
  | name => exact ⟨[], [.description, .imageUrl], rfl, by simp, by simp⟩
  | description => exact ⟨[.name], [.imageUrl], rfl, by simp, by simp⟩
  | imageUrl => exact ⟨[.name, .description], [], rfl, by simp, by simp⟩

/-- Each column is merged on its own. -/
theorem exists_columnCell_foldl (source : Source) (values : Record)
    (state : Entity × Dict Field Source) (c : Column) :
    ∃ state', SameBeyondColumns state.1 state'.1 ∧ columnCell state' c = columnCell state c ∧
      columnCell (Column.all.foldl (mergeColumn source values) state) c =
        columnCell (mergeColumn source values state' c) c := by
  obtain ⟨before, after, hall, hbefore, hafter⟩ := exists_around c
  refine ⟨before.foldl (mergeColumn source values) state, sameBeyondColumns_foldl state before,
    columnCell_foldl_of_notMem hbefore, ?_⟩
  rw [hall, List.foldl_append, List.foldl_cons, columnCell_foldl_of_notMem hafter]

end steps

section fields

variable (row : Entity) (values : Record) (source : Source)

theorem cell_column_mergeFields (c : Column) :
    (mergeFields row values source).cell (.column c) =
      columnCell (Column.all.foldl (mergeColumn source values) (row, row.fieldSources)) c := by
  rw [mergeFields, Entity.cell, columnCell, get_column_foldl]
  cases c <;> rfl

@[simp] theorem kind_mergeFields : (mergeFields row values source).kind = row.kind :=
  (sameBeyondColumns_foldl (row, row.fieldSources) Column.all).kind

@[simp] theorem protectedFields_mergeFields :
    (mergeFields row values source).protectedFields = row.protectedFields :=
  (sameBeyondColumns_foldl (row, row.fieldSources) Column.all).protectedFields

variable {row} {f : Field}

theorem cell_mergeFields (h : Ordinary row.kind f) :
    (mergeFields row values source).cell f =
      if f ∈ row.protectedFields then row.cell f
      else offered row.kind source f (row.cell f) (values.supplies f) := by
  cases f with
  | column c =>
    obtain ⟨state, hsame, hcell, hfold⟩ :=
      exists_columnCell_foldl source values (row, row.fieldSources) c
    rw [cell_column_mergeFields, hfold, columnCell_mergeColumn (hsame.kind ▸ h), hcell,
      hsame.kind, hsame.protectedFields]
    rfl
  | attributes key =>
    let columns := Column.all.foldl (mergeColumn source values) (row, row.fieldSources)
    have hsame : SameBeyondColumns row columns.1 :=
      sameBeyondColumns_foldl (row, row.fieldSources) Column.all
    have hcell : attributeCell (columns.1.attributes, columns.2) key = row.cell (.attributes key) := by
      rw [hsame.attributes, attributeCell, get_attribute_foldl]
      rfl
    rw [← hsame.kind, ← hsame.protectedFields, ← hcell]
    exact attributeCell_foldl values.attributes.entries values.attributes.nodup key

theorem cell_mergeFields_of_kept (h : f ∈ row.protectedFields ∨
    (¬ vacant f (row.cell f) = true ∧ (row.cell f).source = none)) :
    (mergeFields row values source).cell f = row.cell f := by
  cases f with
  | column c =>
    obtain ⟨state, hsame, hcell, hfold⟩ :=
      exists_columnCell_foldl source values (row, row.fieldSources) c
    have hsource : state.2.get (.column c) = row.fieldSources.get (.column c) :=
      congrArg Cell.source hcell
    rw [cell_column_mergeFields, hfold, columnCell_mergeColumn_of_kept, hcell]
    · rfl
    · rw [hsame.fieldSources, hsource]
    · rw [hsame.protectedFields, hcell, hsource]
      exact h
  | attributes key =>
    rw [cell_mergeFields values source (by simp [Ordinary])]
    split
    · rfl
    · next hprotected =>
      obtain ⟨hknown, hnone⟩ := h.resolve_left hprotected
      cases (values.supplies (.attributes key)) with
      | none => rfl
      | some v => exact if_neg (by simp [Open, hknown, hnone])

end fields

section documents

variable (row : Entity) (docs : List (Record × Source)) {f : Field}

/-- The documents about one entity, merged one after another. -/
def mergeAll : Entity := docs.foldl (fun row d ↦ mergeFields row d.1 d.2) row

def DifferentRanks (kind : Kind) : Prop :=
  docs.Pairwise fun d d' ↦ sourceRank kind d.2 ≠ sourceRank kind d'.2

instance decidableDifferentRanks (kind : Kind) : Decidable (DifferentRanks docs kind) :=
  inferInstanceAs (Decidable (docs.Pairwise _))

/-- What the documents supply for a field, with their sources. -/
def supplied (f : Field) : List (Value × Source) :=
  docs.filterMap fun d ↦ (d.1.supplies f).map (·, d.2)

/-- The field ends with what the source of the highest rank supplied, where no source of a higher
rank had written it before. -/
def EndsWithHighest (f : Field) : Prop :=
  Outcome (sourceRank row.kind) (vacant f · = true) (row.cell f) (supplied docs f)
    ((mergeAll row docs).cell f)

variable {row docs}

theorem kind_mergeAll : (mergeAll row docs).kind = row.kind := by
  induction docs generalizing row with
  | nil => rfl
  | cons d docs ih => exact ih.trans (kind_mergeFields row d.1 d.2)

theorem protectedFields_mergeAll : (mergeAll row docs).protectedFields = row.protectedFields := by
  induction docs generalizing row with
  | nil => rfl
  | cons d docs ih => exact ih.trans (protectedFields_mergeFields row d.1 d.2)

theorem cell_mergeAll_of_kept (h : f ∈ row.protectedFields ∨
    (¬ vacant f (row.cell f) = true ∧ (row.cell f).source = none)) :
    (mergeAll row docs).cell f = row.cell f := by
  induction docs generalizing row with
  | nil => rfl
  | cons d docs ih =>
    have hcell := cell_mergeFields_of_kept d.1 d.2 h
    refine (ih ?_).trans hcell
    rw [protectedFields_mergeFields, hcell]
    exact h

theorem cell_mergeAll (h : Ordinary row.kind f) (hprotected : f ∉ row.protectedFields) :
    (mergeAll row docs).cell f =
      (supplied docs f).foldl (offer (sourceRank row.kind) (vacant f · = true)) (row.cell f) := by
  induction docs generalizing row with
  | nil => rfl
  | cons d docs ih =>
    have hcell := cell_mergeFields d.1 d.2 h
    rw [if_neg hprotected] at hcell
    have hkind : Ordinary (mergeFields row d.1 d.2).kind f := by rwa [kind_mergeFields]
    have hfree : f ∉ (mergeFields row d.1 d.2).protectedFields := by
      rwa [protectedFields_mergeFields]
    have hrest := ih hkind hfree
    rw [kind_mergeFields, hcell] at hrest
    refine hrest.trans ?_
    conv_rhs => rw [supplied, List.filterMap_cons]
    cases d.1.supplies f <;> rfl

theorem not_vacant_of_supplies {values : Record} {source : Source} {v : Value}
    (h : values.supplies f = some v) : ¬ vacant f ⟨some v, some source⟩ = true := by
  cases f with
  | column c =>
    rw [Record.supplies] at h
    split at h
    · next hsupplied =>
      obtain ⟨value, hvalue, hne⟩ := exists_of_stated hsupplied.1
      rw [hvalue] at h
      obtain rfl := Option.some.inj h
      simp [vacant, hne]
    · exact absurd h (by simp)
  | attributes key =>
    obtain ⟨-, hvalue⟩ := Option.filter_eq_some_iff.mp h
    cases v <;> simp_all [vacant, absent, hasValue]

theorem full_of_mem_supplied : ∀ o ∈ supplied docs f, ¬ vacant f ⟨some o.1, some o.2⟩ = true := by
  intro o ho
  obtain ⟨d, -, hd⟩ := List.mem_filterMap.mp ho
  obtain ⟨v, hv, rfl⟩ := Option.map_eq_some_iff.mp hd
  exact not_vacant_of_supplies hv

theorem eq_of_rank_eq {kind : Kind} (h : DifferentRanks docs kind) :
    ∀ o ∈ supplied docs f, ∀ o' ∈ supplied docs f,
      sourceRank kind o.2 = sourceRank kind o'.2 → o = o' := by
  intro o ho o' ho' hrank
  obtain ⟨d, hd, hdo⟩ := List.mem_filterMap.mp ho
  obtain ⟨d', hd', hdo'⟩ := List.mem_filterMap.mp ho'
  obtain ⟨v, hv, rfl⟩ := Option.map_eq_some_iff.mp hdo
  obtain ⟨v', hv', rfl⟩ := Option.map_eq_some_iff.mp hdo'
  have hsymm : Std.Symm fun d d' : Record × Source ↦
      sourceRank kind d.2 ≠ sourceRank kind d'.2 := ⟨fun _ _ hne ↦ hne.symm⟩
  have hdd : d = d' := by
    by_contra hne
    exact h.forall hd hd' hne hrank
  subst hdd
  rw [Option.some.inj (hv.symm.trans hv')]

theorem mem_supplied_of_perm {docs' : List (Record × Source)} (h : docs'.Perm docs)
    (o : Value × Source) : o ∈ supplied docs' f ↔ o ∈ supplied docs f := by
  simp only [supplied, List.mem_filterMap, h.mem_iff]

theorem endsWithHighest (h : Ordinary row.kind f) (hprotected : f ∉ row.protectedFields) :
    EndsWithHighest row docs f := by
  rw [EndsWithHighest, cell_mergeAll h hprotected]
  exact outcome_foldl full_of_mem_supplied

theorem cell_mergeAll_of_perm {docs' : List (Record × Source)}
    (hranks : DifferentRanks docs row.kind) (hperm : docs'.Perm docs) (h : Ordinary row.kind f) :
    (mergeAll row docs').cell f = (mergeAll row docs).cell f := by
  by_cases hprotected : f ∈ row.protectedFields
  · rw [cell_mergeAll_of_kept (.inl hprotected), cell_mergeAll_of_kept (.inl hprotected)]
  · have houtcome : EndsWithHighest row docs' f := endsWithHighest h hprotected
    have houtcome' := houtcome.congr fun o ↦ (mem_supplied_of_perm hperm o).symm
    exact houtcome'.unique (eq_of_rank_eq hranks) (endsWithHighest h hprotected)

theorem cell_mergeAll_again {docs' : List (Record × Source)}
    (hranks : DifferentRanks docs row.kind) (hperm : docs'.Perm docs) (h : Ordinary row.kind f) :
    (mergeAll (mergeAll row docs) docs').cell f = (mergeAll row docs).cell f := by
  by_cases hprotected : f ∈ row.protectedFields
  · refine cell_mergeAll_of_kept (.inl ?_)
    rwa [protectedFields_mergeAll]
  · rw [cell_mergeAll (by rwa [kind_mergeAll]) (by rwa [protectedFields_mergeAll]), kind_mergeAll]
    refine foldl_stationary fun o ho ↦ ?_
    have houtcome : EndsWithHighest row docs f := endsWithHighest h hprotected
    exact houtcome.offer_eq full_of_mem_supplied (eq_of_rank_eq hranks)
      ((mem_supplied_of_perm hperm o).mp ho)

/-- Documents of different ranks give one record in any order, and giving them again changes
nothing. -/
theorem merged_record (row : Entity) (docs : List (Record × Source))
    (hranks : DifferentRanks docs row.kind) :
    (∀ docs' : List (Record × Source), docs'.Perm docs → ∀ f, Ordinary row.kind f →
      (mergeAll row docs').cell f = (mergeAll row docs).cell f) ∧
    (∀ f, Ordinary row.kind f → f ∉ row.protectedFields → EndsWithHighest row docs f) ∧
    (∀ f, f ∈ row.protectedFields ∨
      (¬ vacant f (row.cell f) = true ∧ (row.cell f).source = none) →
      (mergeAll row docs).cell f = row.cell f) ∧
    ∀ docs' : List (Record × Source), docs'.Perm docs → ∀ f, Ordinary row.kind f →
      (mergeAll (mergeAll row docs) docs').cell f = (mergeAll row docs).cell f := by
  refine ⟨?_, ?_, ?_, ?_⟩
  · exact fun docs' hperm f h ↦ cell_mergeAll_of_perm hranks hperm h
  · exact fun f h hprotected ↦ endsWithHighest h hprotected
  · exact fun f h ↦ cell_mergeAll_of_kept h
  · exact fun docs' hperm f h ↦ cell_mergeAll_again hranks hperm h

end documents

section portraits

def tvdb : Source := ⟨"tvdb", by decide⟩

def openlibrary : Source := ⟨"openlibrary", by decide⟩

def actor : Entity :=
  ⟨.person, "Actor", none, none, none, none, Dict.empty, Dict.empty, []⟩

def portrait (url : String) : Record := ⟨.person, none, none, some url, Dict.empty, []⟩

def portraits : List (Record × Source) :=
  [(portrait "https://image.tmdb.org/t/p/original/person.jpg", openlibrary),
    (portrait "https://artworks.thetvdb.com/banners/person/photo.jpg", tvdb)]

theorem merged_record_portraits :
    DifferentRanks portraits actor.kind ∧
      ∀ docs' : List (Record × Source), docs'.Perm portraits → ∀ f, Ordinary actor.kind f →
        (mergeAll actor docs').cell f = (mergeAll actor portraits).cell f := by
  have hranks : DifferentRanks portraits actor.kind := by decide
  exact ⟨hranks, (merged_record actor portraits hranks).1⟩

/-- The source of a person's image depends on the order. -/
theorem portrait_order_matters :
    ¬ ∀ (row : Entity) (docs docs' : List (Record × Source)), DifferentRanks docs row.kind →
      docs'.Perm docs →
      ∀ f, (mergeAll row docs').fieldSources.get f = (mergeAll row docs).fieldSources.get f := by
  intro h
  have hsource := h actor portraits portraits.reverse (by decide) (List.reverse_perm portraits)
    (.column .imageUrl)
  exact absurd hsource (by decide)

end portraits

end AnyList.Catalogue
