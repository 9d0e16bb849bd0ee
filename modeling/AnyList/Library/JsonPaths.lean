import AnyList.Library.Json

namespace AnyList.Library.Json

open AnyList.Library.Octets

variable {name name' : Text} {v : Value} {path path' : List Text}

section fields

variable {fields : List (Text × Value)}

/-- Sets the field of a name, in its place if there is one. -/
def setField (name : Text) (v : Value) (fields : List (Text × Value)) : List (Text × Value) :=
  if fields.any fun field ↦ field.1 = name then
    fields.map fun field ↦ if field.1 = name then (name, v) else field
  else fields ++ [(name, v)]

theorem field_concat (entry : Text × Value) :
    field name (fields ++ [entry]) = if entry.1 = name then some entry.2 else field name fields := by
  rw [field, List.reverse_append, List.reverse_singleton, List.singleton_append, List.find?_cons]
  by_cases h : entry.1 = name
  · rw [if_pos h, decide_eq_true h]
    rfl
  · rw [if_neg h, decide_eq_false h]
    rfl

theorem field_eq_none (h : name ∉ fields.map Prod.fst) : field name fields = none := by
  have hnone : fields.reverse.find? (fun field ↦ decide (field.1 = name)) = none := by
    refine List.find?_eq_none.mpr fun entry hentry ↦ ?_
    rw [decide_eq_true_eq]
    rintro rfl
    exact h (List.mem_map_of_mem (List.mem_reverse.mp hentry))
  rw [field, hnone]
  rfl

theorem field_replaced :
    field name' (fields.map fun entry ↦ if entry.1 = name then (name, v) else entry) =
      if name' = name ∧ name ∈ fields.map Prod.fst then some v else field name' fields := by
  induction fields using List.reverseRecOn with
  | nil => simp [field]
  | append_singleton fields entry ih =>
    rw [List.map_append, List.map_singleton, field_concat, field_concat, ih]
    by_cases hentry : entry.1 = name
    · simp only [hentry, if_true, List.map_append, List.map_singleton, List.mem_append,
        List.mem_singleton, or_true, and_true]
      by_cases hname : name = name'
      · simp [hname]
      · simp [hname, Ne.symm hname]
    · have hne : ¬ name = entry.1 := Ne.symm hentry
      simp only [hentry, if_false, List.map_append, List.map_singleton, List.mem_append,
        List.mem_singleton, hne, or_false]
      by_cases hname : entry.1 = name'
      · have hname' : ¬ name' = name := fun h ↦ hentry (hname.trans h)
        simp [hname, hname']
      · simp [hname]

theorem any_name :
    (fields.any fun field ↦ field.1 = name) = true ↔ name ∈ fields.map Prod.fst := by
  simp [List.any_eq_true]

theorem field_setField :
    field name' (setField name v fields) = if name' = name then some v else field name' fields := by
  rw [setField]
  split_ifs with hmem hname hname
  · rw [field_replaced, if_pos ⟨hname, any_name.mp hmem⟩]
  · rw [field_replaced, if_neg fun h ↦ hname h.1]
  · rw [field_concat, if_pos hname.symm]
  · rw [field_concat, if_neg (Ne.symm hname)]

@[simp] theorem field_setField_self : field name (setField name v fields) = some v := by
  rw [field_setField, if_pos rfl]

theorem field_setField_of_ne (h : name' ≠ name) :
    field name' (setField name v fields) = field name' fields := by
  rw [field_setField, if_neg h]

end fields

section paths

/-- The fields of an object; another value has none. -/
def Value.fields : Value → List (Text × Value)
  | .obj fields => fields
  | _ => []

/-- The value at a path of names. -/
def Value.lookup : List Text → Value → Option Value
  | [], target => some target
  | name :: path, target => (field name target.fields).bind (Value.lookup path)

/-- Sets the value at a path, where objects are made for the names that are missing. -/
def Value.put (v : Value) : List Text → Value → Value
  | [], _ => v
  | name :: path, target => .obj (setField name
      (Value.put v path ((field name target.fields).getD (.obj []))) target.fields)

/-- Neither path goes on from the other. -/
def Apart (path path' : List Text) : Prop := ¬ path <+: path' ∧ ¬ path' <+: path

theorem Apart.of_cons (h : Apart (name :: path) (name :: path')) : Apart path path' :=
  ⟨fun hpre ↦ h.1 (List.cons_prefix_cons.mpr ⟨rfl, hpre⟩),
    fun hpre ↦ h.2 (List.cons_prefix_cons.mpr ⟨rfl, hpre⟩)⟩

theorem Value.lookup_put_self (target : Value) : (v.put path target).lookup path = some v := by
  induction path generalizing target with
  | nil => rfl
  | cons name path ih =>
    rw [Value.put, Value.lookup, Value.fields, field_setField_self, Option.bind_some, ih]

/-- What is set at a path is seen from no path that is apart from it. -/
theorem Value.lookup_put_of_apart (h : Apart path path') (target : Value) :
    (v.put path target).lookup path' = target.lookup path' := by
  induction path generalizing path' target with
  | nil => exact absurd (List.nil_prefix) h.1
  | cons name path ih =>
    cases path' with
    | nil => exact absurd (List.nil_prefix) h.2
    | cons name' path' =>
      rw [Value.put, Value.lookup, Value.lookup, Value.fields]
      by_cases hname : name' = name
      · subst hname
        have hrest : path' ≠ [] := by
          rintro rfl
          exact h.of_cons.2 List.nil_prefix
        rw [field_setField_self, Option.bind_some, ih h.of_cons]
        cases field name' target.fields with
        | none =>
          obtain ⟨first, rest, rfl⟩ := List.exists_cons_of_ne_nil hrest
          rfl
        | some value => rfl
      · rw [field_setField_of_ne hname]

end paths

end AnyList.Library.Json
