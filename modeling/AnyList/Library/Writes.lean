import Mathlib.Data.List.Basic
import Mathlib.Data.Option.Basic
import Mathlib.Logic.Function.Basic

namespace AnyList.Library.Writes

variable {κ ν : Type*} [DecidableEq κ]

/-- A table after a list of writes; the last write to a key stays. -/
def writeAll (table : κ → Option ν) (writes : List (κ × ν)) : κ → Option ν :=
  writes.foldl (fun table write ↦ Function.update table write.1 (some write.2)) table

@[simp] theorem writeAll_nil (table : κ → Option ν) : writeAll table [] = table := rfl

theorem writeAll_cons (table : κ → Option ν) (write : κ × ν) (writes : List (κ × ν)) :
    writeAll table (write :: writes) =
      writeAll (Function.update table write.1 (some write.2)) writes := rfl

theorem writeAll_of_notMem {writes : List (κ × ν)} {k : κ} (h : ∀ w ∈ writes, w.1 ≠ k)
    (table : κ → Option ν) : writeAll table writes k = table k := by
  induction writes generalizing table with
  | nil => rfl
  | cons w writes ih =>
    rw [writeAll_cons, ih fun w' hw' ↦ h w' (List.mem_cons_of_mem _ hw'),
      Function.update_of_ne (h w List.mem_cons_self).symm]

/-- Writes that only repeat a value leave it in place. -/
theorem writeAll_of_repeats {writes : List (κ × ν)} {k : κ} {v : ν}
    (h : ∀ w ∈ writes, w.1 = k → w.2 = v) {table : κ → Option ν} (hk : table k = some v) :
    writeAll table writes k = some v := by
  induction writes generalizing table with
  | nil => exact hk
  | cons w writes ih =>
    rw [writeAll_cons]
    refine ih (fun w' hw' ↦ h w' (List.mem_cons_of_mem _ hw')) ?_
    by_cases hw : w.1 = k
    · rw [hw, Function.update_self, h w List.mem_cons_self hw]
    · rw [Function.update_of_ne (Ne.symm hw), hk]

/-- A key written at least once, always with one value, ends up with it. -/
theorem writeAll_of_agree {writes : List (κ × ν)} {k : κ} {v : ν}
    (h : ∀ w ∈ writes, w.1 = k → w.2 = v) (hmem : ∃ w ∈ writes, w.1 = k)
    (table : κ → Option ν) : writeAll table writes k = some v := by
  induction writes generalizing table with
  | nil =>
    obtain ⟨w, hw, -⟩ := hmem
    simp at hw
  | cons w writes ih =>
    have h' : ∀ w' ∈ writes, w'.1 = k → w'.2 = v := fun w' hw' ↦ h w' (List.mem_cons_of_mem _ hw')
    rw [writeAll_cons]
    by_cases hw : w.1 = k
    · apply writeAll_of_repeats h'
      rw [hw, Function.update_self, h w List.mem_cons_self hw]
    · refine ih h' ?_ _
      obtain ⟨w', hw', hk⟩ := hmem
      obtain rfl | hw' := List.mem_cons.mp hw'
      exacts [absurd hk hw, ⟨w', hw', hk⟩]

end AnyList.Library.Writes

namespace AnyList.Library.Patches

variable {κ V : Type*}

/-- The values of a partial assignment over those of another. -/
def lay (patch base : κ → Option V) : κ → Option V := fun k ↦ (patch k).or (base k)

/-- What a list of assignments, applied in order, gives a key. -/
def latest : List (κ → Option V) → κ → Option V
  | [] => fun _ ↦ none
  | patch :: rest => fun k ↦ (latest rest k).or (patch k)

variable {patches patches' : List (κ → Option V)} {patch base : κ → Option V} {k : κ} {v : V}

theorem foldl_lay (patches : List (κ → Option V)) (base : κ → Option V) :
    patches.foldl (fun values patch ↦ lay patch values) base = lay (latest patches) base := by
  induction patches generalizing base with
  | nil => rfl
  | cons patch rest ih =>
    rw [List.foldl_cons, ih]
    funext k
    simp only [lay, latest, Option.or_assoc]

theorem latest_cons : latest (patch :: patches) k = (latest patches k).or (patch k) := rfl

theorem latest_append : latest (patches ++ patches') k = (latest patches' k).or (latest patches k) := by
  induction patches with
  | nil => simp [latest]
  | cons patch rest ih => rw [List.cons_append, latest_cons, ih, latest_cons, Option.or_assoc]

theorem latest_eq_none_iff : latest patches k = none ↔ ∀ patch ∈ patches, patch k = none := by
  induction patches with
  | nil => simp [latest]
  | cons patch rest ih => rw [latest_cons, Option.or_eq_none_iff, ih, List.forall_mem_cons, and_comm]

theorem lay_of_none (h : patch k = none) : lay patch base k = base k := by
  rw [lay, h, Option.none_or]

theorem lay_of_some (h : patch k = some v) : lay patch base k = some v := by
  rw [lay, h, Option.some_or]

end AnyList.Library.Patches
