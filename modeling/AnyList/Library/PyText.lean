import AnyList.Library.Octets
import Mathlib.Data.List.DropRight
import Mathlib.Data.Nat.Digits.Defs

namespace AnyList.Library.PyText

open AnyList.Library.Octets

/-- The code points that are stripped from the ends of a text. -/
def isSpace (c : ℕ) : Bool :=
  decide (9 ≤ c ∧ c ≤ 13 ∨ 28 ≤ c ∧ c ≤ 32 ∨ c = 0x85 ∨ c = 0xA0 ∨ c = 0x1680 ∨
    0x2000 ≤ c ∧ c ≤ 0x200A ∨ c = 0x2028 ∨ c = 0x2029 ∨ c = 0x202F ∨ c = 0x205F ∨ c = 0x3000)

def strip (t : Text) : Text := (t.dropWhile isSpace).rdropWhile isSpace

def digits (n : ℕ) : Text :=
  if n = 0 then [0x30] else (Nat.digits 10 n).reverse.map fun d ↦ 0x30 + d

def decimal (n : ℤ) : Text := if n < 0 then 0x2D :: digits n.natAbs else digits n.natAbs

theorem strip_eq_self {t : Text} (hhead : ∀ c ∈ t.head?, isSpace c = false)
    (hlast : ∀ c ∈ t.getLast?, isSpace c = false) : strip t = t := by
  have hdrop : t.dropWhile isSpace = t := by
    cases t with
    | nil => rfl
    | cons c t => exact List.dropWhile_cons_of_neg (by simp [hhead c rfl])
  rw [strip, hdrop, List.rdropWhile_eq_self_iff]
  intro hne hspace
  rw [hlast _ (List.getLast?_eq_some_getLast hne)] at hspace
  cases hspace

theorem strip_sublist (t : Text) : (strip t).Sublist t :=
  (List.rdropWhile_prefix _ _).sublist.trans (List.dropWhile_sublist _)

theorem isSpace_digits {n c : ℕ} (h : c ∈ digits n) : isSpace c = false := by
  have hdigit : 0x30 ≤ c ∧ c < 0x3A := by
    rw [digits] at h
    split_ifs at h
    · rw [List.mem_singleton] at h
      omega
    · obtain ⟨d, hd, rfl⟩ := List.mem_map.mp h
      have hlt := Nat.digits_lt_base (by omega) (List.mem_reverse.mp hd)
      omega
  exact decide_eq_false (by omega)

theorem isSpace_decimal {n : ℤ} {c : ℕ} (h : c ∈ decimal n) : isSpace c = false := by
  rw [decimal] at h
  split_ifs at h
  · obtain rfl | h := List.mem_cons.mp h
    · rfl
    · exact isSpace_digits h
  · exact isSpace_digits h

theorem decimal_ne_nil (n : ℤ) : decimal n ≠ [] := by
  have hdigits (n : ℕ) : digits n ≠ [] := by
    rw [digits]
    split_ifs with h
    · exact List.cons_ne_nil _ _
    · simpa [Nat.digits_eq_nil_iff_eq_zero] using h
  rw [decimal]
  split_ifs
  · exact List.cons_ne_nil _ _
  · exact hdigits _

end AnyList.Library.PyText
