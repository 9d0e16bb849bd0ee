import Mathlib.Algebra.Order.Floor.Ring
import Mathlib.Algebra.Ring.Parity
import Mathlib.Data.Int.Log
import Mathlib.Data.Rat.Floor
import Mathlib.Tactic.FieldSimp
import Mathlib.Tactic.Linarith
import Mathlib.Tactic.Positivity

namespace AnyList.Library.Doubles

/-- The nearest integer, the even one of two that are as near. -/
def roundEven (q : ℚ) : ℤ :=
  match compare (q - ⌊q⌋) (1 / 2) with
  | .lt => ⌊q⌋
  | .gt => ⌊q⌋ + 1
  | .eq => if Even ⌊q⌋ then ⌊q⌋ else ⌊q⌋ + 1

/-- The distance of the floating-point numbers around a positive `x`. -/
def ulp (precision : ℕ) (x : ℚ) : ℚ := 2 ^ (Int.log 2 x + 1 - precision)

def roundMagnitude (precision : ℕ) (x : ℚ) : ℚ :=
  roundEven (x / ulp precision x) * ulp precision x

/-- The floating-point number nearest to `x`, of those with `precision` binary digits. -/
def nearest (precision : ℕ) (x : ℚ) : ℚ :=
  if x < 0 then -roundMagnitude precision (-x) else roundMagnitude precision x

section integers

variable {q : ℚ} {n : ℤ}

theorem abs_roundEven_sub_le (q : ℚ) : |roundEven q - q| ≤ 1 / 2 := by
  have hle := Int.floor_le q
  have hlt := Int.lt_floor_add_one q
  rw [roundEven, abs_le]
  cases h : compare (q - ⌊q⌋) (1 / 2) with
  | lt =>
    have hbelow := compare_lt_iff_lt.mp h
    constructor <;> linarith
  | gt =>
    have habove := compare_gt_iff_gt.mp h
    push_cast
    constructor <;> linarith
  | eq =>
    have heq := compare_eq_iff_eq.mp h
    dsimp only
    split_ifs
    · constructor <;> linarith
    · push_cast
      constructor <;> linarith

theorem roundEven_le (h : q ≤ n) : roundEven q ≤ n := by
  have hnear := (abs_le.mp (abs_roundEven_sub_le q)).2
  have hlt : (roundEven q : ℚ) < n + 1 := by linarith
  exact Int.lt_add_one_iff.mp (by exact_mod_cast hlt)

theorem le_roundEven (h : n ≤ q) : n ≤ roundEven q := by
  have hnear := (abs_le.mp (abs_roundEven_sub_le q)).1
  have hlt : (n : ℚ) < roundEven q + 1 := by linarith
  exact Int.lt_add_one_iff.mp (by exact_mod_cast hlt)

theorem roundEven_eq (h : |q - n| < 1 / 2) : roundEven q = n := by
  obtain ⟨habove, hbelow⟩ := abs_le.mp (abs_roundEven_sub_le q)
  obtain ⟨habove', hbelow'⟩ := abs_lt.mp h
  have hlt : (n : ℚ) < roundEven q + 1 := by linarith
  have hgt : (roundEven q : ℚ) < n + 1 := by linarith
  exact le_antisymm (Int.lt_add_one_iff.mp (by exact_mod_cast hgt))
    (Int.lt_add_one_iff.mp (by exact_mod_cast hlt))

end integers

section magnitudes

variable {precision : ℕ} {x y : ℚ}

theorem ulp_pos (precision : ℕ) (x : ℚ) : 0 < ulp precision x := by
  rw [ulp]
  exact zpow_pos two_pos _

/-- A number on the grid of the floating-point numbers around `x`. -/
def OnGrid (precision : ℕ) (x y : ℚ) : Prop := ∃ n : ℤ, y = n * ulp precision x

theorem roundMagnitude_le (hy : OnGrid precision x y) (h : x ≤ y) :
    roundMagnitude precision x ≤ y := by
  obtain ⟨n, rfl⟩ := hy
  have hpos := ulp_pos precision x
  rw [roundMagnitude]
  refine mul_le_mul_of_nonneg_right (Int.cast_le.mpr (roundEven_le ?_)) hpos.le
  rwa [div_le_iff₀ hpos]

theorem le_roundMagnitude (hy : OnGrid precision x y) (h : y ≤ x) :
    y ≤ roundMagnitude precision x := by
  obtain ⟨n, rfl⟩ := hy
  have hpos := ulp_pos precision x
  rw [roundMagnitude]
  refine mul_le_mul_of_nonneg_right (Int.cast_le.mpr (le_roundEven ?_)) hpos.le
  rwa [le_div_iff₀ hpos]

theorem roundMagnitude_eq (hy : OnGrid precision x y) (h : |x - y| < ulp precision x / 2) :
    roundMagnitude precision x = y := by
  obtain ⟨n, rfl⟩ := hy
  have hpos := ulp_pos precision x
  rw [roundMagnitude, roundEven_eq]
  have hdiv : x / ulp precision x - n = (x - n * ulp precision x) / ulp precision x := by
    field_simp
  rw [hdiv, abs_div, abs_of_pos hpos, div_lt_iff₀ hpos]
  linarith

theorem abs_roundMagnitude_sub_le (precision : ℕ) (x : ℚ) :
    |roundMagnitude precision x - x| ≤ ulp precision x / 2 := by
  have hpos := ulp_pos precision x
  have hnear := abs_roundEven_sub_le (x / ulp precision x)
  have hmul : roundMagnitude precision x - x =
      (roundEven (x / ulp precision x) - x / ulp precision x) * ulp precision x := by
    rw [roundMagnitude, sub_mul, div_mul_cancel₀ x hpos.ne']
  rw [hmul, abs_mul, abs_of_pos hpos]
  linarith [mul_le_mul_of_nonneg_right hnear hpos.le]

theorem roundMagnitude_nonneg (h : 0 ≤ x) : 0 ≤ roundMagnitude precision x :=
  le_roundMagnitude ⟨0, by simp⟩ h

theorem roundMagnitude_zero (precision : ℕ) : roundMagnitude precision 0 = 0 :=
  le_antisymm (roundMagnitude_le ⟨0, by simp⟩ le_rfl) (roundMagnitude_nonneg le_rfl)

theorem abs_nearest (precision : ℕ) (x : ℚ) :
    |nearest precision x| = roundMagnitude precision |x| := by
  rw [nearest]
  split_ifs with h
  · rw [abs_neg, abs_of_neg h, abs_of_nonneg (roundMagnitude_nonneg (by linarith))]
  · rw [abs_of_nonneg (not_lt.mp h), abs_of_nonneg (roundMagnitude_nonneg (not_lt.mp h))]

/-- An integer is on the grid of every number that does not take more digits than there are. -/
theorem onGrid_intCast (hx : 0 < x) (h : x < 2 ^ precision) (n : ℤ) : OnGrid precision x n := by
  have hlog : Int.log 2 x < precision := by
    refine (Int.lt_zpow_iff_log_lt one_lt_two hx).mp ?_
    exact_mod_cast h
  obtain ⟨k, hk⟩ := Int.eq_ofNat_of_zero_le (show 0 ≤ precision - 1 - Int.log 2 x by omega)
  refine ⟨n * 2 ^ k, ?_⟩
  have hulp : ulp precision x = ((2 : ℚ) ^ k)⁻¹ := by
    rw [ulp, ← zpow_natCast, ← zpow_neg, ← hk]
    congr 1
    omega
  rw [hulp]
  push_cast
  field_simp

theorem roundMagnitude_intCast {n : ℤ} (hn : 0 < n) (h : (n : ℚ) < 2 ^ precision) :
    roundMagnitude precision n = n := by
  have hgrid := onGrid_intCast (by exact_mod_cast hn) h n
  exact le_antisymm (roundMagnitude_le hgrid le_rfl) (le_roundMagnitude hgrid le_rfl)

theorem ulp_le {e : ℤ} (hx : 0 < x) (h : x < 2 ^ (e + 1)) : ulp precision x ≤ 2 ^ (e + 1 - precision) := by
  have hlog : Int.log 2 x < e + 1 := by
    refine (Int.lt_zpow_iff_log_lt one_lt_two hx).mp ?_
    exact_mod_cast h
  exact zpow_le_zpow_right₀ one_le_two (by omega)

theorem le_ulp {e : ℤ} (h : 2 ^ e ≤ x) : 2 ^ (e + 1 - precision) ≤ ulp precision x := by
  have hx : 0 < x := lt_of_lt_of_le (zpow_pos two_pos e) h
  have hlog : e ≤ Int.log 2 x := by
    refine (Int.zpow_le_iff_le_log one_lt_two hx).mp ?_
    exact_mod_cast h
  exact zpow_le_zpow_right₀ one_le_two (by omega)

end magnitudes

end AnyList.Library.Doubles
