import Mathlib.Data.List.Count
import Mathlib.Logic.Basic

/-!
# Even splits

`n` items of `size` units each go to `k` parts by their first unit. The parts are
as long as whole units allow, so their ends need not fall on ends of items. No
part differs from another by more than one item.
-/

namespace EvenSplit

/-- Units of a part. -/
def partSize (n size k : Nat) : Nat := n * size / k

def part (n size k i : Nat) : Nat := i * size / partSize n size k

/-- The first item of a part. -/
def firstOf (n size k t : Nat) : Nat := (t * partSize n size k + (size - 1)) / size

theorem countP_window (n lower upper : Nat) :
    (List.range n).countP (fun i => decide (lower ≤ i ∧ i < upper)) =
      min upper n - min lower n := by
  induction n with
  | zero => simp
  | succ n ih =>
    rw [List.range_succ, List.countP_append, ih, List.countP_singleton]
    by_cases hn : lower ≤ n ∧ n < upper
    · rw [if_pos (decide_eq_true hn)]
      omega
    · rw [if_neg (by simpa using hn)]
      omega

/-- Rounding up. -/
theorem ceil_le_iff {size : Nat} (pos : 0 < size) (x i : Nat) :
    (x + (size - 1)) / size ≤ i ↔ x ≤ i * size := by
  rw [← Nat.lt_succ_iff, Nat.div_lt_iff_lt_mul pos, Nat.succ_mul]
  omega

section
variable {n size k : Nat}

theorem partSize_pos (pos : 0 < n) (parts : 0 < k) (small : k ≤ size) :
    0 < partSize n size k :=
  Nat.div_pos (Nat.le_trans small (Nat.le_mul_of_pos_left size pos)) parts

theorem parts_le : k * partSize n size k ≤ n * size := Nat.mul_div_le _ _

theorem lt_parts (parts : 0 < k) : n * size < k * partSize n size k + k :=
  Nat.lt_mul_div_succ _ parts

/-- Every item has a part. -/
theorem part_lt (parts : 0 < k) (small : k ≤ size) {i : Nat} (hi : i < n) :
    part n size k i < k := by
  have hpos := partSize_pos (Nat.zero_lt_of_lt hi) parts small
  have hend : (i + 1) * size ≤ n * size := Nat.mul_le_mul_right _ hi
  have hlast := @lt_parts n size k parts
  rw [Nat.succ_mul] at hend
  apply (Nat.div_lt_iff_lt_mul hpos).mpr
  omega

theorem part_mono {i j : Nat} (h : i ≤ j) : part n size k i ≤ part n size k j :=
  Nat.div_le_div_right (Nat.mul_le_mul_right _ h)

/-- Where a part is no longer than an item, no two items share one. -/
theorem part_succ_lt (pos : 0 < partSize n size k) (short : partSize n size k ≤ size) (i : Nat) :
    part n size k i < part n size k (i + 1) := by
  have hstep : (i * size + partSize n size k) / partSize n size k ≤ part n size k (i + 1) := by
    apply Nat.div_le_div_right
    rw [Nat.succ_mul]
    omega
  rw [Nat.add_div_right _ pos] at hstep
  exact hstep

theorem part_eq_iff (pos : 0 < partSize n size k) (hsize : 0 < size) (i t : Nat) :
    part n size k i = t ↔ firstOf n size k t ≤ i ∧ i < firstOf n size k (t + 1) := by
  unfold part firstOf
  rw [Nat.div_eq_iff pos, ceil_le_iff hsize, ← Nat.not_le, ceil_le_iff hsize, Nat.succ_mul]
  omega

theorem firstOf_le (hsize : 0 < size) {t : Nat} (ht : t ≤ k) : firstOf n size k t ≤ n := by
  apply (ceil_le_iff hsize _ _).mpr
  exact Nat.le_trans (Nat.mul_le_mul_right _ ht) parts_le

/-- From one part to the next there are at least `n / k` items. -/
theorem firstOf_succ_ge (hsize : 0 < size) (parts : 0 < k) (t : Nat) :
    firstOf n size k t + n / k ≤ firstOf n size k (t + 1) := by
  have hpart : n / k * size ≤ partSize n size k := by
    apply (Nat.le_div_iff_mul_le parts).mpr
    rw [Nat.mul_right_comm]
    exact Nat.mul_le_mul_right _ (Nat.div_mul_le_self n k)
  unfold firstOf
  rw [← Nat.add_mul_div_right _ _ hsize]
  apply Nat.div_le_div_right
  rw [Nat.succ_mul]
  omega

/-- And at most `n / k` rounded up. -/
theorem firstOf_succ_le (hsize : 0 < size) (parts : 0 < k) (t : Nat) :
    firstOf n size k (t + 1) ≤ firstOf n size k t + (n + (k - 1)) / k := by
  have hitems : n ≤ (n + (k - 1)) / k * k := (ceil_le_iff parts n _).mp (Nat.le_refl _)
  have hpart : partSize n size k ≤ (n + (k - 1)) / k * size := by
    apply Nat.le_of_mul_le_mul_left (c := k) _ parts
    refine Nat.le_trans parts_le ?_
    rw [Nat.mul_left_comm, ← Nat.mul_assoc]
    exact Nat.mul_le_mul_right _ hitems
  unfold firstOf
  rw [← Nat.add_mul_div_right _ _ hsize]
  apply Nat.div_le_div_right
  rw [Nat.succ_mul]
  omega

/-- The items of a part: `n / k`, rounded one way or the other. -/
theorem count_part (parts : 0 < k) (small : k ≤ size) (pos : 0 < n) {t : Nat} (ht : t < k) :
    n / k ≤ (List.range n).countP (fun i => decide (part n size k i = t)) ∧
      (List.range n).countP (fun i => decide (part n size k i = t)) ≤ (n + (k - 1)) / k := by
  have hsize : 0 < size := Nat.lt_of_lt_of_le parts small
  have hcount : (List.range n).countP (fun i => decide (part n size k i = t)) =
      firstOf n size k (t + 1) - firstOf n size k t := by
    simp only [part_eq_iff (partSize_pos pos parts small) hsize]
    rw [countP_window, Nat.min_eq_left (firstOf_le hsize ht),
      Nat.min_eq_left (firstOf_le hsize (Nat.le_of_lt ht))]
  rw [hcount]
  constructor
  · apply Nat.le_sub_of_add_le
    rw [Nat.add_comm]
    exact firstOf_succ_ge hsize parts t
  · apply Nat.sub_le_iff_le_add'.mpr
    exact firstOf_succ_le hsize parts t

theorem ceil_eq (parts : 0 < k) : (n + (k - 1)) / k = n / k ∨ (n + (k - 1)) / k = n / k + 1 := by
  have hle : (n + (k - 1)) / k ≤ (n + k) / k := Nat.div_le_div_right (by omega)
  have hge : n / k ≤ (n + (k - 1)) / k := Nat.div_le_div_right (by omega)
  rw [Nat.add_div_right _ parts] at hle
  generalize n / k = q at hle hge ⊢
  omega

end

end EvenSplit
