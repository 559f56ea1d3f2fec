import Mathlib.Algebra.Order.Ring.Int
import Mathlib.Order.Interval.Set.UnorderedInterval
import Mathlib.Tactic.Linarith

/-!
# Interpolation with truncating division

Between two integers, `lerp` goes from one to the other in `n` steps, and `blend` weighs the two
against each other. Division drops towards zero, which keeps both between their ends
(`lerp_mem_uIcc`, `blend_mem_uIcc`), since the ends are integers themselves.
-/

namespace Interpolation

variable {start stop : ℤ} {n j k : ℕ}

/-- A quotient is between integers when its numerator is between their multiples. -/
theorem tdiv_bounds {lo hi x : ℤ} (hn : 0 < n) (hlo : lo * n ≤ x) (hhi : x ≤ hi * n) :
    lo ≤ x.tdiv n ∧ x.tdiv n ≤ hi := by
  have hn : (0 : ℤ) < n := Int.natCast_pos.2 hn
  refine ⟨Int.le_tdiv_of_mul_le hn hlo, ?_⟩
  calc x.tdiv n ≤ (hi * n).tdiv n := Int.tdiv_le_tdiv hn hhi
    _ = hi := Int.mul_tdiv_cancel hi hn.ne'

/-- The `k`th of `n` steps from `start` to `stop`. -/
def lerp (start stop : ℤ) (n k : ℕ) : ℤ := start + ((stop - start) * k).tdiv n

theorem lerp_mem_uIcc (hn : 0 < n) (hk : k ≤ n) : lerp start stop n k ∈ Set.uIcc start stop := by
  have hkn : (k : ℤ) ≤ n := Int.ofNat_le.2 hk
  have hk0 : (0 : ℤ) ≤ k := Int.natCast_nonneg k
  unfold lerp
  rcases le_total start stop with hle | hle
  · have hstep : 0 ≤ ((stop - start) * k).tdiv n ∧ ((stop - start) * k).tdiv n ≤ stop - start :=
      tdiv_bounds hn (by rw [zero_mul]; exact mul_nonneg (sub_nonneg.2 hle) hk0)
        (mul_le_mul_of_nonneg_left hkn (sub_nonneg.2 hle))
    rw [Set.uIcc_of_le hle]
    exact ⟨by linarith [hstep.1], by linarith [hstep.2]⟩
  · have hstep : stop - start ≤ ((stop - start) * k).tdiv n ∧ ((stop - start) * k).tdiv n ≤ 0 :=
      tdiv_bounds hn (mul_le_mul_of_nonpos_left hkn (sub_nonpos.2 hle))
        (by rw [zero_mul]; exact mul_nonpos_of_nonpos_of_nonneg (sub_nonpos.2 hle) hk0)
    rw [Set.uIcc_of_ge hle]
    exact ⟨by linarith [hstep.1], by linarith [hstep.2]⟩

theorem lerp_mono (hn : 0 < n) (h : start ≤ stop) (hjk : j ≤ k) :
    lerp start stop n j ≤ lerp start stop n k := by
  unfold lerp
  exact Int.add_le_add_left (Int.tdiv_le_tdiv (Int.natCast_pos.2 hn)
    (mul_le_mul_of_nonneg_left (Int.ofNat_le.2 hjk) (sub_nonneg.2 h))) start

theorem lerp_anti (hn : 0 < n) (h : stop ≤ start) (hjk : j ≤ k) :
    lerp start stop n k ≤ lerp start stop n j := by
  unfold lerp
  exact Int.add_le_add_left (Int.tdiv_le_tdiv (Int.natCast_pos.2 hn)
    (mul_le_mul_of_nonpos_left (Int.ofNat_le.2 hjk) (sub_nonpos.2 h))) start

theorem lerp_last (hn : 0 < n) : lerp start stop n n = stop := by
  unfold lerp
  rw [Int.mul_tdiv_cancel _ (Int.natCast_pos.2 hn).ne', add_sub_cancel]

/-- `old` and `new` in the proportion of `n - k` to `k`. -/
def blend (old new : ℤ) (n k : ℕ) : ℤ := (old * (n - k) + new * k).tdiv n

theorem blend_mem_uIcc {old new : ℤ} (hn : 0 < n) (hk : k ≤ n) :
    blend old new n k ∈ Set.uIcc old new := by
  have hkn : (0 : ℤ) ≤ n - k := sub_nonneg.2 (Int.ofNat_le.2 hk)
  have hk0 : (0 : ℤ) ≤ k := Int.natCast_nonneg k
  have hlo : (old ⊓ new) * (n - k) + (old ⊓ new) * k ≤ old * (n - k) + new * k :=
    add_le_add (mul_le_mul_of_nonneg_right inf_le_left hkn)
      (mul_le_mul_of_nonneg_right inf_le_right hk0)
  have hhi : old * (n - k) + new * k ≤ (old ⊔ new) * (n - k) + (old ⊔ new) * k :=
    add_le_add (mul_le_mul_of_nonneg_right le_sup_left hkn)
      (mul_le_mul_of_nonneg_right le_sup_right hk0)
  rw [← mul_add, sub_add_cancel] at hlo hhi
  exact tdiv_bounds hn hlo hhi

theorem blend_last {old new : ℤ} (hn : 0 < n) : blend old new n n = new := by
  unfold blend
  rw [sub_self, mul_zero, zero_add, Int.mul_tdiv_cancel _ (Int.natCast_pos.2 hn).ne']

end Interpolation
