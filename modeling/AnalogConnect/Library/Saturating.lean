import Mathlib.Algebra.Group.Nat.Defs
import Mathlib.Data.Nat.Basic
import Mathlib.Order.Basic

/-!
# Saturating counters

Counters of 64 bits that stop at their greatest value. One that was counted up `n` times from zero
shows `min n u64Max`.
-/

/-- `u64::MAX`. -/
def u64Max : ℕ := 2 ^ 64 - 1

/-- `u64::saturating_add`, on counters. -/
def saturatingAdd (count more : ℕ) : ℕ := min (count + more) u64Max

theorem saturatingAdd_min (n more : ℕ) :
    saturatingAdd (min n u64Max) more = min (n + more) u64Max := by
  unfold saturatingAdd
  omega
