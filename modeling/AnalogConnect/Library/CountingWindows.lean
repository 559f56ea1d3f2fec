import Mathlib.Data.List.Flatten
import Mathlib.Data.List.Basic
import Mathlib.Order.Basic
import Mathlib.Algebra.Group.Nat.Defs

/-!
# Counting by windows

A sequence in time is cut into windows that each begin at least `width` after the one before. Where
a window holds at most `m` of what is counted, any interval of length `width` holds at most `2 * m`:
a window that begins in it after the first is followed by none that does
(`TimeWindow.countP_le_two_mul`).
-/

universe u

/-- What came from `start` on, until the next window begins. -/
structure TimeWindow (α : Type u) where
  start : ℕ
  members : List α

namespace TimeWindow

variable {α : Type u} (width : ℕ) (time : α → ℕ) (p : α → Bool)

/-- `b` begins `width` after `a`, behind what is in `a` and before what is in `b`. -/
structure Before (a b : TimeWindow α) : Prop where
  apart : width ≤ b.start - a.start
  left : ∀ x ∈ a.members, time x ≤ b.start
  right : ∀ x ∈ b.members, b.start ≤ time x

/-- What is counted in the interval of length `width` from `t` on. -/
def countFrom (t : ℕ) (windows : List (TimeWindow α)) : ℕ :=
  (windows.flatMap (·.members)).countP fun x => p x && t ≤ time x && time x < t + width

variable {width time p} {t m : ℕ} {w : TimeWindow α} {windows : List (TimeWindow α)}

theorem countFrom_cons : countFrom width time p t (w :: windows) =
    (w.members.countP fun x => p x && t ≤ time x && time x < t + width) +
      countFrom width time p t windows := by
  unfold countFrom
  rw [List.flatMap_cons, List.countP_append]

theorem countP_interval_le (width : ℕ) (time : α → ℕ) (t : ℕ) (xs : List α) :
    (xs.countP fun x => p x && t ≤ time x && time x < t + width) ≤ xs.countP p :=
  List.countP_mono_left fun x _ hx => by simp_all

/-- Nothing of the windows that begin after the interval is in it. -/
theorem countFrom_eq_zero
    (h : ∀ w ∈ windows, t + width ≤ w.start ∧ ∀ x ∈ w.members, w.start ≤ time x) :
    countFrom width time p t windows = 0 := by
  refine List.countP_eq_zero.2 fun x hx => ?_
  obtain ⟨w, hw, hx⟩ := List.mem_flatMap.1 hx
  obtain ⟨hstart, htime⟩ := h w hw
  have := htime x hx
  simp only [Bool.and_eq_true, decide_eq_true_eq, not_and]
  omega

/-- Of windows that begin in the interval or after, it meets one. -/
theorem countFrom_le (hm : ∀ w ∈ windows, w.members.countP p ≤ m)
    (hbefore : windows.Pairwise (Before width time)) (ht : ∀ w ∈ windows, t ≤ w.start) :
    countFrom width time p t windows ≤ m := by
  rcases windows with - | ⟨w, windows⟩
  · exact Nat.zero_le m
  · obtain ⟨hw, -⟩ := List.pairwise_cons.1 hbefore
    have hstart := ht w List.mem_cons_self
    have hrest : countFrom width time p t windows = 0 := by
      refine countFrom_eq_zero fun w' hw' => ⟨?_, (hw w' hw').right⟩
      have hapart := (hw w' hw').apart
      have hstart' := ht w' (List.mem_cons_of_mem w hw')
      omega
    rw [countFrom_cons, hrest]
    exact Nat.le_trans (countP_interval_le width time t w.members) (hm w List.mem_cons_self)

/-- Any interval as long as the windows holds at most twice what a window may. -/
theorem countP_le_two_mul (t : ℕ) : ∀ {windows : List (TimeWindow α)},
    (∀ w ∈ windows, w.members.countP p ≤ m) → windows.Pairwise (Before width time) →
      countFrom width time p t windows ≤ 2 * m
  | [], _, _ => Nat.zero_le _
  | w :: windows, hm, hbefore => by
    obtain ⟨hw, hrest⟩ := List.pairwise_cons.1 hbefore
    have hmrest : ∀ w' ∈ windows, w'.members.countP p ≤ m := fun w' hw' =>
      hm w' (List.mem_cons_of_mem w hw')
    rw [countFrom_cons]
    by_cases hhit : ∃ x ∈ w.members, t ≤ time x
    · obtain ⟨x, hx, hxt⟩ := hhit
      have hle := countFrom_le hmrest hrest fun w' hw' =>
        Nat.le_trans hxt ((hw w' hw').left x hx)
      have hw := Nat.le_trans
        (countP_interval_le width time t w.members)
        (hm w List.mem_cons_self)
      omega
    · have hnone : (w.members.countP fun x => p x && t ≤ time x && time x < t + width) = 0 := by
        refine List.countP_eq_zero.2 fun x hx => ?_
        have : ¬ t ≤ time x := fun hxt => hhit ⟨x, hx, hxt⟩
        simp [this]
      rw [hnone, Nat.zero_add]
      exact countP_le_two_mul t hmrest hrest

end TimeWindow
