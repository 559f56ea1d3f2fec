import Mathlib.Data.List.Basic
import Mathlib.Order.Lattice
import Std.Data.TreeMap.Lemmas

/-!
# Ordered maps

`Std.TreeMap` over a linear order: what its operations do to the entries, the keys and the size,
and its first and last keys, read off the list of keys.
-/

universe u v

/-- A map that keeps its keys in order. -/
abbrev OrderedMap (κ : Type u) (α : Type v) [LinearOrder κ] : Type (max u v) := Std.TreeMap κ α

namespace OrderedMap

open Std (TreeMap)

variable {κ : Type u} {α : Type v} [LinearOrder κ] {t : OrderedMap κ α} {k k' : κ} {a : α}

theorem mem_iff_exists : k ∈ t ↔ ∃ a, t[k]? = some a := by
  rw [TreeMap.mem_iff_isSome_getElem?, Option.isSome_iff_exists]

theorem getElem?_insert_eq : (t.insert k a)[k']? = if k' = k then some a else t[k']? := by
  rw [TreeMap.getElem?_insert]
  by_cases h : k' = k
  · rw [if_pos h, if_pos (compare_eq_iff_eq.2 h.symm)]
  · rw [if_neg h, if_neg fun heq => h (compare_eq_iff_eq.1 heq).symm]

theorem getElem?_erase_eq : (t.erase k)[k']? = if k' = k then none else t[k']? := by
  rw [TreeMap.getElem?_erase]
  by_cases h : k' = k
  · rw [if_pos h, if_pos (compare_eq_iff_eq.2 h.symm)]
  · rw [if_neg h, if_neg fun heq => h (compare_eq_iff_eq.1 heq).symm]

theorem mem_insert_iff : k' ∈ t.insert k a ↔ k' = k ∨ k' ∈ t := by
  rw [TreeMap.mem_insert, compare_eq_iff_eq, eq_comm]

theorem mem_erase_iff : k' ∈ t.erase k ↔ k' ≠ k ∧ k' ∈ t := by
  rw [TreeMap.mem_erase, Ne, Ne, compare_eq_iff_eq, eq_comm]

theorem size_insert_of_notMem (h : k ∉ t) : (t.insert k a).size = t.size + 1 := by
  rw [TreeMap.size_insert, if_neg]
  rwa [← TreeMap.mem_iff_contains]

theorem size_eq_zero_iff : t.size = 0 ↔ ∀ k, k ∉ t := by
  rw [← TreeMap.isEmpty_iff_forall_not_mem, TreeMap.isEmpty_eq_size_eq_zero, beq_iff_eq]

theorem size_erase_add_one (h : k ∈ t) : (t.erase k).size + 1 = t.size := by
  have hpos : t.size ≠ 0 := fun hzero => size_eq_zero_iff.1 hzero k h
  rw [TreeMap.size_erase, if_pos (TreeMap.mem_iff_contains.1 h)]
  omega

/-! ## First and last keys -/

/-- The least key. -/
def firstKey? (t : OrderedMap κ α) : Option κ := t.keys.head?

/-- The greatest key. -/
def lastKey? (t : OrderedMap κ α) : Option κ := t.keys.getLast?

theorem pairwise_keys (t : OrderedMap κ α) : t.keys.Pairwise (· < ·) :=
  TreeMap.ordered_keys.imp compare_lt_iff_lt.1

theorem firstKey?_eq_some_iff : t.firstKey? = some k ↔ k ∈ t ∧ ∀ k' ∈ t, k ≤ k' := by
  have hkeys := t.pairwise_keys
  unfold firstKey?
  simp only [← TreeMap.mem_keys]
  rcases hcons : t.keys with - | ⟨first, rest⟩
  · simp
  · rw [hcons, List.pairwise_cons] at hkeys
    rw [List.head?_cons, Option.some.injEq]
    constructor
    · rintro rfl
      refine ⟨List.mem_cons_self, fun k' hk' => ?_⟩
      rcases List.mem_cons.1 hk' with rfl | hk'
      · exact le_rfl
      · exact le_of_lt (hkeys.1 k' hk')
    · rintro ⟨hk, hle⟩
      rcases List.mem_cons.1 hk with rfl | hk
      · rfl
      · exact absurd (hle first List.mem_cons_self) (not_le_of_gt (hkeys.1 k hk))

theorem lastKey?_eq_some_iff : t.lastKey? = some k ↔ k ∈ t ∧ ∀ k' ∈ t, k' ≤ k := by
  have hkeys := t.pairwise_keys
  unfold lastKey?
  simp only [← TreeMap.mem_keys]
  rcases List.eq_nil_or_concat' t.keys with hnil | ⟨rest, last, hconcat⟩
  · simp [hnil]
  · rw [hconcat, List.pairwise_append] at hkeys
    rw [hconcat, List.getLast?_concat, Option.some.injEq]
    have hlast : ∀ k' ∈ rest, k' < last := fun k' hk' =>
      hkeys.2.2 k' hk' last List.mem_cons_self
    constructor
    · rintro rfl
      refine ⟨by simp, fun k' hk' => ?_⟩
      rcases List.mem_append.1 hk' with hk' | hk'
      · exact le_of_lt (hlast k' hk')
      · exact le_of_eq (List.mem_singleton.1 hk')
    · rintro ⟨hk, hle⟩
      rcases List.mem_append.1 hk with hk | hk
      · exact absurd (hle last (by simp)) (not_le_of_gt (hlast k hk))
      · exact (List.mem_singleton.1 hk).symm

theorem exists_firstKey? (h : t.size ≠ 0) : ∃ k, t.firstKey? = some k := by
  unfold firstKey?
  rcases hkeys : t.keys with - | ⟨first, rest⟩
  · rw [← TreeMap.length_keys, hkeys] at h
    exact absurd rfl h
  · exact ⟨first, rfl⟩

theorem exists_lastKey? (h : t.size ≠ 0) : ∃ k, t.lastKey? = some k := by
  unfold lastKey?
  rcases hkeys : t.keys with - | ⟨first, rest⟩
  · rw [← TreeMap.length_keys, hkeys] at h
    exact absurd rfl h
  · exact ⟨_, List.getLast?_eq_some_getLast (List.cons_ne_nil _ _)⟩

end OrderedMap
