import Mathlib.Data.Finset.Card
import Mathlib.Data.List.Destutter
import Mathlib.Data.List.Sort
import Mathlib.Data.String.Basic

/-!
# Sets of words, joined

A list of words sorted and without repetitions says which words are in it and no more
(`sortedDistinct_eq_iff`). Joined by a character that none of them has, a non-empty list of words
can be read back, so what is joined is found from the result (`intercalate_inj`).
-/

universe u

namespace JoinedSets

section Canonical

variable {α : Type u} [LinearOrder α]

/-- The list of what is in another, in order and once each. -/
def sortedDistinct (l : List α) : List α := (l.insertionSort (· ≤ ·)).dedup

@[simp] theorem mem_sortedDistinct {l : List α} {a : α} : a ∈ sortedDistinct l ↔ a ∈ l := by
  rw [sortedDistinct, List.mem_dedup, List.mem_insertionSort]

theorem pairwise_sortedDistinct (l : List α) : (sortedDistinct l).Pairwise (· ≤ ·) :=
  (List.pairwise_insertionSort (· ≤ ·) l).sublist (List.dedup_sublist _)

theorem nodup_sortedDistinct (l : List α) : (sortedDistinct l).Nodup := List.nodup_dedup _

theorem toFinset_sortedDistinct (l : List α) : (sortedDistinct l).toFinset = l.toFinset := by
  ext a
  simp

theorem length_sortedDistinct (l : List α) : (sortedDistinct l).length = l.toFinset.card := by
  rw [← toFinset_sortedDistinct, List.toFinset_card_of_nodup (nodup_sortedDistinct l)]

/-- Lists are brought to one form exactly when they are of one set. -/
theorem sortedDistinct_eq_iff {l m : List α} :
    sortedDistinct l = sortedDistinct m ↔ l.toFinset = m.toFinset := by
  constructor
  · intro h
    rw [← toFinset_sortedDistinct l, h, toFinset_sortedDistinct]
  · intro h
    have hperm : (sortedDistinct l).Perm (sortedDistinct m) := by
      rw [List.perm_ext_iff_of_nodup (nodup_sortedDistinct l) (nodup_sortedDistinct m)]
      intro a
      rw [mem_sortedDistinct, mem_sortedDistinct, ← List.mem_toFinset, h, List.mem_toFinset]
    exact hperm.eq_of_pairwise' (pairwise_sortedDistinct l) (pairwise_sortedDistinct m)

/-- Sorting brings repetitions together. -/
theorem destutter_insertionSort (l : List α) :
    (l.insertionSort (· ≤ ·)).destutter (· ≠ ·) = sortedDistinct l :=
  (List.pairwise_insertionSort (· ≤ ·) l).destutter_eq_dedup

theorem sortedDistinct_eq_nil {l : List α} : sortedDistinct l = [] ↔ l.toFinset = ∅ := by
  rw [← List.length_eq_zero_iff, length_sortedDistinct, Finset.card_eq_zero]

theorem sortedDistinct_eq_singleton {l : List α} {a : α} :
    sortedDistinct l = [a] ↔ l.toFinset = {a} := by
  have hone : sortedDistinct [a] = [a] := rfl
  rw [← hone, sortedDistinct_eq_iff]
  rfl

end Canonical

section Joined

variable {separator : Char} {words words' : List String}

/-- Words that do not have the separator are found from the joined string. -/
theorem intercalate_inj (hne : words ≠ []) (hne' : words' ≠ [])
    (hfree : ∀ word ∈ words, separator ∉ word.toList)
    (hfree' : ∀ word ∈ words', separator ∉ word.toList)
    (h : (String.singleton separator).intercalate words =
      (String.singleton separator).intercalate words') : words = words' := by
  have hlist := congrArg String.toList h
  rw [String.toList_intercalate, String.toList_intercalate, String.toList_singleton] at hlist
  have hsplit := congrArg (List.splitOn separator) hlist
  rw [List.splitOn_intercalate separator (List.forall_mem_map.2 hfree) (by simpa using hne),
    List.splitOn_intercalate separator (List.forall_mem_map.2 hfree') (by simpa using hne')]
    at hsplit
  exact List.map_injective_iff.2 (fun _ _ => String.toList_inj.1) hsplit

end Joined

end JoinedSets
