import Mathlib.Data.Finset.Card
import Mathlib.Data.Finset.Dedup
import Mathlib.Data.List.Basic

/-!
# Bounded windows

A window keeps the newest entries of a list: `keepNewest n` drops from the front until `n` are left.
`indicesWhere` finds entries by position, and a single hit can be taken out by its position
(`indicesWhere_eq_singleton`).
-/

universe u v

namespace Window

variable {α : Type u} {β : Type v} {f : α → β}

/-- The last `n` entries. -/
def keepNewest (n : ℕ) (l : List α) : List α := l.drop (l.length - n)

theorem keepNewest_sublist (n : ℕ) (l : List α) : (keepNewest n l).Sublist l :=
  List.drop_sublist _ l

theorem length_keepNewest_le (n : ℕ) (l : List α) : (keepNewest n l).length ≤ n := by
  rw [keepNewest, List.length_drop]
  omega

theorem mem_of_mem_keepNewest {n : ℕ} {l : List α} {a : α} (h : a ∈ keepNewest n l) : a ∈ l :=
  (keepNewest_sublist n l).subset h

theorem mem_keepNewest_snoc {n : ℕ} {l : List α} {a : α} (hn : 0 < n) :
    a ∈ keepNewest n (l ++ [a]) := by
  unfold keepNewest
  rw [List.drop_append_of_le_length]
  · exact List.mem_append_right _ List.mem_cons_self
  · rw [List.length_append, List.length_singleton]
    omega

theorem mem_map_keepNewest_snoc {f : α → β} {n : ℕ} {l : List α} {a : α} {b : β}
    (h : b ∈ (keepNewest n (l ++ [a])).map f) : b ∈ l.map f ∨ b = f a := by
  obtain ⟨x, hx, rfl⟩ := List.mem_map.1 h
  rcases List.mem_append.1 (mem_of_mem_keepNewest hx) with hx | hx
  · exact .inl (List.mem_map_of_mem hx)
  · exact .inr (by rw [List.mem_singleton.1 hx])

theorem nodup_map_keepNewest_snoc {f : α → β} {l : List α} {a : α} (n : ℕ)
    (h : (l.map f).Nodup) (ha : ∀ b ∈ l, f b ≠ f a) :
    ((keepNewest n (l ++ [a])).map f).Nodup := by
  refine List.Nodup.sublist ((keepNewest_sublist n _).map f) ?_
  rw [List.map_append, List.nodup_append]
  refine ⟨h, by simp, fun x hx y hy => ?_⟩
  obtain ⟨b, hb, rfl⟩ := List.mem_map.1 hx
  rw [List.mem_singleton.1 hy]
  exact ha b hb

/-- Adding an entry to a window of the newest, or to all there were, leaves the same window. -/
theorem keepNewest_keepNewest_snoc (n : ℕ) (l : List α) (a : α) :
    keepNewest n (keepNewest n l ++ [a]) = keepNewest n (l ++ [a]) := by
  have hshort : (l.length - n) ≤ l.length := Nat.sub_le _ _
  unfold keepNewest
  rw [← List.drop_append_of_le_length hshort, List.drop_drop, List.length_drop, List.length_append,
    List.length_singleton]
  congr 1
  omega

/-- Before the window has lost an entry, `n` others have come in after it. -/
theorem le_card_of_not_mem_keepNewest [DecidableEq α] {n : ℕ} {before mid : List α} {a : α}
    (hnodup : (keepNewest n (before ++ a :: mid)).Nodup)
    (ha : a ∉ keepNewest n (before ++ a :: mid)) : n ≤ mid.toFinset.card := by
  have hlen : n ≤ mid.length := by
    by_contra hlt
    refine ha ?_
    rw [keepNewest, List.drop_append_of_le_length
      (by simp only [List.length_append, List.length_cons]; omega)]
    exact List.mem_append_right _ List.mem_cons_self
  have hmid : keepNewest n (before ++ a :: mid) = mid.drop (mid.length - n) := by
    have hdrop : (before ++ a :: mid).length - n = (before ++ [a]).length + (mid.length - n) := by
      simp only [List.length_append, List.length_cons, List.length_nil]
      omega
    rw [keepNewest, hdrop, List.append_cons before a mid, List.drop_length_add_append]
  rw [hmid] at hnodup
  have hcard := List.toFinset_card_of_nodup hnodup
  rw [List.length_drop] at hcard
  have hsub : (mid.drop (mid.length - n)).toFinset ⊆ mid.toFinset :=
    fun b hb => List.mem_toFinset.2 (List.mem_of_mem_drop (List.mem_toFinset.1 hb))
  have := Finset.card_le_card hsub
  omega

/-- The first entry with `a`'s key gives way to `a`. -/
def replaceKey {κ : Type v} [DecidableEq κ] (key : α → κ) (a : α) : List α → List α
  | [] => []
  | b :: l => if key b = key a then a :: l else b :: replaceKey key a l

theorem map_replaceKey {κ : Type v} [DecidableEq κ] (key : α → κ) (a : α) :
    ∀ l : List α, (replaceKey key a l).map key = l.map key
  | [] => rfl
  | b :: l => by
    rw [replaceKey]
    split_ifs with h
    · rw [List.map_cons, List.map_cons, h]
    · rw [List.map_cons, List.map_cons, map_replaceKey key a l]

theorem length_replaceKey {κ : Type v} [DecidableEq κ] (key : α → κ) (a : α) (l : List α) :
    (replaceKey key a l).length = l.length := by
  rw [← List.length_map (f := key), map_replaceKey, List.length_map]

theorem mem_of_mem_replaceKey {κ : Type v} [DecidableEq κ] {key : α → κ} {a x : α} :
    ∀ {l : List α}, x ∈ replaceKey key a l → x = a ∨ x ∈ l
  | [], h => by simp [replaceKey] at h
  | b :: l, h => by
    rw [replaceKey] at h
    split_ifs at h
    · rcases List.mem_cons.1 h with h | h
      · exact .inl h
      · exact .inr (List.mem_cons_of_mem b h)
    · rcases List.mem_cons.1 h with rfl | h
      · exact .inr List.mem_cons_self
      · exact (mem_of_mem_replaceKey h).imp_right (List.mem_cons_of_mem b)

/-- Where no two entries share a key, the entries that stay have another key than the new one. -/
theorem mem_replaceKey_of_nodup {κ : Type v} [DecidableEq κ] {key : α → κ} {a x : α} :
    ∀ {l : List α}, (l.map key).Nodup → x ∈ replaceKey key a l →
      x = a ∨ x ∈ l ∧ ((∃ b ∈ l, key b = key a) → key x ≠ key a)
  | [], _, h => by simp [replaceKey] at h
  | b :: l, hnodup, h => by
    rw [List.map_cons, List.nodup_cons] at hnodup
    rw [replaceKey] at h
    split_ifs at h with hb
    · rcases List.mem_cons.1 h with h | h
      · exact .inl h
      · exact .inr ⟨List.mem_cons_of_mem b h, fun _ heq =>
          hnodup.1 (hb.trans heq.symm ▸ List.mem_map_of_mem h)⟩
    · rcases List.mem_cons.1 h with rfl | h
      · exact .inr ⟨List.mem_cons_self, fun _ => hb⟩
      · refine (mem_replaceKey_of_nodup hnodup.2 h).imp_right fun hx =>
          ⟨List.mem_cons_of_mem b hx.1, ?_⟩
        rintro ⟨d, hd, hkey⟩
        rcases List.mem_cons.1 hd with rfl | hd
        · exact absurd hkey hb
        · exact hx.2 ⟨d, hd, hkey⟩

theorem mem_of_filter_eq_singleton {p : α → Bool} {l : List α} {a : α}
    (h : l.filter p = [a]) : a ∈ l ∧ p a = true :=
  List.mem_filter.1 (h ▸ List.mem_singleton_self a)

theorem eq_of_filter_eq_singleton {p : α → Bool} {l : List α} {a b : α}
    (h : l.filter p = [a]) (hb : b ∈ l) (hp : p b = true) : b = a :=
  List.mem_singleton.1 (h ▸ List.mem_filter.2 ⟨hb, hp⟩)

theorem two_le_length_of_ne_singleton {l : List α} {a : α} (ha : a ∈ l) (hne : ∀ b, l ≠ [b]) :
    2 ≤ l.length := by
  rcases l with - | ⟨b, - | ⟨b', l⟩⟩
  · exact absurd ha List.not_mem_nil
  · exact absurd rfl (hne b)
  · simp

/-- The positions of the entries that satisfy `p`, in order. -/
def indicesWhere (p : α → Bool) (l : List α) : List ℕ :=
  (l.zipIdx.filter fun x => p x.1).map (·.2)

theorem map_fst_filter_zipIdx (p : α → Bool) (l : List α) :
    (l.zipIdx.filter fun x => p x.1).map (·.1) = l.filter p := by
  have h := List.filter_map (p := p) (f := Prod.fst) (l := l.zipIdx)
  rw [List.zipIdx_map_fst] at h
  exact h.symm

/-- The entries at the positions found are the entries that satisfy `p`. -/
theorem filterMap_indicesWhere (p : α → Bool) (l : List α) :
    (indicesWhere p l).filterMap (fun i => l[i]?) = l.filter p := by
  have hget : ∀ x ∈ l.zipIdx.filter fun x => p x.1, l[x.2]? = some x.1 := fun x hx =>
    List.mem_zipIdx_iff_getElem?.1 (List.mem_of_mem_filter hx)
  rw [indicesWhere, List.filterMap_map, ← map_fst_filter_zipIdx p l, ← List.filterMap_eq_map]
  exact List.filterMap_congr fun x hx => hget x hx

theorem length_indicesWhere (p : α → Bool) (l : List α) :
    (indicesWhere p l).length = (l.filter p).length := by
  rw [indicesWhere, List.length_map, ← map_fst_filter_zipIdx p l, List.length_map]

/-- One position is found where one entry satisfies `p`, and it is that entry's. -/
theorem indicesWhere_eq_singleton {p : α → Bool} {l : List α} {i : ℕ}
    (h : indicesWhere p l = [i]) : ∃ a, l[i]? = some a ∧ l.filter p = [a] := by
  have hmap := filterMap_indicesWhere p l
  have hlen := length_indicesWhere p l
  rw [h] at hmap hlen
  obtain ⟨a, ha⟩ := List.length_eq_one_iff.1 hlen.symm
  refine ⟨a, ?_, ha⟩
  rw [ha, List.filterMap_cons] at hmap
  split at hmap
  · simp at hmap
  · rename_i b hb
    rw [hb, (List.cons.inj hmap).1]

/-! ## Taking an entry out -/

theorem perm_map_eraseIdx (f : α → β) {l : List α} {i : ℕ} {a : α}
    (h : l[i]? = some a) : (l.map f).Perm (f a :: (l.eraseIdx i).map f) := by
  obtain ⟨hi, rfl⟩ := List.getElem?_eq_some_iff.1 h
  exact (List.getElem_cons_eraseIdx_perm hi).symm.map f

/-- Where no two entries share a key, the one taken out takes its key along. -/
theorem key_not_mem_eraseIdx {f : α → β} {l : List α} {i : ℕ} {a : α}
    (hnodup : (l.map f).Nodup) (h : l[i]? = some a) : f a ∉ (l.eraseIdx i).map f :=
  (List.nodup_cons.1 ((perm_map_eraseIdx f h).nodup_iff.1 hnodup)).1

theorem mem_of_mem_map_eraseIdx {f : α → β} {l : List α} {i : ℕ} {b : β}
    (h : b ∈ (l.eraseIdx i).map f) : b ∈ l.map f :=
  ((List.eraseIdx_sublist l i).map f).subset h

end Window
