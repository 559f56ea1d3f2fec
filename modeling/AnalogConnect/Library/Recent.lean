import Mathlib.Data.Finset.Card
import Mathlib.Data.Finset.Dedup
import AnalogConnect.Library.Window

/-!
# A bounded memory of distinct entries

A memory holds the distinct entries it was told, oldest first, and forgets the oldest when it grows
past its capacity; to be told again what it holds changes nothing. So an entry is still held as long
as fewer others than the capacity were told since (`mem_foldl_remember`).
-/

universe u

namespace Recent

variable {α : Type u} [DecidableEq α]

def remember (capacity : ℕ) (order : List α) (a : α) : List α :=
  if a ∈ order then order else Window.keepNewest capacity (order ++ [a])

variable {capacity : ℕ} {order before after l : List α} {a x : α}

theorem nodup_remember (h : order.Nodup) : (remember capacity order a).Nodup := by
  unfold remember
  split_ifs with ha
  · exact h
  · refine (Window.keepNewest_sublist capacity (order ++ [a])).nodup ?_
    rw [List.nodup_append]
    refine ⟨h, List.nodup_singleton a, ?_⟩
    intro b hb c hc
    rw [List.mem_singleton.1 hc]
    rintro rfl
    exact ha hb

theorem length_remember_le (h : order.length ≤ capacity) :
    (remember capacity order a).length ≤ capacity := by
  unfold remember
  split_ifs
  · exact h
  · exact Window.length_keepNewest_le capacity (order ++ [a])

/-- A new entry comes last. -/
theorem remember_eq_concat (hcapacity : 0 < capacity) (ha : a ∉ order) :
    ∃ before, remember capacity order a = before ++ [a] := by
  unfold remember Window.keepNewest
  rw [if_neg ha, List.length_append, List.length_singleton,
    List.drop_append_of_le_length (by omega)]
  exact ⟨_, rfl⟩

/-- An entry with few enough others after it stays; the one told comes after it. -/
theorem remember_eq_append (hnodup : (before ++ x :: after).Nodup)
    (hlength : (before ++ x :: after).length ≤ capacity) (ha : a ∉ before ++ x :: after)
    (hafter : after.length + 1 < capacity) :
    ∃ before', remember capacity (before ++ x :: after) a = before' ++ x :: (after ++ [a]) := by
  unfold remember Window.keepNewest
  rw [if_neg ha, List.append_assoc, List.cons_append]
  cases before with
  | nil =>
    refine ⟨[], ?_⟩
    rw [List.nil_append, Nat.sub_eq_zero_of_le, List.drop_zero]
    simp only [List.length_cons, List.length_append, List.length_nil]
    omega
  | cons b before =>
    refine ⟨(b :: before).drop ((b :: before ++ x :: (after ++ [a])).length - capacity), ?_⟩
    rw [List.drop_append_of_le_length]
    simp only [List.length_cons, List.length_append, List.length_nil] at hlength ⊢
    omega

theorem mem_foldl_remember : ∀ {l before after : List α}, (before ++ x :: after).Nodup →
    (before ++ x :: after).length ≤ capacity →
    ((after ++ l).toFinset.erase x).card < capacity →
    x ∈ l.foldl (remember capacity) (before ++ x :: after)
  | [], before, after, _, _, _ => List.mem_append_right _ List.mem_cons_self
  | a :: l, before, after, hnodup, hlength, hcard => by
    have hx : x ∉ after := (List.nodup_cons.1 (List.nodup_append.1 hnodup).2.1).1
    rw [List.foldl_cons]
    by_cases ha : a ∈ before ++ x :: after
    · have hsame : remember capacity (before ++ x :: after) a = before ++ x :: after := if_pos ha
      rw [hsame]
      refine mem_foldl_remember hnodup hlength (Nat.lt_of_le_of_lt (Finset.card_le_card ?_) hcard)
      refine Finset.erase_subset_erase x fun y hy => ?_
      simp only [List.mem_toFinset, List.mem_append, List.mem_cons] at hy ⊢
      tauto
    · have hax : a ≠ x := by
        rintro rfl
        exact ha (List.mem_append_right _ List.mem_cons_self)
      have haa : a ∉ after := fun h =>
        ha (List.mem_append_right _ (List.mem_cons_of_mem _ h))
      have hsub : (after ++ [a]).toFinset ⊆ (after ++ a :: l).toFinset.erase x := by
        intro y hy
        simp only [List.mem_toFinset, List.mem_append, List.mem_singleton] at hy
        simp only [Finset.mem_erase, List.mem_toFinset, List.mem_append, List.mem_cons]
        rcases hy with hy | rfl
        · exact ⟨fun h => hx (h ▸ hy), .inl hy⟩
        · exact ⟨hax, .inr (.inl rfl)⟩
      have hafter : (after ++ [a]).Nodup := by
        rw [List.nodup_append]
        refine ⟨(List.nodup_cons.1 (List.nodup_append.1 hnodup).2.1).2, List.nodup_singleton a, ?_⟩
        intro b hb c hc
        rw [List.mem_singleton.1 hc]
        rintro rfl
        exact haa hb
      have hfew : after.length + 1 < capacity := by
        have := Finset.card_le_card hsub
        rw [List.toFinset_card_of_nodup hafter, List.length_append, List.length_singleton] at this
        omega
      obtain ⟨before', heq⟩ := remember_eq_append hnodup hlength ha hfew
      rw [heq]
      refine mem_foldl_remember (heq ▸ nodup_remember hnodup) (heq ▸ length_remember_le hlength) ?_
      rwa [List.append_assoc, List.singleton_append]

theorem foldl_remember_spec : ∀ (l : List α) {order : List α}, order.Nodup →
    order.length ≤ capacity → (l.foldl (remember capacity) order).Nodup ∧
      (l.foldl (remember capacity) order).length ≤ capacity
  | [], _, hnodup, hlength => ⟨hnodup, hlength⟩
  | a :: l, order, hnodup, hlength => by
    rw [List.foldl_cons]
    exact foldl_remember_spec l (nodup_remember hnodup) (length_remember_le hlength)

/-- A new entry is held until as many others as the capacity were told. -/
theorem mem_foldl_remember_of_new (hcapacity : 0 < capacity) (hnodup : order.Nodup)
    (hlength : order.length ≤ capacity) (hx : x ∉ order)
    (hcard : (l.toFinset.erase x).card < capacity) :
    x ∈ l.foldl (remember capacity) (remember capacity order x) := by
  obtain ⟨before, heq⟩ := remember_eq_concat hcapacity hx
  rw [heq]
  exact mem_foldl_remember (heq ▸ nodup_remember hnodup) (heq ▸ length_remember_le hlength) hcard

end Recent
