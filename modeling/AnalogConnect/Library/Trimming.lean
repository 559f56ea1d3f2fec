import Mathlib.Data.List.DropRight
import Mathlib.Data.List.Perm.Basic

/-!
# Lists trimmed by a test

A list is trimmed of the elements at its ends that a test takes. Two tests of which one takes more
leave the same of a list exactly when the narrower one takes all that the wider one took off
(`accepted_iff`), if what is left is to have nothing that either takes.
-/

universe u

namespace Trimming

variable {α : Type u} {p q : α → Bool} {l front core back : List α}

/-- What is left of a list once the elements of either end that pass the test are dropped. -/
def trimBy (p : α → Bool) (l : List α) : List α := (l.dropWhile p).rdropWhile p

/-- What trimming takes off. -/
def trimmedOff (p : α → Bool) (l : List α) : List α :=
  l.takeWhile p ++ (l.dropWhile p).rtakeWhile p

theorem parts (p : α → Bool) (l : List α) :
    l.takeWhile p ++ (trimBy p l ++ (l.dropWhile p).rtakeWhile p) = l := by
  rw [trimBy, List.rdropWhile_append_rtakeWhile, List.takeWhile_append_dropWhile]

theorem perm_parts (p : α → Bool) (l : List α) : (trimBy p l ++ trimmedOff p l).Perm l := by
  conv_rhs => rw [← parts p l]
  unfold trimmedOff
  rw [← List.append_assoc, ← List.append_assoc]
  exact List.perm_append_comm.append_right _

theorem of_mem_trimmedOff {a : α} (h : a ∈ trimmedOff p l) : p a = true := by
  rcases List.mem_append.1 h with h | h
  · exact List.mem_takeWhile_imp h
  · exact List.mem_rtakeWhile_imp h

theorem trimBy_append (hne : core ≠ []) (hcore : ∀ a ∈ core, p a = false)
    (hfront : ∀ a ∈ front, p a = true) (hback : ∀ a ∈ back, p a = true) :
    trimBy p (front ++ (core ++ back)) = core := by
  have hdrop : (core ++ back).dropWhile p = core ++ back := by
    obtain ⟨a, rest, rfl⟩ := List.exists_cons_of_ne_nil hne
    exact List.dropWhile_cons_of_neg (by simp [hcore a List.mem_cons_self])
  have hreverse : core.reverse.dropWhile p = core.reverse := by
    obtain ⟨a, rest, hrest⟩ := List.exists_cons_of_ne_nil (List.reverse_ne_nil_iff.2 hne)
    have ha : a ∈ core := List.mem_reverse.1 (hrest ▸ List.mem_cons_self)
    rw [hrest]
    exact List.dropWhile_cons_of_neg (by simp [hcore a ha])
  rw [trimBy, List.dropWhile_append_of_pos hfront, hdrop, List.rdropWhile, List.reverse_append,
    List.dropWhile_append_of_pos fun a ha => hback a (List.mem_reverse.1 ha), hreverse,
    List.reverse_reverse]

/-- What one test leaves, with nothing a wider one takes, is what the wider one leaves. -/
theorem trimBy_eq_of_le (hpq : ∀ a, p a = true → q a = true) (hne : trimBy p l ≠ [])
    (hkeep : ∀ a ∈ trimBy p l, q a = false) : trimBy q l = trimBy p l := by
  conv_lhs => rw [← parts p l]
  exact trimBy_append hne hkeep (fun a ha => hpq a (List.mem_takeWhile_imp ha))
    fun a ha => hpq a (List.mem_rtakeWhile_imp ha)

theorem trimBy_eq_iff (hpq : ∀ a, p a = true → q a = true) (hne : trimBy q l ≠ [])
    (hkeep : ∀ a ∈ trimBy q l, q a = false) :
    trimBy p l = trimBy q l ↔ ∀ a ∈ trimmedOff q l, p a = true := by
  constructor
  · intro h a ha
    have hperm : (trimBy q l ++ trimmedOff q l).Perm (trimBy q l ++ trimmedOff p l) := by
      conv_rhs => rw [← h]
      exact (perm_parts q l).trans (perm_parts p l).symm
    exact of_mem_trimmedOff (((List.perm_append_left_iff _).1 hperm).mem_iff.1 ha)
  · intro h
    have hkeep' : ∀ a ∈ trimBy q l, p a = false := fun a ha =>
      Bool.eq_false_iff.2 fun hp => by
        have := hkeep a ha
        rw [hpq a hp] at this
        cases this
    conv_lhs => rw [← parts q l]
    exact trimBy_append hne hkeep' (fun a ha => h a (List.mem_append_left _ ha))
      fun a ha => h a (List.mem_append_right _ ha)

/-- A check that passes only lists with nothing to trim passes what the narrower test leaves
exactly when it passes what the wider one leaves and the narrower takes all the wider took off. -/
theorem accepted_iff (passes : List α → Prop) (hpq : ∀ a, p a = true → q a = true)
    (hne : ∀ x, passes x → x ≠ []) (hkeep : ∀ x, passes x → ∀ a ∈ x, q a = false) :
    passes (trimBy p l) ↔ passes (trimBy q l) ∧ ∀ a ∈ trimmedOff q l, p a = true := by
  constructor
  · intro h
    have heq := trimBy_eq_of_le hpq (hne _ h) (hkeep _ h)
    have hq : passes (trimBy q l) := heq ▸ h
    exact ⟨hq, (trimBy_eq_iff hpq (hne _ hq) (hkeep _ hq)).1 heq.symm⟩
  · rintro ⟨h, hall⟩
    rw [(trimBy_eq_iff hpq (hne _ h) (hkeep _ h)).2 hall]
    exact h

end Trimming
