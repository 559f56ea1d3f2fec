import Mathlib.Data.List.Basic

/-!
# Cooldowns

A counter goes up with some events of a history and is set back by others. Where an event sets it
back only once it has gone up far enough, any two such events are that far apart (`Spaced.apart`).
-/

universe u

variable {α : Type u} (counts resets : α → Bool)

/-- The counter after a history, from where it started. -/
def sinceReset (start : ℕ) (history : List α) : ℕ :=
  history.foldl (fun n a => if resets a then 0 else if counts a then n + 1 else n) start

variable {counts resets} {start n : ℕ} {history : List α} {a : α}

theorem sinceReset_snoc :
    sinceReset counts resets start (history ++ [a]) =
      if resets a then 0
      else if counts a then sinceReset counts resets start history + 1
      else sinceReset counts resets start history := by
  unfold sinceReset
  rw [List.foldl_append]
  rfl

/-- The counter has gone up no more than what has happened could make it. -/
theorem sinceReset_le : ∀ (history : List α) (start : ℕ),
    sinceReset counts resets start history ≤ start + history.countP counts
  | [], start => Nat.le_refl start
  | a :: history, start => by
    have ih := fun start => sinceReset_le history start
    unfold sinceReset at ih ⊢
    rw [List.foldl_cons, List.countP_cons]
    by_cases hresets : resets a
    · rw [if_pos hresets]
      have := ih 0
      omega
    · rw [if_neg hresets]
      by_cases hcounts : counts a
      · rw [if_pos hcounts, if_pos hcounts]
        have := ih (start + 1)
        omega
      · rw [if_neg hcounts, if_neg hcounts]
        exact ih start

/-- The history sets its counter back only where that would have gone up to `n`. -/
def Spaced (counts resets : α → Bool) (start n : ℕ) (history : List α) : Prop :=
  ∀ before b after, history = before ++ b :: after → resets b = true →
    n ≤ sinceReset counts resets start before + 1

theorem Spaced.nil : Spaced counts resets start n [] := by
  intro before b after hsplit
  simp at hsplit

theorem Spaced.snoc (h : Spaced counts resets start n history)
    (ha : resets a = true → n ≤ sinceReset counts resets start history + 1) :
    Spaced counts resets start n (history ++ [a]) := by
  intro before b after hsplit hb
  rcases List.eq_nil_or_concat after with rfl | ⟨after, last, rfl⟩
  · obtain ⟨rfl, hlast⟩ := List.append_inj' hsplit rfl
    obtain rfl := List.head_eq_of_cons_eq hlast
    exact ha hb
  · rw [List.concat_eq_append, ← List.cons_append, ← List.append_assoc] at hsplit
    exact h before b after (List.append_inj' hsplit rfl).1 hb

/-- Between two events that set the counter back there are enough that count. -/
theorem Spaced.apart (h : Spaced counts resets start n history) {earlier between later : List α}
    {a b : α} (hsplit : history = earlier ++ a :: between ++ b :: later) (ha : resets a = true)
    (hb : resets b = true) : n ≤ between.countP counts + 1 := by
  have hn := h _ b later hsplit hb
  have hle : sinceReset counts resets 0 between ≤ 0 + between.countP counts :=
    sinceReset_le between 0
  have hreset : sinceReset counts resets start (earlier ++ a :: between) =
      sinceReset counts resets 0 between := by
    unfold sinceReset
    rw [List.foldl_append, List.foldl_cons, if_pos ha]
  omega
