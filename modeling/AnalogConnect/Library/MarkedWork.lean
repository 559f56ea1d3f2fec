import AnalogConnect.Library.Window

/-!
# Work marked before it is done

A worker goes through items by their keys, passes over those it has marked, and marks each other
one before it attempts it. The marks are a window of the newest `n`. An attempt may be refused
before the work or fail after it; either way the worker stops.

What is marked has been worked on as long as nothing new is refused (`marked_worked_iff`), and then
a pass that goes through leaves nothing of its items undone (`worked_of_ok`).
-/

universe u

namespace MarkedWork

inductive Attempt
  | refused
  | done
  | failed
deriving DecidableEq

/-- What a pass comes to: whether it went through, what it worked on, and what is marked then. -/
structure Outcome (κ : Type u) where
  ok : Bool
  worked : List κ
  marked : List κ

theorem subset_of_marked_snoc {κ : Type u} {n : ℕ} {marked worked : List κ} {key : κ}
    (h : ∀ k ∈ marked, k ∈ worked) :
    ∀ k ∈ Window.keepNewest n (marked ++ [key]), k ∈ worked ++ [key] := by
  intro k hk
  rcases List.mem_append.1 (Window.mem_of_mem_keepNewest hk) with hk | hk
  · exact List.mem_append_left _ (h k hk)
  · exact List.mem_append_right _ hk

variable {κ : Type u} [DecidableEq κ] {n : ℕ} {marked worked : List κ}

def work (n : ℕ) : List κ → List (κ × Attempt) → Outcome κ
  | marked, [] => ⟨true, [], marked⟩
  | marked, (key, attempt) :: items =>
    if key ∈ marked then work n marked items
    else
      let marked := Window.keepNewest n (marked ++ [key])
      match attempt with
      | .refused => ⟨false, [], marked⟩
      | .failed => ⟨false, [key], marked⟩
      | .done =>
        let rest := work n marked items
        { rest with worked := key :: rest.worked }

/-- No item that a pass comes to is refused, but for those worked on before. -/
def NoneRefused (n : ℕ) : List κ → List κ → List (κ × Attempt) → Prop
  | _, _, [] => True
  | marked, worked, (key, attempt) :: items =>
    if key ∈ marked then NoneRefused n marked worked items
    else
      match attempt with
      | .refused => key ∈ worked
      | .failed => True
      | .done => NoneRefused n (Window.keepNewest n (marked ++ [key])) (worked ++ [key]) items

section Head

variable {key : κ} {attempt : Attempt} {items : List (κ × Attempt)}

theorem work_of_marked (h : key ∈ marked) :
    work n marked ((key, attempt) :: items) = work n marked items := by
  rw [work, if_pos h]

theorem work_refused (h : key ∉ marked) : work n marked ((key, .refused) :: items) =
    ⟨false, [], Window.keepNewest n (marked ++ [key])⟩ := by
  rw [work, if_neg h]

theorem work_failed (h : key ∉ marked) : work n marked ((key, .failed) :: items) =
    ⟨false, [key], Window.keepNewest n (marked ++ [key])⟩ := by
  rw [work, if_neg h]

theorem work_done (h : key ∉ marked) : work n marked ((key, .done) :: items) =
    { work n (Window.keepNewest n (marked ++ [key])) items with
      worked := key :: (work n (Window.keepNewest n (marked ++ [key])) items).worked } := by
  rw [work, if_neg h]

theorem noneRefused_of_marked (h : key ∈ marked) :
    NoneRefused n marked worked ((key, attempt) :: items) ↔ NoneRefused n marked worked items := by
  simp only [NoneRefused, if_pos h]

theorem noneRefused_refused (h : key ∉ marked) :
    NoneRefused n marked worked ((key, .refused) :: items) ↔ key ∈ worked := by
  simp only [NoneRefused, if_neg h]

theorem noneRefused_failed (h : key ∉ marked) :
    NoneRefused n marked worked ((key, .failed) :: items) := by
  simp only [NoneRefused, if_neg h]

theorem noneRefused_done (h : key ∉ marked) :
    NoneRefused n marked worked ((key, .done) :: items) ↔
      NoneRefused n (Window.keepNewest n (marked ++ [key])) (worked ++ [key]) items := by
  simp only [NoneRefused, if_neg h]

end Head

/-- All marks are of work done exactly when nothing new was refused. -/
theorem marked_worked_iff (hn : 0 < n) : ∀ {items : List (κ × Attempt)} {marked worked : List κ},
    (∀ k ∈ marked, k ∈ worked) →
      ((∀ k ∈ (work n marked items).marked, k ∈ worked ++ (work n marked items).worked) ↔
        NoneRefused n marked worked items)
  | [], marked, worked, h => by
    refine iff_of_true (fun k hk => ?_) trivial
    exact List.mem_append_left _ (h k hk)
  | (key, attempt) :: items, marked, worked, h => by
    by_cases hkey : key ∈ marked
    · rw [work_of_marked hkey, noneRefused_of_marked hkey]
      exact marked_worked_iff hn h
    · have hsnoc : ∀ k ∈ Window.keepNewest n (marked ++ [key]), k ∈ worked ++ [key] :=
        subset_of_marked_snoc h
      cases attempt with
      | refused =>
        rw [work_refused hkey, noneRefused_refused hkey, List.append_nil]
        refine ⟨fun hall => hall key (Window.mem_keepNewest_snoc hn), fun hworked k hk => ?_⟩
        rcases List.mem_append.1 (hsnoc k hk) with hk | hk
        · exact hk
        · rw [List.mem_singleton.1 hk]
          exact hworked
      | failed =>
        rw [work_failed hkey]
        exact iff_of_true hsnoc (noneRefused_failed hkey)
      | done =>
        rw [work_done hkey, noneRefused_done hkey, ← marked_worked_iff hn hsnoc,
          List.append_assoc, List.singleton_append]

/-- A pass that goes through has worked on all of its items, now or before. -/
theorem worked_of_ok : ∀ {items : List (κ × Attempt)} {marked worked : List κ},
    (∀ k ∈ marked, k ∈ worked) → (work n marked items).ok = true →
      ∀ item ∈ items, item.1 ∈ worked ++ (work n marked items).worked
  | [], _, _, _, _ => fun _ hitem => absurd hitem List.not_mem_nil
  | (key, attempt) :: items, marked, worked, h, hok => by
    intro item hitem
    by_cases hkey : key ∈ marked
    · rw [work_of_marked hkey] at hok ⊢
      rcases List.mem_cons.1 hitem with rfl | hitem
      · exact List.mem_append_left _ (h key hkey)
      · exact worked_of_ok h hok item hitem
    · cases attempt with
      | refused =>
        rw [work_refused hkey] at hok
        cases hok
      | failed =>
        rw [work_failed hkey] at hok
        cases hok
      | done =>
        rw [work_done hkey] at hok ⊢
        rcases List.mem_cons.1 hitem with rfl | hitem
        · exact List.mem_append_right _ List.mem_cons_self
        · have hrest := worked_of_ok (subset_of_marked_snoc h) hok item hitem
          rwa [List.append_assoc, List.singleton_append] at hrest

end MarkedWork
