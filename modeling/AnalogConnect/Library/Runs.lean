import Mathlib.Data.List.Induction
import Mathlib.Data.List.Basic

/-!
# Runs of a labelled system

A system steps on events: `step s e` is the state after `e`, or `none` when `e` cannot happen in
`s`. A run is a list of events, each possible where the ones before it lead. What one step
preserves a run preserves (`Lts.run_invariant`), and so does a relation between the run so far
and the state it reached (`Lts.run_history`).
-/

universe u v

/-- A system whose events each have at most one outcome in a state. -/
structure Lts (σ : Type u) (ε : Type v) where
  step : σ → ε → Option σ

namespace Lts

variable {σ : Type u} {ε : Type v} (M : Lts σ ε)

/-- The state a list of events leads to, if each is possible in turn. -/
def run : σ → List ε → Option σ
  | s, [] => some s
  | s, e :: es => (M.step s e).bind fun s' => run s' es

@[simp] theorem run_nil (s : σ) : M.run s [] = some s := rfl

theorem run_cons (s : σ) (e : ε) (es : List ε) :
    M.run s (e :: es) = (M.step s e).bind fun s' => M.run s' es := rfl

theorem run_cons_eq_some {s s' : σ} {e : ε} {es : List ε} :
    M.run s (e :: es) = some s' ↔ ∃ t, M.step s e = some t ∧ M.run t es = some s' := by
  rw [run_cons, Option.bind_eq_some_iff]

theorem run_append (s : σ) (es fs : List ε) :
    M.run s (es ++ fs) = (M.run s es).bind fun s' => M.run s' fs := by
  induction es generalizing s with
  | nil => rfl
  | cons e es ih =>
    rw [List.cons_append, run_cons, run_cons, Option.bind_assoc]
    simp only [ih]

theorem run_append_eq_some {s s' : σ} {es fs : List ε} :
    M.run s (es ++ fs) = some s' ↔ ∃ t, M.run s es = some t ∧ M.run t fs = some s' := by
  rw [run_append, Option.bind_eq_some_iff]

theorem run_singleton (s : σ) (e : ε) : M.run s [e] = M.step s e := by
  rw [run_cons]
  cases M.step s e <;> rfl

theorem run_snoc_eq_some {s s' : σ} {es : List ε} {e : ε} :
    M.run s (es ++ [e]) = some s' ↔ ∃ t, M.run s es = some t ∧ M.step t e = some s' := by
  simp only [run_append_eq_some, run_singleton]

/-- Where every event is possible everywhere, so is every list of them. -/
theorem exists_run (hstep : ∀ s e, ∃ s', M.step s e = some s') :
    ∀ (es : List ε) (s : σ), ∃ s', M.run s es = some s'
  | [], s => ⟨s, rfl⟩
  | e :: es, s => by
    obtain ⟨t, ht⟩ := hstep s e
    obtain ⟨s', hs'⟩ := exists_run hstep es t
    exact ⟨s', M.run_cons_eq_some.2 ⟨t, ht, hs'⟩⟩

/-- What every step preserves, every run does. -/
theorem run_invariant {P : σ → Prop} (hstep : ∀ s e s', P s → M.step s e = some s' → P s') :
    ∀ {es : List ε} {s s' : σ}, P s → M.run s es = some s' → P s'
  | [], s, s', hs, h => by
    rw [run_nil, Option.some.injEq] at h
    exact h ▸ hs
  | e :: es, s, s', hs, h => by
    obtain ⟨t, ht, h⟩ := M.run_cons_eq_some.1 h
    exact run_invariant hstep (hstep s e t hs ht) h

/-- What every step of `es` preserves, the run along `es` does. -/
theorem run_invariant_of_mem {P : σ → Prop} :
    ∀ {es : List ε} {s s' : σ}, (∀ s, ∀ e ∈ es, ∀ s', P s → M.step s e = some s' → P s') →
      P s → M.run s es = some s' → P s'
  | [], s, s', _, hs, h => by
    rw [run_nil, Option.some.injEq] at h
    exact h ▸ hs
  | e :: es, s, s', hstep, hs, h => by
    obtain ⟨t, ht, h⟩ := M.run_cons_eq_some.1 h
    exact run_invariant_of_mem (fun s f hf => hstep s f (List.mem_cons_of_mem e hf))
      (hstep s e List.mem_cons_self t hs ht) h

/-- A relation between the events so far and the state they reached, which the empty run has and
every step extends, holds at the end of every run. -/
theorem run_history {s : σ} {P : List ε → σ → Prop} (hnil : P [] s)
    (hstep : ∀ past t e t', M.run s past = some t → P past t → M.step t e = some t' →
      P (past ++ [e]) t')
    {es : List ε} {s' : σ} (h : M.run s es = some s') : P es s' := by
  induction es using List.reverseRecOn generalizing s' with
  | nil =>
    rw [run_nil, Option.some.injEq] at h
    exact h ▸ hnil
  | append_singleton es e ih =>
    obtain ⟨t, ht, he⟩ := M.run_snoc_eq_some.1 h
    exact hstep es t e s' ht (ih ht) he

/-- The states a run passes through before each of its events. -/
def Before (s : σ) (es : List ε) (t : σ) (e : ε) : Prop :=
  ∃ past future, es = past ++ e :: future ∧ M.run s past = some t

/-- An event of a run is its first, or happens after that. -/
theorem before_cons {s t : σ} {es : List ε} {e f : ε} :
    M.Before s (e :: es) t f ↔ t = s ∧ f = e ∨ ∃ s', M.step s e = some s' ∧ M.Before s' es t f := by
  constructor
  · rintro ⟨- | ⟨e', past⟩, future, hes, hpast⟩
    · rw [run_nil, Option.some.injEq] at hpast
      exact .inl ⟨hpast.symm, (List.cons.inj hes).1.symm⟩
    · obtain ⟨rfl, rfl⟩ := List.cons.inj hes
      obtain ⟨s', hs', hpast⟩ := M.run_cons_eq_some.1 hpast
      exact .inr ⟨s', hs', past, future, rfl, hpast⟩
  · rintro (⟨rfl, rfl⟩ | ⟨s', hs', past, future, rfl, hpast⟩)
    · exact ⟨[], es, rfl, rfl⟩
    · exact ⟨e :: past, future, rfl, M.run_cons_eq_some.2 ⟨s', hs', hpast⟩⟩

/-- Each event of a run was possible where it happened. -/
theorem Before.step {s s' t : σ} {es : List ε} {e : ε} (hb : M.Before s es t e)
    (h : M.run s es = some s') : ∃ t', M.step t e = some t' := by
  obtain ⟨past, future, rfl, ht⟩ := hb
  obtain ⟨t₁, ht₁, h⟩ := M.run_append_eq_some.1 h
  obtain ⟨t', ht', -⟩ := M.run_cons_eq_some.1 h
  rw [ht, Option.some.injEq] at ht₁
  exact ⟨t', ht₁ ▸ ht'⟩

/-- The states a run passes through, its first and its last among them. -/
def Through (s : σ) (es : List ε) (t : σ) : Prop :=
  ∃ past future, es = past ++ future ∧ M.run s past = some t

theorem Before.through {s t : σ} {es : List ε} {e : ε} (h : M.Before s es t e) :
    M.Through s es t := by
  obtain ⟨past, future, hes, hpast⟩ := h
  exact ⟨past, e :: future, hes, hpast⟩

/-- What every step of a run preserves holds all through it. -/
theorem through_invariant {P : σ → Prop} {s : σ} {es : List ε} (hs : P s)
    (hstep : ∀ t e t', M.Before s es t e → P t → M.step t e = some t' → P t') {t : σ}
    (h : M.Through s es t) : P t := by
  obtain ⟨past, future, hes, hpast⟩ := h
  induction past using List.reverseRecOn generalizing t future with
  | nil =>
    rw [run_nil, Option.some.injEq] at hpast
    exact hpast ▸ hs
  | append_singleton past e ih =>
    obtain ⟨t', ht', he⟩ := M.run_snoc_eq_some.1 hpast
    rw [List.append_assoc, List.singleton_append] at hes
    exact hstep t' e t ⟨past, future, hes, ht'⟩ (ih (e :: future) hes ht') he

/-- What every step of a run preserves holds before each of its events. -/
theorem before_invariant {P : σ → Prop} {s : σ} {es : List ε} (hs : P s)
    (hstep : ∀ t e t', M.Before s es t e → P t → M.step t e = some t' → P t') {t : σ} {e : ε}
    (h : M.Before s es t e) : P t :=
  M.through_invariant hs hstep (h.through M)

theorem before_nil (s t : σ) (e : ε) : ¬ M.Before s [] t e := by
  rintro ⟨past, future, h, -⟩
  simp at h

/-- The last event of a run happens in the state the others led to. -/
theorem before_snoc {s t t' : σ} {es : List ε} {e e' : ε} (h : M.run s es = some t) :
    M.Before s (es ++ [e]) t' e' ↔ M.Before s es t' e' ∨ t' = t ∧ e' = e := by
  constructor
  · rintro ⟨past, future, hes, hpast⟩
    rcases List.eq_nil_or_concat future with rfl | ⟨future, last, rfl⟩
    · obtain ⟨rfl, he⟩ := List.append_inj' hes rfl
      rw [h, Option.some.injEq] at hpast
      exact .inr ⟨hpast.symm, (List.cons.inj he).1.symm⟩
    · rw [List.concat_eq_append, ← List.cons_append, ← List.append_assoc] at hes
      exact .inl ⟨past, future, (List.append_inj' hes rfl).1, hpast⟩
  · rintro (⟨past, future, rfl, hpast⟩ | ⟨rfl, rfl⟩)
    · exact ⟨past, future ++ [e], by simp, hpast⟩
    · exact ⟨es, [], rfl, h⟩

/-- An event that a run has once happens in the state the events before it led to. -/
theorem run_of_before {s t : σ} {past future : List ε} {e : ε} (hpast : e ∉ past)
    (hfuture : e ∉ future) (h : M.Before s (past ++ e :: future) t e) : M.run s past = some t := by
  obtain ⟨past', future', hsplit, ht⟩ := h
  obtain ⟨rfl, -, -⟩ := (List.append_cons_inj_of_notMem hpast hfuture).1 hsplit
  exact ht

/-- The states reachable from `s`. -/
def Reachable (s t : σ) : Prop := ∃ es, M.run s es = some t

theorem Reachable.invariant {P : σ → Prop} {s t : σ} (h : M.Reachable s t) (hs : P s)
    (hstep : ∀ s e s', P s → M.step s e = some s' → P s') : P t := by
  obtain ⟨es, hes⟩ := h
  exact M.run_invariant hstep hs hes

theorem Before.reachable {s t : σ} {es : List ε} {e : ε} (hb : M.Before s es t e) :
    M.Reachable s t := by
  obtain ⟨past, -, -, ht⟩ := hb
  exact ⟨past, ht⟩

end Lts
