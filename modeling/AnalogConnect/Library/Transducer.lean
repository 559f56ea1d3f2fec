import Mathlib.Data.List.Induction
import Mathlib.Data.List.Basic
import Mathlib.Order.Basic

/-!
# Transducers

A transducer takes every event in every state and answers it. Its trace lists the events with their
answers. What holds of the empty trace and of the start, and is extended by each step, holds of
every trace and the state it leads to (`Transducer.history`); where events carry times, a step may
count on those before it being no later (`Transducer.ordered_history`).
-/

universe u v w

structure Transducer (σ : Type u) (ε : Type v) (α : Type w) where
  step : σ → ε → α × σ

namespace Transducer

variable {σ : Type u} {ε : Type v} {α : Type w} (M : Transducer σ ε α)

/-- The events in order, each with its answer. -/
def trace : σ → List ε → List (ε × α)
  | _, [] => []
  | s, e :: es => (e, (M.step s e).1) :: trace (M.step s e).2 es

/-- The state a list of events leads to. -/
def after : σ → List ε → σ
  | s, [] => s
  | s, e :: es => after (M.step s e).2 es

theorem after_append : ∀ (es fs : List ε) (s : σ),
    M.after s (es ++ fs) = M.after (M.after s es) fs
  | [], _, _ => rfl
  | e :: es, fs, s => after_append es fs (M.step s e).2

theorem trace_append : ∀ (es fs : List ε) (s : σ),
    M.trace s (es ++ fs) = M.trace s es ++ M.trace (M.after s es) fs
  | [], _, _ => rfl
  | e :: es, fs, s => by
    rw [List.cons_append, trace, trace_append es fs]
    rfl

theorem after_snoc (s : σ) (es : List ε) (e : ε) :
    M.after s (es ++ [e]) = (M.step (M.after s es) e).2 := M.after_append es [e] s

theorem trace_snoc (s : σ) (es : List ε) (e : ε) :
    M.trace s (es ++ [e]) = M.trace s es ++ [(e, (M.step (M.after s es) e).1)] :=
  M.trace_append es [e] s

@[simp] theorem map_fst_trace : ∀ (es : List ε) (s : σ), (M.trace s es).map Prod.fst = es
  | [], _ => rfl
  | e :: es, s => by rw [trace, List.map_cons, map_fst_trace es]

/-- What the empty trace has and every step extends, every trace has. -/
theorem history {P : List (ε × α) → σ → Prop} {s : σ} (hnil : P [] s)
    (hstep : ∀ past t e, P past t → P (past ++ [(e, (M.step t e).1)]) (M.step t e).2)
    (es : List ε) : P (M.trace s es) (M.after s es) := by
  induction es using List.reverseRecOn with
  | nil => exact hnil
  | append_singleton es e ih =>
    rw [trace_snoc, after_snoc]
    exact hstep _ _ e ih

/-- What the empty trace has, and a step extends exactly on a condition, every trace on the way has
exactly when every step met the condition. -/
theorem history_iff {P : List (ε × α) → σ → Prop} {C : List (ε × α) → σ → ε → Prop} {s : σ}
    (hnil : P [] s)
    (hstep : ∀ past t e, P past t → (P (past ++ [(e, (M.step t e).1)]) (M.step t e).2 ↔ C past t e))
    {es : List ε} : (∀ past, past <+: es → P (M.trace s past) (M.after s past)) ↔
      ∀ past e future, es = past ++ e :: future → C (M.trace s past) (M.after s past) e := by
  constructor
  · rintro hall past e future rfl
    have hafter := hall (past ++ [e]) ⟨future, by rw [List.append_assoc, List.singleton_append]⟩
    rw [trace_snoc, after_snoc] at hafter
    exact (hstep _ _ e (hall past (List.prefix_append _ _))).1 hafter
  · intro hall past hpast
    induction past using List.reverseRecOn with
    | nil => exact hnil
    | append_singleton past e ih =>
      obtain ⟨future, rfl⟩ := hpast
      rw [List.append_assoc, List.singleton_append] at ih hall
      rw [trace_snoc, after_snoc]
      exact (hstep _ _ e (ih (List.prefix_append _ _))).2 (hall past e future rfl)

/-- An answer in a trace is the one given after the events before it. -/
theorem trace_split {s : σ} {es : List ε} {past future : List (ε × α)} {e : ε} {a : α}
    (h : M.trace s es = past ++ (e, a) :: future) :
    ∃ earlier later, es = earlier ++ e :: later ∧ M.trace s earlier = past ∧
      a = (M.step (M.after s earlier) e).1 := by
  induction past generalizing s es with
  | nil =>
    rcases es with - | ⟨f, es⟩
    · cases h
    · obtain ⟨hhead, -⟩ := List.cons.inj h
      obtain ⟨rfl, rfl⟩ := Prod.mk.inj hhead
      exact ⟨[], es, rfl, rfl, rfl⟩
  | cons x past ih =>
    rcases es with - | ⟨f, es⟩
    · cases h
    · obtain ⟨rfl, hrest⟩ := List.cons.inj h
      obtain ⟨earlier, later, rfl, rfl, ha⟩ := ih hrest
      exact ⟨f :: earlier, later, rfl, rfl, ha⟩

/-- A transducer that answers as another does, in states that `f` relates to its own, has its
trace. -/
theorem trace_map {σ' : Type*} {ε' : Type*} (N : Transducer σ' ε' α) {P : σ → Prop} (f : σ → σ')
    (g : ε → ε') (hP : ∀ s e, P s → P (M.step s e).2)
    (h : ∀ s e, P s → N.step (f s) (g e) = ((M.step s e).1, f (M.step s e).2)) :
    ∀ (es : List ε) (s : σ), P s → N.trace (f s) (es.map g) = (M.trace s es).map (Prod.map g id) ∧
      N.after (f s) (es.map g) = f (M.after s es)
  | [], _, _ => ⟨rfl, rfl⟩
  | e :: es, s, hs => by
    obtain ⟨htrace, hafter⟩ := trace_map N f g hP h es (M.step s e).2 (hP s e hs)
    rw [List.map_cons, trace, after, h s e hs, htrace, hafter]
    exact ⟨rfl, rfl⟩

section Ordered

variable (time : ε → ℕ)

/-- No event is earlier than one before it. -/
def Ordered (es : List ε) : Prop := (es.map time).Pairwise (· ≤ ·)

variable {time}

theorem ordered_append {es fs : List ε} :
    Ordered time (es ++ fs) ↔
      Ordered time es ∧ Ordered time fs ∧ ∀ e ∈ es, ∀ f ∈ fs, time e ≤ time f := by
  unfold Ordered
  rw [List.map_append, List.pairwise_append]
  simp only [List.forall_mem_map]

theorem ordered_snoc {es : List ε} {e : ε} :
    Ordered time (es ++ [e]) ↔ Ordered time es ∧ ∀ f ∈ es, time f ≤ time e := by
  rw [ordered_append]
  simp [Ordered]

/-- Of events in order, what the empty trace has and every step no earlier than those before it
extends, every trace has. -/
theorem ordered_history {P : List (ε × α) → σ → Prop} {s : σ} (hnil : P [] s)
    (hstep : ∀ past t e, (∀ r ∈ past, time r.1 ≤ time e) → P past t →
      P (past ++ [(e, (M.step t e).1)]) (M.step t e).2)
    {es : List ε} (h : Ordered time es) : P (M.trace s es) (M.after s es) := by
  induction es using List.reverseRecOn with
  | nil => exact hnil
  | append_singleton es e ih =>
    obtain ⟨hes, he⟩ := ordered_snoc.1 h
    rw [trace_snoc, after_snoc]
    refine hstep _ _ e (fun r hr => he r.1 ?_) (ih hes)
    rw [← M.map_fst_trace es s]
    exact List.mem_map_of_mem hr

end Ordered

end Transducer
