import AnalogConnect.MutationLimiter

/-!
# How many requests the limiter allows

The limiter counts by windows of its own: whatever the requests, its trace is cut into windows in
each of which the first `maximum` requests are allowed (`CountsBy`). An interval of a window's
length may meet two of them, so twice `maximum` bounds every interval (`mutation_limiter_bounds`),
and `maximum` does not: a burst around the beginning of a window is let through (`burst_allowed`).
-/

namespace AnalogConnect

open Transducer

variable {maximum window started now : ℕ} {past : List (ℕ × Bool)} {limiter : MutationLimiter}
  {windows : List (TimeWindow (ℕ × Bool))} {w : TimeWindow (ℕ × Bool)}

/-- What is allowed of a window with one request more. -/
theorem allowed_snoc {members : List (ℕ × Bool)}
    (h : members.map Prod.snd = (List.range members.length).map fun i => decide (i < maximum)) :
    (members ++ [(now, decide (min members.length maximum < maximum))]).map Prod.snd =
      (List.range (members ++ [(now, decide (min members.length maximum < maximum))]).length).map
        fun i => decide (i < maximum) := by
  have hmin : min members.length maximum < maximum ↔ members.length < maximum := by omega
  rw [List.map_append, h, List.length_append, List.length_singleton, List.range_succ,
    List.map_append]
  simp [hmin]

/-- Allowed are the first `maximum`, so no more than that. -/
theorem countP_le_maximum {members : List (ℕ × Bool)}
    (h : members.map Prod.snd = (List.range members.length).map fun i => decide (i < maximum)) :
    members.countP Prod.snd ≤ maximum := by
  have hcount : members.countP Prod.snd = (members.map Prod.snd).countP id := by
    rw [List.countP_map]
    rfl
  have hrange : ∀ n, (List.range n).countP (fun i => decide (i < maximum)) ≤ maximum := by
    intro n
    induction n with
    | zero => exact Nat.zero_le maximum
    | succ n ih =>
      rw [List.range_succ, List.countP_append, List.countP_singleton]
      by_cases hn : n < maximum
      · have := List.countP_le_length (p := fun i => decide (i < maximum)) (l := List.range n)
        rw [List.length_range] at this
        simp only [hn, decide_true, if_true]
        omega
      · simpa [hn] using ih
  rw [hcount, h, List.countP_map]
  exact hrange members.length

theorem mem_tail_snoc {w' : TimeWindow (ℕ × Bool)} :
    w' ∈ (windows ++ [w]).tail ↔ w' ∈ windows.tail ∨ windows ≠ [] ∧ w' = w := by
  cases windows with
  | nil => simp
  | cons first rest => simp

/-- The last of the windows is the one the limiter is in. -/
structure InWindow (maximum window started : ℕ) (past : List (ℕ × Bool)) (limiter : MutationLimiter)
    (windows : List (TimeWindow (ℕ × Bool))) (w : TimeWindow (ℕ × Bool)) : Prop where
  maximum_eq : limiter.maximum = maximum
  window_eq : limiter.window = window
  counts : CountsBy maximum window started past (windows ++ [w])
  state_eq : limiter.state = ⟨w.start, min w.members.length maximum⟩

theorem inWindow_new (maximum : UInt32) (window started : ℕ) :
    InWindow maximum.toNat window started [] (.new maximum window started) []
      ⟨started, []⟩ where
  maximum_eq := rfl
  window_eq := rfl
  counts := by
    refine ⟨rfl, rfl, ?_, List.pairwise_singleton _ _, ?_, ?_⟩ <;> simp
  state_eq := by simp [MutationLimiter.new]

namespace InWindow

theorem mem_past (h : InWindow maximum window started past limiter windows w) {r : ℕ × Bool}
    {w' : TimeWindow (ℕ × Bool)} (hw' : w' ∈ windows ++ [w]) (hr : r ∈ w'.members) : r ∈ past := by
  rw [h.counts.trace_eq]
  exact List.mem_flatMap_of_mem hw' hr

/-- A request while the window lasts. -/
theorem stays (h : InWindow maximum window started past limiter windows w)
    (hpast : ∀ r ∈ past, r.1 ≤ now) (hnow : now - limiter.state.startedAt < limiter.window) :
    InWindow maximum window started (past ++ [(now, (limiter.allowAt now).1)])
      (limiter.allowAt now).2 windows ⟨w.start, w.members ++ [(now, (limiter.allowAt now).1)]⟩ := by
  have hwindow : limiter.windowAt now = ⟨w.start, min w.members.length maximum⟩ := by
    unfold MutationLimiter.windowAt
    rw [if_neg (by omega), h.state_eq]
  have hanswer : (limiter.allowAt now).1 = decide (min w.members.length maximum < maximum) := by
    rw [limiter.allowAt_fst, hwindow, h.maximum_eq]
  obtain ⟨hmaximum, hlength, hstate⟩ := limiter.allowAt_snd now
  have hbefore := h.counts.before
  rw [h.window_eq, h.state_eq] at hnow
  have hbegun : windows ≠ [] → ∃ r, w.members.head? = some r ∧ r.1 = w.start := fun hne =>
    h.counts.begun w (mem_tail_snoc.2 (.inr ⟨hne, rfl⟩))
  refine ⟨hmaximum.trans h.maximum_eq, hlength.trans h.window_eq, ⟨?_, ?_, ?_, ?_, ?_, ?_⟩, ?_⟩
  · rw [h.counts.trace_eq]
    simp
  · have hfirst := h.counts.first
    cases windows with
    | nil => exact hfirst
    | cons first rest => exact hfirst
  · intro w' hw'
    rcases mem_tail_snoc.1 hw' with hw' | ⟨hne, rfl⟩
    · exact h.counts.begun w' (mem_tail_snoc.2 (.inl hw'))
    · obtain ⟨r, hhead, hstart⟩ := hbegun hne
      exact ⟨r, by rw [List.head?_append, hhead]; rfl, hstart⟩
  · simp only [List.pairwise_append, List.pairwise_singleton, List.mem_singleton,
      forall_eq, true_and] at hbefore ⊢
    refine ⟨hbefore.1, fun a ha => ⟨(hbefore.2 a ha).apart, (hbefore.2 a ha).left, ?_⟩⟩
    intro r hr
    rcases List.mem_append.1 hr with hr | hr
    · exact (hbefore.2 a ha).right r hr
    · obtain rfl := List.mem_singleton.1 hr
      obtain ⟨first, hfirst, hstart⟩ := hbegun (List.ne_nil_of_mem ha)
      exact hstart ▸ hpast first (h.mem_past List.mem_concat_self (List.mem_of_head? hfirst))
  · simp only [List.forall_mem_append, List.forall_mem_singleton]
    refine ⟨fun w' hw' => h.counts.within w' (List.mem_append_left _ hw'),
      h.counts.within w List.mem_concat_self, .inr hnow⟩
  · simp only [List.forall_mem_append, List.forall_mem_singleton]
    refine ⟨fun w' hw' => h.counts.allowed w' (List.mem_append_left _ hw'), ?_⟩
    rw [hanswer]
    exact allowed_snoc (h.counts.allowed w List.mem_concat_self)
  · rw [hstate, hwindow, h.maximum_eq]
    simp only [List.length_append, List.length_singleton, MutationWindow.mk.injEq, true_and]
    omega

/-- A request that begins a window. -/
theorem begins (h : InWindow maximum window started past limiter windows w)
    (hpast : ∀ r ∈ past, r.1 ≤ now) (hnow : limiter.window ≤ now - limiter.state.startedAt) :
    InWindow maximum window started (past ++ [(now, (limiter.allowAt now).1)])
      (limiter.allowAt now).2 (windows ++ [w]) ⟨now, [(now, (limiter.allowAt now).1)]⟩ := by
  have hwindow : limiter.windowAt now = ⟨now, 0⟩ := if_pos hnow
  have hanswer : (limiter.allowAt now).1 = decide (0 < maximum) := by
    rw [limiter.allowAt_fst, hwindow, h.maximum_eq]
  obtain ⟨hmaximum, hlength, hstate⟩ := limiter.allowAt_snd now
  rw [h.window_eq, h.state_eq] at hnow
  refine ⟨hmaximum.trans h.maximum_eq, hlength.trans h.window_eq, ⟨?_, ?_, ?_, ?_, ?_, ?_⟩, ?_⟩
  · rw [h.counts.trace_eq]
    simp
  · rw [List.head?_append_of_ne_nil _ (List.concat_ne_nil w windows)]
    exact h.counts.first
  · intro w' hw'
    rcases mem_tail_snoc.1 hw' with hw' | ⟨-, rfl⟩
    · exact h.counts.begun w' hw'
    · exact ⟨_, rfl, rfl⟩
  · have hbefore := h.counts.before
    refine List.pairwise_append.2 ⟨hbefore, List.pairwise_singleton _ _, fun a ha b hb => ?_⟩
    obtain rfl := List.mem_singleton.1 hb
    refine ⟨?_, fun r hr => hpast r (h.mem_past ha hr), by simp⟩
    rcases List.mem_append.1 ha with ha | ha
    · have hapart := ((List.pairwise_append.1 hbefore).2.2 a ha w List.mem_cons_self).apart
      dsimp only at hnow ⊢
      omega
    · obtain rfl := List.mem_singleton.1 ha
      exact hnow
  · rw [List.forall_mem_append, List.forall_mem_singleton]
    exact ⟨h.counts.within, by simp⟩
  · rw [List.forall_mem_append, List.forall_mem_singleton]
    exact ⟨h.counts.allowed, by simp [hanswer]⟩
  · rw [hstate, hwindow, h.maximum_eq]
    rfl

end InWindow

/-- Whatever the requests, the limiter is in the last of some windows. -/
theorem inWindow_run (maximum : UInt32) (window started : ℕ) {requests : List ℕ}
    (h : Ordered id requests) :
    ∃ windows w, InWindow maximum.toNat window started
      (mutationLimiter.trace (.new maximum window started) requests)
      (mutationLimiter.after (.new maximum window started) requests) windows w := by
  refine mutationLimiter.ordered_history (P := fun past limiter => ∃ windows w,
    InWindow maximum.toNat window started past limiter windows w)
    ⟨[], _, inWindow_new maximum window started⟩
    (fun past limiter now hpast ih => ?_) h
  obtain ⟨windows, w, ih⟩ := ih
  rcases Nat.lt_or_ge (now - limiter.state.startedAt) limiter.window with hnow | hnow
  · exact ⟨windows, _, ih.stays hpast hnow⟩
  · exact ⟨windows ++ [w], _, ih.begins hpast hnow⟩

/-- The limiter allows `maximum` in each of its own windows, which begin with a request, and so at
most twice that in any interval as long. -/
theorem mutation_limiter_bounds (maximum : UInt32) (window started : ℕ) {requests : List ℕ}
    (h : Ordered id requests) :
    (∃ windows, CountsBy maximum.toNat window started
      (mutationLimiter.trace (.new maximum window started) requests) windows) ∧
    ∀ t, (mutationLimiter.trace (.new maximum window started) requests).countP
      (fun r => r.2 && t ≤ r.1 && r.1 < t + window) ≤ 2 * maximum.toNat := by
  obtain ⟨windows, w, hin⟩ := inWindow_run maximum window started h
  refine ⟨⟨_, hin.counts⟩, fun t => ?_⟩
  rw [hin.counts.trace_eq]
  exact TimeWindow.countP_le_two_mul t
    (fun w' hw' => countP_le_maximum (hin.counts.allowed w' hw')) hin.counts.before

/-- Ten requests a second before a minute is over, ten at its end, and two more after. -/
def burst : List ℕ :=
  List.replicate 10 (59 * 10 ^ 9) ++ List.replicate 10 (60 * 10 ^ 9) ++ [61 * 10 ^ 9, 130 * 10 ^ 9]

theorem mutation_limiter_bounds_burst :
    (∃ windows, CountsBy 10 (60 * 10 ^ 9) 0
      (mutationLimiter.trace (.new 10 (60 * 10 ^ 9) 0) burst) windows) ∧
    ∀ t, (mutationLimiter.trace (.new 10 (60 * 10 ^ 9) 0) burst).countP
      (fun r => r.2 && t ≤ r.1 && r.1 < t + 60 * 10 ^ 9) ≤ 2 * 10 :=
  mutation_limiter_bounds 10 (60 * 10 ^ 9) 0 (by
    unfold Ordered burst
    decide)

/-- All twenty are allowed, within two seconds. -/
theorem burst_allowed :
    Ordered id burst ∧
    ¬ (mutationLimiter.trace (.new 10 (60 * 10 ^ 9) 0) burst).countP
      (fun r => r.2 && 59 * 10 ^ 9 ≤ r.1 && r.1 < 59 * 10 ^ 9 + 60 * 10 ^ 9) ≤ 10 := by
  unfold Ordered
  decide

end AnalogConnect
