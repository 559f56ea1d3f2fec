import Mathlib.Order.Hom.Basic
import AnalogConnect.Library.Jitter

/-!
# Two jitter buffers in step

Two jitter buffers whose keys correspond by an order embedding hold corresponding frames, expect the
same slot and have the same tally (`JitterView.Matches`). Where neither has to drop a frame, a frame
finds them in the same case, and where neither starves, so does a tick (`JitterView.Matches.insert`,
`JitterView.Matches.tick`): whatever the two do elsewhere, here they cannot part.
-/

universe u v w

variable {κ κ' : Type u} {α : Type v} {β : Type w} [LinearOrder κ] [LinearOrder κ'] {e : κ ↪o κ'}
  {R : α → β → Prop}

namespace JitterView

structure Matches (e : κ ↪o κ') (R : α → β → Prop) (view : JitterView κ α)
    (view' : JitterView κ' β) : Prop where
  frames : ∀ k, Option.Rel R view.frames[k]? view'.frames[e k]?
  keys : ∀ k' ∈ view'.frames, ∃ k, e k = k'
  next : view'.next = view.next.map e
  started : view'.started = view.started
  tally : view'.tally = view.tally

variable {view : JitterView κ α} {view' : JitterView κ' β} {k n : κ}

theorem matches_empty (e : κ ↪o κ') (R : α → β → Prop) : Matches e R .empty .empty where
  frames := fun k => by simp [empty]
  keys := fun k' hk' => by simp [empty] at hk'
  next := rfl
  started := rfl
  tally := rfl

namespace Matches

theorem mem_iff (h : Matches e R view view') : e k ∈ view'.frames ↔ k ∈ view.frames := by
  have hrel := h.frames k
  rw [OrderedMap.mem_iff_exists, OrderedMap.mem_iff_exists]
  generalize view.frames[k]? = a at hrel
  generalize view'.frames[e k]? = b at hrel
  cases hrel <;> simp

theorem inTime_iff (h : Matches e R view view') : view'.InTime (e k) ↔ view.InTime k := by
  unfold InTime
  rw [h.next]
  constructor
  · intro hle n hn
    exact e.le_iff_le.1 (hle (e n) (by rw [hn]; rfl))
  · intro hle n' hn'
    obtain ⟨n, hn, rfl⟩ := Option.map_eq_some_iff.1 hn'
    exact e.le_iff_le.2 (hle n hn)

theorem firstKey? (h : Matches e R view view') (hfirst : view.frames.firstKey? = some n) :
    view'.frames.firstKey? = some (e n) := by
  obtain ⟨hmem, hle⟩ := OrderedMap.firstKey?_eq_some_iff.1 hfirst
  refine OrderedMap.firstKey?_eq_some_iff.2 ⟨h.mem_iff.2 hmem, fun k' hk' => ?_⟩
  obtain ⟨k, rfl⟩ := h.keys k' hk'
  exact e.le_iff_le.2 (hle k (h.mem_iff.1 hk'))

/-- Two buffers that balance and have the same tally are equally full. -/
theorem size_eq (h : Matches e R view view') (hbalances : view.tally.Balances view.frames.size)
    (hbalances' : view'.tally.Balances view'.frames.size) :
    view'.frames.size = view.frames.size := by
  unfold JitterTally.Balances at hbalances hbalances'
  rw [h.tally] at hbalances'
  omega

/-! ## Frames -/

variable {key : α → κ} {key' : β → κ'} {capacity : ℕ} {a : α} {b : β} {v : JitterView κ α}
  {v' : JitterView κ' β}

/-- A frame that does not overflow the buffers finds them in the same case. -/
theorem insert (h : Matches e R view view') (hsize : view'.frames.size = view.frames.size)
    (hkey : key' b = e (key a)) (hab : R a b)
    (hroom : view.InTime (key a) → key a ∉ view.frames → view.frames.size ≠ capacity)
    (hstep : InsertStep key capacity view a v) (hstep' : InsertStep key' capacity view' b v') :
    Matches e R v v' := by
  have htime_iff := h.inTime_iff (k := key a)
  have hmem_iff := h.mem_iff (k := key a)
  have hlate_iff : ∀ n', view'.next = some n' → key' b < n' → ¬ view.InTime (key a) := by
    intro n' hn' hlt htime
    rw [hkey] at hlt
    exact absurd (htime_iff.2 htime n' hn') (not_le_of_gt hlt)
  rw [← hkey] at htime_iff hmem_iff
  cases hstep with
  | late hnext hlt =>
    have hlate : ¬ view.InTime (key a) := fun htime => absurd (htime _ hnext) (not_le_of_gt hlt)
    cases hstep' with
    | late => exact { h with tally := by rw [h.tally] }
    | duplicate htime => exact absurd (htime_iff.1 htime) hlate
    | refused htime => exact absurd (htime_iff.1 htime) hlate
    | replaced htime => exact absurd (htime_iff.1 htime) hlate
    | kept htime => exact absurd (htime_iff.1 htime) hlate
  | duplicate htime hmem =>
    cases hstep' with
    | late hnext hlt => exact absurd htime (hlate_iff _ hnext hlt)
    | duplicate => exact { h with tally := by rw [h.tally] }
    | refused _ hnew => exact absurd (hmem_iff.2 hmem) hnew
    | replaced _ hnew => exact absurd (hmem_iff.2 hmem) hnew
    | kept _ hnew => exact absurd (hmem_iff.2 hmem) hnew
  | refused htime hnew hfull => exact absurd hfull (hroom htime hnew)
  | replaced htime hnew hfull => exact absurd hfull (hroom htime hnew)
  | kept htime hnew hlt =>
    have hlt' := hsize ▸ hlt
    cases hstep' with
    | late hnext hlt => exact absurd htime (hlate_iff _ hnext hlt)
    | duplicate _ hmem => exact absurd (hmem_iff.1 hmem) hnew
    | refused _ _ hfull => exact absurd hfull (Nat.ne_of_lt hlt')
    | replaced _ _ hfull => exact absurd hfull (Nat.ne_of_lt hlt')
    | kept =>
      refine ⟨fun k => ?_, fun k' hk' => ?_, h.next, h.started, by rw [h.tally]⟩
      · rw [OrderedMap.getElem?_insert_eq, OrderedMap.getElem?_insert_eq, hkey]
        by_cases heq : k = key a
        · rw [if_pos heq, if_pos (congrArg e heq)]
          exact .some hab
        · rw [if_neg heq, if_neg fun he => heq (e.injective he)]
          exact h.frames k
      · rcases OrderedMap.mem_insert_iff.1 hk' with rfl | hk'
        · exact ⟨key a, hkey.symm⟩
        · exact h.keys k' hk'

/-! ## Ticks -/

variable {target : ℕ}

/-- Both take corresponding slots. -/
theorem slot (h : Matches e R view view') (hsize : view'.frames.size = view.frames.size)
    (hslot : view.Slot target n) : view'.Slot target (e n) := by
  rcases hslot with ⟨hstarted, hnext⟩ | ⟨hstarted, hready, hfirst⟩
  · exact .inl ⟨h.started.trans hstarted, by rw [h.next, hnext]; rfl⟩
  · exact .inr ⟨h.started.trans hstarted, hsize ▸ hready, h.firstKey? hfirst⟩

end Matches

theorem Slot.unique {target : ℕ} {m : κ} (h : view.Slot target n) (h' : view.Slot target m) :
    m = n := by
  rcases h with ⟨hstarted, hnext⟩ | ⟨hstarted, -, hfirst⟩ <;>
    rcases h' with ⟨hstarted', hnext'⟩ | ⟨hstarted', -, hfirst'⟩
  · exact Option.some.inj (hnext'.symm.trans hnext)
  · exact absurd (hstarted'.symm.trans hstarted) (by decide)
  · exact absurd (hstarted'.symm.trans hstarted) (by decide)
  · exact Option.some.inj (hfirst'.symm.trans hfirst)

/-- A buffer that takes a slot and does not starve holds a frame. -/
theorem Slot.size_ne_zero {target : ℕ} (h : view.Slot target n)
    (hfed : view.started = true → view.frames.size ≠ 0) : view.frames.size ≠ 0 := by
  rcases h with ⟨hstarted, -⟩ | ⟨-, -, hfirst⟩
  · exact hfed hstarted
  · intro hzero
    exact OrderedMap.size_eq_zero_iff.1 hzero n (OrderedMap.firstKey?_eq_some_iff.1 hfirst).1

/-- A buffer that waits or has ended has no slot to take. -/
theorem not_slot {target : ℕ}
    (hnone : view.started = false ∧ view.frames.size < target ∨
      view.started = true ∧ view.next = none) : ¬ view.Slot target n := by
  intro h
  rcases h with ⟨hstarted, hnext⟩ | ⟨hstarted, hready, -⟩ <;>
    rcases hnone with ⟨hstarted', hfew⟩ | ⟨hstarted', hend⟩
  · exact absurd (hstarted'.symm.trans hstarted) (by decide)
  · exact absurd (hend.symm.trans hnext) (Option.some_ne_none n).symm
  · exact absurd hready (Nat.not_le_of_lt hfew)
  · exact absurd (hstarted'.symm.trans hstarted) (by decide)

/-- A tick of a buffer with no slot to take does nothing. -/
theorem eq_of_not_slot {succ : κ → Option κ} {target : ℕ} {out : Option α} {v : JitterView κ α}
    (hnone : ∀ n, ¬ view.Slot target n) (hstep : TickStep succ target view out v) :
    out = none ∧ v = view := by
  cases hstep with
  | waiting => exact ⟨rfl, rfl⟩
  | ended => exact ⟨rfl, rfl⟩
  | emitted hslot => exact absurd hslot (hnone _)
  | missing hslot => exact absurd hslot (hnone _)
  | held hslot => exact absurd hslot (hnone _)

/-- A tick of a buffer with a slot to take, and a frame, takes it. -/
theorem Slot.taken {succ : κ → Option κ} {target : ℕ} {out : Option α} {v : JitterView κ α}
    (hslot : view.Slot target n) (hfed : view.frames.size ≠ 0)
    (hstep : TickStep succ target view out v) :
    out = view.frames[n]? ∧
      ((∃ a, view.frames[n]? = some a ∧
          v = ⟨view.frames.erase n, succ n, true, view.tally.countEmitted⟩) ∨
        view.frames[n]? = none ∧ v = ⟨view.frames, succ n, true, view.tally.countMissing⟩) := by
  cases hstep with
  | waiting hstarted hfew => exact absurd hslot (not_slot (.inl ⟨hstarted, hfew⟩))
  | ended hstarted hnext => exact absurd hslot (not_slot (.inr ⟨hstarted, hnext⟩))
  | emitted hslot' hget =>
    obtain rfl := hslot.unique hslot'
    exact ⟨hget.symm, .inl ⟨_, hget, rfl⟩⟩
  | missing hslot' hget =>
    obtain rfl := hslot.unique hslot'
    exact ⟨hget.symm, .inr ⟨hget, rfl⟩⟩
  | held _ hempty => exact absurd hempty hfed

namespace Matches

variable {succ : κ → Option κ} {succ' : κ' → Option κ'} {target : ℕ} {v : JitterView κ α}
  {v' : JitterView κ' β} {out : Option α} {out' : Option β}

/-- A tick that does not starve the buffers gives corresponding frames. -/
theorem tick (h : Matches e R view view') (hsize : view'.frames.size = view.frames.size)
    (hsucc : ∀ n, view.Slot target n → succ' (e n) = (succ n).map e)
    (hfed : view.started = true → view.frames.size ≠ 0)
    (hstep : TickStep succ target view out v) (hstep' : TickStep succ' target view' out' v') :
    Option.Rel R out out' ∧ Matches e R v v' := by
  have hidle : (view.started = false ∧ view.frames.size < target ∨
      view.started = true ∧ view.next = none) → out' = none ∧ v' = view' := by
    intro hnone
    refine eq_of_not_slot (fun n' => not_slot ?_) hstep'
    rw [h.started, hsize, h.next]
    exact hnone.imp_right fun hended => ⟨hended.1, by rw [hended.2]; rfl⟩
  have htaken := fun {n} (hslot : view.Slot target n) =>
    (h.slot hsize hslot).taken (hsize ▸ hslot.size_ne_zero hfed) hstep'
  cases hstep with
  | waiting hstarted hfew =>
    obtain ⟨rfl, rfl⟩ := hidle (.inl ⟨hstarted, hfew⟩)
    exact ⟨.none, h⟩
  | ended hstarted hnext =>
    obtain ⟨rfl, rfl⟩ := hidle (.inr ⟨hstarted, hnext⟩)
    exact ⟨.none, h⟩
  | @emitted n a hslot hget =>
    have hrel := h.frames n
    rw [hget] at hrel
    obtain ⟨rfl, ⟨b, -, rfl⟩ | ⟨hget', -⟩⟩ := htaken hslot
    · refine ⟨hrel, fun k => ?_, fun k' hk' => ?_, hsucc n hslot, rfl, by rw [h.tally]⟩
      · rw [OrderedMap.getElem?_erase_eq, OrderedMap.getElem?_erase_eq]
        by_cases heq : k = n
        · rw [if_pos heq, if_pos (congrArg e heq)]
          exact .none
        · rw [if_neg heq, if_neg fun he => heq (e.injective he)]
          exact h.frames k
      · exact h.keys k' (OrderedMap.mem_erase_iff.1 hk').2
    · rw [hget'] at hrel
      cases hrel
  | @missing n hslot hget =>
    have hrel := h.frames n
    rw [hget] at hrel
    obtain ⟨rfl, ⟨b, hget', -⟩ | ⟨-, rfl⟩⟩ := htaken hslot
    · rw [hget'] at hrel
      cases hrel
    · exact ⟨hrel, h.frames, h.keys, hsucc n hslot, rfl, by rw [h.tally]⟩
  | held hslot hempty => exact absurd hempty (hslot.size_ne_zero hfed)

end Matches

end JitterView
