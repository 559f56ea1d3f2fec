import Mathlib.Data.List.ReduceOption
import AnalogConnect.Library.Playout
import AnalogConnect.Library.Runs

/-!
# Jitter buffers

A jitter buffer keeps frames by their keys, waits until enough have come, and then plays one slot a
tick. `InsertStep` and `TickStep` say what it may do with a frame and a tick: which frames it may
refuse or drop, when it counts which, and where the slot to play next may go. They leave open what a
full buffer drops and whether an empty one holds its slot.

Whatever it chooses, what it plays is in order, it never holds more than it can, and its counts
balance (`JitterInv.insert`, `JitterInv.tick`).
-/

universe u v

/-- What can happen to a jitter buffer. -/
inductive JitterEvent (α : Type u)
  | insert (frame : α)
  | tick

/-- A buffer, and what each tick so far has given. -/
structure JitterRun (β : Type u) (α : Type v) where
  buffer : β
  ticks : List (Option α)

/-- The frames a run has emitted. -/
def JitterRun.emitted {β : Type u} {α : Type v} (s : JitterRun β α) : List α :=
  s.ticks.reduceOption

/-- The events of a buffer with these two operations. -/
def jitterRuns {β : Type u} {α : Type v} (insert : β → α → β) (tick : β → Option α × β) :
    Lts (JitterRun β α) (JitterEvent α) where
  step s
    | .insert frame => some { s with buffer := insert s.buffer frame }
    | .tick => some ⟨(tick s.buffer).2, s.ticks ++ [(tick s.buffer).1]⟩

/-- The frames the events insert. -/
def insertedFrames {α : Type u} (events : List (JitterEvent α)) : List α :=
  events.filterMap fun
    | .insert frame => some frame
    | .tick => none

theorem insertedFrames_append {α : Type u} (events events' : List (JitterEvent α)) :
    insertedFrames (events ++ events') = insertedFrames events ++ insertedFrames events' :=
  List.filterMap_append

theorem mem_insertedFrames {α : Type u} {events : List (JitterEvent α)} {frame : α} :
    frame ∈ insertedFrames events ↔ .insert frame ∈ events := by
  unfold insertedFrames
  rw [List.mem_filterMap]
  constructor
  · rintro ⟨e, he, heq⟩
    cases e with
    | insert frame' => exact Option.some.inj heq ▸ he
    | tick => cases heq
  · exact fun h => ⟨_, h, rfl⟩

/-! ## Counts -/

/-- How many frames came, and what became of them; how many slots had none. -/
structure JitterTally where
  received : ℕ := 0
  emitted : ℕ := 0
  duplicate : ℕ := 0
  late : ℕ := 0
  missing : ℕ := 0
  overflow : ℕ := 0
deriving DecidableEq

namespace JitterTally

def countLate (t : JitterTally) : JitterTally :=
  { t with received := t.received + 1, late := t.late + 1 }

def countDuplicate (t : JitterTally) : JitterTally :=
  { t with received := t.received + 1, duplicate := t.duplicate + 1 }

def countOverflow (t : JitterTally) : JitterTally :=
  { t with received := t.received + 1, overflow := t.overflow + 1 }

def countKept (t : JitterTally) : JitterTally := { t with received := t.received + 1 }

def countEmitted (t : JitterTally) : JitterTally := { t with emitted := t.emitted + 1 }

def countMissing (t : JitterTally) : JitterTally := { t with missing := t.missing + 1 }

/-- Every frame received went somewhere, or is one of the `depth` still there. -/
def Balances (t : JitterTally) (depth : ℕ) : Prop :=
  t.received = t.emitted + t.late + t.duplicate + t.overflow + depth

end JitterTally

/-! ## Steps -/

variable {κ : Type u} {α : Type v} [LinearOrder κ]

/-- What there is to a jitter buffer. -/
structure JitterView (κ : Type u) (α : Type v) [LinearOrder κ] where
  frames : OrderedMap κ α
  next : Option κ
  started : Bool
  tally : JitterTally

namespace JitterView

def empty : JitterView κ α := ⟨∅, none, false, {}⟩

/-- No slot past the key has been played. -/
def InTime (view : JitterView κ α) (k : κ) : Prop := ∀ n, view.next = some n → n ≤ k

theorem any_lt_iff {next : Option κ} {k : κ} :
    next.any (k < ·) = true ↔ ∃ n, next = some n ∧ k < n := by
  simp [Option.any_eq_true]

theorem le_of_not_any_lt {next : Option κ} {k n : κ} (h : ¬ next.any (k < ·) = true)
    (hn : next = some n) : n ≤ k :=
  le_of_not_gt fun hlt => h (any_lt_iff.2 ⟨n, hn, hlt⟩)

/-- The slot a tick takes: the next, or the first there is once enough frames wait. -/
def Slot (target : ℕ) (view : JitterView κ α) (n : κ) : Prop :=
  view.started = true ∧ view.next = some n ∨
    view.started = false ∧ target ≤ view.frames.size ∧ view.frames.firstKey? = some n

end JitterView

/-- What a buffer may do with a frame. -/
inductive InsertStep (key : α → κ) (capacity : ℕ) (view : JitterView κ α) (a : α) :
    JitterView κ α → Prop
  | late {n : κ} (hnext : view.next = some n) (hlt : key a < n) :
    InsertStep key capacity view a { view with tally := view.tally.countLate }
  | duplicate (htime : view.InTime (key a)) (hmem : key a ∈ view.frames) :
    InsertStep key capacity view a { view with tally := view.tally.countDuplicate }
  | refused (htime : view.InTime (key a)) (hnew : key a ∉ view.frames)
    (hfull : view.frames.size = capacity) :
    InsertStep key capacity view a { view with tally := view.tally.countOverflow }
  | replaced {k : κ} {next : Option κ} (htime : view.InTime (key a)) (hnew : key a ∉ view.frames)
    (hfull : view.frames.size = capacity) (hmem : k ∈ view.frames)
    (hnext : next = view.next ∨ view.started = true ∧ ∃ n n', view.next = some n ∧
      next = some n' ∧ n ≤ n' ∧ ∀ k' ∈ (view.frames.erase k).insert (key a) a, n' ≤ k') :
    InsertStep key capacity view a
      { view with
        frames := (view.frames.erase k).insert (key a) a, next
        tally := view.tally.countOverflow }
  | kept (htime : view.InTime (key a)) (hnew : key a ∉ view.frames)
    (hroom : view.frames.size < capacity) :
    InsertStep key capacity view a
      { view with
        frames := view.frames.insert (key a) a
        tally := view.tally.countKept }

/-- What a buffer may do with a tick, where `succ` is the slot after another. -/
inductive TickStep (succ : κ → Option κ) (target : ℕ) (view : JitterView κ α) :
    Option α → JitterView κ α → Prop
  | waiting (hstarted : view.started = false) (hfew : view.frames.size < target) :
    TickStep succ target view none view
  | ended (hstarted : view.started = true) (hnext : view.next = none) :
    TickStep succ target view none view
  | emitted {n : κ} {a : α} (hslot : view.Slot target n) (hget : view.frames[n]? = some a) :
    TickStep succ target view (some a)
      ⟨view.frames.erase n, succ n, true, view.tally.countEmitted⟩
  | missing {n : κ} (hslot : view.Slot target n) (hget : view.frames[n]? = none) :
    TickStep succ target view none ⟨view.frames, succ n, true, view.tally.countMissing⟩
  | held {n : κ} (hslot : view.Slot target n) (hempty : view.frames.size = 0) :
    TickStep succ target view none ⟨view.frames, some n, true, view.tally.countMissing⟩

/-! ## What every buffer keeps -/

/-- The buffer holds what it can, in order, and accounts for the rest. -/
structure JitterInv (key : α → κ) (capacity : ℕ) (events : List (JitterEvent α))
    (ticks : List (Option α)) (view : JitterView κ α) : Prop where
  size_le : view.frames.size ≤ capacity
  playout : Playout key view.frames view.next (insertedFrames events) ticks.reduceOption
  waiting : view.started = false → view.next = none ∧ ticks.reduceOption = []
  received : view.tally.received = (insertedFrames events).length
  emitted : view.tally.emitted = ticks.reduceOption.length
  counted : view.tally.received + view.tally.missing ≤ events.length
  balances : view.tally.Balances view.frames.size

namespace JitterInv

variable {key : α → κ} {capacity target : ℕ} {events : List (JitterEvent α)}
  {ticks : List (Option α)} {view view' : JitterView κ α} {a : α} {succ : κ → Option κ} {n : κ}

theorem empty (key : α → κ) (capacity : ℕ) : JitterInv key capacity [] [] .empty where
  size_le := Nat.zero_le _
  playout := .empty key
  waiting := fun _ => ⟨rfl, rfl⟩
  received := rfl
  emitted := rfl
  counted := Nat.zero_le _
  balances := rfl

theorem insert (h : JitterInv key capacity events ticks view)
    (hstep : InsertStep key capacity view a view') :
    JitterInv key capacity (events ++ [.insert a]) ticks view' := by
  have hevents : insertedFrames (events ++ [.insert a]) = insertedFrames events ++ [a] :=
    insertedFrames_append _ _
  have hreceived : view.tally.received + 1 = (insertedFrames (events ++ [.insert a])).length := by
    rw [hevents, List.length_append, h.received]
    rfl
  have hcounted : view.tally.received + 1 + view.tally.missing ≤
      (events ++ [JitterEvent.insert a]).length := by
    have := h.counted
    rw [List.length_append, List.length_singleton]
    omega
  have hbalances := h.balances
  unfold JitterTally.Balances at hbalances
  cases hstep with
  | late hnext hlt =>
    refine ⟨h.size_le, hevents ▸ h.playout.refuse a, h.waiting, hreceived, h.emitted, hcounted, ?_⟩
    simp only [JitterTally.Balances, JitterTally.countLate]
    omega
  | duplicate htime hmem =>
    refine ⟨h.size_le, hevents ▸ h.playout.refuse a, h.waiting, hreceived, h.emitted, hcounted, ?_⟩
    simp only [JitterTally.Balances, JitterTally.countDuplicate]
    omega
  | refused htime hnew hfull =>
    refine ⟨h.size_le, hevents ▸ h.playout.refuse a, h.waiting, hreceived, h.emitted, hcounted, ?_⟩
    simp only [JitterTally.Balances, JitterTally.countOverflow]
    omega
  | @replaced k next htime hnew hfull hmem hnext =>
    have hnew' : key a ∉ view.frames.erase k := fun hmem =>
      hnew (OrderedMap.mem_erase_iff.1 hmem).2
    have herase := OrderedMap.size_erase_add_one hmem
    have hsize := OrderedMap.size_insert_of_notMem (a := a) hnew'
    have hsize_le := h.size_le
    have hplayout := (h.playout.erase k).insert a htime
    refine ⟨?_, ?_, ?_, hreceived, h.emitted, hcounted, ?_⟩
    · show ((view.frames.erase k).insert (key a) a).size ≤ capacity
      omega
    · rw [hevents]
      rcases hnext with rfl | ⟨-, n, n', hn, rfl, hle, hahead⟩
      · exact hplayout
      · rw [hn] at hplayout
        refine hplayout.advance fun m hm => ?_
        rw [← Option.some.inj hm]
        exact ⟨hle, hahead⟩
    · intro hstarted
      rcases hnext with rfl | ⟨htrue, -⟩
      · exact h.waiting hstarted
      · exact absurd (htrue.symm.trans hstarted) (by decide)
    · simp only [JitterTally.Balances, JitterTally.countOverflow]
      omega
  | kept htime hnew hroom =>
    have hsize := OrderedMap.size_insert_of_notMem (a := a) hnew
    refine ⟨?_, hevents ▸ h.playout.insert a htime, h.waiting, hreceived, h.emitted, hcounted, ?_⟩
    · show (view.frames.insert (key a) a).size ≤ capacity
      omega
    · simp only [JitterTally.Balances, JitterTally.countKept]
      omega

/-- At the slot a tick takes, playout has got there. -/
theorem playout_slot (h : JitterInv key capacity events ticks view) (hslot : view.Slot target n) :
    Playout key view.frames (some n) (insertedFrames events) ticks.reduceOption := by
  have hplayout := h.playout
  rcases hslot with ⟨-, hnext⟩ | ⟨hstarted, -, hfirst⟩
  · rwa [hnext] at hplayout
  · obtain ⟨hnext, hnone⟩ := h.waiting hstarted
    rw [hnone] at hplayout ⊢
    exact hplayout.start hfirst

theorem tick (h : JitterInv key capacity events ticks view)
    (hsucc : ∀ n n', succ n = some n' → n < n' ∧ ∀ k, n < k → n' ≤ k) {out : Option α}
    (hstep : TickStep succ target view out view') :
    JitterInv key capacity (events ++ [.tick]) (ticks ++ [out]) view' := by
  have hevents : insertedFrames (events ++ [.tick]) = insertedFrames events := by
    rw [insertedFrames_append]
    exact List.append_nil _
  have hsilent : (ticks ++ [none]).reduceOption = ticks.reduceOption := by
    rw [List.reduceOption_append]
    exact List.append_nil _
  have hreceived : view.tally.received = (insertedFrames (events ++ [.tick])).length := by
    rw [hevents, h.received]
  have hemitted : view.tally.emitted = (ticks ++ [none]).reduceOption.length := by
    rw [hsilent, h.emitted]
  have hcounted : view.tally.received + view.tally.missing + 1 ≤
      (events ++ [JitterEvent.tick]).length := by
    have := h.counted
    rw [List.length_append, List.length_singleton]
    omega
  have hbalances := h.balances
  unfold JitterTally.Balances at hbalances
  cases hstep with
  | waiting hstarted hfew =>
    refine ⟨h.size_le, ?_, fun hs => ?_, hreceived, hemitted, Nat.le_of_succ_le hcounted,
      h.balances⟩
    · rw [hevents, hsilent]
      exact h.playout
    · rw [hsilent]
      exact h.waiting hs
  | ended hstarted hnext =>
    refine ⟨h.size_le, ?_, fun hs => ?_, hreceived, hemitted, Nat.le_of_succ_le hcounted,
      h.balances⟩
    · rw [hevents, hsilent]
      exact h.playout
    · rw [hsilent]
      exact h.waiting hs
  | @emitted n a hslot hget =>
    have hsize := OrderedMap.size_erase_add_one (OrderedMap.mem_iff_exists.2 ⟨a, hget⟩)
    have hsize_le := h.size_le
    have hplayed : (ticks ++ [some a]).reduceOption = ticks.reduceOption ++ [a] :=
      List.reduceOption_append _ _
    refine ⟨?_, ?_, fun hs => (by cases hs), hreceived, ?_, Nat.le_of_succ_le hcounted, ?_⟩
    · show (view.frames.erase n).size ≤ capacity
      omega
    · rw [hevents, hplayed]
      exact (h.playout_slot hslot).play hget (hsucc n)
    · rw [hplayed, List.length_append, ← h.emitted]
      rfl
    · simp only [JitterTally.Balances, JitterTally.countEmitted]
      omega
  | @missing n hslot hget =>
    have hplayout := h.playout_slot hslot
    refine ⟨h.size_le, ?_, fun hs => (by cases hs), hreceived, hemitted, hcounted, h.balances⟩
    rw [hevents, hsilent]
    refine hplayout.advance fun n' hn' => ?_
    obtain ⟨hlt, hle⟩ := hsucc n n' hn'
    exact ⟨le_of_lt hlt, fun k hk => hle k (hplayout.lt_of_empty hget hk)⟩
  | @held n hslot hempty =>
    refine ⟨h.size_le, ?_, fun hs => (by cases hs), hreceived, hemitted, hcounted, h.balances⟩
    rw [hevents, hsilent]
    exact h.playout_slot hslot

end JitterInv
