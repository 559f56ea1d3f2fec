import AnalogConnect.AudioPacket
import AnalogConnect.Library.Saturating

/-!
# The bounded audio queue

Each direction of a call has a queue that drops its oldest frame when it is full. The queue's lock
is held for one operation at a time; no operation panics, so the lock is never poisoned. Instants
are microseconds on the daemon's clock.
-/

namespace AnalogConnect

structure QueuedFrame where
  frame : AudioFrame
  enqueuedAt : ℕ

structure AudioQueueSummary where
  depth : ℕ := 0
  enqueued : ℕ := 0
  dequeued : ℕ := 0
  dropped : ℕ := 0
  maxObservedLatencyMicros : ℕ := 0
deriving DecidableEq

/-- A queue can hold a frame, never holds more than it can, and reports how many it holds. -/
structure BoundedAudioQueue where
  capacity : ℕ
  frames : List QueuedFrame
  summary : AudioQueueSummary
  capacity_pos : 0 < capacity
  length_le : frames.length ≤ capacity
  depth_eq : summary.depth = frames.length

inductive AudioQueueError
  | zeroCapacity
  | lockPoisoned
deriving DecidableEq

namespace BoundedAudioQueue

def new (capacity : ℕ) : Except AudioQueueError BoundedAudioQueue :=
  if h : capacity = 0 then .error .zeroCapacity
  else
    .ok
      { capacity, frames := [], summary := {}
        capacity_pos := Nat.pos_of_ne_zero h
        length_le := Nat.zero_le _
        depth_eq := rfl }

/-- The frames a push leaves room behind: all of them, or all but the oldest of a full queue. -/
def kept (queue : BoundedAudioQueue) : List QueuedFrame :=
  if queue.frames.length = queue.capacity then queue.frames.tail else queue.frames

theorem length_kept_lt (queue : BoundedAudioQueue) : queue.kept.length < queue.capacity := by
  have hle := queue.length_le
  have hpos := queue.capacity_pos
  unfold kept
  split_ifs with h
  · rw [List.length_tail]
    omega
  · omega

def push (queue : BoundedAudioQueue) (frame : AudioFrame) (now : ℕ) : BoundedAudioQueue where
  capacity := queue.capacity
  frames := queue.kept ++ [⟨frame, now⟩]
  summary :=
    { queue.summary with
      dropped :=
        if queue.frames.length = queue.capacity then saturatingAdd queue.summary.dropped 1
        else queue.summary.dropped
      enqueued := saturatingAdd queue.summary.enqueued 1
      depth := (queue.kept ++ [(⟨frame, now⟩ : QueuedFrame)]).length }
  capacity_pos := queue.capacity_pos
  length_le := by
    rw [List.length_append, List.length_singleton]
    exact queue.length_kept_lt
  depth_eq := rfl

/-- The frame at the front, if any, and the queue without it. -/
def pop (queue : BoundedAudioQueue) (now : ℕ) : Option AudioFrame × BoundedAudioQueue :=
  match h : queue.frames with
  | [] => (none, queue)
  | queued :: rest =>
    (some queued.frame,
      { capacity := queue.capacity
        frames := rest
        summary :=
          { queue.summary with
            dequeued := saturatingAdd queue.summary.dequeued 1
            maxObservedLatencyMicros :=
              max queue.summary.maxObservedLatencyMicros (min (now - queued.enqueuedAt) u64Max)
            depth := rest.length }
        capacity_pos := queue.capacity_pos
        length_le := by
          have := queue.length_le
          rw [h, List.length_cons] at this
          omega
        depth_eq := rfl })

def reset (queue : BoundedAudioQueue) : BoundedAudioQueue where
  capacity := queue.capacity
  frames := []
  summary := {}
  capacity_pos := queue.capacity_pos
  length_le := Nat.zero_le _
  depth_eq := rfl

/-- A push finds the queue full and drops its oldest frame. -/
def Full (queue : BoundedAudioQueue) : Prop := queue.frames.length = queue.capacity

instance (queue : BoundedAudioQueue) : Decidable queue.Full :=
  inferInstanceAs (Decidable (_ = _))

theorem kept_of_full {queue : BoundedAudioQueue} (h : queue.Full) :
    queue.kept = queue.frames.tail := if_pos h

theorem kept_of_not_full {queue : BoundedAudioQueue} (h : ¬ queue.Full) :
    queue.kept = queue.frames := if_neg h

theorem Full.frames_ne_nil {queue : BoundedAudioQueue} (h : queue.Full) : queue.frames ≠ [] := by
  intro hnil
  have hpos := queue.capacity_pos
  rw [Full, hnil] at h
  simp only [List.length_nil] at h
  omega

@[simp] theorem push_frames (queue : BoundedAudioQueue) (frame : AudioFrame) (now : ℕ) :
    (queue.push frame now).frames = queue.kept ++ [⟨frame, now⟩] := rfl

theorem pop_of_nil {queue : BoundedAudioQueue} (h : queue.frames = []) (now : ℕ) :
    queue.pop now = (none, queue) := by
  unfold pop
  split
  · rfl
  · rename_i h'
    rw [h] at h'
    exact absurd h' (by simp)

theorem pop_of_cons {queue : BoundedAudioQueue} {queued : QueuedFrame} {rest : List QueuedFrame}
    (h : queue.frames = queued :: rest) (now : ℕ) :
    (queue.pop now).1 = some queued.frame ∧ (queue.pop now).2.frames = rest
      ∧ (queue.pop now).2.capacity = queue.capacity := by
  unfold pop
  split
  · rename_i h'
    rw [h] at h'
    exact absurd h' (by simp)
  · rename_i queued' rest' h'
    rw [h] at h'
    obtain ⟨rfl, rfl⟩ := List.cons.inj h'
    exact ⟨rfl, rfl, rfl⟩

end BoundedAudioQueue

end AnalogConnect
