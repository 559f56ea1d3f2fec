import AnalogConnect.AudioQueue
import AnalogConnect.Library.DropOldest

/-!
# What becomes of the frames pushed

The audio queue is a queue that drops its oldest frame, with the frames' times and the counters
beside it (`step_frames`). So since the last reset each frame pushed was popped, in order, or was
dropped as the oldest of a full queue, or is queued, and the counters count just that
(`audio_queue_accounts`).
-/

namespace AnalogConnect

open DropOldest (Op fifo History Accounts)

/-- An operation on the queue and when it happens. -/
structure QueueEvent where
  op : Op AudioFrame
  now : ℕ

namespace BoundedAudioQueue

def contents (queue : BoundedAudioQueue) : List AudioFrame := queue.frames.map (·.frame)

/-- An operation answers with the frame that leaves the queue: what a pop returns, or what a push
drops. -/
def step (queue : BoundedAudioQueue) (event : QueueEvent) :
    Option AudioFrame × BoundedAudioQueue :=
  match event.op with
  | .push frame =>
    (if queue.Full then queue.frames.head?.map (·.frame) else none, queue.push frame event.now)
  | .pop => queue.pop event.now
  | .reset => (none, queue.reset)

end BoundedAudioQueue

def audioQueue : Transducer BoundedAudioQueue QueueEvent (Option AudioFrame) :=
  ⟨BoundedAudioQueue.step⟩

namespace BoundedAudioQueue

variable (queue : BoundedAudioQueue) (event : QueueEvent)

theorem pop_spec (now : ℕ) : (queue.pop now).1 = queue.frames.head?.map (·.frame) ∧
    (queue.pop now).2.frames = queue.frames.tail ∧
    (queue.pop now).2.capacity = queue.capacity := by
  rcases hframes : queue.frames with - | ⟨queued, rest⟩
  · rw [pop_of_nil hframes]
    exact ⟨rfl, hframes, rfl⟩
  · exact pop_of_cons hframes now

theorem step_capacity : (queue.step event).2.capacity = queue.capacity := by
  obtain ⟨op, now⟩ := event
  cases op with
  | push frame => rfl
  | pop => exact (queue.pop_spec now).2.2
  | reset => rfl

/-- The frames are those of a queue that drops its oldest. -/
theorem step_frames {capacity : ℕ} (h : queue.capacity = capacity) :
    DropOldest.step capacity queue.contents event.op =
      ((queue.step event).1, (queue.step event).2.contents) := by
  obtain ⟨op, now⟩ := event
  cases op with
  | push frame =>
    have hfull : queue.contents.length = capacity ↔ queue.Full := by
      rw [contents, List.length_map, ← h]
      rfl
    simp only [DropOldest.step, step]
    by_cases hqueue : queue.Full
    · rw [if_pos (hfull.2 hqueue), if_pos hqueue, contents, contents, push_frames,
        kept_of_full hqueue]
      simp
    · rw [if_neg (mt hfull.1 hqueue), if_neg hqueue, contents, contents, push_frames,
        kept_of_not_full hqueue]
      simp
  | pop =>
    obtain ⟨hpop, hframes, -⟩ := queue.pop_spec now
    simp only [DropOldest.step, step, contents]
    rw [hpop, hframes, List.head?_map, List.map_tail]
  | reset => rfl

/-- The counters, also where they are full. -/
structure Counted (h : History AudioFrame) (summary : AudioQueueSummary) : Prop where
  enqueued : summary.enqueued = min h.pushed.length u64Max
  dequeued : summary.dequeued = min h.popped.length u64Max
  dropped : summary.dropped = min h.dropped.length u64Max

variable {queue} {h : History AudioFrame}

theorem Counted.push (hh : Counted h queue.summary) (frame : AudioFrame) (now : ℕ) :
    Counted (h.record (.push frame, (queue.step ⟨.push frame, now⟩).1))
      (queue.push frame now).summary where
  enqueued := by
    simp only [BoundedAudioQueue.push, hh.enqueued, saturatingAdd_min]
    simp [History.record]
  dequeued := hh.dequeued
  dropped := by
    have hdropped : (queue.push frame now).summary.dropped =
        if queue.Full then saturatingAdd queue.summary.dropped 1 else queue.summary.dropped := rfl
    simp only [hdropped, step, History.record, List.length_append]
    by_cases hfull : queue.Full
    · obtain ⟨oldest, rest, hframes⟩ := List.exists_cons_of_ne_nil hfull.frames_ne_nil
      rw [if_pos hfull, if_pos hfull, hh.dropped, saturatingAdd_min, hframes]
      rfl
    · rw [if_neg hfull, if_neg hfull]
      exact hh.dropped

theorem Counted.pop (hh : Counted h queue.summary) (now : ℕ) :
    Counted (h.record (.pop, (queue.pop now).1)) (queue.pop now).2.summary := by
  unfold BoundedAudioQueue.pop
  split
  · exact ⟨hh.enqueued, by simpa [History.record] using hh.dequeued, hh.dropped⟩
  · refine ⟨hh.enqueued, ?_, hh.dropped⟩
    simp only [hh.dequeued, saturatingAdd_min]
    simp [History.record]

theorem Counted.step (hh : Counted h queue.summary) (event : QueueEvent) :
    Counted (h.record (event.op, (queue.step event).1)) (queue.step event).2.summary := by
  obtain ⟨op, now⟩ := event
  cases op with
  | push frame => exact hh.push frame now
  | pop => exact hh.pop now
  | reset => exact ⟨rfl, rfl, rfl⟩

end BoundedAudioQueue

/-- The history of a trace, whenever its operations happened. -/
def historyOf (trace : List (QueueEvent × Option AudioFrame)) : History AudioFrame :=
  History.of (trace.map (Prod.map (·.op) id))

open BoundedAudioQueue

theorem counted_run {queue : BoundedAudioQueue} (h : Counted {} queue.summary)
    (events : List QueueEvent) :
    Counted (historyOf (audioQueue.trace queue events))
      (audioQueue.after queue events).summary := by
  refine audioQueue.history (P := fun past queue => Counted (historyOf past) queue.summary) h
    (fun past queue event ih => ?_) events
  unfold historyOf
  rw [List.map_append, List.map_singleton, History.of_snoc]
  exact ih.step event

theorem frames_run {queue : BoundedAudioQueue} (h : queue.frames = []) (events : List QueueEvent) :
    (audioQueue.after queue events).capacity = queue.capacity ∧
      Accounts (historyOf (audioQueue.trace queue events))
        (audioQueue.after queue events).contents := by
  obtain ⟨htrace, hafter⟩ := audioQueue.trace_map (fifo queue.capacity)
    (P := fun queue' => queue'.capacity = queue.capacity)
    contents (·.op)
    (fun queue' event h => (queue'.step_capacity event).trans h)
    (fun queue' event h => queue'.step_frames event h) events queue rfl
  refine ⟨?_, ?_⟩
  · exact audioQueue.history (P := fun _ queue' => queue'.capacity = queue.capacity) rfl
      (fun _ queue' event ih => (queue'.step_capacity event).trans ih) events
  · unfold historyOf
    rw [← htrace, ← hafter, contents, h]
    exact DropOldest.accounted _

/-- Whatever is pushed, popped and reset, the queue holds no more than it can and says how many;
until a counter is full, what went in is what came out, was dropped, or is there; and the frames
dropped are those that were oldest in a full queue at a push. -/
theorem audio_queue_accounts {capacity : ℕ} {queue : BoundedAudioQueue}
    (hnew : BoundedAudioQueue.new capacity = .ok queue) (events : List QueueEvent) :
    let after := audioQueue.after queue events
    let history := historyOf (audioQueue.trace queue events)
    after.frames.length ≤ capacity ∧
    after.summary.depth = after.frames.length ∧
    (history.pushed.length ≤ u64Max → after.summary.enqueued =
      after.summary.dequeued + after.summary.dropped + after.summary.depth) ∧
    history.popped.Sublist history.pushed ∧
    Accounts history after.contents := by
  have hqueue : queue.capacity = capacity ∧ queue.frames = [] ∧ queue.summary = {} := by
    unfold BoundedAudioQueue.new at hnew
    split at hnew
    · cases hnew
    · cases hnew
      exact ⟨rfl, rfl, rfl⟩
  obtain ⟨hcapacity, hframes, hsummary⟩ := hqueue
  have hcounted := counted_run (hsummary ▸ (⟨rfl, rfl, rfl⟩ : Counted {} {})) events
  obtain ⟨hafter, haccounts⟩ := frames_run hframes events
  refine ⟨?_, (audioQueue.after queue events).depth_eq, fun hfew => ?_,
    haccounts.popped_sublist, haccounts⟩
  · rw [← hcapacity, ← hafter]
    exact (audioQueue.after queue events).length_le
  · have hlength := haccounts.length
    rw [contents, List.length_map] at hlength
    rw [hcounted.enqueued, hcounted.dequeued, hcounted.dropped,
      (audioQueue.after queue events).depth_eq]
    omega

/-- Three frames through a queue of two, one popped and one dropped. -/
theorem audio_queue_accounts_dropped : ∃ (queue : BoundedAudioQueue) (a b c : AudioFrame),
    BoundedAudioQueue.new 2 = .ok queue ∧ a.sequence < b.sequence ∧ b.sequence < c.sequence ∧
    let events : List QueueEvent :=
      [⟨.push a, 0⟩, ⟨.push b, 7⟩, ⟨.push c, 15⟩, ⟨.pop, 16⟩]
    (audioQueue.after queue events).summary.enqueued =
      (audioQueue.after queue events).summary.dequeued +
        (audioQueue.after queue events).summary.dropped +
        (audioQueue.after queue events).summary.depth ∧
    Accounts (historyOf (audioQueue.trace queue events))
      (audioQueue.after queue events).contents := by
  refine ⟨_, ⟨0, .hfpNarrowband, List.replicate 60 0, by decide, by decide, rfl⟩,
    ⟨1, .hfpNarrowband, List.replicate 60 0, by decide, by decide, rfl⟩,
    ⟨2, .hfpNarrowband, List.replicate 60 0, by decide, by decide, rfl⟩, rfl, by decide, by decide,
    (@audio_queue_accounts 2 _ rfl _).2.2.1 ?_, (@audio_queue_accounts 2 _ rfl _).2.2.2.2⟩
  decide

end AnalogConnect
