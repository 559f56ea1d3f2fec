import AnalogConnect.AudioPacket
import AnalogConnect.Library.Jitter
import AnalogConnect.Library.Saturating

/-!
# The daemon's jitter buffer

Frames that arrive late or out of order wait here for their turn. Playout starts when as many wait
as the target asks for, and from then on takes one slot a tick, whether its frame is there or not.
-/

namespace AnalogConnect

structure JitterBufferSummary where
  depth : ℕ := 0
  received : ℕ := 0
  emitted : ℕ := 0
  duplicate : ℕ := 0
  late : ℕ := 0
  missing : ℕ := 0
  overflow : ℕ := 0
deriving DecidableEq

/-- A buffer whose target can be reached. Frames are kept by their sequence numbers. -/
structure JitterBuffer where
  capacity : ℕ
  targetDepth : ℕ
  frames : OrderedMap ℕ AudioFrame
  nextSequence : Option ℕ
  started : Bool
  summary : JitterBufferSummary
  target_pos : 0 < targetDepth
  target_le : targetDepth ≤ capacity

inductive JitterBufferError
  | invalidCapacity
deriving DecidableEq

namespace JitterBuffer

def new (capacity targetDepth : ℕ) : Except JitterBufferError JitterBuffer :=
  if h : capacity = 0 ∨ targetDepth = 0 ∨ capacity < targetDepth then .error .invalidCapacity
  else
    .ok
      { capacity, targetDepth, frames := ∅, nextSequence := none, started := false, summary := {}
        target_pos := Nat.pos_of_ne_zero fun hzero => h (.inr (.inl hzero))
        target_le := Nat.le_of_not_lt fun hlt => h (.inr (.inr hlt)) }

/-- The end of `insert`: the frame is kept. -/
def keep (buffer : JitterBuffer) (frame : AudioFrame) : JitterBuffer :=
  let frames := buffer.frames.insert frame.sequence.toNat frame
  { buffer with frames, summary := { buffer.summary with depth := frames.size } }

def insert (buffer : JitterBuffer) (frame : AudioFrame) : JitterBuffer :=
  let summary :=
    { buffer.summary with received := saturatingAdd buffer.summary.received 1 }
  let sequence := frame.sequence.toNat
  if buffer.nextSequence.any (sequence < ·) then
    { buffer with summary := { summary with late := saturatingAdd summary.late 1 } }
  else if sequence ∈ buffer.frames then
    { buffer with summary := { summary with duplicate := saturatingAdd summary.duplicate 1 } }
  else if buffer.frames.size = buffer.capacity then
    let summary := { summary with overflow := saturatingAdd summary.overflow 1 }
    match buffer.frames.lastKey? with
    | none => { buffer with summary } -- `unwrap` fails here; a buffer at its capacity holds a frame
    | some furthest =>
      if furthest ≤ sequence then { buffer with summary }
      else { buffer with frames := buffer.frames.erase furthest, summary }.keep frame
  else { buffer with summary }.keep frame

/-- A tick's buffer once playout has started; none before. -/
def start? (buffer : JitterBuffer) : Option JitterBuffer :=
  if buffer.started then some buffer
  else if buffer.frames.size < buffer.targetDepth then none
  else some { buffer with nextSequence := buffer.frames.firstKey?, started := true }

def tick (buffer : JitterBuffer) : Option AudioFrame × JitterBuffer :=
  match buffer.start? with
  | none => (none, buffer)
  | some buffer =>
    match buffer.nextSequence with
    | none => (none, buffer)
    | some sequence =>
      let nextSequence := if sequence = u64Max then none else some (sequence + 1)
      match buffer.frames[sequence]? with
      | some frame =>
        let frames : OrderedMap ℕ AudioFrame := buffer.frames.erase sequence
        (some frame,
          { buffer with
            frames, nextSequence
            summary :=
              { buffer.summary with
                emitted := saturatingAdd buffer.summary.emitted 1
                depth := frames.size } })
      | none =>
        (none,
          { buffer with
            nextSequence
            summary :=
              { buffer.summary with missing := saturatingAdd buffer.summary.missing 1 } })

end JitterBuffer

/-- The daemon's buffer under inserts and ticks. -/
def jitterBuffers : Lts (JitterRun JitterBuffer AudioFrame) (JitterEvent AudioFrame) :=
  jitterRuns JitterBuffer.insert JitterBuffer.tick

end AnalogConnect
