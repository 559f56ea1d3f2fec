import AnalogConnect.AudioPacketCodec
import AnalogConnect.JitterBuffer
import Mathlib.Data.Int.Order.Basic

/-!
# The phone's jitter buffer

The phone's own buffer starts and plays as the daemon's does, but starves and overflows otherwise:
an empty buffer holds its slot instead of passing it, and a frame beyond a full buffer drops the
buffer's first frame and moves playout up to the next. Its counters are Java `long`s, which wrap.
-/

namespace AnalogConnect

open AudioPacketCodec (Decoded)

/-- `Long.MAX_VALUE`. -/
def longMax : ℤ := 2 ^ 63 - 1

structure AudioJitterBuffer where
  capacity : ℕ
  targetDepth : ℕ
  frames : OrderedMap ℤ Decoded
  nextSequence : Option ℤ
  started : Bool
  received : Int64
  emitted : Int64
  duplicate : Int64
  late : Int64
  missing : Int64
  overflow : Int64
  target_pos : 0 < targetDepth
  target_le : targetDepth ≤ capacity

structure AudioJitterSummary where
  depth : ℕ
  received : Int64
  emitted : Int64
  duplicate : Int64
  late : Int64
  missing : Int64
  overflow : Int64
deriving DecidableEq

namespace AudioJitterBuffer

/-- The constructor, with the text of its exception. -/
def new (capacity targetDepth : ℤ) : Except String AudioJitterBuffer :=
  if h : capacity ≤ 0 ∨ targetDepth ≤ 0 ∨ capacity < targetDepth then
    .error "Invalid jitter buffer capacity"
  else
    .ok
      { capacity := capacity.toNat, targetDepth := targetDepth.toNat
        frames := ∅, nextSequence := none, started := false
        received := 0, emitted := 0, duplicate := 0, late := 0, missing := 0, overflow := 0
        target_pos := Int.pos_iff_toNat_pos.1 (Int.not_le.1 fun hle => h (.inr (.inl hle)))
        target_le := Int.toNat_le_toNat (Int.not_lt.1 fun hlt => h (.inr (.inr hlt))) }

/-- The end of `insert`'s branch for a frame beyond a full buffer, its first frame dropped: the
frame is kept, and playout moves up to the first frame there is. -/
def resync (buffer : AudioJitterBuffer) (packet : Decoded) : AudioJitterBuffer :=
  let frames : OrderedMap ℤ Decoded := buffer.frames.insert packet.sequence.toInt packet
  match buffer.nextSequence, frames.firstKey? with
  | some next, some first =>
    if buffer.started ∧ next < first then { buffer with frames, nextSequence := some first }
    else { buffer with frames }
  | _, _ => { buffer with frames }

def insert (buffer : AudioJitterBuffer) (packet : Decoded) : AudioJitterBuffer :=
  let buffer := { buffer with received := buffer.received + 1 }
  let sequence := packet.sequence.toInt
  if buffer.nextSequence.any (sequence < ·) then { buffer with late := buffer.late + 1 }
  else if sequence ∈ buffer.frames then { buffer with duplicate := buffer.duplicate + 1 }
  else if buffer.frames.size = buffer.capacity then
    let buffer := { buffer with overflow := buffer.overflow + 1 }
    match buffer.frames.lastKey?, buffer.frames.firstKey? with
    | some furthest, some first =>
      if sequence < furthest then
        { buffer with frames := (buffer.frames.erase furthest).insert sequence packet }
      else { buffer with frames := buffer.frames.erase first }.resync packet
    | _, _ => buffer -- a buffer at its capacity holds a frame
  else { buffer with frames := buffer.frames.insert sequence packet }

/-- A tick's buffer once playout has started; none before. -/
def start? (buffer : AudioJitterBuffer) : Option AudioJitterBuffer :=
  if buffer.started then some buffer
  else if buffer.frames.size < buffer.targetDepth then none
  else some { buffer with nextSequence := buffer.frames.firstKey?, started := true }

def tick (buffer : AudioJitterBuffer) : Option Decoded × AudioJitterBuffer :=
  match buffer.start? with
  | none => (none, buffer)
  | some buffer =>
    match buffer.nextSequence with
    | none => (none, buffer)
    | some sequence =>
      let nextSequence := if sequence = longMax then none else some (sequence + 1)
      match buffer.frames[sequence]? with
      | none =>
        let buffer := { buffer with missing := buffer.missing + 1 }
        if buffer.frames.size = 0 then (none, buffer) else (none, { buffer with nextSequence })
      | some packet =>
        (some packet,
          { buffer with
            frames := buffer.frames.erase sequence
            nextSequence
            emitted := buffer.emitted + 1 })

def hasStarted (buffer : AudioJitterBuffer) : Bool := buffer.started

def peekNext (buffer : AudioJitterBuffer) : Option Decoded :=
  buffer.nextSequence.bind fun sequence => buffer.frames[sequence]?

def summary (buffer : AudioJitterBuffer) : AudioJitterSummary where
  depth := buffer.frames.size
  received := buffer.received
  emitted := buffer.emitted
  duplicate := buffer.duplicate
  late := buffer.late
  missing := buffer.missing
  overflow := buffer.overflow

end AudioJitterBuffer

/-- The phone's buffer under inserts and ticks. -/
def audioJitterBuffers : Lts (JitterRun AudioJitterBuffer Decoded) (JitterEvent Decoded) :=
  jitterRuns AudioJitterBuffer.insert AudioJitterBuffer.tick

end AnalogConnect
