import AnalogConnect.AudioQueue
import AnalogConnect.Library.Runs

/-!
# The media stream's batches

A WebSocket message carries up to four packets. `decode_audio_batch` takes a message apart and
`take_downlink_batch` makes one from the downlink queue, popping a frame at a time with the queue's
lock released in between, so that the capture worker's pushes fall between its pops: `downlink` is
the system of the two.
-/

namespace AnalogConnect

inductive MediaStreamError
  | invalidPacket
  | queueUnavailable
deriving DecidableEq

def maxMediaFramesPerMessage : ℕ := 4

/-- `u64::checked_add(1)`. -/
def checkedSucc (sequence : UInt64) : Option UInt64 :=
  if sequence.toNat + 1 < 2 ^ 64 then some (sequence + 1) else none

/-- The length of the packet whose format byte is given. -/
def mediaPacketBytes (format : UInt8) : Option ℕ :=
  if format = 1 then some 144 else if format = 2 then some 264 else none

/-- `decode_audio_batch`'s loop on the bytes from `offset` on, with room for `n` more frames: the
frames decoded and the bytes left when the loop ends. -/
def decodeAudioFrames : ℕ → List UInt8 → Option AudioFormat → Option UInt64 →
    Except MediaStreamError (List AudioFrame × List UInt8)
  | 0, bytes, _, _ => .ok ([], bytes)
  | n + 1, bytes, expectedFormat, expectedSequence =>
    if bytes = [] then .ok ([], bytes)
    else if bytes.length < 6 then .error .invalidPacket
    else
      match mediaPacketBytes (bytes.getD 5 0) with
      | none => .error .invalidPacket
      | some packetBytes =>
        if packetBytes > bytes.length then .error .invalidPacket
        else
          match AudioPacket.decode (bytes.take packetBytes) with
          | .error _ => .error .invalidPacket
          | .ok packet =>
            if expectedFormat.any (· ≠ packet.frame.format)
                ∨ expectedSequence.any (· ≠ packet.frame.sequence) then
              .error .invalidPacket
            else if (checkedSucc packet.frame.sequence).isNone ∧ packetBytes ≠ bytes.length then
              .error .invalidPacket
            else
              match decodeAudioFrames n (bytes.drop packetBytes) (some packet.frame.format)
                  (checkedSucc packet.frame.sequence) with
              | .error error => .error error
              | .ok (frames, rest) => .ok (packet.frame :: frames, rest)

def decodeAudioBatch (bytes : List UInt8) : Except MediaStreamError (List AudioFrame) :=
  match decodeAudioFrames maxMediaFramesPerMessage bytes none none with
  | .error error => .error error
  | .ok (frames, rest) =>
    if frames = [] ∨ rest ≠ [] then .error .invalidPacket else .ok frames

/-! ## The uplink -/

/-- `receive_uplink_packet`'s loop; its pushes read the clock from the `index`-th reading on. -/
def pushFrames (clock : ℕ → ℕ) : ℕ → List AudioFrame → BoundedAudioQueue → BoundedAudioQueue
  | _, [], uplink => uplink
  | index, frame :: frames, uplink =>
    pushFrames clock (index + 1) frames (uplink.push frame (clock index))

def receiveUplinkPacket (uplink : BoundedAudioQueue) (bytes : List UInt8) (clock : ℕ → ℕ) :
    Except MediaStreamError Unit × BoundedAudioQueue :=
  match decodeAudioBatch bytes with
  | .error error => (.error error, uplink)
  | .ok frames => (.ok (), pushFrames clock 0 frames uplink)

/-! ## The downlink -/

/-- A call of `take_downlink_batch` that is still in its loop. `popped` are the frames behind
`batch`; the code keeps only the bytes. -/
structure BatchCall where
  captureTimeMicros : UInt64
  remaining : ℕ
  batch : List UInt8
  popped : List AudioFrame

/-- Where the send loop is: between calls, inside one, or holding what the last one returned. -/
inductive SendLoop
  | idle
  | taking (call : BatchCall)
  | returned (result : Except MediaStreamError (Option (List UInt8))) (popped : List AudioFrame)

/-- `take_downlink_batch` up to its loop; a capture time past `u64::MAX` microseconds is cut. -/
def BatchCall.start (captureTime : ℕ) : BatchCall where
  captureTimeMicros := UInt64.ofNat (min captureTime u64Max)
  remaining := maxMediaFramesPerMessage
  batch := []
  popped := []

/-- What the call returns once its loop is over. -/
def BatchCall.finish (call : BatchCall) : SendLoop :=
  .returned (.ok (if call.batch = [] then none else some call.batch)) call.popped

/-- One turn of the loop, after the pop. -/
def BatchCall.turn (call : BatchCall) : Option AudioFrame → SendLoop
  | none => call.finish
  | some frame =>
    match AudioPacket.encode ⟨call.captureTimeMicros, frame⟩ with
    | .error _ => .returned (.error .invalidPacket) (call.popped ++ [frame])
    | .ok encoded =>
      let next : BatchCall :=
        { call with
          remaining := call.remaining - 1
          batch := call.batch ++ encoded
          popped := call.popped ++ [frame] }
      if next.remaining = 0 then next.finish else .taking next

/-- The capture worker's reader and the send loop, around the downlink queue. -/
structure Downlink where
  format : AudioFormat
  nextSequence : UInt64
  queue : BoundedAudioQueue
  sendLoop : SendLoop

inductive DownlinkEvent
  /-- `capture_into_bridge` pushes the next frame the capture reader has whole. -/
  | capture (samples : List Int16) (now : ℕ)
  /-- The send loop calls `take_downlink_batch`. -/
  | take (captureTime : ℕ)
  /-- The running call pops, and goes on with what it popped. -/
  | pop (now : ℕ)

/-- The reader's next frame, with the sequence number after it; the reader stops before it would
run out of sequence numbers. -/
def readFrame (format : AudioFormat) (nextSequence : UInt64) (samples : List Int16) :
    Option (AudioFrame × UInt64) :=
  match checkedSucc nextSequence, AudioFrame.new nextSequence format samples with
  | some next, .ok frame => some (frame, next)
  | _, _ => none

def Downlink.step (s : Downlink) : DownlinkEvent → Option Downlink
  | .capture samples now =>
    (readFrame s.format s.nextSequence samples).map fun (frame, next) =>
      { s with nextSequence := next, queue := s.queue.push frame now }
  | .take captureTime =>
    match s.sendLoop with
    | .taking _ => none
    | _ => some { s with sendLoop := .taking (.start captureTime) }
  | .pop now =>
    match s.sendLoop with
    | .taking call =>
      some
        { s with
          queue := (s.queue.pop now).2
          sendLoop := call.turn (s.queue.pop now).1 }
    | _ => none

def downlink : Lts Downlink DownlinkEvent := ⟨Downlink.step⟩

/-- A new bridge's downlink, with a capture reader that has read nothing. -/
def Downlink.start (queue : BoundedAudioQueue) (format : AudioFormat) : Downlink where
  format
  nextSequence := 0
  queue := queue.reset
  sendLoop := .idle

/-- The send loop is inside a call that has popped a frame. -/
def Downlink.MidBatch (s : Downlink) : Prop :=
  ∃ call, s.sendLoop = .taking call ∧ call.popped ≠ []

/-- Some push of `events` finds the queue full while a call is between two of its pops. -/
def Downlink.OverflowsMidBatch (s : Downlink) (events : List DownlinkEvent) : Prop :=
  ∃ t samples now, downlink.Before s events t (.capture samples now) ∧ t.MidBatch ∧ t.queue.Full

end AnalogConnect
