import AnalogConnect.Library.Bytes

/-!
# Audio packets on the phone

The phone's own reading of the packet format. A Java `byte` stands here as its bit pattern, a
`long` as an `Int64`, a `short` as an `Int16`; an `int` format number is what `& 0xff` leaves.
References are never null.
-/

namespace AnalogConnect.AudioPacketCodec

open Bytes

def maxBatchFrames : ℕ := 4

def formatNarrowband : ℕ := 1

def formatWideband : ℕ := 2

def headerBytes : ℕ := 24

def magic : List UInt8 := [0x41, 0x43, 0x41, 0x50]

structure Decoded where
  format : ℕ
  sequence : Int64
  captureTimeMicros : Int64
  samples : List Int16
deriving DecidableEq

structure PacketException where
  message : String
deriving DecidableEq

def expectedSamples (format : ℕ) : Except PacketException ℕ :=
  if format = formatNarrowband then .ok 60
  else if format = formatWideband then .ok 120
  else .error ⟨"Unsupported audio format"⟩

def encode (format : ℕ) (sequence captureTimeMicros : Int64) (samples : List Int16) :
    Except PacketException (List UInt8) :=
  match expectedSamples format with
  | .error error => .error error
  | .ok expected =>
    if sequence < 0 then .error ⟨"Audio sequence is outside the supported range"⟩
    else if samples.length ≠ expected then .error ⟨"Invalid audio payload"⟩
    else
      .ok (magic ++ [1, UInt8.ofNat format, 0, 0] ++
        (u64BeBytes sequence.toUInt64 ++ (u64BeBytes captureTimeMicros.toUInt64 ++
          samples.flatMap i16LeBytes)))

def decode (bytes : List UInt8) : Except PacketException Decoded :=
  if bytes.length < headerBytes then .error ⟨"Invalid audio header"⟩
  else if bytes.take 4 ≠ magic then .error ⟨"Invalid audio header"⟩
  else if bytes.getD 4 0 ≠ 1 then .error ⟨"Unsupported audio version"⟩
  else
    let format := (bytes.getD 5 0).toNat
    if beNat ((bytes.drop 6).take 2) ≠ 0 then .error ⟨"Invalid audio header"⟩
    else
      match expectedSamples format with
      | .error error => .error error
      | .ok expected =>
        if (bytes.drop 8).length ≠ 16 + expected * 2 then .error ⟨"Invalid audio payload"⟩
        else
          let sequence := (u64OfBeBytes ((bytes.drop 8).take 8)).toInt64
          if sequence < 0 then .error ⟨"Audio sequence is outside the supported range"⟩
          else
            .ok
              { format, sequence
                captureTimeMicros := (u64OfBeBytes ((bytes.drop 16).take 8)).toInt64
                samples := i16sOfLeBytes (bytes.drop 24) }

/-- `validateBatch`'s loop from `index` on, against the first frame's format and sequence; the
sequence numbers add as Java `long`s. -/
def validateFrom (format : ℕ) (sequence : Int64) : ℕ → List Decoded → Except PacketException Unit
  | _, [] => .ok ()
  | index, frame :: frames =>
    if frame.format ≠ format ∨ frame.sequence ≠ sequence + Int64.ofNat index then
      .error ⟨"Invalid audio batch"⟩
    else
      match expectedSamples frame.format with
      | .error error => .error error
      | .ok _ => validateFrom format sequence (index + 1) frames

def validateBatch (frames : List Decoded) : Except PacketException Unit :=
  match frames with
  | [] => .error ⟨"Invalid audio batch"⟩
  | first :: _ =>
    if frames.length > maxBatchFrames then .error ⟨"Invalid audio batch"⟩
    else validateFrom first.format first.sequence 0 frames

/-- `encodeBatch`'s loop over the validated frames. -/
def encodeFrames : List Decoded → Except PacketException (List UInt8)
  | [] => .ok []
  | frame :: frames =>
    match encode frame.format frame.sequence frame.captureTimeMicros frame.samples with
    | .error error => .error error
    | .ok encoded =>
      match encodeFrames frames with
      | .error error => .error error
      | .ok rest => .ok (encoded ++ rest)

def encodeBatch (frames : List Decoded) : Except PacketException (List UInt8) :=
  match validateBatch frames with
  | .error error => .error error
  | .ok () => encodeFrames frames

/-- `decodeBatch`'s loop on the bytes from `offset` on, with room for `n` more frames: the frames
decoded and the bytes left when the loop ends. -/
def decodeFrames : ℕ → List UInt8 → Except PacketException (List Decoded × List UInt8)
  | 0, bytes => .ok ([], bytes)
  | n + 1, bytes =>
    if bytes = [] then .ok ([], bytes)
    else if bytes.length < 6 then .error ⟨"Invalid audio batch"⟩
    else
      match expectedSamples (bytes.getD 5 0).toNat with
      | .error error => .error error
      | .ok expected =>
        let packetBytes := headerBytes + expected * 2
        if packetBytes > bytes.length then .error ⟨"Invalid audio batch"⟩
        else
          match decode (bytes.take packetBytes) with
          | .error error => .error error
          | .ok frame =>
            match decodeFrames n (bytes.drop packetBytes) with
            | .error error => .error error
            | .ok (frames, rest) => .ok (frame :: frames, rest)

def decodeBatch (bytes : List UInt8) : Except PacketException (List Decoded) :=
  if bytes.length < headerBytes + 60 * 2 then .error ⟨"Invalid audio batch"⟩
  else
    match decodeFrames maxBatchFrames bytes with
    | .error error => .error error
    | .ok (frames, rest) =>
      if rest ≠ [] ∨ frames = [] then .error ⟨"Invalid audio batch"⟩
      else
        match validateBatch frames with
        | .error error => .error error
        | .ok () => .ok frames

end AnalogConnect.AudioPacketCodec
