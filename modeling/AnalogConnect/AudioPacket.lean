import AnalogConnect.Library.Bytes

/-!
# Audio packets on the daemon

One packet carries one frame of call audio: a 24-byte header, with the sequence number and the
capture time big-endian, then the frame's samples little-endian. The phone reads sequence numbers
as signed 64-bit values, so the daemon neither writes nor accepts one past `i64::MAX`.
-/

namespace AnalogConnect

open Bytes

structure AudioFormat where
  sampleRateHz : UInt32
  channels : UInt8
  samplesPerChannel : UInt16
deriving DecidableEq

namespace AudioFormat

def hfpWideband : AudioFormat := ⟨16000, 1, 120⟩

def hfpNarrowband : AudioFormat := ⟨8000, 1, 60⟩

/-- The samples of one frame, over all channels. -/
def frameSamples (format : AudioFormat) : ℕ :=
  format.samplesPerChannel.toNat * format.channels.toNat

/-- The two formats HFP calls use. -/
def IsHfp (format : AudioFormat) : Prop :=
  format = hfpNarrowband ∨ format = hfpWideband

instance (format : AudioFormat) : Decidable format.IsHfp :=
  inferInstanceAs (Decidable (_ ∨ _))

end AudioFormat

inductive AudioFrameError
  | invalidFormat
deriving DecidableEq

/-- A frame holds as many samples as its format asks for. -/
structure AudioFrame where
  sequence : UInt64
  format : AudioFormat
  samples : List Int16
  sampleRate_ne : format.sampleRateHz ≠ 0
  channels_ne : format.channels ≠ 0
  length_samples : samples.length = format.frameSamples
deriving DecidableEq

def AudioFrame.new (sequence : UInt64) (format : AudioFormat) (samples : List Int16) :
    Except AudioFrameError AudioFrame :=
  if h : format.sampleRateHz = 0 ∨ format.channels = 0 ∨ samples.length ≠ format.frameSamples then
    .error .invalidFormat
  else
    .ok
      { sequence, format, samples
        sampleRate_ne := fun h₁ => h (.inl h₁)
        channels_ne := fun h₂ => h (.inr (.inl h₂))
        length_samples := Decidable.of_not_not fun h₃ => h (.inr (.inr h₃)) }

def packetMagic : List UInt8 := [0x41, 0x43, 0x41, 0x50]

def packetVersion : UInt8 := 1

def packetHeaderBytes : ℕ := 24

/-- `i64::MAX`, the largest sequence number both platforms can hold. -/
def maxSequence : UInt64 := 0x7FFFFFFFFFFFFFFF

structure AudioPacket where
  captureTimeMicros : UInt64
  frame : AudioFrame
deriving DecidableEq

inductive AudioPacketError
  | invalidHeader
  | unsupportedFormat
  | invalidPayload
  | sequenceOutOfRange
deriving DecidableEq

namespace AudioPacket

/-- The byte that names a format on the wire. -/
def formatByte (format : AudioFormat) : Except AudioPacketError UInt8 :=
  if format = .hfpNarrowband then .ok 1
  else if format = .hfpWideband then .ok 2
  else .error .unsupportedFormat

/-- The format a wire byte names. -/
def formatOfByte (byte : UInt8) : Except AudioPacketError AudioFormat :=
  if byte = 1 then .ok .hfpNarrowband
  else if byte = 2 then .ok .hfpWideband
  else .error .unsupportedFormat

def encode (packet : AudioPacket) : Except AudioPacketError (List UInt8) :=
  if packet.frame.sequence > maxSequence then .error .sequenceOutOfRange
  else
    match formatByte packet.frame.format with
    | .error error => .error error
    | .ok format =>
      .ok (packetMagic ++ [packetVersion, format, 0, 0] ++
        (u64BeBytes packet.frame.sequence ++ (u64BeBytes packet.captureTimeMicros ++
          packet.frame.samples.flatMap i16LeBytes)))

def decode (packet : List UInt8) : Except AudioPacketError AudioPacket :=
  if packet.length < packetHeaderBytes ∨ packet.take 4 ≠ packetMagic
      ∨ packet.getD 4 0 ≠ packetVersion ∨ packet.getD 6 0 ≠ 0 ∨ packet.getD 7 0 ≠ 0 then
    .error .invalidHeader
  else
    match formatOfByte (packet.getD 5 0) with
    | .error error => .error error
    | .ok format =>
      let payload := packet.drop packetHeaderBytes
      if payload.length ≠ format.samplesPerChannel.toNat * 2 then .error .invalidPayload
      else
        let sequence := u64OfBeBytes ((packet.drop 8).take 8)
        if sequence > maxSequence then .error .sequenceOutOfRange
        else
          match AudioFrame.new sequence format (i16sOfLeBytes payload) with
          | .error _ => .error .invalidPayload
          | .ok frame => .ok ⟨u64OfBeBytes ((packet.drop 16).take 8), frame⟩

end AudioPacket

end AnalogConnect
