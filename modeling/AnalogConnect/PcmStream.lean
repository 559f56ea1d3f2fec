import AnalogConnect.Library.ChunkedSource
import AnalogConnect.MediaStream

/-!
# PCM streams

`pw-cat` reads and writes raw little-endian samples. The reader makes frames of what comes, in
pieces of any size and with reads interrupted in between, and numbers them; the writer writes the
samples of frames of its format.
-/

namespace AnalogConnect

open Bytes ChunkedSource

inductive PcmStreamError
  | unsupportedFormat
  | truncatedFrame
  | readFailed
  | writeFailed
  | formatMismatch
  | sequenceExhausted
  | invalidFrame
deriving DecidableEq

def validateHfpFormat (format : AudioFormat) : Except PcmStreamError Unit :=
  if format = .hfpNarrowband ∨ format = .hfpWideband then .ok () else .error .unsupportedFormat

structure PcmFrameReader where
  source : List (Piece UInt8)
  format : AudioFormat
  nextSequence : UInt64

namespace PcmFrameReader

def new (source : List (Piece UInt8)) (format : AudioFormat) :
    Except PcmStreamError PcmFrameReader :=
  match validateHfpFormat format with
  | .error error => .error error
  | .ok () => .ok ⟨source, format, 0⟩

/-- The bytes of one frame. -/
def frameBytes (format : AudioFormat) : ℕ := format.samplesPerChannel.toNat * 2

def readFrame (reader : PcmFrameReader) :
    Except PcmStreamError (Option AudioFrame) × PcmFrameReader :=
  match fill [] (frameBytes reader.format) reader.source with
  | (.ended [], source) => (.ok none, { reader with source })
  | (.ended _, source) => (.error .truncatedFrame, { reader with source })
  | (.failed, source) => (.error .readFailed, { reader with source })
  | (.full bytes, source) =>
    match checkedSucc reader.nextSequence with
    | none => (.error .sequenceExhausted, { reader with source })
    | some next =>
      match AudioFrame.new reader.nextSequence reader.format (i16sOfLeBytes bytes) with
      | .error _ => (.error .invalidFrame, { reader with source, nextSequence := next })
      | .ok frame => (.ok (some frame), { reader with source, nextSequence := next })

/-- What the next `n` calls of `readFrame` return. -/
def readFrames : ℕ → PcmFrameReader → List (Except PcmStreamError (Option AudioFrame))
  | 0, _ => []
  | n + 1, reader => reader.readFrame.1 :: readFrames n reader.readFrame.2

end PcmFrameReader

/-- `written` is what its sink has taken. -/
structure PcmFrameWriter where
  written : List UInt8
  format : AudioFormat

namespace PcmFrameWriter

def new (format : AudioFormat) : Except PcmStreamError PcmFrameWriter :=
  match validateHfpFormat format with
  | .error error => .error error
  | .ok () => .ok ⟨[], format⟩

/-- The sink may fail, after some of the frame's bytes. -/
def writeFrame (writer : PcmFrameWriter) (frame : AudioFrame) (failsAfter : Option ℕ) :
    Except PcmStreamError Unit × PcmFrameWriter :=
  if frame.format ≠ writer.format then (.error .formatMismatch, writer)
  else
    match failsAfter with
    | none =>
      (.ok (), { writer with written := writer.written ++ frame.samples.flatMap i16LeBytes })
    | some n =>
      (.error .writeFailed,
        { writer with written := writer.written ++ (frame.samples.flatMap i16LeBytes).take n })

/-- The frames written one after another, to a sink that takes them all. -/
def writeFrames : PcmFrameWriter → List AudioFrame → Except PcmStreamError PcmFrameWriter
  | writer, [] => .ok writer
  | writer, frame :: frames =>
    match writer.writeFrame frame none with
    | (.error error, _) => .error error
    | (.ok (), writer) => writeFrames writer frames

end PcmFrameWriter

end AnalogConnect
