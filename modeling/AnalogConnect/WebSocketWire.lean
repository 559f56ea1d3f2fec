import AnalogConnect.AudioPacketCodec
import AnalogConnect.Library.WebSocketFrames

/-!
# The phone's WebSocket framing

The phone writes each frame whole and masked, and reads the daemon's frames from a stream that gives
its bytes in pieces. An `int` that holds a byte stands here as the byte; a mask is what the source
of masks fills in. References are never null.
-/

namespace AnalogConnect

/-- What a stream has still to give, piece by piece; a piece may be empty. -/
abbrev InputStream := List (List UInt8)

namespace InputStream

/-- `read()`: the next byte, or none at the end. -/
def read : InputStream → Option (UInt8 × InputStream)
  | [] => none
  | [] :: input => read input
  | (byte :: piece) :: input => some (byte, piece :: input)

/-- `read(bytes, offset, length)`: as much of the next piece as there is room for. -/
def readInto (length : ℕ) : InputStream → Option (List UInt8 × InputStream)
  | [] => none
  | piece :: input =>
    some (piece.take length,
      if piece.length ≤ length then input else piece.drop length :: input)

theorem readInto_lt {length : ℕ} (h : length ≠ 0) {input input' : InputStream}
    {bytes : List UInt8} (hread : input.readInto length = some (bytes, input')) :
    length - bytes.length + input'.length < length + input.length := by
  cases input with
  | nil => cases hread
  | cons piece input =>
    unfold readInto at hread
    rw [Option.some.injEq, Prod.mk.injEq] at hread
    obtain ⟨rfl, rfl⟩ := hread
    rw [List.length_take, List.length_cons]
    split_ifs
    · omega
    · rw [List.length_cons]
      omega

end InputStream

namespace WebSocketWire

def maxPayloadBytes : ℕ := 264 * AudioPacketCodec.maxBatchFrames

def opcodeBinary : ℕ := 2

def opcodeClose : ℕ := 8

def opcodePing : ℕ := 9

def opcodePong : ℕ := 10

inductive WireException
  | eof (message : String)
  | io (message : String)
deriving DecidableEq

structure Frame where
  opcode : ℕ
  payload : List UInt8
deriving DecidableEq

def validateOpcodeAndPayload (opcode : ℕ) (payload : List UInt8) : Except WireException Unit :=
  if payload.length > maxPayloadBytes ∨
      ¬ (opcode = opcodeBinary ∨ opcode = opcodeClose ∨ opcode = opcodePing ∨
        opcode = opcodePong) ∨
      opcode ≥ opcodeClose ∧ payload.length > 125 ∨
      opcode = opcodeClose ∧ payload.length = 1 then
    .error (.io "WebSocket frame is invalid")
  else .ok ()

/-- The bytes written. -/
def writeClientFrame (opcode : ℕ) (payload : List UInt8) (mask : MaskKey) :
    Except WireException (List UInt8) :=
  match validateOpcodeAndPayload opcode payload with
  | .error error => .error error
  | .ok () =>
    let length := payload.length
    let lengthBytes :=
      if length ≤ 125 then [UInt8.ofNat (0x80 ||| length)]
      else
        [UInt8.ofNat (0x80 ||| 126), UInt8.ofNat ((length >>> 8) &&& 0xff),
          UInt8.ofNat (length &&& 0xff)]
    let encoded := payload.mapIdx fun index byte => byte ^^^ mask.byteAt index
    .ok (UInt8.ofNat (0x80 ||| opcode) :: (lengthBytes ++ (List.ofFn mask ++ encoded)))

def readByte (input : InputStream) : Except WireException (UInt8 × InputStream) :=
  match input.read with
  | none => .error (.eof "WebSocket connection ended")
  | some (value, input) => .ok (value, input)

def readExact (length : ℕ) (input : InputStream) :
    Except WireException (List UInt8 × InputStream) :=
  if length = 0 then .ok ([], input)
  else
    match _ : input.readInto length with
    | none => .error (.eof "WebSocket connection ended")
    | some (bytes, input) =>
      match readExact (length - bytes.length) input with
      | .error error => .error error
      | .ok (rest, input) => .ok (bytes ++ rest, input)
termination_by length + input.length
decreasing_by exact InputStream.readInto_lt ‹_› ‹_›

/-- The length of a frame, from the seven bits of its second byte on. -/
def readLength (length : ℕ) (input : InputStream) : Except WireException (ℕ × InputStream) :=
  if length = 126 then
    match readByte input with
    | .error error => .error error
    | .ok (high, input) =>
      match readByte input with
      | .error error => .error error
      | .ok (low, input) =>
        let length := (high.toNat <<< 8) ||| low.toNat
        if length ≤ 125 then .error (.io "WebSocket frame length is invalid")
        else .ok (length, input)
  else if length = 127 then .error (.io "WebSocket frame is too large")
  else .ok (length, input)

def readServerFrame (input : InputStream) : Except WireException (Frame × InputStream) :=
  match readByte input with
  | .error error => .error error
  | .ok (first, input) =>
    match readByte input with
    | .error error => .error error
    | .ok (second, input) =>
      if first &&& 0x80 = 0 ∨ first &&& 0x70 ≠ 0 ∨ second &&& 0x80 ≠ 0 then
        .error (.io "WebSocket frame is invalid")
      else
        let opcode := (first &&& 0x0f).toNat
        match readLength (second &&& 0x7f).toNat input with
        | .error error => .error error
        | .ok (length, input) =>
          if length > maxPayloadBytes ∨ opcode ≥ opcodeClose ∧ length > 125 then
            .error (.io "WebSocket frame is too large")
          else
            match readExact length input with
            | .error error => .error error
            | .ok (payload, input) =>
              match validateOpcodeAndPayload opcode payload with
              | .error error => .error error
              | .ok () => .ok ({ opcode, payload }, input)

/-- Frames read one after another, as the connection's owner reads them. -/
def readServerFrames : ℕ → InputStream → Except WireException (List Frame × InputStream)
  | 0, input => .ok ([], input)
  | n + 1, input =>
    match readServerFrame input with
    | .error error => .error error
    | .ok (frame, input) =>
      match readServerFrames n input with
      | .error error => .error error
      | .ok (frames, input) => .ok (frame :: frames, input)

end WebSocketWire

end AnalogConnect
