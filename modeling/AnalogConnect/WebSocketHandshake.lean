import AnalogConnect.Library.Trimming
import AnalogConnect.WebSocketWire

/-!
# The phone's WebSocket handshake

The phone reads the daemon's answer to its upgrade a byte at a time, up to the empty line, and no
more than a header may have. A string of ASCII stands here as its bytes. SHA-1 and Base64 are given;
what is left of the stream is returned with a failure too.
-/

namespace AnalogConnect

namespace WebSocketWire

def maxHeaderBytes : ℕ := 8192

def acceptGuid : String := "258EAFA5-E914-47DA-95CA-C5AB0DC85B11"

/-- `getBytes(US_ASCII)`, which has a question mark for what is not ASCII. -/
def usAscii (s : String) : List UInt8 :=
  s.toList.map fun c => if c.toNat < 128 then UInt8.ofNat c.toNat else 0x3F

/-- `String.trim`. -/
def trim (text : List UInt8) : List UInt8 := Trimming.trimBy (fun b => decide (b ≤ 0x20)) text

/-- `toLowerCase`. -/
def toLowerCase (text : List UInt8) : List UInt8 :=
  text.map fun b => if 0x41 ≤ b ∧ b ≤ 0x5A then b + 0x20 else b

def equalsIgnoreCase (expected value : List UInt8) : Bool :=
  toLowerCase expected = toLowerCase value

def expectedAccept (sha1 base64 : List UInt8 → List UInt8) (key : String) : List UInt8 :=
  base64 (sha1 (usAscii (key ++ acceptGuid)))

/-- `value.split(",")`, which leaves out empty strings at the end. -/
def split (value : List UInt8) : List (List UInt8) :=
  let tokens := value.splitOn 0x2C
  if tokens.length = 1 then tokens else tokens.rdropWhile (· = [])

def containsToken (value expected : List UInt8) : Bool :=
  (split value).any fun token => equalsIgnoreCase expected (trim token)

/-- The loop that reads a line, after `line` and with room for as many bytes as `line.size() + 2`
may still grow by. -/
def readLineFrom : ℕ → List UInt8 → InputStream → Except WireException (List UInt8) × InputStream
  | 0, _, input => (.error (.io "WebSocket handshake is too large"), input)
  | room + 1, line, input =>
    match readByte input with
    | .error error => (.error error, [])
    | .ok (value, input) =>
      if value = 0x0D then
        match readByte input with
        | .error error => (.error error, [])
        | .ok (next, input) =>
          if next ≠ 0x0A then (.error (.io "WebSocket handshake is invalid"), input)
          else (.ok line, input)
      else if value < 0x20 ∨ 0x7E < value then
        (.error (.io "WebSocket handshake is invalid"), input)
      else readLineFrom room (line ++ [value]) input

def readLine (input : InputStream) (remaining : ℕ) :
    Except WireException (List UInt8) × InputStream :=
  if remaining ≤ 1 then (.error (.io "WebSocket handshake is too large"), input)
  else readLineFrom (remaining - 1) [] input

/-- What the headers said so far. -/
structure HandshakeHeaders where
  upgrade : Bool
  connection : Bool
  accept : Bool
deriving DecidableEq

/-- A header line, in the loop over the headers. -/
def readHeader (expected : List UInt8) (seen : HandshakeHeaders) (line : List UInt8) :
    Except WireException HandshakeHeaders :=
  let separator := line.idxOf 0x3A
  if separator = line.length ∨ separator = 0 then .error (.io "WebSocket handshake is invalid")
  else
    let name := toLowerCase (trim (line.take separator))
    let value := trim (line.drop (separator + 1))
    if name = usAscii "upgrade" then
      .ok { seen with upgrade := equalsIgnoreCase (usAscii "websocket") value }
    else if name = usAscii "connection" then
      .ok { seen with connection := containsToken value (usAscii "upgrade") }
    else if name = usAscii "sec-websocket-accept" then
      .ok { seen with accept := decide (expected = value) }
    else if name = usAscii "sec-websocket-extensions" then
      .error (.io "WebSocket extensions are not supported")
    else .ok seen

theorem length_readLineFrom : ∀ {room : ℕ} {line : List UInt8} {input : InputStream}
    {read : List UInt8}, (readLineFrom room line input).1 = .ok read →
      read.length < line.length + room
  | 0, _, _, _, h => by cases h
  | room + 1, line, input, read, h => by
    unfold readLineFrom at h
    split at h
    · cases h
    split_ifs at h
    · split at h
      · cases h
      split_ifs at h
      rw [← Except.ok.inj h]
      omega
    · have := length_readLineFrom h
      rw [List.length_append, List.length_singleton] at this
      omega

theorem length_readLine {input : InputStream} {remaining : ℕ} {line : List UInt8}
    (h : (readLine input remaining).1 = .ok line) : line.length + 2 ≤ remaining := by
  unfold readLine at h
  split_ifs at h
  have := length_readLineFrom h
  rw [List.length_nil] at this
  omega

/-- The loop over the header lines. -/
def readHeaders (expected : List UInt8) (seen : HandshakeHeaders) (consumed : ℕ)
    (input : InputStream) : Except WireException HandshakeHeaders × InputStream :=
  match _ : (readLine input (maxHeaderBytes - consumed)).1 with
  | .error error => (.error error, (readLine input (maxHeaderBytes - consumed)).2)
  | .ok line =>
    let input := (readLine input (maxHeaderBytes - consumed)).2
    let consumed := consumed + (line.length + 2)
    if line = [] then (.ok seen, input)
    else
      match readHeader expected seen line with
      | .error error => (.error error, input)
      | .ok seen => readHeaders expected seen consumed input
termination_by maxHeaderBytes - consumed
decreasing_by
  have := length_readLine ‹_›
  omega

def validateHandshake (sha1 base64 : List UInt8 → List UInt8) (input : InputStream)
    (key : String) : Except WireException Unit × InputStream :=
  match readLine input maxHeaderBytes with
  | (.error error, input) => (.error error, input)
  | (.ok status, input) =>
    if status ≠ usAscii "HTTP/1.1 101 Switching Protocols" then
      (.error (.io "WebSocket upgrade was rejected"), input)
    else
      match readHeaders (expectedAccept sha1 base64 key) ⟨false, false, false⟩
          (status.length + 2) input with
      | (.error error, input) => (.error error, input)
      | (.ok seen, input) =>
        if !seen.upgrade || !seen.connection || !seen.accept then
          (.error (.io "WebSocket handshake is invalid"), input)
        else (.ok (), input)

end WebSocketWire

end AnalogConnect
