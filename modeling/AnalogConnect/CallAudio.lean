import AnalogConnect.CallAudioPump
import AnalogConnect.WebSocketWire

/-!
# A call's audio on the phone

Three workers of the pump, for the microphone, for what the socket brings and for the speaker, run
beside whoever starts and closes the session. They share the flags `running` and `errorCode`, the
media socket, the device and the jitter buffer, and take steps in any order: an access of a flag, a
section under the lock of the socket, of the device or of the buffer, or what a worker does by
itself in between. `start` and `close` lock the pump, so only one of them is on its way at a time.

What the socket, the microphone and the speaker come to is given to each step; a log keeps what was
done to them. The playout worker's waiting is left out, as is that `close` waits for the workers,
which it does for no longer than a second each.
-/

namespace AnalogConnect

open AudioPacketCodec (Decoded)

/-- `AndroidAudioDevice`: whether its hardware is on, and whether it was released. -/
structure AudioDevice where
  started : Bool
  closed : Bool
deriving DecidableEq

/-- The steps of `fail`, each before it is done. -/
inductive Failing
  | claim (code : String)
  | clearRunning
  | closeTransport
  | stopAudio
deriving DecidableEq

/-- Where the uplink worker is, with the number of its batch's first frame and the frames it has.
A failure past the last number ends it. -/
inductive UplinkPc
  | absent
  | whileRunning (sequence : Int64)
  | reading (sequence : Int64) (frames : List Decoded)
  | sending (sequence : Int64) (frames : List Decoded)
  | failing (sequence : Int64) (exhausted : Bool) (step : Failing)
  | finished
deriving DecidableEq

inductive ReceivePc
  | absent
  | whileRunning
  | ensureOpen
  | reading
  | ponging (payload : List UInt8)
  | closing
  | inserting (packets : List Decoded)
  | failing (step : Failing)
  | finished
deriving DecidableEq

inductive PlayoutPc
  | absent
  | whileRunning
  | tick
  | depth (packet : Decoded)
  | trim (packet : Decoded)
  | writing (packet : Decoded)
  | pacing
  | hasStarted
  | concealing
  | failing (step : Failing)
  | finished
deriving DecidableEq

/-- Who starts and closes the session: in neither, or at a step of one of them. -/
inductive OwnerPc
  | idle
  | startAudio
  | setRunning
  | startUplink
  | startReceive
  | startPlayout
  | clearRunning
  | closeTransport
  | stopAudio
  | closeAudio
deriving DecidableEq

/-- What was done to the socket, the device and the buffer. `failed` is a call of `fail`. A write
that throws leaves the first bytes of its frame on the wire. -/
inductive CallAudioAction
  | started
  | stopped
  | released
  | captured (packet : Decoded)
  | played (frame : DownlinkFrame)
  | wrote (opcode : ℕ) (payload : List UInt8) (mask : MaskKey) (torn : Option ℕ)
  | socketClosed
  | received (frame : WebSocketWire.Frame)
  | inserted (packet : Decoded)
  | failed (code : String)

/-- What a call of the socket, the microphone or the speaker comes to. -/
inductive CallAudioOutcome
  | done
  | threw
  | samples (samples : List Int16) (captureTimeMicros : Int64)
  | frame (frame : WebSocketWire.Frame)
  | write (mask : MaskKey) (torn : Option ℕ)

structure CallAudio where
  pump : CallAudioPump
  running : Bool
  closed : Bool
  errorCode : Option String
  socketClosed : Bool
  device : AudioDevice
  uplink : UplinkPc
  receive : ReceivePc
  playout : PlayoutPc
  owner : OwnerPc
  log : List CallAudioAction

inductive CallAudioEvent
  | start
  | close
  | owner (outcome : CallAudioOutcome)
  | uplink (outcome : CallAudioOutcome)
  | receive (outcome : CallAudioOutcome)
  | playout (outcome : CallAudioOutcome)

namespace CallAudio

/-- A new session, on a socket that is connected. -/
def new (pump : CallAudioPump) : CallAudio where
  pump := pump
  running := false
  closed := false
  errorCode := none
  socketClosed := false
  device := ⟨false, false⟩
  uplink := .absent
  receive := .absent
  playout := .absent
  owner := .idle
  log := []

def did (c : CallAudio) (action : CallAudioAction) : CallAudio :=
  { c with log := c.log ++ [action] }

/-! ## The socket and the device -/

/-- `writeClientFrame` on the socket, and whether it went through. -/
def writeFrame (c : CallAudio) (opcode : ℕ) (payload : List UInt8) :
    CallAudioOutcome → Option (Bool × CallAudio)
  | .write mask torn =>
    match WebSocketWire.writeClientFrame opcode payload mask with
    | .error _ => some (false, c)
    | .ok _ => some (torn.isNone, c.did (.wrote opcode payload mask torn))
  | _ => none

/-- `MediaWebSocket.sendBinary`, and whether it went through. -/
def sendBinary (c : CallAudio) (packet : List UInt8) (outcome : CallAudioOutcome) :
    Option (Bool × CallAudio) :=
  if c.socketClosed then some (false, c)
  else c.writeFrame WebSocketWire.opcodeBinary packet outcome

/-- `MediaWebSocket.close`, which does not mind whether its frame is written. -/
def closeTransport (c : CallAudio) (outcome : CallAudioOutcome) : Option CallAudio :=
  if c.socketClosed then some c
  else
    let closing := { c with socketClosed := true }
    (closing.writeFrame WebSocketWire.opcodeClose [] outcome).map fun written =>
      written.2.did .socketClosed

/-- `AndroidAudioDevice.requireStarted`. -/
def deviceReady (c : CallAudio) : Bool := c.device.started && !c.device.closed

/-- `AndroidAudioDevice.start`, and whether it threw. -/
def startAudio (c : CallAudio) : CallAudioOutcome → Option (Bool × CallAudio)
  | .done =>
    if c.device.closed then some (true, c)
    else if c.device.started then some (false, c)
    else some (false, { c.did .started with device := ⟨true, c.device.closed⟩ })
  | .threw => some (true, c)
  | _ => none

def stopAudio (c : CallAudio) : CallAudio :=
  if c.device.started then { c.did .stopped with device := ⟨false, c.device.closed⟩ } else c

/-- `AndroidAudioDevice.close`. -/
def closeAudio (c : CallAudio) : CallAudio :=
  if c.device.closed then c
  else { c.stopAudio.did .released with device := ⟨false, true⟩ }

/-- A step of `fail`, and the next; the step that claims does nothing where another has. -/
def fail (c : CallAudio) (outcome : CallAudioOutcome) :
    Failing → Option (Option Failing × CallAudio)
  | .claim code =>
    if c.errorCode = none then
      some (some .clearRunning, { c.did (.failed code) with errorCode := some code })
    else some (none, c.did (.failed code))
  | .clearRunning => some (some .closeTransport, { c with running := false })
  | .closeTransport => (c.closeTransport outcome).map fun c => (some .stopAudio, c)
  | .stopAudio => some (none, c.stopAudio)

/-! ## The workers -/

def uplinkFailed : Failing := .claim "audio_uplink_failed"

def receiveFailed : Failing := .claim "audio_downlink_failed"

def playoutFailed : Failing := .claim "audio_playout_failed"

/-- `captureBatch` with a frame of the microphone's. -/
def capture (c : CallAudio) (sequence : Int64) (frames : List Decoded) (packet : Decoded) :
    UplinkPc :=
  if packet.format ≠ c.pump.wireFormat ∨ packet.sequence ≠ sequence + Int64.ofNat frames.length then
    .failing sequence false uplinkFailed
  else if frames.length + 1 < AudioPacketCodec.maxBatchFrames then
    .reading sequence (frames ++ [packet])
  else .sending sequence (frames ++ [packet])

/-- The uplink worker after a batch. -/
def advance (sequence : Int64) : UplinkPc :=
  if sequence > Int64.maxValue - Int64.ofNat AudioPacketCodec.maxBatchFrames then
    .failing sequence true (.claim "audio_sequence_exhausted")
  else .whileRunning (sequence + Int64.ofNat AudioPacketCodec.maxBatchFrames)

def uplinkStep (c : CallAudio) (outcome : CallAudioOutcome) : Option CallAudio :=
  match c.uplink with
  | .absent => none
  | .whileRunning sequence =>
    some { c with uplink := if c.running then .reading sequence [] else .finished }
  | .reading sequence frames =>
    match outcome with
    | .samples samples captureTimeMicros =>
      if c.deviceReady = false ∨ samples.length ≠ c.pump.config.samplesPerFrame then none
      else
        let packet : Decoded :=
          { format := c.pump.config.wireFormat
            sequence := sequence + Int64.ofNat frames.length
            captureTimeMicros, samples }
        some { c.did (.captured packet) with uplink := c.capture sequence frames packet }
    | .threw => some { c with uplink := .failing sequence false uplinkFailed }
    | _ => none
  | .sending sequence frames =>
    match AudioPacketCodec.encodeBatch frames with
    | .error _ => some { c with uplink := .failing sequence false uplinkFailed }
    | .ok packet =>
      (c.sendBinary packet outcome).map fun sent =>
        { sent.2 with
          uplink := if sent.1 then advance sequence else .failing sequence false uplinkFailed }
  | .failing sequence exhausted step =>
    (c.fail outcome step).map fun next =>
      { next.2 with
        uplink :=
          match next.1 with
          | some step => .failing sequence exhausted step
          | none => if exhausted then .finished else .whileRunning sequence }
  | .finished => none

/-- What the receive worker does with a frame. -/
def handle (c : CallAudio) (frame : WebSocketWire.Frame) : ReceivePc :=
  if frame.opcode = WebSocketWire.opcodePing then .ponging frame.payload
  else if frame.opcode = WebSocketWire.opcodeClose then .closing
  else if frame.opcode = WebSocketWire.opcodeBinary then
    match c.pump.receiveOnce frame.payload with
    | .error _ => .failing receiveFailed
    | .ok packets => .inserting packets
  else .ensureOpen

def receiveStep (c : CallAudio) (outcome : CallAudioOutcome) : Option CallAudio :=
  match c.receive with
  | .absent => none
  | .whileRunning => some { c with receive := if c.running then .ensureOpen else .finished }
  | .ensureOpen =>
    some { c with receive := if c.socketClosed then .failing receiveFailed else .reading }
  | .reading =>
    match outcome with
    | .frame frame => -- one the reader accepts
      if WebSocketWire.validateOpcodeAndPayload frame.opcode frame.payload = .ok () then
        some { c.did (.received frame) with receive := c.handle frame }
      else none
    | .threw => some { c with receive := .failing receiveFailed }
    | _ => none
  | .ponging payload => -- not stopped by a close that came between
    (c.writeFrame WebSocketWire.opcodePong payload outcome).map fun written =>
      { written.2 with receive := if written.1 then .ensureOpen else .failing receiveFailed }
  | .closing =>
    (c.closeTransport outcome).map fun c => { c with receive := .failing receiveFailed }
  | .inserting [] => some { c with receive := .whileRunning }
  | .inserting (packet :: packets) =>
    some
      { c.did (.inserted packet) with
        pump := c.pump.insertAll [packet], receive := .inserting packets }
  | .failing step =>
    (c.fail outcome step).map fun next =>
      { next.2 with receive := (next.1.map ReceivePc.failing).getD .whileRunning }
  | .finished => none

/-- `writeDownlink` of a frame, which leaves the pump as it is where it throws. -/
def play (c : CallAudio) (frame : DownlinkFrame) (threw played : CallAudio) :
    CallAudioOutcome → Option CallAudio
  | .done =>
    if c.deviceReady = false ∨ frame.packet.format ≠ c.pump.config.wireFormat ∨
        frame.packet.samples.length ≠ c.pump.config.samplesPerFrame then
      none
    else some (played.did (.played frame))
  | .threw => some { threw with playout := .failing playoutFailed }
  | _ => none

/-- The frame to be written for a packet. -/
def recovered (c : CallAudio) (packet : Decoded) : DownlinkFrame where
  packet := if c.pump.previousFrameConcealed then c.pump.smoothRecovery packet else packet
  concealed := false

def playoutStep (c : CallAudio) (outcome : CallAudioOutcome) : Option CallAudio :=
  match c.playout with
  | .absent => none
  | .whileRunning => some { c with playout := if c.running then .tick else .finished }
  | .tick =>
    match c.pump.jitter.tick with
    | (some packet, jitter) =>
      some
        { c with
          pump := { c.pump with jitter, framesSinceTrim := c.pump.framesSinceTrim + 1 }
          playout := .depth packet }
    | (none, jitter) => some { c with pump := { c.pump with jitter }, playout := .hasStarted }
  | .depth packet =>
    if c.pump.jitter.summary.depth > CallAudioPump.trimHighWaterDepth ∧
        c.pump.framesSinceTrim ≥ CallAudioPump.minFramesBetweenTrims then
      some { c with playout := .trim packet }
    else some { c with playout := .writing packet }
  | .trim packet =>
    match c.pump.jitter.tick with
    | (none, jitter) =>
      some { c with pump := { c.pump with jitter }, playout := .writing packet }
    | (some newer, jitter) =>
      some
        { c with
          pump :=
            { c.pump with
              jitter, trimmedFrames := c.pump.trimmedFrames + 1, framesSinceTrim := 0
              previousFrameConcealed := true }
          playout := .writing newer }
  | .writing packet =>
    c.play (c.recovered packet) c
      { c with
        pump :=
          { c.pump with
            lastDownlinkSample := (c.recovered packet).packet.samples.getLastD 0
            playedDownlink := true, previousFrameConcealed := false }
        playout := .pacing } outcome
  | .pacing =>
    let pacingAdjustmentNanos :=
      CallAudioPump.pace c.pump.pacingAdjustmentNanos c.pump.jitter.summary.depth
    some { c with pump := { c.pump with pacingAdjustmentNanos }, playout := .whileRunning }
  | .hasStarted =>
    some { c with playout := if c.pump.jitter.hasStarted then .concealing else .whileRunning }
  | .concealing =>
    c.play c.pump.conceal.1 { c with pump := c.pump.concealMissingFrame.2 }
      { c with pump := c.pump.conceal.2, playout := .whileRunning } outcome
  | .failing step =>
    (c.fail outcome step).map fun next =>
      { next.2 with playout := (next.1.map PlayoutPc.failing).getD .whileRunning }
  | .finished => none

/-! ## The owner -/

def ownerStep (c : CallAudio) (outcome : CallAudioOutcome) : Option CallAudio :=
  match c.owner with
  | .idle => none
  | .startAudio =>
    (c.startAudio outcome).map fun started =>
      { started.2 with owner := if started.1 then .idle else .setRunning }
  | .setRunning => some { c with running := true, owner := .startUplink }
  | .startUplink => some { c with uplink := .whileRunning 0, owner := .startReceive }
  | .startReceive => some { c with receive := .whileRunning, owner := .startPlayout }
  | .startPlayout => some { c with playout := .whileRunning, owner := .idle }
  | .clearRunning => some { c with running := false, owner := .closeTransport }
  | .closeTransport => (c.closeTransport outcome).map fun c => { c with owner := .stopAudio }
  | .stopAudio => some { c.stopAudio with owner := .closeAudio }
  | .closeAudio => some { c.closeAudio with owner := .idle }

def step (c : CallAudio) : CallAudioEvent → Option CallAudio
  | .start =>
    if c.owner ≠ .idle then none
    -- throws where it was closed or had workers before
    else if c.closed ∨ c.running ∨ c.uplink ≠ .absent then some c
    else some { c with owner := .startAudio }
  | .close =>
    if c.owner ≠ .idle then none
    else if c.closed then some c
    else some { c with closed := true, owner := .clearRunning }
  | .owner outcome => c.ownerStep outcome
  | .uplink outcome => c.uplinkStep outcome
  | .receive outcome => c.receiveStep outcome
  | .playout outcome => c.playoutStep outcome

end CallAudio

def callAudio : Lts CallAudio CallAudioEvent := ⟨CallAudio.step⟩

end AnalogConnect
