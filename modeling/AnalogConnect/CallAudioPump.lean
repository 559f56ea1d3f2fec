import AnalogConnect.AudioJitterBuffer

/-!
# The phone's playout pump

The receive thread puts the packets of each message into the jitter buffer one by one, and the
playout thread takes one slot a call: it writes the slot's packet or, where there is none, a frame
in its place. It plays a deep buffer down by writing every so often the second of two packets only,
and paces its calls by the buffer's depth. The buffer locks each operation, so packets may arrive
between any two of a call's looks at it (`PlayoutArrivals`).
-/

namespace AnalogConnect

open AudioPacketCodec (Decoded PacketException formatNarrowband formatWideband)

structure AudioDeviceConfig where
  wireFormat : ℕ
  sampleRate : ℕ
  samplesPerFrame : ℕ

def AudioDeviceConfig.forWireFormat (wireFormat : ℕ) : Except String AudioDeviceConfig :=
  if wireFormat = formatNarrowband then .ok ⟨wireFormat, 8000, 60⟩
  else if wireFormat = formatWideband then .ok ⟨wireFormat, 16000, 120⟩
  else .error "Unsupported HFP audio format"

/-- The pump with its buffer. `config` is what its format gives; the pacing is a Java `long`. -/
structure CallAudioPump where
  wireFormat : ℕ
  config : AudioDeviceConfig
  jitter : AudioJitterBuffer
  concealedFrames : Int64
  lastDownlinkSample : Int16
  playedDownlink : Bool
  previousFrameConcealed : Bool
  pacingAdjustmentNanos : ℤ
  trimmedFrames : Int64
  framesSinceTrim : Int32
  supported : AudioDeviceConfig.forWireFormat wireFormat = .ok config

/-- What `receiveOnce` throws. -/
inductive ReceiveException
  | packet (error : PacketException)
  | io (message : String)

/-- A frame written to the speaker, and whether it stands in for a missing one. -/
structure DownlinkFrame where
  packet : Decoded
  concealed : Bool

/-- What a call of `playoutOnce` did. -/
structure PlayoutCall where
  written : List DownlinkFrame
  trimmed : Bool

/-- The packets that arrive in a call: before its second look at the buffer, before one that only
some calls take, and from then on. -/
structure PlayoutArrivals where
  first : List Decoded
  second : List Decoded
  third : List Decoded

namespace CallAudioPump

def pacingStepNanos : ℤ := 15000

def maxSlowPacingNanos : ℤ := 150000

def maxFastPacingNanos : ℤ := -300000

def trimHighWaterDepth : ℕ := 12

def minFramesBetweenTrims : Int32 := 32

def jitterCapacity : ℕ := 64

def jitterTargetDepth : ℕ := 4

def new (wireFormat : ℕ) : Except String CallAudioPump :=
  match AudioJitterBuffer.new jitterCapacity jitterTargetDepth with
  | .error message => .error message
  | .ok jitter =>
    match supported : AudioDeviceConfig.forWireFormat wireFormat with
    | .error message => .error message
    | .ok config =>
      .ok
        { wireFormat, config, jitter, concealedFrames := 0, lastDownlinkSample := 0
          playedDownlink := false, previousFrameConcealed := false, pacingAdjustmentNanos := 0
          trimmedFrames := 0, framesSinceTrim := minFramesBetweenTrims, supported }

/-- The packets `receiveOnce` inserts for a message. -/
def receiveOnce (pump : CallAudioPump) (message : List UInt8) :
    Except ReceiveException (List Decoded) :=
  match AudioPacketCodec.decodeBatch message with
  | .error error => .error (.packet error)
  | .ok packets =>
    if packets.any (·.format ≠ pump.wireFormat) then .error (.io "Call speaker format changed")
    else .ok packets

/-- The packets arrive. -/
def insertAll (pump : CallAudioPump) (packets : List Decoded) : CallAudioPump :=
  { pump with jitter := packets.foldl AudioJitterBuffer.insert pump.jitter }

def smoothRecovery (pump : CallAudioPump) (packet : Decoded) : Decoded :=
  let transitionSamples :=
    min packet.samples.length (if pump.wireFormat = formatWideband then 24 else 12)
  { packet with
    samples := packet.samples.mapIdx fun index sample =>
      if index < transitionSamples then
        let oldWeight : ℤ := transitionSamples - index - 1
        let newWeight : ℤ := index + 1
        Int16.ofInt ((pump.lastDownlinkSample.toInt * oldWeight + sample.toInt * newWeight).tdiv
          transitionSamples)
      else sample }

/-- The frame in the place of a missing one, which leads from the last sample written to the next
packet's first. -/
def concealMissingFrame (pump : CallAudioPump) : Decoded × CallAudioPump :=
  let endSample := (pump.jitter.peekNext.map fun next => next.samples.headD 0).getD 0
  let startSample := if pump.playedDownlink then pump.lastDownlinkSample else endSample
  let sampleCount := pump.config.samplesPerFrame
  let samples := (List.range sampleCount).map fun index : ℕ =>
    let delta := (endSample.toInt - startSample.toInt) * (index + 1)
    Int16.ofInt (startSample.toInt + delta.tdiv sampleCount)
  ({ format := pump.wireFormat, sequence := 0, captureTimeMicros := 0, samples },
    { pump with lastDownlinkSample := endSample, playedDownlink := true })

/-- `playoutOnce` in a deep buffer: the packet it goes on with, and whether that is a newer one. -/
def trim (pump : CallAudioPump) (packet : Decoded) (arrivals : List Decoded) :
    Decoded × Bool × CallAudioPump :=
  if pump.jitter.summary.depth > trimHighWaterDepth ∧
      pump.framesSinceTrim ≥ minFramesBetweenTrims then
    let pump := pump.insertAll arrivals
    match pump.jitter.tick with
    | (none, jitter) => (packet, false, { pump with jitter })
    | (some newer, jitter) =>
      (newer, true,
        { pump with
          jitter, trimmedFrames := pump.trimmedFrames + 1, framesSinceTrim := 0
          previousFrameConcealed := true })
  else (packet, false, pump.insertAll arrivals)

/-- The pacing after a packet, from the depth of the buffer it left. -/
def pace (pacing : ℤ) (depth : ℕ) : ℤ :=
  if depth > jitterTargetDepth + 1 then max maxFastPacingNanos (pacing - pacingStepNanos)
  else if depth ≥ jitterTargetDepth ∧ pacing > 0 then max 0 (pacing - pacingStepNanos)
  else if depth < jitterTargetDepth - 1 ∧ pacing < 0 then min 0 (pacing + pacingStepNanos)
  else pacing

/-- `playoutOnce` from the packet on: the packet is written. -/
def write (pump : CallAudioPump) (packet : Decoded) (arrivals : List Decoded) :
    DownlinkFrame × CallAudioPump :=
  let packet := if pump.previousFrameConcealed then pump.smoothRecovery packet else packet
  let pump :=
    { pump with
      lastDownlinkSample := packet.samples.getLastD 0
      playedDownlink := true, previousFrameConcealed := false }
  let pump := pump.insertAll arrivals
  ({ packet, concealed := false },
    { pump with
      pacingAdjustmentNanos := pace pump.pacingAdjustmentNanos pump.jitter.summary.depth })

/-- `playoutOnce` without a packet: a frame is written in its place. -/
def conceal (pump : CallAudioPump) : DownlinkFrame × CallAudioPump :=
  let (packet, pump) := pump.concealMissingFrame
  ({ packet, concealed := true },
    { pump with
      concealedFrames := pump.concealedFrames + 1, previousFrameConcealed := true
      pacingAdjustmentNanos :=
        min maxSlowPacingNanos (pump.pacingAdjustmentNanos + pacingStepNanos) })

def playoutOnce (pump : CallAudioPump) (arrivals : PlayoutArrivals) :
    PlayoutCall × CallAudioPump :=
  match pump.jitter.tick with
  | (some packet, jitter) =>
    let pump := { pump with jitter, framesSinceTrim := pump.framesSinceTrim + 1 }
    let (packet, trimmed, pump) := (pump.insertAll arrivals.first).trim packet arrivals.second
    let (frame, pump) := pump.write packet arrivals.third
    ({ written := [frame], trimmed }, pump)
  | (none, jitter) =>
    let pump := { pump with jitter }.insertAll arrivals.first
    if pump.jitter.hasStarted then
      let (frame, pump) := (pump.insertAll arrivals.second).conceal
      ({ written := [frame], trimmed := false }, pump.insertAll arrivals.third)
    else ({ written := [], trimmed := false }, pump.insertAll (arrivals.second ++ arrivals.third))

end CallAudioPump

/-- A packet arrives while no call runs, or a call runs. -/
inductive PumpEvent
  | insert (packet : Decoded)
  | playoutOnce (arrivals : PlayoutArrivals)

/-- The packets that arrive. -/
def PumpEvent.arrived : PumpEvent → List Decoded
  | .insert packet => [packet]
  | .playoutOnce arrivals => arrivals.first ++ arrivals.second ++ arrivals.third

/-- The pump, and what each call so far did. -/
structure PumpRun where
  pump : CallAudioPump
  calls : List PlayoutCall

/-- The pump under arriving packets and calls. -/
def callAudioPumps : Lts PumpRun PumpEvent where
  step s
    | .insert packet => some { s with pump := s.pump.insertAll [packet] }
    | .playoutOnce arrivals =>
      some ⟨(s.pump.playoutOnce arrivals).2, s.calls ++ [(s.pump.playoutOnce arrivals).1]⟩

end AnalogConnect
