import AnalogConnect.HfpControl
import AnalogConnect.Library.Transducer

/-!
# The AT backend

A call command is sent to the handset as one AT line, over a transport that may fail on any line.
The microphone's gain and mute are kept here, since the handset has one setting for both: a muted
microphone is one of gain zero. Their lock is held from before the line is sent until the change is
stored, and nothing panics while it is.
-/

namespace AnalogConnect

inductive AtBackendError
  | transport
  | lockPoisoned
deriving DecidableEq

structure MicrophoneState where
  gain : Gain
  muted : Bool
deriving DecidableEq

/-- What a call did: what it returned, and the line that was sent, if one was. -/
structure AtCall where
  result : Except AtBackendError Unit
  sent : Option String

namespace AtCommandBackend

def new : Except HfpArgumentError MicrophoneState :=
  match Gain.new 15 with
  | .ok gain => .ok ⟨gain, false⟩
  | .error error => .error error

/-- `transport` says which lines it sends. -/
def send (transport : String → Bool) (command : String) : AtCall :=
  if transport command then ⟨.ok (), some command⟩ else ⟨.error .transport, none⟩

def microphoneLine (gain : UInt8) : String := "AT+VGM=" ++ toString gain.toNat

def execute (microphone : MicrophoneState) (command : CallCommand) (transport : String → Bool) :
    AtCall × MicrophoneState :=
  match command with
  | .answer => (send transport "ATA", microphone)
  | .reject | .hangUp => (send transport "AT+CHUP", microphone)
  | .dial target => (send transport ("ATD" ++ target.value ++ ";"), microphone)
  | .sendDtmf tone => (send transport ("AT+VTS=" ++ String.singleton tone.value), microphone)
  | .setSpeakerGain gain => (send transport ("AT+VGS=" ++ toString gain.value.toNat), microphone)
  | .setMicrophoneGain gain =>
    if microphone.muted then (⟨.ok (), none⟩, { microphone with gain })
    else
      match send transport (microphoneLine gain.value) with
      | ⟨.ok (), sent⟩ => (⟨.ok (), sent⟩, { microphone with gain })
      | failed => (failed, microphone)
  | .setMicrophoneMuted muted =>
    match send transport (microphoneLine (if muted then 0 else microphone.gain.value)) with
    | ⟨.ok (), sent⟩ => (⟨.ok (), sent⟩, { microphone with muted })
    | failed => (failed, microphone)

end AtCommandBackend

/-- A command, with what the transport makes of it. -/
structure AtEvent where
  command : CallCommand
  transport : String → Bool

def atBackend : Transducer MicrophoneState AtEvent AtCall where
  step microphone event := AtCommandBackend.execute microphone event.command event.transport

abbrev AtTrace := List (AtEvent × AtCall)

namespace AtTrace

/-- A line that sets the microphone's gain. -/
def isMicrophoneLine (line : String) : Bool := "AT+VGM=".toList.isPrefixOf line.toList

/-- The last line sent that sets the microphone's gain. -/
def lastMicrophoneLine (past : AtTrace) : Option String :=
  past.foldl (fun last record =>
    match record.2.sent with
    | some line => if isMicrophoneLine line then some line else last
    | none => last) none

/-- The gain of the last command that changed it. -/
def lastGain (past : AtTrace) : Option Gain :=
  past.foldl (fun last record =>
    match record.1.command, record.2.result with
    | .setMicrophoneGain gain, .ok () => some gain
    | _, _ => last) none

end AtTrace

end AnalogConnect
