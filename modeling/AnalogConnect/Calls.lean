import Mathlib.Data.Int.Basic
import AnalogConnect.Library.Text

/-!
# Call states

A call's state passes through four vocabularies: what the telephony service says of each call, the
one state the daemon reports, the strings the phone's client accepts, and what the phone's screen
and keys do in each. The daemon serialises its states in snake case.
-/

namespace AnalogConnect

inductive LiveCallState
  | incoming
  | dialing
  | alerting
  | active
  | held
  | disconnected
deriving DecidableEq

def LiveCallState.parse (output : String) : Option LiveCallState :=
  match Text.trim output with
  | "s \"incoming\"" => some .incoming
  | "s \"dialing\"" => some .dialing
  | "s \"alerting\"" => some .alerting
  | "s \"active\"" => some .active
  | "s \"held\"" => some .held
  | "s \"disconnected\"" => some .disconnected
  | _ => none

inductive CallState
  | idle
  | incoming
  | outgoing
  | active
  | held
  | ended
  | error
deriving DecidableEq

/-- `#[serde(rename_all = "snake_case")]`. -/
def CallState.serialize : CallState → String
  | .idle => "idle"
  | .incoming => "incoming"
  | .outgoing => "outgoing"
  | .active => "active"
  | .held => "held"
  | .ended => "ended"
  | .error => "error"

def aggregateCallState (states : List LiveCallState) : CallState :=
  if .active ∈ states then .active
  else if .incoming ∈ states then .incoming
  else if states.any fun state => state = .dialing ∨ state = .alerting then .outgoing
  else if .held ∈ states then .held
  else if .disconnected ∈ states then .ended
  else .idle

inductive WirePlumberBackendError
  | unavailable
  | ambiguous
  | unsupported
  | rejected
deriving DecidableEq

/-- The reply to `get-property … State` of one call; without one the service is unavailable. -/
def callStateOf (reply : Option String) : Except WirePlumberBackendError LiveCallState :=
  match reply with
  | none => .error .unavailable
  | some output => (LiveCallState.parse output).elim (.error .ambiguous) .ok

inductive HfpArgumentError
  | invalidDialTarget
  | invalidDtmfTone
  | invalidGain
deriving DecidableEq

def isDialTarget (target : String) : Bool :=
  !(target = "" || target.utf8ByteSize > 32
    || !(target.toList.all fun c => c.isDigit || c ∈ ['+', '*', '#']))

/-- A number that can be dialled. -/
structure DialTarget where
  value : String
  valid : isDialTarget value = true
deriving DecidableEq

def DialTarget.parse (input : String) : Except HfpArgumentError DialTarget :=
  if h : isDialTarget (Text.trim input) = true then .ok ⟨Text.trim input, h⟩
  else .error .invalidDialTarget

/-- `ApiClient.callState` on the `call` field of the status. -/
def ApiClient.callState (call : String) : Except String String :=
  if call = "idle" ∨ call = "dialing" ∨ call = "incoming" ∨ call = "active" ∨ call = "ended" ∨
      call = "error" then
    .ok call
  else
    .error "Daemon call state is invalid"

namespace CallController

structure State where
  call : String
  canDial : Bool
  canAnswer : Bool
  canReject : Bool
  canHangUp : Bool
  canSendDtmf : Bool
  needsAudio : Bool
  title : String
deriving DecidableEq

def reduce (call : String) : Except String State :=
  if call = "idle" then
    .ok ⟨call, true, false, false, false, false, false, "Ready to call"⟩
  else if call = "dialing" ∨ call = "ringing" then
    .ok ⟨call, false, false, false, true, false, false, "Calling…"⟩
  else if call = "incoming" then
    .ok ⟨call, false, true, true, false, false, false, "Incoming call"⟩
  else if call = "active" then
    .ok ⟨call, false, false, false, true, true, true, "Call in progress"⟩
  else if call = "ending" then
    .ok ⟨call, false, false, false, false, false, false, "Ending call…"⟩
  else if call = "ended" then
    .ok ⟨call, true, false, false, false, false, false, "Call ended"⟩
  else if call = "error" ∨ call = "failed" ∨ call = "connection_lost" then
    .ok ⟨call, true, false, false, false, false, false, "Call connection needs attention"⟩
  else
    .error "Unknown call state"

end CallController

namespace PhysicalCallKeyDispatcher

def keyCall : ℤ := 5
def keyEndcall : ℤ := 6
def key0 : ℤ := 7
def key9 : ℤ := 16
def keyStar : ℤ := 17
def keyPound : ℤ := 18
def keyPower : ℤ := 26

inductive Action
  | none
  | openDialer
  | answer
  | reject
  | hangUp
  | dtmf
deriving DecidableEq

structure Decision where
  action : Action
  value : String
deriving DecidableEq

def none : Decision := ⟨.none, ""⟩

def dispatch (state : String) (keyCode : ℤ) (down : Bool) (repeatCount : ℤ) : Decision :=
  if ¬ down ∨ repeatCount ≠ 0 then none
  else if keyCode = keyCall then
    if state = "incoming" then ⟨.answer, ""⟩
    else if state = "idle" then ⟨.openDialer, ""⟩
    else none
  else if keyCode = keyEndcall ∨ keyCode = keyPower then
    if state = "incoming" then ⟨.reject, ""⟩
    else if state = "dialing" ∨ state = "ringing" ∨ state = "active" then ⟨.hangUp, ""⟩
    else none
  else if state = "active" then
    if key0 ≤ keyCode ∧ keyCode ≤ key9 then ⟨.dtmf, toString (keyCode - key0)⟩
    else if keyCode = keyStar then ⟨.dtmf, "*"⟩
    else if keyCode = keyPound then ⟨.dtmf, "#"⟩
    else none
  else none

def isEndKey (keyCode : ℤ) : Bool :=
  keyCode = keyEndcall ∨ keyCode = keyPower

end PhysicalCallKeyDispatcher

end AnalogConnect
