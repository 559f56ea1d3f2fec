import Mathlib.Data.List.Sort
import AnalogConnect.Calls
import AnalogConnect.Library.Dialogue

/-!
# Call commands

A call command reaches the phone through the telephony service's D-Bus objects. Before each command
`WirePlumberBackend` asks the service which gateway and which calls there are, and for some commands
what state the call is in. The controller's gate, `nextState`, looks at one state for all calls.

The service's replies are an environment: any text or failure, depending on all that was asked. How
a reply's JSON is read is a parameter too; only the type string and the objects' paths are used.
-/

namespace AnalogConnect

def isDtmfTone (tone : Char) : Bool :=
  tone.isDigit || tone ∈ ['*', '#', 'A', 'B', 'C', 'D']

structure DtmfTone where
  value : Char
  valid : isDtmfTone value = true
deriving DecidableEq

def DtmfTone.parse (input : Char) : Except HfpArgumentError DtmfTone :=
  if h : isDtmfTone input.toUpper = true then .ok ⟨input.toUpper, h⟩ else .error .invalidDtmfTone

structure Gain where
  value : UInt8
  valid : value ≤ 15
deriving DecidableEq

def Gain.new (value : UInt8) : Except HfpArgumentError Gain :=
  if h : value ≤ 15 then .ok ⟨value, h⟩ else .error .invalidGain

inductive CallCommand
  | answer
  | reject
  | hangUp
  | dial (target : DialTarget)
  | sendDtmf (tone : DtmfTone)
  | setMicrophoneMuted (muted : Bool)
  | setSpeakerGain (gain : Gain)
  | setMicrophoneGain (gain : Gain)
deriving DecidableEq

/-- Whether the command is allowed in the state, and the state it leads to, if another. -/
def nextState (state : CallState) (command : CallCommand) : Option (Option CallState) :=
  match state, command with
  | .incoming, .answer => some (some .active)
  | .incoming, .reject => some (some .ended)
  | .incoming, .hangUp => some (some .ended)
  | .outgoing, .hangUp => some (some .ended)
  | .active, .hangUp => some (some .ended)
  | .held, .hangUp => some (some .ended)
  | .idle, .dial _ => some (some .outgoing)
  | .active, .sendDtmf _ => some none
  | .active, .setMicrophoneMuted _ => some none
  | .held, .setMicrophoneMuted _ => some none
  | .active, .setSpeakerGain _ => some none
  | .held, .setSpeakerGain _ => some none
  | .active, .setMicrophoneGain _ => some none
  | .held, .setMicrophoneGain _ => some none
  | _, _ => none

def telephonyService : String := "org.pipewire.Telephony"
def telephonyRoot : String := "/org/pipewire/Telephony"
def objectManagerInterface : String := "org.freedesktop.DBus.ObjectManager"
def audioGatewayInterface : String := "org.pipewire.Telephony.AudioGateway1"
def callInterface : String := "org.pipewire.Telephony.Call1"
def ofonoVoiceCallManagerInterface : String := "org.ofono.VoiceCallManager"
def ofonoVoiceCallInterface : String := "org.ofono.VoiceCall"

/-- What is read of a reply: its type string, and the object paths of each map it carries. -/
structure BusctlReply where
  signature : String
  data : List (List String)

/-! ## Telephony objects -/

structure TelephonyPaths where
  gateway : String
  calls : List String
deriving DecidableEq

def isNumeric (id : List Char) : Bool := !id.isEmpty && id.all Char.isDigit

/-- `sort` and `dedup`. -/
def sortDedup (paths : List String) : List String :=
  (paths.insertionSort (· ≤ ·)).destutter (· ≠ ·)

inductive TelephonyObject
  | gateway
  | call
deriving DecidableEq

/-- What `parse_managed_objects` takes an object path for. -/
def telephonyObject (objectPath : String) : Option TelephonyObject :=
  match (telephonyRoot ++ "/ag").toList.isPrefixOf? objectPath.toList with
  | none => none
  | some rest =>
    if isNumeric rest then some .gateway
    else
      match Text.splitOnce "/call".toList rest with
      | none => none
      | some (gatewayId, callId) =>
        if isNumeric gatewayId && isNumeric callId then some .call else none

/-- Whether a path is the call prefix of `gateway` and a number. -/
def isCallOf (gateway objectPath : String) : Bool :=
  match (gateway ++ "/call").toList.isPrefixOf? objectPath.toList with
  | none => false
  | some id => isNumeric id

namespace TelephonyPaths

section

variable (json : String → Option BusctlReply)

def parseManagedObjects (output : String) : Except WirePlumberBackendError TelephonyPaths :=
  match json output with
  | none => .error .ambiguous
  | some ⟨signature, [objects]⟩ =>
    if signature ≠ "a\x7boa\x7bsa\x7bsv\x7d\x7d\x7d" then .error .ambiguous
    else
      let calls := sortDedup (objects.filter (telephonyObject · = some .call))
      match sortDedup (objects.filter (telephonyObject · = some .gateway)) with
      | [] => .error .unavailable
      | [gateway] =>
        .ok ⟨gateway, calls.filter fun call =>
          (gateway ++ "/call").toList.isPrefixOf call.toList⟩
      | _ => .error .ambiguous
  | some _ => .error .ambiguous

def replaceCalls (paths : TelephonyPaths) (output : String) :
    Except WirePlumberBackendError TelephonyPaths :=
  match json output with
  | none => .error .ambiguous
  | some ⟨signature, [objects]⟩ =>
    if signature ≠ "a\x7boa\x7bsv\x7d\x7d" then .error .ambiguous
    else .ok { paths with calls := sortDedup (objects.filter (isCallOf paths.gateway)) }
  | some _ => .error .ambiguous

end

def onlyCall (paths : TelephonyPaths) : Except WirePlumberBackendError String :=
  match paths.calls with
  | [call] => .ok call
  | _ => .error .ambiguous

end TelephonyPaths

/-! ## The backend -/

/-- Runs of `busctl` by their arguments, each replied to with its output, or with none. -/
abbrev Bus (α : Type) : Type :=
  Dialogue (List String) (Option String) WirePlumberBackendError α

namespace WirePlumberBackend

/-- Runs `busctl`, and fails with `e` where it does. -/
def run (e : WirePlumberBackendError) (arguments : List String) : Bus String := do
  match ← Dialogue.ask arguments with
  | some output => pure output
  | none => Dialogue.fail e

def managedObjectsArguments : List String :=
  ["--json=short", "--user", "call", telephonyService, telephonyRoot, objectManagerInterface,
    "GetManagedObjects"]

def callsArguments (gateway : String) : List String :=
  ["--json=short", "--user", "call", telephonyService, gateway, ofonoVoiceCallManagerInterface,
    "GetCalls"]

def stateArguments (path : String) : List String :=
  ["--user", "get-property", telephonyService, path, ofonoVoiceCallInterface, "State"]

def methodArguments (path interface method : String) (values : List String) : List String :=
  ["--user", "call", telephonyService, path, interface, method] ++ values

def paths (json : String → Option BusctlReply) : Bus TelephonyPaths := do
  let output ← run .unavailable managedObjectsArguments
  let paths ← Dialogue.lift (TelephonyPaths.parseManagedObjects json output)
  let calls ← run .unavailable (callsArguments paths.gateway)
  Dialogue.lift (paths.replaceCalls json calls)

def call (path interface method : String) (values : List String) : Bus Unit := do
  let _ ← run .rejected (methodArguments path interface method values)
  pure ()

def callState (path : String) : Bus LiveCallState := do
  let output ← run .unavailable (stateArguments path)
  Dialogue.lift (callStateOf (some output))

def execute (json : String → Option BusctlReply) (command : CallCommand) : Bus Unit := do
  let paths ← paths json
  match command with
  | .answer =>
    let path ← Dialogue.lift paths.onlyCall
    let state ← callState path
    if state ≠ .incoming then Dialogue.fail .rejected
    else call path callInterface "Answer" []
  | .reject | .hangUp =>
    if paths.calls = [] then Dialogue.fail .rejected
    else call paths.gateway audioGatewayInterface "HangupAll" []
  | .dial target =>
    if paths.calls ≠ [] then Dialogue.fail .rejected
    else call paths.gateway audioGatewayInterface "Dial" ["s", target.value]
  | .sendDtmf tone =>
    let path ← Dialogue.lift paths.onlyCall
    let state ← callState path
    if state ≠ .active then Dialogue.fail .rejected
    else call paths.gateway audioGatewayInterface "SendTones" ["s", String.singleton tone.value]
  | .setMicrophoneMuted _ | .setSpeakerGain _ | .setMicrophoneGain _ => Dialogue.fail .unsupported

def mutatingMethods : List String := ["Answer", "HangupAll", "Dial", "SendTones"]

/-- Whether a run of `busctl` calls a method that acts on a call. -/
def isMutating : List String → Bool
  | user :: call :: _ :: _ :: _ :: method :: _ =>
    user = "--user" && call = "call" && method ∈ mutatingMethods
  | _ => false

end WirePlumberBackend

end AnalogConnect
