import AnalogConnect.Library.Hex
import AnalogConnect.Library.Recent
import AnalogConnect.Library.Runs
import Mathlib.Data.List.Count

/-!
# Sending messages

A request to send, the registry that recognises one sent before, and the handlers of concurrent
requests. A handler enters the registry, waits for the transport, and enters it again with the
outcome; each entry is one step, and in between other handlers take theirs. A handler whose
connection is lost while it waits is dropped: its send runs on, and it never enters the registry
again.
-/

namespace AnalogConnect

inductive OutboundMessageError
  | invalidRecipient
  | invalidBody
  | invalidOperationId
  | transportFailed
deriving DecidableEq

structure OutboundMessage where
  recipient : String
  body : String
deriving DecidableEq

namespace OutboundMessage

def recipientRefused (recipient : String) : Bool :=
  recipient.utf8ByteSize < 3 || recipient.utf8ByteSize > 32
    || !(recipient.toList.all fun c => c.isDigit || c ∈ ['+', '-', '(', ')', ' '])
    || !(recipient.toList.any Char.isDigit)

def bodyRefused (body : String) : Bool :=
  body = "" || body.utf8ByteSize > 2000 || body.toList.any fun c => c = '\x00'

def new (recipient body : String) : Except OutboundMessageError OutboundMessage :=
  let recipient := Text.trim recipient
  if recipientRefused recipient then .error .invalidRecipient
  else if bodyRefused body then .error .invalidBody
  else .ok ⟨recipient, body⟩

end OutboundMessage

/-! ## Operation identifiers -/

theorem length_of_hex {value : String} (h : value.utf8ByteSize = 32)
    (hhex : ∀ c ∈ value.toList, (Hex.value c).isSome) : value.toList.length = 32 := by
  rw [← h, ← Text.utf8ByteSize_of_ascii fun c hc => Hex.toNat_lt_of_value (hhex c hc),
    String.ofList_toList]

/-- The client's identifier of an operation, in lower case. -/
structure MessageOperationId where
  value : String
  length_eq : value.toList.length = 32
  isLower : ∀ c ∈ value.toList, Hex.IsLower c
deriving DecidableEq

def MessageOperationId.new (value : String) : Except OutboundMessageError MessageOperationId :=
  if h : value.utf8ByteSize = 32 ∧ value.toList.all (fun c => (Hex.value c).isSome) = true then
    .ok
      { value := String.ofList (value.toList.map Text.lowerAscii)
        length_eq := by
          rw [String.toList_ofList, List.length_map]
          exact length_of_hex h.1 (List.all_eq_true.1 h.2)
        isLower := by
          rw [String.toList_ofList, List.forall_mem_map]
          exact fun c hc => Hex.isLower_lowerAscii (List.all_eq_true.1 h.2 c hc) }
  else .error .invalidOperationId

/-! ## The registry -/

inductive MessageOperationStart
  | new
  | inFlight
  | acceptedDuplicate
deriving DecidableEq

structure MessageOperationRegistry where
  capacity : ℕ
  inFlight : List MessageOperationId
  accepted : List MessageOperationId
  acceptedOrder : List MessageOperationId

namespace MessageOperationRegistry

def new (capacity : ℕ) : MessageOperationRegistry := ⟨max capacity 1, [], [], []⟩

def begin (registry : MessageOperationRegistry) (operationId : MessageOperationId) :
    MessageOperationStart × MessageOperationRegistry :=
  if operationId ∈ registry.accepted then (.acceptedDuplicate, registry)
  else if operationId ∈ registry.inFlight then (.inFlight, registry)
  else (.new, { registry with inFlight := operationId :: registry.inFlight })

/-- `accepted`'s loop: the oldest identifiers go until the capacity is kept. -/
def expire (capacity : ℕ) : List MessageOperationId → List MessageOperationId →
    List MessageOperationId × List MessageOperationId
  | accepted, [] => (accepted, [])
  | accepted, expired :: order =>
    if (expired :: order).length > capacity then expire capacity (accepted.erase expired) order
    else (accepted, expired :: order)

def accept (registry : MessageOperationRegistry) (operationId : MessageOperationId) :
    MessageOperationRegistry :=
  let inserted :=
    if operationId ∈ registry.accepted then (registry.accepted, registry.acceptedOrder)
    else (operationId :: registry.accepted, registry.acceptedOrder ++ [operationId])
  let kept := expire registry.capacity inserted.1 inserted.2
  { registry with
    inFlight := registry.inFlight.erase operationId
    accepted := kept.1
    acceptedOrder := kept.2 }

def failed (registry : MessageOperationRegistry) (operationId : MessageOperationId) :
    MessageOperationRegistry :=
  { registry with inFlight := registry.inFlight.erase operationId }

end MessageOperationRegistry

/-! ## The handlers -/

structure SendMessageRequest where
  recipient : String
  body : String
  operationId : Option String

/-- How a handler's first part ends. -/
inductive SendStart
  | unprocessable
  | duplicate
  | conflict
  | send (message : OutboundMessage) (operation : Option MessageOperationId)
deriving DecidableEq

/-- `send_message`, up to the transport. -/
def sendMessage (registry : MessageOperationRegistry) (request : SendMessageRequest) :
    SendStart × MessageOperationRegistry :=
  match OutboundMessage.new request.recipient request.body with
  | .error _ => (.unprocessable, registry)
  | .ok message =>
    match request.operationId with
    | none => (.send message none, registry)
    | some value =>
      match MessageOperationId.new value with
      | .error _ => (.unprocessable, registry)
      | .ok operationId =>
        match registry.begin operationId with
        | (.acceptedDuplicate, registry) => (.duplicate, registry)
        | (.inFlight, registry) => (.conflict, registry)
        | (.new, registry) => (.send message (some operationId), registry)

/-- `send_message`, after the transport. -/
def recordOutcome (registry : MessageOperationRegistry) (operation : Option MessageOperationId)
    (succeeded : Bool) : MessageOperationRegistry :=
  match operation with
  | none => registry
  | some operationId =>
    if succeeded then registry.accept operationId else registry.failed operationId

/-- Where a handler waits. -/
inductive SendPhase
  | idle
  | sending (message : OutboundMessage) (operation : Option MessageOperationId)
  | returned (operation : Option MessageOperationId) (succeeded : Bool)
deriving DecidableEq

structure SendState where
  registry : MessageOperationRegistry
  phase : ℕ → SendPhase
  dropped : List ℕ

inductive SendEvent
  | request (handler : ℕ) (request : SendMessageRequest)
  | sent (handler : ℕ) (operation : Option MessageOperationId) (succeeded : Bool)
  | recorded (handler : ℕ) (operation : Option MessageOperationId) (succeeded : Bool)
  | dropped (handler : ℕ)

namespace SendState

def start (capacity : ℕ) : SendState := ⟨.new capacity, fun _ => .idle, []⟩

def setPhase (s : SendState) (handler : ℕ) (phase : SendPhase) : SendState :=
  { s with phase := fun h => if h = handler then phase else s.phase h }

def step (s : SendState) : SendEvent → Option SendState
  | .request handler request =>
    if s.phase handler = .idle then
      match sendMessage s.registry request with
      | (.send message operation, registry) =>
        some ({ s with registry }.setPhase handler (.sending message operation))
      | (_, registry) => some { s with registry }
    else none
  | .sent handler operation succeeded =>
    match s.phase handler with
    | .sending _ operation' =>
      if operation' = operation then some (s.setPhase handler (.returned operation succeeded))
      else none
    | _ => none
  | .recorded handler operation succeeded =>
    if s.phase handler = .returned operation succeeded ∧ handler ∉ s.dropped then
      some ({ s with registry := recordOutcome s.registry operation succeeded }.setPhase
        handler .idle)
    else none
  | .dropped handler =>
    if s.phase handler = .idle then none else some { s with dropped := handler :: s.dropped }

end SendState

/-- The requests to send, in any interleaving. -/
def messageSender : Lts SendState SendEvent := ⟨SendState.step⟩

/-! ## The client's draft -/

/-- Every unit of the text is a lower-case hexadecimal digit. -/
def lowerHex (value : List Char) : Bool := value.all fun c => Hex.IsLower c

/-- `MessageOperationId.isValid`, on the phone. -/
def validOperationId (value : String) : Bool :=
  Text.utf16Length value = 32 && lowerHex value.toList

/-- The draft keeps one identifier for a message until it is accepted. -/
structure MessageSendDraft where
  recipient : Option String
  body : Option String
  operationId : Option String
deriving DecidableEq

namespace MessageSendDraft

def new : MessageSendDraft := ⟨none, none, none⟩

/-- The identifier to send with; a draft of something else takes the one generated. -/
def operationIdFor (draft : MessageSendDraft) (generated recipient body : String) :
    Except String (String × MessageSendDraft) :=
  let kept := draft.operationId.filter fun operationId =>
    draft.recipient = some recipient && draft.body = some body && validOperationId operationId
  match kept with
  | some operationId => .ok (operationId, draft)
  | none =>
    if validOperationId generated then
      .ok (generated, ⟨some recipient, some body, some generated⟩)
    else .error "Message operation ID generation failed"

def accepted (_ : MessageSendDraft) : MessageSendDraft := new

end MessageSendDraft

end AnalogConnect
