import AnalogConnect.Library.Attempt
import AnalogConnect.Library.Hex
import AnalogConnect.Library.Runs
import AnalogConnect.Outbox

/-!
# Sending through the phone

A MAP session sends a request at a time and waits for its reply; the client counts the directories
it has entered. Outgoing texts are put in the outbox first, pushed to the phone's own outbox
folder, and then resolved. What becomes of each request and of each call of the store is given
(`MapEnv`): it may go through, fail, or be the last thing the process does. The phone's directory,
the pushes it was sent and the worker's warnings are kept beside the client's state.
-/

namespace AnalogConnect

inductive MapError
  | obex (text : String)
  | transport (text : String)
  | serverError (opcode : UInt8)
  | unexpectedEof
  | messageListing (text : String)
  | responseTooLarge
  | invalidEncoding
  | invalidMessage (text : String)
  | missingHandle
  | invalidInput (text : String)
  | folderListing (text : String)
deriving DecidableEq

def MapError.text : MapError → String
  | .obex text => "OBEX: " ++ text
  | .transport text => "transport: " ++ text
  | .serverError opcode =>
    "server returned error opcode 0x" ++ String.ofList (Hex.encode [opcode])
  | .unexpectedEof => "unexpected end of stream"
  | .messageListing text => "message listing parse error: " ++ text
  | .responseTooLarge => "response body too large"
  | .invalidEncoding => "response body is not UTF-8"
  | .invalidMessage text => "invalid bMessage: " ++ text
  | .missingHandle => "push message response missing handle"
  | .invalidInput text => "invalid input: " ++ text
  | .folderListing text => "folder listing parse error: " ++ text

/-- The outcome an error leaves an entry and its message with. -/
def classifyPushError : MapError → OutboxStatus × OutgoingStatus
  | .transport _ | .unexpectedEof => (.unknown, .unknown)
  | .invalidInput _ | .serverError _ => (.failed, .failedPermanent)
  | _ => (.failed, .failedRetryable)

/-- What becomes of a request. In all but the first two, `acted` says whether the phone did what
was asked. A stream that ended carries nothing more. -/
inductive Reply
  | ok (name : Option String)
  | refused (opcode : UInt8)
  | garbled (text : String) (acted : Bool)
  | closed (error : Option String) (acted : Bool)
  | died (acted : Bool)
deriving DecidableEq

/-- What becomes of a call of the store. -/
inductive StoreFate
  | done
  | failed
  | died (written : Bool)
deriving DecidableEq

structure MapEnv where
  reply : ℕ → Reply
  storeFate : ℕ → StoreFate
  /-- What a transport says of a stream that has ended. -/
  streamEnded : String

/-- A push the phone was sent: for which entry, where it was then, and its reply. -/
structure Push where
  entry : ℕ
  phone : String
  text : String
  path : List String
  reply : Reply
deriving DecidableEq

inductive Warning
  | unparseablePayload (entryId : ℕ)
  | pushFailed (entryId : ℕ)
  | storeUpdateFailed (entryId : ℕ)
  | resolveFailed (entryId : ℕ)
  | statusUpdateFailed (entryId : ℕ)
deriving DecidableEq

structure MapWorld where
  db : OutboxStore
  /-- The session's stream has not ended. -/
  isOpen : Bool
  depth : ℕ
  /-- The phone's directory, from the root. -/
  path : List String
  pushes : List Push
  warnings : List Warning
  /-- For each time the process died, the entry that was pushed last. -/
  deaths : List (Option ℕ)
  /-- How many requests and calls of the store there were. -/
  calls : ℕ

def MapWorld.lastPushed (w : MapWorld) : Option ℕ := w.pushes.getLast?.map (·.entry)

/-- The process dies, and its stream ends. -/
def MapWorld.die (w : MapWorld) : MapWorld :=
  { w with isOpen := false, deaths := w.deaths ++ [w.lastPushed] }

@[simp]
theorem MapWorld.die_isOpen (w : MapWorld) : w.die.isOpen = false := rfl

inductive SendError
  | map (error : MapError)
  | store (error : OutboxError)
  | died
deriving DecidableEq

/-- What a `match` on the result of a request catches; nothing outlives the process. -/
def SendError.map? : SendError → Option MapError
  | .map error => some error
  | _ => none

def SendError.store? : SendError → Option OutboxError
  | .store error => some error
  | _ => none

abbrev MapM := Attempt MapWorld SendError

/-- The payload's separator. -/
def payloadSeparator : Char := Char.ofNat 0x1f

section

variable (env : MapEnv)

/-! ## The client -/

/-- Sends a request: `act` is what the phone does when it goes through, `note` what is kept of the
request and its reply. -/
def request (act : MapWorld → MapWorld) (note : Reply → MapWorld → MapWorld) :
    MapM (Option String) :=
  .of fun w =>
    let reply := env.reply w.calls
    let w' := { w with calls := w.calls + 1 }
    if w.isOpen = false then (.error (.map (.transport env.streamEnded)), w')
    else
      let w' := note reply w'
      match reply with
      | .ok name => (.ok name, act w')
      | .refused opcode => (.error (.map (.serverError opcode)), w')
      | .garbled text acted => (.error (.map (.obex text)), if acted then act w' else w')
      | .closed error acted =>
        (.error (.map (error.elim .unexpectedEof .transport)),
          { if acted then act w' else w' with isOpen := false })
      | .died acted => (.error .died, (if acted then act w' else w').die)

def enter (segment : String) (w : MapWorld) : MapWorld := { w with path := w.path ++ [segment] }

def leave (w : MapWorld) : MapWorld := { w with path := w.path.dropLast }

/-- The client's count of an OBEX connection starts anew, and so does the phone's directory. -/
def connect (w : MapWorld) : MapWorld := { w with isOpen := true, depth := 0, path := [] }

def setpath (segment : String) : MapM PUnit := do
  let _ ← request env (enter segment) fun _ w => w
  modify fun w => { w with depth := min (w.depth + 1) 255 }

def setpathUp : MapM PUnit := do
  let _ ← request env leave fun _ w => w
  modify fun w => { w with depth := w.depth - 1 }

def resetToRoot : MapM PUnit := do
  let w ← get
  forM (List.range w.depth) fun _ => setpathUp env

def setFolder (folder : Folder) : MapM PUnit := do
  resetToRoot env
  forM ["telecom", "msg", folder.asStr] fun segment => setpath env segment

/-- `list_message_folders` up to the listing itself. -/
def openMessageFolders : MapM PUnit := do
  resetToRoot env
  setpath env "telecom"
  setpath env "msg"

/-- Pushes the text of an entry and returns the handle the phone gave it. -/
def pushMessage (entry : ℕ) (phone text : String) : MapM String := do
  if phone.toList.any fun c => c = '\r' ∨ c = '\n' then
    throw (.map (.invalidInput "phone must not contain CR or LF"))
  let name ← request env id fun reply w =>
    { w with pushes := w.pushes ++ [⟨entry, phone, text, w.path, reply⟩] }
  match name with
  | some handle => pure handle
  | none => throw (.map .missingHandle)

/-! ## The store -/

def storeCall {α : Type} (f : OutboxStore → Except OutboxError (α × OutboxStore)) : MapM α :=
  .of fun w =>
    let w' := { w with calls := w.calls + 1 }
    match env.storeFate w.calls with
    | .failed => (.error (.store .connection), w')
    | .done =>
      match f w.db with
      | .error error => (.error (.store error), w')
      | .ok (a, db) => (.ok a, { w' with db })
    | .died written =>
      (.error .died,
        { w' with
          db := if written then ((f w.db).toOption.map Prod.snd).getD w.db else w.db }.die)

def storeUpdate (f : OutboxStore → Except OutboxError OutboxStore) : MapM PUnit :=
  storeCall env fun db => (f db).map fun db' => (⟨⟩, db')

def warn (warning : Warning) : MapM PUnit :=
  modify fun w => { w with warnings := w.warnings ++ [warning] }

/-- `unwrap_or_else` of a store update, which only warns. -/
def orWarn (warning : Warning) (x : MapM PUnit) : MapM PUnit := do
  match ← Attempt.outcome SendError.store? x with
  | .ok _ => pure ⟨⟩
  | .error _ => warn warning

/-! ## Sending -/

def payload (number message : String) : String :=
  number ++ String.singleton payloadSeparator ++ message

/-- `payload.split_once('\x1F')`. -/
def parsePayload (payload : String) : Option (String × String) :=
  (Text.splitOnce [payloadSeparator] payload.toList).map fun (number, message) =>
    (String.ofList number, String.ofList message)

def sentMessage (number message : String) (now : ℤ) : NewMessage where
  mapHandle := ""
  timestampMs := now
  folder := Folder.sent.asStr
  direction := .sent
  address := number
  conversationKey := number
  participants := number
  status := statusRead
  syncedAt := now
  text := message
  outgoingStatus := some .queued

def sendSms (number message : String) (now : ℤ) : MapM String := do
  let (_, outboxId) ← storeCall env fun db =>
    db.enqueueSend (sentMessage number message now) "send_sms" (payload number message) now
  let placeholder := OutboxStore.placeholder outboxId
  setFolder env .outbox
  storeUpdate env fun db => db.resolve outboxId .sending now none
  match ← Attempt.outcome SendError.map? (pushMessage env outboxId number message) with
  | .ok handle =>
    storeUpdate env fun db => db.completeSend outboxId placeholder handle now
    pure ("sent to " ++ number ++ " (handle " ++ handle ++ ")")
  | .error error =>
    let (outboxStatus, outgoingStatus) := classifyPushError error
    orWarn (.resolveFailed outboxId)
      (storeUpdate env fun db => db.resolve outboxId outboxStatus now (some error.text))
    orWarn (.statusUpdateFailed outboxId)
      (storeUpdate env fun db => .ok (db.updateOutgoingStatus placeholder outgoingStatus))
    throw (.map error)

def recordSendOk (entryId : ℕ) (placeholder handle : String) (now : ℤ) : MapM PUnit :=
  orWarn (.storeUpdateFailed entryId)
    (storeUpdate env fun db => db.completeSend entryId placeholder handle now)

def recordSendErr (entryId : ℕ) (placeholder : String) (error : MapError) (now : ℤ) :
    MapM PUnit := do
  let (outboxStatus, outgoingStatus) := classifyPushError error
  warn (.pushFailed entryId)
  orWarn (.resolveFailed entryId)
    (storeUpdate env fun db => db.resolve entryId outboxStatus now (some error.text))
  orWarn (.statusUpdateFailed entryId)
    (storeUpdate env fun db => .ok (db.updateOutgoingStatus placeholder outgoingStatus))

def processEntry (now : ℤ) (entry : OutboxRow) : MapM PUnit :=
  match parsePayload entry.payload with
  | none => warn (.unparseablePayload entry.id)
  | some (number, message) => do
    let placeholder := OutboxStore.placeholder entry.id
    match ← Attempt.outcome SendError.map? (pushMessage env entry.id number message) with
    | .ok handle => recordSendOk env entry.id placeholder handle now
    | .error error => recordSendErr env entry.id placeholder error now

def drainOutbox (now : ℤ) : MapM PUnit := do
  let pending ← storeCall env fun db => .ok (db.pending, db)
  if pending = [] then pure ⟨⟩
  else do
    setFolder env .outbox
    forM pending (processEntry env now)

/-! ## Runs -/

/-- What happens to a session and its store: a new connection, a text to send, a drain of the
outbox, another walk to a folder, or a write of the messages by anyone else. -/
inductive MapEvent
  | connect
  | send (number message : String) (now : ℤ)
  | drain (now : ℤ)
  | browse (folder : Folder)
  | openMessageFolders
  | elsewhere (store : Store)

def MapWorld.step (w : MapWorld) : MapEvent → Option MapWorld
  | .connect => some (AnalogConnect.connect w)
  | .send number message now => some (Attempt.go (sendSms env number message now) w).2
  | .drain now => some (Attempt.go (drainOutbox env now) w).2
  | .browse folder => some (Attempt.go (setFolder env folder) w).2
  | .openMessageFolders => some (Attempt.go (AnalogConnect.openMessageFolders env) w).2
  | .elsewhere store => some { w with db := { w.db with store } }

def mapSession : Lts MapWorld MapEvent := ⟨MapWorld.step env⟩

end

/-- No session yet, and an empty store. -/
def MapWorld.start (foreignKeys : Bool) : MapWorld :=
  ⟨.empty foreignKeys, false, 0, [], [], [], [], 0⟩

end AnalogConnect
