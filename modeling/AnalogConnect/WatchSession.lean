import AnalogConnect.MapSession

/-!
# Watching the phone

A watch catches up with the phone's folders one after another, sends what is queued, and then
follows the phone's events. A folder is listed in pages and its new messages are got one at a time,
while the phone goes on receiving: what its directories hold at a call, and what it answers for a
handle, is given beside what becomes of the call (`PhoneEnv`). The listings that were taken into
the store whole, and the handles the phone reported as deleted, are kept beside the state.
-/

namespace AnalogConnect

open Attempt

/-- A message the phone was asked for, with its `STATUS`. -/
structure GotMessage extends BMessage where
  isRead : Bool

structure PhoneEnv extends MapEnv where
  /-- What a directory holds at a call, in the order it is listed. -/
  listing : ℕ → List String → List MessageEntry
  /-- What is answered for a handle. -/
  message : ℕ → String → GotMessage

/-- A folder's entries as listed, between the call that asked for the first page and the next one
after the last. -/
structure Listing where
  began : ℕ
  ended : ℕ
  entries : List MessageEntry

/-- A listing whose messages are all in the store, with the time they were taken in at. -/
structure TakenIn extends Listing where
  folder : Folder
  now : ℤ

structure WatchWorld where
  map : MapWorld
  takenIn : List TakenIn
  /-- The handles of `MessageDeleted` events. -/
  deleted : List String

abbrev WatchM := Attempt WatchWorld SendError

def onMap {α : Type} (x : MapM α) : WatchM α :=
  onPart WatchWorld.map (fun w map => { w with map }) x

/-! ## Statements on `messages` -/

namespace OutboxStore

def upsert (s : OutboxStore) (msg : NewMessage) : Except OutboxError OutboxStore :=
  match s.store.upsert msg with
  | .error _ => .error .connection
  | .ok store => .ok { s with store }

def reconcileOutgoing (s : OutboxStore) (handle : String) : OutboxStore :=
  { s with store := s.store.reconcileOutgoing handle }

def setCursor (s : OutboxStore) (cursor : FolderCursor) : OutboxStore :=
  { s with store := s.store.setCursor cursor }

def updateFolder (s : OutboxStore) (handle folder : String) : OutboxStore :=
  { s with store := s.store.updateFolder handle folder }

def updateStatus (s : OutboxStore) (handle : String) (status : ℤ) : OutboxStore :=
  { s with store := s.store.updateStatus handle status }

end OutboxStore

section

variable (env : PhoneEnv)

/-! ## Reading a folder -/

/-- Lists the directory the phone is in. -/
def listMessages (maxCount offset : ℕ) : MapM (List MessageEntry) := do
  let w ← get
  let _ ← request env.toMapEnv id fun _ w => w
  pure (((env.listing w.calls w.path).drop offset).take maxCount)

def getMessage (handle : String) : MapM GotMessage := do
  if handle = "" then throw (.map (.invalidInput "handle must not be empty"))
  if handle.toList.any fun c => c = '\r' ∨ c = '\n' then
    throw (.map (.invalidInput "handle must not contain CR or LF"))
  let w ← get
  let _ ← request env.toMapEnv id fun _ w => w
  pure (env.message w.calls handle)

/-- `PAGE`. -/
def page : ℕ := 1024

/-- `list_folder`'s loop. An offset has 16 bits, so that 64 pages are the most there are. -/
def listPages : ℕ → ℕ → MapM (List MessageEntry)
  | 0, _ => pure []
  | pages + 1, offset => do
    let entries ← listMessages env page offset
    if entries.length < page ∨ 2 ^ 16 ≤ offset + page then pure entries
    else
      let rest ← listPages pages (offset + page)
      pure (entries ++ rest)

def listFolder (folder : Folder) : MapM Listing := do
  setFolder env.toMapEnv folder
  let w ← get
  let entries ← listPages env 64 0
  let w' ← get
  pure ⟨w.calls, w'.calls, entries⟩

/-- `fetch_folder`'s loop. -/
def fetchEntries (folder : Folder) (sinceMs : Option ℤ) (now : ℤ) :
    List MessageEntry → MapM (List FetchedMessage)
  | [] => pure []
  | entry :: entries =>
    if sinceMs.any fun since => entry.datetimeMs.getD i64Max < since then
      fetchEntries folder sinceMs now entries
    else do
      let bmsg ← getMessage env entry.handle
      let rest ← fetchEntries folder sinceMs now entries
      pure (.fromEntry entry folder.asStr bmsg.text (bmessageParticipants entry bmsg.toBMessage)
        now :: rest)

/-- The messages of a folder since `sinceMs`, beside the listing they were found in. -/
def fetchFolderOf (folder : Folder) (sinceMs : Option ℤ) (now : ℤ) :
    MapM (Listing × List FetchedMessage) := do
  let listing ← listFolder env folder
  let msgs ← fetchEntries env folder sinceMs now listing.entries
  pure (listing, msgs)

/-! ## Catching up -/

/-- `backfill_folder`'s loop. -/
def ingest (isSent : Bool) (now : ℤ) : ℤ → List FetchedMessage → MapM ℤ
  | highestTsSeen, [] => pure highestTsSeen
  | highestTsSeen, msg :: msgs => do
    storeUpdate env.toMapEnv fun db => db.upsert (toNewMessage msg now)
    if isSent then storeUpdate env.toMapEnv fun db => .ok (db.reconcileOutgoing msg.handle)
    ingest isSent now (max highestTsSeen msg.timestampMs) msgs

def backfillFolder (folder : Folder) (now : ℤ) : WatchM PUnit := do
  let cursor ← onMap (storeCall env.toMapEnv fun db => .ok (db.store.getCursor folder.asStr, db))
  let sinceMs := cursor.map (·.highestTs)
  let (listing, msgs) ← onMap (fetchFolderOf env folder sinceMs now)
  let highestTsSeen ← onMap (ingest env (folder = .sent) now (sinceMs.getD 0) msgs)
  modify fun w => { w with takenIn := w.takenIn ++ [⟨listing, folder, now⟩] }
  onMap (storeUpdate env.toMapEnv fun db =>
    .ok (db.setCursor ⟨folder.asStr, now, highestTsSeen, .complete⟩))

/-- What `backfill` goes on after. -/
def SendError.folder? : SendError → Option SendError
  | .died => none
  | error => some error

/-- `backfill`'s loop, with the first error so far. -/
def backfillFolders (now : ℤ) : List Folder → Option SendError → WatchM (Option SendError)
  | [], firstErr => pure firstErr
  | folder :: folders, firstErr => do
    match ← Attempt.outcome SendError.folder? (backfillFolder env folder now) with
    | .ok _ => backfillFolders now folders firstErr
    | .error error => backfillFolders now folders (firstErr.or (some error))

def backfill (folderScope : Option Folder) (now : ℤ) : WatchM PUnit := do
  let folders := folderScope.elim [.inbox, .sent, .deleted, .outbox] fun folder => [folder]
  match ← backfillFolders env now folders none with
  | none => pure ⟨⟩
  | some error => throw error

/-! ## Following events -/

inductive EventType
  | newMessage
  | deliverySuccess
  | sendingSuccess
  | deliveryFailure
  | sendingFailure
  | memoryFull
  | memoryAvailable
  | messageDeleted
  | messageShift
  | readStatusChanged
deriving DecidableEq

structure MnsEvent where
  eventType : EventType
  handle : Option String
  folder : Option String
deriving DecidableEq

/-- The folder that the last segment of a path names. -/
def parseFolder (s : String) : Option Folder :=
  let leaf := (s.toList.reverse.takeWhile (· ≠ '/')).reverse
  match String.ofList (leaf.map Text.lowerAscii) with
  | "inbox" => some .inbox
  | "sent" => some .sent
  | "outbox" => some .outbox
  | "deleted" => some .deleted
  | _ => none

/-- The handle of an event and its folder, as named and as known. -/
def MnsEvent.place (event : MnsEvent) : Option (String × String × Folder) := do
  let handle ← event.handle
  let folderRaw ← event.folder
  let folder ← parseFolder folderRaw
  pure (handle, folderRaw, folder)

/-- The message of a `NewMessage` event, as it is stored. -/
def newMessageOf (handle folderRaw : String) (bmsg : GotMessage) (now : ℤ) : NewMessage :=
  let address := bmsg.originatorTel.getD ""
  let canonical := canonicalizeParticipants (address :: bmsg.recipientTels) address
  { mapHandle := handle
    timestampMs := now
    folder := folderRaw
    direction := .received
    address
    conversationKey := canonical.1
    participants := canonical.2
    status := if bmsg.isRead then 1 else 0
    syncedAt := now
    text := bmsg.text
    outgoingStatus := none }

def handleNewMessage (event : MnsEvent) (now : ℤ) : MapM PUnit :=
  match event.place with
  | none => pure ⟨⟩
  | some (handle, folderRaw, folder) => do
    setFolder env.toMapEnv folder
    let bmsg ← getMessage env handle
    storeUpdate env.toMapEnv fun db => db.upsert (newMessageOf handle folderRaw bmsg now)

def handleReadStatusChanged (event : MnsEvent) : MapM PUnit :=
  match event.place with
  | none => pure ⟨⟩
  | some (handle, _, folder) => do
    setFolder env.toMapEnv folder
    let bmsg ← getMessage env handle
    storeUpdate env.toMapEnv fun db => .ok (db.updateStatus handle (if bmsg.isRead then 1 else 0))

def markOutgoing (event : MnsEvent) (status : OutgoingStatus) : MapM PUnit :=
  match event.handle with
  | none => pure ⟨⟩
  | some handle => storeUpdate env.toMapEnv fun db => .ok (db.updateOutgoingStatus handle status)

def handleMessageDeleted (event : MnsEvent) : WatchM PUnit :=
  match event.handle with
  | none => pure ⟨⟩
  | some handle => do
    modify fun w => { w with deleted := w.deleted ++ [handle] }
    onMap (storeUpdate env.toMapEnv fun db => db.deleteByHandle handle)

def handleMessageShift (event : MnsEvent) : MapM PUnit :=
  match event.handle, event.folder with
  | some handle, some folder =>
    storeUpdate env.toMapEnv fun db => .ok (db.updateFolder handle folder)
  | _, _ => pure ⟨⟩

def handleMnsEvent (event : MnsEvent) (now : ℤ) : WatchM PUnit :=
  match event.eventType with
  | .newMessage => onMap (handleNewMessage env event now)
  | .messageDeleted => handleMessageDeleted env event
  | .messageShift => onMap (handleMessageShift env event)
  | .readStatusChanged => onMap (handleReadStatusChanged env event)
  | .deliverySuccess | .sendingSuccess => onMap (markOutgoing env event .sentConfirmed)
  | .deliveryFailure | .sendingFailure => onMap (markOutgoing env event .failedPermanent)
  | .memoryFull | .memoryAvailable => pure ⟨⟩

/-- A watch that is cancelled, or whose events end, after `events`. Each event comes with the time
it is handled at; `now` is that of the catch-up, and `drainNow` that of the drain. -/
def runWatch (now drainNow : ℤ) (events : List (MnsEvent × ℤ)) : WatchM PUnit := do
  backfill env none now
  onMap (drainOutbox env.toMapEnv drainNow)
  forM events fun (event, now) => handleMnsEvent env event now

/-! ## Runs -/

/-- What happens to a session and its store. Correlations are written by the other users of the
store. -/
inductive WatchEvent
  | connect
  | send (number message : String) (now : ℤ)
  | drain (now : ℤ)
  | backfill (folderScope : Option Folder) (now : ℤ)
  | mnsEvent (event : MnsEvent) (now : ℤ)
  | watch (now drainNow : ℤ) (events : List (MnsEvent × ℤ))
  | correlate (result : CorrelationResult)

def WatchWorld.step (w : WatchWorld) : WatchEvent → Option WatchWorld
  | .connect => some { w with map := AnalogConnect.connect w.map }
  | .send number message now =>
    some { w with map := (go (sendSms env.toMapEnv number message now) w.map).2 }
  | .drain now => some { w with map := (go (drainOutbox env.toMapEnv now) w.map).2 }
  | .backfill folderScope now => some (go (AnalogConnect.backfill env folderScope now) w).2
  | .mnsEvent event now => some (go (handleMnsEvent env event now) w).2
  | .watch now drainNow events => some (go (runWatch env now drainNow events) w).2
  | .correlate result =>
    some { w with map :=
      { w.map with db := { w.map.db with store := (w.map.db.store.applyCorrelation result).2 } } }

def watchSession : Lts WatchWorld WatchEvent := ⟨WatchWorld.step env⟩

end

def WatchWorld.start (foreignKeys : Bool) : WatchWorld := ⟨.start foreignKeys, [], []⟩

end AnalogConnect
