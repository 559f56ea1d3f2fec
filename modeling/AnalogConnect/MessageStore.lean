import AnalogConnect.AncsGroups
import AnalogConnect.Library.Table

/-!
# The message store

The tables of the encrypted store and the statements that write them. A call of the store runs one
transaction on its own connection, so a statement that fails leaves nothing behind. Whether foreign
keys are enforced is a setting of the SQLite build, and a parameter here. Columns that only record
when something was seen are integers without bound.
-/

namespace AnalogConnect

inductive Direction
  | received
  | sent
deriving DecidableEq

inductive OutgoingStatus
  | queued
  | sending
  | sentUnconfirmed
  | sentConfirmed
  | failedRetryable
  | failedPermanent
  | unknown
deriving DecidableEq

inductive FolderSyncStatus
  | never
  | syncing
  | complete
  | failed
deriving DecidableEq

def statusRead : ℤ := 1

structure MessageRow where
  rowid : Int64
  mapHandle : String
  timestampMs : ℤ
  folder : String
  direction : Direction
  address : String
  conversationKey : String
  participants : String
  status : ℤ
  syncedAt : ℤ
  text : String
  outgoingStatus : Option OutgoingStatus
deriving DecidableEq

structure NewMessage where
  mapHandle : String
  timestampMs : ℤ
  folder : String
  direction : Direction
  address : String
  conversationKey : String
  participants : String
  status : ℤ
  syncedAt : ℤ
  text : String
  outgoingStatus : Option OutgoingStatus
deriving DecidableEq

structure FolderCursor where
  folder : String
  lastSyncAt : ℤ
  highestTs : ℤ
  syncStatus : FolderSyncStatus
deriving DecidableEq

structure AncsGroupConversation where
  groupId : String
  displaySubtitle : String
  firstSeen : ℤ
  lastSeen : ℤ
  identityConflict : Bool
deriving DecidableEq

structure AncsGroupSender where
  groupId : String
  sender : String
  firstSeen : ℤ
  lastSeen : ℤ
deriving DecidableEq

structure AncsGroupMessageAssignment where
  mapHandle : String
  groupId : String
  notificationUid : NotificationUid
  correlatedAt : ℤ
deriving DecidableEq

structure AncsAmbiguousMessage where
  mapHandle : String
  observedAt : ℤ
deriving DecidableEq

def AncsGroupSender.key (sender : AncsGroupSender) : String × String :=
  (sender.groupId, sender.sender)

structure Store where
  foreignKeys : Bool
  messages : Table MessageRow.mapHandle
  /-- The `AUTOINCREMENT` sequence of `messages`: the last rowid it gave out. -/
  lastRowid : ℕ
  folderCursors : Table FolderCursor.folder
  groups : Table AncsGroupConversation.groupId
  senders : Table AncsGroupSender.key
  assignments : Table AncsGroupMessageAssignment.mapHandle
  ambiguous : Table AncsAmbiguousMessage.mapHandle

inductive StoreError
  | connection
deriving DecidableEq

inductive GroupAssignmentResult
  | assigned
  | identityConflict
deriving DecidableEq

namespace Store

def empty (foreignKeys : Bool) : Store :=
  ⟨foreignKeys, .empty, 0, .empty, .empty, .empty, .empty, .empty⟩

/-- The row an insert of `msg` makes. -/
def newRow (rowid : ℕ) (msg : NewMessage) : MessageRow where
  rowid := Int64.ofNat rowid
  mapHandle := msg.mapHandle
  timestampMs := msg.timestampMs
  folder := msg.folder
  direction := msg.direction
  address := msg.address
  conversationKey := msg.conversationKey
  participants := msg.participants
  status := msg.status
  syncedAt := msg.syncedAt
  text := msg.text
  outgoingStatus := msg.outgoingStatus

/-- Inserts the message, or refreshes the conversation of the row its handle has. SQLite takes the
next rowid before it looks for a conflict, so the sequence advances either way, and once it has
reached `i64::MAX` no upsert goes through. -/
def upsert (s : Store) (msg : NewMessage) : Except StoreError Store :=
  if ¬ s.lastRowid + 1 < 2 ^ 63 then .error .connection
  else
    .ok
      { s with
        messages := s.messages.upsert (newRow (s.lastRowid + 1) msg)
          (fun row => { row with
            conversationKey := msg.conversationKey
            participants := msg.participants })
          fun _ => rfl
        lastRowid := s.lastRowid + 1 }

def reconcileOutgoing (s : Store) (handle : String) : Store :=
  { s with
    messages := s.messages.modify
      (fun row => row.mapHandle = handle ∧ row.outgoingStatus = some .sentUnconfirmed)
      (fun row => { row with outgoingStatus := some .sentConfirmed })
      fun _ => rfl }

def getCursor (s : Store) (folder : String) : Option FolderCursor := s.folderCursors.find? folder

def setCursor (s : Store) (cursor : FolderCursor) : Store :=
  { s with
    folderCursors := s.folderCursors.upsert cursor
      (fun row => { row with
        lastSyncAt := cursor.lastSyncAt
        highestTs := cursor.highestTs
        syncStatus := cursor.syncStatus })
      fun _ => rfl }

/-- A row that refers to a message is refused when foreign keys are enforced and there is none. -/
def Orphan (s : Store) (mapHandle : String) : Prop :=
  s.foreignKeys = true ∧ s.messages.find? mapHandle = none

instance (s : Store) (mapHandle : String) : Decidable (s.Orphan mapHandle) :=
  inferInstanceAs (Decidable (_ ∧ _))

def markAncsAmbiguous (s : Store) (mapHandle : String) (observedAt : ℤ) :
    Except StoreError Store :=
  if s.ambiguous.find? mapHandle = none ∧ s.Orphan mapHandle then .error .connection
  else
    .ok
      { s with
        ambiguous := s.ambiguous.upsert ⟨mapHandle, observedAt⟩
          (fun row => { row with observedAt := max row.observedAt observedAt })
          fun _ => rfl }

def clearAncsAmbiguous (s : Store) (mapHandle : String) : Store :=
  { s with ambiguous := s.ambiguous.delete fun row => row.mapHandle = mapHandle }

/-- `assign_ancs_group`'s first statement. -/
def recordGroup (s : Store) (groupId displaySubtitle : String) (seenAt : ℤ) : Store :=
  { s with
    groups := s.groups.upsert ⟨groupId, displaySubtitle, seenAt, seenAt, false⟩
      (fun row => { row with displaySubtitle, lastSeen := max row.lastSeen seenAt })
      fun _ => rfl }

/-- `assign_ancs_group`'s statement on a message that has another group. -/
def flagConflict (s : Store) (existingGroup groupId : String) : Store :=
  { s with
    groups := s.groups.modify (fun row => row.groupId = existingGroup ∨ row.groupId = groupId)
      (fun row => { row with identityConflict := true })
      fun _ => rfl }

/-- `assign_ancs_group`'s last four statements. -/
def recordAssignment (s : Store) (mapHandle groupId sender : String) (uid : NotificationUid)
    (seenAt : ℤ) : Store :=
  { s with
    senders := s.senders.upsert ⟨groupId, sender, seenAt, seenAt⟩
      (fun row => { row with lastSeen := max row.lastSeen seenAt })
      fun _ => rfl
    assignments := s.assignments.upsert ⟨mapHandle, groupId, uid, seenAt⟩
      (fun row => { row with notificationUid := uid, correlatedAt := seenAt })
      fun _ => rfl
    messages := s.messages.modify (fun row => row.mapHandle = mapHandle)
      (fun row => { row with conversationKey := groupId })
      fun _ => rfl
    ambiguous := s.ambiguous.delete fun row => row.mapHandle = mapHandle }

def assignAncsGroup (s : Store) (mapHandle groupId displaySubtitle sender : String)
    (uid : NotificationUid) (seenAt : ℤ) :
    Except StoreError (GroupAssignmentResult × Store) :=
  let tx := s.recordGroup groupId displaySubtitle seenAt
  match tx.assignments.find? mapHandle with
  | some existing =>
    if existing.groupId ≠ groupId then
      .ok (.identityConflict, tx.flagConflict existing.groupId groupId)
    else .ok (.assigned, tx.recordAssignment mapHandle groupId sender uid seenAt)
  | none =>
    if tx.Orphan mapHandle then .error .connection
    else .ok (.assigned, tx.recordAssignment mapHandle groupId sender uid seenAt)

end Store

/-! ## Applying a correlation -/

inductive ApplyCorrelationResult
  | groupAssigned
  | directCandidate
  | ambiguous
  | identityConflict
deriving DecidableEq

namespace Store

/-- The markers of an ambiguous result, each a call of its own, up to the first that fails. -/
def markAll (observedAt : ℤ) : List String → Store → Except StoreError Unit × Store
  | [], s => (.ok (), s)
  | mapHandle :: mapHandles, s =>
    match s.markAncsAmbiguous mapHandle observedAt with
    | .error error => (.error error, s)
    | .ok s' => markAll observedAt mapHandles s'

def applyCorrelation (s : Store) :
    CorrelationResult → Except StoreError ApplyCorrelationResult × Store
  | .group mapHandle uid groupId displaySubtitle sender observedUnixMillis =>
    match s.assignAncsGroup mapHandle groupId displaySubtitle sender uid
        observedUnixMillis.toInt with
    | .error error => (.error error, s)
    | .ok (.assigned, s') => (.ok .groupAssigned, s')
    | .ok (.identityConflict, s') => (.ok .identityConflict, s')
  | .directCandidate mapHandle _ => (.ok .directCandidate, s.clearAncsAmbiguous mapHandle)
  | .pending => (.ok .ambiguous, s)
  | .ambiguous mapHandles observedUnixMillis =>
    match s.markAll observedUnixMillis.toInt mapHandles with
    | (.error error, s') => (.error error, s')
    | (.ok (), s') => (.ok .ambiguous, s')

end Store

/-! ## Runs -/

/-- A write of the store. An upsert is one that goes through, since one that fails leaves nothing
behind; a correlation comes with what applying it reports. -/
inductive StoreEvent
  | upsert (msg : NewMessage)
  | reconcileOutgoing (handle : String)
  | setCursor (cursor : FolderCursor)
  | correlate (result : CorrelationResult)
      (reported : Except StoreError ApplyCorrelationResult)

def Store.step (s : Store) : StoreEvent → Option Store
  | .upsert msg => (s.upsert msg).toOption
  | .reconcileOutgoing handle => some (s.reconcileOutgoing handle)
  | .setCursor cursor => some (s.setCursor cursor)
  | .correlate result reported =>
    if (s.applyCorrelation result).1 = reported then some (s.applyCorrelation result).2 else none

def messageStore : Lts Store StoreEvent := ⟨Store.step⟩

end AnalogConnect
