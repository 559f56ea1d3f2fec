import Mathlib.Data.List.Sort
import AnalogConnect.Sync

/-!
# The outbox

The table of outgoing texts beside the message store, and the statements that write both. A
transaction that fails leaves nothing behind. An `outbox` row that refers to a message keeps it
from being deleted when foreign keys are enforced.
-/

namespace AnalogConnect

inductive OutboxStatus
  | queued
  | sending
  | sent
  | failed
  | unknown
deriving DecidableEq

structure OutboxRow where
  id : ℕ
  command : String
  payload : String
  localMessageId : Option Int64
  status : OutboxStatus
  createdAt : ℤ
  attemptedAt : Option ℤ
  resolvedAt : Option ℤ
  error : Option String
deriving DecidableEq

structure OutboxStore where
  store : Store
  outbox : Table OutboxRow.id
  /-- The largest id `outbox` has used. -/
  lastOutboxId : ℕ

inductive OutboxError
  | connection
  | invalidTransition
deriving DecidableEq

/-! ## Statements on `messages` -/

namespace Store

/-- A plain insert: refused where the handle is taken, or the rowids are used up. -/
def insertMessage (s : Store) (msg : NewMessage) : Except OutboxError (Int64 × Store) :=
  let row := newRow (s.lastRowid + 1) msg
  if ¬ s.lastRowid + 1 < 2 ^ 63 then .error .connection
  else if h : s.messages.find? row.mapHandle = none then
    .ok (row.rowid,
      { s with messages := s.messages.insert row h, lastRowid := s.lastRowid + 1 })
  else .error .connection

def updateOutgoingStatus (s : Store) (handle : String) (status : OutgoingStatus) : Store :=
  { s with
    messages := s.messages.modify (fun row => row.mapHandle = handle)
      (fun row => { row with outgoingStatus := some status })
      fun _ => rfl }

def updateFolder (s : Store) (handle folder : String) : Store :=
  { s with
    messages := s.messages.modify (fun row => row.mapHandle = handle)
      (fun row => { row with folder })
      fun _ => rfl }

def updateStatus (s : Store) (handle : String) (status : ℤ) : Store :=
  { s with
    messages := s.messages.modify (fun row => row.mapHandle = handle)
      (fun row => { row with status })
      fun _ => rfl }

/-- `UPDATE messages SET map_handle = new, outgoing_status = status WHERE map_handle = old`. With
foreign keys enforced the ambiguity marker of the message moves with it, and its group assignment
holds it back. -/
def promote (s : Store) (old new : String) (status : OutgoingStatus) : Except OutboxError Store :=
  if s.messages.find? old = none then .ok s
  else if h : new = old ∨ s.messages.find? new = none then
    let messages := s.messages.rekey old new
      (fun row => { row with mapHandle := new, outgoingStatus := some status })
      (fun _ _ => rfl) h
    if s.foreignKeys = false ∨ new = old then .ok { s with messages }
    else if s.assignments.find? old ≠ none then .error .connection
    else if h' : new = old ∨ s.ambiguous.find? new = none then
      .ok
        { s with
          messages
          ambiguous := s.ambiguous.rekey old new (fun row => { row with mapHandle := new })
            (fun _ _ => rfl) h' }
    else .error .connection
  else .error .connection

end Store

/-! ## Statements on `outbox` -/

namespace OutboxStore

def empty (foreignKeys : Bool) : OutboxStore := ⟨.empty foreignKeys, .empty, 0⟩

/-- The placeholder handle of an entry's message. -/
def placeholder (outboxId : ℕ) : String := "local:" ++ toString outboxId

/-- The message of an outgoing text and its entry, together or not at all. -/
def enqueueSend (s : OutboxStore) (msg : NewMessage) (command payload : String)
    (createdAt : ℤ) : Except OutboxError ((Int64 × ℕ) × OutboxStore) :=
  let outboxId := s.lastOutboxId + 1
  if ¬ outboxId < 2 ^ 63 then .error .connection
  else
    match s.store.insertMessage { msg with mapHandle := placeholder outboxId } with
    | .error error => .error error
    | .ok (msgRowid, store) =>
      if h : s.outbox.find? outboxId = none then
        let row : OutboxRow :=
          { id := outboxId
            command
            payload
            localMessageId := some msgRowid
            status := .queued
            createdAt
            attemptedAt := none
            resolvedAt := none
            error := none }
        .ok ((msgRowid, outboxId), ⟨store, s.outbox.insert row h, outboxId⟩)
      else .error .connection

def updateOutbox (s : OutboxStore) (id : ℕ) (f : OutboxRow → OutboxRow)
    (hf : ∀ row, (f row).id = row.id) : OutboxStore :=
  { s with outbox := s.outbox.modify (fun row => row.id = id) f hf }

def resolve (s : OutboxStore) (id : ℕ) (status : OutboxStatus) (nowMs : ℤ)
    (error : Option String) : Except OutboxError OutboxStore :=
  match status with
  | .queued => .error .invalidTransition
  | .sending =>
    .ok (s.updateOutbox id (fun row => { row with status, attemptedAt := some nowMs, error })
      fun _ => rfl)
  | .sent | .failed | .unknown =>
    .ok (s.updateOutbox id (fun row => { row with status, resolvedAt := some nowMs, error })
      fun _ => rfl)

/-- The queued entries, oldest first. SQLite leaves open how those of one instant are ordered; here
they come as in the table. -/
def pending (s : OutboxStore) : List OutboxRow :=
  (s.outbox.rows.filter fun row => row.status = .queued).insertionSort
    fun a b => a.createdAt ≤ b.createdAt

/-- The entry is sent and its message has the device's handle, together or not at all. -/
def completeSend (s : OutboxStore) (outboxId : ℕ) (oldHandle newHandle : String) (nowMs : ℤ) :
    Except OutboxError OutboxStore :=
  match s.store.promote oldHandle newHandle .sentUnconfirmed with
  | .error error => .error error
  | .ok store =>
    .ok (updateOutbox { s with store } outboxId
      (fun row => { row with status := .sent, resolvedAt := some nowMs, error := none })
      fun _ => rfl)

def updateOutgoingStatus (s : OutboxStore) (handle : String) (status : OutgoingStatus) :
    OutboxStore :=
  { s with store := s.store.updateOutgoingStatus handle status }

/-- With foreign keys enforced, a message that an outbox entry or a group assignment refers to is
not deleted, and its ambiguity marker goes with it. -/
def deleteByHandle (s : OutboxStore) (handle : String) : Except OutboxError OutboxStore :=
  match s.store.messages.find? handle with
  | none => .ok s
  | some row =>
    let messages := s.store.messages.delete fun row => row.mapHandle = handle
    if s.store.foreignKeys = false then .ok { s with store := { s.store with messages } }
    else if s.store.assignments.find? handle ≠ none
        ∨ s.outbox.rows.any (fun entry => entry.localMessageId = some row.rowid) then
      .error .connection
    else
      .ok { s with store :=
        { s.store with
          messages
          ambiguous := s.store.ambiguous.delete fun row => row.mapHandle = handle } }

end OutboxStore

end AnalogConnect
