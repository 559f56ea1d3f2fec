import Mathlib.Data.List.Dedup
import Mathlib.Data.List.Sort
import AnalogConnect.MessageStore

/-!
# Re-synchronising a folder

A sync lists a MAP folder, drops the entries older than the folder's cursor, and upserts the rest.
What the device answers is given: each listed entry with its fetched message, where an entry's
`datetimeMs` is what `datetime_to_ms` reads from its date.
-/

namespace AnalogConnect

inductive Folder
  | inbox
  | sent
  | outbox
  | deleted
deriving DecidableEq

def Folder.asStr : Folder → String
  | .inbox => "inbox"
  | .sent => "sent"
  | .outbox => "outbox"
  | .deleted => "deleted"

structure MessageEntry where
  handle : String
  conversationId : String
  datetimeMs : Option ℤ
  senderAddressing : String
  recipientAddressing : String
  read : Bool
  sent : Bool

structure BMessage where
  originatorTel : Option String
  recipientTels : List String
  text : String

structure FetchedMessage where
  handle : String
  timestampMs : ℤ
  folder : String
  sent : Bool
  address : String
  conversationKey : String
  participants : String
  read : Bool
  text : String

def participantKeySeparator : String := String.singleton (Char.ofNat 0x1f)

/-- `i64::MAX`. -/
def i64Max : ℤ := 2 ^ 63 - 1

def bmessageParticipants (entry : MessageEntry) (bmsg : BMessage) : List String :=
  [entry.senderAddressing, entry.recipientAddressing] ++ bmsg.originatorTel.toList
    ++ bmsg.recipientTels

/-- The key and the rendering of a set of participants. -/
def canonicalizeParticipants (addresses : List String) (fallback : String) : String × String :=
  let present := (addresses.map Text.trim).filter (· ≠ "")
  let sorted := (present.insertionSort (· ≤ ·)).dedup
  let addresses :=
    if sorted = [] ∧ Text.trim fallback ≠ "" then [Text.trim fallback] else sorted
  let display := ", ".intercalate addresses
  let key :=
    if addresses.length ≤ 2 ∧ Text.trim fallback ≠ "" then Text.trim fallback
    else participantKeySeparator.intercalate addresses
  (key, display)

def FetchedMessage.fromEntry (entry : MessageEntry) (folder text : String)
    (participantAddresses : List String) (now : ℤ) : FetchedMessage :=
  let address := if entry.sent then entry.recipientAddressing else entry.senderAddressing
  let canonical := canonicalizeParticipants participantAddresses address
  { handle := entry.handle
    timestampMs := entry.datetimeMs.getD now
    folder
    sent := entry.sent
    address
    conversationKey :=
      if Text.trim entry.conversationId = "" then canonical.1
      else "map:" ++ Text.trim entry.conversationId
    participants := canonical.2
    read := entry.read
    text }

/-- The messages of a folder that are not older than `sinceMs`. -/
def fetchFolder (device : List (MessageEntry × BMessage)) (folder : Folder) (sinceMs : Option ℤ)
    (now : ℤ) : List FetchedMessage :=
  (device.filter fun (entry, _) =>
    !sinceMs.any fun since => entry.datetimeMs.getD i64Max < since).map
  fun (entry, bmsg) =>
    .fromEntry entry folder.asStr bmsg.text (bmessageParticipants entry bmsg) now

def toNewMessage (msg : FetchedMessage) (syncedAt : ℤ) : NewMessage where
  mapHandle := msg.handle
  timestampMs := msg.timestampMs
  folder := msg.folder
  direction := if msg.sent then .sent else .received
  address := msg.address
  conversationKey := msg.conversationKey
  participants := msg.participants
  status := if msg.read then 1 else 0
  syncedAt
  text := msg.text
  outgoingStatus := none

namespace Store

/-- `backfill_folder`'s loop: the highest timestamp seen, and the store after the upserts. -/
def ingest (isSent : Bool) (now : ℤ) (s : Store) :
    ℤ → List FetchedMessage → Except StoreError ℤ × Store
  | highestTsSeen, [] => (.ok highestTsSeen, s)
  | highestTsSeen, msg :: msgs =>
    match s.upsert (toNewMessage msg now) with
    | .error error => (.error error, s)
    | .ok s' =>
      ingest isSent now (if isSent then s'.reconcileOutgoing msg.handle else s')
        (max highestTsSeen msg.timestampMs) msgs

def backfillFolder (s : Store) (device : List (MessageEntry × BMessage)) (folder : Folder)
    (now : ℤ) : Except StoreError Unit × Store :=
  let cursor := s.getCursor folder.asStr
  let sinceMs := cursor.map (·.highestTs)
  match ingest (folder = .sent) now s ((cursor.map (·.highestTs)).getD 0)
      (fetchFolder device folder sinceMs now) with
  | (.error error, s') => (.error error, s')
  | (.ok highestTsSeen, s') =>
    (.ok (), s'.setCursor ⟨folder.asStr, now, highestTsSeen, .complete⟩)

end Store

end AnalogConnect
