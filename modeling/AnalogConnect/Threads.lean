import Mathlib.Data.List.Dedup
import Mathlib.Data.List.Sort
import AnalogConnect.MessageStore

/-!
# Reading the store

The store's two list queries. SQLite leaves open in which order `threads` lists conversations of
the same age, and `GROUP_CONCAT` the addresses of one; here the conversations come as in the table,
and the addresses newest first.
-/

namespace AnalogConnect

structure ThreadRow where
  address : String
  conversationKey : String
  participants : String
  participantCount : Int64
  latestMs : ℤ
  total : Int64
  unread : Int64
  latestOutgoingStatus : Option OutgoingStatus
  latestText : String
  latestSender : String
  latestSent : Bool
  groupTitle : Option String
  isAncsGroup : Bool
  identityConflict : Bool
deriving DecidableEq

/-- The folders the lists show. -/
def visibleFolders : List String :=
  ["inbox", "sent", "telecom/msg/inbox", "telecom/msg/sent"]

/-- `ORDER BY timestamp_ms DESC, rowid DESC`. -/
def MessageRow.Newer (a b : MessageRow) : Prop :=
  b.timestampMs < a.timestampMs ∨ b.timestampMs = a.timestampMs ∧ b.rowid.toInt ≤ a.rowid.toInt

instance : DecidableRel MessageRow.Newer := fun _ _ => inferInstanceAs (Decidable (_ ∨ _))

namespace Store

/-- A conversation's visible messages, newest first. -/
def conversationRows (s : Store) (key : String) : List MessageRow :=
  (s.messages.rows.filter fun row => row.conversationKey = key ∧ row.folder ∈ visibleFolders)
    |>.insertionSort MessageRow.Newer

def listConversationMessages (s : Store) (key : String) (limit offset : ℕ) : List MessageRow :=
  ((s.conversationRows key).drop offset).take limit

/-- A message of the conversation, in whatever folder, has an ambiguity marker. -/
def hasAmbiguous (s : Store) (key : String) : Bool :=
  s.messages.rows.any fun row =>
    row.conversationKey = key ∧ (s.ambiguous.find? row.mapHandle).isSome

/-- The thread of a key, from its messages: the first is the latest. -/
def threadRow (s : Store) (key : String) : List MessageRow → Option ThreadRow
  | [] => none
  | latest :: rest =>
    let rows := latest :: rest
    let addresses := ((rows.map (·.address)).filter (· ≠ "")).dedup
    let group := s.groups.find? key
    some
      { conversationKey := key
        address := latest.address
        participants := ",".intercalate addresses
        participantCount := .ofNat addresses.length
        latestMs := latest.timestampMs
        total := .ofNat rows.length
        unread := .ofNat (rows.filter fun row => row.status = 0 ∧ row.direction = .received).length
        latestOutgoingStatus := latest.outgoingStatus
        latestText := latest.text
        latestSender := latest.address
        latestSent := latest.direction = .sent
        groupTitle := group.map (·.displaySubtitle)
        isAncsGroup := group.isSome
        identityConflict := group.any (·.identityConflict) || s.hasAmbiguous key }

/-- The conversations of the visible messages, the one with the latest message first. -/
def threads (s : Store) : List ThreadRow :=
  let keys := ((s.messages.rows.filter fun row => row.folder ∈ visibleFolders).map
    (·.conversationKey)).filter (· ≠ "")
  (keys.dedup.filterMap fun key => s.threadRow key (s.conversationRows key))
    |>.insertionSort fun a b => b.latestMs ≤ a.latestMs

end Store

end AnalogConnect
