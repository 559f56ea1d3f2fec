import AnalogConnect.Conversations
import AnalogConnect.Library.JsonText
import AnalogConnect.MessageSend

/-!
# The phone's side of a page

A page as it is sent, what the phone makes of its items, and what it refuses: a body of too many
bytes is refused unread, and one refused item refuses the page. The daemon's lengths are bytes, the
phone's UTF-16 units; read back, JSON gives each field as the daemon wrote it.
-/

namespace AnalogConnect

/-- The shape of a group's conversation key: the prefix and a digest. -/
def isAncsKey (value : String) : Bool :=
  "ancs-v1-".toList.isPrefixOf value.toList && Text.utf16Length value = 72
    && lowerHex (value.toList.drop 8)

def validConversationId (value : String) : Bool := validOperationId value || isAncsKey value

def validOutgoingState (state : Option String) : Bool :=
  state = none || state = some "queued" || state = some "sending"
    || state = some "sent_unconfirmed" || state = some "sent_confirmed"
    || state = some "failed_retryable" || state = some "failed_permanent"
    || state = some "unknown"

/-- `#[serde(rename_all = "snake_case")]`. -/
def ConversationKind.serialize : ConversationKind → String
  | .«private» => "private"
  | .group => "group"
  | .ambiguous => "ambiguous"

/-- `#[serde(rename_all = "snake_case")]`. -/
def Direction.serialize : Direction → String
  | .received => "received"
  | .sent => "sent"

/-! ## What is sent -/

/-- `#[derive(Serialize)]`: the fields in their order. -/
def ConversationItem.serialize (item : ConversationItem) : String :=
  JsonText.object
    [ JsonText.member "conversation_id" (JsonText.string item.conversationId),
      JsonText.member "display_address" (JsonText.string item.displayAddress),
      JsonText.member "display_name" (JsonText.option JsonText.string item.displayName),
      JsonText.member "is_group" (JsonText.bool item.isGroup),
      JsonText.member "reply_supported" (JsonText.bool item.replySupported),
      JsonText.member "latest_unix_millis" (JsonText.number item.latestUnixMillis),
      JsonText.member "message_count" (JsonText.number item.messageCount),
      JsonText.member "unread_count" (JsonText.number item.unreadCount),
      JsonText.member "latest_outgoing_state"
        (JsonText.option JsonText.string item.latestOutgoingState),
      JsonText.member "latest_preview" (JsonText.string item.latestPreview),
      JsonText.member "latest_sender" (JsonText.string item.latestSender),
      JsonText.member "latest_sent" (JsonText.bool item.latestSent),
      JsonText.member "kind" (JsonText.string item.kind.serialize),
      JsonText.member "title" (JsonText.string item.title),
      JsonText.member "can_reply" (JsonText.bool item.canReply),
      JsonText.member "identity_conflict" (JsonText.bool item.identityConflict) ]

/-- `#[derive(Serialize)]`: the fields in their order. -/
def MessageItem.serialize (item : MessageItem) : String :=
  JsonText.object
    [ JsonText.member "message_id" (JsonText.string item.messageId),
      JsonText.member "timestamp_unix_millis" (JsonText.number item.timestampUnixMillis),
      JsonText.member "direction" (JsonText.string item.direction.serialize),
      JsonText.member "peer_address" (JsonText.string item.peerAddress),
      JsonText.member "body" (JsonText.string item.body),
      JsonText.member "read" (JsonText.bool item.read),
      JsonText.member "outgoing_state" (JsonText.option JsonText.string item.outgoingState) ]

/-- The body of an answer, its items written with `serialize`. -/
def Page.body {α : Type} (serialize : α → String) (page : Page α) : String :=
  JsonText.object
    [ JsonText.member "items" (JsonText.array (page.items.map serialize)),
      JsonText.member "next_cursor" (JsonText.option JsonText.string page.nextCursor) ]

/-! ## What is made of it -/

structure ConversationSummary where
  id : String
  displayAddress : String
  displayName : Option String
  group : Bool
  replySupported : Bool
  latestUnixMillis : ℤ
  messageCount : ℤ
  unreadCount : ℤ
  latestOutgoingState : Option String
  kind : String
  title : String
  canReply : Bool
  identityConflict : Bool
  latestPreview : String
  latestSender : String
  latestSent : Bool
deriving DecidableEq

/-- The constructor's check of its arguments. -/
def ConversationSummary.invalid (s : ConversationSummary) : Bool :=
  !validConversationId s.id || s.displayAddress = "" || Text.utf16Length s.displayAddress > 128
    || s.latestUnixMillis < 0 || s.messageCount < 0 || s.unreadCount < 0
    || s.unreadCount > s.messageCount || (s.group && s.replySupported)
    || s.displayName.any (fun name => name = "" || Text.utf16Length name > 256)
    || s.title = "" || Text.utf16Length s.title > 256
    || !(s.kind = "private" || s.kind = "group" || s.kind = "ambiguous")
    || (s.group != decide (s.kind = "group") && !s.identityConflict)
    || s.canReply != s.replySupported || (s.group && s.canReply)
    || (s.identityConflict && s.canReply)
    || Text.utf16Length s.latestPreview > 2000
    || Text.utf16Length s.latestSender > 128
    || !validOutgoingState s.latestOutgoingState

/-- An item's fields, as the constructor's arguments. -/
def ConversationItem.summary (item : ConversationItem) : ConversationSummary where
  id := item.conversationId
  displayAddress := item.displayAddress
  displayName := item.displayName
  group := item.isGroup
  replySupported := item.replySupported
  latestUnixMillis := item.latestUnixMillis
  messageCount := item.messageCount
  unreadCount := item.unreadCount
  latestOutgoingState := item.latestOutgoingState
  kind := item.kind.serialize
  title := item.title
  canReply := item.canReply
  identityConflict := item.identityConflict
  latestPreview := item.latestPreview
  latestSender := item.latestSender
  latestSent := item.latestSent

/-- The summary the phone constructs of an item. -/
def ConversationSummary.ofItem (item : ConversationItem) : Except String ConversationSummary :=
  if item.summary.invalid then .error "Conversation summary is invalid" else .ok item.summary

structure ConversationMessage where
  id : String
  timestampUnixMillis : ℤ
  sent : Bool
  peerAddress : String
  body : String
  read : Bool
  outgoingState : Option String
deriving DecidableEq

/-- The constructor's check of its arguments. -/
def ConversationMessage.invalid (item : MessageItem) : Bool :=
  let direction := item.direction.serialize
  Text.utf16Length item.messageId ≠ 16 || !lowerHex item.messageId.toList
    || item.timestampUnixMillis < 0 || !(direction = "received" || direction = "sent")
    || Text.utf16Length item.peerAddress > 128 || Text.utf16Length item.body > 2000
    || !validOutgoingState item.outgoingState

/-- The message the phone constructs of an item. -/
def ConversationMessage.ofItem (item : MessageItem) : Except String ConversationMessage :=
  if ConversationMessage.invalid item then .error "Conversation message is invalid"
  else
    .ok
      { id := item.messageId
        timestampUnixMillis := item.timestampUnixMillis
        sent := item.direction.serialize = "sent"
        peerAddress := item.peerAddress
        body := item.body
        read := item.read
        outgoingState := item.outgoingState }

/-- `ConversationPageData`, of the items parsed. -/
def ConversationPageData.construct {α : Type} (items : List α) (nextCursor : Option String) :
    Except String (Page α) :=
  if items.length > 100
      || nextCursor.any (fun cursor => Text.utf16Length cursor ≠ 16 || !lowerHex cursor.toList) then
    .error "Conversation page is invalid"
  else .ok ⟨items, nextCursor⟩

/-- A page of the daemon's answer, each item constructed; any failure is reported as one. -/
def ApiClient.parsePage {α β : Type} (construct : α → Except String β) (failure : String)
    (page : Page α) : Except String (Page β) :=
  match page.items.mapM construct with
  | .error _ => .error failure
  | .ok parsed =>
    match ConversationPageData.construct parsed page.nextCursor with
    | .error _ => .error failure
    | .ok data => .ok data

/-- `readBounded`, of a body that arrives whole. -/
def ApiClient.readBounded (body : String) (maximumBytes : ℕ) : Except String String :=
  if body.utf8ByteSize > maximumBytes then .error "Media session response is too large"
  else .ok body

/-- An answer that holds a page, read and its items constructed. -/
def ApiClient.readPage {α β : Type} (serialize : α → String) (maximumBytes : ℕ)
    (construct : α → Except String β) (failure : String) (page : Page α) :
    Except String (Page β) :=
  match ApiClient.readBounded (page.body serialize) maximumBytes with
  | .error error => .error error
  | .ok _ => ApiClient.parsePage construct failure page

def ApiClient.conversations (page : Page ConversationItem) :
    Except String (Page ConversationSummary) :=
  ApiClient.readPage ConversationItem.serialize 65536 ConversationSummary.ofItem
    "Conversation response is invalid" page

def ApiClient.conversationMessages (page : Page MessageItem) :
    Except String (Page ConversationMessage) :=
  ApiClient.readPage MessageItem.serialize 262144 ConversationMessage.ofItem
    "Message history response is invalid" page

end AnalogConnect
