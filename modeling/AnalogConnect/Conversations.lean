import AnalogConnect.Library.Hex
import AnalogConnect.Library.Runs
import AnalogConnect.Library.Text
import AnalogConnect.Threads

/-!
# The conversation endpoints

What the daemon serves of the store: the list of conversations and the messages of one, a page at a
time. Requests stand here after authorization and JSON; a lock is held for one request at a time and
never poisoned. The contact store's answers and the random source's bytes are given.
-/

namespace AnalogConnect

inductive ConversationError
  | unavailable
  | expired
  | invalidCursor
  | randomUnavailable
deriving DecidableEq

inductive StatusCode
  | gone
  | unprocessableEntity
  | serviceUnavailable
deriving DecidableEq

def conversationStatus : ConversationError → StatusCode
  | .invalidCursor => .unprocessableEntity
  | .expired => .gone
  | .unavailable => .serviceUnavailable
  | .randomUnavailable => .serviceUnavailable

def defaultPageSize : ℕ := 50

def maxPageSize : ℕ := 100

def maxCursorOffset : ℕ := 1000000

/-- `u16::MAX`. -/
def u16Max : ℕ := 65535

def pageLimit (requested : Option ℕ) : Except StatusCode ℕ :=
  let limit := requested.getD defaultPageSize
  if 1 ≤ limit ∧ limit ≤ maxPageSize then .ok limit else .error .unprocessableEntity

/-! ## Cursors -/

/-- A cursor never points past the ceiling. -/
structure PageCursor where
  offset : ℕ
  offset_le : offset ≤ maxCursorOffset
deriving DecidableEq

namespace PageCursor

def start : PageCursor := ⟨0, Nat.zero_le _⟩

def parse (value : Option String) : Except ConversationError PageCursor :=
  match value with
  | none => .ok start
  | some value =>
    if value.utf8ByteSize ≠ 16 then .error .invalidCursor
    else
      match Hex.number value.toList with
      | none => .error .invalidCursor
      | some offset =>
        if h : offset ≤ maxCursorOffset then .ok ⟨offset, h⟩ else .error .invalidCursor

def encode (cursor : PageCursor) : String := String.ofList (Hex.fixed 16 cursor.offset)

def advance (cursor : PageCursor) (count : ℕ) : PageCursor :=
  ⟨min (cursor.offset + count) maxCursorOffset, Nat.min_le_right _ _⟩

end PageCursor

/-! ## Conversation identifiers -/

structure ConversationAliases where
  keyToId : String → Option String
  idToKey : String → Option String

/-- What the random source answers, call by call; `none` is a failure. -/
abbrev RandomBytes := List (Option (Vector UInt8 16))

namespace ConversationAliases

def empty : ConversationAliases := ⟨fun _ => none, fun _ => none⟩

def insert (aliases : ConversationAliases) (key id : String) : ConversationAliases where
  keyToId := fun k => if k = key then some id else aliases.keyToId k
  idToKey := fun i => if i = id then some key else aliases.idToKey i

def exposeStableId (aliases : ConversationAliases) (key : String) :
    Except ConversationError String × ConversationAliases :=
  match aliases.keyToId key with
  | some existing => (.ok existing, aliases)
  | none =>
    if (aliases.idToKey key).any (· ≠ key) then (.error .randomUnavailable, aliases)
    else (.ok key, aliases.insert key key)

/-- `id_for`'s loop, with tries left. A source with no more answers fails. -/
def drawId (aliases : ConversationAliases) (key : String) :
    ℕ → RandomBytes → Except ConversationError String × ConversationAliases × RandomBytes
  | 0, random => (.error .randomUnavailable, aliases, random)
  | _ + 1, [] => (.error .randomUnavailable, aliases, [])
  | _ + 1, none :: random => (.error .randomUnavailable, aliases, random)
  | tries + 1, some bytes :: random =>
    let id := String.ofList (Hex.encode bytes.toList)
    if aliases.idToKey id = none then (.ok id, aliases.insert key id, random)
    else drawId aliases key tries random

def idFor (aliases : ConversationAliases) (key : String) (random : RandomBytes) :
    Except ConversationError String × ConversationAliases × RandomBytes :=
  match aliases.keyToId key with
  | some existing => (.ok existing, aliases, random)
  | none => aliases.drawId key 4 random

def keyFor (aliases : ConversationAliases) (id : String) : Option String := aliases.idToKey id

end ConversationAliases

/-- A call that asks for a conversation's identifier, with what the random source answers it. -/
inductive AliasCall
  | idFor (key : String) (random : RandomBytes)
  | exposeStableId (key : String)

namespace AliasCall

def key : AliasCall → String
  | .idFor key _ => key
  | .exposeStableId key => key

def apply (aliases : ConversationAliases) :
    AliasCall → Except ConversationError String × ConversationAliases
  | .idFor key random =>
    let (result, aliases', _) := aliases.idFor key random
    (result, aliases')
  | .exposeStableId key => aliases.exposeStableId key

end AliasCall

/-- The table of identifiers under one call after another. -/
def aliasCalls : Lts ConversationAliases AliasCall :=
  ⟨fun aliases call => some (call.apply aliases).2⟩

/-! ## What the store's rows become -/

structure StoredConversation where
  conversationKey : String
  displayAddress : String
  participantCount : ℕ
  latestUnixMillis : ℤ
  messageCount : ℕ
  unreadCount : ℕ
  latestOutgoingState : Option String
  latestPreview : String
  latestSender : String
  latestSent : Bool
  groupTitle : Option String
  isAncsGroup : Bool
  identityConflict : Bool
deriving DecidableEq

structure StoredMessage where
  localId : ℕ
  address : String
  conversationKey : String
  timestampUnixMillis : ℤ
  direction : Direction
  body : String
  read : Bool
  outgoingState : Option String
deriving DecidableEq

/-- `OutgoingStatus`'s `Display`. -/
def OutgoingStatus.toText : OutgoingStatus → String
  | .queued => "queued"
  | .sending => "sending"
  | .sentUnconfirmed => "sent_unconfirmed"
  | .sentConfirmed => "sent_confirmed"
  | .failedRetryable => "failed_retryable"
  | .failedPermanent => "failed_permanent"
  | .unknown => "unknown"

/-- `try_from` into an unsigned type that holds every non-negative value of the signed one. -/
def toUnsigned (n : Int64) : Except ConversationError ℕ :=
  if 0 ≤ n.toInt then .ok n.toInt.toNat else .error .unavailable

/-- What a conversation is called when nothing better is known. -/
def displayAddressOf (row : ThreadRow) (count : ℕ) : String :=
  if count ≤ 1 ∨ row.participants = "" then row.address
  else if row.participants.utf8ByteSize > 128 then
    "Group conversation (" ++ toString count ++ " participants)"
  else Text.replaceChar ',' ", " row.participants

def StoredConversation.ofThread (row : ThreadRow) : Except ConversationError StoredConversation :=
  match toUnsigned row.participantCount, toUnsigned row.total, toUnsigned row.unread with
  | .ok count, .ok total, .ok unread =>
    .ok
      { conversationKey := row.conversationKey
        participantCount := count
        displayAddress := displayAddressOf row count
        latestUnixMillis := row.latestMs
        messageCount := total
        unreadCount := unread
        latestOutgoingState := row.latestOutgoingStatus.map (·.toText)
        latestPreview := row.latestText
        latestSender := row.latestSender
        latestSent := row.latestSent
        groupTitle := row.groupTitle
        isAncsGroup := row.isAncsGroup
        identityConflict := row.identityConflict }
  | _, _, _ => .error .unavailable

def StoredMessage.ofRow (row : MessageRow) : Except ConversationError StoredMessage :=
  match toUnsigned row.rowid with
  | .error error => .error error
  | .ok localId =>
    .ok
      { localId
        address := row.address
        conversationKey := row.conversationKey
        timestampUnixMillis := row.timestampMs
        direction := row.direction
        body := row.text
        read := row.status = statusRead
        outgoingState := row.outgoingStatus.map (·.toText) }

/-- The repository's `conversations`. -/
def conversations (rows : List ThreadRow) : Except ConversationError (List StoredConversation) :=
  rows.mapM StoredConversation.ofThread

/-- The repository's `messages_for`. -/
def messagesFor (stored : Store) (key : String) (limit offset : ℕ) :
    Except ConversationError (List StoredMessage) :=
  (stored.listConversationMessages key limit offset).mapM StoredMessage.ofRow

/-! ## Pages -/

inductive ConversationKind
  | «private»
  | group
  | ambiguous
deriving DecidableEq

structure ConversationItem where
  conversationId : String
  displayAddress : String
  displayName : Option String
  isGroup : Bool
  replySupported : Bool
  latestUnixMillis : ℤ
  messageCount : ℕ
  unreadCount : ℕ
  latestOutgoingState : Option String
  latestPreview : String
  latestSender : String
  latestSent : Bool
  kind : ConversationKind
  title : String
  canReply : Bool
  identityConflict : Bool
deriving DecidableEq

structure MessageItem where
  messageId : String
  timestampUnixMillis : ℤ
  direction : Direction
  peerAddress : String
  body : String
  read : Bool
  outgoingState : Option String
deriving DecidableEq

structure Page (α : Type) where
  items : List α
  nextCursor : Option String
deriving DecidableEq

def conversationItem (row : StoredConversation) (displayName : Option String)
    (conversationId : String) : ConversationItem :=
  let isGroup := row.isAncsGroup || decide (row.participantCount > 1)
  let canReply := !isGroup && !row.identityConflict
  { conversationId
    displayAddress := row.displayAddress
    displayName
    isGroup
    replySupported := canReply
    latestUnixMillis := row.latestUnixMillis
    messageCount := row.messageCount
    unreadCount := row.unreadCount
    latestOutgoingState := row.latestOutgoingState
    latestPreview := row.latestPreview
    latestSender := row.latestSender
    latestSent := row.latestSent
    kind :=
      if row.identityConflict then .ambiguous else if isGroup then .group else .«private»
    title := (row.groupTitle.or displayName).getD row.displayAddress
    canReply
    identityConflict := row.identityConflict }

def messageItem (row : StoredMessage) : MessageItem where
  messageId := String.ofList (Hex.fixed 16 row.localId)
  timestampUnixMillis := row.timestampUnixMillis
  direction := row.direction
  peerAddress := row.address
  body := row.body
  read := row.read
  outgoingState := row.outgoingState

/-- A conversation's name; only one-to-one conversations are looked up. -/
def displayNameOf (lookupDisplayName : String → Except Unit (Option String))
    (row : StoredConversation) : Except Unit (Option String) :=
  if row.participantCount ≤ 1 ∧ row.isAncsGroup = false then
    lookupDisplayName row.displayAddress
  else .ok none

/-- The names of a page's conversations. -/
def displayNames (lookupDisplayName : String → Except Unit (Option String)) :
    List StoredConversation → Except StatusCode (List (Option String))
  | [] => .ok []
  | row :: rows =>
    match displayNameOf lookupDisplayName row with
    | .error _ => .error .serviceUnavailable
    | .ok displayName =>
      match displayNames lookupDisplayName rows with
      | .error error => .error error
      | .ok names => .ok (displayName :: names)

/-- A conversation's identifier, its key itself where the key is a group's. -/
def conversationIdFor (aliases : ConversationAliases) (row : StoredConversation)
    (random : RandomBytes) :
    Except ConversationError String × ConversationAliases × RandomBytes :=
  if row.isAncsGroup then
    match aliases.exposeStableId row.conversationKey with
    | (id, aliases) => (id, aliases, random)
  else aliases.idFor row.conversationKey random

/-- `conversation_page`'s loop. -/
def conversationItems (aliases : ConversationAliases) (random : RandomBytes) :
    List (StoredConversation × Option String) →
      Except StatusCode (List ConversationItem) × ConversationAliases × RandomBytes
  | [] => (.ok [], aliases, random)
  | (row, displayName) :: rows =>
    match conversationIdFor aliases row random with
    | (.error error, aliases, random) => (.error (conversationStatus error), aliases, random)
    | (.ok id, aliases, random) =>
      match conversationItems aliases random rows with
      | (.error error, aliases, random) => (.error error, aliases, random)
      | (.ok items, aliases, random) =>
        (.ok (conversationItem row displayName id :: items), aliases, random)

structure PageRequest where
  cursor : Option String
  limit : Option ℕ

def conversationPage (lookupDisplayName : String → Except Unit (Option String))
    (stored : List ThreadRow) (request : PageRequest) (aliases : ConversationAliases)
    (random : RandomBytes) :
    Except StatusCode (Page ConversationItem) × ConversationAliases × RandomBytes :=
  match PageCursor.parse request.cursor with
  | .error error => (.error (conversationStatus error), aliases, random)
  | .ok cursor =>
  match pageLimit request.limit with
  | .error error => (.error error, aliases, random)
  | .ok limit =>
  match conversations stored with
  | .error error => (.error (conversationStatus error), aliases, random)
  | .ok rows =>
  let start := min cursor.offset rows.length
  let finish := min (start + limit) rows.length
  let window := (rows.drop start).take (finish - start)
  match displayNames lookupDisplayName window with
  | .error error => (.error error, aliases, random)
  | .ok names =>
  match conversationItems aliases random (window.zip names) with
  | (.error error, aliases, random) => (.error error, aliases, random)
  | (.ok items, aliases, random) =>
    (.ok
      { items
        nextCursor :=
          if finish < rows.length then some (cursor.advance items.length).encode else none },
      aliases, random)

/-- One request for a page, with what the store, the contacts and the random source answer it. -/
structure PageServed where
  lookupDisplayName : String → Except Unit (Option String)
  stored : List ThreadRow
  request : PageRequest
  random : RandomBytes

/-- The table of identifiers over the pages served; it starts empty and is never cleared. -/
def conversationService : Lts ConversationAliases PageServed where
  step := fun aliases e =>
    some (conversationPage e.lookupDisplayName e.stored e.request aliases e.random).2.1

structure MessagesRequest where
  conversationId : String
  cursor : Option String
  limit : Option ℕ

def conversationMessages (stored : Store) (aliases : ConversationAliases)
    (request : MessagesRequest) : Except StatusCode (Page MessageItem) :=
  match PageCursor.parse request.cursor with
  | .error error => .error (conversationStatus error)
  | .ok cursor =>
  match pageLimit request.limit with
  | .error error => .error error
  | .ok limit =>
  match aliases.keyFor request.conversationId with
  | none => .error .gone
  | some key =>
  if cursor.offset > u16Max then .error .unprocessableEntity
  else if limit + 1 > u16Max then .error .unprocessableEntity
  else
  match messagesFor stored key (limit + 1) cursor.offset with
  | .error error => .error (conversationStatus error)
  | .ok rows =>
    let items := (rows.take limit).map messageItem
    .ok
      { items
        nextCursor :=
          if rows.length > limit then some (cursor.advance items.length).encode else none }

end AnalogConnect
