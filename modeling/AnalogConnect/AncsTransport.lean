import AnalogConnect.AncsGroups
import AnalogConnect.Library.Tlv

/-!
# The ANCS consumer

The iPhone announces each notification on the Notification Source. `AncsProtocolConsumer` asks for
the attributes of one at a time on the Control Point, and puts the answer together from what arrives
on the Data Source; the others wait in a queue. An answer carries a command, a UID and the
attributes asked for.
-/

namespace AnalogConnect

open Bytes

def messagesApp : List UInt8 := "com.apple.MobileSMS".toUTF8.data.toList

def attributeIds : List UInt8 := [0, 1, 2, 4, 5, 6, 7]

def maxResponseBytes : ℕ := 4096

inductive NotificationEventKind
  | added
  | modified
  | removed
deriving DecidableEq

structure NotificationSourceEvent where
  kind : NotificationEventKind
  uid : NotificationUid
deriving DecidableEq

theorem size_uid (a b c d : UInt8) : #[a, b, c, d].size = 4 := rfl

def NotificationSourceEvent.parse : List UInt8 → Option NotificationSourceEvent
  | [eventId, _, _, _, a, b, c, d] =>
    if eventId = 0 then some ⟨.added, ⟨#[a, b, c, d], size_uid a b c d⟩⟩
    else if eventId = 1 then some ⟨.modified, ⟨#[a, b, c, d], size_uid a b c d⟩⟩
    else if eventId = 2 then some ⟨.removed, ⟨#[a, b, c, d], size_uid a b c d⟩⟩
    else none
  | _ => none

structure AncsNotificationMetadata where
  uid : NotificationUid
  title : String
  subtitle : String
  positiveActionLabel : String
  negativeActionLabel : String
deriving DecidableEq

/-- The request for a notification's attributes; two of them are cut at 256 bytes. -/
def attributeRequest (uid : NotificationUid) : List UInt8 :=
  [0] ++ uid.toList ++ [0] ++ ([1, 2].flatMap fun id => id :: leBytes 2 256) ++ [4, 5, 6, 7]

/-- `parse_attributes`'s loop from `offset` on: the values of the attributes still expected, and
where they end. -/
def parseValues (data : List UInt8) : List UInt8 → ℕ → Option (List (List UInt8) × ℕ)
  | [], offset => some ([], offset)
  | expected :: ids, offset =>
    match data[offset]? with
    | none => none
    | some id =>
      if id ≠ expected then none
      else
        match data[offset + 1]?, data[offset + 2]? with
        | some lo, some hi =>
          let start := offset + 3
          let stop := start + leNat [lo, hi]
          if stop ≤ data.length then
            (parseValues data ids stop).map fun (values, offset) =>
              ((data.drop start).take (stop - start) :: values, offset)
          else none
        | _, _ => none

def parseAttributes (data : List UInt8) : Option (List (List UInt8) × ℕ) :=
  if data.length < 5 ∨ data.getD 0 0 ≠ 0 then none else parseValues data attributeIds 5

structure AncsProtocolConsumer where
  queued : List NotificationUid
  completed : List NotificationUid
  pending : Option NotificationUid
  response : List UInt8

namespace AncsProtocolConsumer

def default : AncsProtocolConsumer := ⟨[], [], none, []⟩

/-- The request to write on the Control Point, if any. -/
def notificationSource (c : AncsProtocolConsumer) (value : List UInt8) :
    Option (List UInt8) × AncsProtocolConsumer :=
  match NotificationSourceEvent.parse value with
  | none => (none, c)
  | some event =>
    if event.kind = .removed then
      (none, { c with queued := c.queued.filter (· ≠ event.uid) })
    else if event.uid ∈ c.completed ∨ c.pending = some event.uid ∨ event.uid ∈ c.queued then
      (none, c)
    else if c.pending = none then
      (some (attributeRequest event.uid), { c with pending := some event.uid, response := [] })
    else if c.queued.length < 32 then (none, { c with queued := c.queued ++ [event.uid] })
    else (none, c)

def resetPending (c : AncsProtocolConsumer) : AncsProtocolConsumer :=
  { c with pending := none, response := [] }

def startNext (c : AncsProtocolConsumer) : Option (List UInt8) × AncsProtocolConsumer :=
  match c.queued with
  | [] => (none, c.resetPending)
  | uid :: queued =>
    (some (attributeRequest uid), { c.resetPending with queued, pending := some uid })

/-- What a Messages notification's attributes say of it. -/
def metadataOf (uid : NotificationUid) (values : List (List UInt8)) :
    Option AncsNotificationMetadata :=
  if values.getD 0 [] = messagesApp then
    some
      { uid
        title := Text.fromUtf8Lossy (values.getD 1 [])
        subtitle := Text.fromUtf8Lossy (values.getD 2 [])
        positiveActionLabel := Text.fromUtf8Lossy (values.getD 5 [])
        negativeActionLabel := Text.fromUtf8Lossy (values.getD 6 []) }
  else none

/-- The metadata the answer gives, if it is whole, and the next request, if there is one. -/
def dataSource (c : AncsProtocolConsumer) (fragment : List UInt8) :
    (Option AncsNotificationMetadata × Option (List UInt8)) × AncsProtocolConsumer :=
  if c.pending = none ∨ c.response.length + fragment.length > maxResponseBytes then
    ((none, c.resetPending.startNext.1), c.resetPending.startNext.2)
  else
    let received := { c with response := c.response ++ fragment }
    match parseAttributes received.response with
    | none => ((none, none), received)
    | some (values, consumed) =>
      match received.pending with
      | none => ((none, none), received)
      | some uid =>
        let answered :=
          { received with
            pending := none
            response := received.response.drop consumed
            completed := Window.keepNewest 64 (received.completed ++ [uid]) }
        ((metadataOf uid values, answered.startNext.1), answered.startNext.2)

end AncsProtocolConsumer

/-! ## Runs -/

inductive AncsEvent
  | notificationSource (value : List UInt8)
  | dataSource (fragment : List UInt8)

/-- The bytes a call brings from the Data Source. -/
def AncsEvent.received : AncsEvent → List UInt8
  | .notificationSource _ => []
  | .dataSource fragment => fragment

namespace AncsProtocolConsumer

def step (c : AncsProtocolConsumer) : AncsEvent → AncsProtocolConsumer
  | .notificationSource value => (c.notificationSource value).2
  | .dataSource fragment => (c.dataSource fragment).2

/-- The request a call returns, if it returns one. -/
def request (c : AncsProtocolConsumer) : AncsEvent → Option (List UInt8)
  | .notificationSource value => (c.notificationSource value).1
  | .dataSource fragment => (c.dataSource fragment).1.2

/-- The metadata a call returns, if it returns any. -/
def metadata (c : AncsProtocolConsumer) : AncsEvent → Option AncsNotificationMetadata
  | .notificationSource _ => none
  | .dataSource fragment => (c.dataSource fragment).1.1

end AncsProtocolConsumer

/-- The calls of `dataSource` for the fragments in turn: what each returns, and the state they
leave. -/
def AncsProtocolConsumer.feed (c : AncsProtocolConsumer) : List (List UInt8) →
    List (Option AncsNotificationMetadata × Option (List UInt8)) × AncsProtocolConsumer
  | [] => ([], c)
  | fragment :: fragments =>
    let rest := (c.dataSource fragment).2.feed fragments
    ((c.dataSource fragment).1 :: rest.1, rest.2)

/-- The consumer under any calls. -/
def ancsConsumer : Lts AncsProtocolConsumer AncsEvent := ⟨fun c e => some (c.step e)⟩

end AnalogConnect
