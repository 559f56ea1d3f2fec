import AnalogConnect.Library.Hex
import AnalogConnect.Library.Runs
import AnalogConnect.Library.Text
import AnalogConnect.Library.Window

/-!
# Correlating notifications with messages

The iPhone announces a message twice: as an ANCS notification, whose subtitle names the group, and
as a MAP message, whose handle names the message. `AncsMapCorrelator` keeps a bounded window of
each kind and pairs them by time and by the sender's name.

The Unicode and SHA-256 crates are parameters: what they compute is not read here, only that a
digest has 32 bytes.
-/

namespace AnalogConnect

/-- The crates behind a group's id. -/
structure AncsText where
  /-- `nfkc().case_fold()`, collected. -/
  nfkcCaseFold : String → String
  sha256 : List UInt8 → List UInt8
  length_sha256 : ∀ bytes, (sha256 bytes).length = 32

abbrev NotificationUid := Vector UInt8 4

instance lawfulBEqNotificationUid : LawfulBEq NotificationUid := inferInstance

def hashDomain : List UInt8 := "ancs-subtitle-v1".toUTF8.data.toList ++ [0]

/-- `i64::abs_diff`. -/
def absDiff (a b : Int64) : ℕ := (a.toInt - b.toInt).natAbs

structure PendingAncsNotification where
  notificationUid : NotificationUid
  title : String
  subtitle : String
  observedUnixMillis : Int64
deriving DecidableEq

structure PendingMapMessage where
  mapHandle : String
  sender : String
  senderDisplayName : Option String
  observedUnixMillis : Int64
deriving DecidableEq

inductive CorrelationResult
  | group (mapHandle : String) (notificationUid : NotificationUid) (groupId : String)
      (displaySubtitle : String) (sender : String) (observedUnixMillis : Int64)
  | directCandidate (mapHandle : String) (notificationUid : NotificationUid)
  | pending
  | ambiguous (mapHandles : List String) (observedUnixMillis : Int64)
deriving DecidableEq

/-- The message and the notification a result pairs, if it pairs any. -/
def CorrelationResult.pair : CorrelationResult → Option (String × NotificationUid)
  | .group mapHandle notificationUid _ _ _ _ => some (mapHandle, notificationUid)
  | .directCandidate mapHandle notificationUid => some (mapHandle, notificationUid)
  | .pending => none
  | .ambiguous _ _ => none

structure AncsMapCorrelator where
  notifications : List PendingAncsNotification
  messages : List PendingMapMessage
  completedUids : List NotificationUid
  maxDeltaMillis : UInt64

section

variable (text : AncsText)

def normalizeAncsSubtitleV1 (value : String) : String :=
  " ".intercalate (Text.splitWhitespace (text.nfkcCaseFold value))

/-- A group's id: the digest of its normalized subtitle, or none when that is empty. -/
def ancsGroupId (value : String) : Option String :=
  let normalized := normalizeAncsSubtitleV1 text value
  if normalized.isEmpty then none
  else
    some ("ancs-v1-" ++ String.ofList
      (Hex.encode (text.sha256 (hashDomain ++ normalized.toUTF8.data.toList))))

def correlatePair (notification : PendingAncsNotification) (message : PendingMapMessage) :
    CorrelationResult :=
  match ancsGroupId text notification.subtitle with
  | none => .directCandidate message.mapHandle notification.notificationUid
  | some groupId =>
    .group message.mapHandle notification.notificationUid groupId notification.subtitle
      message.sender notification.observedUnixMillis

namespace AncsMapCorrelator

def new (maxDeltaMillis : UInt64) : AncsMapCorrelator := ⟨[], [], [], maxDeltaMillis⟩

def «matches» (c : AncsMapCorrelator) (notification : PendingAncsNotification)
    (message : PendingMapMessage) : Bool :=
  let senderLabel := message.senderDisplayName.getD message.sender
  decide (absDiff notification.observedUnixMillis message.observedUnixMillis
      ≤ c.maxDeltaMillis.toNat)
    && normalizeAncsSubtitleV1 text notification.title == normalizeAncsSubtitleV1 text senderLabel

def rememberCompleted (c : AncsMapCorrelator) (uid : NotificationUid) : AncsMapCorrelator :=
  { c with completedUids := Window.keepNewest 64 (c.completedUids ++ [uid]) }

/-- The first retained notification with this UID gives way to `notification`. -/
def update (c : AncsMapCorrelator) (notification : PendingAncsNotification) : AncsMapCorrelator :=
  { c with
    notifications := Window.replaceKey (·.notificationUid) notification c.notifications }

def observeAncs (c : AncsMapCorrelator) (notification : PendingAncsNotification) :
    Option CorrelationResult × AncsMapCorrelator :=
  if notification.notificationUid ∈ c.completedUids then (none, c)
  else if c.notifications.any (·.notificationUid = notification.notificationUid) then
    (none, c.update notification)
  else
    match Window.indicesWhere (c.matches text notification) c.messages with
    | [index] =>
      match c.messages[index]? with
      | none => (none, c)
      | some message =>
        (some (correlatePair text notification message),
          { c with messages := c.messages.eraseIdx index }.rememberCompleted
            notification.notificationUid)
    | candidates =>
      (if candidates.length > 1 then
          some (.ambiguous
            ((candidates.filterMap fun index => c.messages[index]?).map (·.mapHandle))
            notification.observedUnixMillis)
        else none,
        { c with notifications := Window.keepNewest 32 (c.notifications ++ [notification]) })

def correlateMap (c : AncsMapCorrelator) (message : PendingMapMessage) :
    CorrelationResult × AncsMapCorrelator :=
  match Window.indicesWhere (fun notification => c.matches text notification message)
      c.notifications with
  | [index] =>
    match c.notifications[index]? with
    | none => (.pending, c)
    | some notification =>
      (correlatePair text notification message,
        { c with notifications := c.notifications.eraseIdx index }.rememberCompleted
          notification.notificationUid)
  | [] =>
    (.pending,
      if c.messages.any (·.mapHandle = message.mapHandle) then c
      else { c with messages := Window.keepNewest 32 (c.messages ++ [message]) })
  | _ => (.ambiguous [message.mapHandle] message.observedUnixMillis, c)

end AncsMapCorrelator

/-! ## Runs -/

inductive CorrelatorEvent
  | observeAncs (notification : PendingAncsNotification)
  | correlateMap (message : PendingMapMessage)

namespace AncsMapCorrelator

/-- What a call returns, if it returns anything. -/
def result (c : AncsMapCorrelator) : CorrelatorEvent → Option CorrelationResult
  | .observeAncs notification => (c.observeAncs text notification).1
  | .correlateMap message => some (c.correlateMap text message).1

def step (c : AncsMapCorrelator) : CorrelatorEvent → AncsMapCorrelator
  | .observeAncs notification => (c.observeAncs text notification).2
  | .correlateMap message => (c.correlateMap text message).2

/-- What `c` retains together with the item being offered. -/
def evidence (c : AncsMapCorrelator) :
    CorrelatorEvent → List PendingAncsNotification × List PendingMapMessage
  | .observeAncs notification => (c.notifications ++ [notification], c.messages)
  | .correlateMap message => (c.notifications, c.messages ++ [message])

/-- The notification and the message of a pairing: the one offered, and the retained one the result
names. -/
def Names (c : AncsMapCorrelator) (pair : String × NotificationUid)
    (notification : PendingAncsNotification) (message : PendingMapMessage) :
    CorrelatorEvent → Prop
  | .observeAncs offered =>
    notification = offered ∧ message ∈ c.messages ∧ message.mapHandle = pair.1
  | .correlateMap offered =>
    message = offered ∧ notification ∈ c.notifications ∧ notification.notificationUid = pair.2

/-- Each of the two is the other's only match among all the evidence. -/
structure MutuallyUnique (c : AncsMapCorrelator) (event : CorrelatorEvent)
    (notification : PendingAncsNotification) (message : PendingMapMessage) : Prop where
  isMatch : c.matches text notification message
  notification_unique : ∀ other ∈ (c.evidence event).1, c.matches text other message →
    other.notificationUid = notification.notificationUid
  message_unique : ∀ other ∈ (c.evidence event).2, c.matches text notification other →
    other.mapHandle = message.mapHandle

/-- A call of `event` in `c` pairs mutually unique evidence, if it pairs any. -/
def PairsUnique (c : AncsMapCorrelator) (event : CorrelatorEvent) : Prop :=
  ∀ result pair, c.result text event = some result → result.pair = some pair →
    ∀ notification message, c.Names pair notification message event →
      c.MutuallyUnique text event notification message

/-- The check each call leaves out. A new notification that matches a single retained message
matches one no retained notification matches; a message that a single retained notification
matches is the only one that notification matches. -/
def NoRival (c : AncsMapCorrelator) : CorrelatorEvent → Prop
  | .observeAncs notification =>
    notification.notificationUid ∉ c.completedUids →
    (∀ existing ∈ c.notifications,
      existing.notificationUid ≠ notification.notificationUid) →
    ∀ message, c.messages.filter (c.matches text notification) = [message] →
      ∀ other ∈ c.notifications, ¬ c.matches text other message
  | .correlateMap message =>
    ∀ notification, c.notifications.filter (c.matches text · message) = [notification] →
      ∀ other ∈ c.messages, c.matches text notification other →
        other.mapHandle = message.mapHandle

end AncsMapCorrelator

/-- A correlator under any calls. -/
def correlator : Lts AncsMapCorrelator CorrelatorEvent := ⟨fun c e => some (c.step text e)⟩

end

end AnalogConnect
