import AnalogConnect.Library.Runs
import AnalogConnect.Library.Saturating
import AnalogConnect.SyncStates

/-!
# Message synchronization

A coordinator decides on each tick and each notification whether to synchronize, and keeps a summary
of how synchronizations go. Any number of callers use it at once. A call holds the scheduler's lock
and, within it, the summary's while it decides, which is one step; a synchronization is two steps
more, one for each time it holds the summary's lock, and runs the backend between them with no lock
held. No caller panics while it holds a lock.

Durations count nanoseconds.
-/

namespace AnalogConnect

/-- `Duration::MAX`. -/
def durationMax : ℕ := 2 ^ 64 * 10 ^ 9 - 1

inductive MessageSyncMode
  | notifications
  | polling
deriving DecidableEq

structure MessageSyncSummary where
  state : MessageSyncState := .idle
  mode : MessageSyncMode := .polling
  successfulSyncs : ℕ := 0
  failedSyncs : ℕ := 0
  lastSuccessUnixSeconds : Option ℕ := none
deriving DecidableEq

inductive MapEventKind
  | newMessage
  | messageShift
  | messageDeleted
  | readStatusChanged
  | deliveryStateChanged
  | memoryStateChanged
  | unknown
deriving DecidableEq

namespace MapEventKind

def fromWireName (name : String) : MapEventKind :=
  match name with
  | "NewMessage" => .newMessage
  | "MessageShift" => .messageShift
  | "MessageDeleted" => .messageDeleted
  | "ReadStatusChanged" => .readStatusChanged
  | "DeliverySuccess" | "DeliveryFailure" | "SendingSuccess" | "SendingFailure" =>
    .deliveryStateChanged
  | "MemoryFull" | "MemoryAvailable" => .memoryStateChanged
  | _ => .unknown

def requiresSync : MapEventKind → Bool
  | .newMessage | .messageShift | .messageDeleted | .readStatusChanged | .deliveryStateChanged =>
    true
  | .memoryStateChanged | .unknown => false

end MapEventKind

inductive SyncTrigger
  | notification
  | poll
deriving DecidableEq

structure MessageSyncScheduler where
  mode : MessageSyncMode
  pollInterval : ℕ
  notificationTimeout : ℕ
  lastNotificationAt : Option ℕ
  nextPollAt : ℕ
deriving DecidableEq

namespace MessageSyncScheduler

def new (pollInterval notificationTimeout : ℕ) : MessageSyncScheduler :=
  ⟨.polling, pollInterval, notificationTimeout, none, 0⟩

def notification (s : MessageSyncScheduler) (now : ℕ) (wireName : String) :
    Option SyncTrigger × MessageSyncScheduler :=
  (if (MapEventKind.fromWireName wireName).requiresSync then some .notification else none,
    { s with
      mode := .notifications
      lastNotificationAt := some now
      nextPollAt := min (now + s.pollInterval) durationMax })

def tick (s : MessageSyncScheduler) (now : ℕ) : Option SyncTrigger × MessageSyncScheduler :=
  let silent := s.lastNotificationAt.any fun last => s.notificationTimeout ≤ now - last
  let mode := if silent then .polling else s.mode
  if mode = .polling ∧ s.nextPollAt ≤ now then
    (some .poll, { s with mode, nextPollAt := min (now + s.pollInterval) durationMax })
  else (none, { s with mode })

end MessageSyncScheduler

inductive MessageCoordinatorError
  | syncFailed
  | lockPoisoned
deriving DecidableEq

/-- Where a caller is: in no call yet, about to synchronize, running the backend, or back. -/
inductive CallPhase
  | idle
  | triggered
  | syncing
  | returned (result : Except MessageCoordinatorError Unit)

/-- A caller that may call. -/
def CallPhase.Free : CallPhase → Prop
  | .idle | .returned _ => True
  | .triggered | .syncing => False

instance : DecidablePred CallPhase.Free
  | .idle | .returned _ => .isTrue trivial
  | .triggered | .syncing => .isFalse id

structure MessageSyncCoordinator where
  scheduler : MessageSyncScheduler
  summary : MessageSyncSummary
  phase : ℕ → CallPhase

inductive SyncEvent
  | tick (caller : ℕ) (now : ℕ)
  | notification (caller : ℕ) (now : ℕ) (wireName : String)
  | start (caller : ℕ)
  | finish (caller : ℕ) (succeeded : Bool) (clock : Option ℕ)

namespace MessageSyncCoordinator

def new (scheduler : MessageSyncScheduler) : MessageSyncCoordinator :=
  ⟨scheduler, {}, fun _ => .idle⟩

def setPhase (c : MessageSyncCoordinator) (caller : ℕ) (phase : CallPhase) :
    MessageSyncCoordinator :=
  { c with phase := fun other => if other = caller then phase else c.phase other }

/-- What `tick` and `notification` do with the scheduler's answer. -/
def decided (c : MessageSyncCoordinator) (caller : ℕ)
    (answer : Option SyncTrigger × MessageSyncScheduler) : MessageSyncCoordinator :=
  { c with
    scheduler := answer.2
    summary := { c.summary with mode := answer.2.mode } }.setPhase caller
    (if answer.1.isSome then .triggered else .returned (.ok ()))

/-- `synchronize` up to the backend. -/
def start (c : MessageSyncCoordinator) (caller : ℕ) : MessageSyncCoordinator :=
  match c.summary.state.transitionTo "message_sync" .syncing with
  | .ok state => { c with summary := { c.summary with state } }.setPhase caller .syncing
  | .error _ => c.setPhase caller (.returned (.error .lockPoisoned))

/-- `synchronize` from the backend on. -/
def finish (c : MessageSyncCoordinator) (caller : ℕ) (succeeded : Bool) (clock : Option ℕ) :
    MessageSyncCoordinator :=
  let summary :=
    if succeeded then
      { c.summary with
        successfulSyncs := saturatingAdd c.summary.successfulSyncs 1
        lastSuccessUnixSeconds := clock }
    else { c.summary with failedSyncs := saturatingAdd c.summary.failedSyncs 1 }
  match summary.state.transitionTo "message_sync" (if succeeded then .idle else .backingOff) with
  | .ok state =>
    { c with summary := { summary with state } }.setPhase caller
      (.returned (if succeeded then .ok () else .error .syncFailed))
  | .error _ => { c with summary }.setPhase caller (.returned (.error .lockPoisoned))

end MessageSyncCoordinator

/-- Callers use the coordinator in any order of their steps. -/
def messageSyncs : Lts MessageSyncCoordinator SyncEvent where
  step c
    | .tick caller now =>
      if (c.phase caller).Free then some (c.decided caller (c.scheduler.tick now)) else none
    | .notification caller now wireName =>
      if (c.phase caller).Free then
        some (c.decided caller (c.scheduler.notification now wireName))
      else none
    | .start caller =>
      match c.phase caller with
      | .triggered => some (c.start caller)
      | _ => none
    | .finish caller succeeded clock =>
      match c.phase caller with
      | .syncing => some (c.finish caller succeeded clock)
      | _ => none

end AnalogConnect
