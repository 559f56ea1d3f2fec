import AnalogConnect.AncsTransport
import AnalogConnect.Library.Runs

/-!
# The ANCS bearer

The supervisor walks a connection through its two subscriptions and lets the consumer speak only
after both; it counts the failures in a row, and each doubles the wait before the next attempt. The
bearer executes its commands over BlueZ. What a GATT operation comes to is given to each step, and
what was done towards the phone and the consumer of metadata is kept in a log.
-/

namespace AnalogConnect

inductive SupervisorCommand
  | connect
  | subscribeNotificationSource
  | subscribeDataSource
  | writeControlPoint (request : List UInt8)
  | retryAfterSeconds (seconds : ℕ)
deriving DecidableEq

inductive SupervisorState
  | disconnected
  | subscribingNotificationSource
  | subscribingDataSource
  | ready
deriving DecidableEq

structure ReconnectBackoff where
  failures : ℕ
deriving DecidableEq

namespace ReconnectBackoff

def new : ReconnectBackoff := ⟨0⟩

def connected (_ : ReconnectBackoff) : ReconnectBackoff := ⟨0⟩

def failed (b : ReconnectBackoff) : ℕ × ReconnectBackoff :=
  let failures := min (min (b.failures + 1) 255) 6
  (2 ^ failures, ⟨failures⟩)

end ReconnectBackoff

structure AncsSupervisor where
  state : SupervisorState
  protocol : AncsProtocolConsumer
  backoff : ReconnectBackoff

namespace AncsSupervisor

def default : AncsSupervisor := ⟨.disconnected, .default, .new⟩

def start (_ : AncsSupervisor) : SupervisorCommand := .connect

def connected (s : AncsSupervisor) : SupervisorCommand × AncsSupervisor :=
  (.subscribeNotificationSource,
    { s with protocol := .default, state := .subscribingNotificationSource })

def notificationSourceSubscribed (s : AncsSupervisor) : SupervisorCommand × AncsSupervisor :=
  (.subscribeDataSource, { s with state := .subscribingDataSource })

def dataSourceSubscribed (s : AncsSupervisor) : AncsSupervisor :=
  { s with state := .ready, backoff := s.backoff.connected }

def disconnected (s : AncsSupervisor) : SupervisorCommand × AncsSupervisor :=
  (.retryAfterSeconds s.backoff.failed.1,
    { state := .disconnected, protocol := .default, backoff := s.backoff.failed.2 })

def notificationSource (s : AncsSupervisor) (value : List UInt8) :
    Option SupervisorCommand × AncsSupervisor :=
  if s.state = .ready then
    ((s.protocol.notificationSource value).1.map .writeControlPoint,
      { s with protocol := (s.protocol.notificationSource value).2 })
  else (none, s)

def dataSource (s : AncsSupervisor) (value : List UInt8) :
    (Option AncsNotificationMetadata × Option SupervisorCommand) × AncsSupervisor :=
  if s.state ≠ .ready then ((none, none), s)
  else
    let ((metadata, request), protocol) := s.protocol.dataSource value
    ((metadata, request.map .writeControlPoint), { s with protocol })

end AncsSupervisor

inductive BluezAncsError
  | configuration
  | bluez
  | deviceNotTrusted
  | timeout
  | characteristics
  | streamEnded
  | consumerStopped
deriving DecidableEq

/-- What `run` and `session` are waiting for. -/
inductive BearerPhase
  | discovering
  | subscribingNotificationSource
  | subscribingDataSource
  | ready
  | backingOff
  | stopped
deriving DecidableEq

inductive BearerAction
  | connected
  | subscribedNotificationSource
  | subscribedDataSource
  | wrote (request : List UInt8)
  | emitted (metadata : AncsNotificationMetadata)
  | backingOff (seconds : ℕ)
deriving DecidableEq

structure AncsBearer where
  supervisor : AncsSupervisor
  phase : BearerPhase
  /-- The value of the shutdown channel. -/
  shutdown : Bool
  /-- The channel has a value the bearer has not been woken for. -/
  changed : Bool
  /-- The channel has no sender any more. -/
  closed : Bool
  log : List BearerAction

/-- What an operation of `session` comes to. -/
abbrev BearerOutcome := Except BluezAncsError Unit

/-- What happens next: to the shutdown channel, or to what the bearer waits for. A notification or
a fragment comes with what the operations it leads to come to, the metadata's before the
request's. -/
inductive BearerEvent
  | setShutdown (value : Bool)
  | closeShutdown
  | discovered (outcome : BearerOutcome)
  | notified (outcome : BearerOutcome)
  | shutdownChanged
  | notificationEvent (value : Option (List UInt8)) (written : BearerOutcome)
  | dataEvent (value : Option (List UInt8)) (sent written : BearerOutcome)
  | slept

namespace AncsBearer

/-- The top of the loop of `run`, with the shutdown channel as it is. -/
def attempt (b : AncsBearer) : AncsBearer :=
  { b with phase := if b.shutdown then .stopped else .discovering }

def start (shutdown closed : Bool) : AncsBearer :=
  attempt ⟨.default, .discovering, shutdown, false, closed, []⟩

def did (b : AncsBearer) (action : BearerAction) : AncsBearer :=
  { b with log := b.log ++ [action] }

/-- After a session: `supervisor.disconnected()` and the wait it asks for. -/
def backOff (b : AncsBearer) : AncsBearer :=
  match b.supervisor.disconnected with
  | (.retryAfterSeconds seconds, supervisor) =>
    { b.did (.backingOff seconds) with supervisor, phase := .backingOff }
  | (_, supervisor) => { b with supervisor, phase := .stopped }

/-- The rest of an arm of `session` that writes what the supervisor commands. -/
def write (b : AncsBearer) (command : Option SupervisorCommand) (written : BearerOutcome) :
    AncsBearer :=
  match command with
  | some (.writeControlPoint request) =>
    match written with
    | .ok _ => b.did (.wrote request)
    | .error _ => b.backOff
  | _ => b

def step (b : AncsBearer) : BearerEvent → Option AncsBearer
  | .setShutdown value =>
    if b.closed then none else some { b with shutdown := value, changed := true }
  | .closeShutdown => some { b with closed := true }
  | .discovered outcome =>
    if b.phase = .discovering then
      match outcome with
      | .ok _ =>
        some
          { b.did .connected with
            supervisor := b.supervisor.connected.2
            phase := .subscribingNotificationSource }
      | .error _ => some b.backOff
    else none
  | .notified outcome =>
    if b.phase = .subscribingNotificationSource then
      match outcome with
      | .ok _ =>
        some
          { b.did .subscribedNotificationSource with
            supervisor := b.supervisor.notificationSourceSubscribed.2
            phase := .subscribingDataSource }
      | .error _ => some b.backOff
    else if b.phase = .subscribingDataSource then
      match outcome with
      | .ok _ =>
        some
          { b.did .subscribedDataSource with
            supervisor := b.supervisor.dataSourceSubscribed
            phase := .ready }
      | .error _ => some b.backOff
    else none
  | .shutdownChanged =>
    if b.changed = false ∧ b.closed = false then none
    else
      let woken := { b with changed := false }
      if b.phase = .ready then
        if b.shutdown then some { woken with phase := .stopped }
        else if b.changed = false then some woken.backOff
        else some woken
      else if b.phase = .backingOff then
        if b.shutdown ∨ b.changed = false then some { woken with phase := .stopped }
        else some woken.attempt
      else none
  | .notificationEvent value written =>
    if b.phase = .ready then
      match value with
      | none => some b.backOff
      | some value =>
        let (command, supervisor) := b.supervisor.notificationSource value
        some (write { b with supervisor } command written)
    else none
  | .dataEvent value sent written =>
    if b.phase = .ready then
      match value with
      | none => some b.backOff
      | some value =>
        let ((metadata, command), supervisor) := b.supervisor.dataSource value
        let b := { b with supervisor }
        match metadata with
        | none => some (b.write command written)
        | some metadata =>
          match sent with
          | .ok _ => some ((b.did (.emitted metadata)).write command written)
          | .error _ => some b.backOff
    else none
  | .slept => if b.phase = .backingOff then some b.attempt else none

end AncsBearer

def ancsBearer : Lts AncsBearer BearerEvent := ⟨AncsBearer.step⟩

end AnalogConnect
