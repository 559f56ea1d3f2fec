import AnalogConnect.Calls
import AnalogConnect.Library.Transducer
import Mathlib.Data.List.DropRight

/-!
# The SCO teardown watchdog

A refresh of the runtime status takes what the backends say of the call and its audio, and shows the
two to a watchdog, which remembers since when audio has gone on without a call. The refresh holds
the status's lock from there to its end; the watchdog's is taken within it, and nothing panics while
it is. A backend takes its snapshot on a task of its own, which may fail. Instants and durations
count nanoseconds on the daemon's clock.
-/

namespace AnalogConnect

inductive AudioTransportState
  | inactive
  | codecNegotiating
  | scoConnecting
  | scoActive
  | scoTearingDown
  | error
deriving DecidableEq

/-- What the watchdog is shown, and when. -/
structure ScoObserved where
  call : CallState
  audio : AudioTransportState
  now : ℕ
deriving DecidableEq

structure ScoTeardownObservation where
  state : AudioTransportState
  stalled : Bool
deriving DecidableEq

structure ScoTeardownWatchdog where
  gracePeriod : ℕ
  inconsistentSince : Option ℕ
deriving DecidableEq

namespace ScoObserved

/-- Audio goes on without a call. -/
def inconsistent (o : ScoObserved) : Bool :=
  (o.call = .idle || o.call = .ended) && o.audio = .scoActive

end ScoObserved

namespace ScoTeardownWatchdog

def new (gracePeriod : ℕ) : ScoTeardownWatchdog := ⟨gracePeriod, none⟩

def observe (watchdog : ScoTeardownWatchdog) (o : ScoObserved) :
    ScoTeardownObservation × ScoTeardownWatchdog :=
  if o.inconsistent then
    let since := watchdog.inconsistentSince.getD o.now
    let stalled : Bool := watchdog.gracePeriod ≤ o.now - since
    (⟨if stalled then .error else .scoTearingDown, stalled⟩,
      { watchdog with inconsistentSince := some since })
  else (⟨o.audio, false⟩, { watchdog with inconsistentSince := none })

end ScoTeardownWatchdog

def watchdog : Transducer ScoTeardownWatchdog ScoObserved ScoTeardownObservation :=
  ⟨ScoTeardownWatchdog.observe⟩

/-! ## The runtime status -/

inductive HfpControlState
  | disconnected
  | aclConnected
  | servicesResolved
  | profileRegistered
  | rfcommConnecting
  | rfcommConnected
  | slcNegotiating
  | slcReady
  | error
deriving DecidableEq

structure RedactedError where
  code : String
  summary : String
deriving DecidableEq

/-- The fields of the status that a refresh reads or writes. -/
structure SystemStatus where
  hfpControl : HfpControlState := .disconnected
  call : CallState := .idle
  audio : AudioTransportState := .inactive
  lastError : Option RedactedError := none
deriving DecidableEq

structure HfpStatusSnapshot where
  control : HfpControlState
  call : CallState
  transport : AudioTransportState

inductive ScoNodeError
  | unavailable
  | invalidSnapshot
  | absent
  | ambiguous

/-- What comes of a snapshot: its task may fail, or the backend. -/
inductive Snapshot (ε α : Type)
  | taken (result : Except ε α)
  | taskFailed

/-- The snapshots of a refresh, of the backends there are, and when the watchdog is shown them. -/
structure Refresh where
  hfp : Option (Snapshot WirePlumberBackendError HfpStatusSnapshot)
  audio : Option (Snapshot ScoNodeError AudioTransportState)
  now : ℕ

namespace SystemStatus

/-- The status with what the gateway's snapshot says, and its transport, if there is a gateway. -/
def takeHfp (status : SystemStatus) :
    Option (Snapshot WirePlumberBackendError HfpStatusSnapshot) →
      SystemStatus × Option AudioTransportState
  | none => (status, none)
  | some (.taken (.ok snapshot)) =>
    ({ status with hfpControl := snapshot.control, call := snapshot.call },
      some snapshot.transport)
  | some (.taken (.error .unavailable)) =>
    ({ status with hfpControl := .disconnected, call := .idle }, some .inactive)
  | some (.taken (.error _)) | some .taskFailed =>
    ({ status with hfpControl := .error, call := .error }, some .error)

/-- The audio state that the nodes and the gateway's transport agree on. -/
def agreedAudio (nodes : AudioTransportState) (hfpTransport : Option AudioTransportState) :
    AudioTransportState :=
  match nodes, hfpTransport with
  | .inactive, _ => .inactive
  | _, some .inactive => .inactive
  | .scoActive, some .scoActive => .scoActive
  | .scoActive, none => .scoActive
  | _, _ => .error

def takeAudio (status : SystemStatus) (hfpTransport : Option AudioTransportState) :
    Option (Snapshot ScoNodeError AudioTransportState) → SystemStatus
  | none => status
  | some (.taken (.ok nodes)) => { status with audio := agreedAudio nodes hfpTransport }
  | some (.taken (.error _)) | some .taskFailed => { status with audio := .error }

/-- The status as the snapshots leave it. -/
def takeSnapshots (status : SystemStatus) (refresh : Refresh) : SystemStatus :=
  (status.takeHfp refresh.hfp).1.takeAudio (status.takeHfp refresh.hfp).2 refresh.audio

def stalledError : RedactedError :=
  ⟨"sco_teardown_stalled", "call audio did not stop after the call ended"⟩

/-- The status as the watchdog's observation leaves it. -/
def takeObservation (status : SystemStatus) (observation : ScoTeardownObservation) :
    SystemStatus :=
  { status with
    audio := observation.state
    lastError :=
      if observation.stalled then some stalledError
      else if status.lastError.any fun error => error.code = "sco_teardown_stalled" then none
      else status.lastError }

end SystemStatus

/-- The status and its watchdog. -/
structure RuntimeStatus where
  status : SystemStatus
  watchdog : ScoTeardownWatchdog

/-- `refresh_runtime_status`, with what it shows to the watchdog. -/
def RuntimeStatus.refresh (s : RuntimeStatus) (refresh : Refresh) :
    ScoObserved × RuntimeStatus :=
  let status := s.status.takeSnapshots refresh
  let shown : ScoObserved := ⟨status.call, status.audio, refresh.now⟩
  (shown,
    ⟨status.takeObservation (s.watchdog.observe shown).1, (s.watchdog.observe shown).2⟩)

def runtimeStatus : Transducer RuntimeStatus Refresh ScoObserved := ⟨RuntimeStatus.refresh⟩

/-! ## Histories -/

/-- The unbroken run of observations at the end of a history in which audio goes on without a
call. -/
def unbrokenRun (history : List ScoObserved) : List ScoObserved :=
  history.rtakeWhile ScoObserved.inconsistent

/-- At the last of a history, the run that ends with it began the grace period ago or earlier. -/
def Stalled (grace : ℕ) (history : List ScoObserved) : Prop :=
  ∃ first last, (unbrokenRun history).head? = some first ∧ history.getLast? = some last ∧
    first.now + grace ≤ last.now

end AnalogConnect
