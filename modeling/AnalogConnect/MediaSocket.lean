import AnalogConnect.MediaAuth
import AnalogConnect.MediaStream

/-!
# Two media sockets on one bridge

Each media socket is a task: it resets the bridge, starts the live bridge, whose capture worker is a
thread of its own, and runs its receive loop beside its send loop until either ends. Then it drops
the live bridge, which stops and joins the worker, and last its lease. The tasks, the workers and
whoever uses the registry take steps in any order; a step is what one of them does between two
awaits, blocking reads, locks or atomic accesses. The send loop and the playback worker only take
frames, and all that counts of the send loop otherwise is that it may end.

The log of what was done to the queues is not the daemon's: it records whose frames are whose.
-/

namespace AnalogConnect

def maxMediaMessageBytes : ℕ := 264 * maxMediaFramesPerMessage

/-! ## The bridge -/

inductive AudioDirection
  | uplink
  | downlink
deriving DecidableEq

structure AudioBridge where
  uplink : BoundedAudioQueue
  downlink : BoundedAudioQueue

def AudioBridge.new (framesPerDirection : ℕ) : Except AudioQueueError AudioBridge :=
  match BoundedAudioQueue.new framesPerDirection, BoundedAudioQueue.new framesPerDirection with
  | .ok uplink, .ok downlink => .ok ⟨uplink, downlink⟩
  | .error error, _ => .error error
  | _, .error error => .error error

/-- One of the bridge's queues is changed. -/
def AudioBridge.modify (bridge : AudioBridge) (f : BoundedAudioQueue → BoundedAudioQueue) :
    AudioDirection → AudioBridge
  | .uplink => { bridge with uplink := f bridge.uplink }
  | .downlink => { bridge with downlink := f bridge.downlink }

/-! ## One task -/

/-- Where the receive loop is: at its check of the lease, waiting for a message, with frames to
push, or handing a pong to the send loop. -/
inductive ReceivePhase
  | checking
  | awaiting
  | pushing (frames : List AudioFrame)
  | replying
deriving DecidableEq

/-- Where the task is. `resetting` is between the two queues' resets, and `spawned` has a capture
worker but no live bridge yet; `leaving` is past both loops or a failed start, and `joining` has
told the worker to stop. -/
inductive MediaPhase
  | waiting
  | claimed
  | resetting
  | starting
  | spawned
  | running (receive : ReceivePhase)
  | leaving
  | joining
  | ended
deriving DecidableEq

/-- Where the capture worker is: not there yet, at its check of the flag, reading, with a frame to
push, or gone. -/
inductive CapturePhase
  | absent
  | checking
  | reading
  | pushing (frame : AudioFrame)
  | ended
deriving DecidableEq

structure MediaTask where
  phase : MediaPhase
  capture : CapturePhase
  stop : Bool

/-- What the client's side gives; `other` is a close, a pong, a text, an error or the end. -/
inductive SocketMessage
  | binary (packet : List UInt8)
  | ping
  | other

inductive MediaTaskEvent
  | resetUplink
  | resetDownlink
  | spawn
  | started
  | startFails
  | check
  | receive (message : SocketMessage)
  | push (now : ℕ)
  | reply (sent : Bool)
  | sendLoopEnds
  | stop
  | join
  | captureCheck
  | captureRead (frame : Option AudioFrame)
  | capturePush (now : ℕ)

/-- What a step does outside its task. -/
inductive MediaEffect
  | silent
  | reset (direction : AudioDirection)
  | push (direction : AudioDirection) (frame : AudioFrame) (now : ℕ)
  | dropLease

namespace MediaTask

/-- The receive loop's turn for a message. -/
def received : SocketMessage → MediaPhase
  | .binary packet =>
    if packet.length ≤ maxMediaMessageBytes then
      match decodeAudioBatch packet with
      | .ok frames => .running (.pushing frames)
      | .error _ => .leaving
    else .leaving
  | .ping => .running .replying
  | .other => .leaving

/-- A step of the task or of its worker, where `leaseIsActive` is what the lease says now. -/
def step (task : MediaTask) (leaseIsActive : Bool) :
    MediaTaskEvent → Option (MediaTask × MediaEffect)
  | .resetUplink =>
    match task.phase with
    | .claimed => some ({ task with phase := .resetting }, .reset .uplink)
    | _ => none
  | .resetDownlink =>
    match task.phase with
    | .resetting => some ({ task with phase := .starting }, .reset .downlink)
    | _ => none
  | .spawn =>
    match task.phase with
    | .starting => some ({ phase := .spawned, capture := .checking, stop := false }, .silent)
    | _ => none
  | .started =>
    match task.phase with
    | .spawned => some ({ task with phase := .running .checking }, .silent)
    | _ => none
  | .startFails =>
    match task.phase with
    | .starting => some ({ task with phase := .leaving, capture := .ended }, .silent)
    | .spawned => some ({ task with phase := .leaving }, .silent)
    | _ => none
  | .check =>
    match task.phase with
    | .running .checking =>
      some ({ task with phase := if leaseIsActive then .running .awaiting else .leaving }, .silent)
    | _ => none
  | .receive message =>
    match task.phase with
    | .running .awaiting => some ({ task with phase := received message }, .silent)
    | _ => none
  | .push now =>
    match task.phase with
    | .running (.pushing (frame :: frames)) =>
      some ({ task with phase := .running (.pushing frames) }, .push .uplink frame now)
    | .running (.pushing []) => some ({ task with phase := .running .checking }, .silent)
    | _ => none
  | .reply sent =>
    match task.phase with
    | .running .replying =>
      some ({ task with phase := if sent then .running .checking else .leaving }, .silent)
    | _ => none
  | .sendLoopEnds => -- the receive loop is dropped where it awaits, or before its first turn
    match task.phase with
    | .spawned => some ({ task with phase := .leaving }, .silent)
    | .running .awaiting => some ({ task with phase := .leaving }, .silent)
    | .running .replying => some ({ task with phase := .leaving }, .silent)
    | _ => none
  | .stop =>
    match task.phase with
    | .leaving => some ({ task with phase := .joining, stop := true }, .silent)
    | _ => none
  | .join =>
    match task.phase, task.capture with
    | .joining, .ended => some ({ task with phase := .ended }, .dropLease)
    | _, _ => none
  | .captureCheck =>
    match task.capture with
    | .checking =>
      some ({ task with capture := if task.stop then .ended else .reading }, .silent)
    | _ => none
  | .captureRead frame =>
    match task.capture, frame with
    | .reading, some frame => some ({ task with capture := .pushing frame }, .silent)
    | .reading, none => some ({ task with capture := .ended }, .silent)
    | _, _ => none
  | .capturePush now =>
    match task.capture with
    | .pushing frame => some ({ task with capture := .checking }, .push .downlink frame now)
    | _ => none

end MediaTask

/-! ## The two tasks -/

inductive MediaParty
  | first
  | second
deriving DecidableEq

/-- The party's place in the registry. -/
def MediaParty.index : MediaParty → ℕ
  | .first => 0
  | .second => 1

/-- What was done to the queues, and by whom. -/
inductive BridgeRecord
  | reset (party : MediaParty) (direction : AudioDirection)
  | push (party : MediaParty) (direction : AudioDirection) (frame : AudioFrame)
deriving DecidableEq

structure MediaBridgeState where
  sessions : MediaSessionState
  bridge : AudioBridge
  task : MediaParty → MediaTask
  log : List BridgeRecord

/-- The registry is used, a frame is taken, a claimed socket is upgraded, or a task steps. -/
inductive MediaBridgeEvent
  | session (event : MediaSessionEvent)
  | pop (direction : AudioDirection) (now : ℕ)
  | upgrade (party : MediaParty)
  | task (party : MediaParty) (event : MediaTaskEvent)

namespace MediaBridgeState

def start (bridge : AudioBridge) : MediaBridgeState where
  sessions := .start
  bridge := bridge
  task _ := ⟨.waiting, .absent, false⟩
  log := []

def setTask (s : MediaBridgeState) (party : MediaParty) (task : MediaTask) : MediaBridgeState :=
  { s with task := fun p => if p = party then task else s.task p }

/-- A lease is the task's own to drop while there is a task. -/
def owned (s : MediaBridgeState) : MediaSessionEvent → Bool
  | .drop index =>
    [MediaParty.first, MediaParty.second].any fun party =>
      party.index = index && (s.task party).phase ≠ .waiting && (s.task party).phase ≠ .ended
  | _ => false

def apply (s : MediaBridgeState) (party : MediaParty) : MediaEffect → Option MediaBridgeState
  | .silent => some s
  | .reset direction =>
    some
      { s with
        bridge := s.bridge.modify BoundedAudioQueue.reset direction
        log := s.log ++ [.reset party direction] }
  | .push direction frame now =>
    some
      { s with
        bridge := s.bridge.modify (·.push frame now) direction
        log := s.log ++ [.push party direction frame] }
  | .dropLease =>
    (s.sessions.step (.drop party.index)).map fun sessions => { s with sessions }

def step (s : MediaBridgeState) : MediaBridgeEvent → Option MediaBridgeState
  | .session event =>
    if s.owned event then none
    else (s.sessions.step event).map fun sessions => { s with sessions }
  | .pop direction now =>
    some { s with bridge := s.bridge.modify (fun queue => (queue.pop now).2) direction }
  | .upgrade party =>
    match (s.task party).phase, s.sessions.party party.index with
    | .waiting, .leased _ => some (s.setTask party ⟨.claimed, .absent, false⟩)
    | _, _ => none
  | .task party event =>
    match (s.task party).step (s.sessions.leaseIsActive party.index) event with
    | none => none
    | some (task, effect) => (s.setTask party task).apply party effect

end MediaBridgeState

def mediaBridges : Lts MediaBridgeState MediaBridgeEvent := ⟨MediaBridgeState.step⟩

end AnalogConnect
