import AnalogConnect.Library.Runs

/-!
# A call as Android's Telecom sees it

A connection is worked on by three threads: Telecom's, which brings its callbacks; the monitor's,
which dials and then polls the bridge; and the one that sends commands. They share the flag `closed`
and the field `audioSession`, and run in any order, an access of either at a time. What a request
comes to is given to each step; a log keeps what was done to the call and to its audio session.
-/

namespace AnalogConnect

inductive DisconnectCause
  | «local»
  | remote
  | error
deriving DecidableEq

/-- The steps of a teardown, each before it is done. -/
inductive Teardown
  | readAudio
  | clearAudio (current : Option ℕ)
  | closeAudio (current : Option ℕ)
  | setDisconnected
  | destroy
  | shutMonitor
  | shutCommands
  | done
deriving DecidableEq

/-- What the loop of `monitor` remembers. -/
structure Polls where
  progressed : Bool
  idlePolls : ℕ
deriving DecidableEq

/-- Where the thread of `monitorExecutor` is. -/
inductive MonitorPc
  | queued
  | dialing
  | whileOpen (polls : Polls)
  | callState (polls : Polls)
  | readAudio (polls : Polls)
  | readClosed (polls : Polls)
  | connect (polls : Polls)
  | recheck (polls : Polls) (created : ℕ)
  | store (polls : Polls) (created : ℕ)
  | sleep (polls : Polls)
  | remoteEnded
  | fail
  | ending (cause : DisconnectCause) (teardown : Teardown)
  | finished
deriving DecidableEq

/-- Where Telecom's thread is: between callbacks, or about to hand a task to `commandExecutor`. -/
inductive MainPc
  | idle
  | finishing
  | toning (tone : Char)
deriving DecidableEq

inductive CommandTask
  | sendDtmf (tone : Char)
  | finish
deriving DecidableEq

/-- Where the thread of `commandExecutor` is. -/
inductive CommandPc
  | idle
  | toning (tone : Char)
  | hangingUp
  | ending (teardown : Teardown)
deriving DecidableEq

inductive TelecomAction
  | setDialing
  | setActive
  /-- An audio session connected but did not start; nothing holds it any more. -/
  | dropped
  | started (session : ℕ)
  | stored (session : ℕ)
  | took (session : Option ℕ)
  | closed (session : ℕ)
  | hangUp
  | setDisconnected (cause : DisconnectCause)
  | destroyed
  | rejected (task : CommandTask)
deriving DecidableEq

structure TelecomConnection where
  closed : Bool
  audioSession : Option ℕ
  /-- How many audio sessions were started. -/
  sessions : ℕ
  monitor : MonitorPc
  main : MainPc
  command : CommandPc
  queue : List CommandTask
  monitorShut : Bool
  commandShut : Bool
  log : List TelecomAction

/-- What a request of the monitor, or its sleep, comes to. -/
inductive MonitorOutcome
  | done
  | state (callState : String)
  | threw
  /-- `AndroidCallAudioSession.connect` returned, `setSpeakerphone` or `start` threw. -/
  | startThrew

inductive TelecomEvent
  | onDisconnect
  | onPlayDtmfTone (tone : Char)
  | main
  | monitor (outcome : MonitorOutcome)
  | command

def startupPolls : ℕ := 20

namespace TelecomConnection

/-- `dial` on a new connection. -/
def dial : TelecomConnection :=
  ⟨false, none, 0, .queued, .idle, .idle, [], false, false, [.setDialing]⟩

def did (c : TelecomConnection) (action : TelecomAction) : TelecomConnection :=
  { c with log := c.log ++ [action] }

def close (c : TelecomConnection) : Option ℕ → TelecomConnection
  | some session => c.did (.closed session)
  | none => c

/-- `ExecutorService.shutdownNow` of the monitor's: what has not begun does not begin. -/
def shutMonitor (c : TelecomConnection) : TelecomConnection :=
  { c with monitorShut := true, monitor := if c.monitor = .queued then .finished else c.monitor }

/-- A step of a teardown, and the next. -/
def tearDown (cause : DisconnectCause) (c : TelecomConnection) :
    Teardown → Teardown × TelecomConnection
  | .readAudio => (.clearAudio c.audioSession, c.did (.took c.audioSession))
  | .clearAudio current => (.closeAudio current, { c with audioSession := none })
  | .closeAudio current => (.setDisconnected, c.close current)
  | .setDisconnected => (.destroy, c.did (.setDisconnected cause))
  | .destroy => (.shutMonitor, c.did .destroyed)
  | .shutMonitor => (.shutCommands, c.shutMonitor)
  | .shutCommands =>
    -- only `finishLocally`, itself a task of this executor, lets queued tasks go on
    (.done,
      { c with commandShut := true, queue := if cause = .local then c.queue else [] })
  | .done => (.done, c)

/-- What `monitor` does with a call state. -/
def afterPoll (c : TelecomConnection) (polls : Polls) (callState : String) : TelecomConnection :=
  if callState = "active" then
    { c.did .setActive with monitor := .readAudio { polls with progressed := true } }
  else if callState = "dialing" then
    { c.did .setDialing with monitor := .sleep { polls with progressed := true } }
  else if callState = "ended" ∨ callState = "error" ∨ (polls.progressed ∧ callState = "idle") then
    { c with monitor := .remoteEnded }
  else if polls.progressed = false ∧ callState = "idle" then
    let polls := { polls with idlePolls := polls.idlePolls + 1 }
    if polls.idlePolls ≥ startupPolls then { c with monitor := .fail }
    else { c with monitor := .sleep polls }
  else { c with monitor := .sleep polls }

/-- `compareAndSet(false, true)` on the monitor's thread. -/
def claim (c : TelecomConnection) (cause : DisconnectCause) : TelecomConnection :=
  if c.closed then { c with monitor := .finished }
  else { c with closed := true, monitor := .ending cause .readAudio }

def monitorStep (c : TelecomConnection) (outcome : MonitorOutcome) : Option TelecomConnection :=
  match c.monitor with
  | .queued => some { c with monitor := .dialing }
  | .dialing =>
    match outcome with
    | .done => some { c with monitor := .whileOpen ⟨false, 0⟩ }
    | .threw => some { c with monitor := .fail }
    | .state _ | .startThrew => none
  | .whileOpen polls =>
    some { c with monitor := if c.closed then .finished else .callState polls }
  | .callState polls =>
    match outcome with
    | .state callState => some (c.afterPoll polls callState)
    | .threw => some { c with monitor := .fail }
    | .done | .startThrew => none
  | .readAudio polls =>
    some { c with monitor := if c.audioSession = none then .readClosed polls else .sleep polls }
  | .readClosed polls =>
    some { c with monitor := if c.closed then .sleep polls else .connect polls }
  | .connect polls =>
    match outcome with
    | .done =>
      some
        { c.did (.started c.sessions) with
          sessions := c.sessions + 1
          monitor := .recheck polls c.sessions }
    | .threw => some { c with monitor := .sleep polls }
    | .startThrew => some { c.did .dropped with monitor := .sleep polls }
    | .state _ => none
  | .recheck polls created =>
    if c.closed then some { c.did (.closed created) with monitor := .sleep polls }
    else some { c with monitor := .store polls created }
  | .store polls created =>
    some
      { c.did (.stored created) with audioSession := some created, monitor := .sleep polls }
  | .sleep polls =>
    match outcome with
    | .done => some { c with monitor := .whileOpen polls }
    | .threw => if c.monitorShut then some { c with monitor := .fail } else none
    | .state _ | .startThrew => none
  | .remoteEnded => some (c.claim .remote)
  | .fail => some (c.claim .error)
  | .ending _ .done => none
  | .ending cause teardown =>
    some { (c.tearDown cause teardown).2 with
      monitor := .ending cause (c.tearDown cause teardown).1 }
  | .finished => none

/-- `commandExecutor.execute`, which refuses a task after the shutdown. -/
def execute (c : TelecomConnection) (task : CommandTask) : TelecomConnection :=
  if c.commandShut then c.did (.rejected task) else { c with queue := c.queue ++ [task] }

def mainStep (c : TelecomConnection) : Option TelecomConnection :=
  match c.main with
  | .idle => none
  | .finishing => some { c.execute .finish with main := .idle }
  | .toning tone => some { c.execute (.sendDtmf tone) with main := .idle }

def commandStep (c : TelecomConnection) : Option TelecomConnection :=
  match c.command with
  | .idle =>
    match c.queue with
    | [] => none
    | .sendDtmf tone :: queue => some { c with queue, command := .toning tone }
    | .finish :: queue => some { c with queue, command := .hangingUp }
  | .toning _ => some { c with command := .idle }
  -- whether or not the bridge takes the command
  | .hangingUp => some { c.did .hangUp with command := .ending .readAudio }
  -- no task comes after `finish`
  | .ending .done => none
  | .ending teardown =>
    some { (c.tearDown .local teardown).2 with command := .ending (c.tearDown .local teardown).1 }

def step (c : TelecomConnection) : TelecomEvent → Option TelecomConnection
  | .onDisconnect =>
    if c.main ≠ .idle then none
    else if c.closed then some c
    else some { c with closed := true, main := .finishing }
  | .onPlayDtmfTone tone =>
    if c.main ≠ .idle then none
    else if c.closed then some c
    else some { c with main := .toning tone }
  | .main => c.mainStep
  | .monitor outcome => c.monitorStep outcome
  | .command => c.commandStep

end TelecomConnection

def telecomConnection : Lts TelecomConnection TelecomEvent := ⟨TelecomConnection.step⟩

end AnalogConnect
