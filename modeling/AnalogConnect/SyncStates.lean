import Mathlib.Data.Set.Basic

/-!
# Synchronization states

The state machine that message and contact synchronization share, under two names. A state may
always be set again.
-/

namespace AnalogConnect

inductive SyncState
  | idle
  | syncing
  | backingOff
  | error
deriving DecidableEq

abbrev MessageSyncState : Type := SyncState

abbrev ContactSyncState : Type := SyncState

structure TransitionError where
  machine : String
  «from» : String
  «to» : String
deriving DecidableEq

namespace SyncState

def name : SyncState → String
  | .idle => "idle"
  | .syncing => "syncing"
  | .backingOff => "backing_off"
  | .error => "error"

def allowed (state next : SyncState) : Bool :=
  match state, next with
  | .idle, .syncing | .idle, .error => true
  | .syncing, .idle | .syncing, .backingOff | .syncing, .error => true
  | .backingOff, .syncing | .backingOff, .idle | .backingOff, .error => true
  | .error, .idle | .error, .backingOff => true
  | _, _ => state = next

/-- `transition_to`, of the machine named. -/
def transitionTo (machine : String) (state next : SyncState) : Except TransitionError SyncState :=
  if state.allowed next then .ok next else .error ⟨machine, state.name, next.name⟩

/-- A synchronization can start from every state but an error. -/
theorem allowed_syncing_iff (state : SyncState) :
    state.allowed .syncing = true ↔ state ≠ .error := by
  cases state <;> simp [allowed]

theorem allowed_of_syncing (next : SyncState) : SyncState.allowed .syncing next = true := by
  cases next <;> rfl

end SyncState

end AnalogConnect
