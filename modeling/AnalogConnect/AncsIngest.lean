import AnalogConnect.AncsGroups
import AnalogConnect.MessageStore
import AnalogConnect.Library.Transducer

/-!
# Feeding notifications and recent messages to the correlator

Each notification is offered to the correlator, a message sync is asked for, and then the recent
messages of the store are offered, each handle once. Whatever can fail on the way is given to the
call: the contact lookup of a message, the application of a result, the sync, the listing.
-/

namespace AnalogConnect

/-- What is read of a listed message. -/
structure RecentMessage where
  mapHandle : String
  direction : Direction
  address : String
  syncedAt : Int64

/-- What comes of a message: the display name looked up for its address, and whether the
correlator's result could be applied. -/
structure MessageOutcome where
  displayName : Except Unit (Option String)
  applied : Bool

/-- What the conversation repository gives: no store, a listing that fails, or the messages. -/
inductive RecentListing
  | unavailable
  | failed
  | listed (messages : List (RecentMessage × MessageOutcome))

structure AncsIngest where
  ancsCorrelator : AncsMapCorrelator
  ancsSeenMapHandles : List String

/-- What a call comes to: whether it returns `Ok`, and the messages it offered. -/
structure IngestOutcome where
  ok : Bool
  offered : List PendingMapMessage

/-- A notification received, whether the correlator's result for it could be applied, whether the
message sync could be asked for, and the messages then listed. -/
structure Ingest where
  notification : PendingAncsNotification
  applied : Bool
  notified : Bool
  recent : RecentListing

/-- A received message synced within thirty seconds of the observation. -/
def RecentMessage.isRecent (message : RecentMessage) (observed : Int64) : Bool :=
  !(message.direction ≠ .received || absDiff message.syncedAt observed > 30000)

namespace AncsIngest

def new : AncsIngest := ⟨.new 15000, []⟩

variable (text : AncsText)

/-- The loop of `correlate_recent_map_messages`. -/
def correlateMessages (observed : Int64) :
    AncsIngest → List (RecentMessage × MessageOutcome) → IngestOutcome × AncsIngest
  | s, [] => (⟨true, []⟩, s)
  | s, (message, outcome) :: messages =>
    if !message.isRecent observed then correlateMessages observed s messages
    else if message.mapHandle ∈ s.ancsSeenMapHandles then correlateMessages observed s messages
    else
      let s := { s with
        ancsSeenMapHandles :=
          Window.keepNewest 256 (s.ancsSeenMapHandles ++ [message.mapHandle]) }
      match outcome.displayName with
      | .error _ => (⟨false, []⟩, s)
      | .ok displayName =>
        let pending : PendingMapMessage :=
          { mapHandle := message.mapHandle
            sender := message.address
            senderDisplayName := displayName
            observedUnixMillis := message.syncedAt }
        let s := { s with ancsCorrelator := (s.ancsCorrelator.correlateMap text pending).2 }
        if outcome.applied then
          let (rest, s) := correlateMessages observed s messages
          ({ rest with offered := pending :: rest.offered }, s)
        else (⟨false, [pending]⟩, s)

def correlateRecentMapMessages (s : AncsIngest) (observed : Int64) :
    RecentListing → IngestOutcome × AncsIngest
  | .unavailable => (⟨true, []⟩, s)
  | .failed => (⟨false, []⟩, s)
  | .listed messages => correlateMessages text observed s messages

def ingestAncsMetadata (s : AncsIngest) (ingest : Ingest) : IngestOutcome × AncsIngest :=
  let (result, ancsCorrelator) := s.ancsCorrelator.observeAncs text ingest.notification
  let s := { s with ancsCorrelator }
  if result.isSome && !ingest.applied then (⟨false, []⟩, s)
  else if !ingest.notified then (⟨false, []⟩, s)
  else correlateRecentMapMessages text s ingest.notification.observedUnixMillis ingest.recent

end AncsIngest

/-- One notification after another. -/
def ancsIngests (text : AncsText) : Transducer AncsIngest Ingest IngestOutcome :=
  ⟨AncsIngest.ingestAncsMetadata text⟩

end AnalogConnect
