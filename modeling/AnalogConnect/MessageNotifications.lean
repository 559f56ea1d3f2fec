import Mathlib.Logic.Function.Basic
import AnalogConnect.Library.Transducer
import AnalogConnect.PhonePages

/-!
# Message notifications

The phone polls the page of conversations and shows a notification for those the tracker finds
changed. It keeps the latest time of each conversation, as it was polled last.
-/

namespace AnalogConnect

structure MessageNotificationTracker where
  latest : String → Option ℤ
  initialized : Bool

namespace MessageNotificationTracker

def new : MessageNotificationTracker where
  latest := fun _ => none
  initialized := false

/-- The loop over the items, each put before it is judged. -/
def collect (initialized : Bool) :
    (String → Option ℤ) → List ConversationSummary → List ConversationSummary × (String → Option ℤ)
  | latest, [] => ([], latest)
  | latest, item :: items =>
    let previous := latest item.id
    let (changed, latest) :=
      collect initialized (Function.update latest item.id (some item.latestUnixMillis)) items
    if initialized ∧ 0 < item.unreadCount ∧ ¬ item.latestSent ∧
        ∀ time ∈ previous, time < item.latestUnixMillis then
      (item :: changed, latest)
    else (changed, latest)

def update (tracker : MessageNotificationTracker) (conversations : List ConversationSummary) :
    List ConversationSummary × MessageNotificationTracker :=
  let (changed, latest) := collect tracker.initialized tracker.latest conversations
  (changed, { latest, initialized := true })

/-- The polls of a monitor. -/
def polls : Transducer MessageNotificationTracker (List ConversationSummary)
    (List ConversationSummary) where
  step := update

/-- All that is shown for the pages polled. -/
def shown (pages : List (List ConversationSummary)) : List ConversationSummary :=
  (polls.trace new pages).flatMap (·.2)

end MessageNotificationTracker

end AnalogConnect
