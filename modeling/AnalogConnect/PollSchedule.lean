import AnalogConnect.Library.Transducer
import AnalogConnect.MessageSync

/-!
# The poll scheduler over time

The scheduler as a transducer of notifications and ticks, and what its trace says by itself: when
the last notification came and which ticks have been since, and when the last poll was.
-/

namespace AnalogConnect

inductive SchedulerEvent
  | notification (now : ℕ) (wireName : String)
  | tick (now : ℕ)
deriving DecidableEq

def SchedulerEvent.time : SchedulerEvent → ℕ
  | .notification now _ => now
  | .tick now => now

def scheduler : Transducer MessageSyncScheduler SchedulerEvent (Option SyncTrigger) where
  step s
    | .notification now wireName => s.notification now wireName
    | .tick now => s.tick now

abbrev SchedulerTrace := List (SchedulerEvent × Option SyncTrigger)

namespace SchedulerTrace

/-- The time of the last notification, and of the ticks since. -/
def lastNotification (past : SchedulerTrace) : Option (ℕ × List ℕ) :=
  past.foldl (fun last record =>
    match record.1 with
    | .notification now _ => some (now, [])
    | .tick now => last.map fun (notified, ticks) => (notified, ticks ++ [now])) none

/-- The time of the last poll. -/
def lastPoll (past : SchedulerTrace) : Option ℕ :=
  past.foldl (fun last record =>
    match record with
    | (.tick now, some .poll) => some now
    | _ => last) none

/-- No notification has arrived, or one of the ticks since the last found it `timeout` ago. -/
def Silent (timeout : ℕ) (past : SchedulerTrace) (ticks : List ℕ) : Prop :=
  ∀ last since, lastNotification past = some (last, since) →
    ∃ now ∈ since ++ ticks, last + timeout ≤ now

/-- `now` is an interval after the last poll and the last notification; the sum of two `Duration`s
is at most `Duration::MAX`. -/
def Due (pollInterval : ℕ) (past : SchedulerTrace) (now : ℕ) : Prop :=
  ∀ last, (lastPoll past = some last ∨ (lastNotification past).map Prod.fst = some last) →
    min (last + pollInterval) durationMax ≤ now

/-- What a trace shows of the polls in it. -/
structure Lawful (pollInterval timeout : ℕ) (trace : SchedulerTrace) : Prop where
  poll_iff : ∀ past now answer future, trace = past ++ (.tick now, answer) :: future →
    (answer = some .poll ↔ Silent timeout past [now] ∧ Due pollInterval past now)
  spaced : ∀ past a between b future,
    trace = past ++ (.tick a, some .poll) :: between ++ (.tick b, some .poll) :: future →
      min (a + pollInterval) durationMax ≤ b
  suspended : ∀ past n wireName answer between b future,
    trace = past ++ (.notification n wireName, answer) :: between ++
        (.tick b, some .poll) :: future →
      ∃ now answer, (.tick now, answer) ∈ between ++ [(SchedulerEvent.tick b, some .poll)] ∧
        n + timeout ≤ now

end SchedulerTrace

end AnalogConnect
