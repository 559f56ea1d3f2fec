import AnalogConnect.AncsIngest
import AnalogConnect.Library.MarkedWork
import AnalogConnect.Proofs.AncsGroups

/-!
# What becomes of a recent message

A message's handle is marked as seen before its contact is looked up, so it is work marked before
it is done (`MarkedWork.work`). A lookup that fails leaves the message seen and never offered, and
later calls pass over it. Short of that nothing is lost (`ancs_ingest_loses_none_iff`): what is
seen has been offered, and a call that ends well has offered all of its messages.
-/

namespace AnalogConnect

open MarkedWork

/-- A message's lookup is what can be refused before it is offered. -/
def MessageOutcome.attempt (outcome : MessageOutcome) : Attempt :=
  match outcome.displayName with
  | .error _ => .refused
  | .ok _ => if outcome.applied then .done else .failed

/-- The recent messages of a listing, as items of work. -/
def attempts (observed : Int64) (messages : List (RecentMessage × MessageOutcome)) :
    List (String × Attempt) :=
  (messages.filter fun (message, _) => message.isRecent observed).map fun (message, outcome) =>
    (message.mapHandle, outcome.attempt)

def IngestOutcome.handles (outcome : IngestOutcome) : List String :=
  outcome.offered.map (·.mapHandle)

namespace AncsIngest

variable {text : AncsText} {s : AncsIngest} {observed : Int64}

/-- The loop works through its recent messages by their handles. -/
structure Works (r : IngestOutcome × AncsIngest) (w : Outcome String) : Prop where
  ok : r.1.ok = w.ok
  handles : r.1.handles = w.worked
  seen : r.2.ancsSeenMapHandles = w.marked

theorem correlateMessages_works (observed : Int64) :
    ∀ (messages : List (RecentMessage × MessageOutcome)) (s : AncsIngest),
      Works (correlateMessages text observed s messages)
        (work 256 s.ancsSeenMapHandles (attempts observed messages))
  | [], _ => ⟨rfl, rfl, rfl⟩
  | (message, outcome) :: messages, s => by
    have hitems : attempts observed ((message, outcome) :: messages) =
        if message.isRecent observed then
          (message.mapHandle, outcome.attempt) :: attempts observed messages
        else attempts observed messages := by
      unfold attempts
      rw [List.filter_cons]
      split_ifs <;> rfl
    rw [hitems, correlateMessages]
    by_cases hrecent : message.isRecent observed = true
    · rw [if_neg (by simp [hrecent]), if_pos hrecent]
      by_cases hseen : message.mapHandle ∈ s.ancsSeenMapHandles
      · rw [if_pos hseen, work_of_marked hseen]
        exact correlateMessages_works observed messages s
      · rw [if_neg hseen]
        unfold MessageOutcome.attempt
        cases outcome.displayName with
        | error e =>
          rw [work_refused hseen]
          exact ⟨rfl, rfl, rfl⟩
        | ok displayName =>
          by_cases happlied : outcome.applied = true
          · simp only [if_pos happlied]
            rw [work_done hseen]
            have hrest := correlateMessages_works observed messages
              ⟨(s.ancsCorrelator.correlateMap text ⟨message.mapHandle, message.address, displayName,
                message.syncedAt⟩).2,
                Window.keepNewest 256 (s.ancsSeenMapHandles ++ [message.mapHandle])⟩
            generalize work 256 (Window.keepNewest 256
              (s.ancsSeenMapHandles ++ [message.mapHandle])) (attempts observed messages) = w
              at hrest ⊢
            generalize correlateMessages text observed _ messages = r at hrest ⊢
            exact ⟨hrest.ok, congrArg (message.mapHandle :: ·) hrest.handles, hrest.seen⟩
          · simp only [if_neg happlied]
            rw [work_failed hseen]
            exact ⟨rfl, rfl, rfl⟩
    · rw [if_pos (by simp [hrecent]), if_neg hrecent]
      exact correlateMessages_works observed messages s

/-- The items of work of a call of `correlate_recent_map_messages`. -/
def listingAttempts (observed : Int64) : RecentListing → List (String × Attempt)
  | .unavailable => []
  | .failed => []
  | .listed messages => attempts observed messages

/-- The items that an ingest comes to: none where it returns before the messages are listed. -/
def ingestAttempts (text : AncsText) (s : AncsIngest) (ingest : Ingest) :
    List (String × Attempt) :=
  if ((s.ancsCorrelator.observeAncs text ingest.notification).1 = none ∨ ingest.applied) ∧
      ingest.notified then
    listingAttempts ingest.notification.observedUnixMillis ingest.recent
  else []

theorem correlateRecentMapMessages_works (s : AncsIngest) (listing : RecentListing) :
    let r := correlateRecentMapMessages text s observed listing
    let w := work 256 s.ancsSeenMapHandles (listingAttempts observed listing)
    r.1.handles = w.worked ∧ r.2.ancsSeenMapHandles = w.marked := by
  cases listing with
  | unavailable => exact ⟨rfl, rfl⟩
  | failed => exact ⟨rfl, rfl⟩
  | listed messages =>
    have hworks := @correlateMessages_works text observed messages s
    exact ⟨hworks.handles, hworks.seen⟩

/-- Whatever else an ingest does, it works through its items. -/
theorem ingestAncsMetadata_works (s : AncsIngest) (ingest : Ingest) :
    let r := ingestAncsMetadata text s ingest
    let w := work 256 s.ancsSeenMapHandles (ingestAttempts text s ingest)
    r.1.handles = w.worked ∧ r.2.ancsSeenMapHandles = w.marked := by
  unfold ingestAncsMetadata ingestAttempts
  rcases hresult : s.ancsCorrelator.observeAncs text ingest.notification with ⟨result, correlator⟩
  simp only
  by_cases happlied : result = none ∨ ingest.applied = true
  · have hgo : ¬ (result.isSome && !ingest.applied) = true := by
      rcases happlied with rfl | happlied
      · simp
      · simp [happlied]
    rw [if_neg hgo]
    by_cases hnotified : ingest.notified = true
    · rw [if_neg (by simp [hnotified]), if_pos ⟨happlied, hnotified⟩]
      exact correlateRecentMapMessages_works ⟨correlator, s.ancsSeenMapHandles⟩ ingest.recent
    · rw [if_pos (by simp [hnotified]), if_neg fun h => hnotified h.2]
      exact ⟨rfl, rfl⟩
  · obtain ⟨hresult, hrefused⟩ := not_or.1 happlied
    rw [if_pos (by simp [Option.isSome_iff_ne_none, hresult, hrefused]),
      if_neg fun h => happlied h.1]
    exact ⟨rfl, rfl⟩

/-- What is seen has been offered. -/
def SeenOffered (s : AncsIngest) (offered : List String) : Prop :=
  ∀ handle ∈ s.ancsSeenMapHandles, handle ∈ offered

/-- A call that ends well, whatever it lists, leaves no recent message of its list not offered. -/
def LeavesNone (text : AncsText) (s : AncsIngest) (offered : List String) : Prop :=
  ∀ observed messages,
    let r := correlateRecentMapMessages text s observed (.listed messages)
    r.1.ok = true → ∀ message outcome, (message, outcome) ∈ messages →
      message.isRecent observed = true → message.mapHandle ∈ offered ++ r.1.handles

theorem SeenOffered.leavesNone {offered : List String} (h : s.SeenOffered offered) :
    s.LeavesNone text offered := by
  intro observed messages r hok message outcome hmem hrecent
  have hworks : Works r _ := correlateMessages_works observed messages s
  have hitem : (message.mapHandle, outcome.attempt) ∈ attempts observed messages :=
    List.mem_map.2 ⟨(message, outcome), List.mem_filter.2 ⟨hmem, hrecent⟩, rfl⟩
  rw [hworks.ok] at hok
  rw [hworks.handles]
  exact worked_of_ok h hok _ hitem

/-- An ingest keeps what is seen offered exactly when no lookup it comes to fails, but for messages
offered before. -/
theorem seenOffered_step_iff {offered : List String} (h : s.SeenOffered offered)
    (ingest : Ingest) :
    (ingestAncsMetadata text s ingest).2.SeenOffered
        (offered ++ (ingestAncsMetadata text s ingest).1.handles) ↔
      NoneRefused 256 s.ancsSeenMapHandles offered (ingestAttempts text s ingest) := by
  obtain ⟨hhandles, hseen⟩ := @ingestAncsMetadata_works text s ingest
  unfold SeenOffered
  rw [hhandles, hseen]
  exact marked_worked_iff (by decide) h

end AncsIngest

open AncsIngest

/-- The handles of the messages offered so far. -/
def offeredBy (past : List (Ingest × IngestOutcome)) : List String :=
  past.flatMap fun r => r.2.handles

/-- On the way of a run no message is lost exactly when, of the recent messages a call comes to
without having seen them, each has its contact looked up or was offered before. -/
theorem ancs_ingest_loses_none_iff (text : AncsText) (ingests : List Ingest) :
    (∀ past, past <+: ingests →
      let s := (ancsIngests text).after .new past
      let offered := offeredBy ((ancsIngests text).trace .new past)
      s.SeenOffered offered ∧ s.LeavesNone text offered) ↔
    ∀ past ingest future, ingests = past ++ ingest :: future →
      let s := (ancsIngests text).after .new past
      NoneRefused 256 s.ancsSeenMapHandles (offeredBy ((ancsIngests text).trace .new past))
        (ingestAttempts text s ingest) := by
  have hnew : AncsIngest.new.SeenOffered [] := fun _ h => absurd h List.not_mem_nil
  refine (ancsIngests text).history_iff
    (P := fun past s => s.SeenOffered (offeredBy past) ∧ s.LeavesNone text (offeredBy past))
    (C := fun past s ingest =>
      NoneRefused 256 s.ancsSeenMapHandles (offeredBy past) (ingestAttempts text s ingest))
    ⟨hnew, hnew.leavesNone⟩ fun past s ingest hpast => ?_
  have hoffered : offeredBy (past ++ [(ingest, ((ancsIngests text).step s ingest).1)]) =
      offeredBy past ++ (ingestAncsMetadata text s ingest).1.handles := by
    unfold offeredBy
    rw [List.flatMap_append, List.flatMap_singleton]
    rfl
  rw [hoffered, ← seenOffered_step_iff hpast.1]
  exact ⟨fun hall => hall.1, fun hseen => ⟨hseen, hseen.leavesNone⟩⟩

/-- A notification, and the one recent message with its looked-up name. -/
def ingestOf (displayName : Except Unit (Option String)) : Ingest where
  notification := notificationFrom "Alpha"
  applied := true
  notified := true
  recent := .listed [(⟨"7", .received, "+12025550101", 0⟩, ⟨displayName, true⟩)]

/-- A message whose lookup fails once is seen and is not offered, then or later. -/
theorem lookup_failure_loses_message :
    let run := (ancsIngests plainText).trace .new [ingestOf (.error ()), ingestOf (.ok none)]
    run.map (fun r => (r.2.ok, r.2.handles)) = [(false, []), (true, [])] ∧
      ¬ ((ancsIngests plainText).after .new [ingestOf (.error ())]).SeenOffered [] := by
  refine ⟨rfl, fun hseen => ?_⟩
  exact absurd (hseen "7" List.mem_cons_self) List.not_mem_nil

end AnalogConnect
