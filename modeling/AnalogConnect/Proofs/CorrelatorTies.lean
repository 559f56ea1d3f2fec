import AnalogConnect.Proofs.CorrelatorRuns

/-!
# Pairs left behind

A call weighs what it is offered against what is retained, and never what is retained against what
is retained. A message is retained only where it matches nothing, so a retained pair that matches
was weighed when its notification was last observed, and was passed over then: the notification
matched other messages too, or took the place of a retained one (`onlyMatches_was_ambiguous`).
-/

namespace AnalogConnect

namespace AncsMapCorrelator

variable {text : AncsText} {c d : AncsMapCorrelator} {e : CorrelatorEvent}
  {notification : PendingAncsNotification} {message : PendingMapMessage}

/-- Each of the two is the other's only match among what is retained. -/
structure OnlyMatches (text : AncsText) (c : AncsMapCorrelator)
    (notification : PendingAncsNotification) (message : PendingMapMessage) : Prop where
  message_only : c.messages.filter (c.matches text notification) = [message]
  notification_only : c.notifications.filter (c.matches text · message) = [notification]

/-- The call that observes `notification` in `c` finds it ambiguous, and names `message`. -/
def FoundAmbiguous (text : AncsText) (c : AncsMapCorrelator)
    (notification : PendingAncsNotification) (message : PendingMapMessage) : Prop :=
  ∃ handles, c.result text (.observeAncs notification)
      = some (.ambiguous handles notification.observedUnixMillis) ∧
    message.mapHandle ∈ handles ∧ 2 ≤ handles.length

/-- The run's last call that observes the notification's UID observes `notification`, in `c`. -/
def LastObserved (text : AncsText) (start : AncsMapCorrelator) (past : List CorrelatorEvent)
    (notification : PendingAncsNotification) (c : AncsMapCorrelator) : Prop :=
  ∃ before since, past = before ++ .observeAncs notification :: since ∧
    (correlator text).run start before = some c ∧
    ∀ later, .observeAncs later ∈ since → later.notificationUid ≠ notification.notificationUid

theorem LastObserved.snoc {start : AncsMapCorrelator} {past : List CorrelatorEvent}
    (h : LastObserved text start past notification c)
    (hother : ∀ later, e = .observeAncs later →
      later.notificationUid ≠ notification.notificationUid) :
    LastObserved text start (past ++ [e]) notification c := by
  obtain ⟨before, since, rfl, hrun, hsince⟩ := h
  refine ⟨before, since ++ [e], by simp, hrun, fun later hlater => ?_⟩
  rcases List.mem_append.1 hlater with hlater | hlater
  · exact hsince later hlater
  · exact hother later (List.mem_singleton.1 hlater).symm

/-- A new notification that matches a retained message and takes none is found ambiguous. -/
theorem foundAmbiguous_of_many (hfresh : c.Fresh notification) (hmem : message ∈ c.messages)
    (hmatch : c.matches text notification message)
    (hmany : ∀ other, c.messages.filter (c.matches text notification) ≠ [other]) :
    c.FoundAmbiguous text notification message := by
  have hlisted : message ∈ c.messages.filter (c.matches text notification) :=
    List.mem_filter.2 ⟨hmem, hmatch⟩
  have htwo := Window.two_le_length_of_ne_singleton hlisted hmany
  have hknown : ¬ c.notifications.any (·.notificationUid = notification.notificationUid) := by
    simpa using hfresh.2
  have hget := Window.filterMap_indicesWhere (c.matches text notification) c.messages
  rw [← Window.length_indicesWhere] at htwo
  refine ⟨(c.messages.filter (c.matches text notification)).map (·.mapHandle), ?_,
    List.mem_map_of_mem hlisted, by rwa [List.length_map, ← Window.length_indicesWhere]⟩
  rw [result, observeAncs, if_neg hfresh.1, if_neg hknown]
  split
  · rename_i hone
    rw [hone] at htwo
    simp at htwo
  · rw [if_pos (Nat.lt_of_succ_le htwo), hget]

/-- A retained pair that matches was weighed when its notification was last observed. -/
def Weighed (text : AncsText) (start : AncsMapCorrelator) (past : List CorrelatorEvent)
    (notification : PendingAncsNotification) (message : PendingMapMessage) : Prop :=
  ∃ c, LastObserved text start past notification c ∧
    ((∃ existing ∈ c.notifications,
        existing.notificationUid = notification.notificationUid) ∨
      c.FoundAmbiguous text notification message)

theorem Weighed.snoc {start : AncsMapCorrelator} {past : List CorrelatorEvent}
    (h : Weighed text start past notification message)
    (hother : ∀ later, e = .observeAncs later →
      later.notificationUid ≠ notification.notificationUid) :
    Weighed text start (past ++ [e]) notification message := by
  obtain ⟨c, hlast, hweighed⟩ := h
  exact ⟨c, hlast.snoc hother, hweighed⟩

/-- Every retained pair that matches was weighed. -/
def AllWeighed (text : AncsText) (start : AncsMapCorrelator) (past : List CorrelatorEvent)
    (c : AncsMapCorrelator) : Prop :=
  ∀ notification ∈ c.notifications, ∀ message ∈ c.messages,
    c.matches text notification message → Weighed text start past notification message

section Step

variable {start : AncsMapCorrelator} {past : List CorrelatorEvent}

theorem AllWeighed.observeAncs (h : AllWeighed text start past c)
    (hrun : (correlator text).run start past = some c) (hdistinct : c.Distinct)
    (hapart : ∀ uid ∈ c.uids, uid ∉ c.completedUids) (offered : PendingAncsNotification) :
    AllWeighed text start (past ++ [.observeAncs offered]) (c.observeAncs text offered).2 := by
  have hnow : LastObserved text start (past ++ [.observeAncs offered]) offered c :=
    ⟨past, [], rfl, hrun, fun later hlater => absurd hlater List.not_mem_nil⟩
  have hold {notification : PendingAncsNotification} {message : PendingMapMessage}
      (hn : notification ∈ c.notifications) (hm : message ∈ c.messages)
      (hmatch : c.matches text notification message)
      (hne : notification.notificationUid ≠ offered.notificationUid) :
      Weighed text start (past ++ [.observeAncs offered]) notification message :=
    (h notification hn message hm hmatch).snoc
      fun later hlater => (CorrelatorEvent.observeAncs.inj hlater) ▸ hne.symm
  rcases observeAncs_cases text c offered with
    ⟨-, ⟨hdone, heq⟩ | ⟨hknown, heq⟩⟩ | ⟨hfresh, index, taken, -, -, heq⟩ |
    ⟨hfresh, hmany, -, heq⟩
  · rw [heq]
    intro notification hn message hm hmatch
    exact hold hn hm hmatch fun huid =>
      hapart _ (List.mem_map_of_mem hn) (huid ▸ hdone)
  · rw [heq]
    intro notification hn message hm hmatch
    rcases Window.mem_replaceKey_of_nodup hdistinct.uids hn with rfl | ⟨hn, hne⟩
    · exact ⟨c, hnow, .inl hknown⟩
    · exact hold hn hm hmatch (hne hknown)
  · rw [heq]
    intro notification hn message hm hmatch
    exact hold hn (List.mem_of_mem_eraseIdx hm) hmatch (hfresh.2 notification hn)
  · rw [heq]
    intro notification hn message hm hmatch
    rcases List.mem_append.1 (Window.mem_of_mem_keepNewest hn) with hn | hn
    · exact hold hn hm hmatch (hfresh.2 notification hn)
    · obtain rfl := List.mem_singleton.1 hn
      exact ⟨c, hnow, .inr (foundAmbiguous_of_many hfresh hm hmatch hmany)⟩

theorem AllWeighed.correlateMap (h : AllWeighed text start past c) (offered : PendingMapMessage) :
    AllWeighed text start (past ++ [.correlateMap offered]) (c.correlateMap text offered).2 := by
  have hold {notification : PendingAncsNotification} {message : PendingMapMessage}
      (hn : notification ∈ c.notifications) (hm : message ∈ c.messages)
      (hmatch : c.matches text notification message) :
      Weighed text start (past ++ [.correlateMap offered]) notification message :=
    (h notification hn message hm hmatch).snoc fun later hlater => by cases hlater
  rcases correlateMap_cases text c offered with
    ⟨index, taken, -, -, heq⟩ | ⟨-, -, heq | ⟨hnone, -, heq⟩⟩
  · rw [heq]
    intro notification hn message hm hmatch
    exact hold (List.mem_of_mem_eraseIdx hn) hm hmatch
  · rw [heq]
    intro notification hn message hm hmatch
    exact hold hn hm hmatch
  · rw [heq]
    intro notification hn message hm hmatch
    rcases List.mem_append.1 (Window.mem_of_mem_keepNewest hm) with hm | hm
    · exact hold hn hm hmatch
    · rw [List.mem_singleton.1 hm] at hmatch
      exact absurd (List.mem_filter.2 ⟨hn, hmatch⟩) (hnone ▸ List.not_mem_nil)

end Step

theorem allWeighed_of_run {maxDeltaMillis : UInt64} {events : List CorrelatorEvent}
    (hrun : (correlator text).run (new maxDeltaMillis) events = some c) :
    AllWeighed text (new maxDeltaMillis) events c := by
  refine (correlator text).run_history (P := AllWeighed text (new maxDeltaMillis)) ?_ ?_ hrun
  · intro notification hn
    cases hn
  · intro past d e c hd ih hstep
    obtain rfl : d.step text e = c := Option.some.inj hstep
    have huids := uidsKept_of_run hd
    cases e with
    | observeAncs offered => exact ih.observeAncs hd huids.distinct huids.apart offered
    | correlateMap offered => exact ih.correlateMap offered

/-- A pair left behind was passed over when its notification was last observed: the call found the
notification ambiguous and named the message among others, or replaced a retained notification. -/
theorem onlyMatches_was_ambiguous {maxDeltaMillis : UInt64} {events : List CorrelatorEvent}
    (hrun : (correlator text).run (new maxDeltaMillis) events = some c)
    (h : c.OnlyMatches text notification message) :
    ∃ d, LastObserved text (new maxDeltaMillis) events notification d ∧
      ((∃ existing ∈ d.notifications,
          existing.notificationUid = notification.notificationUid) ∨
        d.FoundAmbiguous text notification message) := by
  obtain ⟨hm, hmatch⟩ := Window.mem_of_filter_eq_singleton h.message_only
  obtain ⟨hn, -⟩ := Window.mem_of_filter_eq_singleton h.notification_only
  exact allWeighed_of_run hrun notification hn message hm hmatch

/-! ## A pair left behind -/

def noticeAt (first : UInt8) (millis : Int64) : PendingAncsNotification :=
  ⟨#v[first, 0, 0, 0], "ann", "", millis⟩

def textAt (handle : String) (millis : Int64) : PendingMapMessage := ⟨handle, "ann", none, millis⟩

/-- The notification at 700 ms matches both messages; the one at 2000 ms takes the later. -/
def tiedRun : List CorrelatorEvent :=
  [.correlateMap (textAt "1" 0), .correlateMap (textAt "2" 1500),
    .observeAncs (noticeAt 1 700), .observeAncs (noticeAt 2 2000)]

theorem tiedRun_leaves_pair : ∃ c,
    (correlator plainText).run (new 1000) tiedRun = some c ∧
      c.OnlyMatches plainText (noticeAt 1 700) (textAt "1" 0) :=
  ⟨_, rfl, by decide +kernel, by decide +kernel⟩

theorem onlyMatches_was_ambiguous_tied : ∃ d,
    LastObserved plainText (new 1000) tiedRun (noticeAt 1 700) d ∧
      ((∃ existing ∈ d.notifications,
          existing.notificationUid = (noticeAt 1 700).notificationUid) ∨
        d.FoundAmbiguous plainText (noticeAt 1 700) (textAt "1" 0)) :=
  onlyMatches_was_ambiguous rfl
    ⟨by decide +kernel, by decide +kernel⟩

end AncsMapCorrelator

end AnalogConnect
