import AnalogConnect.PollSchedule

/-!
# When the scheduler polls

The scheduler remembers a mode and two times. They say of everything so far as much as the decision
needs: whether polling is in force, and when the next poll is due (`KeepsTime`). So the trace obeys
its law whatever the order of ticks and notifications, as long as time does not go back
(`scheduler_lawful`). A sum of durations stops at `Duration::MAX`, and there two polls may come less
than an interval apart (`polls_close_at_durationMax`).
-/

namespace AnalogConnect

open Transducer

variable {pollInterval timeout now n : ℕ} {past between : SchedulerTrace}
  {answer : Option SyncTrigger} {wireName : String} {s : MessageSyncScheduler}

namespace SchedulerTrace

theorem lastNotification_notification :
    lastNotification (past ++ [(.notification now wireName, answer)]) = some (now, []) := by
  unfold lastNotification
  rw [List.foldl_append]
  rfl

theorem lastNotification_tick :
    lastNotification (past ++ [(.tick now, answer)]) =
      (lastNotification past).map fun (notified, ticks) => (notified, ticks ++ [now]) := by
  unfold lastNotification
  rw [List.foldl_append]
  rfl

theorem map_fst_lastNotification_tick :
    (lastNotification (past ++ [(.tick now, answer)])).map Prod.fst =
      (lastNotification past).map Prod.fst := by
  rw [lastNotification_tick, Option.map_map]
  rfl

theorem lastPoll_notification :
    lastPoll (past ++ [(.notification now wireName, answer)]) = lastPoll past := by
  unfold lastPoll
  rw [List.foldl_append]
  rfl

theorem lastPoll_tick :
    lastPoll (past ++ [(.tick now, answer)]) =
      if answer = some .poll then some now else lastPoll past := by
  unfold lastPoll
  rw [List.foldl_append]
  rcases answer with - | (_ | _) <;> rfl

/-- The last notification is one of the events. -/
theorem lastNotification_mem : ∀ {past : SchedulerTrace} {n : ℕ},
    (lastNotification past).map Prod.fst = some n → ∃ r ∈ past, r.1.time = n := by
  intro past
  induction past using List.reverseRecOn with
  | nil => simp [lastNotification]
  | append_singleton past r ih =>
    intro n h
    obtain ⟨_ | now, answer⟩ := r
    · rw [lastNotification_notification] at h
      exact ⟨_, List.mem_concat_self, Option.some.inj h⟩
    · rw [map_fst_lastNotification_tick] at h
      obtain ⟨r, hr, htime⟩ := ih h
      exact ⟨r, List.mem_append_left _ hr, htime⟩

/-- The last poll is one of the events. -/
theorem lastPoll_mem : ∀ {past : SchedulerTrace} {n : ℕ}, lastPoll past = some n →
    ∃ r ∈ past, r.1.time = n := by
  intro past
  induction past using List.reverseRecOn with
  | nil => simp [lastPoll]
  | append_singleton past r ih =>
    intro n h
    have hbefore : lastPoll past = some n → ∃ r' ∈ past ++ [r], r'.1.time = n := fun h => by
      obtain ⟨r', hr', htime⟩ := ih h
      exact ⟨r', List.mem_append_left _ hr', htime⟩
    obtain ⟨_ | now, answer⟩ := r
    · rw [lastPoll_notification] at h
      exact hbefore h
    · rw [lastPoll_tick] at h
      split_ifs at h
      · exact ⟨_, List.mem_concat_self, Option.some.inj h⟩
      · exact hbefore h

/-- After a notification, the last one is no earlier, and the ticks since are since. -/
theorem lastNotification_since (past : SchedulerTrace) (wireName : String)
    (answer : Option SyncTrigger) (hbetween : ∀ r ∈ between, n ≤ r.1.time) :
    ∃ last since, lastNotification (past ++ (.notification n wireName, answer) :: between) =
        some (last, since) ∧ n ≤ last ∧
      ∀ now ∈ since, ∃ answer, (SchedulerEvent.tick now, answer) ∈ between := by
  induction between using List.reverseRecOn with
  | nil => exact ⟨n, [], lastNotification_notification, le_rfl, by simp⟩
  | append_singleton between r ih =>
    obtain ⟨last, since, hlast, hle, hsince⟩ :=
      ih fun r hr => hbetween r (List.mem_append_left _ hr)
    rw [← List.cons_append, ← List.append_assoc]
    obtain ⟨⟨now, wireName⟩ | now, answer⟩ := r
    · exact ⟨now, [], lastNotification_notification, hbetween _ List.mem_concat_self, by simp⟩
    · refine ⟨last, since ++ [now], ?_, hle, ?_⟩
      · rw [lastNotification_tick, hlast]
        rfl
      · intro t ht
        rcases List.mem_append.1 ht with ht | ht
        · obtain ⟨answer', hmem⟩ := hsince t ht
          exact ⟨answer', List.mem_append_left _ hmem⟩
        · obtain rfl := List.mem_singleton.1 ht
          exact ⟨answer, List.mem_concat_self⟩

/-- After a poll, the last one is no earlier. -/
theorem lastPoll_since (past : SchedulerTrace) (hbetween : ∀ r ∈ between, n ≤ r.1.time) :
    ∃ last, lastPoll (past ++ (.tick n, some .poll) :: between) = some last ∧ n ≤ last := by
  induction between using List.reverseRecOn with
  | nil => exact ⟨n, lastPoll_tick, le_rfl⟩
  | append_singleton between r ih =>
    obtain ⟨last, hlast, hle⟩ := ih fun r hr => hbetween r (List.mem_append_left _ hr)
    rw [← List.cons_append, ← List.append_assoc]
    obtain ⟨_ | now, answer⟩ := r
    · exact ⟨last, lastPoll_notification.trans hlast, hle⟩
    · rw [lastPoll_tick]
      split_ifs
      · exact ⟨now, rfl, hbetween _ List.mem_concat_self⟩
      · exact ⟨last, hlast, hle⟩

theorem silent_notification :
    ¬ Silent timeout (past ++ [(.notification now wireName, answer)]) [] := by
  intro h
  obtain ⟨t, ht, -⟩ := h now [] lastNotification_notification
  cases ht

theorem silent_tick :
    Silent timeout (past ++ [(.tick now, answer)]) [] ↔ Silent timeout past [now] := by
  unfold Silent
  rw [lastNotification_tick]
  rcases lastNotification past with - | ⟨last, since⟩ <;> simp

/-- The times a poll waits for are the last of those so far. -/
theorem due_of_latest {latest : ℕ} (hpast : ∀ r ∈ past, r.1.time ≤ latest) (answer)
    {e : SchedulerEvent} (he : e.time = latest)
    (hlatest : lastPoll (past ++ [(e, answer)]) = some latest ∨
      (lastNotification (past ++ [(e, answer)])).map Prod.fst = some latest) :
    Due pollInterval (past ++ [(e, answer)]) now ↔
      min (latest + pollInterval) durationMax ≤ now := by
  have htimes : ∀ r ∈ past ++ [(e, answer)], r.1.time ≤ latest := by
    simp only [List.forall_mem_append, List.forall_mem_singleton]
    exact ⟨hpast, he.le⟩
  refine ⟨fun h => h latest hlatest, fun h last hlast => ?_⟩
  have hle : last ≤ latest := by
    obtain ⟨r, hr, rfl⟩ := hlast.elim lastPoll_mem lastNotification_mem
    exact htimes r hr
  omega

end SchedulerTrace

open SchedulerTrace

namespace MessageSyncScheduler

theorem tick_mode_iff (s : MessageSyncScheduler) (now : ℕ) :
    (s.tick now).2.mode = .polling ↔
      (s.lastNotificationAt.any fun last => s.notificationTimeout ≤ now - last) = true ∨
        s.mode = .polling := by
  unfold tick
  dsimp only
  by_cases hsilent : s.lastNotificationAt.any fun last => s.notificationTimeout ≤ now - last
  · split_ifs <;> simp [hsilent]
  · rw [if_neg hsilent]
    split_ifs <;> simp [hsilent]

theorem tick_answer_iff (s : MessageSyncScheduler) (now : ℕ) :
    (s.tick now).1 = some .poll ↔ (s.tick now).2.mode = .polling ∧ s.nextPollAt ≤ now := by
  unfold tick
  dsimp only
  split_ifs with _ hpoll hpoll
  · exact iff_of_true rfl hpoll
  · exact iff_of_false (by simp) hpoll
  · exact iff_of_true rfl hpoll
  · exact iff_of_false (by simp) hpoll

/-- What a tick leaves of the rest: a poll sets the time of the next. -/
theorem tick_rest (s : MessageSyncScheduler) (now : ℕ) :
    (s.tick now).2 =
      { s with
        mode := (s.tick now).2.mode
        nextPollAt :=
          if (s.tick now).1 = some .poll then min (now + s.pollInterval) durationMax
          else s.nextPollAt } := by
  unfold tick
  dsimp only
  split_ifs <;> simp_all

end MessageSyncScheduler

/-- What the scheduler remembers of the trace so far. -/
structure KeepsTime (pollInterval timeout : ℕ) (past : SchedulerTrace) (s : MessageSyncScheduler) :
    Prop where
  pollInterval_eq : s.pollInterval = pollInterval
  timeout_eq : s.notificationTimeout = timeout
  notified : s.lastNotificationAt = (lastNotification past).map Prod.fst
  polling_iff : s.mode = .polling ↔ Silent timeout past []
  due_iff : ∀ now, s.nextPollAt ≤ now ↔ Due pollInterval past now

theorem follows_new (pollInterval timeout : ℕ) :
    KeepsTime pollInterval timeout [] (.new pollInterval timeout) where
  pollInterval_eq := rfl
  timeout_eq := rfl
  notified := rfl
  polling_iff := iff_of_true rfl fun last since h => by cases h
  due_iff := fun now => iff_of_true (Nat.zero_le now) fun last h => by
    rcases h with h | h <;> cases h

namespace KeepsTime

theorem notification (h : KeepsTime pollInterval timeout past s)
    (hpast : ∀ r ∈ past, r.1.time ≤ now) (wireName : String) :
    KeepsTime pollInterval timeout
      (past ++ [(.notification now wireName, (s.notification now wireName).1)])
      (s.notification now wireName).2 where
  pollInterval_eq := h.pollInterval_eq
  timeout_eq := h.timeout_eq
  notified := by
    rw [lastNotification_notification]
    rfl
  polling_iff := iff_of_false (by simp [MessageSyncScheduler.notification]) silent_notification
  due_iff := fun t => by
    rw [due_of_latest hpast _ rfl (.inr (by rw [lastNotification_notification]; rfl)),
      ← h.pollInterval_eq]
    rfl

/-- The mode a tick leaves, which is the one it decides in. -/
theorem tick_mode (h : KeepsTime pollInterval timeout past s)
    (hpast : ∀ r ∈ past, r.1.time ≤ now) :
    (s.tick now).2.mode = .polling ↔ Silent timeout past [now] := by
  rw [s.tick_mode_iff now, h.polling_iff, h.notified, h.timeout_eq]
  unfold Silent
  have hmem := @lastNotification_mem past
  rcases hlast : lastNotification past with - | ⟨last, since⟩
  · simp
  · obtain ⟨r, hr, hr'⟩ := @hmem last (by rw [hlast]; rfl)
    have hle : last ≤ now := hr' ▸ hpast r hr
    have hsub : timeout ≤ now - last ↔ last + timeout ≤ now := by omega
    simp [hsub, or_comm]

theorem tick_eq_poll_iff (h : KeepsTime pollInterval timeout past s)
    (hpast : ∀ r ∈ past, r.1.time ≤ now) :
    (s.tick now).1 = some .poll ↔ Silent timeout past [now] ∧ Due pollInterval past now := by
  rw [s.tick_answer_iff, h.tick_mode hpast, h.due_iff]

theorem tick (h : KeepsTime pollInterval timeout past s) (hpast : ∀ r ∈ past, r.1.time ≤ now) :
    KeepsTime pollInterval timeout (past ++ [(.tick now, (s.tick now).1)]) (s.tick now).2 := by
  have hmode := h.tick_mode hpast
  rw [s.tick_rest now]
  refine ⟨h.pollInterval_eq, h.timeout_eq, ?_, ?_, fun t => ?_⟩
  · rw [map_fst_lastNotification_tick]
    exact h.notified
  · rw [silent_tick]
    exact hmode
  · dsimp only
    split_ifs with hpoll
    · rw [due_of_latest hpast _ rfl (.inl (by rw [lastPoll_tick, if_pos hpoll])),
        h.pollInterval_eq]
    · rw [h.due_iff, Due, Due, lastPoll_tick, if_neg hpoll, map_fst_lastNotification_tick]

end KeepsTime

theorem follows_run {events : List SchedulerEvent} (h : Ordered SchedulerEvent.time events) :
    KeepsTime pollInterval timeout (scheduler.trace (.new pollInterval timeout) events)
      (scheduler.after (.new pollInterval timeout) events) := by
  refine scheduler.ordered_history (follows_new pollInterval timeout)
    (fun past t e hpast ih => ?_) h
  cases e with
  | notification now wireName => exact ih.notification hpast wireName
  | tick now => exact ih.tick hpast

/-- A tick polls exactly when polling is in force and the last poll and the last notification are
an interval ago; so polls are an interval apart, and a notification stops them until a silence. -/
theorem scheduler_lawful (pollInterval timeout : ℕ) {events : List SchedulerEvent}
    (h : Ordered SchedulerEvent.time events) :
    Lawful pollInterval timeout (scheduler.trace (.new pollInterval timeout) events) := by
  have hpoll : ∀ past now answer future,
      scheduler.trace (.new pollInterval timeout) events =
          past ++ (.tick now, answer) :: future →
        (answer = some .poll ↔ Silent timeout past [now] ∧ Due pollInterval past now) := by
    rintro past now answer future hsplit
    obtain ⟨earlier, later, rfl, rfl, rfl⟩ := scheduler.trace_split hsplit
    obtain ⟨hearlier, -, hle⟩ := ordered_append.1 h
    refine (follows_run hearlier).tick_eq_poll_iff fun r hr => ?_
    have hr' := List.mem_map_of_mem (f := Prod.fst) hr
    rw [map_fst_trace] at hr'
    exact hle r.1 hr' _ List.mem_cons_self
  have hordered : ∀ {past between future : SchedulerTrace} {r},
      scheduler.trace (.new pollInterval timeout) events = past ++ r :: between ++ future →
        ∀ r' ∈ between, r.1.time ≤ r'.1.time := by
    intro past between future r hsplit r' hr'
    have hevents := congrArg (List.map Prod.fst) hsplit
    rw [map_fst_trace, List.map_append, List.map_append, List.map_cons] at hevents
    rw [hevents] at h
    obtain ⟨-, hrest, -⟩ := ordered_append.1 (ordered_append.1 h).1
    exact (List.pairwise_cons.1 hrest).1 r'.1.time
      (List.mem_map_of_mem (List.mem_map_of_mem hr'))
  refine ⟨hpoll, fun past a between b future hsplit => ?_,
    fun past n wireName answer between b future hsplit => ?_⟩
  · have hbetween : ∀ r ∈ between, a ≤ r.1.time := hordered hsplit
    obtain ⟨last, hlast, hle⟩ := lastPoll_since past hbetween
    have := ((hpoll _ b _ future hsplit).1 rfl).2 last (.inl hlast)
    omega
  · have hbetween : ∀ r ∈ between, n ≤ r.1.time := hordered hsplit
    obtain ⟨last, since, hlast, hle, hsince⟩ :=
      lastNotification_since past wireName answer hbetween
    obtain ⟨now, hnow, hsilent⟩ := ((hpoll _ b _ future hsplit).1 rfl).1 last since hlast
    rcases List.mem_append.1 hnow with hnow | hnow
    · obtain ⟨answer', hmem⟩ := hsince now hnow
      exact ⟨now, answer', List.mem_append_left _ hmem, by omega⟩
    · obtain rfl := List.mem_singleton.1 hnow
      exact ⟨now, _, List.mem_concat_self, by omega⟩

/-- With the daemon's own interval and timeout: a poll, a notification that the next tick finds 90
seconds ago and polls on, and one more poll 30 seconds on. -/
theorem scheduler_lawful_example :
    Lawful (30 * 10 ^ 9) (90 * 10 ^ 9) (scheduler.trace (.new (30 * 10 ^ 9) (90 * 10 ^ 9))
      [.tick 0, .notification 5 "NewMessage", .tick (90 * 10 ^ 9 + 5),
        .tick (120 * 10 ^ 9 + 5)]) :=
  scheduler_lawful _ _ (by simp [Ordered, SchedulerEvent.time])

/-- Two polls a nanosecond apart, a second before the end of time. -/
theorem polls_close_at_durationMax :
    Ordered SchedulerEvent.time [.tick (durationMax - 1), .tick durationMax] ∧
    scheduler.trace (.new (30 * 10 ^ 9) (90 * 10 ^ 9))
        [.tick (durationMax - 1), .tick durationMax] =
      [(.tick (durationMax - 1), some .poll), (.tick durationMax, some .poll)] ∧
    ¬ durationMax - 1 + 30 * 10 ^ 9 ≤ durationMax := by
  refine ⟨?_, by decide, by decide⟩
  simp [Ordered, SchedulerEvent.time]

end AnalogConnect
