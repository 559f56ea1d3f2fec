import Mathlib.Data.List.Nodup
import AnalogConnect.AncsGroups

/-!
# When a pairing is unique on both sides

Each call checks one side: `observeAncs` that one retained message matches the new notification,
`correlateMap` that one retained notification matches the new message. A pairing is mutually unique
exactly when the other side has no rival either (`correlator_pairsUnique_iff`), which holds as long
as no tie is left behind (`pairsUnique_of_noTie`).
-/

namespace AnalogConnect

variable (text : AncsText)

@[simp] theorem pair_correlatePair (notification : PendingAncsNotification)
    (message : PendingMapMessage) :
    (correlatePair text notification message).pair
      = some (message.mapHandle, notification.notificationUid) := by
  unfold correlatePair
  split <;> rfl

namespace AncsMapCorrelator

variable {text} {c : AncsMapCorrelator}

/-- No two retained notifications share a UID, and no two retained messages a handle. -/
structure Distinct (c : AncsMapCorrelator) : Prop where
  uids : (c.notifications.map (·.notificationUid)).Nodup
  handles : (c.messages.map (·.mapHandle)).Nodup

/-- A notification `observeAncs` weighs against the retained messages. -/
def Fresh (c : AncsMapCorrelator) (notification : PendingAncsNotification) : Prop :=
  notification.notificationUid ∉ c.completedUids ∧
    ∀ existing ∈ c.notifications, existing.notificationUid ≠ notification.notificationUid

/-- What a notification can do: nothing, replace the one with its UID, take the only message it
matches, or wait. -/
theorem observeAncs_cases (text : AncsText) (c : AncsMapCorrelator)
    (notification : PendingAncsNotification) :
    (¬ c.Fresh notification ∧ (notification.notificationUid ∈ c.completedUids ∧
        c.observeAncs text notification = (none, c) ∨
      (∃ existing ∈ c.notifications,
        existing.notificationUid = notification.notificationUid) ∧
      c.observeAncs text notification = (none, c.update notification))) ∨
    (c.Fresh notification ∧ ∃ index message,
      c.messages[index]? = some message ∧
      c.messages.filter (c.matches text notification) = [message] ∧
      c.observeAncs text notification = (some (correlatePair text notification message),
        { c with messages := c.messages.eraseIdx index }.rememberCompleted
          notification.notificationUid)) ∨
    (c.Fresh notification ∧
      (∀ message, c.messages.filter (c.matches text notification) ≠ [message]) ∧
      (∀ result ∈ (c.observeAncs text notification).1, result.pair = none) ∧
      (c.observeAncs text notification).2 =
        { c with notifications := Window.keepNewest 32 (c.notifications ++ [notification]) }) := by
  by_cases hdone : notification.notificationUid ∈ c.completedUids
  · refine .inl ⟨fun h => h.1 hdone, .inl ⟨hdone, ?_⟩⟩
    rw [observeAncs, if_pos hdone]
  by_cases hknown : c.notifications.any (·.notificationUid = notification.notificationUid)
  · have hexists : ∃ existing ∈ c.notifications,
        existing.notificationUid = notification.notificationUid := by simpa using hknown
    refine .inl ⟨fun h => ?_, .inr ⟨hexists, ?_⟩⟩
    · obtain ⟨existing, hmem, huid⟩ := hexists
      exact h.2 existing hmem huid
    · rw [observeAncs, if_neg hdone, if_pos hknown]
  have hfresh : c.Fresh notification := ⟨hdone, by simpa using hknown⟩
  right
  rcases hindices : Window.indicesWhere (c.matches text notification) c.messages
    with - | ⟨index, - | ⟨index', rest⟩⟩
  · right
    have hfilter := Window.length_indicesWhere (c.matches text notification) c.messages
    rw [hindices] at hfilter
    refine ⟨hfresh, fun message hm => by simp [hm] at hfilter, ?_, ?_⟩ <;>
      simp [observeAncs, hdone, hknown, hindices]
  · left
    obtain ⟨message, hget, hfilter⟩ := Window.indicesWhere_eq_singleton hindices
    refine ⟨hfresh, index, message, hget, hfilter, ?_⟩
    simp [observeAncs, hdone, hknown, hindices, hget]
  · right
    have hfilter := Window.length_indicesWhere (c.matches text notification) c.messages
    rw [hindices] at hfilter
    refine ⟨hfresh, fun message hm => by simp [hm] at hfilter, ?_, ?_⟩ <;>
      simp [observeAncs, hdone, hknown, hindices, CorrelationResult.pair]

/-- What a message can do: take the only notification that matches it, or wait, or nothing. -/
theorem correlateMap_cases (text : AncsText) (c : AncsMapCorrelator) (message : PendingMapMessage) :
    (∃ index notification,
      c.notifications[index]? = some notification ∧
      c.notifications.filter (c.matches text · message) = [notification] ∧
      c.correlateMap text message = (correlatePair text notification message,
        { c with notifications := c.notifications.eraseIdx index }.rememberCompleted
          notification.notificationUid)) ∨
    ((∀ notification, c.notifications.filter (c.matches text · message) ≠ [notification]) ∧
      (c.correlateMap text message).1.pair = none ∧
      ((c.correlateMap text message).2 = c ∨
        c.notifications.filter (c.matches text · message) = [] ∧
        (∀ existing ∈ c.messages, existing.mapHandle ≠ message.mapHandle) ∧
        (c.correlateMap text message).2 =
          { c with messages := Window.keepNewest 32 (c.messages ++ [message]) })) := by
  have hlen := Window.length_indicesWhere (c.matches text · message) c.notifications
  rcases hindices : Window.indicesWhere (c.matches text · message) c.notifications
    with - | ⟨index, - | ⟨index', rest⟩⟩
  · right
    rw [hindices] at hlen
    refine ⟨fun notification hn => by simp [hn] at hlen, ?_, ?_⟩
    · simp [correlateMap, hindices, CorrelationResult.pair]
    · by_cases hknown : c.messages.any (·.mapHandle = message.mapHandle)
      · exact .inl (by simp [correlateMap, hindices, hknown])
      · refine .inr ⟨List.length_eq_zero_iff.1 hlen.symm, by simpa using hknown, ?_⟩
        simp [correlateMap, hindices, hknown]
  · left
    obtain ⟨notification, hget, hfilter⟩ := Window.indicesWhere_eq_singleton hindices
    exact ⟨index, notification, hget, hfilter, by simp [correlateMap, hindices, hget]⟩
  · right
    rw [hindices] at hlen
    refine ⟨fun notification hn => by simp [hn] at hlen, ?_, .inl ?_⟩ <;>
      simp [correlateMap, hindices, CorrelationResult.pair]

theorem Distinct.new (maxDeltaMillis : UInt64) : (new maxDeltaMillis).Distinct :=
  ⟨List.nodup_nil, List.nodup_nil⟩

theorem Distinct.step (h : c.Distinct) (e : CorrelatorEvent) : (c.step text e).Distinct := by
  cases e with
  | observeAncs notification =>
    rw [AncsMapCorrelator.step]
    rcases observeAncs_cases text c notification with
      ⟨-, ⟨-, heq⟩ | ⟨-, heq⟩⟩ | ⟨-, index, message, -, -, heq⟩ | ⟨hfresh, -, -, heq⟩
    · rw [heq]
      exact h
    · rw [heq]
      exact ⟨by simpa only [update, Window.map_replaceKey] using h.uids, h.handles⟩
    · rw [heq]
      exact ⟨h.uids, h.handles.sublist ((List.eraseIdx_sublist _ _).map _)⟩
    · rw [heq]
      exact ⟨Window.nodup_map_keepNewest_snoc 32 h.uids hfresh.2, h.handles⟩
  | correlateMap message =>
    rw [AncsMapCorrelator.step]
    rcases correlateMap_cases text c message with
      ⟨index, notification, -, -, heq⟩ | ⟨-, -, heq | ⟨-, hnew, heq⟩⟩
    · rw [heq]
      exact ⟨h.uids.sublist ((List.eraseIdx_sublist _ _).map _), h.handles⟩
    · rw [heq]
      exact h
    · rw [heq]
      exact ⟨h.uids, Window.nodup_map_keepNewest_snoc 32 h.handles hnew⟩

theorem pairsUnique_observeAncs_iff (h : c.Distinct) (notification : PendingAncsNotification) :
    c.PairsUnique text (.observeAncs notification)
      ↔ c.NoRival text (.observeAncs notification) := by
  constructor
  · intro hunique hdone hnew message hfilter other hother hmatch
    rcases observeAncs_cases text c notification with
      ⟨hstale, -⟩ | ⟨-, index, message', -, hfilter', heq⟩ | ⟨-, hnone, -⟩
    · exact hstale ⟨hdone, hnew⟩
    · obtain rfl : message' = message := by simpa [hfilter] using hfilter'.symm
      have hres : c.result text (.observeAncs notification)
          = some (correlatePair text notification message') := by rw [result, heq]
      have hmutual := hunique _ _ hres (pair_correlatePair text _ _) notification message'
        ⟨rfl, (Window.mem_of_filter_eq_singleton hfilter).1, rfl⟩
      exact hnew other hother
        (hmutual.notification_unique other (List.mem_append_left _ hother) hmatch)
    · exact hnone message hfilter
  · rintro hrival result pair hres hpair _ message ⟨rfl, hmem, hhandle⟩
    rename_i notification
    rw [AncsMapCorrelator.result] at hres
    rcases observeAncs_cases text c notification with
      ⟨-, ⟨-, heq⟩ | ⟨-, heq⟩⟩ | ⟨hfresh, index, message', -, hfilter, heq⟩ | ⟨-, -, hnone, -⟩
    · simp [heq] at hres
    · simp [heq] at hres
    · obtain rfl : correlatePair text notification message' = result := by simpa [heq] using hres
      rw [pair_correlatePair, Option.some.injEq] at hpair
      obtain ⟨hmem', hmatch⟩ := Window.mem_of_filter_eq_singleton hfilter
      obtain rfl : message = message' :=
        List.inj_on_of_nodup_map h.handles hmem hmem' (by rw [hhandle, ← hpair])
      refine ⟨hmatch, fun other hother hother' => ?_, fun other hother hother' => ?_⟩
      · rcases List.mem_append.1 hother with hother | hother
        · exact absurd hother' (hrival hfresh.1 hfresh.2 message hfilter other hother)
        · rw [List.mem_singleton.1 hother]
      · rw [Window.eq_of_filter_eq_singleton hfilter hother hother']
    · rw [hnone result hres] at hpair
      simp at hpair

theorem pairsUnique_correlateMap_iff (h : c.Distinct) (message : PendingMapMessage) :
    c.PairsUnique text (.correlateMap message) ↔ c.NoRival text (.correlateMap message) := by
  constructor
  · intro hunique notification hfilter other hother hmatch
    rcases correlateMap_cases text c message with
      ⟨index, notification', -, hfilter', heq⟩ | ⟨hnone, -⟩
    · obtain rfl : notification' = notification := by simpa [hfilter] using hfilter'.symm
      have hres : c.result text (.correlateMap message)
          = some (correlatePair text notification' message) := by rw [result, heq]
      have hmutual := hunique _ _ hres (pair_correlatePair text _ _) notification' message
        ⟨rfl, (Window.mem_of_filter_eq_singleton hfilter).1, rfl⟩
      exact hmutual.message_unique other (List.mem_append_left _ hother) hmatch
    · exact absurd hfilter (hnone notification)
  · rintro hrival result pair hres hpair notification _ ⟨rfl, hmem, huid⟩
    rename_i message
    rw [AncsMapCorrelator.result, Option.some.injEq] at hres
    rcases correlateMap_cases text c message with
      ⟨index, notification', -, hfilter, heq⟩ | ⟨-, hnone, -⟩
    · obtain rfl : correlatePair text notification' message = result := by rw [← hres, heq]
      rw [pair_correlatePair, Option.some.injEq] at hpair
      obtain ⟨hmem', hmatch⟩ := Window.mem_of_filter_eq_singleton hfilter
      obtain rfl : notification = notification' :=
        List.inj_on_of_nodup_map h.uids hmem hmem' (by rw [huid, ← hpair])
      refine ⟨hmatch, fun other hother hother' => ?_, fun other hother hother' => ?_⟩
      · rw [Window.eq_of_filter_eq_singleton hfilter hother hother']
      · rcases List.mem_append.1 hother with hother | hother
        · exact hrival notification hfilter other hother hother'
        · rw [List.mem_singleton.1 hother]
    · rw [hres] at hnone
      simp [hnone] at hpair

theorem pairsUnique_iff_noRival (h : c.Distinct) (e : CorrelatorEvent) :
    c.PairsUnique text e ↔ c.NoRival text e := by
  cases e with
  | observeAncs notification => exact pairsUnique_observeAncs_iff h notification
  | correlateMap message => exact pairsUnique_correlateMap_iff h message

theorem Distinct.before {maxDeltaMillis : UInt64} {events : List CorrelatorEvent}
    {e : CorrelatorEvent}
    (h : (correlator text).Before (AncsMapCorrelator.new maxDeltaMillis) events c e) :
    c.Distinct :=
  (h.reachable _).invariant _ (.new maxDeltaMillis)
    fun _ e _ hs hstep => Option.some.inj hstep ▸ hs.step e

/-- In a run, every pairing is mutually unique exactly when no call's pairing has a rival on the
side the call does not check. -/
theorem correlator_pairsUnique_iff (text : AncsText) (maxDeltaMillis : UInt64)
    (events : List CorrelatorEvent) :
    (∀ c e, (correlator text).Before (new maxDeltaMillis) events c e → c.PairsUnique text e) ↔
      ∀ c e, (correlator text).Before (new maxDeltaMillis) events c e → c.NoRival text e :=
  forall₃_congr fun _ _ h => pairsUnique_iff_noRival (.before h) _

/-! ## Runs that leave no tie -/

/-- An offered notification matches at most one retained message, and none if it replaces a
retained notification. -/
def NoTie (text : AncsText) (c : AncsMapCorrelator) : CorrelatorEvent → Prop
  | .observeAncs notification =>
    (c.messages.filter (c.matches text notification)).length ≤ 1 ∧
      ((∃ existing ∈ c.notifications,
          existing.notificationUid = notification.notificationUid) →
        c.messages.filter (c.matches text notification) = [])
  | .correlateMap _ => True

/-- Nothing retained on one side matches anything retained on the other. -/
def Settled (text : AncsText) (c : AncsMapCorrelator) : Prop :=
  ∀ notification ∈ c.notifications, ∀ message ∈ c.messages,
    ¬ c.matches text notification message

theorem Settled.noRival (h : c.Settled text) (e : CorrelatorEvent) : c.NoRival text e := by
  cases e with
  | observeAncs notification =>
    intro _ _ message hfilter other hother
    exact h other hother message (Window.mem_of_filter_eq_singleton hfilter).1
  | correlateMap message =>
    intro notification hfilter other hother hmatch
    exact absurd hmatch (h notification (Window.mem_of_filter_eq_singleton hfilter).1 other hother)

theorem Settled.step (h : c.Settled text) {e : CorrelatorEvent} (htie : c.NoTie text e) :
    (c.step text e).Settled text := by
  have hnone {notification : PendingAncsNotification}
      (hfilter : c.messages.filter (c.matches text notification) = []) :
      ∀ message ∈ c.messages, ¬ c.matches text notification message := fun message hmem hmatch =>
    List.not_mem_nil (hfilter ▸ List.mem_filter.2 ⟨hmem, hmatch⟩)
  cases e with
  | observeAncs notification =>
    rw [AncsMapCorrelator.step]
    rcases observeAncs_cases text c notification with
      ⟨-, ⟨-, heq⟩ | ⟨hknown, heq⟩⟩ | ⟨-, index, message, -, -, heq⟩ |
      ⟨-, hmany, -, heq⟩ <;> rw [heq]
    · exact h
    · intro n hn message hmessage
      rcases Window.mem_of_mem_replaceKey hn with rfl | hn
      · exact hnone (htie.2 hknown) message hmessage
      · exact h n hn message hmessage
    · intro n hn message' hmessage'
      exact h n hn message' (List.mem_of_mem_eraseIdx hmessage')
    · have hempty : c.messages.filter (c.matches text notification) = [] := by
        by_contra hne
        obtain ⟨m, hm⟩ := List.exists_mem_of_ne_nil _ hne
        have htwo := Window.two_le_length_of_ne_singleton hm hmany
        have hone := htie.1
        omega
      intro n hn message hmessage
      rcases List.mem_append.1 (Window.mem_of_mem_keepNewest hn) with hn | hn
      · exact h n hn message hmessage
      · rw [List.mem_singleton.1 hn]
        exact hnone hempty message hmessage
  | correlateMap message =>
    rw [AncsMapCorrelator.step]
    rcases correlateMap_cases text c message with
      ⟨index, notification, -, -, heq⟩ | ⟨-, -, heq | ⟨hempty, -, heq⟩⟩ <;> rw [heq]
    · intro n hn message' hmessage'
      exact h n (List.mem_of_mem_eraseIdx hn) message' hmessage'
    · exact h
    · intro n hn message' hmessage'
      rcases List.mem_append.1 (Window.mem_of_mem_keepNewest hmessage') with hmem | hmem
      · exact h n hn message' hmem
      · rw [List.mem_singleton.1 hmem]
        intro hmatch
        exact List.not_mem_nil (hempty ▸ List.mem_filter.2 ⟨hn, hmatch⟩)

/-- Where no notification is left matching a retained message, every pairing is unique. -/
theorem pairsUnique_of_noTie {maxDeltaMillis : UInt64} {events : List CorrelatorEvent}
    (htie : ∀ c e, (correlator text).Before (new maxDeltaMillis) events c e → c.NoTie text e)
    {e : CorrelatorEvent}
    (h : (correlator text).Before (AncsMapCorrelator.new maxDeltaMillis) events c e) :
    c.PairsUnique text e := by
  refine (pairsUnique_iff_noRival (.before h) e).2 (Settled.noRival ?_ e)
  refine (correlator text).before_invariant (P := Settled text) (by simp [Settled, new]) ?_ h
  intro c e c' hbefore hc hstep
  exact Option.some.inj hstep ▸ hc.step (htie c e hbefore)

end AncsMapCorrelator

/-! ## Three messages from one sender -/

section Example

/-- A text already in normal form stays as it is. -/
def plainText : AncsText := ⟨id, fun _ => List.replicate 32 0, fun _ => rfl⟩

def messageFrom (sender handle : String) : PendingMapMessage := ⟨handle, sender, none, 0⟩

def notificationFrom (sender : String) : PendingAncsNotification :=
  ⟨#v[0, 0, 0, 1], sender, "", 0⟩

theorem correlator_pairs_third_message : ∃ c,
    (correlator plainText).run (.new 1000) [.correlateMap (messageFrom "ann" "1"),
      .correlateMap (messageFrom "ann" "2"), .observeAncs (notificationFrom "ann")] = some c ∧
    (c.correlateMap plainText (messageFrom "ann" "3")).1
      = .directCandidate "3" #v[0, 0, 0, 1] ∧
    ¬ c.PairsUnique plainText (.correlateMap (messageFrom "ann" "3")) := by
  refine ⟨_, rfl, by decide +kernel, fun h => ?_⟩
  have hunique := h (.directCandidate "3" #v[0, 0, 0, 1]) ("3", #v[0, 0, 0, 1])
    (by decide +kernel) rfl (notificationFrom "ann") (messageFrom "ann" "3")
    ⟨rfl, by decide +kernel, rfl⟩
  have hsame := hunique.message_unique (messageFrom "ann" "1") (by decide +kernel)
    (by decide +kernel)
  exact absurd hsame (by decide)

end Example

end AnalogConnect
