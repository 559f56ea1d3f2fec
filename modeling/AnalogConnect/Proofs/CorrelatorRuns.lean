import AnalogConnect.Proofs.AncsGroups

/-!
# What a run of the correlator resolves

A pairing takes the retained item it pairs, and completes the notification's UID; so a message
offered once is paired once, and a notification again only when its UID has been forgotten
(`correlator_resolves_once`).
-/

namespace AnalogConnect

namespace AncsMapCorrelator

variable {text : AncsText} {c : AncsMapCorrelator} {e : CorrelatorEvent}

/-- The handles of the messages a run offers. -/
def offered (events : List CorrelatorEvent) : List String :=
  events.filterMap fun
    | .observeAncs _ => none
    | .correlateMap message => some message.mapHandle

/-- What a call pairs, if it pairs anything. -/
def pairing (text : AncsText) (c : AncsMapCorrelator) (e : CorrelatorEvent) :
    Option (String × NotificationUid) :=
  (c.result text e).bind CorrelationResult.pair

/-- What a run pairs, in turn. -/
def pairings (text : AncsText) : AncsMapCorrelator → List CorrelatorEvent →
    List (String × NotificationUid)
  | _, [] => []
  | c, e :: events => (c.pairing text e).toList ++ pairings text (c.step text e) events

theorem pairings_snoc : ∀ {events : List CorrelatorEvent} {c d : AncsMapCorrelator},
    (correlator text).run c events = some d →
    pairings text c (events ++ [e]) = pairings text c events ++ (d.pairing text e).toList
  | [], c, d, h => by
    rw [(correlator text).run_nil, Option.some.injEq] at h
    subst h
    simp [pairings]
  | e' :: events, c, d, h => by
    obtain ⟨c', hc', h⟩ := (correlator text).run_cons_eq_some.1 h
    obtain rfl : c.step text e' = c' := Option.some.inj hc'
    rw [List.cons_append, pairings, pairings, pairings_snoc h, List.append_assoc]

/-! ## What a call changes -/

/-- The handles and the UIDs a correlator retains. -/
def handles (c : AncsMapCorrelator) : List String := c.messages.map (·.mapHandle)

def uids (c : AncsMapCorrelator) : List NotificationUid := c.notifications.map (·.notificationUid)

/-- What a call that pairs nothing leaves. -/
structure Keeps (c d : AncsMapCorrelator) (e : CorrelatorEvent) : Prop where
  completed : d.completedUids = c.completedUids
  uids : ∀ uid ∈ d.uids, uid ∈ c.uids ∨ uid ∉ c.completedUids
  handles : ∀ handle ∈ d.handles, handle ∈ c.handles ∨ handle ∈ offered [e]

/-- What a call that pairs a message with a notification leaves. -/
structure Takes (c d : AncsMapCorrelator) (e : CorrelatorEvent) (handle : String)
    (uid : NotificationUid) : Prop where
  completed : d.completedUids = Window.keepNewest 64 (c.completedUids ++ [uid])
  fresh : uid ∈ c.uids ∨ uid ∉ c.completedUids
  uids : ∀ other ∈ d.uids, other ∈ c.uids
  uid_gone : uid ∉ d.uids
  handles : ∀ other ∈ d.handles, other ∈ c.handles
  handle_gone : handle ∈ c.handles ∧ handle ∉ d.handles ∨ handle ∈ offered [e]

theorem observeAncs_keeps_or_takes (text : AncsText) (h : c.Distinct)
    (notification : PendingAncsNotification) :
    (c.pairing text (.observeAncs notification) = none ∧
        c.Keeps (c.observeAncs text notification).2 (.observeAncs notification)) ∨
      ∃ handle uid, c.pairing text (.observeAncs notification) = some (handle, uid) ∧
        c.Takes (c.observeAncs text notification).2 (.observeAncs notification) handle uid := by
  rw [pairing, result]
  rcases observeAncs_cases text c notification with
    ⟨-, ⟨-, heq⟩ | ⟨-, heq⟩⟩ | ⟨hfresh, index, message, hget, -, heq⟩ | ⟨hfresh, -, hnone, hstate⟩
  · rw [heq]
    exact .inl ⟨rfl, rfl, fun _ => .inl, fun _ => .inl⟩
  · rw [heq]
    refine .inl ⟨rfl, rfl, fun uid huid => .inl ?_, fun _ => .inl⟩
    rwa [AncsMapCorrelator.uids, update, Window.map_replaceKey] at huid
  · rw [heq]
    refine .inr ⟨message.mapHandle, notification.notificationUid, pair_correlatePair text _ _, rfl,
      .inr hfresh.1, fun _ => id, fun hmem => ?_, fun _ => Window.mem_of_mem_map_eraseIdx,
      .inl ⟨List.mem_map_of_mem (List.mem_of_getElem? hget),
        Window.key_not_mem_eraseIdx h.handles hget⟩⟩
    obtain ⟨existing, hexisting, huid⟩ := List.mem_map.1 hmem
    exact hfresh.2 existing hexisting huid
  · refine .inl ⟨?_, ?_⟩
    · cases hres : (c.observeAncs text notification).1 with
      | none => rfl
      | some result => exact hnone result hres
    · rw [hstate]
      refine ⟨rfl, fun uid huid => ?_, fun _ => .inl⟩
      rcases Window.mem_map_keepNewest_snoc huid with huid | rfl
      · exact .inl huid
      · exact .inr hfresh.1

theorem correlateMap_keeps_or_takes (text : AncsText) (h : c.Distinct)
    (message : PendingMapMessage) :
    (c.pairing text (.correlateMap message) = none ∧
        c.Keeps (c.correlateMap text message).2 (.correlateMap message)) ∨
      ∃ handle uid, c.pairing text (.correlateMap message) = some (handle, uid) ∧
        c.Takes (c.correlateMap text message).2 (.correlateMap message) handle uid := by
  have hoffered : message.mapHandle ∈ offered [.correlateMap message] := List.mem_cons_self
  rw [pairing, result]
  rcases correlateMap_cases text c message with
    ⟨index, notification, hget, -, heq⟩ | ⟨-, hnone, hstate | ⟨-, -, hstate⟩⟩
  · rw [heq]
    exact .inr ⟨message.mapHandle, notification.notificationUid, pair_correlatePair text _ _, rfl,
      .inl (List.mem_map_of_mem (List.mem_of_getElem? hget)),
      fun _ => Window.mem_of_mem_map_eraseIdx, Window.key_not_mem_eraseIdx h.uids hget,
      fun _ => id, .inr hoffered⟩
  · rw [hstate]
    exact .inl ⟨hnone, rfl, fun _ => .inl, fun _ => .inl⟩
  · rw [hstate]
    refine .inl ⟨hnone, rfl, fun _ => .inl, fun handle hhandle => ?_⟩
    rcases Window.mem_map_keepNewest_snoc hhandle with hhandle | rfl
    · exact .inl hhandle
    · exact .inr hoffered

theorem keeps_or_takes (text : AncsText) (h : c.Distinct) (e : CorrelatorEvent) :
    (c.pairing text e = none ∧ c.Keeps (c.step text e) e) ∨
      ∃ handle uid, c.pairing text e = some (handle, uid) ∧
        c.Takes (c.step text e) e handle uid := by
  cases e with
  | observeAncs notification => exact observeAncs_keeps_or_takes text h notification
  | correlateMap message => exact correlateMap_keeps_or_takes text h message

/-! ## What a run keeps -/

/-- Between two pairings of one UID, 64 others have completed. -/
def Spaced (paired : List (String × NotificationUid)) : Prop :=
  ∀ before mid after handle handle' uid,
    paired = before ++ (handle, uid) :: (mid ++ (handle', uid) :: after) →
      64 ≤ (mid.map Prod.snd).toFinset.card

theorem Spaced.nil : Spaced [] := fun before mid after handle handle' uid h => by simp at h

theorem Spaced.snoc {paired : List (String × NotificationUid)} {handle : String}
    {uid : NotificationUid} (h : Spaced paired)
    (hnodup : (Window.keepNewest 64 (paired.map Prod.snd)).Nodup)
    (huid : uid ∉ Window.keepNewest 64 (paired.map Prod.snd)) :
    Spaced (paired ++ [(handle, uid)]) := by
  intro before mid after first second uid' heq
  rcases List.eq_nil_or_concat after with rfl | ⟨after, last, rfl⟩
  · have hsnoc : before ++ (first, uid') :: (mid ++ [(second, uid')])
        = (before ++ (first, uid') :: mid) ++ [(second, uid')] := by simp
    rw [hsnoc] at heq
    obtain ⟨rfl, hlast⟩ := List.append_inj' heq rfl
    obtain rfl : uid = uid' := (Prod.mk.inj (List.cons.inj hlast).1).2
    rw [List.map_append, List.map_cons] at hnodup huid
    exact Window.le_card_of_not_mem_keepNewest hnodup huid
  · have hsnoc : before ++ (first, uid') :: (mid ++ (second, uid') :: after.concat last)
        = (before ++ (first, uid') :: (mid ++ (second, uid') :: after)) ++ [last] := by simp
    rw [hsnoc] at heq
    exact h before mid after first second uid' (List.append_inj' heq rfl).1

/-- The retained UIDs and the completed ones, after a run that paired `paired`. -/
structure UidsKept (c : AncsMapCorrelator) (paired : List (String × NotificationUid)) : Prop where
  distinct : c.Distinct
  apart : ∀ uid ∈ c.uids, uid ∉ c.completedUids
  completed : c.completedUids = Window.keepNewest 64 (paired.map Prod.snd)
  nodup : c.completedUids.Nodup
  spaced : Spaced paired

theorem UidsKept.step {paired : List (String × NotificationUid)} (h : c.UidsKept paired)
    (e : CorrelatorEvent) :
    (c.step text e).UidsKept (paired ++ (c.pairing text e).toList) := by
  rcases keeps_or_takes text h.distinct e with ⟨hnone, hkeeps⟩ | ⟨handle, uid, hsome, htakes⟩
  · rw [hnone, Option.toList_none, List.append_nil]
    refine ⟨h.distinct.step e, fun uid huid => ?_, hkeeps.completed.trans h.completed, ?_, h.spaced⟩
    · rw [hkeeps.completed]
      exact (hkeeps.uids uid huid).elim (h.apart uid) id
    · rw [hkeeps.completed]
      exact h.nodup
  · have huid : uid ∉ c.completedUids := htakes.fresh.elim (h.apart uid) id
    have hwindow : (Window.keepNewest 64 (c.completedUids ++ [uid])).Nodup :=
      (List.nodup_append_comm.1 (List.nodup_cons.2 ⟨huid, h.nodup⟩)).sublist
        (Window.keepNewest_sublist 64 _)
    rw [hsome, Option.toList_some]
    refine ⟨h.distinct.step e, fun other hother hmem => ?_, ?_, htakes.completed ▸ hwindow, ?_⟩
    · rw [htakes.completed] at hmem
      rcases List.mem_append.1 (Window.mem_of_mem_keepNewest hmem) with hmem | hmem
      · exact h.apart other (htakes.uids other hother) hmem
      · exact htakes.uid_gone (List.mem_singleton.1 hmem ▸ hother)
    · rw [htakes.completed, h.completed, Window.keepNewest_keepNewest_snoc, List.map_append,
        List.map_singleton]
    · exact h.spaced.snoc (h.completed ▸ h.nodup) (h.completed ▸ huid)

/-- The handles retained and paired, after a run that offered `past` and paired `paired`. -/
structure HandlesKept (c : AncsMapCorrelator) (past : List CorrelatorEvent)
    (paired : List (String × NotificationUid)) : Prop where
  offered : ∀ handle ∈ c.handles, handle ∈ offered past
  paired_offered : ∀ handle ∈ paired.map Prod.fst, handle ∈ AncsMapCorrelator.offered past
  apart : ∀ handle ∈ c.handles, handle ∉ paired.map Prod.fst
  nodup : (paired.map Prod.fst).Nodup

theorem offered_append (past future : List CorrelatorEvent) :
    offered (past ++ future) = offered past ++ offered future := List.filterMap_append

theorem HandlesKept.step {past : List CorrelatorEvent} {paired : List (String × NotificationUid)}
    (h : c.HandlesKept past paired) (hdistinct : c.Distinct)
    (honce : ∀ handle ∈ AncsMapCorrelator.offered [e], handle ∉ AncsMapCorrelator.offered past) :
    (c.step text e).HandlesKept (past ++ [e]) (paired ++ (c.pairing text e).toList) := by
  rcases keeps_or_takes text hdistinct e with ⟨hnone, hkeeps⟩ | ⟨handle, uid, hsome, htakes⟩
  · rw [hnone, Option.toList_none, List.append_nil]
    refine ⟨fun handle hhandle => ?_, fun handle hhandle => ?_, fun handle hhandle => ?_, h.nodup⟩
    · rw [offered_append, List.mem_append]
      exact (hkeeps.handles handle hhandle).imp_left (h.offered handle)
    · rw [offered_append, List.mem_append]
      exact .inl (h.paired_offered handle hhandle)
    · rcases hkeeps.handles handle hhandle with hold | hnew
      · exact h.apart handle hold
      · exact fun hmem => honce handle hnew (h.paired_offered handle hmem)
  · have hunpaired : handle ∉ paired.map Prod.fst := by
      rcases htakes.handle_gone with ⟨hold, -⟩ | hnew
      · exact h.apart handle hold
      · exact fun hmem => honce handle hnew (h.paired_offered handle hmem)
    rw [hsome, Option.toList_some]
    refine ⟨fun other hother => ?_, fun other hother => ?_, fun other hother hmem => ?_, ?_⟩
    · rw [offered_append, List.mem_append]
      exact .inl (h.offered other (htakes.handles other hother))
    · rw [List.map_append, List.map_singleton, List.mem_append, List.mem_singleton] at hother
      rw [offered_append, List.mem_append]
      rcases hother with hother | rfl
      · exact .inl (h.paired_offered other hother)
      · exact htakes.handle_gone.imp_left fun hold => h.offered _ hold.1
    · rw [List.map_append, List.map_singleton, List.mem_append, List.mem_singleton] at hmem
      rcases hmem with hmem | rfl
      · exact h.apart other (htakes.handles other hother) hmem
      · rcases htakes.handle_gone with ⟨-, hgone⟩ | hnew
        · exact hgone hother
        · exact honce _ hnew (h.offered _ (htakes.handles _ hother))
    · rw [List.map_append, List.map_singleton]
      exact List.nodup_append_comm.1 (List.nodup_cons.2 ⟨hunpaired, h.nodup⟩)

/-- At most 32 notifications, 32 messages and 64 completed UIDs are retained. -/
structure Bounded (c : AncsMapCorrelator) : Prop where
  notifications : c.notifications.length ≤ 32
  messages : c.messages.length ≤ 32
  completed : c.completedUids.length ≤ 64

theorem Bounded.step (h : c.Bounded) (e : CorrelatorEvent) : (c.step text e).Bounded := by
  have herase {α : Type} {l : List α} (i : ℕ) (hl : l.length ≤ 32) : (l.eraseIdx i).length ≤ 32 :=
    (List.eraseIdx_sublist l i).length_le.trans hl
  cases e with
  | observeAncs notification =>
    rw [AncsMapCorrelator.step]
    rcases observeAncs_cases text c notification with
      ⟨-, ⟨-, heq⟩ | ⟨-, heq⟩⟩ | ⟨-, index, message, -, -, heq⟩ | ⟨-, -, -, heq⟩ <;> rw [heq]
    · exact h
    · refine ⟨?_, h.messages, h.completed⟩
      rw [update, Window.length_replaceKey]
      exact h.notifications
    · exact ⟨h.notifications, herase index h.messages, Window.length_keepNewest_le 64 _⟩
    · exact ⟨Window.length_keepNewest_le 32 _, h.messages, h.completed⟩
  | correlateMap message =>
    rw [AncsMapCorrelator.step]
    rcases correlateMap_cases text c message with
      ⟨index, notification, -, -, heq⟩ | ⟨-, -, heq | ⟨-, -, heq⟩⟩ <;> rw [heq]
    · exact ⟨herase index h.notifications, h.messages, Window.length_keepNewest_le 64 _⟩
    · exact h
    · exact ⟨h.notifications, Window.length_keepNewest_le 32 _, h.completed⟩

theorem uidsKept_of_run {maxDeltaMillis : UInt64} {events : List CorrelatorEvent}
    (hrun : (correlator text).run (new maxDeltaMillis) events = some c) :
    c.UidsKept (pairings text (new maxDeltaMillis) events) := by
  refine (correlator text).run_history
    (P := fun past c => c.UidsKept (pairings text (new maxDeltaMillis) past)) ?_ ?_ hrun
  · exact ⟨.new maxDeltaMillis, fun _ h => absurd h List.not_mem_nil, rfl, List.nodup_nil, .nil⟩
  · intro past d e c hd ih hstep
    obtain rfl : d.step text e = c := Option.some.inj hstep
    rw [pairings_snoc hd]
    exact ih.step e

theorem handlesKept_of_run {maxDeltaMillis : UInt64} {events : List CorrelatorEvent}
    (honce : (offered events).Nodup)
    (hrun : (correlator text).run (new maxDeltaMillis) events = some c) :
    c.HandlesKept events (pairings text (new maxDeltaMillis) events) := by
  refine (correlator text).run_history (P := fun past c => (offered past).Nodup →
    c.HandlesKept past (pairings text (new maxDeltaMillis) past)) ?_ ?_ hrun honce
  · exact fun _ => ⟨fun _ => id, fun _ => id, fun _ h => absurd h List.not_mem_nil, List.nodup_nil⟩
  · intro past d e c hd ih hstep honce
    obtain rfl : d.step text e = c := Option.some.inj hstep
    rw [offered_append, List.nodup_append_comm, List.nodup_append] at honce
    rw [pairings_snoc hd]
    exact (ih honce.2.1).step (uidsKept_of_run hd).distinct
      fun handle hnew hold => honce.2.2 handle hnew handle hold rfl

/-- A run that offers each message once resolves nothing twice: no handle, and no UID until 64
others have completed; what it retains is distinct, not completed, and bounded. -/
theorem correlator_resolves_once {maxDeltaMillis : UInt64} {events : List CorrelatorEvent}
    (honce : (offered events).Nodup)
    (hrun : (correlator text).run (new maxDeltaMillis) events = some c) :
    ((pairings text (new maxDeltaMillis) events).map Prod.fst).Nodup ∧
      Spaced (pairings text (new maxDeltaMillis) events) ∧
      (c.notifications.map (·.notificationUid)).Nodup ∧
      (∀ notification ∈ c.notifications, notification.notificationUid ∉ c.completedUids) ∧
      c.notifications.length ≤ 32 ∧ c.messages.length ≤ 32 ∧ c.completedUids.length ≤ 64 := by
  have hbounded : c.Bounded := (correlator text).run_invariant
    (fun _ e _ hc hstep => Option.some.inj hstep ▸ hc.step e)
    ⟨Nat.zero_le _, Nat.zero_le _, Nat.zero_le _⟩ hrun
  have huids := uidsKept_of_run hrun
  refine ⟨(handlesKept_of_run honce hrun).nodup, huids.spaced, huids.distinct.uids, ?_,
    hbounded.notifications, hbounded.messages, hbounded.completed⟩
  intro notification hmem
  exact huids.apart _ (List.mem_map_of_mem hmem)

/-- A notification repeated after its message, and a second message. -/
def repeatedRun : List CorrelatorEvent :=
  [.observeAncs (notificationFrom "ann"), .correlateMap (messageFrom "ann" "1"),
    .observeAncs (notificationFrom "ann"), .correlateMap (messageFrom "ann" "2")]

theorem correlator_resolves_once_repeated : ∃ c,
    (correlator plainText).run (new 1000) repeatedRun = some c ∧
    pairings plainText (new 1000) repeatedRun = [("1", #v[0, 0, 0, 1])] ∧
    ((pairings plainText (new 1000) repeatedRun).map Prod.fst).Nodup ∧
    Spaced (pairings plainText (new 1000) repeatedRun) ∧
    (c.notifications.map (·.notificationUid)).Nodup ∧
    (∀ notification ∈ c.notifications, notification.notificationUid ∉ c.completedUids) ∧
    c.notifications.length ≤ 32 ∧ c.messages.length ≤ 32 ∧ c.completedUids.length ≤ 64 :=
  ⟨_, rfl, by decide +kernel, correlator_resolves_once (by decide) rfl⟩

end AncsMapCorrelator

end AnalogConnect
