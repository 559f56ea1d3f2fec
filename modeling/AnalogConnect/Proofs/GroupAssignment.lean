import AnalogConnect.Proofs.MessageStore
import AnalogConnect.Sync

/-!
# What lasts in the store

A message's group assignment is a row of its own, which no later correlation changes; but its
conversation key is also written by every sync of the message. So the key stays the group's exactly
as long as no upsert of the handle carries another (`groupAssigned_lasts_iff`). An ambiguity marker
stays until the message is resolved (`marked_of_run`).
-/

namespace AnalogConnect

namespace Store

variable {s s' : Store}

/-- The message is listed under the group it is assigned to. -/
structure InGroup (s : Store) (handle groupId : String) : Prop where
  keyOf_eq : s.keyOf handle = some groupId
  assignedTo_eq : s.assignedTo handle = some groupId

theorem InGroup.applyCorrelation {handle groupId : String} (h : s.InGroup handle groupId)
    (result : CorrelationResult) : (s.applyCorrelation result).2.InGroup handle groupId := by
  cases result with
  | group mapHandle uid groupId' displaySubtitle sender observed =>
    rw [Store.applyCorrelation]
    rcases assignAncsGroup_cases s mapHandle groupId' displaySubtitle sender uid observed.toInt with
      heq | ⟨existing, -, -, heq⟩ | ⟨hsame, heq⟩
    · rw [heq]
      exact h
    · rw [heq]
      exact ⟨h.keyOf_eq, h.assignedTo_eq⟩
    · rw [heq]
      have hkey := keyOf_recordAssignment (s.recordGroup groupId' displaySubtitle observed.toInt)
        mapHandle groupId' sender uid observed.toInt handle
      have hassigned := assignedTo_recordAssignment
        (s.recordGroup groupId' displaySubtitle observed.toInt) mapHandle groupId' sender uid
        observed.toInt handle
      have hsameKey : (s.recordGroup groupId' displaySubtitle observed.toInt).keyOf handle
          = some groupId := h.keyOf_eq
      have hsameGroup : (s.recordGroup groupId' displaySubtitle observed.toInt).assignedTo handle
          = some groupId := h.assignedTo_eq
      refine ⟨?_, ?_⟩
      · rw [hkey, hsameKey, Option.map_some]
        split_ifs with hhandle
        · rw [hsame groupId (hhandle ▸ h.assignedTo_eq)]
        · rfl
      · rw [hassigned, hsameGroup]
        split_ifs <;> rfl
  | directCandidate mapHandle uid => exact ⟨h.keyOf_eq, h.assignedTo_eq⟩
  | pending => exact h
  | ambiguous mapHandles observed =>
    obtain ⟨hmessages, hassignments, -, -⟩ := markAll_spec observed.toInt mapHandles s
    have hgroup : (s.markAll observed.toInt mapHandles).2.InGroup handle groupId :=
      ⟨by rw [keyOf, hmessages]; exact h.keyOf_eq,
        by rw [assignedTo, hassignments]; exact h.assignedTo_eq⟩
    rw [Store.applyCorrelation]
    rcases hmark : s.markAll observed.toInt mapHandles with ⟨error | ok, s''⟩ <;>
      rw [hmark] at hgroup <;> exact hgroup

/-- The event writes a key other than the group's to the message. -/
def Unfiles (handle groupId : String) : StoreEvent → Prop
  | .upsert msg => msg.mapHandle = handle ∧ msg.conversationKey ≠ groupId
  | _ => False

theorem InGroup.step {handle groupId : String} {e : StoreEvent} (h : s.InGroup handle groupId)
    (he : ¬ Unfiles handle groupId e) (hstep : s.step e = some s') :
    s'.InGroup handle groupId := by
  cases e with
  | upsert msg =>
    obtain ⟨hevidence, hkey⟩ := upsert_ok (step_upsert.1 hstep)
    refine ⟨?_, (hevidence.assignedTo_eq handle).trans h.assignedTo_eq⟩
    rw [hkey]
    split_ifs with hhandle
    · have hsame : msg.conversationKey = groupId := by
        by_contra hne
        exact he ⟨hhandle.symm, hne⟩
      rw [hsame]
    · exact h.keyOf_eq
  | reconcileOutgoing outgoing =>
    obtain rfl := Option.some.inj hstep
    exact ⟨(keyOf_reconcileOutgoing s outgoing handle).trans h.keyOf_eq, h.assignedTo_eq⟩
  | setCursor cursor =>
    obtain rfl := Option.some.inj hstep
    exact ⟨h.keyOf_eq, h.assignedTo_eq⟩
  | correlate result reported =>
    simp only [Store.step] at hstep
    split_ifs at hstep
    exact Option.some.inj hstep ▸ h.applyCorrelation result

/-- A reported assignment of a stored message puts it in the group. -/
theorem inGroup_of_groupAssigned {handle groupId displaySubtitle sender : String}
    {uid : NotificationUid} {observed : Int64} (hstored : s.messages.find? handle ≠ none)
    (hstep : s.step (.correlate (.group handle uid groupId displaySubtitle sender observed)
      (.ok .groupAssigned)) = some s') : s'.InGroup handle groupId := by
  simp only [Store.step] at hstep
  split_ifs at hstep with hreported
  obtain rfl := Option.some.inj hstep
  rw [Store.applyCorrelation] at hreported ⊢
  rcases assignAncsGroup_cases s handle groupId displaySubtitle sender uid observed.toInt with
    heq | ⟨existing, -, -, heq⟩ | ⟨hsame, heq⟩
  · simp [heq] at hreported
  · simp [heq] at hreported
  · rw [heq]
    obtain ⟨row, hrow⟩ := Option.ne_none_iff_exists'.1 hstored
    have hkey : (s.recordGroup groupId displaySubtitle observed.toInt).keyOf handle
        = some row.conversationKey := by
      change (s.messages.find? handle).map _ = _
      rw [hrow]
      rfl
    refine ⟨?_, ?_⟩
    · rw [keyOf_recordAssignment, hkey, Option.map_some, if_pos rfl]
    · rw [assignedTo_recordAssignment, if_pos rfl]
      change some ((s.assignedTo handle).getD groupId) = _
      rcases hassigned : s.assignedTo handle with - | existing
      · rfl
      · rw [hsame existing hassigned]
        rfl

/-- Once a stored message is reported assigned to a group, it is listed under the group in every
later state exactly when no later upsert of its handle carries another key. -/
theorem groupAssigned_lasts_iff {s t u : Store} {handle groupId displaySubtitle sender : String}
    {uid : NotificationUid} {observed : Int64} {later : List StoreEvent}
    (hstored : s.messages.find? handle ≠ none)
    (hassigned : messageStore.step s (.correlate
      (.group handle uid groupId displaySubtitle sender observed) (.ok .groupAssigned)) = some t)
    (hlater : messageStore.run t later = some u) :
    (∀ v, messageStore.Through t later v → v.keyOf handle = some groupId) ↔
      ∀ msg, .upsert msg ∈ later → msg.mapHandle = handle → msg.conversationKey = groupId := by
  have ht : t.InGroup handle groupId := inGroup_of_groupAssigned hstored hassigned
  constructor
  · intro hlasts msg hmem hhandle
    obtain ⟨past, future, rfl⟩ := List.append_of_mem hmem
    obtain ⟨v, hpast, hrest⟩ := messageStore.run_append_eq_some.1 hlater
    obtain ⟨w, hstep, -⟩ := messageStore.run_cons_eq_some.1 hrest
    have hw := hlasts w ⟨past ++ [.upsert msg], future, by simp,
      messageStore.run_snoc_eq_some.2 ⟨v, hpast, hstep⟩⟩
    rw [(upsert_ok (step_upsert.1 hstep)).2, if_pos hhandle.symm] at hw
    exact Option.some.inj hw
  · rintro hkeeps v ⟨past, future, rfl, hpast⟩
    refine (messageStore.run_invariant_of_mem (P := fun v => v.InGroup handle groupId) ?_ ht
      hpast).keyOf_eq
    intro v e he w hv hstep
    refine hv.step (fun hunfiles => ?_) hstep
    cases e with
    | upsert msg =>
      exact hunfiles.2 (hkeeps msg (List.mem_append_left _ he) hunfiles.1)
    | reconcileOutgoing outgoing => exact hunfiles
    | setCursor cursor => exact hunfiles
    | correlate result reported => exact hunfiles

section Example

/-- One received message, as the device lists it at every sync. -/
def listedMessage : List (MessageEntry × BMessage) :=
  [(⟨"20000", "", some 1000, "+15550001", "+15550002", true, false⟩, ⟨none, [], "hello"⟩)]

def firstSync : Store := ((Store.empty true).backfillFolder listedMessage .inbox 2000).2

def groupResult : CorrelationResult :=
  .group "20000" (Vector.replicate 4 1) "ancs-v1-00" "Hiking" "+15550001" 1000

theorem groupAssigned_lasts_until_resync : ∃ t u,
    messageStore.step firstSync (.correlate groupResult (.ok .groupAssigned)) = some t ∧
    messageStore.run t [.reconcileOutgoing "20000"] = some u ∧
    ((∀ v, messageStore.Through t [.reconcileOutgoing "20000"] v →
        v.keyOf "20000" = some "ancs-v1-00") ↔
      ∀ msg, .upsert msg ∈ [StoreEvent.reconcileOutgoing "20000"] → msg.mapHandle = "20000" →
        msg.conversationKey = "ancs-v1-00") :=
  ⟨_, _, rfl, rfl, groupAssigned_lasts_iff
    (show firstSync.messages.find? "20000" ≠ none by decide +kernel)
    (show messageStore.step firstSync (.correlate (.group "20000" (Vector.replicate 4 1)
      "ancs-v1-00" "Hiking" "+15550001" 1000) (.ok .groupAssigned)) = some _ from rfl) rfl⟩

/-- The next sync lists the message again, since its timestamp is the cursor's, and files it under
its sender. -/
theorem resync_unfiles_group : ∃ t,
    messageStore.step firstSync (.correlate groupResult (.ok .groupAssigned)) = some t ∧
    t.keyOf "20000" = some "ancs-v1-00" ∧
    (t.backfillFolder listedMessage .inbox 3000).1 = .ok () ∧
    (t.backfillFolder listedMessage .inbox 3000).2.keyOf "20000" = some "+15550001" :=
  ⟨_, rfl, by decide +kernel, by decide +kernel, by decide +kernel⟩

end Example

/-! ## A sync is a run -/

theorem ingest_run (isSent : Bool) (now : ℤ) : ∀ (s : Store) (highest : ℤ)
    (msgs : List FetchedMessage), ∃ events,
      messageStore.run s events = some (s.ingest isSent now highest msgs).2 ∧
      ∀ msg, .upsert msg ∈ events → ∃ fetched ∈ msgs, msg = toNewMessage fetched now
  | s, highest, [] => ⟨[], rfl, by simp⟩
  | s, highest, fetched :: msgs => by
    rcases hupsert : s.upsert (toNewMessage fetched now) with error | s'
    · exact ⟨[], by simp [ingest, hupsert], by simp⟩
    · obtain ⟨events, hrun, hevents⟩ := ingest_run isSent now
        (if isSent then s'.reconcileOutgoing fetched.handle else s')
        (max highest fetched.timestampMs) msgs
      have hupsert' : messageStore.step s (.upsert (toNewMessage fetched now)) = some s' :=
        step_upsert.2 hupsert
      refine ⟨.upsert (toNewMessage fetched now) ::
        (if isSent then [.reconcileOutgoing fetched.handle] else []) ++ events, ?_, ?_⟩
      · rw [List.cons_append, Lts.run_cons_eq_some]
        refine ⟨s', hupsert', ?_⟩
        simp only [ingest, hupsert]
        rw [← hrun]
        cases isSent <;> rfl
      · intro msg hmsg
        have hmsg : msg = toNewMessage fetched now ∨ .upsert msg ∈ events := by
          cases isSent <;> simpa using hmsg
        rcases hmsg with rfl | hmsg
        · exact ⟨fetched, List.mem_cons_self, rfl⟩
        · obtain ⟨f, hf, rfl⟩ := hevents msg hmsg
          exact ⟨f, List.mem_cons_of_mem _ hf, rfl⟩

/-- A folder's sync writes the store as a run whose upserts are the messages it fetched. -/
theorem backfillFolder_run (s : Store) (device : List (MessageEntry × BMessage)) (folder : Folder)
    (now : ℤ) : ∃ events, messageStore.run s events = some (s.backfillFolder device folder now).2 ∧
      ∀ msg, .upsert msg ∈ events → ∃ fetched ∈ fetchFolder device folder
        ((s.getCursor folder.asStr).map (·.highestTs)) now, msg = toNewMessage fetched now := by
  obtain ⟨events, hrun, hevents⟩ := ingest_run (folder = .sent) now s
    (((s.getCursor folder.asStr).map (·.highestTs)).getD 0)
    (fetchFolder device folder ((s.getCursor folder.asStr).map (·.highestTs)) now)
  unfold backfillFolder
  simp only
  split <;> rename_i hingest <;> rw [hingest] at hrun
  · exact ⟨events, hrun, hevents⟩
  · refine ⟨events ++ [.setCursor _], messageStore.run_snoc_eq_some.2 ⟨_, hrun, rfl⟩, ?_⟩
    intro msg hmsg
    exact hevents msg (by simpa using hmsg)

/-- A sync that fetches the message under its group's key, or does not fetch it, leaves it in the
group. -/
theorem InGroup.backfillFolder {handle groupId : String} (h : s.InGroup handle groupId)
    {device : List (MessageEntry × BMessage)} {folder : Folder} {now : ℤ}
    (hfetch : ∀ fetched ∈ fetchFolder device folder
      ((s.getCursor folder.asStr).map (·.highestTs)) now,
      fetched.handle = handle → fetched.conversationKey = groupId) :
    (s.backfillFolder device folder now).2.InGroup handle groupId := by
  obtain ⟨events, hrun, hevents⟩ := backfillFolder_run s device folder now
  refine messageStore.run_invariant_of_mem (P := fun v => v.InGroup handle groupId) ?_ h hrun
  intro v e he w hv hstep
  refine hv.step (fun hunfiles => ?_) hstep
  cases e with
  | upsert msg =>
    obtain ⟨fetched, hmem, rfl⟩ := hevents msg he
    exact hunfiles.2 (hfetch fetched hmem hunfiles.1)
  | reconcileOutgoing outgoing => exact hunfiles
  | setCursor cursor => exact hunfiles
  | correlate result reported => exact hunfiles

/-! ## Markers -/

/-- The event resolves the message's competing evidence. -/
def Resolves (handle : String) : StoreEvent → Prop
  | .correlate (.group mapHandle _ _ _ _ _) (.ok .groupAssigned) => mapHandle = handle
  | .correlate (.directCandidate mapHandle _) (.ok .directCandidate) => mapHandle = handle
  | _ => False

theorem Marked.step {handle : String} {e : StoreEvent} (h : s.Marked handle)
    (he : ¬ Resolves handle e) (hstep : s.step e = some s') : s'.Marked handle := by
  cases e with
  | upsert msg =>
    exact (upsert_ok (step_upsert.1 hstep)).1.marked_iff.2 h
  | reconcileOutgoing outgoing => exact Option.some.inj hstep ▸ h
  | setCursor cursor => exact Option.some.inj hstep ▸ h
  | correlate result reported =>
    simp only [Store.step] at hstep
    split_ifs at hstep with hreported
    obtain rfl := Option.some.inj hstep
    cases result with
    | group mapHandle uid groupId displaySubtitle sender observed =>
      rw [applyCorrelation] at hreported ⊢
      rcases assignAncsGroup_cases s mapHandle groupId displaySubtitle sender uid
        observed.toInt with heq | ⟨existing, -, -, heq⟩ | ⟨-, heq⟩ <;>
        rw [heq] at hreported <;> rw [heq]
      · exact h
      · exact (sameEvidence_flagConflict s groupId displaySubtitle existing
          observed.toInt).marked_iff.2 h
      · refine marked_recordAssignment (fun hhandle => he ?_) h
        rw [← hreported]
        exact hhandle.symm
    | directCandidate mapHandle uid =>
      refine marked_clearAncsAmbiguous (fun hhandle => he ?_) h
      rw [← hreported]
      exact hhandle.symm
    | pending => exact h
    | ambiguous mapHandles observed =>
      have hall := (markAll_spec observed.toInt mapHandles s).2.2.1 handle h
      rw [applyCorrelation]
      rcases hmark : s.markAll observed.toInt mapHandles with ⟨error | ok, s''⟩ <;>
        rw [hmark] at hall <;> exact hall

/-- An applied ambiguous result marks each message it names. -/
theorem marked_of_ambiguous {mapHandles : List String} {observed : Int64}
    (hstep : s.step (.correlate (.ambiguous mapHandles observed) (.ok .ambiguous)) = some s')
    {handle : String} (hmem : handle ∈ mapHandles) : s'.Marked handle := by
  simp only [Store.step] at hstep
  split_ifs at hstep with hreported
  obtain rfl := Option.some.inj hstep
  have hall := (markAll_spec observed.toInt mapHandles s).2.2.2
  rw [applyCorrelation] at hreported ⊢
  rcases hmark : s.markAll observed.toInt mapHandles with ⟨error | ok, s''⟩
  · simp [hmark] at hreported
  · rw [hmark] at hall
    exact hall rfl handle hmem

/-- A marked message stays marked until a result resolves it. -/
theorem marked_of_run {u : Store} {handle : String} {since : List StoreEvent}
    (h : s.Marked handle) (hsince : messageStore.run s since = some u)
    (hres : ∀ e ∈ since, ¬ Resolves handle e) : u.Marked handle :=
  messageStore.run_invariant_of_mem (P := fun v => v.Marked handle)
    (fun _ e he _ hv hstep => hv.step (hres e he) hstep) h hsince

end Store

end AnalogConnect
