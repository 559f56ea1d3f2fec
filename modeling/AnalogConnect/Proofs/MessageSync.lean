import AnalogConnect.MessageSync

/-!
# When message synchronization stays lawful

The state machine was written for one synchronization at a time: a second may start while one runs,
but the first to finish leaves the machine as if none did. From then on the summary is wrong, and a
failure of the other finds the machine idle, from where it may not back off.

So a run is lawful in every state exactly when no synchronization finishes while another is in
progress (`message_sync_lawful_iff`).
-/

namespace AnalogConnect

/-- The outcomes of the synchronizations that finished. -/
def finishedSyncs (events : List SyncEvent) : List Bool :=
  events.filterMap fun
    | .finish _ succeeded _ => some succeeded
    | _ => none

/-- The state when nothing is in progress: backing off if the last synchronization failed. -/
def settledState (outcomes : List Bool) : MessageSyncState :=
  if outcomes.getLast? = some false then .backingOff else .idle

namespace MessageSyncCoordinator

variable {c c' : MessageSyncCoordinator} {caller : ℕ} {events : List SyncEvent}

def InProgress (c : MessageSyncCoordinator) : Prop := ∃ caller, c.phase caller = .syncing

/-- The summary says what the events were, and no call met a poisoned lock. -/
structure Lawful (events : List SyncEvent) (c : MessageSyncCoordinator) : Prop where
  unpoisoned : ∀ caller, c.phase caller ≠ .returned (.error .lockPoisoned)
  syncing_iff : c.summary.state = .syncing ↔ c.InProgress
  settled : ¬ c.InProgress → c.summary.state = settledState (finishedSyncs events)
  counted : (finishedSyncs events).length ≤ u64Max →
    c.summary.successfulSyncs + c.summary.failedSyncs = (finishedSyncs events).length

/-- The counters, also where they are full. -/
structure Counts (outcomes : List Bool) (summary : MessageSyncSummary) : Prop where
  successful : summary.successfulSyncs = min (outcomes.count true) u64Max
  failed : summary.failedSyncs = min (outcomes.count false) u64Max

theorem count_add_count (outcomes : List Bool) :
    outcomes.count true + outcomes.count false = outcomes.length := by
  induction outcomes with
  | nil => rfl
  | cons outcome outcomes ih =>
    cases outcome <;> simp <;> omega

theorem Counts.sum {outcomes : List Bool} {summary : MessageSyncSummary}
    (h : Counts outcomes summary) (hfew : outcomes.length ≤ u64Max) :
    summary.successfulSyncs + summary.failedSyncs = outcomes.length := by
  have hcount := count_add_count outcomes
  rw [h.successful, h.failed]
  omega

theorem setPhase_phase (c : MessageSyncCoordinator) (caller other : ℕ) (phase : CallPhase) :
    (c.setPhase caller phase).phase other = if other = caller then phase else c.phase other := rfl

theorem step_finish {succeeded : Bool} {clock : Option ℕ}
    (h : messageSyncs.step c (.finish caller succeeded clock) = some c') :
    c.phase caller = .syncing ∧ c' = c.finish caller succeeded clock := by
  simp only [messageSyncs] at h
  split at h
  next hphase => exact ⟨hphase, (Option.some.inj h).symm⟩
  · cases h

/-- What a step does, by the lock it takes. -/
theorem step_cases {e : SyncEvent} (h : messageSyncs.step c e = some c') :
    (∃ caller answer, finishedSyncs [e] = [] ∧ (c.phase caller).Free ∧
      c' = c.decided caller answer) ∨
    (∃ caller, e = .start caller ∧ c.phase caller = .triggered ∧ c' = c.start caller) ∨
    ∃ caller succeeded clock, e = .finish caller succeeded clock ∧ c.phase caller = .syncing ∧
      c' = c.finish caller succeeded clock := by
  cases e with
  | tick caller now =>
    simp only [messageSyncs] at h
    split_ifs at h with hfree
    exact .inl ⟨caller, _, rfl, hfree, (Option.some.inj h).symm⟩
  | notification caller now wireName =>
    simp only [messageSyncs] at h
    split_ifs at h with hfree
    exact .inl ⟨caller, _, rfl, hfree, (Option.some.inj h).symm⟩
  | start caller =>
    simp only [messageSyncs] at h
    split at h
    next hphase => exact .inr (.inl ⟨caller, rfl, hphase, (Option.some.inj h).symm⟩)
    · cases h
  | finish caller succeeded clock =>
    obtain ⟨hphase, hafter⟩ := step_finish h
    exact .inr (.inr ⟨caller, succeeded, clock, rfl, hphase, hafter⟩)

/-! ## While no synchronization finishes beside another -/

/-- What a run keeps in which none does. -/
structure Orderly (events : List SyncEvent) (c : MessageSyncCoordinator) : Prop where
  unpoisoned : ∀ caller, c.phase caller ≠ .returned (.error .lockPoisoned)
  syncing : c.InProgress → c.summary.state = .syncing
  settled : ¬ c.InProgress → c.summary.state = settledState (finishedSyncs events)
  counts : Counts (finishedSyncs events) c.summary

theorem settledState_cases (outcomes : List Bool) :
    settledState outcomes = .idle ∨ settledState outcomes = .backingOff := by
  unfold settledState
  split
  · exact .inr rfl
  · exact .inl rfl

theorem Orderly.lawful (h : Orderly events c) : Lawful events c where
  unpoisoned := h.unpoisoned
  syncing_iff := by
    refine ⟨fun hstate => ?_, h.syncing⟩
    by_contra hnone
    have hsettled := h.settled hnone
    rw [hstate] at hsettled
    rcases settledState_cases (finishedSyncs events) with heq | heq <;> rw [heq] at hsettled <;>
      cases hsettled
  settled := h.settled
  counted := h.counts.sum

theorem Orderly.state_ne_error (h : Orderly events c) : c.summary.state ≠ .error := by
  by_cases hprogress : c.InProgress
  · rw [h.syncing hprogress]
    decide
  · rw [h.settled hprogress]
    rcases settledState_cases (finishedSyncs events) with heq | heq <;> rw [heq] <;> decide

theorem orderly_new (scheduler : MessageSyncScheduler) : Orderly [] (.new scheduler) where
  unpoisoned := fun _ => by simp [new]
  syncing := by
    rintro ⟨caller, hcaller⟩
    cases hcaller
  settled := fun _ => rfl
  counts := ⟨rfl, rfl⟩

theorem inProgress_setPhase {phase : CallPhase} (hphase : phase ≠ .syncing)
    (hcaller : c.phase caller ≠ .syncing) :
    (c.setPhase caller phase).InProgress ↔ c.InProgress := by
  unfold InProgress
  refine exists_congr fun other => ?_
  rw [setPhase_phase]
  by_cases hother : other = caller
  · rw [if_pos hother, hother]
    exact iff_of_false hphase hcaller
  · rw [if_neg hother]

theorem finishedSyncs_append (events events' : List SyncEvent) :
    finishedSyncs (events ++ events') = finishedSyncs events ++ finishedSyncs events' :=
  List.filterMap_append

theorem Orderly.decided (h : Orderly events c) {e : SyncEvent} (he : finishedSyncs [e] = [])
    (hfree : (c.phase caller).Free) (answer : Option SyncTrigger × MessageSyncScheduler) :
    Orderly (events ++ [e]) (c.decided caller answer) := by
  have hnot : c.phase caller ≠ .syncing := by
    intro hsyncing
    rw [hsyncing] at hfree
    exact hfree
  have hprogress : (c.decided caller answer).InProgress ↔ c.InProgress :=
    inProgress_setPhase (by split <;> simp) hnot
  have hevents : finishedSyncs (events ++ [e]) = finishedSyncs events := by
    rw [finishedSyncs_append, he, List.append_nil]
  refine ⟨fun other => ?_, fun hin => h.syncing (hprogress.1 hin), fun hout => ?_, ?_⟩
  · unfold MessageSyncCoordinator.decided
    rw [setPhase_phase]
    by_cases hother : other = caller
    · rw [if_pos hother]
      split <;> simp
    · rw [if_neg hother]
      exact h.unpoisoned other
  · rw [hevents]
    exact h.settled fun hin => hout (hprogress.2 hin)
  · rw [hevents]
    exact ⟨h.counts.successful, h.counts.failed⟩

/-- From every state but an error, a synchronization starts. -/
theorem start_eq (h : c.summary.state ≠ .error) (caller : ℕ) :
    c.start caller = { c with
      summary := { c.summary with state := .syncing } }.setPhase caller .syncing := by
  unfold start SyncState.transitionTo
  rw [if_pos ((SyncState.allowed_syncing_iff _).2 h)]

theorem Orderly.start (h : Orderly events c) (caller : ℕ) :
    Orderly (events ++ [.start caller]) (c.start caller) := by
  have hevents : finishedSyncs (events ++ [.start caller]) = finishedSyncs events := by
    rw [finishedSyncs_append]
    exact List.append_nil _
  rw [start_eq h.state_ne_error]
  refine ⟨fun other => ?_, fun _ => rfl, fun hout => ?_, ?_⟩
  · rw [setPhase_phase]
    by_cases hother : other = caller
    · rw [if_pos hother]
      simp
    · rw [if_neg hother]
      exact h.unpoisoned other
  · exact absurd ⟨caller, by rw [setPhase_phase, if_pos rfl]⟩ hout
  · rw [hevents]
    exact ⟨h.counts.successful, h.counts.failed⟩

/-- What finishing leaves of the summary, while the machine is syncing. -/
theorem finish_spec (h : c.summary.state = .syncing) (caller : ℕ) (succeeded : Bool)
    (clock : Option ℕ) :
    let c' := c.finish caller succeeded clock
    c'.summary.state = (if succeeded then .idle else .backingOff) ∧
      c'.summary.successfulSyncs =
        (if succeeded then saturatingAdd c.summary.successfulSyncs 1
          else c.summary.successfulSyncs) ∧
      c'.summary.failedSyncs =
        (if succeeded then c.summary.failedSyncs else saturatingAdd c.summary.failedSyncs 1) ∧
      ∀ other, c'.phase other = if other = caller then
        .returned (if succeeded then .ok () else .error .syncFailed) else c.phase other := by
  unfold finish SyncState.transitionTo
  cases succeeded <;> simp only [Bool.false_eq_true, if_true, if_false, h,
    SyncState.allowed_of_syncing]
  · exact ⟨rfl, rfl, rfl, fun other => rfl⟩
  · exact ⟨rfl, rfl, rfl, fun other => rfl⟩

theorem Counts.snoc {outcomes : List Bool} {summary summary' : MessageSyncSummary}
    (h : Counts outcomes summary) (succeeded : Bool)
    (hsuccessful : summary'.successfulSyncs =
      if succeeded then saturatingAdd summary.successfulSyncs 1 else summary.successfulSyncs)
    (hfailed : summary'.failedSyncs =
      if succeeded then summary.failedSyncs else saturatingAdd summary.failedSyncs 1) :
    Counts (outcomes ++ [succeeded]) summary' := by
  cases succeeded
  · refine ⟨?_, ?_⟩
    · simpa using hsuccessful.trans h.successful
    · rw [hfailed, if_neg (by simp), h.failed, saturatingAdd_min]
      simp
  · refine ⟨?_, ?_⟩
    · rw [hsuccessful, if_pos rfl, h.successful, saturatingAdd_min]
      simp
    · simpa using hfailed.trans h.failed

theorem Orderly.finish (h : Orderly events c) (hcaller : c.phase caller = .syncing)
    (halone : ∀ other, c.phase other = .syncing → other = caller) (succeeded : Bool)
    (clock : Option ℕ) :
    Orderly (events ++ [.finish caller succeeded clock]) (c.finish caller succeeded clock) := by
  have hevents : finishedSyncs (events ++ [.finish caller succeeded clock]) =
      finishedSyncs events ++ [succeeded] := finishedSyncs_append _ _
  obtain ⟨hstate, hsuccessful, hfailed, hphase⟩ :=
    finish_spec (h.syncing ⟨caller, hcaller⟩) caller succeeded clock
  refine ⟨fun other => ?_, ?_, fun _ => ?_, ?_⟩
  · rw [hphase]
    by_cases hother : other = caller
    · rw [if_pos hother]
      cases succeeded <;> simp
    · rw [if_neg hother]
      exact h.unpoisoned other
  · rintro ⟨other, hother⟩
    rw [hphase] at hother
    split_ifs at hother with heq
    exact absurd (halone other hother) heq
  · rw [hevents, hstate]
    unfold settledState
    rw [List.getLast?_concat]
    cases succeeded <;> rfl
  · rw [hevents]
    exact h.counts.snoc succeeded hsuccessful hfailed

/-- No synchronization of the run finishes while another is in progress. -/
def FinishAlone (scheduler : MessageSyncScheduler) (events : List SyncEvent) : Prop :=
  ∀ c caller succeeded clock,
    messageSyncs.Before (.new scheduler) events c (.finish caller succeeded clock) →
      ∀ other, c.phase other = .syncing → other = caller

theorem orderly_run {scheduler : MessageSyncScheduler}
    (h : messageSyncs.run (.new scheduler) events = some c)
    (halone : FinishAlone scheduler events) : Orderly events c := by
  refine messageSyncs.run_history (P := fun past t => FinishAlone scheduler past → Orderly past t)
    (fun _ => orderly_new scheduler) (fun past t e t' hpast ih hstep halone => ?_) h halone
  have horderly : Orderly past t := ih fun u caller succeeded clock hbefore =>
    halone u caller succeeded clock ((messageSyncs.before_snoc hpast).2 (.inl hbefore))
  rcases step_cases hstep with ⟨caller, answer, he, hfree, rfl⟩ | ⟨caller, rfl, -, rfl⟩ |
    ⟨caller, succeeded, clock, rfl, hphase, rfl⟩
  · exact horderly.decided he hfree answer
  · exact horderly.start caller
  · exact horderly.finish hphase (halone t caller succeeded clock
      ((messageSyncs.before_snoc hpast).2 (.inr ⟨rfl, rfl⟩))) succeeded clock

/-- The summary is lawful throughout a run exactly when no synchronization finishes while another
is in progress. -/
theorem message_sync_lawful_iff {scheduler : MessageSyncScheduler} {events : List SyncEvent}
    {c : MessageSyncCoordinator} (h : messageSyncs.run (.new scheduler) events = some c) :
    (∀ past future t, events = past ++ future → messageSyncs.run (.new scheduler) past = some t →
      Lawful past t) ↔ FinishAlone scheduler events := by
  constructor
  · rintro hlawful t caller succeeded clock ⟨past, future, rfl, hpast⟩ other hother
    by_contra hne
    have hbefore := hlawful past _ t rfl hpast
    have hstate : t.summary.state = .syncing := hbefore.syncing_iff.2 ⟨other, hother⟩
    obtain ⟨t', ht'⟩ := Lts.Before.step messageSyncs ⟨past, future, rfl, hpast⟩ h
    obtain ⟨-, rfl⟩ := step_finish ht'
    obtain ⟨hafter, -, -, hphase⟩ := finish_spec hstate caller succeeded clock
    have hlast := hlawful (past ++ [.finish caller succeeded clock]) future _ (by simp)
      (messageSyncs.run_snoc_eq_some.2 ⟨t, hpast, ht'⟩)
    have hin := hlast.syncing_iff.2 ⟨other, by rw [hphase, if_neg hne, hother]⟩
    rw [hafter] at hin
    cases succeeded <;> cases hin
  · rintro halone past future t rfl ht
    refine (orderly_run ht fun u caller succeeded clock hbefore => ?_).lawful
    obtain ⟨earlier, later, rfl, hu⟩ := hbefore
    exact halone u caller succeeded clock ⟨earlier, later ++ future, by simp, hu⟩

/-- Two calls synchronize at once, the first succeeds and the second fails. -/
def overlappingSyncs : List SyncEvent :=
  [.tick 0 0, .notification 1 1 "NewMessage", .start 0, .start 1, .finish 0 true none,
    .finish 1 false none]

/-- The summary is idle with a synchronization in progress, and the failure that follows is told as
a poisoned lock. -/
theorem overlapping_syncs_unlawful :
    (∃ c, messageSyncs.run (.new (.new 30 90)) overlappingSyncs = some c ∧
      c.phase 1 = .returned (.error .lockPoisoned)) ∧
    ¬ ∀ past future t, overlappingSyncs = past ++ future →
      messageSyncs.run (.new (.new 30 90)) past = some t → Lawful past t := by
  refine ⟨⟨_, rfl, rfl⟩, fun h => ?_⟩
  exact (h overlappingSyncs [] _ rfl rfl).unpoisoned 1 rfl

/-- A synchronization that fails, and one after it that succeeds. -/
def separateSyncs : List SyncEvent :=
  [.tick 0 0, .start 0, .finish 0 false none, .notification 0 1 "NewMessage", .start 0,
    .finish 0 true (some 5)]

theorem message_sync_lawful_iff_separate :
    (∀ past future t, separateSyncs = past ++ future →
      messageSyncs.run (.new (.new 30 90)) past = some t → Lawful past t) ↔
    FinishAlone (.new 30 90) separateSyncs :=
  message_sync_lawful_iff rfl

end MessageSyncCoordinator

end AnalogConnect
