import AnalogConnect.Proofs.MessageSend

/-!
# Handlers dropped while they send

The registry forgets an operation on its handler's own way out, so a handler that is dropped while
it holds one leaves it in flight for good: every retry is a conflict. The operations in flight are
those of the handlers still running exactly in the runs that drop no handler holding one
(`in_flight_tracks_live_handlers`).
-/

namespace AnalogConnect

/-- The handler is still running, between `begin` and the recording of its operation. -/
def SendState.Live (s : SendState) (handler : ℕ) (operation : MessageOperationId) : Prop :=
  handler ∉ s.dropped ∧ (s.phase handler).Holds operation

/-- The operations in flight are the running handlers'; so there are no more of them than handlers
running, and an operation whose handler died can be sent again. -/
structure TracksLive (s : SendState) : Prop where
  mem_iff : ∀ operation, operation ∈ s.registry.inFlight ↔ ∃ handler, s.Live handler operation
  length_le : ∀ handlers : List ℕ, (∀ handler operation, s.Live handler operation →
    handler ∈ handlers) → s.registry.inFlight.length ≤ handlers.length
  retry : ∀ operation message request,
    OutboundMessage.new request.recipient request.body = .ok message → request.Names operation →
    operation ∉ s.registry.accepted → (∀ handler, ¬ s.Live handler operation) →
    (sendMessage s.registry request).1 = .send message (some operation)

/-- Some handler of the run is dropped while it holds an operation. -/
def DropsHolder (capacity : ℕ) (es : List SendEvent) : Prop :=
  ∃ t handler operation, messageSender.Before (.start capacity) es t (.dropped handler) ∧
    (t.phase handler).Holds operation

/-- No handler that was dropped held an operation, and none starts again. -/
def NoneLost (s : SendState) : Prop :=
  ∀ handler ∈ s.dropped, s.phase handler ≠ .idle ∧ ∀ operation, ¬ (s.phase handler).Holds operation

section Step

variable {s s' : SendState} {e : SendEvent} {handler : ℕ} {operation : Option MessageOperationId}
  {succeeded : Bool} {capacity : ℕ} {past : List SendEvent}

theorem SendPhase.Holds.eq {phase : SendPhase} {id id' : MessageOperationId} (h : phase.Holds id)
    (h' : phase.Holds id') : id = id' := by
  cases phase with
  | idle => cases h
  | sending message operation => exact Option.some.inj (h.symm.trans h')
  | returned operation succeeded => exact Option.some.inj (h.symm.trans h')

theorem not_dropped_of_recorded
    (h : messageSender.step s (.recorded handler operation succeeded) = some s') :
    handler ∉ s.dropped := by
  change s.step (.recorded handler operation succeeded) = some s' at h
  simp only [SendState.step] at h
  split_ifs at h with hguard
  exact hguard.2

/-- A handler that was not dropped goes on without losing anything. -/
theorem NoneLost.setPhase {phase : SendPhase} (hlost : NoneLost s) (hlive : handler ∉ s.dropped) :
    NoneLost (s.setPhase handler phase) := by
  intro h hh
  have hne : h ≠ handler := by
    rintro rfl
    exact hlive hh
  rw [setPhase_phase, if_neg hne]
  exact hlost h hh

theorem NoneLost.step (hlost : NoneLost s)
    (hdropped : ∀ handler operation, e = .dropped handler → ¬ (s.phase handler).Holds operation)
    (h : messageSender.step s e = some s') : NoneLost s' := by
  cases e with
  | request handler request =>
    obtain ⟨hidle, hcases⟩ := step_request h
    have hlive : handler ∉ s.dropped := fun hmem => (hlost handler hmem).1 hidle
    rcases hcases with rfl | ⟨message, rfl⟩ | ⟨message, operation, -, -, -, rfl⟩
    · exact hlost
    · exact hlost.setPhase hlive
    · have hflight : NoneLost { s with registry.inFlight := operation :: s.registry.inFlight } :=
        hlost
      exact hflight.setPhase hlive
  | sent handler operation succeeded =>
    obtain ⟨⟨message, hphase⟩, rfl⟩ := step_sent h
    intro h hh
    rw [setPhase_phase]
    split_ifs with hhandler
    · have hheld := (hlost h hh).2
      rw [hhandler, hphase] at hheld
      exact ⟨by simp, hheld⟩
    · exact hlost h hh
  | recorded handler operation succeeded =>
    have hlive := not_dropped_of_recorded h
    obtain ⟨-, rfl⟩ := step_recorded h
    have hrecorded :
        NoneLost { s with registry := recordOutcome s.registry operation succeeded } := hlost
    exact hrecorded.setPhase hlive
  | dropped handler =>
    have hbusy : s.phase handler ≠ .idle := by
      intro hidle
      change s.step (.dropped handler) = some s' at h
      simp [SendState.step, hidle] at h
    obtain rfl := step_dropped h
    intro h hh
    rcases List.mem_cons.1 hh with rfl | hh
    · exact ⟨hbusy, fun operation => hdropped _ operation rfl⟩
    · exact hlost h hh

/-- Where no handler is lost the operations in flight are the running handlers'. -/
theorem NoneLost.tracksLive (hlost : NoneLost s) (hinv : SendInv capacity past s) :
    TracksLive s := by
  have hmem : ∀ operation, operation ∈ s.registry.inFlight ↔
      ∃ handler, s.Live handler operation := by
    intro operation
    rw [hinv.holder]
    constructor
    · rintro ⟨handler, hheld⟩
      exact ⟨handler, fun hdropped => (hlost handler hdropped).2 operation hheld, hheld⟩
    · rintro ⟨handler, -, hheld⟩
      exact ⟨handler, hheld⟩
  refine ⟨hmem, fun handlers hall => ?_, fun operation message request hmessage hnames haccepted
    hdead => ?_⟩
  · choose! holder hholder using fun operation => (hmem operation).1
    have hnodup : (s.registry.inFlight.map holder).Nodup := by
      refine hinv.inFlight_nodup.map_on fun id hid id' hid' heq => ?_
      have hheld' := (hholder id' hid').2
      rw [← heq] at hheld'
      exact (hholder id hid).2.eq hheld'
    have hsubset : s.registry.inFlight.map holder ⊆ handlers := by
      intro handler hhandler
      obtain ⟨id, hid, rfl⟩ := List.mem_map.1 hhandler
      exact hall _ id (hholder id hid)
    have hle := (List.subperm_of_subset hnodup hsubset).length_le
    rwa [List.length_map] at hle
  · have hflight : operation ∉ s.registry.inFlight := by
      rw [hmem]
      rintro ⟨handler, hlive⟩
      exact hdead handler hlive
    rw [sendMessage_of_names hmessage hnames, if_neg haccepted, if_neg hflight]

end Step

section Run

variable {capacity : ℕ} {es : List SendEvent} {s t : SendState}

theorem noneLost_of_through (h : ¬ DropsHolder capacity es)
    (ht : messageSender.Through (.start capacity) es t) : NoneLost t := by
  refine messageSender.through_invariant (fun handler hhandler => ?_) ?_ ht
  · cases hhandler
  · intro u e t hbefore hu hstep
    exact hu.step (fun handler operation he hheld => h ⟨u, handler, operation, he ▸ hbefore, hheld⟩)
      hstep

/-- The state after a holder is dropped holds in flight what no running handler holds. -/
theorem not_tracksLive_of_dropped {handler : ℕ} {operation : MessageOperationId}
    {past : List SendEvent} (hinv : SendInv capacity past s)
    (hheld : (s.phase handler).Holds operation)
    (hstep : messageSender.step s (.dropped handler) = some t) :
    operation ∈ t.registry.inFlight ∧ ∀ handler', ¬ t.Live handler' operation := by
  obtain rfl := step_dropped hstep
  refine ⟨(hinv.holder operation).2 ⟨handler, hheld⟩, ?_⟩
  rintro handler' ⟨hlive, hheld'⟩
  rw [hinv.unique operation handler' handler hheld' hheld] at hlive
  exact hlive List.mem_cons_self

/-- All through a run the operations in flight are the running handlers' exactly when the run drops
no handler that holds one. -/
theorem in_flight_tracks_live_handlers {capacity : ℕ} {es : List SendEvent} {s : SendState}
    (hrun : messageSender.run (.start capacity) es = some s) :
    (∀ t, messageSender.Through (.start capacity) es t → TracksLive t) ↔
      ¬ DropsHolder capacity es := by
  constructor
  · rintro htracks ⟨t, handler, operation, ⟨past, future, rfl, ht⟩, hheld⟩
    obtain ⟨t', ht', hrest⟩ := messageSender.run_append_eq_some.1 hrun
    rw [ht, Option.some.injEq] at ht'
    subst ht'
    obtain ⟨u, hstep, -⟩ := messageSender.run_cons_eq_some.1 hrest
    obtain ⟨hflight, hdead⟩ := not_tracksLive_of_dropped (sendInv_of_run ht) hheld hstep
    have hu := htracks u ⟨past ++ [.dropped handler], future, by simp,
      messageSender.run_snoc_eq_some.2 ⟨t, ht, hstep⟩⟩
    obtain ⟨handler', hlive⟩ := (hu.mem_iff operation).1 hflight
    exact hdead handler' hlive
  · intro h t ht
    have hnone := noneLost_of_through h ht
    obtain ⟨past, -, -, ht⟩ := ht
    exact hnone.tracksLive (sendInv_of_run ht)

end Run

theorem in_flight_tracks_live_handlers_retry : ∃ s,
    messageSender.run (.start 256) retriedRun = some s ∧
      ∀ t, messageSender.Through (.start 256) retriedRun t → TracksLive t := by
  have hrun : (messageSender.run (.start 256) retriedRun).isSome = true := by decide +kernel
  obtain ⟨s, hs⟩ := Option.isSome_iff_exists.1 hrun
  refine ⟨s, hs, (in_flight_tracks_live_handlers hs).2 ?_⟩
  rintro ⟨t, handler, operation, ⟨past, future, hes, -⟩, -⟩
  have hmem : SendEvent.dropped handler ∈ retriedRun := by
    rw [hes]
    simp
  simp [retriedRun] at hmem

/-- A client that hangs up while its message is sent. -/
def cancelledRun : List SendEvent :=
  [.request 0 ⟨"+12025550101", "On my way", some "0123456789abcdef0123456789abcdef"⟩, .dropped 0,
    .sent 0 (some retriedOperation) true]

/-- The send succeeds, and the client's retry is a conflict with a handler that no longer runs. -/
theorem cancelled_operation_stays_in_flight : ∃ s,
    messageSender.run (.start 256) cancelledRun = some s ∧ ¬ TracksLive s ∧
      retriedOperation ∈ s.registry.inFlight ∧ (∀ handler, ¬ s.Live handler retriedOperation) ∧
      (sendMessage s.registry
        ⟨"+12025550101", "On my way", some "0123456789abcdef0123456789abcdef"⟩).1 = .conflict := by
  have hend : (messageSender.run (.start 256) cancelledRun).map (fun s =>
      (s.phase 0, s.dropped, (sendMessage s.registry
        ⟨"+12025550101", "On my way", some "0123456789abcdef0123456789abcdef"⟩).1))
      = some (.returned (some retriedOperation) true, [0], .conflict) := by
    decide +kernel
  obtain ⟨s, hs, hvalues⟩ := Option.map_eq_some_iff.1 hend
  obtain ⟨hphase, hrest⟩ := Prod.mk.inj hvalues
  obtain ⟨hdropped, hconflict⟩ := Prod.mk.inj hrest
  have hinv := sendInv_of_run hs
  have hheld : (s.phase 0).Holds retriedOperation := by
    rw [hphase]
    rfl
  have hflight : retriedOperation ∈ s.registry.inFlight := (hinv.holder _).2 ⟨0, hheld⟩
  have hdead : ∀ handler, ¬ s.Live handler retriedOperation := by
    rintro handler ⟨hlive, hheld'⟩
    rw [hinv.unique _ handler 0 hheld' hheld, hdropped] at hlive
    exact hlive List.mem_cons_self
  refine ⟨s, hs, fun htracks => ?_, hflight, hdead, hconflict⟩
  obtain ⟨handler, hlive⟩ := (htracks.mem_iff retriedOperation).1 hflight
  exact hdead handler hlive

end AnalogConnect
