import AnalogConnect.Calls

/-!
# Which calls the phone can show

The daemon folds any number of calls into one state by a fixed precedence. The phone's client knows
no `outgoing` and no `held`, which the daemon reports when nothing takes precedence over a call
being placed or held; every other state is one the controller knows and the keys act on.
-/

namespace AnalogConnect

open PhysicalCallKeyDispatcher

/-- The precedence of the states, one case for each. -/
theorem aggregateCallState_cases (states : List LiveCallState) :
    .active ∈ states ∧ aggregateCallState states = .active ∨
    .active ∉ states ∧ .incoming ∈ states ∧ aggregateCallState states = .incoming ∨
    .active ∉ states ∧ .incoming ∉ states ∧ (.dialing ∈ states ∨ .alerting ∈ states) ∧
      aggregateCallState states = .outgoing ∨
    .active ∉ states ∧ .incoming ∉ states ∧ .dialing ∉ states ∧ .alerting ∉ states ∧
      .held ∈ states ∧ aggregateCallState states = .held ∨
    (∀ state ∈ states, state = .disconnected) ∧
      (aggregateCallState states = .ended ∨ aggregateCallState states = .idle) := by
  have hany : (states.any fun state => state = .dialing ∨ state = .alerting) ↔
      .dialing ∈ states ∨ .alerting ∈ states := by
    simp only [Bool.decide_or, List.any_eq_true, Bool.or_eq_true, decide_eq_true_eq]
    constructor
    · rintro ⟨state, hmem, rfl | rfl⟩
      · exact .inl hmem
      · exact .inr hmem
    · rintro (hmem | hmem)
      · exact ⟨_, hmem, .inl rfl⟩
      · exact ⟨_, hmem, .inr rfl⟩
  unfold aggregateCallState
  by_cases hactive : .active ∈ states
  · exact .inl ⟨hactive, if_pos hactive⟩
  by_cases hincoming : .incoming ∈ states
  · exact .inr (.inl ⟨hactive, hincoming, by rw [if_neg hactive, if_pos hincoming]⟩)
  rw [if_neg hactive, if_neg hincoming]
  by_cases hplaced : .dialing ∈ states ∨ .alerting ∈ states
  · exact .inr (.inr (.inl ⟨hactive, hincoming, hplaced, if_pos (hany.mpr hplaced)⟩))
  rw [if_neg (mt hany.mp hplaced)]
  rw [not_or] at hplaced
  by_cases hheld : .held ∈ states
  · exact .inr (.inr (.inr (.inl ⟨hactive, hincoming, hplaced.1, hplaced.2, hheld, if_pos hheld⟩)))
  rw [if_neg hheld]
  refine .inr (.inr (.inr (.inr ⟨?_, ?_⟩)))
  · intro state hmem
    cases state with
    | disconnected => rfl
    | active => exact absurd hmem hactive
    | incoming => exact absurd hmem hincoming
    | dialing => exact absurd hmem hplaced.1
    | alerting => exact absurd hmem hplaced.2
    | held => exact absurd hmem hheld
  · by_cases hdisconnected : .disconnected ∈ states
    · exact .inl (if_pos hdisconnected)
    · exact .inr (if_neg hdisconnected)

theorem callState_ok {call accepted : String} (h : ApiClient.callState call = .ok accepted) :
    accepted = call := by
  unfold ApiClient.callState at h
  split_ifs at h
  exact (Except.ok.inj h).symm

/-- The controller knows every string the client accepts. -/
theorem reduce_of_callState {call accepted : String}
    (h : ApiClient.callState call = .ok accepted) :
    ∃ state, CallController.reduce accepted = .ok state := by
  obtain rfl := callState_ok h
  unfold ApiClient.callState at h
  split_ifs at h with hcall
  rcases hcall with rfl | rfl | rfl | rfl | rfl | rfl <;> exact ⟨_, rfl⟩

theorem dispatch_of_isEndKey {call : String} {keyCode : ℤ} (hkey : isEndKey keyCode = true) :
    dispatch call keyCode true 0 =
      if call = "incoming" then ⟨.reject, ""⟩
      else if call = "dialing" ∨ call = "ringing" ∨ call = "active" then ⟨.hangUp, ""⟩
      else PhysicalCallKeyDispatcher.none := by
  have hend : keyCode = keyEndcall ∨ keyCode = keyPower := by simpa [isEndKey] using hkey
  have hcall : keyCode ≠ keyCall := by
    rcases hend with rfl | rfl <;> decide
  unfold dispatch
  rw [if_neg (by simp), if_neg hcall, if_pos hend]

/-- The end keys do what the controller says can be done. -/
theorem dispatch_endKey {call : String} {state : CallController.State} {keyCode : ℤ}
    (h : CallController.reduce call = .ok state) (hkey : isEndKey keyCode = true) :
    (dispatch call keyCode true 0).action =
      if state.canReject then .reject else if state.canHangUp then .hangUp else .none := by
  rw [dispatch_of_isEndKey hkey]
  unfold CallController.reduce at h
  split_ifs at h with hidle hdialing hincoming hactive hending hended herror
  all_goals obtain rfl := Except.ok.inj h
  · subst hidle
    rfl
  · rcases hdialing with rfl | rfl <;> rfl
  · subst hincoming
    rfl
  · subst hactive
    rfl
  · subst hending
    rfl
  · subst hended
    rfl
  · rcases herror with rfl | rfl | rfl <;> rfl

theorem callState_serialize_iff (call : CallState) :
    (∃ accepted, ApiClient.callState call.serialize = .ok accepted) ↔
      call ≠ .outgoing ∧ call ≠ .held := by
  cases call with
  | outgoing => simp [ApiClient.callState, CallState.serialize]
  | held => simp [ApiClient.callState, CallState.serialize]
  | _ => simp [ApiClient.callState, CallState.serialize]

/-- The phone can show the daemon's state for these calls, and its end keys act while one of them
is incoming, dialing, alerting, active or held. -/
def Usable (states : List LiveCallState) : Prop :=
  ∃ call, ApiClient.callState (aggregateCallState states).serialize = .ok call ∧
    (∃ state, CallController.reduce call = .ok state) ∧
    ((∃ state ∈ states, state ≠ .disconnected) → ∀ keyCode, isEndKey keyCode = true →
      (dispatch call keyCode true 0).action = .reject ∨
        (dispatch call keyCode true 0).action = .hangUp)

theorem not_usable_of_aggregate {states : List LiveCallState}
    (h : aggregateCallState states = .outgoing ∨ aggregateCallState states = .held) :
    ¬ Usable states := by
  rintro ⟨call, hcall, -, -⟩
  have hne := (callState_serialize_iff (aggregateCallState states)).mp ⟨call, hcall⟩
  exact h.elim hne.1 hne.2

theorem aggregateCallState_usable_iff (states : List LiveCallState) :
    Usable states ↔ .active ∈ states ∨ .incoming ∈ states ∨
      (.dialing ∉ states ∧ .alerting ∉ states ∧ .held ∉ states) := by
  have hkeys : ∀ {call : String} {keyCode : ℤ}, call = "active" ∨ call = "incoming" →
      isEndKey keyCode = true → (dispatch call keyCode true 0).action = .reject ∨
        (dispatch call keyCode true 0).action = .hangUp := by
    rintro call keyCode (rfl | rfl) hkey
    · rw [dispatch_of_isEndKey hkey]
      exact .inr rfl
    · rw [dispatch_of_isEndKey hkey]
      exact .inl rfl
  rcases aggregateCallState_cases states with ⟨hactive, heq⟩ | ⟨-, hincoming, heq⟩ |
    ⟨hactive, hincoming, hplaced, heq⟩ | ⟨hactive, hincoming, hdialing, halerting, hheld, heq⟩ |
    ⟨hdisconnected, heq⟩
  · refine iff_of_true ?_ (.inl hactive)
    exact ⟨"active", by rw [heq]; rfl, ⟨_, rfl⟩, fun _ _ hkey => hkeys (.inl rfl) hkey⟩
  · refine iff_of_true ?_ (.inr (.inl hincoming))
    exact ⟨"incoming", by rw [heq]; rfl, ⟨_, rfl⟩, fun _ _ hkey => hkeys (.inr rfl) hkey⟩
  · refine iff_of_false (not_usable_of_aggregate (.inl heq)) ?_
    tauto
  · refine iff_of_false (not_usable_of_aggregate (.inr heq)) ?_
    tauto
  · have hmem : ∀ state, state ≠ .disconnected → state ∉ states :=
      fun state hne hstate => hne (hdisconnected state hstate)
    refine iff_of_true ?_ (.inr (.inr ⟨hmem _ (by decide), hmem _ (by decide), hmem _ (by decide)⟩))
    obtain ⟨call, hcall⟩ := (callState_serialize_iff (aggregateCallState states)).mpr
      (by rcases heq with heq | heq <;> rw [heq] <;> decide)
    refine ⟨call, hcall, reduce_of_callState hcall, ?_⟩
    rintro ⟨state, hstate, hlive⟩
    exact absurd (hdisconnected state hstate) hlive

/-- A call ringing at the other end is reported as `outgoing`, which the client refuses. -/
theorem alerting_not_usable : ¬ Usable [.alerting] :=
  not_usable_of_aggregate (.inl rfl)

end AnalogConnect
