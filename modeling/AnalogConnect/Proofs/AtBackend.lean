import AnalogConnect.AtBackend

/-!
# The microphone's gain on the handset

The gain is stored, and a mute stored with it, only once the line that sets it was sent. So
whichever lines fail, the last one that was sent for the microphone set what is stored, and unmuting
it restores the gain of the last command that changed it, also of one given while muted
(`microphone_in_step`).
-/

namespace AnalogConnect

open AtCommandBackend AtTrace

variable {past : AtTrace} {microphone : MicrophoneState} {event : AtEvent} {call : AtCall}
  {line : String} {gain : Gain}

namespace MicrophoneState

/-- The gain the handset should be set to. -/
def heard (microphone : MicrophoneState) : UInt8 :=
  if microphone.muted then 0 else microphone.gain.value

end MicrophoneState

namespace AtTrace

theorem lastMicrophoneLine_sent (hsent : call.sent = some line)
    (hline : isMicrophoneLine line = true) :
    lastMicrophoneLine (past ++ [(event, call)]) = some line := by
  unfold lastMicrophoneLine
  rw [List.foldl_append]
  simp [hsent, hline]

theorem lastMicrophoneLine_unsent (hsent : call.sent = none) :
    lastMicrophoneLine (past ++ [(event, call)]) = lastMicrophoneLine past := by
  unfold lastMicrophoneLine
  rw [List.foldl_append]
  simp [hsent]

theorem lastMicrophoneLine_other (hsent : call.sent = some line)
    (hline : isMicrophoneLine line = false) :
    lastMicrophoneLine (past ++ [(event, call)]) = lastMicrophoneLine past := by
  unfold lastMicrophoneLine
  rw [List.foldl_append]
  simp [hsent, hline]

theorem lastGain_gain (hcommand : event.command = .setMicrophoneGain gain)
    (hresult : call.result = .ok ()) : lastGain (past ++ [(event, call)]) = some gain := by
  unfold lastGain
  rw [List.foldl_append]
  simp [hcommand, hresult]

theorem lastGain_failed {error : AtBackendError} (hresult : call.result = .error error) :
    lastGain (past ++ [(event, call)]) = lastGain past := by
  unfold lastGain
  rw [List.foldl_append]
  simp [hresult]

theorem lastGain_other (hcommand : ∀ gain, event.command ≠ .setMicrophoneGain gain) :
    lastGain (past ++ [(event, call)]) = lastGain past := by
  unfold lastGain
  rw [List.foldl_append]
  rcases hevent : event.command with _ | _ | _ | _ | _ | _ | _ | gain
  case setMicrophoneGain => exact absurd hevent (hcommand gain)
  all_goals simp [hevent]

end AtTrace

namespace AtCommandBackend

theorem send_cases (transport : String → Bool) (line : String) :
    send transport line = ⟨.ok (), some line⟩ ∨
      send transport line = ⟨.error .transport, none⟩ := by
  unfold send
  split_ifs
  · exact .inl rfl
  · exact .inr rfl

theorem isMicrophoneLine_microphoneLine (gain : UInt8) :
    isMicrophoneLine (microphoneLine gain) = true := by
  unfold microphoneLine isMicrophoneLine
  rw [String.toList_append, List.isPrefixOf_iff_prefix]
  exact List.prefix_append _ _

/-- What a call does: it fails and stores nothing, or what it stores is what it sent, or it sends a
line that is not the microphone's. -/
inductive Executes (microphone : MicrophoneState) :
    CallCommand → AtCall → MicrophoneState → Prop
  | failed (command : CallCommand) :
      Executes microphone command ⟨.error .transport, none⟩ microphone
  | other (command : CallCommand) (line : String)
      (hcommand : ∀ gain, command ≠ .setMicrophoneGain gain)
      (hline : isMicrophoneLine line = false) :
      Executes microphone command ⟨.ok (), some line⟩ microphone
  | gainWhileMuted (gain : Gain) (hmuted : microphone.muted = true) :
      Executes microphone (.setMicrophoneGain gain) ⟨.ok (), none⟩ { microphone with gain }
  | gain (gain : Gain) (hmuted : microphone.muted = false) :
      Executes microphone (.setMicrophoneGain gain) ⟨.ok (), some (microphoneLine gain.value)⟩
        { microphone with gain }
  | muted (muted : Bool) :
      Executes microphone (.setMicrophoneMuted muted)
        ⟨.ok (), some (microphoneLine { microphone with muted }.heard)⟩ { microphone with muted }

theorem executes_send {command : CallCommand} {transport : String → Bool}
    (hcommand : ∀ gain, command ≠ .setMicrophoneGain gain)
    (hline : isMicrophoneLine line = false) :
    Executes microphone command (send transport line) microphone := by
  rcases send_cases transport line with h | h <;> rw [h]
  · exact .other command line hcommand hline
  · exact .failed command

theorem executes (microphone : MicrophoneState) (command : CallCommand)
    (transport : String → Bool) :
    Executes microphone command (execute microphone command transport).1
      (execute microphone command transport).2 := by
  cases command with
  | answer => exact executes_send (by simp) rfl
  | reject => exact executes_send (by simp) rfl
  | hangUp => exact executes_send (by simp) rfl
  | dial target =>
    refine executes_send (by simp) ?_
    rw [isMicrophoneLine, String.toList_append, String.toList_append]
    rfl
  | sendDtmf tone =>
    refine executes_send (by simp) ?_
    rw [isMicrophoneLine, String.toList_append]
    rfl
  | setSpeakerGain gain =>
    refine executes_send (by simp) ?_
    rw [isMicrophoneLine, String.toList_append]
    rfl
  | setMicrophoneGain gain =>
    simp only [execute]
    by_cases hmuted : microphone.muted
    · rw [if_pos hmuted]
      exact .gainWhileMuted gain hmuted
    · rw [if_neg hmuted]
      rcases send_cases transport (microphoneLine gain.value) with h | h <;> rw [h]
      · exact .gain gain (by simpa using hmuted)
      · exact .failed _
  | setMicrophoneMuted muted =>
    simp only [execute]
    rcases send_cases transport (microphoneLine (if muted then 0 else microphone.gain.value))
      with h | h <;> rw [h]
    · exact .muted muted
    · exact .failed _

end AtCommandBackend

/-- The last line sent for the microphone set what is stored, which is the last gain given. -/
structure MicrophoneInStep (start : Gain) (past : AtTrace) (microphone : MicrophoneState) :
    Prop where
  line : ∀ line, lastMicrophoneLine past = some line → line = microphoneLine microphone.heard
  gain : microphone.gain = (lastGain past).getD start

theorem MicrophoneInStep.step {start : Gain} (h : MicrophoneInStep start past microphone)
    {microphone' : MicrophoneState} (hstep : Executes microphone event.command call microphone') :
    MicrophoneInStep start (past ++ [(event, call)]) microphone' := by
  obtain ⟨command, transport⟩ := event
  cases hstep with
  | failed =>
    refine ⟨fun line hline => h.line line ?_, ?_⟩
    · rwa [lastMicrophoneLine_unsent rfl] at hline
    · rw [lastGain_failed rfl]
      exact h.gain
  | other _ line hcommand hother =>
    refine ⟨fun line' hline => h.line line' ?_, ?_⟩
    · rwa [lastMicrophoneLine_other rfl hother] at hline
    · rw [lastGain_other hcommand]
      exact h.gain
  | gainWhileMuted gain hmuted =>
    refine ⟨fun line hline => ?_, ?_⟩
    · rw [lastMicrophoneLine_unsent rfl] at hline
      have hheard := h.line line hline
      simpa [MicrophoneState.heard, hmuted] using hheard
    · rw [lastGain_gain rfl rfl]
      rfl
  | gain gain hmuted =>
    refine ⟨fun line hline => ?_, ?_⟩
    · rw [lastMicrophoneLine_sent rfl (isMicrophoneLine_microphoneLine _),
        Option.some.injEq] at hline
      simp [← hline, MicrophoneState.heard, hmuted]
    · rw [lastGain_gain rfl rfl]
      rfl
  | muted muted =>
    refine ⟨fun line hline => ?_, ?_⟩
    · rw [lastMicrophoneLine_sent rfl (isMicrophoneLine_microphoneLine _),
        Option.some.injEq] at hline
      exact hline.symm
    · rw [lastGain_other (by simp)]
      exact h.gain

theorem microphoneInStep_run (start : MicrophoneState) (events : List AtEvent) :
    MicrophoneInStep start.gain (atBackend.trace start events) (atBackend.after start events) :=
  atBackend.history ⟨by simp [lastMicrophoneLine], rfl⟩
    (fun _ microphone event ih => ih.step (executes microphone event.command event.transport))
    events

theorem execute_failed {command : CallCommand} {transport : String → Bool}
    {error : AtBackendError}
    (h : (execute microphone command transport).1.result = .error error) :
    (execute microphone command transport).2 = microphone := by
  have hexecutes := executes microphone command transport
  generalize execute microphone command transport = outcome at h hexecutes ⊢
  obtain ⟨call, microphone'⟩ := outcome
  cases hexecutes with
  | failed => rfl
  | other => rfl
  | gainWhileMuted => cases h
  | gain => cases h
  | muted => cases h

/-- Whatever was commanded and whichever lines failed, the last line sent for the microphone is the
one for what is stored; a failed call stores nothing; and an unmute that succeeds sends the gain of
the last gain command that did, or the first gain. -/
theorem microphone_in_step {start : MicrophoneState} (hnew : AtCommandBackend.new = .ok start)
    (events : List AtEvent) :
    let microphone := atBackend.after start events
    let past := atBackend.trace start events
    (∀ line, lastMicrophoneLine past = some line → line = microphoneLine microphone.heard) ∧
    (∀ command transport error,
      (execute microphone command transport).1.result = .error error →
        (execute microphone command transport).2 = microphone) ∧
    ∀ transport, (execute microphone (.setMicrophoneMuted false) transport).1.result = .ok () →
      (execute microphone (.setMicrophoneMuted false) transport).1.sent =
        some (microphoneLine (((lastGain past).map Gain.value).getD 15)) := by
  have hin := microphoneInStep_run start events
  have hstart : start.gain.value = 15 := by
    cases hnew
    rfl
  refine ⟨hin.line, fun command transport error => execute_failed, fun transport hok => ?_⟩
  have hgain : (atBackend.after start events).gain.value =
      ((lastGain (atBackend.trace start events)).map Gain.value).getD 15 := by
    rw [hin.gain, ← hstart]
    cases lastGain (atBackend.trace start events) <;> rfl
  rw [← hgain]
  unfold execute at hok ⊢
  rcases send_cases transport (microphoneLine (atBackend.after start events).gain.value)
    with h | h
  · simp [h]
  · simp [h] at hok

theorem seven_le : (7 : UInt8) ≤ 15 := by decide

theorem nine_le : (9 : UInt8) ≤ 15 := by decide

/-- A gain, a mute, a gain given while muted, and an unmute whose line is not sent. -/
def mutedEvents : List AtEvent :=
  [⟨.setMicrophoneGain ⟨7, seven_le⟩, fun _ => true⟩, ⟨.setMicrophoneMuted true, fun _ => true⟩,
    ⟨.setMicrophoneGain ⟨9, nine_le⟩, fun _ => true⟩, ⟨.setMicrophoneMuted false, fun _ => false⟩]

/-- The unmute that is sent after those restores the gain given while muted. -/
theorem microphone_in_step_muted : ∃ start, AtCommandBackend.new = .ok start ∧
    (execute (atBackend.after start mutedEvents) (.setMicrophoneMuted false) fun _ => true).1.sent =
      some (microphoneLine 9) :=
  ⟨_, rfl, (microphone_in_step rfl mutedEvents).2.2 (fun _ => true) rfl⟩

end AnalogConnect
