import AnalogConnect.CallAudio
import AnalogConnect.Proofs.CallAudioPump
import AnalogConnect.Proofs.WebSocketWire

/-!
# What the workers of a call's audio leave to each other

Each action of a log is one worker's, or anyone's (`CallAudioAction.thread`). A worker's step is
its own but for the flags, the device and the socket (`StepOf`): it takes no other worker anywhere
and logs no other worker's action. Closing the socket, failing and stopping the device take no
worker anywhere (`Quiet`).
-/

namespace AnalogConnect

open AudioPacketCodec (Decoded)

inductive CallAudioThread
  | uplink
  | receive
  | playout
deriving DecidableEq

/-- Whose action it is; none where it may be anyone's. -/
def CallAudioAction.thread : CallAudioAction → Option CallAudioThread
  | .captured _ => some .uplink
  | .wrote opcode _ _ _ =>
    if opcode = WebSocketWire.opcodeBinary then some .uplink
    else if opcode = WebSocketWire.opcodePong then some .receive
    else none
  | .received _ => some .receive
  | .inserted _ => some .receive
  | .played _ => some .playout
  | _ => none

/-- What is written can be written. -/
def CallAudioAction.Lawful : CallAudioAction → Prop
  | .wrote opcode payload _ _ => WebSocketWire.validateOpcodeAndPayload opcode payload = .ok ()
  | _ => True

/-- Whether the workers have not begun yet. -/
def OwnerPc.beginning : OwnerPc → Bool
  | .startAudio => true
  | .setRunning => true
  | .startUplink => true
  | _ => false

/-- Whether `start` is on its way. -/
def OwnerPc.starting : OwnerPc → Bool
  | .startReceive => true
  | .startPlayout => true
  | owner => owner.beginning

theorem OwnerPc.starting_of_beginning {owner : OwnerPc} (h : owner.beginning = true) :
    owner.starting = true := by
  cases owner <;> first | rfl | cases h

namespace CallAudio

variable {c c' : CallAudio} {outcome : CallAudioOutcome}

@[simp] theorem did_log (c : CallAudio) (action : CallAudioAction) :
    (c.did action).log = c.log ++ [action] := rfl

/-! ## Steps that are anyone's -/

/-- No worker is taken anywhere, and what is logged is no worker's own. -/
structure Quiet (c c' : CallAudio) : Prop where
  pump : c'.pump = c.pump
  closed : c'.closed = c.closed
  uplink : c'.uplink = c.uplink
  receive : c'.receive = c.receive
  playout : c'.playout = c.playout
  owner : c'.owner = c.owner
  log : ∃ new, c'.log = c.log ++ new ∧ ∀ a ∈ new, a.thread = none ∧ a.Lawful

theorem Quiet.refl (c : CallAudio) : Quiet c c :=
  ⟨rfl, rfl, rfl, rfl, rfl, rfl, [], by simp, by simp⟩

theorem Quiet.trans {d : CallAudio} (h : Quiet c c') (h' : Quiet c' d) : Quiet c d := by
  obtain ⟨new, hnew, hall⟩ := h.log
  obtain ⟨new', hnew', hall'⟩ := h'.log
  refine ⟨h'.pump.trans h.pump, h'.closed.trans h.closed, h'.uplink.trans h.uplink,
    h'.receive.trans h.receive, h'.playout.trans h.playout, h'.owner.trans h.owner,
    new ++ new', by rw [hnew', hnew, List.append_assoc], fun a ha => ?_⟩
  rcases List.mem_append.1 ha with ha | ha
  · exact hall a ha
  · exact hall' a ha

theorem quiet_did {action : CallAudioAction} (h : action.thread = none) (hlawful : action.Lawful) :
    Quiet c (c.did action) :=
  ⟨rfl, rfl, rfl, rfl, rfl, rfl, [action], rfl, by simpa using ⟨h, hlawful⟩⟩

/-- What a write comes to. -/
theorem writeFrame_cases {opcode : ℕ} {payload : List UInt8} {sent : Bool}
    (h : c.writeFrame opcode payload outcome = some (sent, c')) :
    (WebSocketWire.validateOpcodeAndPayload opcode payload ≠ .ok () ∧ sent = false ∧ c' = c) ∨
      ∃ mask torn, WebSocketWire.validateOpcodeAndPayload opcode payload = .ok () ∧
        sent = torn.isNone ∧ c' = c.did (.wrote opcode payload mask torn) := by
  unfold writeFrame at h
  split at h
  · rename_i mask torn
    split at h
    · rename_i error hwrite
      obtain ⟨rfl, rfl⟩ := Prod.mk.inj (Option.some.inj h)
      refine .inl ⟨fun hvalid => ?_, rfl, rfl⟩
      obtain ⟨frame, hframe, -⟩ := WebSocketWire.exists_writeClientFrame hvalid mask
      rw [hwrite] at hframe
      cases hframe
    · rename_i bytes hwrite
      obtain ⟨rfl, rfl⟩ := Prod.mk.inj (Option.some.inj h)
      refine .inr ⟨mask, torn, ?_, rfl, rfl⟩
      unfold WebSocketWire.writeClientFrame at hwrite
      split at hwrite
      · cases hwrite
      · rename_i hvalid
        exact hvalid
  · cases h

/-- What closing the socket comes to. -/
theorem closeTransport_cases (h : c.closeTransport outcome = some c') :
    (c.socketClosed = true ∧ c' = c) ∨
      ∃ mask torn, c.socketClosed = false ∧
        c' = { c with
          socketClosed := true
          log := c.log ++ [.wrote WebSocketWire.opcodeClose [] mask torn, .socketClosed] } := by
  unfold closeTransport at h
  split_ifs at h with hclosed
  · exact .inl ⟨hclosed, (Option.some.inj h).symm⟩
  · obtain ⟨⟨sent, d⟩, hwrite, rfl⟩ := Option.map_eq_some_iff.1 h
    rcases writeFrame_cases hwrite with ⟨hinvalid, -, -⟩ | ⟨mask, torn, -, -, rfl⟩
    · exact absurd (by decide) hinvalid
    · exact .inr ⟨mask, torn, Bool.eq_false_iff.2 hclosed, by simp [did]⟩

theorem quiet_closeTransport (h : c.closeTransport outcome = some c') : Quiet c c' := by
  rcases closeTransport_cases h with ⟨-, rfl⟩ | ⟨mask, torn, -, rfl⟩
  · exact .refl c'
  · refine ⟨rfl, rfl, rfl, rfl, rfl, rfl, _, rfl, fun a ha => ?_⟩
    simp only [List.mem_cons, List.not_mem_nil, or_false] at ha
    rcases ha with rfl | rfl
    · exact ⟨rfl, show WebSocketWire.validateOpcodeAndPayload 8 [] = .ok () by decide⟩
    · exact ⟨rfl, trivial⟩

theorem quiet_stopAudio (c : CallAudio) : Quiet c c.stopAudio := by
  unfold stopAudio
  split_ifs
  · exact ⟨rfl, rfl, rfl, rfl, rfl, rfl, [.stopped], rfl,
      by simp [CallAudioAction.thread, CallAudioAction.Lawful]⟩
  · exact .refl c

theorem quiet_closeAudio (c : CallAudio) : Quiet c c.closeAudio := by
  unfold closeAudio
  split_ifs
  · exact .refl c
  · have hreleased : Quiet c.stopAudio (c.stopAudio.did .released) := quiet_did rfl trivial
    have h := (quiet_stopAudio c).trans hreleased
    exact ⟨h.pump, h.closed, h.uplink, h.receive, h.playout, h.owner, h.log⟩

theorem quiet_startAudio {threw : Bool} (h : c.startAudio outcome = some (threw, c')) :
    Quiet c c' := by
  unfold startAudio at h
  split at h
  · split_ifs at h
    · obtain ⟨-, rfl⟩ := Prod.mk.inj (Option.some.inj h)
      exact .refl c
    · obtain ⟨-, rfl⟩ := Prod.mk.inj (Option.some.inj h)
      exact .refl c
    · obtain ⟨-, rfl⟩ := Prod.mk.inj (Option.some.inj h)
      exact ⟨rfl, rfl, rfl, rfl, rfl, rfl, [.started], rfl,
        by simp [CallAudioAction.thread, CallAudioAction.Lawful]⟩
  · obtain ⟨-, rfl⟩ := Prod.mk.inj (Option.some.inj h)
    exact .refl c
  · cases h

theorem quiet_fail {step : Failing} {next : Option Failing}
    (h : c.fail outcome step = some (next, c')) : Quiet c c' := by
  unfold fail at h
  cases step with
  | claim code =>
    have hfailed : Quiet c (c.did (.failed code)) := quiet_did rfl trivial
    dsimp only at h
    split_ifs at h
    · obtain ⟨-, rfl⟩ := Prod.mk.inj (Option.some.inj h)
      exact ⟨rfl, rfl, rfl, rfl, rfl, rfl, hfailed.log⟩
    · obtain ⟨-, rfl⟩ := Prod.mk.inj (Option.some.inj h)
      exact hfailed
  | clearRunning =>
    obtain ⟨-, rfl⟩ := Prod.mk.inj (Option.some.inj h)
    exact ⟨rfl, rfl, rfl, rfl, rfl, rfl, [], by simp, by simp⟩
  | closeTransport =>
    obtain ⟨d, hclose, h⟩ := Option.map_eq_some_iff.1 h
    obtain ⟨-, rfl⟩ := Prod.mk.inj h
    exact quiet_closeTransport hclose
  | stopAudio =>
    obtain ⟨-, rfl⟩ := Prod.mk.inj (Option.some.inj h)
    exact quiet_stopAudio c

/-! ## Steps of a worker -/

/-- A step of the worker's. -/
structure StepOf (thread : CallAudioThread) (c c' : CallAudio) : Prop where
  owner : c'.owner = c.owner
  closed : c'.closed = c.closed
  uplink : thread ≠ .uplink → c'.uplink = c.uplink
  receive : thread ≠ .receive → c'.receive = c.receive
  playout : thread ≠ .playout → c'.playout = c.playout
  wireFormat : c'.pump.wireFormat = c.pump.wireFormat
  config : c'.pump.config = c.pump.config
  pump : thread = .uplink → c'.pump = c.pump
  log : ∃ new, c'.log = c.log ++ new ∧
    ∀ a ∈ new, (a.thread = none ∨ a.thread = some thread) ∧ a.Lawful

theorem Quiet.stepOf_uplink (h : Quiet c c') (pc : UplinkPc) :
    StepOf .uplink c { c' with uplink := pc } := by
  obtain ⟨new, hnew, hall⟩ := h.log
  exact ⟨h.owner, h.closed, fun h => absurd rfl h, fun _ => h.receive, fun _ => h.playout,
    congrArg _ h.pump, by rw [h.pump], fun _ => h.pump, new, hnew,
    fun a ha => (hall a ha).imp_left .inl⟩

theorem Quiet.stepOf_receive (h : Quiet c c') (pc : ReceivePc) :
    StepOf .receive c { c' with receive := pc } := by
  obtain ⟨new, hnew, hall⟩ := h.log
  exact ⟨h.owner, h.closed, fun _ => h.uplink, fun h => absurd rfl h, fun _ => h.playout,
    congrArg _ h.pump, by rw [h.pump], nofun, new, hnew, fun a ha => (hall a ha).imp_left .inl⟩

theorem Quiet.stepOf_playout (h : Quiet c c') (pc : PlayoutPc) :
    StepOf .playout c { c' with playout := pc } := by
  obtain ⟨new, hnew, hall⟩ := h.log
  exact ⟨h.owner, h.closed, fun _ => h.uplink, fun _ => h.receive, fun h => absurd rfl h,
    congrArg _ h.pump, by rw [h.pump], nofun, new, hnew, fun a ha => (hall a ha).imp_left .inl⟩

/-- A worker's step that logs its own action. -/
theorem stepOf_did_uplink (action : CallAudioAction) (h : action.thread = some .uplink)
    (hlawful : action.Lawful) (pc : UplinkPc) :
    StepOf .uplink c { c.did action with uplink := pc } :=
  ⟨rfl, rfl, fun h => absurd rfl h, fun _ => rfl, fun _ => rfl, rfl, rfl, fun _ => rfl, [action],
    rfl, by simp [h, hlawful]⟩

theorem stepOf_uplink (h : c.uplinkStep outcome = some c') : StepOf .uplink c c' := by
  unfold uplinkStep at h
  split at h
  · cases h
  · obtain rfl := Option.some.inj h
    exact (Quiet.refl c).stepOf_uplink _
  · split at h
    · split_ifs at h
      obtain rfl := Option.some.inj h
      exact stepOf_did_uplink (.captured _) rfl trivial _
    · obtain rfl := Option.some.inj h
      exact (Quiet.refl c).stepOf_uplink _
    · cases h
  · split at h
    · obtain rfl := Option.some.inj h
      exact (Quiet.refl c).stepOf_uplink _
    · obtain ⟨⟨sent, d⟩, hsend, rfl⟩ := Option.map_eq_some_iff.1 h
      unfold sendBinary at hsend
      split_ifs at hsend
      · obtain ⟨rfl, rfl⟩ := Prod.mk.inj (Option.some.inj hsend)
        exact (Quiet.refl c).stepOf_uplink _
      · rcases writeFrame_cases hsend with ⟨-, rfl, rfl⟩ | ⟨mask, torn, hvalid, rfl, rfl⟩
        · exact (Quiet.refl d).stepOf_uplink _
        · exact stepOf_did_uplink (.wrote _ _ mask torn) rfl hvalid _
  · obtain ⟨⟨next, d⟩, hfail, rfl⟩ := Option.map_eq_some_iff.1 h
    exact (quiet_fail hfail).stepOf_uplink _
  · cases h

theorem stepOf_receive (h : c.receiveStep outcome = some c') : StepOf .receive c c' := by
  unfold receiveStep at h
  split at h
  · cases h
  · obtain rfl := Option.some.inj h
    exact (Quiet.refl c).stepOf_receive _
  · obtain rfl := Option.some.inj h
    exact (Quiet.refl c).stepOf_receive _
  · split at h
    · split_ifs at h
      obtain rfl := Option.some.inj h
      exact ⟨rfl, rfl, fun _ => rfl, fun h => absurd rfl h, fun _ => rfl, rfl, rfl,
        nofun, _, rfl, by simp [CallAudioAction.thread, CallAudioAction.Lawful]⟩
    · obtain rfl := Option.some.inj h
      exact (Quiet.refl c).stepOf_receive _
    · cases h
  · obtain ⟨⟨sent, d⟩, hwrite, rfl⟩ := Option.map_eq_some_iff.1 h
    rcases writeFrame_cases hwrite with ⟨-, rfl, rfl⟩ | ⟨mask, torn, hvalid, rfl, rfl⟩
    · exact (Quiet.refl d).stepOf_receive _
    · refine ⟨rfl, rfl, fun _ => rfl, fun h => absurd rfl h, fun _ => rfl, rfl, rfl,
        nofun, [_], rfl, ?_⟩
      simpa [CallAudioAction.thread, CallAudioAction.Lawful, WebSocketWire.opcodePong,
        WebSocketWire.opcodeBinary] using hvalid
  · obtain ⟨d, hclose, rfl⟩ := Option.map_eq_some_iff.1 h
    exact (quiet_closeTransport hclose).stepOf_receive _
  · obtain rfl := Option.some.inj h
    exact (Quiet.refl c).stepOf_receive _
  · obtain rfl := Option.some.inj h
    exact ⟨rfl, rfl, fun _ => rfl, fun h => absurd rfl h, fun _ => rfl, rfl, rfl,
      nofun, [_], rfl, by simp [CallAudioAction.thread, CallAudioAction.Lawful]⟩
  · obtain ⟨⟨next, d⟩, hfail, rfl⟩ := Option.map_eq_some_iff.1 h
    exact (quiet_fail hfail).stepOf_receive _
  · cases h

/-- What writing a frame to the speaker comes to. -/
theorem play_cases {frame : DownlinkFrame} {threw played : CallAudio}
    (h : c.play frame threw played outcome = some c') :
    (outcome = .done ∧ c.deviceReady = true ∧ c' = played.did (.played frame)) ∨
      outcome = .threw ∧ c' = { threw with playout := .failing playoutFailed } := by
  unfold play at h
  split at h
  · split_ifs at h with hready
    exact .inl ⟨rfl, by simp_all, (Option.some.inj h).symm⟩
  · exact .inr ⟨rfl, (Option.some.inj h).symm⟩
  · cases h

/-- The playout worker changes the pump, but not what it was made with. -/
theorem stepOf_playout_pump (pump : CallAudioPump) (pc : PlayoutPc)
    (hformat : pump.wireFormat = c.pump.wireFormat) (hconfig : pump.config = c.pump.config) :
    StepOf .playout c { c with pump, playout := pc } :=
  ⟨rfl, rfl, fun _ => rfl, fun _ => rfl, fun h => absurd rfl h, hformat, hconfig, nofun, [],
    by simp, by simp⟩

theorem stepOf_played (pump : CallAudioPump) (pc : PlayoutPc) (frame : DownlinkFrame)
    (hformat : pump.wireFormat = c.pump.wireFormat) (hconfig : pump.config = c.pump.config) :
    StepOf .playout c ({ c with pump, playout := pc }.did (.played frame)) :=
  ⟨rfl, rfl, fun _ => rfl, fun _ => rfl, fun h => absurd rfl h, hformat, hconfig, nofun,
    [.played frame], rfl, by simp [CallAudioAction.thread, CallAudioAction.Lawful]⟩

theorem stepOf_playout (h : c.playoutStep outcome = some c') : StepOf .playout c c' := by
  unfold playoutStep at h
  split at h
  · cases h
  · obtain rfl := Option.some.inj h
    exact (Quiet.refl c).stepOf_playout _
  · split at h
    · obtain rfl := Option.some.inj h
      exact stepOf_playout_pump _ _ rfl rfl
    · obtain rfl := Option.some.inj h
      exact stepOf_playout_pump _ _ rfl rfl
  · split_ifs at h
    · obtain rfl := Option.some.inj h
      exact (Quiet.refl c).stepOf_playout _
    · obtain rfl := Option.some.inj h
      exact (Quiet.refl c).stepOf_playout _
  · split at h
    · obtain rfl := Option.some.inj h
      exact stepOf_playout_pump _ _ rfl rfl
    · obtain rfl := Option.some.inj h
      exact stepOf_playout_pump _ _ rfl rfl
  · rcases play_cases h with ⟨-, -, rfl⟩ | ⟨-, rfl⟩
    · exact stepOf_played _ .pacing _ rfl rfl
    · exact (Quiet.refl c).stepOf_playout _
  · obtain rfl := Option.some.inj h
    exact stepOf_playout_pump _ _ rfl rfl
  · obtain rfl := Option.some.inj h
    exact (Quiet.refl c).stepOf_playout _
  · rcases play_cases h with ⟨-, -, rfl⟩ | ⟨-, rfl⟩
    · exact stepOf_played _ .whileRunning _ rfl rfl
    · exact stepOf_playout_pump _ _ rfl rfl
  · obtain ⟨⟨next, d⟩, hfail, rfl⟩ := Option.map_eq_some_iff.1 h
    exact (quiet_fail hfail).stepOf_playout _
  · cases h

/-! ## Steps of the owner -/

/-- A worker begins, or none goes anywhere. -/
inductive OwnerStep (c c' : CallAudio) : Prop
  | uplink (owner : c.owner = .startUplink)
      (eq : c' = { c with uplink := .whileRunning 0, owner := .startReceive })
  | receive (owner : c.owner = .startReceive)
      (eq : c' = { c with receive := .whileRunning, owner := .startPlayout })
  | playout (owner : c.owner = .startPlayout)
      (eq : c' = { c with playout := .whileRunning, owner := .idle })
  | quiet (d : CallAudio) (quiet : Quiet c d) (owner : OwnerPc) (eq : c' = { d with owner })
      (begins : owner.starting = true → c.owner.beginning = true)
      (later : ¬ (owner = .startReceive ∨ owner = .startPlayout))

theorem ownerStep_cases (h : c.ownerStep outcome = some c') : OwnerStep c c' := by
  unfold ownerStep at h
  split at h
  · cases h
  · rename_i howner
    obtain ⟨⟨threw, d⟩, hstart, rfl⟩ := Option.map_eq_some_iff.1 h
    refine .quiet d (quiet_startAudio hstart) _ rfl (fun _ => by rw [howner]; rfl) ?_
    split_ifs <;> simp
  · rename_i howner
    obtain rfl := Option.some.inj h
    exact .quiet { c with running := true } ⟨rfl, rfl, rfl, rfl, rfl, rfl, [], by simp, by simp⟩ _
      rfl (fun _ => by rw [howner]; rfl) (by simp)
  · exact .uplink ‹_› (Option.some.inj h).symm
  · exact .receive ‹_› (Option.some.inj h).symm
  · exact .playout ‹_› (Option.some.inj h).symm
  · obtain rfl := Option.some.inj h
    exact .quiet { c with running := false } ⟨rfl, rfl, rfl, rfl, rfl, rfl, [], by simp, by simp⟩ _
      rfl nofun (by simp)
  · obtain ⟨d, hclose, rfl⟩ := Option.map_eq_some_iff.1 h
    exact .quiet d (quiet_closeTransport hclose) _ rfl nofun (by simp)
  · exact .quiet _ (quiet_stopAudio c) _ (Option.some.inj h).symm nofun (by simp)
  · exact .quiet _ (quiet_closeAudio c) _ (Option.some.inj h).symm nofun (by simp)

end CallAudio

end AnalogConnect
