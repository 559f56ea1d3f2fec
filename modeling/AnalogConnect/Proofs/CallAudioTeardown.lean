import AnalogConnect.Proofs.CallAudioSocket

/-!
# What is left of a call's audio once it is closed

A worker never raises a flag and never switches the device on (`Lowers`), so what `close` has
taken down stays down (`Closing`). Once it is through (`Down`) a worker that turns to the device or
the socket is refused, fails and goes. It has fewer steps left after each (`work`), and none of
them is refused for good.
-/

namespace AnalogConnect

open AudioPacketCodec (Decoded)

/-- What a worker may still do to the socket and the buffer. -/
def CallAudioAction.Leftover : CallAudioAction → Prop
  | .wrote opcode _ _ _ => opcode = WebSocketWire.opcodePong
  | .received _ => True
  | .inserted _ => True
  | .failed _ => True
  | _ => False

def CallAudioEvent.ofWorker : CallAudioEvent → Bool
  | .uplink _ => true
  | .receive _ => true
  | .playout _ => true
  | _ => false

/-! ## The steps that are left -/

@[simp] def Failing.work : Failing → ℕ
  | .claim _ => 4
  | .clearRunning => 3
  | .closeTransport => 2
  | .stopAudio => 1

theorem Failing.work_pos (step : Failing) : 0 < step.work := by
  cases step <;> simp

theorem Failing.work_le (step : Failing) : step.work ≤ 4 := by
  cases step <;> simp

@[simp] def UplinkPc.work : UplinkPc → ℕ
  | .absent => 0
  | .whileRunning _ => 1
  | .reading _ _ => 6
  | .sending _ _ => 6
  | .failing _ _ step => step.work + 1
  | .finished => 0

@[simp] def ReceivePc.work : ReceivePc → ℕ
  | .absent => 0
  | .whileRunning => 1
  | .ensureOpen => 6
  | .reading => 8
  | .ponging _ => 7
  | .closing => 6
  | .inserting packets => packets.length + 2
  | .failing step => step.work + 1
  | .finished => 0

@[simp] def PlayoutPc.work : PlayoutPc → ℕ
  | .absent => 0
  | .whileRunning => 1
  | .tick => 9
  | .depth _ => 8
  | .trim _ => 7
  | .writing _ => 6
  | .pacing => 2
  | .hasStarted => 7
  | .concealing => 6
  | .failing step => step.work + 1
  | .finished => 0

namespace CallAudio

/-- The workers' steps once nothing is on, at most. -/
def work (c : CallAudio) : ℕ := c.uplink.work + c.receive.work + c.playout.work

variable {c c' : CallAudio} {outcome : CallAudioOutcome}

/-! ## What a worker cannot undo -/

structure Lowers (c c' : CallAudio) : Prop where
  running : c.running = false → c'.running = false
  socketClosed : c.socketClosed = true → c'.socketClosed = true
  started : c.device.started = false → c'.device.started = false
  released : c'.device.closed = c.device.closed

theorem Lowers.refl (c : CallAudio) : Lowers c c := ⟨id, id, id, rfl⟩

theorem Lowers.of_eq {d : CallAudio} (h : Lowers c d) (hrunning : c'.running = d.running)
    (hsocket : c'.socketClosed = d.socketClosed) (hdevice : c'.device = d.device) :
    Lowers c c' := by
  refine ⟨fun hc => ?_, fun hc => ?_, fun hc => ?_, ?_⟩
  · rw [hrunning]
    exact h.running hc
  · rw [hsocket]
    exact h.socketClosed hc
  · rw [hdevice]
    exact h.started hc
  · rw [hdevice]
    exact h.released

/-- A step that leaves them alone. -/
theorem lowers_same (hrunning : c'.running = c.running)
    (hsocket : c'.socketClosed = c.socketClosed) (hdevice : c'.device = c.device) : Lowers c c' :=
  (Lowers.refl c).of_eq hrunning hsocket hdevice

theorem lowers_closeTransport (h : c.closeTransport outcome = some c') : Lowers c c' := by
  rcases closeTransport_cases h with ⟨-, rfl⟩ | ⟨mask, torn, -, rfl⟩
  · exact .refl c'
  · exact ⟨id, fun _ => rfl, id, rfl⟩

theorem lowers_stopAudio (c : CallAudio) : Lowers c c.stopAudio := by
  unfold stopAudio
  split_ifs
  · exact ⟨id, id, fun _ => rfl, rfl⟩
  · exact .refl c

theorem lowers_fail {step : Failing} {next : Option Failing}
    (h : c.fail outcome step = some (next, c')) : Lowers c c' := by
  unfold fail at h
  cases step with
  | claim code =>
    dsimp only at h
    split_ifs at h
    · obtain ⟨-, rfl⟩ := Prod.mk.inj (Option.some.inj h)
      exact lowers_same rfl rfl rfl
    · obtain ⟨-, rfl⟩ := Prod.mk.inj (Option.some.inj h)
      exact lowers_same rfl rfl rfl
  | clearRunning =>
    obtain ⟨-, rfl⟩ := Prod.mk.inj (Option.some.inj h)
    exact ⟨fun _ => rfl, id, id, rfl⟩
  | closeTransport =>
    obtain ⟨d, hclose, h⟩ := Option.map_eq_some_iff.1 h
    obtain ⟨-, rfl⟩ := Prod.mk.inj h
    exact lowers_closeTransport hclose
  | stopAudio =>
    obtain ⟨-, rfl⟩ := Prod.mk.inj (Option.some.inj h)
    exact lowers_stopAudio c

theorem lowers_writeFrame {opcode : ℕ} {payload : List UInt8} {sent : Bool}
    (h : c.writeFrame opcode payload outcome = some (sent, c')) : Lowers c c' := by
  rcases writeFrame_cases h with ⟨-, -, rfl⟩ | ⟨mask, torn, -, -, rfl⟩
  · exact .refl c'
  · exact lowers_same rfl rfl rfl

theorem lowers_uplinkStep (h : c.uplinkStep outcome = some c') : Lowers c c' := by
  unfold uplinkStep at h
  split at h
  · cases h
  · obtain rfl := Option.some.inj h
    exact lowers_same rfl rfl rfl
  · split at h
    · split_ifs at h
      obtain rfl := Option.some.inj h
      exact lowers_same rfl rfl rfl
    · obtain rfl := Option.some.inj h
      exact lowers_same rfl rfl rfl
    · cases h
  · split at h
    · obtain rfl := Option.some.inj h
      exact lowers_same rfl rfl rfl
    · obtain ⟨⟨sent, d⟩, hsend, rfl⟩ := Option.map_eq_some_iff.1 h
      unfold sendBinary at hsend
      split_ifs at hsend
      · obtain ⟨rfl, rfl⟩ := Prod.mk.inj (Option.some.inj hsend)
        exact lowers_same rfl rfl rfl
      · exact (lowers_writeFrame hsend).of_eq rfl rfl rfl
  · obtain ⟨⟨next, d⟩, hfail, rfl⟩ := Option.map_eq_some_iff.1 h
    exact (lowers_fail hfail).of_eq rfl rfl rfl
  · cases h

theorem lowers_receiveStep (h : c.receiveStep outcome = some c') : Lowers c c' := by
  unfold receiveStep at h
  split at h
  · cases h
  · obtain rfl := Option.some.inj h
    exact lowers_same rfl rfl rfl
  · obtain rfl := Option.some.inj h
    exact lowers_same rfl rfl rfl
  · split at h
    · split_ifs at h
      obtain rfl := Option.some.inj h
      exact lowers_same rfl rfl rfl
    · obtain rfl := Option.some.inj h
      exact lowers_same rfl rfl rfl
    · cases h
  · obtain ⟨⟨sent, d⟩, hwrite, rfl⟩ := Option.map_eq_some_iff.1 h
    exact (lowers_writeFrame hwrite).of_eq rfl rfl rfl
  · obtain ⟨d, hclose, rfl⟩ := Option.map_eq_some_iff.1 h
    exact (lowers_closeTransport hclose).of_eq rfl rfl rfl
  · obtain rfl := Option.some.inj h
    exact lowers_same rfl rfl rfl
  · obtain rfl := Option.some.inj h
    exact lowers_same rfl rfl rfl
  · obtain ⟨⟨next, d⟩, hfail, rfl⟩ := Option.map_eq_some_iff.1 h
    exact (lowers_fail hfail).of_eq rfl rfl rfl
  · cases h

theorem lowers_playoutStep (h : c.playoutStep outcome = some c') : Lowers c c' := by
  unfold playoutStep at h
  split at h
  · cases h
  · obtain rfl := Option.some.inj h
    exact lowers_same rfl rfl rfl
  · split at h <;> obtain rfl := Option.some.inj h <;> exact lowers_same rfl rfl rfl
  · split_ifs at h <;> obtain rfl := Option.some.inj h <;> exact lowers_same rfl rfl rfl
  · split at h <;> obtain rfl := Option.some.inj h <;> exact lowers_same rfl rfl rfl
  · rcases play_cases h with ⟨-, -, rfl⟩ | ⟨-, rfl⟩
    · exact lowers_same rfl rfl rfl
    · exact lowers_same rfl rfl rfl
  · obtain rfl := Option.some.inj h
    exact lowers_same rfl rfl rfl
  · obtain rfl := Option.some.inj h
    exact lowers_same rfl rfl rfl
  · rcases play_cases h with ⟨-, -, rfl⟩ | ⟨-, rfl⟩
    · exact lowers_same rfl rfl rfl
    · exact lowers_same rfl rfl rfl
  · obtain ⟨⟨next, d⟩, hfail, rfl⟩ := Option.map_eq_some_iff.1 h
    exact (lowers_fail hfail).of_eq rfl rfl rfl
  · cases h

/-! ## How far `close` is -/

/-- What `close` has taken down so far. -/
def Closing (c : CallAudio) : Prop :=
  c.closed = true →
    match c.owner with
    | .clearRunning => True
    | .closeTransport => c.running = false
    | .stopAudio => c.running = false ∧ c.socketClosed = true
    | .closeAudio => c.running = false ∧ c.socketClosed = true ∧ c.device.started = false
    | .idle => c.running = false ∧ c.socketClosed = true ∧ c.device = ⟨false, true⟩
    | _ => False

theorem device_of_lowers (h : Lowers c c') (hdevice : c.device = ⟨false, true⟩) :
    c'.device = ⟨false, true⟩ := by
  have hstarted := h.started (by rw [hdevice])
  have hreleased := h.released
  rw [hdevice] at hreleased
  cases hd : c'.device
  rw [hd] at hstarted hreleased
  cases hstarted
  cases hreleased
  rfl

theorem Closing.of_starting (h : Closing c) (hstarting : c.owner.starting = true)
    (hclosed : c'.closed = c.closed) : Closing c' := by
  intro hc
  have hold := h (hclosed ▸ hc)
  cases howner : c.owner <;> rw [howner] at hold hstarting
  all_goals first | exact hold.elim | cases hstarting

/-- A worker's step does not set `close` back. -/
theorem Closing.lowers {thread : CallAudioThread} (h : Closing c) (hstep : StepOf thread c c')
    (hlowers : Lowers c c') : Closing c' := by
  by_cases hstarting : c.owner.starting = true
  · exact h.of_starting hstarting hstep.closed
  · intro hclosed
    have hold := h (hstep.closed ▸ hclosed)
    rw [hstep.owner]
    cases howner : c.owner <;> rw [howner] at hold hstarting
    case clearRunning => trivial
    case closeTransport => exact hlowers.running hold
    case stopAudio => exact ⟨hlowers.running hold.1, hlowers.socketClosed hold.2⟩
    case closeAudio =>
      exact ⟨hlowers.running hold.1, hlowers.socketClosed hold.2.1, hlowers.started hold.2.2⟩
    case idle =>
      exact ⟨hlowers.running hold.1, hlowers.socketClosed hold.2.1,
        device_of_lowers hlowers hold.2.2⟩
    all_goals exact absurd rfl hstarting

theorem closing_ownerStep (h : Closing c) (hstep : c.ownerStep outcome = some c') :
    Closing c' := by
  unfold ownerStep at hstep
  split at hstep
  · cases hstep
  · rename_i howner
    obtain ⟨⟨threw, d⟩, hstart, rfl⟩ := Option.map_eq_some_iff.1 hstep
    exact h.of_starting (by rw [howner]; rfl) (quiet_startAudio hstart).closed
  · rename_i howner
    obtain rfl := Option.some.inj hstep
    exact h.of_starting (by rw [howner]; rfl) rfl
  · rename_i howner
    obtain rfl := Option.some.inj hstep
    exact h.of_starting (by rw [howner]; rfl) rfl
  · rename_i howner
    obtain rfl := Option.some.inj hstep
    exact h.of_starting (by rw [howner]; rfl) rfl
  · rename_i howner
    obtain rfl := Option.some.inj hstep
    exact h.of_starting (by rw [howner]; rfl) rfl
  · obtain rfl := Option.some.inj hstep
    exact fun _ => rfl
  · rename_i howner
    obtain ⟨d, hclose, rfl⟩ := Option.map_eq_some_iff.1 hstep
    intro hclosed
    have hold := h ((quiet_closeTransport hclose).closed ▸ hclosed)
    rw [howner] at hold
    refine ⟨(lowers_closeTransport hclose).running hold, ?_⟩
    rcases closeTransport_cases hclose with ⟨htrue, rfl⟩ | ⟨mask, torn, -, rfl⟩
    · exact htrue
    · rfl
  · rename_i howner
    obtain rfl := Option.some.inj hstep
    intro hclosed
    have hold := h ((quiet_stopAudio c).closed ▸ hclosed)
    rw [howner] at hold
    have hlowers := lowers_stopAudio c
    refine ⟨hlowers.running hold.1, hlowers.socketClosed hold.2, ?_⟩
    dsimp only
    unfold stopAudio
    split_ifs with hstarted
    · rfl
    · exact Bool.eq_false_iff.2 hstarted
  · rename_i howner
    obtain rfl := Option.some.inj hstep
    intro hclosed
    have hold := h ((quiet_closeAudio c).closed ▸ hclosed)
    rw [howner] at hold
    obtain ⟨hrunning, hsocket, hstarted⟩ := hold
    have hoff : ¬ c.device.started = true := by rw [hstarted]; exact nofun
    show _ ∧ _ ∧ _
    dsimp only
    unfold closeAudio stopAudio
    rw [if_neg hoff]
    split_ifs with hreleased
    · refine ⟨hrunning, hsocket, ?_⟩
      cases hd : c.device
      rw [hd] at hstarted hreleased
      cases hstarted
      cases hreleased
      rfl
    · exact ⟨hrunning, hsocket, rfl⟩

theorem closing_step {event : CallAudioEvent} (h : Closing c) (hstep : c.step event = some c') :
    Closing c' := by
  unfold step at hstep
  split at hstep
  · split_ifs at hstep with howner hbegun
    · obtain rfl := Option.some.inj hstep
      exact h
    · obtain rfl := Option.some.inj hstep
      exact fun hclosed => absurd (.inl hclosed) hbegun
  · split_ifs at hstep
    · obtain rfl := Option.some.inj hstep
      exact h
    · obtain rfl := Option.some.inj hstep
      exact fun _ => trivial
  · exact closing_ownerStep h hstep
  · exact h.lowers (stepOf_uplink hstep) (lowers_uplinkStep hstep)
  · exact h.lowers (stepOf_receive hstep) (lowers_receiveStep hstep)
  · exact h.lowers (stepOf_playout hstep) (lowers_playoutStep hstep)

/-! ## What the receive worker holds -/

/-- Never more than a batch. -/
def Holds (c : CallAudio) : Prop := ∀ packets, c.receive = .inserting packets → packets.length ≤ 4

theorem length_of_handle {frame : WebSocketWire.Frame} {packets : List Decoded}
    (h : c.handle frame = .inserting packets) : packets.length ≤ 4 := by
  unfold handle at h
  split_ifs at h
  split at h
  · cases h
  · rename_i received hreceived
    obtain rfl := ReceivePc.inserting.inj h
    unfold CallAudioPump.receiveOnce at hreceived
    split at hreceived
    · cases hreceived
    · rename_i decoded hdecoded
      split_ifs at hreceived
      obtain rfl := Except.ok.inj hreceived
      obtain ⟨sent, hbatch, -, rfl⟩ := AudioPacketCodec.exists_batch_of_decodeBatch hdecoded
      rw [List.length_map]
      exact hbatch.length_le

theorem holds_receiveStep (h : c.Holds) (hstep : c.receiveStep outcome = some c') : c'.Holds := by
  intro packets hpackets
  unfold receiveStep at hstep
  split at hstep
  · cases hstep
  · obtain rfl := Option.some.inj hstep
    dsimp only at hpackets
    split_ifs at hpackets
  · obtain rfl := Option.some.inj hstep
    dsimp only at hpackets
    split_ifs at hpackets
  · split at hstep
    · split_ifs at hstep
      obtain rfl := Option.some.inj hstep
      exact length_of_handle hpackets
    · obtain rfl := Option.some.inj hstep
      cases hpackets
    · cases hstep
  · obtain ⟨⟨sent, d⟩, -, rfl⟩ := Option.map_eq_some_iff.1 hstep
    dsimp only at hpackets
    split_ifs at hpackets
  · obtain ⟨d, -, rfl⟩ := Option.map_eq_some_iff.1 hstep
    cases hpackets
  · obtain rfl := Option.some.inj hstep
    cases hpackets
  · rename_i packet rest hpc
    obtain rfl := Option.some.inj hstep
    obtain rfl := ReceivePc.inserting.inj hpackets
    have hlength := h _ hpc
    rw [List.length_cons] at hlength
    omega
  · obtain ⟨⟨next, d⟩, -, rfl⟩ := Option.map_eq_some_iff.1 hstep
    cases next <;> cases hpackets
  · cases hstep

theorem holds_step {event : CallAudioEvent} (h : c.Holds) (hstep : c.step event = some c') :
    c'.Holds := by
  have hsame (hreceive : c'.receive = c.receive) : c'.Holds := by
    unfold Holds
    rw [hreceive]
    exact h
  unfold step at hstep
  split at hstep
  · split_ifs at hstep <;> obtain rfl := Option.some.inj hstep <;> exact hsame rfl
  · split_ifs at hstep <;> obtain rfl := Option.some.inj hstep <;> exact hsame rfl
  · rcases ownerStep_cases hstep with
      ⟨-, rfl⟩ | ⟨-, rfl⟩ | ⟨-, rfl⟩ | ⟨d, hquiet, owner, rfl, -, -⟩
    · exact hsame rfl
    · exact nofun
    · exact hsame rfl
    · exact hsame hquiet.receive
  · exact hsame ((stepOf_uplink hstep).receive nofun)
  · exact holds_receiveStep h hstep
  · exact hsame ((stepOf_playout hstep).receive nofun)

theorem work_le (h : c.Holds) : c.work ≤ 23 := by
  have huplink : c.uplink.work ≤ 6 := by
    cases c.uplink with
    | failing _ _ step => exact Nat.succ_le_succ (step.work_le.trans (by decide))
    | _ => simp
  have hreceive : c.receive.work ≤ 8 := by
    cases hpc : c.receive with
    | inserting packets => exact (Nat.add_le_add_right (h packets hpc) 2).trans (by decide)
    | failing step => exact Nat.succ_le_succ (step.work_le.trans (by decide))
    | _ => simp
  have hplayout : c.playout.work ≤ 9 := by
    cases c.playout with
    | failing step => exact Nat.succ_le_succ (step.work_le.trans (by decide))
    | _ => simp
  unfold work
  omega

/-! ## After `close` -/

structure Down (c : CallAudio) : Prop where
  closed : c.closed = true
  owner : c.owner = .idle
  running : c.running = false
  socketClosed : c.socketClosed = true
  device : c.device = ⟨false, true⟩

/-- Only what is left over was done. -/
def Leaves (c c' : CallAudio) : Prop := ∃ new, c'.log = c.log ++ new ∧ ∀ a ∈ new, a.Leftover

theorem leaves_of_log (h : c'.log = c.log) : Leaves c c' :=
  ⟨[], h.trans (List.append_nil _).symm, nofun⟩

theorem leaves_did {action : CallAudioAction} (hlog : c'.log = c.log ++ [action])
    (h : action.Leftover) : Leaves c c' :=
  ⟨[action], hlog, fun a ha => by rwa [List.mem_singleton.1 ha]⟩

theorem Leaves.trans {d : CallAudio} (h : Leaves c c') (h' : Leaves c' d) : Leaves c d := by
  obtain ⟨new, hnew, hall⟩ := h
  obtain ⟨new', hnew', hall'⟩ := h'
  refine ⟨new ++ new', by rw [hnew', hnew, List.append_assoc], fun a ha => ?_⟩
  exact (List.mem_append.1 ha).elim (hall a) (hall' a)

namespace Down

variable (h : c.Down)

include h

theorem lowers {thread : CallAudioThread} (hstep : StepOf thread c c') (hlowers : Lowers c c') :
    c'.Down where
  closed := hstep.closed.trans h.closed
  owner := hstep.owner.trans h.owner
  running := hlowers.running h.running
  socketClosed := hlowers.socketClosed h.socketClosed
  device := device_of_lowers hlowers h.device

theorem not_ready : c.deviceReady = false := by
  unfold deviceReady
  rw [h.device]
  rfl

theorem closeTransport_eq : c.closeTransport outcome = some c := if_pos h.socketClosed

theorem stopAudio_eq : c.stopAudio = c := by
  unfold stopAudio
  rw [h.device]
  rfl

theorem fail {step : Failing} {next : Option Failing}
    (hfail : c.fail outcome step = some (next, c')) :
    Leaves c c' ∧ ∀ step', next = some step' → step'.work < step.work := by
  unfold CallAudio.fail at hfail
  cases step with
  | claim code =>
    dsimp only at hfail
    split_ifs at hfail
    · obtain ⟨rfl, rfl⟩ := Prod.mk.inj (Option.some.inj hfail)
      exact ⟨leaves_did rfl trivial, fun step' hnext => by cases hnext; simp⟩
    · obtain ⟨rfl, rfl⟩ := Prod.mk.inj (Option.some.inj hfail)
      exact ⟨leaves_did rfl trivial, nofun⟩
  | clearRunning =>
    obtain ⟨rfl, rfl⟩ := Prod.mk.inj (Option.some.inj hfail)
    exact ⟨leaves_of_log rfl, fun step' hnext => by cases hnext; simp⟩
  | closeTransport =>
    dsimp only at hfail
    rw [h.closeTransport_eq] at hfail
    obtain ⟨rfl, rfl⟩ := Prod.mk.inj (Option.some.inj hfail)
    exact ⟨leaves_of_log rfl, fun step' hnext => by cases hnext; simp⟩
  | stopAudio =>
    obtain ⟨rfl, rfl⟩ := Prod.mk.inj (Option.some.inj hfail)
    exact ⟨leaves_of_log (by rw [h.stopAudio_eq]), nofun⟩

theorem exists_fail (outcome : CallAudioOutcome) (step : Failing) :
    ∃ next, c.fail outcome step = some next := by
  unfold CallAudio.fail
  cases step with
  | claim code =>
    dsimp only
    split_ifs
    · exact ⟨_, rfl⟩
    · exact ⟨_, rfl⟩
  | clearRunning => exact ⟨_, rfl⟩
  | closeTransport =>
    dsimp only
    rw [h.closeTransport_eq]
    exact ⟨_, rfl⟩
  | stopAudio => exact ⟨_, rfl⟩

/-! ### Less is left after each step -/

theorem uplinkStep (hstep : c.uplinkStep outcome = some c') :
    Leaves c c' ∧ c'.uplink.work < c.uplink.work := by
  unfold CallAudio.uplinkStep at hstep
  split at hstep
  · cases hstep
  · rename_i hpc
    obtain rfl := Option.some.inj hstep
    refine ⟨leaves_of_log rfl, ?_⟩
    simp [hpc, h.running]
  · rename_i hpc
    split at hstep
    · rw [if_pos (.inl h.not_ready)] at hstep
      cases hstep
    · obtain rfl := Option.some.inj hstep
      exact ⟨leaves_of_log rfl, by simp [hpc, uplinkFailed]⟩
    · cases hstep
  · rename_i hpc
    split at hstep
    · obtain rfl := Option.some.inj hstep
      exact ⟨leaves_of_log rfl, by simp [hpc, uplinkFailed]⟩
    · unfold sendBinary at hstep
      rw [if_pos h.socketClosed] at hstep
      obtain rfl := Option.some.inj hstep
      exact ⟨leaves_of_log rfl, by simp [hpc, uplinkFailed]⟩
  · rename_i sequence exhausted step hpc
    obtain ⟨⟨next, d⟩, hfail, rfl⟩ := Option.map_eq_some_iff.1 hstep
    obtain ⟨⟨new, hlog, hnew⟩, hless⟩ := h.fail hfail
    refine ⟨⟨new, hlog, hnew⟩, ?_⟩
    rw [hpc]
    cases next with
    | some step' => exact Nat.succ_lt_succ (hless step' rfl)
    | none =>
      dsimp only
      split_ifs
      · exact Nat.succ_pos _
      · exact Nat.succ_lt_succ step.work_pos
  · cases hstep

theorem receiveStep (hstep : c.receiveStep outcome = some c') :
    Leaves c c' ∧ c'.receive.work < c.receive.work := by
  unfold CallAudio.receiveStep at hstep
  split at hstep
  · cases hstep
  · rename_i hpc
    obtain rfl := Option.some.inj hstep
    exact ⟨leaves_of_log rfl, by simp [hpc, h.running]⟩
  · rename_i hpc
    obtain rfl := Option.some.inj hstep
    exact ⟨leaves_of_log rfl, by simp [hpc, h.socketClosed, receiveFailed]⟩
  · rename_i hpc
    split at hstep
    · rename_i frame
      split_ifs at hstep
      obtain rfl := Option.some.inj hstep
      refine ⟨leaves_did rfl trivial, ?_⟩
      rw [hpc]
      show (c.handle frame).work < 8
      cases hhandle : c.handle frame with
      | inserting packets =>
        exact (Nat.add_le_add_right (length_of_handle hhandle) 2).trans_lt (by decide)
      | failing step => exact Nat.succ_lt_succ (step.work_le.trans_lt (by decide))
      | reading =>
        unfold handle at hhandle
        split_ifs at hhandle
        split at hhandle <;> cases hhandle
      | _ => simp
    · obtain rfl := Option.some.inj hstep
      exact ⟨leaves_of_log rfl, by simp [hpc, receiveFailed]⟩
    · cases hstep
  · rename_i payload hpc
    obtain ⟨⟨sent, d⟩, hwrite, rfl⟩ := Option.map_eq_some_iff.1 hstep
    refine ⟨?_, ?_⟩
    · rcases writeFrame_cases hwrite with ⟨-, -, rfl⟩ | ⟨mask, torn, -, -, rfl⟩
      · exact leaves_of_log rfl
      · exact leaves_did rfl rfl
    · rw [hpc]
      dsimp only
      split_ifs <;> simp [receiveFailed]
  · rename_i hpc
    rw [h.closeTransport_eq] at hstep
    obtain rfl := Option.some.inj hstep
    exact ⟨leaves_of_log rfl, by simp [hpc, receiveFailed]⟩
  · rename_i hpc
    obtain rfl := Option.some.inj hstep
    exact ⟨leaves_of_log rfl, by simp [hpc]⟩
  · rename_i packet packets hpc
    obtain rfl := Option.some.inj hstep
    exact ⟨leaves_did rfl trivial, by simp [hpc]⟩
  · rename_i step hpc
    obtain ⟨⟨next, d⟩, hfail, rfl⟩ := Option.map_eq_some_iff.1 hstep
    obtain ⟨⟨new, hlog, hnew⟩, hless⟩ := h.fail hfail
    refine ⟨⟨new, hlog, hnew⟩, ?_⟩
    rw [hpc]
    cases next with
    | some step' => exact Nat.succ_lt_succ (hless step' rfl)
    | none => exact Nat.succ_lt_succ step.work_pos
  · cases hstep

theorem playoutStep (hstep : c.playoutStep outcome = some c') :
    Leaves c c' ∧ c'.playout.work < c.playout.work := by
  unfold CallAudio.playoutStep at hstep
  split at hstep
  · cases hstep
  · rename_i hpc
    obtain rfl := Option.some.inj hstep
    exact ⟨leaves_of_log rfl, by simp [hpc, h.running]⟩
  · rename_i hpc
    split at hstep <;> obtain rfl := Option.some.inj hstep <;>
      exact ⟨leaves_of_log rfl, by simp [hpc]⟩
  · rename_i hpc
    split_ifs at hstep <;> obtain rfl := Option.some.inj hstep <;>
      exact ⟨leaves_of_log rfl, by simp [hpc]⟩
  · rename_i hpc
    split at hstep <;> obtain rfl := Option.some.inj hstep <;>
      exact ⟨leaves_of_log rfl, by simp [hpc]⟩
  · rename_i hpc
    rcases play_cases hstep with ⟨-, hready, -⟩ | ⟨-, rfl⟩
    · rw [h.not_ready] at hready
      cases hready
    · exact ⟨leaves_of_log rfl, by simp [hpc, playoutFailed]⟩
  · rename_i hpc
    obtain rfl := Option.some.inj hstep
    exact ⟨leaves_of_log rfl, by simp [hpc]⟩
  · rename_i hpc
    obtain rfl := Option.some.inj hstep
    refine ⟨leaves_of_log rfl, ?_⟩
    rw [hpc]
    dsimp only
    split_ifs <;> simp
  · rename_i hpc
    rcases play_cases hstep with ⟨-, hready, -⟩ | ⟨-, rfl⟩
    · rw [h.not_ready] at hready
      cases hready
    · exact ⟨leaves_of_log rfl, by simp [hpc, playoutFailed]⟩
  · rename_i step hpc
    obtain ⟨⟨next, d⟩, hfail, rfl⟩ := Option.map_eq_some_iff.1 hstep
    obtain ⟨⟨new, hlog, hnew⟩, hless⟩ := h.fail hfail
    refine ⟨⟨new, hlog, hnew⟩, ?_⟩
    rw [hpc]
    cases next with
    | some step' => exact Nat.succ_lt_succ (hless step' rfl)
    | none => exact Nat.succ_lt_succ step.work_pos
  · cases hstep

theorem step {event : CallAudioEvent} (hstep : c.step event = some c') :
    c'.Down ∧ Leaves c c' ∧ c'.work + (if event.ofWorker then 1 else 0) ≤ c.work := by
  cases event with
  | start =>
    unfold CallAudio.step at hstep
    dsimp only at hstep
    rw [if_neg (not_not_intro h.owner), if_pos (.inl h.closed)] at hstep
    obtain rfl := Option.some.inj hstep
    exact ⟨h, leaves_of_log rfl, le_rfl⟩
  | close =>
    unfold CallAudio.step at hstep
    dsimp only at hstep
    rw [if_neg (not_not_intro h.owner), if_pos h.closed] at hstep
    obtain rfl := Option.some.inj hstep
    exact ⟨h, leaves_of_log rfl, le_rfl⟩
  | owner outcome =>
    change c.ownerStep outcome = some c' at hstep
    unfold ownerStep at hstep
    rw [h.owner] at hstep
    cases hstep
  | uplink outcome =>
    have hof := stepOf_uplink hstep
    obtain ⟨hleaves, hless⟩ := h.uplinkStep hstep
    refine ⟨h.lowers hof (lowers_uplinkStep hstep), hleaves, ?_⟩
    unfold work
    rw [hof.receive nofun, hof.playout nofun]
    show c'.uplink.work + c.receive.work + c.playout.work + 1 ≤ _
    omega
  | receive outcome =>
    have hof := stepOf_receive hstep
    obtain ⟨hleaves, hless⟩ := h.receiveStep hstep
    refine ⟨h.lowers hof (lowers_receiveStep hstep), hleaves, ?_⟩
    unfold work
    rw [hof.uplink nofun, hof.playout nofun]
    show c.uplink.work + c'.receive.work + c.playout.work + 1 ≤ _
    omega
  | playout outcome =>
    have hof := stepOf_playout hstep
    obtain ⟨hleaves, hless⟩ := h.playoutStep hstep
    refine ⟨h.lowers hof (lowers_playoutStep hstep), hleaves, ?_⟩
    unfold work
    rw [hof.uplink nofun, hof.receive nofun]
    show c.uplink.work + c.receive.work + c'.playout.work + 1 ≤ _
    omega

omit h in
theorem run : ∀ {later : List CallAudioEvent} {s s' : CallAudio}, s.Down →
    callAudio.run s later = some s' →
    s'.Down ∧ Leaves s s' ∧ s'.work + later.countP CallAudioEvent.ofWorker ≤ s.work
  | [], s, s', hs, hrun => by
    obtain rfl := Option.some.inj hrun
    exact ⟨hs, leaves_of_log rfl, le_rfl⟩
  | event :: later, s, s', hs, hrun => by
    obtain ⟨t, hstep, hrest⟩ := callAudio.run_cons_eq_some.1 hrun
    obtain ⟨ht, hleaves, hless⟩ := hs.step hstep
    obtain ⟨hs', hleaves', hless'⟩ := run ht hrest
    refine ⟨hs', hleaves.trans hleaves', ?_⟩
    rw [List.countP_cons]
    omega

/-! ### No worker is held up -/

theorem exists_uplinkStep : c.uplink = .absent ∨ c.uplink = .finished ∨
    ∃ outcome d, c.step (.uplink outcome) = some d := by
  cases hpc : c.uplink with
  | absent => exact .inl rfl
  | finished => exact .inr (.inl rfl)
  | whileRunning sequence =>
    exact .inr (.inr ⟨.threw, _, by simp only [CallAudio.step, CallAudio.uplinkStep, hpc]; rfl⟩)
  | reading sequence frames =>
    exact .inr (.inr ⟨.threw, _, by simp only [CallAudio.step, CallAudio.uplinkStep, hpc]; rfl⟩)
  | sending sequence frames =>
    refine .inr (.inr ⟨.threw, ?_⟩)
    simp only [CallAudio.step, CallAudio.uplinkStep, hpc]
    split
    · exact ⟨_, rfl⟩
    · unfold sendBinary
      rw [if_pos h.socketClosed]
      exact ⟨_, rfl⟩
  | failing sequence exhausted step =>
    obtain ⟨next, hnext⟩ := h.exists_fail .threw step
    refine .inr (.inr ⟨.threw, ?_⟩)
    simp only [CallAudio.step, CallAudio.uplinkStep, hpc, hnext]
    exact ⟨_, rfl⟩

theorem exists_receiveStep : c.receive = .absent ∨ c.receive = .finished ∨
    ∃ outcome d, c.step (.receive outcome) = some d := by
  cases hpc : c.receive with
  | absent => exact .inl rfl
  | finished => exact .inr (.inl rfl)
  | whileRunning =>
    exact .inr (.inr ⟨.threw, _, by simp only [CallAudio.step, CallAudio.receiveStep, hpc]; rfl⟩)
  | ensureOpen =>
    exact .inr (.inr ⟨.threw, _, by simp only [CallAudio.step, CallAudio.receiveStep, hpc]; rfl⟩)
  | reading =>
    exact .inr (.inr ⟨.threw, _, by simp only [CallAudio.step, CallAudio.receiveStep, hpc]; rfl⟩)
  | ponging payload =>
    refine .inr (.inr ⟨.write (fun _ => 0) (some 0), ?_⟩)
    simp only [CallAudio.step, CallAudio.receiveStep, hpc, writeFrame]
    split
    · exact ⟨_, rfl⟩
    · exact ⟨_, rfl⟩
  | closing =>
    refine .inr (.inr ⟨.threw, ?_⟩)
    simp only [CallAudio.step, CallAudio.receiveStep, hpc, h.closeTransport_eq]
    exact ⟨_, rfl⟩
  | inserting packets =>
    refine .inr (.inr ⟨.threw, ?_⟩)
    cases packets <;> simp only [CallAudio.step, CallAudio.receiveStep, hpc] <;> exact ⟨_, rfl⟩
  | failing step =>
    obtain ⟨next, hnext⟩ := h.exists_fail .threw step
    refine .inr (.inr ⟨.threw, ?_⟩)
    simp only [CallAudio.step, CallAudio.receiveStep, hpc, hnext]
    exact ⟨_, rfl⟩

theorem exists_playoutStep : c.playout = .absent ∨ c.playout = .finished ∨
    ∃ outcome d, c.step (.playout outcome) = some d := by
  cases hpc : c.playout with
  | absent => exact .inl rfl
  | finished => exact .inr (.inl rfl)
  | tick =>
    refine .inr (.inr ⟨.threw, ?_⟩)
    simp only [CallAudio.step, CallAudio.playoutStep, hpc]
    split
    · exact ⟨_, rfl⟩
    · exact ⟨_, rfl⟩
  | depth packet =>
    refine .inr (.inr ⟨.threw, ?_⟩)
    simp only [CallAudio.step, CallAudio.playoutStep, hpc]
    split_ifs
    · exact ⟨_, rfl⟩
    · exact ⟨_, rfl⟩
  | trim packet =>
    refine .inr (.inr ⟨.threw, ?_⟩)
    simp only [CallAudio.step, CallAudio.playoutStep, hpc]
    split
    · exact ⟨_, rfl⟩
    · exact ⟨_, rfl⟩
  | failing step =>
    obtain ⟨next, hnext⟩ := h.exists_fail .threw step
    refine .inr (.inr ⟨.threw, ?_⟩)
    simp only [CallAudio.step, CallAudio.playoutStep, hpc, hnext]
    exact ⟨_, rfl⟩
  | _ =>
    refine .inr (.inr ⟨.threw, ?_⟩)
    simp only [CallAudio.step, CallAudio.playoutStep, hpc]
    exact ⟨_, rfl⟩

end Down

/-! ## Runs -/

theorem closing_new (pump : CallAudioPump) : Closing (CallAudio.new pump) := by
  intro hclosed
  cases hclosed

theorem holds_new (pump : CallAudioPump) : Holds (CallAudio.new pump) := by
  intro packets hpackets
  cases hpackets

theorem down_of_closing (h : Closing c) (hclosed : c.closed = true) (howner : c.owner = .idle) :
    c.Down := by
  have hdown := h hclosed
  rw [howner] at hdown
  exact ⟨hclosed, howner, hdown.1, hdown.2.1, hdown.2.2⟩

/-- Once `close` is through, in whatever order the workers go on: the session, its socket and its
device stay down, nothing is captured or played, and of all frames only pongs are written. The
workers take at most 23 steps between them, and until it is at its end each can take one. -/
theorem closed_for_good {pump : CallAudioPump} {events later : List CallAudioEvent}
    {s s' : CallAudio} (hrun : callAudio.run (CallAudio.new pump) events = some s)
    (hclosed : s.closed = true) (howner : s.owner = .idle)
    (hlater : callAudio.run s later = some s') :
    (s'.running = false ∧ s'.socketClosed = true ∧ s'.device = ⟨false, true⟩) ∧
      (∃ new, s'.log = s.log ++ new ∧ ∀ a ∈ new, a.Leftover) ∧
      later.countP CallAudioEvent.ofWorker ≤ 23 ∧
      (s'.uplink = .absent ∨ s'.uplink = .finished ∨
        ∃ outcome d, s'.step (.uplink outcome) = some d) ∧
      (s'.receive = .absent ∨ s'.receive = .finished ∨
        ∃ outcome d, s'.step (.receive outcome) = some d) ∧
      (s'.playout = .absent ∨ s'.playout = .finished ∨
        ∃ outcome d, s'.step (.playout outcome) = some d) := by
  have hinv : s.Closing ∧ s.Holds := by
    refine callAudio.run_invariant (P := fun s : CallAudio => s.Closing ∧ s.Holds)
      (fun t e t' ht hstep => ⟨closing_step ht.1 hstep, holds_step ht.2 hstep⟩)
      ⟨closing_new pump, holds_new pump⟩ hrun
  obtain ⟨hdown, hleaves, hless⟩ := Down.run (down_of_closing hinv.1 hclosed howner) hlater
  have hwork := work_le hinv.2
  exact ⟨⟨hdown.running, hdown.socketClosed, hdown.device⟩, hleaves, by omega,
    hdown.exists_uplinkStep, hdown.exists_receiveStep, hdown.exists_playoutStep⟩

/-- A session that is closed with a ping unanswered. -/
def unanswered : List CallAudioEvent :=
  [.start, .owner .done, .owner .done, .owner .done, .owner .done, .owner .done, .receive .done,
    .receive .done, .receive (.frame ⟨9, [7]⟩), .uplink .done, .close, .owner .done,
    .owner (.write (fun _ => 0x55) none), .owner .done, .owner .done]

/-- The closed socket refuses the pong, and the stopped device a frame. -/
def refused : List CallAudioEvent :=
  [.receive (.write (fun _ => 0x2a) (some 0)), .uplink .threw, .receive .done, .receive .done,
    .uplink .done, .receive .done, .receive .done, .uplink .done, .receive .done]

theorem closed_for_good_refused :
    ∃ pump s s', CallAudioPump.new 1 = .ok pump ∧
      callAudio.run (CallAudio.new pump) unanswered = some s ∧
      callAudio.run s refused = some s' ∧ s'.receive = .finished ∧ s'.uplink = .finished ∧
      s'.device = ⟨false, true⟩ ∧ ∃ new, s'.log = s.log ++ new ∧ ∀ a ∈ new, a.Leftover := by
  obtain ⟨pump, hnew⟩ : ∃ pump, CallAudioPump.new 1 = .ok pump := ⟨_, rfl⟩
  have hend : (callAudio.run (CallAudio.new pump) unanswered).bind (fun s : CallAudio =>
      (callAudio.run s refused).map fun s' : CallAudio =>
        (s.closed, s.owner, s'.receive, s'.uplink))
        = some (true, .idle, .finished, .finished) := by
    obtain rfl := Except.ok.inj hnew
    decide +kernel
  obtain ⟨s, hrun, hend⟩ := Option.bind_eq_some_iff.1 hend
  obtain ⟨s', hlater, hend⟩ := Option.map_eq_some_iff.1 hend
  simp only [Prod.mk.injEq] at hend
  obtain ⟨hclosed, howner, hreceive, huplink⟩ := hend
  obtain ⟨⟨-, -, hdevice⟩, hleaves, -⟩ := closed_for_good hrun hclosed howner hlater
  exact ⟨pump, s, s', hnew, hrun, hlater, hreceive, huplink, hdevice, hleaves⟩

end CallAudio

end AnalogConnect
