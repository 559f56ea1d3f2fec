import AnalogConnect.Proofs.CallAudioUplink

/-!
# What is written to a call's socket

The socket's lock lets one frame be written at a time, but a close can come between the receive
worker's reading of a ping and its pong, which asks for no open socket. So after the close's frame
at most that one pong is written (`Ends`), and never a batch. Each ping that was read is answered
once, in order, but for the last while its pong is under way (`Disciplined`).
-/

namespace AnalogConnect

open WebSocketWire (opcodeBinary opcodeClose opcodePing opcodePong)

/-- The ping the receive worker is about to answer. -/
def ReceivePc.pending : ReceivePc → List (List UInt8)
  | .ponging payload => [payload]
  | _ => []

/-- Whether the worker may write a pong without looking at the socket again. -/
def ReceivePc.mayPong : ReceivePc → Bool
  | .reading => true
  | .ponging _ => true
  | _ => false

def CallAudioAction.ping? : CallAudioAction → Option (List UInt8)
  | .received frame => if frame.opcode = opcodePing then some frame.payload else none
  | _ => none

namespace CallAudio

/-- What the pings said that were read. -/
def pings (c : CallAudio) : List (List UInt8) := c.log.filterMap CallAudioAction.ping?

/-- What the pongs say that were written. -/
def pongs (c : CallAudio) : List (List UInt8) :=
  (c.writes.filter (·.opcode = opcodePong)).map SocketWrite.payload

/-- One close was written, and after it a pong at most, which the worker's next may still be. -/
def Ends (writes : List SocketWrite) (mayPong : Bool) : Prop :=
  ∃ before close after, writes = before ++ close :: after ∧ close.opcode = opcodeClose ∧
    (∀ write ∈ before, write.opcode ≠ opcodeClose) ∧
      (after = [] ∨ mayPong = false ∧ ∃ pong, after = [pong] ∧ pong.opcode = opcodePong)

structure Disciplined (c : CallAudio) : Prop where
  answered : c.pings = c.pongs ++ c.receive.pending
  answerable : ∀ payload, c.receive = .ponging payload → payload.length ≤ 125
  «open» : c.socketClosed = false → ∀ write ∈ c.writes, write.opcode ≠ opcodeClose
  closed : c.socketClosed = true → Ends c.writes c.receive.mayPong

/-- What a step does to the socket that writes neither a batch nor a pong. -/
def Shuts (c c' : CallAudio) : Prop :=
  c'.pings = c.pings ∧
    ((c'.socketClosed = c.socketClosed ∧ c'.writes = c.writes) ∨
      c.socketClosed = false ∧ c'.socketClosed = true ∧
        ∃ close, close.opcode = opcodeClose ∧ c'.writes = c.writes ++ [close])

variable {c c' : CallAudio} {outcome : CallAudioOutcome}

/-- A step whose actions are no writes and no reads. -/
theorem shuts_same {new : List CallAudioAction} (hlog : c'.log = c.log ++ new)
    (hnew : ∀ a ∈ new, a.write? = none ∧ a.ping? = none)
    (hclosed : c'.socketClosed = c.socketClosed) : Shuts c c' := by
  have hwrites : new.filterMap CallAudioAction.write? = [] :=
    List.filterMap_eq_nil_iff.2 fun a ha => (hnew a ha).1
  have hpings : new.filterMap CallAudioAction.ping? = [] :=
    List.filterMap_eq_nil_iff.2 fun a ha => (hnew a ha).2
  refine ⟨?_, .inl ⟨hclosed, ?_⟩⟩
  · rw [pings, hlog, List.filterMap_append, hpings, List.append_nil]
    rfl
  · rw [writes_append hlog, hwrites, List.append_nil]

theorem shuts_of_log (hlog : c'.log = c.log) (hclosed : c'.socketClosed = c.socketClosed) :
    Shuts c c' :=
  shuts_same (hlog.trans (List.append_nil _).symm) (by simp) hclosed

/-- A step of one action that is no write and no read. -/
theorem shuts_did {action : CallAudioAction} (hlog : c'.log = c.log ++ [action])
    (hwrite : action.write? = none) (hping : action.ping? = none)
    (hclosed : c'.socketClosed = c.socketClosed) : Shuts c c' := by
  refine shuts_same hlog (fun a ha => ?_) hclosed
  rw [List.mem_singleton.1 ha]
  exact ⟨hwrite, hping⟩

theorem Shuts.of_eq {d : CallAudio} (h : Shuts c d) (hlog : c'.log = d.log)
    (hclosed : c'.socketClosed = d.socketClosed) : Shuts c c' := by
  unfold Shuts pings writes at *
  rw [hlog, hclosed]
  exact h

theorem shuts_closeTransport (h : c.closeTransport outcome = some c') : Shuts c c' := by
  rcases closeTransport_cases h with ⟨-, rfl⟩ | ⟨mask, torn, hopen, rfl⟩
  · exact shuts_of_log rfl rfl
  · refine ⟨?_, .inr ⟨hopen, rfl, ⟨opcodeClose, [], mask, torn⟩, rfl, ?_⟩⟩
    · simp [pings, CallAudioAction.ping?]
    · simp [writes, CallAudioAction.write?]

theorem shuts_stopAudio (c : CallAudio) : Shuts c c.stopAudio := by
  unfold stopAudio
  split_ifs
  · exact shuts_did (c := c) rfl rfl rfl rfl
  · exact shuts_of_log rfl rfl

theorem shuts_closeAudio (c : CallAudio) : Shuts c c.closeAudio := by
  unfold closeAudio stopAudio
  split_ifs
  · exact shuts_of_log rfl rfl
  · exact shuts_same (c := c) (List.append_assoc _ _ _)
      (by simp [CallAudioAction.write?, CallAudioAction.ping?]) rfl
  · exact shuts_did (c := c) rfl rfl rfl rfl

theorem shuts_startAudio {threw : Bool} (h : c.startAudio outcome = some (threw, c')) :
    Shuts c c' := by
  unfold startAudio at h
  split at h
  · split_ifs at h
    · obtain ⟨-, rfl⟩ := Prod.mk.inj (Option.some.inj h)
      exact shuts_of_log rfl rfl
    · obtain ⟨-, rfl⟩ := Prod.mk.inj (Option.some.inj h)
      exact shuts_of_log rfl rfl
    · obtain ⟨-, rfl⟩ := Prod.mk.inj (Option.some.inj h)
      exact shuts_did (c := c) rfl rfl rfl rfl
  · obtain ⟨-, rfl⟩ := Prod.mk.inj (Option.some.inj h)
    exact shuts_of_log rfl rfl
  · cases h

theorem shuts_failed (c : CallAudio) (code : String) : Shuts c (c.did (.failed code)) :=
  shuts_did (c := c) rfl rfl rfl rfl

theorem shuts_fail {step : Failing} {next : Option Failing}
    (h : c.fail outcome step = some (next, c')) : Shuts c c' := by
  unfold fail at h
  cases step with
  | claim code =>
    dsimp only at h
    split_ifs at h
    · obtain ⟨-, rfl⟩ := Prod.mk.inj (Option.some.inj h)
      exact shuts_failed c code
    · obtain ⟨-, rfl⟩ := Prod.mk.inj (Option.some.inj h)
      exact shuts_failed c code
  | clearRunning =>
    obtain ⟨-, rfl⟩ := Prod.mk.inj (Option.some.inj h)
    exact shuts_of_log rfl rfl
  | closeTransport =>
    obtain ⟨d, hclose, h⟩ := Option.map_eq_some_iff.1 h
    obtain ⟨-, rfl⟩ := Prod.mk.inj h
    exact shuts_closeTransport hclose
  | stopAudio =>
    obtain ⟨-, rfl⟩ := Prod.mk.inj (Option.some.inj h)
    exact shuts_stopAudio c

/-! ## Steps -/

theorem pongs_append {more : List SocketWrite} (h : c'.writes = c.writes ++ more) :
    c'.pongs = c.pongs ++ (more.filter (·.opcode = opcodePong)).map SocketWrite.payload := by
  rw [pongs, h, List.filter_append, List.map_append]
  rfl

theorem Ends.mono {writes : List SocketWrite} {mayPong mayPong' : Bool} (h : Ends writes mayPong)
    (hmay : mayPong' = true → mayPong = true) : Ends writes mayPong' := by
  obtain ⟨before, close, after, hwrites, hclose, hbefore, hafter⟩ := h
  refine ⟨before, close, after, hwrites, hclose, hbefore, hafter.imp_right fun hpong => ?_⟩
  refine ⟨Bool.eq_false_iff.2 fun htrue => ?_, hpong.2⟩
  rw [hmay htrue] at hpong
  cases hpong.1

/-- Where the worker goes without writing or reading a frame. -/
theorem Disciplined.goto (h : Disciplined c) (hshuts : Shuts c c')
    (hpending : c'.receive.pending = c.receive.pending)
    (hmay : c'.socketClosed = true → c'.receive.mayPong = true → c.receive.mayPong = true) :
    Disciplined c' := by
  have hpongs : c'.pongs = c.pongs := by
    rcases hshuts.2 with ⟨-, hwrites⟩ | ⟨-, -, close, hclose, hwrites⟩
    · rw [pongs, hwrites]
      rfl
    · rw [pongs_append hwrites]
      simp [hclose, opcodeClose, opcodePong]
  refine ⟨?_, fun payload hpayload => ?_, fun hopen => ?_, fun hclosed => ?_⟩
  · rw [hshuts.1, hpongs, hpending]
    exact h.answered
  · rw [hpayload] at hpending
    refine h.answerable payload ?_
    cases hreceive : c.receive <;> rw [hreceive] at hpending <;> cases hpending
    rfl
  · rcases hshuts.2 with ⟨hsame, hwrites⟩ | ⟨-, htrue, -⟩
    · rw [hwrites]
      exact h.open (hsame ▸ hopen)
    · rw [htrue] at hopen
      cases hopen
  · rcases hshuts.2 with ⟨hsame, hwrites⟩ | ⟨hopen, -, close, hclose, hwrites⟩
    · rw [hwrites]
      exact (h.closed (hsame ▸ hclosed)).mono (hmay hclosed)
    · exact ⟨c.writes, close, [], hwrites, hclose, h.open hopen, .inl rfl⟩

theorem Disciplined.shuts (h : Disciplined c) (hshuts : Shuts c c')
    (hreceive : c'.receive = c.receive) : Disciplined c' :=
  h.goto hshuts (by rw [hreceive]) fun _ => by rw [hreceive]; exact id

section Wrote

variable {opcode : ℕ} {payload : List UInt8} {mask : MaskKey} {torn : Option ℕ}
  (hlog : c'.log = c.log ++ [.wrote opcode payload mask torn])

include hlog

theorem writes_wrote : c'.writes = c.writes ++ [⟨opcode, payload, mask, torn⟩] := writes_append hlog

theorem pings_wrote : c'.pings = c.pings := by
  rw [pings, hlog, List.filterMap_append]
  exact List.append_nil _

/-- A batch is written while the socket is open. -/
theorem Disciplined.batch (h : Disciplined c) (hopen : c.socketClosed = false)
    (hopcode : opcode = opcodeBinary) (hclosed : c'.socketClosed = c.socketClosed)
    (hreceive : c'.receive = c.receive) : Disciplined c' := by
  have hwrites := writes_wrote hlog
  refine ⟨?_, hreceive ▸ h.answerable, fun _ w hw => ?_, fun htrue => ?_⟩
  · rw [pings_wrote hlog, pongs_append hwrites, hreceive]
    simpa [hopcode, opcodeBinary, opcodePong] using h.answered
  · rw [hwrites] at hw
    rcases List.mem_append.1 hw with hw | hw
    · exact h.open hopen w hw
    · rw [List.mem_singleton.1 hw]
      exact fun hclose => absurd (hopcode.symm.trans hclose) (by decide)
  · rw [hclosed, hopen] at htrue
    cases htrue

/-- The pong is written, be the socket closed or not. -/
theorem Disciplined.pong (h : Disciplined c) (hreceive : c.receive = .ponging payload)
    (hopcode : opcode = opcodePong) (hclosed : c'.socketClosed = c.socketClosed)
    (hpending : c'.receive.pending = []) (hmay : c'.receive.mayPong = false) :
    Disciplined c' := by
  have hwrites := writes_wrote hlog
  have hanswered := h.answered
  rw [hreceive] at hanswered
  refine ⟨?_, fun payload hpayload => ?_, fun hopen w hw => ?_, fun htrue => ?_⟩
  · rw [pings_wrote hlog, pongs_append hwrites, hpending, hanswered]
    simp [hopcode, ReceivePc.pending]
  · rw [hpayload] at hpending
    cases hpending
  · rw [hwrites] at hw
    rcases List.mem_append.1 hw with hw | hw
    · exact h.open (hclosed ▸ hopen) w hw
    · rw [List.mem_singleton.1 hw]
      exact fun hclose => absurd (hopcode.symm.trans hclose) (by decide)
  · obtain ⟨before, close, after, hold, hclose, hbefore, hafter⟩ := h.closed (hclosed ▸ htrue)
    rw [hreceive] at hafter
    obtain rfl : after = [] := hafter.resolve_right nofun
    refine ⟨before, close, [⟨opcode, payload, mask, torn⟩], ?_, hclose, hbefore,
      .inr ⟨hmay, _, rfl, hopcode⟩⟩
    rw [hwrites, hold, List.append_assoc]
    rfl

end Wrote

/-- A frame is read. -/
theorem Disciplined.read (h : Disciplined c) {frame : WebSocketWire.Frame}
    (hvalid : WebSocketWire.validateOpcodeAndPayload frame.opcode frame.payload = .ok ())
    (hreceive : c.receive = .reading) :
    Disciplined { c.did (.received frame) with receive := c.handle frame } := by
  have hwrites : CallAudio.writes { c.did (.received frame) with receive := c.handle frame }
      = c.writes := (writes_append rfl).trans (List.append_nil _)
  have hpongs : CallAudio.pongs { c.did (.received frame) with receive := c.handle frame }
      = c.pongs := by
    rw [pongs, hwrites]
    rfl
  have hpings : CallAudio.pings { c.did (.received frame) with receive := c.handle frame }
      = c.pings ++ (c.handle frame).pending := by
    unfold handle pings
    rw [did_log, List.filterMap_append]
    congr 1
    unfold CallAudioAction.ping?
    split_ifs with hping
    · simp [hping, ReceivePc.pending]
    · simp only [hping, if_false, List.filterMap_cons, List.filterMap_nil, ReceivePc.pending]
    · split <;> simp [hping, ReceivePc.pending]
    · simp [hping, ReceivePc.pending]
  have hanswered := h.answered
  rw [hreceive] at hanswered
  refine ⟨?_, fun payload hpayload => ?_, fun hopen => ?_, fun hclosed => ?_⟩
  · rw [hpings, hpongs, hanswered]
    simp [ReceivePc.pending]
  · have hlength := (WebSocketWire.validate_iff.1 hvalid).2.2.1
    unfold handle at hpayload
    dsimp only at hpayload
    split_ifs at hpayload with hping hclose hbinary
    · obtain rfl := ReceivePc.ponging.inj hpayload
      exact hlength (by rw [hping]; decide)
    · split at hpayload <;> cases hpayload
  · rw [hwrites]
    exact h.open hopen
  · rw [hwrites]
    exact (h.closed hclosed).mono fun _ => by rw [hreceive]; rfl

theorem disciplined_uplinkStep (h : Disciplined c) (hstep : c.uplinkStep outcome = some c') :
    Disciplined c' := by
  have hreceive := (stepOf_uplink hstep).receive nofun
  unfold uplinkStep at hstep
  split at hstep
  · cases hstep
  · obtain rfl := Option.some.inj hstep
    exact h.shuts (shuts_of_log rfl rfl) hreceive
  · split at hstep
    · split_ifs at hstep
      obtain rfl := Option.some.inj hstep
      exact h.shuts (shuts_did (c := c) rfl rfl rfl rfl) hreceive
    · obtain rfl := Option.some.inj hstep
      exact h.shuts (shuts_of_log rfl rfl) hreceive
    · cases hstep
  · split at hstep
    · obtain rfl := Option.some.inj hstep
      exact h.shuts (shuts_of_log rfl rfl) hreceive
    · obtain ⟨⟨sent, d⟩, hsend, rfl⟩ := Option.map_eq_some_iff.1 hstep
      unfold sendBinary at hsend
      split_ifs at hsend with hclosed
      · obtain ⟨rfl, rfl⟩ := Prod.mk.inj (Option.some.inj hsend)
        exact h.shuts (shuts_of_log rfl rfl) hreceive
      · rcases writeFrame_cases hsend with ⟨-, rfl, rfl⟩ | ⟨mask, torn, -, rfl, rfl⟩
        · exact h.shuts (shuts_of_log rfl rfl) hreceive
        · exact Disciplined.batch rfl h (Bool.eq_false_iff.2 hclosed) rfl rfl hreceive
  · obtain ⟨⟨next, d⟩, hfail, rfl⟩ := Option.map_eq_some_iff.1 hstep
    exact h.shuts ((shuts_fail hfail).of_eq rfl rfl) hreceive
  · cases hstep

theorem disciplined_receiveStep (h : Disciplined c) (hstep : c.receiveStep outcome = some c') :
    Disciplined c' := by
  unfold receiveStep at hstep
  split at hstep
  · cases hstep
  · rename_i hpc
    obtain rfl := Option.some.inj hstep
    refine h.goto (shuts_of_log rfl rfl) ?_ fun _ hmay => ?_
    · rw [hpc]
      dsimp only
      split_ifs <;> rfl
    · dsimp only at hmay
      split_ifs at hmay <;> cases hmay
  · rename_i hpc
    obtain rfl := Option.some.inj hstep
    refine h.goto (shuts_of_log rfl rfl) ?_ fun hclosed hmay => ?_
    · rw [hpc]
      dsimp only
      split_ifs <;> rfl
    · dsimp only at hclosed hmay
      rw [if_pos hclosed] at hmay
      cases hmay
  · rename_i hpc
    split at hstep
    · split_ifs at hstep with hvalid
      obtain rfl := Option.some.inj hstep
      exact h.read hvalid hpc
    · obtain rfl := Option.some.inj hstep
      exact h.goto (shuts_of_log rfl rfl) (by rw [hpc]; rfl) fun _ => nofun
    · cases hstep
  · rename_i payload hpc
    obtain ⟨⟨sent, d⟩, hwrite, rfl⟩ := Option.map_eq_some_iff.1 hstep
    rcases writeFrame_cases hwrite with ⟨hinvalid, -, -⟩ | ⟨mask, torn, -, rfl, rfl⟩
    · have hlength := h.answerable payload hpc
      refine absurd (WebSocketWire.validate_iff.2 ⟨by omega, ?_, fun _ => hlength, ?_⟩) hinvalid
      · exact .inr (.inr (.inr rfl))
      · exact nofun
    · refine Disciplined.pong rfl h hpc rfl rfl ?_ ?_
      · dsimp only
        split_ifs <;> rfl
      · dsimp only
        split_ifs <;> rfl
  · rename_i hpc
    obtain ⟨d, hclose, rfl⟩ := Option.map_eq_some_iff.1 hstep
    exact h.goto ((shuts_closeTransport hclose).of_eq rfl rfl) (by rw [hpc]; rfl) fun _ => nofun
  · rename_i hpc
    obtain rfl := Option.some.inj hstep
    exact h.goto (shuts_of_log rfl rfl) (by rw [hpc]; rfl) fun _ => nofun
  · rename_i packet packets hpc
    obtain rfl := Option.some.inj hstep
    exact h.goto (shuts_did (c := c) rfl rfl rfl rfl) (by rw [hpc]; rfl)
      fun _ => nofun
  · rename_i step hpc
    obtain ⟨⟨next, d⟩, hfail, rfl⟩ := Option.map_eq_some_iff.1 hstep
    refine h.goto ((shuts_fail hfail).of_eq rfl rfl) ?_ fun _ hmay => ?_
    · rw [hpc]
      cases next <;> rfl
    · cases next <;> cases hmay
  · cases hstep

theorem shuts_playoutStep (hstep : c.playoutStep outcome = some c') : Shuts c c' := by
  unfold playoutStep at hstep
  split at hstep
  · cases hstep
  · obtain rfl := Option.some.inj hstep
    exact shuts_of_log rfl rfl
  · split at hstep <;> obtain rfl := Option.some.inj hstep <;> exact shuts_of_log rfl rfl
  · split_ifs at hstep <;> obtain rfl := Option.some.inj hstep <;> exact shuts_of_log rfl rfl
  · split at hstep <;> obtain rfl := Option.some.inj hstep <;> exact shuts_of_log rfl rfl
  · rcases play_cases hstep with ⟨-, -, rfl⟩ | ⟨-, rfl⟩
    · exact shuts_did (c := c) rfl rfl rfl rfl
    · exact shuts_of_log rfl rfl
  · obtain rfl := Option.some.inj hstep
    exact shuts_of_log rfl rfl
  · obtain rfl := Option.some.inj hstep
    exact shuts_of_log rfl rfl
  · rcases play_cases hstep with ⟨-, -, rfl⟩ | ⟨-, rfl⟩
    · exact shuts_did (c := c) rfl rfl rfl rfl
    · exact shuts_of_log rfl rfl
  · obtain ⟨⟨next, d⟩, hfail, rfl⟩ := Option.map_eq_some_iff.1 hstep
    exact (shuts_fail hfail).of_eq rfl rfl
  · cases hstep

theorem shuts_ownerStep (hstep : c.ownerStep outcome = some c') : Shuts c c' := by
  unfold ownerStep at hstep
  split at hstep
  · cases hstep
  · obtain ⟨⟨threw, d⟩, hstart, rfl⟩ := Option.map_eq_some_iff.1 hstep
    exact (shuts_startAudio hstart).of_eq rfl rfl
  · obtain rfl := Option.some.inj hstep
    exact shuts_of_log rfl rfl
  · obtain rfl := Option.some.inj hstep
    exact shuts_of_log rfl rfl
  · obtain rfl := Option.some.inj hstep
    exact shuts_of_log rfl rfl
  · obtain rfl := Option.some.inj hstep
    exact shuts_of_log rfl rfl
  · obtain rfl := Option.some.inj hstep
    exact shuts_of_log rfl rfl
  · obtain ⟨d, hclose, rfl⟩ := Option.map_eq_some_iff.1 hstep
    exact (shuts_closeTransport hclose).of_eq rfl rfl
  · obtain rfl := Option.some.inj hstep
    exact (shuts_stopAudio c).of_eq rfl rfl
  · obtain rfl := Option.some.inj hstep
    exact (shuts_closeAudio c).of_eq rfl rfl

/-! ## Runs -/

/-- The workers begin once, one after the other. -/
structure Entering (c : CallAudio) : Prop where
  uplink : c.owner = .startReceive ∨ c.owner = .startPlayout → c.uplink ≠ .absent
  receive : c.owner.beginning = true ∨ c.owner = .startReceive ∨ c.uplink = .absent →
    c.receive = .absent
  playout : c.owner.starting = true ∨ c.uplink = .absent → c.playout = .absent

/-- No worker that began is as if it had not. -/
theorem uplink_ne_absent (hstep : c.uplinkStep outcome = some c') : c'.uplink ≠ .absent := by
  unfold uplinkStep at hstep
  split at hstep
  · cases hstep
  · obtain rfl := Option.some.inj hstep
    dsimp only
    split_ifs <;> exact nofun
  · split at hstep
    · split_ifs at hstep
      obtain rfl := Option.some.inj hstep
      dsimp only
      unfold capture
      split_ifs <;> exact nofun
    · obtain rfl := Option.some.inj hstep
      exact nofun
    · cases hstep
  · split at hstep
    · obtain rfl := Option.some.inj hstep
      exact nofun
    · obtain ⟨⟨sent, d⟩, hsend, rfl⟩ := Option.map_eq_some_iff.1 hstep
      dsimp only
      unfold advance
      split_ifs <;> exact nofun
  · obtain ⟨⟨next, d⟩, hfail, rfl⟩ := Option.map_eq_some_iff.1 hstep
    cases next with
    | some step => exact nofun
    | none =>
      dsimp only
      split_ifs <;> exact nofun
  · cases hstep

theorem entering_ownerStep (h : c.Entering) (hstep : c.ownerStep outcome = some c') :
    c'.Entering := by
  rcases ownerStep_cases hstep with
    ⟨howner, rfl⟩ | ⟨howner, rfl⟩ | ⟨howner, rfl⟩ | ⟨d, hquiet, owner, rfl, hbegins, hlater⟩
  · exact ⟨fun _ => nofun, fun _ => h.receive (.inl (by rw [howner]; rfl)),
      fun _ => h.playout (.inl (by rw [howner]; rfl))⟩
  · have huplink := h.uplink (.inl howner)
    refine ⟨fun _ => huplink, fun hc => ?_, fun _ => h.playout (.inl (by rw [howner]; rfl))⟩
    exact absurd ((hc.resolve_left nofun).resolve_left nofun) huplink
  · have huplink := h.uplink (.inr howner)
    refine ⟨fun _ => huplink, fun hc => ?_, fun hc => absurd (hc.resolve_left nofun) huplink⟩
    exact absurd ((hc.resolve_left nofun).resolve_left nofun) huplink
  · refine ⟨fun hc => absurd hc hlater, fun hc => hquiet.receive.trans (h.receive ?_),
      fun hc => hquiet.playout.trans (h.playout ?_)⟩
    · rcases hc with hc | hc | hc
      · exact .inl (hbegins (OwnerPc.starting_of_beginning hc))
      · exact absurd (.inl hc) hlater
      · exact .inr (.inr (hquiet.uplink.symm.trans hc))
    · rcases hc with hc | hc
      · exact .inl (OwnerPc.starting_of_beginning (hbegins hc))
      · exact .inr (hquiet.uplink.symm.trans hc)

theorem entering_step {event : CallAudioEvent} (h : c.Entering) (hstep : c.step event = some c') :
    c'.Entering := by
  unfold step at hstep
  split at hstep
  · split_ifs at hstep with howner hbegun
    · obtain rfl := Option.some.inj hstep
      exact h
    · obtain rfl := Option.some.inj hstep
      have habsent : c.uplink = .absent :=
        Decidable.of_not_not fun hne => hbegun (.inr (.inr hne))
      exact ⟨fun hc => by simp at hc, fun _ => h.receive (.inr (.inr habsent)),
        fun _ => h.playout (.inr habsent)⟩
  · split_ifs at hstep
    · obtain rfl := Option.some.inj hstep
      exact h
    · obtain rfl := Option.some.inj hstep
      refine ⟨fun hc => by simp at hc, fun hc => ?_, fun hc => ?_⟩
      · exact h.receive (.inr (.inr ((hc.resolve_left nofun).resolve_left nofun)))
      · exact h.playout (.inr (hc.resolve_left nofun))
  · exact entering_ownerStep h hstep
  · have hof := stepOf_uplink hstep
    have hne := uplink_ne_absent hstep
    refine ⟨fun _ => hne, fun hc => (hof.receive nofun).trans (h.receive ?_),
      fun hc => (hof.playout nofun).trans (h.playout ?_)⟩
    · rw [hof.owner] at hc
      exact hc.imp_right fun hc => .inl (hc.resolve_right hne)
    · rw [hof.owner] at hc
      exact .inl (hc.resolve_right hne)
  · have hof := stepOf_receive hstep
    refine ⟨fun hc => ?_, fun hc => ?_, fun hc => (hof.playout nofun).trans (h.playout ?_)⟩
    · rw [hof.uplink nofun]
      exact h.uplink (hof.owner ▸ hc)
    · rw [hof.owner, hof.uplink nofun] at hc
      have habsent := h.receive hc
      unfold receiveStep at hstep
      rw [habsent] at hstep
      cases hstep
    · rw [hof.owner, hof.uplink nofun] at hc
      exact hc
  · have hof := stepOf_playout hstep
    refine ⟨fun hc => ?_, fun hc => (hof.receive nofun).trans (h.receive ?_), fun hc => ?_⟩
    · rw [hof.uplink nofun]
      exact h.uplink (hof.owner ▸ hc)
    · rw [hof.owner, hof.uplink nofun] at hc
      exact hc
    · rw [hof.owner, hof.uplink nofun] at hc
      have habsent := h.playout hc
      unfold playoutStep at hstep
      rw [habsent] at hstep
      cases hstep

/-- The owner lets no worker write; the one it may begin has nothing to write yet. -/
theorem disciplined_ownerStep (hentering : c.Entering) (h : Disciplined c)
    (hstep : c.ownerStep outcome = some c') : Disciplined c' := by
  have hshuts := shuts_ownerStep hstep
  rcases ownerStep_cases hstep with
    ⟨-, rfl⟩ | ⟨howner, rfl⟩ | ⟨-, rfl⟩ | ⟨d, hquiet, owner, rfl, -, -⟩
  · exact h.shuts hshuts rfl
  · have habsent := hentering.receive (.inr (.inl howner))
    exact h.goto hshuts (by rw [habsent]; rfl) fun _ => nofun
  · exact h.shuts hshuts rfl
  · exact h.shuts hshuts hquiet.receive

theorem disciplined_step {event : CallAudioEvent} (hentering : c.Entering)
    (h : Disciplined c) (hstep : c.step event = some c') : Disciplined c' := by
  unfold step at hstep
  split at hstep
  · split_ifs at hstep
    · obtain rfl := Option.some.inj hstep
      exact h
    · obtain rfl := Option.some.inj hstep
      exact h.shuts (shuts_of_log rfl rfl) rfl
  · split_ifs at hstep
    · obtain rfl := Option.some.inj hstep
      exact h
    · obtain rfl := Option.some.inj hstep
      exact h.shuts (shuts_of_log rfl rfl) rfl
  · exact disciplined_ownerStep hentering h hstep
  · exact disciplined_uplinkStep h hstep
  · exact disciplined_receiveStep h hstep
  · exact h.shuts (shuts_playoutStep hstep) ((stepOf_playout hstep).receive nofun)

theorem entering_new (pump : CallAudioPump) : Entering (CallAudio.new pump) :=
  ⟨fun howner => by simp [CallAudio.new] at howner, fun _ => rfl, fun _ => rfl⟩

theorem disciplined_new (pump : CallAudioPump) : Disciplined (CallAudio.new pump) where
  answered := rfl
  answerable _ hreceive := nomatch hreceive
  «open» _ _ hwrite := absurd hwrite List.not_mem_nil
  closed hclosed := nomatch hclosed

/-- Whatever the workers and the owner do: before the socket is closed no close is written, and
after it exactly one, with no batch behind it and at most one pong. The pings that were read are
answered with what they said, in order and once each, but for the last while the receive worker is
about to write its pong; a pong whose write threw is its answer all the same. -/
theorem socket_disciplined {pump : CallAudioPump} {events : List CallAudioEvent} {s : CallAudio}
    (hrun : callAudio.run (CallAudio.new pump) events = some s) :
    (s.socketClosed = false → ∀ write ∈ s.writes, write.opcode ≠ opcodeClose) ∧
      (s.socketClosed = true → ∃ before close after, s.writes = before ++ close :: after ∧
        close.opcode = opcodeClose ∧ (∀ write ∈ before, write.opcode ≠ opcodeClose) ∧
          (∀ write ∈ after, write.opcode = opcodePong) ∧ after.length ≤ 1) ∧
      s.pings = s.pongs ++ s.receive.pending := by
  have hinv : s.Entering ∧ s.Disciplined := by
    refine callAudio.run_invariant (P := fun s : CallAudio => s.Entering ∧ s.Disciplined)
      (fun t e t' ht hstep => ⟨entering_step ht.1 hstep, disciplined_step ht.1 ht.2 hstep⟩)
      ⟨entering_new pump, disciplined_new pump⟩ hrun
  obtain ⟨-, h⟩ := hinv
  refine ⟨h.open, fun hclosed => ?_, h.answered⟩
  obtain ⟨before, close, after, hwrites, hclose, hbefore, hafter⟩ := h.closed hclosed
  refine ⟨before, close, after, hwrites, hclose, hbefore, ?_⟩
  rcases hafter with rfl | ⟨-, pong, rfl, hpong⟩
  · exact ⟨nofun, Nat.zero_le 1⟩
  · exact ⟨fun write hwrite => by rw [List.mem_singleton.1 hwrite, hpong], le_rfl⟩

/-- A close that comes between a ping and its pong, which the closed socket refuses. -/
def latePong : List CallAudioEvent :=
  [.start, .owner .done, .owner .done, .owner .done, .owner .done, .owner .done, .receive .done,
    .receive .done, .receive (.frame ⟨9, [7]⟩), .close, .owner .done,
    .owner (.write (fun _ => 0x55) none), .receive (.write (fun _ => 0x2a) (some 0))]

theorem socket_disciplined_latePong :
    ∃ pump s, CallAudioPump.new 1 = .ok pump ∧
      callAudio.run (CallAudio.new pump) latePong = some s ∧
      s.writes.map SocketWrite.opcode = [8, 10] ∧ s.pongs = [[7]] ∧
      ∃ before close after, s.writes = before ++ close :: after ∧ close.opcode = opcodeClose ∧
        (∀ write ∈ before, write.opcode ≠ opcodeClose) ∧
        (∀ write ∈ after, write.opcode = opcodePong) ∧ after.length ≤ 1 := by
  obtain ⟨pump, hnew⟩ : ∃ pump, CallAudioPump.new 1 = .ok pump := ⟨_, rfl⟩
  have hend : (callAudio.run (CallAudio.new pump) latePong).map (fun s : CallAudio =>
      (s.writes.map SocketWrite.opcode, s.pongs, s.socketClosed))
        = some ([8, 10], [[7]], true) := by
    obtain rfl := Except.ok.inj hnew
    decide +kernel
  obtain ⟨s, hrun, hend⟩ := Option.map_eq_some_iff.1 hend
  obtain ⟨hopcodes, hrest⟩ := Prod.mk.inj hend
  obtain ⟨hpongs, hclosed⟩ := Prod.mk.inj hrest
  exact ⟨pump, s, hnew, hrun, hopcodes, hpongs, (socket_disciplined hrun).2.1 hclosed⟩

end CallAudio

end AnalogConnect
