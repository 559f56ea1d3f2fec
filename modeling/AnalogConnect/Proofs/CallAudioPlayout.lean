import AnalogConnect.Proofs.CallAudioTeardown

/-!
# The speaker's side, call by call

The playout worker takes the buffer's lock up to three times in a call of `playoutOnce`, and the
receive worker inserts in between. A call taken as one step, which is given what arrives in each
gap, does the same (`Playing`). So up to the first frame that the speaker refuses the worker among
the others writes what a run of `callAudioPumps` writes, from the same packets (`Follows`).
-/

namespace AnalogConnect

open AudioPacketCodec (Decoded)

def CallAudioAction.inserted? : CallAudioAction → Option Decoded
  | .inserted packet => some packet
  | _ => none

def CallAudioAction.played? : CallAudioAction → Option DownlinkFrame
  | .played frame => some frame
  | _ => none

def CallAudioAction.failed? : CallAudioAction → Option String
  | .failed code => some code
  | _ => none

def PumpRun.written (run : PumpRun) : List DownlinkFrame := run.calls.flatMap PlayoutCall.written

namespace CallAudioPump

variable {pump : CallAudioPump}

/-- After the tick that gives a packet. -/
def got (pump : CallAudioPump) : CallAudioPump :=
  { pump with jitter := pump.jitter.tick.2, framesSinceTrim := pump.framesSinceTrim + 1 }

/-- After the tick that gives none. -/
def missed (pump : CallAudioPump) : CallAudioPump := { pump with jitter := pump.jitter.tick.2 }

/-- The packet as it is written. -/
def recovered (pump : CallAudioPump) (packet : Decoded) : Decoded :=
  if pump.previousFrameConcealed then pump.smoothRecovery packet else packet

def wrote (pump : CallAudioPump) (packet : Decoded) : CallAudioPump :=
  { pump with
    lastDownlinkSample := packet.samples.getLastD 0
    playedDownlink := true, previousFrameConcealed := false }

def paced (pump : CallAudioPump) : CallAudioPump :=
  { pump with
    pacingAdjustmentNanos := pace pump.pacingAdjustmentNanos pump.jitter.summary.depth }

/-- What a call goes on with once it has its packet. -/
def goingOn (pump : CallAudioPump) (packet : Decoded) (arrivals : PlayoutArrivals) :
    Decoded × Bool × CallAudioPump :=
  (pump.got.insertAll arrivals.first).trim packet arrivals.second

theorem insertAll_insertAll (packets more : List Decoded) :
    (pump.insertAll packets).insertAll more = pump.insertAll (packets ++ more) := by
  unfold insertAll
  rw [List.foldl_append]

theorem playoutOnce_some (arrivals : PlayoutArrivals) {packet : Decoded}
    (htick : pump.jitter.tick.1 = some packet) : ∃ trimmed, pump.playoutOnce arrivals =
      ({ written :=
          [{ packet := (pump.goingOn packet arrivals).2.2.recovered (pump.goingOn packet arrivals).1
             concealed := false }]
         trimmed },
        (((pump.goingOn packet arrivals).2.2.wrote ((pump.goingOn packet arrivals).2.2.recovered
          (pump.goingOn packet arrivals).1)).insertAll arrivals.third).paced) := by
  refine ⟨(pump.goingOn packet arrivals).2.1, ?_⟩
  unfold playoutOnce goingOn got
  rcases htick' : pump.jitter.tick with ⟨result, jitter⟩
  rw [htick'] at htick
  obtain rfl : result = some packet := htick
  rfl

theorem playoutOnce_concealed {arrivals : PlayoutArrivals} (htick : pump.jitter.tick.1 = none)
    (hstarted : (pump.missed.insertAll arrivals.first).jitter.hasStarted = true) :
    pump.playoutOnce arrivals =
      ({ written := [((pump.missed.insertAll arrivals.first).insertAll arrivals.second).conceal.1]
         trimmed := false },
        (((pump.missed.insertAll arrivals.first).insertAll arrivals.second).conceal.2).insertAll
          arrivals.third) := by
  unfold missed at *
  unfold playoutOnce
  rcases htick' : pump.jitter.tick with ⟨result, jitter⟩
  rw [htick'] at htick hstarted
  obtain rfl : result = none := htick
  dsimp only at hstarted ⊢
  rw [if_pos hstarted]

theorem playoutOnce_silent {arrivals : PlayoutArrivals} (htick : pump.jitter.tick.1 = none)
    (hstarted : (pump.missed.insertAll arrivals.first).jitter.hasStarted = false) :
    pump.playoutOnce arrivals =
      ({ written := [], trimmed := false },
        (pump.missed.insertAll arrivals.first).insertAll (arrivals.second ++ arrivals.third)) := by
  unfold missed at *
  unfold playoutOnce
  rcases htick' : pump.jitter.tick with ⟨result, jitter⟩
  rw [htick'] at htick hstarted
  obtain rfl : result = none := htick
  exact if_neg (Bool.eq_false_iff.1 hstarted)

/-- Packets that arrive while no call runs. -/
theorem run_inserts : ∀ (packets : List Decoded) (u : PumpRun),
    callAudioPumps.run u (packets.map PumpEvent.insert)
      = some { u with pump := u.pump.insertAll packets }
  | [], _ => rfl
  | packet :: packets, u => by
    rw [List.map_cons, callAudioPumps.run_cons]
    show callAudioPumps.run { u with pump := u.pump.insertAll [packet] } _ = _
    rw [run_inserts packets]
    rfl

end CallAudioPump

namespace CallAudio

def inserted (c : CallAudio) : List Decoded := c.log.filterMap CallAudioAction.inserted?

def played (c : CallAudio) : List DownlinkFrame := c.log.filterMap CallAudioAction.played?

/-- The codes `fail` was called with. -/
def failures (c : CallAudio) : List String := c.log.filterMap CallAudioAction.failed?

/-- The call began with the pump `p`. With these arrivals so far and these frames written the pump
is `q` where the worker is. -/
def Playing (p q : CallAudioPump) (arrivals : PlayoutArrivals) (frames : List DownlinkFrame) :
    PlayoutPc → Prop
  | .depth packet =>
    p.jitter.tick.1 = some packet ∧ arrivals.second = [] ∧ arrivals.third = [] ∧
      q = p.got.insertAll arrivals.first ∧ frames = []
  | .trim packet =>
    p.jitter.tick.1 = some packet ∧ arrivals.third = [] ∧
      ((p.got.insertAll arrivals.first).jitter.summary.depth > CallAudioPump.trimHighWaterDepth ∧
        (p.got.insertAll arrivals.first).framesSinceTrim ≥ CallAudioPump.minFramesBetweenTrims) ∧
      q = (p.got.insertAll arrivals.first).insertAll arrivals.second ∧ frames = []
  | .writing packet =>
    ∃ first, p.jitter.tick.1 = some first ∧ (p.goingOn first arrivals).1 = packet ∧
      q = (p.goingOn first arrivals).2.2.insertAll arrivals.third ∧ frames = []
  | .pacing =>
    ∃ first packet, p.jitter.tick.1 = some first ∧
      (p.goingOn first arrivals).2.2.recovered (p.goingOn first arrivals).1 = packet ∧
      q = ((p.goingOn first arrivals).2.2.wrote packet).insertAll arrivals.third ∧
      frames = [{ packet, concealed := false }]
  | .hasStarted =>
    p.jitter.tick.1 = none ∧ arrivals.second = [] ∧ arrivals.third = [] ∧
      q = p.missed.insertAll arrivals.first ∧ frames = []
  | .concealing =>
    p.jitter.tick.1 = none ∧ arrivals.third = [] ∧
      (p.missed.insertAll arrivals.first).jitter.hasStarted = true ∧
      q = (p.missed.insertAll arrivals.first).insertAll arrivals.second ∧ frames = []
  | .failing step => step = playoutFailed ∧ frames = []
  | _ => q = p ∧ arrivals = ⟨[], [], []⟩ ∧ frames = []

/-- The packets so far came to a run of whole calls and the call the worker is in, and the frames
played are theirs. -/
def Follows (pump : CallAudioPump) (c : CallAudio) : Prop :=
  ∃ events u arrivals frames, callAudioPumps.run ⟨pump, []⟩ events = some u ∧
    events.flatMap PumpEvent.arrived ++ (PumpEvent.playoutOnce arrivals).arrived = c.inserted ∧
    u.written ++ frames = c.played ∧ Playing u.pump c.pump arrivals frames c.playout

variable {c c' : CallAudio} {outcome : CallAudioOutcome} {new : List CallAudioAction}
  {pump : CallAudioPump}

theorem inserted_append (h : c'.log = c.log ++ new) :
    c'.inserted = c.inserted ++ new.filterMap CallAudioAction.inserted? := by
  rw [inserted, h, List.filterMap_append]
  rfl

theorem played_append (h : c'.log = c.log ++ new) :
    c'.played = c.played ++ new.filterMap CallAudioAction.played? := by
  rw [played, h, List.filterMap_append]
  rfl

/-- The receive worker inserts and the playout worker plays. -/
theorem inserted_of_thread (h : c'.log = c.log ++ new)
    (hnew : ∀ a ∈ new, a.thread ≠ some .receive) : c'.inserted = c.inserted := by
  have hnone : new.filterMap CallAudioAction.inserted? = [] := by
    refine List.filterMap_eq_nil_iff.2 fun a ha => ?_
    cases a <;> first | rfl | exact absurd rfl (hnew _ ha)
  rw [inserted_append h, hnone, List.append_nil]

theorem played_of_thread (h : c'.log = c.log ++ new)
    (hnew : ∀ a ∈ new, a.thread ≠ some .playout) : c'.played = c.played := by
  have hnone : new.filterMap CallAudioAction.played? = [] := by
    refine List.filterMap_eq_nil_iff.2 fun a ha => ?_
    cases a <;> first | rfl | exact absurd rfl (hnew _ ha)
  rw [played_append h, hnone, List.append_nil]

namespace Follows

variable (h : Follows pump c)

include h

/-- The worker goes on within its call, or without one. -/
theorem goto (hinserted : c'.inserted = c.inserted) (hplayed : c'.played = c.played)
    (hplaying : ∀ p arrivals frames, Playing p c.pump arrivals frames c.playout →
      Playing p c'.pump arrivals frames c'.playout) : Follows pump c' := by
  obtain ⟨events, u, arrivals, frames, hrun, harrived, hwritten, hc⟩ := h
  exact ⟨events, u, arrivals, frames, hrun, harrived.trans hinserted.symm,
    hwritten.trans hplayed.symm, hplaying _ _ _ hc⟩

/-- Another's step that inserts nothing. -/
theorem quiet (hquiet : Quiet c c') : Follows pump c' := by
  obtain ⟨new, hlog, hnew⟩ := hquiet.log
  refine h.goto (inserted_of_thread hlog fun a ha => ?_)
    (played_of_thread hlog fun a ha => ?_) fun p arrivals frames hplaying => ?_
  · rw [(hnew a ha).1]
    exact nofun
  · rw [(hnew a ha).1]
    exact nofun
  · rw [hquiet.pump, hquiet.playout]
    exact hplaying

/-- The worker writes a frame. -/
theorem play {frame : DownlinkFrame} (hlog : c'.log = c.log ++ [.played frame])
    (hplaying : ∀ p arrivals frames, Playing p c.pump arrivals frames c.playout →
      Playing p c'.pump arrivals (frames ++ [frame]) c'.playout) : Follows pump c' := by
  obtain ⟨events, u, arrivals, frames, hrun, harrived, hwritten, hc⟩ := h
  refine ⟨events, u, arrivals, frames ++ [frame], hrun, ?_, ?_, hplaying _ _ _ hc⟩
  · rw [harrived, inserted_append hlog]
    exact (List.append_nil _).symm
  · rw [← List.append_assoc, hwritten, played_append hlog]
    rfl

/-- The worker's call is through. -/
theorem complete (more : List DownlinkFrame) (hinserted : c'.inserted = c.inserted)
    (hplayed : c'.played = c.played ++ more) (hrest : c'.playout = .whileRunning)
    (hplaying : ∀ p arrivals frames, Playing p c.pump arrivals frames c.playout →
      (p.playoutOnce arrivals).2 = c'.pump ∧
        (p.playoutOnce arrivals).1.written = frames ++ more) : Follows pump c' := by
  obtain ⟨events, u, arrivals, frames, hrun, harrived, hwritten, hc⟩ := h
  obtain ⟨hpump, hframes⟩ := hplaying _ _ _ hc
  refine ⟨events ++ [.playoutOnce arrivals], _, ⟨[], [], []⟩, [],
    callAudioPumps.run_snoc_eq_some.2 ⟨u, hrun, rfl⟩, ?_, ?_, ?_⟩
  · rw [hinserted, ← harrived, List.flatMap_append, List.flatMap_singleton]
    exact List.append_nil _
  · rw [hplayed, ← hwritten, List.append_nil, List.append_assoc, ← hframes, PumpRun.written,
      List.flatMap_append, List.flatMap_singleton]
    rfl
  · rw [hrest]
    exact ⟨hpump.symm, rfl, rfl⟩

/-- A packet arrives. -/
theorem insert {packet : Decoded} (hpump : c'.pump = c.pump.insertAll [packet])
    (hplayout : c'.playout = c.playout) (hlog : c'.log = c.log ++ [.inserted packet]) :
    Follows pump c' := by
  obtain ⟨events, u, ⟨first, second, third⟩, frames, hrun, harrived, hwritten, hc⟩ := h
  have hinserted : c'.inserted = c.inserted ++ [packet] := inserted_append hlog
  have hplayed : c'.played = c.played := (played_append hlog).trans (List.append_nil _)
  -- where no call is on its way the packet is an event of its own
  have hrest (hq : c.pump = u.pump) (ha : (⟨first, second, third⟩ : PlayoutArrivals) = ⟨[], [], []⟩)
      (hf : frames = []) (hpc : ∀ p, Playing p p ⟨[], [], []⟩ [] c.playout) : Follows pump c' := by
    rw [ha] at harrived
    refine ⟨events ++ [.insert packet], { u with pump := u.pump.insertAll [packet] },
      ⟨[], [], []⟩, frames, callAudioPumps.run_snoc_eq_some.2 ⟨u, hrun, rfl⟩, ?_,
      hwritten.trans hplayed.symm, ?_⟩
    · rw [hinserted, ← harrived, List.flatMap_append, List.flatMap_singleton]
      simp [PumpEvent.arrived]
    · rw [hpump, hplayout, hq, hf]
      exact hpc _
  have hthird (hc' : Playing u.pump (c.pump.insertAll [packet]) ⟨first, second, third ++ [packet]⟩
      frames c.playout) : Follows pump c' := by
    refine ⟨events, u, ⟨first, second, third ++ [packet]⟩, frames, hrun, ?_,
      hwritten.trans hplayed.symm, ?_⟩
    · rw [hinserted, ← harrived]
      simp [PumpEvent.arrived]
    · rw [hpump, hplayout]
      exact hc'
  have hsecond (ht : third = []) (hc' : Playing u.pump (c.pump.insertAll [packet])
      ⟨first, second ++ [packet], []⟩ frames c.playout) : Follows pump c' := by
    refine ⟨events, u, ⟨first, second ++ [packet], []⟩, frames, hrun, ?_,
      hwritten.trans hplayed.symm, ?_⟩
    · rw [hinserted, ← harrived, ht]
      simp [PumpEvent.arrived]
    · rw [hpump, hplayout]
      exact hc'
  have hfirst (hs : second = []) (ht : third = []) (hc' : Playing u.pump
      (c.pump.insertAll [packet]) ⟨first ++ [packet], [], []⟩ frames c.playout) :
      Follows pump c' := by
    refine ⟨events, u, ⟨first ++ [packet], [], []⟩, frames, hrun, ?_,
      hwritten.trans hplayed.symm, ?_⟩
    · rw [hinserted, ← harrived, hs, ht]
      simp [PumpEvent.arrived]
    · rw [hpump, hplayout]
      exact hc'
  cases hpc : c.playout <;> rw [hpc] at hc hrest hfirst hsecond hthird
  case depth =>
    obtain ⟨htick, hs, ht, hq, hf⟩ := hc
    exact hfirst hs ht ⟨htick, rfl, rfl, by rw [hq, CallAudioPump.insertAll_insertAll], hf⟩
  case trim =>
    obtain ⟨htick, ht, hdeep, hq, hf⟩ := hc
    exact hsecond ht ⟨htick, rfl, hdeep, by
      rw [hq, CallAudioPump.insertAll_insertAll _ [packet]], hf⟩
  case writing =>
    obtain ⟨got, htick, hpacket, hq, hf⟩ := hc
    exact hthird ⟨got, htick, hpacket, by rw [hq, CallAudioPump.insertAll_insertAll]; rfl, hf⟩
  case pacing =>
    obtain ⟨got, written, htick, hpacket, hq, hf⟩ := hc
    exact hthird ⟨got, written, htick, hpacket, by
      rw [hq, CallAudioPump.insertAll_insertAll]; rfl, hf⟩
  case hasStarted =>
    obtain ⟨htick, hs, ht, hq, hf⟩ := hc
    exact hfirst hs ht ⟨htick, rfl, rfl, by rw [hq, CallAudioPump.insertAll_insertAll], hf⟩
  case concealing =>
    obtain ⟨htick, ht, hstarted, hq, hf⟩ := hc
    exact hsecond ht ⟨htick, rfl, hstarted, by
      rw [hq, CallAudioPump.insertAll_insertAll _ [packet]], hf⟩
  case failing => exact hthird hc
  all_goals
    obtain ⟨hq, ha, hf⟩ := hc
    exact hrest hq ha hf fun p => ⟨rfl, rfl, rfl⟩

end Follows

/-! ## Steps -/

theorem follows_receiveStep (h : Follows pump c) (hstep : c.receiveStep outcome = some c') :
    Follows pump c' := by
  have hgoto (d : CallAudio) (hd : Follows pump d) (pc : ReceivePc) :
      Follows pump { d with receive := pc } := hd.goto rfl rfl fun _ _ _ hplaying => hplaying
  have hdid (action : CallAudioAction) (hinserted : action.inserted? = none)
      (hplayed : action.played? = none) : Follows pump (c.did action) := by
    refine h.goto ?_ ?_ fun _ _ _ hplaying => hplaying
    · simp [inserted, hinserted]
    · simp [played, hplayed]
  unfold receiveStep at hstep
  split at hstep
  · cases hstep
  · obtain rfl := Option.some.inj hstep
    exact hgoto c h _
  · obtain rfl := Option.some.inj hstep
    exact hgoto c h _
  · split at hstep
    · split_ifs at hstep
      obtain rfl := Option.some.inj hstep
      exact hgoto _ (hdid (.received _) rfl rfl) _
    · obtain rfl := Option.some.inj hstep
      exact hgoto c h _
    · cases hstep
  · obtain ⟨⟨sent, d⟩, hwrite, rfl⟩ := Option.map_eq_some_iff.1 hstep
    rcases writeFrame_cases hwrite with ⟨-, -, rfl⟩ | ⟨mask, torn, -, -, rfl⟩
    · exact hgoto d h _
    · exact hgoto _ (hdid (.wrote _ _ mask torn) rfl rfl) _
  · obtain ⟨d, hclose, rfl⟩ := Option.map_eq_some_iff.1 hstep
    exact hgoto d (h.quiet (quiet_closeTransport hclose)) _
  · obtain rfl := Option.some.inj hstep
    exact hgoto c h _
  · obtain rfl := Option.some.inj hstep
    exact h.insert rfl rfl rfl
  · obtain ⟨⟨next, d⟩, hfail, rfl⟩ := Option.map_eq_some_iff.1 hstep
    exact hgoto d (h.quiet (quiet_fail hfail)) _
  · cases hstep

/-- The worker goes on, or has failed for the first time. -/
theorem follows_playoutStep (h : Follows pump c) (hstep : c.playoutStep outcome = some c') :
    Follows pump c' ∨ "audio_playout_failed" ∈ c'.failures := by
  unfold playoutStep at hstep
  split at hstep
  · cases hstep
  · rename_i hpc
    obtain rfl := Option.some.inj hstep
    refine .inl (h.goto rfl rfl fun p arrivals frames hplaying => ?_)
    rw [hpc] at hplaying
    dsimp only
    split_ifs <;> exact hplaying
  · rename_i hpc
    split at hstep
    · rename_i packet jitter htick
      obtain rfl := Option.some.inj hstep
      refine .inl (h.goto rfl rfl fun p arrivals frames hplaying => ?_)
      rw [hpc] at hplaying
      obtain ⟨rfl, rfl, rfl⟩ := hplaying
      refine ⟨by rw [htick], rfl, rfl, ?_, rfl⟩
      unfold CallAudioPump.got
      rw [htick]
      rfl
    · rename_i jitter htick
      obtain rfl := Option.some.inj hstep
      refine .inl (h.goto rfl rfl fun p arrivals frames hplaying => ?_)
      rw [hpc] at hplaying
      obtain ⟨rfl, rfl, rfl⟩ := hplaying
      refine ⟨by rw [htick], rfl, rfl, ?_, rfl⟩
      unfold CallAudioPump.missed
      rw [htick]
      rfl
  · rename_i packet hpc
    split_ifs at hstep with hdeep
    · obtain rfl := Option.some.inj hstep
      refine .inl (h.goto rfl rfl fun p arrivals frames hplaying => ?_)
      rw [hpc] at hplaying
      obtain ⟨htick, hs, ht, hq, hf⟩ := hplaying
      rw [hq] at hdeep
      exact ⟨htick, ht, hdeep, by rw [hs]; exact hq, hf⟩
    · obtain rfl := Option.some.inj hstep
      refine .inl (h.goto rfl rfl fun p arrivals frames hplaying => ?_)
      rw [hpc] at hplaying
      obtain ⟨htick, hs, ht, hq, hf⟩ := hplaying
      rw [hq] at hdeep
      have hon : p.goingOn packet arrivals = (packet, false,
          (p.got.insertAll arrivals.first).insertAll arrivals.second) :=
        if_neg hdeep
      exact ⟨packet, htick, by rw [hon], by rw [hon, hs, ht]; exact hq, hf⟩
  · rename_i packet hpc
    split at hstep
    · rename_i jitter htrim
      obtain rfl := Option.some.inj hstep
      refine .inl (h.goto rfl rfl fun p arrivals frames hplaying => ?_)
      rw [hpc] at hplaying
      obtain ⟨htick, ht, hdeep, hq, hf⟩ := hplaying
      rw [hq] at htrim
      have hon : p.goingOn packet arrivals = (packet, false,
          { (p.got.insertAll arrivals.first).insertAll arrivals.second with jitter }) := by
        unfold CallAudioPump.goingOn CallAudioPump.trim
        rw [if_pos hdeep]
        dsimp only
        rw [htrim]
      refine ⟨packet, htick, by rw [hon], ?_, hf⟩
      rw [hon, ht]
      dsimp only
      rw [hq]
      rfl
    · rename_i newer jitter htrim
      obtain rfl := Option.some.inj hstep
      refine .inl (h.goto rfl rfl fun p arrivals frames hplaying => ?_)
      rw [hpc] at hplaying
      obtain ⟨htick, ht, hdeep, hq, hf⟩ := hplaying
      rw [hq] at htrim
      have hon : p.goingOn packet arrivals = (newer, true,
          { (p.got.insertAll arrivals.first).insertAll arrivals.second with
            jitter
            trimmedFrames :=
              ((p.got.insertAll arrivals.first).insertAll arrivals.second).trimmedFrames + 1
            framesSinceTrim := 0
            previousFrameConcealed := true }) := by
        unfold CallAudioPump.goingOn CallAudioPump.trim
        rw [if_pos hdeep]
        dsimp only
        rw [htrim]
      refine ⟨packet, htick, by rw [hon], ?_, hf⟩
      rw [hon, ht]
      dsimp only
      rw [hq]
      rfl
  · rename_i packet hpc
    rcases play_cases hstep with ⟨-, -, rfl⟩ | ⟨-, rfl⟩
    · refine .inl (h.play rfl fun p arrivals frames hplaying => ?_)
      rw [hpc] at hplaying
      obtain ⟨first, htick, hpacket, hq, rfl⟩ := hplaying
      refine ⟨first, _, htick, rfl, ?_, ?_⟩
      · unfold did CallAudio.recovered
        dsimp only
        rw [hq, hpacket]
        rfl
      · unfold CallAudio.recovered
        rw [hq, hpacket]
        rfl
    · refine .inl (h.goto rfl rfl fun p arrivals frames hplaying => ?_)
      rw [hpc] at hplaying
      obtain ⟨first, -, -, -, hf⟩ := hplaying
      exact ⟨rfl, hf⟩
  · rename_i hpc
    obtain rfl := Option.some.inj hstep
    refine .inl (h.complete [] rfl (List.append_nil _).symm rfl
      fun p arrivals frames hplaying => ?_)
    rw [hpc] at hplaying
    obtain ⟨first, packet, htick, rfl, hq, rfl⟩ := hplaying
    obtain ⟨trimmed, honce⟩ := CallAudioPump.playoutOnce_some arrivals htick
    rw [honce]
    dsimp only
    rw [hq]
    exact ⟨rfl, rfl⟩
  · rename_i hpc
    obtain rfl := Option.some.inj hstep
    by_cases hstarted : c.pump.jitter.hasStarted = true
    · refine .inl (h.goto rfl rfl fun p arrivals frames hplaying => ?_)
      rw [hpc] at hplaying
      obtain ⟨htick, hs, ht, hq, hf⟩ := hplaying
      dsimp only
      rw [if_pos hstarted]
      rw [hq] at hstarted
      exact ⟨htick, ht, hstarted, by rw [hs]; exact hq, hf⟩
    · refine .inl (h.complete [] rfl (List.append_nil _).symm (if_neg hstarted)
        fun p arrivals frames hplaying => ?_)
      rw [hpc] at hplaying
      obtain ⟨htick, hs, ht, hq, rfl⟩ := hplaying
      rw [hq] at hstarted
      rw [CallAudioPump.playoutOnce_silent htick (Bool.eq_false_iff.2 hstarted), hs, ht]
      exact ⟨hq.symm, rfl⟩
  · rename_i hpc
    rcases play_cases hstep with ⟨-, -, rfl⟩ | ⟨-, rfl⟩
    · refine .inl (h.complete [c.pump.conceal.1] ?_ ?_ rfl fun p arrivals frames hplaying => ?_)
      · simp [inserted, CallAudioAction.inserted?]
      · simp [played, CallAudioAction.played?]
      · rw [hpc] at hplaying
        obtain ⟨htick, ht, hstarted, hq, rfl⟩ := hplaying
        rw [CallAudioPump.playoutOnce_concealed htick hstarted, ← hq, ht]
        exact ⟨rfl, rfl⟩
    · refine .inl (h.goto rfl rfl fun p arrivals frames hplaying => ?_)
      rw [hpc] at hplaying
      exact ⟨rfl, hplaying.2.2.2.2⟩
  · rename_i step hpc
    obtain ⟨⟨next, d⟩, hfail, rfl⟩ := Option.map_eq_some_iff.1 hstep
    obtain ⟨events, u, arrivals, frames, -, -, -, hc⟩ := h
    rw [hpc] at hc
    obtain ⟨rfl, -⟩ := hc
    refine .inr ?_
    unfold fail playoutFailed at hfail
    dsimp only at hfail
    split_ifs at hfail
    · obtain ⟨-, rfl⟩ := Prod.mk.inj (Option.some.inj hfail)
      exact List.mem_filterMap.2 ⟨_, List.mem_append_right _ List.mem_cons_self, rfl⟩
    · obtain ⟨-, rfl⟩ := Prod.mk.inj (Option.some.inj hfail)
      exact List.mem_filterMap.2 ⟨_, List.mem_append_right _ List.mem_cons_self, rfl⟩
  · cases hstep

theorem follows_ownerStep (hentering : c.Entering) (h : Follows pump c)
    (hstep : c.ownerStep outcome = some c') : Follows pump c' := by
  rcases ownerStep_cases hstep with
    ⟨-, rfl⟩ | ⟨-, rfl⟩ | ⟨howner, rfl⟩ | ⟨d, hquiet, owner, rfl, -, -⟩
  · exact h.goto rfl rfl fun _ _ _ hplaying => hplaying
  · exact h.goto rfl rfl fun _ _ _ hplaying => hplaying
  · have habsent := hentering.playout (.inl (by rw [howner]; rfl))
    refine h.goto rfl rfl fun _ _ _ hplaying => ?_
    rw [habsent] at hplaying
    exact hplaying
  · exact (h.quiet hquiet).goto rfl rfl fun _ _ _ hplaying => hplaying

theorem follows_step {event : CallAudioEvent} (hentering : c.Entering) (h : Follows pump c)
    (hstep : c.step event = some c') :
    Follows pump c' ∨ "audio_playout_failed" ∈ c'.failures := by
  unfold step at hstep
  split at hstep
  · split_ifs at hstep <;> obtain rfl := Option.some.inj hstep <;>
      exact .inl (h.goto rfl rfl fun _ _ _ hplaying => hplaying)
  · split_ifs at hstep <;> obtain rfl := Option.some.inj hstep <;>
      exact .inl (h.goto rfl rfl fun _ _ _ hplaying => hplaying)
  · exact .inl (follows_ownerStep hentering h hstep)
  · have hof := stepOf_uplink hstep
    obtain ⟨new, hlog, hnew⟩ := hof.log
    refine .inl (h.goto (inserted_of_thread hlog fun a ha => ?_)
      (played_of_thread hlog fun a ha => ?_) fun _ _ _ hplaying => ?_)
    · rcases (hnew a ha).1 with hthread | hthread <;> rw [hthread] <;> exact nofun
    · rcases (hnew a ha).1 with hthread | hthread <;> rw [hthread] <;> exact nofun
    · rw [hof.pump rfl, hof.playout nofun]
      exact hplaying
  · exact .inl (follows_receiveStep h hstep)
  · exact follows_playoutStep h hstep

/-- What was done stays done. -/
theorem log_isPrefix {event : CallAudioEvent} (hstep : c.step event = some c') :
    c.log <+: c'.log := by
  unfold step at hstep
  split at hstep
  · split_ifs at hstep <;> obtain rfl := Option.some.inj hstep <;> exact List.prefix_rfl
  · split_ifs at hstep <;> obtain rfl := Option.some.inj hstep <;> exact List.prefix_rfl
  · rcases ownerStep_cases hstep with
      ⟨-, rfl⟩ | ⟨-, rfl⟩ | ⟨-, rfl⟩ | ⟨d, hquiet, owner, rfl, -, -⟩
    · exact List.prefix_rfl
    · exact List.prefix_rfl
    · exact List.prefix_rfl
    · obtain ⟨new, hlog, -⟩ := hquiet.log
      exact ⟨new, hlog.symm⟩
  · obtain ⟨new, hlog, -⟩ := (stepOf_uplink hstep).log
    exact ⟨new, hlog.symm⟩
  · obtain ⟨new, hlog, -⟩ := (stepOf_receive hstep).log
    exact ⟨new, hlog.symm⟩
  · obtain ⟨new, hlog, -⟩ := (stepOf_playout hstep).log
    exact ⟨new, hlog.symm⟩

/-! ## Runs -/

/-- The call the worker is in is through, or as if it had not begun. -/
theorem Follows.whole (h : Follows pump c) : ∃ events u,
    callAudioPumps.run ⟨pump, []⟩ events = some u ∧
    events.flatMap PumpEvent.arrived = c.inserted ∧ u.written = c.played ∧
    (c.playout = .whileRunning → u.pump = c.pump) := by
  obtain ⟨events, u, arrivals, frames, hrun, harrived, hwritten, hc⟩ := h
  by_cases hpacing : c.playout = .pacing
  · rw [hpacing] at hc
    obtain ⟨first, packet, htick, rfl, -, rfl⟩ := hc
    obtain ⟨trimmed, honce⟩ := CallAudioPump.playoutOnce_some arrivals htick
    refine ⟨events ++ [.playoutOnce arrivals], _,
      callAudioPumps.run_snoc_eq_some.2 ⟨u, hrun, rfl⟩, ?_, ?_, fun hpc => ?_⟩
    · rw [List.flatMap_append, List.flatMap_singleton]
      exact harrived
    · rw [← hwritten, honce, PumpRun.written, List.flatMap_append, List.flatMap_singleton]
      rfl
    · rw [hpacing] at hpc
      cases hpc
  · have hnone : frames = [] := by
      cases hpc : c.playout <;> rw [hpc] at hc hpacing
      case pacing => exact absurd rfl hpacing
      case writing => exact hc.choose_spec.2.2.2
      case depth => exact hc.2.2.2.2
      case trim => exact hc.2.2.2.2
      case hasStarted => exact hc.2.2.2.2
      case concealing => exact hc.2.2.2.2
      case failing => exact hc.2
      all_goals exact hc.2.2
    refine ⟨events ++ (PumpEvent.playoutOnce arrivals).arrived.map .insert, _,
      callAudioPumps.run_append_eq_some.2 ⟨u, hrun, CallAudioPump.run_inserts _ u⟩, ?_, ?_,
      fun hpc => ?_⟩
    · rw [List.flatMap_append, ← harrived, List.flatMap_map]
      exact congrArg _ (List.flatMap_singleton' _)
    · rw [← hwritten, hnone, List.append_nil]
      rfl
    · rw [hpc] at hc
      obtain ⟨hq, rfl, -⟩ := hc
      exact hq.symm

/-- Whatever the workers and the owner do, until the speaker refuses a frame: what was inserted and
what was played is what a run of whole calls takes and writes, and between two calls the pump is as
that run leaves it. -/
theorem played_by_calls {pump : CallAudioPump} {events : List CallAudioEvent} {s : CallAudio}
    (hrun : callAudio.run (CallAudio.new pump) events = some s)
    (hfine : "audio_playout_failed" ∉ s.failures) :
    ∃ calls u, callAudioPumps.run ⟨pump, []⟩ calls = some u ∧
      calls.flatMap PumpEvent.arrived = s.inserted ∧ u.written = s.played ∧
      (s.playout = .whileRunning → u.pump = s.pump) := by
  have hinv : s.Entering ∧
      ("audio_playout_failed" ∉ s.failures → Follows pump s) := by
    refine callAudio.run_invariant (P := fun s : CallAudio => s.Entering ∧
      ("audio_playout_failed" ∉ s.failures → Follows pump s))
      (fun t e t' ht hstep => ⟨entering_step ht.1 hstep, fun hfine => ?_⟩) ?_ hrun
    · have hbefore := ht.2 fun hmem =>
        hfine (((log_isPrefix hstep).filterMap _).subset hmem)
      exact (follows_step ht.1 hbefore hstep).resolve_right hfine
    · exact ⟨entering_new pump, fun _ =>
        ⟨[], ⟨pump, []⟩, ⟨[], [], []⟩, [], rfl, rfl, rfl, rfl, rfl, rfl⟩⟩
  exact (hinv.2 hfine).whole

/-- A batch arrives around a call that still plays nothing, and the next plays a frame. -/
def firstPlayed : List CallAudioEvent :=
  [.start, .owner .done, .owner .done, .owner .done, .owner .done, .owner .done, .receive .done,
    .receive .done,
    .receive (.frame ⟨2, (AudioPacketCodec.encodeBatch [silentPacket 0, silentPacket 1,
      silentPacket 2, silentPacket 3]).toOption.getD []⟩),
    .receive .done, .receive .done, .playout .done, .playout .done, .receive .done, .receive .done,
    .playout .done, .playout .done, .playout .done, .playout .done, .playout .done, .playout .done]

theorem played_by_calls_firstPlayed :
    ∃ pump s calls u, CallAudioPump.new 1 = .ok pump ∧
      callAudio.run (CallAudio.new pump) firstPlayed = some s ∧
      callAudioPumps.run ⟨pump, []⟩ calls = some u ∧
      u.written.map (·.packet.sequence) = [0] ∧ u.pump = s.pump := by
  obtain ⟨pump, hnew⟩ : ∃ pump, CallAudioPump.new 1 = .ok pump := ⟨_, rfl⟩
  have hend : (callAudio.run (CallAudio.new pump) firstPlayed).map (fun s : CallAudio =>
      (s.failures, s.playout, s.played.map (·.packet.sequence)))
        = some ([], .whileRunning, [0]) := by
    obtain rfl := Except.ok.inj hnew
    decide +kernel
  obtain ⟨s, hrun, hend⟩ := Option.map_eq_some_iff.1 hend
  simp only [Prod.mk.injEq] at hend
  obtain ⟨hfine, hrest, hplayed⟩ := hend
  obtain ⟨calls, u, hcalls, -, hwritten, hpump⟩ :=
    played_by_calls hrun (by rw [hfine]; exact List.not_mem_nil)
  exact ⟨pump, s, calls, u, hnew, hrun, hcalls, by rw [hwritten]; exact hplayed, hpump hrest⟩

end CallAudio

end AnalogConnect
