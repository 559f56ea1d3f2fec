import AnalogConnect.CallAudioPump
import AnalogConnect.Library.Cooldown
import AnalogConnect.Proofs.JitterAgreement

/-!
# What the playout pump writes

Each call takes one slot of the jitter buffer, or two where it trims, and packets go on arriving
meanwhile. So what it writes is what the buffer emits, less what it trims, and the buffer's order
and counts carry over to it (`PlayoutStep`, `PumpInv`). Every call after the start writes one frame
of the pump's format, the pacing stays within its bounds, and the frames between two trims are those
the pump counts (`playout_pump_lawful`).
-/

namespace AnalogConnect

open AudioPacketCodec (Decoded)

/-! ## Calls -/

namespace PlayoutCall

/-- The sequence numbers of the packets written. -/
def sequences (call : PlayoutCall) : List Int64 :=
  (call.written.filter (!·.concealed)).map (·.packet.sequence)

/-- The call wrote a packet. -/
def isReal (call : PlayoutCall) : Bool := call.written.any (!·.concealed)

end PlayoutCall

namespace CallAudioPump

/-- A packet of the pump's format. -/
structure Fits (pump : CallAudioPump) (packet : Decoded) : Prop where
  format : packet.format = pump.wireFormat
  length : packet.samples.length = pump.config.samplesPerFrame

variable {pump : CallAudioPump}

/-- What the receive thread inserts is of the pump's format. -/
theorem fits_of_receiveOnce {message : List UInt8} {packets : List Decoded}
    (h : pump.receiveOnce message = .ok packets) : ∀ packet ∈ packets, pump.Fits packet := by
  unfold receiveOnce at h
  split at h
  · cases h
  rename_i decoded hdecoded
  split_ifs at h with hformat
  obtain rfl := Except.ok.inj h
  intro packet hpacket
  have heq : packet.format = pump.wireFormat := by
    by_contra hne
    exact hformat (List.any_eq_true.2 ⟨packet, hpacket, by simpa using hne⟩)
  obtain ⟨sent, hbatch, -, rfl⟩ := AudioPacketCodec.exists_batch_of_decodeBatch hdecoded
  obtain ⟨p, hp, rfl⟩ := List.mem_map.1 hpacket
  have hsame := sameFrame_decodedOf (hbatch.encodable p hp)
  have hsupported := pump.supported
  rw [← heq] at hsupported
  refine ⟨heq, ?_⟩
  rw [hsame.samples, p.frame.length_samples]
  unfold AudioDeviceConfig.forWireFormat at hsupported
  rcases hsame.format with ⟨hframe, hdecoded⟩ | ⟨hframe, hdecoded⟩
  · rw [hdecoded, if_pos rfl] at hsupported
    rw [hframe, ← Except.ok.inj hsupported]
    rfl
  · rw [hdecoded, if_neg (by decide), if_pos rfl] at hsupported
    rw [hframe, ← Except.ok.inj hsupported]
    rfl

/-! ## The buffer below -/

/-- The pump's buffer has given these ticks, from these packets. -/
def Plays (arrived : List Decoded) (jitter : AudioJitterBuffer) (ticks : List (Option Decoded)) :
    Prop :=
  ∃ events, AudioJitterBuffer.Tracked jitterCapacity jitterTargetDepth events ⟨jitter, ticks⟩ ∧
    insertedFrames events = arrived

variable {arrived packets : List Decoded} {jitter : AudioJitterBuffer}
  {ticks : List (Option Decoded)} {packet : Decoded}

theorem Plays.insertAll : ∀ (packets : List Decoded) {arrived : List Decoded}
    {jitter : AudioJitterBuffer}, Plays arrived jitter ticks →
    Plays (arrived ++ packets) (packets.foldl AudioJitterBuffer.insert jitter) ticks
  | [], _, _, h => by rwa [List.append_nil]
  | packet :: packets, arrived, jitter, h => by
    obtain ⟨events, htracked, harrived⟩ := h
    have hnext : Plays (arrived ++ [packet]) (jitter.insert packet) ticks := by
      refine ⟨_, AudioJitterBuffer.tracked_insert htracked packet, ?_⟩
      rw [insertedFrames_append, harrived]
      rfl
    have := hnext.insertAll packets
    rwa [List.append_assoc] at this

theorem Plays.tick (h : Plays arrived jitter ticks) :
    Plays arrived jitter.tick.2 (ticks ++ [jitter.tick.1]) := by
  obtain ⟨events, htracked, harrived⟩ := h
  refine ⟨_, AudioJitterBuffer.tracked_tick htracked, ?_⟩
  rw [insertedFrames_append, harrived]
  exact List.append_nil _

/-- What a buffer gives is one of the packets. -/
theorem Plays.holds (h : Plays arrived jitter ticks) (hpacket : some packet ∈ ticks) :
    packet ∈ arrived := by
  obtain ⟨events, ⟨view, -, hinv, -⟩, rfl⟩ := h
  exact hinv.playout.played_mem packet (List.reduceOption_mem_iff.2 hpacket)

/-- A tick starts playout once as many packets wait as the target asks for. -/
theorem Plays.started_tick_iff (h : Plays arrived jitter ticks) :
    jitter.tick.2.started = true ↔
      jitter.started = true ∨ jitterTargetDepth ≤ jitter.summary.depth := by
  obtain ⟨events, ⟨view, -, -, -, htarget⟩, -⟩ := h
  rw [jitter.started_tick_iff, htarget]
  rfl

/-- A tick that gives a packet has started playout. -/
theorem Plays.started_of_tick (h : Plays arrived jitter ticks)
    (hpacket : jitter.tick.1 = some packet) : jitter.tick.2.started = true := by
  obtain ⟨events, ⟨view, hviews, -⟩, -⟩ := h
  obtain ⟨view', hstep, hviews', -⟩ := AudioJitterBuffer.tick_step hviews
  rw [hpacket] at hstep
  cases hstep with
  | emitted => exact hviews'.started.symm

@[simp]
theorem started_insertAll (packets : List Decoded) (jitter : AudioJitterBuffer) :
    (packets.foldl AudioJitterBuffer.insert jitter).started = jitter.started := by
  induction packets generalizing jitter with
  | nil => rfl
  | cons packet packets ih => exact (ih _).trans (jitter.started_insert packet)

/-! ## One call -/

/-- The pacing is within its bounds. -/
def InPace (pacing : ℤ) : Prop := maxFastPacingNanos ≤ pacing ∧ pacing ≤ maxSlowPacingNanos

theorem inPace_pace {pacing : ℤ} (h : InPace pacing) (depth : ℕ) : InPace (pace pacing depth) := by
  unfold InPace pace maxFastPacingNanos maxSlowPacingNanos pacingStepNanos at *
  split_ifs <;> omega

theorem length_smoothRecovery (pump : CallAudioPump) (packet : Decoded) :
    (pump.smoothRecovery packet).samples.length = packet.samples.length := by
  unfold smoothRecovery
  rw [List.length_mapIdx]

/-- What is written for a packet. -/
theorem fits_write (hpacket : pump.Fits packet) (arrivals : List Decoded) :
    pump.Fits (pump.write packet arrivals).1.packet ∧
      (pump.write packet arrivals).1.packet.sequence = packet.sequence := by
  unfold write
  dsimp only
  split_ifs
  · exact ⟨⟨hpacket.format, (pump.length_smoothRecovery packet).trans hpacket.length⟩, rfl⟩
  · exact ⟨hpacket, rfl⟩

/-- What is written without one. -/
theorem fits_conceal (pump : CallAudioPump) : pump.Fits pump.conceal.1.packet where
  format := rfl
  length := by
    unfold conceal concealMissingFrame
    rw [List.length_map, List.length_range]

/-- What trimming did, when it took these ticks. -/
structure TrimStep (pump : CallAudioPump) (arrived : List Decoded) (ticks : List (Option Decoded))
    (packet : Decoded) (outs : List (Option Decoded)) (packet' : Decoded) (trimmed : Bool)
    (pump' : CallAudioPump) : Prop where
  plays : Plays arrived pump'.jitter (ticks ++ outs)
  wireFormat : pump'.wireFormat = pump.wireFormat
  config : pump'.config = pump.config
  started : pump.jitter.started = true → pump'.jitter.started = true
  mem : packet' ∈ arrived
  emits : [packet'.sequence].Sublist ((packet :: outs.reduceOption).map (·.sequence))
  count : outs.reduceOption.length = if trimmed then 1 else 0
  trimmedFrames : pump'.trimmedFrames = pump.trimmedFrames + if trimmed then 1 else 0
  framesSinceTrim : pump'.framesSinceTrim = if trimmed then 0 else pump.framesSinceTrim
  spaced : trimmed = true → minFramesBetweenTrims ≤ pump.framesSinceTrim
  pacing : pump'.pacingAdjustmentNanos = pump.pacingAdjustmentNanos

theorem trim_step (pump : CallAudioPump) (h : Plays arrived pump.jitter ticks)
    (hpacket : packet ∈ arrived) (packets : List Decoded) :
    ∃ outs, TrimStep pump (arrived ++ packets) ticks packet outs (pump.trim packet packets).1
      (pump.trim packet packets).2.1 (pump.trim packet packets).2.2 := by
  have harrived := h.insertAll packets
  have hmem : packet ∈ arrived ++ packets := List.mem_append_left _ hpacket
  unfold trim
  split_ifs with hdeep
  · have htick := harrived.tick
    have hstarted := fun hstarted : pump.jitter.started = true =>
      ((packets.foldl AudioJitterBuffer.insert pump.jitter).onward_tick
        ((started_insertAll packets _).trans hstarted)).1
    unfold insertAll
    dsimp only
    rcases hout : (packets.foldl AudioJitterBuffer.insert pump.jitter).tick with
      ⟨- | newer, jitter⟩ <;> rw [hout] at htick hstarted
    · exact ⟨[none], htick, rfl, rfl, hstarted, hmem, List.Sublist.refl _, rfl,
        (Int64.add_zero _).symm, rfl, fun hfalse => Bool.noConfusion hfalse, rfl⟩
    · exact ⟨[some newer], htick, rfl, rfl, hstarted, htick.holds (by simp),
        .cons _ (List.Sublist.refl _), rfl, rfl, rfl, fun _ => hdeep.2, rfl⟩
  · refine ⟨[], ?_, rfl, rfl, fun hstarted => (started_insertAll packets _).trans hstarted, hmem,
      List.Sublist.refl _, rfl, (Int64.add_zero _).symm, rfl,
      fun hfalse => Bool.noConfusion hfalse, rfl⟩
    rw [List.append_nil]
    exact harrived

/-- What a call did, when it took these ticks. -/
structure PlayoutStep (pump : CallAudioPump) (arrived : List Decoded)
    (ticks outs : List (Option Decoded)) (call : PlayoutCall) (pump' : CallAudioPump) : Prop where
  plays : Plays arrived pump'.jitter (ticks ++ outs)
  wireFormat : pump'.wireFormat = pump.wireFormat
  config : pump'.config = pump.config
  started : pump'.jitter.started = true ↔
    pump.jitter.started = true ∨ jitterTargetDepth ≤ pump.jitter.summary.depth
  writes : pump'.jitter.started = true → ∃ frame, call.written = [frame] ∧ pump.Fits frame.packet
  silent : pump'.jitter.started = false → call.written = []
  emits : call.sequences.Sublist (outs.reduceOption.map (·.sequence))
  count : outs.reduceOption.length = call.sequences.length + if call.trimmed then 1 else 0
  trimmedFrames : pump'.trimmedFrames = pump.trimmedFrames + if call.trimmed then 1 else 0
  framesSinceTrim : pump'.framesSinceTrim =
    if call.trimmed then 0
    else if call.isReal then pump.framesSinceTrim + 1 else pump.framesSinceTrim
  spaced : call.trimmed = true → minFramesBetweenTrims ≤ pump.framesSinceTrim + 1
  real : call.trimmed = true → call.isReal = true
  pacing : InPace pump.pacingAdjustmentNanos → InPace pump'.pacingAdjustmentNanos

theorem playoutOnce_step (h : Plays arrived pump.jitter ticks) {arrivals : PlayoutArrivals}
    (hfits : ∀ packet ∈ arrived ++ (PumpEvent.playoutOnce arrivals).arrived, pump.Fits packet) :
    ∃ outs, PlayoutStep pump (arrived ++ (PumpEvent.playoutOnce arrivals).arrived) ticks outs
      (pump.playoutOnce arrivals).1 (pump.playoutOnce arrivals).2 := by
  have harrived : arrived ++ (PumpEvent.playoutOnce arrivals).arrived =
      arrived ++ arrivals.first ++ arrivals.second ++ arrivals.third := by
    unfold PumpEvent.arrived
    simp only [List.append_assoc]
  rw [harrived] at hfits ⊢
  have htick := h.tick
  have hstarts := h.started_tick_iff
  have hstart : ∀ packet, pump.jitter.tick.1 = some packet → pump.jitter.tick.2.started = true :=
    fun packet hpacket => h.started_of_tick hpacket
  unfold playoutOnce
  rcases hout : pump.jitter.tick with ⟨- | packet, jitter⟩ <;>
    rw [hout] at htick hstarts hstart <;> dsimp only at htick hstarts hstart ⊢
  · have hnone := htick.insertAll arrivals.first
    have hkept : (arrivals.first.foldl AudioJitterBuffer.insert jitter).started = jitter.started :=
      started_insertAll _ _
    split_ifs with hstarted
    · have hfits := fits_conceal
        ((({ pump with jitter } : CallAudioPump).insertAll arrivals.first).insertAll
          arrivals.second)
      have hstarted' : ((arrivals.third.foldl AudioJitterBuffer.insert
          (arrivals.second.foldl AudioJitterBuffer.insert
            (arrivals.first.foldl AudioJitterBuffer.insert jitter))).started = true) := by
        rw [started_insertAll, started_insertAll]
        exact hstarted
      refine ⟨[none], (hnone.insertAll _).insertAll _, rfl, rfl,
        ⟨fun _ => hstarts.1 (hkept.symm.trans hstarted), fun _ => hstarted'⟩,
        fun _ => ⟨_, rfl, ⟨hfits.format, hfits.length⟩⟩, fun hwaiting => ?_, .slnil, rfl,
        (Int64.add_zero _).symm, rfl, fun hfalse => Bool.noConfusion hfalse,
        fun hfalse => Bool.noConfusion hfalse, fun hpace => ?_⟩
      · exact absurd (hstarted'.symm.trans hwaiting) (by decide)
      · show InPace (min maxSlowPacingNanos (pump.pacingAdjustmentNanos + pacingStepNanos))
        unfold InPace maxFastPacingNanos maxSlowPacingNanos pacingStepNanos at *
        omega
    · have hwaiting : ¬ ((arrivals.second ++ arrivals.third).foldl AudioJitterBuffer.insert
          (arrivals.first.foldl AudioJitterBuffer.insert jitter)).started = true := by
        rw [started_insertAll]
        exact hstarted
      have hplays := hnone.insertAll (arrivals.second ++ arrivals.third)
      rw [← List.append_assoc] at hplays
      exact ⟨[none], hplays, rfl, rfl,
        ⟨fun hstarted' => absurd hstarted' hwaiting,
          fun hslot => absurd (hkept.trans (hstarts.2 hslot)) hstarted⟩,
        fun hstarted' => absurd hstarted' hwaiting, fun _ => rfl, .slnil, rfl,
        (Int64.add_zero _).symm, rfl, fun hfalse => Bool.noConfusion hfalse,
        fun hfalse => Bool.noConfusion hfalse, id⟩
  · have hstarted := hstart packet rfl
    have hpacket : packet ∈ arrived ++ arrivals.first :=
      List.mem_append_left _ (htick.holds (List.mem_append_right ticks List.mem_cons_self))
    obtain ⟨outs, hstep⟩ := trim_step
      (({ pump with jitter, framesSinceTrim := pump.framesSinceTrim + 1 } : CallAudioPump).insertAll
        arrivals.first) (htick.insertAll _) hpacket arrivals.second
    generalize htrim : trim _ _ _ = result at hstep ⊢
    obtain ⟨packet', trimmed, pump'⟩ := result
    dsimp only at hstep ⊢
    have hwrites := hfits packet' (List.mem_append_left _ hstep.mem)
    have hfits : pump'.Fits packet' := by
      refine ⟨hwrites.format.trans hstep.wireFormat.symm, ?_⟩
      rw [hwrites.length, hstep.config]
      rfl
    obtain ⟨hwritten, hsequence⟩ := fits_write hfits arrivals.third
    have hstarted' :
        (arrivals.third.foldl AudioJitterBuffer.insert pump'.jitter).started = true := by
      rw [started_insertAll]
      exact hstep.started ((started_insertAll _ _).trans hstarted)
    have hplays := hstep.plays.insertAll arrivals.third
    rw [List.append_assoc ticks] at hplays
    refine ⟨some packet :: outs, hplays, hstep.wireFormat, hstep.config,
      ⟨fun _ => hstarts.1 hstarted, fun _ => hstarted'⟩, fun _ => ⟨_, rfl, ?_⟩,
      fun hwaiting => ?_, ?_, ?_, hstep.trimmedFrames, hstep.framesSinceTrim, hstep.spaced,
      fun _ => rfl, fun hpace => ?_⟩
    · exact ⟨hwritten.format.trans hstep.wireFormat, by rw [hwritten.length, hstep.config]; rfl⟩
    · exact absurd (hstarted'.symm.trans hwaiting) (by decide)
    · show [(pump'.write packet' arrivals.third).1.packet.sequence].Sublist _
      rw [hsequence, List.reduceOption_cons_of_some]
      exact hstep.emits
    · rw [List.reduceOption_cons_of_some, List.length_cons, hstep.count]
      exact Nat.add_comm _ _
    · refine inPace_pace ?_ _
      show InPace pump'.pacingAdjustmentNanos
      rw [hstep.pacing]
      exact hpace

theorem new_ok {wireFormat : ℕ} (h : new wireFormat = .ok pump) :
    pump.wireFormat = wireFormat ∧ Plays [] pump.jitter [] ∧ pump.pacingAdjustmentNanos = 0 ∧
      pump.trimmedFrames = 0 ∧ pump.framesSinceTrim = minFramesBetweenTrims := by
  unfold new at h
  split at h
  · cases h
  rename_i jitter hjitter
  split at h
  · cases h
  obtain rfl := Except.ok.inj h
  obtain ⟨-, hcapacity, htarget⟩ := AudioJitterBuffer.new_ok hjitter
  have htracked := AudioJitterBuffer.tracked_new hjitter
  rw [Int.ofNat_inj.1 hcapacity, Int.ofNat_inj.1 htarget] at htracked
  exact ⟨rfl, ⟨[], htracked, rfl⟩, rfl, rfl, rfl⟩

end CallAudioPump

/-! ## Runs -/

section

variable {pump : CallAudioPump} {events : List PumpEvent} {s : PumpRun}

/-- What has been written is what the buffer has given, less what was trimmed. -/
structure PumpInv (pump : CallAudioPump) (events : List PumpEvent) (s : PumpRun)
    (ticks : List (Option Decoded)) : Prop where
  plays : CallAudioPump.Plays (events.flatMap PumpEvent.arrived) s.pump.jitter ticks
  wireFormat : s.pump.wireFormat = pump.wireFormat
  config : s.pump.config = pump.config
  silent : s.pump.jitter.started = false → ∀ call ∈ s.calls, call.written = []
  emits : (s.calls.flatMap PlayoutCall.sequences).Sublist (ticks.reduceOption.map (·.sequence))
  count : ticks.reduceOption.length =
    (s.calls.flatMap PlayoutCall.sequences).length + s.calls.countP (·.trimmed)
  trimmedFrames : s.pump.trimmedFrames = Int64.ofNat (s.calls.countP (·.trimmed))
  framesSinceTrim : s.pump.framesSinceTrim =
    Int32.ofNat (sinceReset PlayoutCall.isReal PlayoutCall.trimmed 32 s.calls)
  spaced : Spaced PlayoutCall.isReal PlayoutCall.trimmed 32 32 s.calls
  real : ∀ call ∈ s.calls, call.trimmed = true → call.isReal = true
  pacing : CallAudioPump.InPace s.pump.pacingAdjustmentNanos

theorem fits_congr {pump pump' : CallAudioPump} (hwireFormat : pump'.wireFormat = pump.wireFormat)
    (hconfig : pump'.config = pump.config) : pump'.Fits = pump.Fits := by
  funext packet
  refine propext ⟨fun h => ⟨?_, ?_⟩, fun h => ⟨?_, ?_⟩⟩
  · rw [h.format, hwireFormat]
  · rw [h.length, hconfig]
  · rw [h.format, hwireFormat]
  · rw [h.length, hconfig]

theorem pumpInv_insert {ticks : List (Option Decoded)} (h : PumpInv pump events s ticks)
    (packet : Decoded) :
    PumpInv pump (events ++ [.insert packet]) { s with pump := s.pump.insertAll [packet] }
      ticks := by
  refine { h with plays := ?_, silent := fun hwaiting => ?_ }
  · rw [List.flatMap_append]
    exact h.plays.insertAll [packet]
  · exact h.silent ((CallAudioPump.started_insertAll [packet] _).symm.trans hwaiting)

/-- A call's step, in a run. -/
theorem PumpInv.playoutOnce_step {ticks : List (Option Decoded)} (h : PumpInv pump events s ticks)
    {arrivals : PlayoutArrivals}
    (hfits : ∀ e ∈ events ++ [.playoutOnce arrivals], ∀ packet ∈ e.arrived, pump.Fits packet) :
    ∃ outs, CallAudioPump.PlayoutStep s.pump
      ((events ++ [PumpEvent.playoutOnce arrivals]).flatMap PumpEvent.arrived) ticks outs
      (s.pump.playoutOnce arrivals).1 (s.pump.playoutOnce arrivals).2 := by
  rw [List.flatMap_append, List.flatMap_singleton]
  refine CallAudioPump.playoutOnce_step h.plays fun packet hpacket => ?_
  rw [fits_congr h.wireFormat h.config]
  rw [← List.flatMap_singleton PumpEvent.arrived, ← List.flatMap_append] at hpacket
  obtain ⟨e, he, hmem⟩ := List.mem_flatMap.1 hpacket
  exact hfits e he packet hmem

theorem pumpInv_playoutOnce {ticks : List (Option Decoded)} (h : PumpInv pump events s ticks)
    {arrivals : PlayoutArrivals}
    (hfits : ∀ e ∈ events ++ [.playoutOnce arrivals], ∀ packet ∈ e.arrived, pump.Fits packet) :
    ∃ outs, PumpInv pump (events ++ [.playoutOnce arrivals])
      ⟨(s.pump.playoutOnce arrivals).2, s.calls ++ [(s.pump.playoutOnce arrivals).1]⟩
      (ticks ++ outs) := by
  obtain ⟨outs, hstep⟩ := h.playoutOnce_step hfits
  have hcount := hstep.count
  refine ⟨outs, hstep.plays, hstep.wireFormat.trans h.wireFormat, hstep.config.trans h.config,
    fun hwaiting call hcall => ?_, ?_, ?_, ?_, ?_, ?_, fun call hcall => ?_,
    hstep.pacing h.pacing⟩
  · rcases List.mem_append.1 hcall with hcall | hcall
    · refine h.silent (Bool.eq_false_iff.2 fun hstarted => ?_) call hcall
      exact absurd ((hstep.started.2 (.inl hstarted)).symm.trans hwaiting) (by decide)
    · rw [List.mem_singleton.1 hcall]
      exact hstep.silent hwaiting
  · rw [List.flatMap_append, List.flatMap_singleton, List.reduceOption_append, List.map_append]
    exact h.emits.append hstep.emits
  · rw [List.flatMap_append, List.flatMap_singleton, List.reduceOption_append, List.length_append,
      List.length_append, List.countP_append, List.countP_singleton, h.count, hcount]
    omega
  · rw [hstep.trimmedFrames, h.trimmedFrames, List.countP_append, List.countP_singleton,
      Int64.ofNat_add]
    split_ifs <;> rfl
  · rw [hstep.framesSinceTrim, h.framesSinceTrim, sinceReset_snoc]
    split_ifs
    · rfl
    · rw [Int32.ofNat_add]
      rfl
    · rfl
  · refine h.spaced.snoc fun htrimmed => ?_
    have hle := hstep.spaced htrimmed
    rw [h.framesSinceTrim] at hle
    generalize sinceReset _ _ _ _ = n at hle ⊢
    by_contra hlt
    have hexact : (Int32.ofNat (n + 1)).toInt = (n + 1 : ℕ) :=
      Int32.toInt_ofNat_of_lt (by omega)
    have hle' : (32 : ℤ) ≤ (Int32.ofNat (n + 1)).toInt := by
      rw [Int32.ofNat_add]
      exact Int32.le_iff_toInt_le.1 hle
    omega
  · rcases List.mem_append.1 hcall with hcall | hcall
    · exact h.real call hcall
    · rw [List.mem_singleton.1 hcall]
      exact hstep.real

theorem pumpInv_run {wireFormat : ℕ} (hnew : CallAudioPump.new wireFormat = .ok pump)
    (hfits : ∀ e ∈ events, ∀ packet ∈ e.arrived, pump.Fits packet)
    (h : callAudioPumps.run ⟨pump, []⟩ events = some s) : ∃ ticks, PumpInv pump events s ticks := by
  refine callAudioPumps.run_history
    (P := fun past t => (∀ e ∈ past, ∀ packet ∈ e.arrived, pump.Fits packet) →
      ∃ ticks, PumpInv pump past t ticks) (fun _ => ?_) (fun past t e t' _ ih hstep hfits => ?_) h
    hfits
  · obtain ⟨-, hplays, hpacing, htrimmed, hsince⟩ := CallAudioPump.new_ok hnew
    refine ⟨[], hplays, rfl, rfl, fun _ call hcall => absurd hcall List.not_mem_nil, .slnil, rfl,
      htrimmed, hsince, .nil, fun call hcall => absurd hcall List.not_mem_nil, ?_⟩
    rw [hpacing]
    exact ⟨by decide, by decide⟩
  · obtain ⟨ticks, hinv⟩ := ih fun e he => hfits e (List.mem_append_left _ he)
    cases e with
    | insert packet =>
      obtain rfl := Option.some.inj hstep
      exact ⟨ticks, pumpInv_insert hinv packet⟩
    | playoutOnce arrivals =>
      obtain rfl := Option.some.inj hstep
      obtain ⟨outs, hinv⟩ := pumpInv_playoutOnce hinv hfits
      exact ⟨ticks ++ outs, hinv⟩

/-- Nothing is written before the start, which comes with the packet the target asks for, and one
frame of the pump's format in each call after it; the packets written are in order and, with those
trimmed, late, duplicate, lost to overflow or still there, all that have come; the pacing keeps its
bounds, and trims their distance. -/
theorem playout_pump_lawful {wireFormat : ℕ} (hnew : CallAudioPump.new wireFormat = .ok pump)
    (hreceived : ∀ e ∈ events, ∀ packet ∈ e.arrived, ∃ message packets,
      pump.receiveOnce message = .ok packets ∧ packet ∈ packets)
    (h : callAudioPumps.run ⟨pump, []⟩ events = some s) :
    (s.pump.jitter.started = false → ∀ call ∈ s.calls, call.written = []) ∧
      (∀ u arrivals, callAudioPumps.Before ⟨pump, []⟩ events u (.playoutOnce arrivals) →
        ((u.pump.playoutOnce arrivals).2.jitter.started = true ↔
          u.pump.jitter.started = true ∨
            CallAudioPump.jitterTargetDepth ≤ u.pump.jitter.summary.depth) ∧
        ((u.pump.playoutOnce arrivals).2.jitter.started = false →
          (u.pump.playoutOnce arrivals).1.written = []) ∧
        ((u.pump.playoutOnce arrivals).2.jitter.started = true →
          ∃ frame, (u.pump.playoutOnce arrivals).1.written = [frame] ∧
            frame.packet.format = wireFormat ∧
            frame.packet.samples.length = pump.config.samplesPerFrame)) ∧
      (s.calls.flatMap PlayoutCall.sequences).Pairwise (· < ·) ∧
      (∀ sequence ∈ s.calls.flatMap PlayoutCall.sequences,
        ∃ packet ∈ events.flatMap PumpEvent.arrived, packet.sequence = sequence) ∧
      s.pump.jitter.received = Int64.ofNat (events.flatMap PumpEvent.arrived).length ∧
      s.pump.jitter.received = Int64.ofNat (s.calls.flatMap PlayoutCall.sequences).length +
        s.pump.trimmedFrames + s.pump.jitter.late + s.pump.jitter.duplicate +
        s.pump.jitter.overflow + Int64.ofNat s.pump.jitter.summary.depth ∧
      ((events.flatMap PumpEvent.arrived).length < 2 ^ 63 →
        s.pump.jitter.received.toInt = (s.calls.flatMap PlayoutCall.sequences).length +
          s.pump.trimmedFrames.toInt + s.pump.jitter.late.toInt + s.pump.jitter.duplicate.toInt +
          s.pump.jitter.overflow.toInt + s.pump.jitter.summary.depth) ∧
      -300000 ≤ s.pump.pacingAdjustmentNanos ∧ s.pump.pacingAdjustmentNanos ≤ 150000 ∧
      ∀ earlier a between b later, s.calls = earlier ++ a :: between ++ b :: later →
        a.trimmed = true → b.trimmed = true →
          32 ≤ (between ++ [b]).countP PlayoutCall.isReal := by
  have hfits : ∀ e ∈ events, ∀ packet ∈ e.arrived, pump.Fits packet := by
    intro e he packet hpacket
    obtain ⟨message, packets, hmessage, hmem⟩ := hreceived e he packet hpacket
    exact CallAudioPump.fits_of_receiveOnce hmessage packet hmem
  obtain ⟨ticks, hinv⟩ := pumpInv_run hnew hfits h
  obtain ⟨jitterEvents, ⟨view, hviews, hjitter, -⟩, harrived⟩ := hinv.plays
  have hshows := hviews.shows
  have hbalances := hjitter.balances
  have hemitted := hjitter.emitted
  have hreceived := hjitter.received
  rw [hviews.frames] at hbalances
  rw [hinv.count] at hemitted
  rw [harrived] at hreceived
  unfold JitterTally.Balances at hbalances
  dsimp only at hbalances
  refine ⟨hinv.silent, ?_, ?_, fun sequence hsequence => ?_, ?_, ?_, fun hfew => ?_, hinv.pacing.1,
    hinv.pacing.2, ?_⟩
  · rintro u arrivals ⟨past, future, rfl, hpast⟩
    obtain ⟨ticks, hinv⟩ := pumpInv_run hnew (fun e he => hfits e (List.mem_append_left _ he)) hpast
    obtain ⟨outs, hstep⟩ := hinv.playoutOnce_step fun e he => hfits e (by
      rw [List.append_cons]
      exact List.mem_append_left _ he)
    refine ⟨hstep.started, hstep.silent, fun hstarted => ?_⟩
    obtain ⟨frame, hwritten, hframe⟩ := hstep.writes hstarted
    rw [fits_congr hinv.wireFormat hinv.config] at hframe
    exact ⟨frame, hwritten, hframe.format.trans (CallAudioPump.new_ok hnew).1, hframe.length⟩
  · refine (List.pairwise_map.2 ?_).sublist hinv.emits
    exact hjitter.playout.ordered.imp fun hlt => Int64.lt_iff_toInt_lt.2 hlt
  · obtain ⟨packet, hpacket, rfl⟩ := List.mem_map.1 (hinv.emits.subset hsequence)
    exact ⟨packet, harrived ▸ hjitter.playout.played_mem packet hpacket, rfl⟩
  · rw [hshows.received, hreceived]
  · rw [hshows.received, hshows.late, hshows.duplicate, hshows.overflow, hinv.trimmedFrames,
      hbalances, hemitted]
    simp only [Int64.ofNat_add]
    rfl
  · have hexact : ∀ n ≤ view.tally.received, (Int64.ofNat n).toInt = n := fun n hn =>
      Int64.toInt_ofNat_of_lt (by omega)
    rw [hshows.received, hshows.late, hshows.duplicate, hshows.overflow, hinv.trimmedFrames,
      hexact _ le_rfl, hexact _ (by omega), hexact _ (by omega), hexact _ (by omega),
      hexact _ (by omega)]
    show (view.tally.received : ℤ) = _ + _ + _ + _ + _ + (s.pump.jitter.frames.size : ℤ)
    omega
  · intro earlier a between b later hsplit ha hb
    have hreal := hinv.real b (by rw [hsplit]; simp) hb
    rw [List.countP_append, List.countP_singleton, if_pos hreal]
    exact hinv.spaced.apart hsplit ha hb

/-- Packets of silence come in their own messages. -/
theorem receives_silentPacket {pump : CallAudioPump}
    (hformat : pump.wireFormat = AudioPacketCodec.formatNarrowband) {sequence : UInt64}
    (hsequence : sequence ≤ maxSequence) :
    ∃ message packets, pump.receiveOnce message = .ok packets ∧
      silentPacket sequence.toInt64 ∈ packets := by
  refine ⟨packetsBytes [⟨0, silentFrame sequence⟩], [silentPacket sequence.toInt64], ?_,
    List.mem_cons_self⟩
  unfold CallAudioPump.receiveOnce
  rw [(isBatch_silentFrame hsequence).decodeBatch]
  dsimp only
  rw [hformat]
  rfl

/-- Three packets wait when the first call runs, and another comes in it. -/
def lateStart : List PumpEvent :=
  [.insert (silentPacket 2), .insert (silentPacket 0), .insert (silentPacket 1),
    .playoutOnce ⟨[silentPacket 3], [], []⟩, .playoutOnce ⟨[], [], []⟩]

/-- The pump starts in its second call. -/
theorem playout_pump_lawful_lateStart :
    ∃ pump s, CallAudioPump.new 1 = .ok pump ∧
      callAudioPumps.run ⟨pump, []⟩ lateStart = some s ∧
      (s.calls.flatMap PlayoutCall.sequences).Pairwise (· < ·) ∧
      s.pump.jitter.received = Int64.ofNat (lateStart.flatMap PumpEvent.arrived).length ∧
      -300000 ≤ s.pump.pacingAdjustmentNanos ∧ s.pump.pacingAdjustmentNanos ≤ 150000 := by
  obtain ⟨pump, hnew⟩ : ∃ pump, CallAudioPump.new 1 = .ok pump := ⟨_, rfl⟩
  have hformat := (CallAudioPump.new_ok hnew).1
  have hreceived : ∀ e ∈ lateStart, ∀ packet ∈ e.arrived, ∃ message packets,
      pump.receiveOnce message = .ok packets ∧ packet ∈ packets := by
    have hsilent : ∀ sequence ≤ maxSequence, ∃ message packets,
        pump.receiveOnce message = .ok packets ∧ silentPacket sequence.toInt64 ∈ packets :=
      fun _ hsequence => receives_silentPacket hformat hsequence
    intro e he packet hpacket
    simp only [lateStart, List.mem_cons, List.not_mem_nil, or_false] at he
    rcases he with rfl | rfl | rfl | rfl | rfl <;>
      simp only [PumpEvent.arrived, List.append_nil, List.mem_cons, List.not_mem_nil,
        or_false] at hpacket
    · exact hpacket ▸ hsilent 2 (by decide)
    · exact hpacket ▸ hsilent 0 (by decide)
    · exact hpacket ▸ hsilent 1 (by decide)
    · exact hpacket ▸ hsilent 3 (by decide)
  obtain ⟨-, -, hordered, -, hcount, -, -, hfast, hslow, -⟩ :=
    playout_pump_lawful hnew hreceived rfl
  exact ⟨pump, _, hnew, rfl, hordered, hcount, hfast, hslow⟩

end

end AnalogConnect
