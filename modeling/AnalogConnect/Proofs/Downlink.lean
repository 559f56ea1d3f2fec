import AnalogConnect.Proofs.MediaStream

/-!
# Which batches the phone accepts

The downlink queue always holds a stretch of the capture reader's frames that ends where the reader
is. A call pops from its front, so its frames follow one another until a push drops the oldest
frame between two of its pops; the next frame it pops is then past a gap, and both decoders refuse
the message.
-/

namespace AnalogConnect

/-- One more. -/
def IsNext (m n : ℕ) : Prop := n = m + 1

theorem isChain_lt_of_isNext {l : List ℕ} (h : l.IsChain IsNext) : l.IsChain (· < ·) :=
  h.imp fun m n (hmn : n = m + 1) => by omega

theorem isChain_isNext_snoc {l : List ℕ} {n : ℕ} :
    (l ++ [n, n + 1]).IsChain IsNext ↔ (l ++ [n]).IsChain IsNext := by
  rw [List.isChain_append_cons_cons]
  exact ⟨fun h => h.1, fun h => ⟨h, rfl, List.isChain_singleton _⟩⟩

def sequences (frames : List AudioFrame) : List ℕ :=
  frames.map fun frame => frame.sequence.toNat

theorem isChain_follows_iff {format : AudioFormat} {frames : List AudioFrame}
    (h : ∀ frame ∈ frames, frame.format = format) :
    frames.IsChain Follows ↔ (sequences frames).IsChain IsNext := by
  rw [sequences, List.isChain_map]
  refine List.IsChain.iff_of_mem_imp fun a b ha hb => ?_
  simp only [Follows, IsNext, h a ha, h b hb, true_and]

namespace Downlink

def queued (s : Downlink) : List AudioFrame := s.queue.frames.map (·.frame)

/-- The sequence numbers waiting in the queue, then the reader's next. -/
def line (s : Downlink) : List ℕ := sequences s.queued ++ [s.nextSequence.toNat]

/-- The queue holds the reader's last frames, all of one HFP format. -/
structure Ordered (s : Downlink) : Prop where
  isHfp : s.format.IsHfp
  formats : ∀ frame ∈ s.queued, frame.format = s.format
  chain : s.line.IsChain IsNext

theorem of_readFrame {format : AudioFormat} {sequence next : UInt64} {samples : List Int16}
    {frame : AudioFrame} (h : readFrame format sequence samples = some (frame, next)) :
    frame.sequence = sequence ∧ frame.format = format ∧ next.toNat = sequence.toNat + 1 := by
  unfold readFrame at h
  split at h
  · rename_i next' frame' hnext hframe
    simp only [Option.some.injEq, Prod.mk.injEq] at h
    obtain ⟨rfl, rfl⟩ := h
    obtain ⟨hsequence, hformat, -⟩ := AudioFrame.new_eq_ok hframe
    exact ⟨hsequence, hformat, toNat_of_checkedSucc hnext⟩
  · simp at h

/-- What a push does: the reader moves on by one frame, and that frame goes to the end of the
queue, in place of the oldest if the queue is full. -/
theorem step_capture {s s' : Downlink} {samples : List Int16} {now : ℕ}
    (h : s.step (.capture samples now) = some s') :
    s'.format = s.format ∧ s'.sendLoop = s.sendLoop
      ∧ (∀ frame ∈ s'.queued, frame ∈ s.queued ∨ frame.format = s.format)
      ∧ s'.queued ≠ []
      ∧ ∃ front, s'.line = front ++ [s.nextSequence.toNat, s.nextSequence.toNat + 1]
        ∧ (¬ s.queue.Full ∧ s.line = front ++ [s.nextSequence.toNat] ∨
          s.queue.Full ∧ ∃ oldest, s.line = oldest :: (front ++ [s.nextSequence.toNat])) := by
  simp only [step, Option.map_eq_some_iff, Prod.exists] at h
  obtain ⟨frame, next, hread, rfl⟩ := h
  obtain ⟨hsequence, hformat, hnext⟩ := of_readFrame hread
  have hqueued : queued { s with nextSequence := next, queue := s.queue.push frame now }
      = s.queue.kept.map (·.frame) ++ [frame] := by
    simp [queued]
  have hline : line { s with nextSequence := next, queue := s.queue.push frame now }
      = sequences (s.queue.kept.map (·.frame))
        ++ [s.nextSequence.toNat, s.nextSequence.toNat + 1] := by
    rw [line, hqueued, hnext]
    simp [sequences, hsequence]
  refine ⟨rfl, rfl, fun f hf => ?_, by simp [hqueued], _, hline, ?_⟩
  · rw [hqueued, List.mem_append, List.mem_singleton] at hf
    rcases hf with hf | rfl
    · obtain ⟨queued, hmem, rfl⟩ := List.mem_map.1 hf
      refine .inl (List.mem_map_of_mem ?_)
      by_cases hfull : s.queue.Full
      · exact List.mem_of_mem_tail (BoundedAudioQueue.kept_of_full hfull ▸ hmem)
      · exact BoundedAudioQueue.kept_of_not_full hfull ▸ hmem
    · exact .inr hformat
  · by_cases hfull : s.queue.Full
    · obtain ⟨oldest, rest, hframes⟩ := List.exists_cons_of_ne_nil hfull.frames_ne_nil
      refine .inr ⟨hfull, oldest.frame.sequence.toNat, ?_⟩
      rw [BoundedAudioQueue.kept_of_full hfull]
      simp [line, queued, sequences, hframes]
    · refine .inl ⟨hfull, ?_⟩
      rw [BoundedAudioQueue.kept_of_not_full hfull]
      rfl

theorem step_take {s s' : Downlink} {captureTime : ℕ}
    (h : s.step (.take captureTime) = some s') :
    s' = { s with sendLoop := .taking (.start captureTime) } := by
  simp only [step] at h
  split at h
  · simp at h
  · exact (Option.some.inj h).symm

/-- What a pop takes: the front of the queue. -/
theorem step_pop {s s' : Downlink} {now : ℕ} (h : s.step (.pop now) = some s') :
    s'.format = s.format ∧ s'.nextSequence = s.nextSequence ∧ ∃ call, s.sendLoop = .taking call ∧
      (s.queued = [] ∧ s'.queued = [] ∧ s'.sendLoop = call.turn none ∨
        ∃ frame, s.queued = frame :: s'.queued ∧ s'.sendLoop = call.turn (some frame)) := by
  simp only [step] at h
  split at h
  · rename_i call hcall
    obtain rfl := Option.some.inj h
    refine ⟨rfl, rfl, call, hcall, ?_⟩
    rcases hframes : s.queue.frames with - | ⟨queued, rest⟩
    · refine .inl ⟨by simp [Downlink.queued, hframes], ?_, ?_⟩ <;>
        simp [Downlink.queued, BoundedAudioQueue.pop_of_nil hframes, hframes]
    · obtain ⟨hfst, hrest, -⟩ := BoundedAudioQueue.pop_of_cons hframes now
      exact .inr ⟨queued.frame, by simp [Downlink.queued, hframes, hrest], by simp [hfst]⟩
  · simp at h

theorem Ordered.step {s s' : Downlink} {e : DownlinkEvent} (hs : s.Ordered)
    (h : s.step e = some s') : s'.Ordered := by
  cases e with
  | capture samples now =>
    obtain ⟨hformat, -, hmem, -, hline⟩ := step_capture h
    refine ⟨hformat ▸ hs.isHfp, fun frame hframe => ?_, ?_⟩
    · rcases hmem frame hframe with hold | hnew
      · rw [hformat, hs.formats frame hold]
      · rw [hformat, hnew]
    · obtain ⟨front, hline, ⟨-, hold⟩ | ⟨-, oldest, hold⟩⟩ := hline
      · rw [hline, isChain_isNext_snoc, ← hold]
        exact hs.chain
      · have hchain := hs.chain
        rw [hold] at hchain
        rw [hline, isChain_isNext_snoc]
        exact hchain.tail
  | take captureTime =>
    obtain rfl := step_take h
    exact ⟨hs.isHfp, hs.formats, hs.chain⟩
  | pop now =>
    obtain ⟨hformat, hnext, call, -, ⟨hnil, hnil', -⟩ | ⟨frame, hcons, -⟩⟩ := step_pop h
    · refine ⟨hformat ▸ hs.isHfp, by simp [hnil'], ?_⟩
      have := hs.chain
      rwa [line, hnil, ← hnil', ← hnext] at this
    · refine ⟨hformat ▸ hs.isHfp, fun f hf => ?_, ?_⟩
      · rw [hformat]
        exact hs.formats f (hcons ▸ List.mem_cons_of_mem _ hf)
      · have := hs.chain
        rw [line, hcons, ← hnext] at this
        exact this.tail

/-! ## One call -/

/-- `bytes` are the packets of `popped`, frames of one HFP format. -/
structure Carries (captureTime : UInt64) (format : AudioFormat) (bytes : List UInt8)
    (popped : List AudioFrame) : Prop where
  batch : bytes = batchBytes captureTime popped
  encodable : ∀ frame ∈ popped, frame.Encodable
  formats : ∀ frame ∈ popped, frame.format = format

/-- A call in its loop. `overflowed` says that a push has dropped a frame since its first pop: the
frames popped, those waiting and the reader's next are then not in sequence any more, and where
nothing waits the gap is among the frames popped. -/
structure InCall (captureTime : UInt64) (s : Downlink) (overflowed : Prop) (call : BatchCall) :
    Prop where
  captureTime_eq : call.captureTimeMicros = captureTime
  carries : Carries captureTime s.format call.batch call.popped
  length_popped : call.popped.length + call.remaining = maxMediaFramesPerMessage
  remaining_pos : 0 < call.remaining
  increasing : (sequences call.popped ++ s.line).IsChain (· < ·)
  chain_iff : (sequences call.popped ++ s.line).IsChain IsNext ↔ ¬ overflowed
  popped_chain_iff : s.queued = [] → ((sequences call.popped).IsChain IsNext ↔ ¬ overflowed)

/-- A call that returned a batch. -/
structure Returned (captureTime : UInt64) (s : Downlink) (overflowed : Prop) (bytes : List UInt8)
    (popped : List AudioFrame) : Prop where
  carries : Carries captureTime s.format bytes popped
  ne_nil : popped ≠ []
  length_le : popped.length ≤ maxMediaFramesPerMessage
  chain_iff : (sequences popped).IsChain IsNext ↔ ¬ overflowed

theorem InCall.start {s : Downlink} (hs : s.Ordered) (captureTime : ℕ) :
    InCall (UInt64.ofNat (min captureTime u64Max)) s False (.start captureTime) where
  captureTime_eq := rfl
  carries := ⟨rfl, by simp [BatchCall.start], by simp [BatchCall.start]⟩
  length_popped := rfl
  remaining_pos := Nat.succ_pos _
  increasing := isChain_lt_of_isNext hs.chain
  chain_iff := iff_of_true hs.chain not_false
  popped_chain_iff _ := iff_of_true List.IsChain.nil not_false

/-- A push between two pops opens a gap when it finds the queue full, and otherwise changes
nothing. -/
theorem InCall.capture {captureTime : UInt64} {s s' : Downlink} {overflowed : Prop}
    {call : BatchCall} {samples : List Int16} {now : ℕ} (hs : s.Ordered)
    (hcall : InCall captureTime s overflowed call) (h : s.step (.capture samples now) = some s') :
    InCall captureTime s' (overflowed ∨ call.popped ≠ [] ∧ s.queue.Full) call := by
  obtain ⟨hformat, -, -, hne, front, hline, hold⟩ := step_capture h
  have hincreasing : (sequences call.popped ++ (front ++ [s.nextSequence.toNat])).IsChain
      (· < ·) := by
    refine hcall.increasing.sublist (List.Sublist.append_left ?_ _)
    rcases hold with ⟨-, hold⟩ | ⟨-, oldest, hold⟩ <;> rw [hold]
    exact List.sublist_cons_self _ _
  refine ⟨hcall.captureTime_eq, hformat ▸ hcall.carries, hcall.length_popped,
    hcall.remaining_pos, ?_, ?_, fun hnil => absurd hnil hne⟩
  · rw [hline, ← List.append_assoc, List.isChain_append_cons_cons, List.append_assoc]
    exact ⟨hincreasing, Nat.lt_succ_self _, List.isChain_singleton _⟩
  · rw [hline, ← List.append_assoc, isChain_isNext_snoc, List.append_assoc]
    rcases hold with ⟨hfull, hold⟩ | ⟨hfull, oldest, hold⟩
    · rw [← hold, hcall.chain_iff]
      simp [hfull]
    · rcases List.eq_nil_or_concat call.popped with hpopped | ⟨popped, last, hpopped⟩
      · have hchain := hs.chain
        have hiff := hcall.chain_iff
        rw [hold] at hchain
        rw [hpopped, hold] at hiff
        simp only [hpopped, ne_eq, not_true, false_and, or_false, ← hiff]
        exact iff_of_true hchain.tail hchain
      · refine iff_of_false (fun hchain => ?_) (by simp [hpopped, hfull])
        -- the frame after the dropped one cannot also come after the last one popped
        obtain ⟨second, rest, hsecond⟩ : ∃ second rest,
            front ++ [s.nextSequence.toNat] = second :: rest :=
          List.exists_cons_of_ne_nil (by simp)
        have hlast : sequences call.popped = sequences popped ++ [last.sequence.toNat] := by
          simp [hpopped, sequences]
        have h₁ := hs.chain
        have h₂ := hcall.increasing
        rw [hold, hsecond] at h₁ h₂
        rw [hlast, List.append_assoc, List.singleton_append, List.isChain_append_cons_cons] at h₂
        rw [hlast, hsecond, List.append_assoc, List.singleton_append,
          List.isChain_append_cons_cons] at hchain
        have hnext : second = oldest + 1 := (List.isChain_cons_cons.1 h₁).1
        have hlt : last.sequence.toNat < oldest := h₂.2.1
        have hgap : second = last.sequence.toNat + 1 := hchain.2.1
        omega

theorem Carries.snoc {captureTime : UInt64} {format : AudioFormat} {bytes encoded : List UInt8}
    {popped : List AudioFrame} {frame : AudioFrame} (h : Carries captureTime format bytes popped)
    (hformat : frame.format = format) (hisHfp : format.IsHfp)
    (hencode : (AudioPacket.mk captureTime frame).encode = .ok encoded) :
    Carries captureTime format (bytes ++ encoded) (popped ++ [frame]) := by
  refine ⟨?_, fun f hf => ?_, fun f hf => ?_⟩
  · rw [batchBytes_snoc hencode, ← h.batch]
  · rcases List.mem_append.1 hf with hf | hf
    · exact h.encodable f hf
    · rw [List.mem_singleton.1 hf]
      exact ⟨hformat ▸ hisHfp, (AudioPacket.encode_eq_ok.1 hencode).1⟩
  · rcases List.mem_append.1 hf with hf | hf
    · exact h.formats f hf
    · rw [List.mem_singleton.1 hf, hformat]

/-- Where a call is, and what it has popped. -/
structure CallInv (captureTime : UInt64) (s : Downlink) (overflowed : Prop) : Prop where
  inCall : ∀ call, s.sendLoop = .taking call → InCall captureTime s overflowed call
  returned : ∀ bytes popped, s.sendLoop = .returned (.ok (some bytes)) popped →
    Returned captureTime s overflowed bytes popped

/-- A call whose loop is over returns its bytes, if it has any. -/
theorem CallInv.finished {captureTime : UInt64} {s : Downlink} {overflowed : Prop}
    {call : BatchCall} (hloop : s.sendLoop = call.finish)
    (h : call.batch ≠ [] → Returned captureTime s overflowed call.batch call.popped) :
    CallInv captureTime s overflowed := by
  unfold BatchCall.finish at hloop
  refine ⟨fun next hnext => by simp [hloop] at hnext, fun bytes popped hret => ?_⟩
  rw [hloop] at hret
  simp only [SendLoop.returned.injEq, Except.ok.injEq, ite_eq_iff, reduceCtorEq, and_false,
    false_or, Option.some.injEq] at hret
  obtain ⟨⟨hbatch, rfl⟩, rfl⟩ := hret
  exact h hbatch

/-- A turn of the loop leaves a call still in its loop, or a batch, or neither. -/
theorem InCall.pop {captureTime : UInt64} {s s' : Downlink} {overflowed : Prop} {call : BatchCall}
    {now : ℕ} (hs : s.Ordered) (hcall : InCall captureTime s overflowed call)
    (hloop : s.sendLoop = .taking call) (h : s.step (.pop now) = some s') :
    CallInv captureTime s' overflowed := by
  obtain ⟨hformat, hnext, call', hloop', hpop⟩ := step_pop h
  obtain rfl : call = call' := SendLoop.taking.inj (hloop.symm.trans hloop')
  have hcarries : Carries captureTime s'.format call.batch call.popped := hformat ▸ hcall.carries
  rcases hpop with ⟨hnil, -, hloop'⟩ | ⟨frame, hqueued, hloop'⟩
  · refine .finished hloop' fun hbatch =>
      ⟨hcarries, ?_, by have := hcall.length_popped; omega, hcall.popped_chain_iff hnil⟩
    intro hpopped
    exact hbatch (by rw [hcarries.batch, hpopped, batchBytes_nil])
  · have hline : s.line = frame.sequence.toNat :: s'.line := by
      rw [line, hqueued, line, hnext]
      rfl
    have hframe : frame.format = s'.format :=
      hformat ▸ hs.formats frame (hqueued ▸ List.mem_cons_self)
    have hsequences : sequences (call.popped ++ [frame]) ++ s'.line
        = sequences call.popped ++ s.line := by
      simp [sequences, hline]
    have hsnoc : (sequences (call.popped ++ [frame])).IsChain IsNext ↔ ¬ overflowed := by
      have hchain := hs.chain
      rw [hline] at hchain
      rw [← hcall.chain_iff, hline, List.isChain_split]
      simp [sequences, hchain]
    have hlen : (call.popped ++ [frame]).length + (call.remaining - 1)
        = maxMediaFramesPerMessage := by
      have := hcall.length_popped
      have := hcall.remaining_pos
      rw [List.length_append, List.length_singleton]
      omega
    unfold BatchCall.turn at hloop'
    rw [hcall.captureTime_eq] at hloop'
    simp only at hloop'
    split at hloop'
    · exact ⟨fun next hnext => by simp [hloop'] at hnext,
        fun bytes popped hret => by simp [hloop'] at hret⟩
    · rename_i encoded hencode
      have hcarries' := hcarries.snoc hframe (hformat ▸ hs.isHfp) hencode
      split_ifs at hloop' with hremaining
      · exact .finished hloop' fun _ => ⟨hcarries', by simp, by simp only; omega, hsnoc⟩
      · refine ⟨fun next hnext => ?_, fun bytes popped hret => by simp [hloop'] at hret⟩
        rw [hloop', SendLoop.taking.injEq] at hnext
        subst hnext
        refine ⟨rfl, hcarries', hlen, Nat.pos_of_ne_zero hremaining, ?_, ?_, fun _ => hsnoc⟩
        · rw [hsequences]
          exact hcall.increasing
        · rw [hsequences]
          exact hcall.chain_iff

/-! ## Runs -/

theorem Ordered.run {queue : BoundedAudioQueue} {format : AudioFormat} (hformat : format.IsHfp)
    {past : List DownlinkEvent} {s : Downlink}
    (h : downlink.run (.start queue format) past = some s) : s.Ordered := by
  refine downlink.run_invariant (fun s e s' hs => hs.step) ?_ h
  exact ⟨hformat, by simp [queued, start, BoundedAudioQueue.reset], List.isChain_singleton _⟩

theorem overflowsMidBatch_snoc {t u : Downlink} {events : List DownlinkEvent} {e : DownlinkEvent}
    (h : downlink.run t events = some u) :
    t.OverflowsMidBatch (events ++ [e]) ↔ t.OverflowsMidBatch events ∨
      (∃ samples now, e = .capture samples now) ∧ u.MidBatch ∧ u.queue.Full := by
  simp only [OverflowsMidBatch, downlink.before_snoc h]
  constructor
  · rintro ⟨t', samples, now, hbefore | ⟨rfl, rfl⟩, hmid, hfull⟩
    · exact .inl ⟨t', samples, now, hbefore, hmid, hfull⟩
    · exact .inr ⟨⟨samples, now, rfl⟩, hmid, hfull⟩
  · rintro (⟨t', samples, now, hbefore, hmid, hfull⟩ | ⟨⟨samples, now, rfl⟩, hmid, hfull⟩)
    · exact ⟨t', samples, now, .inl hbefore, hmid, hfull⟩
    · exact ⟨u, samples, now, .inr ⟨rfl, rfl⟩, hmid, hfull⟩

theorem CallInv.step {captureTime : UInt64} {s s' : Downlink} {overflowed : Prop}
    {e : DownlinkEvent} (hs : s.Ordered) (hinv : CallInv captureTime s overflowed)
    (he : ∀ time, e ≠ .take time) (h : s.step e = some s') :
    CallInv captureTime s' (overflowed ∨
      (∃ samples now, e = .capture samples now) ∧ s.MidBatch ∧ s.queue.Full) := by
  cases e with
  | capture samples now =>
    obtain ⟨hformat, hloop, -⟩ := step_capture h
    refine ⟨fun call hcall => ?_, fun bytes popped hret => ?_⟩
    · rw [hloop] at hcall
      have hmid : s.MidBatch ↔ call.popped ≠ [] := by simp [MidBatch, hcall]
      simpa [hmid] using (hinv.inCall call hcall).capture hs h
    · rw [hloop] at hret
      obtain ⟨hcarries, hne, hlen, hchain⟩ := hinv.returned bytes popped hret
      have hmid : ¬ s.MidBatch := by simp [MidBatch, hret]
      exact ⟨hformat ▸ hcarries, hne, hlen, by simpa [hmid] using hchain⟩
  | take time => exact absurd rfl (he time)
  | pop now =>
    obtain ⟨-, -, call, hloop, -⟩ := step_pop h
    simpa using (hinv.inCall call hloop).pop hs hloop h

/-- From the start of a call to its return, its frames are in sequence as long as no push has
dropped one between two of its pops. -/
theorem callInv_run {s t u : Downlink} {captureTime : ℕ} {during : List DownlinkEvent}
    (hs : s.Ordered) (htake : s.step (.take captureTime) = some t)
    (hduring : downlink.run t during = some u) (hcall : ∀ time, .take time ∉ during) :
    CallInv (UInt64.ofNat (min captureTime u64Max)) u (t.OverflowsMidBatch during) := by
  have hstart : t = { s with sendLoop := .taking (.start captureTime) } := step_take htake
  refine (downlink.run_history (P := fun past u => u.Ordered ∧
    ((∀ time, .take time ∉ past) → CallInv (UInt64.ofNat (min captureTime u64Max)) u
      (t.OverflowsMidBatch past))) ?_ ?_ hduring).2 hcall
  · have hnone : t.OverflowsMidBatch [] ↔ False := by
      simp [OverflowsMidBatch, downlink.before_nil]
    refine ⟨hs.step htake, fun _ => ⟨fun call hloop => ?_, fun bytes popped hret => ?_⟩⟩
    · rw [hstart, SendLoop.taking.injEq] at hloop
      rw [hnone, ← hloop]
      exact .start (hs.step htake) captureTime
    · simp [hstart] at hret
  · rintro past v e v' hpast ⟨hv, hinv⟩ hstep
    refine ⟨hv.step hstep, fun htakes => ?_⟩
    rw [overflowsMidBatch_snoc hpast]
    refine (hinv fun time hmem => htakes time (List.mem_append_left _ hmem)).step hv ?_ hstep
    rintro time rfl
    exact htakes time (by simp)

/-- A call's message decodes to the frames it popped, for the daemon and for the phone, exactly
when no push drops a frame between two of its pops. -/
theorem takeDownlinkBatch_decodes_iff {queue : BoundedAudioQueue} {format : AudioFormat}
    {past during : List DownlinkEvent} {s t u : Downlink} {captureTime : ℕ} {bytes : List UInt8}
    {popped : List AudioFrame} (hformat : format.IsHfp)
    (hpast : downlink.run (.start queue format) past = some s)
    (htake : downlink.step s (.take captureTime) = some t)
    (hduring : downlink.run t during = some u) (hcall : ∀ time, .take time ∉ during)
    (hreturned : u.sendLoop = .returned (.ok (some bytes)) popped) :
    (decodeAudioBatch bytes = .ok popped ∧
      AudioPacketCodec.decodeBatch bytes = .ok (popped.map fun frame =>
        decodedOf ⟨UInt64.ofNat (min captureTime u64Max), frame⟩)) ↔
      ¬ t.OverflowsMidBatch during := by
  obtain ⟨⟨rfl, hencodable, hformats⟩, hne, hlen, hchain⟩ :=
    (callInv_run (.run hformat hpast) htake hduring hcall).returned bytes popped hreturned
  rw [← hchain, ← isChain_follows_iff hformats]
  constructor
  · exact fun h => decodeAudioBatch_chain h.1
  · exact fun h => ⟨decodeAudioBatch_batchBytes hne hlen hencodable h,
      AudioPacketCodec.decodeBatch_batchBytes hne hlen hencodable h⟩

theorem length_noFrames_le : ([] : List QueuedFrame).length ≤ 1 := Nat.zero_le 1

theorem depth_noFrames : ({} : AudioQueueSummary).depth = ([] : List QueuedFrame).length := rfl

/-- The smallest queue. -/
def oneFrameQueue : BoundedAudioQueue :=
  ⟨1, [], {}, Nat.one_pos, length_noFrames_le, depth_noFrames⟩

theorem takeDownlinkBatch_decodes_oneFrame : ∃ s t u bytes popped,
    downlink.run (.start oneFrameQueue .hfpNarrowband)
      [.capture (List.replicate 60 0) 5] = some s ∧
    downlink.step s (.take 7) = some t ∧
    downlink.run t [.pop 8, .pop 9] = some u ∧
    u.sendLoop = .returned (.ok (some bytes)) popped ∧
    ((decodeAudioBatch bytes = .ok popped ∧
      AudioPacketCodec.decodeBatch bytes = .ok (popped.map fun frame =>
        decodedOf ⟨UInt64.ofNat (min 7 u64Max), frame⟩)) ↔
      ¬ t.OverflowsMidBatch [.pop 8, .pop 9]) :=
  ⟨_, _, _, _, _, rfl, rfl, rfl, rfl, takeDownlinkBatch_decodes_iff (.inl rfl)
    (show downlink.run (.start oneFrameQueue .hfpNarrowband)
      [.capture (List.replicate 60 0) 5] = some _ from rfl)
    (show downlink.step _ (.take 7) = some _ from rfl) rfl (by simp) rfl⟩

/-- Two frames captured after a call's first pop: the queue has room for one, and the call's message
skips a sequence number. -/
theorem takeDownlinkBatch_skips_frame : ∃ s t u bytes popped,
    downlink.run (.start oneFrameQueue .hfpNarrowband)
      [.capture (List.replicate 60 0) 5] = some s ∧
    downlink.step s (.take 7) = some t ∧
    downlink.run t [.pop 8, .capture (List.replicate 60 0) 9,
      .capture (List.replicate 60 0) 10, .pop 11, .pop 12] = some u ∧
    u.sendLoop = .returned (.ok (some bytes)) popped ∧
    decodeAudioBatch bytes = .error .invalidPacket ∧
    AudioPacketCodec.decodeBatch bytes = .error ⟨"Invalid audio batch"⟩ :=
  ⟨_, _, _, _, _, rfl, rfl, rfl, rfl, by decide +kernel, by decide +kernel⟩

end Downlink

end AnalogConnect
