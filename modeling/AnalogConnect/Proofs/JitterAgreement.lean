import Mathlib.Data.Nat.Cast.Order.Basic
import AnalogConnect.Library.JitterMatch
import AnalogConnect.Proofs.AudioJitterBuffer
import AnalogConnect.Proofs.BatchAgreement
import AnalogConnect.Proofs.JitterBuffer

/-!
# The two jitter buffers agree

Given the same frames and the same ticks, the daemon's buffer and the phone's stay in step as long
as nothing overflows and no tick finds an empty buffer (`inStep_insert`, `inStep_tick`). The slot to
play is then never past a frame that waits, so it stays below either machine's last sequence number,
and both go on to the same next one.
-/

namespace AnalogConnect

open AudioPacketCodec (Decoded)

/-- The same event on either side. -/
inductive SameEvent : JitterEvent AudioFrame → JitterEvent Decoded → Prop
  | insert {frame : AudioFrame} {packet : Decoded} (h : SameFrame frame packet) :
    SameEvent (.insert frame) (.insert packet)
  | tick : SameEvent .tick .tick

namespace JitterBuffer

/-- The frame is in time and new, and finds the buffer full. -/
def Overflows (buffer : JitterBuffer) (frame : AudioFrame) : Prop :=
  (∀ n, buffer.nextSequence = some n → n ≤ frame.key) ∧ frame.key ∉ buffer.frames ∧
    buffer.frames.size = buffer.capacity

/-- A tick finds the buffer started and empty. -/
def Starves (buffer : JitterBuffer) : Prop :=
  buffer.started = true ∧ buffer.frames.size = 0

end JitterBuffer

/-- Both buffers are jitter buffers' after these events, with the same bounds, in step, and have
given the same frames at the same ticks. -/
structure InStep (past : List (JitterEvent AudioFrame)) (past' : List (JitterEvent Decoded))
    (s : JitterRun JitterBuffer AudioFrame) (s' : JitterRun AudioJitterBuffer Decoded)
    (view : JitterView ℕ AudioFrame) (view' : JitterView ℤ Decoded) : Prop where
  views : s.buffer.Views view
  views' : s'.buffer.Views view'
  inv : JitterInv AudioFrame.key s.buffer.capacity past s.ticks view
  inv' : JitterInv Decoded.key s'.buffer.capacity past' s'.ticks view'
  capacity : s'.buffer.capacity = s.buffer.capacity
  target : s'.buffer.targetDepth = s.buffer.targetDepth
  aligned : JitterView.Matches Nat.castOrderEmbedding SameFrame view view'
  ticks : List.Forall₂ (Option.Rel SameFrame) s.ticks s'.ticks

section

variable {past : List (JitterEvent AudioFrame)} {past' : List (JitterEvent Decoded)}
  {s : JitterRun JitterBuffer AudioFrame} {s' : JitterRun AudioJitterBuffer Decoded}
  {view : JitterView ℕ AudioFrame} {view' : JitterView ℤ Decoded} {frame : AudioFrame}
  {packet : Decoded}

theorem InStep.size_eq (h : InStep past past' s s' view view') :
    view'.frames.size = view.frames.size :=
  h.aligned.size_eq h.inv.balances h.inv'.balances

theorem inStep_insert (h : InStep past past' s s' view view') (hsame : SameFrame frame packet)
    (hroom : ¬ s.buffer.Overflows frame) :
    ∃ v v', InStep (past ++ [.insert frame]) (past' ++ [.insert packet])
      { s with buffer := s.buffer.insert frame } { s' with buffer := s'.buffer.insert packet }
      v v' := by
  obtain ⟨v, hstep, hviews⟩ := JitterBuffer.insert_step h.views h.inv.size_le frame
  obtain ⟨v', hstep', hviews', hcapacity', htarget'⟩ :=
    AudioJitterBuffer.insert_step h.views' h.inv'.size_le packet
  obtain ⟨-, -, hcapacity, htarget⟩ := s.buffer.insert_same frame
  have hkey : packet.key = Nat.castOrderEmbedding frame.key := hsame.sequence
  have hfits : view.InTime frame.key → frame.key ∉ view.frames →
      view.frames.size ≠ s.buffer.capacity := by
    intro htime hnew hfull
    unfold JitterView.InTime at htime
    rw [h.views.next] at htime
    rw [h.views.frames] at hnew hfull
    exact hroom ⟨htime, hnew, hfull⟩
  have hmatches := h.aligned.insert h.size_eq hkey hsame hfits hstep (h.capacity ▸ hstep')
  refine ⟨v, v', hviews, hviews', ?_, ?_, ?_, ?_, hmatches, h.ticks⟩
  · dsimp only
    rw [hcapacity]
    exact h.inv.insert hstep
  · dsimp only
    rw [hcapacity']
    exact h.inv'.insert hstep'
  · exact hcapacity'.trans (h.capacity.trans hcapacity.symm)
  · exact htarget'.trans (h.target.trans htarget.symm)

/-- The slot a buffer that does not starve takes is not past the last sequence number there is. -/
theorem InStep.slot_lt (h : InStep past past' s s' view view')
    (hsequences : ∀ frame, .insert frame ∈ past → frame.sequence.toNat < 2 ^ 63 - 1)
    (hfed : view.started = true → view.frames.size ≠ 0) {n : ℕ}
    (hslot : view.Slot s.buffer.targetDepth n) : n < 2 ^ 63 - 1 := by
  have hplayout := h.inv.playout_slot hslot
  obtain ⟨k, hk⟩ := OrderedMap.exists_firstKey? (hslot.size_ne_zero hfed)
  have hmem := (OrderedMap.firstKey?_eq_some_iff.1 hk).1
  obtain ⟨frame, hget⟩ := OrderedMap.mem_iff_exists.1 hmem
  have hle := hplayout.ahead n rfl k hmem
  have hkey := hplayout.key_eq k frame hget
  have hlt := hsequences frame (mem_insertedFrames.1 (hplayout.retained k frame hget))
  unfold AudioFrame.key at hkey
  omega

theorem inStep_tick (h : InStep past past' s s' view view')
    (hsequences : ∀ frame, .insert frame ∈ past → frame.sequence.toNat < 2 ^ 63 - 1)
    (hstarves : ¬ s.buffer.Starves) :
    ∃ v v', InStep (past ++ [.tick]) (past' ++ [.tick])
      ⟨s.buffer.tick.2, s.ticks ++ [s.buffer.tick.1]⟩
      ⟨s'.buffer.tick.2, s'.ticks ++ [s'.buffer.tick.1]⟩ v v' := by
  obtain ⟨v, hstep, hviews, hcapacity, htarget⟩ := JitterBuffer.tick_step h.views
  obtain ⟨v', hstep', hviews', hcapacity', htarget'⟩ := AudioJitterBuffer.tick_step h.views'
  have hfed : view.started = true → view.frames.size ≠ 0 := by
    intro hstarted hempty
    rw [h.views.started] at hstarted
    rw [h.views.frames] at hempty
    exact hstarves ⟨hstarted, hempty⟩
  have hsucc : ∀ n, view.Slot s.buffer.targetDepth n →
      AudioJitterBuffer.slotAfter (Nat.castOrderEmbedding n) =
        (JitterBuffer.slotAfter n).map Nat.castOrderEmbedding := by
    intro n hslot
    have hlt := h.slot_lt hsequences hfed hslot
    unfold AudioJitterBuffer.slotAfter JitterBuffer.slotAfter longMax u64Max
    rw [Nat.castOrderEmbedding_apply, if_neg (by omega), if_neg (by omega), Option.map_some,
      Nat.cast_succ]
  obtain ⟨hout, hmatches⟩ :=
    h.aligned.tick h.size_eq hsucc hfed hstep (h.target ▸ hstep')
  refine ⟨v, v', hviews, hviews', ?_, ?_, ?_, ?_, hmatches, ?_⟩
  · dsimp only
    rw [hcapacity]
    exact h.inv.tick JitterBuffer.slotAfter_some hstep
  · dsimp only
    rw [hcapacity']
    exact h.inv'.tick AudioJitterBuffer.slotAfter_some hstep'
  · exact hcapacity'.trans (h.capacity.trans hcapacity.symm)
  · exact htarget'.trans (h.target.trans htarget.symm)
  · exact List.rel_append h.ticks (.cons hout .nil)

theorem inStep_new {capacity targetDepth : ℕ} {buffer : JitterBuffer} {buffer' : AudioJitterBuffer}
    (hnew : JitterBuffer.new capacity targetDepth = .ok buffer)
    (hnew' : AudioJitterBuffer.new capacity targetDepth = .ok buffer') :
    InStep [] [] ⟨buffer, []⟩ ⟨buffer', []⟩ .empty .empty := by
  obtain ⟨hviews', hcapacity', htarget'⟩ := AudioJitterBuffer.new_ok hnew'
  unfold JitterBuffer.new at hnew
  split_ifs at hnew
  obtain rfl := Except.ok.inj hnew
  refine ⟨⟨rfl, rfl, rfl, ⟨rfl, rfl, rfl, rfl, rfl, rfl⟩, rfl⟩, hviews', .empty _ _, .empty _ _,
    ?_, ?_, JitterView.matches_empty _ _, .nil⟩
  · exact Int.ofNat_inj.1 hcapacity'
  · exact Int.ofNat_inj.1 htarget'

/-- The buffers are in step after the same events. -/
theorem inStep_run {t : JitterRun JitterBuffer AudioFrame}
    {t' : JitterRun AudioJitterBuffer Decoded} {events : List (JitterEvent AudioFrame)}
    {events' : List (JitterEvent Decoded)} (hsame : List.Forall₂ SameEvent events events')
    (hin : InStep past past' s s' view view')
    (hsequences : ∀ frame, .insert frame ∈ past ++ events → frame.sequence.toNat < 2 ^ 63 - 1)
    (hroom : ∀ u frame, jitterBuffers.Before s events u (.insert frame) →
      ¬ u.buffer.Overflows frame)
    (hfed : ∀ u, jitterBuffers.Before s events u .tick → ¬ u.buffer.Starves)
    (h : jitterBuffers.run s events = some t) (h' : audioJitterBuffers.run s' events' = some t') :
    ∃ v v', InStep (past ++ events) (past' ++ events') t t' v v' := by
  induction hsame generalizing past past' s s' view view' with
  | nil =>
    obtain rfl := Option.some.inj h
    obtain rfl := Option.some.inj h'
    exact ⟨view, view', by rwa [List.append_nil, List.append_nil]⟩
  | @cons e e' events events' he _ ih =>
    obtain ⟨u, hstep, h⟩ := jitterBuffers.run_cons_eq_some.1 h
    obtain ⟨u', hstep', h'⟩ := audioJitterBuffers.run_cons_eq_some.1 h'
    have hnext : ∃ v v', InStep (past ++ [e]) (past' ++ [e']) u u' v v' := by
      cases he with
      | insert hframe =>
        obtain rfl := Option.some.inj hstep
        obtain rfl := Option.some.inj hstep'
        exact inStep_insert hin hframe (hroom s _ (jitterBuffers.before_cons.2 (.inl ⟨rfl, rfl⟩)))
      | tick =>
        obtain rfl := Option.some.inj hstep
        obtain rfl := Option.some.inj hstep'
        exact inStep_tick hin (fun frame hframe => hsequences frame (List.mem_append_left _ hframe))
          (hfed s (jitterBuffers.before_cons.2 (.inl ⟨rfl, rfl⟩)))
    obtain ⟨v, v', hnext⟩ := hnext
    rw [List.append_cons past e events, List.append_cons past' e' events']
    rw [List.append_cons past e events] at hsequences
    exact ih hnext hsequences
      (fun w frame hw => hroom w frame (jitterBuffers.before_cons.2 (.inr ⟨u, hstep, hw⟩)))
      (fun w hw => hfed w (jitterBuffers.before_cons.2 (.inr ⟨u, hstep, hw⟩))) h h'

end

section

variable {capacity targetDepth : ℕ} {buffer : JitterBuffer} {buffer' : AudioJitterBuffer}
  {events : List (JitterEvent AudioFrame)} {events' : List (JitterEvent Decoded)}
  {s : JitterRun JitterBuffer AudioFrame} {s' : JitterRun AudioJitterBuffer Decoded}

/-- Where no frame overflows the capacity and no tick finds an empty buffer, the two buffers give
the same frames at the same ticks and have the same counts, which each shows as far as it can. -/
theorem jitter_buffers_agree (hnew : JitterBuffer.new capacity targetDepth = .ok buffer)
    (hnew' : AudioJitterBuffer.new capacity targetDepth = .ok buffer')
    (hsame : List.Forall₂ SameEvent events events')
    (hsequences : ∀ frame, .insert frame ∈ events → frame.sequence.toNat < 2 ^ 63 - 1)
    (hroom : ∀ u frame, jitterBuffers.Before ⟨buffer, []⟩ events u (.insert frame) →
      ¬ u.buffer.Overflows frame)
    (hfed : ∀ u, jitterBuffers.Before ⟨buffer, []⟩ events u .tick → ¬ u.buffer.Starves)
    (h : jitterBuffers.run ⟨buffer, []⟩ events = some s)
    (h' : audioJitterBuffers.run ⟨buffer', []⟩ events' = some s') :
    List.Forall₂ (Option.Rel SameFrame) s.ticks s'.ticks ∧
      (∃ tally, s.buffer.summary.Shows tally ∧ s'.buffer.Shows tally) ∧
      (events.length < 2 ^ 63 →
        s'.buffer.received.toInt = s.buffer.summary.received ∧
          s'.buffer.emitted.toInt = s.buffer.summary.emitted ∧
          s'.buffer.late.toInt = s.buffer.summary.late ∧
          s'.buffer.duplicate.toInt = s.buffer.summary.duplicate ∧
          s'.buffer.missing.toInt = s.buffer.summary.missing) := by
  obtain ⟨view, view', hin⟩ :=
    inStep_run hsame (inStep_new hnew hnew') hsequences hroom hfed h h'
  have hshows := hin.views.shows
  have hshows' := hin.views'.shows
  rw [hin.aligned.tally] at hshows'
  refine ⟨hin.ticks, ⟨view.tally, hshows, hshows'⟩, fun hfew => ?_⟩
  have hcounted := hin.inv.counted
  have hbalances := hin.inv.balances
  unfold JitterTally.Balances at hbalances
  rw [List.nil_append] at hcounted
  have hexact : ∀ n ≤ events.length, (Int64.ofNat n).toInt = (min n u64Max : ℕ) := by
    intro n hn
    unfold u64Max
    rw [Int64.toInt_ofNat_of_lt (by omega), Nat.min_eq_left (by omega)]
  rw [hshows.received, hshows.emitted, hshows.late, hshows.duplicate, hshows.missing,
    hshows'.received, hshows'.emitted, hshows'.late, hshows'.duplicate, hshows'.missing]
  exact ⟨hexact _ (by omega), hexact _ (by omega), hexact _ (by omega), hexact _ (by omega),
    hexact _ (by omega)⟩

/-- A packet of silence makes a message of its own. -/
theorem isBatch_silentFrame {sequence : UInt64} (h : sequence ≤ maxSequence) :
    IsBatch [⟨0, silentFrame sequence⟩] := by
  refine ⟨List.cons_ne_nil _ _, Nat.le_of_ble_eq_true rfl, fun packet hpacket => ?_,
    List.isChain_singleton _⟩
  rw [List.mem_singleton.1 hpacket]
  exact ⟨.inl rfl, h⟩

/-- Two frames in the wrong order, and one that comes after its turn. -/
def reordered : List (JitterEvent AudioFrame) :=
  [.insert (silentFrame 7), .insert (silentFrame 6), .tick, .insert (silentFrame 5), .tick]

def reordered' : List (JitterEvent Decoded) :=
  [.insert (silentPacket 7), .insert (silentPacket 6), .tick, .insert (silentPacket 5), .tick]

/-- Buffers of four play both frames at the same ticks. -/
theorem jitter_buffers_agree_reordered :
    ∃ buffer buffer' s s', JitterBuffer.new 4 2 = .ok buffer ∧
      AudioJitterBuffer.new (4 : ℕ) (2 : ℕ) = .ok buffer' ∧
      jitterBuffers.run ⟨buffer, []⟩ reordered = some s ∧
      audioJitterBuffers.run ⟨buffer', []⟩ reordered' = some s' ∧
      List.Forall₂ (Option.Rel SameFrame) s.ticks s'.ticks := by
  have hsilent : ∀ n : UInt64, n.toInt64.toInt = n.toNat →
      SameFrame (silentFrame n) (silentPacket n.toInt64) := fun n hn =>
    ⟨.inl ⟨rfl, rfl⟩, hn, rfl⟩
  have hsame : List.Forall₂ SameEvent reordered reordered' :=
    .cons (.insert (hsilent 7 rfl)) (.cons (.insert (hsilent 6 rfl)) (.cons .tick
      (.cons (.insert (hsilent 5 rfl)) (.cons .tick .nil))))
  have hsequences : ∀ frame : AudioFrame, .insert frame ∈ reordered →
      frame.sequence.toNat < 2 ^ 63 - 1 := by
    intro frame hframe
    simp only [reordered, List.mem_cons, List.not_mem_nil, JitterEvent.insert.injEq, reduceCtorEq,
      or_false, false_or] at hframe
    rcases hframe with rfl | rfl | rfl <;> decide
  obtain ⟨buffer, hnew⟩ : ∃ buffer, JitterBuffer.new 4 2 = .ok buffer := ⟨_, rfl⟩
  obtain ⟨buffer', hnew'⟩ : ∃ buffer', AudioJitterBuffer.new (4 : ℕ) (2 : ℕ) = .ok buffer' :=
    ⟨_, rfl⟩
  have hroom : ∀ u frame, jitterBuffers.Before ⟨buffer, []⟩ reordered u (.insert frame) →
      ¬ u.buffer.Overflows frame := by
    obtain rfl := Except.ok.inj hnew
    intro u frame hbefore
    simp only [reordered, Lts.before_cons, Lts.before_nil, jitterBuffers, jitterRuns,
      Option.some.injEq, exists_eq_left', reduceCtorEq, and_false, false_or, or_false,
      exists_false] at hbefore
    rcases hbefore with ⟨rfl, -⟩ | ⟨rfl, -⟩ | ⟨rfl, -⟩ <;> exact fun h => absurd h.2.2 (by decide)
  have hfed : ∀ u, jitterBuffers.Before ⟨buffer, []⟩ reordered u .tick → ¬ u.buffer.Starves := by
    obtain rfl := Except.ok.inj hnew
    intro u hbefore
    simp only [reordered, Lts.before_cons, Lts.before_nil, jitterBuffers, jitterRuns,
      Option.some.injEq, exists_eq_left', reduceCtorEq, and_false, false_or, or_false,
      and_true, exists_false] at hbefore
    rcases hbefore with rfl | rfl <;> exact fun h => absurd h.2 (by decide)
  obtain ⟨hticks, -, -⟩ := jitter_buffers_agree hnew hnew' hsame hsequences hroom hfed rfl rfl
  exact ⟨buffer, buffer', _, _, hnew, hnew', rfl, rfl, hticks⟩

end

end AnalogConnect
