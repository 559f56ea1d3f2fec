import AnalogConnect.AudioJitterBuffer

/-!
# What the phone's jitter buffer accounts for

The phone's buffer too is a jitter buffer in the general sense (`AudioJitterBuffer.insert_step`,
`AudioJitterBuffer.tick_step`). A full one may drop its first frame and move playout up to the next,
and an empty one holds its slot, so the slot to play next only moves on, and never past a frame that
is still there (`audio_jitter_buffer_accounts`).
-/

namespace AnalogConnect

open AudioPacketCodec (Decoded)

/-- A packet's key in the buffer. -/
def AudioPacketCodec.Decoded.key (packet : Decoded) : ℤ := packet.sequence.toInt

namespace AudioJitterBuffer

/-- The counters show the tally as Java `long`s do. -/
structure Shows (buffer : AudioJitterBuffer) (t : JitterTally) : Prop where
  received : buffer.received = Int64.ofNat t.received
  emitted : buffer.emitted = Int64.ofNat t.emitted
  duplicate : buffer.duplicate = Int64.ofNat t.duplicate
  late : buffer.late = Int64.ofNat t.late
  missing : buffer.missing = Int64.ofNat t.missing
  overflow : buffer.overflow = Int64.ofNat t.overflow

/-- What there is to the buffer. -/
structure Views (buffer : AudioJitterBuffer) (view : JitterView ℤ Decoded) : Prop where
  frames : view.frames = buffer.frames
  next : view.next = buffer.nextSequence
  started : view.started = buffer.started
  shows : buffer.Shows view.tally

/-- The slot after another, while sequence numbers last. -/
def slotAfter (n : ℤ) : Option ℤ := if n = longMax then none else some (n + 1)

theorem slotAfter_some (n n' : ℤ) (h : slotAfter n = some n') : n < n' ∧ ∀ k, n < k → n' ≤ k := by
  unfold slotAfter at h
  split_ifs at h
  rw [Option.some.injEq] at h
  exact ⟨by omega, fun k hk => by omega⟩

variable {buffer : AudioJitterBuffer} {view : JitterView ℤ Decoded} {packet : Decoded}

/-- A resync keeps the frame and may move playout up to the first frame there is. -/
theorem resync_eq (buffer : AudioJitterBuffer) (packet : Decoded) :
    ∃ next, buffer.resync packet =
        { buffer with
          frames := buffer.frames.insert packet.key packet, nextSequence := next } ∧
      (next = buffer.nextSequence ∨ buffer.started = true ∧ ∃ n n', buffer.nextSequence = some n ∧
        next = some n' ∧ n ≤ n' ∧ ∀ k ∈ buffer.frames.insert packet.key packet, n' ≤ k) := by
  unfold resync
  dsimp only
  split
  · rename_i n n' hnext hfirst
    split_ifs with hbehind
    · refine ⟨some n', rfl, .inr ⟨hbehind.1, n, n', hnext, rfl, le_of_lt hbehind.2, ?_⟩⟩
      exact (OrderedMap.firstKey?_eq_some_iff.1 hfirst).2
    · exact ⟨buffer.nextSequence, rfl, .inl rfl⟩
  · exact ⟨buffer.nextSequence, rfl, .inl rfl⟩

/-- Each insert is a step of a jitter buffer's. -/
theorem insert_step (h : buffer.Views view) (hsize : view.frames.size ≤ buffer.capacity)
    (packet : Decoded) :
    ∃ view', InsertStep Decoded.key buffer.capacity view packet view' ∧
      (buffer.insert packet).Views view' ∧
      (buffer.insert packet).capacity = buffer.capacity ∧
      (buffer.insert packet).targetDepth = buffer.targetDepth := by
  obtain ⟨frames, next, started, tally⟩ := view
  obtain ⟨rfl, rfl, rfl, hshows⟩ := h
  have hreceived : buffer.received + 1 = Int64.ofNat (tally.received + 1) := by
    rw [hshows.received, Int64.ofNat_add]
    rfl
  unfold insert
  dsimp only
  split_ifs with hlate hmem hfull
  · obtain ⟨n, hnext, hlt⟩ := JitterView.any_lt_iff.1 hlate
    refine ⟨_, .late hnext hlt, ⟨rfl, rfl, rfl, ?_⟩, rfl, rfl⟩
    exact { hshows with
      received := hreceived
      late := by rw [hshows.late]; exact (Int64.ofNat_add _ 1).symm }
  all_goals
    have htime : ∀ m, buffer.nextSequence = some m → m ≤ packet.key :=
      fun _ => JitterView.le_of_not_any_lt hlate
  · refine ⟨_, .duplicate htime hmem, ⟨rfl, rfl, rfl, ?_⟩, rfl, rfl⟩
    exact { hshows with
      received := hreceived
      duplicate := by rw [hshows.duplicate]; exact (Int64.ofNat_add _ 1).symm }
  · have hoverflow : buffer.overflow + 1 = Int64.ofNat (tally.overflow + 1) := by
      rw [hshows.overflow, Int64.ofNat_add]
      rfl
    have hcapacity := lt_of_lt_of_le buffer.target_pos buffer.target_le
    obtain ⟨furthest, hlast⟩ := OrderedMap.exists_lastKey? (t := buffer.frames) (by omega)
    obtain ⟨first, hfirst⟩ := OrderedMap.exists_firstKey? (t := buffer.frames) (by omega)
    simp only [hlast, hfirst]
    split_ifs with hnear
    · refine ⟨_, .replaced htime hmem hfull (OrderedMap.lastKey?_eq_some_iff.1 hlast).1 (.inl rfl),
        ⟨rfl, rfl, rfl, ?_⟩, rfl, rfl⟩
      exact { hshows with received := hreceived, overflow := hoverflow }
    · obtain ⟨next, heq, hnext⟩ := resync_eq
        { buffer with
          received := buffer.received + 1, overflow := buffer.overflow + 1
          frames := buffer.frames.erase first } packet
      rw [heq]
      refine ⟨_, .replaced htime hmem hfull (OrderedMap.firstKey?_eq_some_iff.1 hfirst).1 hnext,
        ⟨rfl, rfl, rfl, ?_⟩, rfl, rfl⟩
      exact { hshows with received := hreceived, overflow := hoverflow }
  · refine ⟨_, .kept htime hmem (lt_of_le_of_ne hsize hfull), ⟨rfl, rfl, rfl, ?_⟩, rfl, rfl⟩
    exact { hshows with received := hreceived }

/-- A tick waits for playout to start, finds that sequence numbers have run out, or has a slot. -/
theorem start_cases (h : buffer.Views view) :
    (view.started = false ∧ view.frames.size < buffer.targetDepth ∧ buffer.start? = none) ∨
    (view.started = true ∧ view.next = none ∧ buffer.start? = some buffer) ∨
    ∃ n, view.Slot buffer.targetDepth n ∧
      buffer.start? = some { buffer with nextSequence := some n, started := true } := by
  obtain ⟨frames, next, started, tally⟩ := view
  obtain ⟨rfl, rfl, rfl, -⟩ := h
  unfold start?
  rcases hstarted : buffer.started with - | -
  · by_cases hfew : buffer.frames.size < buffer.targetDepth
    · exact .inl ⟨rfl, hfew, by simp [hfew]⟩
    · have htarget := buffer.target_pos
      obtain ⟨n, hfirst⟩ := OrderedMap.exists_firstKey? (t := buffer.frames) (by omega)
      refine .inr (.inr ⟨n, .inr ⟨rfl, Nat.le_of_not_lt hfew, hfirst⟩, ?_⟩)
      simp [hfew, hfirst]
  · rcases hnext : buffer.nextSequence with - | n
    · exact .inr (.inl ⟨rfl, rfl, if_pos rfl⟩)
    · refine .inr (.inr ⟨n, .inl ⟨rfl, rfl⟩, ?_⟩)
      rw [if_pos rfl, ← hnext, ← hstarted]

/-- Each tick is a step of a jitter buffer's. -/
theorem tick_step (h : buffer.Views view) :
    ∃ view', TickStep slotAfter buffer.targetDepth view buffer.tick.1 view' ∧
      buffer.tick.2.Views view' ∧ buffer.tick.2.capacity = buffer.capacity ∧
        buffer.tick.2.targetDepth = buffer.targetDepth := by
  have hframes := h.frames
  have hmissing : buffer.missing + 1 = Int64.ofNat (view.tally.missing + 1) := by
    rw [h.shows.missing, Int64.ofNat_add]
    rfl
  have hemitted : buffer.emitted + 1 = Int64.ofNat (view.tally.emitted + 1) := by
    rw [h.shows.emitted, Int64.ofNat_add]
    rfl
  unfold tick
  rcases start_cases h with ⟨hstarted, hfew, hstart⟩ | ⟨hstarted, hnext, hstart⟩ |
    ⟨n, hslot, hstart⟩
  · rw [hstart]
    exact ⟨view, .waiting hstarted hfew, h, rfl, rfl⟩
  · have hnone := h.next.symm.trans hnext
    rw [hstart]
    dsimp only
    rw [hnone]
    exact ⟨view, .ended hstarted hnext, h, rfl, rfl⟩
  simp only [hstart]
  rcases hget : buffer.frames[n]? with - | packet <;> dsimp only
  · rw [← hframes] at hget
    by_cases hempty : buffer.frames.size = 0
    · rw [if_pos hempty]
      exact ⟨_, .held hslot (hframes ▸ hempty),
        ⟨hframes, rfl, rfl, { h.shows with missing := hmissing }⟩, rfl, rfl⟩
    · rw [if_neg hempty]
      exact ⟨_, .missing hslot hget,
        ⟨hframes, rfl, rfl, { h.shows with missing := hmissing }⟩, rfl, rfl⟩
  · rw [← hframes] at hget
    refine ⟨_, .emitted hslot hget, ⟨?_, rfl, rfl, { h.shows with emitted := hemitted }⟩, rfl, rfl⟩
    show view.frames.erase n = buffer.frames.erase n
    rw [hframes]

/-! ## Where playout goes -/

/-- Playout goes on, from where it was or from past it. -/
def Onward (buffer buffer' : AudioJitterBuffer) : Prop :=
  buffer.started = true → buffer'.started = true ∧
    ∀ n', buffer'.nextSequence = some n' → ∃ n, buffer.nextSequence = some n ∧ n ≤ n'

theorem Onward.refl (buffer : AudioJitterBuffer) : buffer.Onward buffer :=
  fun hstarted => ⟨hstarted, fun n' hn' => ⟨n', hn', le_rfl⟩⟩

theorem Onward.trans {buffer buffer' buffer'' : AudioJitterBuffer} (h : buffer.Onward buffer')
    (h' : buffer'.Onward buffer'') : buffer.Onward buffer'' := by
  intro hstarted
  obtain ⟨hstarted', hnext⟩ := h hstarted
  obtain ⟨hstarted'', hnext'⟩ := h' hstarted'
  refine ⟨hstarted'', fun n'' hn'' => ?_⟩
  obtain ⟨n', hn', hle'⟩ := hnext' n'' hn''
  obtain ⟨n, hn, hle⟩ := hnext n' hn'
  exact ⟨n, hn, le_trans hle hle'⟩

theorem onward_insert (buffer : AudioJitterBuffer) (packet : Decoded) :
    buffer.Onward (buffer.insert packet) := by
  unfold insert
  dsimp only
  split_ifs
  · exact .refl buffer
  · exact .refl buffer
  · split
    · split_ifs
      · exact .refl buffer
      · intro hstarted
        rename_i first _ _ _
        obtain ⟨next, heq, hnext⟩ := resync_eq
          { buffer with
            received := buffer.received + 1, overflow := buffer.overflow + 1
            frames := buffer.frames.erase first } packet
        rw [heq]
        refine ⟨hstarted, fun n' hn' => ?_⟩
        rcases hnext with rfl | ⟨-, n, n'', hn, rfl, hle, -⟩
        · exact ⟨n', hn', le_rfl⟩
        · obtain rfl := Option.some.inj hn'
          exact ⟨n, hn, hle⟩
    · exact .refl buffer
  · exact .refl buffer

theorem onward_tick (buffer : AudioJitterBuffer) : buffer.Onward buffer.tick.2 := by
  intro hstarted
  have hstart : buffer.start? = some buffer := if_pos hstarted
  have hslot : ∀ n n', slotAfter n = some n' → n ≤ n' := fun n n' h =>
    le_of_lt (slotAfter_some n n' h).1
  unfold tick
  simp only [hstart]
  rcases hnext : buffer.nextSequence with - | n
  · exact ⟨hstarted, fun n' hn' => ⟨n', hnext.symm.trans hn', le_rfl⟩⟩
  · dsimp only
    rcases buffer.frames[n]? with - | packet <;> dsimp only
    · by_cases hempty : buffer.frames.size = 0
      · rw [if_pos hempty]
        exact ⟨hstarted, fun n' hn' => ⟨n, rfl, le_of_eq (Option.some.inj hn')⟩⟩
      · rw [if_neg hempty]
        exact ⟨hstarted, fun n' hn' => ⟨n, rfl, hslot n n' hn'⟩⟩
    · exact ⟨hstarted, fun n' hn' => ⟨n, rfl, hslot n n' hn'⟩⟩

/-- Inserting does not start playout. -/
theorem started_insert (buffer : AudioJitterBuffer) (packet : Decoded) :
    (buffer.insert packet).started = buffer.started := by
  unfold insert
  dsimp only
  split_ifs
  · rfl
  · rfl
  · split
    · split_ifs
      · rfl
      · rename_i first _ _ _
        obtain ⟨next, heq, -⟩ := resync_eq
          { buffer with
            received := buffer.received + 1, overflow := buffer.overflow + 1
            frames := buffer.frames.erase first } packet
        rw [heq]
    · rfl
  · rfl

/-- A tick starts playout once enough frames wait. -/
theorem started_tick_iff (buffer : AudioJitterBuffer) :
    buffer.tick.2.started = true ↔
      buffer.started = true ∨ buffer.targetDepth ≤ buffer.frames.size := by
  have hticks : ∀ from', buffer.start? = some from' → from'.started = true →
      buffer.tick.2.started = true := by
    intro from' hstart hstarted
    unfold tick
    rw [hstart]
    dsimp only
    split
    · exact hstarted
    · split
      · split_ifs <;> exact hstarted
      · exact hstarted
  by_cases hstarted : buffer.started = true
  · exact ⟨fun _ => .inl hstarted, fun _ => hticks buffer (if_pos hstarted) hstarted⟩
  by_cases hfew : buffer.frames.size < buffer.targetDepth
  · have hstart : buffer.start? = none := by
      unfold start?
      rw [if_neg hstarted, if_pos hfew]
    have htick : buffer.tick = (none, buffer) := by
      unfold tick
      rw [hstart]
    rw [htick]
    exact ⟨fun h => absurd h hstarted, fun h => absurd h (not_or.2 ⟨hstarted, Nat.not_le.2 hfew⟩)⟩
  · refine ⟨fun _ => .inr (Nat.le_of_not_lt hfew), fun _ => hticks
      { buffer with nextSequence := buffer.frames.firstKey?, started := true } ?_ rfl⟩
    unfold start?
    rw [if_neg hstarted, if_neg hfew]

/-- A tick on an empty buffer that has started changes nothing but the count of what is missing. -/
theorem tick_of_empty (hstarted : buffer.started = true) (hempty : buffer.frames.size = 0) :
    buffer.tick = (none, { buffer with missing := buffer.tick.2.missing }) := by
  have hstart : buffer.start? = some buffer := if_pos hstarted
  have hget : ∀ n : ℤ, buffer.frames[n]? = none := by
    intro n
    by_contra hne
    obtain ⟨packet, hsome⟩ := Option.ne_none_iff_exists'.1 hne
    exact OrderedMap.size_eq_zero_iff.1 hempty n (OrderedMap.mem_iff_exists.2 ⟨packet, hsome⟩)
  rcases Option.eq_none_or_eq_some buffer.nextSequence with hnext | ⟨n, hnext⟩
  · have htick : buffer.tick = (none, buffer) := by
      unfold tick
      simp only [hstart, hnext]
    rw [htick]
  · have htick : buffer.tick = (none, { buffer with missing := buffer.missing + 1 }) := by
      unfold tick
      simp only [hstart, hnext, hget, hempty, if_true]
    rw [htick]

/-! ## Runs -/

section Runs

variable {capacity targetDepth : ℤ} {events : List (JitterEvent Decoded)}
  {s s' : JitterRun AudioJitterBuffer Decoded}

/-- The buffer is a jitter buffer's after these events, with the bounds it was made with. -/
def Tracked (capacity targetDepth : ℕ) (events : List (JitterEvent Decoded))
    (s : JitterRun AudioJitterBuffer Decoded) : Prop :=
  ∃ view, s.buffer.Views view ∧ JitterInv Decoded.key capacity events s.ticks view ∧
    s.buffer.capacity = capacity ∧ s.buffer.targetDepth = targetDepth

theorem new_ok (h : new capacity targetDepth = .ok buffer) :
    buffer.Views .empty ∧ (buffer.capacity : ℤ) = capacity ∧
      (buffer.targetDepth : ℤ) = targetDepth := by
  unfold new at h
  split_ifs at h with hbounds
  rw [not_or, not_or] at hbounds
  obtain rfl := Except.ok.inj h
  refine ⟨⟨rfl, rfl, rfl, ⟨rfl, rfl, rfl, rfl, rfl, rfl⟩⟩, ?_, ?_⟩
  · exact Int.toNat_of_nonneg (by omega)
  · exact Int.toNat_of_nonneg (by omega)

theorem tracked_insert {capacity targetDepth : ℕ} (h : Tracked capacity targetDepth events s)
    (packet : Decoded) :
    Tracked capacity targetDepth (events ++ [.insert packet])
      ⟨s.buffer.insert packet, s.ticks⟩ := by
  obtain ⟨view, hviews, hinv, hcapacity, htarget⟩ := h
  obtain ⟨view', hinsert, hviews', hsame, hsame'⟩ :=
    insert_step hviews (hcapacity ▸ hinv.size_le) packet
  rw [hcapacity] at hinsert
  exact ⟨view', hviews', hinv.insert hinsert, hsame.trans hcapacity, hsame'.trans htarget⟩

theorem tracked_tick {capacity targetDepth : ℕ} (h : Tracked capacity targetDepth events s) :
    Tracked capacity targetDepth (events ++ [.tick])
      ⟨s.buffer.tick.2, s.ticks ++ [s.buffer.tick.1]⟩ := by
  obtain ⟨view, hviews, hinv, hcapacity, htarget⟩ := h
  obtain ⟨view', htick, hviews', hsame, hsame'⟩ := tick_step hviews
  exact ⟨view', hviews', hinv.tick slotAfter_some htick, hsame.trans hcapacity,
    hsame'.trans htarget⟩

theorem tracked_new (h : new capacity targetDepth = .ok buffer) :
    Tracked buffer.capacity buffer.targetDepth [] ⟨buffer, []⟩ :=
  ⟨.empty, (new_ok h).1, .empty _ _, rfl, rfl⟩

theorem tracked_run (hnew : new capacity targetDepth = .ok buffer)
    (h : audioJitterBuffers.run ⟨buffer, []⟩ events = some s) :
    Tracked buffer.capacity buffer.targetDepth events s := by
  refine audioJitterBuffers.run_history (P := Tracked buffer.capacity buffer.targetDepth)
    (tracked_new hnew) (fun past t e t' _ ih hstep => ?_) h
  cases e with
  | insert packet =>
    obtain rfl := Option.some.inj hstep
    exact tracked_insert ih packet
  | tick =>
    obtain rfl := Option.some.inj hstep
    exact tracked_tick ih

theorem onward_run (h : audioJitterBuffers.run s events = some s') :
    s.buffer.Onward s'.buffer := by
  refine audioJitterBuffers.run_invariant (P := fun t => s.buffer.Onward t.buffer)
    (fun t e t' ih hstep => ?_) (.refl s.buffer) h
  cases e with
  | insert packet =>
    obtain rfl := Option.some.inj hstep
    exact ih.trans (onward_insert t.buffer packet)
  | tick =>
    obtain rfl := Option.some.inj hstep
    exact ih.trans (onward_tick t.buffer)

end Runs

end AudioJitterBuffer

section

variable {capacity targetDepth : ℤ} {buffer : AudioJitterBuffer}
  {events : List (JitterEvent Decoded)} {s : JitterRun AudioJitterBuffer Decoded}

/-- The buffer holds no more than it can, counts every packet inserted and loses none it does not
count; what it emits is in order, was inserted, and is emitted once; playout is at no frame past one
that is still there, only goes on, and stays where it is while the buffer is empty. -/
theorem audio_jitter_buffer_accounts
    (hnew : AudioJitterBuffer.new capacity targetDepth = .ok buffer)
    (h : audioJitterBuffers.run ⟨buffer, []⟩ events = some s) :
    (s.buffer.summary.depth : ℤ) ≤ capacity ∧
      s.buffer.received = Int64.ofNat (insertedFrames events).length ∧
      s.buffer.emitted = Int64.ofNat s.emitted.length ∧
      s.buffer.received = s.buffer.emitted + s.buffer.late + s.buffer.duplicate +
        s.buffer.overflow + Int64.ofNat s.buffer.summary.depth ∧
      ((insertedFrames events).length < 2 ^ 63 →
        s.buffer.received.toInt = s.buffer.emitted.toInt + s.buffer.late.toInt +
          s.buffer.duplicate.toInt + s.buffer.overflow.toInt + s.buffer.summary.depth) ∧
      (s.emitted.Pairwise fun a b => a.sequence < b.sequence) ∧
      (∀ packet ∈ s.emitted, .insert packet ∈ events) ∧ s.emitted.Nodup ∧
      (∀ n, s.buffer.nextSequence = some n → ∀ k ∈ s.buffer.frames, n ≤ k) ∧
      (∀ u, audioJitterBuffers.Through ⟨buffer, []⟩ events u → u.buffer.Onward s.buffer) ∧
      (s.buffer.started = true → s.buffer.frames.size = 0 →
        s.buffer.tick = (none, { s.buffer with missing := s.buffer.tick.2.missing })) := by
  obtain ⟨view, hviews, hinv, hcapacity, -⟩ := AudioJitterBuffer.tracked_run hnew h
  obtain ⟨-, hbound, -⟩ := AudioJitterBuffer.new_ok hnew
  have hsize := hinv.size_le
  have hreceived := hinv.received
  have hbalances := hinv.balances
  have hplayout := hinv.playout
  have hshows := hviews.shows
  rw [hviews.frames] at hsize hbalances hplayout
  rw [hviews.next] at hplayout
  unfold JitterTally.Balances at hbalances
  refine ⟨?_, ?_, ?_, ?_, fun hfew => ?_, ?_, fun packet hpacket => ?_, ?_, hplayout.ahead, ?_, ?_⟩
  · rw [← hbound]
    exact Int.ofNat_le.2 hsize
  · rw [hshows.received, hreceived]
  · rw [hshows.emitted, hinv.emitted]
    rfl
  · rw [hshows.received, hshows.emitted, hshows.late, hshows.duplicate, hshows.overflow, hbalances]
    simp only [Int64.ofNat_add]
    rfl
  · have hexact : ∀ n ≤ view.tally.received, (Int64.ofNat n).toInt = n := fun n hn =>
      Int64.toInt_ofNat_of_lt (by omega)
    rw [hshows.received, hshows.emitted, hshows.late, hshows.duplicate, hshows.overflow,
      hexact _ le_rfl, hexact _ (by omega), hexact _ (by omega), hexact _ (by omega),
      hexact _ (by omega)]
    show (view.tally.received : ℤ) = _ + _ + _ + _ + (s.buffer.frames.size : ℤ)
    omega
  · exact hplayout.ordered.imp fun hlt => Int64.lt_iff_toInt_lt.2 hlt
  · exact mem_insertedFrames.1 (hplayout.played_mem packet hpacket)
  · exact hplayout.nodup
  · rintro u ⟨past, future, rfl, hpast⟩
    obtain ⟨u', hu', hfuture⟩ := audioJitterBuffers.run_append_eq_some.1 h
    obtain rfl := Option.some.inj (hpast.symm.trans hu')
    exact AudioJitterBuffer.onward_run hfuture
  · exact fun hstarted hempty => AudioJitterBuffer.tick_of_empty hstarted hempty

/-- A packet of silence. -/
def silentPacket (sequence : Int64) : Decoded :=
  ⟨AudioPacketCodec.formatNarrowband, sequence, 0, List.replicate 60 0⟩

/-- The last packet finds a buffer of two full, and playout at its first. -/
def overflowing : List (JitterEvent Decoded) :=
  [.insert (silentPacket 5), .insert (silentPacket 6), .tick, .insert (silentPacket 8),
    .insert (silentPacket 9)]

/-- A buffer of two stays one, in order, and has accounted for the packets it dropped. -/
theorem audio_jitter_buffer_accounts_overflowing :
    ∃ buffer s, AudioJitterBuffer.new 2 1 = .ok buffer ∧
      audioJitterBuffers.run ⟨buffer, []⟩ overflowing = some s ∧
      (s.buffer.summary.depth : ℤ) ≤ 2 ∧
      s.buffer.received = Int64.ofNat (insertedFrames overflowing).length ∧
      s.buffer.received = s.buffer.emitted + s.buffer.late + s.buffer.duplicate +
        s.buffer.overflow + Int64.ofNat s.buffer.summary.depth ∧
      s.emitted.Nodup ∧ ∀ n, s.buffer.nextSequence = some n → ∀ k ∈ s.buffer.frames, n ≤ k := by
  obtain ⟨buffer, hnew⟩ : ∃ buffer, AudioJitterBuffer.new 2 1 = .ok buffer := ⟨_, rfl⟩
  obtain ⟨s, hrun⟩ : ∃ s, audioJitterBuffers.run ⟨buffer, []⟩ overflowing = some s := ⟨_, rfl⟩
  obtain ⟨hdepth, hreceived, -, hbalances, -, -, -, hnodup, hahead, -, -⟩ :=
    audio_jitter_buffer_accounts hnew hrun
  exact ⟨buffer, s, hnew, hrun, hdepth, hreceived, hbalances, hnodup, hahead⟩

end

end AnalogConnect
