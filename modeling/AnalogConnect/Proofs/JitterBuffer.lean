import AnalogConnect.JitterBuffer

/-!
# What the daemon's jitter buffer accounts for

The daemon's buffer is a jitter buffer in the general sense: each insert and each tick is one of its
steps (`JitterBuffer.insert_step`, `JitterBuffer.tick_step`), and its counters show the exact tally
as far as 64 bits reach. So every frame received is emitted, late, a duplicate, lost to overflow or
still there. It holds no slot: once playout has started, each tick takes the next one and emits its
frame or counts it missing (`jitter_buffer_accounts`).
-/

namespace AnalogConnect

/-- A frame's key in the buffer. -/
def AudioFrame.key (frame : AudioFrame) : ℕ := frame.sequence.toNat

/-- The counters show the tally as far as they reach. -/
structure JitterBufferSummary.Shows (summary : JitterBufferSummary) (t : JitterTally) : Prop where
  received : summary.received = min t.received u64Max
  emitted : summary.emitted = min t.emitted u64Max
  duplicate : summary.duplicate = min t.duplicate u64Max
  late : summary.late = min t.late u64Max
  missing : summary.missing = min t.missing u64Max
  overflow : summary.overflow = min t.overflow u64Max

namespace JitterBuffer

/-- What there is to the buffer. -/
structure Views (buffer : JitterBuffer) (view : JitterView ℕ AudioFrame) : Prop where
  frames : view.frames = buffer.frames
  next : view.next = buffer.nextSequence
  started : view.started = buffer.started
  shows : buffer.summary.Shows view.tally
  depth : buffer.summary.depth = buffer.frames.size

/-- The slot after another, while sequence numbers last. -/
def slotAfter (n : ℕ) : Option ℕ := if n = u64Max then none else some (n + 1)

theorem slotAfter_some (n n' : ℕ) (h : slotAfter n = some n') : n < n' ∧ ∀ k, n < k → n' ≤ k := by
  unfold slotAfter at h
  split_ifs at h
  rw [Option.some.injEq] at h
  exact ⟨by omega, fun k hk => by omega⟩

variable {buffer : JitterBuffer} {view : JitterView ℕ AudioFrame} {frame : AudioFrame}

/-- Inserting moves neither playout nor the bounds. -/
theorem insert_same (buffer : JitterBuffer) (frame : AudioFrame) :
    (buffer.insert frame).nextSequence = buffer.nextSequence ∧
      (buffer.insert frame).started = buffer.started ∧
      (buffer.insert frame).capacity = buffer.capacity ∧
      (buffer.insert frame).targetDepth = buffer.targetDepth := by
  unfold insert keep
  dsimp only
  split_ifs
  · exact ⟨rfl, rfl, rfl, rfl⟩
  · exact ⟨rfl, rfl, rfl, rfl⟩
  · split
    · exact ⟨rfl, rfl, rfl, rfl⟩
    · split_ifs <;> exact ⟨rfl, rfl, rfl, rfl⟩
  · exact ⟨rfl, rfl, rfl, rfl⟩

/-- Each insert is a step of a jitter buffer's. -/
theorem insert_step (h : buffer.Views view) (hsize : view.frames.size ≤ buffer.capacity)
    (frame : AudioFrame) :
    ∃ view', InsertStep AudioFrame.key buffer.capacity view frame view' ∧
      (buffer.insert frame).Views view' := by
  obtain ⟨frames, next, started, tally⟩ := view
  obtain ⟨rfl, rfl, rfl, hshows, hdepth⟩ := h
  have hreceived : saturatingAdd buffer.summary.received 1 = min (tally.received + 1) u64Max := by
    rw [hshows.received, saturatingAdd_min]
  unfold insert
  dsimp only
  split_ifs with hlate hmem hfull
  · obtain ⟨n, hnext, hlt⟩ := JitterView.any_lt_iff.1 hlate
    refine ⟨_, .late hnext hlt, rfl, rfl, rfl, ?_, hdepth⟩
    exact { hshows with
      received := hreceived
      late := by rw [hshows.late, saturatingAdd_min]; rfl }
  all_goals
    have htime : ∀ m, buffer.nextSequence = some m → m ≤ frame.key :=
      fun _ => JitterView.le_of_not_any_lt hlate
  · refine ⟨_, .duplicate htime hmem, rfl, rfl, rfl, ?_, hdepth⟩
    exact { hshows with
      received := hreceived
      duplicate := by rw [hshows.duplicate, saturatingAdd_min]; rfl }
  · have hoverflow : saturatingAdd buffer.summary.overflow 1 = min (tally.overflow + 1) u64Max := by
      rw [hshows.overflow, saturatingAdd_min]
    have hcapacity := lt_of_lt_of_le buffer.target_pos buffer.target_le
    obtain ⟨furthest, hlast⟩ := OrderedMap.exists_lastKey? (t := buffer.frames) (by omega)
    simp only [hlast]
    split_ifs with hpast
    · refine ⟨_, .refused htime hmem hfull, rfl, rfl, rfl, ?_, hdepth⟩
      exact { hshows with received := hreceived, overflow := hoverflow }
    · refine ⟨_, .replaced htime hmem hfull (OrderedMap.lastKey?_eq_some_iff.1 hlast).1 (.inl rfl),
        rfl, rfl, rfl, ?_, rfl⟩
      exact { hshows with received := hreceived, overflow := hoverflow }
  · refine ⟨_, .kept htime hmem (lt_of_le_of_ne hsize hfull), rfl, rfl, rfl, ?_, rfl⟩
    exact { hshows with received := hreceived }

/-- What a tick does with the slot it takes. -/
structure Takes (buffer : JitterBuffer) (n : ℕ) : Prop where
  moves : buffer.tick.2.nextSequence = slotAfter n
  started : buffer.tick.2.started = true
  capacity : buffer.tick.2.capacity = buffer.capacity
  target : buffer.tick.2.targetDepth = buffer.targetDepth
  accounts : (∃ frame, buffer.frames[n]? = some frame ∧ buffer.tick.1 = some frame ∧
      buffer.tick.2.frames = buffer.frames.erase n ∧
      buffer.tick.2.summary =
        { buffer.summary with
          emitted := saturatingAdd buffer.summary.emitted 1
          depth := (buffer.frames.erase n).size }) ∨
    buffer.frames[n]? = none ∧ buffer.tick.1 = none ∧ buffer.tick.2.frames = buffer.frames ∧
      buffer.tick.2.summary =
        { buffer.summary with missing := saturatingAdd buffer.summary.missing 1 }

/-- A tick waits for playout to start, finds that sequence numbers have run out, or takes a slot. -/
theorem tick_cases (h : buffer.Views view) :
    (view.started = false ∧ view.frames.size < buffer.targetDepth ∧
      buffer.tick = (none, buffer)) ∨
    (view.started = true ∧ view.next = none ∧ buffer.tick = (none, buffer)) ∨
    ∃ n, view.Slot buffer.targetDepth n ∧ buffer.Takes n := by
  have htakes : ∀ n from', buffer.start? = some from' → from'.nextSequence = some n →
      from'.started = true → from'.frames = buffer.frames → from'.summary = buffer.summary →
      from'.capacity = buffer.capacity → from'.targetDepth = buffer.targetDepth →
      buffer.Takes n := by
    intro n from' hstart hnext hstarted hframes hsummary hcapacity htarget
    rcases hget : buffer.frames[n]? with - | frame
    · have htick : buffer.tick = (none, { from' with
          nextSequence := slotAfter n
          summary := { buffer.summary with
            missing := saturatingAdd buffer.summary.missing 1 } }) := by
        unfold tick
        simp only [hstart, hnext, hframes, hsummary, hget]
        rfl
      exact ⟨by rw [htick], by rw [htick]; exact hstarted, by rw [htick]; exact hcapacity,
        by rw [htick]; exact htarget,
        .inr ⟨hget, by rw [htick], by rw [htick]; exact hframes, by rw [htick]⟩⟩
    · have htick : buffer.tick = (some frame, { from' with
          frames := buffer.frames.erase n, nextSequence := slotAfter n
          summary := { buffer.summary with
            emitted := saturatingAdd buffer.summary.emitted 1
            depth := (buffer.frames.erase n).size } }) := by
        unfold tick
        simp only [hstart, hnext, hframes, hsummary, hget]
        rfl
      exact ⟨by rw [htick], by rw [htick]; exact hstarted, by rw [htick]; exact hcapacity,
        by rw [htick]; exact htarget,
        .inl ⟨frame, hget, by rw [htick], by rw [htick], by rw [htick]⟩⟩
  obtain ⟨frames, next, started, tally⟩ := view
  obtain ⟨rfl, rfl, rfl, -, -⟩ := h
  rcases hstarted : buffer.started with - | -
  · by_cases hfew : buffer.frames.size < buffer.targetDepth
    · refine .inl ⟨rfl, hfew, ?_⟩
      unfold tick start?
      simp [hstarted, hfew]
    · have htarget := buffer.target_pos
      obtain ⟨n, hfirst⟩ := OrderedMap.exists_firstKey? (t := buffer.frames) (by omega)
      refine .inr (.inr ⟨n, .inr ⟨rfl, Nat.le_of_not_lt hfew, hfirst⟩, ?_⟩)
      refine htakes n { buffer with nextSequence := buffer.frames.firstKey?, started := true } ?_
        hfirst rfl rfl rfl rfl rfl
      unfold start?
      simp [hstarted, hfew]
  · have hstart : buffer.start? = some buffer := by
      unfold start?
      rw [if_pos hstarted]
    rcases hnext : buffer.nextSequence with - | n
    · refine .inr (.inl ⟨rfl, rfl, ?_⟩)
      unfold tick
      simp [hstart, hnext]
    · exact .inr (.inr ⟨n, .inl ⟨rfl, rfl⟩, htakes n buffer hstart hnext hstarted rfl rfl rfl rfl⟩)

/-- Each tick is a step of a jitter buffer's. -/
theorem tick_step (h : buffer.Views view) :
    ∃ view', TickStep slotAfter buffer.targetDepth view buffer.tick.1 view' ∧
      buffer.tick.2.Views view' ∧ buffer.tick.2.capacity = buffer.capacity ∧
        buffer.tick.2.targetDepth = buffer.targetDepth := by
  have hframes := h.frames
  rcases tick_cases h with ⟨hstarted, hfew, htick⟩ | ⟨hstarted, hnext, htick⟩ |
    ⟨n, hslot, htakes⟩
  · rw [htick]
    exact ⟨view, .waiting hstarted hfew, h, rfl, rfl⟩
  · rw [htick]
    exact ⟨view, .ended hstarted hnext, h, rfl, rfl⟩
  rcases htakes.accounts with ⟨frame, hget, hout, herase, hsummary⟩ | ⟨hget, hout, hkeep, hsummary⟩
  · rw [← hframes] at hget
    rw [hout]
    refine ⟨_, .emitted hslot hget, ⟨?_, htakes.moves.symm, htakes.started.symm, ?_, ?_⟩,
      htakes.capacity, htakes.target⟩
    · rw [herase, hframes]
    · rw [hsummary]
      exact { h.shows with emitted := by rw [h.shows.emitted, saturatingAdd_min]; rfl }
    · rw [hsummary, herase]
  · rw [← hframes] at hget
    rw [hout]
    refine ⟨_, .missing hslot hget, ⟨?_, htakes.moves.symm, htakes.started.symm, ?_, ?_⟩,
      htakes.capacity, htakes.target⟩
    · rw [hkeep, hframes]
    · rw [hsummary]
      exact { h.shows with missing := by rw [h.shows.missing, saturatingAdd_min]; rfl }
    · rw [hsummary, hkeep]
      exact h.depth

/-! ## Runs -/

section Runs

variable {capacity targetDepth : ℕ} {events : List (JitterEvent AudioFrame)}
  {s : JitterRun JitterBuffer AudioFrame}

/-- The buffer is a jitter buffer's after these events, with the bounds it was made with. -/
def Tracked (capacity targetDepth : ℕ) (events : List (JitterEvent AudioFrame))
    (s : JitterRun JitterBuffer AudioFrame) : Prop :=
  ∃ view, s.buffer.Views view ∧ JitterInv AudioFrame.key capacity events s.ticks view ∧
    s.buffer.capacity = capacity ∧ s.buffer.targetDepth = targetDepth

theorem tracked_new (h : new capacity targetDepth = .ok buffer) :
    Tracked capacity targetDepth [] ⟨buffer, []⟩ := by
  unfold new at h
  split_ifs at h
  obtain rfl := Except.ok.inj h
  refine ⟨.empty, ⟨rfl, rfl, rfl, ?_, rfl⟩, .empty _ _, rfl, rfl⟩
  exact ⟨rfl, rfl, rfl, rfl, rfl, rfl⟩

theorem tracked_run (hnew : new capacity targetDepth = .ok buffer)
    (h : jitterBuffers.run ⟨buffer, []⟩ events = some s) :
    Tracked capacity targetDepth events s := by
  refine jitterBuffers.run_history (P := Tracked capacity targetDepth) (tracked_new hnew)
    (fun past t e t' _ ih hstep => ?_) h
  obtain ⟨view, hviews, hinv, hcapacity, htarget⟩ := ih
  cases e with
  | insert frame =>
    obtain rfl := Option.some.inj hstep
    obtain ⟨view', hinsert, hviews'⟩ := insert_step hviews (hcapacity ▸ hinv.size_le) frame
    obtain ⟨-, -, hsame, hsame'⟩ := insert_same t.buffer frame
    rw [hcapacity] at hinsert
    exact ⟨view', hviews', hinv.insert hinsert, hsame.trans hcapacity, hsame'.trans htarget⟩
  | tick =>
    obtain rfl := Option.some.inj hstep
    obtain ⟨view', htick, hviews', hsame, hsame'⟩ := tick_step hviews
    exact ⟨view', hviews', hinv.tick slotAfter_some htick, hsame.trans hcapacity,
      hsame'.trans htarget⟩

/-- Playout starts at the sequence number of a frame that was inserted. -/
theorem first_lt (htracked : Tracked capacity targetDepth events s)
    (hsequences : ∀ frame, .insert frame ∈ events → frame.sequence.toNat < 2 ^ 63) {n : ℕ}
    (hfirst : s.buffer.frames.firstKey? = some n) : n < 2 ^ 63 := by
  obtain ⟨view, hviews, hinv, -, -⟩ := htracked
  rw [← hviews.frames] at hfirst
  obtain ⟨frame, hget⟩ := OrderedMap.mem_iff_exists.1 (OrderedMap.firstKey?_eq_some_iff.1 hfirst).1
  rw [← hinv.playout.key_eq n frame hget]
  exact hsequences frame (mem_insertedFrames.1 (hinv.playout.retained n frame hget))

/-- A tick takes the slot `n`: it emits the frame of that number or counts it missing. -/
structure AccountsFor (buffer : JitterBuffer) (n : ℕ) : Prop where
  expected : buffer.started = true → buffer.nextSequence = some n
  next : buffer.tick.2.nextSequence = some (n + 1)
  counted : (∃ frame, buffer.tick.1 = some frame ∧ frame.sequence.toNat = n ∧
      buffer.tick.2.summary.emitted = saturatingAdd buffer.summary.emitted 1) ∨
    buffer.tick.1 = none ∧ n ∉ buffer.frames ∧
      buffer.tick.2.summary.missing = saturatingAdd buffer.summary.missing 1

/-- After a tick playout has not started, or the tick has taken the next slot. -/
theorem tick_accounts (htracked : Tracked capacity targetDepth events s)
    (hsequences : ∀ frame, .insert frame ∈ events → frame.sequence.toNat < 2 ^ 63)
    (hbelow : ∀ n, s.buffer.nextSequence = some n → n < u64Max)
    (hplaying : s.buffer.started = true → s.buffer.nextSequence ≠ none)
    (hstarted : s.buffer.tick.2.started = true) : ∃ n, s.buffer.AccountsFor n := by
  have hfirst_lt := fun n => first_lt htracked hsequences (n := n)
  obtain ⟨view, hviews, hinv, -, -⟩ := htracked
  rcases tick_cases hviews with ⟨hwaiting, -, htick⟩ | ⟨hstarted', hnext, -⟩ |
    ⟨n, hslot, htakes⟩
  · rw [htick, ← hviews.started, hwaiting] at hstarted
    cases hstarted
  · exact absurd (hviews.next.symm.trans hnext) (hplaying (hviews.started.symm.trans hstarted'))
  have hlt : n < u64Max := by
    rcases hslot with ⟨-, hnext⟩ | ⟨-, -, hfirst⟩
    · exact hbelow n (hviews.next.symm.trans hnext)
    · have := hfirst_lt n (hviews.frames ▸ hfirst)
      unfold u64Max
      omega
  refine ⟨n, fun hplaying => ?_, ?_, ?_⟩
  · rcases hslot with ⟨-, hnext⟩ | ⟨hwaiting, -, -⟩
    · exact hviews.next.symm.trans hnext
    · rw [hviews.started, hplaying] at hwaiting
      cases hwaiting
  · rw [htakes.moves, slotAfter, if_neg (Nat.ne_of_lt hlt)]
  · rcases htakes.accounts with ⟨frame, hget, hout, -, hsummary⟩ | ⟨hget, hout, -, hsummary⟩
    · exact .inl ⟨frame, hout, hinv.playout.key_eq n frame (hviews.frames ▸ hget),
        by rw [hsummary]⟩
    · refine .inr ⟨hout, fun hmem => ?_, by rw [hsummary]⟩
      obtain ⟨frame, hsome⟩ := OrderedMap.mem_iff_exists.1 hmem
      rw [hget] at hsome
      cases hsome

end Runs

end JitterBuffer

section

variable {capacity targetDepth : ℕ} {buffer : JitterBuffer} {events : List (JitterEvent AudioFrame)}
  {s : JitterRun JitterBuffer AudioFrame}

/-- Below the last sequence number, a buffer that has started always expects one. -/
theorem expects_of_below (hnew : JitterBuffer.new capacity targetDepth = .ok buffer)
    (hsequences : ∀ frame, .insert frame ∈ events → frame.sequence.toNat < 2 ^ 63)
    (hbelow : ∀ u, jitterBuffers.Through ⟨buffer, []⟩ events u →
      ∀ n, u.buffer.nextSequence = some n → n < u64Max)
    {u : JitterRun JitterBuffer AudioFrame} (h : jitterBuffers.Through ⟨buffer, []⟩ events u) :
    u.buffer.started = true → u.buffer.nextSequence ≠ none := by
  refine jitterBuffers.through_invariant
    (P := fun u => u.buffer.started = true → u.buffer.nextSequence ≠ none)
    ?_ (fun t e t' hbefore hplaying hstep => ?_) h
  · unfold JitterBuffer.new at hnew
    split_ifs at hnew
    obtain rfl := Except.ok.inj hnew
    exact fun hfalse => Bool.noConfusion hfalse
  · cases e with
    | insert frame =>
      obtain rfl := Option.some.inj hstep
      obtain ⟨hnext, hstarted, -, -⟩ := t.buffer.insert_same frame
      rw [hnext, hstarted]
      exact hplaying
    | tick =>
      obtain rfl := Option.some.inj hstep
      intro hstarted
      obtain ⟨past, future, rfl, hpast⟩ := hbefore
      obtain ⟨n, haccounts⟩ := JitterBuffer.tick_accounts (JitterBuffer.tracked_run hnew hpast)
        (fun frame hframe => hsequences frame (List.mem_append_left _ hframe))
        (hbelow t ⟨past, _, rfl, hpast⟩) hplaying hstarted
      rw [haccounts.next]
      exact Option.some_ne_none _

/-- The expected sequence stays below the last in every run of fewer than `2 ^ 63 - 1` events. -/
theorem below_of_length (hnew : JitterBuffer.new capacity targetDepth = .ok buffer)
    (hsequences : ∀ frame, .insert frame ∈ events → frame.sequence.toNat < 2 ^ 63)
    (hfew : events.length < 2 ^ 63 - 1) {u : JitterRun JitterBuffer AudioFrame}
    (h : jitterBuffers.Through ⟨buffer, []⟩ events u) {n : ℕ}
    (hnext : u.buffer.nextSequence = some n) : n < u64Max := by
  obtain ⟨past, future, rfl, hpast⟩ := h
  have hbound : ∀ n, u.buffer.nextSequence = some n → n < 2 ^ 63 + past.length := by
    refine jitterBuffers.run_history
      (P := fun past u => (∀ frame, .insert frame ∈ past → frame.sequence.toNat < 2 ^ 63) →
        ∀ n, u.buffer.nextSequence = some n → n < 2 ^ 63 + past.length)
      (fun _ n hn => ?_) (fun past t e t' hpast ih hstep hsequences n hn => ?_) hpast
      (fun frame hframe => hsequences frame (List.mem_append_left _ hframe))
    · unfold JitterBuffer.new at hnew
      split_ifs at hnew
      obtain rfl := Except.ok.inj hnew
      cases hn
    · have hpast_sequences : ∀ frame, .insert frame ∈ past → frame.sequence.toNat < 2 ^ 63 :=
        fun frame hframe => hsequences frame (List.mem_append_left _ hframe)
      have ih := ih hpast_sequences
      rw [List.length_append, List.length_singleton]
      cases e with
      | insert frame =>
        obtain rfl := Option.some.inj hstep
        have := ih n ((t.buffer.insert_same frame).1 ▸ hn)
        omega
      | tick =>
        obtain rfl := Option.some.inj hstep
        have htracked := JitterBuffer.tracked_run hnew hpast
        have hfirst_lt := fun n => JitterBuffer.first_lt htracked hpast_sequences (n := n)
        obtain ⟨view, hviews, -, -, -⟩ := htracked
        rcases JitterBuffer.tick_cases hviews with ⟨-, -, htick⟩ | ⟨-, -, htick⟩ |
          ⟨m, hslot, htakes⟩
        · have := ih n (by rw [htick] at hn; exact hn)
          omega
        · have := ih n (by rw [htick] at hn; exact hn)
          omega
        · have hm : m < 2 ^ 63 + past.length := by
            rcases hslot with ⟨-, hm⟩ | ⟨-, -, hfirst⟩
            · exact ih m (hviews.next.symm.trans hm)
            · have := hfirst_lt m (hviews.frames ▸ hfirst)
              omega
          have hafter : JitterBuffer.slotAfter m = some n := htakes.moves.symm.trans hn
          unfold JitterBuffer.slotAfter at hafter
          split_ifs at hafter
          rw [Option.some.injEq] at hafter
          omega
  have := hbound n hnext
  rw [List.length_append] at hfew
  unfold u64Max
  omega

/-- The buffer holds no more than it can, counts every frame inserted and loses none it does not
count; what it emits is in order, was inserted, and is emitted once; and each tick after the start
takes the next slot. -/
theorem jitter_buffer_accounts (hnew : JitterBuffer.new capacity targetDepth = .ok buffer)
    (h : jitterBuffers.run ⟨buffer, []⟩ events = some s)
    (hsequences : ∀ frame, .insert frame ∈ events → frame.sequence.toNat < 2 ^ 63)
    (hbelow : ∀ u, jitterBuffers.Through ⟨buffer, []⟩ events u →
      ∀ n, u.buffer.nextSequence = some n → n < u64Max) :
    s.buffer.summary.depth = s.buffer.frames.size ∧ s.buffer.frames.size ≤ capacity ∧
      s.buffer.summary.received = min (insertedFrames events).length u64Max ∧
      s.buffer.summary.emitted = min s.emitted.length u64Max ∧
      (s.buffer.summary.received < u64Max →
        s.buffer.summary.received = s.buffer.summary.emitted + s.buffer.summary.late +
          s.buffer.summary.duplicate + s.buffer.summary.overflow + s.buffer.summary.depth) ∧
      (s.emitted.Pairwise fun a b => a.sequence < b.sequence) ∧
      (∀ frame ∈ s.emitted, .insert frame ∈ events) ∧ s.emitted.Nodup ∧
      ∀ u, jitterBuffers.Before ⟨buffer, []⟩ events u .tick → u.buffer.tick.2.started = true →
        ∃ n, u.buffer.AccountsFor n := by
  obtain ⟨view, hviews, hinv, -, -⟩ := JitterBuffer.tracked_run hnew h
  have hsize := hinv.size_le
  have hbalances := hinv.balances
  rw [hviews.frames] at hsize hbalances
  refine ⟨hviews.depth, hsize, ?_, ?_, fun hunsaturated => ?_, ?_, fun frame hframe => ?_, ?_, ?_⟩
  · rw [hviews.shows.received, hinv.received]
  · rw [hviews.shows.emitted, hinv.emitted]
    rfl
  · unfold JitterTally.Balances at hbalances
    rw [hviews.shows.received] at hunsaturated
    rw [hviews.shows.received, hviews.shows.emitted, hviews.shows.late, hviews.shows.duplicate,
      hviews.shows.overflow, hviews.depth]
    omega
  · exact hinv.playout.ordered.imp fun hlt => UInt64.lt_iff_toNat_lt.2 hlt
  · exact mem_insertedFrames.1 (hinv.playout.played_mem frame hframe)
  · exact hinv.playout.nodup
  · rintro u hbefore hstarted
    have hthrough := hbefore.through
    obtain ⟨past, future, rfl, hpast⟩ := hbefore
    exact JitterBuffer.tick_accounts (JitterBuffer.tracked_run hnew hpast)
      (fun frame hframe => hsequences frame (List.mem_append_left _ hframe))
      (hbelow u hthrough) (expects_of_below hnew hsequences hbelow hthrough) hstarted

/-- A frame of silence. -/
def silentFrame (sequence : UInt64) : AudioFrame :=
  ⟨sequence, .hfpNarrowband, List.replicate 60 0, by decide, by decide, rfl⟩

/-- The second frame comes after its turn. -/
def lateArrival : List (JitterEvent AudioFrame) :=
  [.insert (silentFrame 10), .tick, .insert (silentFrame 9), .tick]

/-- A buffer of two plays the first frame and refuses the second. -/
theorem jitter_buffer_accounts_lateArrival :
    ∃ buffer s, JitterBuffer.new 2 1 = .ok buffer ∧
      jitterBuffers.run ⟨buffer, []⟩ lateArrival = some s ∧ s.buffer.frames.size ≤ 2 ∧
      s.buffer.summary.received = min (insertedFrames lateArrival).length u64Max ∧
      (s.emitted.Pairwise fun a b => a.sequence < b.sequence) ∧ s.emitted.Nodup := by
  obtain ⟨buffer, hnew⟩ : ∃ buffer, JitterBuffer.new 2 1 = .ok buffer := ⟨_, rfl⟩
  have hsequences : ∀ frame : AudioFrame, .insert frame ∈ lateArrival →
      frame.sequence.toNat < 2 ^ 63 := by
    intro frame hframe
    simp only [lateArrival, List.mem_cons, List.not_mem_nil, JitterEvent.insert.injEq, reduceCtorEq,
      or_false, false_or] at hframe
    rcases hframe with rfl | rfl <;> decide
  obtain ⟨-, hsize, hreceived, -, -, hordered, -, hnodup, -⟩ :=
    jitter_buffer_accounts hnew rfl hsequences
      fun u hu n => below_of_length hnew hsequences (by decide) hu
  exact ⟨buffer, _, hnew, rfl, hsize, hreceived, hordered, hnodup⟩

end

end AnalogConnect
