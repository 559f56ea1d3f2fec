import AnalogConnect.Proofs.CallAudio
import AnalogConnect.Proofs.MediaSocket

/-!
# What the daemon hears of the microphone

A write that throws may leave part of its frame on the wire, and nothing after it can be told apart
(`wire`). Up to there the wire holds whole frames, and whoever reads frames off it reads those
(`WebSocketFrame.isPrefix_of_flatMap`). The uplink worker's are batches of four frames numbered
from 0 on (`Uplink`), whatever the other workers write between them, and the daemon takes them in
as they were captured.
-/

namespace AnalogConnect

open AudioPacketCodec (Decoded encodeBatch)

/-! ## The wire -/

structure SocketWrite where
  opcode : ℕ
  payload : List UInt8
  mask : MaskKey
  torn : Option ℕ

namespace SocketWrite

def bytes (write : SocketWrite) : List UInt8 :=
  (WebSocketWire.writeClientFrame write.opcode write.payload write.mask).toOption.getD []

/-- What of the frame reached the wire. -/
def sent (write : SocketWrite) : List UInt8 :=
  match write.torn with
  | none => write.bytes
  | some n => write.bytes.take n

/-- The writes up to the first that threw, itself among them. -/
def upToTorn : List SocketWrite → List SocketWrite
  | [] => []
  | write :: writes => write :: if write.torn = none then upToTorn writes else []

theorem upToTorn_append : ∀ (writes more : List SocketWrite), upToTorn (writes ++ more)
    = upToTorn writes ++ if ∀ write ∈ writes, write.torn = none then upToTorn more else []
  | [], more => by simp [upToTorn]
  | write :: writes, more => by
    have ih := upToTorn_append writes more
    simp only [List.cons_append, upToTorn, List.forall_mem_cons]
    by_cases hwhole : write.torn = none
    · simp [hwhole, ih]
    · simp [hwhole]

theorem upToTorn_isPrefix : ∀ writes : List SocketWrite, upToTorn writes <+: writes
  | [] => List.nil_prefix
  | write :: writes => by
    unfold upToTorn
    rw [List.prefix_cons_inj]
    split_ifs
    · exact upToTorn_isPrefix writes
    · exact List.nil_prefix

theorem sent_isPrefix : ∀ writes : List SocketWrite,
    (upToTorn writes).flatMap sent <+: (upToTorn writes).flatMap bytes
  | [] => List.nil_prefix
  | write :: writes => by
    unfold upToTorn
    rw [List.flatMap_cons, List.flatMap_cons]
    unfold sent
    rcases htorn : write.torn with - | n
    · rw [if_pos rfl]
      exact (List.prefix_append_right_inj _).2 (sent_isPrefix writes)
    · rw [if_neg nofun]
      simpa using List.take_prefix n write.bytes

end SocketWrite

def CallAudioAction.write? : CallAudioAction → Option SocketWrite
  | .wrote opcode payload mask torn => some ⟨opcode, payload, mask, torn⟩
  | _ => none

def CallAudioAction.captured? : CallAudioAction → Option Decoded
  | .captured packet => some packet
  | _ => none

namespace CallAudio

def writes (c : CallAudio) : List SocketWrite := c.log.filterMap CallAudioAction.write?

/-- The frames the microphone gave. -/
def captured (c : CallAudio) : List Decoded := c.log.filterMap CallAudioAction.captured?

/-- The bytes on the wire, up to the first write that threw. -/
def wire (c : CallAudio) : List UInt8 :=
  (SocketWrite.upToTorn c.writes).flatMap SocketWrite.sent

/-- The uplink worker's writes, up to the first write that threw. -/
def batchWrites (c : CallAudio) : List SocketWrite :=
  (SocketWrite.upToTorn c.writes).filter (·.opcode = WebSocketWire.opcodeBinary)

variable {c c' : CallAudio} {outcome : CallAudioOutcome} {new : List CallAudioAction}

theorem writes_append (h : c'.log = c.log ++ new) :
    c'.writes = c.writes ++ new.filterMap CallAudioAction.write? := by
  rw [writes, h, List.filterMap_append]
  rfl

theorem captured_append (h : c'.log = c.log ++ new) :
    c'.captured = c.captured ++ new.filterMap CallAudioAction.captured? := by
  rw [captured, h, List.filterMap_append]
  rfl

/-- The others capture nothing. -/
theorem captured_of_thread (h : c'.log = c.log ++ new)
    (hnew : ∀ a ∈ new, a.thread ≠ some .uplink) : c'.captured = c.captured := by
  have hnone : new.filterMap CallAudioAction.captured? = [] := by
    refine List.filterMap_eq_nil_iff.2 fun a ha => ?_
    cases a <;> first | rfl | exact absurd rfl (hnew _ ha)
  rw [captured_append h, hnone, List.append_nil]

/-- Nor do they write batches. -/
theorem batchWrites_of_thread (h : c'.log = c.log ++ new)
    (hnew : ∀ a ∈ new, a.thread ≠ some .uplink) : c'.batchWrites = c.batchWrites := by
  have hnone : (SocketWrite.upToTorn (new.filterMap CallAudioAction.write?)).filter
      (·.opcode = WebSocketWire.opcodeBinary) = [] := by
    refine List.filter_eq_nil_iff.2 fun write hwrite => ?_
    obtain ⟨a, ha, hwrite⟩ :=
      List.mem_filterMap.1 ((SocketWrite.upToTorn_isPrefix _).subset hwrite)
    have hthread := hnew a ha
    cases a <;> cases hwrite
    rename_i opcode payload mask torn
    rw [decide_eq_true_iff]
    exact fun hopcode => hthread (if_pos hopcode)
  rw [batchWrites, writes_append h, SocketWrite.upToTorn_append, List.filter_append]
  split_ifs
  · rw [hnone, List.append_nil]
    rfl
  · rw [List.filter_nil, List.append_nil]
    rfl

/-! ## The batches -/

/-- The frames' numbers are those from `n` on. -/
def Numbered (n : ℕ) (frames : List Decoded) : Prop :=
  ∀ (i : ℕ) (h : i < frames.length), (frames[i]).sequence.toInt = n + i

theorem numbered_nil (n : ℕ) : Numbered n [] := fun _ h => absurd h (Nat.not_lt_zero _)

theorem Numbered.append {n : ℕ} {frames more : List Decoded} (h : Numbered n frames)
    (hmore : Numbered (n + frames.length) more) : Numbered n (frames ++ more) := by
  intro i hi
  rcases Nat.lt_or_ge i frames.length with hlt | hge
  · rw [List.getElem_append_left hlt]
    exact h i hlt
  · rw [List.length_append] at hi
    rw [List.getElem_append_right hge, hmore _ (by omega)]
    omega

/-- The number the worker goes on with after `n` batches. -/
def Next (n : ℕ) (sequence : Int64) : Prop := sequence.toInt = 4 * n ∧ 4 * n + 3 < 2 ^ 63

theorem Next.toInt_add {n i : ℕ} {sequence : Int64} (h : Next n sequence) (hi : i < 4) :
    (sequence + Int64.ofNat i).toInt = 4 * n + i := by
  obtain ⟨hsequence, hlt⟩ := h
  rw [Int64.toInt_add, Int64.toInt_ofNat_of_lt (by omega), hsequence,
    Int.bmod_eq_of_le_mul_two (by omega) (by omega)]

end CallAudio

/-- The frames the worker has for its next batch. -/
def UplinkPc.frames : UplinkPc → List Decoded
  | .reading _ frames => frames
  | .sending _ frames => frames
  | _ => []

/-- Where the worker may be after `n` batches. -/
def UplinkPc.After (n : ℕ) : UplinkPc → Prop
  | .absent => n = 0
  | .whileRunning sequence => CallAudio.Next n sequence
  | .reading sequence frames =>
    CallAudio.Next n sequence ∧ frames.length < 4 ∧ CallAudio.Numbered (4 * n) frames
  | .sending sequence frames =>
    CallAudio.Next n sequence ∧ frames.length = 4 ∧ CallAudio.Numbered (4 * n) frames
  | .failing sequence exhausted _ => exhausted = false → CallAudio.Next n sequence
  | .finished => True

namespace CallAudio

variable {c c' : CallAudio} {outcome : CallAudioOutcome} {new : List CallAudioAction}

/-- After a batch the worker goes on behind it, or has no numbers left. -/
theorem after_advance {n : ℕ} {sequence : Int64} (h : Next n sequence) :
    (advance sequence).After (n + 1) := by
  have hlast : (Int64.maxValue - Int64.ofNat AudioPacketCodec.maxBatchFrames).toInt
      = 2 ^ 63 - 5 := by decide
  have hfour : (Int64.ofNat AudioPacketCodec.maxBatchFrames).toInt = 4 := by decide
  obtain ⟨hsequence, hlt⟩ := h
  unfold advance
  split_ifs with hend
  · exact nofun
  · rw [gt_iff_lt, Int64.lt_iff_toInt_lt, hlast, hsequence] at hend
    refine ⟨?_, by omega⟩
    rw [Int64.toInt_add, hfour, hsequence, Int.bmod_eq_of_le_mul_two (by omega) (by omega)]
    omega

theorem frames_advance (sequence : Int64) : (advance sequence).frames = [] := by
  unfold advance
  split_ifs <;> rfl

/-- A frame that is taken in is the batch's next. -/
theorem after_capture {n : ℕ} {sequence : Int64} {frames : List Decoded} {packet : Decoded}
    (h : (UplinkPc.reading sequence frames).After n)
    (hpacket : packet.sequence = sequence + Int64.ofNat frames.length) :
    (c.capture sequence frames packet).After n := by
  obtain ⟨hnext, hlength, hnumbered⟩ := h
  have hmore : Numbered (4 * n) (frames ++ [packet]) := by
    refine hnumbered.append fun i hi => ?_
    obtain rfl : i = 0 := by simpa using hi
    rw [List.getElem_cons_zero, hpacket, hnext.toInt_add hlength]
    omega
  unfold capture AudioPacketCodec.maxBatchFrames
  split_ifs with hformat hroom
  · exact fun _ => hnext
  · exact ⟨hnext, by simpa using hroom, hmore⟩
  · exact ⟨hnext, by rw [List.length_append, List.length_singleton]; omega, hmore⟩

theorem frames_capture (sequence : Int64) (frames : List Decoded) (packet : Decoded) :
    (c.capture sequence frames packet).frames.Sublist (frames ++ [packet]) := by
  unfold capture
  split_ifs
  · exact List.nil_sublist _
  · exact List.Sublist.refl _
  · exact List.Sublist.refl _

/-- No write threw so far. -/
def Untorn (c : CallAudio) : Prop := ∀ write ∈ c.writes, write.torn = none

theorem Untorn.of_append (h : c'.log = c.log ++ new) (huntorn : c'.Untorn) : c.Untorn :=
  fun write hwrite => huntorn write (by rw [writes_append h]; exact List.mem_append_left _ hwrite)

/-- The batches on the wire: what the worker captured, numbered from 0 on. -/
structure Uplink (c : CallAudio) (batches : List (List Decoded)) : Prop where
  encoded : List.Forall₂ (fun batch write => encodeBatch batch = .ok write.payload) batches
    c.batchWrites
  length : ∀ batch ∈ batches, batch.length = 4
  numbered : Numbered 0 batches.flatten
  captured : (batches.flatten ++ c.uplink.frames).Sublist c.captured
  position : c.Untorn → c.uplink.After batches.length

variable {batches : List (List Decoded)}

theorem Uplink.length_flatten (h : Uplink c batches) :
    batches.flatten.length = 4 * batches.length := by
  have hlength := h.length
  clear h
  induction batches with
  | nil => rfl
  | cons batch batches ih =>
    rw [List.flatten_cons, List.length_append, hlength batch List.mem_cons_self,
      ih fun b hb => hlength b (List.mem_cons_of_mem _ hb), List.length_cons]
    omega

/-- A step that captures nothing and writes no batch. -/
theorem Uplink.goto (h : Uplink c batches) (hlog : c'.log = c.log ++ new)
    (hnew : ∀ a ∈ new, a.thread ≠ some .uplink)
    (hframes : c'.uplink.frames.Sublist c.uplink.frames)
    (hposition : ∀ n, c.uplink.After n → c'.uplink.After n) : Uplink c' batches where
  encoded := by rw [batchWrites_of_thread hlog hnew]; exact h.encoded
  length := h.length
  numbered := h.numbered
  captured := by
    rw [captured_of_thread hlog hnew]
    exact ((List.Sublist.refl _).append hframes).trans h.captured
  position huntorn := hposition _ (h.position (huntorn.of_append hlog))

theorem Uplink.quiet (h : Uplink c batches) (hquiet : Quiet c c') : Uplink c' batches := by
  obtain ⟨new, hlog, hnew⟩ := hquiet.log
  refine h.goto hlog (fun a ha => by rw [(hnew a ha).1]; exact nofun) ?_ fun n => ?_
  · rw [hquiet.uplink]
  · rw [hquiet.uplink]
    exact id

theorem Uplink.capture (h : Uplink c batches) {sequence : Int64} {frames : List Decoded}
    (hpc : c.uplink = .reading sequence frames) {packet : Decoded}
    (hpacket : packet.sequence = sequence + Int64.ofNat frames.length)
    (hlog : c'.log = c.log ++ [.captured packet])
    (huplink : c'.uplink = c.capture sequence frames packet) : Uplink c' batches := by
  have hcaptured : c'.captured = c.captured ++ [packet] := captured_append hlog
  have hwrites : c'.writes = c.writes := (writes_append hlog).trans (List.append_nil _)
  refine ⟨?_, h.length, h.numbered, ?_, fun huntorn => ?_⟩
  · unfold batchWrites
    rw [hwrites]
    exact h.encoded
  · rw [hcaptured]
    have hold := h.captured
    rw [hpc] at hold
    rw [huplink]
    refine ((List.Sublist.refl _).append (frames_capture sequence frames packet)).trans ?_
    rw [← List.append_assoc]
    exact hold.append (List.Sublist.refl _)
  · have hold := h.position (fun write hwrite => huntorn write (by rw [hwrites]; exact hwrite))
    rw [hpc] at hold
    rw [huplink]
    exact after_capture hold hpacket

/-- A batch is written, whether or not the write throws. -/
theorem Uplink.send (h : Uplink c batches) {sequence : Int64} {frames : List Decoded}
    (hpc : c.uplink = .sending sequence frames) {packet : List UInt8} {mask : MaskKey}
    {torn : Option ℕ} (hencode : encodeBatch frames = .ok packet)
    (hlog : c'.log = c.log ++ [.wrote WebSocketWire.opcodeBinary packet mask torn])
    (huplink : c'.uplink
      = if torn.isNone then advance sequence else .failing sequence false uplinkFailed) :
    ∃ batches', Uplink c' batches' := by
  have hwrites : c'.writes = c.writes ++ [⟨WebSocketWire.opcodeBinary, packet, mask, torn⟩] :=
    writes_append hlog
  have hcaptured : c'.captured = c.captured := (captured_append hlog).trans (List.append_nil _)
  have hframes : c'.uplink.frames = [] := by
    rw [huplink]
    split_ifs
    · exact frames_advance sequence
    · rfl
  have hold := h.captured
  rw [hpc] at hold
  by_cases huntorn : c.Untorn
  · obtain ⟨hnext, hlength, hnumbered⟩ : (UplinkPc.sending sequence frames).After batches.length :=
      hpc ▸ h.position huntorn
    have hwhole : ∀ write ∈ c.writes, write.torn = none := huntorn
    refine ⟨batches ++ [frames], ?_, fun batch hbatch => ?_, ?_, ?_, fun huntorn' => ?_⟩
    · have hbatch : c'.batchWrites
          = c.batchWrites ++ [⟨WebSocketWire.opcodeBinary, packet, mask, torn⟩] := by
        rw [batchWrites, hwrites, SocketWrite.upToTorn_append, if_pos hwhole, List.filter_append]
        simp [SocketWrite.upToTorn, batchWrites]
      rw [hbatch]
      exact List.rel_append h.encoded (.cons hencode .nil)
    · rcases List.mem_append.1 hbatch with hbatch | hbatch
      · exact h.length batch hbatch
      · rw [List.mem_singleton.1 hbatch]
        exact hlength
    · rw [List.flatten_append, List.flatten_singleton]
      refine h.numbered.append ?_
      rw [h.length_flatten, Nat.zero_add]
      exact hnumbered
    · rw [List.flatten_append, List.flatten_singleton, hframes, List.append_nil, hcaptured]
      exact hold
    · have hlast := huntorn'
      rw [Untorn, hwrites] at hlast
      have htorn : torn = none := hlast _ (List.mem_append_right _ List.mem_cons_self)
      rw [huplink, htorn, List.length_append, List.length_singleton]
      exact after_advance hnext
  · have htorn : ¬ ∀ write ∈ c.writes, write.torn = none := huntorn
    refine ⟨batches, ?_, h.length, h.numbered, ?_, fun huntorn' => ?_⟩
    · have hbatch : c'.batchWrites = c.batchWrites := by
        rw [batchWrites, hwrites, SocketWrite.upToTorn_append, if_neg htorn, List.append_nil]
        rfl
      rw [hbatch]
      exact h.encoded
    · rw [hframes, hcaptured]
      exact ((List.Sublist.refl _).append (List.nil_sublist _)).trans hold
    · exact absurd (huntorn'.of_append hlog) huntorn

/-- The worker goes on without a word to anyone. -/
theorem Uplink.turn (h : Uplink c batches) (hlog : c'.log = c.log)
    (hframes : c'.uplink.frames = [])
    (hposition : ∀ n, c.uplink.After n → c'.uplink.After n) : Uplink c' batches := by
  refine h.goto (hlog.trans (List.append_nil _).symm) (by simp) ?_ hposition
  rw [hframes]
  exact List.nil_sublist _

/-- A batch that is not sent leaves its number to the next. -/
theorem Uplink.drop (h : Uplink c batches) {sequence : Int64} {frames : List Decoded}
    (hpc : c.uplink = .sending sequence frames ∨ c.uplink = .reading sequence frames)
    (hlog : c'.log = c.log) (huplink : c'.uplink = .failing sequence false uplinkFailed) :
    Uplink c' batches := by
  refine h.turn hlog (by rw [huplink]; rfl) fun n hn => ?_
  rw [huplink]
  rcases hpc with hpc | hpc
  · rw [hpc] at hn
    exact fun _ => hn.1
  · rw [hpc] at hn
    exact fun _ => hn.1

theorem uplink_uplinkStep (h : Uplink c batches) (hstep : c.uplinkStep outcome = some c') :
    ∃ batches', Uplink c' batches' := by
  unfold uplinkStep at hstep
  split at hstep
  · cases hstep
  · rename_i sequence hpc
    obtain rfl := Option.some.inj hstep
    refine ⟨batches, h.turn rfl (by dsimp only; split_ifs <;> rfl) fun n hn => ?_⟩
    rw [hpc] at hn
    dsimp only
    split_ifs
    · exact ⟨hn, by decide, numbered_nil _⟩
    · trivial
  · rename_i sequence frames hpc
    split at hstep
    · split_ifs at hstep
      obtain rfl := Option.some.inj hstep
      exact ⟨batches, h.capture hpc rfl rfl rfl⟩
    · obtain rfl := Option.some.inj hstep
      exact ⟨batches, h.drop (.inr hpc) rfl rfl⟩
    · cases hstep
  · rename_i sequence frames hpc
    split at hstep
    · obtain rfl := Option.some.inj hstep
      exact ⟨batches, h.drop (.inl hpc) rfl rfl⟩
    · rename_i packet hencode
      obtain ⟨⟨sent, d⟩, hsend, rfl⟩ := Option.map_eq_some_iff.1 hstep
      unfold sendBinary at hsend
      split_ifs at hsend
      · obtain ⟨rfl, rfl⟩ := Prod.mk.inj (Option.some.inj hsend)
        exact ⟨batches, h.drop (.inl hpc) rfl rfl⟩
      · rcases writeFrame_cases hsend with ⟨-, rfl, rfl⟩ | ⟨mask, torn, -, rfl, rfl⟩
        · exact ⟨batches, h.drop (.inl hpc) rfl rfl⟩
        · exact h.send hpc hencode rfl rfl
  · rename_i sequence exhausted step hpc
    obtain ⟨⟨next, d⟩, hfail, rfl⟩ := Option.map_eq_some_iff.1 hstep
    obtain ⟨new, hlog, hnew⟩ := (quiet_fail hfail).log
    refine ⟨batches, h.goto hlog (fun a ha => by rw [(hnew a ha).1]; exact nofun) ?_ fun n hn => ?_⟩
    · dsimp only
      cases next <;> dsimp only <;> try split_ifs
      all_goals exact List.nil_sublist _
    · rw [hpc] at hn
      dsimp only
      cases next with
      | some step => exact hn
      | none =>
        dsimp only
        split_ifs with hexhausted
        · trivial
        · exact hn (Bool.eq_false_iff.2 hexhausted)
  · cases hstep

/-! ## Runs -/

/-- The worker begins once. -/
def Beginning (c : CallAudio) : Prop := c.owner.beginning = true → c.uplink = .absent

theorem beginning_step {event : CallAudioEvent} (h : c.Beginning) (hstep : c.step event = some c') :
    c'.Beginning := by
  unfold step at hstep
  split at hstep
  · split_ifs at hstep with howner hbegun
    · obtain rfl := Option.some.inj hstep
      exact h
    · obtain rfl := Option.some.inj hstep
      exact fun _ => Decidable.of_not_not fun hne => hbegun (.inr (.inr hne))
  · split_ifs at hstep
    · obtain rfl := Option.some.inj hstep
      exact h
    · obtain rfl := Option.some.inj hstep
      exact nofun
  · rcases ownerStep_cases hstep with
      ⟨-, rfl⟩ | ⟨-, rfl⟩ | ⟨-, rfl⟩ | ⟨d, hquiet, owner, rfl, hbegins, -⟩
    · exact nofun
    · exact nofun
    · exact nofun
    · exact fun howner => hquiet.uplink.trans (h (hbegins (OwnerPc.starting_of_beginning howner)))
  · intro howner
    have hstepOf := stepOf_uplink hstep
    rw [uplinkStep, h (hstepOf.owner ▸ howner)] at hstep
    cases hstep
  · have hstepOf := stepOf_receive hstep
    exact fun howner => (hstepOf.uplink nofun).trans (h (hstepOf.owner ▸ howner))
  · have hstepOf := stepOf_playout hstep
    exact fun howner => (hstepOf.uplink nofun).trans (h (hstepOf.owner ▸ howner))

/-- Another worker's step. -/
theorem Uplink.apart (h : Uplink c batches) {thread : CallAudioThread} (hthread : thread ≠ .uplink)
    (hstep : StepOf thread c c') : Uplink c' batches := by
  obtain ⟨new, hlog, hnew⟩ := hstep.log
  refine h.goto hlog (fun a ha => ?_) ?_ fun n => ?_
  · rcases (hnew a ha).1 with heq | heq <;> rw [heq]
    · exact nofun
    · exact fun heq => hthread (Option.some.inj heq)
  · rw [hstep.uplink hthread]
  · rw [hstep.uplink hthread]
    exact id

theorem uplink_step {event : CallAudioEvent} (hbeginning : c.Beginning) (h : Uplink c batches)
    (hstep : c.step event = some c') : ∃ batches', Uplink c' batches' := by
  have hstay : ∀ {d : CallAudio}, Uplink d batches → ∀ d' : CallAudio, d'.log = d.log →
      d'.uplink = d.uplink → Uplink d' batches := by
    intro d hd d' hlog huplink
    refine hd.goto (hlog.trans (List.append_nil _).symm) (by simp) ?_ fun n => ?_
    · rw [huplink]
    · rw [huplink]
      exact id
  unfold step at hstep
  split at hstep
  · split_ifs at hstep
    · obtain rfl := Option.some.inj hstep
      exact ⟨batches, h⟩
    · obtain rfl := Option.some.inj hstep
      exact ⟨batches, hstay h _ rfl rfl⟩
  · split_ifs at hstep
    · obtain rfl := Option.some.inj hstep
      exact ⟨batches, h⟩
    · obtain rfl := Option.some.inj hstep
      exact ⟨batches, hstay h _ rfl rfl⟩
  · rcases ownerStep_cases hstep with
      ⟨howner, rfl⟩ | ⟨-, rfl⟩ | ⟨-, rfl⟩ | ⟨d, hquiet, owner, rfl, -, -⟩
    · have habsent := hbeginning (by rw [howner]; rfl)
      refine ⟨batches, h.turn rfl rfl fun n hn => ?_⟩
      rw [habsent] at hn
      obtain rfl : n = 0 := hn
      exact ⟨rfl, by decide⟩
    · exact ⟨batches, hstay h _ rfl rfl⟩
    · exact ⟨batches, hstay h _ rfl rfl⟩
    · exact ⟨batches, hstay (h.quiet hquiet) _ rfl rfl⟩
  · exact uplink_uplinkStep h hstep
  · exact ⟨batches, h.apart (by decide) (stepOf_receive hstep)⟩
  · exact ⟨batches, h.apart (by decide) (stepOf_playout hstep)⟩

/-- What is logged can be written. -/
theorem lawful_step {event : CallAudioEvent} (h : ∀ a ∈ c.log, a.Lawful)
    (hstep : c.step event = some c') : ∀ a ∈ c'.log, a.Lawful := by
  have happend : ∀ {d : CallAudio} {new}, d.log = c.log ++ new → (∀ a ∈ new, a.Lawful) →
      ∀ a ∈ d.log, a.Lawful := by
    intro d new hlog hnew a ha
    rw [hlog] at ha
    rcases List.mem_append.1 ha with ha | ha
    · exact h a ha
    · exact hnew a ha
  have hworker : ∀ {thread : CallAudioThread}, StepOf thread c c' → ∀ a ∈ c'.log, a.Lawful := by
    intro thread hstepOf
    obtain ⟨new, hlog, hnew⟩ := hstepOf.log
    exact happend hlog fun a ha => (hnew a ha).2
  unfold step at hstep
  split at hstep
  · split_ifs at hstep <;> obtain rfl := Option.some.inj hstep <;> exact h
  · split_ifs at hstep <;> obtain rfl := Option.some.inj hstep <;> exact h
  · rcases ownerStep_cases hstep with
      ⟨-, rfl⟩ | ⟨-, rfl⟩ | ⟨-, rfl⟩ | ⟨d, hquiet, owner, rfl, -, -⟩
    · exact h
    · exact h
    · exact h
    · obtain ⟨new, hlog, hnew⟩ := hquiet.log
      exact happend hlog fun a ha => (hnew a ha).2
  · exact hworker (stepOf_uplink hstep)
  · exact hworker (stepOf_receive hstep)
  · exact hworker (stepOf_playout hstep)

variable {pump : CallAudioPump} {events : List CallAudioEvent} {s : CallAudio}

theorem uplink_run (hrun : callAudio.run (CallAudio.new pump) events = some s) :
    (∀ a ∈ s.log, a.Lawful) ∧ ∃ batches, Uplink s batches := by
  have hinv : s.Beginning ∧ (∀ a ∈ s.log, a.Lawful) ∧ ∃ batches, Uplink s batches := by
    refine callAudio.run_invariant (P := fun s : CallAudio =>
      s.Beginning ∧ (∀ a ∈ s.log, a.Lawful) ∧ ∃ batches, Uplink s batches)
      (fun t e t' ht hstep => ?_)
      ⟨fun _ => rfl, fun a ha => absurd ha List.not_mem_nil, [], ?_⟩ hrun
    · obtain ⟨hbeginning, hlawful, batches, hbatches⟩ := ht
      exact ⟨beginning_step hbeginning hstep, lawful_step hlawful hstep,
        uplink_step hbeginning hbatches hstep⟩
    · exact ⟨.nil, nofun, numbered_nil 0, List.nil_sublist _, fun _ => rfl⟩
  exact hinv.2

/-! ## What is read off the wire -/

/-- A frame is what a write was to put on the wire. -/
structure Carries (write : SocketWrite) (frame : WebSocketFrame) : Prop where
  bytes : write.bytes = frame.bytes
  fin : frame.fin = true
  rsv : frame.rsv = 0
  mask : frame.mask.isSome
  opcode : (frame.opcode : ℕ) = write.opcode
  data : frame.data = write.payload

theorem exists_carries : ∀ {writes : List SocketWrite},
    (∀ write ∈ writes, WebSocketWire.validateOpcodeAndPayload write.opcode write.payload = .ok ()) →
      ∃ frames, List.Forall₂ Carries writes frames
  | [], _ => ⟨[], .nil⟩
  | write :: writes, h => by
    obtain ⟨frames, hframes⟩ := exists_carries fun w hw => h w (List.mem_cons_of_mem _ hw)
    obtain ⟨frame, hwrite, hfin, hrsv, hopcode, hmask, -, hdata⟩ :=
      WebSocketWire.exists_writeClientFrame (h write List.mem_cons_self) write.mask
    refine ⟨frame :: frames, .cons ⟨?_, hfin, hrsv, by rw [hmask]; rfl, hopcode, hdata⟩ hframes⟩
    rw [SocketWrite.bytes, hwrite]
    rfl

theorem flatMap_bytes : ∀ {writes : List SocketWrite} {frames : List WebSocketFrame},
    List.Forall₂ Carries writes frames →
      writes.flatMap SocketWrite.bytes = frames.flatMap WebSocketFrame.bytes
  | _, _, .nil => rfl
  | _, _, .cons h hrest => by
    rw [List.flatMap_cons, List.flatMap_cons, h.bytes, flatMap_bytes hrest]

theorem Carries.all : ∀ {writes : List SocketWrite} {frames : List WebSocketFrame},
    List.Forall₂ Carries writes frames →
      ∀ frame ∈ frames, frame.fin = true ∧ frame.rsv = 0 ∧ frame.mask.isSome
  | _, _, .nil, _, hframe => absurd hframe List.not_mem_nil
  | _, _, .cons h hrest, frame, hframe => by
    rcases List.mem_cons.1 hframe with rfl | hframe
    · exact ⟨h.fin, h.rsv, h.mask⟩
    · exact Carries.all hrest frame hframe

/-- The daemon takes a batch in as the frames it was made of. -/
theorem exists_received : ∀ {batches : List (List Decoded)} {writes : List SocketWrite}
    {frames : List WebSocketFrame},
    List.Forall₂ (fun batch write => encodeBatch batch = .ok write.payload) batches writes →
      List.Forall₂ Carries writes frames → (∀ batch ∈ batches, batch.length = 4) →
        ∃ heard : List (List AudioFrame),
          (frames.map fun frame => MediaTask.received (.binary frame.data))
            = heard.map (fun batch => .running (.pushing batch)) ∧
          (∀ batch ∈ heard, batch.length = 4) ∧ List.Forall₂ (List.Forall₂ SameFrame) heard batches
  | [], _, _, .nil, .nil, _ => ⟨[], rfl, nofun, .nil⟩
  | batch :: batches, write :: writes, frame :: frames, .cons hencode hencodes, .cons h hrest,
      hlength => by
    obtain ⟨heard, hheard, hfour, hsame⟩ := exists_received hencodes hrest fun batch hbatch =>
      hlength batch (List.mem_cons_of_mem _ hbatch)
    obtain ⟨packets, hbatch, hpayload, hframes⟩ :=
      AudioPacketCodec.exists_batch_of_encodeBatch hencode
    have hcount := hlength batch List.mem_cons_self
    rw [hframes, List.length_map] at hcount
    refine ⟨packets.map AudioPacket.frame :: heard, ?_, fun b hb => ?_, .cons ?_ hsame⟩
    · rw [List.map_cons, List.map_cons, hheard, h.data, hpayload, MediaTask.received_batch hbatch]
    · rcases List.mem_cons.1 hb with rfl | hb
      · rw [List.length_map]
        exact hcount
      · exact hfour b hb
    · rw [hframes]
      exact hbatch.sameFrames

theorem Numbered.of_append {n : ℕ} {frames more : List Decoded} (h : Numbered n (frames ++ more)) :
    Numbered n frames := by
  intro i hi
  have hold := h i (by rw [List.length_append]; omega)
  rwa [List.getElem_append_left hi] at hold

/-- Frames that are the same as numbered ones have their numbers. -/
theorem sequences_of_sameFrame : ∀ {n : ℕ} {heard : List AudioFrame} {given : List Decoded},
    List.Forall₂ SameFrame heard given → Numbered n given →
      heard.map (·.sequence.toNat) = List.range' n heard.length
  | _, _, _, .nil, _ => rfl
  | n, frame :: heard, packet :: given, .cons h hrest, hnumbered => by
    have hhead := hnumbered 0 (Nat.succ_pos _)
    rw [List.getElem_cons_zero] at hhead
    have htail : Numbered (n + 1) given := by
      intro i hi
      have hold := hnumbered (i + 1) (by simpa using hi)
      rw [List.getElem_cons_succ] at hold
      rw [hold]
      omega
    rw [List.map_cons, List.length_cons, List.range'_succ, sequences_of_sameFrame hrest htail]
    have hsequence := h.sequence
    rw [hhead] at hsequence
    congr 1
    omega

theorem valid_of_lawful (hlawful : ∀ a ∈ s.log, a.Lawful) :
    ∀ write ∈ s.writes,
      WebSocketWire.validateOpcodeAndPayload write.opcode write.payload = .ok () := by
  intro write hwrite
  obtain ⟨a, ha, hwrite⟩ := List.mem_filterMap.1 hwrite
  have hwritten := hlawful a ha
  cases a <;> cases hwrite
  exact hwritten

/-- Whatever the workers do, and however the writes and the session end: of the frames that can be
read off the wire, the daemon takes in the batches, and these are frames of the microphone's in
their order, numbered from 0 on without a gap. -/
theorem microphone_heard (hrun : callAudio.run (CallAudio.new pump) events = some s)
    {frames : List WebSocketFrame} {tail : List UInt8}
    (hread : s.wire = frames.flatMap WebSocketFrame.bytes ++ tail) :
    (∀ frame ∈ frames, frame.fin = true ∧ frame.rsv = 0 ∧ frame.mask.isSome) ∧
      ∃ heard : List (List AudioFrame),
        ((frames.filter fun frame => (frame.opcode : ℕ) = WebSocketWire.opcodeBinary).map
          fun frame => MediaTask.received (.binary frame.data))
            = heard.map (fun batch => .running (.pushing batch)) ∧
        (∀ batch ∈ heard, batch.length = 4) ∧
        heard.flatten.map (·.sequence.toNat) = List.range heard.flatten.length ∧
        ∃ given, List.Sublist given s.captured ∧ List.Forall₂ SameFrame heard.flatten given := by
  obtain ⟨hlawful, batches, h⟩ := uplink_run hrun
  obtain ⟨all, hall⟩ := exists_carries fun write hwrite =>
    valid_of_lawful hlawful write ((SocketWrite.upToTorn_isPrefix _).subset hwrite)
  have hprefix : frames <+: all := by
    refine WebSocketFrame.isPrefix_of_flatMap ?_
    rw [← flatMap_bytes hall]
    exact List.IsPrefix.trans ⟨tail, hread.symm⟩ (SocketWrite.sent_isPrefix s.writes)
  obtain ⟨rest, rfl⟩ := hprefix
  have hframes := List.forall₂_take_append _ frames rest hall
  refine ⟨Carries.all hframes, ?_⟩
  -- the batches among the frames that were read
  have hbinary : List.Forall₂ Carries
      (((SocketWrite.upToTorn s.writes).take frames.length).filter
        (·.opcode = WebSocketWire.opcodeBinary))
      (frames.filter fun frame => (frame.opcode : ℕ) = WebSocketWire.opcodeBinary) :=
    List.rel_filter (fun write frame hcarries => by simp [hcarries.opcode]) hframes
  obtain ⟨later, hlater⟩ := (List.take_prefix frames.length (SocketWrite.upToTorn s.writes)).filter
    (·.opcode = WebSocketWire.opcodeBinary)
  have hencoded := h.encoded
  rw [batchWrites, ← hlater] at hencoded
  have hread := List.forall₂_take_append _ _ _ hencoded
  obtain ⟨heard, hheard, hfour, hsame⟩ := exists_received hread hbinary fun batch hbatch =>
    h.length batch (List.mem_of_mem_take hbatch)
  have hflatten := List.rel_flatten hsame
  have hsplit := List.take_append_drop (((SocketWrite.upToTorn s.writes).take
    frames.length).filter (·.opcode = WebSocketWire.opcodeBinary)).length batches
  have hnumbered := h.numbered
  rw [← hsplit, List.flatten_append] at hnumbered
  refine ⟨heard, hheard, hfour, ?_, _, ?_, hflatten⟩
  · rw [sequences_of_sameFrame hflatten hnumbered.of_append, List.range_eq_range']
  · have hcaptured := h.captured
    rw [← hsplit, List.flatten_append, List.append_assoc] at hcaptured
    exact (List.sublist_append_left _ _).trans hcaptured

/-- A session's start, and its first batch. -/
def firstBatch : List CallAudioEvent :=
  [.start, .owner .done, .owner .done, .owner .done, .owner .done, .owner .done, .uplink .done,
    .uplink (.samples (List.replicate 60 0) 0), .uplink (.samples (List.replicate 60 0) 0),
    .uplink (.samples (List.replicate 60 0) 0), .uplink (.samples (List.replicate 60 0) 0),
    .uplink (.write (fun _ => 0x55) none)]

theorem microphone_heard_firstBatch :
    ∃ pump s frame heard, CallAudioPump.new 1 = .ok pump ∧
      callAudio.run (CallAudio.new pump) firstBatch = some s ∧
      s.wire = WebSocketFrame.bytes frame ∧
      MediaTask.received (.binary frame.data) = .running (.pushing heard) ∧
      heard.map (·.sequence.toNat) = [0, 1, 2, 3] := by
  obtain ⟨pump, hnew⟩ : ∃ pump, CallAudioPump.new 1 = .ok pump := ⟨_, rfl⟩
  have hwrites : (callAudio.run (CallAudio.new pump) firstBatch).map (fun s : CallAudio =>
      (s.writes.map SocketWrite.opcode, s.writes.map SocketWrite.torn)) = some ([2], [none]) := by
    obtain rfl := Except.ok.inj hnew
    decide +kernel
  obtain ⟨s, hrun, hwrites⟩ := Option.map_eq_some_iff.1 hwrites
  obtain ⟨hopcodes, htorns⟩ := Prod.mk.inj hwrites
  obtain ⟨write, hwrites⟩ : ∃ write, s.writes = [write] := by
    rw [← List.length_eq_one_iff, ← List.length_map, hopcodes]
    rfl
  rw [hwrites] at hopcodes htorns
  obtain ⟨frames, hcarries⟩ := exists_carries (valid_of_lawful (uplink_run hrun).1)
  rw [hwrites] at hcarries
  obtain ⟨frame, rest, hframe, hrest, rfl⟩ := List.forall₂_cons_left_iff.1 hcarries
  obtain rfl := List.forall₂_nil_left_iff.1 hrest
  have hwire : s.wire = WebSocketFrame.bytes frame := by
    have htorn : write.torn = none := by simpa using htorns
    rw [wire, hwrites, SocketWrite.upToTorn, if_pos htorn, ← hframe.bytes]
    simp [SocketWrite.upToTorn, SocketWrite.sent, htorn]
  have hopcode : (frame.opcode : ℕ) = WebSocketWire.opcodeBinary := by
    rw [hframe.opcode]
    exact (List.cons.inj hopcodes).1
  have hread : s.wire = [frame].flatMap WebSocketFrame.bytes ++ [] := by simp [hwire]
  obtain ⟨-, heard, hheard, hfour, hsequences, -⟩ := microphone_heard hrun hread
  rw [List.filter_cons_of_pos (by simpa using hopcode)] at hheard
  obtain ⟨batch, rfl⟩ : ∃ batch, heard = [batch] := by
    rw [← List.length_eq_one_iff, ← List.length_map, ← hheard]
    rfl
  have hlength := hfour batch List.mem_cons_self
  refine ⟨pump, s, frame, batch, hnew, hrun, hwire, (List.cons.inj hheard).1, ?_⟩
  rw [List.flatten_singleton, hlength] at hsequences
  exact hsequences

end CallAudio

end AnalogConnect
