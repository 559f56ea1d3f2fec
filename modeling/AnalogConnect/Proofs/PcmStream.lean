import AnalogConnect.PcmStream
import AnalogConnect.Proofs.MediaStream

/-!
# PCM framing round trips

A reader's buffer is filled the same however its source cuts the bytes up, so what it makes of a
stream depends on the stream alone: every whole frame in turn, numbered from zero, then the end, or
a truncated frame where the stream ends inside one (`pcm_framing`). It stops before the sequence
number `u64::MAX` (`sequence_exhausted`).
-/

namespace AnalogConnect

open Bytes ChunkedSource

variable {format : AudioFormat} {reader : PcmFrameReader} {samples : List (List Int16)}
  {last : List (Except PcmStreamError (Option AudioFrame))}

namespace AudioFormat

theorem IsHfp.frameBytes_eq (h : format.IsHfp) :
    PcmFrameReader.frameBytes format = 2 * format.frameSamples ∧ 0 < format.frameSamples ∧
      format.sampleRateHz ≠ 0 ∧ format.channels ≠ 0 := by
  rcases h with rfl | rfl <;> decide

theorem IsHfp.validate (h : format.IsHfp) : validateHfpFormat format = .ok () := if_pos h

end AudioFormat

theorem checkedSucc_eq_some {sequence : UInt64} (h : sequence.toNat + 1 < 2 ^ 64) :
    checkedSucc sequence = some (sequence + 1) ∧
      (sequence + 1).toNat = sequence.toNat + 1 :=
  ⟨if_pos h, toNat_of_checkedSucc (if_pos h)⟩

theorem AudioFrame.new_ok (sequence : UInt64) (samples : List Int16) (h : format.IsHfp)
    (hsamples : samples.length = format.frameSamples) :
    ∃ frame, AudioFrame.new sequence format samples = .ok frame ∧ frame.samples = samples ∧
      frame.sequence = sequence ∧ frame.format = format := by
  obtain ⟨-, -, hrate, hchannels⟩ := h.frameBytes_eq
  unfold AudioFrame.new
  rw [dif_neg (by simp [hrate, hchannels, hsamples])]
  exact ⟨_, rfl, rfl, rfl, rfl⟩

namespace PcmFrameReader

/-- The reader returns frames with these samples, numbered from `start` on, and then `last`. -/
def ReadsThen (reader : PcmFrameReader) (start : ℕ) (samples : List (List Int16))
    (last : List (Except PcmStreamError (Option AudioFrame))) : Prop :=
  ∃ read : List AudioFrame,
    reader.readFrames (samples.length + last.length) =
      read.map (fun frame => .ok (some frame)) ++ last ∧
    read.map (·.samples) = samples ∧
    read.map (·.sequence.toNat) = List.range' start samples.length ∧
    ∀ frame ∈ read, frame.format = reader.format

/-- A whole frame is read, if there is a number after its own. -/
theorem readFrame_whole (h : reader.format.IsHfp) (hsound : Sound reader.source)
    (hbytes : frameBytes reader.format ≤ (delivered reader.source).length)
    (hsequence : reader.nextSequence.toNat + 1 < 2 ^ 64) :
    ∃ frame source, reader.readFrame = (.ok (some frame),
        { reader with source, nextSequence := reader.nextSequence + 1 }) ∧
      frame.samples =
        i16sOfLeBytes ((delivered reader.source).take (frameBytes reader.format)) ∧
      frame.sequence = reader.nextSequence ∧ frame.format = reader.format ∧
      delivered source = (delivered reader.source).drop (frameBytes reader.format) ∧
      Sound source := by
  obtain ⟨source, hfill, hdelivered, hsource⟩ := fill_full hsound [] hbytes
  obtain ⟨hframe, -⟩ := h.frameBytes_eq
  obtain ⟨frame, hnew, hsamples, hnumber, hformat⟩ := AudioFrame.new_ok reader.nextSequence _ h
    (length_i16sOfLeBytes reader.format.frameSamples
      ((delivered reader.source).take (frameBytes reader.format))
      (by rw [List.length_take]; omega))
  refine ⟨frame, source, ?_, hsamples, hnumber, hformat, hdelivered, hsource⟩
  unfold readFrame
  rw [hfill, List.nil_append]
  simp only [(checkedSucc_eq_some hsequence).1, hnew]

/-- The frame that would have the last number is not. -/
theorem readFrame_exhausted (hsound : Sound reader.source)
    (hbytes : frameBytes reader.format ≤ (delivered reader.source).length)
    (hsequence : reader.nextSequence.toNat + 1 = 2 ^ 64) :
    reader.readFrame.1 = .error .sequenceExhausted := by
  obtain ⟨source, hfill, -⟩ := fill_full hsound [] hbytes
  have hnone : checkedSucc reader.nextSequence = none := if_neg (by omega)
  unfold readFrame
  rw [hfill]
  simp only [hnone]

/-- Where less than a frame is left, the stream has ended, or a frame is cut off. -/
theorem readFrame_rest (hsound : Sound reader.source)
    (hbytes : (delivered reader.source).length < frameBytes reader.format) :
    reader.readFrame = (if delivered reader.source = [] then .ok none else .error .truncatedFrame,
      { reader with source := [] }) := by
  unfold readFrame
  rw [fill_ended hsound [] hbytes, List.nil_append]
  rcases delivered reader.source with - | ⟨first, rest⟩ <;> rfl

theorem readFrames_ended (h : reader.format.IsHfp) (hsound : Sound reader.source)
    (hended : delivered reader.source = []) (n : ℕ) :
    reader.readFrames n = List.replicate n (.ok none) := by
  induction n generalizing reader with
  | zero => rfl
  | succ n ih =>
    obtain ⟨hframe, hpos, -⟩ := h.frameBytes_eq
    have hread := readFrame_rest hsound (by rw [hended, List.length_nil]; omega)
    rw [readFrames, hread, if_pos hended, List.replicate_succ]
    exact congrArg _ (ih h (by simp [Sound]) rfl)

/-- The whole frames of a stream are read before what its rest comes to. -/
theorem readsThen_wholes {rest : List UInt8} :
    ∀ {wholes : List (List UInt8)} {reader : PcmFrameReader}, reader.format.IsHfp →
      Sound reader.source → delivered reader.source = wholes.flatten ++ rest →
      (∀ whole ∈ wholes, whole.length = frameBytes reader.format) →
      reader.nextSequence.toNat + wholes.length < 2 ^ 64 →
      (∀ reader' : PcmFrameReader, reader'.format = reader.format → Sound reader'.source →
        delivered reader'.source = rest →
        reader'.nextSequence.toNat = reader.nextSequence.toNat + wholes.length →
          reader'.readFrames last.length = last) →
      reader.ReadsThen reader.nextSequence.toNat (wholes.map i16sOfLeBytes) last
  | [], reader, _, hsound, hdelivered, _, _, hlast => by
    refine ⟨[], ?_, rfl, rfl, by simp⟩
    simpa using hlast reader rfl hsound hdelivered rfl
  | whole :: wholes, reader, h, hsound, hdelivered, hwholes, hfew, hlast => by
    have hwhole := hwholes whole List.mem_cons_self
    rw [List.flatten_cons, List.append_assoc] at hdelivered
    rw [List.length_cons] at hfew
    obtain ⟨frame, source, hread, hsamples, hnumber, hframe, hrest, hsource⟩ :=
      readFrame_whole h hsound (by rw [hdelivered, List.length_append]; omega) (by omega)
    rw [hdelivered, ← hwhole, List.drop_left] at hrest
    rw [hdelivered, ← hwhole, List.take_left] at hsamples
    have hnext : (reader.nextSequence + 1).toNat = reader.nextSequence.toNat + 1 :=
      (checkedSucc_eq_some (by omega)).2
    obtain ⟨read, hreads, hread₁, hread₂, hread₃⟩ := @readsThen_wholes rest wholes
      { reader with source, nextSequence := reader.nextSequence + 1 } h hsource hrest
      (fun w hw => hwholes w (List.mem_cons_of_mem whole hw)) (by rw [hnext]; omega)
      (fun reader' h₁ h₂ h₃ h₄ => hlast reader' h₁ h₂ h₃
        (by rw [h₄, hnext, List.length_cons]; omega))
    refine ⟨frame :: read, ?_, ?_, ?_, ?_⟩
    · rw [List.map_cons, List.length_cons, Nat.add_right_comm, readFrames, hread, hreads]
      rfl
    · rw [List.map_cons, List.map_cons, hsamples, hread₁]
    · rw [List.map_cons, List.map_cons, List.length_cons, List.range'_succ, hnumber, hread₂, hnext]
    · exact List.forall_mem_cons.2 ⟨hframe, hread₃⟩

theorem readFrames_add (n m : ℕ) (reader : PcmFrameReader) :
    ∃ later, reader.readFrames (n + m) = reader.readFrames n ++ later ∧
      (reader.readFrames n).length = n := by
  induction n generalizing reader with
  | zero => exact ⟨reader.readFrames m, by rw [Nat.zero_add]; rfl, rfl⟩
  | succ n ih =>
    obtain ⟨later, hlater, hlength⟩ := ih reader.readFrame.2
    refine ⟨later, ?_, ?_⟩
    · rw [Nat.add_right_comm, readFrames, hlater]
      rfl
    · rw [readFrames, List.length_cons, hlength]

/-- While there are samples to come, every read returns a frame. -/
theorem ReadsThen.ok {start n : ℕ} (h : reader.ReadsThen start samples last)
    (hn : n ≤ samples.length) :
    ∀ result ∈ reader.readFrames n, ∃ frame, result = .ok (some frame) := by
  obtain ⟨read, hread, hsamples, -⟩ := h
  obtain ⟨m, hm⟩ := Nat.exists_eq_add_of_le hn
  obtain ⟨later, hlater, hlength⟩ := readFrames_add n (m + last.length) reader
  have hle : (reader.readFrames n).length ≤
      (read.map fun frame => (Except.ok (some frame) : Except PcmStreamError _)).length := by
    have := congrArg List.length hsamples
    rw [List.length_map] at this
    rw [List.length_map]
    omega
  rw [hm, Nat.add_assoc, hlater] at hread
  intro result hresult
  have hmem := (List.prefix_of_prefix_length_le ⟨later, hread⟩ (List.prefix_append _ last)
    hle).subset hresult
  obtain ⟨frame, -, rfl⟩ := List.mem_map.1 hmem
  exact ⟨frame, rfl⟩

end PcmFrameReader

namespace PcmFrameWriter

/-- The samples of frames of the writer's format are written one frame after another. -/
theorem writeFrames_ok : ∀ {frames : List AudioFrame} {writer : PcmFrameWriter},
    (∀ frame ∈ frames, frame.format = writer.format) →
      writer.writeFrames frames = .ok { writer with
        written := writer.written ++
          (frames.map fun frame => frame.samples.flatMap i16LeBytes).flatten }
  | [], writer, _ => by simp [writeFrames]
  | frame :: frames, writer, h => by
    have hframe : writer.writeFrame frame none = (.ok (), { writer with
        written := writer.written ++ frame.samples.flatMap i16LeBytes }) :=
      if_neg (not_not.2 (h frame List.mem_cons_self))
    rw [writeFrames, hframe]
    dsimp only
    refine (@writeFrames_ok frames { writer with
      written := writer.written ++ frame.samples.flatMap i16LeBytes } fun f hf =>
        h f (List.mem_cons_of_mem frame hf)).trans ?_
    simp

end PcmFrameWriter

open PcmFrameReader

/-- Frames of one format that fewer sequence numbers than there are suffice for, written and read
back in any pieces, are the same frames, numbered from zero, and then the end; and a stream that
ends inside a frame gives its whole frames first, and then a truncated frame. -/
theorem pcm_framing (h : format.IsHfp) :
    (∀ frames : List AudioFrame, (∀ frame ∈ frames, frame.format = format) →
      frames.length < 2 ^ 64 →
      ∃ writer writer', PcmFrameWriter.new format = .ok writer ∧
        writer.writeFrames frames = .ok writer' ∧
        ∀ source, Sound source → delivered source = writer'.written → ∀ n,
          ∃ reader, PcmFrameReader.new source format = .ok reader ∧
            reader.ReadsThen 0 (frames.map (·.samples)) (List.replicate n (.ok none))) ∧
    ∀ (wholes : List (List UInt8)) (rest : List UInt8),
      (∀ whole ∈ wholes, whole.length = frameBytes format) → wholes.length < 2 ^ 64 →
      rest ≠ [] → rest.length < frameBytes format →
      ∀ source, Sound source → delivered source = wholes.flatten ++ rest →
        ∃ reader, PcmFrameReader.new source format = .ok reader ∧
          reader.ReadsThen 0 (wholes.map i16sOfLeBytes) [.error .truncatedFrame] := by
  obtain ⟨hframe, -⟩ := h.frameBytes_eq
  have hreader : ∀ source, PcmFrameReader.new source format = .ok ⟨source, format, 0⟩ := by
    intro source
    rw [PcmFrameReader.new, h.validate]
  have hwriter : PcmFrameWriter.new format = .ok ⟨[], format⟩ := by
    rw [PcmFrameWriter.new, h.validate]
  refine ⟨fun frames hframes hfew => ?_, fun wholes rest hwholes hfew hne hrest source hsound
    hdelivered => ⟨_, hreader source, ?_⟩⟩
  · refine ⟨_, _, hwriter, PcmFrameWriter.writeFrames_ok hframes,
      fun source hsound hdelivered n => ⟨_, hreader source, ?_⟩⟩
    have hsamples : frames.map (·.samples) =
        (frames.map fun frame => frame.samples.flatMap i16LeBytes).map i16sOfLeBytes := by
      rw [List.map_map]
      exact List.map_congr_left fun frame _ => (i16sOfLeBytes_flatMap frame.samples).symm
    rw [hsamples]
    refine @readsThen_wholes _ [] _ _ h hsound (hdelivered.trans (List.append_nil _).symm)
      (List.forall_mem_map.2 fun frame hmem => ?_) (by simpa using hfew)
      fun reader' hformat hsound' hended _ => ?_
    · rw [length_flatMap_i16LeBytes, frame.length_samples, hframes frame hmem]
      exact hframe.symm
    · rw [List.length_replicate]
      exact readFrames_ended (hformat ▸ h) hsound' hended n
  · refine readsThen_wholes h hsound hdelivered hwholes (by simpa using hfew)
      fun reader' hformat hsound' hrest' _ => ?_
    rw [List.length_singleton, readFrames, readFrame_rest hsound'
      (by rw [hrest', hformat]; exact hrest), hrest', if_neg hne]
    rfl

/-- A silent frame and a byte, in two pieces with an interrupted read between them. -/
theorem pcm_framing_cut_off : ∃ reader,
    PcmFrameReader.new [.chunk 0 (List.replicate 99 0), .interrupted,
      .chunk 0 (List.replicate 19 0 ++ [7])] .hfpNarrowband = .ok reader ∧
    reader.ReadsThen 0 ([List.replicate 120 0].map i16sOfLeBytes) [.error .truncatedFrame] :=
  (pcm_framing (.inl rfl)).2 [List.replicate 120 0] [7] (by simp [frameBytes]; rfl) (by simp)
    (by simp) (by decide) _ (by simp [Sound]) rfl

/-- Where there is a frame for each sequence number, the last is not read. -/
theorem sequence_exhausted (h : format.IsHfp) {wholes : List (List UInt8)} {whole : List UInt8}
    (hwholes : ∀ bytes ∈ wholes, bytes.length = frameBytes format)
    (hwhole : whole.length = frameBytes format) (hlength : wholes.length + 1 = 2 ^ 64)
    {source : List (Piece UInt8)} (hsound : Sound source)
    (hdelivered : delivered source = wholes.flatten ++ whole) :
    (⟨source, format, 0⟩ : PcmFrameReader).ReadsThen 0 (wholes.map i16sOfLeBytes)
      [.error .sequenceExhausted] := by
  refine readsThen_wholes h hsound hdelivered hwholes (by simp; omega)
    fun reader' hformat hsound' hrest hnext => ?_
  have hbytes : frameBytes reader'.format ≤ (delivered reader'.source).length := by
    rw [hrest, hformat, hwhole]
  have hlast : reader'.nextSequence.toNat + 1 = 2 ^ 64 := by
    rw [hnext, ← hlength]
    simp
  rw [List.length_singleton, readFrames, readFrame_exhausted hsound' hbytes hlast]
  rfl

/-- A silent frame for each sequence number, one after another: the read of the last fails. -/
theorem every_number_not_read : ∃ (frames : List AudioFrame) (source : List (Piece UInt8))
    (writer writer' : PcmFrameWriter) (reader : PcmFrameReader),
    (∀ frame ∈ frames, frame.format = .hfpNarrowband) ∧ frames.length = 2 ^ 64 ∧
    PcmFrameWriter.new .hfpNarrowband = .ok writer ∧ writer.writeFrames frames = .ok writer' ∧
    Sound source ∧ delivered source = writer'.written ∧
    PcmFrameReader.new source .hfpNarrowband = .ok reader ∧
    ¬ reader.ReadsThen 0 (frames.map (·.samples)) [.ok none] := by
  have h : AudioFormat.hfpNarrowband.IsHfp := .inl rfl
  obtain ⟨n, hn⟩ : ∃ n, n + 1 = 2 ^ 64 := ⟨2 ^ 64 - 1, by omega⟩
  obtain ⟨frame, -, -, -, hformat⟩ := AudioFrame.new_ok 0 (List.replicate 60 0) h rfl
  have hlength : (frame.samples.flatMap i16LeBytes).length = frameBytes .hfpNarrowband := by
    rw [length_flatMap_i16LeBytes, frame.length_samples, hformat]
    rfl
  rcases hbytes : frame.samples.flatMap i16LeBytes with - | ⟨first, rest⟩
  · rw [hbytes] at hlength
    cases hlength
  have hframes : ∀ f ∈ List.replicate (n + 1) frame, f.format = .hfpNarrowband := fun f hf =>
    (List.eq_of_mem_replicate hf) ▸ hformat
  have hwritten : ((List.replicate (n + 1) frame).map fun f => f.samples.flatMap i16LeBytes) =
      List.replicate (n + 1) (first :: rest) := by
    rw [List.map_replicate, hbytes]
  have hsound := sound_replicate_chunk (n + 1) first rest
  have hdelivered := delivered_replicate_chunk first rest (n + 1)
  refine ⟨List.replicate (n + 1) frame, List.replicate (n + 1) (.chunk first rest), ⟨[], _⟩, _,
    ⟨_, _, 0⟩, hframes, by rw [List.length_replicate, hn], rfl,
    PcmFrameWriter.writeFrames_ok hframes, hsound, ?_, rfl, fun hread => ?_⟩
  · rw [hwritten, List.nil_append]
    exact hdelivered
  · have hexhausted := @sequence_exhausted _ h (List.replicate n (first :: rest)) (first :: rest)
      (fun bytes hmem => by rw [List.eq_of_mem_replicate hmem, ← hbytes]; exact hlength)
      (by rw [← hbytes]; exact hlength) (by rw [List.length_replicate]; exact hn) _ hsound
      (by rw [hdelivered, List.replicate_succ']; simp)
    obtain ⟨read, hreads, -⟩ := hexhausted
    rw [List.length_map, List.length_replicate, List.length_singleton] at hreads
    obtain ⟨f, hf⟩ := hread.ok (n := n + 1) (by rw [List.length_map, List.length_replicate])
      (.error .sequenceExhausted) (by rw [hreads]; exact List.mem_concat_self)
    cases hf

end AnalogConnect
