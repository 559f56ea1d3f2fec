import Mathlib.Data.List.Chain
import Mathlib.Data.List.GetD
import AnalogConnect.MediaStream
import AnalogConnect.Proofs.AudioPacket

/-!
# What a batch decodes to

Both decoders take a message of packets apart into the packets' frames exactly when each frame
follows the one before it: the daemon's never gives frames that do not (`decodeAudioBatch_chain`),
and both give back what was put in when they do (`decodeAudioBatch_packetsBytes`,
`AudioPacketCodec.decodeBatch_packetsBytes`).
-/

namespace AnalogConnect

/-- The frame after `a` in a stream. -/
def Follows (a b : AudioFrame) : Prop :=
  b.format = a.format ∧ b.sequence.toNat = a.sequence.toNat + 1

/-- The bytes of the packets, one after the other. -/
def packetsBytes (packets : List AudioPacket) : List UInt8 :=
  packets.flatMap fun packet => packet.encode.toOption.getD []

@[simp] theorem packetsBytes_nil : packetsBytes [] = [] := rfl

theorem packetsBytes_cons {packet : AudioPacket} {packets : List AudioPacket} {bytes : List UInt8}
    (h : packet.encode = .ok bytes) :
    packetsBytes (packet :: packets) = bytes ++ packetsBytes packets := by
  rw [packetsBytes, List.flatMap_cons, h]
  rfl

/-- The packets of `frames`, one after the other. -/
def batchBytes (captureTime : UInt64) (frames : List AudioFrame) : List UInt8 :=
  frames.flatMap fun frame => ((AudioPacket.mk captureTime frame).encode.toOption).getD []

@[simp] theorem batchBytes_nil (captureTime : UInt64) : batchBytes captureTime [] = [] := rfl

theorem batchBytes_eq (captureTime : UInt64) (frames : List AudioFrame) :
    batchBytes captureTime frames = packetsBytes (frames.map (AudioPacket.mk captureTime)) := by
  rw [packetsBytes, List.flatMap_map]
  rfl

theorem batchBytes_snoc {captureTime : UInt64} {frame : AudioFrame} {frames : List AudioFrame}
    {bytes : List UInt8} (h : (AudioPacket.mk captureTime frame).encode = .ok bytes) :
    batchBytes captureTime (frames ++ [frame]) = batchBytes captureTime frames ++ bytes := by
  rw [batchBytes, List.flatMap_append, List.flatMap_singleton, h]
  rfl

/-- A packet's length is the one its format byte announces. -/
theorem mediaPacketBytes_of_encode {packet : AudioPacket} {bytes : List UInt8}
    (h : packet.encode = .ok bytes) : mediaPacketBytes (bytes.getD 5 0) = some bytes.length := by
  rw [AudioPacket.length_encode h]
  rcases AudioPacket.eq_of_formatByte (AudioPacket.getD_encode h) with ⟨hf, hb⟩ | ⟨hf, hb⟩ <;>
    rw [hf, hb] <;> rfl

theorem length_encode_ge {packet : AudioPacket} {bytes : List UInt8}
    (h : packet.encode = .ok bytes) : 144 ≤ bytes.length := by
  rw [AudioPacket.length_encode h]
  rcases AudioPacket.eq_of_formatByte (AudioPacket.getD_encode h) with ⟨hf, -⟩ | ⟨hf, -⟩ <;>
    rw [hf] <;> decide

theorem getD_append_of_encode {packet : AudioPacket} {bytes : List UInt8}
    (h : packet.encode = .ok bytes) (rest : List UInt8) :
    (bytes ++ rest).getD 5 0 = bytes.getD 5 0 := by
  have := length_encode_ge h
  rw [List.getD_append _ _ _ _ (by omega)]

theorem checkedSucc_of_follows {a b : AudioFrame} (h : Follows a b) :
    checkedSucc a.sequence = some b.sequence := by
  have hb := b.sequence.toNat_lt
  have hlt : a.sequence.toNat + 1 < 2 ^ 64 := h.2 ▸ hb
  unfold checkedSucc
  rw [if_pos hlt, Option.some.injEq, ← UInt64.toNat_inj, UInt64.toNat_add, h.2]
  simp only [UInt64.toNat_one]
  exact Nat.mod_eq_of_lt hlt

theorem sequence_of_follows {a b : AudioFrame} (h : Follows a b) :
    b.sequence = a.sequence + 1 := by
  have hs := checkedSucc_of_follows h
  unfold checkedSucc at hs
  split_ifs at hs
  exact (Option.some.inj hs).symm

theorem toNat_of_checkedSucc {sequence next : UInt64} (h : checkedSucc sequence = some next) :
    next.toNat = sequence.toNat + 1 := by
  unfold checkedSucc at h
  split_ifs at h with hlt
  rw [← Option.some.inj h, UInt64.toNat_add]
  simp only [UInt64.toNat_one]
  exact Nat.mod_eq_of_lt hlt

/-! ## The daemon's decoder -/

/-- The frames a decoded message holds follow one another, the first the ones before it. -/
theorem decodeAudioFrames_chain : ∀ {n : ℕ} {bytes rest : List UInt8} {format : Option AudioFormat}
    {sequence : Option UInt64} {frames : List AudioFrame},
    decodeAudioFrames n bytes format sequence = .ok (frames, rest) →
      frames.IsChain Follows ∧
        ∀ frame ∈ frames.head?, (∀ f ∈ format, f = frame.format)
          ∧ ∀ s ∈ sequence, s = frame.sequence
  | 0, bytes, rest, format, sequence, frames, h => by
    simp only [decodeAudioFrames, Except.ok.injEq, Prod.mk.injEq] at h
    simp [← h.1]
  | n + 1, bytes, rest, format, sequence, frames, h => by
    unfold decodeAudioFrames at h
    split_ifs at h with hnil hshort
    · simp only [Except.ok.injEq, Prod.mk.injEq] at h
      simp [← h.1]
    split at h
    · simp at h
    rename_i packetBytes hbytes
    split_ifs at h with hend
    split at h
    · simp at h
    rename_i packet hpacket
    split_ifs at h with hexpected hlast
    split at h
    · simp at h
    rename_i tail rest' htail
    simp only [Except.ok.injEq, Prod.mk.injEq] at h
    obtain ⟨rfl, rfl⟩ := h
    obtain ⟨hchain, hhead⟩ := decodeAudioFrames_chain htail
    simp only [not_or, Option.any_eq_true, decide_eq_true_eq, not_exists, not_and, ne_eq,
      not_not] at hexpected
    refine ⟨?_, ?_⟩
    · cases tail with
      | nil => exact List.isChain_singleton _
      | cons next tail =>
        refine List.isChain_cons_cons.2 ⟨?_, hchain⟩
        obtain ⟨hformat, hsequence⟩ := hhead next rfl
        refine ⟨(hformat _ rfl).symm, ?_⟩
        cases hs : checkedSucc packet.frame.sequence with
        | some s => rw [← hsequence s hs, toNat_of_checkedSucc hs]
        | none =>
          -- the last frame the sequence numbers allow ends the message
          have hlen : packetBytes = bytes.length := by
            by_contra hne
            exact hlast ⟨by rw [hs]; rfl, hne⟩
          rw [hlen, List.drop_length] at htail
          cases n <;> simp [decodeAudioFrames] at htail
    · rintro frame hframe
      simp only [List.head?_cons, Option.mem_def, Option.some.injEq] at hframe
      subst hframe
      exact hexpected

/-- Frames that follow one another come back from the packets written for them. -/
theorem decodeAudioFrames_packetsBytes : ∀ {packets : List AudioPacket} {n : ℕ}
    {format : Option AudioFormat} {sequence : Option UInt64}, packets.length ≤ n →
    (∀ packet ∈ packets, packet.frame.Encodable) →
    (packets.map AudioPacket.frame).IsChain Follows →
    (∀ frame ∈ (packets.map AudioPacket.frame).head?, (∀ f ∈ format, f = frame.format)
      ∧ ∀ s ∈ sequence, s = frame.sequence) →
    decodeAudioFrames n (packetsBytes packets) format sequence
      = .ok (packets.map AudioPacket.frame, [])
  | [], n, format, sequence, _, _, _, _ => by
    cases n <;> simp [decodeAudioFrames]
  | packet :: packets, 0, format, sequence, hn, _, _, _ => by
    simp at hn
  | packet :: packets, n + 1, format, sequence, hn, hencodable, hchain, hhead => by
    obtain ⟨bytes, hbytes⟩ := AudioPacket.exists_encode (hencodable packet List.mem_cons_self)
    have hlen := length_encode_ge hbytes
    obtain ⟨hformat, hsequence⟩ := hhead packet.frame rfl
    rw [List.map_cons] at hchain
    have hfit : ¬ bytes.length > (bytes ++ packetsBytes packets).length := by
      rw [List.length_append]
      omega
    have hexpected : ¬ (format.any (· ≠ packet.frame.format)
        ∨ sequence.any (· ≠ packet.frame.sequence)) := by
      simp only [not_or, Option.any_eq_true, decide_eq_true_eq, not_exists, not_and, ne_eq,
        not_not]
      exact ⟨hformat, hsequence⟩
    have hlast : ¬ ((checkedSucc packet.frame.sequence).isNone ∧
        bytes.length ≠ (bytes ++ packetsBytes packets).length) := by
      rintro ⟨hnone, hne⟩
      cases packets with
      | nil => simp at hne
      | cons next packets =>
        rw [List.map_cons] at hchain
        rw [checkedSucc_of_follows (List.isChain_cons_cons.1 hchain).1] at hnone
        simp at hnone
    have hnext : ∀ next ∈ (packets.map AudioPacket.frame).head?,
        (∀ f ∈ some packet.frame.format, f = next.format)
          ∧ ∀ s ∈ checkedSucc packet.frame.sequence, s = next.sequence := by
      intro next hnext
      have hfollows := hchain.rel_head? hnext
      refine ⟨?_, ?_⟩
      · rintro f hf
        rw [← Option.some.inj hf, hfollows.1]
      · rintro s hs
        rw [checkedSucc_of_follows hfollows] at hs
        exact (Option.some.inj hs).symm
    have ih : decodeAudioFrames n (packetsBytes packets) (some packet.frame.format)
        (checkedSucc packet.frame.sequence) = .ok (packets.map AudioPacket.frame, []) :=
      decodeAudioFrames_packetsBytes (by simpa using hn)
        (fun p hp => hencodable p (List.mem_cons_of_mem _ hp)) hchain.tail hnext
    rw [packetsBytes_cons hbytes, decodeAudioFrames, if_neg, if_neg, getD_append_of_encode hbytes,
      mediaPacketBytes_of_encode hbytes]
    · simp only [List.take_left, List.drop_left, AudioPacket.decode_encode hbytes, if_neg hfit,
        if_neg hexpected, if_neg hlast, ih, List.map_cons]
    · rw [List.length_append]
      omega
    · intro hnil
      rw [List.append_eq_nil_iff] at hnil
      simp [hnil.1] at hlen

theorem decodeAudioBatch_chain {bytes : List UInt8} {frames : List AudioFrame}
    (h : decodeAudioBatch bytes = .ok frames) : frames.IsChain Follows := by
  unfold decodeAudioBatch at h
  split at h
  · simp at h
  · rename_i decoded rest hdecoded
    split_ifs at h
    rw [Except.ok.injEq] at h
    exact h ▸ (decodeAudioFrames_chain hdecoded).1

theorem decodeAudioBatch_packetsBytes {packets : List AudioPacket} (hne : packets ≠ [])
    (hlen : packets.length ≤ maxMediaFramesPerMessage)
    (hencodable : ∀ packet ∈ packets, packet.frame.Encodable)
    (hchain : (packets.map AudioPacket.frame).IsChain Follows) :
    decodeAudioBatch (packetsBytes packets) = .ok (packets.map AudioPacket.frame) := by
  rw [decodeAudioBatch, decodeAudioFrames_packetsBytes hlen hencodable hchain (by simp)]
  simp [hne]

theorem decodeAudioBatch_batchBytes {captureTime : UInt64} {frames : List AudioFrame}
    (hne : frames ≠ []) (hlen : frames.length ≤ maxMediaFramesPerMessage)
    (hencodable : ∀ frame ∈ frames, frame.Encodable) (hchain : frames.IsChain Follows) :
    decodeAudioBatch (batchBytes captureTime frames) = .ok frames := by
  have hframes : (frames.map (AudioPacket.mk captureTime)).map AudioPacket.frame = frames := by
    rw [List.map_map]
    exact List.map_id frames
  rw [batchBytes_eq, decodeAudioBatch_packetsBytes, hframes]
  · simpa using hne
  · simpa using hlen
  · simpa using hencodable
  · rw [hframes]
    exact hchain

/-! ## The phone's decoder -/

namespace AudioPacketCodec

theorem expectedSamples_of_encode {packet : AudioPacket} {bytes : List UInt8}
    (h : packet.encode = .ok bytes) :
    ∃ expected, expectedSamples (bytes.getD 5 0).toNat = .ok expected
      ∧ expectedSamples (decodedOf packet).format = .ok expected
      ∧ headerBytes + expected * 2 = bytes.length := by
  refine ⟨_, expectedSamples_of_formatByte (AudioPacket.getD_encode h), ?_,
    (AudioPacket.length_encode h).symm⟩
  unfold decodedOf
  rcases AudioPacket.eq_of_formatByte (AudioPacket.getD_encode h) with ⟨hf, -⟩ | ⟨hf, -⟩ <;>
    rw [hf] <;> rfl

theorem decodeFrames_packetsBytes : ∀ {packets : List AudioPacket} {n : ℕ},
    packets.length ≤ n → (∀ packet ∈ packets, packet.frame.Encodable) →
    decodeFrames n (packetsBytes packets) = .ok (packets.map decodedOf, [])
  | [], n, _, _ => by
    cases n <;> simp [decodeFrames]
  | packet :: packets, 0, hn, _ => by
    simp at hn
  | packet :: packets, n + 1, hn, hencodable => by
    obtain ⟨bytes, hbytes⟩ := AudioPacket.exists_encode (hencodable packet List.mem_cons_self)
    have hlen := length_encode_ge hbytes
    obtain ⟨expected, hexpected, -, hpacket⟩ := expectedSamples_of_encode hbytes
    have hfit : ¬ bytes.length > (bytes ++ packetsBytes packets).length := by
      rw [List.length_append]
      omega
    have ih : decodeFrames n (packetsBytes packets) = .ok (packets.map decodedOf, []) :=
      decodeFrames_packetsBytes (by simpa using hn)
        fun p hp => hencodable p (List.mem_cons_of_mem _ hp)
    rw [packetsBytes_cons hbytes, decodeFrames, if_neg, if_neg, getD_append_of_encode hbytes,
      hexpected]
    · simp only [hpacket, if_neg hfit, List.take_left, List.drop_left, decode_encode hbytes, ih,
        List.map_cons]
    · rw [List.length_append]
      omega
    · intro hnil
      rw [List.append_eq_nil_iff] at hnil
      simp [hnil.1] at hlen

/-- The batch loop accepts frames that follow one another, whichever of them it starts from. -/
theorem validateFrom_chain {format : ℕ} {first : UInt64} :
    ∀ {packets : List AudioPacket} {index : ℕ}, (∀ packet ∈ packets, packet.frame.Encodable) →
    (packets.map AudioPacket.frame).IsChain Follows →
    (∀ packet ∈ packets.head?, (decodedOf packet).format = format
      ∧ packet.frame.sequence = first + UInt64.ofNat index) →
    validateFrom format first.toInt64 index (packets.map decodedOf) = .ok ()
  | [], index, _, _, _ => rfl
  | packet :: packets, index, hencodable, hchain, hhead => by
    obtain ⟨bytes, hbytes⟩ := AudioPacket.exists_encode (hencodable packet List.mem_cons_self)
    obtain ⟨expected, -, hexpected, -⟩ := expectedSamples_of_encode hbytes
    obtain ⟨hformat, hsequence⟩ := hhead packet rfl
    rw [List.map_cons] at hchain
    have hnext : ∀ next ∈ packets.head?, (decodedOf next).format = format
        ∧ next.frame.sequence = first + UInt64.ofNat (index + 1) := by
      intro next hnext
      have hfollows := hchain.rel_head? (by rw [List.head?_map, hnext]; rfl)
      refine ⟨?_, ?_⟩
      · rw [← hformat]
        simp only [decodedOf, hfollows.1]
      · rw [sequence_of_follows hfollows, hsequence, UInt64.ofNat_add, UInt64.add_assoc]
        rfl
    have ih : validateFrom format first.toInt64 (index + 1) (packets.map decodedOf) = .ok () :=
      validateFrom_chain (fun p hp => hencodable p (List.mem_cons_of_mem _ hp)) hchain.tail hnext
    rw [List.map_cons, validateFrom, if_neg, hexpected]
    · exact ih
    · simp only [not_or, ne_eq, not_not, hformat, true_and]
      simp only [decodedOf, hsequence]
      rfl

theorem validateBatch_packets {packets : List AudioPacket} (hne : packets ≠ [])
    (hlen : packets.length ≤ maxBatchFrames)
    (hencodable : ∀ packet ∈ packets, packet.frame.Encodable)
    (hchain : (packets.map AudioPacket.frame).IsChain Follows) :
    validateBatch (packets.map decodedOf) = .ok () := by
  obtain ⟨packet, tail, rfl⟩ := List.exists_cons_of_ne_nil hne
  rw [List.map_cons, validateBatch, if_neg (by simpa using hlen)]
  have hhead : ∀ p ∈ (packet :: tail).head?, (decodedOf p).format = (decodedOf packet).format
      ∧ p.frame.sequence = packet.frame.sequence + UInt64.ofNat 0 := by
    simp
  exact validateFrom_chain hencodable hchain hhead

theorem decodeBatch_packetsBytes {packets : List AudioPacket} (hne : packets ≠ [])
    (hlen : packets.length ≤ maxBatchFrames)
    (hencodable : ∀ packet ∈ packets, packet.frame.Encodable)
    (hchain : (packets.map AudioPacket.frame).IsChain Follows) :
    decodeBatch (packetsBytes packets) = .ok (packets.map decodedOf) := by
  have hshort : ¬ (packetsBytes packets).length < headerBytes + 60 * 2 := by
    obtain ⟨packet, tail, rfl⟩ := List.exists_cons_of_ne_nil hne
    obtain ⟨bytes, hbytes⟩ := AudioPacket.exists_encode (hencodable packet List.mem_cons_self)
    have := length_encode_ge hbytes
    rw [packetsBytes_cons hbytes, List.length_append, headerBytes]
    omega
  rw [decodeBatch, if_neg hshort, decodeFrames_packetsBytes hlen hencodable]
  simp only [ne_eq, not_true, List.map_eq_nil_iff, hne, or_self, if_false,
    validateBatch_packets hne hlen hencodable hchain]

theorem decodeBatch_batchBytes {captureTime : UInt64} {frames : List AudioFrame}
    (hne : frames ≠ []) (hlen : frames.length ≤ maxBatchFrames)
    (hencodable : ∀ frame ∈ frames, frame.Encodable) (hchain : frames.IsChain Follows) :
    decodeBatch (batchBytes captureTime frames)
      = .ok (frames.map fun frame => decodedOf ⟨captureTime, frame⟩) := by
  rw [batchBytes_eq, decodeBatch_packetsBytes, List.map_map]
  · rfl
  · simpa using hne
  · simpa using hlen
  · simpa using hencodable
  · rw [List.map_map]
    exact (List.map_id frames).symm ▸ hchain

end AudioPacketCodec

end AnalogConnect
