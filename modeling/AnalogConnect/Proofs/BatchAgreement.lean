import AnalogConnect.Proofs.MediaStream
import AnalogConnect.Proofs.PacketAgreement

/-!
# The two batch decoders accept the same messages

A message either decoder accepts is one to four packets, of one format and with sequence numbers
that follow one another, and nothing else (`IsBatch`); both accept every such message. The daemon's
decoder checks a packet against the one before it as it reads, and the phone's checks the packets it
has read against the first.
-/

namespace AnalogConnect

/-- Packets that make a message. -/
structure IsBatch (packets : List AudioPacket) : Prop where
  ne_nil : packets ≠ []
  length_le : packets.length ≤ maxMediaFramesPerMessage
  encodable : ∀ packet ∈ packets, packet.frame.Encodable
  chain : (packets.map AudioPacket.frame).IsChain Follows

/-- What a packet and the packets read after it make. -/
theorem packets_cons {packet : AudioPacket} {packets : List AudioPacket} {bytes rest : List UInt8}
    {n k : ℕ} (hencode : packet.encode = .ok (bytes.take k))
    (hrest : bytes.drop k = packetsBytes packets ++ rest) (hlen : packets.length ≤ n)
    (hencodable : ∀ packet ∈ packets, packet.frame.Encodable) :
    bytes = packetsBytes (packet :: packets) ++ rest ∧ (packet :: packets).length ≤ n + 1 ∧
      ∀ p ∈ packet :: packets, p.frame.Encodable := by
  refine ⟨?_, Nat.succ_le_succ hlen, fun p hp => ?_⟩
  · rw [packetsBytes_cons hencode, List.append_assoc, ← hrest, List.take_append_drop]
  · rcases List.mem_cons.1 hp with rfl | hp
    · exact AudioPacket.encodable_of_encode hencode
    · exact hencodable p hp

/-! ## The daemon's decoder -/

/-- What the daemon's loop has read are packets. -/
theorem exists_packets_of_decodeAudioFrames : ∀ {n : ℕ} {bytes rest : List UInt8}
    {format : Option AudioFormat} {sequence : Option UInt64} {frames : List AudioFrame},
    decodeAudioFrames n bytes format sequence = .ok (frames, rest) →
    ∃ packets : List AudioPacket, frames = packets.map AudioPacket.frame
      ∧ bytes = packetsBytes packets ++ rest ∧ packets.length ≤ n
      ∧ ∀ packet ∈ packets, packet.frame.Encodable
  | 0, bytes, rest, format, sequence, frames, h => by
    simp only [decodeAudioFrames, Except.ok.injEq, Prod.mk.injEq] at h
    exact ⟨[], by simp [h.1.symm], by simp [h.2], le_rfl, by simp⟩
  | n + 1, bytes, rest, format, sequence, frames, h => by
    unfold decodeAudioFrames at h
    split_ifs at h with hnil hshort
    · simp only [Except.ok.injEq, Prod.mk.injEq] at h
      exact ⟨[], by simp [h.1.symm], by simp [h.2], Nat.zero_le _, by simp⟩
    split at h
    · cases h
    rename_i packetBytes hbytes
    split_ifs at h with hend
    split at h
    · cases h
    rename_i packet hpacket
    split_ifs at h with hexpected hlast
    split at h
    · cases h
    rename_i tail rest' htail
    simp only [Except.ok.injEq, Prod.mk.injEq] at h
    obtain ⟨rfl, rfl⟩ := h
    obtain ⟨packets, rfl, hrest, hlen, hencodable⟩ := exists_packets_of_decodeAudioFrames htail
    have hencode := AudioPacket.encode_decode hpacket
    exact ⟨packet :: packets, rfl, packets_cons hencode hrest hlen hencodable⟩

theorem exists_batch_of_decodeAudioBatch {bytes : List UInt8} {frames : List AudioFrame}
    (h : decodeAudioBatch bytes = .ok frames) :
    ∃ packets, IsBatch packets ∧ bytes = packetsBytes packets
      ∧ frames = packets.map AudioPacket.frame := by
  have hchain := decodeAudioBatch_chain h
  unfold decodeAudioBatch at h
  split at h
  · cases h
  rename_i decoded rest hdecoded
  split_ifs at h with hwhole
  obtain rfl := Except.ok.inj h
  rw [not_or, not_not] at hwhole
  obtain ⟨packets, rfl, hbytes, hlen, hencodable⟩ := exists_packets_of_decodeAudioFrames hdecoded
  refine ⟨packets, ⟨fun hnil => hwhole.1 (by rw [hnil]; rfl), hlen, hencodable, hchain⟩, ?_, rfl⟩
  rw [hbytes, hwhole.2, List.append_nil]

/-! ## The phone's decoder -/

namespace AudioPacketCodec

/-- What the phone's loop has read are packets. -/
theorem exists_packets_of_decodeFrames : ∀ {n : ℕ} {bytes rest : List UInt8}
    {frames : List Decoded}, decodeFrames n bytes = .ok (frames, rest) →
    ∃ packets : List AudioPacket, frames = packets.map decodedOf
      ∧ bytes = packetsBytes packets ++ rest ∧ packets.length ≤ n
      ∧ ∀ packet ∈ packets, packet.frame.Encodable
  | 0, bytes, rest, frames, h => by
    simp only [decodeFrames, Except.ok.injEq, Prod.mk.injEq] at h
    exact ⟨[], by simp [h.1.symm], by simp [h.2], le_rfl, by simp⟩
  | n + 1, bytes, rest, frames, h => by
    unfold decodeFrames at h
    split_ifs at h with hnil hshort
    · simp only [Except.ok.injEq, Prod.mk.injEq] at h
      exact ⟨[], by simp [h.1.symm], by simp [h.2], Nat.zero_le _, by simp⟩
    split at h
    · cases h
    rename_i expected hexpected
    dsimp only at h
    split_ifs at h with hend
    split at h
    · cases h
    rename_i frame hframe
    split at h
    · cases h
    rename_i tail rest' htail
    simp only [Except.ok.injEq, Prod.mk.injEq] at h
    obtain ⟨rfl, rfl⟩ := h
    obtain ⟨packets, rfl, hrest, hlen, hencodable⟩ := exists_packets_of_decodeFrames htail
    obtain ⟨packet, hencode, rfl⟩ := exists_packet_of_decode hframe
    exact ⟨packet :: packets, rfl, packets_cons hencode hrest hlen hencodable⟩

/-- A number both platforms can hold is followed, as a signed one, by the number after it. -/
theorem toNat_of_toInt64_eq {sequence next : UInt64} (h : sequence ≤ maxSequence)
    (hnext : next.toInt64 = sequence.toInt64 + 1) : next.toNat = sequence.toNat + 1 := by
  have heq : next = sequence + 1 := congrArg Int64.toUInt64 hnext
  have hle : sequence.toNat ≤ maxSequence.toNat := h
  have hmax : maxSequence.toNat = 0x7FFFFFFFFFFFFFFF := rfl
  rw [heq, UInt64.toNat_add]
  simp only [UInt64.toNat_one]
  omega

theorem format_eq_of_decodedOf {packet next : AudioPacket} (h : packet.frame.Encodable)
    (hnext : next.frame.Encodable) (hformat : (decodedOf next).format = (decodedOf packet).format) :
    next.frame.format = packet.frame.format := by
  unfold decodedOf at hformat
  dsimp only at hformat
  rcases h.1 with h | h <;> rcases hnext.1 with hn | hn <;> rw [h, hn] <;> rw [h, hn] at hformat
  · exact absurd hformat (by decide)
  · exact absurd hformat (by decide)

/-- Frames the phone's check lets pass follow one another. -/
theorem chain_of_validateFrom {format : ℕ} {first : Int64} : ∀ {packets : List AudioPacket}
    {index : ℕ}, (∀ packet ∈ packets, packet.frame.Encodable) →
    validateFrom format first index (packets.map decodedOf) = .ok () →
    (packets.map AudioPacket.frame).IsChain Follows ∧
      ∀ packet ∈ packets.head?, (decodedOf packet).format = format
        ∧ packet.frame.sequence.toInt64 = first + Int64.ofNat index
  | [], index, _, _ => by
    simp
  | packet :: packets, index, hencodable, h => by
    rw [List.map_cons, validateFrom] at h
    split_ifs at h with hsame
    split at h
    · cases h
    simp only [not_or, ne_eq, not_not] at hsame
    obtain ⟨hchain, hhead⟩ := chain_of_validateFrom
      (fun p hp => hencodable p (List.mem_cons_of_mem _ hp)) h
    refine ⟨?_, ?_⟩
    · cases packets with
      | nil => exact List.isChain_singleton _
      | cons next packets =>
        obtain ⟨hformat, hsequence⟩ := hhead next rfl
        have hpacket := hencodable packet List.mem_cons_self
        have hnext := hencodable next (List.mem_cons_of_mem _ List.mem_cons_self)
        rw [List.map_cons, List.map_cons]
        refine List.isChain_cons_cons.2 ⟨⟨?_, ?_⟩, hchain⟩
        · exact format_eq_of_decodedOf hpacket hnext (hformat.trans hsame.1.symm)
        · refine toNat_of_toInt64_eq hpacket.2 ?_
          rw [hsequence, Int64.ofNat_add, ← Int64.add_assoc]
          exact congrArg (· + 1) hsame.2.symm
    · intro p hp
      obtain rfl := Option.some.inj hp
      exact hsame

theorem isBatch_of_validateBatch {packets : List AudioPacket}
    (hencodable : ∀ packet ∈ packets, packet.frame.Encodable)
    (h : validateBatch (packets.map decodedOf) = .ok ()) : IsBatch packets := by
  cases packets with
  | nil => cases h
  | cons packet packets =>
    unfold validateBatch at h
    rw [List.map_cons] at h
    dsimp only at h
    split_ifs at h with hlen
    rw [← List.map_cons, List.length_map, not_lt] at hlen
    exact ⟨by simp, hlen, hencodable, (chain_of_validateFrom hencodable h).1⟩

theorem exists_batch_of_decodeBatch {bytes : List UInt8} {frames : List Decoded}
    (h : decodeBatch bytes = .ok frames) :
    ∃ packets, IsBatch packets ∧ bytes = packetsBytes packets
      ∧ frames = packets.map decodedOf := by
  unfold decodeBatch at h
  split_ifs at h with hshort
  split at h
  · cases h
  rename_i decoded rest hdecoded
  split_ifs at h with hwhole
  split at h
  · cases h
  rename_i hvalid
  obtain rfl := Except.ok.inj h
  rw [not_or, not_not] at hwhole
  obtain ⟨packets, rfl, hbytes, hlen, hencodable⟩ := exists_packets_of_decodeFrames hdecoded
  refine ⟨packets, isBatch_of_validateBatch hencodable hvalid, ?_, rfl⟩
  rw [hbytes, hwhole.1, List.append_nil]

/-! ## The phone's encoder -/

theorem encodeFrames_packets : ∀ {packets : List AudioPacket},
    (∀ packet ∈ packets, packet.frame.Encodable) →
    encodeFrames (packets.map decodedOf) = .ok (packetsBytes packets)
  | [], _ => rfl
  | packet :: packets, hencodable => by
    obtain ⟨bytes, hbytes⟩ := AudioPacket.exists_encode (hencodable packet List.mem_cons_self)
    have hphone : encode (decodedOf packet).format (decodedOf packet).sequence
        (decodedOf packet).captureTimeMicros (decodedOf packet).samples = .ok bytes :=
      encode_decodedOf hbytes
    rw [List.map_cons, encodeFrames, hphone,
      encodeFrames_packets fun p hp => hencodable p (List.mem_cons_of_mem _ hp),
      packetsBytes_cons hbytes]

theorem exists_packets_of_encodeFrames : ∀ {frames : List Decoded} {bytes : List UInt8},
    encodeFrames frames = .ok bytes →
    ∃ packets : List AudioPacket, frames = packets.map decodedOf ∧ bytes = packetsBytes packets
      ∧ ∀ packet ∈ packets, packet.frame.Encodable
  | [], bytes, h => ⟨[], rfl, (Except.ok.inj h).symm, by simp⟩
  | frame :: frames, bytes, h => by
    unfold encodeFrames at h
    split at h
    · cases h
    rename_i encoded hencoded
    split at h
    · cases h
    rename_i rest hrest
    obtain rfl := Except.ok.inj h
    obtain ⟨packet, rfl, hpacket⟩ := exists_packet_of_encode hencoded
    obtain ⟨packets, rfl, rfl, hencodable⟩ := exists_packets_of_encodeFrames hrest
    refine ⟨packet :: packets, rfl, (packetsBytes_cons hpacket).symm, fun p hp => ?_⟩
    rcases List.mem_cons.1 hp with rfl | hp
    · exact AudioPacket.encodable_of_encode hpacket
    · exact hencodable p hp

theorem encodeBatch_packets {packets : List AudioPacket} (h : IsBatch packets) :
    encodeBatch (packets.map decodedOf) = .ok (packetsBytes packets) := by
  rw [encodeBatch, validateBatch_packets h.ne_nil h.length_le h.encodable h.chain]
  exact encodeFrames_packets h.encodable

theorem exists_batch_of_encodeBatch {frames : List Decoded} {bytes : List UInt8}
    (h : encodeBatch frames = .ok bytes) :
    ∃ packets, IsBatch packets ∧ bytes = packetsBytes packets
      ∧ frames = packets.map decodedOf := by
  unfold encodeBatch at h
  split at h
  · cases h
  rename_i hvalid
  obtain ⟨packets, rfl, rfl, hencodable⟩ := exists_packets_of_encodeFrames h
  exact ⟨packets, isBatch_of_validateBatch hencodable hvalid, rfl, rfl⟩

end AudioPacketCodec

/-! ## Both decoders -/

/-- A frame of the daemon's and one of the phone's are the same. -/
structure SameFrame (frame : AudioFrame) (decoded : AudioPacketCodec.Decoded) : Prop where
  format : frame.format = .hfpNarrowband ∧ decoded.format = AudioPacketCodec.formatNarrowband
    ∨ frame.format = .hfpWideband ∧ decoded.format = AudioPacketCodec.formatWideband
  sequence : decoded.sequence.toInt = frame.sequence.toNat
  samples : decoded.samples = frame.samples

theorem sameFrame_decodedOf {packet : AudioPacket} (h : packet.frame.Encodable) :
    SameFrame packet.frame (decodedOf packet) := by
  refine ⟨?_, AudioPacketCodec.toInt_toInt64 h.2, rfl⟩
  unfold decodedOf
  dsimp only
  rcases h.1 with h | h
  · exact .inl ⟨h, if_pos h⟩
  · exact .inr ⟨h, if_neg (by rw [h]; decide)⟩

namespace IsBatch

variable {packets : List AudioPacket} (h : IsBatch packets)

include h

theorem sameFrames :
    List.Forall₂ SameFrame (packets.map AudioPacket.frame) (packets.map decodedOf) := by
  rw [List.forall₂_map_left_iff, List.forall₂_map_right_iff, List.forall₂_same]
  exact fun packet hpacket => sameFrame_decodedOf (h.encodable packet hpacket)

theorem decodeAudioBatch :
    AnalogConnect.decodeAudioBatch (packetsBytes packets)
      = .ok (packets.map AudioPacket.frame) :=
  decodeAudioBatch_packetsBytes h.ne_nil h.length_le h.encodable h.chain

theorem decodeBatch :
    AudioPacketCodec.decodeBatch (packetsBytes packets) = .ok (packets.map decodedOf) :=
  AudioPacketCodec.decodeBatch_packetsBytes h.ne_nil h.length_le h.encodable h.chain

end IsBatch

theorem decodeBatch_isOk_iff {bytes : List UInt8} :
    (∃ decoded, AudioPacketCodec.decodeBatch bytes = .ok decoded) ↔
      ∃ frames, decodeAudioBatch bytes = .ok frames := by
  constructor
  · rintro ⟨decoded, h⟩
    obtain ⟨packets, hbatch, rfl, -⟩ := AudioPacketCodec.exists_batch_of_decodeBatch h
    exact ⟨_, hbatch.decodeAudioBatch⟩
  · rintro ⟨frames, h⟩
    obtain ⟨packets, hbatch, rfl, -⟩ := exists_batch_of_decodeAudioBatch h
    exact ⟨_, hbatch.decodeBatch⟩

/-- Every message both decoders reject, or both accept as the same frames; a message the daemon
rejects leaves its uplink as it was; and what the phone makes a message of, one to four frames of
one format that follow one another, the daemon accepts as those frames. -/
theorem audio_batch_decoders_agree :
    (∀ bytes, (∃ error exception, decodeAudioBatch bytes = .error error
        ∧ AudioPacketCodec.decodeBatch bytes = .error exception) ∨
      ∃ frames decoded, decodeAudioBatch bytes = .ok frames
        ∧ AudioPacketCodec.decodeBatch bytes = .ok decoded
        ∧ List.Forall₂ SameFrame frames decoded) ∧
    (∀ uplink bytes clock error, decodeAudioBatch bytes = .error error →
      receiveUplinkPacket uplink bytes clock = (.error error, uplink)) ∧
    (∀ decoded bytes, AudioPacketCodec.encodeBatch decoded = .ok bytes →
      ∃ frames, decodeAudioBatch bytes = .ok frames ∧ List.Forall₂ SameFrame frames decoded) ∧
    ∀ packets, IsBatch packets →
      ∃ bytes, AudioPacketCodec.encodeBatch (packets.map decodedOf) = .ok bytes
        ∧ decodeAudioBatch bytes = .ok (packets.map AudioPacket.frame) := by
  refine ⟨fun bytes => ?_, fun uplink bytes clock error h => ?_, fun decoded bytes h => ?_,
    fun packets h => ⟨_, AudioPacketCodec.encodeBatch_packets h, h.decodeAudioBatch⟩⟩
  · rcases hdaemon : decodeAudioBatch bytes with error | frames
    · rcases hphone : AudioPacketCodec.decodeBatch bytes with exception | decoded
      · exact .inl ⟨error, exception, rfl, rfl⟩
      · obtain ⟨frames, hframes⟩ := decodeBatch_isOk_iff.1 ⟨decoded, hphone⟩
        rw [hdaemon] at hframes
        cases hframes
    · obtain ⟨packets, hbatch, rfl, rfl⟩ := exists_batch_of_decodeAudioBatch hdaemon
      exact .inr ⟨_, _, rfl, hbatch.decodeBatch, hbatch.sameFrames⟩
  · unfold receiveUplinkPacket
    rw [h]
  · obtain ⟨packets, hbatch, rfl, rfl⟩ := AudioPacketCodec.exists_batch_of_encodeBatch h
    exact ⟨_, hbatch.decodeAudioBatch, hbatch.sameFrames⟩

theorem audio_batch_decoders_agree_silence :
    (∃ bytes, AudioPacketCodec.encodeBatch
        [⟨1, 5, 7, List.replicate 60 0⟩, ⟨1, 6, 8, List.replicate 60 0⟩] = .ok bytes ∧
      ∃ frames, decodeAudioBatch bytes = .ok frames ∧ List.Forall₂ SameFrame frames
        [⟨1, 5, 7, List.replicate 60 0⟩, ⟨1, 6, 8, List.replicate 60 0⟩]) ∧
    (∃ uplink, BoundedAudioQueue.new 25 = .ok uplink ∧
      receiveUplinkPacket uplink [0x41] (fun _ => 5) = (.error .invalidPacket, uplink)) ∧
    ∃ frame : AudioFrame, frame.samples = List.replicate 60 0 ∧
      ∃ bytes, AudioPacketCodec.encodeBatch [decodedOf ⟨7, frame⟩] = .ok bytes
        ∧ decodeAudioBatch bytes = .ok [frame] := by
  refine ⟨⟨_, rfl, audio_batch_decoders_agree.2.2.1 _ _ rfl⟩,
    ⟨_, rfl, audio_batch_decoders_agree.2.1 _ _ _ _ rfl⟩, ?_⟩
  let frame : AudioFrame :=
    ⟨5, .hfpNarrowband, List.replicate 60 0, by decide, by decide, rfl⟩
  refine ⟨frame, rfl, audio_batch_decoders_agree.2.2.2 [⟨7, frame⟩] ⟨by simp, ?_, ?_, ?_⟩⟩
  · exact Nat.le_of_ble_eq_true rfl
  · exact fun packet hpacket => by
      rw [List.mem_singleton.1 hpacket]
      exact ⟨.inl rfl, by decide⟩
  · exact List.isChain_singleton frame

end AnalogConnect
