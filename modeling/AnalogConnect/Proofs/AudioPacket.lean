import AnalogConnect.AudioPacketCodec
import AnalogConnect.AudioPacket

/-!
# One packet format, two codecs

The daemon's packets decode to themselves, and the phone's codec reads off them what the daemon
put in: the format byte, and the sequence number and the capture time as signed words.
-/

namespace AnalogConnect

open Bytes

/-- What the phone holds of a packet: the two formats go by the numbers 1 and 2, and the words are
signed. -/
def decodedOf (packet : AudioPacket) : AudioPacketCodec.Decoded where
  format :=
    if packet.frame.format = .hfpNarrowband then AudioPacketCodec.formatNarrowband
    else AudioPacketCodec.formatWideband
  sequence := packet.frame.sequence.toInt64
  captureTimeMicros := packet.captureTimeMicros.toInt64
  samples := packet.frame.samples

theorem AudioFrame.new_self (frame : AudioFrame) :
    AudioFrame.new frame.sequence frame.format frame.samples = .ok frame := by
  have hs := frame.sampleRate_ne
  have hc := frame.channels_ne
  have hl := frame.length_samples
  unfold AudioFrame.new
  rw [dif_neg (by tauto)]

theorem AudioFrame.new_eq_ok {sequence : UInt64} {format : AudioFormat} {samples : List Int16}
    {frame : AudioFrame} (h : AudioFrame.new sequence format samples = .ok frame) :
    frame.sequence = sequence ∧ frame.format = format ∧ frame.samples = samples := by
  unfold AudioFrame.new at h
  split_ifs at h
  simp only [Except.ok.injEq] at h
  subst h
  exact ⟨rfl, rfl, rfl⟩

/-- A frame the packet codec can write. -/
def AudioFrame.Encodable (frame : AudioFrame) : Prop :=
  frame.format.IsHfp ∧ frame.sequence ≤ maxSequence

namespace AudioPacket

theorem eq_of_formatByte {format : AudioFormat} {byte : UInt8} (h : formatByte format = .ok byte) :
    format = .hfpNarrowband ∧ byte = 1 ∨ format = .hfpWideband ∧ byte = 2 := by
  unfold formatByte at h
  split_ifs at h with h₁ h₂
  · exact .inl ⟨h₁, (Except.ok.inj h).symm⟩
  · exact .inr ⟨h₂, (Except.ok.inj h).symm⟩

theorem formatByte_of_isHfp {format : AudioFormat} (h : format.IsHfp) :
    ∃ byte, formatByte format = .ok byte := by
  rcases h with rfl | rfl
  · exact ⟨1, by decide⟩
  · exact ⟨2, by decide⟩

/-- The byte a format goes by names it. -/
theorem formatOfByte_formatByte {format : AudioFormat} {byte : UInt8}
    (h : formatByte format = .ok byte) : formatOfByte byte = .ok format := by
  rcases eq_of_formatByte h with ⟨rfl, rfl⟩ | ⟨rfl, rfl⟩ <;> rfl

theorem encode_eq_ok {packet : AudioPacket} {bytes : List UInt8} :
    packet.encode = .ok bytes ↔ packet.frame.sequence ≤ maxSequence ∧
      ∃ byte, formatByte packet.frame.format = .ok byte ∧
        bytes = packetMagic ++ [packetVersion, byte, 0, 0] ++
          (u64BeBytes packet.frame.sequence ++ (u64BeBytes packet.captureTimeMicros ++
            packet.frame.samples.flatMap i16LeBytes)) := by
  unfold encode
  split_ifs with h
  · simp only [false_iff, not_and]
    exact fun hle => absurd h (by simpa using hle)
  · have hle : packet.frame.sequence ≤ maxSequence := by simpa using h
    split <;> rename_i hf
    · simp [hf]
    · simp only [hf, hle, Except.ok.injEq, true_and, exists_eq_left']
      exact eq_comm

theorem encodable_of_encode {packet : AudioPacket} {bytes : List UInt8}
    (h : packet.encode = .ok bytes) : packet.frame.Encodable := by
  obtain ⟨hseq, byte, hf, -⟩ := encode_eq_ok.1 h
  refine ⟨?_, hseq⟩
  rcases eq_of_formatByte hf with ⟨hf, -⟩ | ⟨hf, -⟩
  · exact .inl hf
  · exact .inr hf

theorem exists_encode {packet : AudioPacket} (h : packet.frame.Encodable) :
    ∃ bytes, packet.encode = .ok bytes := by
  obtain ⟨byte, hf⟩ := formatByte_of_isHfp h.1
  exact ⟨_, encode_eq_ok.2 ⟨h.2, byte, hf, rfl⟩⟩

/-- The payload of a format that has a byte is two bytes a sample. -/
theorem length_payload {packet : AudioPacket} {byte : UInt8}
    (h : formatByte packet.frame.format = .ok byte) :
    (packet.frame.samples.flatMap i16LeBytes).length
      = packet.frame.format.samplesPerChannel.toNat * 2 := by
  rw [length_flatMap_i16LeBytes, packet.frame.length_samples]
  rcases eq_of_formatByte h with ⟨h, -⟩ | ⟨h, -⟩ <;> rw [h] <;> rfl

/-- The header a packet's bytes start with. -/
theorem getD_encode {packet : AudioPacket} {bytes : List UInt8} (h : packet.encode = .ok bytes) :
    formatByte packet.frame.format = .ok (bytes.getD 5 0) := by
  obtain ⟨-, byte, hf, rfl⟩ := encode_eq_ok.1 h
  simpa [packetMagic] using hf

theorem length_encode {packet : AudioPacket} {bytes : List UInt8} (h : packet.encode = .ok bytes) :
    bytes.length = packetHeaderBytes + packet.frame.format.samplesPerChannel.toNat * 2 := by
  obtain ⟨-, byte, hf, rfl⟩ := encode_eq_ok.1 h
  simp only [List.length_append, length_u64BeBytes, length_payload hf, packetHeaderBytes]
  simp only [packetMagic, List.length_cons, List.length_nil]
  omega

section Layout

variable (version byte : UInt8) (sequence captureTime : UInt64) (payload : List UInt8)

/-- The fields of a packet, where both codecs look for them. -/
theorem layout :
    let bytes := packetMagic ++ [version, byte, 0, 0] ++
      (u64BeBytes sequence ++ (u64BeBytes captureTime ++ payload))
    bytes.length = packetHeaderBytes + payload.length ∧ bytes.take 4 = packetMagic
      ∧ bytes.getD 4 0 = version ∧ bytes.getD 5 0 = byte
      ∧ (bytes.drop 6).take 2 = [0, 0]
      ∧ u64OfBeBytes ((bytes.drop 8).take 8) = sequence
      ∧ u64OfBeBytes ((bytes.drop 16).take 8) = captureTime
      ∧ bytes.drop 24 = payload := by
  have h8 (k : ℕ) : List.drop (8 + k) (packetMagic ++ [version, byte, 0, 0] ++
      (u64BeBytes sequence ++ (u64BeBytes captureTime ++ payload)))
      = List.drop k (u64BeBytes sequence ++ (u64BeBytes captureTime ++ payload)) := by
    rw [← List.drop_drop]
    rfl
  have hlen : (packetMagic ++ [version, byte, 0, 0]).length = 8 := rfl
  refine ⟨?_, rfl, rfl, rfl, rfl, ?_, ?_, ?_⟩
  · simp only [List.length_append, length_u64BeBytes, packetHeaderBytes] at hlen ⊢
    omega
  · rw [h8 0, List.drop_zero, take_u64BeBytes_append, u64OfBeBytes_u64BeBytes]
  · rw [h8 8, drop_u64BeBytes_append _ _ 0, List.drop_zero, take_u64BeBytes_append,
      u64OfBeBytes_u64BeBytes]
  · rw [h8 16, drop_u64BeBytes_append _ _ 8, drop_u64BeBytes_append _ _ 0, List.drop_zero]

end Layout

/-- A packet's bytes decode to the packet. -/
theorem decode_encode {packet : AudioPacket} {bytes : List UInt8} (h : packet.encode = .ok bytes) :
    decode bytes = .ok packet := by
  obtain ⟨hseq, byte, hf, hbytes⟩ := encode_eq_ok.1 h
  have hpay := length_payload hf
  obtain ⟨hlen, hmagic, hversion, hbyte, hreserved, hsequence, hcapture, hpayload⟩ :=
    hbytes ▸ layout packetVersion byte packet.frame.sequence packet.captureTimeMicros
      (packet.frame.samples.flatMap i16LeBytes)
  have h67 : bytes.getD 6 0 = 0 ∧ bytes.getD 7 0 = 0 := hbytes ▸ ⟨rfl, rfl⟩
  have hheader : ¬ (bytes.length < packetHeaderBytes ∨ bytes.take 4 ≠ packetMagic
      ∨ bytes.getD 4 0 ≠ packetVersion ∨ bytes.getD 6 0 ≠ 0 ∨ bytes.getD 7 0 ≠ 0) := by
    simp only [hmagic, hversion, h67, hlen]
    simp
  rw [decode, if_neg hheader, hbyte, formatOfByte_formatByte hf]
  simp only [packetHeaderBytes, hpayload, hsequence, hcapture, hpay, ne_eq, not_true, if_false,
    i16sOfLeBytes_flatMap, AudioFrame.new_self]
  rw [if_neg (by simpa using hseq)]

end AudioPacket

namespace AudioPacketCodec

open AudioPacket

theorem expectedSamples_of_formatByte {format : AudioFormat} {byte : UInt8}
    (h : formatByte format = .ok byte) :
    expectedSamples byte.toNat = .ok format.samplesPerChannel.toNat := by
  rcases eq_of_formatByte h with ⟨rfl, rfl⟩ | ⟨rfl, rfl⟩ <;> rfl

/-- The numbers negative to the phone are those past the ones both platforms can hold. -/
theorem toInt64_lt_zero_iff {sequence : UInt64} :
    sequence.toInt64 < 0 ↔ maxSequence < sequence := by
  have hlt := sequence.toNat_lt
  have hmax : maxSequence.toNat = 0x7FFFFFFFFFFFFFFF := rfl
  have hzero : (0 : Int64).toInt = 0 := rfl
  rw [Int64.lt_iff_toInt_lt, ← Int64.toInt_toBitVec, UInt64.toBitVec_toInt64, hzero,
    BitVec.toInt_eq_toNat_cond, UInt64.toNat_toBitVec, UInt64.lt_iff_toNat_lt]
  split_ifs <;> omega

/-- A number both platforms can hold is the same to both. -/
theorem toInt_toInt64 {sequence : UInt64} (h : sequence ≤ maxSequence) :
    sequence.toInt64.toInt = sequence.toNat := by
  have hle : sequence.toNat ≤ maxSequence.toNat := h
  have hmax : maxSequence.toNat = 0x7FFFFFFFFFFFFFFF := rfl
  rw [← Int64.toInt_toBitVec, UInt64.toBitVec_toInt64, BitVec.toInt_eq_toNat_cond,
    UInt64.toNat_toBitVec, if_pos (by omega)]

/-- A sequence number both platforms can hold is not negative to the phone. -/
theorem not_toInt64_lt_zero {sequence : UInt64} (h : sequence ≤ maxSequence) :
    ¬ sequence.toInt64 < 0 := by
  rw [toInt64_lt_zero_iff, UInt64.not_lt]
  exact h

/-- The phone reads a packet of the daemon's as the packet it is. -/
theorem decode_encode {packet : AudioPacket} {bytes : List UInt8} (h : packet.encode = .ok bytes) :
    decode bytes = .ok (decodedOf packet) := by
  obtain ⟨hseq, byte, hf, hbytes⟩ := encode_eq_ok.1 h
  have hpay := length_payload hf
  obtain ⟨hlen, hmagic, hversion, hbyte, hreserved, hsequence, hcapture, hpayload⟩ :=
    hbytes ▸ layout packetVersion byte packet.frame.sequence packet.captureTimeMicros
      (packet.frame.samples.flatMap i16LeBytes)
  have hformat : (decodedOf packet).format = byte.toNat := by
    unfold decodedOf
    rcases eq_of_formatByte hf with ⟨h₁, rfl⟩ | ⟨h₁, rfl⟩ <;> rw [h₁] <;> rfl
  have hrest : (bytes.drop 8).length = 16 + packet.frame.format.samplesPerChannel.toNat * 2 := by
    rw [List.length_drop, hlen, hpay, packetHeaderBytes]
    omega
  have hlong : ¬ bytes.length < headerBytes := by
    rw [hlen, packetHeaderBytes, headerBytes]
    omega
  rw [decode, if_neg hlong, hmagic, if_neg (by decide), hversion, if_neg (by decide), hreserved,
    if_neg (by decide), hbyte, expectedSamples_of_formatByte hf]
  simp only [hrest, hsequence, hcapture, hpayload, ne_eq, not_true, if_false,
    not_toInt64_lt_zero hseq, i16sOfLeBytes_flatMap, ← hformat]
  rfl

end AudioPacketCodec

end AnalogConnect
