import AnalogConnect.Proofs.AudioPacket

/-!
# The two codecs read the same packets

The bytes either codec accepts are laid out as a packet (`PacketLayout`), and bytes so laid out are
the encoding of the packet read off them. So the daemon writes a packet it decoded back as it was,
and neither codec accepts what the other rejects (`packet_format_bijection`).
-/

namespace AnalogConnect

open Bytes

/-- The bytes are laid out as a packet of the format. -/
structure PacketLayout (bytes : List UInt8) (format : AudioFormat) : Prop where
  length_eq : bytes.length = packetHeaderBytes + format.samplesPerChannel.toNat * 2
  magic : bytes.take 4 = packetMagic
  version : bytes.getD 4 0 = packetVersion
  format_eq : AudioPacket.formatOfByte (bytes.getD 5 0) = .ok format
  reserved : bytes.getD 6 0 = 0 ∧ bytes.getD 7 0 = 0
  sequence_le : u64OfBeBytes ((bytes.drop 8).take 8) ≤ maxSequence

section Bytes

variable {bytes : List UInt8}

theorem take_succ_getD {n : ℕ} (h : n < bytes.length) :
    bytes.take (n + 1) = bytes.take n ++ [bytes.getD n 0] := by
  rw [List.take_add_one, List.getD_eq_getElem?_getD, List.getElem?_eq_getElem h]
  rfl

/-- A packet's fields, in their order. -/
theorem eq_fields (h : packetHeaderBytes ≤ bytes.length) :
    bytes = bytes.take 4
        ++ [bytes.getD 4 0, bytes.getD 5 0, bytes.getD 6 0, bytes.getD 7 0]
      ++ ((bytes.drop 8).take 8 ++ ((bytes.drop 16).take 8 ++ bytes.drop 24)) := by
  unfold packetHeaderBytes at h
  have hhead : bytes.take 8 = bytes.take 4
      ++ [bytes.getD 4 0, bytes.getD 5 0, bytes.getD 6 0, bytes.getD 7 0] := by
    rw [take_succ_getD (by omega), take_succ_getD (by omega), take_succ_getD (by omega),
      take_succ_getD (by omega)]
    simp
  have hcapture : bytes.drop 16 = (bytes.drop 16).take 8 ++ bytes.drop 24 := by
    have := List.take_append_drop 8 (bytes.drop 16)
    rw [List.drop_drop] at this
    exact this.symm
  have hsequence : bytes.drop 8 = (bytes.drop 8).take 8 ++ bytes.drop 16 := by
    have := List.take_append_drop 8 (bytes.drop 8)
    rw [List.drop_drop] at this
    exact this.symm
  rw [← hhead, ← hcapture, ← hsequence, List.take_append_drop]

/-- The reserved word is zero when both its bytes are. -/
theorem reserved_eq_zero_iff (h : packetHeaderBytes ≤ bytes.length) :
    beNat ((bytes.drop 6).take 2) = 0 ↔ bytes.getD 6 0 = 0 ∧ bytes.getD 7 0 = 0 := by
  unfold packetHeaderBytes at h
  have hword : (bytes.drop 6).take 2 = [bytes.getD 6 0, bytes.getD 7 0] := by
    rw [List.take_drop, take_succ_getD (by omega), take_succ_getD (by omega), List.append_assoc,
      List.drop_append_of_le_length (by simp; omega), List.drop_eq_nil_of_le (by simp)]
    rfl
  rw [hword, ← UInt8.toNat_inj, ← UInt8.toNat_inj]
  simp only [beNat, List.reverse_cons, List.reverse_nil, List.nil_append, List.singleton_append,
    leNat]
  simp
  omega

end Bytes

section Format

variable {byte : UInt8} {format : AudioFormat}

theorem AudioPacket.eq_of_formatOfByte (h : AudioPacket.formatOfByte byte = .ok format) :
    byte = 1 ∧ format = .hfpNarrowband ∨ byte = 2 ∧ format = .hfpWideband := by
  unfold formatOfByte at h
  split_ifs at h with h₁ h₂
  · exact .inl ⟨h₁, (Except.ok.inj h).symm⟩
  · exact .inr ⟨h₂, (Except.ok.inj h).symm⟩

theorem AudioPacket.formatByte_of_formatOfByte (h : AudioPacket.formatOfByte byte = .ok format) :
    formatByte format = .ok byte := by
  rcases eq_of_formatOfByte h with ⟨rfl, rfl⟩ | ⟨rfl, rfl⟩ <;> rfl

/-- The phone knows the samples of the formats the daemon knows, and of no others. -/
theorem AudioPacketCodec.formatOfByte_of_expectedSamples {expected : ℕ}
    (h : expectedSamples byte.toNat = .ok expected) :
    ∃ format, AudioPacket.formatOfByte byte = .ok format
      ∧ expected = format.samplesPerChannel.toNat := by
  unfold expectedSamples at h
  split_ifs at h with h₁ h₂
  · obtain rfl : byte = 1 := UInt8.toNat_inj.1 h₁
    exact ⟨.hfpNarrowband, rfl, (Except.ok.inj h).symm⟩
  · obtain rfl : byte = 2 := UInt8.toNat_inj.1 h₂
    exact ⟨.hfpWideband, rfl, (Except.ok.inj h).symm⟩

end Format

/-! ## Both decoders accept packets only -/

section Layout

variable {bytes : List UInt8} {packet : AudioPacket} {format : AudioFormat}

theorem AudioPacket.layout_of_decode (h : AudioPacket.decode bytes = .ok packet) :
    PacketLayout bytes packet.frame.format := by
  unfold decode at h
  split_ifs at h with hheader
  simp only [not_or, not_lt, ne_eq, not_not] at hheader
  obtain ⟨hlen, hmagic, hversion, hreserved⟩ := hheader
  split at h
  · cases h
  rename_i format hformat
  dsimp only at h
  split_ifs at h with hpayload hsequence
  split at h
  · cases h
  rename_i frame hframe
  obtain rfl := Except.ok.inj h
  obtain ⟨-, hf, -⟩ := AudioFrame.new_eq_ok hframe
  rw [List.length_drop] at hpayload
  dsimp only
  rw [hf]
  exact ⟨by omega, hmagic, hversion, hformat, hreserved, UInt64.not_lt.1 hsequence⟩

theorem AudioPacketCodec.layout_of_decode {decoded : Decoded}
    (h : AudioPacketCodec.decode bytes = .ok decoded) : ∃ format, PacketLayout bytes format := by
  unfold decode at h
  split_ifs at h with hlen hmagic hversion hreserved
  dsimp only at h
  split at h
  · cases h
  rename_i expected hexpected
  split_ifs at h with hpayload hsequence
  obtain ⟨format, hformat, rfl⟩ := formatOfByte_of_expectedSamples hexpected
  rw [List.length_drop] at hpayload
  rw [toInt64_lt_zero_iff, UInt64.not_lt] at hsequence
  simp only [ne_eq, not_not, not_lt] at hlen hmagic hversion hreserved hpayload
  refine ⟨format, ?_, hmagic, hversion, hformat, (reserved_eq_zero_iff hlen).1 hreserved,
    hsequence⟩
  unfold headerBytes at hlen
  unfold packetHeaderBytes
  omega

/-- Bytes laid out as a packet are the encoding of one. -/
theorem PacketLayout.exists_packet (h : PacketLayout bytes format) :
    ∃ packet : AudioPacket, packet.encode = .ok bytes := by
  have hlen : packetHeaderBytes ≤ bytes.length := by
    rw [h.length_eq]
    omega
  have hpayload : (bytes.drop 24).length = 2 * format.samplesPerChannel.toNat := by
    rw [List.length_drop, h.length_eq, packetHeaderBytes]
    omega
  have hsamples : (i16sOfLeBytes (bytes.drop 24)).length = format.frameSamples := by
    rw [length_i16sOfLeBytes _ _ hpayload]
    rcases AudioPacket.eq_of_formatOfByte h.format_eq with ⟨-, rfl⟩ | ⟨-, rfl⟩ <;> rfl
  have hrate : format.sampleRateHz ≠ 0 ∧ format.channels ≠ 0 := by
    rcases AudioPacket.eq_of_formatOfByte h.format_eq with ⟨-, rfl⟩ | ⟨-, rfl⟩ <;> decide
  let frame : AudioFrame :=
    ⟨u64OfBeBytes ((bytes.drop 8).take 8), format, i16sOfLeBytes (bytes.drop 24), hrate.1,
      hrate.2, hsamples⟩
  refine ⟨⟨u64OfBeBytes ((bytes.drop 16).take 8), frame⟩, AudioPacket.encode_eq_ok.2
    ⟨h.sequence_le, _, AudioPacket.formatByte_of_formatOfByte h.format_eq, ?_⟩⟩
  have hword {k : ℕ} (hk : k + 8 ≤ packetHeaderBytes) : ((bytes.drop k).take 8).length = 8 := by
    rw [List.length_take, List.length_drop]
    omega
  have hpacked : (i16sOfLeBytes (bytes.drop 24)).flatMap i16LeBytes = bytes.drop 24 :=
    flatMap_i16sOfLeBytes _ _ hpayload
  dsimp only [frame]
  rw [u64BeBytes_u64OfBeBytes (hword (by decide)), u64BeBytes_u64OfBeBytes (hword (by decide)),
    hpacked, ← h.magic, ← h.version]
  exact (eq_fields hlen).trans (by rw [h.reserved.1, h.reserved.2])

end Layout

/-! ## Both encoders write the same packets -/

namespace AudioPacketCodec

/-- What the phone makes of its own reading of a packet. -/
def Decoded.encode (decoded : Decoded) : Except PacketException (List UInt8) :=
  AudioPacketCodec.encode decoded.format decoded.sequence decoded.captureTimeMicros decoded.samples

variable {bytes : List UInt8} {packet : AudioPacket} {decoded : Decoded}

/-- The phone writes a packet as the daemon does. -/
theorem encode_decodedOf (h : packet.encode = .ok bytes) :
    (decodedOf packet).encode = .ok bytes := by
  obtain ⟨hseq, byte, hf, rfl⟩ := AudioPacket.encode_eq_ok.1 h
  have hformat : (decodedOf packet).format = byte.toNat := by
    unfold decodedOf
    rcases AudioPacket.eq_of_formatByte hf with ⟨h₁, rfl⟩ | ⟨h₁, rfl⟩ <;> rw [h₁] <;> rfl
  have hsamples : packet.frame.samples.length
      = packet.frame.format.samplesPerChannel.toNat := by
    rw [packet.frame.length_samples]
    rcases AudioPacket.eq_of_formatByte hf with ⟨h₁, -⟩ | ⟨h₁, -⟩ <;> rw [h₁] <;> rfl
  unfold Decoded.encode encode
  rw [hformat, expectedSamples_of_formatByte hf]
  simp only [decodedOf, hsamples, not_toInt64_lt_zero hseq, if_false, ne_eq, not_true,
    UInt64.toUInt64_toInt64, UInt8.ofNat_toNat]
  rfl

theorem eq_of_expectedSamples {format expected : ℕ} (h : expectedSamples format = .ok expected) :
    format = formatNarrowband ∧ expected = 60 ∨ format = formatWideband ∧ expected = 120 := by
  unfold expectedSamples at h
  split_ifs at h with h₁ h₂
  · exact .inl ⟨h₁, (Except.ok.inj h).symm⟩
  · exact .inr ⟨h₂, (Except.ok.inj h).symm⟩

/-- What the phone can write is its reading of a packet of the daemon's. -/
theorem exists_packet_of_encode (h : decoded.encode = .ok bytes) :
    ∃ packet, decodedOf packet = decoded ∧ packet.encode = .ok bytes := by
  obtain ⟨format, sequence, captureTimeMicros, samples⟩ := decoded
  have hencode := h
  unfold Decoded.encode encode at h
  dsimp only at h
  split at h
  · cases h
  rename_i expected hexpected
  split_ifs at h with hseq hsamples
  have hle : sequence.toUInt64 ≤ maxSequence := by
    rw [← UInt64.not_lt, ← toInt64_lt_zero_iff, Int64.toInt64_toUInt64]
    exact hseq
  rw [ne_eq, not_not] at hsamples
  have hpacket : ∃ packet, decodedOf packet = ⟨format, sequence, captureTimeMicros, samples⟩ ∧
      packet.frame.Encodable := by
    rcases eq_of_expectedSamples hexpected with ⟨rfl, rfl⟩ | ⟨rfl, rfl⟩
    · exact ⟨⟨captureTimeMicros.toUInt64, sequence.toUInt64, .hfpNarrowband, samples, by decide,
        by decide, hsamples⟩, rfl, .inl rfl, hle⟩
    · exact ⟨⟨captureTimeMicros.toUInt64, sequence.toUInt64, .hfpWideband, samples, by decide,
        by decide, hsamples⟩, rfl, .inr rfl, hle⟩
  obtain ⟨packet, hdecoded, hencodable⟩ := hpacket
  obtain ⟨bytes', hbytes'⟩ := AudioPacket.exists_encode hencodable
  have hsame := encode_decodedOf hbytes'
  rw [hdecoded, hencode] at hsame
  refine ⟨packet, hdecoded, ?_⟩
  rw [hbytes', Except.ok.inj hsame]

end AudioPacketCodec

/-! ## The format is one -/

section Format

variable {bytes : List UInt8} {packet : AudioPacket}

/-- Bytes the daemon accepts are the encoding of what it accepts them as. -/
theorem AudioPacket.encode_decode (h : AudioPacket.decode bytes = .ok packet) :
    packet.encode = .ok bytes := by
  obtain ⟨packet', hpacket'⟩ := (layout_of_decode h).exists_packet
  have hsame := decode_encode hpacket'
  rw [h] at hsame
  rw [Except.ok.inj hsame]
  exact hpacket'

/-- Bytes the phone accepts are a packet, and it accepts them as that packet. -/
theorem AudioPacketCodec.exists_packet_of_decode {decoded : Decoded}
    (h : AudioPacketCodec.decode bytes = .ok decoded) :
    ∃ packet : AudioPacket, packet.encode = .ok bytes ∧ decodedOf packet = decoded := by
  obtain ⟨format, hlayout⟩ := layout_of_decode h
  obtain ⟨packet, hpacket⟩ := hlayout.exists_packet
  have hsame := decode_encode hpacket
  rw [h] at hsame
  exact ⟨packet, hpacket, (Except.ok.inj hsame).symm⟩

/-- A packet of an HFP format with a sequence number both platforms can hold is written alike by
both codecs and read back by both; bytes the daemon accepts are the encoding of what it accepts them
as, and the phone accepts them as the same packet; bytes the daemon rejects the phone rejects. -/
theorem packet_format_bijection :
    (∀ packet : AudioPacket, packet.frame.format.IsHfp → packet.frame.sequence ≤ maxSequence →
      ∃ bytes, packet.encode = .ok bytes ∧ (decodedOf packet).encode = .ok bytes
        ∧ AudioPacket.decode bytes = .ok packet
        ∧ AudioPacketCodec.decode bytes = .ok (decodedOf packet)) ∧
    (∀ decoded bytes, AudioPacketCodec.Decoded.encode decoded = .ok bytes →
      AudioPacketCodec.decode bytes = .ok decoded) ∧
    (∀ bytes packet, AudioPacket.decode bytes = .ok packet →
      packet.encode = .ok bytes ∧ AudioPacketCodec.decode bytes = .ok (decodedOf packet)) ∧
    ∀ bytes error, AudioPacket.decode bytes = .error error →
      ∃ exception, AudioPacketCodec.decode bytes = .error exception := by
  refine ⟨fun packet hformat hsequence => ?_, fun decoded bytes h => ?_, fun bytes packet h => ?_,
    fun bytes error h => ?_⟩
  · obtain ⟨bytes, hbytes⟩ := @AudioPacket.exists_encode packet ⟨hformat, hsequence⟩
    exact ⟨bytes, hbytes, AudioPacketCodec.encode_decodedOf hbytes,
      AudioPacket.decode_encode hbytes, AudioPacketCodec.decode_encode hbytes⟩
  · obtain ⟨packet, rfl, hpacket⟩ := AudioPacketCodec.exists_packet_of_encode h
    exact AudioPacketCodec.decode_encode hpacket
  · have hencode := AudioPacket.encode_decode h
    exact ⟨hencode, AudioPacketCodec.decode_encode hencode⟩
  · rcases hphone : AudioPacketCodec.decode bytes with exception | decoded
    · exact ⟨exception, rfl⟩
    · obtain ⟨packet, hpacket, -⟩ := AudioPacketCodec.exists_packet_of_decode hphone
      rw [AudioPacket.decode_encode hpacket] at h
      cases h

theorem packet_format_bijection_silence : ∃ packet : AudioPacket, ∃ bytes,
    packet.frame.samples = List.replicate 60 0 ∧ packet.frame.sequence = maxSequence ∧
    packet.encode = .ok bytes ∧ AudioPacketCodec.decode bytes = .ok (decodedOf packet) := by
  let frame : AudioFrame :=
    ⟨maxSequence, .hfpNarrowband, List.replicate 60 0, by decide, by decide, rfl⟩
  obtain ⟨bytes, hencode, -, -, hdecode⟩ :=
    packet_format_bijection.1 ⟨7, frame⟩ (.inl rfl) (UInt64.le_refl _)
  exact ⟨⟨7, frame⟩, bytes, rfl, rfl, hencode, hdecode⟩

end Format

end AnalogConnect
