import AnalogConnect.CallAudioPump
import AnalogConnect.Library.Interpolation

/-!
# Concealment and recovery do not wrap

A concealed frame goes from the last sample written to the next packet's first, and a recovered
packet's beginning is blended with the last sample written. Both interpolate between two samples,
and what is between samples is one, so that the cast to `short` changes nothing
(`interpolation_does_not_wrap`).
-/

namespace AnalogConnect

open AudioPacketCodec (Decoded formatWideband)
open Interpolation

/-- Integers between samples are samples. -/
theorem toInt_ofInt_of_mem_uIcc {a b : Int16} {x : ℤ} (h : x ∈ Set.uIcc a.toInt b.toInt) :
    (Int16.ofInt x).toInt = x := by
  have hlo : (-2 ^ 15 : ℤ) ≤ a.toInt ⊓ b.toInt := le_inf a.le_toInt b.le_toInt
  have hhi : a.toInt ⊔ b.toInt < 2 ^ 15 := max_lt a.toInt_lt b.toInt_lt
  exact Int16.toInt_ofInt_of_le (hlo.trans h.1) (h.2.trans_lt hhi)

namespace CallAudioPump

variable (pump : CallAudioPump)

/-- The sample a concealed frame leads to. -/
def endSample : Int16 := (pump.jitter.peekNext.map fun next => next.samples.headD 0).getD 0

/-- The sample a concealed frame starts from. -/
def startSample : Int16 := if pump.playedDownlink then pump.lastDownlinkSample else pump.endSample

/-- How many samples of a packet are blended. -/
def transitionSamples (packet : Decoded) : ℕ :=
  min packet.samples.length (if pump.wireFormat = formatWideband then 24 else 12)

theorem samplesPerFrame_pos : 0 < pump.config.samplesPerFrame := by
  have h := pump.supported
  unfold AudioDeviceConfig.forWireFormat at h
  split_ifs at h <;> simp_all [← Except.ok.inj h]

variable {pump}

theorem concealed_eq : pump.concealMissingFrame.1.samples =
    (List.range pump.config.samplesPerFrame).map fun index => Int16.ofInt
      (lerp pump.startSample.toInt pump.endSample.toInt pump.config.samplesPerFrame
        (index + 1)) := by
  unfold concealMissingFrame lerp
  simp only [Nat.cast_add, Nat.cast_one]
  rfl

/-- No cast of a concealed frame wraps. -/
theorem toInt_concealed : pump.concealMissingFrame.1.samples.map Int16.toInt =
    (List.range pump.config.samplesPerFrame).map fun index =>
      lerp pump.startSample.toInt pump.endSample.toInt pump.config.samplesPerFrame
        (index + 1) := by
  rw [concealed_eq, List.map_map]
  refine List.map_congr_left fun index hindex => ?_
  exact toInt_ofInt_of_mem_uIcc (lerp_mem_uIcc pump.samplesPerFrame_pos (List.mem_range.1 hindex))

theorem concealed_between {sample : Int16} (h : sample ∈ pump.concealMissingFrame.1.samples) :
    sample.toInt ∈ Set.uIcc pump.startSample.toInt pump.endSample.toInt := by
  have hmem := List.mem_map_of_mem (f := Int16.toInt) h
  rw [toInt_concealed, List.mem_map] at hmem
  obtain ⟨index, hindex, heq⟩ := hmem
  rw [← heq]
  exact lerp_mem_uIcc pump.samplesPerFrame_pos (List.mem_range.1 hindex)

theorem concealed_mono (h : pump.startSample.toInt ≤ pump.endSample.toInt) :
    (pump.concealMissingFrame.1.samples.map Int16.toInt).Pairwise (· ≤ ·) := by
  rw [toInt_concealed, List.pairwise_map]
  exact List.pairwise_lt_range.imp fun hlt =>
    lerp_mono pump.samplesPerFrame_pos h (Nat.succ_le_succ hlt.le)

theorem concealed_anti (h : pump.endSample.toInt ≤ pump.startSample.toInt) :
    (pump.concealMissingFrame.1.samples.map Int16.toInt).Pairwise (· ≥ ·) := by
  rw [toInt_concealed, List.pairwise_map]
  exact List.pairwise_lt_range.imp fun hlt =>
    lerp_anti pump.samplesPerFrame_pos h (Nat.succ_le_succ hlt.le)

theorem concealed_last : pump.concealMissingFrame.1.samples.getLast? = some pump.endSample := by
  have hpos := pump.samplesPerFrame_pos
  rw [concealed_eq, List.getLast?_map, List.getLast?_range, if_neg hpos.ne', Option.map_some,
    Nat.sub_add_cancel hpos, lerp_last hpos, Int16.ofInt_toInt]

/-- A sample of the transition, blended without wrapping. -/
theorem smoothed_eq {packet : Decoded} {index : ℕ} {sample : Int16}
    (hindex : index < pump.transitionSamples packet)
    (hsample : packet.samples[index]? = some sample) :
    ∃ smooth, (pump.smoothRecovery packet).samples[index]? = some smooth ∧
      smooth.toInt = blend pump.lastDownlinkSample.toInt sample.toInt
        (pump.transitionSamples packet) (index + 1) := by
  have hblend : blend pump.lastDownlinkSample.toInt sample.toInt (pump.transitionSamples packet)
      (index + 1) ∈ Set.uIcc pump.lastDownlinkSample.toInt sample.toInt :=
    blend_mem_uIcc (Nat.zero_lt_of_lt hindex) hindex
  refine ⟨_, ?_, toInt_ofInt_of_mem_uIcc hblend⟩
  unfold smoothRecovery
  rw [List.getElem?_mapIdx, hsample, Option.map_some]
  change some (if index < pump.transitionSamples packet then _ else _) = _
  rw [if_pos hindex]
  rw [blend, Nat.cast_add, Nat.cast_one, ← sub_sub]
  rfl

/-- Every sample of a concealed frame, and of a recovery's transition, is what the interpolation
gives, between its ends; a concealed frame goes to its last sample in one direction, and a
transition ends with the packet's own. -/
theorem interpolation_does_not_wrap (pump : CallAudioPump) (packet : Decoded) :
    let concealed := pump.concealMissingFrame.1.samples
    let smoothed := (pump.smoothRecovery packet).samples
    let start := pump.startSample.toInt
    let stop := pump.endSample.toInt
    let count := pump.config.samplesPerFrame
    let transition := pump.transitionSamples packet
    (concealed.map Int16.toInt = (List.range count).map fun index =>
      lerp start stop count (index + 1)) ∧
    (∀ sample ∈ concealed, sample.toInt ∈ Set.uIcc start stop) ∧
    (start ≤ stop → (concealed.map Int16.toInt).Pairwise (· ≤ ·)) ∧
    (stop ≤ start → (concealed.map Int16.toInt).Pairwise (· ≥ ·)) ∧
    concealed.getLast? = some pump.endSample ∧
    (∀ index sample, index < transition → packet.samples[index]? = some sample →
      ∃ smooth, smoothed[index]? = some smooth ∧
        smooth.toInt = blend pump.lastDownlinkSample.toInt sample.toInt transition (index + 1) ∧
        smooth.toInt ∈ Set.uIcc pump.lastDownlinkSample.toInt sample.toInt) ∧
    (0 < transition → smoothed[transition - 1]? = packet.samples[transition - 1]?) := by
  refine ⟨toInt_concealed, fun sample => concealed_between, concealed_mono, concealed_anti,
    concealed_last, fun index sample hindex hsample => ?_, fun hpos => ?_⟩
  · obtain ⟨smooth, hsmooth, hvalue⟩ := smoothed_eq hindex hsample
    refine ⟨smooth, hsmooth, hvalue, ?_⟩
    rw [hvalue]
    exact blend_mem_uIcc (Nat.zero_lt_of_lt hindex) hindex
  · have hlast : pump.transitionSamples packet - 1 < packet.samples.length :=
      (Nat.sub_one_lt hpos.ne').trans_le (min_le_left _ _)
    obtain ⟨smooth, hsmooth, hvalue⟩ :=
      smoothed_eq (Nat.sub_one_lt hpos.ne') (List.getElem?_eq_getElem hlast)
    rw [Nat.sub_add_cancel hpos, blend_last hpos, Int16.toInt_inj] at hvalue
    rw [hsmooth, hvalue, List.getElem?_eq_getElem hlast]

end CallAudioPump

end AnalogConnect
