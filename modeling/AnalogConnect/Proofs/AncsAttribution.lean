import AnalogConnect.Proofs.AncsReassembly

/-!
# Whose answer it is

An answer is taken for the pending UID's, whatever UID it carries. What is pending is the UID of the
last request, and the buffer holds what the Data Source brought since; so the metadata of a UID come
from the answer at the front of what was received since its request (`metadata_attribution`).
-/

namespace AnalogConnect

namespace AncsProtocolConsumer

/-- What the calls brought from the Data Source. -/
def dataBytes (events : List AncsEvent) : List UInt8 := events.flatMap AncsEvent.received

/-- The last request of the run is the UID's, and `since` are the calls after the one that wrote
it. -/
def LastRequest (past since : List AncsEvent) (uid : NotificationUid) : Prop :=
  ∃ before asking state, past = before ++ asking :: since ∧
    ancsConsumer.run .default before = some state ∧
    state.request asking = some (attributeRequest uid) ∧
    ∀ t e, ancsConsumer.Before (state.step asking) since t e → t.request e = none

variable {past since : List AncsEvent} {c : AncsProtocolConsumer} {uid : NotificationUid}
  {e : AncsEvent}

/-- A call that writes no request leaves the last one as it was. -/
theorem LastRequest.snoc (last : LastRequest past since uid)
    (h : ancsConsumer.run .default past = some c) (hquiet : c.request e = none) :
    LastRequest (past ++ [e]) (since ++ [e]) uid := by
  obtain ⟨before, asking, state, rfl, hstate, hasked, hsince⟩ := last
  refine ⟨before, asking, state, by simp, hstate, hasked, fun t e' ht => ?_⟩
  have hrun : ancsConsumer.run (state.step asking) since = some c := by
    obtain ⟨t, ht, hrest⟩ := ancsConsumer.run_append_eq_some.1 h
    rw [hstate, Option.some.injEq] at ht
    subst ht
    exact hrest
  rcases (ancsConsumer.before_snoc hrun).1 ht with ht | ⟨rfl, rfl⟩
  · exact hsince t e' ht
  · exact hquiet

/-- What is pending was asked about last, and the buffer holds what came since. -/
theorem exists_lastRequest (h : ancsConsumer.run .default past = some c) :
    ∀ uid, c.pending = some uid →
      ∃ since, LastRequest past since uid ∧ c.response = dataBytes since := by
  refine ancsConsumer.run_history (P := fun past c => ∀ uid, c.pending = some uid →
    ∃ since, LastRequest past since uid ∧ c.response = dataBytes since) ?_ ?_ h
  · intro uid huid
    cases huid
  · intro past d e c hd ih hstep uid huid
    obtain rfl : d.step e = c := Option.some.inj hstep
    rcases (disciplined_of_run hd).request_cases e with ⟨hquiet, hsame⟩ |
      ⟨uid', hasked, hpending, hempty, -⟩
    · obtain ⟨hold, hresponse⟩ := hsame uid huid
      obtain ⟨since, hlast, hbytes⟩ := ih uid hold
      refine ⟨since ++ [e], hlast.snoc hd hquiet, ?_⟩
      rw [hresponse, hbytes]
      simp [dataBytes]
    · rw [hpending, Option.some.injEq] at huid
      subst huid
      exact ⟨[], ⟨past, e, d, rfl, hd, hasked, fun t e' ht => absurd ht
        (ancsConsumer.before_nil _ t e')⟩, hempty⟩

/-- Metadata are for the pending UID, from a whole answer at the front of the buffer. -/
theorem metadata_eq_some {m : AncsNotificationMetadata} (h : c.metadata e = some m) :
    c.pending = some m.uid ∧ ∃ header values rest, Tlv.Fits attributeIds values ∧
      c.response ++ e.received = attributeResponse header values ++ rest ∧
      metadataOf m.uid values = some m := by
  cases e with
  | notificationSource value => cases h
  | dataSource fragment =>
    rw [metadata] at h
    rcases dataSource_cases c fragment with ⟨-, heq⟩ | ⟨-, -, heq⟩ |
      ⟨uid, values, consumed, huid, -, hparse, heq⟩
    · rw [heq] at h
      cases h
    · rw [heq] at h
      cases h
    · rw [heq] at h
      obtain ⟨hfits, header, rest, hdata, -⟩ := parseAttributes_eq_some_iff.1 hparse
      have hm : m.uid = uid := by
        change metadataOf uid values = some m at h
        unfold metadataOf at h
        split_ifs at h
        rw [← Option.some.inj h]
      rw [hm]
      exact ⟨huid, header, values, rest, hfits, hdata, h⟩

/-- In every run, metadata are for the UID of the last request, from a whole answer at the front of
what the Data Source brought since that request, and say what that answer's attributes do. -/
theorem metadata_attribution {past : List AncsEvent} {c : AncsProtocolConsumer} {e : AncsEvent}
    {m : AncsNotificationMetadata} (hrun : ancsConsumer.run .default past = some c)
    (hm : c.metadata e = some m) :
    ∃ since header values rest, LastRequest past since m.uid ∧ Tlv.Fits attributeIds values ∧
      dataBytes (since ++ [e]) = attributeResponse header values ++ rest ∧
      metadataOf m.uid values = some m := by
  obtain ⟨hpending, header, values, rest, hfits, hdata, hvalues⟩ := metadata_eq_some hm
  obtain ⟨since, hlast, hbytes⟩ := exists_lastRequest hrun m.uid hpending
  refine ⟨since, header, values, rest, hlast, hfits, ?_, hvalues⟩
  rw [← hdata, hbytes]
  simp [dataBytes]

theorem metadata_attribution_first : ∃ m,
    askedFirst.metadata (.dataSource (attributeResponse firstUid messageValues)) = some m ∧
      ∃ since header values rest,
        LastRequest [.notificationSource [0, 0, 4, 1, 1, 1, 1, 1]] since m.uid ∧
        Tlv.Fits attributeIds values ∧
        dataBytes (since ++ [.dataSource (attributeResponse firstUid messageValues)])
          = attributeResponse header values ++ rest ∧
        metadataOf m.uid values = some m := by
  have hsome : (askedFirst.metadata
      (.dataSource (attributeResponse firstUid messageValues))).isSome = true := by
    decide +kernel
  obtain ⟨m, hm⟩ := Option.isSome_iff_exists.1 hsome
  exact ⟨m, hm, @metadata_attribution [.notificationSource [0, 0, 4, 1, 1, 1, 1, 1]] askedFirst _ m
    rfl hm⟩

/-- An answer that carries another UID is taken for the pending one's. -/
theorem metadata_of_other_header : ∃ c m,
    ancsConsumer.run .default [.notificationSource [0, 0, 4, 1, 1, 1, 1, 1]] = some c ∧
      c.response = [] ∧
      c.metadata (.dataSource (attributeResponse (Vector.replicate 4 2) messageValues)) = some m ∧
      m.uid ≠ Vector.replicate 4 2 := by
  have hsome : (askedFirst.metadata
      (.dataSource (attributeResponse (Vector.replicate 4 2) messageValues))).isSome = true := by
    decide +kernel
  obtain ⟨m, hm⟩ := Option.isSome_iff_exists.1 hsome
  refine ⟨askedFirst, m, rfl, rfl, hm, ?_⟩
  have huid : some firstUid = some m.uid := (metadata_eq_some hm).1
  rw [← Option.some.inj huid]
  decide

end AncsProtocolConsumer

end AnalogConnect
