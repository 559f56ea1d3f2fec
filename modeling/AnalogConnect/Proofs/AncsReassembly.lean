import AnalogConnect.Proofs.AncsTransport

/-!
# Putting an answer together

No beginning of an answer is taken for a whole one, so an answer gives the same however it is cut
(`feed_eq_of_flatten`). A byte no answer has in its place is not told from one still to come: the
consumer keeps it and waits on, and the beginning of an answer is all it ever waits on exactly when
no such byte reaches it (`awaitsAnswer_iff`).
-/

namespace AnalogConnect

namespace AncsProtocolConsumer

variable {c : AncsProtocolConsumer} {fragment : List UInt8} {e : AncsEvent}

section Fragments

variable {uid header : NotificationUid} {values : List (List UInt8)} {fragments : List (List UInt8)}

/-- A whole answer gives its values, in however many pieces it is behind the buffer. -/
theorem feed_response : ∀ {fragments : List (List UInt8)} {c : AncsProtocolConsumer},
    c.pending = some uid → Tlv.Fits attributeIds values →
    (attributeResponse header values).length ≤ maxResponseBytes → fragments ≠ [] →
    (∀ fragment ∈ fragments, fragment ≠ []) →
    c.response ++ fragments.flatten = attributeResponse header values →
    c.feed fragments =
      (List.replicate (fragments.length - 1) (none, none)
          ++ [(metadataOf uid values,
            { c with completed := Window.keepNewest 64 (c.completed ++ [uid]) }.startNext.1)],
        { c with completed := Window.keepNewest 64 (c.completed ++ [uid]) }.startNext.2)
  | [], c, _, _, _, hne, _, _ => absurd rfl hne
  | [fragment], c, huid, hfits, hlength, _, _, hcut => by
    rw [List.flatten_singleton] at hcut
    have haccepts : ¬ c.Refuses fragment := by
      rw [Refuses, huid, not_or, ← List.length_append, hcut]
      exact ⟨by simp, by omega⟩
    have hparse : parseAttributes (c.response ++ fragment)
        = some (values, (attributeResponse header values).length) :=
      parseAttributes_eq_some_iff.2 ⟨hfits, header, [], by rw [hcut, List.append_nil], rfl⟩
    unfold feed
    rw [dataSource_of_answered haccepts huid hparse]
    rfl
  | fragment :: next :: fragments, c, huid, hfits, hlength, _, hpos, hcut => by
    have hnext : next ≠ [] := hpos next (by simp)
    have hmore : (next :: fragments).flatten ≠ [] := by
      rw [List.flatten_cons]
      exact fun h => hnext (List.append_eq_nil_iff.1 h).1
    rw [List.flatten_cons, ← List.append_assoc] at hcut
    have haccepts : ¬ c.Refuses fragment := by
      have hle : (c.response ++ fragment).length ≤ (attributeResponse header values).length := by
        rw [← hcut]
        exact (List.sublist_append_left _ _).length_le
      rw [Refuses, huid, not_or, ← List.length_append]
      exact ⟨by simp, by omega⟩
    have hparse : parseAttributes (c.response ++ fragment) = none := by
      rw [parseAttributes_eq, scanResponse_eq_incomplete_iff.2 ⟨header, values, _, hfits, hmore,
        hcut⟩]
    have hwaiting : { c with response := c.response ++ fragment }.pending = some uid := huid
    have ih := feed_response hwaiting hfits hlength (List.cons_ne_nil next fragments)
      (fun f hf => hpos f (List.mem_cons_of_mem _ hf)) hcut
    unfold feed
    rw [dataSource_of_waiting haccepts hparse, ih]
    simp only [startNext_eq]
    rfl

/-- Cut into any pieces, an answer gives nothing until the last, and with the last what it gives
whole. -/
theorem feed_eq_of_flatten {c : AncsProtocolConsumer} {uid header : NotificationUid}
    {values fragments : List (List UInt8)} (huid : c.pending = some uid)
    (hempty : c.response = []) (hvalues : values.length = attributeIds.length)
    (hlength : (attributeResponse header values).length ≤ maxResponseBytes)
    (hne : fragments ≠ []) (hpos : ∀ fragment ∈ fragments, fragment ≠ [])
    (hcut : fragments.flatten = attributeResponse header values) :
    c.feed fragments =
      (List.replicate (fragments.length - 1) (none, none)
          ++ [(c.dataSource (attributeResponse header values)).1],
        (c.dataSource (attributeResponse header values)).2) := by
  have hfits : Tlv.Fits attributeIds values := by
    refine ⟨hvalues, fun value hvalue => ?_⟩
    have hle := Tlv.length_le_fields hvalues value hvalue
    rw [attributeResponse, List.length_cons, List.length_append] at hlength
    unfold maxResponseBytes at hlength
    omega
  have hwhole := feed_response huid hfits hlength
    (List.cons_ne_nil (attributeResponse header values) []) (by simp [attributeResponse])
    (by rw [hempty]; simp)
  have hcut' : c.response ++ fragments.flatten = attributeResponse header values := by
    rw [hempty, List.nil_append, hcut]
  rw [feed_response huid hfits hlength hne hpos hcut']
  obtain ⟨hresult, hstate⟩ := Prod.mk.inj hwhole
  rw [← (List.cons.inj hresult).1]
  exact congrArg _ hstate.symm

/-- The attributes of a message from one sender to a group. -/
def messageValues : List (List UInt8) :=
  [messagesApp, [0x41, 0x6E, 0x6E], [0x46, 0x61, 0x6D, 0x69, 0x6C, 0x79], [0x32], [0x31], [], []]

/-- The UID `1, 1, 1, 1`. -/
def firstUid : NotificationUid := Vector.replicate 4 1

/-- A consumer that has asked for the notification's attributes. -/
def askedFirst : AncsProtocolConsumer := ⟨[], [], some firstUid, []⟩

theorem feed_eq_of_flatten_pieces :
    askedFirst.feed [(attributeResponse firstUid messageValues).take 7,
        (attributeResponse firstUid messageValues).drop 7] =
      ([(none, none), (askedFirst.dataSource (attributeResponse firstUid messageValues)).1],
        (askedFirst.dataSource (attributeResponse firstUid messageValues)).2) :=
  @feed_eq_of_flatten askedFirst firstUid firstUid messageValues
    [(attributeResponse firstUid messageValues).take 7,
      (attributeResponse firstUid messageValues).drop 7]
    rfl rfl rfl (by decide +kernel) (by simp) (by decide +kernel) (by simp)

end Fragments

/-! ## Bytes that belong to no answer -/

/-- While a UID is pending, what has arrived is the beginning of an answer. -/
def AwaitsAnswer (c : AncsProtocolConsumer) : Prop :=
  c.pending ≠ none → ∃ uid values ext, Tlv.Fits attributeIds values ∧ ext ≠ [] ∧
    c.response ++ ext = attributeResponse uid values

/-- The call brings a byte that no answer has in its place. -/
def Garbles (c : AncsProtocolConsumer) : AncsEvent → Prop
  | .notificationSource _ => False
  | .dataSource fragment =>
    ¬ c.Refuses fragment ∧ scanResponse (c.response ++ fragment) = .malformed

theorem awaitsAnswer_iff_scan :
    c.AwaitsAnswer ↔ (c.pending ≠ none → scanResponse c.response = .incomplete) := by
  unfold AwaitsAnswer
  rw [scanResponse_eq_incomplete_iff]

theorem awaitsAnswer_startNext (c : AncsProtocolConsumer) : c.startNext.2.AwaitsAnswer := by
  rw [awaitsAnswer_iff_scan, startNext_eq]
  cases c.queued with
  | nil => exact fun h => absurd rfl h
  | cons uid queued => exact fun _ => rfl

theorem AwaitsAnswer.step (h : c.AwaitsAnswer) (hclean : ¬ c.Garbles e) :
    (c.step e).AwaitsAnswer := by
  cases e with
  | notificationSource value =>
    rw [AncsProtocolConsumer.step]
    rcases notificationSource_cases c value with heq | ⟨uid, heq⟩ | ⟨uid, hidle, hnew, heq⟩ |
      ⟨uid, -, -, -, -, -, heq⟩ <;> rw [heq]
    · exact h
    · exact h
    · rw [awaitsAnswer_iff_scan]
      exact fun _ => rfl
    · exact h
  | dataSource fragment =>
    rw [AncsProtocolConsumer.step]
    rcases dataSource_cases c fragment with ⟨-, heq⟩ | ⟨haccepts, hparse, heq⟩ |
      ⟨uid, values, consumed, -, -, -, heq⟩ <;> rw [heq]
    · exact awaitsAnswer_startNext c
    · rw [awaitsAnswer_iff_scan]
      intro _
      cases hscan : scanResponse (c.response ++ fragment) with
      | complete values rest =>
        exact absurd hscan (parseAttributes_eq_none_iff.1 hparse values rest)
      | incomplete => rfl
      | malformed => exact absurd ⟨haccepts, hscan⟩ hclean
    · exact awaitsAnswer_startNext _

/-- A UID waits for an answer whose bytes are of none. -/
def Garbled (c : AncsProtocolConsumer) : Prop :=
  c.pending ≠ none ∧ scanResponse c.response = .malformed

theorem Garbled.not_awaitsAnswer (h : c.Garbled) : ¬ c.AwaitsAnswer := by
  rw [awaitsAnswer_iff_scan]
  intro hscan
  have := hscan h.1
  rw [h.2] at this
  cases this

theorem parseAttributes_of_malformed {data : List UInt8} (h : scanResponse data = .malformed) :
    parseAttributes data = none := by
  rw [parseAttributes_eq, h]

theorem Garbles.garbled (h : c.Garbles e) : (c.step e).Garbled := by
  cases e with
  | notificationSource value => exact h.elim
  | dataSource fragment =>
    obtain ⟨haccepts, hscan⟩ := h
    rw [AncsProtocolConsumer.step,
      dataSource_of_waiting haccepts (parseAttributes_of_malformed hscan)]
    exact ⟨fun hidle => haccepts (.inl hidle), hscan⟩

/-- Until the buffer overflows nothing frees the UID's place: no notification is asked about, and no
answer is heard, be it whole. -/
theorem Garbled.step (h : c.Garbled) (haccepts : ∀ fragment, e = .dataSource fragment →
    ¬ c.Refuses fragment) :
    (c.step e).Garbled ∧ (c.step e).pending = c.pending ∧ c.request e = none ∧
      c.metadata e = none := by
  cases e with
  | notificationSource value =>
    rw [AncsProtocolConsumer.step, request, metadata]
    rcases notificationSource_cases c value with heq | ⟨uid, heq⟩ | ⟨uid, hidle, -, -⟩ |
      ⟨uid, -, -, -, -, -, heq⟩
    · rw [heq]
      exact ⟨h, rfl, rfl, rfl⟩
    · rw [heq]
      exact ⟨h, rfl, rfl, rfl⟩
    · exact absurd hidle h.1
    · rw [heq]
      exact ⟨h, rfl, rfl, rfl⟩
  | dataSource fragment =>
    have hscan : scanResponse (c.response ++ fragment) = .malformed :=
      scanResponse_append_of_malformed h.2
    rw [AncsProtocolConsumer.step, request, metadata,
      dataSource_of_waiting (haccepts fragment rfl) (parseAttributes_of_malformed hscan)]
    exact ⟨⟨h.1, hscan⟩, rfl, rfl, rfl⟩

/-- All through a run the consumer waits on the beginnings of answers only, exactly when no call of
the run brings a byte that no answer has in its place. -/
theorem awaitsAnswer_iff (events : List AncsEvent) :
    (∀ c, ancsConsumer.Through .default events c → c.AwaitsAnswer) ↔
      ∀ c e, ancsConsumer.Before .default events c e → ¬ c.Garbles e := by
  constructor
  · rintro h c e ⟨past, future, rfl, hc⟩ hgarbles
    have hthrough : ancsConsumer.Through .default (past ++ e :: future) (c.step e) :=
      ⟨past ++ [e], future, by simp, ancsConsumer.run_snoc_eq_some.2 ⟨c, hc, rfl⟩⟩
    exact hgarbles.garbled.not_awaitsAnswer (h _ hthrough)
  · intro h c hc
    refine ancsConsumer.through_invariant (fun hidle => absurd rfl hidle) ?_ hc
    intro d e c hbefore hd hstep
    rw [← Option.some.inj hstep]
    exact hd.step (h d e hbefore)

/-- Two notifications, and between them a byte that no answer starts with. -/
def garbledRun : List AncsEvent :=
  [.notificationSource [0, 0, 4, 1, 1, 1, 1, 1], .dataSource [1],
    .notificationSource [0, 0, 4, 1, 5, 6, 7, 8]]

/-- The second is held back, and the answer for the first is not heard when it comes. -/
theorem garbledRun_holds_back : ∃ c, ancsConsumer.run .default garbledRun = some c ∧
    ¬ c.AwaitsAnswer ∧ c.pending = some firstUid ∧ c.queued.length = 1 ∧
    c.request (.dataSource (attributeResponse firstUid messageValues)) = none ∧
    c.metadata (.dataSource (attributeResponse firstUid messageValues)) = none := by
  have hgarbled : Garbled ⟨[⟨#[5, 6, 7, 8], rfl⟩], [], some firstUid, [1]⟩ := ⟨by simp, rfl⟩
  have hlength : ¬ 1 + (attributeResponse firstUid messageValues).length > maxResponseBytes := by
    decide +kernel
  have hstays := hgarbled.step (e := .dataSource (attributeResponse firstUid messageValues))
    (fun fragment heq => by
      rw [← AncsEvent.dataSource.inj heq, Refuses, not_or]
      exact ⟨by simp, hlength⟩)
  exact ⟨_, rfl, hgarbled.not_awaitsAnswer, rfl, rfl, hstays.2.2.1, hstays.2.2.2⟩

end AncsProtocolConsumer

end AnalogConnect
