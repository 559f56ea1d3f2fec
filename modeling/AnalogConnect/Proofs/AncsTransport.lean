import AnalogConnect.AncsTransport
import Mathlib.Data.List.Nodup

/-!
# One request at a time

The parser accepts bytes that begin with a whole answer and no others (`parseAttributes_eq`); what
it rejects is the beginning of one or has a byte no answer has there (`scanResponse`). Whatever
arrives, no UID is in two of the consumer's places, and a request is written exactly when a UID
becomes pending (`request_discipline`).
-/

namespace AnalogConnect

open Bytes

/-! ## Answers -/

/-- The answer to a request: the command, a UID, and the attributes. -/
def attributeResponse (uid : NotificationUid) (values : List (List UInt8)) : List UInt8 :=
  0 :: (uid.toList ++ Tlv.fields attributeIds values)

/-- What the bytes received so far are of an answer. -/
def scanResponse : List UInt8 → Tlv.Scan
  | [] => .incomplete
  | command :: data =>
    if command ≠ 0 then .malformed
    else if data.length < 4 then .incomplete
    else Tlv.scan attributeIds (data.drop 4)

section Parser

variable {data ext rest : List UInt8} {values : List (List UInt8)} {uid : NotificationUid}

theorem exists_uid (l : List UInt8) (h : l.length = 4) : ∃ uid : NotificationUid, uid.toList = l :=
  ⟨⟨l.toArray, h⟩, rfl⟩

theorem scanResponse_eq_complete_iff : scanResponse data = .complete values rest ↔
    Tlv.Fits attributeIds values ∧ ∃ uid, data = attributeResponse uid values ++ rest := by
  constructor
  · intro h
    unfold scanResponse at h
    split at h
    · cases h
    rename_i command data
    split_ifs at h with hcommand hshort
    rw [ne_eq, not_not] at hcommand
    obtain ⟨hfits, hdata⟩ := Tlv.scan_eq_complete_iff.1 h
    obtain ⟨uid, huid⟩ := exists_uid (data.take 4) (by rw [List.length_take]; omega)
    refine ⟨hfits, uid, ?_⟩
    rw [attributeResponse, huid, hcommand, List.cons_append, List.append_assoc, ← hdata,
      List.take_append_drop]
  · rintro ⟨hfits, uid, rfl⟩
    have hlength : uid.toList.length = 4 := uid.length_toList
    rw [attributeResponse, List.cons_append, List.append_assoc, scanResponse, if_neg (by simp),
      if_neg (by rw [List.length_append]; omega), List.drop_left' hlength]
    exact Tlv.scan_eq_complete_iff.2 ⟨hfits, rfl⟩

/-- Bytes with a wrong one among them stay so. -/
theorem scanResponse_append_of_malformed (h : scanResponse data = .malformed) :
    scanResponse (data ++ ext) = .malformed := by
  unfold scanResponse at h
  split at h
  · cases h
  rename_i command data
  rw [List.cons_append, scanResponse]
  split_ifs at h with hcommand hshort
  · rw [if_pos hcommand]
  · rw [if_neg hcommand, if_neg (by rw [List.length_append]; omega),
      List.drop_append_of_le_length (by omega)]
    exact Tlv.scan_append_of_malformed h

theorem scanResponse_eq_incomplete_iff : scanResponse data = .incomplete ↔
    ∃ uid values ext, Tlv.Fits attributeIds values ∧ ext ≠ [] ∧
      data ++ ext = attributeResponse uid values := by
  constructor
  · intro h
    unfold scanResponse at h
    obtain ⟨values, hfits⟩ := Tlv.exists_fits attributeIds
    split at h
    · obtain ⟨uid, -⟩ := exists_uid [0, 0, 0, 0] rfl
      exact ⟨uid, values, attributeResponse uid values, hfits, by simp [attributeResponse], rfl⟩
    rename_i command data
    split_ifs at h with hcommand hshort
    · rw [ne_eq, not_not] at hcommand
      obtain ⟨uid, huid⟩ := exists_uid
        (data ++ List.replicate (4 - data.length) 0) (by simp; omega)
      refine ⟨uid, values, List.replicate (4 - data.length) 0 ++ Tlv.fields attributeIds values,
        hfits, ?_, ?_⟩
      · intro hnil
        have hzero := (List.append_eq_nil_iff.1 hnil).1
        rw [List.replicate_eq_nil_iff] at hzero
        omega
      · rw [attributeResponse, huid, hcommand, List.cons_append, List.append_assoc]
    · rw [ne_eq, not_not] at hcommand
      obtain ⟨values, ext, hfits, hne, hext⟩ := Tlv.scan_eq_incomplete_iff.1 h
      obtain ⟨uid, huid⟩ := exists_uid (data.take 4) (by rw [List.length_take]; omega)
      refine ⟨uid, values, ext, hfits, hne, ?_⟩
      rw [attributeResponse, huid, hcommand, ← hext, List.cons_append, ← List.append_assoc,
        List.take_append_drop]
  · rintro ⟨uid, values, ext, hfits, hne, hext⟩
    have hwhole : scanResponse (data ++ ext) = .complete values [] :=
      scanResponse_eq_complete_iff.2 ⟨hfits, uid, by rw [hext, List.append_nil]⟩
    cases hs : scanResponse data with
    | incomplete => rfl
    | complete values' rest =>
      obtain ⟨hfits', uid', rfl⟩ := scanResponse_eq_complete_iff.1 hs
      have hmore : scanResponse (attributeResponse uid' values' ++ rest ++ ext)
          = .complete values' (rest ++ ext) :=
        scanResponse_eq_complete_iff.2 ⟨hfits', uid', List.append_assoc _ _ _⟩
      rw [hwhole] at hmore
      exact absurd (List.append_eq_nil_iff.1 (Tlv.Scan.complete.inj hmore).2.symm).2 hne
    | malformed =>
      rw [scanResponse_append_of_malformed hs] at hwhole
      cases hwhole

/-! ## The parser -/

theorem parseValues_append : ∀ (ids front tail : List UInt8),
    parseValues (front ++ tail) ids front.length =
      match Tlv.scan ids tail with
      | .complete values rest => some (values, (front ++ tail).length - rest.length)
      | _ => none
  | [], front, tail => by
    simp [parseValues, Tlv.scan]
  | id :: ids, front, [] => by
    simp [parseValues, Tlv.scan]
  | id :: ids, front, byte :: data => by
    have hget (k : ℕ) : (front ++ byte :: data)[front.length + k]? = (byte :: data)[k]? := by
      rw [List.getElem?_append_right (Nat.le_add_right _ _), Nat.add_sub_cancel_left]
    have hid : (front ++ byte :: data)[front.length]? = some byte := hget 0
    rw [parseValues, hid, hget 1, hget 2, Tlv.scan]
    by_cases hsame : byte = id
    · subst hsame
      simp only [ne_eq, not_true, if_false, if_true]
      rcases data with - | ⟨lo, - | ⟨hi, rest⟩⟩
      · rfl
      · rfl
      simp only [List.getElem?_cons_zero, List.getElem?_cons_succ, Tlv.takeValue]
      have hlen : (front ++ byte :: lo :: hi :: rest).length = front.length + 3 + rest.length := by
        simp only [List.length_append, List.length_cons]
        omega
      by_cases hlength : leNat [lo, hi] ≤ rest.length
      · have hvalue : (front ++ byte :: lo :: hi :: rest).drop (front.length + 3) = rest := by
          rw [← List.drop_drop, List.drop_left]
          rfl
        have hfront : (front ++ byte :: lo :: hi :: rest.take (leNat [lo, hi])).length
            = front.length + 3 + leNat [lo, hi] := by
          simp only [List.length_append, List.length_cons, List.length_take]
          omega
        have hsplit : front ++ byte :: lo :: hi :: rest
            = (front ++ byte :: lo :: hi :: rest.take (leNat [lo, hi]))
              ++ rest.drop (leNat [lo, hi]) := by
          rw [List.append_assoc, List.cons_append, List.cons_append, List.cons_append,
            List.take_append_drop]
        rw [if_pos (by omega), if_pos hlength, hvalue, Nat.add_sub_cancel_left, ← hfront]
        rw [hsplit, parseValues_append ids, ← hsplit]
        dsimp only
        cases Tlv.scan ids (rest.drop (leNat [lo, hi])) <;> rfl
      · rw [if_neg (by omega), if_neg hlength]
    · simp only [ne_eq, hsame, not_false_eq_true, if_true, if_false]

theorem parseAttributes_eq (data : List UInt8) : parseAttributes data =
    match scanResponse data with
    | .complete values rest => some (values, data.length - rest.length)
    | _ => none := by
  unfold parseAttributes
  rcases data with - | ⟨command, data⟩
  · rfl
  have hcommand : (command :: data).getD 0 0 = command := rfl
  rw [hcommand, scanResponse]
  by_cases hzero : command = 0
  · by_cases hshort : data.length < 4
    · rw [if_pos (.inl (Nat.succ_lt_succ hshort)), if_neg (by simpa using hzero), if_pos hshort]
    · have hfront : (command :: data.take 4).length = 5 := by
        rw [List.length_cons, List.length_take]
        omega
      have hsplit : command :: data = (command :: data.take 4) ++ data.drop 4 := by
        rw [List.cons_append, List.take_append_drop]
      rw [if_neg (by simp only [hzero, List.length_cons]; simp; omega),
        if_neg (by simpa using hzero), if_neg hshort, ← hfront]
      rw [hsplit, parseValues_append, ← hsplit]
  · rw [if_pos (.inr hzero), if_pos hzero]

theorem parseAttributes_eq_some_iff {consumed : ℕ} :
    parseAttributes data = some (values, consumed) ↔
    Tlv.Fits attributeIds values ∧ ∃ uid rest, data = attributeResponse uid values ++ rest ∧
      consumed = (attributeResponse uid values).length := by
  rw [parseAttributes_eq]
  constructor
  · intro h
    split at h
    · rename_i values' rest hscan
      obtain ⟨rfl, rfl⟩ := Prod.mk.inj (Option.some.inj h)
      obtain ⟨hfits, uid, rfl⟩ := scanResponse_eq_complete_iff.1 hscan
      refine ⟨hfits, uid, rest, rfl, ?_⟩
      rw [List.length_append, Nat.add_sub_cancel]
    · cases h
  · rintro ⟨hfits, uid, rest, rfl, rfl⟩
    rw [scanResponse_eq_complete_iff.2 ⟨hfits, uid, rfl⟩]
    simp

/-- What is no whole answer yet does not parse, nor does what can never be one. -/
theorem parseAttributes_eq_none_iff :
    parseAttributes data = none ↔ ∀ values rest, scanResponse data ≠ .complete values rest := by
  rw [parseAttributes_eq]
  cases scanResponse data <;> simp

end Parser

/-! ## What a call does -/

namespace AncsProtocolConsumer

variable {c : AncsProtocolConsumer} {value fragment : List UInt8} {e : AncsEvent}

/-- A notification is left, taken out of the queue, asked about, or queued. -/
theorem notificationSource_cases (c : AncsProtocolConsumer) (value : List UInt8) :
    c.notificationSource value = (none, c) ∨
    (∃ uid, c.notificationSource value
      = (none, { c with queued := c.queued.filter (· ≠ uid) })) ∨
    (∃ uid, c.pending = none ∧ uid ∉ c.completed ∧ c.notificationSource value
      = (some (attributeRequest uid), { c with pending := some uid, response := [] })) ∨
    ∃ uid, c.pending ≠ none ∧ c.pending ≠ some uid ∧ uid ∉ c.completed ∧ uid ∉ c.queued ∧
      c.queued.length < 32 ∧
      c.notificationSource value = (none, { c with queued := c.queued ++ [uid] }) := by
  unfold notificationSource
  rcases NotificationSourceEvent.parse value with - | event
  · exact .inl rfl
  dsimp only
  by_cases hremoved : event.kind = .removed
  · rw [if_pos hremoved]
    exact .inr (.inl ⟨event.uid, rfl⟩)
  rw [if_neg hremoved]
  by_cases hknown : event.uid ∈ c.completed ∨ c.pending = some event.uid ∨ event.uid ∈ c.queued
  · rw [if_pos hknown]
    exact .inl rfl
  rw [if_neg hknown]
  rw [not_or, not_or] at hknown
  obtain ⟨hcompleted, hpending, hqueued⟩ := hknown
  by_cases hidle : c.pending = none
  · rw [if_pos hidle]
    exact .inr (.inr (.inl ⟨event.uid, hidle, hcompleted, rfl⟩))
  rw [if_neg hidle]
  by_cases hroom : c.queued.length < 32
  · rw [if_pos hroom]
    exact .inr (.inr (.inr ⟨event.uid, hidle, hpending, hcompleted, hqueued, hroom, rfl⟩))
  · rw [if_neg hroom]
    exact .inl rfl

/-- The bytes are more than the consumer takes, or nobody waits for them. -/
def Refuses (c : AncsProtocolConsumer) (fragment : List UInt8) : Prop :=
  c.pending = none ∨ c.response.length + fragment.length > maxResponseBytes

/-- `startNext` asks for the first UID of the queue, if there is one. -/
theorem startNext_eq (c : AncsProtocolConsumer) : c.startNext =
    match c.queued with
    | [] => (none, ⟨[], c.completed, none, []⟩)
    | uid :: queued => (some (attributeRequest uid), ⟨queued, c.completed, some uid, []⟩) := by
  obtain ⟨queued, completed, pending, response⟩ := c
  cases queued <;> rfl

theorem dataSource_of_refuses (h : c.Refuses fragment) :
    c.dataSource fragment = ((none, c.startNext.1), c.startNext.2) := by
  unfold Refuses at h
  rw [dataSource, if_pos h, startNext_eq, startNext_eq c]
  rfl

theorem dataSource_of_waiting (h : ¬ c.Refuses fragment)
    (hparse : parseAttributes (c.response ++ fragment) = none) :
    c.dataSource fragment = ((none, none), { c with response := c.response ++ fragment }) := by
  unfold Refuses at h
  rw [dataSource, if_neg h]
  simp only [hparse]

/-- The answer is whole: its notification is completed, and the next one asked about. -/
theorem dataSource_of_answered {uid : NotificationUid} {values : List (List UInt8)} {consumed : ℕ}
    (h : ¬ c.Refuses fragment) (huid : c.pending = some uid)
    (hparse : parseAttributes (c.response ++ fragment) = some (values, consumed)) :
    c.dataSource fragment = ((metadataOf uid values,
      { c with completed := Window.keepNewest 64 (c.completed ++ [uid]) }.startNext.1),
      { c with completed := Window.keepNewest 64 (c.completed ++ [uid]) }.startNext.2) := by
  unfold Refuses at h
  rw [dataSource, if_neg h]
  simp only [hparse, huid, startNext_eq]

/-- The consumer gives up what it waits for, waits on, or has its answer. -/
theorem dataSource_cases (c : AncsProtocolConsumer) (fragment : List UInt8) :
    (c.Refuses fragment ∧ c.dataSource fragment = ((none, c.startNext.1), c.startNext.2)) ∨
    (¬ c.Refuses fragment ∧ parseAttributes (c.response ++ fragment) = none ∧
      c.dataSource fragment = ((none, none), { c with response := c.response ++ fragment })) ∨
    ∃ uid values consumed, c.pending = some uid ∧ ¬ c.Refuses fragment ∧
      parseAttributes (c.response ++ fragment) = some (values, consumed) ∧
      c.dataSource fragment = ((metadataOf uid values,
        { c with completed := Window.keepNewest 64 (c.completed ++ [uid]) }.startNext.1),
        { c with completed := Window.keepNewest 64 (c.completed ++ [uid]) }.startNext.2) := by
  by_cases hrefused : c.Refuses fragment
  · exact .inl ⟨hrefused, dataSource_of_refuses hrefused⟩
  right
  rcases hparse : parseAttributes (c.response ++ fragment) with - | ⟨values, consumed⟩
  · exact .inl ⟨hrefused, rfl, dataSource_of_waiting hrefused hparse⟩
  · obtain ⟨uid, huid⟩ := Option.ne_none_iff_exists'.1 fun h => hrefused (.inl h)
    exact .inr ⟨uid, values, consumed, huid, hrefused, rfl,
      dataSource_of_answered hrefused huid hparse⟩

/-! ## The consumer's discipline -/

/-- No UID is in two places, or in one of them twice; the places are bounded; and where nothing is
pending nothing waits. -/
structure Disciplined (c : AncsProtocolConsumer) : Prop where
  nodup : (c.pending.toList ++ (c.queued ++ c.completed)).Nodup
  length_queued : c.queued.length ≤ 32
  length_completed : c.completed.length ≤ 64
  length_response : c.response.length ≤ maxResponseBytes
  queued_of_idle : c.pending = none → c.queued = []

theorem Disciplined.default : AncsProtocolConsumer.default.Disciplined :=
  ⟨List.nodup_nil, Nat.zero_le _, Nat.zero_le _, Nat.zero_le _, fun _ => rfl⟩

theorem Disciplined.startNext (hnodup : (c.queued ++ c.completed).Nodup)
    (hqueued : c.queued.length ≤ 32) (hcompleted : c.completed.length ≤ 64) :
    c.startNext.2.Disciplined := by
  rw [startNext_eq]
  rcases hqueue : c.queued with - | ⟨uid, queued⟩
  · rw [hqueue] at hnodup
    exact ⟨hnodup, Nat.zero_le _, hcompleted, Nat.zero_le _, fun _ => rfl⟩
  · rw [hqueue] at hnodup hqueued
    exact ⟨hnodup, Nat.le_of_succ_le hqueued, hcompleted, Nat.zero_le _, fun h => by cases h⟩

/-- The pending UID goes to the end of the completed ones. -/
theorem Disciplined.nodup_completed (h : c.Disciplined) {uid : NotificationUid}
    (huid : c.pending = some uid) :
    (c.queued ++ Window.keepNewest 64 (c.completed ++ [uid])).Nodup := by
  have hperm : (c.queued ++ (c.completed ++ [uid])).Perm
      (c.pending.toList ++ (c.queued ++ c.completed)) := by
    rw [huid, ← List.append_assoc]
    exact List.perm_append_comm
  refine List.Nodup.sublist ?_ (hperm.nodup_iff.2 h.nodup)
  exact (Window.keepNewest_sublist 64 _).append_left _

theorem Disciplined.step (h : c.Disciplined) (e : AncsEvent) : (c.step e).Disciplined := by
  have hrest : (c.queued ++ c.completed).Nodup :=
    h.nodup.sublist (List.sublist_append_right _ _)
  cases e with
  | notificationSource value =>
    rw [AncsProtocolConsumer.step]
    rcases notificationSource_cases c value with heq | ⟨uid, heq⟩ | ⟨uid, hidle, hnew, heq⟩ |
      ⟨uid, hbusy, hpending, hcompleted, hqueued, hroom, heq⟩ <;> rw [heq]
    · exact h
    · have hsub := List.filter_sublist (p := fun x => decide (x ≠ uid)) (l := c.queued)
      refine ⟨h.nodup.sublist ((hsub.append_right _).append_left _),
        hsub.length_le.trans h.length_queued, h.length_completed, h.length_response,
        fun hidle => ?_⟩
      rw [h.queued_of_idle hidle]
      rfl
    · have hnil := h.queued_of_idle hidle
      refine ⟨?_, h.length_queued, h.length_completed, Nat.zero_le _, fun h => by cases h⟩
      rw [hnil] at hrest ⊢
      exact List.nodup_cons.2 ⟨hnew, hrest⟩
    · refine ⟨?_, ?_, h.length_completed, h.length_response, fun hidle => absurd hidle hbusy⟩
      · have hfresh : uid ∉ c.pending.toList ++ (c.queued ++ c.completed) := by
          rw [List.mem_append, List.mem_append, Option.mem_toList, not_or, not_or]
          exact ⟨hpending, hqueued, hcompleted⟩
        have hperm : (c.pending.toList ++ (c.queued ++ [uid] ++ c.completed)).Perm
            (uid :: (c.pending.toList ++ (c.queued ++ c.completed))) := by
          have hmiddle := @List.perm_middle _ uid (c.pending.toList ++ c.queued) c.completed
          simpa only [List.append_assoc, List.singleton_append] using hmiddle
        exact hperm.nodup_iff.2 (List.nodup_cons.2 ⟨hfresh, h.nodup⟩)
      · rw [List.length_append, List.length_singleton]
        omega
  | dataSource fragment =>
    rw [AncsProtocolConsumer.step]
    rcases dataSource_cases c fragment with ⟨-, heq⟩ | ⟨hfits, -, heq⟩ |
      ⟨uid, values, consumed, huid, -, -, heq⟩ <;> rw [heq]
    · exact .startNext hrest h.length_queued h.length_completed
    · refine ⟨h.nodup, h.length_queued, h.length_completed, ?_, h.queued_of_idle⟩
      rw [Refuses, not_or] at hfits
      rw [List.length_append]
      omega
    · exact .startNext (h.nodup_completed huid) h.length_queued
        (Window.length_keepNewest_le 64 _)

theorem disciplined_of_run {events : List AncsEvent}
    (h : ancsConsumer.run .default events = some c) : c.Disciplined :=
  ancsConsumer.run_invariant (P := Disciplined)
    (fun _ e _ hc hstep => Option.some.inj hstep ▸ hc.step e) .default h

/-! ## Requests -/

/-- What is queued is neither pending nor completed. -/
theorem Disciplined.of_mem_queued (h : c.Disciplined) {uid : NotificationUid}
    (huid : uid ∈ c.queued) : c.pending ≠ some uid ∧ uid ∉ c.completed := by
  obtain ⟨-, hrest, hdisjoint⟩ := List.nodup_append.1 h.nodup
  constructor
  · intro hpending
    exact hdisjoint uid (by rw [hpending]; exact List.mem_cons_self) uid
      (List.mem_append_left _ huid) rfl
  · intro hcompleted
    exact (List.nodup_append.1 hrest).2.2 uid huid uid hcompleted rfl

theorem Disciplined.not_mem_completed (h : c.Disciplined) {uid : NotificationUid}
    (huid : c.pending = some uid) : uid ∉ c.completed := by
  intro hmem
  refine (List.nodup_append.1 h.nodup).2.2 uid ?_ uid (List.mem_append_right _ hmem) rfl
  rw [huid]
  exact List.mem_cons_self

/-- A call writes no request and makes no UID pending, or does both for a UID that was neither
pending nor completed; the buffer then starts empty, and otherwise takes what the call brings. -/
theorem Disciplined.request_cases (h : c.Disciplined) (e : AncsEvent) :
    (c.request e = none ∧ ∀ uid, (c.step e).pending = some uid →
      c.pending = some uid ∧ (c.step e).response = c.response ++ e.received) ∨
    ∃ uid, c.request e = some (attributeRequest uid) ∧ (c.step e).pending = some uid ∧
      (c.step e).response = [] ∧ c.pending ≠ some uid ∧ uid ∉ c.completed := by
  have hnext : ∀ d : AncsProtocolConsumer, d.queued = c.queued →
      (d.startNext.1 = none ∧ ∀ uid, d.startNext.2.pending = some uid →
        c.pending = some uid ∧ d.startNext.2.response = c.response ++ e.received) ∨
      ∃ uid, d.startNext.1 = some (attributeRequest uid) ∧ d.startNext.2.pending = some uid ∧
        d.startNext.2.response = [] ∧ c.pending ≠ some uid ∧ uid ∉ c.completed := by
    intro d hd
    rw [startNext_eq]
    rcases hqueue : d.queued with - | ⟨uid, queued⟩
    · exact .inl ⟨rfl, fun uid h => by cases h⟩
    · have huid : uid ∈ c.queued := by
        rw [← hd, hqueue]
        exact List.mem_cons_self
      exact .inr ⟨uid, rfl, rfl, rfl, h.of_mem_queued huid⟩
  cases e with
  | notificationSource value =>
    rw [request, AncsProtocolConsumer.step, AncsEvent.received, List.append_nil]
    rcases notificationSource_cases c value with heq | ⟨uid, heq⟩ | ⟨uid, hidle, hnew, heq⟩ |
      ⟨uid, -, -, -, -, -, heq⟩ <;> rw [heq]
    · exact .inl ⟨rfl, fun _ h => ⟨h, rfl⟩⟩
    · exact .inl ⟨rfl, fun _ h => ⟨h, rfl⟩⟩
    · exact .inr ⟨uid, rfl, rfl, rfl, by rw [hidle]; simp, hnew⟩
    · exact .inl ⟨rfl, fun _ h => ⟨h, rfl⟩⟩
  | dataSource fragment =>
    rw [request, AncsProtocolConsumer.step]
    rcases dataSource_cases c fragment with ⟨-, heq⟩ | ⟨-, -, heq⟩ |
      ⟨uid, values, consumed, -, -, -, heq⟩ <;> rw [heq]
    · exact hnext c rfl
    · exact .inl ⟨rfl, fun _ h => ⟨h, rfl⟩⟩
    · exact hnext _ rfl

theorem attributeRequest_inj {uid uid' : NotificationUid}
    (h : attributeRequest uid = attributeRequest uid') : uid = uid' := by
  have huid : ∀ uid : NotificationUid, ((attributeRequest uid).drop 1).take 4 = uid.toList := by
    intro uid
    have hdrop : (attributeRequest uid).drop 1 = uid.toList ++ ([0]
        ++ (([1, 2].flatMap fun id => id :: leBytes 2 256) ++ [4, 5, 6, 7])) := by
      simp [attributeRequest]
    rw [hdrop, List.take_left' uid.length_toList]
  exact Vector.toList_inj.1 (by rw [← huid, h, huid])

/-- In every run the consumer keeps its discipline, and a call writes a request exactly when a UID
becomes pending, the request being that UID's; the UID is neither pending before nor completed. -/
theorem request_discipline {events : List AncsEvent} {c : AncsProtocolConsumer}
    (hrun : ancsConsumer.run .default events = some c) :
    c.Disciplined ∧ ∀ e,
      (∀ bytes, c.request e = some bytes ↔
        ∃ uid, (c.step e).pending = some uid ∧ c.pending ≠ some uid ∧
          bytes = attributeRequest uid) ∧
      ∀ uid, c.request e = some (attributeRequest uid) →
        c.pending ≠ some uid ∧ uid ∉ c.completed ∧ uid ∉ (c.step e).completed := by
  have hc := disciplined_of_run hrun
  refine ⟨hc, fun e => ⟨fun bytes => ?_, fun uid huid => ?_⟩⟩
  · rcases hc.request_cases e with ⟨hnone, hsame⟩ | ⟨uid, hsome, hpending, -, hnew, -⟩
    · rw [hnone]
      refine iff_of_false (by simp) ?_
      rintro ⟨uid, hpending, hnew, -⟩
      exact hnew (hsame uid hpending).1
    · rw [hsome, Option.some.injEq]
      constructor
      · intro hbytes
        exact ⟨uid, hpending, hnew, hbytes.symm⟩
      · rintro ⟨uid', hpending', -, rfl⟩
        rw [hpending, Option.some.injEq] at hpending'
        rw [hpending']
  · rcases hc.request_cases e with ⟨hnone, -⟩ | ⟨uid', hsome, hpending, -, hnew, hcompleted⟩
    · rw [hnone] at huid
      cases huid
    · rw [hsome, Option.some.injEq] at huid
      rw [← attributeRequest_inj huid]
      exact ⟨hnew, hcompleted, (hc.step e).not_mem_completed hpending⟩

theorem request_discipline_first : ∃ c,
    ancsConsumer.run .default [.notificationSource [0, 0, 4, 1, 1, 2, 3, 4],
      .notificationSource [0, 0, 4, 1, 1, 2, 3, 5]] = some c ∧
    c.Disciplined ∧ c.queued.length = 1 :=
  ⟨_, rfl, (@request_discipline [.notificationSource [0, 0, 4, 1, 1, 2, 3, 4],
    .notificationSource [0, 0, 4, 1, 1, 2, 3, 5]] _ rfl).1, rfl⟩

end AncsProtocolConsumer

end AnalogConnect
