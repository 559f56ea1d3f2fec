import AnalogConnect.MessageSend

/-!
# An operation is sent at most once

A handler holds its operation from the registry's first step to its second; no two handlers hold
one, and a held operation is not accepted. Once its send succeeds the operation is held until it is
accepted, and from then on recognised until as many others as the registry's capacity are accepted.
So it is not sent again as long as fewer are accepted before it is last asked for
(`operation_sent_at_most_once`).
-/

namespace AnalogConnect

/-! ## The registry -/

/-- The set of accepted identifiers and the order they came in hold the same ones, once each. -/
structure Mirrors (accepted order : List MessageOperationId) : Prop where
  accepted_nodup : accepted.Nodup
  order_nodup : order.Nodup
  mem_iff : ∀ id, id ∈ accepted ↔ id ∈ order

namespace MessageOperationRegistry

theorem expire_spec (capacity : ℕ) : ∀ {accepted order : List MessageOperationId},
    Mirrors accepted order →
      Mirrors (expire capacity accepted order).1 (expire capacity accepted order).2 ∧
        (expire capacity accepted order).2 = Window.keepNewest capacity order
  | accepted, [], h => ⟨h, by simp [expire, Window.keepNewest]⟩
  | accepted, expired :: order, h => by
    unfold expire
    by_cases hlength : (expired :: order).length > capacity
    · rw [if_pos hlength]
      have horder := List.nodup_cons.1 h.order_nodup
      have hmirrors : Mirrors (accepted.erase expired) order := by
        refine ⟨h.accepted_nodup.erase expired, horder.2, fun id => ?_⟩
        rw [h.accepted_nodup.mem_erase_iff, h.mem_iff, List.mem_cons]
        constructor
        · rintro ⟨hne, rfl | hid⟩
          · exact absurd rfl hne
          · exact hid
        · intro hid
          exact ⟨fun heq => horder.1 (heq ▸ hid), .inr hid⟩
      obtain ⟨hkept, heq⟩ := expire_spec capacity hmirrors
      refine ⟨hkept, ?_⟩
      rw [heq]
      unfold Window.keepNewest
      rw [List.length_cons] at hlength ⊢
      rw [Nat.succ_sub (by omega), List.drop_succ_cons]
    · rw [if_neg hlength]
      refine ⟨h, ?_⟩
      unfold Window.keepNewest
      rw [Nat.sub_eq_zero_of_le (by omega), List.drop_zero]

theorem expire_subset (capacity : ℕ) :
    ∀ accepted order : List MessageOperationId, (expire capacity accepted order).1 ⊆ accepted
  | accepted, [] => fun _ hid => hid
  | accepted, expired :: order => by
    unfold expire
    split_ifs
    · exact fun id hid => List.mem_of_mem_erase (expire_subset capacity _ order hid)
    · exact fun _ hid => hid

variable {registry : MessageOperationRegistry} {operationId : MessageOperationId}

theorem mem_or_eq_of_mem_accept {id : MessageOperationId}
    (h : id ∈ (registry.accept operationId).accepted) :
    id ∈ registry.accepted ∨ id = operationId := by
  unfold accept at h
  have hmem := expire_subset _ _ _ h
  split_ifs at hmem
  · exact .inl hmem
  · exact (List.mem_cons.1 hmem).symm

theorem accept_spec (h : Mirrors registry.accepted registry.acceptedOrder)
    (hlength : registry.acceptedOrder.length ≤ registry.capacity) :
    Mirrors (registry.accept operationId).accepted (registry.accept operationId).acceptedOrder ∧
      (registry.accept operationId).acceptedOrder
        = Recent.remember registry.capacity registry.acceptedOrder operationId := by
  unfold accept Recent.remember
  by_cases hmem : operationId ∈ registry.accepted
  · simp only [if_pos hmem, if_pos ((h.mem_iff operationId).1 hmem)]
    obtain ⟨hkept, heq⟩ := expire_spec registry.capacity h
    refine ⟨hkept, heq.trans ?_⟩
    unfold Window.keepNewest
    rw [Nat.sub_eq_zero_of_le hlength, List.drop_zero]
  · have horder : operationId ∉ registry.acceptedOrder := mt (h.mem_iff operationId).2 hmem
    have hinserted : Mirrors (operationId :: registry.accepted)
        (registry.acceptedOrder ++ [operationId]) := by
      refine ⟨List.nodup_cons.2 ⟨hmem, h.accepted_nodup⟩, ?_, fun id => ?_⟩
      · exact List.nodup_append.2 ⟨h.order_nodup, List.nodup_singleton _, by
          rintro a ha b hb rfl
          exact horder (List.mem_singleton.1 hb ▸ ha)⟩
      · rw [List.mem_cons, List.mem_append, List.mem_singleton, h.mem_iff, or_comm]
    simp only [if_neg hmem, if_neg horder]
    exact expire_spec registry.capacity hinserted

end MessageOperationRegistry

/-! ## Identifiers -/

/-- An identifier is read from its digits in either case. -/
theorem MessageOperationId.new_eq_ok_iff {value : String} {operation : MessageOperationId} :
    MessageOperationId.new value = .ok operation ↔
      value.toList.map Text.lowerAscii = operation.value.toList := by
  unfold MessageOperationId.new
  constructor
  · intro h
    split_ifs at h
    rw [← Except.ok.inj h, String.toList_ofList]
  · intro h
    have hhex : ∀ c ∈ value.toList, (Hex.value c).isSome := by
      intro c hc
      refine Hex.isSome_value_of_isLower (operation.isLower _ ?_)
      rw [← h]
      exact List.mem_map_of_mem hc
    have hsize : value.utf8ByteSize = 32 := by
      rw [← operation.length_eq, ← h, List.length_map,
        ← Text.utf8ByteSize_of_ascii fun c hc => Hex.toNat_lt_of_value (hhex c hc),
        String.ofList_toList]
    rw [dif_pos ⟨hsize, List.all_eq_true.2 hhex⟩]
    obtain ⟨digits, hlength, hlower⟩ := operation
    have hdigits : String.ofList (value.toList.map Text.lowerAscii) = digits := by
      rw [h, String.ofList_toList]
    subst hdigits
    rfl

/-- What the phone takes for an identifier the daemon takes as it is. -/
theorem MessageOperationId.new_of_valid {value : String} (h : validOperationId value = true) :
    ∃ operation, MessageOperationId.new value = .ok operation ∧ operation.value = value := by
  unfold validOperationId lowerHex at h
  rw [Bool.and_eq_true, decide_eq_true_iff, List.all_eq_true] at h
  have hlower : ∀ c ∈ value.toList, Hex.IsLower c := fun c hc => of_decide_eq_true (h.2 c hc)
  have hlength : value.toList.length = 32 := by
    rw [← h.1, ← Text.utf16Length_of_ascii fun c hc => Hex.toNat_lt_of_isLower (hlower c hc),
      String.ofList_toList]
  refine ⟨⟨value, hlength, hlower⟩, MessageOperationId.new_eq_ok_iff.2 ?_, rfl⟩
  exact (List.map_congr_left fun c hc => Hex.lowerAscii_eq_self (hlower c hc)).trans (List.map_id _)

/-! ## What a request comes to -/

/-- The request carries the operation, in whatever case. -/
def SendMessageRequest.Names (request : SendMessageRequest) (operation : MessageOperationId) :
    Prop :=
  ∃ value, request.operationId = some value ∧ MessageOperationId.new value = .ok operation

variable {registry : MessageOperationRegistry} {request : SendMessageRequest}

theorem sendMessage_cases (registry : MessageOperationRegistry) (request : SendMessageRequest) :
    (∃ outcome, (∀ message operation, outcome ≠ .send message operation) ∧
      sendMessage registry request = (outcome, registry)) ∨
    (∃ message, sendMessage registry request = (.send message none, registry)) ∨
    ∃ message operation, request.Names operation ∧ operation ∉ registry.accepted ∧
      operation ∉ registry.inFlight ∧ sendMessage registry request
        = (.send message (some operation),
          { registry with inFlight := operation :: registry.inFlight }) := by
  unfold sendMessage
  rcases OutboundMessage.new request.recipient request.body with error | message
  · exact .inl ⟨.unprocessable, by simp, rfl⟩
  rcases hvalue : request.operationId with - | value
  · exact .inr (.inl ⟨message, rfl⟩)
  rcases hid : MessageOperationId.new value with error | operation
  · exact .inl ⟨.unprocessable, by simp, by simp only [hid]⟩
  simp only [hid]
  unfold MessageOperationRegistry.begin
  by_cases haccepted : operation ∈ registry.accepted
  · exact .inl ⟨.duplicate, by simp, by simp only [if_pos haccepted]⟩
  by_cases hflight : operation ∈ registry.inFlight
  · exact .inl ⟨.conflict, by simp, by simp only [if_neg haccepted, if_pos hflight]⟩
  · exact .inr (.inr ⟨message, operation, ⟨value, hvalue, hid⟩, haccepted, hflight,
      by simp only [if_neg haccepted, if_neg hflight]⟩)

theorem sendMessage_of_names {operation : MessageOperationId} {message : OutboundMessage}
    (hmessage : OutboundMessage.new request.recipient request.body = .ok message)
    (hnames : request.Names operation) :
    (sendMessage registry request).1 =
      if operation ∈ registry.accepted then .duplicate
      else if operation ∈ registry.inFlight then .conflict
      else .send message (some operation) := by
  obtain ⟨value, hvalue, hid⟩ := hnames
  unfold sendMessage MessageOperationRegistry.begin
  simp only [hmessage, hvalue, hid]
  by_cases haccepted : operation ∈ registry.accepted
  · simp only [if_pos haccepted]
  · by_cases hflight : operation ∈ registry.inFlight
    · simp only [if_neg haccepted, if_pos hflight]
    · simp only [if_neg haccepted, if_neg hflight]

/-! ## Handlers and the operations they hold -/

/-- The handler's operation is begun and not yet recorded. -/
def SendPhase.Holds : SendPhase → MessageOperationId → Prop
  | .idle, _ => False
  | .sending _ operation, id => operation = some id
  | .returned operation _, id => operation = some id

@[simp] theorem setPhase_registry (s : SendState) (handler : ℕ) (phase : SendPhase) :
    (s.setPhase handler phase).registry = s.registry := rfl

@[simp] theorem setPhase_phase (s : SendState) (handler h : ℕ) (phase : SendPhase) :
    (s.setPhase handler phase).phase h = if h = handler then phase else s.phase h := rfl

section Step

variable {s s' : SendState} {handler : ℕ} {operation : Option MessageOperationId} {succeeded : Bool}

/-- A request is answered at once, or its handler goes on to send, holding its operation. -/
theorem step_request (h : messageSender.step s (.request handler request) = some s') :
    s.phase handler = .idle ∧
      (s' = s ∨ (∃ message, s' = s.setPhase handler (.sending message none)) ∨
        ∃ message operation, request.Names operation ∧ operation ∉ s.registry.accepted ∧
          operation ∉ s.registry.inFlight ∧
          s' = { s with registry.inFlight := operation :: s.registry.inFlight }.setPhase handler
            (.sending message (some operation))) := by
  change s.step (.request handler request) = some s' at h
  simp only [SendState.step] at h
  by_cases hidle : s.phase handler = .idle
  · rw [if_pos hidle] at h
    refine ⟨hidle, ?_⟩
    rcases sendMessage_cases s.registry request with ⟨outcome, hnot, heq⟩ | ⟨message, heq⟩ |
      ⟨message, operation, hnames, haccepted, hflight, heq⟩
    · rw [heq] at h
      left
      rcases outcome with - | - | - | ⟨message, operation⟩
      · exact (Option.some.inj h).symm
      · exact (Option.some.inj h).symm
      · exact (Option.some.inj h).symm
      · exact absurd rfl (hnot message operation)
    · rw [heq] at h
      exact .inr (.inl ⟨message, (Option.some.inj h).symm⟩)
    · rw [heq] at h
      exact .inr (.inr ⟨message, operation, hnames, haccepted, hflight, (Option.some.inj h).symm⟩)
  · rw [if_neg hidle] at h
    cases h

theorem step_sent (h : messageSender.step s (.sent handler operation succeeded) = some s') :
    (∃ message, s.phase handler = .sending message operation) ∧
      s' = s.setPhase handler (.returned operation succeeded) := by
  change s.step (.sent handler operation succeeded) = some s' at h
  simp only [SendState.step] at h
  rcases hphase : s.phase handler with - | ⟨message, operation'⟩ | ⟨operation', succeeded'⟩
  · simp [hphase] at h
  · simp only [hphase] at h
    split_ifs at h with hsame
    subst hsame
    exact ⟨⟨message, rfl⟩, (Option.some.inj h).symm⟩
  · simp [hphase] at h

theorem step_recorded
    (h : messageSender.step s (.recorded handler operation succeeded) = some s') :
    s.phase handler = .returned operation succeeded ∧
      s' = { s with registry := recordOutcome s.registry operation succeeded }.setPhase handler
        .idle := by
  change s.step (.recorded handler operation succeeded) = some s' at h
  simp only [SendState.step] at h
  split_ifs at h with hphase
  exact ⟨hphase.1, (Option.some.inj h).symm⟩

theorem step_dropped (h : messageSender.step s (.dropped handler) = some s') :
    s' = { s with dropped := handler :: s.dropped } := by
  change s.step (.dropped handler) = some s' at h
  simp only [SendState.step] at h
  split_ifs at h
  exact (Option.some.inj h).symm

end Step

/-! ## The invariant of the registry and the handlers -/

/-- The operations accepted, in turn. -/
def acceptedOps (es : List SendEvent) : List MessageOperationId :=
  es.filterMap fun
    | .recorded _ (some operation) true => some operation
    | _ => none

@[simp] theorem acceptedOps_append (es fs : List SendEvent) :
    acceptedOps (es ++ fs) = acceptedOps es ++ acceptedOps fs :=
  List.filterMap_append

/-- The registry remembers what was accepted, and what is in flight some one handler holds. -/
structure SendInv (capacity : ℕ) (past : List SendEvent) (s : SendState) : Prop where
  capacity_eq : s.registry.capacity = capacity
  order_eq : s.registry.acceptedOrder = (acceptedOps past).foldl (Recent.remember capacity) []
  mirrors : Mirrors s.registry.accepted s.registry.acceptedOrder
  inFlight_nodup : s.registry.inFlight.Nodup
  disjoint : ∀ id ∈ s.registry.inFlight, id ∉ s.registry.accepted
  holder : ∀ id, id ∈ s.registry.inFlight ↔ ∃ h, (s.phase h).Holds id
  unique : ∀ id h h', (s.phase h).Holds id → (s.phase h').Holds id → h = h'

variable {capacity : ℕ} {past : List SendEvent} {s s' : SendState} {e : SendEvent}

theorem SendInv.length_le (hinv : SendInv capacity past s) :
    s.registry.acceptedOrder.length ≤ s.registry.capacity := by
  rw [hinv.order_eq, hinv.capacity_eq]
  exact (Recent.foldl_remember_spec (acceptedOps past) List.nodup_nil (Nat.zero_le capacity)).2

/-- A handler that holds what it held leaves the invariant. -/
theorem SendInv.setPhase {handler : ℕ} {phase : SendPhase} (hinv : SendInv capacity past s)
    (hpast : acceptedOps (past ++ [e]) = acceptedOps past)
    (hholds : ∀ id, phase.Holds id ↔ (s.phase handler).Holds id) :
    SendInv capacity (past ++ [e]) (s.setPhase handler phase) := by
  have hsame : ∀ id h, ((s.setPhase handler phase).phase h).Holds id ↔ (s.phase h).Holds id := by
    intro id h
    rw [setPhase_phase]
    split_ifs with hh
    · rw [hholds, hh]
    · rfl
  refine ⟨hinv.capacity_eq, ?_, hinv.mirrors, hinv.inFlight_nodup, hinv.disjoint, ?_, ?_⟩
  · rw [hpast]
    exact hinv.order_eq
  · intro id
    simp only [hsame]
    exact hinv.holder id
  · intro id h h' hh hh'
    rw [hsame] at hh hh'
    exact hinv.unique id h h' hh hh'

/-- A handler takes an operation no other holds. -/
theorem SendInv.take {handler : ℕ} {message : OutboundMessage} {operation : MessageOperationId}
    (hinv : SendInv capacity past s) (hpast : acceptedOps (past ++ [e]) = acceptedOps past)
    (hidle : s.phase handler = .idle) (haccepted : operation ∉ s.registry.accepted)
    (hflight : operation ∉ s.registry.inFlight) :
    SendInv capacity (past ++ [e])
      ({ s with registry.inFlight := operation :: s.registry.inFlight }.setPhase handler
        (.sending message (some operation))) := by
  have hnone : ∀ h, ¬ (s.phase h).Holds operation :=
    fun h hh => hflight ((hinv.holder operation).2 ⟨h, hh⟩)
  refine ⟨hinv.capacity_eq, ?_, hinv.mirrors, List.nodup_cons.2 ⟨hflight, hinv.inFlight_nodup⟩, ?_,
    ?_, ?_⟩
  · rw [hpast]
    exact hinv.order_eq
  · intro id hid
    rcases List.mem_cons.1 hid with rfl | hid
    · exact haccepted
    · exact hinv.disjoint id hid
  · intro id
    simp only [setPhase_registry, setPhase_phase, List.mem_cons, hinv.holder]
    constructor
    · rintro (rfl | ⟨h, hh⟩)
      · exact ⟨handler, by rw [if_pos rfl]; rfl⟩
      · refine ⟨h, ?_⟩
        rw [if_neg]
        · exact hh
        · rintro rfl
          rw [hidle] at hh
          exact hh
    · rintro ⟨h, hh⟩
      split_ifs at hh with hhandler
      · exact .inl (Option.some.inj hh).symm
      · exact .inr ⟨h, hh⟩
  · intro id h h' hh hh'
    simp only [setPhase_phase] at hh hh'
    split_ifs at hh hh' with hhandler hhandler'
    · rw [hhandler, hhandler']
    · obtain rfl := Option.some.inj hh
      exact absurd hh' (hnone h')
    · obtain rfl := Option.some.inj hh'
      exact absurd hh (hnone h)
    · exact hinv.unique id h h' hh hh'

/-- A handler lets go of an operation that leaves the flight. -/
theorem SendInv.release {handler : ℕ} {operation : MessageOperationId} {succeeded : Bool}
    (hinv : SendInv capacity past s)
    (hphase : s.phase handler = .returned (some operation) succeeded) :
    SendInv capacity (past ++ [.recorded handler (some operation) succeeded])
      ({ s with registry := recordOutcome s.registry (some operation) succeeded }.setPhase handler
        .idle) := by
  have hheld : (s.phase handler).Holds operation := by
    rw [hphase]
    rfl
  have hflight : (recordOutcome s.registry (some operation) succeeded).inFlight
      = s.registry.inFlight.erase operation := by
    cases succeeded <;> rfl
  have hholder : ∀ id h,
      (({ s with registry := recordOutcome s.registry (some operation) succeeded }.setPhase handler
        .idle).phase h).Holds id ↔ id ≠ operation ∧ (s.phase h).Holds id := by
    intro id h
    rw [setPhase_phase]
    split_ifs with hh
    · refine iff_of_false (fun hid => hid) ?_
      rintro ⟨hne, hid⟩
      rw [hh, hphase] at hid
      exact hne (Option.some.inj hid).symm
    · refine ⟨fun hid => ⟨?_, hid⟩, fun hid => hid.2⟩
      rintro rfl
      exact hh (hinv.unique id h handler hid hheld)
  have hrecorded : (recordOutcome s.registry (some operation) succeeded).capacity = capacity ∧
      Mirrors (recordOutcome s.registry (some operation) succeeded).accepted
        (recordOutcome s.registry (some operation) succeeded).acceptedOrder ∧
      (recordOutcome s.registry (some operation) succeeded).acceptedOrder
        = (acceptedOps (past ++ [.recorded handler (some operation) succeeded])).foldl
          (Recent.remember capacity) [] ∧
      ∀ id, id ∈ (recordOutcome s.registry (some operation) succeeded).accepted →
        id ∈ s.registry.accepted ∨ id = operation := by
    rw [acceptedOps_append, List.foldl_append, ← hinv.order_eq]
    cases succeeded with
    | false => exact ⟨hinv.capacity_eq, hinv.mirrors, rfl, fun id hid => .inl hid⟩
    | true =>
      obtain ⟨hmirrors, horder⟩ := MessageOperationRegistry.accept_spec hinv.mirrors hinv.length_le
      rw [hinv.capacity_eq] at horder
      exact ⟨hinv.capacity_eq, hmirrors, horder,
        fun id hid => MessageOperationRegistry.mem_or_eq_of_mem_accept hid⟩
  obtain ⟨hcapacity, hmirrors, horder, haccepted⟩ := hrecorded
  refine ⟨hcapacity, horder, hmirrors, ?_, ?_, ?_, ?_⟩
  · rw [setPhase_registry, hflight]
    exact hinv.inFlight_nodup.erase operation
  · intro id hid hid'
    rw [setPhase_registry, hflight, hinv.inFlight_nodup.mem_erase_iff] at hid
    rcases haccepted id hid' with hmem | rfl
    · exact hinv.disjoint id hid.2 hmem
    · exact hid.1 rfl
  · intro id
    rw [setPhase_registry, hflight, hinv.inFlight_nodup.mem_erase_iff, hinv.holder]
    simp only [hholder, exists_and_left]
  · intro id h h' hh hh'
    exact hinv.unique id h h' ((hholder id h).1 hh).2 ((hholder id h').1 hh').2

theorem SendInv.step (hinv : SendInv capacity past s) (h : messageSender.step s e = some s') :
    SendInv capacity (past ++ [e]) s' := by
  have hskip : ∀ handler request, acceptedOps (past ++ [.request handler request])
      = acceptedOps past := by
    intro handler request
    rw [acceptedOps_append]
    exact List.append_nil _
  cases e with
  | request handler request =>
    obtain ⟨hidle, rfl | ⟨message, rfl⟩ | ⟨message, operation, -, haccepted, hflight, rfl⟩⟩ :=
      step_request h
    · exact ⟨hinv.capacity_eq, by rw [hskip]; exact hinv.order_eq, hinv.mirrors,
        hinv.inFlight_nodup, hinv.disjoint, hinv.holder, hinv.unique⟩
    · refine hinv.setPhase (hskip handler request) fun id => ?_
      rw [hidle]
      exact iff_of_false (fun hid => by cases hid) fun hid => hid
    · exact hinv.take (hskip handler request) hidle haccepted hflight
  | sent handler operation succeeded =>
    obtain ⟨⟨message, hphase⟩, rfl⟩ := step_sent h
    refine hinv.setPhase ?_ fun id => ?_
    · rw [acceptedOps_append]
      exact List.append_nil _
    · rw [hphase]
      rfl
  | recorded handler operation succeeded =>
    obtain ⟨hphase, rfl⟩ := step_recorded h
    cases operation with
    | some operation => exact hinv.release hphase
    | none =>
      refine hinv.setPhase ?_ fun id => ?_
      · rw [acceptedOps_append]
        exact List.append_nil _
      · rw [hphase]
        exact iff_of_false (fun hid => hid) fun hid => by cases hid
  | dropped handler =>
    obtain rfl := step_dropped h
    refine ⟨hinv.capacity_eq, ?_, hinv.mirrors, hinv.inFlight_nodup, hinv.disjoint, hinv.holder,
      hinv.unique⟩
    rw [acceptedOps_append]
    exact hinv.order_eq.trans (congrArg _ (List.append_nil _).symm)

theorem sendInv_start (capacity : ℕ) : SendInv (max capacity 1) [] (.start capacity) :=
  ⟨rfl, rfl, ⟨List.nodup_nil, List.nodup_nil, fun _ => Iff.rfl⟩, List.nodup_nil,
    fun _ hid => absurd hid List.not_mem_nil,
    fun _ => iff_of_false List.not_mem_nil fun ⟨_, hh⟩ => hh, fun _ _ _ hh => hh.elim⟩

theorem sendInv_of_run {es : List SendEvent}
    (h : messageSender.run (.start capacity) es = some s) : SendInv (max capacity 1) es s :=
  messageSender.run_history (sendInv_start capacity) (fun _ _ _ _ _ hinv hstep => hinv.step hstep) h

/-! ## One operation over a run -/

/-- A send of the operation succeeds. -/
def succeeds (operation : MessageOperationId) : SendEvent → Bool
  | .sent _ operation' succeeded => operation' = some operation && succeeded
  | _ => false

/-- Between the operation's acceptance and any later request for it, fewer others than the capacity
are accepted. -/
def Remembered (capacity : ℕ) (operation : MessageOperationId) (es : List SendEvent) : Prop :=
  ∀ past handler mid handler' request future,
    es = past ++ .recorded handler (some operation) true ::
      (mid ++ .request handler' request :: future) →
    request.Names operation → ((acceptedOps mid).toFinset.erase operation).card < capacity

theorem Remembered.of_append {operation : MessageOperationId} {es fs : List SendEvent}
    (h : Remembered capacity operation (es ++ fs)) : Remembered capacity operation es := by
  intro past handler mid handler' request future hes hnames
  refine h past handler mid handler' request (future ++ fs) ?_ hnames
  rw [hes]
  simp

theorem mem_acceptedOps {operation : MessageOperationId} {es : List SendEvent} :
    operation ∈ acceptedOps es ↔ ∃ handler, .recorded handler (some operation) true ∈ es := by
  unfold acceptedOps
  rw [List.mem_filterMap]
  constructor
  · rintro ⟨e, he, hop⟩
    split at hop
    · obtain rfl := Option.some.inj hop
      exact ⟨_, he⟩
    · cases hop
  · rintro ⟨handler, he⟩
    exact ⟨_, he, rfl⟩

section Operation

variable {operation : MessageOperationId} {es : List SendEvent}

/-- An operation is not remembered at the moment it is accepted. -/
theorem fresh_at_acceptance {handler : ℕ} {mid : List SendEvent}
    (hrun : messageSender.run (.start capacity)
      (past ++ .recorded handler (some operation) true :: mid) = some s) :
    operation ∉ (acceptedOps past).foldl (Recent.remember (max capacity 1)) [] := by
  obtain ⟨t, ht, hrest⟩ := messageSender.run_append_eq_some.1 hrun
  obtain ⟨t', hstep, -⟩ := messageSender.run_cons_eq_some.1 hrest
  obtain ⟨hphase, -⟩ := step_recorded hstep
  have hinv := sendInv_of_run ht
  have hheld : (t.phase handler).Holds operation := by
    rw [hphase]
    rfl
  rw [← hinv.order_eq, ← hinv.mirrors.mem_iff]
  exact hinv.disjoint operation ((hinv.holder operation).2 ⟨handler, hheld⟩)

/-- An accepted operation is recognised as long as few enough others were accepted since. -/
theorem mem_accepted (hrun : messageSender.run (.start capacity) past = some s)
    (hmem : operation ∈ acceptedOps past)
    (hfew : ∀ past₀ handler mid, past = past₀ ++ .recorded handler (some operation) true :: mid →
      ((acceptedOps mid).toFinset.erase operation).card < max capacity 1) :
    operation ∈ s.registry.accepted := by
  obtain ⟨handler, he⟩ := mem_acceptedOps.1 hmem
  obtain ⟨past₀, mid, rfl⟩ := List.append_of_mem he
  have hinv := sendInv_of_run hrun
  have hops : acceptedOps (past₀ ++ .recorded handler (some operation) true :: mid)
      = acceptedOps past₀ ++ operation :: acceptedOps mid := by
    rw [acceptedOps_append]
    rfl
  rw [hinv.mirrors.mem_iff, hinv.order_eq, hops, List.foldl_append, List.foldl_cons]
  obtain ⟨hnodup, hlength⟩ := Recent.foldl_remember_spec (acceptedOps past₀) List.nodup_nil
    (Nat.zero_le (max capacity 1))
  exact Recent.mem_foldl_remember_of_new (by omega) hnodup hlength (fresh_at_acceptance hrun)
    (hfew past₀ handler mid rfl)

/-- Once a send of the operation succeeded, its handler holds it or it is accepted; an accepted
operation no handler holds. -/
structure SentOnce (operation : MessageOperationId) (past : List SendEvent) (s : SendState) :
    Prop where
  le_one : past.countP (succeeds operation) ≤ 1
  outcome : 0 < past.countP (succeeds operation) →
    (∃ h, s.phase h = .returned (some operation) true) ∨ operation ∈ acceptedOps past
  free : operation ∈ acceptedOps past → ∀ h, ¬ (s.phase h).Holds operation

/-- A step that frees no handler about to accept the operation, and gives it to none once it is
accepted, keeps this. -/
theorem SentOnce.keep (honce : SentOnce operation past s) (hcount : succeeds operation e = false)
    (hops : operation ∉ acceptedOps [e])
    (hreturned : ∀ h, s.phase h = .returned (some operation) true →
      s'.phase h = .returned (some operation) true)
    (hfree : operation ∈ acceptedOps past → ∀ h, ¬ (s'.phase h).Holds operation) :
    SentOnce operation (past ++ [e]) s' := by
  have hsame : (past ++ [e]).countP (succeeds operation) = past.countP (succeeds operation) := by
    rw [List.countP_append, List.countP_singleton, hcount]
    rfl
  have hmem : operation ∈ acceptedOps (past ++ [e]) ↔ operation ∈ acceptedOps past := by
    rw [acceptedOps_append, List.mem_append]
    exact or_iff_left hops
  refine ⟨hsame ▸ honce.le_one, ?_, ?_⟩
  · rw [hsame, hmem]
    exact fun hpos => (honce.outcome hpos).imp_left fun ⟨h, hh⟩ => ⟨h, hreturned h hh⟩
  · rwa [hmem]

theorem SentOnce.setPhase {handler : ℕ} {phase : SendPhase} (honce : SentOnce operation past s)
    (hs' : ∀ h, s'.phase h = if h = handler then phase else s.phase h)
    (hcount : succeeds operation e = false) (hops : operation ∉ acceptedOps [e])
    (hreturned : s.phase handler ≠ .returned (some operation) true)
    (hholds : phase.Holds operation → operation ∉ acceptedOps past) :
    SentOnce operation (past ++ [e]) s' := by
  refine honce.keep hcount hops (fun h hh => ?_) fun hmem h hh => ?_
  · rw [hs', if_neg]
    · exact hh
    · rintro rfl
      exact hreturned hh
  · rw [hs'] at hh
    split_ifs at hh
    · exact hholds hh hmem
    · exact honce.free hmem h hh

/-- A send that succeeds is the first, since its handler holds the operation. -/
theorem SentOnce.sent {handler : ℕ} {message : OutboundMessage} (honce : SentOnce operation past s)
    (hinv : SendInv capacity past s)
    (hphase : s.phase handler = .sending message (some operation)) :
    SentOnce operation (past ++ [.sent handler (some operation) true])
      (s.setPhase handler (.returned (some operation) true)) := by
  have hheld : (s.phase handler).Holds operation := by
    rw [hphase]
    rfl
  have hfree : operation ∉ acceptedOps past := fun hmem => honce.free hmem handler hheld
  have hzero : past.countP (succeeds operation) = 0 := by
    by_contra hpos
    rcases honce.outcome (by omega) with ⟨h, hh⟩ | hmem
    · obtain rfl : h = handler := hinv.unique operation h handler (by rw [hh]; rfl) hheld
      rw [hphase] at hh
      cases hh
    · exact hfree hmem
  refine ⟨?_, fun _ => .inl ⟨handler, ?_⟩, fun hmem => ?_⟩
  · rw [List.countP_append, hzero, Nat.zero_add]
    exact List.countP_le_length
  · rw [setPhase_phase, if_pos rfl]
  · rw [acceptedOps_append, List.mem_append] at hmem
    exact absurd hmem (not_or.2 ⟨hfree, List.not_mem_nil⟩)

/-- To accept the operation frees the one handler that held it. -/
theorem SentOnce.accepted {handler : ℕ} {registry : MessageOperationRegistry}
    (honce : SentOnce operation past s) (hinv : SendInv capacity past s)
    (hphase : s.phase handler = .returned (some operation) true) :
    SentOnce operation (past ++ [.recorded handler (some operation) true])
      ({ s with registry }.setPhase handler .idle) := by
  have hheld : (s.phase handler).Holds operation := by
    rw [hphase]
    rfl
  refine ⟨?_, fun _ => .inr ?_, fun _ h hh => ?_⟩
  · rw [List.countP_append]
    exact honce.le_one
  · rw [acceptedOps_append, List.mem_append]
    exact .inr List.mem_cons_self
  · rw [setPhase_phase] at hh
    split_ifs at hh with hhandler
    · exact hh
    · exact hhandler (hinv.unique operation h handler hh hheld)

theorem SentOnce.step (honce : SentOnce operation past s)
    (hrun : messageSender.run (.start capacity) past = some s)
    (hremembered : Remembered (max capacity 1) operation (past ++ [e]))
    (h : messageSender.step s e = some s') : SentOnce operation (past ++ [e]) s' := by
  have hinv := sendInv_of_run hrun
  cases e with
  | request handler request =>
    obtain ⟨hidle, hcases⟩ := step_request h
    have hreturned : s.phase handler ≠ .returned (some operation) true := by simp [hidle]
    rcases hcases with rfl | ⟨message, rfl⟩ | ⟨message, operation', hnames, haccepted, -, rfl⟩
    · exact honce.keep rfl List.not_mem_nil (fun _ hh => hh) honce.free
    · exact honce.setPhase (fun _ => rfl) rfl List.not_mem_nil hreturned fun hh => by cases hh
    · refine honce.setPhase (fun _ => rfl) rfl List.not_mem_nil hreturned fun hh hmem => ?_
      obtain rfl := Option.some.inj hh
      refine haccepted (mem_accepted hrun hmem fun past₀ handler' mid hpast => ?_)
      refine hremembered past₀ handler' mid handler request [] ?_ hnames
      rw [hpast]
      simp
  | sent handler operation' succeeded =>
    obtain ⟨⟨message, hphase⟩, rfl⟩ := step_sent h
    by_cases hown : operation' = some operation ∧ succeeded = true
    · obtain ⟨rfl, rfl⟩ := hown
      exact honce.sent hinv hphase
    · refine honce.setPhase (fun _ => rfl) ?_ List.not_mem_nil (by simp [hphase]) fun hh hmem => ?_
      · rw [succeeds, ← Bool.not_eq_true, Bool.and_eq_true, decide_eq_true_iff]
        exact hown
      · exact honce.free hmem handler (by rw [hphase]; exact hh)
  | recorded handler operation' succeeded =>
    obtain ⟨hphase, rfl⟩ := step_recorded h
    by_cases hown : operation' = some operation ∧ succeeded = true
    · obtain ⟨rfl, rfl⟩ := hown
      exact honce.accepted hinv hphase
    · refine honce.setPhase (fun _ => rfl) rfl (fun hmem => ?_) ?_ fun hh => hh.elim
      · obtain ⟨handler', hmem⟩ := mem_acceptedOps.1 hmem
        obtain ⟨-, rfl, rfl⟩ := SendEvent.recorded.inj (List.mem_singleton.1 hmem)
        exact hown ⟨rfl, rfl⟩
      · rw [hphase]
        exact fun heq => hown (SendPhase.returned.inj heq)
  | dropped handler =>
    obtain rfl := step_dropped h
    exact honce.keep rfl List.not_mem_nil (fun _ hh => hh) honce.free

theorem sentOnce_of_run (hrun : messageSender.run (.start capacity) es = some s)
    (hremembered : Remembered (max capacity 1) operation es) : SentOnce operation es s := by
  refine messageSender.run_history (P := fun past t =>
    Remembered (max capacity 1) operation past → SentOnce operation past t) ?_ ?_ hrun hremembered
  · exact fun _ => ⟨Nat.zero_le 1, fun hpos => absurd hpos (lt_irrefl 0),
      fun hmem => absurd hmem List.not_mem_nil⟩
  · intro past t e t' hpast ih hstep hremembered
    exact (ih hremembered.of_append).step hpast hremembered hstep

/-- A later request finds the operation accepted, or held by the handler whose send succeeded. -/
theorem SentOnce.answer {message : OutboundMessage} (honce : SentOnce operation past s)
    (hrun : messageSender.run (.start capacity) past = some s)
    (hfew : ∀ past₀ handler mid, past = past₀ ++ .recorded handler (some operation) true :: mid →
      ((acceptedOps mid).toFinset.erase operation).card < max capacity 1)
    (hsent : ∃ handler, .sent handler (some operation) true ∈ past)
    (hmessage : OutboundMessage.new request.recipient request.body = .ok message)
    (hnames : request.Names operation) :
    (sendMessage s.registry request).1 = .duplicate ∨
      (sendMessage s.registry request).1 = .conflict ∧
        ∃ h, s.phase h = .returned (some operation) true := by
  have hinv := sendInv_of_run hrun
  rw [sendMessage_of_names hmessage hnames]
  obtain ⟨handler, hsent⟩ := hsent
  have hpos : 0 < past.countP (succeeds operation) :=
    List.countP_pos_iff.2 ⟨_, hsent, by simp [succeeds]⟩
  rcases honce.outcome hpos with ⟨h, hh⟩ | hmem
  · have hflight : operation ∈ s.registry.inFlight :=
      (hinv.holder operation).2 ⟨h, by rw [hh]; rfl⟩
    rw [if_neg (hinv.disjoint operation hflight), if_pos hflight]
    exact .inr ⟨rfl, h, hh⟩
  · rw [if_pos (mem_accepted hrun hmem hfew)]
    exact .inl rfl

/-! ## After a failure -/

/-- The operation is nowhere in the registry and no handler holds it. -/
structure Released (operation : MessageOperationId) (s : SendState) : Prop where
  accepted : operation ∉ s.registry.accepted
  inFlight : operation ∉ s.registry.inFlight
  holder : ∀ h, ¬ (s.phase h).Holds operation

theorem SendInv.released_of_failed {handler : ℕ} (hinv : SendInv capacity past s)
    (h : messageSender.step s (.recorded handler (some operation) false) = some s') :
    Released operation s' := by
  have hinv' := hinv.step h
  obtain ⟨hphase, rfl⟩ := step_recorded h
  have hflight : operation ∈ s.registry.inFlight :=
    (hinv.holder operation).2 ⟨handler, by rw [hphase]; rfl⟩
  have hgone : operation ∉ s.registry.inFlight.erase operation :=
    fun hmem => (hinv.inFlight_nodup.mem_erase_iff.1 hmem).1 rfl
  exact ⟨hinv.disjoint operation hflight, hgone,
    fun h hh => hgone ((hinv'.holder operation).2 ⟨h, hh⟩)⟩

/-- Only a request for the operation takes it up again. -/
theorem Released.step (hfree : Released operation s)
    (hother : ∀ handler request, e = .request handler request → ¬ request.Names operation)
    (h : messageSender.step s e = some s') : Released operation s' := by
  cases e with
  | request handler request =>
    obtain ⟨-, rfl | ⟨message, rfl⟩ | ⟨message, operation', hnames, -, -, rfl⟩⟩ := step_request h
    · exact hfree
    · refine ⟨hfree.accepted, hfree.inFlight, fun h hh => ?_⟩
      rw [setPhase_phase] at hh
      split_ifs at hh
      · cases hh
      · exact hfree.holder h hh
    · have hne : operation ≠ operation' := by
        rintro rfl
        exact hother handler request rfl hnames
      refine ⟨hfree.accepted, List.not_mem_cons_of_ne_of_not_mem hne hfree.inFlight, fun h hh => ?_⟩
      rw [setPhase_phase] at hh
      split_ifs at hh
      · exact hne (Option.some.inj hh).symm
      · exact hfree.holder h hh
  | sent handler operation' succeeded =>
    obtain ⟨⟨message, hphase⟩, rfl⟩ := step_sent h
    refine ⟨hfree.accepted, hfree.inFlight, fun h hh => ?_⟩
    rw [setPhase_phase] at hh
    split_ifs at hh
    · exact hfree.holder handler (by rw [hphase]; exact hh)
    · exact hfree.holder h hh
  | recorded handler operation' succeeded =>
    obtain ⟨hphase, rfl⟩ := step_recorded h
    have hne : operation' ≠ some operation := by
      rintro rfl
      exact hfree.holder handler (by rw [hphase]; rfl)
    have hregistry : operation ∉ (recordOutcome s.registry operation' succeeded).accepted ∧
        operation ∉ (recordOutcome s.registry operation' succeeded).inFlight := by
      rcases operation' with - | operation'
      · exact ⟨hfree.accepted, hfree.inFlight⟩
      cases succeeded with
      | false => exact ⟨hfree.accepted, fun hmem => hfree.inFlight (List.mem_of_mem_erase hmem)⟩
      | true =>
        refine ⟨fun hmem => ?_, fun hmem => hfree.inFlight (List.mem_of_mem_erase hmem)⟩
        rcases MessageOperationRegistry.mem_or_eq_of_mem_accept hmem with hmem | rfl
        · exact hfree.accepted hmem
        · exact hne rfl
    refine ⟨hregistry.1, hregistry.2, fun h hh => ?_⟩
    rw [setPhase_phase] at hh
    split_ifs at hh
    · exact hh
    · exact hfree.holder h hh
  | dropped handler =>
    obtain rfl := step_dropped h
    exact ⟨hfree.accepted, hfree.inFlight, hfree.holder⟩

/-- The first request for the operation after a failure sends it again. -/
theorem sends_after_failure {handler : ℕ} {mid : List SendEvent} {message : OutboundMessage}
    (hrun : messageSender.run (.start capacity)
      (past ++ .recorded handler (some operation) false :: mid) = some s)
    (hmid : ∀ handler request, .request handler request ∈ mid → ¬ request.Names operation)
    (hmessage : OutboundMessage.new request.recipient request.body = .ok message)
    (hnames : request.Names operation) :
    (sendMessage s.registry request).1 = .send message (some operation) := by
  obtain ⟨t, ht, hrest⟩ := messageSender.run_append_eq_some.1 hrun
  obtain ⟨t', hstep, hmidrun⟩ := messageSender.run_cons_eq_some.1 hrest
  have hfree : Released operation s :=
    messageSender.run_invariant_of_mem
      (fun _ _ he _ hu hstep =>
        hu.step (fun handler request heq => hmid handler request (heq ▸ he)) hstep)
      ((sendInv_of_run ht).released_of_failed hstep) hmidrun
  rw [sendMessage_of_names hmessage hnames, if_neg hfree.accepted, if_neg hfree.inFlight]

/-! ## The whole run -/

/-- As long as an accepted operation is remembered, its send succeeds at most once; every request
after that is a duplicate, or a conflict while the success is not recorded; and after a failure the
next request sends again. -/
theorem operation_sent_at_most_once {capacity : ℕ} {es : List SendEvent} {s : SendState}
    {operation : MessageOperationId} (hrun : messageSender.run (.start capacity) es = some s)
    (hremembered : Remembered (max capacity 1) operation es) :
    es.countP (succeeds operation) ≤ 1 ∧
      ∀ past handler request future t message, es = past ++ .request handler request :: future →
        messageSender.run (.start capacity) past = some t → request.Names operation →
        OutboundMessage.new request.recipient request.body = .ok message →
        ((∃ handler', .sent handler' (some operation) true ∈ past) →
          (sendMessage t.registry request).1 = .duplicate ∨
            (sendMessage t.registry request).1 = .conflict ∧
              ∃ h, t.phase h = .returned (some operation) true) ∧
        ∀ past₀ handler' mid, past = past₀ ++ .recorded handler' (some operation) false :: mid →
          (∀ handler'' request', .request handler'' request' ∈ mid →
            ¬ request'.Names operation) →
          (sendMessage t.registry request).1 = .send message (some operation) := by
  refine ⟨(sentOnce_of_run hrun hremembered).le_one, ?_⟩
  rintro past handler request future t message rfl ht hnames hmessage
  constructor
  · intro hsent
    have honce := sentOnce_of_run ht hremembered.of_append
    refine honce.answer ht (fun past₀ handler' mid hpast => ?_) hsent hmessage hnames
    refine hremembered past₀ handler' mid handler request future ?_ hnames
    rw [hpast]
    simp
  · rintro past₀ handler' mid rfl hmid
    exact sends_after_failure ht hmid hmessage hnames

/-- A run that accepts no more than the capacity remembers every operation. -/
theorem remembered_of_length_le (h : (acceptedOps es).length ≤ capacity) :
    Remembered capacity operation es := by
  rintro past handler mid handler' request future rfl -
  rw [acceptedOps_append, List.length_append] at h
  have hcons : acceptedOps (.recorded handler (some operation) true ::
      (mid ++ .request handler' request :: future))
        = operation :: (acceptedOps mid ++ acceptedOps (.request handler' request :: future)) := by
    rw [← acceptedOps_append]
    rfl
  rw [hcons, List.length_cons, List.length_append] at h
  have hcard := Finset.card_le_card (Finset.erase_subset operation (acceptedOps mid).toFinset)
  have hlength := List.toFinset_card_le (acceptedOps mid)
  omega

end Operation

/-- The identifier of an operation sent twice below. -/
def retriedOperation : MessageOperationId where
  value := "0123456789abcdef0123456789abcdef"
  length_eq := rfl
  isLower := by simp [Hex.IsLower]

/-- The run of a request and its retry, which spells the identifier in lower case. -/
def retriedRun : List SendEvent :=
  [.request 0 ⟨"+12025550101", "On my way", some "0123456789ABCDEF0123456789ABCDEF"⟩,
    .sent 0 (some retriedOperation) true, .recorded 0 (some retriedOperation) true,
    .request 1 ⟨"+12025550101", "On my way", some "0123456789abcdef0123456789abcdef"⟩]

theorem operation_sent_at_most_once_retry :
    (∃ s, messageSender.run (.start 256) retriedRun = some s) ∧
      retriedRun.countP (succeeds retriedOperation) ≤ 1 := by
  have hrun : (messageSender.run (.start 256) retriedRun).isSome = true := by decide +kernel
  obtain ⟨s, hs⟩ := Option.isSome_iff_exists.1 hrun
  refine ⟨⟨s, hs⟩, (operation_sent_at_most_once hs (remembered_of_length_le ?_)).1⟩
  decide

/-! ## The client's draft -/

section Draft

variable {draft draft' : MessageSendDraft} {generated recipient body operationId : String}

theorem operationIdFor_spec (h : draft.operationIdFor generated recipient body
    = .ok (operationId, draft')) :
    draft' = ⟨some recipient, some body, some operationId⟩ ∧
      validOperationId operationId = true := by
  unfold MessageSendDraft.operationIdFor at h
  dsimp only at h
  rcases hkept : draft.operationId.filter _ with - | kept
  · rw [hkept] at h
    dsimp only at h
    split_ifs at h with hvalid
    obtain ⟨rfl, rfl⟩ := Prod.mk.inj (Except.ok.inj h)
    exact ⟨rfl, hvalid⟩
  · rw [hkept] at h
    obtain ⟨rfl, rfl⟩ := Prod.mk.inj (Except.ok.inj h)
    obtain ⟨hid, hsame⟩ := Option.filter_eq_some_iff.1 hkept
    simp only [Bool.and_eq_true, decide_eq_true_iff] at hsame
    obtain ⟨⟨hrecipient, hbody⟩, hvalid⟩ := hsame
    exact ⟨by rw [← hrecipient, ← hbody, ← hid], hvalid⟩

/-- Until it is accepted, each retry of a message takes the identifier the first one took, and the
daemon reads it as one operation. -/
theorem operationIdFor_retry (h : draft.operationIdFor generated recipient body
    = .ok (operationId, draft')) :
    (∀ generated', draft'.operationIdFor generated' recipient body = .ok (operationId, draft')) ∧
      ∃ operation, MessageOperationId.new operationId = .ok operation := by
  obtain ⟨rfl, hvalid⟩ := operationIdFor_spec h
  refine ⟨fun generated' => ?_, ?_⟩
  · unfold MessageSendDraft.operationIdFor
    simp [Option.filter, hvalid]
  · obtain ⟨operation, hnew, -⟩ := MessageOperationId.new_of_valid hvalid
    exact ⟨operation, hnew⟩

end Draft

end AnalogConnect
