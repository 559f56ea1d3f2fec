import AnalogConnect.MapSession

/-!
# What the outbox's statements do to an entry

Each statement is followed through the status and the payload it leaves every entry with. None
makes an entry queued but the one that adds it, and none changes what an entry says.
-/

namespace AnalogConnect

namespace OutboxStore

variable {s s' : OutboxStore} {id k : ℕ}

def statusOf (s : OutboxStore) (id : ℕ) : Option OutboxStatus :=
  (s.outbox.find? id).map (·.status)

/-- An entry that is still to be sent, or has yet to be made. -/
def Fresh (s : OutboxStore) (id : ℕ) : Prop :=
  s.statusOf id = none ∨ s.statusOf id = some .queued

theorem statusOf_updateOutbox {f : OutboxRow → OutboxRow} {status : OutboxStatus}
    (hf : ∀ row, (f row).id = row.id) (hstatus : ∀ row, (f row).status = status) :
    (s.updateOutbox id f hf).statusOf k
      = if k = id then (s.statusOf k).map fun _ => status else s.statusOf k := by
  rw [statusOf, statusOf, updateOutbox, Table.find?_modify]
  rcases hfind : s.outbox.find? k with - | row
  · simp
  · have hk : row.id = k := (Table.find?_eq_some.1 hfind).2
    simp only [Option.map_some, hk, decide_eq_true_eq]
    split_ifs
    · rw [hstatus]
    · rfl

theorem statusOf_resolve {status : OutboxStatus} {nowMs : ℤ} {error : Option String}
    (h : s.resolve id status nowMs error = .ok s') :
    status ≠ .queued ∧ s'.lastOutboxId = s.lastOutboxId ∧
      ∀ k, s'.statusOf k = if k = id then (s.statusOf k).map fun _ => status else s.statusOf k := by
  cases status
  case queued => cases h
  all_goals
    injection h with h
    subst h
    exact ⟨by simp, rfl, fun k => statusOf_updateOutbox _ fun _ => rfl⟩

theorem statusOf_completeSend {oldHandle newHandle : String} {nowMs : ℤ}
    (h : s.completeSend id oldHandle newHandle nowMs = .ok s') :
    s'.lastOutboxId = s.lastOutboxId ∧
      ∀ k, s'.statusOf k = if k = id then (s.statusOf k).map fun _ => .sent else s.statusOf k := by
  rw [completeSend] at h
  split at h
  · cases h
  · injection h with h
    subst h
    exact ⟨rfl, fun k => statusOf_updateOutbox _ fun _ => rfl⟩

/-- A new entry is queued under an id no entry had. -/
theorem statusOf_enqueueSend {msg : NewMessage} {command payload : String} {createdAt : ℤ}
    {msgRowid : Int64}
    (h : s.enqueueSend msg command payload createdAt = .ok ((msgRowid, id), s')) :
    id = s.lastOutboxId + 1 ∧ s'.lastOutboxId = id ∧ s.statusOf id = none ∧
      ∀ k, s'.statusOf k = if k = id then some .queued else s.statusOf k := by
  simp only [enqueueSend] at h
  split at h
  · cases h
  · split at h
    · cases h
    · split_ifs at h with hnone
      injection h with h
      obtain ⟨hid, rfl⟩ := Prod.mk.inj h
      obtain ⟨-, rfl⟩ := Prod.mk.inj hid
      refine ⟨rfl, rfl, by rw [statusOf, hnone]; rfl, fun k => ?_⟩
      rw [statusOf, Table.find?_insert]
      split_ifs with hk
      · rfl
      · rfl

def payloadOf (s : OutboxStore) (id : ℕ) : Option String := (s.outbox.find? id).map (·.payload)

theorem mem_pending {row : OutboxRow} :
    row ∈ s.pending ↔ row ∈ s.outbox.rows ∧ row.status = .queued := by
  rw [pending, List.mem_insertionSort, List.mem_filter, decide_eq_true_eq]

theorem statusOf_of_mem_pending {row : OutboxRow} (h : row ∈ s.pending) :
    s.statusOf row.id = some .queued := by
  obtain ⟨hrow, hstatus⟩ := mem_pending.1 h
  rw [statusOf, Table.find?_eq_some.2 ⟨hrow, rfl⟩, Option.map_some, hstatus]

theorem nodup_pending (s : OutboxStore) : (s.pending.map (·.id)).Nodup := by
  have hperm := List.perm_insertionSort (fun a b : OutboxRow => a.createdAt ≤ b.createdAt)
    (s.outbox.rows.filter fun row => row.status = .queued)
  rw [pending, (hperm.map (·.id)).nodup_iff]
  exact s.outbox.nodup.sublist (List.filter_sublist.map _)

/-- A statement that takes no entry away and queues none. -/
def Steady (f : OutboxStore → Except OutboxError OutboxStore) : Prop :=
  ∀ s s', f s = .ok s' →
    (∀ k, (s.statusOf k).isSome → (s'.statusOf k).isSome) ∧ ∀ k, s'.Fresh k → s.Fresh k

/-- A steady statement after which an entry of the outbox is no longer to be sent. -/
structure Settles (f : OutboxStore → Except OutboxError OutboxStore) (id : ℕ) : Prop where
  steady : Steady f
  settled : ∀ s s', f s = .ok s' → (s.statusOf id).isSome → ¬ s'.Fresh id

theorem steady_of_outbox {f : OutboxStore → Except OutboxError OutboxStore}
    (h : ∀ s s', f s = .ok s' → s'.outbox = s.outbox) : Steady f := by
  intro s s' hs
  have hstatus : ∀ k, s'.statusOf k = s.statusOf k := fun k => by
    rw [statusOf, h s s' hs, statusOf]
  exact ⟨fun k hk => (hstatus k).symm ▸ hk, fun k hk => by rwa [Fresh, hstatus] at hk⟩

theorem settles_of_status {f : OutboxStore → Except OutboxError OutboxStore}
    (h : ∀ s s', f s = .ok s' → ∃ status, status ≠ .queued ∧ ∀ k, s'.statusOf k
      = if k = id then (s.statusOf k).map fun _ => status else s.statusOf k) :
    Settles f id := by
  refine ⟨fun s s' hs => ?_, fun s s' hs => ?_⟩
  · obtain ⟨status, hqueued, hk⟩ := h s s' hs
    refine ⟨fun k hsome => ?_, fun k hfresh => ?_⟩
    · rw [hk k]
      split_ifs
      · simpa using hsome
      · exact hsome
    · rw [Fresh, hk k] at hfresh
      split_ifs at hfresh with heq
      · rcases hfresh with hfresh | hfresh
        · exact .inl (Option.map_eq_none_iff.1 hfresh)
        · obtain ⟨-, -, heq⟩ := Option.map_eq_some_iff.1 hfresh
          exact absurd heq hqueued
      · exact hfresh
  · obtain ⟨status, hqueued, hk⟩ := h s s' hs
    intro hsome hfresh
    rw [Fresh, hk id, if_pos rfl] at hfresh
    rcases hfresh with hfresh | hfresh
    · rw [Option.map_eq_none_iff.1 hfresh] at hsome
      cases hsome
    · obtain ⟨-, -, heq⟩ := Option.map_eq_some_iff.1 hfresh
      exact hqueued heq

theorem settles_resolve (id : ℕ) (status : OutboxStatus) (nowMs : ℤ) (error : Option String) :
    Settles (fun s => s.resolve id status nowMs error) id :=
  settles_of_status fun _ _ h => by
    obtain ⟨hqueued, -, hk⟩ := statusOf_resolve h
    exact ⟨status, hqueued, hk⟩

theorem settles_completeSend (id : ℕ) (oldHandle newHandle : String) (nowMs : ℤ) :
    Settles (fun s => s.completeSend id oldHandle newHandle nowMs) id :=
  settles_of_status fun _ _ h => ⟨.sent, by simp, (statusOf_completeSend h).2⟩

theorem steady_updateOutgoingStatus (handle : String) (status : OutgoingStatus) :
    Steady fun s => .ok (s.updateOutgoingStatus handle status) :=
  steady_of_outbox fun s s' h => by
    injection h with h
    rw [← h, updateOutgoingStatus]

/-- The outgoing state of the message under a handle. -/
def stateAt (s : OutboxStore) (handle : String) : Option OutgoingStatus :=
  (s.store.messages.find? handle).bind (·.outgoingStatus)

theorem stateAt_updateOutgoingStatus (handle h : String) (status : OutgoingStatus) :
    (s.updateOutgoingStatus handle status).stateAt h = s.stateAt h ∨
      (s.updateOutgoingStatus handle status).stateAt h = some status := by
  rw [stateAt, updateOutgoingStatus, Store.updateOutgoingStatus, Table.find?_modify, stateAt]
  rcases s.store.messages.find? h with - | row
  · exact .inl rfl
  · simp only [Option.map_some, Option.bind_some]
    split_ifs
    · exact .inr rfl
    · exact .inl rfl

/-- A statement that keeps what every entry says, and makes only such entries and handles sent as
`sent`. -/
structure Records (f : OutboxStore → Except OutboxError OutboxStore) (sent : ℕ → String → Prop) :
    Prop where
  payloadOf : ∀ s s', f s = .ok s' → ∀ k, s'.payloadOf k = s.payloadOf k
  statusOf : ∀ s s', f s = .ok s' → ∀ k, s'.statusOf k = some .sent →
    s.statusOf k = some .sent ∨ ∃ handle, sent k handle
  stateAt : ∀ s s', f s = .ok s' → ∀ handle, s'.stateAt handle = some .sentUnconfirmed →
    s.stateAt handle = some .sentUnconfirmed ∨ ∃ k, sent k handle

theorem records_updateOutgoingStatus (handle : String) {status : OutgoingStatus}
    (hstatus : status ≠ .sentUnconfirmed) :
    Records (fun s => .ok (s.updateOutgoingStatus handle status)) fun _ _ => False where
  payloadOf s s' h k := by
    obtain rfl := Except.ok.inj h
    rfl
  statusOf s s' h k hk := by
    obtain rfl := Except.ok.inj h
    exact .inl hk
  stateAt s s' h k hstate := by
    obtain rfl := Except.ok.inj h
    rcases stateAt_updateOutgoingStatus (s := s) handle k status with heq | heq
    · exact .inl (heq.symm.trans hstate)
    · exact absurd (Option.some.inj (heq.symm.trans hstate)) hstatus

end OutboxStore

end AnalogConnect
