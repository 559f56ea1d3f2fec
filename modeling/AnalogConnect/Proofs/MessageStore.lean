import AnalogConnect.MessageStore

/-!
# What the store's writes do to one message

For a message handle, a write matters through the message's conversation key, its group assignment
and its ambiguity marker. One lemma for each operation says what becomes of them.
-/

namespace AnalogConnect

namespace Store

/-- The conversation a message is listed under. -/
def keyOf (s : Store) (handle : String) : Option String :=
  (s.messages.find? handle).map (·.conversationKey)

/-- The group a message is assigned to. -/
def assignedTo (s : Store) (handle : String) : Option String :=
  (s.assignments.find? handle).map (·.groupId)

/-- Competing evidence has been seen for the message, and nothing has resolved it. -/
def Marked (s : Store) (handle : String) : Prop := s.ambiguous.find? handle ≠ none

/-- `s'` has the assignments and the markers of `s`. -/
structure SameEvidence (s s' : Store) : Prop where
  assignments : s'.assignments = s.assignments
  ambiguous : s'.ambiguous = s.ambiguous

variable {s s' : Store}

theorem SameEvidence.assignedTo_eq (h : SameEvidence s s') (handle : String) :
    s'.assignedTo handle = s.assignedTo handle := by
  rw [assignedTo, h.assignments, assignedTo]

theorem SameEvidence.marked_iff (h : SameEvidence s s') {handle : String} :
    s'.Marked handle ↔ s.Marked handle := by
  rw [Marked, h.ambiguous, Marked]

/-! ## Messages -/

theorem step_upsert {msg : NewMessage} :
    s.step (.upsert msg) = some s' ↔ s.upsert msg = .ok s' := by
  rw [Store.step]
  rcases s.upsert msg with error | s'' <;> simp [Except.toOption]

theorem upsert_ok {msg : NewMessage} (h : s.upsert msg = .ok s') :
    SameEvidence s s' ∧ ∀ handle, s'.keyOf handle
      = if handle = msg.mapHandle then some msg.conversationKey else s.keyOf handle := by
  unfold upsert at h
  split_ifs at h
  rw [Except.ok.injEq] at h
  subst h
  refine ⟨⟨rfl, rfl⟩, fun handle => ?_⟩
  simp only [keyOf, Table.find?_upsert, newRow]
  split_ifs
  · cases s.messages.find? handle <;> rfl
  · rfl

theorem keyOf_reconcileOutgoing (s : Store) (outgoing handle : String) :
    (s.reconcileOutgoing outgoing).keyOf handle = s.keyOf handle := by
  simp only [keyOf, reconcileOutgoing, Table.find?_modify, Option.map_map]
  congr 1
  funext row
  simp only [Function.comp_apply]
  split_ifs <;> rfl

/-! ## Markers -/

theorem markAncsAmbiguous_ok {mapHandle : String} {observedAt : ℤ}
    (h : s.markAncsAmbiguous mapHandle observedAt = .ok s') :
    s'.messages = s.messages ∧ s'.assignments = s.assignments ∧
      ∀ handle, s'.Marked handle ↔ handle = mapHandle ∨ s.Marked handle := by
  unfold markAncsAmbiguous at h
  split_ifs at h
  rw [Except.ok.injEq] at h
  subst h
  refine ⟨rfl, rfl, fun handle => ?_⟩
  simp only [Marked, Table.find?_upsert]
  split_ifs with hhandle <;> simp [hhandle]

theorem markAll_spec (observedAt : ℤ) : ∀ (mapHandles : List String) (s : Store),
    (s.markAll observedAt mapHandles).2.messages = s.messages ∧
    (s.markAll observedAt mapHandles).2.assignments = s.assignments ∧
    (∀ handle, s.Marked handle → (s.markAll observedAt mapHandles).2.Marked handle) ∧
    ((s.markAll observedAt mapHandles).1 = .ok () →
      ∀ handle ∈ mapHandles, (s.markAll observedAt mapHandles).2.Marked handle)
  | [], s => by simp [markAll]
  | mapHandle :: mapHandles, s => by
    rcases hmark : s.markAncsAmbiguous mapHandle observedAt with error | s'
    · simp [markAll, hmark]
    · obtain ⟨hmessages, hassignments, hmarked⟩ := markAncsAmbiguous_ok hmark
      obtain ⟨ihmessages, ihassignments, ihmarked, ihall⟩ := markAll_spec observedAt mapHandles s'
      simp only [markAll, hmark]
      refine ⟨ihmessages.trans hmessages, ihassignments.trans hassignments,
        fun handle h => ihmarked handle ((hmarked handle).2 (.inr h)), fun hok handle hmem => ?_⟩
      rcases List.mem_cons.1 hmem with rfl | hmem
      · exact ihmarked handle ((hmarked handle).2 (.inl rfl))
      · exact ihall hok handle hmem

theorem marked_clearAncsAmbiguous {handle mapHandle : String} (hne : handle ≠ mapHandle)
    (h : s.Marked handle) : (s.clearAncsAmbiguous mapHandle).Marked handle := by
  obtain ⟨row, hrow⟩ := Option.ne_none_iff_exists'.1 h
  rw [Marked, clearAncsAmbiguous, Table.find?_delete, hrow]
  simp [(Table.find?_eq_some.1 hrow).2, hne]

/-! ## Groups -/

/-- What an assignment can do: fail for want of the message, find the message in another group and
flag both, or put it in the group. -/
theorem assignAncsGroup_cases (s : Store) (mapHandle groupId displaySubtitle sender : String)
    (uid : NotificationUid) (seenAt : ℤ) :
    (s.assignAncsGroup mapHandle groupId displaySubtitle sender uid seenAt
        = .error .connection) ∨
    (∃ existing, s.assignedTo mapHandle = some existing ∧ existing ≠ groupId ∧
      s.assignAncsGroup mapHandle groupId displaySubtitle sender uid seenAt
        = .ok (.identityConflict,
          (s.recordGroup groupId displaySubtitle seenAt).flagConflict existing groupId)) ∨
    ((∀ existing, s.assignedTo mapHandle = some existing → existing = groupId) ∧
      s.assignAncsGroup mapHandle groupId displaySubtitle sender uid seenAt
        = .ok (.assigned, (s.recordGroup groupId displaySubtitle seenAt).recordAssignment
          mapHandle groupId sender uid seenAt)) := by
  have hassigned : (s.recordGroup groupId displaySubtitle seenAt).assignments = s.assignments := rfl
  unfold assignAncsGroup assignedTo
  simp only [hassigned]
  rcases hfind : s.assignments.find? mapHandle with - | existing
  · simp only
    split_ifs
    · exact .inl rfl
    · exact .inr (.inr ⟨by simp, rfl⟩)
  · simp only
    split_ifs with hne
    · exact .inr (.inl ⟨existing.groupId, rfl, hne, rfl⟩)
    · refine .inr (.inr ⟨?_, rfl⟩)
      rintro group hgroup
      rw [← Option.some.inj hgroup]
      exact Decidable.of_not_not hne

theorem sameEvidence_flagConflict (s : Store) (groupId displaySubtitle existingGroup : String)
    (seenAt : ℤ) :
    SameEvidence s ((s.recordGroup groupId displaySubtitle seenAt).flagConflict existingGroup
      groupId) := ⟨rfl, rfl⟩

theorem keyOf_recordAssignment (s : Store) (mapHandle groupId sender : String)
    (uid : NotificationUid) (seenAt : ℤ) (handle : String) :
    (s.recordAssignment mapHandle groupId sender uid seenAt).keyOf handle
      = (s.keyOf handle).map fun key => if handle = mapHandle then groupId else key := by
  simp only [keyOf, recordAssignment, Table.find?_modify, Option.map_map]
  rcases hfind : s.messages.find? handle with - | row
  · rfl
  · obtain ⟨-, rfl⟩ := Table.find?_eq_some.1 hfind
    simp only [Option.map_some, Function.comp_apply, decide_eq_true_eq]
    split_ifs <;> rfl

theorem assignedTo_recordAssignment (s : Store) (mapHandle groupId sender : String)
    (uid : NotificationUid) (seenAt : ℤ) (handle : String) :
    (s.recordAssignment mapHandle groupId sender uid seenAt).assignedTo handle
      = if handle = mapHandle then some ((s.assignedTo handle).getD groupId)
        else s.assignedTo handle := by
  simp only [assignedTo, recordAssignment, Table.find?_upsert]
  split_ifs
  · cases s.assignments.find? handle <;> rfl
  · rfl

theorem marked_recordAssignment {mapHandle groupId sender : String} {uid : NotificationUid}
    {seenAt : ℤ} {handle : String} (hne : handle ≠ mapHandle) (h : s.Marked handle) :
    (s.recordAssignment mapHandle groupId sender uid seenAt).Marked handle :=
  marked_clearAncsAmbiguous hne h

end Store

end AnalogConnect
