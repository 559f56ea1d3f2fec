import AnalogConnect.Proofs.WatchSession

/-!
# A message's id is its own for good

A message keeps the columns that say what it is, and its id goes to no other message, whatever
happens to the store; only its handle, its folder, its conversation and its states change
(`message_facts_fixed`). So an outbox entry that refers to a message by id refers to the text it was
made for as long as that message is there (`outbox_entry_linked`).
-/

namespace AnalogConnect

open OutboxStore

/-- The columns that are written once. -/
structure MessageFacts where
  rowid : Int64
  timestampMs : ℤ
  direction : Direction
  address : String
  text : String
deriving DecidableEq

def MessageRow.facts (row : MessageRow) : MessageFacts :=
  ⟨row.rowid, row.timestampMs, row.direction, row.address, row.text⟩

namespace Store

def facts (s : Store) : List MessageFacts := s.messages.rows.map MessageRow.facts

/-- The messages of `s'` are among those of `s` and new ones, whose ids were given out since. -/
structure DescendsBy (s s' : Store) (new : List MessageFacts) (ids : List ℕ) : Prop where
  sublist : List.Sublist s'.facts (s.facts ++ new)
  rowids : new.map (·.rowid) = ids.map Int64.ofNat
  ordered : ids.Pairwise (· < ·)
  given : ∀ n ∈ ids, s.lastRowid < n ∧ n ≤ s'.lastRowid
  lastRowid : s.lastRowid ≤ s'.lastRowid
  bound : s.lastRowid < 2 ^ 63 → s'.lastRowid < 2 ^ 63

def Descends (s s' : Store) : Prop := ∃ new ids, s.DescendsBy s' new ids

variable {s s' s'' : Store}

theorem Descends.of_sublist (hfacts : List.Sublist s'.facts s.facts)
    (hle : s.lastRowid ≤ s'.lastRowid) (hbound : s.lastRowid < 2 ^ 63 → s'.lastRowid < 2 ^ 63) :
    s.Descends s' :=
  ⟨[], [], by rwa [List.append_nil], rfl, .nil, by simp, hle, hbound⟩

theorem Descends.of_eq (hfacts : s'.facts = s.facts) (hlast : s'.lastRowid = s.lastRowid) :
    s.Descends s' :=
  .of_sublist (by rw [hfacts]) hlast.ge fun h => hlast ▸ h

theorem Descends.trans (h : s.Descends s') (h' : s'.Descends s'') : s.Descends s'' := by
  obtain ⟨new, ids, hsub, hrowids, hordered, hgiven, hle, hbound⟩ := h
  obtain ⟨new', ids', hsub', hrowids', hordered', hgiven', hle', hbound'⟩ := h'
  refine ⟨new ++ new', ids ++ ids', ?_, ?_, ?_, ?_, hle.trans hle', fun h => hbound' (hbound h)⟩
  · rw [← List.append_assoc]
    exact hsub'.trans (hsub.append_right new')
  · rw [List.map_append, hrowids, hrowids', List.map_append]
  · exact List.pairwise_append.2 ⟨hordered, hordered', fun m hm n hn =>
      (hgiven m hm).2.trans_lt (hgiven' n hn).1⟩
  · intro n hn
    rcases List.mem_append.1 hn with hn | hn
    · exact ⟨(hgiven n hn).1, (hgiven n hn).2.trans hle'⟩
    · exact ⟨hle.trans_lt (hgiven' n hn).1, (hgiven' n hn).2⟩

theorem facts_modify {p : MessageRow → Bool} {f : MessageRow → MessageRow}
    {hf : ∀ row, (f row).mapHandle = row.mapHandle} (h : ∀ row, (f row).facts = row.facts) :
    ({ s with messages := s.messages.modify p f hf } : Store).facts = s.facts :=
  s.messages.map_rows_modify p f hf h

/-- A message that was not there takes the next id. -/
theorem descends_of_append (msg : NewMessage)
    (hfacts : s'.facts = s.facts ++ [(newRow (s.lastRowid + 1) msg).facts])
    (hlast : s'.lastRowid = s.lastRowid + 1) (hbound : s.lastRowid + 1 < 2 ^ 63) :
    s.Descends s' :=
  ⟨[(newRow (s.lastRowid + 1) msg).facts], [s.lastRowid + 1], by rw [hfacts], rfl,
    List.pairwise_singleton _ _, by simp [hlast], by omega, fun _ => hlast ▸ hbound⟩

theorem descends_upsert {msg : NewMessage} (h : s.upsert msg = .ok s') : s.Descends s' := by
  unfold upsert at h
  split_ifs at h with hroom
  rw [Except.ok.injEq] at h
  subst h
  have hrows := s.messages.map_rows_upsert (newRow (s.lastRowid + 1) msg)
    (fun row => { row with
      conversationKey := msg.conversationKey
      participants := msg.participants })
    (fun _ => rfl) (g := MessageRow.facts) fun _ => rfl
  by_cases hnew : s.messages.find? (newRow (s.lastRowid + 1) msg).mapHandle = none
  · rw [if_pos hnew] at hrows
    exact descends_of_append msg hrows rfl hroom
  · rw [if_neg hnew, List.append_nil] at hrows
    -- the id the sequence gave out goes to no message
    refine .of_sublist ?_ (Nat.le_succ _) fun _ => hroom
    rw [facts, hrows, facts]

theorem insertMessage_ok {msg : NewMessage} {rowid : Int64}
    (h : s.insertMessage msg = .ok (rowid, s')) :
    rowid = Int64.ofNat (s.lastRowid + 1) ∧ s.lastRowid + 1 < 2 ^ 63 ∧
      s'.facts = s.facts ++ [(newRow (s.lastRowid + 1) msg).facts] ∧
        s'.lastRowid = s.lastRowid + 1 := by
  unfold insertMessage at h
  simp only at h
  split_ifs at h with hroom
  obtain ⟨hrowid, rfl⟩ := Prod.mk.inj (Except.ok.inj h)
  refine ⟨hrowid.symm, hroom, ?_, rfl⟩
  rw [facts, facts, Table.insert, List.map_append, List.map_singleton]

theorem descends_promote {old new : String} {status : OutgoingStatus}
    (h : s.promote old new status = .ok s') : s.Descends s' := by
  have hrekey : ∀ {f : MessageRow → MessageRow} (hf hnew), (∀ row, (f row).facts = row.facts) →
      (s.messages.rekey old new f hf hnew).rows.map MessageRow.facts = s.facts :=
    fun hf hnew hfacts => s.messages.map_rows_rekey old new _ hf hnew hfacts
  unfold promote at h
  split_ifs at h <;> obtain rfl := Except.ok.inj h
  · exact .of_eq rfl rfl
  · exact .of_eq (hrekey (fun _ _ => rfl) ‹new = _ ∨ s.messages.find? new = none› fun _ => rfl) rfl
  · exact .of_eq (hrekey (fun _ _ => rfl) ‹new = _ ∨ s.messages.find? new = none› fun _ => rfl) rfl

theorem descends_applyCorrelation (result : CorrelationResult) :
    s.Descends (s.applyCorrelation result).2 := by
  cases result with
  | group mapHandle uid groupId displaySubtitle sender observed =>
    rw [applyCorrelation]
    rcases assignAncsGroup_cases s mapHandle groupId displaySubtitle sender uid observed.toInt with
      heq | ⟨existing, -, -, heq⟩ | ⟨-, heq⟩ <;> rw [heq]
    · exact .of_eq rfl rfl
    · exact .of_eq rfl rfl
    · exact .of_eq (facts_modify (s := s) fun _ => by rfl) rfl
  | directCandidate mapHandle uid => exact .of_eq rfl rfl
  | pending => exact .of_eq rfl rfl
  | ambiguous mapHandles observed =>
    have hall := markAll_eq observed.toInt mapHandles s
    rw [applyCorrelation]
    rcases hresult : s.markAll observed.toInt mapHandles with ⟨error | ok, t⟩ <;>
      rw [hresult] at hall <;> exact hall ▸ .of_eq rfl rfl

end Store

/-! ## Every statement -/

theorem descends_deleteByHandle {s s' : OutboxStore} {handle : String}
    (h : s.deleteByHandle handle = .ok s') :
    s.store.Descends s'.store ∧ s'.outbox = s.outbox := by
  have hdelete : List.Sublist
      ((s.store.messages.delete fun row => row.mapHandle = handle).rows.map MessageRow.facts)
      s.store.facts := List.filter_sublist.map _
  simp only [OutboxStore.deleteByHandle] at h
  split at h
  · obtain rfl := Except.ok.inj h
    exact ⟨.of_eq rfl rfl, rfl⟩
  · split_ifs at h <;> obtain rfl := Except.ok.inj h
    · exact ⟨.of_sublist hdelete le_rfl id, rfl⟩
    · exact ⟨.of_sublist hdelete le_rfl id, rfl⟩

theorem enqueueSend_ok {msg : NewMessage} {command payload : String} {createdAt : ℤ}
    {s s' : OutboxStore} {a : Int64 × ℕ}
    (h : s.enqueueSend msg command payload createdAt = .ok (a, s')) :
    s.store.lastRowid + 1 < 2 ^ 63 ∧
      s'.store.facts = s.store.facts ++ [(Store.newRow (s.store.lastRowid + 1) msg).facts] ∧
        s'.store.lastRowid = s.store.lastRowid + 1 ∧
          ∃ entry, s'.outbox.rows = s.outbox.rows ++ [entry] ∧ entry.payload = payload ∧
            entry.localMessageId = some (Int64.ofNat (s.store.lastRowid + 1)) := by
  simp only [enqueueSend] at h
  split at h
  · cases h
  · split at h
    · cases h
    · rename_i rowid store hinsert
      split_ifs at h with hid
      obtain ⟨-, rfl⟩ := Prod.mk.inj (Except.ok.inj h)
      obtain ⟨hrowid, hroom, hfacts, hlast⟩ := Store.insertMessage_ok hinsert
      exact ⟨hroom, hfacts, hlast, _, rfl, rfl, by rw [hrowid]⟩

/-- The entries of `s'` are those of `s`, as far as their message goes. -/
def SameLinks (s s' : OutboxStore) : Prop := ∀ entry' ∈ s'.outbox.rows, ∃ entry ∈ s.outbox.rows,
  entry'.localMessageId = entry.localMessageId ∧ entry'.payload = entry.payload

theorem sameLinks_of_outbox {s s' : OutboxStore} (h : s'.outbox = s.outbox) : SameLinks s s' :=
  fun entry he => ⟨entry, h ▸ he, rfl, rfl⟩

theorem sameLinks_updateOutbox (s : OutboxStore) (id : ℕ) (f : OutboxRow → OutboxRow)
    (hf : ∀ row, (f row).id = row.id)
    (hlink : ∀ row, (f row).localMessageId = row.localMessageId ∧ (f row).payload = row.payload) :
    SameLinks s (s.updateOutbox id f hf) := by
  intro entry' he
  obtain ⟨entry, hmem, rfl⟩ := List.mem_map.1 he
  refine ⟨entry, hmem, ?_⟩
  split_ifs
  · exact hlink entry
  · exact ⟨rfl, rfl⟩

theorem sameLinks_resolve {id : ℕ} {status : OutboxStatus} {nowMs : ℤ} {error : Option String}
    {s s' : OutboxStore} (h : s.resolve id status nowMs error = .ok s') : SameLinks s s' := by
  cases status <;> simp only [resolve, reduceCtorEq, Except.ok.injEq] at h <;> subst h <;>
    exact sameLinks_updateOutbox s id _ _ fun _ => ⟨rfl, rfl⟩

theorem completeSend_ok {id : ℕ} {oldHandle newHandle : String} {nowMs : ℤ} {s s' : OutboxStore}
    (h : s.completeSend id oldHandle newHandle nowMs = .ok s') :
    s.store.Descends s'.store ∧ SameLinks s s' := by
  unfold completeSend at h
  split at h
  · simp at h
  · rename_i store hpromote
    obtain rfl := Except.ok.inj h
    exact ⟨Store.descends_promote hpromote,
      sameLinks_updateOutbox { s with store } id _ _ fun _ => ⟨rfl, rfl⟩⟩

theorem respects_descends : RespectsAll fun s s' => s.store.Descends s'.store where
  refl _ := .of_eq rfl rfl
  trans _ _ _ := .trans
  enqueueSend _ _ _ _ _ _ h := by
    obtain ⟨hroom, hfacts, hlast, -⟩ := enqueueSend_ok h
    exact Store.descends_of_append _ hfacts hlast hroom
  resolve _ _ _ _ _ _ h := .of_eq (by rw [store_resolve h]) (by rw [store_resolve h])
  completeSend _ _ _ _ _ h := (completeSend_ok h).1
  updateOutgoingStatus _ _ s := .of_eq (Store.facts_modify fun _ => by rfl) rfl
  upsert _ _ _ h := Store.descends_upsert (upsert_ok h)
  reconcileOutgoing _ s := .of_eq (Store.facts_modify fun _ => by rfl) rfl
  updateFolder _ _ s := .of_eq (Store.facts_modify fun _ => by rfl) rfl
  updateStatus _ _ s := .of_eq (Store.facts_modify fun _ => by rfl) rfl
  setCursor _ _ := .of_eq rfl rfl
  deleteByHandle _ _ _ h := (descends_deleteByHandle h).1
  applyCorrelation result _ := Store.descends_applyCorrelation result

/-! ## Ids -/

theorem ofNat_inj {m n : ℕ} (hm : m < 2 ^ 63) (hn : n < 2 ^ 63)
    (h : Int64.ofNat m = Int64.ofNat n) : m = n := by
  have hint := congrArg Int64.toInt h
  rw [Int64.toInt_ofNat_of_lt hm, Int64.toInt_ofNat_of_lt hn] at hint
  exact_mod_cast hint

/-- Ids in order are distinct as long as they have room. -/
theorem nodup_rowids {ids : List ℕ} (hordered : ids.Pairwise (· < ·))
    (hroom : ∀ n ∈ ids, n < 2 ^ 63) : (ids.map Int64.ofNat).Nodup := by
  refine List.Nodup.map_on (fun m hm n hn heq => ?_) (hordered.imp fun h => h.ne)
  exact ofNat_inj (hroom m hm) (hroom n hn) heq

theorem facts_eq_of_rowid {s s' : Store} (h : s.Descends s')
    (hs : (Store.empty s.foreignKeys).Descends s) {a b : MessageFacts} (ha : a ∈ s.facts)
    (hb : b ∈ s'.facts) (hrowid : b.rowid = a.rowid) : b = a := by
  obtain ⟨old, oldIds, hold⟩ := hs
  obtain ⟨new, newIds, hnew⟩ := h
  have hroom := hnew.bound (hold.bound (show 0 < 2 ^ 63 by decide))
  have hnodup : ((s.facts ++ new).map (·.rowid)).Nodup := by
    have hall : ((old ++ new).map (·.rowid)).Nodup := by
      rw [List.map_append, hold.rowids, hnew.rowids, ← List.map_append]
      refine nodup_rowids (List.pairwise_append.2 ⟨hold.ordered, hnew.ordered, ?_⟩) ?_
      · exact fun m hm n hn => (hold.given m hm).2.trans_lt (hnew.given n hn).1
      · intro n hn
        rcases List.mem_append.1 hn with hn | hn
        · exact ((hold.given n hn).2.trans hnew.lastRowid).trans_lt hroom
        · exact (hnew.given n hn).2.trans_lt hroom
    refine hall.sublist (List.Sublist.map _ (List.Sublist.append_right ?_ new))
    exact hold.sublist
  have ha' : a ∈ s.facts ++ new := List.mem_append_left _ ha
  exact List.inj_on_of_nodup_map hnodup (hnew.sublist.subset hb) ha' hrowid

/-- Whatever happens between two states of a run, a message of the later one that has the id of a
message of the earlier one is that message: its text, its address, its time and its direction are
the same. -/
theorem message_facts_fixed (env : PhoneEnv) (foreignKeys : Bool) (events later : List WatchEvent)
    {w w' : WatchWorld} (hrun : (watchSession env).run (.start foreignKeys) events = some w)
    (hlater : (watchSession env).run w later = some w') (row row' : MessageRow)
    (hrow : row ∈ w.map.db.store.messages.rows) (hrow' : row' ∈ w'.map.db.store.messages.rows)
    (hrowid : row'.rowid = row.rowid) :
    row'.timestampMs = row.timestampMs ∧ row'.direction = row.direction ∧
      row'.address = row.address ∧ row'.text = row.text := by
  have hstart : (Store.empty foreignKeys).Descends w.map.db.store :=
    since_run respects_descends hrun
  have hempty : (Store.empty w.map.db.store.foreignKeys).Descends w.map.db.store := by
    obtain ⟨new, ids, h⟩ := hstart
    exact ⟨new, ids, h.sublist, h.rowids, h.ordered, h.given, h.lastRowid, h.bound⟩
  have hnew : w.map.db.store.Descends w'.map.db.store := since_run respects_descends hlater
  have hfacts : row'.facts = row.facts :=
    facts_eq_of_rowid hnew hempty (List.mem_map_of_mem hrow) (List.mem_map_of_mem hrow') hrowid
  simp only [MessageRow.facts, MessageFacts.mk.injEq] at hfacts
  exact hfacts.2

/-- A phone that takes every text under one handle. -/
def takingPhone : PhoneEnv where
  reply _ := .ok (some "20001")
  storeFate _ := .done
  streamEnded := ""
  listing _ _ := []
  message _ _ := ⟨⟨none, [], ""⟩, true⟩

/-- The text that is sent goes to the phone's handle, and then to another folder. -/
theorem message_facts_fixed_sent : ∃ w w' row row',
    (watchSession takingPhone).run (.start true) [.connect, .send "15550100" "hello" 0] = some w ∧
      (watchSession takingPhone).run w
          [.mnsEvent ⟨.messageShift, some "20001", some "telecom/msg/deleted"⟩ 1] = some w' ∧
        row ∈ w.map.db.store.messages.rows ∧ row' ∈ w'.map.db.store.messages.rows ∧
          row.folder = "sent" ∧ row'.folder = "telecom/msg/deleted" ∧
            row'.timestampMs = row.timestampMs ∧ row'.direction = row.direction ∧
              row'.address = row.address ∧ row'.text = row.text := by
  have hruns : ∃ w w',
      (watchSession takingPhone).run (.start true) [.connect, .send "15550100" "hello" 0] = some w ∧
        (watchSession takingPhone).run w
            [.mnsEvent ⟨.messageShift, some "20001", some "telecom/msg/deleted"⟩ 1] = some w' ∧
          w.map.db.store.messages.rows.map (fun row => (row.rowid, row.folder)) =
              [(1, "sent")] ∧
            w'.map.db.store.messages.rows.map (fun row => (row.rowid, row.folder)) =
              [(1, "telecom/msg/deleted")] := by
    refine ⟨_, _, rfl, rfl, ?_⟩
    decide +kernel
  obtain ⟨w, w', hrun, hlater, hrows, hrows'⟩ := hruns
  obtain ⟨row, hrow, hid⟩ := List.mem_map.1 (hrows ▸ List.mem_cons_self)
  obtain ⟨row', hrow', hid'⟩ := List.mem_map.1 (hrows' ▸ List.mem_cons_self)
  obtain ⟨hrowid, hfolder⟩ := Prod.mk.inj hid
  obtain ⟨hrowid', hfolder'⟩ := Prod.mk.inj hid'
  exact ⟨w, w', row, row', hrun, hlater, hrow, hrow', hfolder, hfolder',
    message_facts_fixed takingPhone true _ _ hrun hlater row row' hrow hrow'
      (hrowid'.trans hrowid.symm)⟩

/-! ## Entries -/

/-- Each entry refers to an id that was given out, and the message that has it is the text the entry
was made for. -/
structure Linked (s : OutboxStore) : Prop where
  bound : s.store.lastRowid < 2 ^ 63
  rowids : ∀ a ∈ s.store.facts, ∃ n ≤ s.store.lastRowid, a.rowid = Int64.ofNat n
  links : ∀ entry ∈ s.outbox.rows, ∃ n ≤ s.store.lastRowid,
    entry.localMessageId = some (Int64.ofNat n) ∧
      ∀ a ∈ s.store.facts, a.rowid = Int64.ofNat n →
        a.direction = .sent ∧ entry.payload = payload a.address a.text

/-- An id that is new is none that was given out. -/
theorem exists_rowid_of_descends {s s' : Store} (h : s.Descends s') {a : MessageFacts}
    (ha : a ∈ s'.facts) :
    a ∈ s.facts ∨ ∃ n, s.lastRowid < n ∧ n ≤ s'.lastRowid ∧ a.rowid = Int64.ofNat n := by
  obtain ⟨new, ids, hnew⟩ := h
  rcases List.mem_append.1 (hnew.sublist.subset ha) with ha | ha
  · exact .inl ha
  · have hmem : a.rowid ∈ new.map (·.rowid) := List.mem_map_of_mem ha
    rw [hnew.rowids, List.mem_map] at hmem
    obtain ⟨n, hn, hrowid⟩ := hmem
    obtain ⟨hlt, hle⟩ := hnew.given n hn
    exact .inr ⟨n, hlt, hle, hrowid.symm⟩

theorem Linked.of_descends {s s' : OutboxStore} (h : Linked s)
    (hstore : s.store.Descends s'.store) (hlinks : SameLinks s s') : Linked s' := by
  have ⟨hle, hbound⟩ : s.store.lastRowid ≤ s'.store.lastRowid ∧ s'.store.lastRowid < 2 ^ 63 := by
    obtain ⟨new, ids, hnew⟩ := hstore
    exact ⟨hnew.lastRowid, hnew.bound h.bound⟩
  refine ⟨hbound, fun a ha => ?_, fun entry' he => ?_⟩
  · rcases exists_rowid_of_descends hstore ha with ha | ⟨n, -, hn, hrowid⟩
    · obtain ⟨n, hn, hrowid⟩ := h.rowids a ha
      exact ⟨n, hn.trans hle, hrowid⟩
    · exact ⟨n, hn, hrowid⟩
  · obtain ⟨entry, hmem, hlocal, hpayload⟩ := hlinks entry' he
    obtain ⟨n, hn, hid, hall⟩ := h.links entry hmem
    refine ⟨n, hn.trans hle, hlocal.trans hid, fun a ha hrowid => ?_⟩
    rcases exists_rowid_of_descends hstore ha with ha | ⟨m, hm, hm', hrowid'⟩
    · rw [hpayload]
      exact hall a ha hrowid
    · have hmn := ofNat_inj (by omega) (by omega) (hrowid'.symm.trans hrowid)
      omega

theorem Linked.enqueueSend {s s' : OutboxStore} (h : Linked s) {number message : String} {now : ℤ}
    {a : Int64 × ℕ}
    (hsend : s.enqueueSend (sentMessage number message now) "send_sms" (payload number message) now
      = .ok (a, s')) : Linked s' := by
  obtain ⟨hroom, hfacts, hlast, entry, houtbox, hpayload, hid⟩ := enqueueSend_ok hsend
  have hstore := Store.descends_of_append _ hfacts hlast hroom
  have hold : Linked { s' with outbox := s.outbox } :=
    h.of_descends hstore (sameLinks_of_outbox rfl)
  refine ⟨hold.bound, hold.rowids, fun entry' he => ?_⟩
  rw [houtbox, List.mem_append, List.mem_singleton] at he
  rcases he with he | rfl
  · exact hold.links entry' he
  · refine ⟨s.store.lastRowid + 1, hlast ▸ le_rfl, hid, fun b hb hrowid => ?_⟩
    rw [hfacts, List.mem_append, List.mem_singleton] at hb
    rcases hb with hb | rfl
    · obtain ⟨n, hn, hrowid'⟩ := h.rowids b hb
      have hbound := h.bound
      have hmn := ofNat_inj (by omega) hroom (hrowid'.symm.trans hrowid)
      omega
    · exact ⟨rfl, hpayload⟩

theorem respects_linked : RespectsAll fun s s' => Linked s → Linked s' where
  refl _ h := h
  trans _ _ _ h h' hs := h' (h hs)
  enqueueSend _ _ _ _ _ _ hsend h := h.enqueueSend hsend
  resolve id status nowMs error s s' hresolve h :=
    h.of_descends (respects_descends.resolve id status nowMs error s s' hresolve)
      (sameLinks_resolve hresolve)
  completeSend _ _ _ _ _ hcomplete h :=
    h.of_descends (completeSend_ok hcomplete).1 (completeSend_ok hcomplete).2
  updateOutgoingStatus handle status s h :=
    h.of_descends (respects_descends.updateOutgoingStatus handle status s)
      (sameLinks_of_outbox rfl)
  upsert msg s s' hupsert h := by
    refine h.of_descends (respects_descends.upsert msg s s' hupsert) (sameLinks_of_outbox ?_)
    unfold OutboxStore.upsert at hupsert
    split at hupsert
    · simp at hupsert
    · exact Except.ok.inj hupsert ▸ rfl
  reconcileOutgoing handle s h :=
    h.of_descends (respects_descends.reconcileOutgoing handle s) (sameLinks_of_outbox rfl)
  updateFolder handle folder s h :=
    h.of_descends (respects_descends.updateFolder handle folder s) (sameLinks_of_outbox rfl)
  updateStatus handle status s h :=
    h.of_descends (respects_descends.updateStatus handle status s) (sameLinks_of_outbox rfl)
  setCursor cursor s h :=
    h.of_descends (respects_descends.setCursor cursor s) (sameLinks_of_outbox rfl)
  deleteByHandle _ _ _ hdelete h :=
    h.of_descends (descends_deleteByHandle hdelete).1
      (sameLinks_of_outbox (descends_deleteByHandle hdelete).2)
  applyCorrelation result s h :=
    h.of_descends (respects_descends.applyCorrelation result s) (sameLinks_of_outbox rfl)

/-- In every state of a run, the message that an outbox entry refers to, if it is still there, is a
sent one and has the number and the text that the entry sends. -/
theorem outbox_entry_linked (env : PhoneEnv) (foreignKeys : Bool) (events : List WatchEvent)
    {w : WatchWorld} (hrun : (watchSession env).run (.start foreignKeys) events = some w)
    (entry : OutboxRow) (hentry : entry ∈ w.map.db.outbox.rows) (row : MessageRow)
    (hrow : row ∈ w.map.db.store.messages.rows) (hid : entry.localMessageId = some row.rowid) :
    row.direction = .sent ∧ entry.payload = payload row.address row.text := by
  have hstart : Linked (OutboxStore.empty foreignKeys) := by
    constructor <;> simp [OutboxStore.empty, Store.empty, Store.facts, Table.empty]
  have hlinked : Linked w.map.db := since_run respects_linked hrun hstart
  obtain ⟨n, -, hn, hall⟩ := hlinked.links entry hentry
  rw [hid, Option.some.injEq] at hn
  exact hall row.facts (List.mem_map_of_mem hrow) hn

theorem outbox_entry_linked_sent : ∃ w entry row,
    (watchSession takingPhone).run (.start true) [.connect, .send "15550100" "hello" 0] = some w ∧
      entry ∈ w.map.db.outbox.rows ∧ row ∈ w.map.db.store.messages.rows ∧
        entry.localMessageId = some row.rowid ∧ row.direction = .sent ∧
          entry.payload = payload row.address row.text := by
  have hrun : ∃ w,
      (watchSession takingPhone).run (.start true) [.connect, .send "15550100" "hello" 0] = some w ∧
        w.map.db.outbox.rows.map (·.localMessageId) = [some 1] ∧
          w.map.db.store.messages.rows.map (·.rowid) = [1] := by
    refine ⟨_, rfl, ?_⟩
    decide +kernel
  obtain ⟨w, hrun, hentries, hrows⟩ := hrun
  obtain ⟨entry, hentry, hid⟩ := List.mem_map.1 (hentries ▸ List.mem_cons_self)
  obtain ⟨row, hrow, hrowid⟩ := List.mem_map.1 (hrows ▸ List.mem_cons_self)
  have hlink : entry.localMessageId = some row.rowid := by rw [hid, hrowid]
  exact ⟨w, entry, row, hrun, hentry, hrow, hlink,
    outbox_entry_linked takingPhone true _ hrun entry hentry row hrow hlink⟩

end AnalogConnect
