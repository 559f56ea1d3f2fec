import AnalogConnect.Library.OffsetPages
import AnalogConnect.Proofs.MapFolders
import AnalogConnect.Proofs.MessageStore
import AnalogConnect.WatchSession

/-!
# What a watch leaves alone

A relation that holds across each statement on the store holds across whatever a session does
between two catch-ups (`Respects`, `Since`). One such: nothing moves a folder's cursor or takes a
message out of the store but the phone's handle for a text that was sent (`Grows`). A listing that
goes through is read page after page from the calls it took (`listPages_ok`).
-/

namespace AnalogConnect

open Attempt

/-- A handle the store gives a text of its own, until the phone has one for it. -/
def IsPlaceholder (handle : String) : Prop := ∃ id, handle = OutboxStore.placeholder id

namespace Store

/-- The store has a message under the handle. -/
def Has (s : Store) (handle : String) : Prop := (s.messages.find? handle).isSome

/-- The phone's messages are still there, and the cursors where they were. -/
structure Grows (s s' : Store) : Prop where
  has : ∀ handle, ¬ IsPlaceholder handle → s.Has handle → s'.Has handle
  cursors : s'.folderCursors = s.folderCursors

variable {s s' s'' : Store}

theorem Grows.refl (s : Store) : s.Grows s := ⟨fun _ _ h => h, rfl⟩

theorem Grows.trans (h : s.Grows s') (h' : s'.Grows s'') : s.Grows s'' :=
  ⟨fun handle hp hs => h'.has handle hp (h.has handle hp hs), h'.cursors.trans h.cursors⟩

theorem Grows.of_messages (hmessages : s'.messages = s.messages)
    (hcursors : s'.folderCursors = s.folderCursors) : s.Grows s' :=
  ⟨fun handle _ h => by rwa [Has, hmessages], hcursors⟩

theorem has_modify {p : MessageRow → Bool} {f : MessageRow → MessageRow}
    {hf : ∀ row, (f row).mapHandle = row.mapHandle} {handle : String} :
    ((s.messages.modify p f hf).find? handle).isSome = (s.messages.find? handle).isSome := by
  rw [Table.find?_modify, Option.isSome_map]

theorem grows_reconcileOutgoing (handle : String) : s.Grows (s.reconcileOutgoing handle) :=
  ⟨fun _ _ h => by rwa [Has, reconcileOutgoing, has_modify], rfl⟩

theorem grows_updateOutgoingStatus (handle : String) (status : OutgoingStatus) :
    s.Grows (s.updateOutgoingStatus handle status) :=
  ⟨fun _ _ h => by rwa [Has, updateOutgoingStatus, has_modify], rfl⟩

theorem grows_updateFolder (handle folder : String) : s.Grows (s.updateFolder handle folder) :=
  ⟨fun _ _ h => by rwa [Has, updateFolder, has_modify], rfl⟩

theorem grows_updateStatus (handle : String) (status : ℤ) :
    s.Grows (s.updateStatus handle status) :=
  ⟨fun _ _ h => by rwa [Has, updateStatus, has_modify], rfl⟩

/-- An upsert that goes through has its message. -/
theorem grows_upsert {msg : NewMessage} (h : s.upsert msg = .ok s') :
    s.Grows s' ∧ s'.Has msg.mapHandle := by
  unfold upsert at h
  split_ifs at h
  rw [Except.ok.injEq] at h
  subst h
  refine ⟨⟨fun handle _ hhas => ?_, rfl⟩, ?_⟩
  · rw [Has, Table.find?_upsert]
    split_ifs
    · rfl
    · exact hhas
  · rw [Has, Table.find?_upsert, newRow]
    simp

theorem grows_insertMessage {msg : NewMessage} {rowid : Int64}
    (h : s.insertMessage msg = .ok (rowid, s')) : s.Grows s' := by
  unfold insertMessage at h
  simp only at h
  split_ifs at h
  obtain ⟨-, rfl⟩ := Prod.mk.inj (Except.ok.inj h)
  refine ⟨fun handle _ hhas => ?_, rfl⟩
  rw [Has, Table.find?_insert]
  split_ifs
  · rfl
  · exact hhas

/-- A message moves from its placeholder to the phone's handle. -/
theorem grows_promote {new : String} {status : OutgoingStatus} {id : ℕ}
    (h : s.promote (OutboxStore.placeholder id) new status = .ok s') : s.Grows s' := by
  have hrekey : ∀ {f : MessageRow → MessageRow} (hf hnew) (handle : String),
      ¬ IsPlaceholder handle → s.Has handle →
        ((s.messages.rekey (OutboxStore.placeholder id) new f hf hnew).find? handle).isSome := by
    intro f hf hnew handle hp hhas
    rw [Table.find?_rekey]
    have hold : handle ≠ OutboxStore.placeholder id := fun heq => hp ⟨id, heq⟩
    split_ifs with heq
    · subst heq
      rcases hnew with hnew | hnone
      · exact absurd hnew hold
      · rw [Has, hnone] at hhas
        simp at hhas
    · exact hhas
  unfold promote at h
  split_ifs at h <;> obtain rfl := Except.ok.inj h
  · exact .refl s
  · exact ⟨hrekey (fun _ _ => rfl) ‹new = _ ∨ s.messages.find? new = none›, rfl⟩
  · exact ⟨hrekey (fun _ _ => rfl) ‹new = _ ∨ s.messages.find? new = none›, rfl⟩

/-- Markers are all that is set. -/
theorem markAll_eq (observedAt : ℤ) : ∀ (mapHandles : List String) (s : Store),
    (s.markAll observedAt mapHandles).2
      = { s with ambiguous := (s.markAll observedAt mapHandles).2.ambiguous }
  | [], s => rfl
  | mapHandle :: mapHandles, s => by
    rw [markAll]
    rcases hone : s.markAncsAmbiguous mapHandle observedAt with error | t
    · rfl
    · simp only
      rw [markAll_eq observedAt mapHandles t]
      unfold markAncsAmbiguous at hone
      split_ifs at hone
      obtain rfl := Except.ok.inj hone
      rfl

theorem grows_applyCorrelation (result : CorrelationResult) :
    s.Grows (s.applyCorrelation result).2 := by
  cases result with
  | group mapHandle uid groupId displaySubtitle sender observed =>
    have hrecord : ∀ {t : Store}, s.Grows t → s.Grows
        (t.recordAssignment mapHandle groupId sender uid observed.toInt) := fun h =>
      ⟨fun handle hp hhas => by
        rw [Has, recordAssignment, has_modify]
        exact h.has handle hp hhas, h.cursors⟩
    rw [applyCorrelation]
    rcases assignAncsGroup_cases s mapHandle groupId displaySubtitle sender uid observed.toInt with
      heq | ⟨existing, -, -, heq⟩ | ⟨-, heq⟩ <;> rw [heq]
    · exact .refl s
    · exact .of_messages rfl rfl
    · exact hrecord (.of_messages rfl rfl)
  | directCandidate mapHandle uid => exact .of_messages rfl rfl
  | pending => exact .refl s
  | ambiguous mapHandles observed =>
    have hall := markAll_eq observed.toInt mapHandles s
    rw [applyCorrelation]
    rcases hresult : s.markAll observed.toInt mapHandles with ⟨error | ok, t⟩ <;>
      rw [hresult] at hall <;> exact hall ▸ .of_messages rfl rfl

end Store

/-! ## Calls of the store -/

namespace OutboxStore

/-- The relation holds across every statement that a session makes on its own account. -/
structure Respects (R : OutboxStore → OutboxStore → Prop) : Prop where
  refl : ∀ s, R s s
  trans : ∀ s s' s'', R s s' → R s' s'' → R s s''
  enqueueSend : ∀ number message now s a s',
    s.enqueueSend (sentMessage number message now) "send_sms" (payload number message) now
      = .ok (a, s') → R s s'
  resolve : ∀ id status nowMs error s s', s.resolve id status nowMs error = .ok s' → R s s'
  completeSend : ∀ id newHandle nowMs s s',
    s.completeSend id (placeholder id) newHandle nowMs = .ok s' → R s s'
  updateOutgoingStatus : ∀ handle status s, R s (s.updateOutgoingStatus handle status)
  upsert : ∀ msg s s', s.upsert msg = .ok s' → R s s'
  reconcileOutgoing : ∀ handle s, R s (s.reconcileOutgoing handle)
  updateFolder : ∀ handle folder s, R s (s.updateFolder handle folder)
  updateStatus : ∀ handle status s, R s (s.updateStatus handle status)

def Grows (s s' : OutboxStore) : Prop := s.store.Grows s'.store

theorem upsert_ok {s s' : OutboxStore} {msg : NewMessage} (h : s.upsert msg = .ok s') :
    s.store.upsert msg = .ok s'.store := by
  unfold upsert at h
  split at h
  · simp at h
  · rename_i store hupsert
    obtain rfl := Except.ok.inj h
    exact hupsert

theorem grows_enqueueSend {msg : NewMessage} {command payload : String} {createdAt : ℤ}
    {s s' : OutboxStore} {a : Int64 × ℕ}
    (h : s.enqueueSend msg command payload createdAt = .ok (a, s')) : s.Grows s' := by
  simp only [enqueueSend] at h
  split at h
  · cases h
  · split at h
    · cases h
    · rename_i rowid store hinsert
      split_ifs at h
      obtain ⟨-, rfl⟩ := Prod.mk.inj (Except.ok.inj h)
      exact Store.grows_insertMessage hinsert

theorem store_resolve {id : ℕ} {status : OutboxStatus} {nowMs : ℤ} {error : Option String}
    {s s' : OutboxStore} (h : s.resolve id status nowMs error = .ok s') : s'.store = s.store := by
  cases status <;> simp only [resolve, reduceCtorEq, Except.ok.injEq] at h <;> exact h ▸ rfl

theorem grows_completeSend {id : ℕ} {newHandle : String} {nowMs : ℤ} {s s' : OutboxStore}
    (h : s.completeSend id (placeholder id) newHandle nowMs = .ok s') : s.Grows s' := by
  unfold completeSend at h
  split at h
  · simp at h
  · rename_i store hpromote
    obtain rfl := Except.ok.inj h
    exact Store.grows_promote hpromote

theorem respects_grows : Respects Grows where
  refl _ := .refl _
  trans _ _ _ h h' := h.trans h'
  enqueueSend _ _ _ _ _ _ := grows_enqueueSend
  resolve _ _ _ _ _ _ h := .of_messages (by rw [store_resolve h]) (by rw [store_resolve h])
  completeSend _ _ _ _ _ := grows_completeSend
  updateOutgoingStatus handle status _ := Store.grows_updateOutgoingStatus handle status
  upsert _ _ _ h := (Store.grows_upsert (upsert_ok h)).1
  reconcileOutgoing handle _ := Store.grows_reconcileOutgoing handle
  updateFolder handle folder _ := Store.grows_updateFolder handle folder
  updateStatus handle status _ := Store.grows_updateStatus handle status

end OutboxStore

/-! ## Attempts on the store -/

section

variable {env : MapEnv} {R : OutboxStore → OutboxStore → Prop} {s : OutboxStore} {α : Type}

open MapWorld OutboxStore

/-- The store is one that `s` comes to. -/
def MapWorld.Since (R : OutboxStore → OutboxStore → Prop) (s : OutboxStore) (w : MapWorld) : Prop :=
  R s w.db

theorem since_same (w w' : MapWorld) (h : SameBooks w w') (hw : w.Since R s) : w'.Since R s := by
  rwa [Since, h.db]

theorem keeps_since_storeCall (hR : Respects R)
    {f : OutboxStore → Except OutboxError (α × OutboxStore)}
    (hf : ∀ s a s', f s = .ok (a, s') → R s s') : Keeps (Since R s) (storeCall env f) := by
  intro w hw
  rcases storeCall_cases env f w with ⟨a, db, hdb, h⟩ | ⟨e, h⟩ | ⟨db, hdb, h⟩
  · rw [h]
    exact hR.trans _ _ _ hw (hf _ _ _ hdb)
  · rw [h]
    exact hw
  · rw [h]
    rcases hdb with rfl | ⟨a, hdb⟩
    · exact hw
    · exact hR.trans _ _ _ hw (hf _ _ _ hdb)

theorem keeps_since_storeUpdate (hR : Respects R)
    {f : OutboxStore → Except OutboxError OutboxStore} (hf : ∀ s s', f s = .ok s' → R s s') :
    Keeps (Since R s) (storeUpdate env f) := by
  intro w hw
  rcases storeUpdate_cases env f w with ⟨db, hdb, h⟩ | ⟨e, h⟩ | ⟨db, hdb, h⟩
  · rw [h]
    exact hR.trans _ _ _ hw (hf _ _ hdb)
  · rw [h]
    exact hw
  · rw [h]
    rcases hdb with rfl | hdb
    · exact hw
    · exact hR.trans _ _ _ hw (hf _ _ hdb)

/-- An update that cannot fail of itself. -/
theorem keeps_since_storeSet (hR : Respects R) {f : OutboxStore → OutboxStore}
    (hf : ∀ s, R s (f s)) : Keeps (Since R s) (storeUpdate env fun db => .ok (f db)) :=
  keeps_since_storeUpdate hR fun s _ h => Except.ok.inj h ▸ hf s

/-- A call that only reads. -/
theorem keeps_since_storeRead (hR : Respects R) (f : OutboxStore → α) :
    Keeps (Since R s) (storeCall env fun db => .ok (f db, db)) :=
  keeps_since_storeCall hR fun db a db' h => by
    obtain ⟨-, rfl⟩ := Prod.mk.inj (Except.ok.inj h)
    exact hR.refl _

theorem keeps_since_warn (warning : Warning) : Keeps (Since R s) (warn warning) := fun _ hw => hw

theorem keeps_since_orWarn (warning : Warning) {x : MapM PUnit} (hx : Keeps (Since R s) x) :
    Keeps (Since R s) (orWarn warning x) := by
  refine (Keeps.outcome hx).bind fun result => ?_
  cases result with
  | ok _ => exact Meets.pure fun _ h => h
  | error _ => exact keeps_since_warn warning

theorem keeps_since_pushMessage (entry : ℕ) (phone text : String) :
    Keeps (Since R s) (pushMessage env entry phone text) := by
  intro w hw
  rcases pushMessage_cases env entry phone text w with ⟨-, -, hsame, -⟩ | ⟨-, -, hsent, -⟩
  · exact since_same w _ hsame hw
  · rwa [Since, hsent.db]

theorem keeps_since_processEntry (hR : Respects R) (now : ℤ) (entry : OutboxRow) :
    Keeps (Since R s) (processEntry env now entry) := by
  rw [processEntry]
  split
  · exact keeps_since_warn _
  · refine (Keeps.outcome (keeps_since_pushMessage _ _ _)).bind fun result => ?_
    cases result with
    | ok handle =>
      exact keeps_since_orWarn _ (keeps_since_storeUpdate hR (hR.completeSend _ _ _))
    | error error =>
      exact (keeps_since_warn _).bind fun _ =>
        (keeps_since_orWarn _ (keeps_since_storeUpdate hR (hR.resolve _ _ _ _))).bind fun _ =>
          keeps_since_orWarn _ (keeps_since_storeSet hR (hR.updateOutgoingStatus _ _))

theorem keeps_since_drainOutbox (hR : Respects R) (now : ℤ) :
    Keeps (Since R s) (drainOutbox env now) := by
  refine (keeps_since_storeRead hR pending).bind fun pending => ?_
  split_ifs
  · exact Meets.pure fun _ h => h
  · exact (keeps_setFolder since_same .outbox).bind fun _ =>
      Keeps.forM fun entry _ => keeps_since_processEntry hR now entry

theorem keeps_since_sendSms (hR : Respects R) (number message : String) (now : ℤ) :
    Keeps (Since R s) (sendSms env number message now) := by
  rw [sendSms]
  refine (keeps_since_storeCall hR (hR.enqueueSend number message now)).bind ?_
  rintro ⟨rowid, outboxId⟩
  refine (keeps_setFolder since_same .outbox).bind fun _ =>
    (keeps_since_storeUpdate hR (hR.resolve _ _ _ _)).bind fun _ =>
      (Keeps.outcome (keeps_since_pushMessage _ _ _)).bind fun result => ?_
  cases result with
  | ok handle =>
    exact (keeps_since_storeUpdate hR (hR.completeSend _ _ _)).bind fun _ =>
      Meets.pure fun _ h => h
  | error error =>
    exact (keeps_since_orWarn _ (keeps_since_storeUpdate hR (hR.resolve _ _ _ _))).bind fun _ =>
      (keeps_since_orWarn _ (keeps_since_storeSet hR (hR.updateOutgoingStatus _ _))).bind fun _ =>
        Meets.throw fun _ h => h

end

/-! ## Reading -/

section

variable {env : PhoneEnv} {P : MapWorld → Prop}

theorem keeps_listMessages (hrequest : Keeps P (request env.toMapEnv id fun _ w => w))
    (maxCount offset : ℕ) : Keeps P (listMessages env maxCount offset) := by
  have hget : Keeps P (get : MapM MapWorld) := fun _ hw => hw
  exact hget.bind fun w => hrequest.bind fun _ => Meets.pure fun _ h => h

theorem keeps_getMessage (hrequest : Keeps P (request env.toMapEnv id fun _ w => w))
    (handle : String) : Keeps P (getMessage env handle) := by
  have hget : Keeps P (get : MapM MapWorld) := fun _ hw => hw
  have hthrow : ∀ e : SendError, Keeps P (throw e : MapM PUnit) := fun e =>
    Meets.throw fun _ h => h
  have hask : Keeps P (do
      let w ← get
      let _ ← request env.toMapEnv id fun _ w => w
      pure (env.message w.calls handle) : MapM GotMessage) :=
    hget.bind fun w => hrequest.bind fun _ => Meets.pure fun _ h => h
  rw [getMessage]
  split_ifs
  · exact (hthrow _).bind fun _ => (hthrow _).bind fun _ => hask
  · exact (hthrow _).bind fun _ => hask
  · exact (hthrow _).bind fun _ => hask
  · exact hask

theorem keeps_listPages (hrequest : Keeps P (request env.toMapEnv id fun _ w => w)) :
    ∀ pages offset, Keeps P (listPages env pages offset)
  | 0, _ => Meets.pure fun _ h => h
  | pages + 1, offset => by
    refine (keeps_listMessages hrequest page offset).bind fun entries => ?_
    split_ifs
    · exact Meets.pure fun _ h => h
    · exact (keeps_listPages hrequest pages _).bind fun _ => Meets.pure fun _ h => h

theorem keeps_listFolder (hrequest : Keeps P (request env.toMapEnv id fun _ w => w))
    {folder : Folder} (hfolder : Keeps P (setFolder env.toMapEnv folder)) :
    Keeps P (listFolder env folder) := by
  have hget : Keeps P (get : MapM MapWorld) := fun _ hw => hw
  exact hfolder.bind fun _ => hget.bind fun _ => (keeps_listPages hrequest 64 0).bind fun _ =>
    hget.bind fun _ => Meets.pure fun _ h => h

theorem keeps_fetchEntries (hrequest : Keeps P (request env.toMapEnv id fun _ w => w))
    (folder : Folder) (sinceMs : Option ℤ) (now : ℤ) :
    ∀ entries, Keeps P (fetchEntries env folder sinceMs now entries)
  | [] => Meets.pure fun _ h => h
  | entry :: entries => by
    rw [fetchEntries]
    split_ifs
    · exact keeps_fetchEntries hrequest folder sinceMs now entries
    · exact (keeps_getMessage hrequest _).bind fun _ =>
        (keeps_fetchEntries hrequest folder sinceMs now entries).bind fun _ =>
          Meets.pure fun _ h => h

theorem keeps_fetchFolderOf (hrequest : Keeps P (request env.toMapEnv id fun _ w => w))
    {folder : Folder} (hfolder : Keeps P (setFolder env.toMapEnv folder)) (sinceMs : Option ℤ)
    (now : ℤ) : Keeps P (fetchFolderOf env folder sinceMs now) :=
  (keeps_listFolder hrequest hfolder).bind fun _ =>
    (keeps_fetchEntries hrequest folder sinceMs now _).bind fun _ => Meets.pure fun _ h => h

/-- A request that goes through is one call. -/
theorem request_ok {env : MapEnv} {w w' : MapWorld} {name : Option String}
    (h : go (request env id fun _ w => w) w = (.ok name, w')) :
    w' = { w with calls := w.calls + 1 } := by
  simp only [request, go_of] at h
  split_ifs at h
  · simp at h
  · cases hreply : env.reply w.calls <;> simp [hreply] at h
    exact h.2.symm

theorem getMessage_ok {handle : String} {w w' : MapWorld} {bmsg : GotMessage}
    (h : go (getMessage env handle) w = (.ok bmsg, w')) :
    bmsg = env.message w.calls handle ∧ w'.calls = w.calls + 1 := by
  unfold getMessage at h
  by_cases hempty : handle = ""
  · simp [hempty] at h
  by_cases hbreak : (handle.toList.any fun c => c = '\r' ∨ c = '\n') = true
  · rw [if_neg hempty, if_pos hbreak] at h
    simp at h
  rw [if_neg hempty, if_neg hbreak] at h
  simp only [go_bind, go_get, go_pure] at h
  rcases hrequest : go (request env.toMapEnv id fun _ w => w) w with ⟨e | name, w₁⟩
  · simp [hrequest] at h
  · simp only [hrequest, Prod.mk.injEq, Except.ok.injEq] at h
    obtain ⟨rfl, rfl⟩ := h
    exact ⟨rfl, by rw [request_ok hrequest]⟩

/-- The entries of a listing with the messages the phone answers for them, from a call on. Those
that the cursor skips are not asked for. -/
def PhoneEnv.fetched (env : PhoneEnv) (sinceMs : Option ℤ) :
    ℕ → List MessageEntry → List (MessageEntry × BMessage)
  | _, [] => []
  | call, entry :: entries =>
    if sinceMs.any fun since => entry.datetimeMs.getD i64Max < since then
      (entry, ⟨none, [], ""⟩) :: env.fetched sinceMs call entries
    else
      (entry, (env.message call entry.handle).toBMessage) :: env.fetched sinceMs (call + 1) entries

theorem map_fst_fetched (sinceMs : Option ℤ) : ∀ (entries : List MessageEntry) (call : ℕ),
    (env.fetched sinceMs call entries).map Prod.fst = entries
  | [], _ => rfl
  | entry :: entries, call => by
    rw [PhoneEnv.fetched]
    split_ifs
    · rw [List.map_cons, map_fst_fetched sinceMs entries]
    · rw [List.map_cons, map_fst_fetched sinceMs entries]

/-- What is fetched is what the single-step model fetches of the listing. -/
theorem fetchEntries_ok {folder : Folder} {sinceMs : Option ℤ} {now : ℤ} :
    ∀ {entries : List MessageEntry} {w w' : MapWorld} {msgs : List FetchedMessage},
      go (fetchEntries env folder sinceMs now entries) w = (.ok msgs, w') →
        msgs = fetchFolder (env.fetched sinceMs w.calls entries) folder sinceMs now
  | [], w, w', msgs, h => by
    rw [fetchEntries, go_pure] at h
    obtain ⟨h, -⟩ := Prod.mk.inj h
    exact (Except.ok.inj h).symm
  | entry :: entries, w, w', msgs, h => by
    rw [fetchEntries] at h
    rw [PhoneEnv.fetched]
    split_ifs at h ⊢ with hold
    · rw [fetchEntries_ok h, fetchFolder, fetchFolder, List.filter_cons,
        if_neg (by simpa using hold)]
    · rw [go_bind] at h
      rcases hget : go (getMessage env entry.handle) w with ⟨e | bmsg, w₁⟩
      · simp [hget] at h
      · simp only [hget, go_bind] at h
        rcases hrest : go (fetchEntries env folder sinceMs now entries) w₁ with ⟨e | rest, w₂⟩
        · simp [hrest] at h
        · simp only [hrest, go_pure, Prod.mk.injEq, Except.ok.injEq] at h
          obtain ⟨rfl, hcalls⟩ := getMessage_ok hget
          obtain rfl := fetchEntries_ok hrest
          rw [fetchFolder, List.filter_cons, if_pos (by simpa using hold), List.map_cons, ← h.1,
            fetchFolder, hcalls]

end

/-! ## Attempts of a watch on the store -/

section

variable {env : PhoneEnv} {R : OutboxStore → OutboxStore → Prop} {s : OutboxStore}

open MapWorld OutboxStore

theorem keeps_since_request : Keeps (Since R s) (request env.toMapEnv id fun _ w => w) :=
  keeps_request (fun _ => ⟨rfl, rfl, rfl, .refl _, id⟩) since_same

theorem keeps_since_setFolder (folder : Folder) :
    Keeps (Since R s) (setFolder env.toMapEnv folder) :=
  keeps_setFolder since_same folder

theorem keeps_since_fetchFolderOf (folder : Folder) (sinceMs : Option ℤ) (now : ℤ) :
    Keeps (Since R s) (fetchFolderOf env folder sinceMs now) :=
  keeps_fetchFolderOf keeps_since_request (keeps_since_setFolder folder) sinceMs now

theorem keeps_since_ingest (hR : Respects R) (isSent : Bool) (now : ℤ) :
    ∀ msgs highest, Keeps (Since R s) (ingest env isSent now highest msgs)
  | [], _ => Meets.pure fun _ h => h
  | msg :: msgs, highest => by
    rw [ingest]
    refine (keeps_since_storeUpdate hR (hR.upsert _)).bind fun _ => ?_
    split_ifs
    · exact (keeps_since_storeSet hR (hR.reconcileOutgoing _)).bind fun _ =>
        keeps_since_ingest hR isSent now msgs _
    · exact keeps_since_ingest hR isSent now msgs _

theorem keeps_since_handleNewMessage (hR : Respects R) (event : MnsEvent) (now : ℤ) :
    Keeps (Since R s) (handleNewMessage env event now) := by
  rw [handleNewMessage]
  split
  · exact Meets.pure fun _ h => h
  · exact (keeps_since_setFolder _).bind fun _ =>
      (keeps_getMessage keeps_since_request _).bind fun _ =>
        keeps_since_storeUpdate hR (hR.upsert _)

theorem keeps_since_handleReadStatusChanged (hR : Respects R) (event : MnsEvent) :
    Keeps (Since R s) (handleReadStatusChanged env event) := by
  rw [handleReadStatusChanged]
  split
  · exact Meets.pure fun _ h => h
  · exact (keeps_since_setFolder _).bind fun _ =>
      (keeps_getMessage keeps_since_request _).bind fun _ =>
        keeps_since_storeSet hR (hR.updateStatus _ _)

theorem keeps_since_markOutgoing (hR : Respects R) (event : MnsEvent) (status : OutgoingStatus) :
    Keeps (Since R s) (markOutgoing env event status) := by
  rw [markOutgoing]
  split
  · exact Meets.pure fun _ h => h
  · exact keeps_since_storeSet hR (hR.updateOutgoingStatus _ _)

theorem keeps_since_handleMessageShift (hR : Respects R) (event : MnsEvent) :
    Keeps (Since R s) (handleMessageShift env event) := by
  rw [handleMessageShift]
  split
  · exact keeps_since_storeSet hR (hR.updateFolder _ _)
  · exact Meets.pure fun _ h => h

end

/-! ## Watches -/

section

variable {env : PhoneEnv} {P : WatchWorld → Prop}

/-- The folders of a catch-up are worked off one after another, whatever comes of each. -/
theorem keeps_backfillFolders {now : ℤ}
    (h : ∀ folder, Keeps P (backfillFolder env folder now)) :
    ∀ folders firstErr, Keeps P (backfillFolders env now folders firstErr)
  | [], _ => Meets.pure fun _ h => h
  | folder :: folders, firstErr => by
    rw [backfillFolders]
    refine (Keeps.outcome (h folder)).bind fun result => ?_
    cases result with
    | ok _ => exact keeps_backfillFolders h folders firstErr
    | error error => exact keeps_backfillFolders h folders _

theorem keeps_backfill {now : ℤ} (h : ∀ folder, Keeps P (backfillFolder env folder now))
    (folderScope : Option Folder) : Keeps P (backfill env folderScope now) := by
  rw [backfill]
  refine (keeps_backfillFolders h _ _).bind fun result => ?_
  cases result with
  | none => exact Meets.pure fun _ h => h
  | some error => exact Meets.throw fun _ h => h

theorem keeps_runWatch {now drainNow : ℤ}
    (hbackfill : ∀ folder, Keeps P (backfillFolder env folder now))
    (hdrain : Keeps P (onMap (drainOutbox env.toMapEnv drainNow)))
    (hevent : ∀ event now, Keeps P (handleMnsEvent env event now))
    (events : List (MnsEvent × ℤ)) : Keeps P (runWatch env now drainNow events) :=
  (keeps_backfill hbackfill none).bind fun _ => hdrain.bind fun _ =>
    Keeps.forM fun event _ => hevent event.1 event.2

end

/-- The relation holds across whatever writes the store. -/
structure OutboxStore.RespectsAll (R : OutboxStore → OutboxStore → Prop) : Prop
    extends OutboxStore.Respects R where
  setCursor : ∀ cursor s, R s (s.setCursor cursor)
  deleteByHandle : ∀ handle s s', s.deleteByHandle handle = .ok s' → R s s'
  applyCorrelation : ∀ result (s : OutboxStore),
    R s { s with store := (s.store.applyCorrelation result).2 }

section

variable {env : PhoneEnv} {R : OutboxStore → OutboxStore → Prop} {s : OutboxStore}

open MapWorld OutboxStore

theorem keeps_since_onMap {α : Type} {x : MapM α} (hx : Keeps (Since R s) x) :
    Keeps (fun w => w.map.Since R s) (onMap x) := fun w hw => hx w.map hw

theorem keeps_since_backfillFolder (hR : RespectsAll R) (folder : Folder) (now : ℤ) :
    Keeps (fun w => w.map.Since R s) (backfillFolder env folder now) := by
  have htake : ∀ r : TakenIn, Keeps (fun w => w.map.Since R s)
      (modify fun w => { w with takenIn := w.takenIn ++ [r] } : WatchM PUnit) := fun _ _ h => h
  refine (keeps_since_onMap (keeps_since_storeRead hR.toRespects _)).bind fun cursor => ?_
  refine (keeps_since_onMap (keeps_since_fetchFolderOf folder _ now)).bind ?_
  rintro ⟨listing, msgs⟩
  refine (keeps_since_onMap (keeps_since_ingest hR.toRespects _ now msgs _)).bind fun top => ?_
  exact (htake _).bind fun _ =>
    keeps_since_onMap (keeps_since_storeSet hR.toRespects (hR.setCursor _))

theorem keeps_since_handleMnsEvent (hR : RespectsAll R) (event : MnsEvent) (now : ℤ) :
    Keeps (fun w => w.map.Since R s) (handleMnsEvent env event now) := by
  have hR' := hR.toRespects
  rw [handleMnsEvent]
  split
  · exact keeps_since_onMap (keeps_since_handleNewMessage hR' event now)
  · rw [handleMessageDeleted]
    split
    · exact Meets.pure fun _ h => h
    · have hmodify : ∀ handle, Keeps (fun w => w.map.Since R s)
          (modify fun w => { w with deleted := w.deleted ++ [handle] } : WatchM PUnit) :=
        fun _ _ h => h
      exact (hmodify _).bind fun _ =>
        keeps_since_onMap (keeps_since_storeUpdate hR' (hR.deleteByHandle _))
  · exact keeps_since_onMap (keeps_since_handleMessageShift hR' event)
  · exact keeps_since_onMap (keeps_since_handleReadStatusChanged hR' event)
  · exact keeps_since_onMap (keeps_since_markOutgoing hR' event _)
  · exact keeps_since_onMap (keeps_since_markOutgoing hR' event _)
  · exact keeps_since_onMap (keeps_since_markOutgoing hR' event _)
  · exact keeps_since_onMap (keeps_since_markOutgoing hR' event _)
  · exact Meets.pure fun _ h => h
  · exact Meets.pure fun _ h => h

theorem since_step (hR : RespectsAll R) {w w' : WatchWorld} {event : WatchEvent}
    (hw : w.map.Since R s) (hstep : w.step env event = some w') : w'.map.Since R s := by
  have hR' := hR.toRespects
  cases event with
  | connect =>
    injection hstep with hstep
    exact hstep ▸ hw
  | send number message now =>
    injection hstep with hstep
    exact hstep ▸ keeps_since_sendSms hR' number message now w.map hw
  | drain now =>
    injection hstep with hstep
    exact hstep ▸ keeps_since_drainOutbox hR' now w.map hw
  | backfill folderScope now =>
    injection hstep with hstep
    exact hstep ▸ keeps_backfill (fun folder => keeps_since_backfillFolder hR folder now)
      folderScope w hw
  | mnsEvent event now =>
    injection hstep with hstep
    exact hstep ▸ keeps_since_handleMnsEvent hR event now w hw
  | watch now drainNow events =>
    injection hstep with hstep
    exact hstep ▸ keeps_runWatch (fun folder => keeps_since_backfillFolder hR folder now)
      (keeps_since_onMap (keeps_since_drainOutbox hR' drainNow)) (keeps_since_handleMnsEvent hR)
      events w hw
  | correlate result =>
    injection hstep with hstep
    exact hstep ▸ hR.trans _ _ _ hw (hR.applyCorrelation result w.map.db)

/-- What holds across every write of the store holds across a run. -/
theorem since_run (hR : RespectsAll R) {w w' : WatchWorld} {events : List WatchEvent}
    (hrun : (watchSession env).run w events = some w') : R w.map.db w'.map.db :=
  (watchSession env).run_invariant (P := fun w' => w'.map.Since R w.map.db)
    (fun _ _ _ => since_step hR) (hR.refl _) hrun

end

end AnalogConnect
