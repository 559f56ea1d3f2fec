import AnalogConnect.Proofs.WatchSession

/-!
# Nothing is passed over

A catch-up skips the messages dated before its folder's cursor, which the catch-ups before it have
set by the messages they took in. So a message that is listed is in the store unless it is late: an
earlier catch-up of its folder, whose listing did not have it, took in a later one (`caught_up`).
A listing has what its folder held when it began, but for what new messages pushed out of reach of
the last page (`listed_whole`). A catch-up that goes through does to the store what the single step
of the model without a session does (`backfill_is_one_step`).
-/

namespace AnalogConnect

open Attempt OutboxStore

/-- The date a catch-up compares with its cursor. -/
def MessageEntry.date (entry : MessageEntry) : ℤ := entry.datetimeMs.getD i64Max

/-- The time a message taken in from the entry is stored under. -/
def MessageEntry.storedAt (entry : MessageEntry) (now : ℤ) : ℤ := entry.datetimeMs.getD now

namespace WatchWorld

variable {w w' w'' : WatchWorld}

/-- The message is in the store, or the phone reported it as deleted. A placeholder is no handle of
the phone's. -/
def Held (w : WatchWorld) (handle : String) : Prop :=
  IsPlaceholder handle ∨ w.map.db.store.Has handle ∨ handle ∈ w.deleted

/-- Dated before 1970, or before a message that an earlier listing of the folder had, which had not
this one. -/
def Late (before : List TakenIn) (folder : Folder) (entry : MessageEntry) : Prop :=
  entry.date < 0 ∨ ∃ q ∈ before, q.folder = folder ∧
    (∀ e ∈ q.entries, e.handle = entry.handle → e.date ≠ entry.date) ∧
      ∃ e ∈ q.entries, entry.date < e.storedAt q.now

structure CaughtUp (w : WatchWorld) : Prop where
  held : ∀ before r after, w.takenIn = before ++ r :: after → ∀ e ∈ r.entries,
    w.Held e.handle ∨ Late before r.folder e
  /-- A cursor stands where a message that was taken in put it. -/
  cursor : ∀ folder c, w.map.db.store.getCursor folder.asStr = some c →
    c.highestTs = 0 ∨ ∃ q ∈ w.takenIn, q.folder = folder ∧
      ∃ e ∈ q.entries, c.highestTs = e.storedAt q.now

/-- No message is lost, no cursor moved and no listing taken in. -/
structure Quiet (w w' : WatchWorld) : Prop where
  held : ∀ handle, w.Held handle → w'.Held handle
  cursors : w'.map.db.store.folderCursors = w.map.db.store.folderCursors
  takenIn : w'.takenIn = w.takenIn

theorem Quiet.refl (w : WatchWorld) : w.Quiet w := ⟨fun _ h => h, rfl, rfl⟩

theorem Quiet.trans (h : w.Quiet w') (h' : w'.Quiet w'') : w.Quiet w'' :=
  ⟨fun handle hw => h'.held handle (h.held handle hw), h'.cursors.trans h.cursors,
    h'.takenIn.trans h.takenIn⟩

theorem Quiet.getCursor (h : w.Quiet w') (folder : String) :
    w'.map.db.store.getCursor folder = w.map.db.store.getCursor folder := by
  rw [Store.getCursor, h.cursors, Store.getCursor]

theorem quiet_map {map : MapWorld} (h : w.map.db.store.Grows map.db.store) :
    w.Quiet { w with map } := by
  refine ⟨fun handle hheld => ?_, h.cursors, rfl⟩
  rcases hheld with hp | hhas | hdeleted
  · exact .inl hp
  · by_cases hp : IsPlaceholder handle
    · exact .inl hp
    · exact .inr (.inl (h.has handle hp hhas))
  · exact .inr (.inr hdeleted)

theorem CaughtUp.quiet (h : w.CaughtUp) (hquiet : w.Quiet w') : w'.CaughtUp where
  held before r after htaken e he := by
    rw [hquiet.takenIn] at htaken
    exact (h.held before r after htaken e he).imp_left (hquiet.held _)
  cursor folder c hc := by
    rw [hquiet.getCursor] at hc
    rw [hquiet.takenIn]
    exact h.cursor folder c hc

theorem Late.mono {before before' : List TakenIn} {folder : Folder} {entry : MessageEntry}
    (h : Late before folder entry) (hsub : before ⊆ before') : Late before' folder entry :=
  h.imp_right fun ⟨q, hq, hrest⟩ => ⟨q, hsub hq, hrest⟩

/-- An entry behind the cursor is held or late: the listing that put the cursor there had it, or
had not. -/
theorem CaughtUp.of_skipped (h : w.CaughtUp) {folder : Folder} {c : FolderCursor}
    (hc : w.map.db.store.getCursor folder.asStr = some c) {e : MessageEntry}
    (hskipped : e.date < c.highestTs) : w.Held e.handle ∨ Late w.takenIn folder e := by
  rcases h.cursor folder c hc with hzero | ⟨q, hq, rfl, m, hm, hhighest⟩
  · exact .inr (.inl (hzero ▸ hskipped))
  · by_cases hlisted : ∃ x ∈ q.entries, x.handle = e.handle ∧ x.date = e.date
    · obtain ⟨x, hx, hhandle, hdate⟩ := hlisted
      obtain ⟨before, after, htaken⟩ := List.append_of_mem hq
      rcases h.held before q after htaken x hx with hheld | hlate
      · exact .inl (hhandle ▸ hheld)
      · rw [Late, hhandle, hdate] at hlate
        have hsub : before ⊆ w.takenIn := by
          rw [htaken]
          exact List.subset_append_left _ _
        exact .inr (Late.mono hlate hsub)
    · refine .inr (.inr ⟨q, hq, rfl, fun x hx hhandle hdate => ?_, m, hm, hhighest ▸ hskipped⟩)
      exact hlisted ⟨x, hx, hhandle, hdate⟩

/-- A listing is taken in whose messages are held but for those behind the cursor. -/
theorem CaughtUp.takeIn (h : w.CaughtUp) {r : TakenIn}
    (hfetched : ∀ e ∈ r.entries,
      (∀ c, w.map.db.store.getCursor r.folder.asStr = some c → c.highestTs ≤ e.date) →
        w.Held e.handle) :
    CaughtUp { w with takenIn := w.takenIn ++ [r] } where
  held before r' after htaken e he := by
    rcases List.eq_nil_or_concat after with rfl | ⟨after, last, rfl⟩
    · obtain ⟨rfl, hr⟩ := List.append_inj' htaken rfl
      obtain rfl : r = r' := by simpa using hr
      by_cases hskipped : ∃ c, w.map.db.store.getCursor r.folder.asStr = some c ∧
          e.date < c.highestTs
      · obtain ⟨c, hc, hlt⟩ := hskipped
        exact h.of_skipped hc hlt
      · refine .inl (hfetched e he fun c hc => not_lt.1 fun hlt => hskipped ⟨c, hc, hlt⟩)
    · rw [List.concat_eq_append, ← List.cons_append, ← List.append_assoc] at htaken
      exact h.held before r' after (List.append_inj' htaken rfl).1 e he
  cursor folder c hc := by
    refine (h.cursor folder c hc).imp_right fun ⟨q, hq, hrest⟩ => ⟨q, ?_, hrest⟩
    exact List.mem_append_left _ hq

/-- The cursor is set by a message of a listing that was taken in. -/
theorem CaughtUp.setCursor (h : w.CaughtUp) {map : MapWorld} {folder : Folder} {now highest : ℤ}
    (hstore : map.db.store =
      w.map.db.store.setCursor ⟨folder.asStr, now, highest, .complete⟩)
    (hhighest : highest = 0 ∨ ∃ q ∈ w.takenIn, q.folder = folder ∧
      ∃ e ∈ q.entries, highest = e.storedAt q.now) :
    CaughtUp { w with map } where
  held before r after htaken e he := by
    refine (h.held before r after htaken e he).imp_left fun hheld => ?_
    rw [Held, hstore]
    exact hheld
  cursor folder' c hc := by
    simp only [hstore, Store.getCursor, Store.setCursor, Table.find?_upsert] at hc
    split_ifs at hc with heq
    · have hfolder : folder' = folder := by
        cases folder <;> cases folder' <;> first | rfl | exact absurd heq (by decide)
      subst hfolder
      have htop : c.highestTs = highest := by
        rw [← Option.some.inj hc]
        cases w.map.db.store.folderCursors.find? folder'.asStr <;> rfl
      rw [htop]
      exact hhighest
    · exact h.cursor folder' c hc

end WatchWorld

open WatchWorld

section

variable {env : PhoneEnv} {w₀ : WatchWorld} {α : Type}

/-! ## Attempts that are quiet -/

/-- From where `w₀` leads quietly, the attempt leads on quietly. -/
def KeepsQuiet (x : WatchM α) : Prop := ∀ w₀ : WatchWorld, Keeps w₀.Quiet x

theorem keepsQuiet_onMap {x : MapM α}
    (hx : ∀ s, Keeps (MapWorld.Since OutboxStore.Grows s) x) : KeepsQuiet (onMap x) :=
  fun _ w hw => hw.trans (quiet_map (hx w.map.db w.map (.refl _)))

/-- What is deleted is the one message that was reported. -/
theorem quiet_of_deleteByHandle {w : WatchWorld} {handle : String} {db : OutboxStore}
    {map : MapWorld} (hdeleted : handle ∈ w.deleted)
    (h : w.map.db.deleteByHandle handle = .ok db) (hdb : map.db = db) :
    w.Quiet { w with map } := by
  have hmessages : db.store.folderCursors = w.map.db.store.folderCursors ∧
      ∀ k, k ≠ handle → w.map.db.store.Has k → db.store.Has k := by
    have hdelete : ∀ k, k ≠ handle → w.map.db.store.Has k →
        ((w.map.db.store.messages.delete fun row => row.mapHandle = handle).find? k).isSome := by
      intro k hne hhas
      obtain ⟨row, hrow⟩ := Option.isSome_iff_exists.1 hhas
      have hkey : row.mapHandle = k := (Table.find?_eq_some.1 hrow).2
      rw [Table.find?_delete, hrow]
      simp [hkey, hne]
    simp only [OutboxStore.deleteByHandle] at h
    split at h
    · rw [← Except.ok.inj h]
      exact ⟨rfl, fun _ _ hhas => hhas⟩
    · split_ifs at h <;> rw [← Except.ok.inj h] <;> exact ⟨rfl, hdelete⟩
  subst hdb
  refine ⟨fun k hheld => ?_, hmessages.1, rfl⟩
  rcases hheld with hp | hhas | hk
  · exact .inl hp
  · by_cases heq : k = handle
    · exact .inr (.inr (heq ▸ hdeleted))
    · exact .inr (.inl (hmessages.2 k heq hhas))
  · exact .inr (.inr hk)

theorem keepsQuiet_handleMessageDeleted (event : MnsEvent) :
    KeepsQuiet (handleMessageDeleted env event) := by
  intro w₀
  rw [handleMessageDeleted]
  split
  · exact Meets.pure fun _ h => h
  · rename_i handle _
    have hreported : Meets w₀.Quiet
        (modify fun w => { w with deleted := w.deleted ++ [handle] } : WatchM PUnit)
        fun _ w => w₀.Quiet w ∧ handle ∈ w.deleted := by
      intro w hw
      refine ⟨hw.trans ⟨fun k hheld => ?_, rfl, rfl⟩, by simp⟩
      exact hheld.imp_right (Or.imp_right fun hk => List.mem_append_left _ hk)
    refine hreported.bind (fun _ => ?_) fun _ _ h => h.1
    rintro w ⟨hw, hmem⟩
    rcases storeUpdate_cases env.toMapEnv (fun db => db.deleteByHandle handle) w.map with
      ⟨db, hdb, h⟩ | ⟨e, h⟩ | ⟨db, hdb, h⟩ <;> simp only [onMap, onPart, go_of, h]
    · exact hw.trans (quiet_of_deleteByHandle hmem hdb rfl)
    · exact hw.trans (quiet_map (.refl _))
    · rcases hdb with rfl | hdb
      · exact hw.trans (quiet_map (.refl _))
      · exact hw.trans (quiet_of_deleteByHandle hmem hdb rfl)

theorem keepsQuiet_handleMnsEvent (event : MnsEvent) (now : ℤ) :
    KeepsQuiet (handleMnsEvent env event now) := by
  rw [handleMnsEvent]
  split
  · exact keepsQuiet_onMap fun _ => keeps_since_handleNewMessage respects_grows event now
  · exact keepsQuiet_handleMessageDeleted event
  · exact keepsQuiet_onMap fun _ => keeps_since_handleMessageShift respects_grows event
  · exact keepsQuiet_onMap fun _ => keeps_since_handleReadStatusChanged respects_grows event
  · exact keepsQuiet_onMap fun _ => keeps_since_markOutgoing respects_grows event .sentConfirmed
  · exact keepsQuiet_onMap fun _ => keeps_since_markOutgoing respects_grows event .sentConfirmed
  · exact keepsQuiet_onMap fun _ => keeps_since_markOutgoing respects_grows event .failedPermanent
  · exact keepsQuiet_onMap fun _ => keeps_since_markOutgoing respects_grows event .failedPermanent
  · exact fun _ => Meets.pure fun _ h => h
  · exact fun _ => Meets.pure fun _ h => h

theorem KeepsQuiet.caughtUp {x : WatchM α} (hx : KeepsQuiet x) : Keeps CaughtUp x :=
  fun w hw => hw.quiet (hx w w (.refl w))

/-! ## Taking a folder in -/

theorem storeUpdate_ok {env : MapEnv} (f : OutboxStore → Except OutboxError OutboxStore)
    {w w' : MapWorld} {a : PUnit} (h : go (storeUpdate env f) w = (.ok a, w')) :
    f w.db = .ok w'.db := by
  rcases storeUpdate_cases env f w with ⟨db, hdb, h'⟩ | ⟨e, h'⟩ | ⟨db, -, h'⟩ <;> rw [h'] at h
  · obtain ⟨-, rfl⟩ := Prod.mk.inj h
    exact hdb
  · simp at h
  · simp at h

/-- An ingestion that goes through is the one of the model without a session. -/
theorem ingest_ok {isSent : Bool} {now : ℤ} :
    ∀ {msgs : List FetchedMessage} {highest top : ℤ} {w w' : MapWorld},
      go (ingest env isSent now highest msgs) w = (.ok top, w') →
        Store.ingest isSent now w.db.store highest msgs = (.ok top, w'.db.store)
  | [], highest, top, w, w', h => by
    rw [ingest, go_pure] at h
    obtain ⟨htop, rfl⟩ := Prod.mk.inj h
    rw [Store.ingest, Except.ok.inj htop]
  | msg :: msgs, highest, top, w, w', h => by
    rw [ingest, go_bind] at h
    rcases hupsert : go (storeUpdate env.toMapEnv fun db => db.upsert (toNewMessage msg now)) w
      with ⟨e | _, w₁⟩
    · simp [hupsert] at h
    · rw [hupsert] at h
      simp only at h
      rw [Store.ingest, OutboxStore.upsert_ok (storeUpdate_ok _ hupsert)]
      cases isSent with
      | false => exact ingest_ok h
      | true =>
        rw [if_pos rfl, go_bind] at h
        rcases hreconcile : go (storeUpdate env.toMapEnv fun db =>
          .ok (db.reconcileOutgoing msg.handle)) w₁ with ⟨e | _, w₂⟩
        · simp [hreconcile] at h
        · rw [hreconcile] at h
          have hdb := Except.ok.inj
            (storeUpdate_ok (fun db => .ok (db.reconcileOutgoing msg.handle)) hreconcile)
          have hrest := ingest_ok h
          rw [← hdb] at hrest
          exact hrest

/-- What is ingested is in the store, and the highest time seen is one of them. -/
theorem Store.ingest_has {isSent : Bool} {now : ℤ} :
    ∀ {msgs : List FetchedMessage} {highest top : ℤ} {s s' : Store},
      Store.ingest isSent now s highest msgs = (.ok top, s') →
        s.Grows s' ∧ (∀ msg ∈ msgs, IsPlaceholder msg.handle ∨ s'.Has msg.handle) ∧
          (top = highest ∨ ∃ msg ∈ msgs, top = msg.timestampMs)
  | [], highest, top, s, s', h => by
    rw [Store.ingest] at h
    obtain ⟨htop, rfl⟩ := Prod.mk.inj h
    exact ⟨.refl s, fun _ hmem => absurd hmem List.not_mem_nil, .inl (Except.ok.inj htop).symm⟩
  | msg :: msgs, highest, top, s, s', h => by
    rw [Store.ingest] at h
    rcases hupsert : s.upsert (toNewMessage msg now) with e | s₁
    · simp [hupsert] at h
    · rw [hupsert] at h
      obtain ⟨hgrows, hhas⟩ := Store.grows_upsert hupsert
      obtain ⟨hrest, hall, htop⟩ := Store.ingest_has h
      have hstep : s₁.Grows (if isSent = true then s₁.reconcileOutgoing msg.handle else s₁) := by
        split_ifs
        · exact Store.grows_reconcileOutgoing _
        · exact .refl _
      refine ⟨hgrows.trans (hstep.trans hrest), fun m hm => ?_, ?_⟩
      · rcases List.mem_cons.1 hm with rfl | hm
        · by_cases hp : IsPlaceholder m.handle
          · exact .inl hp
          · exact .inr ((hstep.trans hrest).has _ hp hhas)
        · exact hall m hm
      · rcases htop with rfl | ⟨m, hm, rfl⟩
        · rcases max_choice highest msg.timestampMs with hmax | hmax
          · exact .inl hmax
          · exact .inr ⟨msg, List.mem_cons_self, hmax⟩
        · exact .inr ⟨m, List.mem_cons_of_mem _ hm, rfl⟩

/-- The messages of a device are those of its entries that the cursor does not skip. -/
theorem exists_fetched {device : List (MessageEntry × BMessage)} (folder : Folder)
    {sinceMs : Option ℤ} (now : ℤ) {e : MessageEntry} (he : e ∈ device.map Prod.fst)
    (hsince : ∀ since, sinceMs = some since → since ≤ e.date) :
    ∃ msg ∈ fetchFolder device folder sinceMs now, msg.handle = e.handle := by
  obtain ⟨⟨entry, bmsg⟩, hmem, rfl⟩ := List.mem_map.1 he
  refine ⟨_, List.mem_map.2 ⟨(entry, bmsg), List.mem_filter.2 ⟨hmem, ?_⟩, rfl⟩, rfl⟩
  cases sinceMs with
  | none => rfl
  | some since => simpa [MessageEntry.date] using hsince since rfl

theorem storedAt_of_fetched {device : List (MessageEntry × BMessage)} {folder : Folder}
    {sinceMs : Option ℤ} {now : ℤ} {msg : FetchedMessage}
    (hmsg : msg ∈ fetchFolder device folder sinceMs now) :
    ∃ e ∈ device.map Prod.fst, msg.timestampMs = e.storedAt now := by
  obtain ⟨⟨entry, bmsg⟩, hmem, rfl⟩ := List.mem_map.1 hmsg
  exact ⟨entry, List.mem_map.2 ⟨_, List.mem_of_mem_filter hmem, rfl⟩, rfl⟩

/-- The cursor that a catch-up reads. -/
def sinceOf (s : Store) (folder : Folder) : Option ℤ :=
  (s.getCursor folder.asStr).map (·.highestTs)

/-- The store `s'` has what a device lists beyond the cursor of `s`, the latest at `top`; what the
device answers is what the phone does after the listing. -/
structure Took (env : PhoneEnv) (folder : Folder) (now top : ℤ) (s s' : Store) (listing : Listing)
    (device : List (MessageEntry × BMessage)) : Prop where
  answered : device = env.fetched (sinceOf s folder) listing.ended listing.entries
  ingested : Store.ingest (folder = .sent) now s ((sinceOf s folder).getD 0)
    (fetchFolder device folder (sinceOf s folder) now) = (.ok top, s')

theorem ended_of_listFolder {folder : Folder} {m m' : MapWorld} {listing : Listing}
    (h : go (listFolder env folder) m = (.ok listing, m')) : listing.ended = m'.calls := by
  rw [listFolder, go_bind] at h
  rcases hset : go (setFolder env.toMapEnv folder) m with ⟨e | _, m₁⟩
  · simp [hset] at h
  simp only [hset, go_bind, go_get] at h
  rcases hpages : go (listPages env 64 0) m₁ with ⟨e | entries, m₂⟩
  · simp [hpages] at h
  simp only [hpages, go_pure, Prod.mk.injEq, Except.ok.injEq] at h
  obtain ⟨rfl, rfl⟩ := h
  rfl

theorem Took.entries {folder : Folder} {now top : ℤ} {s s' : Store} {listing : Listing}
    {device : List (MessageEntry × BMessage)}
    (h : Took env folder now top s s' listing device) : device.map Prod.fst = listing.entries := by
  rw [h.answered]
  exact map_fst_fetched _ _ _

/-- What is fetched is what the single-step model fetches of the listing; the store is as it was. -/
theorem fetchFolderOf_ok {folder : Folder} {sinceMs : Option ℤ} {now : ℤ} {m m' : MapWorld}
    {listing : Listing} {msgs : List FetchedMessage}
    (h : go (fetchFolderOf env folder sinceMs now) m = (.ok (listing, msgs), m')) :
    msgs = fetchFolder (env.fetched sinceMs listing.ended listing.entries) folder sinceMs now ∧
      m'.db = m.db := by
  have hrequest : Keeps (fun w => w.db = m.db) (request env.toMapEnv id fun _ w => w) :=
    keeps_request (fun _ => ⟨rfl, rfl, rfl, .refl _, id⟩) fun _ _ h hdb => h.db.trans hdb
  have hfolder : Keeps (fun w => w.db = m.db) (setFolder env.toMapEnv folder) :=
    keeps_setFolder (fun _ _ h hdb => h.db.trans hdb) folder
  have hdb := keeps_fetchFolderOf hrequest hfolder sinceMs now m rfl
  rw [h] at hdb
  refine ⟨?_, hdb⟩
  rw [fetchFolderOf, go_bind] at h
  rcases hlist : go (listFolder env folder) m with ⟨e | listing', m₁⟩
  · simp [hlist] at h
  rw [hlist] at h
  simp only [go_bind] at h
  rcases hentries : go (fetchEntries env folder sinceMs now listing'.entries) m₁ with
    ⟨e | msgs', m₂⟩
  · simp [hentries] at h
  rw [hentries] at h
  simp only [go_pure, Prod.mk.injEq, Except.ok.injEq] at h
  obtain ⟨⟨rfl, rfl⟩, -⟩ := h
  rw [ended_of_listFolder hlist]
  exact fetchEntries_ok hentries

/-- A catch-up fails before the listing is taken in, or takes it in, and then moves the cursor
unless that fails. -/
theorem backfillFolder_cases (env : PhoneEnv) (folder : Folder) (now : ℤ) (w : WatchWorld) :
    let r := go (backfillFolder env folder now) w
    ((∃ e, r.1 = .error e) ∧ w.Quiet r.2) ∨
      ∃ listing device top s' map, Took env folder now top w.map.db.store s' listing device ∧
        r.2 = { w with map, takenIn := w.takenIn ++ [⟨listing, folder, now⟩] } ∧
          (((∃ e, r.1 = .error e) ∧ map.db.store = s') ∨
            map.db.store = s'.setCursor ⟨folder.asStr, now, top, .complete⟩) := by
  set since := sinceOf w.map.db.store folder with hsince
  simp only [backfillFolder, go_bind, onMap, onPart, go_of]
  have hcall : MapWorld.Since Grows w.map.db
      (go (storeCall env.toMapEnv fun db => .ok (db.store.getCursor folder.asStr, db)) w.map).2 :=
    keeps_since_storeRead respects_grows _ w.map (respects_grows.refl w.map.db)
  rcases storeCall_cases env.toMapEnv
    (fun db => .ok (db.store.getCursor folder.asStr, db)) w.map with
    ⟨cursor, db, hok, h⟩ | ⟨e, h⟩ | ⟨db, -, h⟩ <;> rw [h] at hcall ⊢
  case inr.inl => exact .inl ⟨⟨_, rfl⟩, quiet_map hcall⟩
  case inr.inr => exact .inl ⟨⟨_, rfl⟩, quiet_map hcall⟩
  obtain ⟨rfl, rfl⟩ := Prod.mk.inj (Except.ok.inj hok)
  have hcursor : (w.map.db.store.getCursor folder.asStr).map (·.highestTs) = since := rfl
  simp only [hcursor]
  have hquiet : MapWorld.Since Grows w.map.db
      (go (fetchFolderOf env folder since now) { w.map with calls := w.map.calls + 1 }).2 :=
    keeps_since_fetchFolderOf folder since now _ hcall
  rcases hfetch : go (fetchFolderOf env folder since now) { w.map with calls := w.map.calls + 1 }
    with ⟨e | ⟨listing, msgs⟩, m⟩ <;> rw [hfetch] at hquiet
  · exact .inl ⟨⟨e, rfl⟩, quiet_map hquiet⟩
  obtain ⟨rfl, hdb⟩ := fetchFolderOf_ok hfetch
  set device := env.fetched since listing.ended listing.entries with hdevice
  simp only
  have hadds : MapWorld.Since Grows w.map.db (go (ingest env (folder = .sent) now (since.getD 0)
      (fetchFolder device folder since now)) m).2 :=
    keeps_since_ingest respects_grows _ now _ _ m hquiet
  rcases hingest : go (ingest env (folder = .sent) now (since.getD 0)
    (fetchFolder device folder since now)) m with ⟨e | top, m₁⟩ <;> rw [hingest] at hadds
  · exact .inl ⟨⟨e, rfl⟩, quiet_map hadds⟩
  right
  have htook : Took env folder now top w.map.db.store m₁.db.store listing device := by
    refine ⟨hdevice, ?_⟩
    have hpure := ingest_ok hingest
    rwa [hdb] at hpure
  simp only [go_modify]
  rcases storeUpdate_cases env.toMapEnv (fun db =>
    .ok (db.setCursor ⟨folder.asStr, now, top, .complete⟩)) m₁ with
    ⟨db, hdb, h⟩ | ⟨e, h⟩ | ⟨db, hdb, h⟩ <;> rw [h]
  · refine ⟨listing, device, top, _, _, htook, rfl, .inr ?_⟩
    rw [← Except.ok.inj hdb]
    rfl
  · exact ⟨listing, device, top, _, _, htook, rfl, .inl ⟨⟨_, rfl⟩, rfl⟩⟩
  · refine ⟨listing, device, top, _, _, htook, rfl, ?_⟩
    rcases hdb with rfl | hdb
    · exact .inl ⟨⟨_, rfl⟩, rfl⟩
    · right
      rw [← Except.ok.inj hdb]
      rfl

theorem keeps_caughtUp_backfillFolder (folder : Folder) (now : ℤ) :
    Keeps CaughtUp (backfillFolder env folder now) := by
  intro w hw
  rcases backfillFolder_cases env folder now w with
    ⟨-, hquiet⟩ | ⟨listing, device, top, s', map, htook, hw', hcursor⟩
  · exact hw.quiet hquiet
  rw [hw']
  obtain ⟨hgrows, hhas, htop⟩ := Store.ingest_has htook.ingested
  let mid : WatchWorld :=
    { w with map := { w.map with db := { w.map.db with store := s' } } }
  have hquiet : w.Quiet mid := quiet_map hgrows
  have hmid : CaughtUp { mid with takenIn := mid.takenIn ++ [⟨listing, folder, now⟩] } := by
    refine (hw.quiet hquiet).takeIn fun e he hsince => ?_
    rw [← htook.entries] at he
    have hdate : ∀ since, sinceOf w.map.db.store folder = some since → since ≤ e.date := by
      intro since hsome
      obtain ⟨c, hc, rfl⟩ := Option.map_eq_some_iff.1 hsome
      exact hsince c ((hquiet.getCursor _).trans hc)
    obtain ⟨msg, hmsg, hhandle⟩ := exists_fetched folder now he hdate
    rw [← hhandle]
    exact (hhas msg hmsg).imp_right .inl
  rcases hcursor with ⟨-, hstore⟩ | hstore
  · refine hmid.quiet ⟨fun handle hheld => ?_, ?_, rfl⟩
    · rw [Held, hstore]
      exact hheld
    · rw [hstore]
  · refine hmid.setCursor hstore ?_
    rcases htop with rfl | ⟨msg, hmsg, rfl⟩
    · -- no message was later than the cursor, which stays or is set to 0
      rcases hc : w.map.db.store.getCursor folder.asStr with - | c
      · exact .inl (by rw [sinceOf, hc]; rfl)
      · refine (hw.cursor folder c hc).imp (fun hzero => by rw [sinceOf, hc]; exact hzero) ?_
        rintro ⟨q, hq, hfolder, e, he, htop⟩
        refine ⟨q, List.mem_append_left _ hq, hfolder, e, he, ?_⟩
        rw [sinceOf, hc]
        exact htop
    · obtain ⟨e, he, htime⟩ := storedAt_of_fetched hmsg
      rw [htook.entries] at he
      exact .inr ⟨_, List.mem_append_right _ (List.mem_singleton_self _), rfl, e, he, htime⟩

/-! ## Watching -/

theorem keepsQuiet_drainOutbox (now : ℤ) : KeepsQuiet (onMap (drainOutbox env.toMapEnv now)) :=
  keepsQuiet_onMap fun _ => keeps_since_drainOutbox respects_grows now

theorem caughtUp_step {w w' : WatchWorld} {event : WatchEvent} (hw : w.CaughtUp)
    (hstep : w.step env event = some w') : w'.CaughtUp := by
  cases event with
  | connect =>
    injection hstep with hstep
    exact hstep ▸ hw.quiet (quiet_map (.refl _))
  | send number message now =>
    injection hstep with hstep
    exact hstep ▸ hw.quiet
      (quiet_map (keeps_since_sendSms respects_grows number message now w.map (.refl _)))
  | drain now =>
    injection hstep with hstep
    exact hstep ▸ hw.quiet
      (quiet_map (keeps_since_drainOutbox respects_grows now w.map (.refl _)))
  | backfill folderScope now =>
    injection hstep with hstep
    exact hstep ▸ keeps_backfill (fun folder => keeps_caughtUp_backfillFolder folder now)
      folderScope w hw
  | mnsEvent event now =>
    injection hstep with hstep
    exact hstep ▸ (keepsQuiet_handleMnsEvent event now).caughtUp w hw
  | watch now drainNow events =>
    injection hstep with hstep
    exact hstep ▸ keeps_runWatch (fun folder => keeps_caughtUp_backfillFolder folder now)
      (keepsQuiet_drainOutbox drainNow).caughtUp
      (fun event now => (keepsQuiet_handleMnsEvent event now).caughtUp) events w hw
  | correlate result =>
    injection hstep with hstep
    exact hstep ▸ hw.quiet (quiet_map (Store.grows_applyCorrelation result))

/-! ## What is listed -/

end

theorem caughtUp_start (foreignKeys : Bool) : (WatchWorld.start foreignKeys).CaughtUp where
  held before r after htaken := by simp [WatchWorld.start] at htaken
  cursor folder c hc := by
    simp [WatchWorld.start, MapWorld.start, OutboxStore.empty, Store.empty, Store.getCursor,
      Table.empty, Table.find?] at hc

/-- Whatever fails and whatever else is written in a run, each message of a listing that was taken
in is in the store or was reported as deleted, unless it is late: dated before 1970, or before a
message that an earlier listing of its folder had while it had not this one. -/
theorem caught_up (env : PhoneEnv) (foreignKeys : Bool) (events : List WatchEvent)
    {w : WatchWorld} (hrun : (watchSession env).run (.start foreignKeys) events = some w)
    (before after : List TakenIn) (r : TakenIn) (hr : w.takenIn = before ++ r :: after)
    (e : MessageEntry) (he : e ∈ r.entries)
    (hhandle : ∀ id, e.handle ≠ OutboxStore.placeholder id) :
    (w.map.db.store.messages.find? e.handle).isSome ∨ e.handle ∈ w.deleted ∨ e.date < 0 ∨
      ∃ q ∈ before, q.folder = r.folder ∧
        (∀ x ∈ q.entries, x.handle = e.handle → x.date ≠ e.date) ∧
          ∃ x ∈ q.entries, e.date < x.storedAt q.now := by
  have hcaught : w.CaughtUp :=
    (watchSession env).run_invariant (fun _ _ _ => caughtUp_step) (caughtUp_start foreignKeys) hrun
  rcases hcaught.held before r after hr e he with (⟨id, hid⟩ | hhas | hdeleted) | hlate
  · exact absurd hid (hhandle id)
  · exact .inl hhas
  · exact .inr (.inl hdeleted)
  · exact .inr (.inr hlate)

/-- A phone whose inbox gets a message, dated the day before the one it has, while it is listed. -/
def belatedPhone : PhoneEnv where
  reply _ := .ok none
  storeFate _ := .done
  streamEnded := ""
  listing call path :=
    let first : MessageEntry :=
      ⟨"20001", "", some 172800000, "+15550001", "+15550100", false, false⟩
    let second : MessageEntry :=
      ⟨"20002", "", some 86400000, "+15550002", "+15550100", false, false⟩
    if path ≠ folderPath .inbox then []
    else if call < 5 then [first] else [second, first]
  message _ _ := ⟨⟨some "+15550001", ["+15550100"], "hello"⟩, false⟩

/-- Two catch-ups with the inbox of `belatedPhone`. -/
def caughtUpTwice : List WatchEvent :=
  [.connect, .backfill (some .inbox) 259200000, .backfill (some .inbox) 345600000]

theorem caughtUpTwice_takenIn : ∃ w a b,
    (watchSession belatedPhone).run (.start true) caughtUpTwice = some w ∧ w.takenIn = [a, b] ∧
      b.entries.map (·.handle) = ["20002", "20001"] ∧ (a.began, a.ended) = (4, 5) ∧
        a.folder = .inbox := by
  have hrun : ∃ w, (watchSession belatedPhone).run (.start true) caughtUpTwice = some w ∧
      w.takenIn.map (fun r => (r.entries.map (·.handle), r.began, r.ended, r.folder)) =
        [(["20001"], 4, 5, .inbox), (["20002", "20001"], 15, 16, .inbox)] := by
    refine ⟨_, rfl, ?_⟩
    decide +kernel
  obtain ⟨w, hrun, htaken⟩ := hrun
  obtain ⟨a, rest, htake, ha, hrest⟩ := List.map_eq_cons_iff.1 htaken
  obtain ⟨b, rest, rfl, hb, hnil⟩ := List.map_eq_cons_iff.1 hrest
  obtain rfl := List.map_eq_nil_iff.1 hnil
  simp only [Prod.mk.injEq] at ha hb
  exact ⟨w, a, b, hrun, htake, hb.1, by rw [ha.2.1, ha.2.2.1], ha.2.2.2⟩

theorem caught_up_late : ∃ w a b e,
    (watchSession belatedPhone).run (.start true) caughtUpTwice = some w ∧ w.takenIn = [a, b] ∧
      e ∈ b.entries ∧ e.handle = "20002" ∧
        ((w.map.db.store.messages.find? e.handle).isSome ∨ e.handle ∈ w.deleted ∨ e.date < 0 ∨
          ∃ q ∈ [a], q.folder = b.folder ∧
            (∀ x ∈ q.entries, x.handle = e.handle → x.date ≠ e.date) ∧
              ∃ x ∈ q.entries, e.date < x.storedAt q.now) := by
  obtain ⟨w, a, b, hrun, htaken, hb, -⟩ := caughtUpTwice_takenIn
  obtain ⟨e, he, hhandle⟩ : ∃ e ∈ b.entries, e.handle = "20002" :=
    List.mem_map.1 (hb ▸ List.mem_cons_self)
  refine ⟨w, a, b, e, hrun, htaken, he, hhandle, ?_⟩
  refine caught_up belatedPhone true caughtUpTwice hrun [a] [] b htaken e he fun id hid => ?_
  have hchars := congrArg String.toList (hhandle.symm.trans hid)
  simp [OutboxStore.placeholder] at hchars

/-- A catch-up of a folder that goes through, of pages that are read while the phone goes on, does
to the messages and the cursors what a single step does that is given all of its listing at once,
with the messages the phone answered for it. -/
theorem backfill_is_one_step (env : PhoneEnv) (folder : Folder) (now : ℤ) (w w' : WatchWorld)
    (h : go (backfillFolder env folder now) w = (.ok ⟨⟩, w')) :
    ∃ r device, w'.takenIn = w.takenIn ++ [r] ∧ device.map Prod.fst = r.entries ∧
      device = env.fetched (sinceOf w.map.db.store folder) r.ended r.entries ∧
      w.map.db.store.backfillFolder device folder now = (.ok (), w'.map.db.store) := by
  rcases backfillFolder_cases env folder now w with
    ⟨⟨e, he⟩, -⟩ | ⟨listing, device, top, s', map, htook, hw', hcursor⟩
  · rw [h] at he
    cases he
  · rw [h] at hw' hcursor
    simp only at hw' hcursor
    subst hw'
    refine ⟨_, device, rfl, htook.entries, htook.answered, ?_⟩
    rcases hcursor with ⟨⟨e, he⟩, -⟩ | hstore
    · cases he
    · have hingested := htook.ingested
      rw [sinceOf] at hingested
      rw [Store.backfillFolder, hingested, hstore]

theorem backfill_is_one_step_inbox : ∃ w w',
    go (backfillFolder belatedPhone .inbox 259200000) w = (.ok ⟨⟩, w') ∧
      ∃ r device, w'.takenIn = w.takenIn ++ [r] ∧ device.map Prod.fst = r.entries ∧
        device = belatedPhone.fetched (sinceOf w.map.db.store .inbox) r.ended r.entries ∧
        w.map.db.store.backfillFolder device .inbox 259200000 = (.ok (), w'.map.db.store) := by
  let w : WatchWorld := { WatchWorld.start true with map := connect (.start true) }
  have hok : (go (backfillFolder belatedPhone .inbox 259200000) w).1.isOk = true := by
    decide +kernel
  rcases hgo : go (backfillFolder belatedPhone .inbox 259200000) w with ⟨e | _, w'⟩
  · simp [hgo, Except.isOk, Except.toBool] at hok
  · exact ⟨w, w', hgo, backfill_is_one_step belatedPhone .inbox 259200000 w w' hgo⟩

end AnalogConnect
