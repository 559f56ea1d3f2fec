import AnalogConnect.Contacts
import AnalogConnect.SyncStates

/-!
# Contact synchronization

A synchronization pulls all contacts and replaces the stored ones by them in one transaction. What
the pull brings, whether the transaction commits and what the clock says are given to each run; a
lock is never poisoned. Row identifiers are SQLite's: one more than the greatest there is.
-/

namespace AnalogConnect

def nextRowId (ids : List ℤ) : ℤ :=
  match ids.max? with
  | none => 1
  | some last => last + 1

structure ContactSummary where
  contactCount : ℕ
  phoneCount : ℕ
  lastSyncUnixSeconds : Option ℕ
deriving DecidableEq

namespace ContactStore

/-- Every phone row is some contact's. -/
def References (store : ContactStore) : Prop :=
  ∀ phone ∈ store.phones, ∃ contact ∈ store.contacts, contact.id = phone.contactId

/-- `DELETE FROM contacts`, which cascades to the contacts' phones. -/
def deleteContacts (store : ContactStore) : ContactStore where
  contacts := []
  phones := store.phones.filter fun phone =>
    !store.contacts.any fun contact => contact.id = phone.contactId

def insertContact (store : ContactStore) (displayName : Option String) : ContactStore × ℤ :=
  let id := nextRowId (store.contacts.map (·.id))
  ({ store with contacts := store.contacts ++ [⟨id, displayName⟩] }, id)

def insertPhone (contactId : ℤ) (store : ContactStore) (phone : PhoneNumber) : ContactStore :=
  { store with
    phones := store.phones ++
      [⟨nextRowId (store.phones.map (·.id)), contactId, phone.display, phone.normalized⟩] }

/-- A contact with its phones. -/
def insertAll (store : ContactStore) (contact : Contact) : ContactStore :=
  let (store, contactId) := store.insertContact contact.displayName
  contact.phones.foldl (insertPhone contactId) store

/-- The rows a committed `replace_all` leaves, and what it returns. -/
def replaceAll (store : ContactStore) (contacts : List Contact) : ContactStore × ContactSummary :=
  (contacts.foldl insertAll store.deleteContacts,
    { contactCount := contacts.length
      phoneCount := (contacts.map (·.phones.length)).sum
      lastSyncUnixSeconds := none })

theorem references_insertPhone {store : ContactStore} (h : store.References) {contactId : ℤ}
    (hcontact : ∃ contact ∈ store.contacts, contact.id = contactId) (phone : PhoneNumber) :
    (store.insertPhone contactId phone).References := by
  intro row hrow
  rcases List.mem_append.1 hrow with hrow | hrow
  · exact h row hrow
  · rw [List.mem_singleton.1 hrow]
    exact hcontact

theorem references_insertPhones {contactId : ℤ} : ∀ (phones : List PhoneNumber)
    {store : ContactStore}, store.References →
      (∃ contact ∈ store.contacts, contact.id = contactId) →
      (phones.foldl (insertPhone contactId) store).References
  | [], _, h, _ => h
  | phone :: phones, _, h, hcontact =>
    references_insertPhones phones (references_insertPhone h hcontact phone) hcontact

theorem references_insertAll {store : ContactStore} (h : store.References) (contact : Contact) :
    (store.insertAll contact).References := by
  refine references_insertPhones contact.phones (fun phone hphone => ?_)
    ⟨_, List.mem_append_right _ List.mem_cons_self, rfl⟩
  obtain ⟨owner, howner, hid⟩ := h phone hphone
  exact ⟨owner, List.mem_append_left _ howner, hid⟩

theorem references_deleteContacts {store : ContactStore} (h : store.References) :
    store.deleteContacts.References := by
  intro phone hphone
  obtain ⟨hmem, horphan⟩ := List.mem_filter.1 hphone
  obtain ⟨owner, howner, hid⟩ := h phone hmem
  rw [List.any_eq_true.2 ⟨owner, howner, decide_eq_true hid⟩] at horphan
  cases horphan

theorem references_inserted : ∀ (contacts : List Contact) {store : ContactStore},
    store.References → (contacts.foldl insertAll store).References
  | [], _, h => h
  | contact :: contacts, _, h => references_inserted contacts (references_insertAll h contact)

theorem references_replaceAll {store : ContactStore} (h : store.References)
    (contacts : List Contact) : (store.replaceAll contacts).1.References :=
  references_inserted contacts (references_deleteContacts h)

end ContactStore

/-- The contact database: its rows, with the foreign key the store has SQLite keep. -/
structure ContactDatabase where
  rows : ContactStore
  references : rows.References

namespace ContactDatabase

def replaceAll (database : ContactDatabase) (contacts : List Contact) : ContactDatabase :=
  ⟨(database.rows.replaceAll contacts).1,
    ContactStore.references_replaceAll database.references contacts⟩

/-- The contacts stored, in the order of their identifiers. -/
def snapshot (database : ContactDatabase) : List Contact :=
  (database.rows.contacts.insertionSort fun a b => a.id ≤ b.id).map fun row =>
    ⟨row.displayName, database.rows.loadPhones row.id⟩

end ContactDatabase

inductive ContactSyncError
  | source
  | store
  | lockPoisoned
deriving DecidableEq

/-- What a run of `sync` meets: what the pull brings, if it succeeds, whether the replacement
commits, and the clock's seconds, if it is past the epoch. -/
structure SyncRun where
  pull : Option (List Contact)
  commits : Bool
  clock : Option ℕ

structure ContactSynchronizer where
  store : ContactDatabase
  state : ContactSyncState

/-- What a run of `sync` comes to; `pulled` says whether the source was asked. -/
structure SyncOutcome where
  pulled : Bool
  result : Except ContactSyncError ContactSummary
  after : ContactSynchronizer

namespace ContactSynchronizer

def new (store : ContactDatabase) : ContactSynchronizer := ⟨store, .idle⟩

def setState (s : ContactSynchronizer) (next : ContactSyncState) :
    Except ContactSyncError ContactSynchronizer :=
  match s.state.transitionTo "contact_sync" next with
  | .ok state => .ok { s with state }
  | .error _ => .error .lockPoisoned

/-- The state set on the way out of a run, and what the run returns if it could be set. -/
def finish (s : ContactSynchronizer) (next : ContactSyncState)
    (result : Except ContactSyncError ContactSummary) : SyncOutcome :=
  match s.setState next with
  | .error e => ⟨true, .error e, s⟩
  | .ok s => ⟨true, result, s⟩

def sync (s : ContactSynchronizer) (run : SyncRun) : SyncOutcome :=
  match s.setState .syncing with
  | .error e => ⟨false, .error e, s⟩
  | .ok s =>
    match run.pull with
    | none => s.finish .backingOff (.error .source)
    | some contacts =>
      if run.commits then
        let summary := (s.store.rows.replaceAll contacts).2
        { s with store := s.store.replaceAll contacts }.finish .idle
          (.ok { summary with lastSyncUnixSeconds := run.clock })
      else s.finish .error (.error .store)

end ContactSynchronizer

/-- One synchronization after another. -/
def contactSyncs : Lts ContactSynchronizer SyncRun := ⟨fun s run => some (s.sync run).after⟩

end AnalogConnect
