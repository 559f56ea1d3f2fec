import AnalogConnect.ContactSync

/-!
# When contact synchronization gets stuck

A replacement stores what was pulled (`ContactDatabase.snapshot_replaceAll`): the rows are numbered
from one again, so their order is the order they came in. A run that fails leaves the rows alone.

A run whose pull succeeds and whose replacement fails leaves the state machine in its error, from
where no synchronization starts. So the next run, and every one after it, returns before the pull.
Up to such a run all is well, which is exactly when every run of a list is lawful
(`contact_sync_lawful_iff`).
-/

namespace AnalogConnect

/-! ## What a replacement stores -/

/-- Identifiers counted from one. -/
def Numbered (ids : List ℤ) : Prop := ids = (List.range ids.length).map fun i : ℕ => (i : ℤ) + 1

theorem numbered_nil : Numbered [] := rfl

theorem Numbered.snoc {ids : List ℤ} (h : Numbered ids) :
    Numbered (ids ++ [(ids.length : ℤ) + 1]) := by
  unfold Numbered
  rw [List.length_append, List.length_singleton, List.range_succ, List.map_append, ← h]
  rfl

theorem Numbered.le_length {ids : List ℤ} (h : Numbered ids) {id : ℤ} (hid : id ∈ ids) :
    id ≤ ids.length := by
  rw [h, List.mem_map] at hid
  obtain ⟨i, hi, rfl⟩ := hid
  rw [List.mem_range] at hi
  omega

theorem Numbered.pairwise {ids : List ℤ} (h : Numbered ids) : ids.Pairwise (· ≤ ·) := by
  rw [h, List.pairwise_map]
  refine List.pairwise_lt_range.imp fun hlt => ?_
  omega

theorem Numbered.nodup {ids : List ℤ} (h : Numbered ids) : ids.Nodup := by
  rw [h]
  refine (List.nodup_range).map fun i j hij => ?_
  simpa using hij

theorem Numbered.nextRowId {ids : List ℤ} (h : Numbered ids) :
    AnalogConnect.nextRowId ids = ids.length + 1 := by
  unfold AnalogConnect.nextRowId
  rcases hmax : ids.max? with - | last
  · rw [List.max?_eq_none_iff.1 hmax]
    rfl
  · obtain ⟨hmem, hle⟩ := List.max?_eq_some_iff.1 hmax
    have hne : ids ≠ [] := List.ne_nil_of_mem hmem
    have hlength : 0 < ids.length := List.length_pos_iff.2 hne
    have hlast : (ids.length : ℤ) ∈ ids := by
      rw [h, List.mem_map]
      refine ⟨ids.length - 1, ?_, ?_⟩
      · rw [List.mem_range]
        omega
      · rw [List.length_map, List.length_range]
        omega
    have hge := hle _ hlast
    have hle := h.le_length hmem
    show last + 1 = ids.length + 1
    omega

namespace ContactStore

variable {store : ContactStore} {contactId id : ℤ} {phone : PhoneNumber}

/-- Phones numbered as they came are loaded as they came. -/
theorem loadPhones_of_numbered (h : Numbered (store.phones.map (·.id))) (id : ℤ) :
    store.loadPhones id = (store.phones.filter (·.contactId = id)).map fun row =>
      ⟨row.displayNumber, row.normalizedNumber⟩ := by
  have hsorted : store.phones.Pairwise fun a b => a.id ≤ b.id := by
    simpa only [List.pairwise_map] using h.pairwise
  unfold loadPhones
  rw [(hsorted.filter _).insertionSort_eq]

theorem numbered_insertPhone (h : Numbered (store.phones.map (·.id))) :
    Numbered ((store.insertPhone contactId phone).phones.map (·.id)) := by
  have hsnoc := h.snoc
  rw [← h.nextRowId] at hsnoc
  simpa only [insertPhone, List.map_append, List.map_cons, List.map_nil] using hsnoc

theorem loadPhones_insertPhone (h : Numbered (store.phones.map (·.id))) :
    (store.insertPhone contactId phone).loadPhones id =
      if contactId = id then store.loadPhones id ++ [phone] else store.loadPhones id := by
  rw [loadPhones_of_numbered (numbered_insertPhone h), loadPhones_of_numbered h]
  unfold insertPhone
  rw [List.filter_append, List.map_append]
  by_cases hid : contactId = id
  · simp [hid]
  · simp [hid]

/-- What inserting phones of one contact leaves. -/
theorem insertPhones_spec : ∀ (phones : List PhoneNumber) (store : ContactStore),
    Numbered (store.phones.map (·.id)) → (∀ phone ∈ store.phones, phone.contactId ≤ contactId) →
      let store' := phones.foldl (insertPhone contactId) store
      store'.contacts = store.contacts ∧ Numbered (store'.phones.map (·.id)) ∧
        (∀ phone ∈ store'.phones, phone.contactId ≤ contactId) ∧
        ∀ id, store'.loadPhones id =
          if contactId = id then store.loadPhones id ++ phones else store.loadPhones id
  | [], store, hids, howners => by
    refine ⟨rfl, hids, howners, fun id => ?_⟩
    simp
  | phone :: phones, store, hids, howners => by
    have howners' : ∀ row ∈ (store.insertPhone contactId phone).phones,
        row.contactId ≤ contactId := by
      intro row hrow
      rcases List.mem_append.1 hrow with hrow | hrow
      · exact howners row hrow
      · rw [List.mem_singleton.1 hrow]
    obtain ⟨hcontacts, hids', howners', hload⟩ :=
      insertPhones_spec phones (store.insertPhone contactId phone) (numbered_insertPhone hids)
        howners'
    refine ⟨hcontacts, hids', howners', fun id => ?_⟩
    have hloaded := hload id
    rw [loadPhones_insertPhone hids] at hloaded
    rw [List.foldl_cons, hloaded]
    by_cases hid : contactId = id
    · simp [hid]
    · simp [hid]

/-- The rows hold these contacts, all numbered as they came. -/
structure Holds (store : ContactStore) (contacts : List Contact) : Prop where
  ids : Numbered (store.contacts.map (·.id))
  phoneIds : Numbered (store.phones.map (·.id))
  owners : ∀ phone ∈ store.phones, phone.contactId ≤ store.contacts.length
  loaded : (store.contacts.map fun row => ⟨row.displayName, store.loadPhones row.id⟩) = contacts

theorem Holds.insertAll {contacts : List Contact} (h : store.Holds contacts) (contact : Contact) :
    (store.insertAll contact).Holds (contacts ++ [contact]) := by
  have hid : AnalogConnect.nextRowId (store.contacts.map (·.id)) = store.contacts.length + 1 := by
    rw [h.ids.nextRowId, List.length_map]
  have howners : ∀ phone ∈ store.phones, phone.contactId ≤ (store.contacts.length : ℤ) + 1 :=
    fun phone hphone => (h.owners phone hphone).trans (by omega)
  unfold ContactStore.insertAll insertContact
  rw [hid]
  obtain ⟨hcontacts, hids, howners', hload⟩ := insertPhones_spec contact.phones
    { store with
      contacts := store.contacts ++ [⟨store.contacts.length + 1, contact.displayName⟩] }
    h.phoneIds howners
  refine ⟨?_, hids, ?_, ?_⟩
  · have hsnoc := h.ids.snoc
    rw [List.length_map] at hsnoc
    simpa only [hcontacts, List.map_append, List.map_cons, List.map_nil] using hsnoc
  · intro phone hphone
    rw [hcontacts, List.length_append, List.length_singleton, Nat.cast_add, Nat.cast_one]
    exact howners' phone hphone
  · have hnew : store.loadPhones (store.contacts.length + 1) = [] := by
      rw [loadPhones_of_numbered h.phoneIds, List.filter_eq_nil_iff.2, List.map_nil]
      intro phone hphone
      have := h.owners phone hphone
      simp only [decide_eq_true_eq]
      omega
    have hold : ∀ row ∈ store.contacts, ¬ (store.contacts.length : ℤ) + 1 = row.id := by
      intro row hrow heq
      have := h.ids.le_length (List.mem_map_of_mem hrow)
      rw [List.length_map] at this
      omega
    rw [hcontacts, List.map_append, List.map_singleton, hload, if_pos rfl, ← h.loaded]
    congr 1
    · refine List.map_congr_left fun row hrow => ?_
      rw [hload, if_neg (hold row hrow)]
      rfl
    · show [(⟨contact.displayName, store.loadPhones _ ++ contact.phones⟩ : Contact)] = [contact]
      rw [hnew, List.nil_append]

theorem Holds.inserted : ∀ (contacts : List Contact) {store : ContactStore} {held : List Contact},
    store.Holds held → (contacts.foldl ContactStore.insertAll store).Holds (held ++ contacts)
  | [], _, held, h => by rwa [List.append_nil]
  | contact :: contacts, _, held, h => by
    have hrest := Holds.inserted contacts (h.insertAll contact)
    rwa [List.append_assoc, List.singleton_append] at hrest

theorem deleteContacts_eq (h : store.References) : store.deleteContacts = ⟨[], []⟩ := by
  unfold deleteContacts
  rw [List.filter_eq_nil_iff.2]
  intro phone hphone
  obtain ⟨owner, howner, hid⟩ := h phone hphone
  rw [List.any_eq_true.2 ⟨owner, howner, decide_eq_true hid⟩]
  decide

end ContactStore

theorem ContactDatabase.holds_replaceAll (database : ContactDatabase) (contacts : List Contact) :
    (database.replaceAll contacts).rows.Holds contacts := by
  have hempty : ContactStore.Holds ⟨[], []⟩ [] :=
    ⟨numbered_nil, numbered_nil, fun _ h => absurd h List.not_mem_nil, rfl⟩
  show (contacts.foldl ContactStore.insertAll database.rows.deleteContacts).Holds contacts
  rw [ContactStore.deleteContacts_eq database.references]
  exact hempty.inserted contacts

theorem ContactStore.Holds.sorted {store : ContactStore} {contacts : List Contact}
    (h : store.Holds contacts) : store.contacts.Pairwise fun a b => a.id ≤ b.id := by
  simpa only [List.pairwise_map] using h.ids.pairwise

/-- A replacement stores exactly the contacts it is given, in their order. -/
theorem ContactDatabase.snapshot_replaceAll (database : ContactDatabase)
    (contacts : List Contact) : (database.replaceAll contacts).snapshot = contacts := by
  have hrows := database.holds_replaceAll contacts
  unfold snapshot
  rw [hrows.sorted.insertionSort_eq, hrows.loaded]

/-! ## Runs of `sync` -/

/-- The pull succeeded and the replacement did not. -/
def SyncRun.Unstored (run : SyncRun) : Prop := run.pull ≠ none ∧ run.commits = false

namespace ContactSynchronizer

variable {s : ContactSynchronizer} {run : SyncRun}

/-- From its error, the state machine starts no synchronization. -/
theorem sync_of_error (h : s.state = .error) (run : SyncRun) :
    s.sync run = ⟨false, .error .lockPoisoned, s⟩ := by
  unfold sync setState
  rw [h]
  rfl

/-- What a synchronization that starts comes to. -/
theorem sync_cases (h : s.state ≠ .error) (run : SyncRun) :
    (run.pull = none ∧ s.sync run = ⟨true, .error .source, ⟨s.store, .backingOff⟩⟩) ∨
    (run.Unstored ∧ s.sync run = ⟨true, .error .store, ⟨s.store, .error⟩⟩) ∨
    ∃ contacts, run.pull = some contacts ∧ run.commits = true ∧
      s.sync run = ⟨true,
        .ok ⟨contacts.length, (contacts.map (·.phones.length)).sum, run.clock⟩,
        ⟨s.store.replaceAll contacts, .idle⟩⟩ := by
  have hstart : s.setState .syncing = .ok ⟨s.store, .syncing⟩ := by
    unfold setState SyncState.transitionTo
    rw [if_pos ((SyncState.allowed_syncing_iff s.state).2 h)]
  unfold sync
  rw [hstart]
  rcases hpull : run.pull with - | contacts
  · exact .inl ⟨rfl, rfl⟩
  rcases hcommits : run.commits with - | -
  · exact .inr (.inl ⟨⟨by simp [hpull], hcommits⟩, rfl⟩)
  · exact .inr (.inr ⟨contacts, rfl, rfl, rfl⟩)

/-- The run pulls, changes nothing stored if it fails, and stores what it pulled if its pull and its
replacement succeed. -/
structure Lawful (s : ContactSynchronizer) (run : SyncRun) : Prop where
  pulls : (s.sync run).pulled = true
  keeps : ∀ e, (s.sync run).result = .error e → (s.sync run).after.store = s.store
  stores : ∀ contacts, run.pull = some contacts → run.commits = true →
    (∃ summary, (s.sync run).result = .ok summary) ∧ (s.sync run).after.store.snapshot = contacts

/-- A run is lawful from every state but an error. -/
theorem lawful_iff (s : ContactSynchronizer) (run : SyncRun) : s.Lawful run ↔ s.state ≠ .error := by
  constructor
  · intro h herror
    have hpulls := h.pulls
    rw [sync_of_error herror] at hpulls
    cases hpulls
  · intro h
    rcases sync_cases h run with ⟨hpull, hsync⟩ | ⟨⟨-, hcommits⟩, hsync⟩ |
      ⟨contacts, hpull, hcommits, hsync⟩
    · refine ⟨by rw [hsync], fun _ _ => by rw [hsync], fun contacts hsome _ => ?_⟩
      rw [hpull] at hsome
      cases hsome
    · refine ⟨by rw [hsync], fun _ _ => by rw [hsync], fun contacts _ htrue => ?_⟩
      rw [hcommits] at htrue
      cases htrue
    · refine ⟨by rw [hsync], fun e herror => ?_, fun contacts' hsome _ => ?_⟩
      · rw [hsync] at herror
        cases herror
      · rw [hpull, Option.some.injEq] at hsome
        rw [hsync, ← hsome]
        exact ⟨⟨_, rfl⟩, s.store.snapshot_replaceAll contacts⟩

/-- Only a run whose replacement fails leaves the error behind. -/
theorem state_ne_error_after (h : s.state ≠ .error) (hrun : ¬ run.Unstored) :
    (s.sync run).after.state ≠ .error := by
  rcases sync_cases h run with ⟨-, hsync⟩ | ⟨hunstored, -⟩ | ⟨contacts, -, -, hsync⟩
  · rw [hsync]
    exact fun h => nomatch h
  · exact absurd hunstored hrun
  · rw [hsync]
    exact fun h => nomatch h

theorem state_after_unstored (h : s.state ≠ .error) (hrun : run.Unstored) :
    (s.sync run).after.state = .error := by
  rcases sync_cases h run with ⟨hpull, -⟩ | ⟨-, hsync⟩ | ⟨contacts, -, hcommits, -⟩
  · exact absurd hpull hrun.1
  · rw [hsync]
  · rw [hrun.2] at hcommits
    cases hcommits

end ContactSynchronizer

open ContactSynchronizer

/-- Every run of a list is lawful exactly when none but the last pulls and fails to store. -/
theorem contact_sync_lawful_iff (store : ContactDatabase) (runs : List SyncRun) :
    (∀ s run, contactSyncs.Before (.new store) runs s run → s.Lawful run) ↔
      ∀ past run future, runs = past ++ run :: future → future ≠ [] → ¬ run.Unstored := by
  constructor
  · rintro h past run future rfl hne hunstored
    obtain ⟨next, future, rfl⟩ := List.exists_cons_of_ne_nil hne
    obtain ⟨s, hs⟩ := contactSyncs.exists_run (fun s run => ⟨_, rfl⟩) past (.new store)
    have hstate := (lawful_iff s run).1 (h s run ⟨past, _, rfl, hs⟩)
    have hnext : contactSyncs.Before (.new store) (past ++ run :: next :: future)
        (s.sync run).after next :=
      ⟨past ++ [run], future, by simp, contactSyncs.run_snoc_eq_some.2 ⟨s, hs, rfl⟩⟩
    exact (lawful_iff _ next).1 (h _ next hnext) (state_after_unstored hstate hunstored)
  · rintro h s run ⟨past, future, rfl, hs⟩
    rw [lawful_iff]
    refine contactSyncs.run_invariant_of_mem (P := fun s => s.state ≠ .error)
      (fun t earlier hmem t' ht hstep => ?_) (by simp [ContactSynchronizer.new]) hs
    obtain ⟨before, between, rfl⟩ := List.append_of_mem hmem
    obtain rfl := Option.some.inj hstep
    refine state_ne_error_after ht (h before earlier (between ++ run :: future) ?_ (by simp))
    simp

/-- A replacement that fails once, and then a pull and a replacement that would succeed. -/
def stuckRuns : List SyncRun := [⟨some [], false, none⟩, ⟨some [], true, none⟩]

def emptyDatabase : ContactDatabase := ⟨⟨[], []⟩, fun _ h => absurd h List.not_mem_nil⟩

theorem contact_sync_stuck :
    ¬ ∀ s run, contactSyncs.Before (.new emptyDatabase) stuckRuns s run → s.Lawful run := by
  intro h
  have hlawful := h ⟨emptyDatabase, .error⟩ ⟨some [], true, none⟩ ⟨[_], [], rfl, rfl⟩
  exact (lawful_iff _ _).1 hlawful rfl

end AnalogConnect
