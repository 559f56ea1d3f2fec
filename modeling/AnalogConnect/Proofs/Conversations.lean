import AnalogConnect.Conversations
import AnalogConnect.Proofs.ConversationAliases
import AnalogConnect.Proofs.GroupAssignment

/-!
# What a page holds

A page that is served holds one item for each conversation of its window, in order, and a cursor
when conversations are left (`conversationPage_ok`). A conversation with a marked message is in
conflict wherever the message is listed, and an item in conflict takes no reply.
-/

namespace AnalogConnect

theorem mapM_ok_iff {ε α β : Type} {f : α → Except ε β} : ∀ {l : List α} {l' : List β},
    l.mapM f = .ok l' ↔ List.Forall₂ (fun a b => f a = .ok b) l l'
  | [], l' => by
    rw [List.forall₂_nil_left_iff]
    exact ⟨fun h => (Except.ok.inj h).symm, fun h => by rw [h]; rfl⟩
  | a :: l, l' => by
    rw [List.mapM_cons, List.forall₂_cons_left_iff]
    rcases ha : f a with error | b
    · refine iff_of_false (by simp [bind, Except.bind]) ?_
      rintro ⟨b, -, hb, -⟩
      simp at hb
    · rcases hl : l.mapM f with error | rest
      · refine iff_of_false (by simp [bind, Except.bind]) ?_
        rintro ⟨b, rest, -, hrest, -⟩
        rw [mapM_ok_iff.2 hrest] at hl
        simp at hl
      · have hrest := mapM_ok_iff.1 hl
        constructor
        · intro h
          have h : b :: rest = l' := by simpa [bind, Except.bind, hl, pure, Except.pure] using h
          exact ⟨b, rest, rfl, hrest, h.symm⟩
        · rintro ⟨b', rest', hb', hrest', rfl⟩
          obtain rfl := Except.ok.inj hb'
          have := mapM_ok_iff.2 hrest'
          rw [hl, Except.ok.injEq] at this
          rw [this]
          rfl

theorem exists_of_mem_right {α β : Type} {R : α → β → Prop} {b : β} : ∀ {l : List α} {l' : List β},
    List.Forall₂ R l l' → b ∈ l' → ∃ a ∈ l, R a b
  | [], [], .nil, hb => by simp at hb
  | a :: l, _ :: _, .cons hab h, hb => by
    rcases List.mem_cons.1 hb with rfl | hb
    · exact ⟨a, List.mem_cons_self, hab⟩
    · obtain ⟨a', ha', hR⟩ := exists_of_mem_right h hb
      exact ⟨a', List.mem_cons_of_mem _ ha', hR⟩

/-! ## Windows -/

theorem window_eq {α : Type} (rows : List α) (offset limit : ℕ) :
    (rows.drop (min offset rows.length)).take
        (min (min offset rows.length + limit) rows.length - min offset rows.length)
      = (rows.drop offset).take limit := by
  rcases Nat.le_total offset rows.length with h | h
  · rw [Nat.min_eq_left h]
    rcases Nat.le_total (offset + limit) rows.length with h' | h'
    · rw [Nat.min_eq_left h']
      congr 1
      omega
    · rw [Nat.min_eq_right h', List.take_of_length_le (by simp),
        List.take_of_length_le (by rw [List.length_drop]; omega)]
  · rw [Nat.min_eq_right h, List.drop_length, List.drop_of_length_le h]
    simp

/-- The item shows the conversation, under the name looked up and the identifier given. -/
structure Shows (lookup : String → Except Unit (Option String)) (aliases : ConversationAliases)
    (row : StoredConversation) (item : ConversationItem) : Prop where
  named : ∃ displayName, displayNameOf lookup row = .ok displayName ∧
    item = conversationItem row displayName item.conversationId
  identified : aliases.keyToId row.conversationKey = some item.conversationId

section Page

variable {lookup : String → Except Unit (Option String)} {aliases aliases' : ConversationAliases}
  {random random' : RandomBytes} {items : List ConversationItem}

theorem displayNames_ok : ∀ {rows : List StoredConversation} {names : List (Option String)},
    displayNames lookup rows = .ok names → names.length = rows.length ∧
      ∀ p ∈ rows.zip names, displayNameOf lookup p.1 = .ok p.2
  | [], names, h => by
    obtain rfl := Except.ok.inj h
    exact ⟨rfl, fun p hp => by simp at hp⟩
  | row :: rows, names, h => by
    unfold displayNames at h
    split at h
    · simp at h
    rename_i displayName hname
    split at h
    · simp at h
    rename_i names' hnames
    obtain rfl := Except.ok.inj h
    obtain ⟨hlength, hzip⟩ := displayNames_ok hnames
    refine ⟨by rw [List.length_cons, List.length_cons, hlength], ?_⟩
    intro p hp
    rw [List.zip_cons_cons, List.mem_cons] at hp
    rcases hp with rfl | hp
    · exact hname
    · exact hzip p hp

theorem conversationItems_ok : ∀ {rows : List (StoredConversation × Option String)}
    {aliases aliases' : ConversationAliases} {random random' : RandomBytes}
    {items : List ConversationItem}, (∀ p ∈ rows, displayNameOf lookup p.1 = .ok p.2) →
    conversationItems aliases random rows = (.ok items, aliases', random') →
      ConversationAliases.Extends aliases aliases' ∧
        List.Forall₂ (Shows lookup aliases') (rows.map (·.1)) items
  | [], aliases, aliases', random, random', items, _, h => by
    simp only [conversationItems, Prod.mk.injEq, Except.ok.injEq] at h
    obtain ⟨rfl, rfl, -⟩ := h
    exact ⟨.refl _, .nil⟩
  | (row, displayName) :: rows, aliases, aliases', random, random', items, hnames, h => by
    unfold conversationItems at h
    split at h
    · simp at h
    rename_i id aliases₁ random₁ hid
    split at h
    · simp at h
    rename_i rest aliases₂ random₂ hrest
    simp only [Prod.mk.injEq, Except.ok.injEq] at h
    obtain ⟨rfl, rfl, rfl⟩ := h
    obtain ⟨hext₁, hgiven⟩ := ConversationAliases.conversationIdFor_ok hid
    obtain ⟨hext₂, hshows⟩ :=
      conversationItems_ok (fun p hp => hnames p (List.mem_cons_of_mem _ hp)) hrest
    refine ⟨hext₁.trans hext₂, .cons ⟨⟨displayName, ?_, rfl⟩, hext₂ _ _ hgiven⟩ hshows⟩
    exact hnames _ List.mem_cons_self

/-- A served page shows the conversations of its window, and has a cursor when some are left. -/
theorem conversationPage_ok {stored : List ThreadRow} {request : PageRequest}
    {page : Page ConversationItem}
    (h : conversationPage lookup stored request aliases random = (.ok page, aliases', random')) :
    ∃ cursor limit rows, PageCursor.parse request.cursor = .ok cursor ∧
      pageLimit request.limit = .ok limit ∧ conversations stored = .ok rows ∧
      List.Forall₂ (Shows lookup aliases') ((rows.drop cursor.offset).take limit) page.items ∧
      page.nextCursor = if cursor.offset + limit < rows.length then
        some (cursor.advance page.items.length).encode else none := by
  unfold conversationPage at h
  split at h
  · simp at h
  rename_i cursor hcursor
  split at h
  · simp at h
  rename_i limit hlimit
  split at h
  · simp at h
  rename_i rows hrows
  simp only [window_eq] at h
  split at h
  · simp at h
  rename_i names hnames
  split at h
  · simp at h
  rename_i items aliases₁ random₁ hitems
  simp only [Prod.mk.injEq, Except.ok.injEq] at h
  obtain ⟨rfl, rfl, rfl⟩ := h
  obtain ⟨hlength, hzip⟩ := displayNames_ok hnames
  obtain ⟨-, hshows⟩ := conversationItems_ok hzip hitems
  rw [List.map_fst_zip (Nat.le_of_eq hlength.symm)] at hshows
  refine ⟨cursor, limit, rows, hcursor, hlimit, hrows, hshows, ?_⟩
  have hfinish : min (min cursor.offset rows.length + limit) rows.length < rows.length ↔
      cursor.offset + limit < rows.length := by omega
  simp only [hfinish]

end Page

/-! ## Group keys -/

/-- A group's thread has the key of one. -/
def ThreadRow.GroupKeyed (row : ThreadRow) : Prop :=
  row.isAncsGroup = true → isAncsKey row.conversationKey = true

theorem ofThread_ok {thread : ThreadRow} {row : StoredConversation}
    (h : StoredConversation.ofThread thread = .ok row) :
    row.conversationKey = thread.conversationKey ∧ row.isAncsGroup = thread.isAncsGroup ∧
      row.identityConflict = thread.identityConflict := by
  unfold StoredConversation.ofThread at h
  split at h
  · obtain rfl := Except.ok.inj h
    exact ⟨rfl, rfl, rfl⟩
  · simp at h

theorem groupKeyed_of_mem {stored : List ThreadRow} {rows : List StoredConversation}
    (hstored : ∀ thread ∈ stored, thread.GroupKeyed) (hrows : conversations stored = .ok rows) :
    ∀ row ∈ rows, ConversationAliases.GroupKeyed row := by
  intro row hrow hancs
  obtain ⟨thread, hthread, hofThread⟩ := exists_of_mem_right (mapM_ok_iff.1 hrows) hrow
  obtain ⟨hkey, hgroup, -⟩ := ofThread_ok hofThread
  rw [hkey]
  exact hstored thread hthread (hgroup ▸ hancs)

theorem conversationItems_valid : ∀ {rows : List (StoredConversation × Option String)}
    {aliases aliases' : ConversationAliases} {random random' : RandomBytes}
    {result : Except StatusCode (List ConversationItem)}, aliases.Valid →
    (∀ p ∈ rows, ConversationAliases.GroupKeyed p.1) →
    conversationItems aliases random rows = (result, aliases', random') → aliases'.Valid
  | [], aliases, aliases', random, random', result, hvalid, _, h => by
    simp only [conversationItems, Prod.mk.injEq] at h
    exact h.2.1 ▸ hvalid
  | (row, displayName) :: rows, aliases, aliases', random, random', result, hvalid, hrows, h => by
    have hrow := hrows _ List.mem_cons_self
    have hrest : ∀ p ∈ rows, ConversationAliases.GroupKeyed p.1 :=
      fun p hp => hrows p (List.mem_cons_of_mem _ hp)
    unfold conversationItems at h
    split at h
    · rename_i error aliases₁ random₁ hid
      simp only [Prod.mk.injEq] at h
      exact h.2.1 ▸ hvalid.conversationIdFor hrow hid
    rename_i id aliases₁ random₁ hid
    have hvalid₁ := hvalid.conversationIdFor hrow hid
    split at h <;> rename_i hitems <;> simp only [Prod.mk.injEq] at h <;>
      exact h.2.1 ▸ conversationItems_valid hvalid₁ hrest hitems

theorem conversationPage_valid {lookup : String → Except Unit (Option String)}
    {stored : List ThreadRow} {request : PageRequest} {aliases : ConversationAliases}
    {random : RandomBytes} (hvalid : aliases.Valid)
    (hstored : ∀ thread ∈ stored, thread.GroupKeyed) :
    (conversationPage lookup stored request aliases random).2.1.Valid := by
  unfold conversationPage
  split
  · exact hvalid
  rename_i cursor hcursor
  split
  · exact hvalid
  rename_i limit hlimit
  split
  · exact hvalid
  rename_i rows hrows
  simp only [window_eq]
  split
  · exact hvalid
  rename_i names hnames
  have hpairs : ∀ p ∈ ((rows.drop cursor.offset).take limit).zip names,
      ConversationAliases.GroupKeyed p.1 := by
    intro p hp
    exact groupKeyed_of_mem hstored hrows p.1
      (List.mem_of_mem_drop (List.mem_of_mem_take (List.of_mem_zip hp).1))
  split <;> rename_i hitems <;> exact conversationItems_valid hvalid hpairs hitems

/-- The table of a daemon whose groups have keys of their own shape. -/
theorem valid_of_run {served : List PageServed} {aliases : ConversationAliases}
    (hrun : conversationService.run .empty served = some aliases)
    (hserved : ∀ e ∈ served, ∀ thread ∈ e.stored, thread.GroupKeyed) : aliases.Valid := by
  refine conversationService.run_invariant_of_mem (P := ConversationAliases.Valid) ?_
    ConversationAliases.valid_empty hrun
  intro aliases e he aliases' hvalid hstep
  obtain rfl := Option.some.inj hstep
  exact conversationPage_valid hvalid (hserved e he)

/-! ## Conflicts -/

theorem conversationItem_of_conflict {row : StoredConversation} (h : row.identityConflict = true)
    (displayName : Option String) (id : String) :
    (conversationItem row displayName id).canReply = false ∧
      (conversationItem row displayName id).replySupported = false := by
  simp [conversationItem, h]

namespace Store

theorem threadRow_eq_some {s : Store} {key : String} {rows : List MessageRow} {thread : ThreadRow}
    (h : s.threadRow key rows = some thread) : thread.conversationKey = key ∧
      thread.identityConflict
        = ((s.groups.find? key).any (·.identityConflict) || s.hasAmbiguous key) := by
  cases rows with
  | nil => simp [threadRow] at h
  | cons latest rest =>
    rw [← Option.some.inj h]
    exact ⟨rfl, rfl⟩

theorem identityConflict_of_mem_threads {s : Store} {thread : ThreadRow} (h : thread ∈ s.threads)
    (hambiguous : s.hasAmbiguous thread.conversationKey = true) :
    thread.identityConflict = true := by
  rw [threads, List.mem_insertionSort, List.mem_filterMap] at h
  obtain ⟨key, -, hthread⟩ := h
  obtain ⟨rfl, hconflict⟩ := threadRow_eq_some hthread
  rw [hconflict, hambiguous, Bool.or_true]

/-- A visible message with a key is listed. -/
theorem exists_mem_threads {s : Store} {row : MessageRow} (hrow : row ∈ s.messages.rows)
    (hvisible : row.folder ∈ visibleFolders) (hkey : row.conversationKey ≠ "") :
    ∃ thread ∈ s.threads, thread.conversationKey = row.conversationKey := by
  have hmem : row ∈ s.conversationRows row.conversationKey := by
    rw [conversationRows, List.mem_insertionSort, List.mem_filter]
    exact ⟨hrow, by simp [hvisible]⟩
  obtain ⟨thread, hthread⟩ : ∃ thread, s.threadRow row.conversationKey
      (s.conversationRows row.conversationKey) = some thread := by
    rcases hrows : s.conversationRows row.conversationKey with - | ⟨latest, rest⟩
    · rw [hrows] at hmem
      simp at hmem
    · exact ⟨_, rfl⟩
  refine ⟨thread, ?_, (threadRow_eq_some hthread).1⟩
  rw [threads, List.mem_insertionSort, List.mem_filterMap]
  refine ⟨row.conversationKey, ?_, hthread⟩
  rw [List.mem_dedup, List.mem_filter, List.mem_map]
  exact ⟨⟨row, List.mem_filter.2 ⟨hrow, by simpa using hvisible⟩, rfl⟩, by simpa using hkey⟩

theorem hasAmbiguous_of_marked {s : Store} {row : MessageRow} (hrow : row ∈ s.messages.rows)
    (h : s.Marked row.mapHandle) : s.hasAmbiguous row.conversationKey = true := by
  rw [hasAmbiguous, List.any_eq_true]
  have hmarker : s.ambiguous.find? row.mapHandle ≠ none := h
  exact ⟨row, hrow, by simpa [Option.isSome_iff_ne_none] using hmarker⟩

/-- From an applied ambiguous result on, and until a result resolves the message, the conversation
the message is listed under takes no reply, whichever page it is on; a visible message with a key is
listed. -/
theorem ambiguous_disables_reply {s t u : Store} {mapHandles : List String} {observed : Int64}
    {since : List StoreEvent} {row : MessageRow}
    {lookup : String → Except Unit (Option String)} {request : PageRequest}
    {aliases : ConversationAliases} {random : RandomBytes} {page : Page ConversationItem}
    (happlied : messageStore.step s
      (.correlate (.ambiguous mapHandles observed) (.ok .ambiguous)) = some t)
    (hnamed : row.mapHandle ∈ mapHandles) (hsince : messageStore.run t since = some u)
    (hunresolved : ∀ e ∈ since, ¬ Resolves row.mapHandle e) (hrow : row ∈ u.messages.rows)
    (hpage : (conversationPage lookup u.threads request aliases random).1 = .ok page) :
    ∃ cursor limit rows, PageCursor.parse request.cursor = .ok cursor ∧
      pageLimit request.limit = .ok limit ∧ conversations u.threads = .ok rows ∧
      List.Forall₂ (fun conversation item =>
        conversation.conversationKey = row.conversationKey →
          item.canReply = false ∧ item.replySupported = false)
        ((rows.drop cursor.offset).take limit) page.items ∧
      (row.folder ∈ visibleFolders → row.conversationKey ≠ "" →
        ∃ conversation ∈ rows, conversation.conversationKey = row.conversationKey) := by
  have hmarked : u.Marked row.mapHandle :=
    marked_of_run (marked_of_ambiguous happlied hnamed) hsince hunresolved
  rcases hserved : conversationPage lookup u.threads request aliases random with
    ⟨result, aliases', random'⟩
  obtain rfl : result = .ok page := by rw [← hpage, hserved]
  obtain ⟨cursor, limit, rows, hcursor, hlimit, hrows, hshows, -⟩ := conversationPage_ok hserved
  refine ⟨cursor, limit, rows, hcursor, hlimit, hrows, ?_, fun hvisible hkey => ?_⟩
  case refine_2 =>
    obtain ⟨thread, hthread, hsame⟩ := exists_mem_threads hrow hvisible hkey
    obtain ⟨conversation, hmem, hofThread⟩ :=
      exists_of_mem_right (R := fun b a => StoredConversation.ofThread a = .ok b)
        (List.Forall₂.flip (mapM_ok_iff.1 hrows)) hthread
    exact ⟨conversation, hmem, (ofThread_ok hofThread).1.trans hsame⟩
  have hconflict : ∀ conversation ∈ (rows.drop cursor.offset).take limit,
      conversation.conversationKey = row.conversationKey →
        conversation.identityConflict = true := by
    intro conversation hmem hkey
    obtain ⟨thread, hthread, hofThread⟩ := exists_of_mem_right (mapM_ok_iff.1 hrows)
      (List.mem_of_mem_drop (List.mem_of_mem_take hmem))
    obtain ⟨hsame, -, hconflict⟩ := ofThread_ok hofThread
    rw [hconflict]
    refine identityConflict_of_mem_threads hthread ?_
    rw [← hsame, hkey]
    exact hasAmbiguous_of_marked hrow hmarked
  refine (List.forall₂_and_left _ _).2 ⟨hconflict, hshows⟩ |>.imp ?_
  rintro conversation item ⟨hconflict, ⟨displayName, -, hitem⟩, -⟩ hkey
  rw [hitem]
  exact conversationItem_of_conflict (hconflict hkey) displayName item.conversationId

/-- The listed message, filed under its MAP conversation at a later sync. -/
def movedMessage : NewMessage :=
  ⟨"20000", 1000, "inbox", .received, "+15550001", "map:7", "+15550001", 1, 3000, "hello", none⟩

def movedRow : MessageRow :=
  ⟨1, "20000", 1000, "inbox", .received, "+15550001", "map:7", "+15550001", 1, 2000, "hello", none⟩

/-- The table after the first page of a store with one conversation. -/
def firstAliases : ConversationAliases :=
  (conversationPage (fun _ => .ok none) firstSync.threads ⟨none, none⟩ .empty
    [some (Vector.replicate 16 0)]).2.1

theorem groupKeyed_firstSync : ∀ thread ∈ firstSync.threads, thread.GroupKeyed := by
  unfold ThreadRow.GroupKeyed
  decide +kernel

theorem ambiguous_disables_reply_after_move : ∃ t u page,
    messageStore.step firstSync
      (.correlate (.ambiguous ["20000"] 1000) (.ok .ambiguous)) = some t ∧
    messageStore.run t [.upsert movedMessage] = some u ∧
    (conversationPage (fun _ => .ok none) u.threads ⟨none, none⟩ .empty
      [some (Vector.replicate 16 0)]).1 = .ok page ∧
    ∃ cursor limit rows, PageCursor.parse none = .ok cursor ∧ pageLimit none = .ok limit ∧
      conversations u.threads = .ok rows ∧
      List.Forall₂ (fun conversation item =>
        conversation.conversationKey = movedRow.conversationKey →
          item.canReply = false ∧ item.replySupported = false)
        ((rows.drop cursor.offset).take limit) page.items ∧
      (movedRow.folder ∈ visibleFolders → movedRow.conversationKey ≠ "" →
        ∃ conversation ∈ rows, conversation.conversationKey = movedRow.conversationKey) := by
  refine ⟨_, _, _, rfl, rfl, rfl, ?_⟩
  have hunresolved : ∀ e ∈ [StoreEvent.upsert movedMessage], ¬ Resolves movedRow.mapHandle e := by
    simp [Resolves]
  exact ambiguous_disables_reply
    (show messageStore.step firstSync
      (.correlate (.ambiguous ["20000"] 1000) (.ok .ambiguous)) = some _ from rfl)
    (show movedRow.mapHandle ∈ ["20000"] by decide)
    (show messageStore.run _ [.upsert movedMessage] = some _ from rfl) hunresolved
    (by decide +kernel) (show (conversationPage (fun _ => .ok none) _ ⟨none, none⟩ .empty
      [some (Vector.replicate 16 0)]).1 = .ok _ from rfl)

end Store

end AnalogConnect
