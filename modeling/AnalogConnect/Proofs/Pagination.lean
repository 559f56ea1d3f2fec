import AnalogConnect.Contacts
import AnalogConnect.Library.Paging
import AnalogConnect.Proofs.Conversations

/-!
# How far the pages go

The three list endpoints page by offset. A cursor carries any offset up to a million, but messages
and contacts are asked for with a 16-bit one, and what follows the conversations past a million is a
cursor at a million again. So following the cursors reads all the rows exactly when the last page
starts within the endpoint's ceiling, and otherwise never does (`pagination_complete_iff`).
-/

namespace AnalogConnect

open Paging

theorem PageCursor.parse_encode (cursor : PageCursor) :
    parse (some cursor.encode) = .ok cursor := by
  have hbound : cursor.offset < 16 ^ 16 := by
    have := cursor.offset_le
    unfold maxCursorOffset at this
    omega
  have hsize : cursor.encode.utf8ByteSize = 16 := by
    unfold PageCursor.encode
    rw [Text.utf8ByteSize_of_ascii, Hex.length_fixed]
    exact fun c hc => Hex.toNat_lt_of_isLower (Hex.isLower_of_mem_fixed hc)
  have hnumber : Hex.number cursor.encode.toList = some cursor.offset := by
    unfold PageCursor.encode
    rw [String.toList_ofList, Hex.number_fixed, Nat.mod_eq_of_lt hbound]
  unfold PageCursor.parse
  simp only [hsize, hnumber, ne_eq, not_true_eq_false, if_false, dif_pos cursor.offset_le]

theorem pageLimit_some {limit : ℕ} (h : 1 ≤ limit ∧ limit ≤ maxPageSize) :
    pageLimit (some limit) = .ok limit := if_pos h

/-! ## Reading one more row than the page holds -/

section Fetch

variable {α : Type} (rows : List α) (offset limit : ℕ)

theorem take_fetched :
    ((rows.drop offset).take (limit + 1)).take limit = (rows.drop offset).take limit := by
  rw [List.take_take, Nat.min_eq_left (Nat.le_succ limit)]

theorem limit_lt_length_fetched :
    limit < ((rows.drop offset).take (limit + 1)).length ↔ offset + limit < rows.length := by
  rw [List.length_take, List.length_drop]
  omega

theorem length_page (h : offset + limit < rows.length) :
    ((rows.drop offset).take limit).length = limit := by
  rw [List.length_take, List.length_drop]
  omega

end Fetch

/-! ## Endpoints without a state -/

section Endpoint

variable {α : Type} {endpoint : Option String → Except StatusCode (Page α)} {items : List α}
  {limit ceiling : ℕ}

/-- An endpoint's answers, as pages to follow. -/
def pages (endpoint : Option String → Except StatusCode (Page α)) (value : Option String) :
    Option (List α × Option (Option String)) :=
  match endpoint value with
  | .ok page => some (page.items, page.nextCursor.map some)
  | .error _ => none

/-- Following the endpoint's cursors from the first page ends, having read the items. -/
def Reads (endpoint : Option String → Except StatusCode (Page α)) (items : List α) : Prop :=
  ∃ fuel, walk (pages endpoint) fuel none = some items

/-- The endpoint answers a cursor with the items from its offset on, up to a ceiling. -/
def Pages (endpoint : Option String → Except StatusCode (Page α)) (items : List α)
    (limit ceiling : ℕ) : Prop :=
  ∀ value cursor, PageCursor.parse value = .ok cursor →
    endpoint value =
      if cursor.offset > ceiling then .error .unprocessableEntity
      else .ok
        { items := (items.drop cursor.offset).take limit
          nextCursor :=
            if cursor.offset + limit < items.length then some (cursor.advance limit).encode
            else none }

/-- The cursor's text stands for the offset. -/
def At (value : Option String) (offset : ℕ) : Prop :=
  ∃ cursor, PageCursor.parse value = .ok cursor ∧ cursor.offset = offset

theorem at_start : At none 0 := ⟨_, rfl, rfl⟩

theorem at_advance (cursor : PageCursor) (count : ℕ) :
    At (some (cursor.advance count).encode) (min (cursor.offset + count) maxCursorOffset) :=
  ⟨_, PageCursor.parse_encode _, rfl⟩

theorem pages_eq (h : Pages endpoint items limit ceiling) {value : Option String}
    {cursor : PageCursor} (hcursor : PageCursor.parse value = .ok cursor) :
    pages endpoint value =
      (offsetPage items limit ceiling maxCursorOffset cursor.offset).map fun (front, next) =>
        (front, next.map fun _ => some (cursor.advance limit).encode) := by
  unfold pages offsetPage
  rw [h value cursor hcursor]
  by_cases hceiling : cursor.offset ≤ ceiling
  · rw [if_neg (by omega), if_pos hceiling]
    split_ifs <;> rfl
  · rw [if_pos (by omega), if_neg hceiling]
    rfl

theorem reads_iff (h : Pages endpoint items limit ceiling) (hlimit : 0 < limit)
    (hceiling : ceiling + limit ≤ maxCursorOffset) :
    Reads endpoint items ↔ lastStart items.length limit ≤ ceiling := by
  have hnext : ∀ cursor : PageCursor, ∀ front next,
      offsetPage items limit ceiling maxCursorOffset cursor.offset = some (front, next) →
      Option.Rel At (next.map fun _ => some (cursor.advance limit).encode) next := by
    intro cursor front next hpage
    unfold offsetPage at hpage
    split_ifs at hpage <;> obtain ⟨-, rfl⟩ := Prod.mk.inj (Option.some.inj hpage)
    · exact .some (at_advance cursor limit)
    · exact .none
  constructor
  · rintro ⟨fuel, hwalk⟩
    by_contra hlast
    obtain ⟨items', hwalk', hsame⟩ := walk_rel (R := At) (S := Eq)
      (q := offsetPage items limit ceiling maxCursorOffset) (by
        rintro value _ ⟨cursor, hcursor, rfl⟩ front next hpage
        rw [pages_eq h hcursor, Option.map_eq_some_iff] at hpage
        obtain ⟨⟨front', next'⟩, hpage', hfront⟩ := hpage
        obtain ⟨rfl, rfl⟩ := Prod.mk.inj hfront
        exact ⟨_, _, hpage', by rw [List.forall₂_eq_eq_eq], hnext cursor _ _ hpage'⟩)
      at_start hwalk
    rw [List.forall₂_eq_eq_eq] at hsame
    have hlonger := length_lt_of_walk_offsetPage hlimit (.inr hceiling) (by omega)
      (Nat.dvd_zero limit) (Nat.zero_le _) hwalk'
    rw [← hsame] at hlonger
    omega
  · intro hlast
    have hcap : ceiling ≤ maxCursorOffset := by omega
    obtain ⟨fuel, hwalk⟩ := exists_walk_offsetPage hlimit hcap hlast 0
      (Nat.dvd_zero limit) (Nat.zero_le _)
    obtain ⟨items', hwalk', hsame⟩ := walk_rel (R := fun offset value => At value offset)
      (S := Eq) (q := pages endpoint) (by
        rintro _ value ⟨cursor, hcursor, rfl⟩ front next hpage
        refine ⟨front, _, by rw [pages_eq h hcursor, hpage]; rfl, by rw [List.forall₂_eq_eq_eq], ?_⟩
        have hrel := hnext cursor _ _ hpage
        cases next with
        | none => exact .none
        | some next => cases hrel with | some hat => exact .some hat)
      at_start hwalk
    rw [List.forall₂_eq_eq_eq, List.drop_zero] at hsame
    exact ⟨fuel, hsame ▸ hwalk'⟩

end Endpoint

/-! ## Messages and contacts -/

theorem conversationMessages_pages {s : Store} {aliases : ConversationAliases}
    {conversationId key : String} {messages : List StoredMessage} {limit : ℕ}
    (hlimit : 1 ≤ limit ∧ limit ≤ maxPageSize) (hkey : aliases.keyFor conversationId = some key)
    (hmessages : (s.conversationRows key).mapM StoredMessage.ofRow = .ok messages) :
    Pages (fun value => conversationMessages s aliases ⟨conversationId, value, some limit⟩)
      (messages.map messageItem) limit u16Max := by
  intro value cursor hcursor
  have hfetch : ¬ limit + 1 > u16Max := by
    have := hlimit.2
    unfold maxPageSize at this
    unfold u16Max
    omega
  have hrows : messagesFor s key (limit + 1) cursor.offset
      = .ok ((messages.drop cursor.offset).take (limit + 1)) :=
    mapM_ok_iff.2 (List.forall₂_take _ (List.forall₂_drop _ (mapM_ok_iff.1 hmessages)))
  unfold conversationMessages
  simp only [hcursor, pageLimit_some hlimit, hkey, if_neg hfetch, hrows, take_fetched]
  congr 2
  rw [List.map_take, List.map_drop]
  simp only [gt_iff_lt, limit_lt_length_fetched, List.length_map]
  split_ifs with hmore
  · rw [length_page (messages.map messageItem) cursor.offset limit (by rwa [List.length_map])]
  · rfl

/-- The contacts a query lists. -/
def listedContacts (store : ContactStore) (query : String) : List ContactItem :=
  (store.namedContacts query).map fun row =>
    .ofContact ⟨row.displayName, store.loadPhones row.id⟩

theorem contactPage_pages {store : ContactStore} {query : Option String} {limit : ℕ}
    (hlimit : 1 ≤ limit ∧ limit ≤ maxPageSize) (hquery : queryRefused (query.getD "") = false) :
    Pages (fun value => contactPage store ⟨query, value, some limit⟩)
      (listedContacts store (query.getD "")) limit u16Max := by
  intro value cursor hcursor
  have hpage : limit ≤ 100 := hlimit.2
  have hfetch : ¬ limit + 1 > u16Max := by
    unfold u16Max
    omega
  have hmin : min (limit + 1) 101 = limit + 1 := by omega
  unfold contactPage ContactStore.searchNamesPage
  simp only [hquery, Bool.false_eq_true, if_false, hcursor, pageLimit_some hlimit, if_neg hfetch,
    hmin, ← List.map_take, take_fetched, List.length_map]
  congr 2
  unfold listedContacts
  rw [List.map_map, ← List.map_drop, ← List.map_take]
  simp only [gt_iff_lt, limit_lt_length_fetched, List.length_map]
  split_ifs with hmore
  · rw [length_page (store.namedContacts (query.getD "")) cursor.offset limit hmore]
    rfl
  · rfl

/-! ## Conversations -/

section Conversations

variable {lookup : String → Except Unit (Option String)} {stored : List ThreadRow}
  {rows : List StoredConversation} {aliases : ConversationAliases} {random : RandomBytes}
  {limit : ℕ}

/-- The endpoint's answers as pages to follow, each item with the key its identifier leads to. -/
def conversationPages (lookup : String → Except Unit (Option String)) (stored : List ThreadRow)
    (limit : ℕ) : Option String × ConversationAliases × RandomBytes →
      Option (List (Option String × ConversationItem)
        × Option (Option String × ConversationAliases × RandomBytes))
  | (value, aliases, random) =>
    match conversationPage lookup stored ⟨value, some limit⟩ aliases random with
    | (.ok page, aliases', random') =>
      some (page.items.map fun item => (aliases'.keyFor item.conversationId, item),
        page.nextCursor.map fun cursor => (some cursor, aliases', random'))
    | (.error _, _, _) => none

/-- The item is the conversation's, under the name looked up. -/
def IsItemOf (lookup : String → Except Unit (Option String)) (row : StoredConversation)
    (item : Option String × ConversationItem) : Prop :=
  item.1 = some row.conversationKey ∧ ∃ displayName, displayNameOf lookup row = .ok displayName ∧
    item.2 = conversationItem row displayName item.2.conversationId

/-- Following the cursors from the first page ends, having read each conversation once in turn. -/
def ReadsConversations (lookup : String → Except Unit (Option String)) (stored : List ThreadRow)
    (rows : List StoredConversation) (limit : ℕ) (aliases : ConversationAliases)
    (random : RandomBytes) : Prop :=
  ∃ fuel items, walk (conversationPages lookup stored limit) fuel (none, aliases, random)
    = some items ∧ List.Forall₂ (IsItemOf lookup) rows items

theorem conversationPages_some (hlimit : 1 ≤ limit ∧ limit ≤ maxPageSize)
    (hrows : conversations stored = .ok rows) {value : Option String} {cursor : PageCursor}
    (hcursor : PageCursor.parse value = .ok cursor)
    {items : List (Option String × ConversationItem)}
    {next : Option (Option String × ConversationAliases × RandomBytes)}
    (h : conversationPages lookup stored limit (value, aliases, random) = some (items, next)) :
    ∃ page aliases' random', conversationPage lookup stored ⟨value, some limit⟩ aliases random
        = (.ok page, aliases', random') ∧
      items = page.items.map (fun item => (aliases'.keyFor item.conversationId, item)) ∧
      List.Forall₂ (Shows lookup aliases') ((rows.drop cursor.offset).take limit) page.items ∧
      next = if cursor.offset + limit < rows.length then
        some (some (cursor.advance limit).encode, aliases', random') else none := by
  unfold conversationPages at h
  rcases hpage : conversationPage lookup stored ⟨value, some limit⟩ aliases random with
    ⟨_ | page, aliases', random'⟩
  · simp [hpage] at h
  simp only [hpage, Option.some.injEq, Prod.mk.injEq] at h
  obtain ⟨rfl, rfl⟩ := h
  obtain ⟨cursor', limit', rows', hcursor', hlimit', hrows', hshows, hnext⟩ :=
    conversationPage_ok hpage
  obtain rfl := Except.ok.inj (hcursor'.symm.trans hcursor)
  obtain rfl := Except.ok.inj (hlimit'.symm.trans (pageLimit_some hlimit))
  obtain rfl := Except.ok.inj (hrows'.symm.trans hrows)
  refine ⟨page, aliases', random', rfl, rfl, hshows, ?_⟩
  rw [hnext]
  split_ifs with hmore
  · rw [← hshows.length_eq, length_page _ _ _ hmore]
    rfl
  · rfl

theorem conversationItems_of_canIssue {n : ℕ} :
    ∀ {rows : List (StoredConversation × Option String)} {aliases : ConversationAliases}
      {random : RandomBytes}, aliases.Valid → (∀ p ∈ rows, ConversationAliases.GroupKeyed p.1) →
      ConversationAliases.CanIssue aliases random (rows.length + n) →
      ∃ items aliases' random', conversationItems aliases random rows
        = (.ok items, aliases', random') ∧ aliases'.Valid ∧
          ConversationAliases.CanIssue aliases' random' n
  | [], aliases, random, hvalid, _, hissue =>
    ⟨[], aliases, random, rfl, hvalid, by simpa using hissue⟩
  | (row, displayName) :: rows, aliases, random, hvalid, hrows, hissue => by
    have hrow := hrows _ List.mem_cons_self
    rw [List.length_cons, Nat.add_right_comm] at hissue
    obtain ⟨id, aliases₁, random₁, hid, hissue₁⟩ := hissue.conversationIdFor hvalid hrow
    obtain ⟨items, aliases₂, random₂, hitems, hvalid₂, hissue₂⟩ := conversationItems_of_canIssue
      (hvalid.conversationIdFor hrow hid) (fun p hp => hrows p (List.mem_cons_of_mem _ hp)) hissue₁
    refine ⟨conversationItem row displayName id :: items, aliases₂, random₂, ?_, hvalid₂, hissue₂⟩
    unfold conversationItems
    simp only [hid, hitems]

theorem exists_displayNames (hlookup : ∀ address, ∃ name, lookup address = .ok name) :
    ∀ rows : List StoredConversation, ∃ names, displayNames lookup rows = .ok names
  | [] => ⟨[], rfl⟩
  | row :: rows => by
    obtain ⟨names, hnames⟩ := exists_displayNames hlookup rows
    obtain ⟨displayName, hname⟩ : ∃ name, displayNameOf lookup row = .ok name := by
      unfold displayNameOf
      split_ifs
      · exact hlookup row.displayAddress
      · exact ⟨none, rfl⟩
    refine ⟨displayName :: names, ?_⟩
    unfold displayNames
    simp only [hname, hnames]

/-- With lookups answered and identifiers to give, a page is served. -/
theorem exists_conversationPage (hlimit : 1 ≤ limit ∧ limit ≤ maxPageSize)
    (hlookup : ∀ address, ∃ name, lookup address = .ok name)
    (hrows : conversations stored = .ok rows)
    (hkeyed : ∀ row ∈ rows, ConversationAliases.GroupKeyed row) (hvalid : aliases.Valid)
    {value : Option String} {cursor : PageCursor} (hcursor : PageCursor.parse value = .ok cursor)
    (hissue : ConversationAliases.CanIssue aliases random (rows.length - cursor.offset)) :
    ∃ page aliases' random', conversationPage lookup stored ⟨value, some limit⟩ aliases random
        = (.ok page, aliases', random') ∧ aliases'.Valid ∧
      ConversationAliases.CanIssue aliases' random' (rows.length - (cursor.offset + limit)) := by
  obtain ⟨names, hnames⟩ := exists_displayNames hlookup ((rows.drop cursor.offset).take limit)
  obtain ⟨hlength, -⟩ := displayNames_ok hnames
  have hzip : (((rows.drop cursor.offset).take limit).zip names).length
      + (rows.length - (cursor.offset + limit)) = rows.length - cursor.offset := by
    rw [List.length_zip, hlength, Nat.min_self, List.length_take, List.length_drop]
    omega
  have hpairs : ∀ p ∈ ((rows.drop cursor.offset).take limit).zip names,
      ConversationAliases.GroupKeyed p.1 := by
    intro p hp
    exact hkeyed p.1 (List.mem_of_mem_drop (List.mem_of_mem_take (List.of_mem_zip hp).1))
  rw [← hzip] at hissue
  obtain ⟨items, aliases', random', hitems, hvalid', hissue'⟩ :=
    conversationItems_of_canIssue hvalid hpairs hissue
  have hserved : ∃ page, conversationPage lookup stored ⟨value, some limit⟩ aliases random
      = (.ok page, aliases', random') := by
    unfold conversationPage
    simp only [hcursor, pageLimit_some hlimit, hrows, window_eq, hnames, hitems]
    exact ⟨_, rfl⟩
  obtain ⟨page, hpage⟩ := hserved
  exact ⟨page, aliases', random', hpage, hvalid', hissue'⟩

/-- The walk has come to an offset, and there are identifiers for the conversations left. -/
structure Ready (rows : List StoredConversation) (limit offset : ℕ)
    (k : Option String × ConversationAliases × RandomBytes) : Prop where
  at_offset : At k.1 offset
  dvd : limit ∣ offset
  valid : k.2.1.Valid
  canIssue : ConversationAliases.CanIssue k.2.1 k.2.2 (rows.length - offset)

/-- A page served is the page of the rows from the cursor's offset on. -/
theorem offsetPage_of_conversationPages (hlimit : 1 ≤ limit ∧ limit ≤ maxPageSize)
    (hrows : conversations stored = .ok rows)
    {k : Option String × ConversationAliases × RandomBytes} {offset : ℕ} (hat : At k.1 offset)
    {items : List (Option String × ConversationItem)}
    {next : Option (Option String × ConversationAliases × RandomBytes)}
    (h : conversationPages lookup stored limit k = some (items, next)) :
    ∃ items' next', offsetPage rows limit maxCursorOffset maxCursorOffset offset
        = some (items', next') ∧ List.Forall₂ (fun _ _ => True) items items' ∧
      Option.Rel (fun k offset => At k.1 offset) next next' := by
  obtain ⟨value, aliases, random⟩ := k
  obtain ⟨cursor, hcursor, rfl⟩ := hat
  obtain ⟨page, aliases', random', -, rfl, hshows, rfl⟩ :=
    conversationPages_some hlimit hrows hcursor h
  refine ⟨_, _, if_pos cursor.offset_le, ?_, ?_⟩
  · rw [List.forall₂_map_left_iff]
    exact hshows.flip.imp fun _ _ _ => trivial
  · split_ifs
    · exact .some (at_advance cursor limit)
    · exact .none

/-- Where the walk is ready the page of the rows is served, and the walk is ready for the next. -/
theorem Ready.conversationPages (hlimit : 1 ≤ limit ∧ limit ≤ maxPageSize)
    (hlookup : ∀ address, ∃ name, lookup address = .ok name)
    (hrows : conversations stored = .ok rows)
    (hkeyed : ∀ row ∈ rows, ConversationAliases.GroupKeyed row)
    (hlast : lastStart rows.length limit ≤ maxCursorOffset) {offset : ℕ}
    {k : Option String × ConversationAliases × RandomBytes} (h : Ready rows limit offset k)
    {front : List StoredConversation} {next : Option ℕ}
    (hpage : offsetPage rows limit maxCursorOffset maxCursorOffset offset = some (front, next)) :
    ∃ items next', AnalogConnect.conversationPages lookup stored limit k = some (items, next') ∧
      List.Forall₂ (IsItemOf lookup) front items ∧ Option.Rel (Ready rows limit) next next' := by
  obtain ⟨value, aliases, random⟩ := k
  obtain ⟨⟨cursor, hcursor, rfl⟩, hdvd, hvalid, hissue⟩ := h
  obtain ⟨page, aliases', random', hserved, hvalid', hissue'⟩ :=
    exists_conversationPage hlimit hlookup hrows hkeyed hvalid hcursor hissue
  obtain ⟨items, next', hpages⟩ : ∃ items next',
      AnalogConnect.conversationPages lookup stored limit (value, aliases, random)
        = some (items, next') := by
    unfold AnalogConnect.conversationPages
    simp only [hserved]
    exact ⟨_, _, rfl⟩
  obtain ⟨page', aliases'', random'', hserved', hitems, hshows, hnext⟩ :=
    conversationPages_some hlimit hrows hcursor hpages
  rw [hserved, Prod.mk.injEq, Prod.mk.injEq] at hserved'
  obtain ⟨hsame, rfl, rfl⟩ := hserved'
  obtain rfl := Except.ok.inj hsame
  unfold offsetPage at hpage
  rw [if_pos cursor.offset_le, Option.some.injEq, Prod.mk.injEq] at hpage
  obtain ⟨rfl, rfl⟩ := hpage
  refine ⟨items, next', hpages, ?_, ?_⟩
  · rw [hitems, List.forall₂_map_right_iff]
    refine hshows.imp fun row item hitem => ⟨?_, hitem.named⟩
    exact hvalid'.key_of_id _ _ hitem.identified
  · rw [hnext]
    split_ifs with hmore
    · have hadvance := add_le_lastStart hlimit.1 hdvd hmore
      have hmin : min (cursor.offset + limit) maxCursorOffset = cursor.offset + limit :=
        Nat.min_eq_left (by omega)
      refine .some ⟨at_advance cursor limit, ?_, hvalid', ?_⟩
      · rw [hmin]
        exact Nat.dvd_add hdvd (Nat.dvd_refl limit)
      · rw [hmin]
        exact hissue'
    · exact .none

theorem readsConversations_iff (hlimit : 1 ≤ limit ∧ limit ≤ maxPageSize)
    (hlookup : ∀ address, ∃ name, lookup address = .ok name)
    (hrows : conversations stored = .ok rows)
    (hkeyed : ∀ row ∈ rows, ConversationAliases.GroupKeyed row) (hvalid : aliases.Valid)
    (hissue : ConversationAliases.CanIssue aliases random rows.length) :
    ReadsConversations lookup stored rows limit aliases random ↔
      lastStart rows.length limit ≤ maxCursorOffset := by
  constructor
  · rintro ⟨fuel, items, hwalk, hitems⟩
    by_contra hlast
    obtain ⟨items', hwalk', hsame⟩ := walk_rel (R := fun k offset => At k.1 offset)
      (fun _ _ hat _ _ => offsetPage_of_conversationPages hlimit hrows hat) at_start hwalk
    have hlonger := length_lt_of_walk_offsetPage hlimit.1 (.inl rfl) (by omega)
      (Nat.dvd_zero limit) (Nat.zero_le _) hwalk'
    have := hsame.length_eq
    have := hitems.length_eq
    omega
  · intro hlast
    obtain ⟨fuel, hwalk⟩ := exists_walk_offsetPage hlimit.1 (Nat.le_refl _) hlast 0
      (Nat.dvd_zero limit) (Nat.zero_le _)
    have hstart : Ready rows limit 0 (none, aliases, random) :=
      ⟨at_start, Nat.dvd_zero limit, hvalid, hissue⟩
    obtain ⟨items, hwalk', hitems⟩ := walk_rel
      (fun _ _ hready _ _ => hready.conversationPages hlimit hlookup hrows hkeyed hlast)
      hstart hwalk
    exact ⟨fuel, items, hwalk', hitems⟩

end Conversations

/-- Following the cursors reads all there is exactly when the last page starts within the ceiling:
a million for the conversations, 16 bits for a conversation's messages and for contacts. -/
theorem pagination_complete_iff {lookup : String → Except Unit (Option String)}
    {served : List PageServed} {stored : List ThreadRow} {rows : List StoredConversation}
    {aliases : ConversationAliases} {random : RandomBytes} {s : Store}
    {conversationId key : String} {messages : List StoredMessage} {contacts : ContactStore}
    {query : Option String} {limit : ℕ} (hlimit : 1 ≤ limit ∧ limit ≤ maxPageSize)
    (hrun : conversationService.run .empty served = some aliases)
    (hserved : ∀ e ∈ served, ∀ thread ∈ e.stored, thread.GroupKeyed)
    (hstored : ∀ thread ∈ stored, thread.GroupKeyed) (hrows : conversations stored = .ok rows)
    (hlookup : ∀ address, ∃ name, lookup address = .ok name)
    (hissue : aliases.CanIssue random rows.length)
    (hkey : aliases.keyFor conversationId = some key)
    (hmessages : (s.conversationRows key).mapM StoredMessage.ofRow = .ok messages)
    (hquery : queryRefused (query.getD "") = false) :
    (ReadsConversations lookup stored rows limit aliases random ↔
      lastStart rows.length limit ≤ maxCursorOffset) ∧
    (Reads (fun value => conversationMessages s aliases ⟨conversationId, value, some limit⟩)
        (messages.map messageItem) ↔ lastStart messages.length limit ≤ u16Max) ∧
    (Reads (fun value => contactPage contacts ⟨query, value, some limit⟩)
        (listedContacts contacts (query.getD "")) ↔
      lastStart (contacts.namedContacts (query.getD "")).length limit ≤ u16Max) := by
  have hceiling : u16Max + limit ≤ maxCursorOffset := by
    have := hlimit.2
    unfold maxPageSize at this
    unfold u16Max maxCursorOffset
    omega
  refine ⟨?_, ?_, ?_⟩
  · exact readsConversations_iff hlimit hlookup hrows (groupKeyed_of_mem hstored hrows)
      (valid_of_run hrun hserved) hissue
  · rw [reads_iff (conversationMessages_pages hlimit hkey hmessages) hlimit.1 hceiling,
      List.length_map]
  · rw [reads_iff (contactPage_pages hlimit hquery) hlimit.1 hceiling]
    unfold listedContacts
    rw [List.length_map]

theorem pagination_complete_firstSync :
    ∃ (rows : List StoredConversation) (messages : List StoredMessage),
    (ReadsConversations (fun _ => .ok none) Store.firstSync.threads rows 50 Store.firstAliases
        [some (Vector.replicate 16 1)] ↔ lastStart rows.length 50 ≤ maxCursorOffset) ∧
    (Reads (fun value => conversationMessages Store.firstSync Store.firstAliases
        ⟨"00000000000000000000000000000000", value, some 50⟩) (messages.map messageItem) ↔
      lastStart messages.length 50 ≤ u16Max) ∧
    (Reads (fun value => contactPage ⟨[⟨1, some "Example Alpha"⟩], []⟩ ⟨none, value, some 50⟩)
        (listedContacts ⟨[⟨1, some "Example Alpha"⟩], []⟩ "") ↔
      lastStart (ContactStore.namedContacts ⟨[⟨1, some "Example Alpha"⟩], []⟩ "").length 50
        ≤ u16Max) := by
  refine ⟨_, _, pagination_complete_iff (show 1 ≤ 50 ∧ 50 ≤ maxPageSize by decide)
    (show conversationService.run .empty
      [⟨fun _ => .ok none, Store.firstSync.threads, ⟨none, none⟩, [some (Vector.replicate 16 0)]⟩]
        = some Store.firstAliases from rfl)
    ?_ Store.groupKeyed_firstSync (show conversations Store.firstSync.threads = .ok _ from rfl)
    (fun _ => ⟨none, rfl⟩)
    ?_ (show Store.firstAliases.keyFor "00000000000000000000000000000000" = some _ from rfl)
    (show (Store.firstSync.conversationRows _).mapM StoredMessage.ofRow = .ok _ from rfl)
    (show queryRefused (none.getD "") = false by decide)⟩
  · simpa using Store.groupKeyed_firstSync
  · exact ⟨by decide, by simp, by decide, by decide +kernel⟩

/-- A store of `n` contacts of one name. -/
def manyContacts (n : ℕ) : ContactStore :=
  ⟨(List.range n).map fun id : ℕ => ⟨id, some "Example Alpha"⟩, []⟩

theorem length_listedContacts (n : ℕ) : (listedContacts (manyContacts n) "").length = n := by
  have hlike : like (ContactStore.namePattern "").toList "Example Alpha".toList = true := by
    decide +kernel
  have hall : ∀ row ∈ (manyContacts n).contacts,
      (row.displayName.any fun name => like (ContactStore.namePattern "").toList name.toList)
        = true := by
    intro row hrow
    obtain ⟨id, -, rfl⟩ := List.mem_map.1 hrow
    rw [Option.any_some]
    exact hlike
  unfold listedContacts ContactStore.namedContacts
  rw [List.length_map, List.length_insertionSort, List.filter_eq_self.2 hall]
  unfold manyContacts
  rw [List.length_map, List.length_range]

/-- More contacts than a 16-bit offset reaches, a hundred a page. -/
theorem manyContacts_incomplete :
    ¬ Reads (fun value => contactPage (manyContacts 65601) ⟨none, value, some 100⟩)
      (listedContacts (manyContacts 65601) "") := by
  have hpages : Pages (fun value => contactPage (manyContacts 65601) ⟨none, value, some 100⟩)
      (listedContacts (manyContacts 65601) "") 100 u16Max :=
    contactPage_pages (by decide) (by decide)
  rw [reads_iff hpages (by decide) (by decide), length_listedContacts]
  decide

end AnalogConnect
