import AnalogConnect.Proofs.Conversations
import Mathlib.Data.Nat.Digits.Defs

/-!
# Which pages the phone takes

The daemon bounds none of the texts it serves but the list of participants, and that by its bytes
before a space follows each comma; the phone bounds each by its UTF-16 units, and a page by its
bytes. Everything else of an item the phone checks, the identifiers included, holds by how the
daemon builds it, so each item is taken exactly when the texts of its row fit
(`served_items_accepted_iff`).
-/

namespace AnalogConnect

/-! ## Conversations -/

/-- The phone takes the text as an address to show. -/
def AddressFits (text : String) : Prop := text ≠ "" ∧ Text.utf16Length text ≤ 128

/-- The phone takes the text as a name or title. -/
def NameFits (text : String) : Prop := text ≠ "" ∧ Text.utf16Length text ≤ 256

theorem AddressFits.nameFits {text : String} (h : AddressFits text) : NameFits text :=
  ⟨h.1, h.2.trans (by decide)⟩

theorem validOutgoingState_toText (status : Option OutgoingStatus) :
    validOutgoingState (status.map (·.toText)) = true := by
  rcases status with - | status
  · rfl
  · cases status <;> rfl

/-- The flags, the kind and the state of a summary agree as the phone wants them to. -/
structure Coherent (s : ConversationSummary) : Prop where
  reply : s.canReply = s.replySupported
  group_reply : (s.group && s.replySupported) = false
  group_canReply : (s.group && s.canReply) = false
  conflict_canReply : (s.identityConflict && s.canReply) = false
  kind : s.kind = "private" ∨ s.kind = "group" ∨ s.kind = "ambiguous"
  group_kind : s.identityConflict = true ∨ s.group = decide (s.kind = "group")
  state : validOutgoingState s.latestOutgoingState = true

theorem invalid_eq_false_iff (s : ConversationSummary) : s.invalid = false ↔
    validConversationId s.id = true ∧ AddressFits s.displayAddress ∧ 0 ≤ s.latestUnixMillis ∧
      (0 ≤ s.messageCount ∧ 0 ≤ s.unreadCount ∧ s.unreadCount ≤ s.messageCount) ∧
      (∀ name ∈ s.displayName, NameFits name) ∧ NameFits s.title ∧ Coherent s ∧
      Text.utf16Length s.latestPreview ≤ 2000 ∧ Text.utf16Length s.latestSender ≤ 128 := by
  have hname : (s.displayName.any fun name => name = "" || Text.utf16Length name > 256) = false ↔
      ∀ name ∈ s.displayName, NameFits name := by
    rcases s.displayName with - | name
    · simp
    · simp [NameFits]
  have hgroup : (s.group != decide (s.kind = "group") && !s.identityConflict) = false ↔
      s.identityConflict = true ∨ s.group = decide (s.kind = "group") := by
    rcases s.identityConflict <;> simp
  unfold ConversationSummary.invalid
  simp only [Bool.or_eq_false_iff, hname, hgroup, Bool.not_eq_false', bne_eq_false_iff_eq,
    decide_eq_false_iff_not, not_lt, gt_iff_lt, Bool.or_eq_true, decide_eq_true_eq]
  constructor
  · rintro ⟨⟨⟨⟨⟨⟨⟨⟨⟨⟨⟨⟨⟨⟨⟨⟨⟨⟨hid, hempty⟩, haddress⟩, htime⟩, hcount⟩, hunread⟩, hle⟩, hreply⟩,
      hnames⟩, htitleEmpty⟩, htitle⟩, hkind⟩, hgroupKind⟩, hcanReply⟩, hgroupReply⟩, hconflict⟩,
      hpreview⟩, hsender⟩, hstate⟩
    exact ⟨hid, ⟨hempty, haddress⟩, htime, ⟨hcount, hunread, hle⟩, hnames, ⟨htitleEmpty, htitle⟩,
      ⟨hcanReply, hreply, hgroupReply, hconflict, or_assoc.1 hkind, hgroupKind, hstate⟩, hpreview,
      hsender⟩
  · rintro ⟨hid, ⟨hempty, haddress⟩, htime, ⟨hcount, hunread, hle⟩, hnames, ⟨htitleEmpty, htitle⟩,
      ⟨hcanReply, hreply, hgroupReply, hconflict, hkind, hgroupKind, hstate⟩, hpreview, hsender⟩
    exact ⟨⟨⟨⟨⟨⟨⟨⟨⟨⟨⟨⟨⟨⟨⟨⟨⟨⟨hid, hempty⟩, haddress⟩, htime⟩, hcount⟩, hunread⟩, hle⟩, hreply⟩,
      hnames⟩, htitleEmpty⟩, htitle⟩, or_assoc.2 hkind⟩, hgroupKind⟩, hcanReply⟩, hgroupReply⟩,
      hconflict⟩, hpreview⟩, hsender⟩, hstate⟩

theorem coherent_summary {row : StoredConversation}
    (hstate : validOutgoingState row.latestOutgoingState = true) (displayName : Option String)
    (id : String) : Coherent (conversationItem row displayName id).summary := by
  unfold ConversationItem.summary conversationItem
  rcases hgroup : row.isAncsGroup || decide (row.participantCount > 1) <;>
    rcases hconflict : row.identityConflict <;>
    refine ⟨rfl, ?_, ?_, ?_, ?_, ?_, hstate⟩ <;>
    simp [ConversationKind.serialize]

/-- What is left to the texts, once the rest of the item is as the daemon builds it. -/
theorem ofItem_ok_iff {row : StoredConversation} {displayName : Option String} {id : String}
    (hid : validConversationId id = true) (htime : 0 ≤ row.latestUnixMillis)
    (hunread : row.unreadCount ≤ row.messageCount)
    (hstate : validOutgoingState row.latestOutgoingState = true) :
    (∃ summary, ConversationSummary.ofItem (conversationItem row displayName id) = .ok summary) ↔
      AddressFits row.displayAddress ∧ (∀ name ∈ displayName, NameFits name) ∧
        (∀ title ∈ row.groupTitle, NameFits title) ∧
        Text.utf16Length row.latestPreview ≤ 2000 ∧ Text.utf16Length row.latestSender ≤ 128 := by
  have hok : (∃ summary, ConversationSummary.ofItem (conversationItem row displayName id)
      = .ok summary) ↔ (conversationItem row displayName id).summary.invalid = false := by
    unfold ConversationSummary.ofItem
    by_cases h : (conversationItem row displayName id).summary.invalid = true
    · simp [h]
    · simp [h]
  have htitle : NameFits ((row.groupTitle.or displayName).getD row.displayAddress) ↔
      (∀ title ∈ row.groupTitle, NameFits title) ∧
        (row.groupTitle = none → (∀ name ∈ displayName, NameFits name) ∧
          (displayName = none → NameFits row.displayAddress)) := by
    rcases row.groupTitle with - | title
    · rcases displayName with - | name <;> simp
    · simp
  rw [hok, invalid_eq_false_iff]
  constructor
  · rintro ⟨-, haddress, -, -, hnames, htitles, -, hpreview, hsender⟩
    exact ⟨haddress, hnames, (htitle.1 htitles).1, hpreview, hsender⟩
  · rintro ⟨haddress, hnames, htitles, hpreview, hsender⟩
    refine ⟨hid, haddress, htime, ⟨Int.natCast_nonneg _, Int.natCast_nonneg _, ?_⟩, hnames,
      htitle.2 ⟨htitles, fun _ => ⟨hnames, fun _ => haddress.nameFits⟩⟩,
      coherent_summary hstate displayName id, hpreview, hsender⟩
    exact Int.ofNat_le.2 hunread

/-! ## Rows -/

theorem toUnsigned_ok {n : Int64} {m : ℕ} (h : toUnsigned n = .ok m) :
    0 ≤ n.toInt ∧ m = n.toInt.toNat := by
  unfold toUnsigned at h
  split_ifs at h with hn
  exact ⟨hn, (Except.ok.inj h).symm⟩

theorem ofThread_eq {thread : ThreadRow} {row : StoredConversation}
    (h : StoredConversation.ofThread thread = .ok row) :
    row.displayAddress = displayAddressOf thread thread.participantCount.toInt.toNat ∧
      row.participantCount = thread.participantCount.toInt.toNat ∧
      row.isAncsGroup = thread.isAncsGroup ∧ row.latestUnixMillis = thread.latestMs ∧
      row.messageCount = thread.total.toInt.toNat ∧ row.unreadCount = thread.unread.toInt.toNat ∧
      row.latestOutgoingState = thread.latestOutgoingStatus.map (·.toText) ∧
      row.latestPreview = thread.latestText ∧ row.latestSender = thread.latestSender ∧
      row.groupTitle = thread.groupTitle := by
  unfold StoredConversation.ofThread at h
  split at h
  · rename_i count total unread hcount htotal hunread
    obtain rfl := Except.ok.inj h
    obtain ⟨-, rfl⟩ := toUnsigned_ok hcount
    obtain ⟨-, rfl⟩ := toUnsigned_ok htotal
    obtain ⟨-, rfl⟩ := toUnsigned_ok hunread
    exact ⟨rfl, rfl, rfl, rfl, rfl, rfl, rfl, rfl, rfl, rfl⟩
  · simp at h

/-- The conversation is shown by its latest address alone. -/
def ThreadRow.Single (row : ThreadRow) : Prop :=
  row.participantCount.toInt ≤ 1 ∨ row.participants = ""

/-- The texts of a conversation's row fit what the phone takes. -/
structure ThreadRow.Fits (lookup : String → Except Unit (Option String)) (row : ThreadRow) :
    Prop where
  address : row.Single → AddressFits row.address
  participants : ¬ row.Single → row.participants.utf8ByteSize ≤ 128 →
    Text.utf16Length row.participants + row.participants.toList.count ',' ≤ 128
  name : row.participantCount.toInt ≤ 1 → row.isAncsGroup = false →
    ∀ name, lookup row.address = .ok (some name) → NameFits name
  title : ∀ title ∈ row.groupTitle, NameFits title
  preview : Text.utf16Length row.latestText ≤ 2000
  sender : Text.utf16Length row.latestSender ≤ 128

theorem ne_empty_of_utf16Length {s : String} (h : 0 < Text.utf16Length s) : s ≠ "" := by
  rintro rfl
  exact absurd h (by decide)

theorem utf16Length_pos {s : String} (h : s ≠ "") : 0 < Text.utf16Length s := by
  unfold Text.utf16Length
  rcases hs : s.toList with - | ⟨c, l⟩
  · exact absurd (String.toList_eq_nil_iff.1 hs) h
  · have hwidth : 0 < Text.utf16Width c := by
      unfold Text.utf16Width
      split_ifs <;> decide
    rw [List.map_cons, List.sum_cons]
    omega

/-- However many take part, their number fits. -/
theorem addressFits_counted (n : Int64) :
    AddressFits ("Group conversation (" ++ toString n.toInt.toNat ++ " participants)") := by
  have hdigits : (toString n.toInt.toNat).toList.length ≤ 19 := by
    have hlt : n.toInt.toNat < 10 ^ 19 := by
      have := n.toInt_lt
      omega
    have := Nat.repr_length n.toInt.toNat 19 (by decide) hlt
    rwa [← String.length_toList] at this
  have hunits := Text.utf16Length_le (toString n.toInt.toNat)
  have hfront : Text.utf16Length "Group conversation (" = 20 := by decide +kernel
  have hback : Text.utf16Length " participants)" = 14 := by decide +kernel
  have hlength : Text.utf16Length ("Group conversation (" ++ toString n.toInt.toNat
      ++ " participants)") = 20 + Text.utf16Length (toString n.toInt.toNat) + 14 := by
    rw [Text.utf16Length_append, Text.utf16Length_append, hfront, hback]
  exact ⟨ne_empty_of_utf16Length (by omega), by omega⟩

theorem displayAddressOf_fits_iff (row : ThreadRow) :
    AddressFits (displayAddressOf row row.participantCount.toInt.toNat) ↔
      (row.Single → AddressFits row.address) ∧
      (¬ row.Single → row.participants.utf8ByteSize ≤ 128 →
        Text.utf16Length row.participants + row.participants.toList.count ',' ≤ 128) := by
  have hsingle : (row.participantCount.toInt.toNat ≤ 1 ∨ row.participants = "") ↔ row.Single :=
    or_congr_left (by omega)
  unfold displayAddressOf
  by_cases h : row.participantCount.toInt.toNat ≤ 1 ∨ row.participants = ""
  · rw [if_pos h]
    simp [hsingle.1 h]
  · rw [if_neg h]
    rw [hsingle] at h
    by_cases hbytes : row.participants.utf8ByteSize > 128
    · rw [if_pos hbytes]
      refine iff_of_true (addressFits_counted _) ⟨fun hs => absurd hs h, fun _ hle => ?_⟩
      omega
    · rw [if_neg hbytes]
      have hlength : Text.utf16Length (Text.replaceChar ',' ", " row.participants)
          = Text.utf16Length row.participants + row.participants.toList.count ',' :=
        Text.utf16Length_replaceChar (by decide) (show ' '.toNat < 128 by decide) row.participants
      have hpos := utf16Length_pos fun hempty => h (.inr hempty)
      unfold AddressFits
      rw [hlength]
      constructor
      · rintro ⟨-, hunits⟩
        exact ⟨fun hs => absurd hs h, fun _ _ => hunits⟩
      · rintro ⟨-, hunits⟩
        exact ⟨ne_empty_of_utf16Length (by omega), hunits h (by omega)⟩

/-- The phone takes a shown conversation exactly when its row's texts fit. -/
theorem shown_accepted_iff {lookup : String → Except Unit (Option String)}
    {aliases : ConversationAliases} {thread : ThreadRow} {row : StoredConversation}
    {item : ConversationItem} (hvalid : aliases.Valid)
    (hofThread : StoredConversation.ofThread thread = .ok row)
    (hshows : Shows lookup aliases row item) (htime : 0 ≤ thread.latestMs)
    (hunread : thread.unread.toInt ≤ thread.total.toInt) :
    (∃ summary, ConversationSummary.ofItem item = .ok summary) ↔ thread.Fits lookup := by
  obtain ⟨haddress, hcount, hancs, htime', htotal', hunread', hstate, hpreview, hsender, htitle⟩ :=
    ofThread_eq hofThread
  obtain ⟨⟨displayName, hname, hitem⟩, hid⟩ := hshows
  rw [hitem, ofItem_ok_iff (hvalid.validConversationId hid) (htime' ▸ htime) (by omega)
    (hstate ▸ validOutgoingState_toText _), haddress, displayAddressOf_fits_iff, hpreview, hsender,
    htitle]
  have hnames : row.displayAddress = thread.address ∨ ¬ thread.participantCount.toInt ≤ 1 := by
    by_cases hone : thread.participantCount.toInt ≤ 1
    · left
      rw [haddress]
      exact if_pos (.inl (by omega))
    · exact .inr hone
  have hnamed : (∀ name ∈ displayName, NameFits name) ↔
      (thread.participantCount.toInt ≤ 1 → thread.isAncsGroup = false →
        ∀ name, lookup thread.address = .ok (some name) → NameFits name) := by
    unfold displayNameOf at hname
    by_cases hlooked : row.participantCount ≤ 1 ∧ row.isAncsGroup = false
    · have hone : thread.participantCount.toInt ≤ 1 := by omega
      rw [if_pos hlooked, hnames.resolve_right (not_not_intro hone)] at hname
      rw [hname]
      constructor
      · intro h _ _ name hsome
        exact h name (Except.ok.inj hsome)
      · intro h name hmem
        exact h hone (hancs ▸ hlooked.2) name (congrArg _ hmem)
    · rw [if_neg hlooked] at hname
      obtain rfl := Except.ok.inj hname
      refine iff_of_true (by simp) fun hone hancs' => absurd ?_ hlooked
      exact ⟨by omega, hancs ▸ hancs'⟩
  rw [hnamed]
  constructor
  · rintro ⟨⟨haddress, hparticipants⟩, hname, htitle, hpreview, hsender⟩
    exact ⟨haddress, hparticipants, hname, htitle, hpreview, hsender⟩
  · rintro ⟨haddress, hparticipants, hname, htitle, hpreview, hsender⟩
    exact ⟨⟨haddress, hparticipants⟩, hname, htitle, hpreview, hsender⟩

/-! ## Messages -/

/-- The texts of a message's row fit what the phone takes. -/
structure MessageRow.Fits (row : MessageRow) : Prop where
  peer : Text.utf16Length row.address ≤ 128
  body : Text.utf16Length row.text ≤ 2000

theorem message_accepted_iff {row : MessageRow} {message : StoredMessage}
    (h : StoredMessage.ofRow row = .ok message) (htime : 0 ≤ row.timestampMs) :
    (∃ parsed, ConversationMessage.ofItem (messageItem message) = .ok parsed) ↔ row.Fits := by
  have hlower : lowerHex (Hex.fixed 16 message.localId) = true := by
    unfold lowerHex
    rw [List.all_eq_true]
    exact fun c hc => decide_eq_true (Hex.isLower_of_mem_fixed hc)
  have hlength : Text.utf16Length (String.ofList (Hex.fixed 16 message.localId)) = 16 := by
    rw [Text.utf16Length_of_ascii, Hex.length_fixed]
    exact fun c hc => Hex.toNat_lt_of_isLower (Hex.isLower_of_mem_fixed hc)
  have hdirection : message.direction.serialize = "received" ∨
      message.direction.serialize = "sent" := by
    rcases message.direction <;> simp [Direction.serialize]
  have hinvalid : ConversationMessage.invalid (messageItem message) = false ↔ row.Fits := by
    unfold StoredMessage.ofRow at h
    split at h
    · simp at h
    rename_i localId hlocalId
    obtain rfl := Except.ok.inj h
    have hstate := validOutgoingState_toText row.outgoingStatus
    unfold ConversationMessage.invalid messageItem
    simp only [String.toList_ofList, hlower, hlength, hstate, Bool.or_eq_false_iff,
      decide_eq_false_iff_not, not_lt, gt_iff_lt, Bool.not_eq_false', Bool.or_eq_true,
      decide_eq_true_eq, not_true_eq_false, ne_eq, not_false_eq_true]
    constructor
    · rintro ⟨⟨⟨⟨-, -⟩, hpeer⟩, hbody⟩, -⟩
      exact ⟨hpeer, hbody⟩
    · rintro ⟨hpeer, hbody⟩
      exact ⟨⟨⟨⟨⟨⟨trivial, trivial⟩, htime⟩, hdirection⟩, hpeer⟩, hbody⟩, trivial⟩
  rw [← hinvalid]
  unfold ConversationMessage.ofItem
  by_cases hrefused : ConversationMessage.invalid (messageItem message) = true
  · simp [hrefused]
  · simp [hrefused]

/-- A served page of messages holds the messages of its window. -/
theorem conversationMessages_ok {s : Store} {aliases : ConversationAliases}
    {request : MessagesRequest} {page : Page MessageItem}
    (h : conversationMessages s aliases request = .ok page) :
    ∃ cursor limit key, PageCursor.parse request.cursor = .ok cursor ∧
      pageLimit request.limit = .ok limit ∧ aliases.keyFor request.conversationId = some key ∧
      List.Forall₂ (fun row item => ∃ message, StoredMessage.ofRow row = .ok message ∧
        item = messageItem message)
        (((s.conversationRows key).drop cursor.offset).take limit) page.items ∧
      ∀ value ∈ page.nextCursor, ∃ cursor : PageCursor, value = cursor.encode := by
  unfold conversationMessages at h
  split at h
  · simp at h
  rename_i cursor hcursor
  split at h
  · simp at h
  rename_i limit hlimit
  split at h
  · simp at h
  rename_i key hkey
  split at h
  · simp at h
  split at h
  · simp at h
  split at h
  · simp at h
  rename_i messages hmessages
  obtain rfl := Except.ok.inj h
  refine ⟨cursor, limit, key, hcursor, hlimit, hkey, ?_, ?_⟩
  · have hrows := List.forall₂_take limit (mapM_ok_iff.1 hmessages)
    rw [Store.listConversationMessages, List.take_take,
      Nat.min_eq_left (Nat.le_succ limit)] at hrows
    rw [List.forall₂_map_right_iff]
    exact hrows.imp fun row message hrow => ⟨message, hrow, rfl⟩
  · intro value hvalue
    simp only at hvalue
    split_ifs at hvalue
    · exact ⟨_, (Option.some.inj hvalue).symm⟩
    · cases hvalue

/-! ## Pages -/

theorem length_le_of_pageLimit {requested : Option ℕ} {limit : ℕ}
    (h : pageLimit requested = .ok limit) : limit ≤ 100 := by
  unfold pageLimit at h
  simp only at h
  split_ifs at h with hlimit
  rw [← Except.ok.inj h]
  exact hlimit.2

theorem exists_mapM_ok_iff {ε α β : Type} {f : α → Except ε β} : ∀ {l : List α},
    (∃ l', l.mapM f = .ok l') ↔ ∀ a ∈ l, ∃ b, f a = .ok b
  | [] => iff_of_true ⟨[], rfl⟩ (by simp)
  | a :: l => by
    simp only [mapM_ok_iff, List.forall₂_cons_left_iff, List.forall_mem_cons]
    rw [← exists_mapM_ok_iff]
    constructor
    · rintro ⟨_, b, l', hb, hl', rfl⟩
      exact ⟨⟨b, hb⟩, l', mapM_ok_iff.2 hl'⟩
    · rintro ⟨⟨b, hb⟩, l', hl'⟩
      exact ⟨b :: l', b, l', hb, mapM_ok_iff.1 hl', rfl⟩

/-- A cursor the daemon writes is one the phone reads. -/
theorem encode_accepted (cursor : PageCursor) :
    Text.utf16Length cursor.encode = 16 ∧ lowerHex cursor.encode.toList = true := by
  unfold PageCursor.encode lowerHex
  rw [Text.utf16Length_of_ascii, Hex.length_fixed, String.toList_ofList, List.all_eq_true]
  · exact ⟨rfl, fun c hc => decide_eq_true (Hex.isLower_of_mem_fixed hc)⟩
  · exact fun c hc => Hex.toNat_lt_of_isLower (Hex.isLower_of_mem_fixed hc)

theorem construct_ok {α : Type} {items : List α} {nextCursor : Option String}
    (hlength : items.length ≤ 100)
    (hcursor : ∀ value ∈ nextCursor, ∃ cursor : PageCursor, value = cursor.encode) :
    ConversationPageData.construct items nextCursor = .ok ⟨items, nextCursor⟩ := by
  unfold ConversationPageData.construct
  refine if_neg ?_
  rcases nextCursor with - | value
  · simpa using hlength
  · obtain ⟨cursor, rfl⟩ := hcursor value rfl
    obtain ⟨hunits, hlower⟩ := encode_accepted cursor
    simpa [hunits, hlower] using hlength

/-- The phone takes a page exactly when it takes each item. -/
theorem parsePage_ok_iff {α β : Type} {construct : α → Except String β} {failure : String}
    {page : Page α} (hlength : page.items.length ≤ 100)
    (hcursor : ∀ value ∈ page.nextCursor, ∃ cursor : PageCursor, value = cursor.encode) :
    (∃ data, ApiClient.parsePage construct failure page = .ok data) ↔
      ∀ item ∈ page.items, ∃ parsed, construct item = .ok parsed := by
  rw [← exists_mapM_ok_iff]
  unfold ApiClient.parsePage
  rcases hparsed : page.items.mapM construct with error | parsed
  · simp
  · have hsame := (mapM_ok_iff.1 hparsed).length_eq
    simp only [construct_ok (hsame ▸ hlength) hcursor]
    exact iff_of_true ⟨_, rfl⟩ ⟨_, rfl⟩

/-- The phone takes an answer exactly when its body is not too long and it takes each item. -/
theorem readPage_ok_iff {α β : Type} {serialize : α → String} {maximumBytes : ℕ}
    {construct : α → Except String β} {failure : String} {page : Page α}
    (hlength : page.items.length ≤ 100)
    (hcursor : ∀ value ∈ page.nextCursor, ∃ cursor : PageCursor, value = cursor.encode) :
    (∃ data, ApiClient.readPage serialize maximumBytes construct failure page = .ok data) ↔
      (page.body serialize).utf8ByteSize ≤ maximumBytes ∧
        ∀ item ∈ page.items, ∃ parsed, construct item = .ok parsed := by
  unfold ApiClient.readPage ApiClient.readBounded
  by_cases hlong : (page.body serialize).utf8ByteSize > maximumBytes
  · simp only [if_pos hlong]
    exact iff_of_false (by simp) fun h => absurd h.1 (not_le.2 hlong)
  · simp only [if_neg hlong]
    rw [parsePage_ok_iff hlength hcursor, and_iff_right (not_lt.1 hlong)]

/-- One item refused has the page refused, if not for its length before. -/
theorem readPage_of_refused {α β : Type} {serialize : α → String} {maximumBytes : ℕ}
    {construct : α → Except String β} {failure error : String} {page : Page α} {item : α}
    (hitem : item ∈ page.items) (h : construct item = .error error) :
    ∃ error, ApiClient.readPage serialize maximumBytes construct failure page = .error error := by
  unfold ApiClient.readPage ApiClient.parsePage
  split
  · exact ⟨_, rfl⟩
  rcases hparsed : page.items.mapM construct with error' | parsed
  · exact ⟨_, rfl⟩
  · obtain ⟨b, hb⟩ := exists_mapM_ok_iff.1 ⟨parsed, hparsed⟩ item hitem
    rw [h] at hb
    cases hb

/-- A body is refused for the texts of its items alone, whatever else is in them. -/
theorem readPage_of_long {α β : Type} {serialize text : α → String} {maximumBytes : ℕ}
    {construct : α → Except String β} {failure : String} {page : Page α}
    (htext : ∀ item ∈ page.items, (text item).utf8ByteSize ≤ (serialize item).utf8ByteSize)
    (hlong : maximumBytes < (page.items.map fun item => (text item).utf8ByteSize).sum) :
    ApiClient.readPage serialize maximumBytes construct failure page
      = .error "Media session response is too large" := by
  have hitems : (page.items.map fun item => (text item).utf8ByteSize).sum
      ≤ (JsonText.array (page.items.map serialize)).utf8ByteSize := by
    refine le_trans ?_ (JsonText.sum_utf8ByteSize_le_array _)
    rw [List.map_map]
    exact List.sum_le_sum htext
  have hbody : (JsonText.array (page.items.map serialize)).utf8ByteSize
      ≤ (page.body serialize).utf8ByteSize :=
    JsonText.utf8ByteSize_le_object "items" _ List.mem_cons_self
  unfold ApiClient.readPage ApiClient.readBounded
  rw [if_pos (hlong.trans_le (hitems.trans hbody))]

theorem utf8ByteSize_latestPreview_le (item : ConversationItem) :
    item.latestPreview.utf8ByteSize ≤ item.serialize.utf8ByteSize := by
  refine (JsonText.utf8ByteSize_le_string _).trans ?_
  exact JsonText.utf8ByteSize_le_object "latest_preview" _ (by simp)

theorem utf8ByteSize_body_le (item : MessageItem) :
    item.body.utf8ByteSize ≤ item.serialize.utf8ByteSize := by
  refine (JsonText.utf8ByteSize_le_string _).trans ?_
  exact JsonText.utf8ByteSize_le_object "body" _ (by simp)

theorem forall₂_comp {α β γ : Type} {R : α → β → Prop} {S : β → γ → Prop} {l : List α} {m : List β}
    {n : List γ} (h : List.Forall₂ R l m) (h' : List.Forall₂ S m n) :
    List.Forall₂ (fun a c => ∃ b, R a b ∧ S b c) l n := by
  induction h generalizing n with
  | nil =>
    cases h'
    exact .nil
  | cons hab _ ih =>
    cases h' with
    | cons hbc hrest => exact .cons ⟨_, hab, hbc⟩ (ih hrest)

theorem forall₂_iff_forall {α β : Type} {P : α → Prop} {Q : β → Prop} {l : List α} {l' : List β}
    (h : List.Forall₂ (fun a b => Q b ↔ P a) l l') : (∀ b ∈ l', Q b) ↔ ∀ a ∈ l, P a := by
  induction h with
  | nil => simp
  | cons hab _ ih => rw [List.forall_mem_cons, List.forall_mem_cons, hab, ih]

theorem conversations_accepted_iff {lookup : String → Except Unit (Option String)}
    {aliases aliases' : ConversationAliases} {random random' : RandomBytes}
    {stored : List ThreadRow} {request : PageRequest} {page : Page ConversationItem}
    (hvalid : aliases.Valid)
    (hstored : ∀ thread ∈ stored, thread.GroupKeyed ∧ 0 ≤ thread.latestMs ∧
      thread.unread.toInt ≤ thread.total.toInt)
    (hpage : conversationPage lookup stored request aliases random
      = (.ok page, aliases', random')) :
    ∃ cursor limit, PageCursor.parse request.cursor = .ok cursor ∧
      pageLimit request.limit = .ok limit ∧
      List.Forall₂ (fun thread item =>
        (∃ summary, ConversationSummary.ofItem item = .ok summary) ↔ thread.Fits lookup)
        ((stored.drop cursor.offset).take limit) page.items ∧
      ∀ value ∈ page.nextCursor, ∃ cursor : PageCursor, value = cursor.encode := by
  have hafter : (conversationPage lookup stored request aliases random).2.1.Valid :=
    conversationPage_valid hvalid fun thread hthread => (hstored thread hthread).1
  rw [hpage] at hafter
  obtain ⟨cursor, limit, rows, hcursor, hlimit, hrows, hshows, hnext⟩ := conversationPage_ok hpage
  refine ⟨cursor, limit, hcursor, hlimit, ?_, ?_⟩
  · have hthreads := List.forall₂_take limit (List.forall₂_drop cursor.offset
      ((List.forall₂_and_left _ _).2 ⟨hstored, mapM_ok_iff.1 hrows⟩))
    refine (forall₂_comp hthreads hshows).imp ?_
    rintro thread item ⟨row, ⟨⟨-, htime, hunread⟩, hofThread⟩, hrow⟩
    exact shown_accepted_iff hafter hofThread hrow htime hunread
  · rw [hnext]
    intro value hvalue
    split_ifs at hvalue
    · exact ⟨_, (Option.some.inj hvalue).symm⟩
    · cases hvalue

theorem messages_accepted_iff {s : Store} {aliases : ConversationAliases}
    {request : MessagesRequest} {page : Page MessageItem}
    (htimes : ∀ row ∈ s.messages.rows, 0 ≤ row.timestampMs)
    (hpage : conversationMessages s aliases request = .ok page) :
    ∃ cursor limit key, PageCursor.parse request.cursor = .ok cursor ∧
      pageLimit request.limit = .ok limit ∧ aliases.keyFor request.conversationId = some key ∧
      List.Forall₂ (fun row item =>
        (∃ parsed, ConversationMessage.ofItem item = .ok parsed) ↔ row.Fits)
        (((s.conversationRows key).drop cursor.offset).take limit) page.items ∧
      ∀ value ∈ page.nextCursor, ∃ cursor : PageCursor, value = cursor.encode := by
  obtain ⟨cursor, limit, key, hcursor, hlimit, hkey, hitems, hnext⟩ := conversationMessages_ok hpage
  refine ⟨cursor, limit, key, hcursor, hlimit, hkey, ?_, hnext⟩
  have htimed : ∀ row ∈ ((s.conversationRows key).drop cursor.offset).take limit,
      0 ≤ row.timestampMs := by
    intro row hrow
    have hmem := List.mem_of_mem_drop (List.mem_of_mem_take hrow)
    unfold Store.conversationRows at hmem
    rw [List.mem_insertionSort] at hmem
    exact htimes row (List.mem_of_mem_filter hmem)
  refine ((List.forall₂_and_left _ _).2 ⟨htimed, hitems⟩).imp ?_
  rintro row item ⟨htime, message, hmessage, rfl⟩
  exact message_accepted_iff hmessage htime

theorem sum_map_of_forall₂ {α β : Type} {f : α → ℕ} {g : β → ℕ} {l : List α} {m : List β}
    (h : List.Forall₂ (fun a b => g b = f a) l m) : (m.map g).sum = (l.map f).sum := by
  induction h with
  | nil => rfl
  | cons hab _ ih => rw [List.map_cons, List.map_cons, List.sum_cons, List.sum_cons, hab, ih]

/-- Rows that each fit can still make a page the phone does not read: the latest texts alone may
be more than it takes. -/
theorem conversations_of_long {lookup : String → Except Unit (Option String)}
    {aliases aliases' : ConversationAliases} {random random' : RandomBytes}
    {stored : List ThreadRow} {request : PageRequest} {page : Page ConversationItem}
    (hpage : conversationPage lookup stored request aliases random
      = (.ok page, aliases', random')) :
    ∃ cursor limit, PageCursor.parse request.cursor = .ok cursor ∧
      pageLimit request.limit = .ok limit ∧
      (65536 < (((stored.drop cursor.offset).take limit).map (·.latestText.utf8ByteSize)).sum →
        ApiClient.conversations page = .error "Media session response is too large") := by
  obtain ⟨cursor, limit, rows, hcursor, hlimit, hrows, hshows, -⟩ := conversationPage_ok hpage
  refine ⟨cursor, limit, hcursor, hlimit, fun hlong => ?_⟩
  refine readPage_of_long (fun item _ => utf8ByteSize_latestPreview_le item) (hlong.trans_eq ?_)
  have hthreads := List.forall₂_take limit (List.forall₂_drop cursor.offset (mapM_ok_iff.1 hrows))
  refine (sum_map_of_forall₂ ((forall₂_comp hthreads hshows).imp ?_)).symm
  rintro thread item ⟨row, hofThread, ⟨displayName, -, hitem⟩, -⟩
  obtain ⟨-, -, -, -, -, -, -, hpreview, -, -⟩ := ofThread_eq hofThread
  rw [hitem]
  exact congrArg String.utf8ByteSize hpreview

/-- The same of a page of messages and their texts. -/
theorem conversationMessages_of_long {s : Store} {aliases : ConversationAliases}
    {request : MessagesRequest} {page : Page MessageItem}
    (hpage : conversationMessages s aliases request = .ok page) :
    ∃ cursor limit key, PageCursor.parse request.cursor = .ok cursor ∧
      pageLimit request.limit = .ok limit ∧ aliases.keyFor request.conversationId = some key ∧
      (262144 < ((((s.conversationRows key).drop cursor.offset).take limit).map
          (·.text.utf8ByteSize)).sum →
        ApiClient.conversationMessages page = .error "Media session response is too large") := by
  obtain ⟨cursor, limit, key, hcursor, hlimit, hkey, hitems, -⟩ := conversationMessages_ok hpage
  refine ⟨cursor, limit, key, hcursor, hlimit, hkey, fun hlong => ?_⟩
  refine readPage_of_long (fun item _ => utf8ByteSize_body_le item) (hlong.trans_eq ?_)
  refine (sum_map_of_forall₂ (hitems.imp ?_)).symm
  rintro row item ⟨message, hmessage, rfl⟩
  unfold StoredMessage.ofRow at hmessage
  split at hmessage
  · simp at hmessage
  · rw [← Except.ok.inj hmessage]
    rfl

/-- Each item the two endpoints serve is taken by the phone exactly when the texts of its row fit,
and each page when all of its do and its body is not too long. -/
theorem served_items_accepted_iff {lookup : String → Except Unit (Option String)}
    {served : List PageServed} {aliases aliases' : ConversationAliases}
    {random random' : RandomBytes} {stored : List ThreadRow} {request : PageRequest}
    {page : Page ConversationItem} {s : Store} {messagesRequest : MessagesRequest}
    {messagePage : Page MessageItem}
    (hrun : conversationService.run .empty served = some aliases)
    (hserved : ∀ e ∈ served, ∀ thread ∈ e.stored, thread.GroupKeyed)
    (hstored : ∀ thread ∈ stored, thread.GroupKeyed ∧ 0 ≤ thread.latestMs ∧
      thread.unread.toInt ≤ thread.total.toInt)
    (hpage : conversationPage lookup stored request aliases random = (.ok page, aliases', random'))
    (htimes : ∀ row ∈ s.messages.rows, 0 ≤ row.timestampMs)
    (hmessages : conversationMessages s aliases messagesRequest = .ok messagePage) :
    (∃ cursor limit, PageCursor.parse request.cursor = .ok cursor ∧
      pageLimit request.limit = .ok limit ∧
      List.Forall₂ (fun thread item =>
        (∃ summary, ConversationSummary.ofItem item = .ok summary) ↔ thread.Fits lookup)
        ((stored.drop cursor.offset).take limit) page.items ∧
      ((∃ data, ApiClient.conversations page = .ok data) ↔
        (page.body ConversationItem.serialize).utf8ByteSize ≤ 65536 ∧
          ∀ thread ∈ (stored.drop cursor.offset).take limit, thread.Fits lookup)) ∧
    ∃ cursor limit key, PageCursor.parse messagesRequest.cursor = .ok cursor ∧
      pageLimit messagesRequest.limit = .ok limit ∧
      aliases.keyFor messagesRequest.conversationId = some key ∧
      List.Forall₂ (fun row item =>
        (∃ parsed, ConversationMessage.ofItem item = .ok parsed) ↔ row.Fits)
        (((s.conversationRows key).drop cursor.offset).take limit) messagePage.items ∧
      ((∃ data, ApiClient.conversationMessages messagePage = .ok data) ↔
        (messagePage.body MessageItem.serialize).utf8ByteSize ≤ 262144 ∧
          ∀ row ∈ ((s.conversationRows key).drop cursor.offset).take limit, row.Fits) := by
  constructor
  · obtain ⟨cursor, limit, hcursor, hlimit, hitems, hnext⟩ :=
      conversations_accepted_iff (valid_of_run hrun hserved) hstored hpage
    have hlength : page.items.length ≤ 100 := by
      have := length_le_of_pageLimit hlimit
      rw [← hitems.length_eq, List.length_take]
      omega
    refine ⟨cursor, limit, hcursor, hlimit, hitems, ?_⟩
    exact (readPage_ok_iff hlength hnext).trans (and_congr_right' (forall₂_iff_forall hitems))
  · obtain ⟨cursor, limit, key, hcursor, hlimit, hkey, hitems, hnext⟩ :=
      messages_accepted_iff htimes hmessages
    have hlength : messagePage.items.length ≤ 100 := by
      have := length_le_of_pageLimit hlimit
      rw [← hitems.length_eq, List.length_take]
      omega
    refine ⟨cursor, limit, key, hcursor, hlimit, hkey, hitems, ?_⟩
    exact (readPage_ok_iff hlength hnext).trans (and_congr_right' (forall₂_iff_forall hitems))

theorem served_items_accepted_firstSync : ∃ page aliases' random' messagePage,
    conversationPage (fun _ => .ok none) Store.firstSync.threads ⟨none, none⟩ Store.firstAliases []
      = (.ok page, aliases', random') ∧
    conversationMessages Store.firstSync Store.firstAliases
      ⟨"00000000000000000000000000000000", none, none⟩ = .ok messagePage ∧
    (∃ cursor limit, PageCursor.parse none = .ok cursor ∧ pageLimit none = .ok limit ∧
      List.Forall₂ (fun thread item =>
        (∃ summary, ConversationSummary.ofItem item = .ok summary) ↔
          thread.Fits fun _ => .ok none)
        ((Store.firstSync.threads.drop cursor.offset).take limit) page.items ∧
      ((∃ data, ApiClient.conversations page = .ok data) ↔
        (page.body ConversationItem.serialize).utf8ByteSize ≤ 65536 ∧
          ∀ thread ∈ (Store.firstSync.threads.drop cursor.offset).take limit,
            thread.Fits fun _ => .ok none)) ∧
    ∃ cursor limit key, PageCursor.parse none = .ok cursor ∧ pageLimit none = .ok limit ∧
      Store.firstAliases.keyFor "00000000000000000000000000000000" = some key ∧
      List.Forall₂ (fun row item =>
        (∃ parsed, ConversationMessage.ofItem item = .ok parsed) ↔ row.Fits)
        (((Store.firstSync.conversationRows key).drop cursor.offset).take limit)
        messagePage.items ∧
      ((∃ data, ApiClient.conversationMessages messagePage = .ok data) ↔
        (messagePage.body MessageItem.serialize).utf8ByteSize ≤ 262144 ∧
          ∀ row ∈ ((Store.firstSync.conversationRows key).drop cursor.offset).take limit,
            row.Fits) := by
  obtain ⟨page, aliases', random', hpage⟩ : ∃ page aliases' random',
      conversationPage (fun _ => .ok none) Store.firstSync.threads ⟨none, none⟩
        Store.firstAliases [] = (.ok page, aliases', random') := ⟨_, _, _, rfl⟩
  obtain ⟨messagePage, hmessages⟩ : ∃ messagePage,
      conversationMessages Store.firstSync Store.firstAliases
        ⟨"00000000000000000000000000000000", none, none⟩ = .ok messagePage := ⟨_, rfl⟩
  have hrun : conversationService.run .empty
      [⟨fun _ => .ok none, Store.firstSync.threads, ⟨none, none⟩, [some (Vector.replicate 16 0)]⟩]
        = some Store.firstAliases := rfl
  have hbounds : ∀ thread ∈ Store.firstSync.threads,
      0 ≤ thread.latestMs ∧ thread.unread.toInt ≤ thread.total.toInt := by decide +kernel
  have htimes : ∀ row ∈ Store.firstSync.messages.rows, 0 ≤ row.timestampMs := by decide +kernel
  exact ⟨page, aliases', random', messagePage, hpage, hmessages, served_items_accepted_iff hrun
    (by simpa using Store.groupKeyed_firstSync)
    (fun thread hthread => ⟨Store.groupKeyed_firstSync thread hthread, hbounds thread hthread⟩)
    hpage htimes hmessages⟩

/-- Four participants whose list is 127 bytes long. -/
def manyParticipants : ThreadRow where
  address := "+1202555010100000000000000000001"
  conversationKey := "map:7"
  participants := ",".intercalate (List.replicate 4 "+120255501010000000000000000001")
  participantCount := 4
  latestMs := 1000
  total := 4
  unread := 0
  latestOutgoingStatus := none
  latestText := "hello"
  latestSender := "+1202555010100000000000000000001"
  latestSent := false
  groupTitle := none
  isAncsGroup := false
  identityConflict := false

theorem not_fits_manyParticipants (lookup : String → Except Unit (Option String)) :
    ¬ manyParticipants.Fits lookup := by
  intro h
  have hlist : manyParticipants.participants = "+120255501010000000000000000001" ++ "," ++
      "+120255501010000000000000000001" ++ "," ++ "+120255501010000000000000000001" ++ "," ++
      "+120255501010000000000000000001" := rfl
  have hgroup : ¬ manyParticipants.Single := by
    unfold ThreadRow.Single
    decide +kernel
  have hunits := h.participants hgroup (by decide +kernel)
  have hnumber : Text.utf16Length "+120255501010000000000000000001" = 31 := by decide +kernel
  have hcomma : Text.utf16Length "," = 1 := by decide
  have hcount : "+120255501010000000000000000001".toList.count ',' = 0 := by decide +kernel
  rw [hlist] at hunits
  simp only [Text.utf16Length_append, String.toList_append, List.count_append, hnumber, hcomma,
    hcount] at hunits
  have hone : ",".toList.count ',' = 1 := by decide
  omega

/-- The list passes the daemon's check, and with a space after each comma fails the phone's. -/
theorem manyParticipants_refused : ∃ page aliases' random',
    conversationPage (fun _ => .ok none) [manyParticipants] ⟨none, none⟩ .empty
      [some (Vector.replicate 16 0)] = (.ok page, aliases', random') ∧
    page.items.map ConversationSummary.ofItem = [.error "Conversation summary is invalid"] ∧
    ∃ error, ApiClient.conversations page = .error error := by
  obtain ⟨page, aliases', random', hpage⟩ : ∃ page aliases' random',
      conversationPage (fun _ => .ok none) [manyParticipants] ⟨none, none⟩ .empty
        [some (Vector.replicate 16 0)] = (.ok page, aliases', random') := ⟨_, _, _, rfl⟩
  obtain ⟨cursor, limit, hcursor, hlimit, hitems, -⟩ :=
    conversations_accepted_iff ConversationAliases.valid_empty
      (by simp [ThreadRow.GroupKeyed, manyParticipants]) hpage
  obtain rfl : PageCursor.start = cursor := Except.ok.inj hcursor
  obtain rfl : defaultPageSize = limit := Except.ok.inj hlimit
  obtain ⟨item, rest, hitem, hrest, hpageItems⟩ := List.forall₂_cons_left_iff.1 hitems
  obtain rfl := List.forall₂_nil_left_iff.1 hrest
  have herror : ConversationSummary.ofItem item = .error "Conversation summary is invalid" := by
    unfold ConversationSummary.ofItem at hitem ⊢
    split_ifs at hitem ⊢ with hinvalid
    · rfl
    · exact absurd (hitem.1 ⟨_, rfl⟩) (not_fits_manyParticipants _)
  refine ⟨page, aliases', random', hpage, ?_, ?_⟩
  · rw [hpageItems, List.map_singleton, herror]
  · exact readPage_of_refused (hpageItems ▸ List.mem_singleton_self item) herror

end AnalogConnect
