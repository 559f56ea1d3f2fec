import AnalogConnect.CallerLookup
import AnalogConnect.Proofs.ContactSync
import AnalogConnect.Proofs.PhoneNumbers

/-!
# A caller is looked up to the one contact there is

A number of the same digits also ends in the same last ten, so the query does not prefer it: a
contact is returned exactly when it alone owns a number that ends alike (`lookup_caller_unique`).
Then it is found whatever order the contacts were stored in.
-/

namespace AnalogConnect

/-- A contact with a number of the caller's key. -/
def Contact.MatchesExactly (p : PhoneNumber) (contact : Contact) : Prop :=
  ∃ phone ∈ contact.phones, phone.matchKey = p.matchKey

/-- A contact with a number that ends in the last ten digits of the caller's key, or in all of a
shorter one. -/
def Contact.EndsAlike (p : PhoneNumber) (contact : Contact) : Prop :=
  ∃ phone ∈ contact.phones, (callerSuffix p.matchKey).toList <:+ phone.matchKey.toList

/-- What the lookup counts: a key without digits only matches exactly. -/
def Contact.Matches (p : PhoneNumber) (contact : Contact) : Prop :=
  contact.MatchesExactly p ∨ p.matchKey ≠ "" ∧ contact.EndsAlike p

instance (p : PhoneNumber) : DecidablePred (Contact.MatchesExactly p) := fun contact =>
  inferInstanceAs (Decidable (∃ phone ∈ contact.phones, _))

instance (p : PhoneNumber) : DecidablePred (Contact.EndsAlike p) := fun contact =>
  inferInstanceAs (Decidable (∃ phone ∈ contact.phones, _))

instance (p : PhoneNumber) : DecidablePred (Contact.Matches p) := fun _ =>
  inferInstanceAs (Decidable (_ ∨ _))

theorem Contact.matches_iff {p : PhoneNumber} {contact : Contact} : contact.Matches p ↔
    ∃ phone ∈ contact.phones, phone.matchKey = p.matchKey ∨
      p.matchKey ≠ "" ∧ (callerSuffix p.matchKey).toList <:+ phone.matchKey.toList := by
  constructor
  · rintro (⟨phone, hphone, hexact⟩ | ⟨hne, phone, hphone, hends⟩)
    · exact ⟨phone, hphone, .inl hexact⟩
    · exact ⟨phone, hphone, .inr ⟨hne, hends⟩⟩
  · rintro ⟨phone, hphone, hexact | ⟨hne, hends⟩⟩
    · exact .inl ⟨phone, hphone, hexact⟩
    · exact .inr ⟨hne, phone, hphone, hends⟩

/-- Contacts whose numbers were parsed, as all that are stored were. -/
def Parsed (contacts : List Contact) : Prop :=
  ∀ contact ∈ contacts, ∀ phone ∈ contact.phones, ∃ input, PhoneNumber.parse input = some phone

section Query

variable {p phone : PhoneNumber} {incoming input : String}

theorem isDigit_of_mem_matchKey (h : PhoneNumber.parse input = some p) {c : Char}
    (hc : c ∈ p.matchKey.toList) : c.isDigit = true := by
  by_cases hinternational : IsInternational input
  · rw [matchKey_of_international h hinternational, String.toList_ofList] at hc
    exact isDigit_of_mem_stripped hc
  · rw [matchKey_of_national h hinternational, String.toList_ofList] at hc
    exact isDigit_of_mem_digitsOf hc

/-- Trimming a parsed number at both ends comes to its key. -/
theorem trim_normalized (h : PhoneNumber.parse input = some p) :
    Sql.trim '+' p.normalized = p.matchKey := by
  have hback : p.matchKey.toList.reverse.dropWhile (· = '+') = p.matchKey.toList.reverse :=
    dropWhile_plus fun c hc => isDigit_of_mem_matchKey h (List.mem_reverse.1 hc)
  have hfront : p.normalized.toList.dropWhile (· = '+') = p.matchKey.toList := by
    unfold PhoneNumber.matchKey
    rw [String.toList_ofList]
  unfold Sql.trim
  rw [hfront, hback, List.reverse_reverse, String.ofList_toList]

theorem callerSuffix_suffix (key : String) : (callerSuffix key).toList <:+ key.toList := by
  unfold callerSuffix
  split_ifs
  · rw [String.toList_ofList]
    exact List.drop_suffix _ _
  · exact List.suffix_rfl

theorem callerSuffix_eq_empty {key : String} : callerSuffix key = "" ↔ key = "" := by
  unfold callerSuffix
  split_ifs with hlength
  · rw [← String.toList_eq_nil_iff, ← String.toList_eq_nil_iff, String.toList_ofList,
      List.drop_eq_nil_iff, ← List.length_eq_zero_iff]
    omega
  · rfl

theorem callerMatches_iff (h : PhoneNumber.parse incoming = some p)
    (hphone : PhoneNumber.parse input = some phone) {row : ContactPhoneRow}
    (hrow : row.normalizedNumber = phone.normalized) :
    ContactStore.callerMatches p.matchKey (callerSuffix p.matchKey) row = true ↔
      phone.matchKey = p.matchKey ∨
        p.matchKey ≠ "" ∧ (callerSuffix p.matchKey).toList <:+ phone.matchKey.toList := by
  have hdigits : ∀ d ∈ (callerSuffix p.matchKey).toList, d.isDigit = true :=
    fun d hd => isDigit_of_mem_matchKey h ((callerSuffix_suffix _).subset hd)
  unfold ContactStore.callerMatches
  rw [hrow, trim_normalized hphone, Bool.or_eq_true, Bool.and_eq_true, decide_eq_true_eq,
    decide_eq_true_eq, Sql.like_percent hdigits, Ne, callerSuffix_eq_empty]

end Query

section Lookup

variable {store : ContactStore} {contacts contacts' : List Contact} {p : PhoneNumber}
  {incoming : String} {contact : Contact}

theorem mem_loadPhones {id : ℤ} {phone : PhoneNumber} : phone ∈ store.loadPhones id ↔
    ∃ row ∈ store.phones, row.contactId = id ∧
      phone = ⟨row.displayNumber, row.normalizedNumber⟩ := by
  unfold ContactStore.loadPhones
  simp only [List.mem_map, List.mem_insertionSort, List.mem_filter, decide_eq_true_eq]
  exact ⟨fun ⟨row, ⟨hmem, hid⟩, heq⟩ => ⟨row, hmem, hid, heq.symm⟩,
    fun ⟨row, hmem, hid, heq⟩ => ⟨row, ⟨hmem, hid⟩, heq.symm⟩⟩

/-- Two rows are enough to tell whether there is one alone. -/
theorem only_of_take_two {α β : Type} (f : α → β) (rows : List α) (b : β) :
    (if (rows.take 2).length ≠ 1 then none else (rows.take 2).head?.map f) = some b ↔
      rows.map f = [b] := by
  rcases rows with - | ⟨row, - | ⟨other, rows⟩⟩ <;> simp

theorem callerRows_eq (h : store.Holds contacts) (key suffix : String) :
    store.callerRows key suffix = (store.contacts.filter fun row =>
      !(store.phones.filter fun phone => phone.contactId = row.id &&
        ContactStore.callerMatches key suffix phone).isEmpty).take 2 := by
  unfold ContactStore.callerRows
  rw [Sql.distinctJoin_eq_filter _ (List.Nodup.of_map _ h.ids.nodup),
    (h.sorted.filter _).insertionSort_eq]

/-- The query finds a contact's row exactly when one of its numbers matches. -/
theorem row_found_iff (h : store.Holds contacts) (hparsed : Parsed contacts)
    (hp : PhoneNumber.parse incoming = some p) {row : ContactRow} (hrow : row ∈ store.contacts) :
    (!(store.phones.filter fun phone => phone.contactId = row.id &&
      ContactStore.callerMatches p.matchKey (callerSuffix p.matchKey) phone).isEmpty) = true ↔
      Contact.Matches p ⟨row.displayName, store.loadPhones row.id⟩ := by
  have hmem : (⟨row.displayName, store.loadPhones row.id⟩ : Contact) ∈ contacts := by
    rw [← h.loaded]
    exact List.mem_map_of_mem hrow
  rw [Contact.matches_iff, Bool.not_eq_true', List.isEmpty_eq_false_iff_exists_mem]
  constructor
  · rintro ⟨phoneRow, hfound⟩
    obtain ⟨hphoneRow, hboth⟩ := List.mem_filter.1 hfound
    rw [Bool.and_eq_true, decide_eq_true_eq] at hboth
    have hphone := mem_loadPhones.2 ⟨phoneRow, hphoneRow, hboth.1, rfl⟩
    obtain ⟨input, hinput⟩ := hparsed _ hmem _ hphone
    exact ⟨_, hphone, (callerMatches_iff hp hinput rfl).1 hboth.2⟩
  · rintro ⟨phone, hphone, hmatch⟩
    obtain ⟨input, hinput⟩ := hparsed _ hmem _ hphone
    obtain ⟨phoneRow, hphoneRow, hid, rfl⟩ := mem_loadPhones.1 hphone
    refine ⟨phoneRow, List.mem_filter.2 ⟨hphoneRow, ?_⟩⟩
    rw [Bool.and_eq_true, decide_eq_true_eq]
    exact ⟨hid, (callerMatches_iff hp hinput rfl).2 hmatch⟩

theorem lookupCaller_iff (h : store.Holds contacts) (hparsed : Parsed contacts)
    (hp : PhoneNumber.parse incoming = some p) :
    store.lookupCaller incoming = some contact ↔
      contacts.filter (fun contact => Contact.Matches p contact) = [contact] := by
  unfold ContactStore.lookupCaller
  simp only [hp]
  rw [callerRows_eq h, only_of_take_two, ← h.loaded, List.filter_map]
  refine Eq.congr_left (congrArg _ (List.filter_congr fun row hrow => ?_))
  rw [Bool.eq_iff_iff, row_found_iff h hparsed hp hrow]
  exact decide_eq_true_iff.symm

theorem lookupCaller_eq_none_iff (h : store.Holds contacts) (hparsed : Parsed contacts)
    (hp : PhoneNumber.parse incoming = some p) :
    store.lookupCaller incoming = none ↔
      ∀ contact, contacts.filter (fun contact => Contact.Matches p contact) ≠ [contact] := by
  rw [Option.eq_none_iff_forall_ne_some]
  exact forall_congr' fun contact => not_congr (lookupCaller_iff h hparsed hp)

/-- A number of the same key ends alike. -/
theorem matches_eq_of_key (hkey : p.matchKey ≠ "") :
    contacts.filter (fun contact => Contact.Matches p contact) =
      contacts.filter fun contact => Contact.EndsAlike p contact := by
  refine List.filter_congr fun contact _ => decide_eq_decide.2 ⟨?_, fun hends => .inr ⟨hkey, hends⟩⟩
  rintro (⟨phone, hphone, hexact⟩ | ⟨-, hends⟩)
  · exact ⟨phone, hphone, hexact ▸ callerSuffix_suffix _⟩
  · exact hends

theorem matches_eq_of_empty (hkey : p.matchKey = "") :
    contacts.filter (fun contact => Contact.Matches p contact) =
      contacts.filter fun contact => Contact.MatchesExactly p contact := by
  refine List.filter_congr fun contact _ => decide_eq_decide.2 ⟨?_, .inl⟩
  rintro (hexact | ⟨hne, -⟩)
  · exact hexact
  · exact absurd hkey hne

theorem exact_sublist_matches :
    (contacts.filter fun contact => Contact.MatchesExactly p contact).Sublist
      (contacts.filter fun contact => Contact.Matches p contact) :=
  List.monotone_filter_right _ fun _ hexact =>
    decide_eq_true (.inl (of_decide_eq_true hexact))

/-- The contact that alone matches exactly is returned where no other's number ends alike, and none
is where another's does; one that alone ends alike is returned where none matches exactly; several
of a kind, or none, give no contact. The order the contacts were stored in does not matter. -/
theorem lookup_caller_unique (database database' : ContactDatabase) (hparsed : Parsed contacts)
    (hp : PhoneNumber.parse incoming = some p) :
    let exactly := contacts.filter fun contact => Contact.MatchesExactly p contact
    let alike := contacts.filter fun contact => Contact.EndsAlike p contact
    let found := (database.replaceAll contacts).rows.lookupCaller incoming
    (∀ contact, exactly = [contact] → (p.matchKey ≠ "" → alike = [contact]) →
      found = some contact) ∧
    (∀ contact, exactly = [] → p.matchKey ≠ "" → alike = [contact] → found = some contact) ∧
    (∀ contact, exactly = [contact] → p.matchKey ≠ "" → alike ≠ [contact] → found = none) ∧
    (2 ≤ exactly.length → found = none) ∧
    (exactly = [] → (p.matchKey ≠ "" → ∀ contact, alike ≠ [contact]) → found = none) ∧
    (contacts'.Perm contacts →
      (database'.replaceAll contacts').rows.lookupCaller incoming = found) := by
  have hholds := database.holds_replaceAll contacts
  refine ⟨fun contact hexact hends => ?_, fun contact _ hkey hends => ?_,
    fun contact hexact hkey hends => ?_, fun htwo => ?_, fun hexact hends => ?_,
    fun hperm => Option.ext fun contact => ?_⟩
  · rw [lookupCaller_iff hholds hparsed hp]
    by_cases hkey : p.matchKey = ""
    · rw [matches_eq_of_empty hkey]
      exact hexact
    · rw [matches_eq_of_key hkey]
      exact hends hkey
  · rw [lookupCaller_iff hholds hparsed hp, matches_eq_of_key hkey]
    exact hends
  · refine (lookupCaller_eq_none_iff hholds hparsed hp).2 fun other honly => ?_
    have hone : [contact].Sublist [other] := hexact ▸ honly ▸ exact_sublist_matches
    obtain rfl := List.mem_singleton.1 (hone.subset List.mem_cons_self)
    exact hends ((matches_eq_of_key hkey).symm.trans honly)
  · refine (lookupCaller_eq_none_iff hholds hparsed hp).2 fun contact honly => ?_
    have hone : (contacts.filter fun contact => Contact.MatchesExactly p contact).Sublist
        [contact] := honly ▸ exact_sublist_matches
    have hle := Nat.le_trans htwo hone.length_le
    rw [List.length_singleton] at hle
    omega
  · refine (lookupCaller_eq_none_iff hholds hparsed hp).2 fun contact honly => ?_
    by_cases hkey : p.matchKey = ""
    · rw [matches_eq_of_empty hkey] at honly
      exact absurd (hexact.symm.trans honly) (List.cons_ne_nil _ _).symm
    · rw [matches_eq_of_key hkey] at honly
      exact hends hkey contact honly
  · have hparsed' : Parsed contacts' := fun contact hmem => hparsed contact (hperm.subset hmem)
    have hfiltered := hperm.filter fun contact => decide (Contact.Matches p contact)
    rw [lookupCaller_iff (database'.holds_replaceAll contacts') hparsed' hp,
      lookupCaller_iff hholds hparsed hp]
    exact ⟨fun heq => List.perm_singleton.1 (heq ▸ hfiltered.symm),
      fun heq => List.perm_singleton.1 (heq ▸ hfiltered)⟩

def listed (name number : String) : Contact :=
  ⟨some name, (PhoneNumber.parse number).toList⟩

theorem listed_phones (name number : String) :
    (listed name number).phones = (PhoneNumber.parse number).toList := by
  simp only [listed]

theorem parsed_nil : Parsed [] := fun _ h => absurd h List.not_mem_nil

theorem parsed_cons {name number : String} (h : Parsed contacts) :
    Parsed (listed name number :: contacts) := by
  intro contact hmem phone hphone
  rcases List.mem_cons.1 hmem with heq | hrest
  · rw [heq, listed_phones, Option.mem_toList] at hphone
    exact ⟨number, hphone⟩
  · exact h contact hrest phone hphone

/-- A number without the country's digits is the only one that ends alike. -/
theorem lookup_caller_unique_suffix :
    let contacts := [listed "Alpha" "+1 202 555 0101", listed "Beta" "555 0102"]
    (emptyDatabase.replaceAll contacts).rows.lookupCaller "(202) 555-0101" =
      some (listed "Alpha" "+1 202 555 0101") :=
  (@lookup_caller_unique _ [] _ _ emptyDatabase emptyDatabase
    (parsed_cons (parsed_cons parsed_nil))
    (show PhoneNumber.parse "(202) 555-0101" = some _ from rfl)).2.1 _ (by decide +kernel)
      (by decide) (by decide +kernel)

/-- A number is not returned to the contact whose own it is while another's ends alike, nor is a
number of zeros to the one contact there is. -/
theorem exact_match_not_returned :
    let contacts := [listed "Alpha" "+1 202 555 0101", listed "Beta" "+9 202 555 0101"]
    (∃ p, PhoneNumber.parse "+12025550101" = some p ∧
      contacts.filter (fun contact => Contact.MatchesExactly p contact) =
        [listed "Alpha" "+1 202 555 0101"] ∧
      (emptyDatabase.replaceAll contacts).rows.lookupCaller "+12025550101" = none) ∧
    ∃ p, PhoneNumber.parse "000" = some p ∧
      [listed "Alpha" "555 0102"].filter (fun contact => Contact.MatchesExactly p contact) = [] ∧
      [listed "Alpha" "555 0102"].filter (fun contact => Contact.EndsAlike p contact) =
        [listed "Alpha" "555 0102"] ∧
      (emptyDatabase.replaceAll [listed "Alpha" "555 0102"]).rows.lookupCaller "000" = none := by
  refine ⟨⟨_, rfl, ?_, ?_⟩, ⟨_, rfl, ?_, ?_, ?_⟩⟩ <;> decide +kernel

end Lookup

end AnalogConnect
