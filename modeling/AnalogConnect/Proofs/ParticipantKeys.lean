import AnalogConnect.Library.JoinedSets
import AnalogConnect.Sync

/-!
# Keys of participant sets

A message without a conversation id is filed under its participants. Three or more of them are
joined in order and once each, so the key is one of the set; with at most two the key is a peer's
address or a shorter join. Addresses do not have the separator, so a key can be read back into the
words it was joined from, and their number tells the two apart.
-/

namespace AnalogConnect

open JoinedSets

def unitSeparator : Char := Char.ofNat 0x1f

/-- The trimmed addresses of a message that are not empty. -/
def presentAddresses (entry : MessageEntry) (bmsg : BMessage) : List String :=
  ((bmessageParticipants entry bmsg).map Text.trim).filter (· ≠ "")

def addressSet (entry : MessageEntry) (bmsg : BMessage) : Finset String :=
  (presentAddresses entry bmsg).toFinset

/-- No address of a message has the separator. -/
def SeparatorFree (entry : MessageEntry) (bmsg : BMessage) : Prop :=
  ∀ address ∈ bmessageParticipants entry bmsg, unitSeparator ∉ address.toList

/-- What `fetch_folder` makes of a listed entry and its message. -/
def fetchedMessage (entry : MessageEntry) (bmsg : BMessage) (folder : Folder) (now : ℤ) :
    FetchedMessage :=
  .fromEntry entry folder.asStr bmsg.text (bmessageParticipants entry bmsg) now

section Keys

variable {entry entry' : MessageEntry} {bmsg bmsg' : BMessage} {folder folder' : Folder}
  {now now' : ℤ}

theorem card_addressSet :
    (addressSet entry bmsg).card = (sortedDistinct (presentAddresses entry bmsg)).length :=
  (length_sortedDistinct _).symm

theorem address_mem_bmessageParticipants :
    (fetchedMessage entry bmsg folder now).address ∈ bmessageParticipants entry bmsg := by
  show (if entry.sent then _ else _) ∈ _
  split <;> simp [bmessageParticipants]

theorem mem_presentAddresses {address : String} (hmem : address ∈ bmessageParticipants entry bmsg)
    (hne : Text.trim address ≠ "") : Text.trim address ∈ presentAddresses entry bmsg :=
  List.mem_filter.2 ⟨List.mem_map_of_mem hmem, by simpa using hne⟩

theorem not_mem_of_mem_presentAddresses (hfree : SeparatorFree entry bmsg) {word : String}
    (hword : word ∈ presentAddresses entry bmsg) : unitSeparator ∉ word.toList := by
  obtain ⟨address, haddress, rfl⟩ := List.mem_map.1 (List.mem_filter.1 hword).1
  exact fun hmem => hfree address haddress (Text.mem_of_mem_trim hmem)

/-- The fallback is one of the addresses, so it is never put in their place. -/
theorem canonicalizeParticipants_eq {fallback : String}
    (hmem : fallback ∈ bmessageParticipants entry bmsg) :
    canonicalizeParticipants (bmessageParticipants entry bmsg) fallback =
      (if (addressSet entry bmsg).card ≤ 2 ∧ Text.trim fallback ≠ "" then Text.trim fallback
        else participantKeySeparator.intercalate (sortedDistinct (presentAddresses entry bmsg)),
      ", ".intercalate (sortedDistinct (presentAddresses entry bmsg))) := by
  have hsorted : ¬ (sortedDistinct (presentAddresses entry bmsg) = [] ∧
      Text.trim fallback ≠ "") := by
    rintro ⟨hempty, hfallback⟩
    have hin := mem_sortedDistinct.2 (mem_presentAddresses hmem hfallback)
    rw [hempty] at hin
    exact List.not_mem_nil hin
  have hdef : canonicalizeParticipants (bmessageParticipants entry bmsg) fallback =
      let addresses :=
        if sortedDistinct (presentAddresses entry bmsg) = [] ∧ Text.trim fallback ≠ ""
          then [Text.trim fallback] else sortedDistinct (presentAddresses entry bmsg)
      (if addresses.length ≤ 2 ∧ Text.trim fallback ≠ "" then Text.trim fallback
        else participantKeySeparator.intercalate addresses, ", ".intercalate addresses) := rfl
  rw [hdef, card_addressSet]
  simp only [if_neg hsorted]

theorem participants_eq : (fetchedMessage entry bmsg folder now).participants =
    ", ".intercalate (sortedDistinct (presentAddresses entry bmsg)) := by
  have hparticipants : (fetchedMessage entry bmsg folder now).participants =
      (canonicalizeParticipants (bmessageParticipants entry bmsg)
        (fetchedMessage entry bmsg folder now).address).2 := by
    simp only [fetchedMessage, FetchedMessage.fromEntry]
  rw [hparticipants, canonicalizeParticipants_eq address_mem_bmessageParticipants]

theorem conversationKey_eq : (fetchedMessage entry bmsg folder now).conversationKey =
    if Text.trim entry.conversationId = ""
      then (canonicalizeParticipants (bmessageParticipants entry bmsg)
        (fetchedMessage entry bmsg folder now).address).1
      else "map:" ++ Text.trim entry.conversationId := by
  simp only [fetchedMessage, FetchedMessage.fromEntry]

theorem conversationKey_of_no_id (hid : Text.trim entry.conversationId = "") :
    (fetchedMessage entry bmsg folder now).conversationKey =
      if (addressSet entry bmsg).card ≤ 2 ∧
          Text.trim (fetchedMessage entry bmsg folder now).address ≠ ""
        then Text.trim (fetchedMessage entry bmsg folder now).address
      else participantKeySeparator.intercalate (sortedDistinct (presentAddresses entry bmsg)) := by
  rw [conversationKey_eq, if_pos hid, canonicalizeParticipants_eq address_mem_bmessageParticipants]

/-- From three addresses on the key is their join. -/
theorem conversationKey_of_group (hid : Text.trim entry.conversationId = "")
    (hgroup : 3 ≤ (addressSet entry bmsg).card) :
    (fetchedMessage entry bmsg folder now).conversationKey =
      participantKeySeparator.intercalate (sortedDistinct (presentAddresses entry bmsg)) := by
  rw [conversationKey_of_no_id hid, if_neg]
  omega

/-- With at most two addresses, or a conversation id, the key is a join of at most two words. -/
theorem conversationKey_of_direct (hfree : SeparatorFree entry bmsg)
    (hid : unitSeparator ∉ (Text.trim entry.conversationId).toList)
    (hdirect : (addressSet entry bmsg).card ≤ 2) :
    ∃ words : List String, words ≠ [] ∧ words.length ≤ 2 ∧
      (∀ word ∈ words, unitSeparator ∉ word.toList) ∧
      (fetchedMessage entry bmsg folder now).conversationKey =
        participantKeySeparator.intercalate words := by
  have hone : ∀ word : String, unitSeparator ∉ word.toList →
      (fetchedMessage entry bmsg folder now).conversationKey = word →
      ∃ words : List String, words ≠ [] ∧ words.length ≤ 2 ∧
        (∀ word ∈ words, unitSeparator ∉ word.toList) ∧
        (fetchedMessage entry bmsg folder now).conversationKey =
          participantKeySeparator.intercalate words := by
    intro word hword hkey
    refine ⟨[word], List.cons_ne_nil _ _, by simp, by simpa using hword, ?_⟩
    rw [hkey, String.intercalate_singleton]
  by_cases hempty : Text.trim entry.conversationId = ""
  · have hkey := @conversationKey_of_no_id entry bmsg folder now hempty
    split_ifs at hkey with hfallback
    · refine hone _ ?_ hkey
      exact not_mem_of_mem_presentAddresses hfree
        (mem_presentAddresses address_mem_bmessageParticipants hfallback.2)
    · by_cases hnil : sortedDistinct (presentAddresses entry bmsg) = []
      · rw [hnil] at hkey
        exact hone "" (by simp) hkey
      · refine ⟨_, hnil, card_addressSet ▸ hdirect, fun word hword => ?_, hkey⟩
        exact not_mem_of_mem_presentAddresses hfree (mem_sortedDistinct.1 hword)
  · have hkey := @conversationKey_eq entry bmsg folder now
    rw [if_neg hempty] at hkey
    refine hone _ ?_ hkey
    rw [String.toList_append, List.mem_append, not_or]
    exact ⟨by decide, hid⟩

theorem sortedDistinct_ne_nil_of_group (hgroup : 3 ≤ (addressSet entry bmsg).card) :
    sortedDistinct (presentAddresses entry bmsg) ≠ [] := by
  intro hnil
  rw [card_addressSet, hnil] at hgroup
  exact absurd hgroup (by simp)

/-- A group's key is one of its set of addresses, in whatever order, how often and from whichever
side they come, and of no other set nor of a message with at most two addresses. -/
theorem participant_keys_canonical (hid : Text.trim entry.conversationId = "")
    (hgroup : 3 ≤ (addressSet entry bmsg).card) :
    (Text.trim entry'.conversationId = "" → addressSet entry' bmsg' = addressSet entry bmsg →
      (fetchedMessage entry' bmsg' folder' now').conversationKey =
        (fetchedMessage entry bmsg folder now).conversationKey ∧
      (fetchedMessage entry' bmsg' folder' now').participants =
        (fetchedMessage entry bmsg folder now).participants) ∧
    (SeparatorFree entry bmsg → SeparatorFree entry' bmsg' →
      Text.trim entry'.conversationId = "" → 3 ≤ (addressSet entry' bmsg').card →
      addressSet entry' bmsg' ≠ addressSet entry bmsg →
      (fetchedMessage entry' bmsg' folder' now').conversationKey ≠
        (fetchedMessage entry bmsg folder now).conversationKey) ∧
    (SeparatorFree entry bmsg → SeparatorFree entry' bmsg' →
      unitSeparator ∉ (Text.trim entry'.conversationId).toList →
      (addressSet entry' bmsg').card ≤ 2 →
      (fetchedMessage entry' bmsg' folder' now').conversationKey ≠
        (fetchedMessage entry bmsg folder now).conversationKey) := by
  rw [conversationKey_of_group hid hgroup]
  refine ⟨fun hid' hsame => ?_, fun hfree hfree' hid' hgroup' hne hkey => ?_,
    fun hfree hfree' hid' hdirect hkey => ?_⟩
  · have hsorted : sortedDistinct (presentAddresses entry' bmsg') =
        sortedDistinct (presentAddresses entry bmsg) := sortedDistinct_eq_iff.2 hsame
    rw [conversationKey_of_group hid' (by rwa [hsame]), hsorted, @participants_eq entry' bmsg',
      @participants_eq entry bmsg, hsorted]
    exact ⟨rfl, rfl⟩
  · rw [conversationKey_of_group hid' hgroup'] at hkey
    refine hne (sortedDistinct_eq_iff.1 (intercalate_inj (sortedDistinct_ne_nil_of_group hgroup')
      (sortedDistinct_ne_nil_of_group hgroup) ?_ ?_ hkey))
    · exact fun word hword => not_mem_of_mem_presentAddresses hfree' (mem_sortedDistinct.1 hword)
    · exact fun word hword => not_mem_of_mem_presentAddresses hfree (mem_sortedDistinct.1 hword)
  · obtain ⟨words, hwords, hlength, hwordsFree, hjoin⟩ :=
      @conversationKey_of_direct entry' bmsg' folder' now' hfree' hid' hdirect
    rw [hjoin] at hkey
    have hsame := intercalate_inj hwords (sortedDistinct_ne_nil_of_group hgroup) hwordsFree
      (fun word hword => not_mem_of_mem_presentAddresses hfree (mem_sortedDistinct.1 hword)) hkey
    rw [hsame, ← card_addressSet] at hlength
    omega

/-- An entry without a conversation id. -/
def plainEntry (sent : Bool) (senderAddressing recipientAddressing : String) : MessageEntry where
  handle := "1"
  conversationId := " "
  datetimeMs := none
  senderAddressing
  recipientAddressing
  read := true
  sent

/-- A group's message as another sent it, as the phone itself did, and one of its members alone. -/
theorem participant_keys_canonical_both_sides :
    let received := fetchedMessage (plainEntry false "+2" " +1")
      { originatorTel := some "+2", recipientTels := ["+3", "+1 "], text := "" } .inbox 7
    let sent := fetchedMessage (plainEntry true "+1" "+3")
      { originatorTel := none, recipientTels := ["+2", ""], text := "" } .sent 8
    let direct := fetchedMessage (plainEntry false "+2" "+1")
      { originatorTel := none, recipientTels := [], text := "" } .inbox 9
    sent.conversationKey = received.conversationKey ∧ sent.participants = received.participants ∧
      direct.conversationKey ≠ received.conversationKey := by
  intro received sent direct
  have hsame : sent.conversationKey = received.conversationKey ∧
      sent.participants = received.participants :=
    (participant_keys_canonical (by decide) (by decide +kernel)).1 (by decide) (by decide +kernel)
  have hdirect : direct.conversationKey ≠ received.conversationKey :=
    (participant_keys_canonical (by decide) (by decide +kernel)).2.2
      (by unfold SeparatorFree; decide) (by unfold SeparatorFree; decide) (by decide)
      (by decide +kernel)
  exact ⟨hsame.1, hsame.2, hdirect⟩

end Keys

end AnalogConnect
