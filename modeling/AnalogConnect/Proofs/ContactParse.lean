import AnalogConnect.ContactParse

/-!
# Whose numbers a listing's contacts have

A number is its header's: the last line before it that is neither indented nor blank. The parser
takes the header of the block for all the numbers in it, which is right exactly when they all stand
under one header of that name (`contacts_under_headers_iff`). A blank line that is not empty does
not part blocks, so it can leave two contacts in one.
-/

universe u v

namespace AnalogConnect

/-- A line that is not blank, with what it says. -/
inductive ContactLine
  | header (name : Option String)
  | indented (phone : Option PhoneNumber)
deriving DecidableEq

namespace ContactLine

def ofLine (line : List Char) : ContactLine :=
  if isIndented line then .indented (PhoneNumber.parse (String.ofList line))
  else .header (headerName line)

def read (line : List Char) : Option ContactLine :=
  if isBlank line then none else some (ofLine line)

def phones : ContactLine → List PhoneNumber
  | .header _ => []
  | .indented phone => phone.toList

end ContactLine

/-- A contact, if it has a number. -/
def contactOf (name : Option String) (phones : List PhoneNumber) : List Contact :=
  if phones = [] then [] else [⟨name, phones⟩]

/-- The numbers of the indented lines in front. -/
def leadingPhones : List ContactLine → List PhoneNumber
  | .indented phone :: lines => phone.toList ++ leadingPhones lines
  | _ => []

/-- The contacts of the headers, each with the numbers of the lines up to the next. -/
def headedContacts : List ContactLine → List Contact
  | [] => []
  | .indented _ :: lines => headedContacts lines
  | .header name :: lines => contactOf name (leadingPhones lines) ++ headedContacts lines

/-- The lines of a listing. -/
def contactLines (input : String) : List ContactLine :=
  Text.readings ContactLine.read input.toList

/-- The contact the parser makes of a block's lines. -/
def blockContact : List ContactLine → List Contact
  | .header name :: lines => contactOf name (lines.flatMap ContactLine.phones)
  | _ => []

/-- The names of the headers that have numbers under them. -/
def owners (lines : List ContactLine) : List (Option String) :=
  (headedContacts lines).map (·.displayName)

/-- The numbers all stand under one header, of the name of the first. -/
def OneOwner (lines : List ContactLine) : Prop :=
  ∀ name rest, lines = .header name :: rest → owners lines = [] ∨ owners lines = [name]

/-- No line stands before the first header. -/
def Headed (lines : List ContactLine) : Prop := ∀ line ∈ lines.head?, ∃ name, line = .header name

variable {lines lines' : List ContactLine} {name : Option String} {phones : List PhoneNumber}
  {input : String} {contacts : List Contact}

section Lists

variable {α : Type u} {β : Type v} {f g : α → List β}

theorem length_flatMap_le : ∀ {l : List α}, (∀ a ∈ l, (f a).length ≤ (g a).length) →
    (l.flatMap f).length ≤ (l.flatMap g).length
  | [], _ => Nat.le_refl 0
  | a :: l, h => by
    rw [List.flatMap_cons, List.flatMap_cons, List.length_append, List.length_append]
    exact Nat.add_le_add (h a List.mem_cons_self)
      (length_flatMap_le fun b hb => h b (List.mem_cons_of_mem a hb))

/-- Lists put together of pieces of which none is longer are the same only piece by piece. -/
theorem flatMap_eq_iff : ∀ {l : List α}, (∀ a ∈ l, (f a).length ≤ (g a).length) →
    (l.flatMap f = l.flatMap g ↔ ∀ a ∈ l, f a = g a)
  | [], _ => by simp
  | a :: l, h => by
    have hhead := h a List.mem_cons_self
    have htail : ∀ b ∈ l, (f b).length ≤ (g b).length := fun b hb =>
      h b (List.mem_cons_of_mem a hb)
    have hle := length_flatMap_le htail
    rw [List.flatMap_cons, List.flatMap_cons, List.forall_mem_cons, ← flatMap_eq_iff htail]
    refine ⟨fun heq => List.append_inj heq ?_, fun heq => by rw [heq.1, heq.2]⟩
    have hlength := congrArg List.length heq
    rw [List.length_append, List.length_append] at hlength
    omega

end Lists

theorem length_contactOf (name : Option String) (phones : List PhoneNumber) :
    (contactOf name phones).length = if phones = [] then 0 else 1 := by
  unfold contactOf
  split_ifs
  · rfl
  · rfl

theorem phones_contactOf (name : Option String) (phones : List PhoneNumber) :
    (contactOf name phones).flatMap (·.phones) = phones := by
  unfold contactOf
  split_ifs with h
  · exact h.symm
  · rw [List.flatMap_singleton]

theorem phones_ne_nil : ∀ (lines : List ContactLine), ∀ contact ∈ headedContacts lines,
    contact.phones ≠ []
  | .indented _ :: lines, contact, h => phones_ne_nil lines contact h
  | .header name :: lines, contact, h => by
    rcases List.mem_append.1 h with h | h
    · unfold contactOf at h
      split_ifs at h with hphones
      · cases h
      · rw [List.mem_singleton.1 h]
        exact hphones
    · exact phones_ne_nil lines contact h

theorem leadingPhones_append (h : Headed lines') : ∀ lines,
    leadingPhones (lines ++ lines') = leadingPhones lines
  | [] => by
    cases lines' with
    | nil => rfl
    | cons line rest =>
      obtain ⟨name, rfl⟩ := h line rfl
      rfl
  | .indented phone :: lines => by
    rw [List.cons_append, leadingPhones, leadingPhones, leadingPhones_append h lines]
  | .header _ :: _ => rfl

theorem headedContacts_append (h : Headed lines') : ∀ lines,
    headedContacts (lines ++ lines') = headedContacts lines ++ headedContacts lines'
  | [] => rfl
  | .indented _ :: lines => headedContacts_append h lines
  | .header name :: lines => by
    rw [List.cons_append, headedContacts, headedContacts, leadingPhones_append h,
      headedContacts_append h lines, List.append_assoc]

/-- Every number is in front of the first header or in a header's contact. -/
theorem phones_headedContacts : ∀ lines, leadingPhones lines ++
    (headedContacts lines).flatMap (·.phones) = lines.flatMap ContactLine.phones
  | [] => rfl
  | .indented phone :: lines => by
    rw [leadingPhones, headedContacts, List.append_assoc, phones_headedContacts lines]
    rfl
  | .header name :: lines => by
    rw [leadingPhones.eq_def, headedContacts, List.flatMap_append, phones_contactOf,
      phones_headedContacts lines]
    rfl

theorem Headed.append (h : Headed lines) (h' : Headed lines') : Headed (lines ++ lines') := by
  cases lines with
  | nil => exact h'
  | cons line rest => exact h

theorem headed_flatMap {α : Type u} {f : α → List ContactLine} : ∀ {l : List α},
    (∀ a ∈ l, Headed (f a)) → Headed (l.flatMap f)
  | [], _ => fun _ h => by cases h
  | a :: l, h => by
    rw [List.flatMap_cons]
    exact (h a List.mem_cons_self).append
      (headed_flatMap fun b hb => h b (List.mem_cons_of_mem a hb))

theorem headedContacts_flatMap {α : Type u} {f : α → List ContactLine} : ∀ {l : List α},
    (∀ a ∈ l, Headed (f a)) →
      headedContacts (l.flatMap f) = l.flatMap fun a => headedContacts (f a)
  | [], _ => rfl
  | a :: l, h => by
    have htail : ∀ b ∈ l, Headed (f b) := fun b hb => h b (List.mem_cons_of_mem a hb)
    rw [List.flatMap_cons, List.flatMap_cons, headedContacts_append (headed_flatMap htail),
      headedContacts_flatMap htail]

theorem blockContact_phones (name : Option String) (lines : List ContactLine) :
    blockContact (.header name :: lines) =
      contactOf name ((headedContacts (.header name :: lines)).flatMap (·.phones)) := by
  have hphones := phones_headedContacts (.header name :: lines)
  rw [leadingPhones.eq_def, List.nil_append] at hphones
  rw [hphones]
  rfl

theorem length_blockContact_le (h : Headed lines) :
    (blockContact lines).length ≤ (headedContacts lines).length := by
  cases lines with
  | nil => exact Nat.le_refl 0
  | cons line rest =>
    obtain ⟨name, rfl⟩ := h line rfl
    rw [blockContact_phones, length_contactOf]
    split_ifs with hphones
    · exact Nat.zero_le _
    · refine Nat.one_le_iff_ne_zero.2 fun hzero => hphones ?_
      rw [List.length_eq_zero_iff.1 hzero, List.flatMap_nil]

/-- A block's contact is its headers' exactly when they have one owner. -/
theorem blockContact_eq_iff (h : Headed lines) :
    blockContact lines = headedContacts lines ↔ OneOwner lines := by
  cases lines with
  | nil => exact iff_of_true rfl fun _ _ heq => by cases heq
  | cons line rest =>
    obtain ⟨name, rfl⟩ := h line rfl
    rw [blockContact_phones]
    constructor
    · rintro heq _ _ hcons
      obtain ⟨hname, -⟩ := List.cons.inj hcons
      obtain rfl := ContactLine.header.inj hname
      rw [owners, ← heq]
      unfold contactOf
      split_ifs
      · exact .inl rfl
      · exact .inr rfl
    · intro howner
      rcases howner name rest rfl with hnone | hone
      · rw [List.map_eq_nil_iff.1 hnone]
        rfl
      · obtain ⟨contact, hcontact, hname⟩ := List.map_eq_singleton_iff.1 hone
        have hphones := phones_ne_nil _ contact (hcontact ▸ List.mem_cons_self)
        rw [hcontact, List.flatMap_singleton, contactOf, if_neg hphones, ← hname]

/-! ## The parser -/

theorem ofLine_append_cr {line : List Char} (h : isBlank line = false) :
    ContactLine.ofLine (line ++ ['\r']) = ContactLine.ofLine line := by
  have htrim : Text.trimList (line ++ ['\r']) = Text.trimList line :=
    Text.trimList_append_whitespace rfl line
  have hindented : isIndented (line ++ ['\r']) = isIndented line := by
    cases line with
    | nil => cases h
    | cons c rest => rfl
  have hparse : PhoneNumber.parse (String.ofList (line ++ ['\r'])) =
      PhoneNumber.parse (String.ofList line) := by
    unfold PhoneNumber.parse Text.trim
    rw [String.toList_ofList, String.toList_ofList, htrim]
  unfold ContactLine.ofLine headerName
  rw [hindented, hparse, htrim]

theorem read_append_cr (line : List Char) :
    ContactLine.read (line ++ ['\r']) = ContactLine.read line := by
  have hblank : isBlank (line ++ ['\r']) = isBlank line := by
    unfold isBlank
    rw [Text.trimList_append_whitespace rfl]
  unfold ContactLine.read
  rw [hblank]
  split_ifs with h
  · rfl
  · rw [ofLine_append_cr (Bool.eq_false_iff.2 h)]

theorem readings_eq (block : List Char) : Text.readings ContactLine.read block =
    ((Text.lines block).filter (!isBlank ·)).map ContactLine.ofLine := by
  rw [← Text.filterMap_lines read_append_cr rfl]
  induction Text.lines block with
  | nil => rfl
  | cons line lines ih =>
    rw [List.filterMap_cons, List.filter_cons, ih, ContactLine.read]
    by_cases h : isBlank line = true
    · simp [h]
    · simp [h]

theorem phones_of_lines (lines : List (List Char)) : (lines.filter isIndented).filterMap
    (fun line => PhoneNumber.parse (String.ofList line)) =
      (lines.map ContactLine.ofLine).flatMap ContactLine.phones := by
  induction lines with
  | nil => rfl
  | cons line lines ih =>
    rw [List.filter_cons, List.map_cons, List.flatMap_cons, ← ih, ContactLine.ofLine]
    by_cases h : isIndented line = true
    · rw [if_pos h, if_pos h, List.filterMap_cons]
      cases PhoneNumber.parse (String.ofList line) <;> rfl
    · rw [if_neg h, if_neg h]
      rfl

theorem parseContactBlock_ok {block : List Char} {contact : Option Contact}
    (h : parseContactBlock block = .ok contact) :
    Headed (Text.readings ContactLine.read block) ∧
      contact.toList = blockContact (Text.readings ContactLine.read block) := by
  rw [readings_eq]
  unfold parseContactBlock at h
  cases hlines : (Text.lines block).filter (!isBlank ·) with
  | nil =>
    rw [hlines] at h
    obtain rfl := Except.ok.inj h
    exact ⟨fun _ h => (nomatch h), rfl⟩
  | cons header lines =>
    rw [hlines] at h
    dsimp only at h
    split_ifs at h with hindented hphones
    all_goals
      have hheader : ContactLine.ofLine header = .header (headerName header) := if_neg hindented
      obtain rfl := Except.ok.inj h
      rw [List.map_cons, hheader]
      refine ⟨fun line hline => ⟨_, (Option.some.inj hline).symm⟩, ?_⟩
      rw [blockContact, ← phones_of_lines, contactOf]
    · rw [if_pos hphones]
      rfl
    · rw [if_neg hphones]
      rfl

theorem parseContactBlocks_ok : ∀ {blocks : List (List Char)} {contacts : List Contact},
    parseContactBlocks blocks = .ok contacts →
      (∀ block ∈ blocks, Headed (Text.readings ContactLine.read block)) ∧
        contacts = blocks.flatMap fun block => blockContact (Text.readings ContactLine.read block)
  | [], contacts, h => by
    obtain rfl := Except.ok.inj h
    exact ⟨fun _ h => (nomatch h), rfl⟩
  | block :: blocks, contacts, h => by
    unfold parseContactBlocks at h
    split at h
    · cases h
    · rename_i contact hblock
      split at h
      · cases h
      · rename_i rest hblocks
        obtain rfl := Except.ok.inj h
        obtain ⟨hheaded, hcontact⟩ := parseContactBlock_ok hblock
        obtain ⟨hall, hrest⟩ := parseContactBlocks_ok hblocks
        refine ⟨List.forall_mem_cons.2 ⟨hheaded, hall⟩, ?_⟩
        rw [List.flatMap_cons, hcontact, hrest]

theorem parseImsgContacts_ok (h : parseImsgContacts input = .ok contacts) :
    parseContactBlocks (Text.blocks (Text.replaceCrlf input.toList)) = .ok contacts := by
  unfold parseImsgContacts at h
  split at h
  · cases h
  · rename_i blocks hblocks
    split_ifs at h
    obtain rfl := Except.ok.inj h
    exact hblocks

/-- The contacts parsed are the headers', each with the numbers under it, exactly when no block has
numbers of two headers, or of one that is named otherwise than the first. -/
theorem contacts_under_headers_iff (h : parseImsgContacts input = .ok contacts) :
    contacts = headedContacts (contactLines input) ↔
      ∀ block ∈ Text.blocks (Text.replaceCrlf input.toList),
        OneOwner (Text.readings ContactLine.read block) := by
  obtain ⟨hheaded, rfl⟩ := parseContactBlocks_ok (parseImsgContacts_ok h)
  have hlines : contactLines input = (Text.blocks (Text.replaceCrlf input.toList)).flatMap
      (Text.readings ContactLine.read) := by
    rw [contactLines, ← Text.readings_replaceCrlf read_append_cr, Text.readings_blocks rfl]
  rw [hlines, headedContacts_flatMap hheaded,
    flatMap_eq_iff fun block hblock => length_blockContact_le (hheaded block hblock)]
  exact forall₂_congr fun block hblock => blockContact_eq_iff (hheaded block hblock)

theorem contacts_under_headers_iff_two :
    ∃ contacts, parseImsgContacts "Alpha\n  +12025550101\n\nBeta\n  +12025550102\n" =
      .ok contacts ∧ contacts = headedContacts
        (contactLines "Alpha\n  +12025550101\n\nBeta\n  +12025550102\n") := by
  have hblocks : Text.blocks (Text.replaceCrlf
      "Alpha\n  +12025550101\n\nBeta\n  +12025550102\n".toList) =
        ["Alpha\n  +12025550101".toList, "Beta\n  +12025550102\n".toList] := by decide
  refine ⟨_, rfl, (contacts_under_headers_iff rfl).2 ?_⟩
  rw [hblocks]
  intro block hblock name rest hlines
  rw [List.mem_cons, List.mem_singleton] at hblock
  rcases hblock with rfl | rfl <;> cases hlines <;> exact .inr rfl

/-- A line of one space between two contacts gives the second's number to the first. -/
theorem number_of_another : ∃ contacts,
    parseImsgContacts "Alpha\n  +12025550101\n \nBeta\n  +12025550102\n" = .ok contacts ∧
      contacts ≠ headedContacts
        (contactLines "Alpha\n  +12025550101\n \nBeta\n  +12025550102\n") :=
  ⟨_, rfl, by decide⟩

end AnalogConnect
