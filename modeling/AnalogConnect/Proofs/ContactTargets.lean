import AnalogConnect.Calls
import AnalogConnect.Contacts
import AnalogConnect.MessageSend

/-!
# Which contact numbers can be called and messaged

A contact's number is shown and sent back as it was written. Messages take the usual punctuation,
calls do not; calls take `*` and `#`, messages do not; neither takes more than 32 bytes.
-/

namespace AnalogConnect

theorem parse_some {x : String} {p : PhoneNumber} (h : PhoneNumber.parse x = some p) :
    p.display = Text.trim x ∧ 3 ≤ ((Text.trim x).toList.filter Char.isDigit).length := by
  unfold PhoneNumber.parse at h
  simp only at h
  split_ifs at h with hdigits <;> obtain rfl := Option.some.inj h <;>
    exact ⟨rfl, Nat.le_of_not_lt hdigits⟩

theorem three_le_utf8ByteSize {s : String} (h : 3 ≤ (s.toList.filter Char.isDigit).length) :
    3 ≤ s.utf8ByteSize :=
  h.trans ((List.length_filter_le _ _).trans (Text.length_le_utf8ByteSize s))

theorem any_isDigit {l : List Char} (h : 3 ≤ (l.filter Char.isDigit).length) :
    l.any Char.isDigit = true := by
  rw [List.any_eq_true]
  obtain ⟨c, hc⟩ := List.exists_mem_of_length_pos (Nat.lt_of_lt_of_le (by decide) h)
  exact ⟨c, (List.mem_filter.1 hc).1, (List.mem_filter.1 hc).2⟩

theorem dialTarget_parse_iff (x : String) :
    (∃ target, DialTarget.parse x = .ok target) ↔ isDialTarget (Text.trim x) = true := by
  unfold DialTarget.parse
  by_cases h : isDialTarget (Text.trim x) = true
  · rw [dif_pos h]
    exact iff_of_true ⟨_, rfl⟩ h
  · rw [dif_neg h]
    refine iff_of_false ?_ h
    rintro ⟨target, htarget⟩
    cases htarget

theorem outboundMessage_new_iff (recipient body : String) :
    (∃ message, OutboundMessage.new recipient body = .ok message) ↔
      OutboundMessage.recipientRefused (Text.trim recipient) = false ∧
        OutboundMessage.bodyRefused body = false := by
  unfold OutboundMessage.new
  by_cases hrecipient : OutboundMessage.recipientRefused (Text.trim recipient) = true
  · simp [hrecipient]
  · by_cases hbody : OutboundMessage.bodyRefused body = true
    · simp [hrecipient, hbody]
    · simp [hrecipient, hbody]

/-- A contact's number can be called and messaged exactly when it is digits and `+` alone, and no
longer than 32 bytes. -/
theorem contactNumber_usable_iff {x : String} {p : PhoneNumber}
    (h : PhoneNumber.parse x = some p) :
    ((∃ target, DialTarget.parse p.display = .ok target) ∧
      ∀ body, OutboundMessage.bodyRefused body = false →
        ∃ message, OutboundMessage.new p.display body = .ok message) ↔
      (Text.trim x).utf8ByteSize ≤ 32 ∧ ∀ c ∈ (Text.trim x).toList, c.isDigit = true ∨ c = '+' := by
  obtain ⟨hdisplay, hdigits⟩ := parse_some h
  have hsize := three_le_utf8ByteSize hdigits
  have hany := any_isDigit hdigits
  have hnonempty : Text.trim x ≠ "" := by
    intro hempty
    rw [hempty] at hsize
    exact absurd hsize (by decide)
  rw [dialTarget_parse_iff, hdisplay, Text.trim_trim]
  have hrecipient : (∀ body, OutboundMessage.bodyRefused body = false →
      ∃ message, OutboundMessage.new (Text.trim x) body = .ok message) ↔
        OutboundMessage.recipientRefused (Text.trim x) = false := by
    constructor
    · intro hall
      have := (outboundMessage_new_iff _ _).1 (hall "a" (by decide))
      rw [Text.trim_trim] at this
      exact this.1
    · intro hok body hbody
      rw [outboundMessage_new_iff, Text.trim_trim]
      exact ⟨hok, hbody⟩
  rw [hrecipient]
  have hdial : isDialTarget (Text.trim x) = true ↔ (Text.trim x).utf8ByteSize ≤ 32 ∧
      ∀ c ∈ (Text.trim x).toList, c.isDigit = true ∨ c = '+' ∨ c = '*' ∨ c = '#' := by
    simp [isDialTarget, hnonempty]
  have hmessage : OutboundMessage.recipientRefused (Text.trim x) = false ↔
      (Text.trim x).utf8ByteSize ≤ 32 ∧ ∀ c ∈ (Text.trim x).toList,
        c.isDigit = true ∨ c = '+' ∨ c = '-' ∨ c = '(' ∨ c = ')' ∨ c = ' ' := by
    simp [OutboundMessage.recipientRefused, hany, hsize]
  rw [hdial, hmessage]
  constructor
  · rintro ⟨⟨hlength, hcalled⟩, -, hmessaged⟩
    refine ⟨hlength, fun c hc => ?_⟩
    rcases hcalled c hc with hdigit | rfl | rfl | rfl
    · exact .inl hdigit
    · exact .inr rfl
    · exact absurd (hmessaged '*' hc) (by decide)
    · exact absurd (hmessaged '#' hc) (by decide)
  · rintro ⟨hlength, hchars⟩
    refine ⟨⟨hlength, fun c hc => ?_⟩, hlength, fun c hc => ?_⟩
    · exact (hchars c hc).imp_right .inl
    · exact (hchars c hc).imp_right .inl

theorem contactNumber_usable_plain : ∃ p, PhoneNumber.parse " +12025550101" = some p ∧
    (((∃ target, DialTarget.parse p.display = .ok target) ∧
      ∀ body, OutboundMessage.bodyRefused body = false →
        ∃ message, OutboundMessage.new p.display body = .ok message) ↔
      (Text.trim " +12025550101").utf8ByteSize ≤ 32 ∧
        ∀ c ∈ (Text.trim " +12025550101").toList, c.isDigit = true ∨ c = '+') :=
  ⟨_, rfl, contactNumber_usable_iff (show PhoneNumber.parse " +12025550101" = some _ from rfl)⟩

/-- A number written with a hyphen can be messaged but not called. -/
theorem hyphenated_not_dialled : ∃ p, PhoneNumber.parse "555-0101" = some p ∧
    (∃ message, OutboundMessage.new p.display "a" = .ok message) ∧
    ¬ ∃ target, DialTarget.parse p.display = .ok target := by
  refine ⟨_, rfl, ⟨_, rfl⟩, ?_⟩
  rw [dialTarget_parse_iff]
  decide +kernel

end AnalogConnect
