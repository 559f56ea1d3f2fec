import AnalogConnect.Calls
import AnalogConnect.TelecomDialTarget

/-!
# The dial targets of the phone and of the daemon

The phone trims what is not above a space and takes the digits of every script, the daemon trims
white space and takes ASCII. They agree on a string exactly when what surrounds the target is
trimmed by both or by neither, and a target with other digits is trimmed by neither
(`validators_agree_iff`).
-/

namespace AnalogConnect

open Trimming

namespace TelecomDialTarget

variable {c : Char} {s : String}

/-- What either side trims. -/
def isTrimmedByEither (c : Char) : Bool := isTrimmed c || Text.isWhitespace c

/-- The target in a string, once all that either side trims is taken off. -/
def core (s : String) : List Char := trimBy isTrimmedByEither s.toList

/-- What is taken off. -/
def surroundings (s : String) : List Char := trimmedOff isTrimmedByEither s.toList

def IsTarget (target : List Char) : Prop :=
  target ≠ [] ∧ target.length ≤ 32 ∧ ∀ c ∈ target, isDialChar c = true

def IsAscii (target : List Char) : Prop := ∀ c ∈ target, c.toNat < 128

theorem isTrimmedByEither_of_isTrimmed (h : isTrimmed c = true) : isTrimmedByEither c = true := by
  rw [isTrimmedByEither, h, Bool.true_or]

theorem isTrimmedByEither_of_isWhitespace (h : Text.isWhitespace c = true) :
    isTrimmedByEither c = true := by
  rw [isTrimmedByEither, h, Bool.or_true]

/-- Where the digits of a script are. -/
theorem isDigit_range (h : isDigit c = true) :
    (0x30 ≤ c.toNat ∧ c.toNat ≤ 0x39) ∨ (0x660 ≤ c.toNat ∧ c.toNat < 0x1680) ∨
      (0x1680 < c.toNat ∧ c.toNat < 0x2000) ∨ (0x3000 < c.toNat ∧ c.toNat < 0x10000) := by
  have hzeros : ∀ first ∈ digitZeros, first = 0x30 ∨ (0x660 ≤ first ∧ first + 9 < 0x1680) ∨
      (0x1680 < first ∧ first + 9 < 0x2000) ∨ (0x3000 < first ∧ first + 9 < 0x10000) := by
    decide
  obtain ⟨first, hfirst, hrange⟩ := List.any_eq_true.1 h
  have hrange := of_decide_eq_true hrange
  have hzero := hzeros first hfirst
  omega

theorem isDialChar_range (h : isDialChar c = true) :
    isDigit c = true ∨ c.toNat = 0x2B ∨ c.toNat = 0x2A ∨ c.toNat = 0x23 := by
  unfold isDialChar at h
  simp only [Bool.or_eq_true, beq_iff_eq] at h
  rcases h with ((h | rfl) | rfl) | rfl
  · exact .inl h
  · exact .inr (.inl rfl)
  · exact .inr (.inr (.inl rfl))
  · exact .inr (.inr (.inr rfl))

theorem isTrimmedByEither_of_isDialChar (h : isDialChar c = true) :
    isTrimmedByEither c = false := by
  have hrange : (0x23 ≤ c.toNat ∧ c.toNat ≤ 0x39) ∨ (0x660 ≤ c.toNat ∧ c.toNat < 0x1680) ∨
      (0x1680 < c.toNat ∧ c.toNat < 0x2000) ∨ (0x3000 < c.toNat ∧ c.toNat < 0x10000) := by
    rcases isDialChar_range h with hdigit | hsign
    · have := isDigit_range hdigit
      omega
    · omega
  have hnotTrimmed : isTrimmed c = false :=
    decide_eq_false fun hle => by
      have hle : c.toNat ≤ 0x20 := hle
      omega
  have hnotSpace : Text.isWhitespace c = false := by
    unfold Text.isWhitespace
    simp
    omega
  rw [isTrimmedByEither, hnotTrimmed, hnotSpace]
  rfl

theorem isDigit_iff_of_ascii (h : c.toNat < 128) : isDigit c = true ↔ c.isDigit = true := by
  rw [Text.isDigit_iff]
  constructor
  · intro hdigit
    have := isDigit_range hdigit
    omega
  · intro hrange
    exact List.any_eq_true.2 ⟨0x30, List.mem_cons_self, decide_eq_true hrange⟩

theorem isDialChar_iff_of_ascii (h : c.toNat < 128) :
    isDialChar c = true ↔ (c.isDigit || c ∈ ['+', '*', '#']) = true := by
  unfold isDialChar
  simp [isDigit_iff_of_ascii h, or_assoc]

theorem ascii_of_dialled (h : (c.isDigit || c ∈ ['+', '*', '#']) = true) : c.toNat < 128 := by
  simp only [Bool.or_eq_true, decide_eq_true_eq, List.mem_cons, List.not_mem_nil, or_false] at h
  rcases h with h | rfl | rfl | rfl
  · have hrange := Text.isDigit_iff.1 h
    omega
  · decide
  · decide
  · decide

theorem utf16Length_of_dialled {target : List Char} (h : ∀ c ∈ target, isDialChar c = true) :
    Text.utf16Length (String.ofList target) = target.length := by
  refine Text.utf16Length_of_basic fun c hc => ?_
  rcases isDialChar_range (h c hc) with hdigit | hsign
  · have := isDigit_range hdigit
    omega
  · omega

theorem validate_ok_iff {target : String} : validate (some s) = .ok target ↔
    target = String.ofList (trimBy isTrimmed s.toList) ∧
      IsTarget (trimBy isTrimmed s.toList) := by
  have hunfold : validate (some s) =
      if String.ofList (trimBy isTrimmed s.toList) = "" ∨
          32 < Text.utf16Length (String.ofList (trimBy isTrimmed s.toList)) then
        .error "Dial target is invalid"
      else if (trimBy isTrimmed s.toList).all isDialChar then
        .ok (String.ofList (trimBy isTrimmed s.toList))
      else .error "Dial target is invalid" := by
    unfold validate
    simp only [Option.getD_some, String.toList_ofList]
  rw [hunfold]
  generalize trimBy isTrimmed s.toList = trimmed
  by_cases hall : ∀ c ∈ trimmed, isDialChar c = true
  · rw [utf16Length_of_dialled hall, if_pos (List.all_eq_true.2 hall)]
    by_cases hbad : String.ofList trimmed = "" ∨ 32 < trimmed.length
    · rw [if_pos hbad]
      rw [String.ofList_eq_empty_iff] at hbad
      refine iff_of_false (fun h => nomatch h) fun ⟨_, hne, hlength, _⟩ => ?_
      exact hbad.elim hne (Nat.not_lt.2 hlength)
    · rw [if_neg hbad]
      rw [String.ofList_eq_empty_iff, not_or, Nat.not_lt] at hbad
      exact ⟨fun h => ⟨(Except.ok.inj h).symm, hbad.1, hbad.2, hall⟩, fun h => by rw [h.1]⟩
  · rw [if_neg fun h => hall (List.all_eq_true.1 h), ite_self]
    exact iff_of_false (fun h => nomatch h) fun h => hall h.2.2.2

theorem isDialTarget_iff (target : List Char) :
    isDialTarget (String.ofList target) = true ↔ IsTarget target ∧ IsAscii target := by
  have hcheck : isDialTarget (String.ofList target) = true ↔
      target ≠ [] ∧ (String.ofList target).utf8ByteSize ≤ 32 ∧
        ∀ c ∈ target, (c.isDigit || c ∈ ['+', '*', '#']) = true := by
    simp [isDialTarget, and_assoc]
  rw [hcheck]
  constructor
  · rintro ⟨hne, hsize, hall⟩
    have hascii : IsAscii target := fun c hc => ascii_of_dialled (hall c hc)
    rw [Text.utf8ByteSize_of_ascii hascii] at hsize
    exact ⟨⟨hne, hsize, fun c hc => (isDialChar_iff_of_ascii (hascii c hc)).2 (hall c hc)⟩,
      hascii⟩
  · rintro ⟨⟨hne, hlength, hall⟩, hascii⟩
    rw [Text.utf8ByteSize_of_ascii hascii]
    exact ⟨hne, hlength, fun c hc => (isDialChar_iff_of_ascii (hascii c hc)).1 (hall c hc)⟩

theorem parse_ok_iff {target : DialTarget} : DialTarget.parse s = .ok target ↔
    target.value = String.ofList (trimBy Text.isWhitespace s.toList) ∧
      IsTarget (trimBy Text.isWhitespace s.toList) ∧
        IsAscii (trimBy Text.isWhitespace s.toList) := by
  have htrim : Text.trim s = String.ofList (trimBy Text.isWhitespace s.toList) := rfl
  have hvalid := isDialTarget_iff (trimBy Text.isWhitespace s.toList)
  rw [← hvalid, ← htrim]
  unfold DialTarget.parse
  by_cases h : isDialTarget (Text.trim s) = true
  · rw [dif_pos h]
    refine ⟨fun heq => ?_, fun heq => ?_⟩
    · rw [← Except.ok.inj heq]
      exact ⟨rfl, h⟩
    · obtain ⟨value, valid⟩ := target
      obtain rfl : value = Text.trim s := heq.1
      rfl
  · rw [dif_neg h]
    exact iff_of_false (fun heq => nomatch heq) fun heq => h heq.2

theorem phone_accepts_iff : (∃ target, validate (some s) = .ok target) ↔
    IsTarget (core s) ∧ ∀ c ∈ surroundings s, isTrimmed c = true := by
  have hpasses := accepted_iff (p := isTrimmed) (q := isTrimmedByEither) (l := s.toList)
    IsTarget (fun _ => isTrimmedByEither_of_isTrimmed)
    (fun _ h => h.1) (fun _ h c hc => isTrimmedByEither_of_isDialChar (h.2.2 c hc))
  rw [core, surroundings, ← hpasses]
  exact ⟨fun ⟨_, h⟩ => (validate_ok_iff.1 h).2, fun h => ⟨_, validate_ok_iff.2 ⟨rfl, h⟩⟩⟩

theorem daemon_accepts_iff : (∃ target, DialTarget.parse s = .ok target) ↔
    (IsTarget (core s) ∧ IsAscii (core s)) ∧
      ∀ c ∈ surroundings s, Text.isWhitespace c = true := by
  have hpasses := accepted_iff (p := Text.isWhitespace) (q := isTrimmedByEither) (l := s.toList)
    (fun x => IsTarget x ∧ IsAscii x)
    (fun _ => isTrimmedByEither_of_isWhitespace)
    (fun _ h => h.1.1) (fun _ h c hc => isTrimmedByEither_of_isDialChar (h.1.2.2 c hc))
  rw [core, surroundings, ← hpasses]
  constructor
  · rintro ⟨target, h⟩
    exact (parse_ok_iff.1 h).2
  · intro h
    have hvalid := (isDialTarget_iff _).2 h
    exact ⟨⟨_, hvalid⟩, parse_ok_iff.2 ⟨rfl, h⟩⟩

/-- What both accept, both have trimmed to the same target. -/
theorem targets_eq {phone : String} {daemon : DialTarget} (hphone : validate (some s) = .ok phone)
    (hdaemon : DialTarget.parse s = .ok daemon) : daemon.value = phone := by
  obtain ⟨rfl, htarget⟩ := validate_ok_iff.1 hphone
  obtain ⟨hvalue, htarget', hascii⟩ := parse_ok_iff.1 hdaemon
  have hleft := trimBy_eq_of_le (q := isTrimmedByEither)
    (fun _ => isTrimmedByEither_of_isTrimmed) htarget.1
    fun c hc => isTrimmedByEither_of_isDialChar (htarget.2.2 c hc)
  have hright := trimBy_eq_of_le (q := isTrimmedByEither)
    (fun _ => isTrimmedByEither_of_isWhitespace) htarget'.1
    fun c hc => isTrimmedByEither_of_isDialChar (htarget'.2.2 c hc)
  rw [hvalue, ← hright, hleft]

/-- The phone and the daemon agree on a string, with one target, exactly when, if it has a target
at all, an ASCII one is surrounded by what both trim or by something that neither trims alone, and
any other by something the phone does not trim. -/
theorem validators_agree_iff (s : String) :
    (((∃ target, validate (some s) = .ok target) ↔ ∃ target, DialTarget.parse s = .ok target) ∧
      ∀ phone daemon, validate (some s) = .ok phone → DialTarget.parse s = .ok daemon →
        daemon.value = phone) ↔
    (IsTarget (core s) → IsAscii (core s) →
      ((∀ c ∈ surroundings s, isTrimmed c = true) ↔
        ∀ c ∈ surroundings s, Text.isWhitespace c = true)) ∧
    (IsTarget (core s) → ¬ IsAscii (core s) → ∃ c ∈ surroundings s, isTrimmed c = false) := by
  rw [phone_accepts_iff, daemon_accepts_iff]
  have htrimmed : (∃ c ∈ surroundings s, isTrimmed c = false) ↔
      ¬ ∀ c ∈ surroundings s, isTrimmed c = true := by
    simp only [not_forall, Bool.not_eq_true, exists_prop]
  rw [htrimmed]
  constructor
  · rintro ⟨hagree, -⟩
    refine ⟨fun htarget hascii => ⟨fun h => ?_, fun h => ?_⟩, fun htarget hascii h => ?_⟩
    · exact (hagree.1 ⟨htarget, h⟩).2
    · exact (hagree.2 ⟨⟨htarget, hascii⟩, h⟩).2
    · exact hascii (hagree.1 ⟨htarget, h⟩).1.2
  · rintro ⟨hascii, hother⟩
    refine ⟨⟨fun ⟨htarget, h⟩ => ?_, fun ⟨⟨htarget, hA⟩, h⟩ => ?_⟩, fun phone daemon => targets_eq⟩
    · have hA : IsAscii (core s) := not_not.1 fun hA => hother htarget hA h
      exact ⟨⟨htarget, hA⟩, (hascii htarget hA).1 h⟩
    · exact ⟨htarget, (hascii htarget hA).2 h⟩

/-- Arabic digits are a target of the phone's alone. -/
theorem validators_differ : ¬ ∀ s,
    ((∃ target, validate (some s) = .ok target) ↔ ∃ target, DialTarget.parse s = .ok target) ∧
      ∀ phone daemon, validate (some s) = .ok phone → DialTarget.parse s = .ok daemon →
        daemon.value = phone := by
  intro h
  obtain ⟨target, htarget⟩ := (h "٣٣٣").1.1 ⟨"٣٣٣", by decide⟩
  rw [show DialTarget.parse "٣٣٣" = .error .invalidDialTarget by decide] at htarget
  cases htarget

end TelecomDialTarget

end AnalogConnect
