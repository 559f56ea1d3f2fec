import AnalogConnect.Contacts

/-!
# Normalised phone numbers

A number is kept as its digits, after a `+` and without the zeros in front where it was written
with an international prefix. The three digits a number needs are counted before the zeros go, and
the prefix is looked for in the number as written while its digits are kept, so a number of zeros
and a prefix within punctuation are not stable; every other is (`phone_normalisation_iff`).
-/

namespace AnalogConnect

/-- The ASCII digits of a number. -/
def digitsOf (input : String) : List Char := (Text.trim input).toList.filter Char.isDigit

/-- A number written with an international prefix. -/
def IsInternational (input : String) : Prop :=
  ['+'] <+: (Text.trim input).toList ∨ ['0', '0'] <+: (Text.trim input).toList

instance : DecidablePred IsInternational := fun _ => inferInstanceAs (Decidable (_ ∨ _))

/-- The characters a number is normalised to. -/
def normalizedList (input : String) : List Char :=
  if IsInternational input then '+' :: (digitsOf input).dropWhile (· = '0') else digitsOf input

section Parse

variable {input : String} {p : PhoneNumber}

theorem parse_eq_some_iff : PhoneNumber.parse input = some p ↔ 3 ≤ (digitsOf input).length ∧
    p = ⟨Text.trim input, String.ofList (normalizedList input)⟩ := by
  have hinternational : (['+'].isPrefixOf (Text.trim input).toList ||
      ['0', '0'].isPrefixOf (Text.trim input).toList) = true ↔ IsInternational input := by
    rw [Bool.or_eq_true, List.isPrefixOf_iff_prefix, List.isPrefixOf_iff_prefix]
    rfl
  have hparse : PhoneNumber.parse input = if (digitsOf input).length < 3 then none
      else some ⟨Text.trim input, String.ofList (normalizedList input)⟩ := by
    unfold PhoneNumber.parse normalizedList
    simp only [hinternational, apply_ite String.ofList]
    rfl
  rw [hparse]
  split_ifs with hdigits
  · refine iff_of_false (by simp) ?_
    rintro ⟨hthree, -⟩
    omega
  · rw [Option.some_inj]
    exact ⟨fun h => ⟨by omega, h.symm⟩, fun h => h.2.symm⟩

theorem exists_parse_iff {normalized : String} :
    (∃ q, PhoneNumber.parse input = some q ∧ q.normalized = normalized) ↔
      3 ≤ (digitsOf input).length ∧ String.ofList (normalizedList input) = normalized := by
  constructor
  · rintro ⟨q, hq, rfl⟩
    obtain ⟨hthree, rfl⟩ := parse_eq_some_iff.1 hq
    exact ⟨hthree, rfl⟩
  · rintro ⟨hthree, rfl⟩
    exact ⟨_, parse_eq_some_iff.2 ⟨hthree, rfl⟩, rfl⟩

theorem normalized_of_parse (h : PhoneNumber.parse input = some p) :
    p.normalized = String.ofList (normalizedList input) := by
  obtain ⟨-, rfl⟩ := parse_eq_some_iff.1 h
  rfl

theorem digitsOf_ofList (l : List Char) : digitsOf (String.ofList l) = l.filter Char.isDigit := by
  rw [digitsOf, Text.toList_trim_ofList]
  exact Text.filter_trimList (fun c hc => Text.not_isWhitespace_of_isDigit hc) l

theorem isDigit_of_mem_digitsOf {c : Char} (h : c ∈ digitsOf input) : c.isDigit = true :=
  (List.mem_filter.1 h).2

theorem isDigit_of_mem_stripped {c : Char} (h : c ∈ (digitsOf input).dropWhile (· = '0')) :
    c.isDigit = true :=
  isDigit_of_mem_digitsOf ((List.dropWhile_sublist _).subset h)

theorem front_trim {front : List Char} (hfront : ∀ c ∈ front, Text.isWhitespace c = false)
    (l : List Char) : front <+: (Text.trim (String.ofList (front ++ l))).toList := by
  rw [Text.toList_trim_ofList]
  exact Text.front_trimList hfront l

theorem isInternational_plus (l : List Char) : IsInternational (String.ofList ('+' :: l)) :=
  .inl (@front_trim ['+'] (List.forall_mem_singleton.2 rfl) l)

theorem isInternational_zeros (l : List Char) : IsInternational (String.ofList ('0' :: '0' :: l)) :=
  .inr (@front_trim ['0', '0']
    (List.forall_mem_cons.2 ⟨rfl, List.forall_mem_singleton.2 rfl⟩) l)

theorem trim_digits {l : List Char} (hl : ∀ c ∈ l, c.isDigit = true) :
    (Text.trim (String.ofList l)).toList = l := by
  rw [Text.toList_trim_ofList]
  refine Text.trimList_eq_self (fun c hc => ?_) (fun c hc => ?_)
  · exact Text.not_isWhitespace_of_isDigit (hl c (List.mem_of_mem_head? hc))
  · exact Text.not_isWhitespace_of_isDigit (hl c (List.mem_of_mem_getLast? hc))

theorem isInternational_digits {l : List Char} (hl : ∀ c ∈ l, c.isDigit = true) :
    IsInternational (String.ofList l) ↔ ['0', '0'] <+: l := by
  unfold IsInternational
  rw [trim_digits hl]
  refine or_iff_right fun hplus => ?_
  have hdigit := hl '+' (hplus.subset (by simp))
  exact absurd hdigit (by decide)

theorem dropWhile_plus {l : List Char} (hl : ∀ c ∈ l, c.isDigit = true) :
    l.dropWhile (· = '+') = l := by
  refine List.dropWhile_eq_self_iff.2 fun hpos hplus => ?_
  have hdigit := hl _ (List.getElem_mem hpos)
  rw [of_decide_eq_true hplus] at hdigit
  exact absurd hdigit (by decide)

theorem matchKey_of_international (h : PhoneNumber.parse input = some p)
    (hinternational : IsInternational input) :
    p.matchKey = String.ofList ((digitsOf input).dropWhile (· = '0')) := by
  unfold PhoneNumber.matchKey
  rw [normalized_of_parse h, normalizedList, if_pos hinternational, String.toList_ofList,
    List.dropWhile_cons_of_pos (by decide), dropWhile_plus fun c => isDigit_of_mem_stripped]

theorem matchKey_of_national (h : PhoneNumber.parse input = some p)
    (hnational : ¬ IsInternational input) : p.matchKey = String.ofList (digitsOf input) := by
  unfold PhoneNumber.matchKey
  rw [normalized_of_parse h, normalizedList, if_neg hnational, String.toList_ofList,
    dropWhile_plus fun c => isDigit_of_mem_digitsOf]

end Parse

section Stable

variable {input : String} {p : PhoneNumber}

/-- A normalised form that is its own, with a key of at least three digits. -/
def PhoneNumber.Stable (p : PhoneNumber) : Prop :=
  (∃ q, PhoneNumber.parse p.normalized = some q ∧ q.normalized = p.normalized) ∧
    3 ≤ (p.matchKey.toList.filter Char.isDigit).length

theorem stable_of_international (h : PhoneNumber.parse input = some p)
    (hinternational : IsInternational input) :
    p.Stable ↔ 3 ≤ ((digitsOf input).dropWhile (· = '0')).length := by
  have hfilter : ((digitsOf input).dropWhile (· = '0')).filter Char.isDigit =
      (digitsOf input).dropWhile (· = '0') :=
    List.filter_eq_self.2 fun c => isDigit_of_mem_stripped
  have hdigits : digitsOf (String.ofList ('+' :: (digitsOf input).dropWhile (· = '0'))) =
      (digitsOf input).dropWhile (· = '0') := by
    rw [digitsOf_ofList, List.filter_cons_of_neg (by decide), hfilter]
  unfold PhoneNumber.Stable
  rw [exists_parse_iff, matchKey_of_international h hinternational, String.toList_ofList, hfilter,
    normalized_of_parse h, normalizedList, if_pos hinternational, hdigits, normalizedList,
    if_pos (isInternational_plus _), hdigits, List.dropWhile_idempotent]
  exact ⟨fun hboth => hboth.2, fun hthree => ⟨⟨hthree, rfl⟩, hthree⟩⟩

theorem stable_of_national (h : PhoneNumber.parse input = some p)
    (hnational : ¬ IsInternational input) : p.Stable ↔ ¬ ['0', '0'] <+: digitsOf input := by
  have hfilter : (digitsOf input).filter Char.isDigit = digitsOf input :=
    List.filter_eq_self.2 fun c => isDigit_of_mem_digitsOf
  have hdigits : digitsOf (String.ofList (digitsOf input)) = digitsOf input := by
    rw [digitsOf_ofList, hfilter]
  have hthree := (parse_eq_some_iff.1 h).1
  have hfront := isInternational_digits fun c (hc : c ∈ digitsOf input) =>
    isDigit_of_mem_digitsOf hc
  unfold PhoneNumber.Stable
  rw [exists_parse_iff, matchKey_of_national h hnational, String.toList_ofList, hfilter,
    and_iff_left hthree, normalized_of_parse h, normalizedList, if_neg hnational, hdigits,
    and_iff_right hthree, normalizedList, hdigits, ← hfront, String.ofList_inj]
  split_ifs with hzeros
  · refine iff_of_false (fun hsame => ?_) (not_not_intro hzeros)
    have hplus : '+' ∈ digitsOf input := hsame ▸ List.mem_cons_self
    exact absurd (isDigit_of_mem_digitsOf hplus) (by decide)
  · exact iff_of_true rfl hzeros

/-- A digit string is of one key after either prefix, whatever is put between its digits. -/
theorem matchKey_of_prefixes {spaced spaced' : List Char} {p p' : PhoneNumber}
    (hsame : spaced.filter Char.isDigit = spaced'.filter Char.isDigit)
    (h : PhoneNumber.parse (String.ofList ('+' :: spaced)) = some p)
    (h' : PhoneNumber.parse (String.ofList ('0' :: '0' :: spaced')) = some p') :
    p.matchKey = p'.matchKey := by
  rw [matchKey_of_international h (isInternational_plus _),
    matchKey_of_international h' (isInternational_zeros _), digitsOf_ofList, digitsOf_ofList,
    List.filter_cons_of_neg (by decide), List.filter_cons_of_pos (by decide),
    List.filter_cons_of_pos (by decide), List.dropWhile_cons_of_pos (by decide),
    List.dropWhile_cons_of_pos (by decide), hsame]

/-- A parsed number is stable exactly when its zeros leave three digits, where it is written with
an international prefix, and otherwise when its digits do not begin like one. -/
theorem phone_normalisation_iff (h : PhoneNumber.parse input = some p) :
    (p.Stable ↔ (IsInternational input → 3 ≤ ((digitsOf input).dropWhile (· = '0')).length) ∧
      (¬ IsInternational input → ¬ ['0', '0'] <+: digitsOf input)) ∧
    ∀ (digits spaced spaced' : List Char) (q q' : PhoneNumber),
      spaced.filter Char.isDigit = digits → spaced'.filter Char.isDigit = digits →
      PhoneNumber.parse (String.ofList ('+' :: spaced)) = some q →
      PhoneNumber.parse (String.ofList ('0' :: '0' :: spaced')) = some q' →
      q.matchKey = q'.matchKey := by
  refine ⟨?_, fun digits spaced spaced' q q' hspaced hspaced' hq hq' => ?_⟩
  · by_cases hinternational : IsInternational input
    · rw [stable_of_international h hinternational]
      exact ⟨fun hthree => ⟨fun _ => hthree, fun hnational => absurd hinternational hnational⟩,
        fun hcond => hcond.1 hinternational⟩
    · rw [stable_of_national h hinternational]
      exact ⟨fun hzeros => ⟨fun hprefixed => absurd hprefixed hinternational, fun _ => hzeros⟩,
        fun hcond => hcond.2 hinternational⟩
  · exact matchKey_of_prefixes (hspaced.trans hspaced'.symm) hq hq'

theorem phone_normalisation_iff_punctuated :
    ∃ p, PhoneNumber.parse "00 44 (20) 7946-0018" = some p ∧ p.Stable :=
  ⟨_, rfl, (phone_normalisation_iff (show PhoneNumber.parse "00 44 (20) 7946-0018" = some _ from
    rfl)).1.2 ⟨fun _ => by decide, fun hnational => absurd (by decide) hnational⟩⟩

/-- Zeros alone leave nothing to match by, and a prefix in brackets is one only the second time. -/
theorem not_every_number_stable :
    (∃ p, PhoneNumber.parse "0000" = some p ∧ ¬ p.Stable) ∧
      ∃ p, PhoneNumber.parse "(00) 44 20" = some p ∧ ¬ p.Stable := by
  refine ⟨⟨_, rfl, ?_⟩, ⟨_, rfl, ?_⟩⟩
  · rintro ⟨-, hthree⟩
    exact absurd hthree (by decide)
  · rintro ⟨⟨q, hq, hsame⟩, -⟩
    obtain rfl := Option.some.inj hq
    exact absurd hsame (by decide)

end Stable

end AnalogConnect
