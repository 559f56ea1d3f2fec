import Mathlib.Data.List.Infix
import Mathlib.Tactic.NormNum
import Mathlib.Tactic.Ring
import AnalogConnect.AndroidCallKeys
import AnalogConnect.Library.Hex

/-!
# When the Power key is forwarded

Of what is printed, the script keeps the times of the lines of the Power key, not whether it went
down or up. So it forwards the key whenever two such lines are close together, which is right
exactly when they are not, or the key goes down in what was printed and directly up again
(`power_forwarded_iff`).
-/

namespace AnalogConnect

namespace AndroidCallKeys

variable {getevent : Getevent} {event : KernelEvent} {chunk : List KernelEvent}
  {line text group : List Char} {hold : ℚ}

theorem splitlines_line (h : ∀ c ∈ line, isLineBreak c = false) : ∀ front : List Char,
    splitlines front (line ++ '\n' :: text) = (front ++ line) :: splitlines [] text := by
  induction line with
  | nil =>
    intro front
    rw [List.nil_append, List.append_nil, splitlines]
    · rfl
    · intro rest hcr
      cases hcr
  | cons c line ih =>
    intro front
    have hc : isLineBreak c = false := h c List.mem_cons_self
    have hne : c ≠ '\r' := by
      rintro rfl
      cases hc
    rw [List.cons_append, splitlines, if_neg (by simp [hc]),
      ih (fun d hd => h d (List.mem_cons_of_mem c hd)), List.append_assoc, List.singleton_append]
    exact fun _ hcr => absurd hcr hne

theorem splitlines_output : ∀ chunk : List KernelEvent,
    splitlines [] (getevent.output chunk) = chunk.map getevent.line
  | [] => rfl
  | event :: chunk => by
    rw [Getevent.output, List.flatMap_cons, List.append_assoc, List.singleton_append,
      splitlines_line (getevent.unbroken event), List.nil_append, List.map_cons]
    exact congrArg _ (splitlines_output chunk)

/-! ## The stamp -/

theorem ofDigitChars_zeros (digits : List Char) : ∀ n : ℕ,
    Nat.ofDigitChars 10 (List.replicate n '0' ++ digits) 0 = Nat.ofDigitChars 10 digits 0
  | 0 => rfl
  | n + 1 => by
    rw [List.replicate_succ, List.cons_append, Nat.ofDigitChars_cons]
    exact ofDigitChars_zeros digits n

theorem isDigit_of_mem_fraction {c : Char}
    (h : c ∈ (Nat.toDigits 10 event.usec).leftpad 6 '0') : c.isDigit = true := by
  rcases List.mem_append.1 h with h | h
  · rw [(List.mem_replicate.1 h).2]
    rfl
  · exact Nat.isDigit_of_mem_toDigits (by decide) (by decide) h

theorem isStampChar_of_mem_stamp {c : Char} (h : c ∈ event.stamp) : isStampChar c = true := by
  rcases List.mem_append.1 h with h | h
  · rw [isStampChar, Nat.isDigit_of_mem_toDigits (by decide) (by decide) h, Bool.true_or]
  · rcases List.mem_cons.1 h with rfl | h
    · rfl
    · rw [isStampChar, isDigit_of_mem_fraction h, Bool.true_or]

theorem not_mem_of_isDigit {digits : List Char} (h : ∀ c ∈ digits, c.isDigit = true) :
    '.' ∉ digits := fun hdot => by
  have := h '.' hdot
  cases this

theorem float_stamp (event : KernelEvent) : float event.stamp = some event.time := by
  have hwhole : ∀ c ∈ Nat.toDigits 10 event.sec, c.isDigit = true := fun c hc =>
    Nat.isDigit_of_mem_toDigits (by decide) (by decide) hc
  have hfraction : ∀ c ∈ (Nat.toDigits 10 event.usec).leftpad 6 '0', c.isDigit = true :=
    fun c hc => isDigit_of_mem_fraction hc
  have hsplit : event.stamp.splitOn '.' =
      [Nat.toDigits 10 event.sec, (Nat.toDigits 10 event.usec).leftpad 6 '0'] := by
    rw [KernelEvent.stamp, List.splitOn_append_cons_self,
      List.splitOn_eq_singleton (not_mem_of_isDigit hwhole),
      List.splitOn_eq_singleton (not_mem_of_isDigit hfraction)]
    rfl
  have hlength : ((Nat.toDigits 10 event.usec).leftpad 6 '0').length = 6 := by
    rw [List.length_leftpad, max_eq_left]
    exact (Nat.length_toDigits_le_iff (by decide) (by decide)).2 event.usec.isLt
  have hvalue : Nat.ofDigitChars 10 ((Nat.toDigits 10 event.usec).leftpad 6 '0') 0 =
      event.usec := by
    rw [List.leftpad, ofDigitChars_zeros, Nat.ofDigitChars_ten_toDigits]
  unfold float
  rw [hsplit]
  dsimp only
  rw [if_neg fun h => Nat.toDigits_ne_nil h.1, Nat.ofDigitChars_ten_toDigits, hvalue, hlength,
    KernelEvent.time]
  norm_num

theorem isSpace_of_isStampChar {c : Char} (h : isStampChar c = true) : isSpace c = false := by
  rcases Bool.or_eq_true_iff.1 h with hdigit | hdot
  · have hrange := Text.isDigit_iff.1 hdigit
    rw [isSpace, Text.not_isWhitespace_of_isDigit hdigit, Bool.false_or]
    simp
    omega
  · rw [eq_of_beq hdot]
    rfl

theorem searchStamp_line (event : KernelEvent) :
    searchStamp (getevent.line event) = some event.stamp := by
  obtain ⟨blanks, rest, hblanks, hline⟩ := getevent.stamped event
  have hstamp : ∀ c ∈ event.stamp, isStampChar c = true := fun c hc => isStampChar_of_mem_stamp hc
  have hne : event.stamp ≠ [] := List.append_ne_nil_of_right_ne_nil _ (List.cons_ne_nil _ _)
  have hdrop : (blanks ++ (event.stamp ++ ']' :: rest)).dropWhile isSpace =
      event.stamp ++ ']' :: rest := by
    rw [List.dropWhile_append_of_pos fun c hc => by rw [hblanks c hc]; rfl]
    obtain ⟨c, digits, hcons⟩ := List.exists_cons_of_ne_nil hne
    have hc : isSpace c = false :=
      isSpace_of_isStampChar (hstamp c (hcons ▸ List.mem_cons_self))
    rw [hcons, List.cons_append, List.dropWhile_cons_of_neg (by simp [hc])]
  have hbracket : ∀ rest, (']' :: rest).takeWhile isStampChar = [] ∧
      (']' :: rest).dropWhile isStampChar = ']' :: rest := fun rest => ⟨rfl, rfl⟩
  rw [hline, searchStamp, matchStamp, hdrop, List.takeWhile_append_of_pos hstamp,
    List.dropWhile_append_of_pos hstamp, (hbracket rest).1, (hbracket rest).2, List.append_nil,
    if_pos ⟨hne, rfl⟩]
  rfl

/-! ## What is forwarded -/

/-- The events whose lines are read as the Power key's. -/
def powerLines (getevent : Getevent) (chunk : List KernelEvent) : List KernelEvent :=
  chunk.filter fun event =>
    contains "EV_KEY" (getevent.line event) && contains "KEY_POWER" (getevent.line event)

/-- How far apart the first and the last of them are. -/
def powerSpan (getevent : Getevent) (chunk : List KernelEvent) : ℚ :=
  let times := (powerLines getevent chunk).map KernelEvent.time
  times.getLastD 0 - times.headD 0

/-- The Power key goes down and, with no other event of it in between, up. -/
def Released (down up : KernelEvent) (chunk : List KernelEvent) : Prop :=
  down.isPowerDown = true ∧ up.isPowerUp = true ∧ [down, up] <:+: chunk.filter (·.isPower)

theorem forwarded_eq {code : ℕ} (h : code ∈ forwarded line) : code = 5 := by
  obtain ⟨⟨name, keycode⟩, hfind, rfl⟩ := Option.map_eq_some_iff.1 (Option.mem_toList.1 h)
  exact congrArg Prod.snd (List.mem_singleton.1 (List.mem_of_find?_eq_some hfind))

theorem parseLines_output (getevent : Getevent) : ∀ (chunk : List KernelEvent) (codes : List ℕ)
    (times : List ℚ), ∃ sent, (∀ code ∈ sent, code = 5) ∧
      parseLines (codes, times) (chunk.map getevent.line) =
        some (codes ++ sent, times ++ (powerLines getevent chunk).map KernelEvent.time)
  | [], codes, times => ⟨[], by simp, by simp [parseLines, powerLines]⟩
  | event :: chunk, codes, times => by
    rw [List.map_cons, parseLines, powerLines, List.filter_cons]
    by_cases hkey : contains "EV_KEY" (getevent.line event) = true
    · by_cases hpower : contains "KEY_POWER" (getevent.line event) = true
      · obtain ⟨sent, hsent, hrest⟩ := parseLines_output getevent chunk codes
          (times ++ [event.time])
        refine ⟨sent, hsent, ?_⟩
        rw [if_pos hkey, if_pos hpower, searchStamp_line, if_pos (by rw [hkey, hpower]; rfl),
          List.map_cons, List.append_cons]
        dsimp only
        rw [float_stamp]
        exact hrest
      · have hread : ¬ (contains "EV_KEY" (getevent.line event) &&
            contains "KEY_POWER" (getevent.line event)) = true := fun h =>
          hpower (Bool.and_eq_true_iff.1 h).2
        rw [if_pos hkey, if_neg hpower, if_neg hread]
        split_ifs
        · obtain ⟨sent, hsent, hrest⟩ := parseLines_output getevent chunk
            (codes ++ forwarded (getevent.line event)) times
          refine ⟨forwarded (getevent.line event) ++ sent, fun code hcode => ?_, ?_⟩
          · exact (List.mem_append.1 hcode).elim forwarded_eq (hsent code)
          · rw [hrest, List.append_assoc]
            rfl
        · exact parseLines_output getevent chunk codes times
    · have hread : ¬ (contains "EV_KEY" (getevent.line event) &&
          contains "KEY_POWER" (getevent.line event)) = true := fun h =>
        hkey (Bool.and_eq_true_iff.1 h).1
      rw [if_neg hkey, if_neg hread]
      exact parseLines_output getevent chunk codes times

/-- The End key is forwarded where there are lines of the Power key close together. -/
theorem parseEvents_output (getevent : Getevent) (chunk : List KernelEvent) (hold : ℚ) :
    ∃ codes, parseEvents (getevent.output chunk) hold = some codes ∧
      (26 ∈ codes ↔
        2 ≤ (powerLines getevent chunk).length ∧ powerSpan getevent chunk < hold) := by
  obtain ⟨sent, hsent, hlines⟩ := parseLines_output getevent chunk [] []
  have hnot : 26 ∉ sent := fun h => by
    have := hsent 26 h
    omega
  rw [List.nil_append, List.nil_append] at hlines
  unfold parseEvents
  rw [splitlines_output, hlines]
  dsimp only
  rw [List.length_map]
  change ∃ codes, (if _ ∧ powerSpan getevent chunk < hold then _ else _) = _ ∧ _
  by_cases h : 2 ≤ (powerLines getevent chunk).length ∧ powerSpan getevent chunk < hold
  · rw [if_pos h]
    exact ⟨_, rfl, iff_of_true (List.mem_append_right _ (List.mem_singleton_self 26)) h⟩
  · rw [if_neg h]
    exact ⟨_, rfl, iff_of_false hnot h⟩

theorem mem_powerLines (h : event ∈ chunk) (hpower : event.isPower = true) :
    event ∈ powerLines getevent chunk := by
  obtain ⟨hkey, hname⟩ := getevent.labelled event hpower
  exact List.mem_filter.2 ⟨h, by rw [hkey, hname]; rfl⟩

/-- Times in order are between the first and the last. -/
theorem le_of_ordered {times : List ℚ} (h : times.Pairwise (· ≤ ·)) {time : ℚ}
    (hmem : time ∈ times) : times.headD 0 ≤ time ∧ time ≤ times.getLastD 0 := by
  constructor
  · cases times with
    | nil => cases hmem
    | cons first later =>
      rcases List.mem_cons.1 hmem with rfl | hlater
      · exact le_refl _
      · exact (List.pairwise_cons.1 h).1 time hlater
  · rcases List.eq_nil_or_concat' times with rfl | ⟨earlier, last, rfl⟩
    · cases hmem
    · rw [List.getLastD_concat]
      rcases List.mem_append.1 hmem with hearlier | hlast
      · exact (List.pairwise_append.1 h).2.2 time hearlier last (List.mem_singleton_self last)
      · exact (List.mem_singleton.1 hlast).le

theorem released_span {down up : KernelEvent} (hordered : (chunk.map KernelEvent.time).Pairwise
    (· ≤ ·)) (h : Released down up chunk) :
    up.time - down.time ≤ powerSpan getevent chunk := by
  obtain ⟨hdown, hup, hadjacent⟩ := h
  have hlines : ((powerLines getevent chunk).map KernelEvent.time).Pairwise (· ≤ ·) :=
    hordered.sublist (List.filter_sublist.map _)
  have hmem : ∀ event ∈ [down, up], event.isPower = true →
      event.time ∈ (powerLines getevent chunk).map KernelEvent.time := fun event hevent hpower =>
    List.mem_map_of_mem (mem_powerLines (List.mem_of_mem_filter (hadjacent.subset hevent)) hpower)
  have hfirst := (le_of_ordered hlines (hmem down List.mem_cons_self
    (Bool.and_eq_true_iff.1 hdown).1)).1
  have hlast := (le_of_ordered hlines (hmem up (List.mem_cons_of_mem _ List.mem_cons_self)
    (Bool.and_eq_true_iff.1 hup).1)).2
  exact sub_le_sub hlast hfirst

/-- The End key is forwarded for a short press alone exactly where the lines of the Power key are
too few or far apart, or the key goes down and directly up again. -/
theorem power_forwarded_iff (getevent : Getevent) (hold : ℚ) {chunks : List (List KernelEvent)}
    (hordered : (chunks.flatten.map KernelEvent.time).Pairwise (· ≤ ·)) (hchunk : chunk ∈ chunks) :
    ∃ codes, parseEvents (getevent.output chunk) hold = some codes ∧
      ((26 ∈ codes → ∃ down up, Released down up chunk ∧ up.time - down.time < hold) ↔
        (powerLines getevent chunk).length < 2 ∨ hold ≤ powerSpan getevent chunk ∨
          ∃ down up, Released down up chunk) := by
  obtain ⟨codes, hcodes, hforwarded⟩ := parseEvents_output getevent chunk hold
  refine ⟨codes, hcodes, ?_⟩
  have hordered : (chunk.map KernelEvent.time).Pairwise (· ≤ ·) :=
    hordered.sublist ((List.sublist_flatten_of_mem hchunk).map _)
  rw [hforwarded]
  constructor
  · intro hpress
    by_cases hmany : 2 ≤ (powerLines getevent chunk).length
    · by_cases hclose : powerSpan getevent chunk < hold
      · obtain ⟨down, up, hreleased, -⟩ := hpress ⟨hmany, hclose⟩
        exact .inr (.inr ⟨down, up, hreleased⟩)
      · exact .inr (.inl (not_lt.1 hclose))
    · exact .inl (Nat.lt_of_not_le hmany)
  · rintro (hfew | hfar | ⟨down, up, hreleased⟩) ⟨hmany, hclose⟩
    · exact absurd hmany (Nat.not_le.2 hfew)
    · exact absurd hclose (not_lt.2 hfar)
    · exact ⟨down, up, hreleased, (released_span hordered hreleased).trans_lt hclose⟩

/-! ## The lines of a terminal -/

/-- A label, or the number in hexadecimal. -/
def label (known : List (ℕ × String)) (width n : ℕ) : List Char :=
  match known.lookup n with
  | some name => name.toList
  | none => Hex.fixed width n

/-- A label in a field. -/
def field (width : ℕ) (text : List Char) : List Char := (text.take width).rightpad width ' '

def typeLabels : List (ℕ × String) := [(0, "EV_SYN"), (1, "EV_KEY")]

def codeLabels (type : UInt16) : List (ℕ × String) :=
  if type = 1 then [(116, "KEY_POWER"), (231, "KEY_SEND")] else [(0, "SYN_REPORT")]

def valueLabels (type : UInt16) : List (ℕ × String) :=
  if type = 1 then [(0, "UP"), (1, "DOWN"), (2, "REPEAT")] else []

def terminalLabels (event : KernelEvent) : List Char :=
  field 12 (label typeLabels 4 event.type.toNat) ++
    ' ' :: (field 20 (label (codeLabels event.type) 4 event.code.toNat) ++
      ' ' :: field 20 (label (valueLabels event.type) 8 event.value.toUInt32.toNat))

def terminalLine (event : KernelEvent) : List Char :=
  '[' :: (List.replicate (8 - (Nat.toDigits 10 event.sec).length) ' ' ++
    (event.stamp ++ ']' :: ' ' :: terminalLabels event))

def IsPrintable (c : Char) : Prop := 32 ≤ c.toNat ∧ c.toNat < 127

instance (c : Char) : Decidable (IsPrintable c) := inferInstanceAs (Decidable (_ ∧ _))

theorem isLineBreak_of_isPrintable {c : Char} (h : IsPrintable c) : isLineBreak c = false := by
  obtain ⟨hlo, hhi⟩ := h
  unfold isLineBreak
  simp
  omega

theorem isPrintable_of_isStampChar {c : Char} (h : isStampChar c = true) : IsPrintable c := by
  rcases Bool.or_eq_true_iff.1 h with hdigit | hdot
  · have hrange := Text.isDigit_iff.1 hdigit
    exact ⟨by omega, by omega⟩
  · rw [eq_of_beq hdot]
    decide

theorem isPrintable_field {width : ℕ} (h : ∀ c ∈ text, IsPrintable c) {c : Char}
    (hc : c ∈ field width text) : IsPrintable c := by
  rcases List.mem_append.1 hc with hc | hc
  · exact h c (List.mem_of_mem_take hc)
  · rw [(List.mem_replicate.1 hc).2]
    decide

/-- No name has anything but printable characters. -/
def isPrintableTable (known : List (ℕ × String)) : Bool :=
  known.all fun entry => entry.2.toList.all fun c => decide (IsPrintable c)

theorem isPrintable_label {known : List (ℕ × String)} (hknown : isPrintableTable known = true)
    {width n : ℕ} {c : Char} (hc : c ∈ label known width n) : IsPrintable c := by
  unfold label at hc
  split at hc
  · rename_i name hlookup
    obtain ⟨before, after, rfl, -⟩ := List.lookup_eq_some_iff.1 hlookup
    have hname := List.all_eq_true.1 hknown _ (List.mem_append_right _ List.mem_cons_self)
    exact of_decide_eq_true (List.all_eq_true.1 hname c hc)
  · rcases Hex.isLower_of_mem_fixed hc with ⟨hlo, hhi⟩ | ⟨hlo, hhi⟩
    · have hlo : 48 ≤ c.toNat := hlo
      have hhi : c.toNat ≤ 57 := hhi
      exact ⟨by omega, by omega⟩
    · have hlo : 97 ≤ c.toNat := hlo
      have hhi : c.toNat ≤ 102 := hhi
      exact ⟨by omega, by omega⟩

theorem isPrintable_terminalLabels {c : Char} (h : c ∈ terminalLabels event) : IsPrintable c := by
  have hspace : IsPrintable ' ' := by decide
  have htype : isPrintableTable typeLabels = true := by decide
  have hcode : isPrintableTable (codeLabels event.type) = true := by
    unfold codeLabels
    split_ifs
    · decide
    · decide
  have hvalue : isPrintableTable (valueLabels event.type) = true := by
    unfold valueLabels
    split_ifs
    · decide
    · decide
  rcases List.mem_append.1 h with h | h
  · exact isPrintable_field (fun _ => isPrintable_label htype) h
  · rcases List.mem_cons.1 h with rfl | h
    · exact hspace
    · rcases List.mem_append.1 h with h | h
      · exact isPrintable_field (fun _ => isPrintable_label hcode) h
      · rcases List.mem_cons.1 h with rfl | h
        · exact hspace
        · exact isPrintable_field (fun _ => isPrintable_label hvalue) h

theorem isPrintable_terminalLine {c : Char} (h : c ∈ terminalLine event) : IsPrintable c := by
  rcases List.mem_cons.1 h with rfl | h
  · decide
  · rcases List.mem_append.1 h with h | h
    · rw [(List.mem_replicate.1 h).2]
      decide
    · rcases List.mem_append.1 h with h | h
      · exact isPrintable_of_isStampChar (isStampChar_of_mem_stamp h)
      · rcases List.mem_cons.1 h with rfl | h
        · decide
        · rcases List.mem_cons.1 h with rfl | h
          · decide
          · exact isPrintable_terminalLabels h

/-- A word is in a text that ends with one it begins. -/
theorem contains_append {word : String} {rest : List Char} (h : word.toList <+: rest)
    (front : List Char) : contains word (front ++ rest) = true :=
  List.any_eq_true.2 ⟨rest, (List.mem_tails _ _).2 (List.suffix_append front rest),
    List.isPrefixOf_iff_prefix.2 h⟩

theorem terminalLine_eq (event : KernelEvent) : ∃ front, terminalLine event =
    front ++ terminalLabels event :=
  ⟨'[' :: (List.replicate (8 - (Nat.toDigits 10 event.sec).length) ' ' ++
    (event.stamp ++ [']', ' '])), by simp [terminalLine]⟩

theorem contains_terminalLine (h : event.isPower = true) :
    contains "EV_KEY" (terminalLine event) = true ∧
      contains "KEY_POWER" (terminalLine event) = true := by
  obtain ⟨front, hfront⟩ := terminalLine_eq event
  have htype : event.type = 1 := of_decide_eq_true (Bool.and_eq_true_iff.1 h).1
  have hcode : event.code = 116 := of_decide_eq_true (Bool.and_eq_true_iff.1 h).2
  rw [hfront, terminalLabels, htype, hcode]
  refine ⟨contains_append ⟨_, rfl⟩ front, ?_⟩
  rw [List.append_cons, ← List.append_assoc]
  exact contains_append ⟨_, rfl⟩ _

/-- Lines as a terminal shows them. -/
def terminal : Getevent where
  line := terminalLine
  unbroken _ _ hc := isLineBreak_of_isPrintable (isPrintable_terminalLine hc)
  stamped event := ⟨_, ' ' :: terminalLabels event, fun _ hc => (List.mem_replicate.1 hc).2, rfl⟩
  labelled _ hpower := contains_terminalLine hpower

/-- An event of the Power key, by the tenths of its second. -/
def powerEvent (sec : ℕ) (tenths : Fin 10) (value : Int32) : KernelEvent where
  sec
  usec := ⟨100000 * tenths, by omega⟩
  type := 1
  code := 116
  value

theorem time_powerEvent (sec : ℕ) (tenths : Fin 10) (value : Int32) :
    (powerEvent sec tenths value).time = sec + tenths / 10 := by
  have hcast : ((100000 * tenths.val : ℕ) : ℚ) = 100000 * tenths.val := by
    rw [Nat.cast_mul]
    norm_num
  change (sec : ℚ) + ((100000 * tenths.val : ℕ) : ℚ) / 1000000 = _
  rw [hcast]
  ring

theorem powerLines_eq_self (h : ∀ event ∈ chunk, event.isPower = true) :
    powerLines getevent chunk = chunk :=
  List.filter_eq_self.2 fun event hevent => by
    obtain ⟨hkey, hname⟩ := getevent.labelled event (h event hevent)
    rw [hkey, hname]
    rfl

/-- The Power key down for a tenth of a second. -/
def shortPress : List KernelEvent := [powerEvent 10 0 1, powerEvent 10 1 0]

/-- The end of a long press, and a tenth of a second later the beginning of another. -/
def betweenPresses : List KernelEvent := [powerEvent 10 0 0, powerEvent 10 1 1]

theorem power_forwarded_iff_short :
    ∃ codes, parseEvents (terminal.output shortPress) (7 / 10) = some codes ∧
      ((26 ∈ codes → ∃ down up, Released down up shortPress ∧ up.time - down.time < 7 / 10) ↔
        (powerLines terminal shortPress).length < 2 ∨ 7 / 10 ≤ powerSpan terminal shortPress ∨
          ∃ down up, Released down up shortPress) := by
  have hordered : ([shortPress].flatten.map KernelEvent.time).Pairwise (· ≤ ·) := by
    norm_num [shortPress, time_powerEvent]
  exact power_forwarded_iff terminal (7 / 10) hordered List.mem_cons_self

/-- The key is held twice, and the end of one press and the beginning of the next are forwarded. -/
theorem held_forwarded :
    ([[powerEvent 5 0 1], betweenPresses, [powerEvent 20 0 0]].flatten.map
      KernelEvent.time).Pairwise (· ≤ ·) ∧
    ∃ codes, parseEvents (terminal.output betweenPresses) (7 / 10) = some codes ∧ 26 ∈ codes ∧
      ¬ ∃ down up, Released down up betweenPresses ∧ up.time - down.time < 7 / 10 := by
  have hpower : powerLines terminal betweenPresses = betweenPresses :=
    powerLines_eq_self (by decide)
  have hspan : powerSpan terminal betweenPresses < 7 / 10 := by
    unfold powerSpan
    rw [hpower]
    norm_num [betweenPresses, time_powerEvent]
  obtain ⟨codes, hcodes, hforwarded⟩ := parseEvents_output terminal betweenPresses (7 / 10)
  refine ⟨?_, codes, hcodes, hforwarded.2 ⟨by rw [hpower]; decide, hspan⟩, ?_⟩
  · norm_num [betweenPresses, time_powerEvent]
  · rintro ⟨down, up, ⟨hdown, hup, hadjacent⟩, -⟩
    have heq : [down, up] = betweenPresses := hadjacent.sublist.eq_of_length rfl
    obtain ⟨rfl, -⟩ := List.cons.inj heq
    cases hdown

end AndroidCallKeys

end AnalogConnect
