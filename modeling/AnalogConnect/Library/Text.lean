import Mathlib.Algebra.BigOperators.Group.List.Basic
import Mathlib.Algebra.GroupWithZero.Nat
import Mathlib.Data.List.DropRight

/-!
# Text

What the programs ask of a string: its words, its ends trimmed, and its length in the units the
other side counts in. White space is Unicode's `White_Space`; a `String` has no lone surrogates, so
its length in UTF-16 units is the sum over its characters.
-/

namespace Text

/-- Unicode `White_Space`. -/
def isWhitespace (c : Char) : Bool :=
  let n := c.toNat
  (9 ≤ n && n ≤ 13) || n == 32 || n == 0x85 || n == 0xA0 || n == 0x1680
    || (0x2000 ≤ n && n ≤ 0x200A) || n == 0x2028 || n == 0x2029 || n == 0x202F || n == 0x205F
    || n == 0x3000

/-- The words of a list of characters, with the one being read in front. -/
def words : List Char → List Char → List (List Char)
  | word, [] => if word = [] then [] else [word]
  | word, c :: cs =>
    if isWhitespace c then
      if word = [] then words [] cs else word :: words [] cs
    else words (word ++ [c]) cs

/-- `str::split_whitespace`. -/
def splitWhitespace (s : String) : List String := (words [] s.toList).map String.ofList

/-- `str::trim`, on characters. -/
def trimList (l : List Char) : List Char :=
  ((l.dropWhile isWhitespace).reverse.dropWhile isWhitespace).reverse

/-- `str::trim`. -/
def trim (s : String) : String := String.ofList (trimList s.toList)

/-- The lower case of an ASCII letter. -/
def lowerAscii (c : Char) : Char :=
  if 'A' ≤ c ∧ c ≤ 'Z' then Char.ofNat (c.toNat + 32) else c

/-- `str::replace` of a character. -/
def replaceChar (old : Char) (new s : String) : String :=
  String.ofList (s.toList.flatMap fun c => if c = old then new.toList else [c])

/-- `str::split_once`, on characters: what stands before and after the first `separator`. -/
def splitOnce (separator : List Char) : List Char → Option (List Char × List Char)
  | [] => (separator.isPrefixOf? []).map fun rest => ([], rest)
  | c :: cs =>
    match separator.isPrefixOf? (c :: cs) with
    | some rest => some ([], rest)
    | none => (splitOnce separator cs).map fun (before, rest) => (c :: before, rest)

/-- The UTF-16 units of a character. -/
def utf16Width (c : Char) : ℕ := if c.toNat < 0x10000 then 1 else 2

/-- Java's `String.length`. -/
def utf16Length (s : String) : ℕ := (s.toList.map utf16Width).sum

/-! ## Bytes read as UTF-8 -/

/-- U+FFFD. -/
def replacement : Char := Char.ofNat 0xFFFD

/-- A sequence begun: how many bytes it still needs, its bits so far, and the bounds of the next
byte. -/
structure PartialChar where
  remaining : ℕ
  bits : ℕ
  lower : UInt8 := 0x80
  upper : UInt8 := 0xBF

/-- A byte where a sequence starts: the characters it gives, or the sequence it begins. -/
def leadByte (byte : UInt8) : List Char × Option PartialChar :=
  let bits := byte.toNat
  if byte < 0x80 then ([Char.ofNat bits], none)
  else if byte < 0xC2 ∨ 0xF4 < byte then ([replacement], none)
  else if byte < 0xE0 then ([], some { remaining := 1, bits := bits % 32 })
  else if byte = 0xE0 then ([], some { remaining := 2, bits := bits % 16, lower := 0xA0 })
  else if byte = 0xED then ([], some { remaining := 2, bits := bits % 16, upper := 0x9F })
  else if byte < 0xF0 then ([], some { remaining := 2, bits := bits % 16 })
  else if byte = 0xF0 then ([], some { remaining := 3, bits := bits % 8, lower := 0x90 })
  else if byte = 0xF4 then ([], some { remaining := 3, bits := bits % 8, upper := 0x8F })
  else ([], some { remaining := 3, bits := bits % 8 })

/-- The characters of bytes read as UTF-8, after the sequence begun; one that breaks off gives one
`replacement`, and the byte that broke it starts the next. -/
def lossyChars : Option PartialChar → List UInt8 → List Char
  | none, [] => []
  | some _, [] => [replacement]
  | none, byte :: rest => (leadByte byte).1 ++ lossyChars (leadByte byte).2 rest
  | some begun, byte :: rest =>
    if begun.lower ≤ byte ∧ byte ≤ begun.upper then
      let bits := begun.bits * 64 + byte.toNat % 64
      if begun.remaining = 1 then Char.ofNat bits :: lossyChars none rest
      else lossyChars (some { remaining := begun.remaining - 1, bits }) rest
    else replacement :: ((leadByte byte).1 ++ lossyChars (leadByte byte).2 rest)

/-- `String::from_utf8_lossy`. -/
def fromUtf8Lossy (bytes : List UInt8) : String := String.ofList (lossyChars none bytes)

theorem lowerAscii_of_not_ascii {c : Char} (h : 128 ≤ c.toNat) : lowerAscii c = c := by
  unfold lowerAscii
  rw [if_neg]
  rintro ⟨-, hle⟩
  have hle : c.toNat ≤ 'Z'.toNat := hle
  exact absurd (Nat.le_trans h hle) (by decide)

/-! ## Trimming -/

theorem toList_trim (s : String) : (trim s).toList = trimList s.toList := String.toList_ofList

theorem toList_trim_ofList (l : List Char) : (trim (String.ofList l)).toList = trimList l := by
  rw [toList_trim, String.toList_ofList]

theorem not_isWhitespace_of_mem_head {l : List Char} {c : Char}
    (h : c ∈ (l.dropWhile isWhitespace).head?) : isWhitespace c = false := by
  rcases hl : l.dropWhile isWhitespace with - | ⟨d, rest⟩
  · simp [hl] at h
  · obtain rfl : d = c := by simpa [hl] using h
    have hpos : 0 < (l.dropWhile isWhitespace).length := by simp [hl]
    have hhead := List.dropWhile_get_zero_not isWhitespace l hpos
    simpa [hl] using hhead

theorem trimList_eq_self {l : List Char} (hhead : ∀ c ∈ l.head?, isWhitespace c = false)
    (hlast : ∀ c ∈ l.getLast?, isWhitespace c = false) : trimList l = l := by
  unfold trimList
  have hfront : l.dropWhile isWhitespace = l := by
    cases l with
    | nil => rfl
    | cons c rest => rw [List.dropWhile_cons_of_neg (by simp [hhead c rfl])]
  rw [hfront]
  have hback : l.reverse.dropWhile isWhitespace = l.reverse := by
    rcases hl : l.reverse with - | ⟨c, rest⟩
    · rfl
    · have hc : c ∈ l.getLast? := by rw [← List.head?_reverse, hl]; rfl
      rw [List.dropWhile_cons_of_neg (by simp [hlast c hc])]
  rw [hback, List.reverse_reverse]

/-- Trimming takes nothing from a front that has no white space. -/
theorem front_trimList {front : List Char} (hfront : ∀ c ∈ front, isWhitespace c = false)
    (l : List Char) : front <+: trimList (front ++ l) := by
  rcases front with - | ⟨c, rest⟩
  · exact List.nil_prefix
  · unfold trimList
    rw [List.cons_append, List.dropWhile_cons_of_neg (by simp [hfront c List.mem_cons_self]),
      ← List.cons_append, List.reverse_append, List.dropWhile_append]
    split_ifs
    · have hback : (c :: rest).reverse.dropWhile isWhitespace = (c :: rest).reverse := by
        refine List.dropWhile_eq_self_iff.2 fun hpos => ?_
        simpa using hfront _ (List.mem_reverse.1 (List.getElem_mem hpos))
      have hfront : ((c :: rest).reverse.dropWhile isWhitespace).reverse = c :: rest := by
        rw [hback, List.reverse_reverse]
      exact ⟨[], by rw [List.append_nil, hfront]⟩
    · rw [List.reverse_append, List.reverse_reverse]
      exact List.prefix_append _ _

theorem isDigit_iff {c : Char} : c.isDigit = true ↔ 48 ≤ c.toNat ∧ c.toNat ≤ 57 := by
  simp [Char.isDigit, UInt32.le_iff_toNat_le]

theorem not_isWhitespace_of_isDigit {c : Char} (h : c.isDigit = true) : isWhitespace c = false := by
  have hrange := isDigit_iff.1 h
  unfold isWhitespace
  simp
  omega

/-- Trimming leaves what is never white space. -/
theorem filter_trimList {keep : Char → Bool} (hkeep : ∀ c, keep c = true → isWhitespace c = false)
    (l : List Char) : (trimList l).filter keep = l.filter keep := by
  have hdrop : ∀ l : List Char, (l.dropWhile isWhitespace).filter keep = l.filter keep := by
    intro l
    induction l with
    | nil => rfl
    | cons c l ih =>
      by_cases hc : isWhitespace c = true
      · rw [List.dropWhile_cons_of_pos hc, ih, List.filter_cons_of_neg]
        exact fun hkept => by simp [hkeep c hkept] at hc
      · rw [List.dropWhile_cons_of_neg hc]
  unfold trimList
  rw [List.filter_reverse, hdrop, List.filter_reverse, List.reverse_reverse, hdrop]

theorem trimList_trimList (l : List Char) : trimList (trimList l) = trimList l := by
  refine trimList_eq_self ?_ ?_
  · intro c hc
    have hstart : trimList l <+: l.dropWhile isWhitespace :=
      List.rdropWhile_prefix isWhitespace (l.dropWhile isWhitespace)
    obtain ⟨rest, hrest⟩ := hstart
    refine not_isWhitespace_of_mem_head (l := l) ?_
    rw [← hrest]
    rcases htrim : trimList l with - | ⟨d, front⟩
    · simp [htrim] at hc
    · simpa [htrim] using hc
  · intro c hc
    unfold trimList at hc
    rw [List.getLast?_reverse] at hc
    exact not_isWhitespace_of_mem_head hc

@[simp] theorem trim_trim (s : String) : trim (trim s) = trim s := by
  unfold trim
  rw [String.toList_ofList, trimList_trimList]

theorem trimList_append_whitespace {c : Char} (h : isWhitespace c = true) (l : List Char) :
    trimList (l ++ [c]) = trimList l := by
  unfold trimList
  rw [List.dropWhile_append]
  split_ifs with hempty
  · rw [List.isEmpty_iff.1 hempty, List.dropWhile_cons_of_pos h, List.dropWhile_nil]
  · rw [List.reverse_append, List.reverse_singleton, List.singleton_append,
      List.dropWhile_cons_of_pos h]

theorem mem_of_mem_trim {s : String} {c : Char} (h : c ∈ (trim s).toList) : c ∈ s.toList := by
  rw [toList_trim, trimList, List.mem_reverse] at h
  have hdrop := List.mem_reverse.1 ((List.dropWhile_sublist isWhitespace).subset h)
  exact (List.dropWhile_sublist isWhitespace).subset hdrop

/-! ## Lengths -/

theorem utf8ByteSize_ofList : ∀ l : List Char,
    (String.ofList l).utf8ByteSize = (l.map Char.utf8Size).sum
  | [] => by simp
  | c :: l => by
    have hcons : String.ofList (c :: l) = String.singleton c ++ String.ofList l := by
      rw [String.singleton_eq_ofList, ← String.ofList_append, List.singleton_append]
    rw [hcons, String.utf8ByteSize_append, String.utf8ByteSize_singleton, utf8ByteSize_ofList l,
      List.map_cons, List.sum_cons]

theorem utf8ByteSize_eq (s : String) : s.utf8ByteSize = (s.toList.map Char.utf8Size).sum := by
  rw [← utf8ByteSize_ofList, String.ofList_toList]

theorem length_le_utf8ByteSize (s : String) : s.toList.length ≤ s.utf8ByteSize := by
  rw [utf8ByteSize_eq]
  induction s.toList with
  | nil => simp
  | cons c l ih =>
    have := c.utf8Size_pos
    rw [List.length_cons, List.map_cons, List.sum_cons]
    omega

/-- ASCII text has a byte for each character. -/
theorem utf8ByteSize_of_ascii {l : List Char} (h : ∀ c ∈ l, c.toNat < 128) :
    (String.ofList l).utf8ByteSize = l.length := by
  rw [utf8ByteSize_ofList]
  induction l with
  | nil => rfl
  | cons c l ih =>
    have hc : c.utf8Size = 1 := by
      have hlt := h c List.mem_cons_self
      unfold Char.utf8Size
      rw [if_pos]
      exact UInt32.le_iff_toNat_le.2 (show c.toNat ≤ 127 by omega)
    rw [List.map_cons, List.sum_cons, hc, ih fun d hd => h d (List.mem_cons_of_mem _ hd),
      List.length_cons]
    omega

theorem utf16Width_of_ascii {c : Char} (h : c.toNat < 128) : utf16Width c = 1 :=
  if_pos (Nat.lt_trans h (by decide))

/-- Text of the basic plane has a UTF-16 unit for each character. -/
theorem utf16Length_of_basic {l : List Char} (h : ∀ c ∈ l, c.toNat < 0x10000) :
    utf16Length (String.ofList l) = l.length := by
  have hwidth : ∀ c ∈ l, utf16Width c = 1 := fun c hc => if_pos (h c hc)
  unfold utf16Length
  rw [String.toList_ofList, List.map_congr_left hwidth, List.map_const', List.sum_replicate_nat,
    Nat.mul_one]

/-- ASCII text has a UTF-16 unit for each character. -/
theorem utf16Length_of_ascii {l : List Char} (h : ∀ c ∈ l, c.toNat < 128) :
    utf16Length (String.ofList l) = l.length :=
  utf16Length_of_basic fun c hc => (h c hc).trans (by decide)

@[simp] theorem utf16Length_append (s t : String) :
    utf16Length (s ++ t) = utf16Length s + utf16Length t := by
  unfold utf16Length
  rw [String.toList_append, List.map_append, List.sum_append]

theorem utf16Length_le (s : String) : utf16Length s ≤ 2 * s.toList.length := by
  unfold utf16Length
  induction s.toList with
  | nil => simp
  | cons c l ih =>
    have hwidth : utf16Width c ≤ 2 := by
      unfold utf16Width
      split_ifs <;> omega
    rw [List.map_cons, List.sum_cons, List.length_cons]
    omega

/-- A space after each of a character adds a unit for each. -/
theorem utf16Length_replaceChar {c d : Char} (hc : c.toNat < 128) (hd : d.toNat < 128)
    (s : String) : utf16Length (replaceChar c (String.ofList [c, d]) s)
      = utf16Length s + s.toList.count c := by
  unfold utf16Length replaceChar
  rw [String.toList_ofList]
  induction s.toList with
  | nil => rfl
  | cons b l ih =>
    rw [List.flatMap_cons, List.map_append, List.sum_append, ih, List.map_cons, List.sum_cons]
    by_cases hb : b = c
    · subst hb
      simp only [if_true, String.toList_ofList, List.map_cons, List.map_nil, List.sum_cons,
        List.sum_nil, utf16Width_of_ascii hc, utf16Width_of_ascii hd, List.count_cons_self]
      omega
    · rw [if_neg hb, List.count_cons_of_ne hb]
      simp only [List.map_cons, List.map_nil, List.sum_cons, List.sum_nil]
      omega

end Text
