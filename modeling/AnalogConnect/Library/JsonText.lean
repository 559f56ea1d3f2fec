import AnalogConnect.Library.Hex
import AnalogConnect.Library.Text
import Mathlib.Algebra.Order.BigOperators.Group.List

/-!
# JSON text

Values as `serde_json` writes them, without white space: a value's text is built of the texts of its
parts. What is sent is counted in bytes, so the lemmas are about the bytes of a text.
-/

namespace JsonText

/-- A character inside a string. -/
def escaped (c : Char) : List Char :=
  if c = '"' then ['\\', '"']
  else if c = '\\' then ['\\', '\\']
  else if c.toNat = 8 then ['\\', 'b']
  else if c.toNat = 9 then ['\\', 't']
  else if c.toNat = 10 then ['\\', 'n']
  else if c.toNat = 12 then ['\\', 'f']
  else if c.toNat = 13 then ['\\', 'r']
  else if c.toNat < 32 then ['\\', 'u', '0', '0'] ++ Hex.fixed 2 c.toNat
  else [c]

def string (s : String) : String := "\"" ++ String.ofList (s.toList.flatMap escaped) ++ "\""

def bool (b : Bool) : String := if b then "true" else "false"

def number (n : ℤ) : String := toString n

def option {α : Type} (write : α → String) : Option α → String
  | none => "null"
  | some a => write a

/-- Texts with a comma between each two. -/
def commas : List String → String
  | [] => ""
  | [text] => text
  | text :: texts => text ++ "," ++ commas texts

def array (elements : List String) : String := "[" ++ commas elements ++ "]"

def member (name value : String) : String := string name ++ ":" ++ value

/-- An object of members each written with `member`. -/
def object (members : List String) : String := "\x7b" ++ commas members ++ "\x7d"

theorem sum_utf8ByteSize_le_commas : ∀ texts : List String,
    (texts.map String.utf8ByteSize).sum ≤ (commas texts).utf8ByteSize
  | [] => Nat.zero_le _
  | [text] => by simp [commas]
  | text :: text' :: texts => by
    have ih := sum_utf8ByteSize_le_commas (text' :: texts)
    rw [List.map_cons, List.sum_cons, commas, String.utf8ByteSize_append,
      String.utf8ByteSize_append]
    · omega
    · simp

/-- An array takes at least the bytes of its elements. -/
theorem sum_utf8ByteSize_le_array (elements : List String) :
    (elements.map String.utf8ByteSize).sum ≤ (array elements).utf8ByteSize := by
  have := sum_utf8ByteSize_le_commas elements
  rw [array, String.utf8ByteSize_append, String.utf8ByteSize_append]
  omega

/-- A member's value takes no more bytes than the object. -/
theorem utf8ByteSize_le_object {members : List String} (name value : String)
    (h : member name value ∈ members) : value.utf8ByteSize ≤ (object members).utf8ByteSize := by
  have hmember : (member name value).utf8ByteSize ≤ (members.map String.utf8ByteSize).sum :=
    List.single_le_sum (fun _ _ => Nat.zero_le _) _ (List.mem_map_of_mem h)
  have hcommas := sum_utf8ByteSize_le_commas members
  rw [member, String.utf8ByteSize_append] at hmember
  rw [object, String.utf8ByteSize_append, String.utf8ByteSize_append]
  omega

theorem utf8Size_le_escaped (c : Char) : c.utf8Size ≤ ((escaped c).map Char.utf8Size).sum := by
  have hsmall : c.toNat < 128 → c.utf8Size = 1 := by
    intro h
    rw [Char.utf8Size, if_pos]
    exact UInt32.le_iff_toNat_le.2 (show c.toNat ≤ 127 by omega)
  -- an escape begins with a backslash, and what it stands for is ASCII
  have hescape : ∀ rest : List Char, c.toNat < 128 →
      c.utf8Size ≤ (('\\' :: rest).map Char.utf8Size).sum := by
    intro rest h
    have hbackslash : '\\'.utf8Size = 1 := rfl
    rw [hsmall h, List.map_cons, List.sum_cons, hbackslash]
    omega
  unfold escaped
  split_ifs with hquote hbackslash
  · exact hescape _ (hquote ▸ by decide)
  · exact hescape _ (hbackslash ▸ by decide)
  · exact hescape _ (by omega)
  · exact hescape _ (by omega)
  · exact hescape _ (by omega)
  · exact hescape _ (by omega)
  · exact hescape _ (by omega)
  · exact hescape _ (by omega)
  · simp

/-- Escapes add to the bytes of a string. -/
theorem utf8ByteSize_le_string (s : String) : s.utf8ByteSize ≤ (string s).utf8ByteSize := by
  have hescaped : ∀ l : List Char, (l.map Char.utf8Size).sum
      ≤ ((l.flatMap escaped).map Char.utf8Size).sum := by
    intro l
    induction l with
    | nil => exact le_rfl
    | cons c l ih =>
      have := utf8Size_le_escaped c
      rw [List.flatMap_cons, List.map_append, List.sum_append, List.map_cons, List.sum_cons]
      omega
  have := hescaped s.toList
  rw [← Text.utf8ByteSize_eq, ← Text.utf8ByteSize_ofList] at this
  rw [string, String.utf8ByteSize_append, String.utf8ByteSize_append]
  omega

end JsonText
