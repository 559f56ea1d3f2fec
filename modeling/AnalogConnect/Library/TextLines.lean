import Mathlib.Data.List.Basic

/-!
# Lines and blocks of text

`str::lines`, `str::replace` of a carriage return before a newline, and `str::split` at an empty
line. What is read line by line, with no regard to a carriage return at a line's end and nothing
read of an empty line, is read the same of the lines, of the text with its line ends replaced, and
of the blocks one after another (`filterMap_lines`, `readings_replaceCrlf`, `readings_blocks`).
-/

universe u

namespace Text

/-- A line without the carriage return that ends it. -/
def stripCr (line : List Char) : List Char :=
  if line.getLast? = some '\r' then line.dropLast else line

/-- `str::lines`: what stands before each newline, and what is left after the last, if anything. -/
def lines (text : List Char) : List (List Char) :=
  let pieces := text.splitOn '\n'
  pieces.dropLast.map stripCr ++ pieces.getLast?.toList.filter (· ≠ [])

/-- `str::replace` of `"\r\n"` by `"\n"`. -/
def replaceCrlf : List Char → List Char
  | '\r' :: '\n' :: text => '\n' :: replaceCrlf text
  | c :: text => c :: replaceCrlf text
  | [] => []

/-- A character put in front of the first block. -/
def consHead (c : Char) : List (List Char) → List (List Char)
  | [] => [[c]]
  | block :: blocks => (c :: block) :: blocks

/-- `str::split` at `"\n\n"`. -/
def blocks : List Char → List (List Char)
  | '\n' :: '\n' :: text => [] :: blocks text
  | c :: text => consHead c (blocks text)
  | [] => [[]]

theorem consHead_eq (c : Char) (block : List Char) (rest : List (List Char)) :
    consHead c (block :: rest) = (c :: block) :: rest := rfl

theorem blocks_ne_nil (text : List Char) : blocks text ≠ [] := by
  fun_cases blocks text with
  | case1 text => exact List.cons_ne_nil _ _
  | case2 c text _ => cases blocks text <;> exact List.cons_ne_nil _ _
  | case3 => exact List.cons_ne_nil _ _

/-- The blocks with the empty lines between them are the text. -/
theorem intercalate_blocks (text : List Char) : ['\n', '\n'].intercalate (blocks text) = text := by
  fun_induction blocks text with
  | case1 text ih =>
    rw [List.intercalate_cons_of_ne_nil (blocks_ne_nil text), ih]
    rfl
  | case2 c text _ ih =>
    rcases hblocks : blocks text with - | ⟨block, - | ⟨block', rest⟩⟩
    · exact absurd hblocks (blocks_ne_nil text)
    · rw [hblocks, List.intercalate_singleton] at ih
      rw [consHead_eq, List.intercalate_singleton, ih]
    · rw [hblocks, List.intercalate_cons_cons] at ih
      rw [consHead_eq, List.intercalate_cons_cons, List.cons_append, List.cons_append, ih]
  | case3 => rfl

theorem splitOn_cons_of_ne {c : Char} (h : c ≠ '\n') (text : List Char) :
    (c :: text).splitOn '\n' = (text.splitOn '\n').modifyHead (c :: ·) := by
  rw [List.splitOn_cons_eq_if_modifyHead, if_neg (by simpa using h)]

theorem splitOn_newline (text : List Char) :
    ('\n' :: text).splitOn '\n' = [] :: text.splitOn '\n' := by
  rw [List.splitOn_cons_eq_if_modifyHead, if_pos (by simp)]

/-! ## Line ends -/

/-- The pieces of a text with its line ends replaced are those of the text, some less a carriage
return at the end. -/
def SamePieces (pieces pieces' : List (List Char)) : Prop :=
  List.Forall₂ (fun piece piece' => piece' = piece ∨ piece' = piece ++ ['\r']) pieces pieces'

theorem SamePieces.modifyHead (c : Char) :
    ∀ {pieces pieces' : List (List Char)}, SamePieces pieces pieces' →
      SamePieces (pieces.modifyHead (c :: ·)) (pieces'.modifyHead (c :: ·))
  | _, _, .nil => .nil
  | _, _, .cons hpiece hrest => by
    refine .cons ?_ hrest
    rcases hpiece with rfl | rfl
    · exact .inl rfl
    · exact .inr rfl

theorem SamePieces.cons_char (c : Char) {text text' : List Char}
    (h : SamePieces (text.splitOn '\n') (text'.splitOn '\n')) :
    SamePieces ((c :: text).splitOn '\n') ((c :: text').splitOn '\n') := by
  by_cases hc : c = '\n'
  · subst hc
    rw [splitOn_newline, splitOn_newline]
    exact .cons (.inl rfl) h
  · rw [splitOn_cons_of_ne hc, splitOn_cons_of_ne hc]
    exact h.modifyHead c

theorem samePieces_replaceCrlf (text : List Char) :
    SamePieces ((replaceCrlf text).splitOn '\n') (text.splitOn '\n') := by
  fun_induction replaceCrlf text with
  | case1 text ih =>
    rw [splitOn_newline, splitOn_cons_of_ne (by decide), splitOn_newline]
    exact .cons (.inr rfl) ih
  | case2 c text _ ih => exact ih.cons_char c
  | case3 => exact .cons (.inl rfl) .nil

/-! ## Reading line by line -/

section Reading

variable {β : Type u}

/-- What is read of a text's lines. -/
def readings (read : List Char → Option β) (text : List Char) : List β :=
  (text.splitOn '\n').filterMap read

variable {read : List Char → Option β}

theorem SamePieces.filterMap_eq (hcr : ∀ line, read (line ++ ['\r']) = read line) :
    ∀ {pieces pieces' : List (List Char)}, SamePieces pieces pieces' →
      pieces.filterMap read = pieces'.filterMap read
  | _, _, .nil => rfl
  | _, _, .cons hpiece hrest => by
    rw [List.filterMap_cons, List.filterMap_cons, filterMap_eq hcr hrest]
    rcases hpiece with rfl | rfl
    · rfl
    · rw [hcr]

theorem readings_replaceCrlf (hcr : ∀ line, read (line ++ ['\r']) = read line)
    (text : List Char) : readings read (replaceCrlf text) = readings read text :=
  (samePieces_replaceCrlf text).filterMap_eq hcr

theorem read_stripCr (hcr : ∀ line, read (line ++ ['\r']) = read line) (line : List Char) :
    read (stripCr line) = read line := by
  unfold stripCr
  split_ifs with h
  · obtain ⟨front, rfl⟩ := List.getLast?_eq_some_iff.1 h
    rw [List.dropLast_concat, hcr]
  · rfl

theorem filterMap_lines (hcr : ∀ line, read (line ++ ['\r']) = read line) (hnil : read [] = none)
    (text : List Char) : (lines text).filterMap read = readings read text := by
  obtain ⟨front, last, hsplit⟩ := (List.eq_nil_or_concat' (text.splitOn '\n')).resolve_left
    (List.splitOn_ne_nil '\n' text)
  have hfront : (front.map stripCr).filterMap read = front.filterMap read := by
    rw [List.filterMap_map]
    exact List.filterMap_congr fun line _ => read_stripCr hcr line
  have hlast : ([last].filter (· ≠ [])).filterMap read = [last].filterMap read := by
    by_cases h : last = []
    · subst h
      simp [hnil]
    · simp [h]
  unfold lines readings
  simp only [hsplit]
  rw [List.dropLast_concat, List.getLast?_concat, List.filterMap_append, hfront,
    Option.toList_some, hlast, ← List.filterMap_append]

theorem readings_blank_line (hnil : read [] = none) (before after : List Char) :
    readings read (before ++ ['\n', '\n'] ++ after) =
      readings read before ++ readings read after := by
  unfold readings
  rw [List.append_assoc, List.cons_append, List.cons_append, List.nil_append,
    List.splitOn_append_cons_self, List.filterMap_append, splitOn_newline, List.filterMap_cons,
    hnil]

theorem readings_intercalate (hnil : read [] = none) : ∀ texts : List (List Char),
    texts ≠ [] → readings read (['\n', '\n'].intercalate texts) = texts.flatMap (readings read)
  | [text], _ => by
    rw [List.intercalate_singleton, List.flatMap_cons, List.flatMap_nil, List.append_nil]
  | text :: text' :: texts, _ => by
    rw [List.intercalate_cons_cons, readings_blank_line hnil, List.flatMap_cons,
      readings_intercalate hnil (text' :: texts) (List.cons_ne_nil _ _)]

theorem readings_blocks (hnil : read [] = none) (text : List Char) :
    readings read text = (blocks text).flatMap (readings read) := by
  conv_lhs => rw [← intercalate_blocks text]
  exact readings_intercalate hnil _ (blocks_ne_nil text)

end Reading

end Text
