import Mathlib.Data.List.Dedup
import Mathlib.Data.List.Infix
import AnalogConnect.Library.Text

/-!
# Selecting rows

Parts of an SQL query, as SQLite has them: `TRIM` of a character, `LIKE` without an `ESCAPE`, which
folds the case of ASCII letters alone, and `SELECT DISTINCT` of one side of a join. A pattern of
digits after a `%` says what a text ends in (`like_percent`), and each row that is joined with
something is selected once (`distinctJoin_eq_filter`).
-/

universe u v

namespace Sql

/-! ## Text -/

/-- `TRIM(text, c)`. -/
def trim (c : Char) (text : String) : String :=
  String.ofList ((text.toList.dropWhile (· = c)).reverse.dropWhile (· = c)).reverse

/-- `text LIKE pattern`. -/
def like : List Char → List Char → Bool
  | [], text => text = []
  | '%' :: pattern, text => text.tails.any fun rest => like pattern rest
  | '_' :: pattern, text =>
    match text with
    | [] => false
    | _ :: rest => like pattern rest
  | literal :: pattern, text =>
    match text with
    | [] => false
    | c :: rest => Text.lowerAscii c = Text.lowerAscii literal && like pattern rest

theorem lowerAscii_eq_digit {c d : Char} (hd : d.isDigit = true) :
    Text.lowerAscii c = Text.lowerAscii d ↔ c = d := by
  have hdigit := Text.isDigit_iff.1 hd
  have hfold : Text.lowerAscii d = d := by
    unfold Text.lowerAscii
    rw [if_neg]
    rintro ⟨hle, -⟩
    have hle : 'A'.toNat ≤ d.toNat := hle
    exact absurd (Nat.le_trans hle hdigit.2) (by decide)
  rw [hfold]
  unfold Text.lowerAscii
  split_ifs with hupper
  · have hle : 65 ≤ c.toNat ∧ c.toNat ≤ 90 := hupper
    have hletters : ∀ n < 91, 65 ≤ n → (Char.ofNat (n + 32)).isDigit = false := by decide
    refine iff_of_false (fun heq => ?_) (fun heq => ?_)
    · rw [← heq, hletters c.toNat (by omega) hle.1] at hd
      cases hd
    · rw [heq] at hle
      omega
  · rfl

/-- Digits are only like themselves. -/
theorem like_digits : ∀ {pattern : List Char}, (∀ d ∈ pattern, d.isDigit = true) →
    ∀ text : List Char, like pattern text = true ↔ text = pattern
  | [], _, text => by simp [like]
  | d :: pattern, hdigits, text => by
    have hd := hdigits d List.mem_cons_self
    have hpercent : d ≠ '%' := by
      rintro rfl
      exact absurd hd (by decide)
    have hunderscore : d ≠ '_' := by
      rintro rfl
      exact absurd hd (by decide)
    rcases text with - | ⟨c, rest⟩
    · rw [like] <;> simp [hpercent, hunderscore]
    · have ih := like_digits (fun d hd => hdigits d (List.mem_cons_of_mem _ hd)) rest
      rw [like, Bool.and_eq_true, decide_eq_true_eq, lowerAscii_eq_digit hd, ih, List.cons.injEq]
      · exact fun h => hpercent h
      · exact fun h => hunderscore h

theorem like_percent {pattern : List Char} (hdigits : ∀ d ∈ pattern, d.isDigit = true)
    (text : List Char) : like ('%' :: pattern) text = true ↔ pattern <:+ text := by
  have hlike : like ('%' :: pattern) text = text.tails.any fun rest => like pattern rest := by
    rw [like]
  rw [hlike, List.any_eq_true]
  simp only [like_digits hdigits, List.mem_tails]
  exact ⟨fun ⟨rest, hrest, heq⟩ => heq ▸ hrest, fun h => ⟨pattern, h, rfl⟩⟩

/-! ## Joins -/

/-- `SELECT DISTINCT` of the rows of a join's left side, where `joined` is what stands to a row's
right. -/
def distinctJoin {α : Type u} {β : Type v} [DecidableEq α] (joined : α → List β) (rows : List α) :
    List α :=
  (rows.flatMap fun row => (joined row).map fun _ => row).dedup

theorem distinctJoin_eq_filter {α : Type u} {β : Type v} [DecidableEq α] (joined : α → List β) :
    ∀ {rows : List α}, rows.Nodup →
      distinctJoin joined rows = rows.filter fun row => !(joined row).isEmpty
  | [], _ => rfl
  | row :: rows, hnodup => by
    obtain ⟨hnotin, hrest⟩ := List.nodup_cons.1 hnodup
    have ih := distinctJoin_eq_filter joined hrest
    have hdisjoint : List.Disjoint ((joined row).map fun _ => row)
        (rows.flatMap fun row => (joined row).map fun _ => row) := by
      intro other hother hothers
      obtain ⟨-, -, rfl⟩ := List.mem_map.1 hother
      obtain ⟨other, hmem, hother⟩ := List.mem_flatMap.1 hothers
      obtain ⟨-, -, rfl⟩ := List.mem_map.1 hother
      exact hnotin hmem
    unfold distinctJoin at ih ⊢
    rw [List.flatMap_cons, hdisjoint.dedup_append, ih, List.map_const']
    rcases hjoined : joined row with - | ⟨right, rights⟩
    · rw [List.filter_cons_of_neg (by simp [hjoined])]
      rfl
    · rw [List.filter_cons_of_pos (by simp [hjoined]), List.length_cons,
        List.replicate_dedup (Nat.succ_ne_zero _), List.singleton_append]

end Sql
