import Mathlib.Data.List.Basic
import Mathlib.Tactic.Ring
import AnalogConnect.Library.Text

/-!
# Hexadecimal

Bytes and numbers in lower-case digits, and numbers read back from digits of either case.
-/

namespace Hex

def digit (n : ℕ) : Char := if n < 10 then Char.ofNat (48 + n) else Char.ofNat (87 + n)

/-- Lower-case hexadecimal digits. -/
def IsLower (c : Char) : Prop := ('0' ≤ c ∧ c ≤ '9') ∨ ('a' ≤ c ∧ c ≤ 'f')

instance (c : Char) : Decidable (IsLower c) := inferInstanceAs (Decidable (_ ∨ _))

/-- Two digits a byte. -/
def encode (bytes : List UInt8) : List Char :=
  bytes.flatMap fun byte => [digit (byte.toNat / 16), digit (byte.toNat % 16)]

/-- The `w` low digits of `n`. -/
def fixed : ℕ → ℕ → List Char
  | 0, _ => []
  | w + 1, n => fixed w (n / 16) ++ [digit (n % 16)]

/-- The value of a digit of either case. -/
def value (c : Char) : Option ℕ :=
  if '0' ≤ c ∧ c ≤ '9' then some (c.toNat - 48)
  else if 'a' ≤ c ∧ c ≤ 'f' then some (c.toNat - 87)
  else if 'A' ≤ c ∧ c ≤ 'F' then some (c.toNat - 55)
  else none

/-- The number with these digits, most significant first. -/
def number (l : List Char) : Option ℕ :=
  l.foldl (fun total c => total.bind fun n => (value c).map (16 * n + ·)) (some 0)

/-- The bytes with these digits, two a byte. -/
def decode : List Char → Option (List UInt8)
  | [] => some []
  | [_] => none
  | high :: low :: rest =>
    (value high).bind fun h => (value low).bind fun l =>
      (decode rest).map (UInt8.ofNat (16 * h + l) :: ·)

theorem isLower_digit {n : ℕ} (h : n < 16) : IsLower (digit n) := by
  have hall : ∀ n < 16, IsLower (digit n) := by decide
  exact hall n h

/-- The digits are ASCII. -/
theorem toNat_lt_of_isLower {c : Char} (h : IsLower c) : c.toNat < 128 := by
  rcases h with ⟨-, hle⟩ | ⟨-, hle⟩
  · have : c.toNat ≤ '9'.toNat := hle
    exact Nat.lt_of_le_of_lt this (by decide)
  · have : c.toNat ≤ 'f'.toNat := hle
    exact Nat.lt_of_le_of_lt this (by decide)

@[simp] theorem length_encode (bytes : List UInt8) : (encode bytes).length = 2 * bytes.length := by
  induction bytes with
  | nil => rfl
  | cons byte bytes ih =>
    rw [encode, List.flatMap_cons, List.length_append, ← encode, ih, List.length_cons]
    simp only [List.length_cons, List.length_nil]
    omega

theorem isLower_of_mem_encode {bytes : List UInt8} {c : Char} (h : c ∈ encode bytes) :
    IsLower c := by
  obtain ⟨byte, -, hc⟩ := List.mem_flatMap.1 h
  have hbyte := byte.toNat_lt
  simp only [List.mem_cons, List.not_mem_nil, or_false] at hc
  rcases hc with rfl | rfl <;> exact isLower_digit (by omega)

@[simp] theorem length_fixed : ∀ w n : ℕ, (fixed w n).length = w
  | 0, _ => rfl
  | w + 1, n => by rw [fixed, List.length_append, length_fixed w, List.length_singleton]

theorem isLower_of_mem_fixed : ∀ {w n : ℕ} {c : Char}, c ∈ fixed w n → IsLower c
  | 0, _, _, h => by simp [fixed] at h
  | w + 1, n, c, h => by
    rw [fixed, List.mem_append, List.mem_singleton] at h
    rcases h with h | rfl
    · exact isLower_of_mem_fixed h
    · exact isLower_digit (Nat.mod_lt _ (by decide))

theorem value_digit {n : ℕ} (h : n < 16) : value (digit n) = some n := by
  have hall : ∀ n < 16, value (digit n) = some n := by decide
  exact hall n h

theorem number_fixed : ∀ w n : ℕ, number (fixed w n) = some (n % 16 ^ w)
  | 0, n => by simp [fixed, number, Nat.mod_one]
  | w + 1, n => by
    have ih := number_fixed w (n / 16)
    have hdigit := value_digit (Nat.mod_lt n (show 0 < 16 by decide))
    rw [number] at ih
    rw [number, fixed, List.foldl_append, ih]
    simp only [List.foldl_cons, List.foldl_nil, Option.bind_some, hdigit, Option.map_some]
    rw [Nat.pow_succ', Nat.mod_mul, Nat.add_comm]

theorem decode_encode : ∀ bytes : List UInt8, decode (encode bytes) = some bytes
  | [] => rfl
  | byte :: bytes => by
    have hbyte := byte.toNat_lt
    have hcons : encode (byte :: bytes)
        = digit (byte.toNat / 16) :: digit (byte.toNat % 16) :: encode bytes := rfl
    rw [hcons, decode, value_digit (by omega), value_digit (by omega), decode_encode bytes]
    simp only [Option.bind_some, Option.map_some]
    rw [Nat.div_add_mod, UInt8.ofNat_toNat]

/-- A digit of either case is ASCII. -/
theorem toNat_lt_of_value {c : Char} (h : (value c).isSome) : c.toNat < 128 := by
  unfold value at h
  split_ifs at h with hdigit hlower hupper
  · exact toNat_lt_of_isLower (.inl hdigit)
  · exact toNat_lt_of_isLower (.inr hlower)
  · have : c.toNat ≤ 'F'.toNat := hupper.2
    exact Nat.lt_of_le_of_lt this (by decide)
  · cases h

theorem isLower_lowerAscii {c : Char} (h : (value c).isSome) : IsLower (Text.lowerAscii c) := by
  have hall : ∀ n < 128, (value (Char.ofNat n)).isSome →
      IsLower (Text.lowerAscii (Char.ofNat n)) := by decide
  have := hall c.toNat (toNat_lt_of_value h)
  rw [Char.ofNat_toNat] at this
  exact this h

theorem isSome_value_of_isLower {c : Char} (h : IsLower (Text.lowerAscii c)) :
    (value c).isSome := by
  have hall : ∀ n < 128, IsLower (Text.lowerAscii (Char.ofNat n)) →
      (value (Char.ofNat n)).isSome := by decide
  by_cases hascii : c.toNat < 128
  · have := hall c.toNat hascii
    rw [Char.ofNat_toNat] at this
    exact this h
  · rw [Text.lowerAscii_of_not_ascii (Nat.le_of_not_lt hascii)] at h
    exact absurd (toNat_lt_of_isLower h) hascii

theorem lowerAscii_eq_self {c : Char} (h : IsLower c) : Text.lowerAscii c = c := by
  have hall : ∀ n < 128, IsLower (Char.ofNat n) →
      Text.lowerAscii (Char.ofNat n) = Char.ofNat n := by decide
  have := hall c.toNat (toNat_lt_of_isLower h)
  rw [Char.ofNat_toNat] at this
  exact this h

end Hex
