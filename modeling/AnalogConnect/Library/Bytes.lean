import Mathlib.Data.Nat.Digits.Defs
import Mathlib.Tactic.Ring

/-!
# Fixed-width integers as bytes

`leBytes w n` are the `w` low bytes of `n`, least significant first, and `leNat` reads any list of
bytes back. On `w` bytes the two are inverse (`leBytes_leNat`, `leNat_leBytes`), and big-endian is
the same with the bytes reversed. Two's-complement words go through their bit patterns.
-/

namespace Bytes

/-- The `w` low bytes of `n`, least significant first. -/
def leBytes : ℕ → ℕ → List UInt8
  | 0, _ => []
  | w + 1, n => UInt8.ofNat n :: leBytes w (n / 256)

/-- The number with these bytes, least significant first. -/
def leNat : List UInt8 → ℕ
  | [] => 0
  | b :: bs => b.toNat + 256 * leNat bs

/-- The `w` low bytes of `n`, most significant first. -/
def beBytes (w n : ℕ) : List UInt8 := (leBytes w n).reverse

/-- The number with these bytes, most significant first. -/
def beNat (bs : List UInt8) : ℕ := leNat bs.reverse

@[simp] theorem length_leBytes : ∀ w n : ℕ, (leBytes w n).length = w
  | 0, _ => rfl
  | w + 1, n => by simp [leBytes, length_leBytes w]

@[simp] theorem length_beBytes (w n : ℕ) : (beBytes w n).length = w := by
  simp [beBytes]

theorem leNat_leBytes : ∀ w n : ℕ, leNat (leBytes w n) = n % 256 ^ w
  | 0, n => by simp [leBytes, leNat, Nat.mod_one]
  | w + 1, n => by
    have hb : (UInt8.ofNat n).toNat = n % 256 := UInt8.toNat_ofNat'
    rw [leBytes, leNat, leNat_leBytes w, hb, Nat.pow_succ', Nat.mod_mul]

theorem leBytes_leNat : ∀ bs : List UInt8, leBytes bs.length (leNat bs) = bs
  | [] => rfl
  | b :: bs => by
    have hb : b.toNat < 256 := b.toNat_lt
    have hlow : UInt8.ofNat (b.toNat + 256 * leNat bs) = b := by
      rw [← UInt8.toNat_inj, UInt8.toNat_ofNat']
      omega
    have hhigh : (b.toNat + 256 * leNat bs) / 256 = leNat bs := by omega
    rw [List.length_cons, leBytes, leNat, hlow, hhigh, leBytes_leNat bs]

theorem leNat_lt : ∀ bs : List UInt8, leNat bs < 256 ^ bs.length
  | [] => by simp [leNat]
  | b :: bs => by
    have hb : b.toNat < 256 := b.toNat_lt
    have ih := leNat_lt bs
    rw [leNat, List.length_cons, Nat.pow_succ']
    omega

theorem beNat_beBytes_of_lt {w n : ℕ} (h : n < 256 ^ w) : beNat (beBytes w n) = n := by
  rw [beNat, beBytes, List.reverse_reverse, leNat_leBytes, Nat.mod_eq_of_lt h]

theorem beBytes_beNat {w : ℕ} {bs : List UInt8} (h : bs.length = w) :
    beBytes w (beNat bs) = bs := by
  have hlen : bs.reverse.length = w := by rw [List.length_reverse, h]
  rw [beNat, beBytes, ← hlen, leBytes_leNat, List.reverse_reverse]

theorem beNat_lt {w : ℕ} {bs : List UInt8} (h : bs.length = w) : beNat bs < 256 ^ w := by
  have := leNat_lt bs.reverse
  rwa [List.length_reverse, h] at this

/-! ## 64-bit words -/

/-- A 64-bit word, most significant byte first. -/
def u64BeBytes (n : UInt64) : List UInt8 := beBytes 8 n.toNat

/-- The 64-bit word with these bytes, most significant first. -/
def u64OfBeBytes (bs : List UInt8) : UInt64 := UInt64.ofNat (beNat bs)

@[simp] theorem length_u64BeBytes (n : UInt64) : (u64BeBytes n).length = 8 :=
  length_beBytes 8 _

@[simp] theorem u64OfBeBytes_u64BeBytes (n : UInt64) : u64OfBeBytes (u64BeBytes n) = n := by
  have h : n.toNat < 256 ^ 8 := n.toNat_lt
  rw [u64OfBeBytes, u64BeBytes, beNat_beBytes_of_lt h, UInt64.ofNat_toNat]

theorem u64BeBytes_u64OfBeBytes {bs : List UInt8} (h : bs.length = 8) :
    u64BeBytes (u64OfBeBytes bs) = bs := by
  have hlt : beNat bs < 2 ^ 64 := beNat_lt h
  rw [u64BeBytes, u64OfBeBytes, UInt64.toNat_ofNat', Nat.mod_eq_of_lt hlt, beBytes_beNat h]

theorem take_u64BeBytes_append (n : UInt64) (l : List UInt8) :
    (u64BeBytes n ++ l).take 8 = u64BeBytes n :=
  List.take_left' (length_u64BeBytes n)

theorem drop_u64BeBytes_append (n : UInt64) (l : List UInt8) (k : ℕ) :
    (u64BeBytes n ++ l).drop (8 + k) = l.drop k := by
  rw [← List.drop_drop, List.drop_left' (length_u64BeBytes n)]

/-! ## 16-bit samples -/

/-- A 16-bit two's-complement word, least significant byte first. -/
def i16LeBytes (s : Int16) : List UInt8 := leBytes 2 s.toUInt16.toNat

/-- The 16-bit two's-complement word with these bytes, least significant first. -/
def i16OfLeBytes (bs : List UInt8) : Int16 := (UInt16.ofNat (leNat bs)).toInt16

/-- The 16-bit words of a list of bytes taken two at a time; an odd last byte is dropped. -/
def i16sOfLeBytes : List UInt8 → List Int16
  | lo :: hi :: rest => i16OfLeBytes [lo, hi] :: i16sOfLeBytes rest
  | _ => []

@[simp] theorem i16OfLeBytes_i16LeBytes (s : Int16) : i16OfLeBytes (i16LeBytes s) = s := by
  have h : s.toUInt16.toNat < 256 ^ 2 := s.toUInt16.toNat_lt
  rw [i16OfLeBytes, i16LeBytes, leNat_leBytes, Nat.mod_eq_of_lt h, UInt16.ofNat_toNat,
    Int16.toInt16_toUInt16]

theorem i16LeBytes_i16OfLeBytes (lo hi : UInt8) :
    i16LeBytes (i16OfLeBytes [lo, hi]) = [lo, hi] := by
  have hlt : leNat [lo, hi] < 2 ^ 16 := by
    have := leNat_lt [lo, hi]
    simp only [List.length_cons, List.length_nil] at this
    omega
  rw [i16LeBytes, i16OfLeBytes, UInt16.toUInt16_toInt16, UInt16.toNat_ofNat',
    Nat.mod_eq_of_lt hlt]
  exact leBytes_leNat [lo, hi]

theorem i16LeBytes_eq (s : Int16) : ∃ lo hi, i16LeBytes s = [lo, hi] :=
  ⟨_, _, rfl⟩

@[simp] theorem length_flatMap_i16LeBytes (l : List Int16) :
    (l.flatMap i16LeBytes).length = 2 * l.length := by
  induction l with
  | nil => rfl
  | cons s l ih =>
    rw [List.flatMap_cons, List.length_append, ih, List.length_cons, i16LeBytes, length_leBytes]
    omega

@[simp] theorem i16sOfLeBytes_flatMap (l : List Int16) :
    i16sOfLeBytes (l.flatMap i16LeBytes) = l := by
  induction l with
  | nil => rfl
  | cons s l ih =>
    obtain ⟨lo, hi, hs⟩ := i16LeBytes_eq s
    rw [List.flatMap_cons, hs]
    simp only [List.cons_append, List.nil_append, i16sOfLeBytes, ih]
    rw [← hs, i16OfLeBytes_i16LeBytes]

theorem length_i16sOfLeBytes : ∀ (n : ℕ) (bs : List UInt8), bs.length = 2 * n →
    (i16sOfLeBytes bs).length = n
  | 0, bs, h => by
    obtain rfl := List.length_eq_zero_iff.1 h
    rfl
  | n + 1, lo :: hi :: bs, h => by
    simp only [List.length_cons] at h
    rw [i16sOfLeBytes, List.length_cons, length_i16sOfLeBytes n bs (by omega)]

theorem flatMap_i16sOfLeBytes : ∀ (n : ℕ) (bs : List UInt8), bs.length = 2 * n →
    (i16sOfLeBytes bs).flatMap i16LeBytes = bs
  | 0, bs, h => by
    obtain rfl := List.length_eq_zero_iff.1 h
    rfl
  | n + 1, lo :: hi :: bs, h => by
    simp only [List.length_cons] at h
    rw [i16sOfLeBytes, List.flatMap_cons, i16LeBytes_i16OfLeBytes,
      flatMap_i16sOfLeBytes n bs (by omega)]
    rfl

end Bytes
