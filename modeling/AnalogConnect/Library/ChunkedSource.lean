import Mathlib.Data.List.Basic
import Mathlib.Algebra.Group.Nat.Defs

/-!
# Sources that deliver in pieces

A source answers each read with some of what it has, with an interruption, or with a failure. A
buffer is filled by reading until it is full, an interrupted read being made again. Where the source
does not fail, what is in the buffer does not depend on the pieces (`ChunkedSource.fill_full`,
`ChunkedSource.fill_ended`).
-/

universe u

namespace ChunkedSource

/-- What a source has next: at least one element, an interruption, or a failure. -/
inductive Piece (α : Type u)
  | chunk (first : α) (rest : List α)
  | interrupted
  | failed

/-- A buffer that was filled, one that the source ended in, or a failure. -/
inductive Filled (α : Type u)
  | full (buffer : List α)
  | ended (buffer : List α)
  | failed

variable {α : Type u}

/-- Reads into a buffer that holds `filled` and has `room` for more. A read takes no more than there
is room for, and leaves the rest of its piece. -/
def fill (filled : List α) : ℕ → List (Piece α) → Filled α × List (Piece α)
  | 0, pieces => (.full filled, pieces)
  | _ + 1, [] => (.ended filled, [])
  | room + 1, .interrupted :: pieces => fill filled (room + 1) pieces
  | _ + 1, .failed :: pieces => (.failed, pieces)
  | room + 1, .chunk first rest :: pieces =>
    match rest.drop room with
    | [] => fill (filled ++ first :: rest) (room - rest.length) pieces
    | first' :: rest' =>
      (.full (filled ++ first :: rest.take room), .chunk first' rest' :: pieces)

/-- All that the pieces hold. -/
def delivered : List (Piece α) → List α
  | [] => []
  | .chunk first rest :: pieces => first :: rest ++ delivered pieces
  | .interrupted :: pieces | .failed :: pieces => delivered pieces

/-- The source does not fail. -/
def Sound (pieces : List (Piece α)) : Prop := .failed ∉ pieces

theorem Sound.tail {piece : Piece α} {pieces : List (Piece α)} (h : Sound (piece :: pieces)) :
    Sound pieces := fun hmem => h (List.mem_cons_of_mem piece hmem)

theorem Sound.cons_chunk {first : α} {rest : List α} {pieces : List (Piece α)}
    (h : Sound pieces) : Sound (.chunk first rest :: pieces) := by
  intro hmem
  rcases List.mem_cons.1 hmem with hmem | hmem
  · cases hmem
  · exact h hmem

theorem sound_replicate_chunk (n : ℕ) (first : α) (rest : List α) :
    Sound (List.replicate n (.chunk first rest)) := by
  intro hmem
  have := List.eq_of_mem_replicate hmem
  cases this

theorem delivered_replicate_chunk (first : α) (rest : List α) : ∀ n : ℕ,
    delivered (List.replicate n (.chunk first rest)) =
      (List.replicate n (first :: rest)).flatten
  | 0 => rfl
  | n + 1 => by
    rw [List.replicate_succ, List.replicate_succ, delivered, List.flatten_cons,
      delivered_replicate_chunk first rest n]

variable {pieces : List (Piece α)}

/-- A piece that reaches past the room left fills it, and its rest stays. -/
theorem take_drop_chunk {room : ℕ} (first : α) {first' : α} {rest rest' : List α}
    (elements : List α) (h : rest.drop room = first' :: rest') :
    (first :: rest ++ elements).take (room + 1) = first :: rest.take room ∧
      (first :: rest ++ elements).drop (room + 1) = first' :: rest' ++ elements := by
  have hle : room ≤ rest.length := by
    have hlength := congrArg List.length h
    rw [List.length_drop, List.length_cons] at hlength
    omega
  rw [List.cons_append, List.take_succ_cons, List.drop_succ_cons,
    List.take_append_of_le_length hle, List.drop_append_of_le_length hle, h]
  exact ⟨rfl, rfl⟩

/-- A buffer that the source has enough for is filled with its next elements. -/
theorem fill_full (hsound : Sound pieces) : ∀ {room : ℕ} (filled : List α),
    room ≤ (delivered pieces).length →
      ∃ pieces', fill filled room pieces =
          (.full (filled ++ (delivered pieces).take room), pieces') ∧
        delivered pieces' = (delivered pieces).drop room ∧ Sound pieces' := by
  induction pieces with
  | nil =>
    intro room filled h
    obtain rfl : room = 0 := by simpa [delivered] using h
    exact ⟨[], by simp [fill], rfl, hsound⟩
  | cons piece pieces ih =>
    rintro (- | room) filled h
    · exact ⟨piece :: pieces, by simp [fill], rfl, hsound⟩
    cases piece with
    | interrupted => exact ih hsound.tail filled h
    | failed => exact absurd List.mem_cons_self hsound
    | chunk first rest =>
      rw [fill, delivered]
      split
      · rename_i hrest
        have hle : rest.length ≤ room := List.drop_eq_nil_iff.1 hrest
        have hroom : room - rest.length ≤ (delivered pieces).length := by
          rw [delivered, List.length_append, List.length_cons] at h
          omega
        obtain ⟨pieces', hfill, hdelivered, hsound'⟩ :=
          ih hsound.tail (filled ++ first :: rest) hroom
        refine ⟨pieces', ?_, ?_, hsound'⟩
        · rw [hfill, List.cons_append, List.take_succ_cons, List.take_append,
            List.take_of_length_le hle]
          simp
        · rw [hdelivered, List.cons_append, List.drop_succ_cons, List.drop_append, hrest,
            List.nil_append]
      · rename_i first' rest' hrest
        obtain ⟨htake, hdrop⟩ := take_drop_chunk first (delivered pieces) hrest
        exact ⟨.chunk first' rest' :: pieces, by rw [htake], hdrop.symm, hsound.tail.cons_chunk⟩

/-- A buffer that the source has not enough for holds all there was when it ended. -/
theorem fill_ended (hsound : Sound pieces) : ∀ {room : ℕ} (filled : List α),
    (delivered pieces).length < room →
      fill filled room pieces = (.ended (filled ++ delivered pieces), []) := by
  induction pieces with
  | nil =>
    rintro (- | room) filled h
    · simp at h
    · simp [fill, delivered]
  | cons piece pieces ih =>
    rintro (- | room) filled h
    · simp at h
    cases piece with
    | interrupted => exact ih hsound.tail filled h
    | failed => exact absurd List.mem_cons_self hsound
    | chunk first rest =>
      rw [delivered, List.length_append, List.length_cons] at h
      have hrest : rest.drop room = [] := List.drop_eq_nil_iff.2 (by omega)
      rw [fill, hrest]
      dsimp only
      rw [ih hsound.tail _ (by omega), delivered]
      simp

end ChunkedSource
