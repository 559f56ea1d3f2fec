import Mathlib.Data.List.Infix

/-!
# Pages of a list that grows

A reader asks for a list in pages of one size, each by its offset, and stops at a page that is not
full. The list may have grown at its front between two pages (`Growing`): what moved on is read
again, and nothing is passed over (`mem_of_mem_take`) but what the growth pushed past the last page.
-/

universe u

namespace OffsetPages

variable {α : Type u}

/-- What the pages from the `i`-th on read, and the number of the page that would come next; the
list is `snap i` when page `i` is read. -/
def read (size : ℕ) (snap : ℕ → List α) : ℕ → ℕ → List α × ℕ
  | 0, i => ([], i)
  | fuel + 1, i =>
    let page := ((snap i).drop (i * size)).take size
    if page.length < size then (page, i + 1)
    else ((page ++ (read size snap fuel (i + 1)).1), (read size snap fuel (i + 1)).2)

/-- New entries come in front, up to `last`. -/
def Growing (snap : ℕ → List α) (last : ℕ) : Prop := ∀ i < last, snap i <:+ snap (i + 1)

section

variable {size last : ℕ} {snap : ℕ → List α}

theorem Growing.le (h : Growing snap last) {i j : ℕ} (hij : i ≤ j) (hj : j ≤ last) :
    snap i <:+ snap j := by
  induction j, hij using Nat.le_induction with
  | base => exact List.suffix_rfl
  | succ j _ ih => exact (ih (Nat.le_of_succ_le hj)).trans (h j hj)

/-- An entry moves on by what came in front of it. -/
theorem Growing.getElem? (h : Growing snap last) {i j p : ℕ} {a : α} (hij : i ≤ j) (hj : j ≤ last)
    (ha : (snap i)[p]? = some a) :
    (snap j)[p + ((snap j).length - (snap i).length)]? = some a := by
  obtain ⟨new, hnew⟩ := h.le hij hj
  have hlength : (snap j).length - (snap i).length = new.length := by
    rw [← hnew, List.length_append]
    omega
  rw [hlength, ← hnew, List.getElem?_append_right (by omega), Nat.add_sub_cancel]
  exact ha

theorem le_read_snd (fuel i : ℕ) : i ≤ (read size snap fuel i).2 := by
  induction fuel generalizing i with
  | zero => exact le_rfl
  | succ fuel ih =>
    rw [read]
    split_ifs
    · exact Nat.le_succ i
    · exact (Nat.le_succ i).trans (ih (i + 1))

/-- Page `i` on reads the entry at `p`, which page `i` or a later one starts at or before, unless
the growth pushed it past the last page. -/
theorem mem_read_of_getElem? (h : Growing snap last) {a : α} (fuel i p : ℕ)
    (hlast : (read size snap fuel i).2 ≤ last) (hi : i * size ≤ p) (ha : (snap i)[p]? = some a)
    (hlt : p + ((snap (read size snap fuel i).2).length - (snap i).length) < (i + fuel) * size) :
    a ∈ (read size snap fuel i).1 := by
  induction fuel generalizing i p with
  | zero =>
    rw [Nat.add_zero] at hlt
    omega
  | succ fuel ih =>
    have hp : p < (snap i).length := (List.getElem?_eq_some_iff.1 ha).1
    have hin : p < i * size + size → a ∈ ((snap i).drop (i * size)).take size := by
      intro hlt
      have hget : (((snap i).drop (i * size)).take size)[p - i * size]? = some a := by
        rw [List.getElem?_take_of_lt (by omega), List.getElem?_drop, Nat.add_sub_cancel' hi, ha]
      exact List.mem_of_getElem? hget
    rw [read] at hlt hlast ⊢
    split_ifs at hlt hlast ⊢ with hshort
    · refine hin ?_
      rw [List.length_take, List.length_drop] at hshort
      omega
    · rw [List.mem_append]
      by_cases hpage : p < i * size + size
      · exact .inl (hin hpage)
      · have hnext : (i + 1) * size = i * size + size := Nat.succ_mul i size
        have hread : i + 1 ≤ (read size snap fuel (i + 1)).2 := le_read_snd fuel (i + 1)
        have hle : i ≤ i + 1 := Nat.le_succ i
        have hlen := (h.le hle (hread.trans hlast)).length_le
        have hlen' := (h.le hread hlast).length_le
        have hfuel : i + 1 + fuel = i + (fuel + 1) := by omega
        refine .inr (ih (i + 1) _ hlast ?_ (h.getElem? hle (hread.trans hlast) ha) ?_)
        · omega
        · rw [hfuel]
          simp only at hlt
          omega

/-- A list that only grows at its front is read up to the last page that was asked for: of what it
held at the first page, all that had not been pushed past the last page when that was read. -/
theorem mem_of_mem_take {fuel : ℕ} (h : Growing snap (read size snap fuel 0).2) {a : α}
    (ha : a ∈ (snap 0).take
      (fuel * size - ((snap (read size snap fuel 0).2).length - (snap 0).length))) :
    a ∈ (read size snap fuel 0).1 := by
  obtain ⟨p, hp, rfl⟩ := List.mem_iff_getElem.1 ha
  rw [List.length_take] at hp
  have hp' : p < (snap 0).length := by omega
  refine mem_read_of_getElem? h fuel 0 p le_rfl (by omega) ?_ ?_
  · rw [List.getElem_take, List.getElem?_eq_getElem hp']
  · rw [Nat.zero_add]
    omega

end

end OffsetPages
