import Mathlib.Data.List.Basic
import Mathlib.Data.List.Forall2
import Mathlib.Data.Option.Basic

/-!
# Walks over pages

A reader asks for a page, follows the cursor it comes with, and stops at a page without one; `walk`
is everything it reads, or nothing if a cursor is refused or the pages never end. `offsetPage` pages
a list by offset, refuses offsets past a ceiling, and issues none past a cap: its walk reads the
list exactly when the last page starts below the ceiling (`exists_walk_offsetPage`,
`length_lt_of_walk_offsetPage`). Walks of related pages are related (`walk_rel`).
-/

universe u v w

namespace Paging

variable {κ : Type u} {α : Type v}

/-- What `fuel` requests from cursor `k` on read, if the last of them is answered without a
cursor. -/
def walk (page : κ → Option (List α × Option κ)) : ℕ → κ → Option (List α)
  | 0, _ => none
  | fuel + 1, k =>
    match page k with
    | none => none
    | some (items, none) => some items
    | some (items, some next) => (walk page fuel next).map (items ++ ·)

theorem walk_succ_last {page : κ → Option (List α × Option κ)} {k : κ} {items : List α}
    (h : page k = some (items, none)) (fuel : ℕ) : walk page (fuel + 1) k = some items := by
  simp only [walk, h]

theorem walk_succ_next {page : κ → Option (List α × Option κ)} {k next : κ} {items : List α}
    (h : page k = some (items, some next)) (fuel : ℕ) :
    walk page (fuel + 1) k = (walk page fuel next).map (items ++ ·) := by
  simp only [walk, h]

/-- Where each answer of `page` is matched by one of `q`, so is each walk. -/
theorem walk_rel {κ' : Type u} {β : Type w} {page : κ → Option (List α × Option κ)}
    {q : κ' → Option (List β × Option κ')} {R : κ → κ' → Prop} {S : α → β → Prop}
    (hpage : ∀ k k', R k k' → ∀ items next, page k = some (items, next) →
      ∃ items' next', q k' = some (items', next') ∧ List.Forall₂ S items items'
        ∧ Option.Rel R next next') :
    ∀ {fuel : ℕ} {k : κ} {k' : κ'} {items : List α}, R k k' → walk page fuel k = some items →
      ∃ items', walk q fuel k' = some items' ∧ List.Forall₂ S items items'
  | 0, k, k', items, _, h => by simp [walk] at h
  | fuel + 1, k, k', items, hk, h => by
    rcases hk' : page k with - | ⟨front, next⟩
    · simp [walk, hk'] at h
    obtain ⟨front', next', hq, hfront, hnext⟩ := hpage k k' hk front next hk'
    cases hnext with
    | none =>
      rw [walk_succ_last hk', Option.some.injEq] at h
      exact ⟨front', walk_succ_last hq fuel, h ▸ hfront⟩
    | some hnext =>
      rw [walk_succ_next hk', Option.map_eq_some_iff] at h
      obtain ⟨rest, hrest, rfl⟩ := h
      obtain ⟨rest', hrest', hrel⟩ := walk_rel hpage hnext hrest
      refine ⟨front' ++ rest', ?_, List.rel_append hfront hrel⟩
      rw [walk_succ_next hq, hrest']
      rfl

/-! ## Paging by offset -/

/-- The page of `limit` rows from `offset` on. -/
def offsetPage (rows : List α) (limit ceiling cap offset : ℕ) : Option (List α × Option ℕ) :=
  if offset ≤ ceiling then
    some ((rows.drop offset).take limit,
      if offset + limit < rows.length then some (min (offset + limit) cap) else none)
  else none

/-- The offset of the last page that has rows. -/
def lastStart (length limit : ℕ) : ℕ := limit * ((length - 1) / limit)

variable {rows : List α} {limit ceiling cap offset : ℕ}

theorem offsetPage_last (hoffset : offset ≤ ceiling) (h : rows.length ≤ offset + limit) :
    offsetPage rows limit ceiling cap offset = some (rows.drop offset, none) := by
  have htake : (rows.drop offset).take limit = rows.drop offset :=
    List.take_of_length_le (by rw [List.length_drop]; omega)
  rw [offsetPage, if_pos hoffset, if_neg (by omega), htake]

theorem offsetPage_next (hoffset : offset ≤ ceiling) (h : offset + limit < rows.length) :
    offsetPage rows limit ceiling cap offset
      = some ((rows.drop offset).take limit, some (min (offset + limit) cap)) := by
  rw [offsetPage, if_pos hoffset, if_pos h]

/-- A page that is not the last is followed by one that starts no later than the last. -/
theorem add_le_lastStart (hlimit : 0 < limit) {length : ℕ} (hdvd : limit ∣ offset)
    (h : offset + limit < length) : offset + limit ≤ lastStart length limit := by
  obtain ⟨j, rfl⟩ := hdvd
  rw [lastStart, ← Nat.mul_succ]
  refine Nat.mul_le_mul_left limit ((Nat.le_div_iff_mul_le hlimit).2 ?_)
  rw [Nat.succ_mul, Nat.mul_comm]
  omega

theorem lastStart_lt (limit : ℕ) {length : ℕ} (h : 0 < length) :
    lastStart length limit < length := by
  have := Nat.mul_div_le (length - 1) limit
  rw [lastStart]
  omega

/-- Where the last page starts below the ceiling, a walk from any page reads the rest. -/
theorem exists_walk_offsetPage (hlimit : 0 < limit) (hcap : ceiling ≤ cap)
    (hlast : lastStart rows.length limit ≤ ceiling) (offset : ℕ) (hdvd : limit ∣ offset)
    (hoffset : offset ≤ lastStart rows.length limit) :
    ∃ fuel, walk (offsetPage rows limit ceiling cap) fuel offset = some (rows.drop offset) := by
  by_cases hmore : offset + limit < rows.length
  · have hnext := add_le_lastStart hlimit hdvd hmore
    obtain ⟨fuel, hfuel⟩ := exists_walk_offsetPage hlimit hcap hlast (offset + limit)
      (Nat.dvd_add hdvd (Nat.dvd_refl limit)) hnext
    refine ⟨fuel + 1, ?_⟩
    rw [walk_succ_next (offsetPage_next (by omega) hmore), Nat.min_eq_left (by omega), hfuel,
      Option.map_some, ← List.drop_drop, List.take_append_drop]
  · exact ⟨1, walk_succ_last (offsetPage_last (by omega) (by omega)) 0⟩
termination_by rows.length - offset

/-- A walk from the cap on reads at least the rest. -/
theorem le_length_of_walk_cap : ∀ {fuel : ℕ} {items : List α},
    walk (offsetPage rows limit cap cap) fuel cap = some items → rows.length - cap ≤ items.length
  | 0, items, h => by simp [walk] at h
  | fuel + 1, items, h => by
    by_cases hmore : cap + limit < rows.length
    · rw [walk_succ_next (offsetPage_next (Nat.le_refl _) hmore), Nat.min_eq_right (by omega),
        Option.map_eq_some_iff] at h
      obtain ⟨rest, hrest, rfl⟩ := h
      have := le_length_of_walk_cap hrest
      rw [List.length_append]
      omega
    · rw [walk_succ_last (offsetPage_last (Nat.le_refl _) (by omega)), Option.some.injEq] at h
      exact h ▸ Nat.le_of_eq List.length_drop.symm

/-- Where the last page starts past the ceiling, a walk that ends has read rows twice. -/
theorem length_lt_of_walk_offsetPage (hlimit : 0 < limit)
    (hcap : ceiling = cap ∨ ceiling + limit ≤ cap)
    (hlast : ceiling < lastStart rows.length limit) : ∀ {fuel offset : ℕ} {items : List α},
    limit ∣ offset → offset ≤ ceiling →
    walk (offsetPage rows limit ceiling cap) fuel offset = some items →
    rows.length - offset < items.length
  | 0, offset, items, _, _, h => by simp [walk] at h
  | fuel + 1, offset, items, hdvd, hoffset, h => by
    have hlength : lastStart rows.length limit < rows.length := by
      rcases Nat.eq_zero_or_pos rows.length with hzero | hpos
      · rw [hzero, lastStart] at hlast
        simp at hlast
      · exact lastStart_lt limit hpos
    have hmore : offset + limit < rows.length := by
      by_contra hle
      obtain ⟨j, rfl⟩ := hdvd
      have hj : (rows.length - 1) / limit < j + 1 := by
        rw [Nat.div_lt_iff_lt_mul hlimit, Nat.add_mul, Nat.one_mul, Nat.mul_comm]
        omega
      have := Nat.mul_le_mul_left limit (Nat.lt_succ_iff.1 hj)
      rw [lastStart] at hlast
      omega
    rw [walk_succ_next (offsetPage_next hoffset hmore), Option.map_eq_some_iff] at h
    obtain ⟨rest, hrest, rfl⟩ := h
    have hfront : ((rows.drop offset).take limit).length = limit := by
      rw [List.length_take, List.length_drop]
      omega
    rw [List.length_append, hfront]
    by_cases hnext : offset + limit ≤ ceiling
    · rw [Nat.min_eq_left (by omega)] at hrest
      have := length_lt_of_walk_offsetPage hlimit hcap hlast
        (Nat.dvd_add hdvd (Nat.dvd_refl limit)) hnext hrest
      omega
    · rcases hcap with rfl | hcap
      · rw [Nat.min_eq_right (by omega)] at hrest
        have := le_length_of_walk_cap hrest
        omega
      · rw [Nat.min_eq_left (by omega)] at hrest
        cases fuel <;> simp [walk, offsetPage, hnext] at hrest

end Paging
