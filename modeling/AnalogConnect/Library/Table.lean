import Mathlib.Data.List.Nodup

/-!
# Keyed tables

A table is a list of rows no two of which share a key, as under a `PRIMARY KEY` or a `UNIQUE`
column. The operations are a database's: `upsert` is `INSERT ... ON CONFLICT (key) DO UPDATE`,
`modify` an `UPDATE` that leaves the key alone, `delete` a `DELETE`. Each comes with what it does
to the row of a key (`find?`).
-/

universe u v

/-- Rows with distinct keys. -/
structure Table {α : Type u} {κ : Type v} (key : α → κ) where
  rows : List α
  nodup : (rows.map key).Nodup

namespace Table

variable {α : Type u} {κ : Type v} [DecidableEq κ] {key : α → κ}

def empty : Table key := ⟨[], List.nodup_nil⟩

/-- The row with a key. -/
def find? (t : Table key) (k : κ) : Option α := t.rows.find? fun a => key a = k

theorem find?_eq_some {t : Table key} {k : κ} {a : α} :
    t.find? k = some a ↔ a ∈ t.rows ∧ key a = k := by
  constructor
  · intro h
    exact ⟨List.mem_of_find?_eq_some h, by simpa using List.find?_some h⟩
  · rintro ⟨ha, rfl⟩
    rcases hfind : t.find? (key a) with - | b
    · have := List.find?_eq_none.1 hfind a ha
      simp at this
    · have hb : key b = key a := by simpa using List.find?_some hfind
      rw [List.inj_on_of_nodup_map t.nodup (List.mem_of_find?_eq_some hfind) ha hb]

theorem find?_eq_none {t : Table key} {k : κ} : t.find? k = none ↔ ∀ a ∈ t.rows, key a ≠ k := by
  simp [find?, List.find?_eq_none]

/-- The rows that satisfy `p` change by `f`, which keeps their keys. -/
def modify (t : Table key) (p : α → Bool) (f : α → α) (hf : ∀ a, key (f a) = key a) :
    Table key where
  rows := t.rows.map fun a => if p a then f a else a
  nodup := by
    have hkey : (key ∘ fun a => if p a then f a else a) = key := by
      funext a
      simp only [Function.comp_apply]
      split_ifs
      · exact hf a
      · rfl
    rw [List.map_map, hkey]
    exact t.nodup

theorem find?_modify (t : Table key) (p : α → Bool) (f : α → α) (hf : ∀ a, key (f a) = key a)
    (k : κ) :
    (t.modify p f hf).find? k = (t.find? k).map fun a => if p a then f a else a := by
  have hkey : ((fun a => decide (key a = k)) ∘ fun a => if p a then f a else a)
      = fun a => decide (key a = k) := by
    funext a
    simp only [Function.comp_apply]
    split_ifs
    · rw [hf]
    · rfl
  rw [find?, modify, List.find?_map, hkey]
  rfl

/-- The rows that satisfy `p` go. -/
def delete (t : Table key) (p : α → Bool) : Table key where
  rows := t.rows.filter fun a => !p a
  nodup := t.nodup.sublist (List.filter_sublist.map key)

theorem find?_delete (t : Table key) (p : α → Bool) (k : κ) :
    (t.delete p).find? k = (t.find? k).filter fun a => !p a := by
  ext a
  rw [Option.filter_eq_some_iff, find?_eq_some, find?_eq_some, delete, List.mem_filter]
  tauto

/-- The row with the key `old` gets the key `new`, which no other row has. -/
def rekey (t : Table key) (old new : κ) (f : α → α) (hf : ∀ a, key a = old → key (f a) = new)
    (hnew : new = old ∨ t.find? new = none) : Table key where
  rows := t.rows.map fun a => if key a = old then f a else a
  nodup := by
    rw [List.map_map]
    refine List.Nodup.map_on (fun a ha b hb hab => ?_) (List.Nodup.of_map key t.nodup)
    have hfresh : ∀ c ∈ t.rows, key c = new → key c = old := fun c hc hkey => by
      rcases hnew with rfl | hnone
      · exact hkey
      · exact absurd hkey (find?_eq_none.1 hnone c hc)
    simp only [Function.comp_apply] at hab
    refine List.inj_on_of_nodup_map t.nodup ha hb ?_
    split_ifs at hab with hx hy hy
    · rw [hx, hy]
    · rw [hf a hx] at hab
      exact absurd (hfresh b hb hab.symm) hy
    · rw [hf b hy] at hab
      exact absurd (hfresh a ha hab) hx
    · exact hab

theorem find?_rekey {t : Table key} {old new : κ} {f : α → α}
    (hf : ∀ a, key a = old → key (f a) = new) (hnew : new = old ∨ t.find? new = none) (k : κ) :
    (t.rekey old new f hf hnew).find? k
      = if k = new then (t.find? old).map f else if k = old then none else t.find? k := by
  have hfresh : ∀ c ∈ t.rows, key c = new → key c = old := fun c hc hkey => by
    rcases hnew with rfl | hnone
    · exact hkey
    · exact absurd hkey (find?_eq_none.1 hnone c hc)
  ext a
  rw [find?_eq_some, rekey, List.mem_map]
  split_ifs with hk hk'
  · subst hk
    simp only [Option.map_eq_some_iff, find?_eq_some]
    constructor
    · rintro ⟨⟨b, hb, rfl⟩, hkey⟩
      by_cases hold : key b = old
      · exact ⟨b, ⟨hb, hold⟩, by rw [if_pos hold]⟩
      · rw [if_neg hold] at hkey
        exact absurd (hfresh b hb hkey) hold
    · rintro ⟨b, ⟨hb, hold⟩, rfl⟩
      exact ⟨⟨b, hb, by rw [if_pos hold]⟩, hf b hold⟩
  · subst hk'
    simp only [iff_false, not_and]
    rintro ⟨b, -, rfl⟩ hkey
    split_ifs at hkey with hold
    · exact hk (hkey.symm.trans (hf b hold))
    · exact hold hkey
  · rw [find?_eq_some]
    constructor
    · rintro ⟨⟨b, hb, rfl⟩, hkey⟩
      split_ifs at hkey ⊢ with hold
      · exact absurd (hkey.symm.trans (hf b hold)) hk
      · exact ⟨hb, hkey⟩
    · rintro ⟨ha, rfl⟩
      exact ⟨⟨a, ha, by rw [if_neg hk']⟩, rfl⟩

/-- A row with a new key goes to the end. -/
def insert (t : Table key) (a : α) (h : t.find? (key a) = none) : Table key where
  rows := t.rows ++ [a]
  nodup := by
    rw [List.map_append, List.nodup_append]
    refine ⟨t.nodup, by simp, fun x hx y hy => ?_⟩
    obtain ⟨b, hb, rfl⟩ := List.mem_map.1 hx
    rw [List.map_singleton, List.mem_singleton] at hy
    exact hy ▸ find?_eq_none.1 h b hb

theorem find?_insert (t : Table key) {a : α} (h : t.find? (key a) = none) (k : κ) :
    (t.insert a h).find? k = if k = key a then some a else t.find? k := by
  rw [find?, insert, List.find?_append]
  split_ifs with hk
  · subst hk
    change ((t.find? (key a)).or _) = _
    rw [h]
    simp
  · change ((t.find? k).or _) = _
    simp [Ne.symm hk]

/-- The row with `a`'s key changes by `merge`, or there is none and `a` goes to the end. -/
def upsert (t : Table key) (a : α) (merge : α → α) (hmerge : ∀ b, key (merge b) = key b) :
    Table key :=
  if h : t.find? (key a) = none then t.insert a h
  else t.modify (fun b => key b = key a) merge hmerge

theorem find?_upsert (t : Table key) (a : α) (merge : α → α)
    (hmerge : ∀ b, key (merge b) = key b) (k : κ) :
    (t.upsert a merge hmerge).find? k
      = if k = key a then some ((t.find? k).elim a merge) else t.find? k := by
  by_cases hnone : t.find? (key a) = none
  · rw [upsert, dif_pos hnone, find?_insert]
    split_ifs with hk
    · rw [hk, hnone]
      rfl
    · rfl
  · rw [upsert, dif_neg hnone, find?_modify]
    split_ifs with hk
    · obtain ⟨b, hb⟩ := Option.ne_none_iff_exists'.1 hnone
      rw [hk, hb]
      simp [(find?_eq_some.1 hb).2]
    · rcases hfind : t.find? k with - | b
      · rfl
      · simp [(find?_eq_some.1 hfind).2, hk]

/-! ## What an operation leaves of the rows -/

variable {β : Type*}

omit [DecidableEq κ] in
theorem map_rows_modify (t : Table key) (p : α → Bool) (f : α → α) (hf : ∀ a, key (f a) = key a)
    {g : α → β} (hg : ∀ a, g (f a) = g a) : (t.modify p f hf).rows.map g = t.rows.map g := by
  rw [modify, List.map_map]
  refine List.map_congr_left fun a _ => ?_
  simp only [Function.comp_apply]
  split_ifs
  · exact hg a
  · rfl

theorem map_rows_rekey (t : Table key) (old new : κ) (f : α → α)
    (hf : ∀ a, key a = old → key (f a) = new) (hnew : new = old ∨ t.find? new = none) {g : α → β}
    (hg : ∀ a, g (f a) = g a) : (t.rekey old new f hf hnew).rows.map g = t.rows.map g := by
  rw [rekey, List.map_map]
  refine List.map_congr_left fun a _ => ?_
  simp only [Function.comp_apply]
  split_ifs
  · exact hg a
  · rfl

theorem map_rows_upsert (t : Table key) (a : α) (merge : α → α)
    (hmerge : ∀ b, key (merge b) = key b) {g : α → β} (hg : ∀ b, g (merge b) = g b) :
    (t.upsert a merge hmerge).rows.map g
      = t.rows.map g ++ if t.find? (key a) = none then [g a] else [] := by
  by_cases hnone : t.find? (key a) = none
  · rw [upsert, dif_pos hnone, if_pos hnone, insert, List.map_append, List.map_singleton]
  · rw [upsert, dif_neg hnone, if_neg hnone, t.map_rows_modify _ _ _ hg, List.append_nil]

end Table
