import AnalogConnect.Library.Bytes

/-!
# Tagged fields

A field is its id, the length of its value as two bytes, least significant first, and the value. A
record is the fields of a list of ids, in order. `scan` tells apart the three things the bytes
received so far can be: a whole record and what follows it (`scan_eq_complete_iff`), the beginning
of one (`scan_eq_incomplete_iff`), or neither, because some id is not the one due.
-/

namespace Tlv

open Bytes

/-- A value behind its length. -/
def sized (value : List UInt8) : List UInt8 := leBytes 2 value.length ++ value

/-- The fields of the ids with the values, one after the other. -/
def fields : List UInt8 → List (List UInt8) → List UInt8
  | id :: ids, value :: values => id :: (sized value ++ fields ids values)
  | _, _ => []

/-- There is a value for each id, and the length of each fits in two bytes. -/
structure Fits (ids : List UInt8) (values : List (List UInt8)) : Prop where
  length_eq : values.length = ids.length
  length_lt : ∀ value ∈ values, value.length < 256 ^ 2

/-- The value behind a length, and what follows it, once it is there. -/
def takeValue : List UInt8 → Option (List UInt8 × List UInt8)
  | lo :: hi :: rest =>
    if leNat [lo, hi] ≤ rest.length then
      some (rest.take (leNat [lo, hi]), rest.drop (leNat [lo, hi]))
    else none
  | _ => none

inductive Scan
  | complete (values : List (List UInt8)) (rest : List UInt8)
  | incomplete
  | malformed
deriving DecidableEq

/-- Puts a value in front of those of a whole record. -/
def Scan.cons (value : List UInt8) : Scan → Scan
  | .complete values rest => .complete (value :: values) rest
  | .incomplete => .incomplete
  | .malformed => .malformed

def scan : List UInt8 → List UInt8 → Scan
  | [], data => .complete [] data
  | _ :: _, [] => .incomplete
  | id :: ids, byte :: data =>
    if byte = id then
      match takeValue data with
      | none => .incomplete
      | some (value, rest) => (scan ids rest).cons value
    else .malformed

/-! ## Values -/

section

variable {data ext rest value : List UInt8}

theorem leNat_lengthBytes (h : value.length < 256 ^ 2) :
    leNat [UInt8.ofNat value.length, UInt8.ofNat (value.length / 256)] = value.length :=
  (leNat_leBytes 2 value.length).trans (Nat.mod_eq_of_lt h)

theorem takeValue_sized (h : value.length < 256 ^ 2) :
    takeValue (sized value ++ rest) = some (value, rest) := by
  change takeValue (UInt8.ofNat value.length :: UInt8.ofNat (value.length / 256) ::
    (value ++ rest)) = _
  rw [takeValue, leNat_lengthBytes h, if_pos (by simp), List.take_left, List.drop_left]

theorem takeValue_eq_some_iff :
    takeValue data = some (value, rest) ↔ value.length < 256 ^ 2 ∧ data = sized value ++ rest := by
  constructor
  · intro h
    unfold takeValue at h
    split at h
    · rename_i lo hi tail
      split_ifs at h with hlength
      obtain ⟨rfl, rfl⟩ := Prod.mk.inj (Option.some.inj h)
      have htake : (tail.take (leNat [lo, hi])).length = leNat [lo, hi] := by
        rw [List.length_take, Nat.min_eq_left hlength]
      refine ⟨by rw [htake]; exact leNat_lt [lo, hi], ?_⟩
      have hbytes : leBytes 2 (leNat [lo, hi]) = [lo, hi] := leBytes_leNat [lo, hi]
      rw [sized, htake, hbytes, List.append_assoc, List.take_append_drop]
      rfl
    · cases h
  · rintro ⟨hvalue, rfl⟩
    exact takeValue_sized hvalue

theorem takeValue_append (h : takeValue data = some (value, rest)) :
    takeValue (data ++ ext) = some (value, rest ++ ext) := by
  obtain ⟨hvalue, rfl⟩ := takeValue_eq_some_iff.1 h
  rw [List.append_assoc, takeValue_sized hvalue]

/-- A value that is not all there lacks some bytes. -/
theorem exists_ext_of_takeValue (h : takeValue data = none) :
    ∃ value ext, value.length < 256 ^ 2 ∧ ext ≠ [] ∧ data ++ ext = sized value := by
  unfold takeValue at h
  split at h
  · rename_i lo hi rest
    split_ifs at h with hlength
    have hlt : leNat [lo, hi] < 256 ^ 2 := leNat_lt [lo, hi]
    have hbytes : leBytes 2 (leNat [lo, hi]) = [lo, hi] := leBytes_leNat [lo, hi]
    let ext := List.replicate (leNat [lo, hi] - rest.length) (0 : UInt8)
    have hvalue : (rest ++ ext).length = leNat [lo, hi] := by
      rw [List.length_append, List.length_replicate]
      omega
    refine ⟨rest ++ ext, ext, by rw [hvalue]; exact hlt, ?_, ?_⟩
    · rw [← List.length_pos_iff, List.length_replicate]
      omega
    · rw [sized, hvalue, hbytes]
      rfl
  · rename_i hshort
    cases data with
    | nil => exact ⟨[], sized [], by decide, by decide, rfl⟩
    | cons lo data =>
      cases data with
      | nil =>
        have hbytes : leBytes 2 lo.toNat = [lo, 0] := by
          have := leBytes_leNat [lo, 0]
          simpa [leNat] using this
        have hlt := lo.toNat_lt
        refine ⟨List.replicate lo.toNat 0, 0 :: List.replicate lo.toNat 0, ?_, by simp, ?_⟩
        · rw [List.length_replicate]
          omega
        · rw [sized, List.length_replicate, hbytes]
          rfl
      | cons hi rest => exact absurd rfl (hshort lo hi rest)

end

/-! ## Whole records -/

section

variable {id : UInt8} {data ext rest value : List UInt8} {values : List (List UInt8)}

theorem fits_nil_iff : Fits [] values ↔ values = [] := by
  constructor
  · intro h
    exact List.length_eq_zero_iff.1 h.length_eq
  · rintro rfl
    exact ⟨rfl, by simp⟩

theorem fits_cons_iff {ids : List UInt8} : Fits (id :: ids) values ↔
    ∃ value values', values = value :: values' ∧ value.length < 256 ^ 2 ∧ Fits ids values' := by
  constructor
  · intro h
    cases values with
    | nil => exact absurd h.length_eq (by simp)
    | cons value values =>
      exact ⟨value, values, rfl, h.length_lt value List.mem_cons_self, Nat.succ.inj h.length_eq,
        fun v hv => h.length_lt v (List.mem_cons_of_mem _ hv)⟩
  · rintro ⟨value, values, rfl, hvalue, h⟩
    refine ⟨congrArg Nat.succ h.length_eq, fun v hv => ?_⟩
    rcases List.mem_cons.1 hv with rfl | hv
    · exact hvalue
    · exact h.length_lt v hv

theorem length_le_fields : ∀ {ids : List UInt8} {values : List (List UInt8)},
    values.length = ids.length → ∀ value ∈ values, value.length ≤ (fields ids values).length
  | [], values, h, value, hvalue => by
    rw [List.length_eq_zero_iff.1 h] at hvalue
    cases hvalue
  | id :: ids, [], h, value, hvalue => by
    cases hvalue
  | id :: ids, v :: values, h, value, hvalue => by
    rw [fields, List.length_cons, List.length_append, sized, List.length_append]
    rcases List.mem_cons.1 hvalue with rfl | hvalue
    · omega
    · have := length_le_fields (Nat.succ.inj h) value hvalue
      omega

theorem exists_fits (ids : List UInt8) : ∃ values, Fits ids values := by
  refine ⟨ids.map fun _ => [], List.length_map _, fun value hvalue => ?_⟩
  obtain ⟨-, -, rfl⟩ := List.mem_map.1 hvalue
  decide

theorem Scan.cons_eq_complete {s : Scan} (h : s.cons value = .complete values rest) :
    ∃ values', values = value :: values' ∧ s = .complete values' rest := by
  cases s with
  | complete values' rest' =>
    obtain ⟨rfl, rfl⟩ := Scan.complete.inj h
    exact ⟨values', rfl, rfl⟩
  | incomplete => cases h
  | malformed => cases h

theorem Scan.cons_eq_incomplete_iff {s : Scan} : s.cons value = .incomplete ↔ s = .incomplete := by
  cases s <;> simp [Scan.cons]

theorem Scan.cons_eq_malformed_iff {s : Scan} : s.cons value = .malformed ↔ s = .malformed := by
  cases s <;> simp [Scan.cons]

theorem scan_fields : ∀ {ids : List UInt8} {values : List (List UInt8)}, Fits ids values →
    scan ids (fields ids values ++ rest) = .complete values rest
  | [], values, h => by
    rw [fits_nil_iff.1 h]
    rfl
  | id :: ids, values, h => by
    obtain ⟨value, values, rfl, hvalue, h⟩ := fits_cons_iff.1 h
    rw [fields, List.cons_append, List.append_assoc, scan, if_pos rfl, takeValue_sized hvalue]
    simp only [scan_fields h, Scan.cons]

theorem fields_of_scan : ∀ {ids data : List UInt8} {values : List (List UInt8)},
    scan ids data = .complete values rest → Fits ids values ∧ data = fields ids values ++ rest
  | [], data, values, h => by
    obtain ⟨rfl, rfl⟩ := Scan.complete.inj h
    exact ⟨fits_nil_iff.2 rfl, rfl⟩
  | id :: ids, [], values, h => by
    cases h
  | id :: ids, byte :: data, values, h => by
    rw [scan] at h
    split_ifs at h with hid
    split at h
    · cases h
    rename_i value tail hvalue
    obtain ⟨hlength, rfl⟩ := takeValue_eq_some_iff.1 hvalue
    obtain ⟨values', rfl, hscan⟩ := Scan.cons_eq_complete h
    obtain ⟨hfits, rfl⟩ := fields_of_scan hscan
    refine ⟨fits_cons_iff.2 ⟨value, values', rfl, hlength, hfits⟩, ?_⟩
    rw [hid, fields, List.cons_append, List.append_assoc]

theorem scan_eq_complete_iff {ids : List UInt8} :
    scan ids data = .complete values rest ↔ Fits ids values ∧ data = fields ids values ++ rest := by
  constructor
  · exact fields_of_scan
  · rintro ⟨hfits, rfl⟩
    exact scan_fields hfits

end

/-! ## Beginnings of records -/

section

variable {data ext : List UInt8}

/-- A wrong id stays wrong. -/
theorem scan_append_of_malformed : ∀ {ids data : List UInt8}, scan ids data = .malformed →
    scan ids (data ++ ext) = .malformed
  | [], data, h => by
    cases h
  | id :: ids, [], h => by
    cases h
  | id :: ids, byte :: data, h => by
    rw [scan] at h
    rw [List.cons_append, scan]
    by_cases hid : byte = id
    · rw [if_pos hid] at h ⊢
      split at h
      · cases h
      rename_i value rest hvalue
      rw [Scan.cons_eq_malformed_iff] at h
      rw [takeValue_append hvalue]
      simp only [scan_append_of_malformed h, Scan.cons]
    · rw [if_neg hid]

/-- A record that is not all there lacks some bytes. -/
theorem exists_ext_of_scan : ∀ {ids data : List UInt8}, scan ids data = .incomplete →
    ∃ values ext, Fits ids values ∧ ext ≠ [] ∧ data ++ ext = fields ids values
  | [], data, h => by
    cases h
  | id :: ids, [], h => by
    obtain ⟨values, hfits⟩ := exists_fits (id :: ids)
    obtain ⟨value, values', rfl, -, -⟩ := fits_cons_iff.1 hfits
    exact ⟨_, fields (id :: ids) (value :: values'), hfits, by simp [fields], rfl⟩
  | id :: ids, byte :: data, h => by
    rw [scan] at h
    split_ifs at h with hid
    subst hid
    split at h
    · rename_i hvalue
      obtain ⟨value, ext, hlength, hne, hext⟩ := exists_ext_of_takeValue hvalue
      obtain ⟨values, hfits⟩ := exists_fits ids
      refine ⟨value :: values, ext ++ fields ids values,
        fits_cons_iff.2 ⟨value, values, rfl, hlength, hfits⟩, ?_, ?_⟩
      · exact fun hnil => hne (List.append_eq_nil_iff.1 hnil).1
      · rw [fields, ← hext, List.cons_append, List.append_assoc]
    · rename_i value rest hvalue
      obtain ⟨hlength, rfl⟩ := takeValue_eq_some_iff.1 hvalue
      rw [Scan.cons_eq_incomplete_iff] at h
      obtain ⟨values, ext, hfits, hne, hext⟩ := exists_ext_of_scan h
      refine ⟨value :: values, ext, fits_cons_iff.2 ⟨value, values, rfl, hlength, hfits⟩, hne, ?_⟩
      rw [fields, ← hext, List.cons_append, List.append_assoc]

theorem scan_eq_incomplete_iff {ids : List UInt8} : scan ids data = .incomplete ↔
    ∃ values ext, Fits ids values ∧ ext ≠ [] ∧ data ++ ext = fields ids values := by
  constructor
  · exact exists_ext_of_scan
  · rintro ⟨values, ext, hfits, hne, hext⟩
    have hwhole : scan ids (data ++ ext) = .complete values [] := by
      rw [hext, ← List.append_nil (fields ids values)]
      exact scan_fields hfits
    cases hs : scan ids data with
    | incomplete => rfl
    | complete values' rest =>
      obtain ⟨hfits', rfl⟩ := fields_of_scan hs
      rw [List.append_assoc, scan_fields hfits'] at hwhole
      exact absurd (List.append_eq_nil_iff.1 (Scan.complete.inj hwhole).2).2 hne
    | malformed =>
      rw [scan_append_of_malformed hs] at hwhole
      cases hwhole

end

end Tlv
