import Mathlib.Data.List.Pairwise
import Mathlib.Tactic.SplitIfs

/-!
# Elements picked by what came before

A list is read in order and an element is picked by what was read before it. What is picked is found
where the list is split (`mem_picked`), and two elements are picked in an order when one is picked
after the other (`pairwise_picked`).
-/

universe u

namespace Picking

variable {α : Type u} (picks : List α → α → Bool)

/-- The elements picked of a list, read after what is past. -/
def picked : List α → List α → List α
  | _, [] => []
  | past, a :: l => if picks past a then a :: picked (past ++ [a]) l else picked (past ++ [a]) l

variable {picks} {a b : α} {R : α → α → Prop}

theorem picked_append : ∀ (l m past : List α),
    picked picks past (l ++ m) = picked picks past l ++ picked picks (past ++ l) m
  | [], m, past => by rw [List.nil_append, List.append_nil, picked, List.nil_append]
  | a :: l, m, past => by
    rw [List.cons_append, picked, picked, picked_append l m, List.append_assoc,
      List.singleton_append]
    split_ifs
    · rfl
    · rfl

theorem picked_sublist : ∀ (l past : List α), (picked picks past l).Sublist l
  | [], _ => List.Sublist.slnil
  | a :: l, past => by
    rw [picked]
    split_ifs
    · exact (picked_sublist l _).cons_cons a
    · exact (picked_sublist l _).cons a

theorem mem_picked : ∀ {l past : List α}, a ∈ picked picks past l ↔
    ∃ before after, l = before ++ a :: after ∧ picks (past ++ before) a = true
  | [], past => by simp [picked]
  | b :: l, past => by
    have hsplit : a ∈ picked picks past (b :: l) ↔
        (a = b ∧ picks past b = true) ∨ a ∈ picked picks (past ++ [b]) l := by
      rw [picked]
      by_cases hb : picks past b = true
      · rw [if_pos hb, List.mem_cons]
        exact or_congr_left (and_iff_left hb).symm
      · rw [if_neg hb]
        exact ⟨.inr, fun h => h.resolve_left fun h => hb h.2⟩
    rw [hsplit, mem_picked]
    constructor
    · rintro (⟨rfl, h⟩ | ⟨before, after, rfl, h⟩)
      · exact ⟨[], l, rfl, by rwa [List.append_nil]⟩
      · exact ⟨b :: before, after, rfl, by rwa [List.append_cons]⟩
    · rintro ⟨_ | ⟨c, before⟩, after, heq, h⟩
      · obtain ⟨rfl, rfl⟩ := List.cons.inj heq
        exact .inl ⟨rfl, by rwa [List.append_nil] at h⟩
      · obtain ⟨rfl, rfl⟩ := List.cons.inj heq
        exact .inr ⟨before, after, rfl, by rwa [List.append_cons] at h⟩

theorem pairwise_picked : ∀ {l past : List α}, (picked picks past l).Pairwise R ↔
    ∀ before a between b after, l = before ++ a :: (between ++ b :: after) →
      picks (past ++ before) a = true → picks (past ++ before ++ a :: between) b = true → R a b
  | [], past => by simp [picked]
  | c :: l, past => by
    have hsplit : (picked picks past (c :: l)).Pairwise R ↔
        (picks past c = true → ∀ b ∈ picked picks (past ++ [c]) l, R c b) ∧
          (picked picks (past ++ [c]) l).Pairwise R := by
      rw [picked]
      by_cases hc : picks past c = true
      · rw [if_pos hc, List.pairwise_cons]
        exact and_congr_left fun _ => ⟨fun h _ => h, fun h => h hc⟩
      · rw [if_neg hc]
        exact ⟨fun h => ⟨fun hpicks => absurd hpicks hc, h⟩, fun h => h.2⟩
    rw [hsplit, pairwise_picked]
    constructor
    · rintro ⟨hhead, htail⟩ (_ | ⟨d, before⟩) a between b after heq ha hb
      · obtain ⟨rfl, rfl⟩ := List.cons.inj heq
        rw [List.append_nil] at ha hb
        refine hhead ha b (mem_picked.2 ⟨between, after, rfl, ?_⟩)
        rwa [← List.append_cons]
      · obtain ⟨rfl, rfl⟩ := List.cons.inj heq
        rw [List.append_cons past c before] at ha hb
        exact htail before a between b after rfl ha hb
    · intro hall
      refine ⟨fun hc b hb => ?_, fun before a between b after heq ha hb => ?_⟩
      · obtain ⟨between, after, rfl, hb⟩ := mem_picked.1 hb
        refine hall [] c between b after rfl ?_ ?_
        · rwa [List.append_nil]
        · rwa [List.append_nil, List.append_cons]
      · refine hall (c :: before) a between b after (by rw [heq, List.cons_append]) ?_ ?_
        · rwa [List.append_cons]
        · rwa [List.append_cons past c before]

end Picking
