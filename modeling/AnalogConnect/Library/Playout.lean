import AnalogConnect.Library.OrderedMap

/-!
# Reordering buffers

Entries arrive in any order, wait under their keys in an ordered map and leave it at a point that
only moves on. Whatever a buffer drops or refuses on the way, what it plays is in order and was
inserted, and what it retains is not behind the point (`Playout`). Each operation on the map, the
point or the history keeps this under a condition of its own.
-/

universe u v

variable {κ : Type u} {α : Type v} [LinearOrder κ]

/-- The entries retained, the point reached, if any, and the entries inserted and played. -/
structure Playout (key : α → κ) (frames : OrderedMap κ α) (next : Option κ)
    (inserted played : List α) : Prop where
  key_eq : ∀ (k : κ) a, frames[k]? = some a → key a = k
  retained : ∀ (k : κ) a, frames[k]? = some a → a ∈ inserted
  ahead : ∀ n, next = some n → ∀ k ∈ frames, n ≤ k
  played_mem : ∀ a ∈ played, a ∈ inserted
  behind : ∀ n, next = some n → ∀ a ∈ played, key a < n
  ordered : played.Pairwise fun a b => key a < key b

namespace Playout

variable {key : α → κ} {frames : OrderedMap κ α} {next next' : Option κ}
  {inserted played : List α} {a : α} {k n : κ}

theorem empty (key : α → κ) : Playout key ∅ none [] [] where
  key_eq := fun k a h => by simp at h
  retained := fun k a h => by simp at h
  ahead := fun n h => by cases h
  played_mem := fun a h => absurd h List.not_mem_nil
  behind := fun n h => by cases h
  ordered := .nil

/-- An entry that is not behind the point may be retained. -/
theorem insert (h : Playout key frames next inserted played) (a : α)
    (hnext : ∀ n, next = some n → n ≤ key a) :
    Playout key (frames.insert (key a) a) next (inserted ++ [a]) played where
  key_eq := by
    intro k b hk
    rw [OrderedMap.getElem?_insert_eq] at hk
    split_ifs at hk with heq
    · rw [← Option.some.inj hk, heq]
    · exact h.key_eq k b hk
  retained := by
    intro k b hk
    rw [OrderedMap.getElem?_insert_eq] at hk
    split_ifs at hk with heq
    · rw [← Option.some.inj hk]
      exact List.mem_append_right _ List.mem_cons_self
    · exact List.mem_append_left _ (h.retained k b hk)
  ahead := by
    intro n hn k hk
    rcases OrderedMap.mem_insert_iff.1 hk with rfl | hk
    · exact hnext n hn
    · exact h.ahead n hn k hk
  played_mem := fun b hb => List.mem_append_left _ (h.played_mem b hb)
  behind := h.behind
  ordered := h.ordered

/-- An entry may be refused. -/
theorem refuse (h : Playout key frames next inserted played) (a : α) :
    Playout key frames next (inserted ++ [a]) played where
  key_eq := h.key_eq
  retained := fun k b hk => List.mem_append_left _ (h.retained k b hk)
  ahead := h.ahead
  played_mem := fun b hb => List.mem_append_left _ (h.played_mem b hb)
  behind := h.behind
  ordered := h.ordered

/-- A retained entry may be dropped. -/
theorem erase (h : Playout key frames next inserted played) (k : κ) :
    Playout key (frames.erase k) next inserted played where
  key_eq := by
    intro k' b hk
    rw [OrderedMap.getElem?_erase_eq] at hk
    split_ifs at hk
    exact h.key_eq k' b hk
  retained := by
    intro k' b hk
    rw [OrderedMap.getElem?_erase_eq] at hk
    split_ifs at hk
    exact h.retained k' b hk
  ahead := fun n hn k' hk => h.ahead n hn k' (OrderedMap.mem_erase_iff.1 hk).2
  played_mem := h.played_mem
  behind := h.behind
  ordered := h.ordered

/-- Playout starts at the first entry. -/
theorem start (h : Playout key frames next inserted []) (hfirst : frames.firstKey? = some n) :
    Playout key frames (some n) inserted [] where
  key_eq := h.key_eq
  retained := h.retained
  ahead := by
    intro n' hn'
    rw [← Option.some.inj hn']
    exact (OrderedMap.firstKey?_eq_some_iff.1 hfirst).2
  played_mem := h.played_mem
  behind := fun _ _ a ha => absurd ha List.not_mem_nil
  ordered := .nil

/-- The point may move on to where no entry is behind it. -/
theorem advance (h : Playout key frames (some n) inserted played)
    (hnext : ∀ n', next' = some n' → n ≤ n' ∧ ∀ k ∈ frames, n' ≤ k) :
    Playout key frames next' inserted played where
  key_eq := h.key_eq
  retained := h.retained
  ahead := fun n' hn' => (hnext n' hn').2
  played_mem := h.played_mem
  behind := fun n' hn' a ha => lt_of_lt_of_le (h.behind n rfl a ha) (hnext n' hn').1
  ordered := h.ordered

/-- The entry at the point is played, and the point moves past it. -/
theorem play (h : Playout key frames (some n) inserted played) (hget : frames[n]? = some a)
    (hnext : ∀ n', next' = some n' → n < n' ∧ ∀ k, n < k → n' ≤ k) :
    Playout key (frames.erase n) next' inserted (played ++ [a]) where
  key_eq := (h.erase n).key_eq
  retained := (h.erase n).retained
  ahead := by
    intro n' hn' k hk
    obtain ⟨hne, hk⟩ := OrderedMap.mem_erase_iff.1 hk
    exact (hnext n' hn').2 k (lt_of_le_of_ne (h.ahead n rfl k hk) (Ne.symm hne))
  played_mem := by
    intro b hb
    rcases List.mem_append.1 hb with hb | hb
    · exact h.played_mem b hb
    · exact List.mem_singleton.1 hb ▸ h.retained n a hget
  behind := by
    intro n' hn' b hb
    rcases List.mem_append.1 hb with hb | hb
    · exact lt_trans (h.behind n rfl b hb) (hnext n' hn').1
    · rw [List.mem_singleton.1 hb, h.key_eq n a hget]
      exact (hnext n' hn').1
  ordered := by
    rw [List.pairwise_append]
    refine ⟨h.ordered, List.pairwise_singleton _ _, fun b hb c hc => ?_⟩
    rw [List.mem_singleton.1 hc, h.key_eq n a hget]
    exact h.behind n rfl b hb

/-- Where the slot at the point is empty, every entry is past it. -/
theorem lt_of_empty (h : Playout key frames (some n) inserted played)
    (hget : frames[n]? = none) (hk : k ∈ frames) : n < k := by
  refine lt_of_le_of_ne (h.ahead n rfl k hk) ?_
  rintro rfl
  obtain ⟨a, ha⟩ := OrderedMap.mem_iff_exists.1 hk
  rw [hget] at ha
  cases ha

theorem nodup (h : Playout key frames next inserted played) : played.Nodup := by
  refine h.ordered.imp fun hlt => ?_
  rintro rfl
  exact lt_irrefl _ hlt

end Playout
