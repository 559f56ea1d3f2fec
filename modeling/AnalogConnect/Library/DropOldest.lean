import AnalogConnect.Library.Transducer

/-!
# Queues that drop their oldest

A queue of bounded length makes room for what is pushed by dropping its oldest element. So what was
pushed is, in order, what has left it and what is in it, and each element that has left was popped
or dropped (`DropOldest.accounted`).
-/

universe u

namespace DropOldest

variable {α : Type u}

inductive Op (α : Type u)
  | push (a : α)
  | pop
  | reset
deriving DecidableEq

/-- An operation on a queue, which answers with the element that leaves it. -/
def step (capacity : ℕ) (queue : List α) : Op α → Option α × List α
  | .push a =>
    if queue.length = capacity then (queue.head?, queue.tail ++ [a]) else (none, queue ++ [a])
  | .pop => (queue.head?, queue.tail)
  | .reset => (none, [])

def fifo (capacity : ℕ) : Transducer (List α) (Op α) (Option α) := ⟨step capacity⟩

/-- What was pushed since the last reset, and what left by a pop or by a push. -/
structure History (α : Type u) where
  pushed : List α := []
  popped : List α := []
  dropped : List α := []

def History.record (h : History α) : Op α × Option α → History α
  | (.push a, left) =>
    { h with pushed := h.pushed ++ [a], dropped := h.dropped ++ left.toList }
  | (.pop, left) => { h with popped := h.popped ++ left.toList }
  | (.reset, _) => {}

def History.of (past : List (Op α × Option α)) : History α := past.foldl record {}

theorem History.of_snoc (past : List (Op α × Option α)) (r : Op α × Option α) :
    History.of (past ++ [r]) = (History.of past).record r := by
  unfold History.of
  rw [List.foldl_append]
  rfl

/-- The elements pushed are those that left, each popped (`true`) or dropped, and those queued. -/
def Accounts (h : History α) (queue : List α) : Prop :=
  ∃ left : List (α × Bool), h.pushed = left.map Prod.fst ++ queue ∧
    h.popped = (left.filter Prod.snd).map Prod.fst ∧
    h.dropped = (left.filter fun a => !a.2).map Prod.fst

variable {capacity : ℕ} {h : History α} {queue : List α}

theorem Accounts.pop (hh : Accounts h queue) :
    Accounts (h.record (.pop, queue.head?)) queue.tail := by
  obtain ⟨left, hpushed, hpopped, hdropped⟩ := hh
  rcases queue with - | ⟨a, queue⟩
  · exact ⟨left, hpushed, by simpa [History.record] using hpopped, hdropped⟩
  · refine ⟨left ++ [(a, true)], ?_, ?_, ?_⟩
    · simpa [History.record] using hpushed
    · simp [History.record, hpopped]
    · simpa [History.record] using hdropped

theorem Accounts.push (hh : Accounts h queue) (a : α) :
    Accounts (h.record (.push a, none)) (queue ++ [a]) := by
  obtain ⟨left, hpushed, hpopped, hdropped⟩ := hh
  refine ⟨left, ?_, hpopped, ?_⟩
  · simp [History.record, hpushed]
  · simpa [History.record] using hdropped

theorem Accounts.dropPush (hh : Accounts h queue) (a : α) :
    Accounts (h.record (.push a, queue.head?)) (queue.tail ++ [a]) := by
  rcases queue with - | ⟨oldest, queue⟩
  · exact hh.push a
  · obtain ⟨left, hpushed, hpopped, hdropped⟩ := hh
    refine ⟨left ++ [(oldest, false)], ?_, ?_, ?_⟩
    · simp [History.record, hpushed]
    · simpa [History.record] using hpopped
    · simp [History.record, hdropped]

theorem Accounts.step (hh : Accounts h queue) (op : Op α) :
    Accounts (h.record (op, (step capacity queue op).1)) (step capacity queue op).2 := by
  cases op with
  | push a =>
    unfold DropOldest.step
    split_ifs
    · exact hh.dropPush a
    · exact hh.push a
  | pop => exact hh.pop
  | reset => exact ⟨[], rfl, rfl, rfl⟩

/-- Whatever the operations, every element is accounted for. -/
theorem accounted (ops : List (Op α)) :
    Accounts (History.of ((fifo capacity).trace [] ops)) ((fifo capacity).after [] ops) := by
  refine (fifo capacity).history (P := fun past queue => Accounts (History.of past) queue)
    ⟨[], rfl, rfl, rfl⟩ (fun past queue op ih => ?_) ops
  rw [History.of_snoc]
  exact ih.step op

/-- What was popped was pushed, in that order. -/
theorem Accounts.popped_sublist (hh : Accounts h queue) : h.popped.Sublist h.pushed := by
  obtain ⟨left, hpushed, hpopped, -⟩ := hh
  rw [hpushed, hpopped]
  exact (List.filter_sublist.map Prod.fst).trans (List.sublist_append_left _ _)

theorem Accounts.length (hh : Accounts h queue) :
    h.pushed.length = h.popped.length + h.dropped.length + queue.length := by
  obtain ⟨left, hpushed, hpopped, hdropped⟩ := hh
  have hsplit := List.length_eq_length_filter_add (l := left) Prod.snd
  rw [hpushed, hpopped, hdropped]
  simp only [List.length_append, List.length_map]
  omega

end DropOldest
