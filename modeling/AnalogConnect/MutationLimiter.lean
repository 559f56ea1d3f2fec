import AnalogConnect.Library.CountingWindows
import AnalogConnect.Library.Transducer
import Mathlib.Data.Nat.Basic

/-!
# The mutation limiter

Requests that change something share a quota, counted from the time a window began; the first
request a window's length or more after that begins the next one. The limiter's lock is held for one
request at a time and nothing panics while it is. Instants and durations count nanoseconds on the
daemon's clock.
-/

namespace AnalogConnect

/-- `u32::MAX`. -/
def u32Max : ℕ := 2 ^ 32 - 1

structure MutationWindow where
  startedAt : ℕ
  accepted : ℕ
deriving DecidableEq

/-- A limiter has accepted no more in its window than it may. -/
structure MutationLimiter where
  maximum : ℕ
  window : ℕ
  state : MutationWindow
  maximum_le : maximum ≤ u32Max
  accepted_le : state.accepted ≤ maximum

namespace MutationLimiter

theorem toNat_le_u32Max (n : UInt32) : n.toNat ≤ u32Max := Nat.le_pred_of_lt n.toNat_lt

def new (maximum : UInt32) (window now : ℕ) : MutationLimiter where
  maximum := maximum.toNat
  window
  state := ⟨now, 0⟩
  maximum_le := toNat_le_u32Max maximum
  accepted_le := Nat.zero_le maximum.toNat

/-- `allow_at` up to its decision: a new window begins where the last is over. -/
def windowAt (limiter : MutationLimiter) (now : ℕ) : MutationWindow :=
  if limiter.window ≤ now - limiter.state.startedAt then ⟨now, 0⟩ else limiter.state

theorem windowAt_accepted_le (limiter : MutationLimiter) (now : ℕ) :
    (limiter.windowAt now).accepted ≤ limiter.maximum := by
  unfold windowAt
  split_ifs
  · exact Nat.zero_le limiter.maximum
  · exact limiter.accepted_le

theorem min_succ_le {accepted maximum : ℕ} (h : ¬ maximum ≤ accepted) :
    min (accepted + 1) u32Max ≤ maximum :=
  Nat.le_trans (Nat.min_le_left _ _) (Nat.lt_of_not_le h)

def allowAt (limiter : MutationLimiter) (now : ℕ) : Bool × MutationLimiter :=
  if h : limiter.maximum ≤ (limiter.windowAt now).accepted then
    (false,
      { limiter with
        state := limiter.windowAt now
        accepted_le := limiter.windowAt_accepted_le now })
  else
    (true,
      { limiter with
        state :=
          ⟨(limiter.windowAt now).startedAt, min ((limiter.windowAt now).accepted + 1) u32Max⟩
        accepted_le := min_succ_le h })

theorem allowAt_fst (limiter : MutationLimiter) (now : ℕ) :
    (limiter.allowAt now).1 = decide ((limiter.windowAt now).accepted < limiter.maximum) := by
  unfold allowAt
  split_ifs with h
  · simpa using h
  · simpa using h

theorem allowAt_snd (limiter : MutationLimiter) (now : ℕ) :
    (limiter.allowAt now).2.maximum = limiter.maximum ∧
      (limiter.allowAt now).2.window = limiter.window ∧
      (limiter.allowAt now).2.state =
        ⟨(limiter.windowAt now).startedAt,
          min ((limiter.windowAt now).accepted + 1) limiter.maximum⟩ := by
  have hmaximum := limiter.maximum_le
  have haccepted := limiter.windowAt_accepted_le now
  unfold allowAt
  split_ifs with h
  · refine ⟨rfl, rfl, ?_⟩
    rw [show min ((limiter.windowAt now).accepted + 1) limiter.maximum =
      (limiter.windowAt now).accepted by omega]
  · refine ⟨rfl, rfl, ?_⟩
    rw [show min ((limiter.windowAt now).accepted + 1) limiter.maximum =
      min ((limiter.windowAt now).accepted + 1) u32Max by omega]

end MutationLimiter

/-- The limiter under a sequence of requests, by their times. -/
def mutationLimiter : Transducer MutationLimiter ℕ Bool := ⟨MutationLimiter.allowAt⟩

/-- The windows the limiter counts its requests by: the first begins with the limiter, each of the
others with its first request, a window's length or more after the one before; and the first
`maximum` requests of each are the ones allowed. -/
structure CountsBy (maximum window started : ℕ) (trace : List (ℕ × Bool))
    (windows : List (TimeWindow (ℕ × Bool))) : Prop where
  trace_eq : trace = windows.flatMap (·.members)
  first : windows.head?.map (·.start) = some started
  begun : ∀ w ∈ windows.tail, ∃ r, w.members.head? = some r ∧ r.1 = w.start
  before : windows.Pairwise (TimeWindow.Before window Prod.fst)
  within : ∀ w ∈ windows, ∀ r ∈ w.members, r.1 = w.start ∨ r.1 - w.start < window
  allowed : ∀ w ∈ windows,
    w.members.map Prod.snd = (List.range w.members.length).map fun i => decide (i < maximum)

end AnalogConnect
