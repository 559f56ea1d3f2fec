import Mathlib.Data.List.Basic

/-!
# Attempts

An attempt is a computation over a state that may fail; what it did to the state before it failed
stays done. `Meets P x Q` says that from a state with `P` the attempt comes to an outcome and a
state with `Q`; the rules follow the attempt's text (`Meets.bind`, `Meets.outcome`, `Meets.forM`).
-/

universe u

abbrev Attempt (σ ε : Type u) : Type u → Type u := ExceptT ε (StateM σ)

namespace Attempt

variable {σ ε α β : Type u}

/-- What the attempt comes to, and the state it leaves. -/
def go (x : Attempt σ ε α) (s : σ) : Except ε α × σ := StateT.run (ExceptT.run x) s

@[simp] theorem go_pure (a : α) (s : σ) : go (pure a : Attempt σ ε α) s = (.ok a, s) := rfl

@[simp] theorem go_throw (e : ε) (s : σ) : go (throw e : Attempt σ ε α) s = (.error e, s) := rfl

@[simp] theorem go_get (s : σ) : go (get : Attempt σ ε σ) s = (.ok s, s) := rfl

@[simp] theorem go_modify (f : σ → σ) (s : σ) :
    go (modify f : Attempt σ ε PUnit) s = (.ok ⟨⟩, f s) := rfl

theorem go_bind (x : Attempt σ ε α) (f : α → Attempt σ ε β) (s : σ) : go (x >>= f) s =
    match go x s with
    | (.ok a, s') => go (f a) s'
    | (.error e, s') => (.error e, s') := by
  unfold go
  simp only [ExceptT.run_bind, StateT.run_bind]
  generalize StateT.run (ExceptT.run x) s = result
  rcases result with ⟨e | a, s'⟩ <;> rfl

/-- An attempt given by what it comes to. -/
def of (f : σ → Except ε α × σ) : Attempt σ ε α := ExceptT.mk f

@[simp] theorem go_of (f : σ → Except ε α × σ) (s : σ) : go (of f) s = f s := rfl

/-- The attempt with the failures that `caught` takes as values. -/
def outcome {ε' : Type u} (caught : ε → Option ε') (x : Attempt σ ε α) :
    Attempt σ ε (Except ε' α) :=
  of fun s =>
    match go x s with
    | (.ok a, s') => (.ok (.ok a), s')
    | (.error e, s') =>
      match caught e with
      | some e' => (.ok (.error e'), s')
      | none => (.error e, s')

/-- The attempt on a part of the state. -/
def onPart {τ : Type u} (part : σ → τ) (put : σ → τ → σ) (x : Attempt τ ε α) : Attempt σ ε α :=
  of fun s => ((go x (part s)).1, put s (go x (part s)).2)

/-- From a state with `P` the attempt comes to an outcome and a state with `Q`. -/
def Meets (P : σ → Prop) (x : Attempt σ ε α) (Q : Except ε α → σ → Prop) : Prop :=
  ∀ s, P s → Q (go x s).1 (go x s).2

/-- The outcome and the state it comes with, for an attempt that goes through and one that fails. -/
def Split (Q : α → σ → Prop) (E : ε → σ → Prop) : Except ε α → σ → Prop
  | .ok a, s => Q a s
  | .error e, s => E e s

section

variable {P P' : σ → Prop} {Q Q' : Except ε α → σ → Prop} {R : Except ε β → σ → Prop}
  {x : Attempt σ ε α} {f : α → Attempt σ ε β}

theorem Meets.weaken (h : Meets P' x Q') (hP : ∀ s, P s → P' s) (hQ : ∀ r s, Q' r s → Q r s) :
    Meets P x Q := fun s hs => hQ _ _ (h s (hP s hs))

theorem Meets.pure {a : α} (h : ∀ s, P s → Q (.ok a) s) : Meets P (pure a) Q := h

theorem Meets.throw {e : ε} (h : ∀ s, P s → Q (.error e) s) : Meets P (throw e) Q := h

theorem Meets.bind (hx : Meets P x Q) (hf : ∀ a, Meets (Q (.ok a)) (f a) R)
    (herror : ∀ e s, Q (.error e) s → R (.error e) s) : Meets P (x >>= f) R := by
  intro s hs
  have hmid := hx s hs
  rw [go_bind]
  rcases hresult : go x s with ⟨e | a, s'⟩
  · rw [hresult] at hmid
    exact herror e s' hmid
  · rw [hresult] at hmid
    exact hf a s' hmid

theorem Meets.outcome {ε' : Type u} {caught : ε → Option ε'}
    {R : Except ε (Except ε' α) → σ → Prop} (hx : Meets P x Q)
    (hok : ∀ a s, Q (.ok a) s → R (.ok (.ok a)) s)
    (hcaught : ∀ e e' s, caught e = some e' → Q (.error e) s → R (.ok (.error e')) s)
    (hfatal : ∀ e s, caught e = none → Q (.error e) s → R (.error e) s) :
    Meets P (outcome caught x) R := by
  intro s hs
  have hmid := hx s hs
  rw [Attempt.outcome, go_of]
  rcases hresult : go x s with ⟨e | a, s'⟩
  · rw [hresult] at hmid
    cases hcatch : caught e with
    | none => simpa [hcatch] using hfatal e s' hcatch hmid
    | some e' => simpa [hcatch] using hcaught e e' s' hcatch hmid
  · rw [hresult] at hmid
    exact hok a s' hmid

/-- Works off a list: `I` holds of what is left of it and the state. -/
theorem Meets.forM {ι : Type u} {I : List ι → σ → Prop} {E : ε → σ → Prop}
    {body : ι → Attempt σ ε PUnit}
    (hbody : ∀ i l, Meets (I (i :: l)) (body i) (Split (fun _ => I l) E)) :
    ∀ l : List ι, Meets (I l) (forM l body) (Split (fun _ => I []) E)
  | [] => fun _ hs => hs
  | i :: l => (hbody i l).bind (fun _ => Meets.forM hbody l) fun _ _ h => h

/-- Whatever comes of the attempt, a state with `P` leads to one. -/
def Keeps (P : σ → Prop) (x : Attempt σ ε α) : Prop := Meets P x fun _ => P

theorem Keeps.bind (hx : Keeps P x) (hf : ∀ a, Keeps P (f a)) : Keeps P (x >>= f) :=
  Meets.bind hx hf fun _ _ h => h

theorem Keeps.outcome {ε' : Type u} {caught : ε → Option ε'} (hx : Keeps P x) :
    Keeps P (Attempt.outcome caught x) :=
  Meets.outcome hx (fun _ _ h => h) (fun _ _ _ _ h => h) fun _ _ _ h => h

theorem Keeps.forM {ι : Type u} {body : ι → Attempt σ ε PUnit} :
    ∀ {l : List ι}, (∀ i ∈ l, Keeps P (body i)) → Keeps P (ForM.forM l body)
  | [], _ => fun _ hs => hs
  | i :: _, hbody => (hbody i List.mem_cons_self).bind fun _ =>
    Keeps.forM fun j hj => hbody j (List.mem_cons_of_mem i hj)

theorem Meets.and (h : Meets P x Q) (hkeeps : Keeps P' x) :
    Meets (fun s => P s ∧ P' s) x fun r s => Q r s ∧ P' s :=
  fun s hs => ⟨h s hs.1, hkeeps s hs.2⟩

end

end Attempt
