import Mathlib.Data.List.Basic

/-!
# Dialogues with an environment

A dialogue puts questions to an environment, whose reply may depend on everything asked so far, and
ends in a value or an error. What it has asked is kept, also when it fails. What every question of a
dialogue satisfies is found from its parts (`AsksOnly.bind`).
-/

/-- A computation that asks questions `κ`, is given replies `ρ`, and may fail with `ε`. It takes the
environment and the questions asked before it, and returns those asked after it. -/
def Dialogue (κ ρ ε α : Type) : Type := (List κ → ρ) → List κ → Except ε α × List κ

namespace Dialogue

variable {κ ρ ε α β : Type}

instance : Monad (Dialogue κ ρ ε) where
  pure a := fun _ asked => (.ok a, asked)
  bind x f := fun env asked =>
    match x env asked with
    | (.ok a, asked) => f a env asked
    | (.error e, asked) => (.error e, asked)

/-- Puts a question to the environment. -/
def ask (question : κ) : Dialogue κ ρ ε ρ := fun env asked =>
  (.ok (env (asked ++ [question])), asked ++ [question])

/-- A result that takes no question. -/
def lift (result : Except ε α) : Dialogue κ ρ ε α := fun _ asked => (result, asked)

def fail (e : ε) : Dialogue κ ρ ε α := lift (.error e)

variable {env : List κ → ρ} {asked asked' : List κ}

@[simp] theorem ask_apply (question : κ) : (ask question : Dialogue κ ρ ε ρ) env asked
    = (.ok (env (asked ++ [question])), asked ++ [question]) := rfl

@[simp] theorem lift_apply (result : Except ε α) :
    (lift result : Dialogue κ ρ ε α) env asked = (result, asked) := rfl

@[simp] theorem fail_apply (e : ε) :
    (fail e : Dialogue κ ρ ε α) env asked = (.error e, asked) := rfl

theorem bind_apply (x : Dialogue κ ρ ε α) (f : α → Dialogue κ ρ ε β) : (x >>= f) env asked =
    match x env asked with
    | (.ok a, asked) => f a env asked
    | (.error e, asked) => (.error e, asked) := rfl

theorem bind_ok {x : Dialogue κ ρ ε α} {a : α} (f : α → Dialogue κ ρ ε β)
    (h : x env asked = (.ok a, asked')) : (x >>= f) env asked = f a env asked' := by
  rw [bind_apply, h]

theorem bind_error {x : Dialogue κ ρ ε α} {e : ε} (f : α → Dialogue κ ρ ε β)
    (h : x env asked = (.error e, asked')) : (x >>= f) env asked = (.error e, asked') := by
  rw [bind_apply, h]

theorem bind_eq_ok {x : Dialogue κ ρ ε α} {f : α → Dialogue κ ρ ε β} {b : β} :
    (x >>= f) env asked = (.ok b, asked') ↔
      ∃ a mid, x env asked = (.ok a, mid) ∧ f a env mid = (.ok b, asked') := by
  rcases hresult : x env asked with ⟨e | a, mid⟩
  · simp [bind_error f hresult]
  · simp [bind_ok f hresult]

/-- Every question the dialogue asks satisfies `P`. -/
def AsksOnly (P : κ → Prop) (x : Dialogue κ ρ ε α) : Prop :=
  ∀ env asked, (∀ question ∈ asked, P question) → ∀ question ∈ (x env asked).2, P question

section

variable {P : κ → Prop}

theorem AsksOnly.lift (result : Except ε α) :
    AsksOnly P (Dialogue.lift result : Dialogue κ ρ ε α) := fun _ _ h => h

theorem AsksOnly.ask {question : κ} (h : P question) :
    AsksOnly P (Dialogue.ask question : Dialogue κ ρ ε ρ) := by
  intro env asked hasked other hother
  rcases List.mem_append.1 hother with hother | hother
  · exact hasked other hother
  · exact List.mem_singleton.1 hother ▸ h

theorem AsksOnly.bind {x : Dialogue κ ρ ε α} {f : α → Dialogue κ ρ ε β} (hx : AsksOnly P x)
    (hf : ∀ a, AsksOnly P (f a)) : AsksOnly P (x >>= f) := by
  intro env asked hasked
  have hmid := hx env asked hasked
  rcases hresult : x env asked with ⟨e | a, asked'⟩
  · rw [hresult] at hmid
    rw [bind_error f hresult]
    exact hmid
  · rw [hresult] at hmid
    rw [bind_ok f hresult]
    exact hf a env asked' hmid

end

end Dialogue
