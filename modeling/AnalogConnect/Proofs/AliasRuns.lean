import AnalogConnect.Proofs.ConversationAliases
import Mathlib.Data.PEquiv

/-!
# Identifiers over whole runs

The two tables of identifiers are one partial bijection between keys and identifiers, read in its
two directions (`ConversationAliases.toPEquiv`). A call leaves it, or adds one pair to it, the key
new on the one side and the identifier on the other (`AliasCall.apply_cases`), whether the
identifier was drawn or is the key itself. So the bijection only grows, and what a call answered
every later call for the same key answers.
-/

namespace AnalogConnect

namespace ConversationAliases

variable {aliases aliases' : ConversationAliases} {id key : String}

/-- The keys and their identifiers. -/
def toPEquiv (aliases : ConversationAliases) (h : aliases.Inverse) : PEquiv String String where
  toFun := aliases.keyToId
  invFun := aliases.idToKey
  inv := h

/-- The order on the bijections is the one on the tables. -/
theorem toPEquiv_le_iff {h : aliases.Inverse} {h' : aliases'.Inverse} :
    aliases.toPEquiv h ≤ aliases'.toPEquiv h' ↔ Extends aliases aliases' := by
  rw [PEquiv.le_def]
  exact Iff.rfl

/-- Two keys with one identifier are one key. -/
theorem Inverse.key_inj (h : aliases.Inverse) {key' : String}
    (hkey : aliases.keyToId key = some id) (hkey' : aliases.keyToId key' = some id) :
    key = key' :=
  (aliases.toPEquiv h).inj hkey hkey'

end ConversationAliases

namespace AliasCall

open ConversationAliases

variable {aliases : ConversationAliases} {id : String}

/-- A key that has its identifier is answered with it. -/
theorem apply_of_known {call : AliasCall} (h : aliases.keyToId call.key = some id) :
    call.apply aliases = (.ok id, aliases) := by
  cases call with
  | idFor key random =>
    simp only [AliasCall.key] at h
    simp only [apply, ConversationAliases.idFor, h]
  | exposeStableId key =>
    simp only [AliasCall.key] at h
    simp only [apply, ConversationAliases.exposeStableId, h]

/-- A key without one is given one that leads nowhere else, or nothing happens. -/
theorem apply_of_unknown {call : AliasCall} (h : aliases.keyToId call.key = none) :
    (∃ id, (∀ key, aliases.idToKey id = some key → key = call.key) ∧
      call.apply aliases = (.ok id, aliases.insert call.key id)) ∨
    ∃ error, call.apply aliases = (.error error, aliases) := by
  cases call with
  | idFor key random =>
    simp only [AliasCall.key] at h
    simp only [apply, ConversationAliases.idFor, h, AliasCall.key]
    rcases hdraw : aliases.drawId key 4 random with ⟨error | id, aliases', random'⟩
    · exact .inr ⟨error, by rw [drawId_error hdraw]⟩
    · obtain ⟨-, hfresh, haliases⟩ := drawId_ok hdraw
      refine .inl ⟨id, fun key' hkey' => ?_, by rw [haliases]⟩
      rw [hfresh] at hkey'
      cases hkey'
  | exposeStableId key =>
    simp only [AliasCall.key] at h
    simp only [apply, ConversationAliases.exposeStableId, h, AliasCall.key]
    by_cases hother : (aliases.idToKey key).any (· ≠ key) = true
    · exact .inr ⟨.randomUnavailable, by rw [if_pos hother]⟩
    · refine .inl ⟨key, fun key' hkey' => ?_, by rw [if_neg hother]⟩
      simpa [hkey'] using hother

/-- What a call leaves and answers. -/
theorem apply_cases (aliases : ConversationAliases) (call : AliasCall) :
    (∃ id, aliases.keyToId call.key = some id ∧ call.apply aliases = (.ok id, aliases)) ∨
    (∃ id, aliases.keyToId call.key = none ∧
      (∀ key, aliases.idToKey id = some key → key = call.key) ∧
      call.apply aliases = (.ok id, aliases.insert call.key id)) ∨
    ∃ error, call.apply aliases = (.error error, aliases) := by
  rcases hkey : aliases.keyToId call.key with - | id
  · rcases apply_of_unknown hkey with ⟨id, hother, happly⟩ | ⟨error, happly⟩
    · exact .inr (.inl ⟨id, rfl, hother, happly⟩)
    · exact .inr (.inr ⟨error, happly⟩)
  · exact .inl ⟨id, rfl, apply_of_known hkey⟩

theorem inverse_apply (h : aliases.Inverse) (call : AliasCall) :
    (call.apply aliases).2.Inverse := by
  rcases apply_cases aliases call with ⟨id, -, happly⟩ | ⟨id, hkey, hother, happly⟩ |
    ⟨error, happly⟩
  · rw [happly]
    exact h
  · rw [happly]
    exact h.insert hother hkey
  · rw [happly]
    exact h

theorem extends_apply (aliases : ConversationAliases) (call : AliasCall) :
    Extends aliases (call.apply aliases).2 := by
  rcases apply_cases aliases call with ⟨id, -, happly⟩ | ⟨id, hkey, -, happly⟩ | ⟨error, happly⟩
  · rw [happly]
    exact .refl aliases
  · rw [happly]
    exact extends_insert hkey
  · rw [happly]
    exact .refl aliases

/-- An answered call leaves its answer in the table. -/
theorem keyToId_apply {call : AliasCall} (h : (call.apply aliases).1 = .ok id) :
    (call.apply aliases).2.keyToId call.key = some id := by
  rcases apply_cases aliases call with ⟨id', hid, happly⟩ | ⟨id', -, -, happly⟩ | ⟨error, happly⟩
  · rw [happly] at h ⊢
    rw [hid, Except.ok.inj h]
  · rw [happly] at h ⊢
    rw [keyToId_insert, if_pos rfl, Except.ok.inj h]
  · rw [happly] at h
    cases h

theorem unchanged_of_error {call : AliasCall} {error : ConversationError}
    (h : (call.apply aliases).1 = .error error) : (call.apply aliases).2 = aliases := by
  rcases apply_cases aliases call with ⟨id, -, happly⟩ | ⟨id, -, -, happly⟩ | ⟨error, happly⟩
  · rw [happly]
  · rw [happly] at h
    cases h
  · rw [happly]

end AliasCall

/-! ## Runs -/

namespace ConversationAliases

variable {aliases aliases' : ConversationAliases} {calls : List AliasCall}

theorem inverse_run (hinverse : aliases.Inverse)
    (h : aliasCalls.run aliases calls = some aliases') : aliases'.Inverse := by
  refine aliasCalls.run_invariant (P := Inverse) (fun before call after hbefore hstep => ?_)
    hinverse h
  obtain rfl := Option.some.inj hstep
  exact AliasCall.inverse_apply hbefore call

theorem extends_run (h : aliasCalls.run aliases calls = some aliases') :
    Extends aliases aliases' := by
  refine aliasCalls.run_invariant (P := Extends aliases) (fun before call after hbefore hstep => ?_)
    (.refl aliases) h
  obtain rfl := Option.some.inj hstep
  exact hbefore.trans (AliasCall.extends_apply before call)

/-- The growing bijection, over a run. -/
theorem toPEquiv_run (hinverse : aliases.Inverse)
    (h : aliasCalls.run aliases calls = some aliases') :
    aliases.toPEquiv hinverse ≤ aliases'.toPEquiv (inverse_run hinverse h) :=
  toPEquiv_le_iff.2 (extends_run h)

/-- What a call of the run answered is in the table at its end. -/
theorem keyToId_of_before {call : AliasCall} {before : ConversationAliases} {id : String}
    (h : aliasCalls.run aliases calls = some aliases')
    (hbefore : aliasCalls.Before aliases calls before call)
    (hid : (call.apply before).1 = .ok id) : aliases'.keyToId call.key = some id := by
  obtain ⟨past, future, rfl, hpast⟩ := hbefore
  obtain ⟨middle, hmiddle, hrest⟩ := aliasCalls.run_append_eq_some.1 h
  rw [hpast, Option.some.injEq] at hmiddle
  subst hmiddle
  obtain ⟨after, hafter, hfuture⟩ := aliasCalls.run_cons_eq_some.1 hrest
  obtain rfl := Option.some.inj hafter
  exact extends_run hfuture call.key id (AliasCall.keyToId_apply hid)

/-- The tables are mutual inverses, an answer stays the answer and leads back to its key, and a
call that fails changes nothing. -/
theorem aliases_stable_bijection (h : aliasCalls.run .empty calls = some aliases) :
    (∀ key id, aliases.idToKey id = some key ↔ aliases.keyToId key = some id) ∧
      (∀ key key' id, aliases.keyToId key = some id → aliases.keyToId key' = some id →
        key = key') ∧
      (∀ before call id, aliasCalls.Before .empty calls before call →
        (call.apply before).1 = .ok id →
          aliases.keyFor id = some call.key ∧
            ∀ again : AliasCall, again.key = call.key → (again.apply aliases).1 = .ok id) ∧
      ∀ (call : AliasCall) error, (call.apply aliases).1 = .error error →
        (call.apply aliases).2 = aliases := by
  have hinverse : aliases.Inverse := inverse_run inverse_empty h
  refine ⟨hinverse, fun key key' id => hinverse.key_inj, fun before call id hbefore hid => ?_,
    fun call error => AliasCall.unchanged_of_error⟩
  have hknown : aliases.keyToId call.key = some id := keyToId_of_before h hbefore hid
  refine ⟨(hinverse call.key id).2 hknown, fun again hkey => ?_⟩
  rw [AliasCall.apply_of_known (hkey ▸ hknown)]

/-- The source answers the identifier that was exposed, then another. -/
def repeatedDraw : List AliasCall :=
  [.exposeStableId "00000000000000000000000000000000",
    .idFor "private" [some (Vector.replicate 16 0), some (Vector.replicate 16 17)],
    .idFor "silent" [none]]

theorem aliases_stable_bijection_repeatedDraw :
    ∃ aliases, aliasCalls.run .empty repeatedDraw = some aliases ∧
      aliases.keyFor "11111111111111111111111111111111" = some "private" ∧
        aliases.keyToId "silent" = none := by
  refine ⟨_, rfl, ?_, rfl⟩
  exact ((aliases_stable_bijection rfl).2.2.1 _ (.idFor "private" _) _
    ⟨[_], [_], rfl, rfl⟩ rfl).1

end ConversationAliases

end AnalogConnect
