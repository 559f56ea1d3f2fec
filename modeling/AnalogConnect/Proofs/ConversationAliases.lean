import AnalogConnect.PhonePages

/-!
# Conversation identifiers

An identifier once given stays, leads back to its conversation, and is one the phone takes. Each is
drawn from the random source, or is the group's key itself.
-/

namespace AnalogConnect

namespace ConversationAliases

variable {aliases aliases' : ConversationAliases} {random random' : RandomBytes}
  {row : StoredConversation} {id key : String}

@[simp] theorem keyToId_insert (key' : String) :
    (aliases.insert key id).keyToId key' = if key' = key then some id else aliases.keyToId key' :=
  rfl

@[simp] theorem idToKey_insert (id' : String) :
    (aliases.insert key id).idToKey id' = if id' = id then some key else aliases.idToKey id' := rfl

/-- The random source can answer with this identifier. -/
def IsRandomId (id : String) : Prop :=
  ∃ bytes : Vector UInt8 16, id = String.ofList (Hex.encode bytes.toList)

theorem drawId_ok : ∀ {tries : ℕ} {random : RandomBytes},
    aliases.drawId key tries random = (.ok id, aliases', random') →
      IsRandomId id ∧ aliases.idToKey id = none ∧ aliases' = aliases.insert key id
  | 0, _, h => by simp [drawId] at h
  | _ + 1, [], h => by simp [drawId] at h
  | _ + 1, none :: _, h => by simp [drawId] at h
  | tries + 1, some bytes :: random, h => by
    unfold drawId at h
    by_cases hfresh : aliases.idToKey (String.ofList (Hex.encode bytes.toList)) = none
    · simp only [if_pos hfresh, Prod.mk.injEq, Except.ok.injEq] at h
      obtain ⟨rfl, rfl, -⟩ := h
      exact ⟨⟨bytes, rfl⟩, hfresh, rfl⟩
    · simp only [if_neg hfresh] at h
      exact drawId_ok h

/-- How a conversation comes to its identifier. -/
theorem conversationIdFor_cases
    (h : conversationIdFor aliases row random = (.ok id, aliases', random')) :
    (aliases.keyToId row.conversationKey = some id ∧ aliases' = aliases) ∨
    (row.isAncsGroup = true ∧ id = row.conversationKey ∧
      (∀ key, aliases.idToKey id = some key → key = id) ∧
      aliases.keyToId row.conversationKey = none ∧ aliases' = aliases.insert id id) ∨
    (IsRandomId id ∧ aliases.idToKey id = none ∧
      aliases.keyToId row.conversationKey = none ∧
      aliases' = aliases.insert row.conversationKey id) := by
  unfold conversationIdFor at h
  by_cases hancs : row.isAncsGroup = true
  · simp only [hancs, if_true, Prod.mk.injEq] at h
    obtain ⟨hid, haliases, -⟩ := h
    unfold exposeStableId at hid haliases
    rcases hkey : aliases.keyToId row.conversationKey with - | existing
    · simp only [hkey] at hid haliases
      split_ifs at hid haliases with hother
      obtain rfl := Except.ok.inj hid
      refine .inr (.inl ⟨hancs, rfl, fun key hkey' => ?_, rfl, haliases.symm⟩)
      simpa [hkey'] using hother
    · simp only [hkey] at hid haliases
      exact .inl ⟨by rw [Except.ok.inj hid], haliases.symm⟩
  · simp only [hancs, if_false, Bool.false_eq_true] at h
    unfold idFor at h
    rcases hkey : aliases.keyToId row.conversationKey with - | existing
    · simp only [hkey] at h
      obtain ⟨hrandom, hfresh, haliases⟩ := drawId_ok h
      exact .inr (.inr ⟨hrandom, hfresh, rfl, haliases⟩)
    · simp only [hkey, Prod.mk.injEq, Except.ok.injEq] at h
      exact .inl ⟨by rw [h.1], h.2.1.symm⟩

/-- What was given stays given. -/
def Extends (aliases aliases' : ConversationAliases) : Prop :=
  ∀ key id, aliases.keyToId key = some id → aliases'.keyToId key = some id

theorem Extends.refl (aliases : ConversationAliases) : Extends aliases aliases :=
  fun _ _ h => h

theorem Extends.trans {aliases₁ aliases₂ aliases₃ : ConversationAliases}
    (h : Extends aliases₁ aliases₂) (h' : Extends aliases₂ aliases₃) :
    Extends aliases₁ aliases₃ :=
  fun key id hid => h' key id (h key id hid)

theorem extends_insert (h : aliases.keyToId key = none) :
    Extends aliases (aliases.insert key id) := by
  intro key' id' hid
  rw [keyToId_insert]
  split_ifs with heq
  · rw [heq, h] at hid
    cases hid
  · exact hid

/-- Each table is the other read backwards. -/
def Inverse (aliases : ConversationAliases) : Prop :=
  ∀ key id, aliases.idToKey id = some key ↔ aliases.keyToId key = some id

theorem inverse_empty : Inverse .empty := by
  intro key id
  simp [empty]

/-- A pair may be added whose key is new and whose identifier leads to no other key. -/
theorem Inverse.insert (h : aliases.Inverse)
    (hid : ∀ key', aliases.idToKey id = some key' → key' = key)
    (hkey : aliases.keyToId key = none) : (aliases.insert key id).Inverse := by
  have hnew : aliases.idToKey id = none := by
    rcases hback : aliases.idToKey id with - | key'
    · rfl
    · have hforth : aliases.keyToId key' = some id := (h key' id).1 hback
      rw [hid key' hback, hkey] at hforth
      cases hforth
  intro key' id'
  rw [idToKey_insert, keyToId_insert]
  by_cases hid' : id' = id
  · subst hid'
    by_cases hkey' : key' = key
    · simp [hkey']
    · have hforth : aliases.keyToId key' ≠ some id' := by
        rw [Ne, ← h key' id', hnew]
        simp
      simp [hkey', hforth, Ne.symm hkey']
  · by_cases hkey' : key' = key
    · have hback : aliases.idToKey id' ≠ some key' := by
        rw [Ne, h key' id', hkey', hkey]
        simp
      simp [hid', hkey', Ne.symm hid', hkey' ▸ hback]
    · rw [if_neg hid', if_neg hkey']
      exact h key' id'

/-- The identifier is one the key could be given. -/
def Fits (key id : String) : Prop := IsRandomId id ∨ id = key ∧ isAncsKey key = true

/-- The table of identifiers, as the daemon fills it. -/
structure Valid (aliases : ConversationAliases) : Prop where
  fits : ∀ key id, aliases.keyToId key = some id → Fits key id
  key_of_id : ∀ key id, aliases.keyToId key = some id → aliases.idToKey id = some key
  id_of_key : ∀ key id, aliases.idToKey id = some key → aliases.keyToId key = some id

theorem valid_empty : Valid .empty where
  fits := fun _ _ h => by cases h
  key_of_id := fun _ _ h => by cases h
  id_of_key := fun _ _ h => by cases h

theorem Valid.inverse (h : aliases.Valid) : aliases.Inverse :=
  fun key id => ⟨h.id_of_key key id, h.key_of_id key id⟩

/-- A key without identifier may be given one that leads nowhere else. -/
theorem Valid.insert (h : aliases.Valid) (hfits : Fits key id)
    (hid : ∀ key', aliases.idToKey id = some key' → key' = key)
    (hkey : aliases.keyToId key = none) : (aliases.insert key id).Valid where
  fits := by
    intro key' id' hid'
    rw [keyToId_insert] at hid'
    split_ifs at hid' with hkey'
    · rw [hkey', ← Option.some.inj hid']
      exact hfits
    · exact h.fits key' id' hid'
  key_of_id := fun key' id' => (h.inverse.insert hid hkey key' id').2
  id_of_key := fun key' id' => (h.inverse.insert hid hkey key' id').1

/-- The row's key is a group's only where it has the shape of one. -/
def GroupKeyed (row : StoredConversation) : Prop :=
  row.isAncsGroup = true → isAncsKey row.conversationKey = true

theorem conversationIdFor_ok
    (h : conversationIdFor aliases row random = (.ok id, aliases', random')) :
    Extends aliases aliases' ∧ aliases'.keyToId row.conversationKey = some id := by
  rcases conversationIdFor_cases h with ⟨hid, rfl⟩ | ⟨-, rfl, -, hkey, rfl⟩ | ⟨-, -, hkey, rfl⟩
  · exact ⟨.refl _, hid⟩
  · exact ⟨extends_insert hkey, if_pos rfl⟩
  · exact ⟨extends_insert hkey, if_pos rfl⟩

theorem drawId_error {error : ConversationError} : ∀ {tries : ℕ} {random : RandomBytes},
    aliases.drawId key tries random = (.error error, aliases', random') → aliases' = aliases
  | 0, _, h => by
    simp only [drawId, Prod.mk.injEq] at h
    exact h.2.1.symm
  | _ + 1, [], h => by
    simp only [drawId, Prod.mk.injEq] at h
    exact h.2.1.symm
  | _ + 1, none :: _, h => by
    simp only [drawId, Prod.mk.injEq] at h
    exact h.2.1.symm
  | tries + 1, some bytes :: random, h => by
    unfold drawId at h
    by_cases hfresh : aliases.idToKey (String.ofList (Hex.encode bytes.toList)) = none
    · simp [if_pos hfresh] at h
    · simp only [if_neg hfresh] at h
      exact drawId_error h

theorem conversationIdFor_error {error : ConversationError}
    (h : conversationIdFor aliases row random = (.error error, aliases', random')) :
    aliases' = aliases := by
  unfold conversationIdFor exposeStableId idFor at h
  rcases hkey : aliases.keyToId row.conversationKey with - | existing
  · simp only [hkey] at h
    split_ifs at h
    · simp only [Prod.mk.injEq] at h
      exact h.2.1.symm
    · simp at h
    · exact drawId_error h
  · simp [hkey] at h

theorem Valid.conversationIdFor (hvalid : aliases.Valid) (hrow : GroupKeyed row)
    {result : Except ConversationError String}
    (h : AnalogConnect.conversationIdFor aliases row random = (result, aliases', random')) :
    aliases'.Valid := by
  rcases result with error | id
  · exact conversationIdFor_error h ▸ hvalid
  · rcases conversationIdFor_cases h with ⟨-, rfl⟩ | ⟨hancs, rfl, hother, hkey, rfl⟩ |
      ⟨hrandom, hfresh, hkey, rfl⟩
    · exact hvalid
    · exact hvalid.insert (.inr ⟨rfl, hrow hancs⟩) hother hkey
    · refine hvalid.insert (.inl hrandom) ?_ hkey
      intro key' hkey'
      rw [hfresh] at hkey'
      cases hkey'

/-! ## What the phone takes -/

theorem validOperationId_of_isRandomId (h : IsRandomId id) : validOperationId id = true := by
  obtain ⟨bytes, rfl⟩ := h
  have hascii : ∀ c ∈ Hex.encode bytes.toList, c.toNat < 128 :=
    fun c hc => Hex.toNat_lt_of_isLower (Hex.isLower_of_mem_encode hc)
  have hlower : lowerHex (String.ofList (Hex.encode bytes.toList)).toList = true := by
    unfold lowerHex
    rw [String.toList_ofList, List.all_eq_true]
    exact fun c hc => decide_eq_true (Hex.isLower_of_mem_encode hc)
  unfold validOperationId
  rw [Text.utf16Length_of_ascii hascii, Hex.length_encode, hlower]
  simp

theorem Valid.validConversationId (hvalid : aliases.Valid) (h : aliases.keyToId key = some id) :
    validConversationId id = true := by
  unfold AnalogConnect.validConversationId
  rcases hvalid.fits key id h with hrandom | ⟨rfl, hshape⟩
  · rw [validOperationId_of_isRandomId hrandom, Bool.true_or]
  · rw [hshape, Bool.or_true]

/-- A drawn identifier is no group's key. -/
theorem isAncsKey_of_isRandomId (h : IsRandomId id) : isAncsKey id = false := by
  have hlength : Text.utf16Length id = 32 := by
    have hvalid := validOperationId_of_isRandomId h
    unfold validOperationId at hvalid
    simp only [Bool.and_eq_true, decide_eq_true_eq] at hvalid
    exact hvalid.1
  unfold isAncsKey
  simp [hlength]

/-! ## When identifiers can be given -/

/-- The identifiers the source answers with. -/
def randomIds (random : RandomBytes) : List String :=
  random.filterMap fun answer => answer.map fun bytes => String.ofList (Hex.encode bytes.toList)

theorem isRandomId_of_mem (h : id ∈ randomIds random) : IsRandomId id := by
  obtain ⟨answer, -, hid⟩ := List.mem_filterMap.1 h
  obtain ⟨bytes, -, rfl⟩ := Option.map_eq_some_iff.1 hid
  exact ⟨bytes, rfl⟩

/-- The source answers `n` times at least, each time with an identifier not yet given. -/
structure CanIssue (aliases : ConversationAliases) (random : RandomBytes) (n : ℕ) : Prop where
  enough : n ≤ random.length
  answers : ∀ answer ∈ random, answer ≠ none
  nodup : (randomIds random).Nodup
  fresh : ∀ id ∈ randomIds random, aliases.idToKey id = none

theorem CanIssue.conversationIdFor {n : ℕ} (h : CanIssue aliases random (n + 1))
    (hvalid : aliases.Valid) (hrow : GroupKeyed row) :
    ∃ id aliases' random',
      AnalogConnect.conversationIdFor aliases row random = (.ok id, aliases', random') ∧
        CanIssue aliases' random' n := by
  have hless : CanIssue aliases random n := { h with enough := Nat.le_of_succ_le h.enough }
  rcases hkey : aliases.keyToId row.conversationKey with - | existing
  · by_cases hancs : row.isAncsGroup = true
    · have hother : ¬ (aliases.idToKey row.conversationKey).any (· ≠ row.conversationKey) := by
        rcases hid : aliases.idToKey row.conversationKey with - | key
        · simp
        have hback := hvalid.id_of_key key _ hid
        rcases hvalid.fits key _ hback with hrandom | ⟨hsame, -⟩
        · have := isAncsKey_of_isRandomId hrandom
          rw [hrow hancs] at this
          cases this
        · simp [hsame]
      refine ⟨row.conversationKey, aliases.insert row.conversationKey row.conversationKey, random,
        ?_, { hless with fresh := fun id hid => ?_ }⟩
      · unfold AnalogConnect.conversationIdFor exposeStableId
        simp only [hancs, if_true, hkey, if_neg hother]
      · rw [idToKey_insert, if_neg, h.fresh id hid]
        rintro rfl
        have := isAncsKey_of_isRandomId (isRandomId_of_mem hid)
        rw [hrow hancs] at this
        cases this
    · rcases random with - | ⟨answer, random⟩
      · have := h.enough
        simp at this
      rcases answer with - | bytes
      · exact absurd rfl (h.answers none List.mem_cons_self)
      have hnodup : (String.ofList (Hex.encode bytes.toList) :: randomIds random).Nodup := h.nodup
      have hfresh : aliases.idToKey (String.ofList (Hex.encode bytes.toList)) = none :=
        h.fresh _ List.mem_cons_self
      refine ⟨String.ofList (Hex.encode bytes.toList),
        aliases.insert row.conversationKey (String.ofList (Hex.encode bytes.toList)), random, ?_,
        ?_⟩
      · unfold AnalogConnect.conversationIdFor idFor
        simp only [hancs, Bool.false_eq_true, if_false, hkey, drawId, hfresh, if_true]
      · refine ⟨Nat.le_of_succ_le_succ h.enough,
          fun answer hanswer => h.answers answer (List.mem_cons_of_mem _ hanswer),
          (List.nodup_cons.1 hnodup).2, fun id hid => ?_⟩
        rw [idToKey_insert, if_neg, h.fresh id (List.mem_cons_of_mem _ hid)]
        rintro rfl
        exact (List.nodup_cons.1 hnodup).1 hid
  · refine ⟨existing, aliases, random, ?_, hless⟩
    unfold AnalogConnect.conversationIdFor exposeStableId idFor
    simp only [hkey, ite_self]

end ConversationAliases

end AnalogConnect
