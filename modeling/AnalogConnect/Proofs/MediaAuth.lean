import AnalogConnect.MediaAuth

/-!
# A media session has at most one live owner

A grant's flag is set exactly while one party has a lease of it, since only the exchange that finds
it clear gives a lease and only that lease clears it. A grant that is not revoked is the one the
registry holds, since a session leaves the registry with its grant revoked, and a revoked grant
stays revoked. So an active lease is of the grant held now (`media_session_exclusive`).
-/

namespace AnalogConnect

variable {s s' : MediaSessionState} {e : MediaSessionEvent} {p q g : ℕ}

/-! ## The grants a step leaves -/

/-- The grant has been issued and revoked. -/
def Revoked (s : MediaSessionState) (g : ℕ) : Prop :=
  ∃ grant, s.grants[g]? = some grant ∧ grant.revoked = true

theorem getElem?_modify_eq_some {l : List MediaSessionGrant}
    {f : MediaSessionGrant → MediaSessionGrant} {i : ℕ} {grant : MediaSessionGrant} :
    (l.modify i f)[g]? = some grant ↔
      ∃ old, l[g]? = some old ∧ grant = if i = g then f old else old := by
  rw [List.getElem?_modify]
  constructor
  · intro h
    obtain ⟨old, hold, rfl⟩ := Option.map_eq_some_iff.1 h
    exact ⟨old, hold, rfl⟩
  · rintro ⟨old, hold, rfl⟩
    exact Option.map_eq_some_iff.2 ⟨old, hold, rfl⟩

@[simp] theorem setParty_grants (s : MediaSessionState) (p : ℕ) (phase : ClaimPhase) :
    (s.setParty p phase).grants = s.grants := rfl

@[simp] theorem setParty_party (s : MediaSessionState) (p q : ℕ) (phase : ClaimPhase) :
    (s.setParty p phase).party q = if q = p then phase else s.party q := rfl

@[simp] theorem retire_party (s : MediaSessionState) : s.retire.party = s.party := by
  unfold MediaSessionState.retire
  cases s.active <;> rfl

@[simp] theorem retire_active (s : MediaSessionState) : s.retire.active = none := by
  unfold MediaSessionState.retire
  cases h : s.active
  · exact h
  · rfl

@[simp] theorem length_retire (s : MediaSessionState) :
    s.retire.grants.length = s.grants.length := by
  unfold MediaSessionState.retire
  cases s.active
  · rfl
  · exact List.length_modify ..

/-- Retiring the session changes no flag and makes no revoked grant good. -/
theorem retire_grants {grant : MediaSessionGrant} (h : s.retire.grants[g]? = some grant) :
    ∃ old, s.grants[g]? = some old ∧ grant.claimed = old.claimed ∧
      (grant.revoked = false → old.revoked = false ∧ ∀ active ∈ s.active, active.grant ≠ g) := by
  unfold MediaSessionState.retire at h
  rcases hactive : s.active with - | previous
  · rw [hactive] at h
    exact ⟨grant, h, rfl, fun hgood => ⟨hgood, by simp⟩⟩
  · simp only [hactive] at h
    obtain ⟨old, hold, rfl⟩ := getElem?_modify_eq_some.1 h
    refine ⟨old, hold, ?_, fun hgood => ?_⟩
    · split_ifs <;> rfl
    · split_ifs at hgood with hg
      · cases hgood
      · exact ⟨hgood, by simpa using hg⟩

theorem Revoked.retire (h : Revoked s g) : Revoked s.retire g := by
  obtain ⟨grant, hgrant, hrevoked⟩ := h
  unfold Revoked MediaSessionState.retire
  cases s.active with
  | none => exact ⟨grant, hgrant, hrevoked⟩
  | some previous =>
    refine ⟨_, getElem?_modify_eq_some.2 ⟨grant, hgrant, rfl⟩, ?_⟩
    split_ifs
    · rfl
    · exact hrevoked

theorem Revoked.setClaimed {i : ℕ} {claimed : Bool} (h : Revoked s g) :
    Revoked { s with grants := s.grants.modify i (.setClaimed claimed) } g := by
  obtain ⟨grant, hgrant, hrevoked⟩ := h
  refine ⟨_, getElem?_modify_eq_some.2 ⟨grant, hgrant, rfl⟩, ?_⟩
  split_ifs
  · exact hrevoked
  · exact hrevoked

theorem issue_error {entropy : Option (Vector UInt8 48)} {lifetime now : ℕ}
    {error : MediaSessionAuthError}
    (h : MediaSessionGrant.issue entropy lifetime now = .error error) :
    (s.issue entropy lifetime now).2 = s := by
  unfold MediaSessionState.issue
  rw [h]

theorem issue_ok {entropy : Option (Vector UInt8 48)} {lifetime now : ℕ}
    {grant : MediaSessionGrant} {enrollment : MediaSessionEnrollment}
    (h : MediaSessionGrant.issue entropy lifetime now = .ok (grant, enrollment)) :
    (s.issue entropy lifetime now).2 =
      { s.retire with
        grants := s.retire.grants ++ [grant]
        active := some ⟨(decodeHex 16 enrollment.sessionId).1, s.grants.length⟩ } := by
  unfold MediaSessionState.issue
  rw [h]

theorem grant_issue_ok {entropy : Option (Vector UInt8 48)} {lifetime now : ℕ}
    {grant : MediaSessionGrant} {enrollment : MediaSessionEnrollment}
    (h : MediaSessionGrant.issue entropy lifetime now = .ok (grant, enrollment)) :
    ∃ bytes : Vector UInt8 48,
      grant = ⟨bytes.toList.drop 16, now + lifetime, false, false⟩ ∧
        enrollment.sessionId = encodeHex (bytes.toList.take 16) ∧
        enrollment.token = encodeHex (bytes.toList.drop 16) := by
  unfold MediaSessionGrant.issue at h
  split_ifs at h
  cases entropy with
  | none => cases h
  | some bytes =>
    obtain ⟨rfl, rfl⟩ := Prod.mk.inj (Except.ok.inj h)
    exact ⟨bytes, rfl, rfl, rfl⟩

/-- An issue leaves the registry as it is, or installs a new grant where the old session was. -/
theorem issue_cases (s : MediaSessionState) (entropy : Option (Vector UInt8 48))
    (lifetime now : ℕ) :
    (s.issue entropy lifetime now).2 = s ∨
      ∃ grant sessionId, grant.claimed = false ∧ (s.issue entropy lifetime now).2 =
        { s.retire with
          grants := s.retire.grants ++ [grant]
          active := some ⟨sessionId, s.grants.length⟩ } := by
  rcases hissue : MediaSessionGrant.issue entropy lifetime now with error | ⟨grant, enrollment⟩
  · exact .inl (issue_error hissue)
  · obtain ⟨bytes, rfl, -, -⟩ := grant_issue_ok hissue
    exact .inr ⟨_, _, rfl, issue_ok hissue⟩

theorem revoke_cases (s : MediaSessionState) (sessionId : String) :
    (s.revoke sessionId).2 = s ∨ (s.revoke sessionId).2 = s.retire := by
  unfold MediaSessionState.revoke
  split_ifs
  · exact .inr rfl
  · exact .inl rfl

theorem Revoked.install {grant : MediaSessionGrant} {active : Option ActiveSession}
    (h : Revoked s g) : Revoked { s with grants := s.grants ++ [grant], active } g := by
  obtain ⟨old, hold, hrevoked⟩ := h
  exact ⟨old, List.getElem?_append_left (List.getElem?_eq_some_iff.1 hold).1 ▸ hold, hrevoked⟩

/-! ## The invariant -/

/-- The phase names the grant. -/
def ClaimPhase.Names : ClaimPhase → ℕ → Prop
  | .idle, _ => False
  | .fetched grant _ _, g => grant = g
  | .authorized grant, g => grant = g
  | .leased grant, g => grant = g

/-- A claimed grant has one lease, and one not revoked is the registry's. -/
structure Exclusive (s : MediaSessionState) : Prop where
  issued : ∀ p g, (s.party p).Names g → g < s.grants.length
  active_issued : ∀ active ∈ s.active, active.grant < s.grants.length
  claimed_iff : ∀ g grant, s.grants[g]? = some grant →
    (grant.claimed = true ↔ ∃ p, s.party p = .leased g)
  unique : ∀ g p q, s.party p = .leased g → s.party q = .leased g → p = q
  held : ∀ g grant, s.grants[g]? = some grant → grant.revoked = false →
    ∃ active, s.active = some active ∧ active.grant = g

theorem exclusive_start : Exclusive .start where
  issued _ _ h := h.elim
  active_issued _ h := absurd h (Option.not_mem_none _)
  claimed_iff _ _ h := absurd h (by simp [MediaSessionState.start])
  unique _ _ _ h := ClaimPhase.noConfusion h
  held _ _ h := absurd h (by simp [MediaSessionState.start])

/-- A claim that has no lease before or after changes nothing of this. -/
theorem Exclusive.setParty {phase : ClaimPhase} (h : Exclusive s)
    (hnames : ∀ g, phase.Names g → g < s.grants.length) (hold : ∀ g, s.party p ≠ .leased g)
    (hphase : ∀ g, phase ≠ .leased g) : Exclusive (s.setParty p phase) := by
  have hleased : ∀ q g, (s.setParty p phase).party q = .leased g ↔ s.party q = .leased g := by
    intro q g
    rw [setParty_party]
    split_ifs with hq
    · rw [hq]
      exact iff_of_false (hphase g) (hold g)
    · rfl
  refine ⟨fun q g hq => ?_, h.active_issued, fun g grant hgrant => ?_, fun g q r hq hr => ?_,
    h.held⟩
  · rw [setParty_party] at hq
    split_ifs at hq
    · exact hnames g hq
    · exact h.issued q g hq
  · simp only [hleased]
    exact h.claimed_iff g grant hgrant
  · rw [hleased] at hq hr
    exact h.unique g q r hq hr

theorem Exclusive.retire (h : Exclusive s) : Exclusive s.retire := by
  refine ⟨fun p g hp => ?_, fun active hactive => ?_, fun g grant hgrant => ?_, ?_,
    fun g grant hgrant hgood => ?_⟩
  · rw [retire_party] at hp
    rw [length_retire]
    exact h.issued p g hp
  · rw [retire_active] at hactive
    cases hactive
  · obtain ⟨old, hold, hclaimed, -⟩ := retire_grants hgrant
    rw [hclaimed, retire_party]
    exact h.claimed_iff g old hold
  · rw [retire_party]
    exact h.unique
  · obtain ⟨old, hold, -, hkept⟩ := retire_grants hgrant
    obtain ⟨holdgood, hne⟩ := hkept hgood
    obtain ⟨active, hactive, hg⟩ := h.held g old hold holdgood
    exact absurd hg (hne active hactive)

/-- Once its session is retired, every grant issued so far is revoked. -/
theorem Exclusive.revoked_of_retire (h : Exclusive s) (hg : g < s.grants.length) :
    Revoked s.retire g := by
  obtain ⟨grant, hgrant⟩ : ∃ grant, s.retire.grants[g]? = some grant :=
    ⟨_, List.getElem?_eq_getElem (by rwa [length_retire])⟩
  refine ⟨grant, hgrant, ?_⟩
  by_contra hgood
  obtain ⟨active, hactive, -⟩ :=
    h.retire.held g grant hgrant (Bool.not_eq_true _ ▸ hgood)
  rw [retire_active] at hactive
  cases hactive

/-- A new grant joins those of a registry that holds none. -/
theorem Exclusive.install {grant : MediaSessionGrant} {sessionId : List UInt8} (h : Exclusive s)
    (hactive : s.active = none) (hclaimed : grant.claimed = false) :
    Exclusive { s with
      grants := s.grants ++ [grant], active := some ⟨sessionId, s.grants.length⟩ } := by
  have hsplit : ∀ g grant', (s.grants ++ [grant])[g]? = some grant' →
      s.grants[g]? = some grant' ∨ g = s.grants.length ∧ grant' = grant := by
    intro g grant' hgrant
    rcases Nat.lt_or_ge g s.grants.length with hg | hg
    · exact .inl (by rwa [List.getElem?_append_left hg] at hgrant)
    · rw [List.getElem?_append_right hg, List.getElem?_singleton] at hgrant
      split_ifs at hgrant with hzero
      exact .inr ⟨by omega, (Option.some.inj hgrant).symm⟩
  refine ⟨fun p g hp => ?_, fun active hmem => ?_, fun g grant' hgrant => ?_, h.unique,
    fun g grant' hgrant hgood => ?_⟩
  · rw [List.length_append]
    exact Nat.lt_add_right 1 (h.issued p g hp)
  · obtain rfl := Option.some.inj hmem
    simp
  · rcases hsplit g grant' hgrant with hold | ⟨rfl, rfl⟩
    · exact h.claimed_iff g grant' hold
    · rw [hclaimed]
      refine iff_of_false Bool.false_ne_true ?_
      rintro ⟨p, hp⟩
      exact absurd (h.issued p _ (by rw [hp]; rfl)) (lt_irrefl _)
  · rcases hsplit g grant' hgrant with hold | ⟨rfl, rfl⟩
    · obtain ⟨active, hsome, -⟩ := h.held g grant' hold hgood
      rw [hactive] at hsome
      cases hsome
    · exact ⟨_, rfl, rfl⟩

/-- A store to a grant's flag, with a party that leases no other grant before or after, touches no
other grant's lease. -/
theorem Exclusive.store {claimed : Bool} {phase : ClaimPhase} (h : Exclusive s)
    (hg : g < s.grants.length) (hnames : ∀ g', phase.Names g' → g = g')
    (hold : ∀ g', s.party p = .leased g' → g = g')
    (hflag : claimed = true ↔ ∃ q, (s.setParty p phase).party q = .leased g)
    (hunique : ∀ q r, (s.setParty p phase).party q = .leased g →
      (s.setParty p phase).party r = .leased g → q = r) :
    Exclusive ({ s with grants := s.grants.modify g (.setClaimed claimed) }.setParty p phase) := by
  have hother : ∀ q g', g ≠ g' →
      ((s.setParty p phase).party q = .leased g' ↔ s.party q = .leased g') := by
    intro q g' hne
    rw [setParty_party]
    split_ifs with hq
    · rw [hq]
      refine iff_of_false (fun hphase => hne (hnames g' ?_)) fun hphase => hne (hold g' hphase)
      rw [hphase]
      rfl
    · rfl
  refine ⟨fun q g' hq => ?_, fun active hactive => ?_, fun g' grant' hgrant' => ?_,
    fun g' q r hq hr => ?_, fun g' grant' hgrant' hgood => ?_⟩
  · rw [setParty_grants, List.length_modify]
    rw [setParty_party] at hq
    split_ifs at hq
    · exact hnames g' hq ▸ hg
    · exact h.issued q g' hq
  · rw [setParty_grants, List.length_modify]
    exact h.active_issued active hactive
  · obtain ⟨old, hgrant, rfl⟩ := getElem?_modify_eq_some.1 hgrant'
    by_cases hsame : g = g'
    · subst hsame
      rw [if_pos rfl]
      exact hflag
    · rw [if_neg hsame, h.claimed_iff g' old hgrant]
      exact exists_congr fun q => (hother q g' hsame).symm
  · by_cases hsame : g = g'
    · subst hsame
      exact hunique q r hq hr
    · exact h.unique g' q r ((hother q g' hsame).1 hq) ((hother r g' hsame).1 hr)
  · obtain ⟨old, hgrant, rfl⟩ := getElem?_modify_eq_some.1 hgrant'
    refine h.held g' old hgrant ?_
    split_ifs at hgood
    · exact hgood
    · exact hgood

/-- The exchange that finds the flag clear gives the grant's one lease. -/
theorem Exclusive.lease {grant : MediaSessionGrant} (h : Exclusive s)
    (hphase : s.party p = .authorized g) (hgrant : s.grants[g]? = some grant)
    (hclear : grant.claimed = false) : Exclusive
      ({ s with grants := s.grants.modify g (.setClaimed true) }.setParty p (.leased g)) := by
  have hnone : ∀ q, (s.setParty p (.leased g)).party q = .leased g → q = p := by
    intro q hq
    rw [setParty_party] at hq
    by_contra hne
    rw [if_neg hne] at hq
    have := (h.claimed_iff g grant hgrant).2 ⟨q, hq⟩
    rw [hclear] at this
    cases this
  refine h.store (h.issued p g ?_) (fun g' hg' => hg') (by simp [hphase])
    (iff_of_true rfl ⟨p, if_pos rfl⟩) fun q r hq hr => (hnone q hq).trans (hnone r hr).symm
  rw [hphase]
  rfl

/-- A dropped lease clears the flag of its own grant, which no other lease is of. -/
theorem Exclusive.drop (h : Exclusive s) (hphase : s.party p = .leased g) :
    Exclusive ({ s with grants := s.grants.modify g (.setClaimed false) }.setParty p .idle) := by
  have hnone : ∀ q, (s.setParty p .idle).party q ≠ .leased g := by
    intro q hq
    rw [setParty_party] at hq
    split_ifs at hq with hqp
    exact hqp (h.unique g q p hq hphase)
  refine h.store (h.issued p g ?_) (fun _ hg' => hg'.elim) (by simp [hphase])
    (iff_of_false Bool.false_ne_true fun ⟨q, hq⟩ => hnone q hq) fun q _ hq => absurd hq (hnone q)
  rw [hphase]
  rfl

theorem Exclusive.issue {entropy : Option (Vector UInt8 48)} {lifetime now : ℕ}
    (h : Exclusive s) : Exclusive (s.issue entropy lifetime now).2 := by
  rcases issue_cases s entropy lifetime now with hsame | ⟨grant, sessionId, hclaimed, hnew⟩
  · rwa [hsame]
  · rw [hnew, ← length_retire s]
    exact h.retire.install (retire_active s) hclaimed

theorem Exclusive.revoke {sessionId : String} (h : Exclusive s) :
    Exclusive (s.revoke sessionId).2 := by
  rcases revoke_cases s sessionId with hsame | hretired
  · rwa [hsame]
  · rw [hretired]
    exact h.retire

/-! ## Steps -/

theorem mediaSessions_step (s : MediaSessionState) (e : MediaSessionEvent) :
    mediaSessions.step s e = s.step e := rfl

theorem fetch_lt {sessionId : String} (h : Exclusive s) (hfetch : s.fetch sessionId = some g) :
    g < s.grants.length := by
  unfold MediaSessionState.fetch at hfetch
  obtain ⟨active, hactive, rfl⟩ := Option.map_eq_some_iff.1 hfetch
  exact h.active_issued active (Option.filter_eq_some_iff.1 hactive).1

/-- A party's fetch and its authorization leave the grants, and give no lease. -/
theorem step_issue {entropy : Option (Vector UInt8 48)} {lifetime now : ℕ}
    (h : mediaSessions.step s (.issue entropy lifetime now) = some s') :
    s' = s ∨ ∃ grant sessionId, grant.claimed = false ∧ s' =
      { s.retire with
        grants := s.retire.grants ++ [grant]
        active := some ⟨sessionId, s.grants.length⟩ } := by
  obtain rfl := Option.some.inj h
  exact issue_cases s entropy lifetime now

theorem step_revoke {sessionId : String}
    (h : mediaSessions.step s (.revoke sessionId) = some s') : s' = s ∨ s' = s.retire := by
  obtain rfl := Option.some.inj h
  exact revoke_cases s sessionId

theorem step_fetch {sessionId token : String} {now : ℕ}
    (h : mediaSessions.step s (.fetch p sessionId token now) = some s') :
    s.party p = .idle ∧ (s' = s ∨ ∃ g, s.fetch sessionId = some g ∧
      s' = s.setParty p (.fetched g token now)) := by
  rw [mediaSessions_step] at h
  simp only [MediaSessionState.step] at h
  split_ifs at h with hidle
  refine ⟨hidle, ?_⟩
  rcases hfetch : s.fetch sessionId with - | g
  · rw [hfetch] at h
    exact .inl (Option.some.inj h).symm
  · rw [hfetch] at h
    exact .inr ⟨g, rfl, (Option.some.inj h).symm⟩

theorem step_authorize (h : mediaSessions.step s (.authorize p) = some s') :
    ∃ g token now, s.party p = .fetched g token now ∧
      (s' = s.setParty p .idle ∨ s' = s.setParty p (.authorized g)) := by
  rw [mediaSessions_step] at h
  simp only [MediaSessionState.step] at h
  rcases hphase : s.party p with - | ⟨g, token, now⟩ | g | g
  · simp [hphase] at h
  · refine ⟨g, token, now, rfl, ?_⟩
    simp only [hphase] at h
    split_ifs at h
    · exact .inr (Option.some.inj h).symm
    · exact .inl (Option.some.inj h).symm
  · simp [hphase] at h
  · simp [hphase] at h

theorem step_compareExchange (h : mediaSessions.step s (.compareExchange p) = some s') :
    ∃ g, s.party p = .authorized g ∧ (s' = s.setParty p .idle ∨
      ∃ grant, s.grants[g]? = some grant ∧ grant.claimed = false ∧
        s' = { s with grants := s.grants.modify g (.setClaimed true) }.setParty p (.leased g)) := by
  rw [mediaSessions_step] at h
  simp only [MediaSessionState.step] at h
  rcases hphase : s.party p with - | ⟨g, token, now⟩ | g | g
  · simp [hphase] at h
  · simp [hphase] at h
  · refine ⟨g, rfl, ?_⟩
    simp only [hphase] at h
    split_ifs at h with hclear
    · obtain ⟨grant, hgrant, hclaimed⟩ := (Option.any_eq_true ..).1 hclear
      exact .inr ⟨grant, hgrant, by simpa using hclaimed, (Option.some.inj h).symm⟩
    · exact .inl (Option.some.inj h).symm
  · simp [hphase] at h

theorem step_drop (h : mediaSessions.step s (.drop p) = some s') :
    ∃ g, s.party p = .leased g ∧
      s' = { s with grants := s.grants.modify g (.setClaimed false) }.setParty p .idle := by
  rw [mediaSessions_step] at h
  simp only [MediaSessionState.step] at h
  rcases hphase : s.party p with - | ⟨g, token, now⟩ | g | g
  · simp [hphase] at h
  · simp [hphase] at h
  · simp [hphase] at h
  · simp only [hphase] at h
    exact ⟨g, rfl, (Option.some.inj h).symm⟩

theorem Exclusive.step (hinv : Exclusive s) (h : mediaSessions.step s e = some s') :
    Exclusive s' := by
  cases e with
  | issue entropy lifetime now =>
    rw [← Option.some.inj h]
    exact hinv.issue
  | revoke sessionId =>
    rw [← Option.some.inj h]
    exact hinv.revoke
  | fetch p sessionId token now =>
    obtain ⟨hidle, rfl | ⟨g, hfetch, rfl⟩⟩ := step_fetch h
    · exact hinv
    · refine hinv.setParty (fun g' hg' => ?_) (by simp [hidle]) (by simp)
      obtain rfl : g = g' := hg'
      exact fetch_lt hinv hfetch
  | authorize p =>
    obtain ⟨g, token, now, hphase, rfl | rfl⟩ := step_authorize h
    · exact hinv.setParty (fun _ hg => hg.elim) (by simp [hphase]) (by simp)
    · refine hinv.setParty (fun g' hg' => ?_) (by simp [hphase]) (by simp)
      exact hinv.issued p g' (by rw [hphase]; exact hg')
  | compareExchange p =>
    obtain ⟨g, hphase, rfl | ⟨grant, hgrant, hclear, rfl⟩⟩ := step_compareExchange h
    · exact hinv.setParty (fun _ hg => hg.elim) (by simp [hphase]) (by simp)
    · exact hinv.lease hphase hgrant hclear
  | drop p =>
    obtain ⟨g, hphase, rfl⟩ := step_drop h
    exact hinv.drop hphase

/-- What is revoked stays revoked. -/
theorem Revoked.step (hrevoked : Revoked s g) (h : mediaSessions.step s e = some s') :
    Revoked s' g := by
  cases e with
  | issue entropy lifetime now =>
    obtain rfl | ⟨grant, sessionId, -, rfl⟩ := step_issue h
    · exact hrevoked
    · exact hrevoked.retire.install
  | revoke sessionId =>
    obtain rfl | rfl := step_revoke h
    · exact hrevoked
    · exact hrevoked.retire
  | fetch p sessionId token now =>
    obtain ⟨-, rfl | ⟨g', -, rfl⟩⟩ := step_fetch h
    · exact hrevoked
    · exact hrevoked
  | authorize p =>
    obtain ⟨-, -, -, -, rfl | rfl⟩ := step_authorize h
    · exact hrevoked
    · exact hrevoked
  | compareExchange p =>
    obtain ⟨g', -, rfl | ⟨-, -, -, rfl⟩⟩ := step_compareExchange h
    · exact hrevoked
    · exact hrevoked.setClaimed
  | drop p =>
    obtain ⟨g', -, rfl⟩ := step_drop h
    exact hrevoked.setClaimed

theorem exclusive_of_run {es : List MediaSessionEvent}
    (h : mediaSessions.run .start es = some s) : Exclusive s :=
  mediaSessions.run_invariant (fun _ _ _ hinv hstep => hinv.step hstep) exclusive_start h

/-! ## Owners -/

theorem leaseIsActive_iff : s.leaseIsActive p = true ↔
    ∃ g grant, s.party p = .leased g ∧ s.grants[g]? = some grant ∧ grant.revoked = false := by
  unfold MediaSessionState.leaseIsActive
  rcases hphase : s.party p with - | ⟨g, token, now⟩ | g | g
  · simp
  · simp
  · simp
  · simp [Option.any_eq_true]

theorem Exclusive.owner (hinv : Exclusive s) (h : s.leaseIsActive p = true) :
    ∃ active, s.active = some active ∧ s.party p = .leased active.grant := by
  obtain ⟨g, grant, hphase, hgrant, hgood⟩ := leaseIsActive_iff.1 h
  obtain ⟨active, hactive, rfl⟩ := hinv.held g grant hgrant hgood
  exact ⟨active, hactive, hphase⟩

theorem Exclusive.owner_unique (hinv : Exclusive s) (hp : s.leaseIsActive p = true)
    (hq : s.leaseIsActive q = true) : p = q := by
  obtain ⟨active, hactive, hp⟩ := hinv.owner hp
  obtain ⟨active', hactive', hq⟩ := hinv.owner hq
  obtain rfl := Option.some.inj (hactive.symm.trans hactive')
  exact hinv.unique active.grant p q hp hq

theorem Revoked.not_active (h : Revoked s g) (hp : s.party p = .leased g) :
    s.leaseIsActive p = false := by
  obtain ⟨grant, hgrant, hrevoked⟩ := h
  unfold MediaSessionState.leaseIsActive
  simp [hp, hgrant, hrevoked]

/-- The event replaces the session held, or takes it out. -/
def Supersedes (s : MediaSessionState) : MediaSessionEvent → Prop
  | .issue entropy lifetime now => ∃ enrollment, (s.issue entropy lifetime now).1 = .ok enrollment
  | .revoke sessionId => (s.revoke sessionId).1 = true
  | _ => False

theorem Exclusive.superseded (hinv : Exclusive s) (hsup : Supersedes s e)
    (h : mediaSessions.step s e = some s') (hg : g < s.grants.length) : Revoked s' g := by
  cases e with
  | issue entropy lifetime now =>
    obtain ⟨enrollment, hok⟩ := hsup
    rw [← Option.some.inj h]
    rcases hissue : MediaSessionGrant.issue entropy lifetime now with error | ⟨grant, enrollment'⟩
    · unfold MediaSessionState.issue at hok
      rw [hissue] at hok
      cases hok
    · rw [issue_ok hissue]
      exact (hinv.revoked_of_retire hg).install
  | revoke sessionId =>
    rw [← Option.some.inj h]
    have hsup : (s.revoke sessionId).1 = true := hsup
    unfold MediaSessionState.revoke at hsup ⊢
    by_cases hmatch : (s.active.any fun active => active.idMatches sessionId) = true
    · rw [if_pos hmatch]
      exact hinv.revoked_of_retire hg
    · rw [if_neg hmatch] at hsup
      cases hsup
  | fetch p sessionId token now => exact hsup.elim
  | authorize p => exact hsup.elim
  | compareExchange p => exact hsup.elim
  | drop p => exact hsup.elim

/-- A drop leaves the other leases and the flags of their grants. -/
theorem Exclusive.drop_frame (hinv : Exclusive s) (h : mediaSessions.step s (.drop p) = some s')
    (hqp : q ≠ p) (hq : s.party q = .leased g) :
    s'.party q = .leased g ∧ ∃ grant, s'.grants[g]? = some grant ∧ grant.claimed = true := by
  have hinv' := hinv.step h
  obtain ⟨g', hp, rfl⟩ := step_drop h
  have hq' : ({ s with grants := s.grants.modify g' (.setClaimed false) }.setParty p .idle).party q
      = .leased g := by
    rw [setParty_party, if_neg hqp]
    exact hq
  refine ⟨hq', ?_⟩
  have hg := hinv'.issued q g (by rw [hq']; rfl)
  exact ⟨_, List.getElem?_eq_getElem hg,
    (hinv'.claimed_iff g _ (List.getElem?_eq_getElem hg)).2 ⟨q, hq'⟩⟩

/-- In every state a run reaches, one lease at most is active, and its grant is the one the registry
holds; no lease of a grant issued before a replacement or a revocation is active after it; and a
dropped lease leaves every other with its claim. -/
theorem media_session_exclusive {es : List MediaSessionEvent} {s : MediaSessionState}
    (hrun : mediaSessions.run .start es = some s) :
    (∀ p q, s.leaseIsActive p = true → s.leaseIsActive q = true → p = q) ∧
      (∀ p, s.leaseIsActive p = true →
        ∃ active, s.active = some active ∧ s.party p = .leased active.grant) ∧
      (∀ past e future t, es = past ++ e :: future → mediaSessions.run .start past = some t →
        Supersedes t e → ∀ p, ∀ g < t.grants.length, s.party p = .leased g →
          s.leaseIsActive p = false) ∧
      ∀ p s', mediaSessions.step s (.drop p) = some s' → ∀ q g, q ≠ p → s.party q = .leased g →
        s'.party q = .leased g ∧ ∃ grant, s'.grants[g]? = some grant ∧ grant.claimed = true := by
  have hinv := exclusive_of_run hrun
  refine ⟨fun p q => hinv.owner_unique, fun p => hinv.owner, ?_, ?_⟩
  · rintro past e future t rfl ht hsup p g hg hp
    obtain ⟨t₀, ht₀, hrest⟩ := mediaSessions.run_append_eq_some.1 hrun
    obtain rfl := Option.some.inj (ht.symm.trans ht₀)
    obtain ⟨t', hstep, hfuture⟩ := mediaSessions.run_cons_eq_some.1 hrest
    have hrevoked : Revoked s g :=
      mediaSessions.run_invariant (P := fun t => Revoked t g) (fun _ _ _ hr hs => hr.step hs)
        ((exclusive_of_run ht).superseded hsup hstep hg) hfuture
    exact hrevoked.not_active hp
  · intro p s' hstep q g hqp hq
    exact hinv.drop_frame hstep hqp hq

/-- The run of a claim, and of a second on the same grant that comes too late. -/
def contestedRun : List MediaSessionEvent :=
  [.issue (some (Vector.replicate 48 7)) 60000000000 0,
    .fetch 0 (encodeHex (List.replicate 16 7)) (encodeHex (List.replicate 32 7)) 1,
    .fetch 1 (encodeHex (List.replicate 16 7)) (encodeHex (List.replicate 32 7)) 1,
    .authorize 1, .authorize 0, .compareExchange 0, .compareExchange 1]

theorem media_session_exclusive_contested : ∃ s, mediaSessions.run .start contestedRun = some s ∧
    s.leaseIsActive 0 = true ∧ ∀ q, s.leaseIsActive q = true → q = 0 := by
  have hrun : ((mediaSessions.run .start contestedRun).any fun s => s.leaseIsActive 0) = true := by
    rfl
  obtain ⟨s, hs, hactive⟩ := (Option.any_eq_true ..).1 hrun
  exact ⟨s, hs, hactive, fun q hq => (media_session_exclusive hs).1 q 0 hq hactive⟩

/-! ## The party enrolled -/

theorem decodeHex_encodeHex {bytes : List UInt8} {n : ℕ} (h : bytes.length = n) :
    decodeHex n (encodeHex bytes) = (bytes, true) := by
  have hascii : ∀ c ∈ Hex.encode bytes, c.toNat < 128 :=
    fun c hc => Hex.toNat_lt_of_isLower (Hex.isLower_of_mem_encode hc)
  have hsize : (String.ofList (Hex.encode bytes)).utf8ByteSize = n * 2 := by
    rw [Text.utf8ByteSize_of_ascii hascii, Hex.length_encode, h, Nat.mul_comm]
  have hall : ((Hex.encode bytes).all fun c => c.toNat < 128) = true := by
    simpa using hascii
  unfold decodeHex encodeHex
  rw [String.toList_ofList, hsize, hall, Hex.decode_encode]
  simp

theorem fetch_succeeds {sessionId token : String} {now : ℕ} (hidle : s.party p = .idle)
    (hfetch : s.fetch sessionId = some g) :
    mediaSessions.step s (.fetch p sessionId token now)
      = some (s.setParty p (.fetched g token now)) := by
  rw [mediaSessions_step]
  simp [MediaSessionState.step, hidle, hfetch]

theorem authorize_succeeds {grant : MediaSessionGrant} {token : String} {now : ℕ}
    (hphase : s.party p = .fetched g token now) (hgrant : s.grants[g]? = some grant)
    (hauthorize : grant.authorize token now = true) :
    mediaSessions.step s (.authorize p) = some (s.setParty p (.authorized g)) := by
  rw [mediaSessions_step]
  simp [MediaSessionState.step, hphase, hgrant, hauthorize]

theorem exchange_succeeds {grant : MediaSessionGrant} (hphase : s.party p = .authorized g)
    (hgrant : s.grants[g]? = some grant) (hclaimed : grant.claimed = false) :
    mediaSessions.step s (.compareExchange p) = some
      ({ s with grants := s.grants.modify g (.setClaimed true) }.setParty p (.leased g)) := by
  rw [mediaSessions_step]
  simp [MediaSessionState.step, hphase, hgrant, hclaimed]

theorem grant_issue_of_issue {entropy : Option (Vector UInt8 48)} {lifetime now : ℕ}
    {enrollment : MediaSessionEnrollment}
    (h : (s.issue entropy lifetime now).1 = .ok enrollment) :
    ∃ grant, MediaSessionGrant.issue entropy lifetime now = .ok (grant, enrollment) := by
  unfold MediaSessionState.issue at h
  rcases hissue : MediaSessionGrant.issue entropy lifetime now with error | ⟨grant, enrollment'⟩
  · rw [hissue] at h
    cases h
  · rw [hissue] at h
    exact ⟨grant, by rw [Except.ok.inj h]⟩

/-- Who presents the enrollment in time, with no other party in between, gets an active lease. -/
theorem enrolled_claim {entropy : Option (Vector UInt8 48)} {lifetime now now' : ℕ}
    {enrollment : MediaSessionEnrollment}
    (hissue : (s.issue entropy lifetime now).1 = .ok enrollment) (hidle : s.party p = .idle)
    (hnow : now' < now + lifetime) :
    ∃ s', mediaSessions.run s [.issue entropy lifetime now,
        .fetch p enrollment.sessionId enrollment.token now', .authorize p, .compareExchange p]
          = some s' ∧ s'.leaseIsActive p = true := by
  obtain ⟨grant, hgrant⟩ := grant_issue_of_issue hissue
  obtain ⟨bytes, rfl, hid, htoken⟩ := grant_issue_ok hgrant
  have hidbytes : decodeHex 16 enrollment.sessionId = (bytes.toList.take 16, true) := by
    rw [hid]
    exact decodeHex_encodeHex (by simp)
  have htokenbytes : decodeHex 32 enrollment.token = (bytes.toList.drop 16, true) := by
    rw [htoken]
    exact decodeHex_encodeHex (by simp)
  have hfirst := issue_ok (s := s) hgrant
  set t := (s.issue entropy lifetime now).2 with ht
  have hplace : t.grants[s.grants.length]?
      = some ⟨bytes.toList.drop 16, now + lifetime, false, false⟩ := by
    rw [hfirst, ← length_retire s]
    exact List.getElem?_concat_length
  have hfetch : t.fetch enrollment.sessionId = some s.grants.length := by
    rw [hfirst]
    simp [MediaSessionState.fetch, ActiveSession.idMatches, hidbytes]
  have hphase : t.party p = .idle := by
    rw [hfirst]
    simp [hidle]
  have hnew : MediaSessionGrant.authorize ⟨bytes.toList.drop 16, now + lifetime, false, false⟩
      enrollment.token now' = true := by
    simp [MediaSessionGrant.authorize, htokenbytes, hnow]
  set t₁ := t.setParty p (.fetched s.grants.length enrollment.token now')
  set t₂ := t₁.setParty p (.authorized s.grants.length)
  have hfetched : mediaSessions.step t (.fetch p enrollment.sessionId enrollment.token now')
      = some t₁ := fetch_succeeds hphase hfetch
  have hauthorized : mediaSessions.step t₁ (.authorize p) = some t₂ :=
    authorize_succeeds (if_pos rfl) hplace hnew
  have hleased : mediaSessions.step t₂ (.compareExchange p) = some
      ({ t₂ with grants := t₂.grants.modify s.grants.length (.setClaimed true) }.setParty p
        (.leased s.grants.length)) := exchange_succeeds (if_pos rfl) hplace rfl
  refine ⟨_, mediaSessions.run_cons_eq_some.2 ⟨t, rfl, mediaSessions.run_cons_eq_some.2
    ⟨t₁, hfetched, mediaSessions.run_cons_eq_some.2 ⟨t₂, hauthorized,
      (mediaSessions.run_singleton _ _).trans hleased⟩⟩⟩, ?_⟩
  rw [leaseIsActive_iff]
  exact ⟨s.grants.length, _, if_pos rfl, getElem?_modify_eq_some.2 ⟨_, hplace, rfl⟩,
    by simp [MediaSessionGrant.setClaimed]⟩

end AnalogConnect
