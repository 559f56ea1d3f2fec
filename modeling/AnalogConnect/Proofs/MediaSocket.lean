import AnalogConnect.MediaSocket
import AnalogConnect.Proofs.JitterAgreement
import AnalogConnect.Proofs.MediaAuth

/-!
# When one session's audio stays out of the next one's call

A task that has lost its lease still pushes what it was about to: the receive loop looks at the
lease before it waits for a message and not again before it pushes, and the capture worker looks at
its own flag only, which is set after the loops have ended. So a frame of the first session can
enter a queue that the second has already reset. It cannot when the first is quiet at that reset,
and it always can when it is not (`media_sockets_isolated`).
-/

namespace AnalogConnect

/-! ## One task -/

namespace MediaTask

/-- The task has a lease. -/
def Alive (task : MediaTask) : Prop := task.phase ≠ .waiting ∧ task.phase ≠ .ended

/-- The task has reset the bridge. -/
def Begun (task : MediaTask) : Prop := task.phase ≠ .waiting ∧ task.phase ≠ .claimed

/-- The receive loop has nothing to push before its next check of the lease. -/
def LoopQuiet : MediaPhase → Prop
  | .waiting | .claimed | .resetting | .starting => False
  | .running .awaiting | .running (.pushing (_ :: _)) => False
  | _ => True

/-- Neither the loop nor the worker pushes again before it looks at the lease or the flag, and the
flag is set. -/
@[mk_iff]
structure Quiet (task : MediaTask) : Prop where
  loop : LoopQuiet task.phase
  worker : task.capture = .ended ∨ task.capture = .checking ∧ task.stop = true

/-- There is a worker once the task has begun to start the live bridge. -/
def Staffed (task : MediaTask) : Prop :=
  task.capture = .absent →
    task.phase = .waiting ∨ task.phase = .claimed ∨ task.phase = .resetting ∨ task.phase = .starting

variable {task task' : MediaTask} {active : Bool} {e : MediaTaskEvent} {effect : MediaEffect}

theorem received_eq (message : SocketMessage) :
    (∃ receive, received message = .running receive) ∨ received message = .leaving := by
  unfold received
  split
  · split_ifs
    · split
      · exact .inl ⟨_, rfl⟩
      · exact .inr rfl
    · exact .inr rfl
  · exact .inl ⟨_, rfl⟩
  · exact .inr rfl

/-- A message's packets are never too many bytes to be received. -/
theorem length_packetsBytes_le : ∀ {packets : List AudioPacket},
    (∀ packet ∈ packets, packet.frame.Encodable) →
      (packetsBytes packets).length ≤ 264 * packets.length
  | [], _ => le_rfl
  | packet :: packets, h => by
    have hpacket := h packet List.mem_cons_self
    obtain ⟨bytes, hbytes⟩ := AudioPacket.exists_encode hpacket
    have hrest := length_packetsBytes_le fun packet' hmem => h packet' (List.mem_cons_of_mem _ hmem)
    have hlength : bytes.length ≤ 264 := by
      rw [AudioPacket.length_encode hbytes]
      rcases hpacket.1 with hf | hf <;> rw [hf] <;> decide
    rw [packetsBytes_cons hbytes, List.length_append, List.length_cons]
    omega

theorem received_batch {packets : List AudioPacket} (h : IsBatch packets) :
    received (.binary (packetsBytes packets))
      = .running (.pushing (packets.map AudioPacket.frame)) := by
  have hlength : (packetsBytes packets).length ≤ maxMediaMessageBytes :=
    (length_packetsBytes_le h.encodable).trans (Nat.mul_le_mul_left 264 h.length_le)
  simp only [received, if_pos hlength, h.decodeAudioBatch]

@[simp] theorem received_begun (message : SocketMessage) :
    received message ≠ .waiting ∧ received message ≠ .claimed := by
  rcases received_eq message with ⟨receive, h⟩ | h <;> simp [h]

/-- No step leads to a task that waits or is only claimed, and the one that begins is the first
reset. -/
theorem step_phase (h : task.step active e = some (task', effect)) :
    (task'.Alive → task.Alive) ∧ (task.Begun → task'.Begun) ∧
      (task'.Begun → task.Begun ∨ e = .resetUplink ∧ task.phase = .claimed) := by
  unfold step at h
  split at h <;> split at h <;> cases h
  all_goals simp_all [Alive, Begun]
  all_goals split_ifs <;> simp

theorem step_dropLease (h : task.step active e = some (task', .dropLease)) :
    ¬ task'.Alive := by
  unfold step at h
  split at h <;> split at h <;> cases h
  simp [Alive]

theorem step_reset {direction : AudioDirection}
    (h : task.step active e = some (task', .reset direction)) : task'.Begun := by
  unfold step at h
  split at h <;> split at h <;> cases h <;> simp [Begun]

theorem Staffed.step (hs : task.Staffed) (h : task.step active e = some (task', effect)) :
    task'.Staffed := by
  unfold MediaTask.step at h
  split at h <;> split at h <;> cases h <;> simp_all [Staffed]
  split_ifs <;> simp

theorem Quiet.step (hq : task.Quiet) (hlost : active = true → task.phase = .ended)
    (h : task.step active e = some (task', effect)) :
    task'.Quiet ∧ (effect = .silent ∨ effect = .dropLease) := by
  rw [quiet_iff] at hq ⊢
  unfold MediaTask.step at h
  split at h <;> split at h <;> cases h
  all_goals simp_all [LoopQuiet]
  · split_ifs <;> simp
  · exact hq.imp_right And.left

end MediaTask

/-! ## The registry -/

section Registry

variable {s s' : MediaSessionState} {e : MediaSessionEvent} {p g g' : ℕ}

/-- The grant the registry holds is the last one issued. -/
def Newest (s : MediaSessionState) : Prop := ∀ active ∈ s.active, active.grant + 1 = s.grants.length

theorem Newest.step (hn : Newest s) (h : mediaSessions.step s e = some s') : Newest s' := by
  cases e with
  | issue entropy lifetime now =>
    obtain rfl | ⟨grant, sessionId, -, rfl⟩ := step_issue h
    · exact hn
    · intro active hactive
      obtain rfl := Option.some.inj hactive
      simp
  | revoke sessionId =>
    obtain rfl | rfl := step_revoke h
    · exact hn
    · simp [Newest]
  | fetch p sessionId token now =>
    obtain ⟨-, rfl | ⟨g, -, rfl⟩⟩ := step_fetch h
    · exact hn
    · exact hn
  | authorize p =>
    obtain ⟨-, -, -, -, rfl | rfl⟩ := step_authorize h
    · exact hn
    · exact hn
  | compareExchange p =>
    obtain ⟨g, -, rfl | ⟨-, -, -, rfl⟩⟩ := step_compareExchange h
    · exact hn
    · intro active hactive
      rw [setParty_grants, List.length_modify]
      exact hn active hactive
  | drop p =>
    obtain ⟨g, -, rfl⟩ := step_drop h
    intro active hactive
    rw [setParty_grants, List.length_modify]
    exact hn active hactive

/-- A grant is revoked once a later one has been issued. -/
theorem Exclusive.revoked_of_lt (hinv : Exclusive s) (hn : Newest s) (hlt : g < g')
    (hg' : g' < s.grants.length) : Revoked s g := by
  have hgrant := List.getElem?_eq_getElem (hlt.trans hg')
  refine ⟨_, hgrant, ?_⟩
  by_contra hgood
  obtain ⟨active, hactive, rfl⟩ := hinv.held g _ hgrant (Bool.not_eq_true _ ▸ hgood)
  have := hn active hactive
  omega

/-- Only its own party drops a lease. -/
theorem step_leased (hp : s.party p = .leased g) (hne : e ≠ .drop p)
    (h : mediaSessions.step s e = some s') : s'.party p = .leased g := by
  have hother : ∀ {q phase}, s.party q ≠ .leased g → (s.setParty q phase).party p = .leased g := by
    intro q phase hq
    rw [setParty_party, if_neg, hp]
    rintro rfl
    exact hq hp
  cases e with
  | issue entropy lifetime now =>
    obtain rfl | ⟨grant, sessionId, -, rfl⟩ := step_issue h
    · exact hp
    · simpa using hp
  | revoke sessionId =>
    obtain rfl | rfl := step_revoke h
    · exact hp
    · simpa using hp
  | fetch q sessionId token now =>
    obtain ⟨hidle, rfl | ⟨g', -, rfl⟩⟩ := step_fetch h
    · exact hp
    · exact hother (by simp [hidle])
  | authorize q =>
    obtain ⟨g', token, now, hphase, rfl | rfl⟩ := step_authorize h
    · exact hother (by simp [hphase])
    · exact hother (by simp [hphase])
  | compareExchange q =>
    obtain ⟨g', hphase, rfl | ⟨-, -, -, rfl⟩⟩ := step_compareExchange h
    · exact hother (by simp [hphase])
    · exact hother (by simp [hphase])
  | drop q =>
    obtain ⟨g', -, rfl⟩ := step_drop h
    rw [setParty_party, if_neg]
    · exact hp
    · rintro rfl
      exact hne rfl

end Registry

/-! ## Steps of the two -/

section Steps

variable {s s' : MediaBridgeState} {e : MediaBridgeEvent} {party p : MediaParty}
  {task : MediaTask} {effect : MediaEffect}

theorem MediaParty.index_injective {p q : MediaParty} (h : p.index = q.index) : p = q := by
  cases p <;> cases q <;> first | rfl | cases h

/-- What an effect adds to the log. -/
def MediaEffect.records (party : MediaParty) : MediaEffect → List BridgeRecord
  | .reset direction => [.reset party direction]
  | .push direction frame _ => [.push party direction frame]
  | .silent => []
  | .dropLease => []

theorem mem_records_reset {direction : AudioDirection} :
    .reset p direction ∈ effect.records party ↔ p = party ∧ effect = .reset direction := by
  cases effect <;> simp [MediaEffect.records, eq_comm]

theorem mem_records_push {direction : AudioDirection} {frame : AudioFrame} :
    .push p direction frame ∈ effect.records party ↔
      p = party ∧ ∃ now, effect = .push direction frame now := by
  cases effect <;> simp [MediaEffect.records, eq_comm]

@[simp] theorem setTask_self (s : MediaBridgeState) (p : MediaParty) (task : MediaTask) :
    (s.setTask p task).task p = task := if_pos rfl

theorem setTask_of_ne {q : MediaParty} (h : q ≠ p) :
    (s.setTask p task).task q = s.task q := if_neg h

theorem apply_task (h : s.apply party effect = some s') : s'.task = s.task := by
  unfold MediaBridgeState.apply at h
  split at h
  · cases h
    rfl
  · cases h
    rfl
  · cases h
    rfl
  · obtain ⟨sessions, -, rfl⟩ := Option.map_eq_some_iff.1 h
    rfl

theorem apply_log (h : s.apply party effect = some s') :
    s'.log = s.log ++ effect.records party := by
  unfold MediaBridgeState.apply at h
  split at h
  · cases h
    exact (List.append_nil _).symm
  · cases h
    rfl
  · cases h
    rfl
  · obtain ⟨sessions, -, rfl⟩ := Option.map_eq_some_iff.1 h
    exact (List.append_nil _).symm

theorem apply_sessions (h : s.apply party effect = some s') :
    s'.sessions = s.sessions ∨ effect = .dropLease ∧
      mediaSessions.step s.sessions (.drop party.index) = some s'.sessions := by
  unfold MediaBridgeState.apply at h
  split at h
  · cases h
    exact .inl rfl
  · cases h
    exact .inl rfl
  · cases h
    exact .inl rfl
  · obtain ⟨sessions, hdrop, rfl⟩ := Option.map_eq_some_iff.1 h
    exact .inr ⟨rfl, hdrop⟩

theorem apply_of_ne (party : MediaParty) (s : MediaBridgeState) (h : effect ≠ .dropLease) :
    ∃ s', s.apply party effect = some s' ∧ s'.sessions = s.sessions := by
  cases effect with
  | silent => exact ⟨_, rfl, rfl⟩
  | reset direction => exact ⟨_, rfl, rfl⟩
  | push direction frame now => exact ⟨_, rfl, rfl⟩
  | dropLease => exact absurd rfl h

theorem mediaBridges_step (s : MediaBridgeState) (e : MediaBridgeEvent) :
    mediaBridges.step s e = s.step e := rfl

theorem step_session {event : MediaSessionEvent}
    (h : mediaBridges.step s (.session event) = some s') :
    s.owned event = false ∧ ∃ sessions, mediaSessions.step s.sessions event = some sessions ∧
      s' = { s with sessions } := by
  rw [mediaBridges_step] at h
  simp only [MediaBridgeState.step] at h
  split_ifs at h with howned
  obtain ⟨sessions, hstep, rfl⟩ := Option.map_eq_some_iff.1 h
  exact ⟨Bool.eq_false_iff.2 howned, sessions, hstep, rfl⟩

theorem step_upgrade (h : mediaBridges.step s (.upgrade party) = some s') :
    (s.task party).phase = .waiting ∧ (∃ g, s.sessions.party party.index = .leased g) ∧
      s' = s.setTask party ⟨.claimed, .absent, false⟩ := by
  rw [mediaBridges_step] at h
  simp only [MediaBridgeState.step] at h
  split at h
  · rename_i g hphase hparty
    exact ⟨hphase, ⟨g, hparty⟩, (Option.some.inj h).symm⟩
  · cases h

theorem step_task {event : MediaTaskEvent}
    (h : mediaBridges.step s (.task party event) = some s') :
    ∃ task effect,
      (s.task party).step (s.sessions.leaseIsActive party.index) event = some (task, effect) ∧
        (s.setTask party task).apply party effect = some s' := by
  rw [mediaBridges_step] at h
  simp only [MediaBridgeState.step] at h
  split at h
  · cases h
  · rename_i task effect hstep
    exact ⟨task, effect, hstep, h⟩

/-- A task whose step does not drop its lease takes it. -/
theorem task_steps (party : MediaParty) (event : MediaTaskEvent)
    (h : (s.task party).step (s.sessions.leaseIsActive party.index) event = some (task, effect))
    (hne : effect ≠ .dropLease) :
    ∃ s', mediaBridges.step s (.task party event) = some s' ∧
      s'.task = (s.setTask party task).task ∧ s'.sessions = s.sessions ∧
      s'.log = s.log ++ effect.records party := by
  obtain ⟨s', happly, hsessions⟩ := apply_of_ne party (s.setTask party task) hne
  refine ⟨s', ?_, apply_task happly, hsessions, (apply_log happly).trans rfl⟩
  rw [mediaBridges_step]
  simp only [MediaBridgeState.step, h]
  exact happly

/-- A lease is not dropped under its task. -/
theorem ne_drop_of_owned {event : MediaSessionEvent} (h : s.owned event = false)
    (halive : (s.task p).Alive) : event ≠ .drop p.index := by
  rintro rfl
  have : s.owned (.drop p.index) = true := by
    unfold MediaBridgeState.owned
    rw [List.any_eq_true]
    exact ⟨p, by cases p <;> simp, by simpa [MediaTask.Alive] using halive⟩
  rw [h] at this
  cases this

end Steps

/-! ## What every run keeps -/

/-- What holds of the two tasks and the registry however they interleave. -/
structure SocketsSound (s : MediaBridgeState) : Prop where
  exclusive : Exclusive s.sessions
  newest : Newest s.sessions
  leased : ∀ p, (s.task p).Alive → ∃ g, s.sessions.party p.index = .leased g
  staffed : ∀ p, (s.task p).Staffed
  begun : ∀ p d, .reset p d ∈ s.log → (s.task p).Begun

section Sound

variable {s s' : MediaBridgeState} {e : MediaBridgeEvent}

theorem socketsSound_start (bridge : AudioBridge) : SocketsSound (.start bridge) where
  exclusive := exclusive_start
  newest _ h := absurd h (Option.not_mem_none _)
  leased _ h := absurd rfl h.1
  staffed _ _ := .inl rfl
  begun _ _ h := absurd h List.not_mem_nil

/-- The registry is used by nobody who would drop a task's lease. -/
theorem SocketsSound.session {event : MediaSessionEvent} {sessions : MediaSessionState}
    (h : SocketsSound s) (howned : s.owned event = false)
    (hstep : mediaSessions.step s.sessions event = some sessions) :
    SocketsSound { s with sessions } where
  exclusive := h.exclusive.step hstep
  newest := h.newest.step hstep
  leased p halive := by
    obtain ⟨g, hg⟩ := h.leased p halive
    exact ⟨g, step_leased hg (ne_drop_of_owned howned halive) hstep⟩
  staffed := h.staffed
  begun := h.begun

theorem SocketsSound.upgrade {party : MediaParty} (h : SocketsSound s)
    (hwaiting : (s.task party).phase = .waiting)
    (hleased : ∃ g, s.sessions.party party.index = .leased g) :
    SocketsSound (s.setTask party ⟨.claimed, .absent, false⟩) where
  exclusive := h.exclusive
  newest := h.newest
  leased p halive := by
    by_cases hp : p = party
    · exact hp ▸ hleased
    · rw [setTask_of_ne hp] at halive
      exact h.leased p halive
  staffed p := by
    by_cases hp : p = party
    · rw [hp, setTask_self]
      exact fun _ => .inr (.inl rfl)
    · rw [setTask_of_ne hp]
      exact h.staffed p
  begun p d hmem := by
    by_cases hp : p = party
    · exact absurd (hp ▸ hwaiting) (h.begun p d hmem).1
    · rw [setTask_of_ne hp]
      exact h.begun p d hmem

theorem SocketsSound.task {party : MediaParty} {event : MediaTaskEvent} {task : MediaTask}
    {effect : MediaEffect} (h : SocketsSound s)
    (hstep : (s.task party).step (s.sessions.leaseIsActive party.index) event
      = some (task, effect))
    (happly : (s.setTask party task).apply party effect = some s') : SocketsSound s' := by
  obtain ⟨halive, hbegun, -⟩ := MediaTask.step_phase hstep
  have hother : ∀ {p}, p ≠ party → s'.task p = s.task p := by
    intro p hp
    rw [apply_task happly, setTask_of_ne hp]
  have hself : s'.task party = task := by rw [apply_task happly, setTask_self]
  refine ⟨?_, ?_, fun p hp => ?_, fun p => ?_, fun p d hmem => ?_⟩
  · rcases apply_sessions happly with hsame | ⟨-, hdrop⟩
    · rw [hsame]
      exact h.exclusive
    · exact h.exclusive.step hdrop
  · rcases apply_sessions happly with hsame | ⟨-, hdrop⟩
    · rw [hsame]
      exact h.newest
    · exact h.newest.step hdrop
  · have hold : (s.task p).Alive := by
      by_cases hparty : p = party
      · subst hparty
        exact halive (hself ▸ hp)
      · exact hother hparty ▸ hp
    obtain ⟨g, hg⟩ := h.leased p hold
    rcases apply_sessions happly with hsame | ⟨rfl, hdrop⟩
    · exact ⟨g, by rw [hsame]; exact hg⟩
    · refine ⟨g, step_leased hg (fun heq => ?_) hdrop⟩
      obtain rfl := MediaParty.index_injective (MediaSessionEvent.drop.inj heq)
      exact MediaTask.step_dropLease hstep (hself ▸ hp)
  · by_cases hparty : p = party
    · subst hparty
      rw [hself]
      exact (h.staffed p).step hstep
    · rw [hother hparty]
      exact h.staffed p
  · rw [apply_log happly, List.mem_append, mem_records_reset] at hmem
    by_cases hparty : p = party
    · subst hparty
      rw [hself]
      rcases hmem with hmem | ⟨-, rfl⟩
      · exact hbegun (h.begun p d hmem)
      · exact MediaTask.step_reset hstep
    · rw [hother hparty]
      exact h.begun p d (hmem.resolve_right fun hreset => hparty hreset.1)

theorem SocketsSound.step (h : SocketsSound s) (hstep : mediaBridges.step s e = some s') :
    SocketsSound s' := by
  cases e with
  | session event =>
    obtain ⟨howned, sessions, hregistry, rfl⟩ := step_session hstep
    exact h.session howned hregistry
  | pop direction now =>
    cases hstep
    exact ⟨h.exclusive, h.newest, h.leased, h.staffed, h.begun⟩
  | upgrade party =>
    obtain ⟨hwaiting, hleased, rfl⟩ := step_upgrade hstep
    exact h.upgrade hwaiting hleased
  | task party event =>
    obtain ⟨task, effect, htask, happly⟩ := step_task hstep
    exact h.task htask happly

end Sound

/-! ## The second session's reset -/

/-- No push of the first session's comes after the second's reset of the same queue. -/
def NoLeak (log : List BridgeRecord) : Prop :=
  log.Pairwise fun earlier later =>
    ∀ d frame, earlier = .reset .second d → later ≠ .push .first d frame

/-- The step with which the second session begins its reset. -/
def secondReset : MediaBridgeEvent := .task .second .resetUplink

/-- The first session has come before, and the second's grant has replaced the first's unless the
first is over. -/
def MediaBridgeState.Replaced (s : MediaBridgeState) : Prop :=
  (s.task .first).phase ≠ .waiting ∧
    ((s.task .first).phase ≠ .ended → ∀ g g', s.sessions.party MediaParty.first.index = .leased g →
      s.sessions.party MediaParty.second.index = .leased g' → g < g')

/-- The first task is quiet and its lease, while it has one, is lost. -/
structure Muted (s : MediaBridgeState) : Prop where
  quiet : (s.task .first).Quiet
  lost : (s.task .first).Alive →
    ∃ g, s.sessions.party MediaParty.first.index = .leased g ∧ Revoked s.sessions g

/-- Once the second session has begun, the first is muted. -/
structure Isolated (s : MediaBridgeState) : Prop where
  muted : (s.task .second).Begun → Muted s
  noLeak : NoLeak s.log

section Isolation

variable {s s' : MediaBridgeState} {e : MediaBridgeEvent}

theorem NoLeak.append {log records : List BridgeRecord} (h : NoLeak log) (hnew : NoLeak records)
    (hfirst : ∀ d frame, .push .first d frame ∈ records → .reset .second d ∉ log) :
    NoLeak (log ++ records) := by
  refine List.pairwise_append.2 ⟨h, hnew, ?_⟩
  rintro earlier hearlier later hlater d frame rfl rfl
  exact hfirst d frame hlater hearlier

theorem noLeak_records (party : MediaParty) (effect : MediaEffect) :
    NoLeak (effect.records party) := by
  cases effect <;> simp [NoLeak, MediaEffect.records]

theorem Muted.inactive (h : Muted s) (hactive : s.sessions.leaseIsActive 0 = true) :
    (s.task .first).phase = .ended := by
  by_contra hended
  have hcome : (s.task .first).phase ≠ .waiting := by
    intro hwaiting
    have hloop := h.quiet.loop
    rw [hwaiting] at hloop
    exact hloop
  obtain ⟨g, hg, hrevoked⟩ := h.lost ⟨hcome, hended⟩
  have := hrevoked.not_active hg
  rw [show MediaParty.first.index = 0 from rfl, hactive] at this
  cases this

theorem Muted.session {event : MediaSessionEvent} {sessions : MediaSessionState} (h : Muted s)
    (howned : s.owned event = false)
    (hstep : mediaSessions.step s.sessions event = some sessions) :
    Muted { s with sessions } where
  quiet := h.quiet
  lost halive := by
    obtain ⟨g, hg, hrevoked⟩ := h.lost halive
    exact ⟨g, step_leased hg (ne_drop_of_owned howned halive) hstep, hrevoked.step hstep⟩

/-- Muted is muted, whichever task steps, and the first pushes nothing. -/
theorem Muted.task {party : MediaParty} {event : MediaTaskEvent} {task : MediaTask}
    {effect : MediaEffect} (h : Muted s)
    (hstep : (s.task party).step (s.sessions.leaseIsActive party.index) event
      = some (task, effect))
    (happly : (s.setTask party task).apply party effect = some s') :
    Muted s' ∧ ∀ d frame, .push .first d frame ∉ effect.records party := by
  have hlost : (s.task .first).Alive → (effect = .dropLease → party ≠ .first) →
      ∃ g, s'.sessions.party MediaParty.first.index = .leased g ∧ Revoked s'.sessions g := by
    intro halive hdropped
    obtain ⟨g, hg, hrevoked⟩ := h.lost halive
    rcases apply_sessions happly with hsame | ⟨hdrop, hregistry⟩
    · exact ⟨g, by rw [hsame]; exact ⟨hg, hrevoked⟩⟩
    · refine ⟨g, step_leased hg (fun heq => hdropped hdrop ?_) hregistry, hrevoked.step hregistry⟩
      exact MediaParty.index_injective (MediaSessionEvent.drop.inj heq)
  cases party with
  | first =>
    obtain ⟨hquiet, heffect⟩ := h.quiet.step h.inactive hstep
    have hself : s'.task .first = task := by rw [apply_task happly, setTask_self]
    refine ⟨⟨hself ▸ hquiet, fun halive => ?_⟩, fun d frame hmem => ?_⟩
    · rw [hself] at halive
      refine hlost ((MediaTask.step_phase hstep).1 halive) fun hdrop => ?_
      subst hdrop
      exact absurd halive (MediaTask.step_dropLease hstep)
    · obtain ⟨-, now, hpush⟩ := mem_records_push.1 hmem
      rw [hpush] at heffect
      simp at heffect
  | second =>
    have hother : s'.task .first = s.task .first := by
      rw [apply_task happly, setTask_of_ne (by simp)]
    refine ⟨⟨hother ▸ h.quiet, fun halive => ?_⟩, fun d frame hmem => ?_⟩
    · exact hlost (hother ▸ halive) fun _ => by simp
    · exact MediaParty.noConfusion (mem_records_push.1 hmem).1

/-- At its reset the second session finds the first muted, if it finds it quiet and replaced. -/
theorem SocketsSound.muted (h : SocketsSound s) (hclaimed : (s.task .second).phase = .claimed)
    (hreplaced : s.Replaced) (hquiet : (s.task .first).Quiet) : Muted s where
  quiet := hquiet
  lost halive := by
    obtain ⟨g, hg⟩ := h.leased .first halive
    obtain ⟨g', hg'⟩ := h.leased .second (by simp [MediaTask.Alive, hclaimed])
    have hissued := h.exclusive.issued _ g' (by rw [hg']; rfl)
    exact ⟨g, hg, h.exclusive.revoked_of_lt h.newest (hreplaced.2 halive.2 g g' hg hg') hissued⟩

theorem Isolated.task {party : MediaParty} {event : MediaTaskEvent} {task : MediaTask}
    {effect : MediaEffect} (h : Isolated s) (hs : SocketsSound s)
    (hstep : (s.task party).step (s.sessions.leaseIsActive party.index) event
      = some (task, effect))
    (happly : (s.setTask party task).apply party effect = some s')
    (hreset : party = .second → event = .resetUplink → (s.task .second).phase = .claimed →
      s.Replaced ∧ (s.task .first).Quiet) : Isolated s' := by
  by_cases hbegun : (s.task .second).Begun
  · obtain ⟨hmuted, hnone⟩ := (h.muted hbegun).task hstep happly
    refine ⟨fun _ => hmuted, ?_⟩
    rw [apply_log happly]
    exact h.noLeak.append (noLeak_records party effect) fun d frame hmem =>
      absurd hmem (hnone d frame)
  · refine ⟨fun hbegun' => ?_, ?_⟩
    · rw [apply_task happly] at hbegun'
      cases party with
      | first =>
        rw [setTask_of_ne (by simp)] at hbegun'
        exact absurd hbegun' hbegun
      | second =>
        rw [setTask_self] at hbegun'
        obtain ⟨hevent, hclaimed⟩ :=
          ((MediaTask.step_phase hstep).2.2 hbegun').resolve_left hbegun
        obtain ⟨hreplaced, hquiet⟩ := hreset rfl hevent hclaimed
        exact ((hs.muted hclaimed hreplaced hquiet).task hstep happly).1
    · rw [apply_log happly]
      exact h.noLeak.append (noLeak_records party effect) fun d _ _ hmem =>
        hbegun (hs.begun .second d hmem)

theorem Isolated.step (h : Isolated s) (hs : SocketsSound s)
    (hstep : mediaBridges.step s e = some s')
    (hreset : e = secondReset → (s.task .second).phase = .claimed →
      s.Replaced ∧ (s.task .first).Quiet) : Isolated s' := by
  cases e with
  | session event =>
    obtain ⟨howned, sessions, hregistry, rfl⟩ := step_session hstep
    exact ⟨fun hbegun => (h.muted hbegun).session howned hregistry, h.noLeak⟩
  | pop direction now =>
    cases hstep
    exact ⟨fun hbegun => ⟨(h.muted hbegun).quiet, (h.muted hbegun).lost⟩, h.noLeak⟩
  | upgrade party =>
    obtain ⟨hwaiting, hleased, rfl⟩ := step_upgrade hstep
    refine ⟨fun hbegun => ?_, h.noLeak⟩
    cases party with
    | first =>
      rw [setTask_of_ne (by simp)] at hbegun
      have hloop := (h.muted hbegun).quiet.loop
      rw [hwaiting] at hloop
      exact hloop.elim
    | second =>
      rw [setTask_self] at hbegun
      exact absurd rfl hbegun.2
  | task party event =>
    obtain ⟨task, effect, htask, happly⟩ := step_task hstep
    refine h.task hs htask happly fun hparty hevent => ?_
    subst hparty hevent
    exact hreset rfl

theorem begun_of_step {party : MediaParty} (h : (s.task party).Begun)
    (hstep : mediaBridges.step s e = some s') : (s'.task party).Begun := by
  cases e with
  | session event =>
    obtain ⟨-, sessions, -, rfl⟩ := step_session hstep
    exact h
  | pop direction now =>
    cases hstep
    exact h
  | upgrade other =>
    obtain ⟨hwaiting, -, rfl⟩ := step_upgrade hstep
    rw [setTask_of_ne]
    · exact h
    · rintro rfl
      exact h.1 hwaiting
  | task other event =>
    obtain ⟨task, effect, htask, happly⟩ := step_task hstep
    rw [apply_task happly]
    by_cases hparty : party = other
    · subst hparty
      rw [setTask_self]
      exact (MediaTask.step_phase htask).2.1 h
    · rw [setTask_of_ne hparty]
      exact h

theorem socketsSound_of_run {bridge : AudioBridge} {es : List MediaBridgeEvent}
    (h : mediaBridges.run (.start bridge) es = some s) : SocketsSound s :=
  mediaBridges.run_invariant (fun _ _ _ hs hstep => hs.step hstep) (socketsSound_start bridge) h

/-- Before the second session has begun nothing can have leaked. -/
theorem SocketsSound.isolated (hs : SocketsSound s) (hbegun : ¬ (s.task .second).Begun) :
    Isolated s := by
  refine ⟨fun h => absurd h hbegun, List.pairwise_of_forall_mem_list ?_⟩
  rintro earlier hearlier later - d frame rfl
  exact absurd (hs.begun .second d hearlier) hbegun

end Isolation

/-! ## A first session that is not quiet -/

/-- Some steps of the task alone lead to a push to the queue. -/
inductive MediaTask.CanPush (active : Bool) (d : AudioDirection) : MediaTask → Prop
  | now {task task' : MediaTask} {frame : AudioFrame} {time : ℕ} (e : MediaTaskEvent)
      (h : task.step active e = some (task', .push d frame time)) : CanPush active d task
  | later {task task' : MediaTask} {effect : MediaEffect} (e : MediaTaskEvent)
      (h : task.step active e = some (task', effect)) (hne : effect ≠ .dropLease)
      (hlater : CanPush active d task') : CanPush active d task

namespace MediaTask

variable {active stop : Bool} {phase : MediaPhase} {capture : CapturePhase}

theorem canPush_of_pushing {frame : AudioFrame} :
    CanPush active .downlink ⟨phase, .pushing frame, stop⟩ :=
  .now (.capturePush 0) rfl

theorem canPush_of_reading : CanPush active .downlink ⟨phase, .reading, stop⟩ :=
  .later (.captureRead (some (silentFrame 0))) rfl MediaEffect.noConfusion canPush_of_pushing

theorem canPush_of_checking : CanPush active .downlink ⟨phase, .checking, false⟩ :=
  .later .captureCheck rfl MediaEffect.noConfusion canPush_of_reading

theorem canPush_of_starting : CanPush active .downlink ⟨.starting, capture, stop⟩ :=
  .later .spawn rfl MediaEffect.noConfusion canPush_of_checking

theorem canPush_of_resetting : CanPush active .downlink ⟨.resetting, capture, stop⟩ :=
  .later .resetDownlink rfl MediaEffect.noConfusion canPush_of_starting

theorem canPush_of_claimed : CanPush active .downlink ⟨.claimed, capture, stop⟩ :=
  .later .resetUplink rfl MediaEffect.noConfusion canPush_of_resetting

theorem canPush_of_frames {frame : AudioFrame} {frames : List AudioFrame} :
    CanPush active .uplink ⟨.running (.pushing (frame :: frames)), capture, stop⟩ :=
  .now (.push 0) rfl

/-- The loop pushes the message it waits for, whatever has become of its lease. -/
theorem canPush_of_awaiting : CanPush active .uplink ⟨.running .awaiting, capture, stop⟩ := by
  have hbatch : IsBatch [⟨0, silentFrame 0⟩] := isBatch_silentFrame (by decide)
  refine .later (.receive (.binary (packetsBytes [⟨0, silentFrame 0⟩]))) rfl
    MediaEffect.noConfusion ?_
  rw [received_batch hbatch]
  exact canPush_of_frames

/-- A task that is not quiet can push. -/
theorem canPush_of_not_quiet {task : MediaTask} (active : Bool) (hstaffed : task.Staffed)
    (hcome : task.phase ≠ .waiting) (hquiet : ¬ task.Quiet) : ∃ d, task.CanPush active d := by
  obtain ⟨phase, capture, stop⟩ := task
  by_cases hloop : LoopQuiet phase
  · cases capture with
    | absent =>
      rcases hstaffed rfl with rfl | rfl | rfl | rfl <;> exact hloop.elim
    | checking =>
      cases stop
      · exact ⟨_, canPush_of_checking⟩
      · exact absurd ⟨hloop, .inr ⟨rfl, rfl⟩⟩ hquiet
    | reading => exact ⟨_, canPush_of_reading⟩
    | pushing frame => exact ⟨_, canPush_of_pushing⟩
    | ended => exact absurd ⟨hloop, .inl rfl⟩ hquiet
  · unfold LoopQuiet at hloop
    split at hloop
    · exact absurd rfl hcome
    · exact ⟨_, canPush_of_claimed⟩
    · exact ⟨_, canPush_of_resetting⟩
    · exact ⟨_, canPush_of_starting⟩
    · exact ⟨_, canPush_of_awaiting⟩
    · exact ⟨_, canPush_of_frames⟩
    · exact absurd trivial hloop

end MediaTask

section Leaks

variable {s : MediaBridgeState}

theorem not_noLeak_of_push {log : List BridgeRecord} {d : AudioDirection} {frame : AudioFrame}
    (h : .reset .second d ∈ log) : ¬ NoLeak (log ++ [.push .first d frame]) := by
  intro hno
  exact (List.pairwise_append.1 hno).2.2 _ h _ (List.mem_singleton_self _) d frame rfl rfl

/-- Where the first can push to a queue that the second has reset, some run leaks. -/
theorem MediaTask.CanPush.leaks {active : Bool} {d : AudioDirection} {task : MediaTask}
    (hpush : task.CanPush active d) : ∀ {s : MediaBridgeState}, s.task .first = task →
      s.sessions.leaseIsActive 0 = active → .reset .second d ∈ s.log →
        ∃ es s', mediaBridges.run s es = some s' ∧ ¬ NoLeak s'.log := by
  induction hpush with
  | now e h =>
    rintro s rfl rfl hreset
    obtain ⟨s', hstep, -, -, hlog⟩ := task_steps .first e h MediaEffect.noConfusion
    refine ⟨[_], s', (mediaBridges.run_singleton _ _).trans hstep, ?_⟩
    rw [hlog]
    exact not_noLeak_of_push hreset
  | later e h hne _ ih =>
    rintro s rfl rfl hreset
    obtain ⟨t, hstep, htask, hsessions, hlog⟩ := task_steps .first e h hne
    obtain ⟨es, s', hrun, hleak⟩ := ih (by rw [htask, setTask_self]) (by rw [hsessions])
      (hlog ▸ List.mem_append_left _ hreset)
    exact ⟨_ :: es, s', mediaBridges.run_cons_eq_some.2 ⟨t, hstep, hrun⟩, hleak⟩

/-- The second's two resets, with nothing in between. -/
theorem second_resets (hclaimed : (s.task .second).phase = .claimed) :
    ∃ s', mediaBridges.run s [secondReset, .task .second .resetDownlink] = some s' ∧
      s'.task .first = s.task .first ∧ s'.sessions = s.sessions ∧
      ∀ d, .reset .second d ∈ s'.log := by
  obtain ⟨t, ht, htask, hsessions, hlog⟩ := task_steps (s := s) .second .resetUplink
    (by simp only [MediaTask.step, hclaimed]; rfl) MediaEffect.noConfusion
  have hresetting : (t.task .second).phase = .resetting := by rw [htask, setTask_self]
  obtain ⟨s', hs', htask', hsessions', hlog'⟩ := task_steps (s := t) .second .resetDownlink
    (by simp only [MediaTask.step, hresetting]; rfl) MediaEffect.noConfusion
  refine ⟨s', mediaBridges.run_cons_eq_some.2 ⟨t, ht, (mediaBridges.run_singleton _ _).trans hs'⟩,
    ?_, hsessions'.trans hsessions, fun d => ?_⟩
  · rw [htask', setTask_of_ne (by simp), htask, setTask_of_ne (by simp)]
  · rw [hlog', hlog]
    cases d <;> simp [MediaEffect.records]

end Leaks

/-! ## The result -/

section Result

variable {bridge : AudioBridge}

theorem isolated_start : Isolated (.start bridge) :=
  (socketsSound_start bridge).isolated fun h => h.1 rfl

/-- Audio stays apart in every run in which the second session, when it resets the bridge, has
replaced the first and finds it quiet. -/
theorem isolated_of_run {es : List MediaBridgeEvent} {s : MediaBridgeState}
    (hrun : mediaBridges.run (.start bridge) es = some s)
    (hreset : ∀ t, mediaBridges.Before (.start bridge) es t secondReset →
      t.Replaced ∧ (t.task .first).Quiet) : Isolated s := by
  have hboth : SocketsSound s ∧ Isolated s := by
    refine mediaBridges.through_invariant (P := fun t => SocketsSound t ∧ Isolated t)
      ⟨socketsSound_start bridge, isolated_start⟩ ?_ ⟨es, [], (List.append_nil es).symm, hrun⟩
    rintro t e t' hbefore ⟨hs, h⟩ hstep
    refine ⟨hs.step hstep, h.step hs hstep fun he _ => ?_⟩
    subst he
    exact hreset t hbefore
  exact hboth.2

/-- After a reset that finds the first session quiet and replaced, nothing leaks. -/
theorem noLeak_of_quiet {es : List MediaBridgeEvent} {s t : MediaBridgeState}
    (hs : SocketsSound t) (hclaimed : (t.task .second).phase = .claimed) (hreplaced : t.Replaced)
    (hquiet : (t.task .first).Quiet) (hrun : mediaBridges.run t (secondReset :: es) = some s) :
    NoLeak s.log := by
  obtain ⟨t', ht', hrest⟩ := mediaBridges.run_cons_eq_some.1 hrun
  have hisolated : Isolated t' :=
    (hs.isolated fun h => h.2 hclaimed).step hs ht' fun _ _ => ⟨hreplaced, hquiet⟩
  have hbegun : (t'.task .second).Begun := by
    obtain ⟨task, effect, htask, happly⟩ := step_task ht'
    rw [apply_task happly, setTask_self]
    simp only [MediaTask.step, hclaimed] at htask
    obtain ⟨rfl, -⟩ := Prod.mk.inj (Option.some.inj htask)
    simp [MediaTask.Begun]
  have hall : SocketsSound s ∧ Isolated s ∧ (s.task .second).Begun := by
    refine mediaBridges.run_invariant
      (P := fun u => SocketsSound u ∧ Isolated u ∧ (u.task .second).Begun) ?_
      ⟨hs.step ht', hisolated, hbegun⟩ hrest
    rintro u e u' ⟨hu, hi, hb⟩ hstep
    exact ⟨hu.step hstep, hi.step hu hstep fun _ hphase => absurd hphase hb.2,
      begun_of_step hb hstep⟩
  exact hall.2.1.noLeak

/-- However the two sessions, their workers and the registry interleave, none of the first's frames
enters a queue after the second's reset of it, if at that reset the first is quiet. If it is not,
some run from there lets one in. -/
theorem media_sockets_isolated (bridge : AudioBridge) :
    (∀ es s, mediaBridges.run (.start bridge) es = some s →
      (∀ t, mediaBridges.Before (.start bridge) es t secondReset →
        t.Replaced ∧ (t.task .first).Quiet) → NoLeak s.log) ∧
    ∀ t, mediaBridges.Reachable (.start bridge) t → (t.task .second).phase = .claimed →
      t.Replaced → ((t.task .first).Quiet ↔
        ∀ es s, mediaBridges.run t (secondReset :: es) = some s → NoLeak s.log) := by
  refine ⟨fun es s hrun hreset => (isolated_of_run hrun hreset).noLeak, ?_⟩
  rintro t ⟨past, hpast⟩ hclaimed hreplaced
  have hs := socketsSound_of_run hpast
  refine ⟨fun hquiet es s hrun => noLeak_of_quiet hs hclaimed hreplaced hquiet hrun, fun hall => ?_⟩
  by_contra hquiet
  obtain ⟨d, hpush⟩ := MediaTask.canPush_of_not_quiet (t.sessions.leaseIsActive 0)
    (hs.staffed .first) hreplaced.1 hquiet
  obtain ⟨u, hu, hfirst, hsessions, hlog⟩ := second_resets hclaimed
  obtain ⟨es, s, hrun, hleak⟩ := hpush.leaks hfirst (by rw [hsessions]) (hlog d)
  exact hleak (hall _ s (mediaBridges.run_append_eq_some.2 ⟨u, hu, hrun⟩))

end Result

/-! ## Two runs -/

/-- A new grant is issued, and the party claims it and is upgraded. -/
def joins (party : MediaParty) (byte : UInt8) : List MediaBridgeEvent :=
  [.session (.issue (some (Vector.replicate 48 byte)) 60000000000 0),
    .session (.fetch party.index (encodeHex (List.replicate 16 byte))
      (encodeHex (List.replicate 32 byte)) 1),
    .session (.authorize party.index), .session (.compareExchange party.index), .upgrade party]

/-- The first session streams a frame and hangs up, and the second joins before it is over. -/
def hungUp : List MediaBridgeEvent :=
  joins .first 7 ++
    [MediaTaskEvent.resetUplink, .resetDownlink, .spawn, .started, .check, .captureCheck,
      .captureRead (some (silentFrame 0)), .capturePush 0, .captureCheck, .captureRead none,
      .receive .other].map (.task .first) ++
    joins .second 9

/-- The second session joins while the first's worker reads a frame. -/
def reading : List MediaBridgeEvent :=
  joins .first 7 ++
    [MediaTaskEvent.resetUplink, .resetDownlink, .spawn, .started, .captureCheck].map
      (.task .first) ++
    joins .second 9

/-- The second resets the bridge and starts its own, and then the first's worker has read. -/
def readingEnds : List MediaBridgeEvent :=
  [.task .second .resetDownlink, .task .second .spawn, .task .second .started,
    .task .first (.captureRead (some (silentFrame 0))), .task .first (.capturePush 0)]

/-- The second session's upgrade came last, and the two leases are of the two grants. -/
def joined (t : MediaBridgeState) : Bool :=
  (t.task .first).phase ≠ .waiting && (t.task .second).phase = .claimed &&
    t.sessions.party 0 = .leased 0 && t.sessions.party 1 = .leased 1

theorem replaced_of_joined {t : MediaBridgeState} (h : joined t = true) :
    (t.task .second).phase = .claimed ∧ t.Replaced := by
  simp only [joined, Bool.and_eq_true, decide_eq_true_eq] at h
  obtain ⟨⟨⟨hcome, hclaimed⟩, hfirst⟩, hsecond⟩ := h
  refine ⟨hclaimed, hcome, fun _ g g' hg hg' => ?_⟩
  obtain rfl := ClaimPhase.leased.inj (hfirst.symm.trans hg)
  obtain rfl := ClaimPhase.leased.inj (hsecond.symm.trans hg')
  exact Nat.one_pos

theorem exists_joined {bridge : AudioBridge} (es : List MediaBridgeEvent)
    (check : MediaBridgeState → Bool)
    (h : (mediaBridges.run (.start bridge) es).any (fun t => joined t && check t) = true) :
    ∃ t, mediaBridges.run (.start bridge) es = some t ∧
      (t.task .second).phase = .claimed ∧ t.Replaced ∧ check t = true := by
  obtain ⟨t, ht, hboth⟩ := (Option.any_eq_true ..).1 h
  obtain ⟨hjoined, hcheck⟩ := (Bool.and_eq_true ..).mp hboth
  obtain ⟨hclaimed, hreplaced⟩ := replaced_of_joined hjoined
  exact ⟨t, ht, hclaimed, hreplaced, hcheck⟩

/-- The first session has hung up but not ended when the second resets the bridge. -/
theorem media_sockets_isolated_hungUp :
    ∃ bridge t s, AudioBridge.new 16 = .ok bridge ∧
      mediaBridges.run (.start bridge) hungUp = some t ∧
      mediaBridges.run (.start bridge) (hungUp ++ [secondReset]) = some s ∧ NoLeak s.log ∧
      ∀ es s', mediaBridges.run t (secondReset :: es) = some s' → NoLeak s'.log := by
  obtain ⟨bridge, hnew⟩ : ∃ bridge, AudioBridge.new 16 = .ok bridge := ⟨_, rfl⟩
  obtain ⟨t, ht, hclaimed, hreplaced, hphases⟩ : ∃ t,
      mediaBridges.run (.start bridge) hungUp = some t ∧ (t.task .second).phase = .claimed ∧
        t.Replaced ∧
        ((t.task .first).phase = .leaving && (t.task .first).capture = .ended) = true := by
    obtain rfl := Except.ok.inj hnew
    exact exists_joined hungUp _ (by decide +kernel)
  simp only [Bool.and_eq_true, decide_eq_true_eq] at hphases
  have hquiet : (t.task .first).Quiet := ⟨by rw [hphases.1]; trivial, .inl hphases.2⟩
  obtain ⟨u, hu, -⟩ := second_resets hclaimed
  obtain ⟨s, hs, -⟩ := mediaBridges.run_cons_eq_some.1 hu
  have hrun : mediaBridges.run (.start bridge) (hungUp ++ [secondReset]) = some s :=
    mediaBridges.run_snoc_eq_some.2 ⟨t, ht, hs⟩
  obtain ⟨hruns, hresets⟩ := media_sockets_isolated bridge
  refine ⟨bridge, t, s, hnew, ht, hrun, hruns _ s hrun fun u hu => ?_,
    (hresets t ⟨hungUp, ht⟩ hclaimed hreplaced).1 hquiet⟩
  have hbefore := mediaBridges.run_of_before (by simp [hungUp, joins, secondReset])
    List.not_mem_nil hu
  obtain rfl := Option.some.inj (ht.symm.trans hbefore)
  exact ⟨hreplaced, hquiet⟩

/-- The worker that was reading pushes the old call's audio into the new one. -/
theorem stale_capture_leaks : ¬ ∀ bridge es s, mediaBridges.run (.start bridge) es = some s →
    (∀ t, mediaBridges.Before (.start bridge) es t secondReset → t.Replaced) →
      NoLeak s.log := by
  intro h
  obtain ⟨bridge, hnew⟩ : ∃ bridge, AudioBridge.new 16 = .ok bridge := ⟨_, rfl⟩
  obtain ⟨t, ht, -, hreplaced, -⟩ : ∃ t, mediaBridges.run (.start bridge) reading = some t ∧
      (t.task .second).phase = .claimed ∧ t.Replaced ∧ true = true := by
    obtain rfl := Except.ok.inj hnew
    exact exists_joined reading (fun _ => true) (by decide +kernel)
  obtain ⟨s, hs, hlog⟩ : ∃ s,
      mediaBridges.run (.start bridge) (reading ++ secondReset :: readingEnds) = some s ∧
        decide (s.log = [.reset .first .uplink, .reset .first .downlink, .reset .second .uplink,
          .reset .second .downlink] ++ [.push .first .downlink (silentFrame 0)]) = true := by
    obtain rfl := Except.ok.inj hnew
    exact (Option.any_eq_true ..).1 (by decide +kernel)
  have hbefore : ∀ u, mediaBridges.Before (.start bridge) (reading ++ secondReset :: readingEnds) u
      secondReset → u.Replaced := by
    intro u hu
    have hrun := mediaBridges.run_of_before (by simp [reading, joins, secondReset])
      (by simp [readingEnds, secondReset]) hu
    obtain rfl := Option.some.inj (ht.symm.trans hrun)
    exact hreplaced
  have hleak := h bridge _ s hs hbefore
  rw [of_decide_eq_true hlog] at hleak
  exact not_noLeak_of_push (by simp) hleak

end AnalogConnect
