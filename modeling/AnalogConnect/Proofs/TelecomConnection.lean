import AnalogConnect.TelecomConnection

/-!
# One teardown, one audio session

Whoever sets `closed` tears the call down, and nobody else does: what each thread is at says who
that is (`owners`), and how far the teardown went what the log says of it (`Torn`). The audio
session goes from the monitor to the field and from there to the teardown; it is lost only where
it is stored after the teardown took the field.
-/

namespace AnalogConnect

namespace TelecomConnection

/-- Who tears the call down, and how far that went. -/
inductive Owner
  | finishing
  | queued
  | hangingUp
  | ending (cause : DisconnectCause) (teardown : Teardown)
deriving DecidableEq

def mainOwner : MainPc → List Owner
  | .finishing => [.finishing]
  | _ => []

def queueOwner (queue : List CommandTask) : List Owner :=
  queue.filterMap fun task => if task = .finish then some .queued else none

def commandOwner : CommandPc → List Owner
  | .hangingUp => [.hangingUp]
  | .ending teardown => [.ending .local teardown]
  | _ => []

def monitorOwner : MonitorPc → List Owner
  | .ending cause teardown => [.ending cause teardown]
  | _ => []

def owners (c : TelecomConnection) : List Owner :=
  mainOwner c.main ++ queueOwner c.queue ++ commandOwner c.command ++ monitorOwner c.monitor

def isTeardown : TelecomAction → Bool
  | .hangUp | .setDisconnected _ | .destroyed => true
  | _ => false

def isAudio : TelecomAction → Bool
  | .started _ | .stored _ | .took _ | .closed _ => true
  | _ => false

/-- What a teardown that got so far did. -/
def tornBy (cause : DisconnectCause) (teardown : Teardown) : List TelecomAction :=
  (if cause = .local then [.hangUp] else []) ++
    match teardown with
    | .readAudio | .clearAudio _ | .closeAudio _ | .setDisconnected => []
    | .destroy => [.setDisconnected cause]
    | .shutMonitor | .shutCommands | .done => [.setDisconnected cause, .destroyed]

def Owner.torn : Owner → List TelecomAction
  | .ending cause teardown => tornBy cause teardown
  | _ => []

/-- The teardown is over. -/
def Owner.shutCommands : Owner → Bool
  | .ending _ .done => true
  | _ => false

/-- Nothing stands behind `finish`, and no tone comes after it. -/
def Behind (c : TelecomConnection) : Option Owner → Prop
  | some .queued => (∃ front, c.queue = front ++ [.finish] ∧ .finish ∉ front) ∧ c.main = .idle
  | some .hangingUp | some (.ending .local _) => c.queue = [] ∧ c.main = .idle
  | _ => True

structure Torn (c : TelecomConnection) (owner : Option Owner) : Prop where
  owners : c.owners = owner.toList
  closed : c.closed = owner.isSome
  torn : c.log.filter isTeardown = (owner.map Owner.torn).getD []
  commandShut : c.commandShut = (owner.map Owner.shutCommands).getD false
  finished : c.monitor = .finished → c.closed = true
  notLocal : ∀ teardown, c.monitor ≠ .ending .local teardown
  behind : Behind c owner

variable {c c' : TelecomConnection} {owner : Option Owner}

theorem torn_dial : Torn dial none :=
  ⟨rfl, rfl, rfl, rfl, (fun h => nomatch h), (fun _ h => nomatch h), trivial⟩

/-- A step of the monitor that tears nothing down. -/
theorem Torn.monitor (h : Torn c owner) (pc : MonitorPc) (hpc : monitorOwner pc = [])
    (hold : monitorOwner c.monitor = []) (hfinished : pc = .finished → c.closed = true)
    (log : List TelecomAction) (hlog : log.filter isTeardown = []) (audioSession : Option ℕ)
    (sessions : ℕ) :
    Torn { c with monitor := pc, log := c.log ++ log, audioSession, sessions } owner where
  owners := by
    have howners := h.owners
    simp only [TelecomConnection.owners, hold, hpc] at howners ⊢
    exact howners
  closed := h.closed
  torn := by rw [List.filter_append, hlog, List.append_nil, h.torn]
  commandShut := h.commandShut
  finished := hfinished
  notLocal teardown heq := by
    change pc = _ at heq
    rw [heq] at hpc
    cases hpc
  behind := h.behind

theorem Torn.goto (h : Torn c owner) (pc : MonitorPc) (hpc : monitorOwner pc = [])
    (hold : monitorOwner c.monitor = []) (hfinished : pc = .finished → c.closed = true) :
    Torn { c with monitor := pc } owner := by
  have hmonitor := h.monitor pc hpc hold hfinished [] rfl c.audioSession c.sessions
  rwa [List.append_nil] at hmonitor

/-- Nobody else owns the teardown where one does. -/
theorem sole {front back : List Owner} {o : Owner} (h : front ++ [o] ++ back = owner.toList) :
    owner = some o ∧ front = [] ∧ back = [] := by
  cases owner with
  | none => simp at h
  | some o' =>
    obtain ⟨hfront, hback⟩ : front = [] ∧ back = [] := by
      have hlength := congrArg List.length h
      simp only [List.length_append, List.length_singleton, Option.toList_some] at hlength
      exact ⟨List.length_eq_zero_iff.1 (by omega), List.length_eq_zero_iff.1 (by omega)⟩
    rw [hfront, hback] at h
    exact ⟨by simpa using h.symm, hfront, hback⟩

theorem Torn.of_command (h : Torn c owner) {o : Owner} (ho : commandOwner c.command = [o]) :
    owner = some o ∧ mainOwner c.main = [] ∧ queueOwner c.queue = [] ∧
      monitorOwner c.monitor = [] := by
  have howners := h.owners
  rw [TelecomConnection.owners, ho] at howners
  obtain ⟨howner, hfront, hback⟩ := sole howners
  obtain ⟨hmain, hqueue⟩ := List.append_eq_nil_iff.1 hfront
  exact ⟨howner, hmain, hqueue, hback⟩

theorem Torn.of_monitor (h : Torn c owner) {o : Owner} (ho : monitorOwner c.monitor = [o]) :
    owner = some o ∧ mainOwner c.main = [] ∧ queueOwner c.queue = [] ∧
      commandOwner c.command = [] := by
  have howners := h.owners
  rw [TelecomConnection.owners, ho, ← List.append_nil (_ ++ [o])] at howners
  obtain ⟨howner, hfront, -⟩ := sole howners
  obtain ⟨hfront, hcommand⟩ := List.append_eq_nil_iff.1 hfront
  obtain ⟨hmain, hqueue⟩ := List.append_eq_nil_iff.1 hfront
  exact ⟨howner, hmain, hqueue, hcommand⟩

theorem Torn.of_main (h : Torn c owner) {o : Owner} (ho : mainOwner c.main = [o]) :
    owner = some o ∧ queueOwner c.queue = [] ∧ commandOwner c.command = [] ∧
      monitorOwner c.monitor = [] := by
  have howners := h.owners
  rw [TelecomConnection.owners, ho, List.append_assoc, List.append_assoc,
    ← List.nil_append [o]] at howners
  obtain ⟨howner, -, hback⟩ := sole howners
  obtain ⟨hqueue, hback⟩ := List.append_eq_nil_iff.1 hback
  obtain ⟨hcommand, hmonitor⟩ := List.append_eq_nil_iff.1 hback
  exact ⟨howner, hqueue, hcommand, hmonitor⟩

theorem Torn.none_of_open (h : Torn c owner) (hopen : c.closed = false) : owner = none := by
  rw [h.closed] at hopen
  simpa using hopen

theorem filter_close (current : Option ℕ) :
    (c.close current).log.filter isTeardown = c.log.filter isTeardown := by
  cases current <;> simp [close, did, isTeardown]

/-- What a step of the teardown adds to the log is what its stage says. -/
theorem torn_tearDown {cause : DisconnectCause} {teardown : Teardown}
    (hlog : c.log.filter isTeardown = tornBy cause teardown) :
    (c.tearDown cause teardown).2.log.filter isTeardown
      = tornBy cause (c.tearDown cause teardown).1 := by
  cases teardown with
  | readAudio => simpa [tearDown, did, isTeardown, tornBy] using hlog
  | clearAudio current => simpa [tearDown, tornBy] using hlog
  | closeAudio current =>
    rw [tearDown, filter_close]
    simpa [tornBy] using hlog
  | setDisconnected =>
    simp only [tearDown, did, List.filter_append, hlog]
    cases cause <;> rfl
  | destroy =>
    simp only [tearDown, did, List.filter_append, hlog]
    cases cause <;> rfl
  | shutMonitor => simpa [tearDown, TelecomConnection.shutMonitor, tornBy] using hlog
  | shutCommands => simpa [tearDown, tornBy] using hlog
  | done => simpa [tearDown, tornBy] using hlog

/-- Besides the log, a step of the teardown leaves Telecom's thread and the flag alone, and of the
monitor at most what has not begun. -/
theorem frame_tearDown (c : TelecomConnection) (cause : DisconnectCause) (teardown : Teardown) :
    let c' := (c.tearDown cause teardown).2
    c'.main = c.main ∧ c'.command = c.command ∧ c'.closed = c.closed ∧
      (c'.monitor = c.monitor ∨ c.monitor = .queued ∧ c'.monitor = .finished) ∧
      (c'.queue = c.queue ∨ c'.queue = []) := by
  cases teardown with
  | closeAudio current => cases current <;> simp [tearDown, close, did]
  | shutMonitor =>
    simp only [tearDown, TelecomConnection.shutMonitor]
    split_ifs with hqueued <;> simp [hqueued]
  | shutCommands =>
    simp only [tearDown]
    split_ifs <;> simp
  | _ => simp [tearDown, did]

theorem commandShut_tearDown {cause : DisconnectCause} {teardown : Teardown}
    (h : c.commandShut = Owner.shutCommands (.ending cause teardown)) (hnot : teardown ≠ .done) :
    (c.tearDown cause teardown).2.commandShut
      = Owner.shutCommands (.ending cause (c.tearDown cause teardown).1) := by
  cases teardown with
  | closeAudio current => cases current <;> exact h
  | shutCommands => rfl
  | done => exact absurd rfl hnot
  | _ => exact h

theorem monitorOwner_frame {pc pc' : MonitorPc} (h : pc' = pc ∨ pc = .queued ∧ pc' = .finished) :
    monitorOwner pc' = monitorOwner pc := by
  rcases h with rfl | ⟨rfl, rfl⟩ <;> rfl

theorem queueOwner_eq_nil_iff {queue : List CommandTask} :
    queueOwner queue = [] ↔ .finish ∉ queue := by
  rw [queueOwner, List.filterMap_eq_nil_iff]
  constructor
  · intro h hmem
    simpa using h .finish hmem
  · intro h task htask
    exact if_neg fun heq : task = .finish => h (heq ▸ htask)

/-- The next stage of a local teardown. -/
theorem Torn.tearDown_local {teardown : Teardown} (h : Torn c owner)
    (hending : c.command = .ending teardown) (hnot : teardown ≠ .done) :
    Torn { (c.tearDown .local teardown).2 with command := .ending (c.tearDown .local teardown).1 }
      (some (.ending .local (c.tearDown .local teardown).1)) := by
  obtain ⟨rfl, hmain, hqueue, hmonitor⟩ :=
    h.of_command (o := .ending .local teardown) (by rw [hending]; rfl)
  obtain ⟨hmain', -, hclosed', hmonitor', hqueue'⟩ := frame_tearDown c .local teardown
  obtain ⟨hnil, hidle⟩ := h.behind
  have hqueue' : (c.tearDown .local teardown).2.queue = [] :=
    hqueue'.elim (fun heq => heq.trans hnil) id
  refine ⟨?_, hclosed'.trans h.closed, torn_tearDown h.torn,
    commandShut_tearDown h.commandShut hnot, fun _ => hclosed'.trans h.closed, fun t heq => ?_,
    hqueue', hmain'.trans hidle⟩
  · simp [TelecomConnection.owners, hmain', hmain, hqueue', queueOwner, commandOwner,
      monitorOwner_frame hmonitor', hmonitor]
  · rcases hmonitor' with hsame | ⟨-, hfinished⟩
    · exact h.notLocal t (hsame.symm.trans heq)
    · exact absurd (hfinished.symm.trans heq) (by simp)

theorem torn_commandStep (h : Torn c owner) (hstep : c.commandStep = some c') :
    ∃ owner, Torn c' owner := by
  have howners := h.owners
  have hbehind := h.behind
  simp only [commandStep] at hstep
  split at hstep
  · rename_i hidle
    split at hstep
    · cases hstep
    · rename_i tone queue hqueue
      injection hstep with hstep
      subst hstep
      refine ⟨owner, ⟨?_, h.closed, h.torn, h.commandShut, h.finished, h.notLocal, ?_⟩⟩
      · rw [TelecomConnection.owners, hqueue, hidle] at howners
        exact howners
      · cases owner with
        | none => trivial
        | some o =>
          cases o with
          | finishing => trivial
          | queued =>
            obtain ⟨⟨front, hfront, hfinish⟩, hmain⟩ := hbehind
            rw [hqueue] at hfront
            cases front with
            | nil => cases hfront
            | cons task front =>
              obtain ⟨-, rfl⟩ := List.cons.inj hfront
              exact ⟨⟨front, rfl, fun h => hfinish (List.mem_cons_of_mem _ h)⟩, hmain⟩
          | hangingUp => exact absurd (hqueue.symm.trans hbehind.1) (by simp)
          | ending cause teardown =>
            cases cause with
            | «local» => exact absurd (hqueue.symm.trans hbehind.1) (by simp)
            | _ => trivial
    · rename_i queue hqueue
      injection hstep with hstep
      subst hstep
      have hsplit : mainOwner c.main ++ [.queued] ++ (queueOwner queue ++ monitorOwner c.monitor)
          = owner.toList := by
        rw [← howners, TelecomConnection.owners, hqueue, hidle]
        simp [queueOwner, commandOwner]
      obtain ⟨rfl, hmain, hback⟩ := sole hsplit
      obtain ⟨hnone, hmonitor⟩ := List.append_eq_nil_iff.1 hback
      obtain ⟨⟨front, hfront, hfinish⟩, hmainIdle⟩ := hbehind
      have hnil : queue = [] := by
        rw [hqueue] at hfront
        cases front with
        | nil => exact (List.cons.inj hfront).2
        | cons task front =>
          obtain ⟨rfl, -⟩ := List.cons.inj hfront
          exact absurd List.mem_cons_self hfinish
      subst hnil
      refine ⟨some .hangingUp, ⟨?_, h.closed, h.torn, h.commandShut, h.finished, h.notLocal, rfl,
        hmainIdle⟩⟩
      simp [TelecomConnection.owners, hmain, hmonitor, queueOwner, commandOwner]
  · rename_i tone htoning
    injection hstep with hstep
    subst hstep
    refine ⟨owner, ⟨?_, h.closed, h.torn, h.commandShut, h.finished, h.notLocal, h.behind⟩⟩
    rw [TelecomConnection.owners, htoning] at howners
    exact howners
  · rename_i hhanging
    injection hstep with hstep
    subst hstep
    obtain ⟨rfl, hmain, hqueue, hmonitor⟩ := h.of_command (o := .hangingUp) (by rw [hhanging]; rfl)
    refine ⟨some (.ending .local .readAudio), ⟨?_, h.closed, ?_, h.commandShut, h.finished,
      h.notLocal, h.behind⟩⟩
    · simp [TelecomConnection.owners, did, hmain, hqueue, hmonitor, commandOwner]
    · simp [did, h.torn, isTeardown, Owner.torn, tornBy]
  · cases hstep
  · rename_i teardown hnot hending
    injection hstep with hstep
    subst hstep
    exact ⟨_, h.tearDown_local hending hnot⟩

/-- The next stage of a teardown on the monitor's thread. -/
theorem Torn.tearDown_monitor {cause : DisconnectCause} {teardown : Teardown} (h : Torn c owner)
    (hending : c.monitor = .ending cause teardown) (hnot : teardown ≠ .done) :
    Torn { (c.tearDown cause teardown).2 with
        monitor := .ending cause (c.tearDown cause teardown).1 }
      (some (.ending cause (c.tearDown cause teardown).1)) := by
  obtain ⟨rfl, hmain, hqueue, hcommand⟩ :=
    h.of_monitor (o := .ending cause teardown) (by rw [hending]; rfl)
  obtain ⟨hmain', hcommand', hclosed', -, hqueue'⟩ := frame_tearDown c cause teardown
  have hlocal : cause ≠ .local := fun heq => h.notLocal teardown (heq ▸ hending)
  refine ⟨?_, hclosed'.trans h.closed, torn_tearDown h.torn,
    commandShut_tearDown h.commandShut hnot, (fun heq => nomatch heq), fun t heq => ?_, ?_⟩
  · have hnone : queueOwner (c.tearDown cause teardown).2.queue = [] := by
      rcases hqueue' with heq | heq
      · rw [heq, hqueue]
      · rw [heq]
        rfl
    simp [TelecomConnection.owners, hmain', hmain, hnone, hcommand', hcommand, monitorOwner]
  · injection heq with heq
    exact hlocal heq
  · cases cause with
    | «local» => exact absurd rfl hlocal
    | _ => trivial

theorem torn_claim (h : Torn c owner) {cause : DisconnectCause} (hcause : cause ≠ .local)
    (hmonitor : monitorOwner c.monitor = []) : ∃ owner, Torn (c.claim cause) owner := by
  rw [claim]
  split_ifs with hclosed
  · exact ⟨owner, h.goto .finished rfl hmonitor fun _ => hclosed⟩
  · obtain rfl := h.none_of_open (by simpa using hclosed)
    refine ⟨some (.ending cause .readAudio), ⟨?_, rfl, ?_, h.commandShut,
      (fun heq => nomatch heq), fun t heq => ?_, ?_⟩⟩
    · have howners := h.owners
      rw [TelecomConnection.owners, hmonitor, List.append_nil] at howners
      simp only [TelecomConnection.owners, howners]
      rfl
    · rw [h.torn]
      cases cause with
      | «local» => exact absurd rfl hcause
      | _ => rfl
    · injection heq with heq
      exact hcause heq
    · cases cause with
      | «local» => exact absurd rfl hcause
      | _ => trivial

theorem torn_afterPoll (h : Torn c owner) (hmonitor : monitorOwner c.monitor = []) (polls : Polls)
    (callState : String) : Torn (c.afterPoll polls callState) owner := by
  simp only [afterPoll]
  split_ifs
  · exact h.monitor (.readAudio { polls with progressed := true }) rfl hmonitor
      (fun h => nomatch h) [.setActive] rfl c.audioSession c.sessions
  · exact h.monitor (.sleep { polls with progressed := true }) rfl hmonitor (fun h => nomatch h)
      [.setDialing] rfl c.audioSession c.sessions
  · exact h.goto .remoteEnded rfl hmonitor fun h => nomatch h
  · exact h.goto .fail rfl hmonitor fun h => nomatch h
  · exact h.goto (.sleep { polls with idlePolls := polls.idlePolls + 1 }) rfl hmonitor
      fun h => nomatch h
  · exact h.goto (.sleep polls) rfl hmonitor fun h => nomatch h

theorem torn_monitorStep {outcome : MonitorOutcome} (h : Torn c owner)
    (hstep : c.monitorStep outcome = some c') : ∃ owner, Torn c' owner := by
  cases hpc : c.monitor with
  | ending cause teardown =>
    by_cases hdone : teardown = .done
    · simp [monitorStep, hpc, hdone] at hstep
    · have hc' : c' = { (c.tearDown cause teardown).2 with
          monitor := .ending cause (c.tearDown cause teardown).1 } := by
        cases teardown <;> simp_all [monitorStep]
      exact ⟨_, hc' ▸ h.tearDown_monitor hpc hdone⟩
  | finished => simp [monitorStep, hpc] at hstep
  | remoteEnded =>
    simp only [monitorStep, hpc, Option.some.injEq] at hstep
    exact hstep ▸ torn_claim h (by simp) (by rw [hpc]; rfl)
  | fail =>
    simp only [monitorStep, hpc, Option.some.injEq] at hstep
    exact hstep ▸ torn_claim h (by simp) (by rw [hpc]; rfl)
  | queued =>
    simp only [monitorStep, hpc, Option.some.injEq] at hstep
    exact ⟨owner, hstep ▸ h.goto _ rfl (by rw [hpc]; rfl) fun h => nomatch h⟩
  | dialing =>
    cases outcome <;> simp only [monitorStep, hpc, Option.some.injEq, reduceCtorEq] at hstep
    all_goals exact ⟨owner, hstep ▸ h.goto _ rfl (by rw [hpc]; rfl) fun h => nomatch h⟩
  | whileOpen polls =>
    simp only [monitorStep, hpc, Option.some.injEq] at hstep
    subst hstep
    by_cases hclosed : c.closed = true
    · rw [if_pos hclosed]
      exact ⟨owner, h.goto _ rfl (by rw [hpc]; rfl) fun _ => hclosed⟩
    · rw [if_neg hclosed]
      exact ⟨owner, h.goto _ rfl (by rw [hpc]; rfl) fun h => nomatch h⟩
  | callState polls =>
    cases outcome with
    | done => simp [monitorStep, hpc] at hstep
    | state callState =>
      simp only [monitorStep, hpc, Option.some.injEq] at hstep
      exact ⟨owner, hstep ▸ torn_afterPoll h (by rw [hpc]; rfl) polls callState⟩
    | threw =>
      simp only [monitorStep, hpc, Option.some.injEq] at hstep
      exact ⟨owner, hstep ▸ h.goto _ rfl (by rw [hpc]; rfl) fun h => nomatch h⟩
    | startThrew => simp [monitorStep, hpc] at hstep
  | readAudio polls =>
    simp only [monitorStep, hpc, Option.some.injEq] at hstep
    subst hstep
    split_ifs
    all_goals exact ⟨owner, h.goto _ rfl (by rw [hpc]; rfl) fun h => nomatch h⟩
  | readClosed polls =>
    simp only [monitorStep, hpc, Option.some.injEq] at hstep
    subst hstep
    split_ifs
    all_goals exact ⟨owner, h.goto _ rfl (by rw [hpc]; rfl) fun h => nomatch h⟩
  | connect polls =>
    cases outcome <;> simp only [monitorStep, hpc, Option.some.injEq, reduceCtorEq] at hstep
    · exact ⟨owner, hstep ▸ h.monitor (.recheck polls c.sessions) rfl (by rw [hpc]; rfl)
        (fun h => nomatch h) [.started c.sessions] rfl c.audioSession (c.sessions + 1)⟩
    · exact ⟨owner, hstep ▸ h.goto _ rfl (by rw [hpc]; rfl) fun h => nomatch h⟩
    · exact ⟨owner, hstep ▸ h.monitor (.sleep polls) rfl (by rw [hpc]; rfl) (fun h => nomatch h)
        [.dropped] rfl c.audioSession c.sessions⟩
  | recheck polls created =>
    simp only [monitorStep, hpc] at hstep
    split_ifs at hstep <;> injection hstep with hstep
    · exact ⟨owner, hstep ▸ h.monitor (.sleep polls) rfl (by rw [hpc]; rfl) (fun h => nomatch h)
        [.closed created] rfl c.audioSession c.sessions⟩
    · exact ⟨owner, hstep ▸ h.goto _ rfl (by rw [hpc]; rfl) fun h => nomatch h⟩
  | store polls created =>
    simp only [monitorStep, hpc, Option.some.injEq] at hstep
    exact ⟨owner, hstep ▸ h.monitor (.sleep polls) rfl (by rw [hpc]; rfl) (fun h => nomatch h)
      [.stored created] rfl (some created) c.sessions⟩
  | sleep polls =>
    cases outcome <;> simp only [monitorStep, hpc, Option.some.injEq, reduceCtorEq] at hstep
    · exact ⟨owner, hstep ▸ h.goto _ rfl (by rw [hpc]; rfl) fun h => nomatch h⟩
    · split_ifs at hstep
      injection hstep with hstep
      exact ⟨owner, hstep ▸ h.goto _ rfl (by rw [hpc]; rfl) fun h => nomatch h⟩

theorem queueOwner_append (queue queue' : List CommandTask) :
    queueOwner (queue ++ queue') = queueOwner queue ++ queueOwner queue' :=
  List.filterMap_append

theorem torn_mainStep (h : Torn c owner) (hstep : c.mainStep = some c') :
    ∃ owner, Torn c' owner := by
  cases hpc : c.main with
  | idle => simp [mainStep, hpc] at hstep
  | finishing =>
    simp only [mainStep, hpc, Option.some.injEq] at hstep
    obtain ⟨rfl, hqueue, hcommand, hmonitor⟩ := h.of_main (o := .finishing) (by rw [hpc]; rfl)
    have hopen : ¬ c.commandShut = true := by rw [h.commandShut]; simp [Owner.shutCommands]
    rw [execute, if_neg hopen] at hstep
    subst hstep
    refine ⟨some .queued, ⟨?_, h.closed, h.torn, h.commandShut, h.finished, h.notLocal,
      ⟨c.queue, rfl, queueOwner_eq_nil_iff.1 hqueue⟩, rfl⟩⟩
    simp only [TelecomConnection.owners, queueOwner_append, hqueue, hcommand, hmonitor]
    rfl
  | toning tone =>
    simp only [mainStep, hpc, Option.some.injEq] at hstep
    subst hstep
    have howners := h.owners
    simp only [TelecomConnection.owners, hpc] at howners
    have hbehind : ∀ c' : TelecomConnection, Behind c' owner := by
      have hbehind := h.behind
      intro c'
      cases owner with
      | none => trivial
      | some o =>
        cases o with
        | finishing => trivial
        | queued => exact absurd (hpc.symm.trans hbehind.2) (by simp)
        | hangingUp => exact absurd (hpc.symm.trans hbehind.2) (by simp)
        | ending cause teardown =>
          cases cause with
          | «local» => exact absurd (hpc.symm.trans hbehind.2) (by simp)
          | _ => trivial
    rw [execute]
    split_ifs
    · refine ⟨owner, ⟨howners, h.closed, ?_, h.commandShut, h.finished, h.notLocal, hbehind _⟩⟩
      simp [did, isTeardown, h.torn]
    · refine ⟨owner, ⟨?_, h.closed, h.torn, h.commandShut, h.finished, h.notLocal, hbehind _⟩⟩
      simp only [TelecomConnection.owners, queueOwner_append]
      rw [← howners]
      simp [queueOwner]
      rfl

theorem torn_step {e : TelecomEvent} (h : Torn c owner) (hstep : c.step e = some c') :
    ∃ owner, Torn c' owner := by
  cases e with
  | command => exact torn_commandStep h hstep
  | monitor outcome => exact torn_monitorStep h hstep
  | main => exact torn_mainStep h hstep
  | onDisconnect =>
    simp only [step] at hstep
    split_ifs at hstep with hbusy hclosed
    · injection hstep with hstep
      exact ⟨owner, hstep ▸ h⟩
    · injection hstep with hstep
      subst hstep
      obtain rfl := h.none_of_open (by simpa using hclosed)
      have howners := h.owners
      rw [TelecomConnection.owners, not_not.1 hbusy] at howners
      refine ⟨some .finishing, ⟨?_, rfl, h.torn, h.commandShut, fun _ => rfl, h.notLocal, trivial⟩⟩
      have hrest : queueOwner c.queue ++ commandOwner c.command ++ monitorOwner c.monitor = [] :=
        howners
      simp only [TelecomConnection.owners, List.append_assoc] at hrest ⊢
      rw [hrest]
      rfl
  | onPlayDtmfTone tone =>
    simp only [step] at hstep
    split_ifs at hstep with hbusy hclosed
    · injection hstep with hstep
      exact ⟨owner, hstep ▸ h⟩
    · injection hstep with hstep
      subst hstep
      obtain rfl := h.none_of_open (by simpa using hclosed)
      have howners := h.owners
      rw [TelecomConnection.owners, not_not.1 hbusy] at howners
      exact ⟨none, ⟨howners, h.closed, h.torn, h.commandShut, h.finished, h.notLocal, trivial⟩⟩

/-! ## At rest -/

/-- No thread has anything left to do. -/
def AtRest (c : TelecomConnection) : Prop :=
  c.mainStep = none ∧ c.commandStep = none ∧ ∀ outcome, c.monitorStep outcome = none

theorem AtRest.monitor (h : c.AtRest) :
    c.monitor = .finished ∨ ∃ cause, c.monitor = .ending cause .done := by
  obtain ⟨-, -, hmonitor⟩ := h
  have hdone := hmonitor .done
  have hthrew := hmonitor .threw
  cases hpc : c.monitor with
  | finished => exact .inl rfl
  | ending cause teardown =>
    cases teardown with
    | done => exact .inr ⟨cause, rfl⟩
    | _ => simp [monitorStep, hpc] at hdone
  | recheck polls created =>
    simp only [monitorStep, hpc] at hdone
    split_ifs at hdone
  | callState polls => simp [monitorStep, hpc] at hthrew
  | _ => simp [monitorStep, hpc] at hdone

theorem AtRest.command (h : c.AtRest) :
    c.command = .idle ∧ c.queue = [] ∨ c.command = .ending .done := by
  obtain ⟨-, hcommand, -⟩ := h
  cases hpc : c.command with
  | idle =>
    cases hqueue : c.queue with
    | nil => exact .inl ⟨rfl, rfl⟩
    | cons task queue => cases task <;> simp [commandStep, hpc, hqueue] at hcommand
  | ending teardown =>
    cases teardown with
    | done => exact .inr rfl
    | _ => simp [commandStep, hpc] at hcommand
  | _ => simp [commandStep, hpc] at hcommand

theorem AtRest.main (h : c.AtRest) : c.main = .idle := by
  cases hpc : c.main with
  | idle => rfl
  | _ => exact absurd h.1 (by simp [mainStep, hpc])

/-- At rest somebody tore the call down to the end. -/
theorem Torn.of_atRest (h : Torn c owner) (hrest : c.AtRest) :
    ∃ cause, owner = some (.ending cause .done) := by
  rcases hrest.command with ⟨hidle, hqueue⟩ | hending
  · have howners := h.owners
    rw [TelecomConnection.owners, hrest.main, hidle, hqueue] at howners
    rcases hrest.monitor with hfinished | ⟨cause, hending⟩
    · have hclosed := h.finished hfinished
      rw [hfinished] at howners
      rw [h.closed] at hclosed
      cases owner with
      | none => cases hclosed
      | some o => cases howners
    · exact ⟨cause, (h.of_monitor (by rw [hending]; rfl)).1⟩
  · exact ⟨.local, (h.of_command (by rw [hending]; rfl)).1⟩

theorem tornBy_prefix (cause : DisconnectCause) (teardown : Teardown) :
    tornBy cause teardown <+: tornBy cause .done := by
  refine (List.prefix_append_right_inj _).2 ?_
  cases teardown <;> simp

theorem exists_torn_of_run {events : List TelecomEvent}
    (hrun : telecomConnection.run dial events = some c) : ∃ owner, Torn c owner :=
  telecomConnection.run_invariant (P := fun c => ∃ owner, Torn c owner)
    (fun _ _ _ ⟨_, h⟩ => torn_step h) ⟨none, torn_dial⟩ hrun

/-- Over every order of the threads' steps, the call is torn down at most once, by Telecom's side
after a hang-up or by the monitor's, and once nothing is left to do it was torn down to the end. -/
theorem torn_down_once {events : List TelecomEvent}
    (hrun : telecomConnection.run dial events = some c) :
    ∃ teardown ∈ [tornBy .local .done, tornBy .remote .done, tornBy .error .done],
      c.log.filter isTeardown <+: teardown ∧
        (c.AtRest → c.log.filter isTeardown = teardown) := by
  obtain ⟨owner, htorn⟩ := exists_torn_of_run hrun
  have hmem : ∀ cause, tornBy cause .done
      ∈ [tornBy .local .done, tornBy .remote .done, tornBy .error .done] := by
    intro cause
    cases cause <;> simp
  rw [htorn.torn]
  rcases owner with - | (- | - | - | ⟨cause, teardown⟩)
  case some.ending =>
    refine ⟨tornBy cause .done, hmem cause, tornBy_prefix cause teardown, fun hrest => ?_⟩
    obtain ⟨cause', howner⟩ := htorn.of_atRest hrest
    injection howner with howner
    injection howner with _ hdone
    rw [hdone]
    rfl
  all_goals
    refine ⟨tornBy .local .done, hmem .local, List.nil_prefix, fun hrest => ?_⟩
    obtain ⟨cause', howner⟩ := htorn.of_atRest hrest
    cases howner

/-- The monitor stores the session it started while the teardown of a hang-up runs past it. -/
def hungUpWhileStarting : List TelecomEvent :=
  [.monitor .done, .monitor .done, .monitor .done, .monitor (.state "active"), .monitor .done,
    .monitor .done, .monitor .done, .monitor .done, .onDisconnect, .main, .command, .command,
    .command, .command, .command, .monitor .done, .command, .command, .command, .command,
    .monitor .done, .monitor .done]

theorem torn_down_once_late : ∃ c, telecomConnection.run dial hungUpWhileStarting = some c ∧
    c.AtRest ∧ c.log.filter isTeardown = [.hangUp, .setDisconnected .local, .destroyed] ∧
    ∃ teardown ∈ [tornBy .local .done, tornBy .remote .done, tornBy .error .done],
      c.log.filter isTeardown <+: teardown ∧
        (c.AtRest → c.log.filter isTeardown = teardown) :=
  ⟨_, rfl, ⟨rfl, rfl, fun _ => rfl⟩, by decide, @torn_down_once _ hungUpWhileStarting rfl⟩

/-! ## The audio session -/

/-- Where the monitor is with an audio session. -/
inductive AudioPc
  | away
  | readClosed
  | connect
  | recheck (created : ℕ)
  | store (created : ℕ)
deriving DecidableEq

def audioPc : MonitorPc → AudioPc
  | .readClosed _ => .readClosed
  | .connect _ => .connect
  | .recheck _ created => .recheck created
  | .store _ created => .store created
  | _ => .away

def commandStage : CommandPc → Option Teardown
  | .ending teardown => some teardown
  | _ => none

def monitorStage : MonitorPc → Option Teardown
  | .ending _ teardown => some teardown
  | _ => none

/-- How far a teardown went, on either thread. -/
def stage (c : TelecomConnection) : Option Teardown :=
  (commandStage c.command).or (monitorStage c.monitor)

/-- The teardown has taken the field. -/
def took : Option Teardown → Bool
  | none | some .readAudio => false
  | _ => true

/-- The session a teardown has yet to close. -/
def taken : Option Teardown → Option ℕ
  | some (.clearAudio current) | some (.closeAudio current) => current
  | _ => none

/-- Where the audio session is. -/
inductive Place
  | fresh
  | held
  | storing
  | kept
  | taken
  | closed
  | lost
deriving DecidableEq

/-- What the log says of the session, by whether the teardown took the field, what it has yet to
close, and where the session is. -/
inductive AudioTrace : Bool → Option ℕ → Place → List TelecomAction → Prop
  | fresh : AudioTrace false none .fresh []
  | freshTook : AudioTrace true none .fresh [.took none]
  | held : AudioTrace false none .held [.started 0]
  | heldTook : AudioTrace true none .held [.started 0, .took none]
  | tookHeld : AudioTrace true none .held [.took none, .started 0]
  | storing : AudioTrace false none .storing [.started 0]
  | storingTook : AudioTrace true none .storing [.started 0, .took none]
  | kept : AudioTrace false none .kept [.started 0, .stored 0]
  | taken : AudioTrace true (some 0) .taken [.started 0, .stored 0, .took (some 0)]
  | takenClosed :
    AudioTrace true none .closed [.started 0, .stored 0, .took (some 0), .closed 0]
  | closed : AudioTrace false none .closed [.started 0, .closed 0]
  | closedTook : AudioTrace true none .closed [.started 0, .closed 0, .took none]
  | tookClosed : AudioTrace true none .closed [.started 0, .took none, .closed 0]
  | tookHeldClosed : AudioTrace true none .closed [.took none, .started 0, .closed 0]
  | lost : AudioTrace true none .lost [.started 0, .took none, .stored 0]

/-- Where the monitor may be while the session is somewhere. -/
def PcFits (closed : Bool) : Place → AudioPc → Prop
  | .fresh, pc => pc = .away ∨ pc = .readClosed ∨ pc = .connect
  | .held, pc => pc = .recheck 0
  | .storing, pc => pc = .store 0
  | _, pc => pc = .away ∨ pc = .readClosed ∧ closed = true

structure Audio (c : TelecomConnection) (place : Place) : Prop where
  trace : AudioTrace (took c.stage) (taken c.stage) place (c.log.filter isAudio)
  sessions : c.sessions = if place = .fresh then 0 else 1
  pc : PcFits c.closed place (audioPc c.monitor)
  field : took c.stage = false → c.audioSession = if place = .kept then some 0 else none
  closed : place = .closed → c.closed = true

variable {place : Place}

theorem audio_dial : Audio dial .fresh :=
  ⟨.fresh, rfl, .inl rfl, fun _ => rfl, fun h => nomatch h⟩

theorem PcFits.mono {closed closed' : Bool} {pc : AudioPc} (h : PcFits closed place pc)
    (hmono : closed = true → closed' = true) : PcFits closed' place pc := by
  cases place <;> simp only [PcFits] at h ⊢
  all_goals first | exact h | exact h.imp_right fun h => ⟨h.1, hmono h.2⟩

/-- A step that leaves the session, the field and the monitor's part in it alone. -/
theorem Audio.frame (h : Audio c place) (hlog : c'.log.filter isAudio = c.log.filter isAudio)
    (hsessions : c'.sessions = c.sessions) (hpc : audioPc c'.monitor = audioPc c.monitor)
    (hfield : c'.audioSession = c.audioSession) (htook : took c'.stage = took c.stage)
    (htaken : taken c'.stage = taken c.stage) (hclosed : c.closed = true → c'.closed = true) :
    Audio c' place where
  trace := by
    rw [hlog, htook, htaken]
    exact h.trace
  sessions := hsessions.trans h.sessions
  pc := hpc ▸ h.pc.mono hclosed
  field := by
    rw [htook, hfield]
    exact h.field
  closed hplace := hclosed (h.closed hplace)

/-- A step of the teardown, wherever it is done. -/
theorem Audio.tearDown {cause : DisconnectCause} {teardown : Teardown} (h : Audio c place)
    (hopen : c.closed = true) (hstage : c.stage = some teardown)
    (hlog : c'.log = (c.tearDown cause teardown).2.log)
    (hstage' : c'.stage = some (c.tearDown cause teardown).1)
    (hsessions : c'.sessions = c.sessions) (hpc : audioPc c'.monitor = audioPc c.monitor)
    (hclosed : c'.closed = c.closed) : ∃ place, Audio c' place := by
  -- once the teardown has taken the field, the trace and the place say the rest
  have hnext : ∀ place', took (some (c.tearDown cause teardown).1) = true →
      AudioTrace true (taken (some (c.tearDown cause teardown).1)) place'
        ((c.tearDown cause teardown).2.log.filter isAudio) →
      (place' = .fresh ↔ place = .fresh) → PcFits c.closed place' (audioPc c.monitor) →
      (place' = .closed → c.closed = true) → ∃ place, Audio c' place := by
    intro place' htook htrace hfresh hfits hplace
    refine ⟨place', ⟨?_, ?_, ?_, fun h => ?_, fun h => hclosed.trans (hplace h)⟩⟩
    · rw [hstage', hlog, htook]
      exact htrace
    · simp only [hsessions, h.sessions, hfresh]
    · rw [hclosed, hpc]
      exact hfits
    · rw [hstage', htook] at h
      cases h
  have htrace := h.trace
  have hfield := h.field
  have hfits := h.pc
  rw [hstage] at htrace hfield
  have hafter : ∀ teardown', (c.tearDown cause teardown).1 = teardown' →
      took (some teardown) = true → took (some teardown') = true →
      taken (some teardown') = taken (some teardown) →
      (c.tearDown cause teardown).2.log.filter isAudio = c.log.filter isAudio →
      ∃ place, Audio c' place := by
    intro teardown' hteardown htook htook' htaken hsame
    rw [htook] at htrace
    refine hnext place (by rw [hteardown, htook']) ?_ Iff.rfl hfits h.closed
    rw [hteardown, htaken, hsame]
    exact htrace
  cases teardown with
  | readAudio =>
    have hlog' : (c.tearDown cause .readAudio).2.log.filter isAudio
        = c.log.filter isAudio ++ [.took c.audioSession] := by
      simp [TelecomConnection.tearDown, did, isAudio]
    have hfield := hfield rfl
    rw [hlog'] at hnext
    simp only [TelecomConnection.tearDown, hfield] at hnext
    generalize c.log.filter isAudio = log at htrace hnext
    cases htrace with
    | fresh => exact hnext .fresh rfl .freshTook Iff.rfl hfits fun h => nomatch h
    | held => exact hnext .held rfl .heldTook Iff.rfl hfits fun h => nomatch h
    | storing => exact hnext .storing rfl .storingTook Iff.rfl hfits fun h => nomatch h
    | kept => exact hnext .taken rfl .taken (by simp) hfits fun h => nomatch h
    | closed => exact hnext .closed rfl .closedTook Iff.rfl hfits h.closed
  | clearAudio current => exact hafter (.closeAudio current) rfl rfl rfl rfl rfl
  | closeAudio current =>
    cases current with
    | none => exact hafter .setDisconnected rfl rfl rfl rfl rfl
    | some session =>
      have hlog' : (c.tearDown cause (.closeAudio (some session))).2.log.filter isAudio
          = c.log.filter isAudio ++ [.closed session] := by
        simp [TelecomConnection.tearDown, close, did, isAudio]
      rw [hlog'] at hnext
      generalize c.log.filter isAudio = log at htrace hnext
      cases htrace with
      | taken => exact hnext .closed rfl .takenClosed (by simp) hfits fun _ => hopen
  | setDisconnected =>
    exact hafter .destroy rfl rfl rfl rfl (by simp [TelecomConnection.tearDown, did, isAudio])
  | destroy =>
    exact hafter .shutMonitor rfl rfl rfl rfl (by simp [TelecomConnection.tearDown, did, isAudio])
  | shutMonitor => exact hafter .shutCommands rfl rfl rfl rfl rfl
  | shutCommands => exact hafter .done rfl rfl rfl rfl rfl
  | done => exact hafter .done rfl rfl rfl rfl rfl

theorem Audio.goto (h : Audio c place) (pc : MonitorPc)
    (hstage : monitorStage pc = monitorStage c.monitor)
    (hfits : PcFits c.closed place (audioPc pc)) : Audio { c with monitor := pc } place where
  trace := by
    simp only [stage, hstage]
    exact h.trace
  sessions := h.sessions
  pc := hfits
  field := by
    simp only [stage, hstage]
    exact h.field
  closed := h.closed

/-- What the monitor does with a session it has, or has just started. -/
theorem Audio.move (c : TelecomConnection) (place' : Place) (pc : MonitorPc)
    (action : TelecomAction) (haudio : isAudio action = true)
    (hstage : monitorStage pc = monitorStage c.monitor)
    (htrace : AudioTrace (took c.stage) (taken c.stage) place'
      (c.log.filter isAudio ++ [action]))
    (hfresh : place' ≠ .fresh) (sessions : ℕ) (hsessions : sessions = 1)
    (hfits : PcFits c.closed place' (audioPc pc)) (audioSession : Option ℕ)
    (hfield : took c.stage = false → audioSession = if place' = .kept then some 0 else none)
    (hclosed : place' = .closed → c.closed = true) :
    Audio { c.did action with monitor := pc, sessions, audioSession } place' where
  trace := by
    simp only [stage, hstage, did, List.filter_append, List.filter_singleton, haudio]
    exact htrace
  sessions := by rw [if_neg hfresh, hsessions]
  pc := hfits
  field := by
    simp only [stage, hstage, did]
    exact hfield
  closed := hclosed

theorem commandStage_of_owner {pc : CommandPc} (h : commandOwner pc = []) :
    commandStage pc = none := by
  cases pc <;> first | rfl | cases h

theorem monitorStage_of_owner {pc : MonitorPc} (h : monitorOwner pc = []) :
    monitorStage pc = none := by
  cases pc <;> first | rfl | cases h

theorem Torn.stage_of_open (h : Torn c owner) (hopen : c.closed = false) : c.stage = none := by
  obtain rfl := h.none_of_open hopen
  obtain ⟨hrest, hmonitor⟩ := List.append_eq_nil_iff.1 h.owners
  obtain ⟨-, hcommand⟩ := List.append_eq_nil_iff.1 hrest
  rw [stage, commandStage_of_owner hcommand, monitorStage_of_owner hmonitor]
  rfl

theorem Torn.closed_of_took (h : Torn c owner) (htook : took c.stage = true) :
    c.closed = true := by
  by_contra hopen
  rw [h.stage_of_open (by simpa using hopen)] at htook
  cases htook

theorem sessions_tearDown (c : TelecomConnection) (cause : DisconnectCause) (teardown : Teardown) :
    (c.tearDown cause teardown).2.sessions = c.sessions := by
  cases teardown with
  | closeAudio current => cases current <;> rfl
  | _ => rfl

theorem audio_commandStep (ht : Torn c owner) (h : Audio c place)
    (hstep : c.commandStep = some c') : ∃ place, Audio c' place := by
  simp only [commandStep] at hstep
  split at hstep
  · rename_i hidle
    split at hstep
    · cases hstep
    · injection hstep with hstep
      subst hstep
      refine ⟨place, h.frame rfl rfl rfl rfl ?_ ?_ id⟩ <;> simp only [stage, hidle] <;> rfl
    · injection hstep with hstep
      subst hstep
      refine ⟨place, h.frame rfl rfl rfl rfl ?_ ?_ id⟩ <;> simp only [stage, hidle] <;> rfl
  · rename_i htoning
    injection hstep with hstep
    subst hstep
    refine ⟨place, h.frame rfl rfl rfl rfl ?_ ?_ id⟩ <;> simp only [stage, htoning] <;> rfl
  · rename_i hhanging
    injection hstep with hstep
    subst hstep
    obtain ⟨-, -, -, hmonitor⟩ := ht.of_command (o := .hangingUp) (by rw [hhanging]; rfl)
    have hnone : monitorStage c.monitor = none := by
      cases hpc : c.monitor <;> simp_all [monitorOwner, monitorStage]
    refine ⟨place, h.frame ?_ rfl rfl rfl ?_ ?_ id⟩
    · simp [did, isAudio]
    · simp only [stage, hhanging, hnone, did]
      rfl
    · simp only [stage, hhanging, hnone, did]
      rfl
  · cases hstep
  · rename_i teardown hnot hending
    injection hstep with hstep
    subst hstep
    have hstage : c.stage = some teardown := by simp only [stage, hending, commandStage]; rfl
    obtain ⟨-, -, hclosed, hmonitor, -⟩ := frame_tearDown c .local teardown
    have hpc : audioPc (c.tearDown .local teardown).2.monitor = audioPc c.monitor := by
      rcases hmonitor with hsame | ⟨hqueued, hfinished⟩
      · rw [hsame]
      · rw [hqueued, hfinished]
        rfl
    have hopen : c.closed = true := by
      by_contra hopen
      rw [ht.stage_of_open (by simpa using hopen)] at hstage
      cases hstage
    exact h.tearDown hopen hstage rfl rfl (sessions_tearDown c .local teardown) hpc hclosed

theorem Audio.away (h : Audio c place) (pc : MonitorPc) (hstage : monitorStage pc = none)
    (hpc : audioPc pc = .away) (hstage' : monitorStage c.monitor = none)
    (hpc' : audioPc c.monitor = .away) (log : List TelecomAction)
    (hlog : log.filter isAudio = []) : Audio { c with monitor := pc, log := c.log ++ log } place :=
  h.frame (by rw [List.filter_append, hlog, List.append_nil]) rfl (hpc.trans hpc'.symm) rfl
    (by simp only [stage, hstage, hstage']) (by simp only [stage, hstage, hstage']) id

theorem audio_afterPoll (h : Audio c place) (hstage : monitorStage c.monitor = none)
    (hpc : audioPc c.monitor = .away) (polls : Polls) (callState : String) :
    Audio (c.afterPoll polls callState) place := by
  have haway := hpc ▸ h.pc
  simp only [afterPoll]
  split_ifs
  · exact h.away (.readAudio { polls with progressed := true }) rfl rfl hstage hpc [.setActive] rfl
  · exact h.away (.sleep { polls with progressed := true }) rfl rfl hstage hpc [.setDialing] rfl
  · exact h.goto .remoteEnded hstage.symm haway
  · exact h.goto .fail hstage.symm haway
  · exact h.goto (.sleep { polls with idlePolls := polls.idlePolls + 1 }) hstage.symm haway
  · exact h.goto (.sleep polls) hstage.symm haway

theorem audio_claim (ht : Torn c owner) (h : Audio c place) (hstage : monitorStage c.monitor = none)
    (hpc : audioPc c.monitor = .away) (cause : DisconnectCause) : Audio (c.claim cause) place := by
  rw [claim]
  split_ifs with hclosed
  · have hfits := h.pc
    rw [hpc] at hfits
    exact h.goto .finished hstage.symm hfits
  · have hopen : c.closed = false := by simpa using hclosed
    have hnone := ht.stage_of_open hopen
    have hcommand : commandStage c.command = none := by
      cases hcommand : commandStage c.command with
      | none => rfl
      | some teardown => simp [stage, hcommand] at hnone
    refine h.frame rfl rfl hpc.symm rfl ?_ ?_ fun _ => rfl
    · rw [hnone]
      simp only [stage, hcommand]
      rfl
    · rw [hnone]
      simp only [stage, hcommand]
      rfl

theorem AudioTrace.of_false {current : Option ℕ} {log : List TelecomAction}
    (h : AudioTrace false current place log) : place ≠ .taken ∧ place ≠ .lost := by
  cases h <;> simp

/-- Where the monitor finds no session in the field, there is none yet or the call is closed. -/
theorem Audio.closed_of_none (ht : Torn c owner) (h : Audio c place)
    (hpc : audioPc c.monitor = .away) (hnone : c.audioSession = none) (hplace : place ≠ .fresh) :
    c.closed = true := by
  cases htook : took c.stage with
  | true => exact ht.closed_of_took htook
  | false =>
    have hfield := h.field htook
    have htrace := h.trace
    have hfits := h.pc
    rw [htook] at htrace
    rw [hpc] at hfits
    obtain ⟨htaken, hlost⟩ := htrace.of_false
    cases place with
    | fresh => exact absurd rfl hplace
    | held => cases hfits
    | storing => cases hfits
    | kept => simp [hnone] at hfield
    | taken => exact absurd rfl htaken
    | closed => exact h.closed rfl
    | lost => exact absurd rfl hlost

theorem audio_monitorStep {outcome : MonitorOutcome} (ht : Torn c owner) (h : Audio c place)
    (hstep : c.monitorStep outcome = some c') : ∃ place, Audio c' place := by
  have hfits := h.pc
  cases hpc : c.monitor with
  | ending cause teardown =>
    by_cases hdone : teardown = .done
    · simp [monitorStep, hpc, hdone] at hstep
    · have hc' : c' = { (c.tearDown cause teardown).2 with
          monitor := .ending cause (c.tearDown cause teardown).1 } := by
        cases teardown <;> simp_all [monitorStep]
      obtain ⟨-, -, -, hcommand⟩ :=
        ht.of_monitor (o := .ending cause teardown) (by rw [hpc]; rfl)
      have hnone := commandStage_of_owner hcommand
      obtain ⟨-, hcommand', hclosed, -, -⟩ := frame_tearDown c cause teardown
      have hstage : c.stage = some teardown := by
        simp only [stage, hnone, hpc]
        rfl
      have hstage' : c'.stage = some (c.tearDown cause teardown).1 := by
        rw [hc']
        simp only [stage, hcommand', hnone]
        rfl
      have hopen : c.closed = true := by
        by_contra hopen
        rw [ht.stage_of_open (by simpa using hopen)] at hstage
        cases hstage
      subst hc'
      exact h.tearDown hopen hstage rfl hstage' (sessions_tearDown c cause teardown)
        (by rw [hpc]; rfl) hclosed
  | finished => simp [monitorStep, hpc] at hstep
  | remoteEnded =>
    simp only [monitorStep, hpc, Option.some.injEq] at hstep
    exact ⟨place, hstep ▸ audio_claim ht h (by rw [hpc]; rfl) (by rw [hpc]; rfl) .remote⟩
  | fail =>
    simp only [monitorStep, hpc, Option.some.injEq] at hstep
    exact ⟨place, hstep ▸ audio_claim ht h (by rw [hpc]; rfl) (by rw [hpc]; rfl) .error⟩
  | queued =>
    simp only [monitorStep, hpc, Option.some.injEq] at hstep
    rw [hpc] at hfits
    exact ⟨place, hstep ▸ h.goto _ (by rw [hpc]; rfl) hfits⟩
  | dialing =>
    rw [hpc] at hfits
    cases outcome <;> simp only [monitorStep, hpc, Option.some.injEq, reduceCtorEq] at hstep
    all_goals exact ⟨place, hstep ▸ h.goto _ (by rw [hpc]; rfl) hfits⟩
  | whileOpen polls =>
    simp only [monitorStep, hpc, Option.some.injEq] at hstep
    subst hstep
    rw [hpc] at hfits
    split_ifs
    all_goals exact ⟨place, h.goto _ (by rw [hpc]; rfl) hfits⟩
  | callState polls =>
    cases outcome with
    | done => simp [monitorStep, hpc] at hstep
    | state callState =>
      simp only [monitorStep, hpc, Option.some.injEq] at hstep
      exact ⟨place, hstep ▸ audio_afterPoll h (by rw [hpc]; rfl) (by rw [hpc]; rfl) polls callState⟩
    | threw =>
      simp only [monitorStep, hpc, Option.some.injEq] at hstep
      rw [hpc] at hfits
      exact ⟨place, hstep ▸ h.goto _ (by rw [hpc]; rfl) hfits⟩
    | startThrew => simp [monitorStep, hpc] at hstep
  | readAudio polls =>
    simp only [monitorStep, hpc, Option.some.injEq] at hstep
    subst hstep
    rw [hpc] at hfits
    split_ifs with hnone
    · refine ⟨place, h.goto _ (by rw [hpc]; rfl) ?_⟩
      have hclosed := h.closed_of_none ht (by rw [hpc]; rfl) hnone
      cases place <;> simp_all [PcFits, audioPc]
    · exact ⟨place, h.goto _ (by rw [hpc]; rfl) hfits⟩
  | readClosed polls =>
    simp only [monitorStep, hpc, Option.some.injEq] at hstep
    subst hstep
    rw [hpc] at hfits
    split_ifs with hclosed
    all_goals
      refine ⟨place, h.goto _ (by rw [hpc]; rfl) ?_⟩
      cases place <;> simp_all [PcFits, audioPc]
  | connect polls =>
    rw [hpc] at hfits
    obtain rfl : place = .fresh := by
      cases place <;> simp_all [PcFits, audioPc]
    have hsessions : c.sessions = 0 := h.sessions
    have htrace := h.trace
    cases outcome <;> simp only [monitorStep, hpc, Option.some.injEq, reduceCtorEq] at hstep
    · subst hstep
      rw [hsessions]
      refine ⟨.held, Audio.move c .held (.recheck polls 0) (.started 0) rfl (by rw [hpc]; rfl) ?_
        (by simp) 1 rfl rfl c.audioSession h.field fun h => nomatch h⟩
      generalize took c.stage = past, taken c.stage = current, c.log.filter isAudio = log at htrace
      cases htrace with
      | fresh => exact .held
      | freshTook => exact .tookHeld
    · subst hstep
      exact ⟨.fresh, h.goto _ (by rw [hpc]; rfl) (.inl rfl)⟩
    · subst hstep
      have hslept := h.goto (.sleep polls) (by rw [hpc]; rfl) (.inl rfl)
      exact ⟨.fresh, hslept.frame (by simp [did, isAudio]) rfl rfl rfl rfl rfl id⟩
  | recheck polls created =>
    rw [hpc] at hfits
    obtain ⟨rfl, rfl⟩ : place = .held ∧ created = 0 := by
      cases place <;> simp_all [PcFits, audioPc]
    have htrace := h.trace
    simp only [monitorStep, hpc] at hstep
    split_ifs at hstep with hclosed <;> injection hstep with hstep <;> subst hstep
    · refine ⟨.closed, Audio.move c .closed (.sleep polls) (.closed 0) rfl (by rw [hpc]; rfl) ?_
        (by simp) c.sessions h.sessions (.inl rfl) c.audioSession h.field fun _ => hclosed⟩
      generalize took c.stage = past, taken c.stage = current, c.log.filter isAudio = log at htrace
      cases htrace with
      | held => exact .closed
      | heldTook => exact .tookClosed
      | tookHeld => exact .tookHeldClosed
    · have htook : took c.stage = false := by
        by_contra htook
        exact hclosed (ht.closed_of_took (by simpa using htook))
      have hstage : stage { c with monitor := .store polls 0 } = c.stage := by
        simp only [stage, hpc]
        rfl
      refine ⟨.storing, ⟨?_, h.sessions, rfl, fun h' => ?_, fun h => nomatch h⟩⟩
      · rw [hstage]
        rw [htook] at htrace ⊢
        generalize taken c.stage = current, c.log.filter isAudio = log at htrace ⊢
        cases htrace with
        | held => exact .storing
      · rw [hstage] at h'
        exact h.field h'
  | store polls created =>
    rw [hpc] at hfits
    obtain ⟨rfl, rfl⟩ : place = .storing ∧ created = 0 := by
      cases place <;> simp_all [PcFits, audioPc]
    have htrace := h.trace
    simp only [monitorStep, hpc, Option.some.injEq] at hstep
    subst hstep
    have hmoved : ∀ place', AudioTrace (took c.stage) (taken c.stage) place'
        (c.log.filter isAudio ++ [.stored 0]) → place' ≠ .fresh → PcFits c.closed place' .away →
        (took c.stage = false → place' = .kept) → place' ≠ .closed → ∃ place, Audio
          { c.did (.stored 0) with audioSession := some 0, monitor := .sleep polls } place :=
      fun place' htrace hfresh hfits hkept hclosed =>
        ⟨place', Audio.move c place' (.sleep polls) (.stored 0) rfl (by rw [hpc]; rfl) htrace hfresh
          c.sessions h.sessions hfits (some 0) (fun htook => by rw [if_pos (hkept htook)])
          fun h => absurd h hclosed⟩
    generalize took c.stage = past, taken c.stage = current, c.log.filter isAudio = log
      at htrace hmoved
    cases htrace with
    | storing => exact hmoved .kept .kept (by simp) (.inl rfl) (fun _ => rfl) (by simp)
    | storingTook => exact hmoved .lost .lost (by simp) (.inl rfl) (fun h => nomatch h) (by simp)
  | sleep polls =>
    rw [hpc] at hfits
    cases outcome <;> simp only [monitorStep, hpc, Option.some.injEq, reduceCtorEq] at hstep
    · exact ⟨place, hstep ▸ h.goto _ (by rw [hpc]; rfl) hfits⟩
    · split_ifs at hstep
      injection hstep with hstep
      exact ⟨place, hstep ▸ h.goto _ (by rw [hpc]; rfl) hfits⟩

theorem audio_step {e : TelecomEvent} (ht : Torn c owner) (h : Audio c place)
    (hstep : c.step e = some c') : ∃ place, Audio c' place := by
  cases e with
  | command => exact audio_commandStep ht h hstep
  | monitor outcome => exact audio_monitorStep ht h hstep
  | main =>
    simp only [step, mainStep] at hstep
    have hexecute : ∀ task, (c.execute task).log.filter isAudio = c.log.filter isAudio ∧
        (c.execute task).sessions = c.sessions ∧ (c.execute task).monitor = c.monitor ∧
        (c.execute task).audioSession = c.audioSession ∧ (c.execute task).stage = c.stage ∧
        (c.execute task).closed = c.closed := by
      intro task
      rw [execute]
      split_ifs <;> simp [did, isAudio, stage]
    split at hstep
    · cases hstep
    all_goals
      injection hstep with hstep
      subst hstep
      obtain ⟨hlog, hsessions, hmonitor, hfield, hstage, hclosed⟩ := hexecute _
      exact ⟨place, h.frame hlog hsessions (congrArg audioPc hmonitor) hfield (congrArg took hstage)
        (congrArg taken hstage) fun hopen => hclosed.trans hopen⟩
  | onDisconnect =>
    simp only [step] at hstep
    split_ifs at hstep <;> injection hstep with hstep <;> subst hstep
    · exact ⟨place, h⟩
    · exact ⟨place, h.frame rfl rfl rfl rfl rfl rfl fun _ => rfl⟩
  | onPlayDtmfTone tone =>
    simp only [step] at hstep
    split_ifs at hstep <;> injection hstep with hstep <;> subst hstep
    · exact ⟨place, h⟩
    · exact ⟨place, h.frame rfl rfl rfl rfl rfl rfl id⟩

theorem Torn.stage_of_ending {cause : DisconnectCause} {teardown : Teardown}
    (h : Torn c (some (.ending cause teardown))) : c.stage = some teardown := by
  have hmem : .ending cause teardown ∈ c.owners := by
    rw [h.owners]
    exact List.mem_singleton_self _
  simp only [TelecomConnection.owners, List.mem_append] at hmem
  rcases hmem with ((hmem | hmem) | hmem) | hmem
  · cases hpc : c.main <;> simp [hpc, mainOwner] at hmem
  · simp [queueOwner] at hmem
  · cases hpc : c.command <;> simp [hpc, commandOwner] at hmem
    obtain ⟨-, rfl⟩ := hmem
    simp [stage, hpc, commandStage]
  · cases hpc : c.monitor <;> simp [hpc, monitorOwner] at hmem
    obtain ⟨rfl, rfl⟩ := hmem
    obtain ⟨-, -, -, hcommand⟩ := h.of_monitor (by rw [hpc]; rfl)
    simp [stage, hpc, commandStage_of_owner hcommand, monitorStage]

/-- Over every order of the threads' steps, at most one audio session is started; once nothing is
left to do, it was closed, unless the monitor stored it after the teardown had found the field
empty. -/
theorem audio_closed_unless_stored_late {events : List TelecomEvent}
    (hrun : telecomConnection.run dial events = some c) :
    c.sessions ≤ 1 ∧ (c.AtRest →
      ((∃ session, .started session ∈ c.log ∧ .closed session ∉ c.log) ↔
        c.log.filter isAudio = [.started 0, .took none, .stored 0])) := by
  obtain ⟨⟨owner, ht⟩, place, h⟩ := telecomConnection.run_invariant
    (P := fun c => (∃ owner, Torn c owner) ∧ ∃ place, Audio c place)
    (fun _ _ _ ⟨⟨_, ht⟩, _, h⟩ hstep => ⟨torn_step ht hstep, audio_step ht h hstep⟩)
    ⟨⟨none, torn_dial⟩, .fresh, audio_dial⟩ hrun
  refine ⟨?_, fun hrest => ?_⟩
  · rw [h.sessions]
    split_ifs <;> omega
  · obtain ⟨cause, rfl⟩ := ht.of_atRest hrest
    have htrace := h.trace
    have hfits := h.pc
    have haway : audioPc c.monitor = .away := by
      rcases hrest.monitor with hpc | ⟨_, hpc⟩ <;> rw [hpc] <;> rfl
    rw [haway] at hfits
    rw [ht.stage_of_ending] at htrace
    have hmem : ∀ action, isAudio action = true →
        (action ∈ c.log ↔ action ∈ c.log.filter isAudio) := fun action haction => by
      rw [List.mem_filter, and_iff_left haction]
    have hstarted : (∃ session, .started session ∈ c.log ∧ .closed session ∉ c.log) ↔
        ∃ session, .started session ∈ c.log.filter isAudio ∧
          .closed session ∉ c.log.filter isAudio :=
      exists_congr fun session => by rw [hmem _ rfl, hmem (.closed session) rfl]
    rw [hstarted]
    generalize c.log.filter isAudio = log at htrace ⊢
    cases htrace with
    | heldTook => cases hfits
    | tookHeld => cases hfits
    | storingTook => cases hfits
    | _ => simp

theorem audio_closed_unless_stored_late_leaked : ∃ c,
    telecomConnection.run dial hungUpWhileStarting = some c ∧
      c.log.filter isAudio = [.started 0, .took none, .stored 0] ∧ c.sessions ≤ 1 ∧
      (c.AtRest → ((∃ session, .started session ∈ c.log ∧ .closed session ∉ c.log) ↔
        c.log.filter isAudio = [.started 0, .took none, .stored 0])) :=
  ⟨_, rfl, by decide, @audio_closed_unless_stored_late _ hungUpWhileStarting rfl⟩

end TelecomConnection

end AnalogConnect
