import AnalogConnect.AncsBearer
import AnalogConnect.Proofs.AncsAttribution

/-!
# What a connection carries

The log of a run is one of attempts, each ended by a wait. An attempt goes through both
subscriptions before anything else and then carries what a fresh consumer answers to the values
delivered in it, up to where it failed; the wait after it doubles with each failure in a row.
-/

namespace AnalogConnect

/-- What the bearer does about a call of the consumer. -/
def AncsProtocolConsumer.answer (c : AncsProtocolConsumer) (e : AncsEvent) : List BearerAction :=
  (c.metadata e).toList.map .emitted ++ (c.request e).toList.map .wrote

def AncsProtocolConsumer.answers : AncsProtocolConsumer → List AncsEvent → List BearerAction
  | _, [] => []
  | c, e :: es => c.answer e ++ (c.step e).answers es

theorem AncsProtocolConsumer.answers_append {c d : AncsProtocolConsumer}
    {es fs : List AncsEvent} (h : ancsConsumer.run c es = some d) :
    c.answers (es ++ fs) = c.answers es ++ d.answers fs := by
  induction es generalizing c with
  | nil =>
    rw [Lts.run_nil, Option.some.injEq] at h
    rw [h, List.nil_append, answers, List.nil_append]
  | cons e es ih =>
    obtain ⟨t, ht, hrest⟩ := ancsConsumer.run_cons_eq_some.1 h
    obtain rfl : c.step e = t := Option.some.inj ht
    rw [List.cons_append, answers, ih hrest, answers, List.append_assoc]

theorem AncsProtocolConsumer.answers_snoc {c d : AncsProtocolConsumer} {es : List AncsEvent}
    {e : AncsEvent} (h : ancsConsumer.run c es = some d) :
    c.answers (es ++ [e]) = c.answers es ++ d.answer e := by
  rw [answers_append h, answers, answers, List.append_nil]

/-- The value an event delivers to the consumer. -/
def BearerEvent.delivered? : BearerEvent → Option AncsEvent
  | .notificationEvent (some value) _ => some (.notificationSource value)
  | .dataEvent (some value) _ _ => some (.dataSource value)
  | _ => none

namespace AncsBearer

/-- What is logged before a connection is ready. -/
def handshake : List BearerAction :=
  [.connected, .subscribedNotificationSource, .subscribedDataSource]

/-- An attempt in which these values were delivered: the handshake and what a fresh consumer answers
to them. The attempt may have failed before the handshake was through, or with the answer to the
last. -/
structure IsAttempt (es : List AncsEvent) (l : List BearerAction) : Prop where
  upTo : l <+: handshake ++ AncsProtocolConsumer.default.answers es
  whole : es ≠ [] → handshake ++ AncsProtocolConsumer.default.answers es.dropLast <+: l

def becameReady (l : List BearerAction) : Bool := l.contains .subscribedDataSource

/-- The failures in a row after attempts, the last of them first. -/
def failuresInRow : List (List BearerAction) → ℕ
  | [] => 0
  | l :: ls => if becameReady l then 1 else failuresInRow ls + 1

/-- An attempt that failed: what was delivered in it, its log and the wait after it. -/
structure PastAttempt where
  delivered : List AncsEvent
  log : List BearerAction
  seconds : ℕ

/-- Attempts and the waits after them, the last first, as a log. -/
def logOf (past : List PastAttempt) : List BearerAction :=
  past.reverse.flatMap fun attempt => attempt.log ++ [.backingOff attempt.seconds]

def deliveredOf (past : List PastAttempt) : List AncsEvent :=
  past.reverse.flatMap PastAttempt.delivered

/-- Past attempts are whole, and each wait is that of the failures in a row. -/
structure Past (past : List PastAttempt) : Prop where
  attempts : ∀ attempt ∈ past, IsAttempt attempt.delivered attempt.log
  waits : ∀ newer attempt older, past = newer ++ attempt :: older →
    attempt.seconds = 2 ^ min 6 (failuresInRow (attempt.log :: older.map PastAttempt.log))

/-- What was delivered in the current attempt, its log and the supervisor, by what the bearer waits
for. -/
def Current (past : List PastAttempt) (b : AncsBearer) (es : List AncsEvent)
    (l : List BearerAction) : Prop :=
  match b.phase with
  | .discovering | .backingOff =>
    es = [] ∧ l = [] ∧
      b.supervisor.backoff.failures = min 6 (failuresInRow (past.map PastAttempt.log))
  | .subscribingNotificationSource =>
    es = [] ∧ l = handshake.take 1 ∧ b.supervisor.protocol = .default ∧
      b.supervisor.backoff.failures = min 6 (failuresInRow (past.map PastAttempt.log))
  | .subscribingDataSource =>
    es = [] ∧ l = handshake.take 2 ∧ b.supervisor.protocol = .default ∧
      b.supervisor.backoff.failures = min 6 (failuresInRow (past.map PastAttempt.log))
  | .ready =>
    b.supervisor.state = .ready ∧ b.supervisor.backoff.failures = 0 ∧
      ancsConsumer.run .default es = some b.supervisor.protocol ∧
        l = handshake ++ AncsProtocolConsumer.default.answers es
  | .stopped => IsAttempt es l

/-- With these values delivered, the log is one of attempts. -/
def Faithful (delivered : List AncsEvent) (b : AncsBearer) : Prop :=
  ∃ past es l, b.log = logOf past ++ l ∧ delivered = deliveredOf past ++ es ∧ Past past ∧
    Current past b es l

variable {past : List PastAttempt} {delivered es : List AncsEvent} {l : List BearerAction}
  {b : AncsBearer}

theorem isAttempt_take (n : ℕ) : IsAttempt [] (handshake.take n) :=
  ⟨(List.take_prefix n handshake).trans (List.prefix_append _ _), fun h => absurd rfl h⟩

/-- All that was delivered is answered. -/
theorem isAttempt_answers (es : List AncsEvent) :
    IsAttempt es (handshake ++ AncsProtocolConsumer.default.answers es) := by
  refine ⟨List.prefix_refl _, fun hne => (List.prefix_append_right_inj _).2 ?_⟩
  obtain ⟨c, hrun⟩ :=
    ancsConsumer.exists_run (fun c e => ⟨c.step e, rfl⟩) es.dropLast .default
  conv_rhs => rw [← List.dropLast_append_getLast hne]
  rw [AncsProtocolConsumer.answers_snoc hrun]
  exact List.prefix_append _ _

theorem logOf_cons (attempt : PastAttempt) :
    logOf (attempt :: past) = logOf past ++ (attempt.log ++ [.backingOff attempt.seconds]) := by
  simp [logOf]

theorem deliveredOf_cons (attempt : PastAttempt) :
    deliveredOf (attempt :: past) = deliveredOf past ++ attempt.delivered := by
  simp [deliveredOf]

theorem Past.nil : Past [] := ⟨by simp, by simp⟩

theorem Past.cons (h : Past past) {attempt : PastAttempt}
    (hattempt : IsAttempt attempt.delivered attempt.log)
    (hseconds : attempt.seconds =
      2 ^ min 6 (failuresInRow (attempt.log :: past.map PastAttempt.log))) :
    Past (attempt :: past) := by
  refine ⟨?_, fun newer attempt' older hsplit => ?_⟩
  · rintro attempt' hmem
    rcases List.mem_cons.1 hmem with rfl | hmem
    · exact hattempt
    · exact h.attempts attempt' hmem
  · cases newer with
    | nil =>
      obtain ⟨rfl, rfl⟩ := List.cons.inj hsplit
      exact hseconds
    | cons _ newer =>
      obtain ⟨-, rfl⟩ := List.cons.inj hsplit
      exact h.waits newer attempt' older rfl

/-- A failed attempt and its wait join the past. -/
theorem faithful_backOff (hlog : b.log = logOf past ++ l)
    (hdelivered : delivered = deliveredOf past ++ es) (hpast : Past past)
    (hl : IsAttempt es l) (hfailures : b.supervisor.backoff.failures
      = if becameReady l then 0 else min 6 (failuresInRow (past.map PastAttempt.log))) :
    Faithful delivered b.backOff := by
  have hcount : min (min (b.supervisor.backoff.failures + 1) 255) 6
      = min 6 (failuresInRow (l :: past.map PastAttempt.log)) := by
    rw [hfailures, failuresInRow]
    split_ifs
    · rfl
    · omega
  refine ⟨⟨es, l, 2 ^ min (min (b.supervisor.backoff.failures + 1) 255) 6⟩ :: past, [], [], ?_, ?_,
    hpast.cons hl (by rw [hcount]), rfl, rfl, ?_⟩
  · rw [List.append_nil, logOf_cons, ← List.append_assoc, ← hlog]
    rfl
  · rw [List.append_nil, deliveredOf_cons, hdelivered]
  · rw [List.map_cons, ← hcount]
    rfl

/-- The loop starts over, or stops. -/
theorem faithful_attempt (hlog : b.log = logOf past) (hdelivered : delivered = deliveredOf past)
    (hpast : Past past)
    (hfailures : b.supervisor.backoff.failures
      = min 6 (failuresInRow (past.map PastAttempt.log))) :
    Faithful delivered b.attempt := by
  refine ⟨past, [], [], by rw [List.append_nil, ← hlog]; rfl, by rw [List.append_nil, hdelivered],
    hpast, ?_⟩
  rw [Current, attempt]
  split_ifs
  · exact isAttempt_take 0
  · exact ⟨rfl, rfl, hfailures⟩

/-! ## A ready connection -/

variable {c : AncsProtocolConsumer}

theorem becameReady_handshake (rest : List BearerAction) :
    becameReady (handshake ++ rest) = true := by
  simp [becameReady, handshake]

/-- A ready connection that fails with nothing delivered. -/
theorem faithful_backOff_idle (hlog : b.log
      = logOf past ++ (handshake ++ AncsProtocolConsumer.default.answers es))
    (hdelivered : delivered = deliveredOf past ++ es) (hpast : Past past)
    (hfailures : b.supervisor.backoff.failures = 0) : Faithful delivered b.backOff := by
  refine faithful_backOff hlog hdelivered hpast (isAttempt_answers es) ?_
  rw [becameReady_handshake, if_pos rfl, hfailures]

/-- A ready connection that fails while `front` of an answer was carried out. -/
theorem faithful_backOff_ready (e : AncsEvent) (front : List BearerAction)
    (hrun : ancsConsumer.run .default es = some c)
    (hfront : front <+: c.answer e)
    (hlog : b.log
      = logOf past ++ (handshake ++ AncsProtocolConsumer.default.answers es ++ front))
    (hdelivered : delivered = deliveredOf past ++ es) (hpast : Past past)
    (hfailures : b.supervisor.backoff.failures = 0) : Faithful (delivered ++ [e]) b.backOff := by
  refine faithful_backOff hlog (by rw [hdelivered, List.append_assoc]) hpast ⟨?_, fun _ => ?_⟩ ?_
  · rw [AncsProtocolConsumer.answers_snoc hrun, List.append_assoc]
    exact (List.prefix_append_right_inj _).2 ((List.prefix_append_right_inj _).2 hfront)
  · rw [List.dropLast_concat]
    exact List.prefix_append _ _
  · rw [List.append_assoc, becameReady_handshake, if_pos rfl, hfailures]

/-- The consumer's request is written, and then its answer is whole. -/
theorem faithful_write (b : AncsBearer) (e : AncsEvent) (front : List BearerAction)
    (hrun : ancsConsumer.run .default es = some c)
    (hanswer : c.answer e = front ++ (c.request e).toList.map .wrote)
    (hlog : b.log
      = logOf past ++ (handshake ++ AncsProtocolConsumer.default.answers es ++ front))
    (hdelivered : delivered = deliveredOf past ++ es) (hpast : Past past)
    (hphase : b.phase = .ready) (hstate : b.supervisor.state = .ready)
    (hfailures : b.supervisor.backoff.failures = 0)
    (hprotocol : b.supervisor.protocol = c.step e) (written : BearerOutcome) :
    Faithful (delivered ++ [e]) (b.write ((c.request e).map .writeControlPoint) written) := by
  have hrun' : ancsConsumer.run .default (es ++ [e]) = some (c.step e) :=
    ancsConsumer.run_snoc_eq_some.2 ⟨c, hrun, rfl⟩
  have hwhole : ∀ b' : AncsBearer, b'.log = b.log ++ (c.request e).toList.map .wrote →
      b'.phase = b.phase → b'.supervisor = b.supervisor → Faithful (delivered ++ [e]) b' := by
    intro b' hlog' hphase' hsupervisor'
    refine ⟨past, es ++ [e], handshake ++ AncsProtocolConsumer.default.answers (es ++ [e]), ?_,
      by rw [hdelivered, List.append_assoc], hpast, ?_⟩
    · rw [hlog', hlog, AncsProtocolConsumer.answers_snoc hrun, hanswer]
      simp only [List.append_assoc]
    · rw [Current, hphase', hphase, hsupervisor']
      exact ⟨hstate, hfailures, hprotocol ▸ hrun', rfl⟩
  cases hrequest : c.request e with
  | none => exact hwhole b (by simp [hrequest]) rfl rfl
  | some request =>
    cases written with
    | ok _ => exact hwhole (b.did (.wrote request)) (by simp [hrequest, did]) rfl rfl
    | error _ =>
      exact faithful_backOff_ready e front hrun (hanswer ▸ List.prefix_append _ _) hlog hdelivered
        hpast hfailures

theorem faithful_step {e : BearerEvent} {b' : AncsBearer} (h : Faithful delivered b)
    (hstep : b.step e = some b') : Faithful (delivered ++ e.delivered?.toList) b' := by
  obtain ⟨past, es, l, hlog, hdelivered, hpast, hcurrent⟩ := h
  have hquiet : delivered ++ [] = deliveredOf past ++ es := (List.append_nil _).trans hdelivered
  cases e with
  | setShutdown value =>
    simp only [step] at hstep
    split_ifs at hstep
    injection hstep with hstep
    subst hstep
    exact ⟨past, es, l, hlog, hquiet, hpast, hcurrent⟩
  | closeShutdown =>
    injection hstep with hstep
    subst hstep
    exact ⟨past, es, l, hlog, hquiet, hpast, hcurrent⟩
  | discovered outcome =>
    simp only [step] at hstep
    split_ifs at hstep with hphase
    rw [Current, hphase] at hcurrent
    obtain ⟨rfl, rfl, hfailures⟩ := hcurrent
    cases outcome with
    | ok _ =>
      injection hstep with hstep
      subst hstep
      refine ⟨past, [], handshake.take 1, ?_, hquiet, hpast, rfl, rfl, rfl, hfailures⟩
      rw [List.append_nil] at hlog
      simp [did, hlog, handshake]
    | error _ =>
      injection hstep with hstep
      subst hstep
      exact faithful_backOff hlog hquiet hpast (isAttempt_take 0) hfailures
  | notified outcome =>
    simp only [step] at hstep
    split_ifs at hstep with hphase hphase
    · rw [Current, hphase] at hcurrent
      obtain ⟨rfl, rfl, hprotocol, hfailures⟩ := hcurrent
      cases outcome with
      | ok _ =>
        injection hstep with hstep
        subst hstep
        refine ⟨past, [], handshake.take 2, ?_, hquiet, hpast, rfl, rfl, hprotocol, hfailures⟩
        simp [did, hlog, handshake]
      | error _ =>
        injection hstep with hstep
        subst hstep
        exact faithful_backOff hlog hquiet hpast (isAttempt_take 1) hfailures
    · rw [Current, hphase] at hcurrent
      obtain ⟨rfl, rfl, hprotocol, hfailures⟩ := hcurrent
      cases outcome with
      | ok _ =>
        injection hstep with hstep
        subst hstep
        refine ⟨past, [], handshake, ?_, hquiet, hpast, rfl, rfl, hprotocol ▸ rfl, rfl⟩
        simp [did, hlog, handshake]
      | error _ =>
        injection hstep with hstep
        subst hstep
        exact faithful_backOff hlog hquiet hpast (isAttempt_take 2) hfailures
  | shutdownChanged =>
    simp only [step] at hstep
    split_ifs at hstep with hasleep hphase hshutdown hchanged hphase hshutdown
    · injection hstep with hstep
      subst hstep
      rw [Current, hphase] at hcurrent
      obtain ⟨-, -, -, rfl⟩ := hcurrent
      exact ⟨past, es, _, hlog, hquiet, hpast, isAttempt_answers es⟩
    · injection hstep with hstep
      subst hstep
      rw [Current, hphase] at hcurrent
      obtain ⟨-, hfailures, -, rfl⟩ := hcurrent
      exact faithful_backOff_idle hlog hquiet hpast hfailures
    · injection hstep with hstep
      subst hstep
      exact ⟨past, es, l, hlog, hquiet, hpast, hcurrent⟩
    · injection hstep with hstep
      subst hstep
      rw [Current, hphase] at hcurrent
      obtain ⟨rfl, rfl, -⟩ := hcurrent
      exact ⟨past, [], [], hlog, hquiet, hpast, isAttempt_take 0⟩
    · injection hstep with hstep
      subst hstep
      rw [Current, hphase] at hcurrent
      obtain ⟨rfl, rfl, hfailures⟩ := hcurrent
      rw [List.append_nil] at hlog
      exact faithful_attempt hlog (hquiet.trans (List.append_nil _)) hpast hfailures
  | notificationEvent value written =>
    simp only [step] at hstep
    split_ifs at hstep with hphase
    rw [Current, hphase] at hcurrent
    obtain ⟨hstate, hfailures, hrun, rfl⟩ := hcurrent
    cases value with
    | none =>
      injection hstep with hstep
      subst hstep
      exact faithful_backOff_idle hlog hquiet hpast hfailures
    | some value =>
      injection hstep with hstep
      subst hstep
      rw [AncsSupervisor.notificationSource, if_pos hstate]
      exact faithful_write
        { b with supervisor := { b.supervisor with
          protocol := (b.supervisor.protocol.notificationSource value).2 } }
        (.notificationSource value) [] hrun rfl (by rw [List.append_nil]; exact hlog) hdelivered
        hpast hphase hstate hfailures rfl written
  | dataEvent value sent written =>
    simp only [step] at hstep
    split_ifs at hstep with hphase
    rw [Current, hphase] at hcurrent
    obtain ⟨hstate, hfailures, hrun, rfl⟩ := hcurrent
    cases value with
    | none =>
      injection hstep with hstep
      subst hstep
      exact faithful_backOff_idle hlog hquiet hpast hfailures
    | some value =>
      simp only [AncsSupervisor.dataSource, if_neg (not_not.2 hstate)] at hstep
      have hanswer : b.supervisor.protocol.answer (.dataSource value)
          = (b.supervisor.protocol.dataSource value).1.1.toList.map .emitted
            ++ (b.supervisor.protocol.request (.dataSource value)).toList.map .wrote := rfl
      let after : AncsBearer := { b with supervisor := { b.supervisor with
        protocol := (b.supervisor.protocol.dataSource value).2 } }
      rcases hmetadata : (b.supervisor.protocol.dataSource value).1.1 with - | metadata
      · rw [hmetadata] at hanswer hstep
        injection hstep with hstep
        subst hstep
        exact faithful_write after (.dataSource value) [] hrun hanswer
          (by rw [List.append_nil]; exact hlog) hdelivered hpast hphase hstate hfailures rfl
          written
      · rw [hmetadata] at hanswer hstep
        cases sent with
        | ok _ =>
          injection hstep with hstep
          subst hstep
          exact faithful_write (after.did (.emitted metadata)) (.dataSource value)
            [.emitted metadata] hrun hanswer
            (by simp [after, did, hlog, List.append_assoc]) hdelivered hpast hphase hstate
            hfailures rfl written
        | error _ =>
          injection hstep with hstep
          subst hstep
          exact faithful_backOff_ready (.dataSource value) [] hrun List.nil_prefix
            (by rw [List.append_nil]; exact hlog) hdelivered hpast hfailures
  | slept =>
    simp only [step] at hstep
    split_ifs at hstep with hphase
    rw [Current, hphase] at hcurrent
    obtain ⟨rfl, rfl, hfailures⟩ := hcurrent
    rw [List.append_nil] at hlog
    injection hstep with hstep
    subst hstep
    exact faithful_attempt hlog (hquiet.trans (List.append_nil _)) hpast hfailures

theorem faithful_start (shutdown closed : Bool) : Faithful [] (start shutdown closed) :=
  faithful_attempt (List.append_nil []).symm rfl Past.nil rfl

theorem faithful_of_run {shutdown closed : Bool} {events : List BearerEvent}
    (hrun : ancsBearer.run (start shutdown closed) events = some b) :
    Faithful (events.filterMap BearerEvent.delivered?) b := by
  refine ancsBearer.run_history
    (P := fun past b => Faithful (past.filterMap BearerEvent.delivered?) b)
    (faithful_start shutdown closed) (fun past t e t' _ ih hstep => ?_) hrun
  have hlast : [e].filterMap BearerEvent.delivered? = e.delivered?.toList := by
    cases hvalue : e.delivered? <;> simp [hvalue]
  rw [List.filterMap_append, hlast]
  exact faithful_step ih hstep

theorem Current.isAttempt (h : Current past b es l) : IsAttempt es l := by
  rw [Current] at h
  split at h
  · obtain ⟨rfl, rfl, -⟩ := h
    exact isAttempt_take 0
  · obtain ⟨rfl, rfl, -⟩ := h
    exact isAttempt_take 0
  · obtain ⟨rfl, rfl, -⟩ := h
    exact isAttempt_take 1
  · obtain ⟨rfl, rfl, -⟩ := h
    exact isAttempt_take 2
  · obtain ⟨-, -, -, rfl⟩ := h
    exact isAttempt_answers es
  · exact h

/-- Every run's log is one of attempts, the last of which may go on, and what the run delivered was
delivered in them. Each attempt subscribes twice and then carries what a fresh consumer answers to
what was delivered in it, up to where it failed; the wait after it is two seconds to the failures in
a row, at most 64. -/
theorem attempts_and_waits {shutdown closed : Bool} {events : List BearerEvent}
    (hrun : ancsBearer.run (start shutdown closed) events = some b) :
    ∃ past es l, b.log = logOf past ++ l ∧
      events.filterMap BearerEvent.delivered? = deliveredOf past ++ es ∧ IsAttempt es l ∧
      (∀ attempt ∈ past, IsAttempt attempt.delivered attempt.log) ∧
      ∀ newer attempt older, past = newer ++ attempt :: older → attempt.seconds =
        2 ^ min 6 (failuresInRow (attempt.log :: older.map PastAttempt.log)) := by
  obtain ⟨past, es, l, hlog, hdelivered, hpast, hcurrent⟩ := faithful_of_run hrun
  exact ⟨past, es, l, hlog, hdelivered, hcurrent.isAttempt, hpast.attempts, hpast.waits⟩

/-- The first attempt finds no phone; in the second a value is delivered that asks nothing, and then
the streams end. -/
def deliveredTwice : List BearerEvent :=
  [.discovered (.error .timeout), .slept, .discovered (.ok ()), .notified (.ok ()),
    .notified (.ok ()), .dataEvent (some [9]) (.ok ()) (.ok ()), .dataEvent none (.ok ()) (.ok ())]

theorem attempts_and_waits_twice : ∃ b,
    ancsBearer.run (start false false) deliveredTwice = some b ∧
      b.log = .backingOff 2 :: handshake ++ [.backingOff 2] ∧
      ∃ past es l, b.log = logOf past ++ l ∧ [.dataSource [9]] = deliveredOf past ++ es ∧
        IsAttempt es l ∧ (∀ attempt ∈ past, IsAttempt attempt.delivered attempt.log) ∧
        ∀ newer attempt older, past = newer ++ attempt :: older → attempt.seconds =
          2 ^ min 6 (failuresInRow (attempt.log :: older.map PastAttempt.log)) :=
  ⟨_, rfl, by decide +kernel, @attempts_and_waits _ false false deliveredTwice rfl⟩

/-! ## Whose metadata -/

theorem wrote_mem_answers {es since : List AncsEvent} {uid : NotificationUid}
    (h : AncsProtocolConsumer.LastRequest es since uid) :
    .wrote (attributeRequest uid) ∈ AncsProtocolConsumer.default.answers es := by
  obtain ⟨before, asking, state, rfl, hbefore, hasked, -⟩ := h
  have hanswer : .wrote (attributeRequest uid) ∈ state.answer asking := by
    simp [AncsProtocolConsumer.answer, hasked]
  rw [AncsProtocolConsumer.answers_append hbefore, AncsProtocolConsumer.answers]
  exact List.mem_append_right _ (List.mem_append_left _ hanswer)

theorem mem_answers {c : AncsProtocolConsumer} {es : List AncsEvent} {a : BearerAction}
    (h : a ∈ c.answers es) : (∃ m, a = .emitted m) ∨ ∃ request, a = .wrote request := by
  induction es generalizing c with
  | nil => simp [AncsProtocolConsumer.answers] at h
  | cons e es ih =>
    rw [AncsProtocolConsumer.answers, List.mem_append] at h
    rcases h with h | h
    · rw [AncsProtocolConsumer.answer, List.mem_append, List.mem_map, List.mem_map] at h
      rcases h with ⟨m, -, rfl⟩ | ⟨request, -, rfl⟩
      · exact .inl ⟨m, rfl⟩
      · exact .inr ⟨request, rfl⟩
    · exact ih h

theorem answer_eq_emitted {c : AncsProtocolConsumer} {e : AncsEvent}
    {front rest : List BearerAction} {m : AncsNotificationMetadata}
    (h : c.answer e = front ++ .emitted m :: rest) : front = [] ∧ c.metadata e = some m := by
  rw [AncsProtocolConsumer.answer] at h
  cases hmetadata : c.metadata e <;> cases hrequest : c.request e <;> rw [hmetadata, hrequest] at h
  all_goals rcases front with - | ⟨x, - | ⟨y, front⟩⟩
  all_goals simp_all

/-- What the consumer gives out it asked for before. -/
theorem asked_of_answers {es : List AncsEvent} {c : AncsProtocolConsumer}
    (hrun : ancsConsumer.run .default es = some c) :
    ∀ front m rest, AncsProtocolConsumer.default.answers es = front ++ .emitted m :: rest →
      .wrote (attributeRequest m.uid) ∈ front := by
  refine ancsConsumer.run_history (P := fun es _ => ∀ front m rest,
    AncsProtocolConsumer.default.answers es = front ++ .emitted m :: rest →
      .wrote (attributeRequest m.uid) ∈ front) ?_ ?_ hrun
  · intro front m rest h
    simp [AncsProtocolConsumer.answers] at h
  · intro past c e c' hpast ih _ front m rest h
    rw [AncsProtocolConsumer.answers_snoc hpast] at h
    have hnew : ∀ back, c.answer e = back ++ .emitted m :: rest →
        .wrote (attributeRequest m.uid) ∈ AncsProtocolConsumer.default.answers past := by
      intro back hanswer
      obtain ⟨-, hmetadata⟩ := answer_eq_emitted hanswer
      obtain ⟨hpending, -⟩ := AncsProtocolConsumer.metadata_eq_some hmetadata
      obtain ⟨since, hlast, -⟩ := AncsProtocolConsumer.exists_lastRequest hpast m.uid hpending
      exact wrote_mem_answers hlast
    rcases List.append_eq_append_iff.1 h with ⟨back, rfl, hanswer⟩ | ⟨back, hold, hrest⟩
    · exact List.mem_append_left _ (hnew back hanswer)
    · cases back with
      | nil =>
        rw [List.append_nil] at hold
        exact hold ▸ hnew [] hrest.symm
      | cons x back =>
        obtain ⟨rfl, -⟩ := List.cons.inj hrest
        exact ih front m back hold

/-- Metadata in a log follow the connection, its subscriptions and the request they answer. -/
def Grounded (log : List BearerAction) : Prop :=
  ∀ before m after, log = before ++ .emitted m :: after →
    ∃ front since, before = front ++ .connected :: since ∧ .connected ∉ since ∧
      (∀ seconds, .backingOff seconds ∉ since) ∧ .subscribedNotificationSource ∈ since ∧
      .subscribedDataSource ∈ since ∧ .wrote (attributeRequest m.uid) ∈ since

theorem Grounded.append {l l' : List BearerAction} (h : Grounded l) (h' : Grounded l') :
    Grounded (l ++ l') := by
  intro before m after hsplit
  rcases List.append_eq_append_iff.1 hsplit with ⟨back, rfl, hback⟩ | ⟨back, rfl, hback⟩
  · obtain ⟨front, since, rfl, hsince⟩ := h' back m after hback
    exact ⟨l ++ front, since, by rw [List.append_assoc], hsince⟩
  · cases back with
    | nil =>
      obtain ⟨front, since, hnil, -⟩ := h' [] m after hback.symm
      simp at hnil
    | cons x back =>
      obtain ⟨rfl, -⟩ := List.cons.inj hback
      exact h before m back rfl

theorem Grounded.of_prefix {l l' : List BearerAction} (h : Grounded l') (hstart : l <+: l') :
    Grounded l := by
  rintro before m after rfl
  obtain ⟨rest, rfl⟩ := hstart
  exact h before m (after ++ rest) (by simp)

theorem grounded_attempt (h : IsAttempt es l) : Grounded l := by
  refine Grounded.of_prefix ?_ h.upTo
  obtain ⟨c, hrun⟩ := ancsConsumer.exists_run (fun c e => ⟨c.step e, rfl⟩) es .default
  have hready : ∀ back m after,
      AncsProtocolConsumer.default.answers es = back ++ .emitted m :: after →
        ∃ front since, handshake ++ back = front ++ .connected :: since ∧ .connected ∉ since ∧
          (∀ seconds, .backingOff seconds ∉ since) ∧ .subscribedNotificationSource ∈ since ∧
          .subscribedDataSource ∈ since ∧ .wrote (attributeRequest m.uid) ∈ since := by
    intro back m after h
    have hback : ∀ a ∈ back, (∃ m, a = .emitted m) ∨ ∃ r, a = .wrote r := fun a ha =>
      mem_answers (h ▸ List.mem_append_left _ ha)
    refine ⟨[], .subscribedNotificationSource :: .subscribedDataSource :: back, rfl, ?_, ?_,
      by simp, by simp, ?_⟩
    · intro hmem
      have := hback .connected (by simpa using hmem)
      simp at this
    · intro seconds hmem
      have := hback (.backingOff seconds) (by simpa using hmem)
      simp at this
    · simpa using asked_of_answers hrun back m after h
  intro before m after hsplit
  rcases List.append_eq_append_iff.1 hsplit with ⟨back, rfl, hback⟩ | ⟨back, hold, hrest⟩
  · exact hready back m after hback
  · cases back with
    | nil =>
      rw [List.append_nil] at hold
      rw [← hold, ← List.append_nil handshake]
      exact hready [] m after hrest.symm
    | cons x back =>
      obtain ⟨rfl, -⟩ := List.cons.inj hrest
      have hmem : .emitted m ∈ handshake := hold ▸ by simp
      simp [handshake] at hmem

theorem grounded_logOf : ∀ {past : List PastAttempt},
    (∀ attempt ∈ past, IsAttempt attempt.delivered attempt.log) → Grounded (logOf past)
  | [], _ => fun before m after h => by simp [logOf] at h
  | attempt :: past, h => by
    rw [logOf_cons]
    have hpast := grounded_logOf fun attempt hattempt => h attempt (List.mem_cons_of_mem _ hattempt)
    have hl := grounded_attempt (h attempt List.mem_cons_self)
    refine hpast.append (hl.append fun before m after h => ?_)
    rcases before with - | ⟨x, before⟩ <;> simp at h

/-- Whatever fails and however often the bearer connects, it hands on the metadata of a
notification only after both subscriptions of the connection it is in and a request for it written
in that connection. -/
theorem metadata_asked_in_connection {shutdown closed : Bool} {events : List BearerEvent}
    (hrun : ancsBearer.run (start shutdown closed) events = some b)
    {before after : List BearerAction} {m : AncsNotificationMetadata}
    (hlog : b.log = before ++ .emitted m :: after) :
    ∃ front since, before = front ++ .connected :: since ∧ .connected ∉ since ∧
      (∀ seconds, .backingOff seconds ∉ since) ∧ .subscribedNotificationSource ∈ since ∧
      .subscribedDataSource ∈ since ∧ .wrote (attributeRequest m.uid) ∈ since := by
  obtain ⟨past, es, l, hsplit, -, hpast, hcurrent⟩ := faithful_of_run hrun
  have hgrounded := (grounded_logOf hpast.attempts).append (grounded_attempt hcurrent.isAttempt)
  exact (hsplit ▸ hgrounded : Grounded b.log) before m after hlog

/-- A connection in which a Messages notification is announced and answered. -/
def answeredOnce : List BearerEvent :=
  [.discovered (.ok ()), .notified (.ok ()), .notified (.ok ()),
    .notificationEvent (some [0, 0, 4, 1, 1, 1, 1, 1]) (.ok ()),
    .dataEvent (some (attributeResponse AncsProtocolConsumer.firstUid
      AncsProtocolConsumer.messageValues)) (.ok ()) (.ok ())]

theorem metadata_asked_in_connection_once : ∃ b m,
    ancsBearer.run (start false false) answeredOnce = some b ∧ b.log[4]? = some (.emitted m) ∧
      ∃ front since, b.log.take 4 = front ++ .connected :: since ∧ .connected ∉ since ∧
        (∀ seconds, .backingOff seconds ∉ since) ∧ .subscribedNotificationSource ∈ since ∧
        .subscribedDataSource ∈ since ∧ .wrote (attributeRequest m.uid) ∈ since := by
  have hemitted : ((ancsBearer.run (start false false) answeredOnce).bind fun b =>
      b.log[4]?.bind fun action => match action with | .emitted m => some m | _ => none).isSome
        = true := by
    decide +kernel
  obtain ⟨m, hm⟩ := Option.isSome_iff_exists.1 hemitted
  obtain ⟨b, hrun, hb⟩ := Option.bind_eq_some_iff.1 hm
  obtain ⟨action, haction, hmatch⟩ := Option.bind_eq_some_iff.1 hb
  cases action <;> cases hmatch
  obtain ⟨hlt, hget⟩ := List.getElem?_eq_some_iff.1 haction
  have hsplit : b.log = b.log.take 4 ++ .emitted m :: b.log.drop 5 := by
    rw [← hget, List.getElem_cons_drop, List.take_append_drop]
  exact ⟨b, m, hrun, haction, metadata_asked_in_connection hrun hsplit⟩

end AncsBearer

end AnalogConnect
