import AnalogConnect.ScoWatchdog

/-!
# Which histories the watchdog reports

The one instant the watchdog remembers is when the unbroken run of inconsistent observations began
(`Watches`), so it reports a stalled teardown exactly when that run is as old as the grace period. A
refresh shows it the status just before it writes the audio state and the error, so these always
agree with its last report (`sco_watchdog_exact`).
-/

namespace AnalogConnect

open Transducer

variable {grace : ℕ} {history : List ScoObserved} {o : ScoObserved}
  {wd : ScoTeardownWatchdog}

/-- The watchdog remembers when the unbroken run began. -/
structure Watches (grace : ℕ) (history : List ScoObserved) (wd : ScoTeardownWatchdog) : Prop where
  grace_eq : wd.gracePeriod = grace
  since_eq : wd.inconsistentSince = (unbrokenRun history).head?.map (·.now)

/-- What the report on the last observation should be. -/
structure WatchdogReports (grace : ℕ) (history : List ScoObserved) (o : ScoObserved)
    (report : ScoTeardownObservation) : Prop where
  stalled_iff : report.stalled = true ↔ Stalled grace (history ++ [o])
  state_eq : report.state =
    if report.stalled then .error else if o.inconsistent then .scoTearingDown else o.audio

theorem inconsistent_iff :
    o.inconsistent = true ↔ (o.call = .idle ∨ o.call = .ended) ∧ o.audio = .scoActive := by
  simp [ScoObserved.inconsistent]

theorem unbrokenRun_snoc (ho : o.inconsistent = true) :
    unbrokenRun (history ++ [o]) = unbrokenRun history ++ [o] :=
  List.rtakeWhile_concat_pos _ _ _ ho

theorem unbrokenRun_broken (ho : ¬ o.inconsistent = true) : unbrokenRun (history ++ [o]) = [] :=
  List.rtakeWhile_concat_neg _ _ _ ho

/-- When the run that ends with `o` began. -/
theorem Watches.began (h : Watches grace history wd) (ho : o.inconsistent = true) :
    (unbrokenRun (history ++ [o])).head?.map (·.now) =
      some (wd.inconsistentSince.getD o.now) := by
  rw [unbrokenRun_snoc ho, h.since_eq]
  cases unbrokenRun history <;> rfl

theorem stalled_iff_began {began : ℕ}
    (h : (unbrokenRun (history ++ [o])).head?.map (·.now) = some began) :
    Stalled grace (history ++ [o]) ↔ began + grace ≤ o.now := by
  obtain ⟨first, hfirst, rfl⟩ := Option.map_eq_some_iff.1 h
  unfold Stalled
  rw [hfirst, List.getLast?_concat]
  simp

namespace Watches

theorem observe (h : Watches grace history wd) (hpast : ∀ o' ∈ history, o'.now ≤ o.now) :
    WatchdogReports grace history o (wd.observe o).1 ∧
      Watches grace (history ++ [o]) (wd.observe o).2 := by
  unfold ScoTeardownWatchdog.observe
  by_cases ho : o.inconsistent
  · rw [if_pos ho]
    have hbegan := h.began ho
    have hle : wd.inconsistentSince.getD o.now ≤ o.now := by
      rw [h.since_eq]
      rcases hrun : (unbrokenRun history).head? with - | first
      · exact le_rfl
      · exact hpast first ((List.rtakeWhile_suffix _ _).subset (List.mem_of_head? hrun))
    refine ⟨⟨?_, ?_⟩, ⟨h.grace_eq, hbegan.symm⟩⟩
    · rw [stalled_iff_began hbegan, decide_eq_true_eq, h.grace_eq]
      omega
    · rw [if_pos ho]
  · rw [if_neg ho]
    have hbroken : unbrokenRun (history ++ [o]) = [] := unbrokenRun_broken ho
    refine ⟨⟨iff_of_false (by simp) ?_, ?_⟩, ⟨h.grace_eq, by rw [hbroken]; rfl⟩⟩
    · rintro ⟨first, last, hfirst, -⟩
      rw [hbroken] at hfirst
      cases hfirst
    · rw [if_neg ho]
      rfl

end Watches

theorem watches_new (grace : ℕ) : Watches grace [] (.new grace) := ⟨rfl, rfl⟩

theorem watches_run {observations : List ScoObserved}
    (h : Ordered ScoObserved.now observations) :
    Watches grace observations (watchdog.after (.new grace) observations) := by
  have hrun := watchdog.ordered_history
    (P := fun past wd => Watches grace (past.map Prod.fst) wd) (watches_new grace)
    (fun past wd o hpast ih => ?_) h
  · rwa [map_fst_trace] at hrun
  · rw [List.map_append]
    exact (ih.observe (List.forall_mem_map.2 hpast)).2

/-! ## The status -/

variable {s : RuntimeStatus} {status : SystemStatus} {refresh : Refresh}

theorem takeObservation_lastError (status : SystemStatus) (report : ScoTeardownObservation) :
    (∃ error, (status.takeObservation report).lastError = some error ∧
      error.code = "sco_teardown_stalled") ↔ report.stalled = true := by
  unfold SystemStatus.takeObservation
  dsimp only
  split_ifs with hstalled hcode
  · exact iff_of_true ⟨_, rfl, rfl⟩ hstalled
  · exact iff_of_false (by simp) hstalled
  · refine iff_of_false ?_ hstalled
    rintro ⟨error, herror, heq⟩
    rw [herror] at hcode
    exact hcode (by simpa using heq)

/-- A report of active audio is on an observation with a call. -/
theorem WatchdogReports.state_ne (h : WatchdogReports grace history o report)
    (hstate : report.state = .scoActive) :
    ¬ o.inconsistent = true ∧ o.audio = .scoActive := by
  rw [h.state_eq] at hstate
  split_ifs at hstate with hstalled ho
  exact ⟨ho, hstate⟩

/-- What the refreshes of a trace showed to the watchdog. -/
def shown (trace : List (Refresh × ScoObserved)) : List ScoObserved := trace.map Prod.snd

theorem refresh_run {refreshes : List Refresh} (h : Ordered Refresh.now refreshes) (grace : ℕ)
    (status : SystemStatus) :
    Watches grace (shown (runtimeStatus.trace ⟨status, .new grace⟩ refreshes))
        (runtimeStatus.after ⟨status, .new grace⟩ refreshes).watchdog ∧
      ∀ r ∈ runtimeStatus.trace ⟨status, .new grace⟩ refreshes, r.2.now = r.1.now := by
  refine runtimeStatus.ordered_history (s := ⟨status, .new grace⟩) (P := fun past s =>
    Watches grace (shown past) s.watchdog ∧ ∀ r ∈ past, r.2.now = r.1.now)
    ⟨watches_new grace, by simp⟩ (fun past s refresh hpast ih => ?_) h
  obtain ⟨hwatches, htimes⟩ := ih
  constructor
  · unfold shown
    rw [List.map_append]
    refine (hwatches.observe (List.forall_mem_map.2 fun r hr => ?_)).2
    rw [htimes r hr]
    exact hpast r hr
  · rw [List.forall_mem_append, List.forall_mem_singleton]
    exact ⟨htimes, rfl⟩

/-- What a refresh leaves after any others. -/
theorem refresh_reports {refreshes : List Refresh}
    (h : Ordered Refresh.now (refreshes ++ [refresh])) (grace : ℕ) (status : SystemStatus) :
    let s := runtimeStatus.after ⟨status, .new grace⟩ (refreshes ++ [refresh])
    let history := shown (runtimeStatus.trace ⟨status, .new grace⟩ (refreshes ++ [refresh]))
    ((∃ error, s.status.lastError = some error ∧ error.code = "sco_teardown_stalled") ↔
      Stalled grace history) ∧
    (s.status.audio = .scoActive → s.status.call ≠ .idle ∧ s.status.call ≠ .ended) := by
  obtain ⟨hearlier, hle⟩ := ordered_snoc.1 h
  obtain ⟨hwatches, htimes⟩ := refresh_run hearlier grace status
  generalize hs : runtimeStatus.after ⟨status, .new grace⟩ refreshes = s at hwatches
  have hreports := (hwatches.observe (o := (s.refresh refresh).1) ?_).1
  · dsimp only
    rw [after_snoc, trace_snoc, hs]
    unfold shown
    rw [List.map_append, List.map_singleton]
    refine ⟨?_, fun haudio => ?_⟩
    · exact (takeObservation_lastError _ _).trans hreports.stalled_iff
    · obtain ⟨hconsistent, hactive⟩ := hreports.state_ne haudio
      exact not_or.1 fun hcall => hconsistent (inconsistent_iff.2 ⟨hcall, hactive⟩)
  · refine List.forall_mem_map.2 fun r hr => ?_
    rw [htimes r hr]
    refine hle r.1 ?_
    rw [← map_fst_trace runtimeStatus refreshes ⟨status, .new grace⟩]
    exact List.mem_map_of_mem hr

/-- The watchdog's reports say which unbroken runs are as old as the grace period; and after every
refresh the status has the stalled error exactly when the refresh was such, and active audio only
with a call. -/
theorem sco_watchdog_exact (grace : ℕ) :
    (∀ observations, Ordered ScoObserved.now observations →
      ∀ past o report future,
        watchdog.trace (.new grace) observations = past ++ (o, report) :: future →
          WatchdogReports grace (past.map Prod.fst) o report) ∧
    ∀ (status : SystemStatus) (refreshes : List Refresh) (refresh : Refresh),
      Ordered Refresh.now (refreshes ++ [refresh]) →
        let s := runtimeStatus.after ⟨status, .new grace⟩ (refreshes ++ [refresh])
        let history := shown (runtimeStatus.trace ⟨status, .new grace⟩ (refreshes ++ [refresh]))
        ((∃ error, s.status.lastError = some error ∧ error.code = "sco_teardown_stalled") ↔
          Stalled grace history) ∧
        (s.status.audio = .scoActive → s.status.call ≠ .idle ∧ s.status.call ≠ .ended) := by
  refine ⟨fun observations h past o report future hsplit => ?_,
    fun status refreshes refresh h => refresh_reports h grace status⟩
  obtain ⟨earlier, later, rfl, rfl, rfl⟩ := watchdog.trace_split hsplit
  obtain ⟨hearlier, -, hle⟩ := ordered_append.1 h
  rw [map_fst_trace]
  exact ((watches_run hearlier).observe fun o' ho' => hle o' ho' o List.mem_cons_self).1

/-- Audio that goes on for ten seconds after a call. -/
def lingering : List ScoObserved :=
  [⟨.active, .scoActive, 3⟩, ⟨.ended, .scoActive, 5⟩, ⟨.idle, .scoActive, 5 + 10 ^ 10⟩]

def lingeringRefresh (now : ℕ) : Refresh :=
  ⟨some (.taken (.ok ⟨.slcReady, .ended, .scoActive⟩)), some (.taken (.ok .scoActive)), now⟩

theorem sco_watchdog_exact_lingering :
    WatchdogReports (10 ^ 10) [⟨.active, .scoActive, 3⟩, ⟨.ended, .scoActive, 5⟩]
      ⟨.idle, .scoActive, 5 + 10 ^ 10⟩ ⟨.error, true⟩ ∧
    ((∃ error, (runtimeStatus.after ⟨{}, .new (10 ^ 10)⟩
        ([lingeringRefresh 5] ++ [lingeringRefresh (5 + 10 ^ 10)])).status.lastError = some error ∧
        error.code = "sco_teardown_stalled") ↔
      Stalled (10 ^ 10) (shown (runtimeStatus.trace ⟨{}, .new (10 ^ 10)⟩
        ([lingeringRefresh 5] ++ [lingeringRefresh (5 + 10 ^ 10)])))) := by
  refine ⟨(sco_watchdog_exact (10 ^ 10)).1 lingering ?_ [(_, _), (_, _)] _ _ [] rfl,
    ((sco_watchdog_exact (10 ^ 10)).2 {} _ _ ?_).1⟩
  · simp [Ordered, lingering]
  · simp [Ordered, lingeringRefresh]

end AnalogConnect
