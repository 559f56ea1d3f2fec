import AnalogConnect.HfpControl
import AnalogConnect.Proofs.Calls

/-!
# Which commands reach the phone

`execute` asks about calls before it calls a method. Where the replies report live calls in certain
states, each command acts on the phone under a condition on those states (`execute_acts_iff`), and
the controller's gate allows every command that does, up to a reject or a hang-up in states the
backend does not look at (`execute_allowed_iff`).
-/

namespace AnalogConnect

open WirePlumberBackend

variable {json : String → Option BusctlReply} {replies : List (List String) → Option String}
  {found : TelephonyPaths} {states : List LiveCallState} {asked : List (List String)}

/-! ## What the backend asks -/

namespace WirePlumberBackend

variable {P : List String → Prop}

theorem run_ok {e : WirePlumberBackendError} {arguments : List String}
    {output : String} (h : replies (asked ++ [arguments]) = some output) :
    run e arguments replies asked = (.ok output, asked ++ [arguments]) := by
  rw [run, Dialogue.bind_ok _ (Dialogue.ask_apply arguments), h]
  rfl

theorem run_error {e : WirePlumberBackendError} {arguments : List String}
    (h : replies (asked ++ [arguments]) = none) :
    run e arguments replies asked = (.error e, asked ++ [arguments]) := by
  rw [run, Dialogue.bind_ok _ (Dialogue.ask_apply arguments), h]
  rfl

theorem asksOnly_run {e : WirePlumberBackendError} {arguments : List String} (h : P arguments) :
    Dialogue.AsksOnly P (run e arguments) := by
  refine .bind (.ask h) fun reply => ?_
  cases reply with
  | none => exact .lift _
  | some output => exact .lift (.ok output)

theorem asksOnly_paths (json : String → Option BusctlReply) :
    Dialogue.AsksOnly (¬ isMutating ·) (paths json) := by
  refine .bind (asksOnly_run (by decide)) fun output => .bind (.lift _) fun found => ?_
  refine .bind (asksOnly_run ?_) fun calls => .lift _
  simp [isMutating, callsArguments]

theorem callState_apply {path : String} {state : LiveCallState}
    (h : (replies (asked ++ [stateArguments path])).bind LiveCallState.parse = some state) :
    callState path replies asked = (.ok state, asked ++ [stateArguments path]) := by
  obtain ⟨output, hreply, hparse⟩ := Option.bind_eq_some_iff.1 h
  rw [callState, Dialogue.bind_ok _ (run_ok hreply), callStateOf, hparse]
  rfl

/-- A method call is asked whether or not it succeeds. -/
theorem asked_call (path interface method : String) (values : List String) :
    (call path interface method values replies asked).2
      = asked ++ [methodArguments path interface method values] := by
  unfold call
  rcases hreply : replies (asked ++ [methodArguments path interface method values])
    with - | output
  · rw [Dialogue.bind_error _ (run_error hreply)]
  · rw [Dialogue.bind_ok _ (run_ok hreply)]
    rfl

theorem acts_call {path interface method : String} {values : List String}
    (hmethod : method ∈ mutatingMethods) (asked : List (List String)) :
    ∃ arguments ∈ (call path interface method values replies asked).2, isMutating arguments := by
  refine ⟨methodArguments path interface method values, ?_, ?_⟩
  · rw [asked_call]
    exact List.mem_append_right _ List.mem_cons_self
  · simpa [isMutating, methodArguments] using hmethod

end WirePlumberBackend

/-- The replies report live calls in these states. -/
structure Reports (json : String → Option BusctlReply)
    (replies : List (List String) → Option String) (found : TelephonyPaths)
    (states : List LiveCallState) : Prop where
  discovered : (paths json replies []).1 = .ok found
  states : List.Forall₂ (fun call state => ∀ asked,
    (replies (asked ++ [stateArguments call])).bind LiveCallState.parse = some state)
    found.calls states

/-- The run calls a method that acts on a call. -/
def Acts (json : String → Option BusctlReply) (replies : List (List String) → Option String)
    (command : CallCommand) : Prop :=
  ∃ arguments ∈ (execute json command replies []).2, isMutating arguments

/-- The states of the live calls in which the backend lets a command through. -/
def Passes (states : List LiveCallState) : CallCommand → Prop
  | .answer => states = [.incoming]
  | .reject | .hangUp => states ≠ []
  | .dial _ => states = []
  | .sendDtmf _ => states = [.active]
  | .setMicrophoneMuted _ | .setSpeakerGain _ | .setMicrophoneGain _ => False

theorem Reports.paths_eq (h : Reports json replies found states) :
    ∃ asked, paths json replies [] = (.ok found, asked) ∧
      ∀ arguments ∈ asked, ¬ isMutating arguments := by
  refine ⟨(paths json replies []).2, Prod.ext h.discovered rfl, ?_⟩
  exact asksOnly_paths json replies [] fun arguments hnone => absurd hnone List.not_mem_nil

/-- Either one call is live, and its state is known when asked for, or `only_call` fails. -/
theorem Reports.onlyCall_cases (h : Reports json replies found states) :
    (∃ path state, states = [state] ∧ found.onlyCall = .ok path ∧
      ∀ asked, callState path replies asked = (.ok state, asked ++ [stateArguments path])) ∨
    (∀ state, states ≠ [state]) ∧ found.onlyCall = .error .ambiguous := by
  have hstates := h.states
  unfold TelephonyPaths.onlyCall
  rcases hcalls : found.calls with - | ⟨path, - | ⟨path', rest⟩⟩ <;> rw [hcalls] at hstates
  · rw [List.forall₂_nil_left_iff] at hstates
    exact .inr ⟨by simp [hstates], rfl⟩
  · obtain ⟨state, rest, hstate, hrest, rfl⟩ := List.forall₂_cons_left_iff.1 hstates
    rw [List.forall₂_nil_left_iff] at hrest
    exact .inl ⟨path, state, by rw [hrest], rfl, fun asked => callState_apply (hstate asked)⟩
  · have hlength := hstates.length_eq
    refine .inr ⟨fun state heq => ?_, rfl⟩
    rw [heq] at hlength
    simp at hlength

theorem Reports.calls_eq_nil (h : Reports json replies found states) :
    found.calls = [] ↔ states = [] := by
  rw [← List.length_eq_zero_iff, h.states.length_eq, List.length_eq_zero_iff]

/-- What a command does to the one live call, it does where that call is in the state wanted. -/
theorem Reports.acts_inState (h : Reports json replies found states) {wanted : LiveCallState}
    {act : String → Bus Unit}
    (hquiet : ∀ arguments ∈ asked, ¬ isMutating arguments)
    (hacts : ∀ path asked, ∃ arguments ∈ (act path replies asked).2, isMutating arguments) :
    (∃ arguments ∈ ((do
        let path ← Dialogue.lift found.onlyCall
        let state ← callState path
        if state ≠ wanted then Dialogue.fail .rejected else act path : Bus Unit) replies asked).2,
      isMutating arguments) ↔ states = [wanted] := by
  rcases h.onlyCall_cases with ⟨path, state, rfl, hcall, hstate⟩ | ⟨hmany, hcall⟩
  · rw [hcall, Dialogue.bind_ok _ (Dialogue.lift_apply _), Dialogue.bind_ok _ (hstate asked)]
    by_cases hwanted : state = wanted
    · rw [if_neg (not_not.2 hwanted), hwanted]
      exact iff_of_true (hacts path _) rfl
    · rw [if_pos hwanted, Dialogue.fail_apply]
      refine iff_of_false ?_ fun heq => hwanted (List.cons.inj heq).1
      rintro ⟨arguments, hmem, hmutating⟩
      rcases List.mem_append.1 hmem with hmem | hmem
      · exact hquiet arguments hmem hmutating
      · rw [List.mem_singleton.1 hmem] at hmutating
        simp [isMutating, stateArguments] at hmutating
  · rw [hcall, Dialogue.bind_error _ (Dialogue.lift_apply _)]
    refine iff_of_false ?_ (hmany wanted)
    rintro ⟨arguments, hmem, hmutating⟩
    exact hquiet arguments hmem hmutating

/-- A command acts on the phone exactly where the backend lets it through. -/
theorem execute_acts_iff (h : Reports json replies found states) (command : CallCommand) :
    Acts json replies command ↔ Passes states command := by
  obtain ⟨asked, hpaths, hquiet⟩ := h.paths_eq
  have hnone : ¬ ∃ arguments ∈ asked, isMutating arguments := by
    rintro ⟨arguments, hmem, hmutating⟩
    exact hquiet arguments hmem hmutating
  have hhang : (∃ arguments ∈ ((if found.calls = [] then Dialogue.fail .rejected
        else call found.gateway audioGatewayInterface "HangupAll" [] : Bus Unit) replies asked).2,
      isMutating arguments) ↔ states ≠ [] := by
    rw [ne_eq, ← h.calls_eq_nil]
    split_ifs with hempty
    · exact iff_of_false hnone (not_not.2 hempty)
    · exact iff_of_true (acts_call (by decide) asked) hempty
  unfold Acts execute
  rw [Dialogue.bind_ok _ hpaths]
  cases command with
  | answer => exact h.acts_inState hquiet fun path => acts_call (by decide)
  | reject => exact hhang
  | hangUp => exact hhang
  | dial target =>
    simp only [Passes, ← h.calls_eq_nil]
    split_ifs with hempty
    · exact iff_of_false hnone hempty
    · exact iff_of_true (acts_call (by decide) asked) (not_not.1 hempty)
  | sendDtmf tone => exact h.acts_inState hquiet fun path => acts_call (by decide)
  | setMicrophoneMuted muted => exact iff_of_false hnone id
  | setSpeakerGain gain => exact iff_of_false hnone id
  | setMicrophoneGain gain => exact iff_of_false hnone id

/-! ## What the controller's gate allows -/

/-- The commands the backend lets through only where the gate allows them: a reject needs an
incoming call and no active one, and a hang-up a call that is not over. -/
def Agrees (states : List LiveCallState) : CallCommand → Prop
  | .reject => states = [] ∨ .incoming ∈ states ∧ .active ∉ states
  | .hangUp => states = [] ∨ ∃ state ∈ states, state ≠ .disconnected
  | _ => True

theorem nextState_reject_isSome_iff (state : CallState) :
    (nextState state .reject).isSome ↔ state = .incoming := by
  cases state <;> simp [nextState]

theorem nextState_hangUp_isSome_iff (state : CallState) :
    (nextState state .hangUp).isSome ↔
      state = .incoming ∨ state = .outgoing ∨ state = .active ∨ state = .held := by
  cases state <;> simp [nextState]

theorem aggregateCallState_eq_incoming (states : List LiveCallState) :
    aggregateCallState states = .incoming ↔ .incoming ∈ states ∧ .active ∉ states := by
  rcases aggregateCallState_cases states with ⟨hactive, heq⟩ | ⟨hactive, hincoming, heq⟩ |
    ⟨-, hincoming, -, heq⟩ | ⟨-, hincoming, -, -, -, heq⟩ | ⟨hover, heq | heq⟩ <;> rw [heq]
  · exact iff_of_false (by decide) fun h => h.2 hactive
  · exact iff_of_true rfl ⟨hincoming, hactive⟩
  · exact iff_of_false (by decide) fun h => hincoming h.1
  · exact iff_of_false (by decide) fun h => hincoming h.1
  · exact iff_of_false (by decide) fun h => absurd (hover _ h.1) (by decide)
  · exact iff_of_false (by decide) fun h => absurd (hover _ h.1) (by decide)

theorem nextState_aggregate_hangUp_iff (states : List LiveCallState) :
    (nextState (aggregateCallState states) .hangUp).isSome ↔
      ∃ state ∈ states, state ≠ .disconnected := by
  rw [nextState_hangUp_isSome_iff]
  rcases aggregateCallState_cases states with ⟨hactive, heq⟩ | ⟨-, hincoming, heq⟩ |
    ⟨-, -, hplaced, heq⟩ | ⟨-, -, -, -, hheld, heq⟩ | ⟨hover, heq⟩
  · exact iff_of_true (by simp [heq]) ⟨_, hactive, by decide⟩
  · exact iff_of_true (by simp [heq]) ⟨_, hincoming, by decide⟩
  · refine iff_of_true (by simp [heq]) ?_
    rcases hplaced with hdialing | halerting
    · exact ⟨_, hdialing, by decide⟩
    · exact ⟨_, halerting, by decide⟩
  · exact iff_of_true (by simp [heq]) ⟨_, hheld, by decide⟩
  · refine iff_of_false (by rcases heq with heq | heq <;> simp [heq]) ?_
    rintro ⟨state, hmem, hne⟩
    exact hne (hover state hmem)

/-- Every command that acts on the phone is one the controller's gate allows in the state of the
live calls, exactly where the backend and the gate agree on it. -/
theorem execute_allowed_iff {json : String → Option BusctlReply}
    {replies : List (List String) → Option String} {found : TelephonyPaths}
    {states : List LiveCallState} (h : Reports json replies found states)
    (command : CallCommand) :
    (Acts json replies command → (nextState (aggregateCallState states) command).isSome) ↔
      Agrees states command := by
  rw [execute_acts_iff h]
  cases command with
  | answer =>
    refine iff_of_true ?_ trivial
    rintro rfl
    decide
  | reject =>
    rw [nextState_reject_isSome_iff, aggregateCallState_eq_incoming]
    exact imp_iff_not_or.trans (by simp [Passes, Agrees])
  | hangUp =>
    rw [nextState_aggregate_hangUp_iff]
    exact imp_iff_not_or.trans (by simp [Passes, Agrees])
  | dial target =>
    refine iff_of_true ?_ trivial
    rintro rfl
    rfl
  | sendDtmf tone =>
    refine iff_of_true ?_ trivial
    rintro rfl
    rfl
  | setMicrophoneMuted muted => exact iff_of_true (fun h => absurd h id) trivial
  | setSpeakerGain gain => exact iff_of_true (fun h => absurd h id) trivial
  | setMicrophoneGain gain => exact iff_of_true (fun h => absurd h id) trivial

/-! ## One active call -/

section Example

def gatewayPath : String := "/org/pipewire/Telephony/ag0"
def callPath : String := "/org/pipewire/Telephony/ag0/call1"

def managedText : String :=
  "\x7b\"type\":\"a\x7boa\x7bsa\x7bsv\x7d\x7d\x7d\",\"data\":[\x7b\"" ++ gatewayPath
    ++ "\":\x7b\x7d\x7d]\x7d"

def callsText : String :=
  "\x7b\"type\":\"a\x7boa\x7bsv\x7d\x7d\",\"data\":[\x7b\"" ++ callPath
    ++ "\":\x7b\x7d\x7d]\x7d"

/-- What the two texts read as. -/
def oneCallJson (text : String) : Option BusctlReply :=
  if text = managedText then some ⟨"a\x7boa\x7bsa\x7bsv\x7d\x7d\x7d", [[gatewayPath]]⟩
  else if text = callsText then some ⟨"a\x7boa\x7bsv\x7d\x7d", [[callPath]]⟩
  else none

/-- A service with one gateway and one call, which is active. -/
def oneCallReplies (asked : List (List String)) : Option String :=
  let arguments := asked.getLast?.getD []
  if arguments = managedObjectsArguments then some managedText
  else if arguments = callsArguments gatewayPath then some callsText
  else if arguments = stateArguments callPath then some "s \"active\"\n"
  else some ""

theorem oneCall_reports :
    Reports oneCallJson oneCallReplies ⟨gatewayPath, [callPath]⟩ [.active] := by
  refine ⟨by decide +kernel, .cons (fun asked => ?_) .nil⟩
  have hlast : (asked ++ [stateArguments callPath]).getLast?.getD [] = stateArguments callPath := by
    simp
  unfold oneCallReplies
  rw [hlast]
  decide +kernel

/-- A reject hangs up the one call there is, which is active; the gate allows no reject then. -/
theorem reject_hangs_up_active_call :
    Reports oneCallJson oneCallReplies ⟨gatewayPath, [callPath]⟩ [.active] ∧
      Acts oneCallJson oneCallReplies .reject ∧
      nextState (aggregateCallState [.active]) .reject = none :=
  ⟨oneCall_reports, (execute_acts_iff oneCall_reports .reject).2 (by simp [Passes]), rfl⟩

theorem execute_allowed_iff_reject :
    (Acts oneCallJson oneCallReplies .reject →
      (nextState (aggregateCallState [.active]) .reject).isSome) ↔ Agrees [.active] .reject :=
  execute_allowed_iff oneCall_reports .reject

end Example

end AnalogConnect
