import Mathlib.Data.List.Destutter
import AnalogConnect.Library.JoinedSets
import AnalogConnect.Proofs.HfpControl

/-!
# Telephony commands fail closed

Whatever the service replies, `execute` asks only its questions until it acts, and acts once and
last (`execute_fails_closed`). What it acts on it found in the replies: the one gateway among the
managed objects, and the calls reported under it, which are all that `paths` returns
(`WirePlumberBackend.paths_ok`).
-/

namespace AnalogConnect

open WirePlumberBackend

/-! ## What the replies say -/

/-- One digit or more. -/
def IsNumber (id : List Char) : Prop := id ≠ [] ∧ ∀ c ∈ id, c.isDigit = true

def IsGateway (path : String) : Prop :=
  ∃ id, IsNumber id ∧ path.toList = (telephonyRoot ++ "/ag").toList ++ id

def IsCallUnder (gateway path : String) : Prop :=
  ∃ id, IsNumber id ∧ path.toList = (gateway ++ "/call").toList ++ id

section

variable (json : String → Option BusctlReply)

/-- The object paths in a reply's one map. -/
def Lists (output path : String) : Prop :=
  ∃ signature objects, json output = some ⟨signature, [objects]⟩ ∧ path ∈ objects

/-- The gateways a reply to `GetManagedObjects` lists. -/
def foundGateways (output : String) : Set String := {path | Lists json output path ∧ IsGateway path}

/-- The calls under a gateway that a reply to `GetCalls` lists. -/
def reportedCalls (gateway output : String) : Set String :=
  {path | Lists json output path ∧ IsCallUnder gateway path}

end

theorem isNumeric_iff (id : List Char) : isNumeric id = true ↔ IsNumber id := by
  unfold isNumeric IsNumber
  cases id <;> simp

/-- A path is the prefix and a number when the rest of it is numeric. -/
theorem numbered_iff {root path : List Char} :
    (∃ id, IsNumber id ∧ path = root ++ id) ↔
      ∃ rest, root.isPrefixOf? path = some rest ∧ isNumeric rest = true := by
  simp only [List.isPrefixOf?_eq_some_iff_append_eq, isNumeric_iff]
  exact exists_congr fun id => by rw [and_comm, eq_comm]

theorem telephonyObject_eq_gateway (path : String) :
    telephonyObject path = some .gateway ↔ IsGateway path := by
  unfold telephonyObject IsGateway
  rw [numbered_iff]
  split
  next hstrip =>
    rw [hstrip]
    simp
  next rest hstrip =>
    rw [hstrip]
    by_cases hnumeric : isNumeric rest = true
    · simp [hnumeric]
    · rw [if_neg hnumeric]
      refine iff_of_false ?_ (by simpa using hnumeric)
      split
      · simp
      · split <;> simp

theorem isCallOf_iff (gateway path : String) :
    isCallOf gateway path = true ↔ IsCallUnder gateway path := by
  unfold isCallOf IsCallUnder
  rw [numbered_iff]
  split
  next hstrip =>
    rw [hstrip]
    simp
  next rest hstrip =>
    rw [hstrip]
    simp

theorem mem_sortDedup (paths : List String) (path : String) :
    path ∈ sortDedup paths ↔ path ∈ paths := by
  have hsorted : sortDedup paths = JoinedSets.sortedDistinct paths :=
    JoinedSets.destutter_insertionSort paths
  rw [hsorted, JoinedSets.mem_sortedDistinct]

/-! ## What the backend asks, reply by reply -/

namespace WirePlumberBackend

variable {json : String → Option BusctlReply} {replies : List (List String) → Option String}
  {asked asked' : List (List String)} {found : TelephonyPaths} {output : String}

/-- The runs of `busctl` that only read. -/
def IsQuery (arguments : List String) : Prop :=
  arguments = managedObjectsArguments ∨ (∃ gateway, arguments = callsArguments gateway) ∨
    ∃ path, arguments = stateArguments path

theorem IsQuery.not_isMutating {arguments : List String} (h : IsQuery arguments) :
    ¬ isMutating arguments := by
  rcases h with rfl | ⟨gateway, rfl⟩ | ⟨path, rfl⟩
  · decide
  · simp [isMutating, callsArguments]
  · simp [isMutating, stateArguments]

theorem run_eq_ok {e : WirePlumberBackendError} {arguments : List String} :
    run e arguments replies asked = (.ok output, asked') ↔
      replies (asked ++ [arguments]) = some output ∧ asked' = asked ++ [arguments] := by
  rcases hreply : replies (asked ++ [arguments]) with - | reply
  · simp [run_error hreply]
  · simp [run_ok hreply, eq_comm]

theorem isQuery_paths (json : String → Option BusctlReply) :
    Dialogue.AsksOnly IsQuery (paths json) := by
  refine .bind (asksOnly_run (.inl rfl)) fun output => .bind (.lift _) fun found => ?_
  exact .bind (asksOnly_run (.inr (.inl ⟨_, rfl⟩))) fun calls => .lift _

theorem parseManagedObjects_ok
    (h : TelephonyPaths.parseManagedObjects json output = .ok found) :
    foundGateways json output = {found.gateway} := by
  unfold TelephonyPaths.parseManagedObjects at h
  rcases hreply : json output with - | ⟨signature, data⟩
  · simp [hreply] at h
  rcases data with - | ⟨objects, - | ⟨second, data⟩⟩
  · simp [hreply] at h
  · simp only [hreply] at h
    split_ifs at h
    split at h
    · cases h
    next gateway hgateway =>
      obtain rfl := Except.ok.inj h
      ext path
      have hpath : path ∈ [gateway] ↔ path ∈ objects ∧ IsGateway path := by
        rw [← hgateway, mem_sortDedup, List.mem_filter, decide_eq_true_iff,
          telephonyObject_eq_gateway]
      rw [Set.mem_singleton_iff, ← List.mem_singleton, hpath]
      simp [foundGateways, Lists, hreply]
    · cases h
  · simp [hreply] at h

theorem replaceCalls_ok {calls : TelephonyPaths} (h : found.replaceCalls json output = .ok calls) :
    calls.gateway = found.gateway ∧
      reportedCalls json found.gateway output = {path | path ∈ calls.calls} := by
  unfold TelephonyPaths.replaceCalls at h
  rcases hreply : json output with - | ⟨signature, data⟩
  · simp [hreply] at h
  rcases data with - | ⟨objects, - | ⟨second, data⟩⟩
  · simp [hreply] at h
  · simp only [hreply] at h
    split_ifs at h
    obtain rfl := Except.ok.inj h
    refine ⟨rfl, ?_⟩
    ext path
    simp [reportedCalls, Lists, hreply, mem_sortDedup, isCallOf_iff]
  · simp [hreply] at h

/-- What `paths` found, it found in the two replies. -/
structure Discovers (json : String → Option BusctlReply)
    (replies : List (List String) → Option String) (found : TelephonyPaths) : Prop where
  gateway : ∃ managed, replies [managedObjectsArguments] = some managed ∧
    foundGateways json managed = {found.gateway}
  calls : ∃ calls, replies [managedObjectsArguments, callsArguments found.gateway] = some calls ∧
    reportedCalls json found.gateway calls = {path | path ∈ found.calls}

theorem paths_ok (h : paths json replies [] = (.ok found, asked)) :
    asked = [managedObjectsArguments, callsArguments found.gateway] ∧
      Discovers json replies found := by
  unfold paths at h
  obtain ⟨managed, _, hrun, h⟩ := Dialogue.bind_eq_ok.1 h
  obtain ⟨hmanaged, rfl⟩ := run_eq_ok.1 hrun
  obtain ⟨first, _, hparse, h⟩ := Dialogue.bind_eq_ok.1 h
  rw [Dialogue.lift_apply, Prod.mk.injEq] at hparse
  obtain ⟨hparse, rfl⟩ := hparse
  obtain ⟨calls, _, hrun', h⟩ := Dialogue.bind_eq_ok.1 h
  obtain ⟨hcalls, rfl⟩ := run_eq_ok.1 hrun'
  rw [Dialogue.lift_apply, Prod.mk.injEq] at h
  obtain ⟨hreplace, rfl⟩ := h
  obtain ⟨hgateway, hreported⟩ := replaceCalls_ok hreplace
  rw [hgateway]
  exact ⟨rfl, ⟨managed, hmanaged, hgateway ▸ parseManagedObjects_ok hparse⟩,
    ⟨calls, by rw [hgateway]; exact hcalls, by rw [hgateway]; exact hreported⟩⟩

/-- A run that failed has only asked, and any other has made one call, its last, that is
permitted. -/
def FailsClosed (permits : List String → Prop)
    (outcome : Except WirePlumberBackendError Unit × List (List String)) : Prop :=
  (∃ e, outcome.1 = .error e ∧ ∀ arguments ∈ outcome.2, IsQuery arguments) ∨
    ∃ before arguments, outcome.2 = before ++ [arguments] ∧
      (∀ question ∈ before, IsQuery question) ∧ permits arguments

variable {permits : List String → Prop}

theorem failsClosed_of_asked {e : WirePlumberBackendError}
    (hasked : ∀ arguments ∈ asked, IsQuery arguments) :
    FailsClosed permits (.error e, asked) :=
  .inl ⟨e, rfl, hasked⟩

theorem FailsClosed.mono {permits' : List String → Prop}
    {outcome : Except WirePlumberBackendError Unit × List (List String)}
    (h : FailsClosed permits outcome) (himp : ∀ arguments, permits arguments → permits' arguments) :
    FailsClosed permits' outcome := by
  rcases h with hfails | ⟨before, arguments, hlast, hbefore, hpermits⟩
  · exact .inl hfails
  · exact .inr ⟨before, arguments, hlast, hbefore, himp arguments hpermits⟩

theorem failsClosed_call {path interface method : String} {values : List String}
    (hasked : ∀ arguments ∈ asked, IsQuery arguments)
    (hpermits : permits (methodArguments path interface method values)) :
    FailsClosed permits (call path interface method values replies asked) :=
  .inr ⟨asked, _, asked_call path interface method values, hasked, hpermits⟩

/-- A state that was asked for and not understood fails too. -/
theorem callState_cases (path : String) :
    (∃ e, callState path replies asked = (.error e, asked ++ [stateArguments path])) ∨
    ∃ state, (replies (asked ++ [stateArguments path])).bind LiveCallState.parse = some state ∧
      callState path replies asked = (.ok state, asked ++ [stateArguments path]) := by
  rcases hreply : replies (asked ++ [stateArguments path]) with - | output
  · exact .inl ⟨.unavailable, by rw [callState, Dialogue.bind_error _ (run_error hreply)]⟩
  rcases hparse : LiveCallState.parse output with - | state
  · refine .inl ⟨.ambiguous, ?_⟩
    rw [callState, Dialogue.bind_ok _ (run_ok hreply), callStateOf, hparse]
    rfl
  · have hbind : (some output).bind LiveCallState.parse = some state := by
      rw [Option.bind_some, hparse]
    exact .inr ⟨state, hbind, callState_apply (by rw [hreply, hbind])⟩

/-- A command for the one live call in the state wanted acts there, and elsewhere only asks. -/
theorem failsClosed_inState {wanted : LiveCallState} {act : String → Bus Unit}
    (hasked : ∀ arguments ∈ asked, IsQuery arguments)
    (hact : ∀ path asked', found.calls = [path] → (∀ arguments ∈ asked', IsQuery arguments) →
      (replies (asked ++ [stateArguments path])).bind LiveCallState.parse = some wanted →
        FailsClosed permits (act path replies asked')) :
    FailsClosed permits ((do
      let path ← Dialogue.lift found.onlyCall
      let state ← callState path
      if state ≠ wanted then Dialogue.fail .rejected else act path : Bus Unit) replies asked) := by
  rcases honly : found.onlyCall with e | path
  · rw [Dialogue.bind_error _ (Dialogue.lift_apply _)]
    exact failsClosed_of_asked hasked
  have hcalls : found.calls = [path] := by
    unfold TelephonyPaths.onlyCall at honly
    split at honly
    next only honlyCalls => rw [honlyCalls, Except.ok.inj honly]
    · cases honly
  have hquery : ∀ arguments ∈ asked ++ [stateArguments path], IsQuery arguments := by
    intro arguments hmem
    rcases List.mem_append.1 hmem with hmem | hmem
    · exact hasked arguments hmem
    · exact .inr (.inr ⟨path, List.mem_singleton.1 hmem⟩)
  rw [Dialogue.bind_ok _ (Dialogue.lift_apply _)]
  rcases callState_cases path with ⟨e, hstate⟩ | ⟨state, hparse, hstate⟩
  · rw [Dialogue.bind_error _ hstate]
    exact failsClosed_of_asked hquery
  · rw [Dialogue.bind_ok _ hstate]
    by_cases hwanted : state = wanted
    · rw [if_neg (not_not.2 hwanted)]
      exact hact path _ hcalls hquery (hwanted ▸ hparse)
    · rw [if_pos hwanted]
      exact failsClosed_of_asked hquery

end WirePlumberBackend

/-! ## What a command may do -/

/-- The one method call a command may make, under the gateway and with the calls reported there, by
the state a call's property gives. -/
def Permits (gateway : String) (calls : Set String) (state : String → Option LiveCallState) :
    CallCommand → List String → Prop
  | .answer, arguments => ∃ call, calls = {call} ∧ state call = some .incoming ∧
      arguments = methodArguments call callInterface "Answer" []
  | .reject, arguments | .hangUp, arguments => calls.Nonempty ∧
      arguments = methodArguments gateway audioGatewayInterface "HangupAll" []
  | .dial target, arguments => calls = ∅ ∧
      arguments = methodArguments gateway audioGatewayInterface "Dial" ["s", target.value]
  | .sendDtmf tone, arguments => (∃ call, calls = {call} ∧ state call = some .active) ∧
      arguments = methodArguments gateway audioGatewayInterface "SendTones"
        ["s", String.singleton tone.value]
  | .setMicrophoneMuted _, _ | .setSpeakerGain _, _ | .setMicrophoneGain _, _ => False

variable {json : String → Option BusctlReply} {replies : List (List String) → Option String}
  {found : TelephonyPaths}

theorem setOf_mem_singleton {calls : List String} {path : String} (h : calls = [path]) :
    {call | call ∈ calls} = ({path} : Set String) := by
  ext call
  simp [h]

/-- With the objects found, a command fails and has only asked, or makes the one call it may. -/
theorem execute_of_paths {asked : List (List String)}
    (hpaths : paths json replies [] = (.ok found, asked))
    (hasked : ∀ arguments ∈ asked, IsQuery arguments) (command : CallCommand) :
    FailsClosed (Permits found.gateway {path | path ∈ found.calls} (fun call =>
        (replies (asked ++ [stateArguments call])).bind LiveCallState.parse) command)
      (execute json command replies []) := by
  have hangs : FailsClosed (fun arguments => {path | path ∈ found.calls}.Nonempty ∧
        arguments = methodArguments found.gateway audioGatewayInterface "HangupAll" [])
      ((if found.calls = [] then Dialogue.fail .rejected
        else call found.gateway audioGatewayInterface "HangupAll" [] : Bus Unit)
          replies asked) := by
    by_cases hempty : found.calls = []
    · rw [if_pos hempty]
      exact failsClosed_of_asked hasked
    · rw [if_neg hempty]
      exact failsClosed_call hasked ⟨List.exists_mem_of_ne_nil _ hempty, rfl⟩
  unfold execute
  rw [Dialogue.bind_ok _ hpaths]
  cases command with
  | answer =>
    refine failsClosed_inState hasked fun path asked' hcalls hasked' hincoming => ?_
    exact failsClosed_call hasked' ⟨path, setOf_mem_singleton hcalls, hincoming, rfl⟩
  | reject => exact hangs
  | hangUp => exact hangs
  | dial target =>
    by_cases hempty : found.calls = []
    · simp only [hempty, ne_eq, not_true_eq_false, if_false]
      exact failsClosed_call hasked ⟨by simp, rfl⟩
    · simp only [ne_eq, hempty, not_false_eq_true, if_true]
      exact failsClosed_of_asked hasked
  | sendDtmf tone =>
    refine failsClosed_inState hasked fun path asked' hcalls hasked' hactive => ?_
    exact failsClosed_call hasked' ⟨⟨path, setOf_mem_singleton hcalls, hactive⟩, rfl⟩
  | setMicrophoneMuted muted => exact failsClosed_of_asked hasked
  | setSpeakerGain gain => exact failsClosed_of_asked hasked
  | setMicrophoneGain gain => exact failsClosed_of_asked hasked

/-- What acts is asked last, after nothing that acts. -/
theorem FailsClosed.mutating_last
    {outcome : Except WirePlumberBackendError Unit × List (List String)}
    (h : FailsClosed permits outcome) {before after : List (List String)}
    {arguments : List String} (hasked : outcome.2 = before ++ arguments :: after)
    (hmutating : isMutating arguments = true) :
    after = [] ∧ ∀ question ∈ before, ¬ isMutating question := by
  rcases h with ⟨-, -, hquery⟩ | ⟨before', last, hlast, hbefore, -⟩
  · rw [hasked] at hquery
    exact absurd hmutating (hquery arguments (by simp)).not_isMutating
  · rw [hasked] at hlast
    rcases List.eq_nil_or_concat' after with rfl | ⟨after', final, rfl⟩
    · obtain ⟨rfl, -⟩ := List.append_inj' hlast rfl
      exact ⟨rfl, fun question hmem => (hbefore question hmem).not_isMutating⟩
    · rw [← List.cons_append, ← List.append_assoc] at hlast
      obtain ⟨rfl, -⟩ := List.append_inj' hlast rfl
      exact absurd hmutating (hbefore arguments (by simp)).not_isMutating

/-- A command fails having only asked, or it makes one call that acts, its last, on the gateway
found or the call reported there, where the calls reported and their state permit it. -/
theorem execute_fails_closed (json : String → Option BusctlReply)
    (replies : List (List String) → Option String) (command : CallCommand) :
    FailsClosed (fun arguments => ∃ gateway managed calls,
        replies [managedObjectsArguments] = some managed ∧
        foundGateways json managed = {gateway} ∧
        replies [managedObjectsArguments, callsArguments gateway] = some calls ∧
        Permits gateway (reportedCalls json gateway calls)
          (fun call => (replies [managedObjectsArguments, callsArguments gateway,
            stateArguments call]).bind LiveCallState.parse) command arguments)
      (execute json command replies []) := by
  have hquery := isQuery_paths json replies [] fun arguments hnone =>
    absurd hnone List.not_mem_nil
  rcases hpaths : paths json replies [] with ⟨e | found, asked⟩
  · rw [hpaths] at hquery
    unfold execute
    rw [Dialogue.bind_error _ hpaths]
    exact failsClosed_of_asked hquery
  · rw [hpaths] at hquery
    obtain ⟨hasked, ⟨managed, hmanaged, hgateway⟩, ⟨calls, hcalls, hreported⟩⟩ := paths_ok hpaths
    refine (execute_of_paths hpaths hquery command).mono fun arguments hpermits => ?_
    refine ⟨found.gateway, managed, calls, hmanaged, hgateway, hcalls, ?_⟩
    rw [hasked] at hpermits
    rw [hreported]
    exact hpermits

end AnalogConnect
