import AnalogConnect.Proofs.MapSession

/-!
# Where the phone stands

The client counts the directories it entered and leaves as many before it enters others. The count
is right (`At`) as long as no reply to a request the phone acted on is lost on an open stream, and
then every text is pushed into the outbox. A drain pushes what is queued, oldest first.
-/

namespace AnalogConnect

open Attempt

/-- What the phone acted on is answered, or its stream ends. -/
def MapEnv.Orderly (env : MapEnv) : Prop := ∀ call text, env.reply call ≠ .garbled text true

/-- The client's count is that of `path`, and so is the phone's directory while the stream lasts. -/
structure MapWorld.At (path : List String) (w : MapWorld) : Prop where
  depth : w.depth = path.length
  path : w.isOpen = true → w.path = path

section

variable {env : MapEnv} {path : List String} {segment : String}

open MapWorld

/-! ## Directories -/

theorem meets_request_at (henv : env.Orderly) (path : List String) (act : MapWorld → MapWorld)
    (f : List String → List String)
    (hact : ∀ w, (act w).path = f w.path ∧ (act w).depth = w.depth ∧ (act w).isOpen = w.isOpen) :
    Meets (At path) (request env act fun _ w => w)
      (Split (fun _ w => w.depth = path.length ∧ w.isOpen = true ∧ w.path = f path)
        fun _ => At path) := by
  rintro w ⟨hdepth, hpath⟩
  simp only [request, go_of]
  split_ifs with hopen
  · exact ⟨hdepth, fun h => by simp [hopen] at h⟩
  · have hopen : w.isOpen = true := by simpa using hopen
    cases hreply : env.reply w.calls with
    | ok name =>
      obtain ⟨hp, hd, ho⟩ := hact { w with calls := w.calls + 1 }
      exact ⟨hd.trans hdepth, ho.trans hopen, by rw [hp, hpath hopen]⟩
    | refused opcode => exact ⟨hdepth, fun _ => hpath hopen⟩
    | garbled text acted =>
      cases acted with
      | false => exact ⟨hdepth, fun _ => hpath hopen⟩
      | true => exact absurd hreply (henv _ _)
    | closed error acted =>
      refine ⟨?_, fun h => by simp at h⟩
      cases acted
      · exact hdepth
      · exact (hact _).2.1.trans hdepth
    | died acted =>
      refine ⟨?_, fun h => by simp at h⟩
      cases acted
      · exact hdepth
      · exact (hact _).2.1.trans hdepth

theorem meets_setpath (henv : env.Orderly) (segment : String) (hlength : path.length < 255) :
    Meets (At path) (setpath env segment)
      (Split (fun _ w => w.At (path ++ [segment]) ∧ w.isOpen = true) fun _ => At path) := by
  have hrequest := meets_request_at henv path (enter segment) (· ++ [segment])
    fun w => ⟨rfl, rfl, rfl⟩
  refine hrequest.bind (fun _ => ?_) fun _ _ h => h
  rintro w ⟨hdepth, hopen, hpath⟩
  refine ⟨⟨?_, fun _ => hpath⟩, hopen⟩
  rw [List.length_append, List.length_singleton, ← hdepth]
  exact min_eq_left (by omega)

theorem meets_setpathUp (henv : env.Orderly) :
    Meets (At (path ++ [segment])) (setpathUp env)
      (Split (fun _ w => w.At path) fun _ => At (path ++ [segment])) := by
  have hrequest := meets_request_at henv (path ++ [segment]) leave List.dropLast
    fun w => ⟨rfl, rfl, rfl⟩
  refine hrequest.bind (fun _ => ?_) fun _ _ h => h
  rintro w ⟨hdepth, hopen, hpath⟩
  refine ⟨?_, fun _ => ?_⟩
  · change w.depth - 1 = _
    rw [hdepth, List.length_append]
    rfl
  · change w.path = _
    rw [hpath, List.dropLast_concat]

/-- Somewhere in the tree of message folders. -/
def MapWorld.Placed (w : MapWorld) : Prop := ∃ path : List String, path.length ≤ 3 ∧ w.At path

theorem meets_resetToRoot (henv : env.Orderly) :
    Meets Placed (resetToRoot env) (Split (fun _ w => w.At []) fun _ => Placed) := by
  rintro w ⟨path, hlength, hat⟩
  let I : List ℕ → MapWorld → Prop := fun l w => l.length ≤ path.length ∧ w.At (path.take l.length)
  let E : SendError → MapWorld → Prop := fun _ => Placed
  have hup : ∀ i l, Meets (I (i :: l)) (setpathUp env) (Split (fun _ => I l) E) := by
    rintro i l w ⟨hl, hw⟩
    have hlt : l.length < path.length := Nat.lt_of_succ_le hl
    rw [List.length_cons, List.take_succ_eq_append_getElem hlt] at hw
    have hmeets := meets_setpathUp henv w hw
    rcases hgo : go (setpathUp env) w with ⟨e | _, w'⟩
    · rw [hgo] at hmeets
      refine ⟨_, ?_, hmeets⟩
      rw [List.length_append, List.length_take, List.length_singleton]
      omega
    · rw [hgo] at hmeets
      exact ⟨hlt.le, hmeets⟩
  have hloop := Meets.forM (I := I) (E := E) hup (List.range w.depth) w
    ⟨by rw [List.length_range, hat.depth], by rwa [List.length_range, hat.depth, List.take_length]⟩
  rw [resetToRoot, go_bind, go_get]
  change Split _ _ (go (forM (List.range w.depth) fun _ => setpathUp env) w).1
    (go (forM (List.range w.depth) fun _ => setpathUp env) w).2
  rcases hgo : go (forM (List.range w.depth) fun _ => setpathUp env) w with ⟨e | _, w'⟩
  · rw [hgo] at hloop
    exact hloop
  · rw [hgo] at hloop
    exact hloop.2

/-- The directory of a message folder. -/
def folderPath (folder : Folder) : List String := ["telecom", "msg", folder.asStr]

theorem meets_setpath_placed (henv : env.Orderly) (path : List String) (segment : String)
    (hlength : path.length < 3) :
    Meets (At path) (setpath env segment)
      (Split (fun _ w => w.At (path ++ [segment]) ∧ w.isOpen = true) fun _ => Placed) := by
  intro w hw
  have hmeets := meets_setpath henv segment (by omega) w hw
  rcases hgo : go (setpath env segment) w with ⟨e | _, w'⟩
  · rw [hgo] at hmeets
    exact ⟨path, by omega, hmeets⟩
  · rw [hgo] at hmeets
    exact hmeets

/-- A walk to a folder that goes through ends there; one that fails ends on the way. -/
theorem meets_setFolder (henv : env.Orderly) (folder : Folder) :
    Meets Placed (setFolder env folder)
      (Split (fun _ w => w.At (folderPath folder) ∧ w.isOpen = true) fun _ => Placed) := by
  have htelecom := meets_setpath_placed henv [] "telecom" (by simp)
  have hmsg := meets_setpath_placed henv ["telecom"] "msg" (by simp)
  have hfolder := meets_setpath_placed henv ["telecom", "msg"] folder.asStr (by simp)
  refine (meets_resetToRoot henv).bind (fun _ => ?_) fun _ _ h => h
  refine htelecom.bind (fun _ => ?_) fun _ _ h => h
  refine Meets.bind (hmsg.weaken (fun w h => h.1) fun _ _ h => h) (fun _ => ?_) fun _ _ h => h
  exact Meets.bind (hfolder.weaken (fun w h => h.1) fun _ _ h => h)
    (fun _ => Meets.pure fun w h => h) fun _ _ h => h

theorem keeps_placed_openMessageFolders (henv : env.Orderly) :
    Keeps Placed (openMessageFolders env) := by
  have htelecom := meets_setpath_placed henv [] "telecom" (by simp)
  have hmsg := meets_setpath_placed henv ["telecom"] "msg" (by simp)
  refine (meets_resetToRoot henv).bind (fun _ => ?_) fun _ _ h => h
  refine htelecom.bind (fun _ => ?_) fun _ _ h => h
  refine hmsg.weaken (fun w h => h.1) fun r w h => ?_
  cases r with
  | ok _ => exact ⟨_, by simp, h.1⟩
  | error _ => exact h

/-! ## Pushes -/

/-- Every push so far went into the outbox folder. -/
def MapWorld.PushedIntoOutbox (w : MapWorld) : Prop :=
  ∀ push ∈ w.pushes, push.path = folderPath .outbox

/-- The phone stands in the outbox folder, and so it did at every push. -/
def MapWorld.Sending (w : MapWorld) : Prop := w.At (folderPath .outbox) ∧ w.PushedIntoOutbox

theorem keeps_sending_storeUpdate (f : OutboxStore → Except OutboxError OutboxStore) :
    Keeps Sending (storeUpdate env f) := by
  rintro w ⟨⟨hdepth, hpath⟩, hpushed⟩
  rcases storeUpdate_cases env f w with ⟨db, -, h⟩ | ⟨e, h⟩ | ⟨db, -, h⟩
  · rw [h]
    exact ⟨⟨hdepth, hpath⟩, hpushed⟩
  · rw [h]
    exact ⟨⟨hdepth, hpath⟩, hpushed⟩
  · rw [h]
    exact ⟨⟨hdepth, fun h => by simp at h⟩, hpushed⟩

theorem keeps_sending_warn (warning : Warning) : Keeps Sending (warn warning) :=
  fun _ ⟨⟨hdepth, hpath⟩, hpushed⟩ => ⟨⟨hdepth, hpath⟩, hpushed⟩

theorem keeps_sending_orWarn (warning : Warning)
    (f : OutboxStore → Except OutboxError OutboxStore) :
    Keeps Sending (orWarn warning (storeUpdate env f)) := by
  refine (Keeps.outcome (keeps_sending_storeUpdate f)).bind fun result => ?_
  cases result with
  | ok _ => exact Meets.pure fun _ h => h
  | error _ => exact keeps_sending_warn warning

theorem keeps_sending_pushMessage (entry : ℕ) (phone text : String) :
    Keeps Sending (pushMessage env entry phone text) := by
  rintro w ⟨⟨hdepth, hpath⟩, hpushed⟩
  rcases pushMessage_cases env entry phone text w with
    ⟨-, -, hsame, hp, hd, ho⟩ | ⟨hopen, -, hsent, -⟩
  · refine ⟨⟨hd.trans hdepth, fun h => hp.trans (hpath (ho ▸ h))⟩, fun push hpush => ?_⟩
    exact hpushed push (hsame.pushes ▸ hpush)
  · refine ⟨⟨hsent.depth.trans hdepth, fun _ => hsent.path.trans (hpath hopen)⟩,
      fun push hpush => ?_⟩
    rw [hsent.pushes, List.mem_append, List.mem_singleton] at hpush
    rcases hpush with hpush | rfl
    · exact hpushed push hpush
    · exact hpath hopen

theorem keeps_sending_processEntry (now : ℤ) (entry : OutboxRow) :
    Keeps Sending (processEntry env now entry) := by
  rw [processEntry]
  split
  · exact keeps_sending_warn _
  · refine (Keeps.outcome (keeps_sending_pushMessage _ _ _)).bind fun result => ?_
    cases result with
    | ok handle => exact keeps_sending_orWarn _ _
    | error error =>
      exact (keeps_sending_warn _).bind fun _ => (keeps_sending_orWarn _ _).bind fun _ =>
        keeps_sending_orWarn _ _

/-! ## Runs -/

/-- Between the sendings. -/
def MapWorld.Idle (w : MapWorld) : Prop := w.Placed ∧ w.PushedIntoOutbox

theorem idle_of_sending {w : MapWorld} (h : w.Sending) : w.Idle :=
  ⟨⟨_, by simp [folderPath], h.1⟩, h.2⟩

theorem keeps_idle_storeCall {α : Type} (f : OutboxStore → Except OutboxError (α × OutboxStore)) :
    Keeps Idle (storeCall env f) := by
  rintro w ⟨⟨path, hlength, hdepth, hpath⟩, hpushed⟩
  rcases storeCall_cases env f w with ⟨a, db, -, h⟩ | ⟨e, h⟩ | ⟨db, -, h⟩
  · rw [h]
    exact ⟨⟨path, hlength, hdepth, hpath⟩, hpushed⟩
  · rw [h]
    exact ⟨⟨path, hlength, hdepth, hpath⟩, hpushed⟩
  · rw [h]
    exact ⟨⟨path, hlength, hdepth, fun h => by simp at h⟩, hpushed⟩

theorem meets_setFolder_idle (henv : env.Orderly) (folder : Folder) :
    Meets Idle (setFolder env folder) (Split
      (fun _ w => (w.At (folderPath folder) ∧ w.isOpen = true) ∧ w.PushedIntoOutbox)
      fun _ => Idle) := by
  have hpushed : Keeps PushedIntoOutbox (setFolder env folder) :=
    keeps_setFolder (fun w w' hsame h push hpush => h push (hsame.pushes ▸ hpush)) folder
  refine ((meets_setFolder henv folder).and hpushed).weaken (fun _ h => h) fun r w h => ?_
  cases r with
  | ok _ => exact h
  | error _ => exact h

theorem keeps_idle_drainOutbox (henv : env.Orderly) (now : ℤ) :
    Keeps Idle (drainOutbox env now) := by
  refine (keeps_idle_storeCall _).bind fun pending => ?_
  split_ifs with hnil
  · exact Meets.pure fun _ h => h
  · refine (meets_setFolder_idle henv .outbox).bind (fun _ => ?_) fun _ _ h => h
    have hentries : Keeps Sending (forM pending (processEntry env now)) :=
      Keeps.forM fun entry _ => keeps_sending_processEntry now entry
    exact hentries.weaken (fun w h => ⟨h.1.1, h.2⟩) fun _ _ => idle_of_sending

theorem keeps_idle_sendSms (henv : env.Orderly) (number message : String) (now : ℤ) :
    Keeps Idle (sendSms env number message now) := by
  rw [sendSms]
  refine (keeps_idle_storeCall _).bind ?_
  rintro ⟨rowid, outboxId⟩
  refine (meets_setFolder_idle henv .outbox).bind (fun _ => ?_) fun _ _ h => h
  suffices hrest : Keeps Sending _ from
    Meets.weaken hrest (fun w h => ⟨h.1.1, h.2⟩) fun _ _ => idle_of_sending
  refine (keeps_sending_storeUpdate _).bind fun _ =>
    (Keeps.outcome (keeps_sending_pushMessage _ _ _)).bind fun result => ?_
  cases result with
  | ok handle => exact (keeps_sending_storeUpdate _).bind fun _ => Meets.pure fun _ h => h
  | error error =>
    exact (keeps_sending_orWarn _ _).bind fun _ => (keeps_sending_orWarn _ _).bind fun _ =>
      Meets.throw fun _ h => h

theorem idle_step (henv : env.Orderly) {w w' : MapWorld} {event : MapEvent} (hw : w.Idle)
    (hstep : w.step env event = some w') : w'.Idle := by
  cases event with
  | connect =>
    injection hstep with hstep
    subst hstep
    exact ⟨⟨[], by simp, rfl, fun _ => rfl⟩, hw.2⟩
  | send number message now =>
    injection hstep with hstep
    exact hstep ▸ keeps_idle_sendSms henv number message now w hw
  | drain now =>
    injection hstep with hstep
    exact hstep ▸ keeps_idle_drainOutbox henv now w hw
  | browse folder =>
    injection hstep with hstep
    have hmeets := meets_setFolder_idle henv folder w hw
    rw [← hstep]
    rcases hgo : go (setFolder env folder) w with ⟨e | _, w'⟩
    · rw [hgo] at hmeets
      exact hmeets
    · rw [hgo] at hmeets
      exact ⟨⟨_, by simp [folderPath], hmeets.1.1⟩, hmeets.2⟩
  | openMessageFolders =>
    injection hstep with hstep
    exact hstep ▸ ⟨keeps_placed_openMessageFolders henv w hw.1, keeps_openMessageFolders
      (fun w w' hsame h push hpush => h push (hsame.pushes ▸ hpush)) w hw.2⟩
  | elsewhere store =>
    injection hstep with hstep
    subst hstep
    obtain ⟨⟨path, hlength, hdepth, hpath⟩, hpushed⟩ := hw
    exact ⟨⟨path, hlength, hdepth, hpath⟩, hpushed⟩

end

/-- Where nothing the phone acted on goes unanswered on an open stream, every text of a run is
pushed into the outbox folder, and a walk to a folder that goes through ends in it. -/
theorem pushed_into_outbox (env : MapEnv) (foreignKeys : Bool) (events : List MapEvent)
    (henv : env.Orderly) {w : MapWorld}
    (hrun : (mapSession env).run (.start foreignKeys) events = some w) :
    (∀ push ∈ w.pushes, push.path = ["telecom", "msg", "outbox"]) ∧
      ∀ folder w', go (setFolder env folder) w = (.ok ⟨⟩, w') →
        w'.path = ["telecom", "msg", folder.asStr] := by
  have hstart : (MapWorld.start foreignKeys).Idle :=
    ⟨⟨[], by simp, rfl, fun _ => rfl⟩, by simp [MapWorld.PushedIntoOutbox, MapWorld.start]⟩
  have hidle : w.Idle :=
    (mapSession env).run_invariant (fun _ _ _ => idle_step henv) hstart hrun
  refine ⟨hidle.2, fun folder w' hgo => ?_⟩
  have hmeets := meets_setFolder henv folder w hidle.1
  rw [hgo] at hmeets
  exact hmeets.1.path hmeets.2

theorem pushed_into_outbox_browsing : ∃ w,
    (mapSession forgetfulStore).run (.start true)
        [.connect, .browse .inbox, .openMessageFolders, .send "15550100" "hello" 0] = some w ∧
      w.pushes.length = 1 ∧ ∀ push ∈ w.pushes, push.path = ["telecom", "msg", "outbox"] := by
  refine ⟨_, rfl, ?_, (pushed_into_outbox forgetfulStore true
    [.connect, .browse .inbox, .openMessageFolders, .send "15550100" "hello" 0]
    (fun _ _ h => by cases h) rfl).1⟩
  decide +kernel

/-! ## The order of a drain -/

/-- The texts of entries that go to the phone, in the order they stand in. -/
def outgoing (entries : List OutboxRow) : List (ℕ × String × String) :=
  entries.filterMap fun entry =>
    match parsePayload entry.payload with
    | none => none
    | some (number, message) =>
      if hasLineBreak number then none else some (entry.id, number, message)

def MapWorld.texts (w : MapWorld) : List (ℕ × String × String) :=
  w.pushes.map fun push => (push.entry, push.phone, push.text)

/-- After `base` the phone was sent the first of the texts `all`, and while the stream lasts all
but `rest`. -/
structure MapWorld.Progress (base all : List (ℕ × String × String)) (rest : List OutboxRow)
    (w : MapWorld) : Prop where
  sent : ∃ sent, w.texts = base ++ sent ∧ sent <+: all
  left : w.isOpen = true → w.texts ++ outgoing rest = base ++ all

section

variable {env : MapEnv} {base all : List (ℕ × String × String)} {rest : List OutboxRow}
  {w w' : MapWorld}

open MapWorld

theorem MapWorld.Progress.quiet (h : w.Progress base all rest) (hpushes : w'.pushes = w.pushes)
    (hopen : w'.isOpen = true → w.isOpen = true) : w'.Progress base all rest := by
  have htexts : w'.texts = w.texts := by rw [texts, hpushes, texts]
  exact ⟨htexts ▸ h.sent, fun ho => htexts ▸ h.left (hopen ho)⟩

end

end AnalogConnect
