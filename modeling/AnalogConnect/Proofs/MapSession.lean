import AnalogConnect.Proofs.Outbox

/-!
# Every push is accounted for

An entry is pushed again only where the call that would have settled it failed, which the worker
warns of, or the process died before the next push (`Accounted`). A push puts its entry one over
(`Short`); what records the push makes up for it, whether it goes through, fails or is the last
thing the process does.
-/

namespace AnalogConnect

open Attempt

/-- The warnings that a call which would have settled the entry failed. -/
def Warning.isLapse (id : ℕ) : Warning → Bool
  | .storeUpdateFailed entryId | .resolveFailed entryId => entryId = id
  | _ => false

/-- A phone number the client does not send. -/
def hasLineBreak (phone : String) : Bool := phone.toList.any fun c => c = '\r' ∨ c = '\n'

namespace MapWorld

variable {w w' : MapWorld} {id k : ℕ} {ids : List ℕ}

def pushCount (w : MapWorld) (id : ℕ) : ℕ := w.pushes.countP fun push => push.entry = id

/-- How often settling the entry failed, or the process died with it pushed last. -/
def lapses (w : MapWorld) (id : ℕ) : ℕ :=
  w.warnings.countP (Warning.isLapse id) + w.deaths.count (some id)

/-- No entry was pushed more than once but for its lapses, and one still to be sent not even
once. -/
structure Accounted (w : MapWorld) : Prop where
  le : ∀ k, w.pushCount k ≤ w.lapses k + 1
  fresh : ∀ k, w.db.Fresh k → w.pushCount k ≤ w.lapses k

/-- An entry has just been pushed, if at all, and may still be queued. -/
structure Short (id : ℕ) (w : MapWorld) : Prop where
  le : ∀ k, w.pushCount k ≤ w.lapses k + 1
  fresh : ∀ k, k ≠ id → w.db.Fresh k → w.pushCount k ≤ w.lapses k
  last : w.pushCount id ≤ w.lapses id ∨ w.lastPushed = some id
  isSome : (w.db.statusOf id).isSome

/-- Entries of the outbox that owe nothing. -/
def Clear (ids : List ℕ) (w : MapWorld) : Prop :=
  ∀ k ∈ ids, w.pushCount k ≤ w.lapses k ∧ (w.db.statusOf k).isSome

/-- Only the death of the process adds to the books, and a stream that ended stays so. -/
structure SameBooks (w w' : MapWorld) : Prop where
  db : w'.db = w.db
  pushes : w'.pushes = w.pushes
  warnings : w'.warnings = w.warnings
  deaths : w.deaths.Sublist w'.deaths
  isOpen : w'.isOpen = true → w.isOpen = true

/-- The phone was sent a push, and the entries are as before. -/
structure PushSent (push : Push) (w w' : MapWorld) : Prop where
  db : w'.db = w.db
  pushes : w'.pushes = w.pushes ++ [push]
  warnings : w'.warnings = w.warnings
  path : w'.path = w.path
  depth : w'.depth = w.depth

theorem SameBooks.lapses (h : SameBooks w w') (k : ℕ) : w.lapses k ≤ w'.lapses k := by
  rw [MapWorld.lapses, MapWorld.lapses, h.warnings]
  exact Nat.add_le_add_left (h.deaths.count_le _) _

theorem SameBooks.trans {w'' : MapWorld} (h : SameBooks w w') (h' : SameBooks w' w'') :
    SameBooks w w'' :=
  ⟨h'.db.trans h.db, h'.pushes.trans h.pushes, h'.warnings.trans h.warnings,
    h.deaths.trans h'.deaths, fun hopen => h.isOpen (h'.isOpen hopen)⟩

theorem pushCount_congr (h : w'.pushes = w.pushes) (k : ℕ) : w'.pushCount k = w.pushCount k := by
  rw [MapWorld.pushCount, h, MapWorld.pushCount]

theorem PushSent.pushCount {push : Push} (h : PushSent push w w') (k : ℕ) :
    w'.pushCount k = w.pushCount k + if push.entry = k then 1 else 0 := by
  rw [MapWorld.pushCount, MapWorld.pushCount, h.pushes, List.countP_append, List.countP_singleton]
  simp

theorem PushSent.lastPushed {push : Push} (h : PushSent push w w') :
    w'.lastPushed = some push.entry := by
  rw [MapWorld.lastPushed, h.pushes, List.getLast?_concat]
  rfl

theorem PushSent.lapses {push : Push} (h : PushSent push w w') (hdeaths : w'.deaths = w.deaths)
    (k : ℕ) : w'.lapses k = w.lapses k := by
  rw [MapWorld.lapses, MapWorld.lapses, h.warnings, hdeaths]

theorem PushSent.lapses_died {push : Push} (h : PushSent push w w')
    (hdeaths : w'.deaths = w.deaths ++ [some push.entry]) (k : ℕ) :
    w'.lapses k = w.lapses k + if push.entry = k then 1 else 0 := by
  rw [MapWorld.lapses, MapWorld.lapses, h.warnings, hdeaths, List.count_append,
    List.count_singleton]
  simp only [beq_iff_eq, Option.some.injEq]
  exact (Nat.add_assoc _ _ _).symm

theorem lapses_warned {warning : Warning} (hwarnings : w'.warnings = w.warnings ++ [warning])
    (hdeaths : w'.deaths = w.deaths) (k : ℕ) :
    w'.lapses k = w.lapses k + if warning.isLapse k then 1 else 0 := by
  rw [MapWorld.lapses, MapWorld.lapses, hwarnings, hdeaths, List.countP_append,
    List.countP_singleton]
  omega

theorem le_lapses_of_warned {warning : Warning}
    (hwarnings : w'.warnings = w.warnings ++ [warning]) (hdeaths : w'.deaths = w.deaths) (k : ℕ) :
    w.lapses k ≤ w'.lapses k := by
  rw [lapses_warned hwarnings hdeaths]
  exact Nat.le_add_right _ _

theorem lt_lapses_of_warned {warning : Warning} (hlapse : warning.isLapse k)
    (hwarnings : w'.warnings = w.warnings ++ [warning]) (hdeaths : w'.deaths = w.deaths) :
    w.lapses k < w'.lapses k := by
  rw [lapses_warned hwarnings hdeaths, if_pos hlapse]
  exact Nat.lt_succ_self _

theorem le_lapses_of_died (hwarnings : w'.warnings = w.warnings) {last : Option ℕ}
    (hdeaths : w'.deaths = w.deaths ++ [last]) (k : ℕ) : w.lapses k ≤ w'.lapses k := by
  rw [MapWorld.lapses, MapWorld.lapses, hwarnings, hdeaths, List.count_append]
  omega

theorem lt_lapses_of_died (hwarnings : w'.warnings = w.warnings)
    (hdeaths : w'.deaths = w.deaths ++ [some k]) : w.lapses k < w'.lapses k := by
  rw [MapWorld.lapses, MapWorld.lapses, hwarnings, hdeaths, List.count_append,
    List.count_singleton_self]
  omega

theorem SameBooks.pushCount (h : SameBooks w w') (k : ℕ) : w'.pushCount k = w.pushCount k :=
  pushCount_congr h.pushes k

theorem Clear.mono (hclear : w.Clear ids) (hpush : ∀ k, w'.pushCount k = w.pushCount k)
    (hlapses : ∀ k, w.lapses k ≤ w'.lapses k)
    (hsome : ∀ k, (w.db.statusOf k).isSome → (w'.db.statusOf k).isSome) : w'.Clear ids := by
  intro k hk
  rw [hpush]
  exact ⟨(hclear k hk).1.trans (hlapses k), hsome k (hclear k hk).2⟩

theorem Accounted.mono (hacc : w.Accounted) (hpush : ∀ k, w'.pushCount k = w.pushCount k)
    (hlapses : ∀ k, w.lapses k ≤ w'.lapses k)
    (hfresh : ∀ k, w'.db.Fresh k → w.db.Fresh k) : w'.Accounted where
  le k := by
    rw [hpush]
    exact (hacc.le k).trans (Nat.add_le_add_right (hlapses k) 1)
  fresh k hk := by
    rw [hpush]
    exact (hacc.fresh k (hfresh k hk)).trans (hlapses k)

theorem Accounted.same (hacc : w.Accounted) (h : SameBooks w w') : w'.Accounted :=
  hacc.mono h.pushCount h.lapses fun _ hk => h.db ▸ hk

theorem Clear.same (hclear : w.Clear ids) (h : SameBooks w w') : w'.Clear ids :=
  hclear.mono h.pushCount h.lapses fun _ hk => h.db ▸ hk

theorem Short.of_accounted (hacc : w.Accounted) (hid : w.pushCount id ≤ w.lapses id)
    (h : (w.db.statusOf id).isSome) : w.Short id :=
  ⟨hacc.le, fun k _ => hacc.fresh k, .inl hid, h⟩

theorem Short.mono (h : w.Short id) (hdb : w'.db = w.db) (hpushes : w'.pushes = w.pushes)
    (hlapses : ∀ k, w.lapses k ≤ w'.lapses k) : w'.Short id where
  le k := by
    rw [pushCount_congr hpushes]
    exact (h.le k).trans (Nat.add_le_add_right (hlapses k) 1)
  fresh k hne hfresh := by
    rw [pushCount_congr hpushes]
    exact (h.fresh k hne (hdb ▸ hfresh)).trans (hlapses k)
  last := by
    rw [pushCount_congr hpushes, lastPushed, hpushes]
    exact h.last.imp_left fun hle => hle.trans (hlapses id)
  isSome := hdb ▸ h.isSome

/-- A push is made up for by the end of the process too. -/
theorem Accounted.died {push : Push} (hacc : w.Accounted) (h : PushSent push w w')
    (hdeaths : w'.deaths = w.deaths ++ [some push.entry]) : w'.Accounted where
  le k := by
    have hk := hacc.le k
    rw [h.pushCount, h.lapses_died hdeaths]
    omega
  fresh k hfresh := by
    have hk := hacc.fresh k (h.db ▸ hfresh)
    rw [h.pushCount, h.lapses_died hdeaths]
    omega

theorem Accounted.short {push : Push} (hacc : w.Accounted) (h : PushSent push w w')
    (hid : w.pushCount push.entry ≤ w.lapses push.entry)
    (hsome : (w.db.statusOf push.entry).isSome) (hdeaths : w'.deaths = w.deaths) :
    w'.Short push.entry where
  le k := by
    rw [h.pushCount, h.lapses hdeaths]
    split_ifs with heq
    · exact heq ▸ Nat.add_le_add_right hid 1
    · exact hacc.le k
  fresh k hne hfresh := by
    rw [h.db] at hfresh
    rw [h.pushCount, h.lapses hdeaths, if_neg (Ne.symm hne)]
    exact hacc.fresh k hfresh
  last := .inr h.lastPushed
  isSome := by rwa [h.db]

theorem Clear.sent {push : Push} (hclear : w.Clear ids) (h : PushSent push w w')
    (hentry : push.entry ∉ ids) (hdeaths : w'.deaths = w.deaths) : w'.Clear ids := by
  intro k hk
  have hne : push.entry ≠ k := fun heq => hentry (heq ▸ hk)
  rw [h.pushCount, if_neg hne, h.db, h.lapses hdeaths]
  exact hclear k hk

/-- An entry that is settled, or has a lapse for its push, is accounted for. -/
theorem Short.accounted (hshort : w.Short id) (hpush : ∀ k, w'.pushCount k = w.pushCount k)
    (hfresh : ∀ k, w'.db.Fresh k → w.db.Fresh k) (hlapses : ∀ k, w.lapses k ≤ w'.lapses k)
    (hid : w'.db.Fresh id → w.pushCount id ≤ w'.lapses id) : w'.Accounted where
  le k := by
    rw [hpush]
    exact (hshort.le k).trans (Nat.add_le_add_right (hlapses k) 1)
  fresh k hk := by
    rw [hpush]
    by_cases hne : k = id
    · subst hne
      exact hid hk
    · exact (hshort.fresh k hne (hfresh k hk)).trans (hlapses k)

end MapWorld

section

variable {env : MapEnv} {id : ℕ} {ids : List ℕ} {α : Type} {P : MapWorld → Prop}

open MapWorld

/-! ## Requests -/

theorem sameBooks_request {act : MapWorld → MapWorld} (hact : ∀ w, SameBooks w (act w))
    (w : MapWorld) : SameBooks w (go (request env act fun _ w => w) w).2 := by
  have hcalls : SameBooks w { w with calls := w.calls + 1 } := ⟨rfl, rfl, rfl, .refl _, id⟩
  have hclosed : ∀ w : MapWorld, SameBooks w { w with isOpen := false } := fun _ =>
    ⟨rfl, rfl, rfl, .refl _, fun h => nomatch h⟩
  have hdied : ∀ w' : MapWorld, SameBooks w w' → SameBooks w w'.die := fun _ h =>
    ⟨h.db, h.pushes, h.warnings, h.deaths.trans (List.sublist_append_left _ _),
      fun h => nomatch h⟩
  have hacted : ∀ acted : Bool, SameBooks w
      (if acted then act { w with calls := w.calls + 1 } else { w with calls := w.calls + 1 }) := by
    intro acted
    split_ifs
    · exact hcalls.trans (hact _)
    · exact hcalls
  simp only [request, go_of]
  split_ifs with hopen
  · exact hcalls
  · cases env.reply w.calls with
    | ok name => exact hcalls.trans (hact _)
    | refused opcode => exact hcalls
    | garbled text acted => exact hacted acted
    | closed error acted => exact (hacted acted).trans (hclosed _)
    | died acted => exact hdied _ (hacted acted)

theorem keeps_request {act : MapWorld → MapWorld} (hact : ∀ w, SameBooks w (act w))
    (hP : ∀ w w', SameBooks w w' → P w → P w') : Keeps P (request env act fun _ w => w) :=
  fun w hw => hP w _ (sameBooks_request hact w) hw

theorem keeps_modify {f : MapWorld → MapWorld} (hf : ∀ w, SameBooks w (f w))
    (hP : ∀ w w', SameBooks w w' → P w → P w') : Keeps P (modify f : MapM PUnit) :=
  fun w hw => hP w _ (hf w) hw

/-- What holds of the books is not changed by walking the phone's directories. -/
theorem keeps_setpath (hP : ∀ w w', SameBooks w w' → P w → P w') (segment : String) :
    Keeps P (setpath env segment) := by
  have henter : ∀ w, SameBooks w (enter segment w) := fun _ =>
    ⟨rfl, rfl, rfl, .refl _, id⟩
  have hdepth : ∀ w : MapWorld, SameBooks w { w with depth := min (w.depth + 1) 255 } := fun _ =>
    ⟨rfl, rfl, rfl, .refl _, id⟩
  exact (keeps_request henter hP).bind fun _ => keeps_modify hdepth hP

theorem keeps_setpathUp (hP : ∀ w w', SameBooks w w' → P w → P w') :
    Keeps P (setpathUp env) := by
  have hleave : ∀ w, SameBooks w (leave w) := fun _ => ⟨rfl, rfl, rfl, .refl _, id⟩
  have hdepth : ∀ w : MapWorld, SameBooks w { w with depth := w.depth - 1 } := fun _ =>
    ⟨rfl, rfl, rfl, .refl _, id⟩
  exact (keeps_request hleave hP).bind fun _ => keeps_modify hdepth hP

theorem keeps_resetToRoot (hP : ∀ w w', SameBooks w w' → P w → P w') :
    Keeps P (resetToRoot env) := by
  have hget : Keeps P (get : MapM MapWorld) := fun _ hw => hw
  exact hget.bind fun w => Keeps.forM fun _ _ => keeps_setpathUp hP

theorem keeps_setFolder (hP : ∀ w w', SameBooks w w' → P w → P w') (folder : Folder) :
    Keeps P (setFolder env folder) :=
  (keeps_resetToRoot hP).bind fun _ => Keeps.forM fun segment _ => keeps_setpath hP segment

theorem keeps_openMessageFolders (hP : ∀ w w', SameBooks w w' → P w → P w') :
    Keeps P (openMessageFolders env) :=
  (keeps_resetToRoot hP).bind fun _ =>
    (keeps_setpath hP "telecom").bind fun _ => keeps_setpath hP "msg"

/-! ## A push -/

/-- A push that is made leaves a mark, whatever becomes of it; one that is not leaves none. -/
theorem pushMessage_cases (env : MapEnv) (entry : ℕ) (phone text : String) (w : MapWorld) :
    let r := go (pushMessage env entry phone text) w
    ((w.isOpen = false ∨ hasLineBreak phone) ∧ (∃ e, r.1 = .error (.map e)) ∧ SameBooks w r.2 ∧
        r.2.path = w.path ∧ r.2.depth = w.depth ∧ r.2.isOpen = w.isOpen) ∨
      (w.isOpen = true ∧ hasLineBreak phone = false ∧
        PushSent ⟨entry, phone, text, w.path, env.reply w.calls⟩ w r.2 ∧
        (∀ handle, r.1 = .ok handle → env.reply w.calls = .ok (some handle)) ∧
        ((r.1 = .error .died ∧ r.2.deaths = w.deaths ++ [some entry]) ∨
          ((∀ e, r.1 = .error e → ∃ e', e = .map e') ∧ r.2.deaths = w.deaths))) := by
  have hcalls : SameBooks w { w with calls := w.calls + 1 } := ⟨rfl, rfl, rfl, .refl _, id⟩
  rw [pushMessage]
  by_cases hbreak : hasLineBreak phone
  · left
    rw [if_pos (by simpa [hasLineBreak] using hbreak)]
    exact ⟨.inr hbreak, ⟨_, rfl⟩, ⟨rfl, rfl, rfl, .refl _, id⟩, rfl, rfl, rfl⟩
  · rw [if_neg (by simpa [hasLineBreak] using hbreak)]
    simp only [go_bind, request, go_of]
    by_cases hopen : w.isOpen = false
    · left
      rw [if_pos hopen]
      exact ⟨.inl hopen, ⟨_, rfl⟩, hcalls, rfl, rfl, rfl⟩
    · right
      rw [if_neg hopen]
      refine ⟨by simpa using hopen, by simpa using hbreak, ?_⟩
      cases env.reply w.calls with
      | ok name =>
        cases name with
        | none => exact ⟨⟨rfl, rfl, rfl, rfl, rfl⟩, by simp, .inr ⟨by simp, rfl⟩⟩
        | some handle => exact ⟨⟨rfl, rfl, rfl, rfl, rfl⟩, by simp, .inr ⟨by simp, rfl⟩⟩
      | refused opcode => exact ⟨⟨rfl, rfl, rfl, rfl, rfl⟩, by simp, .inr ⟨by simp, rfl⟩⟩
      | garbled text acted =>
        cases acted <;> exact ⟨⟨rfl, rfl, rfl, rfl, rfl⟩, by simp, .inr ⟨by simp, rfl⟩⟩
      | closed error acted =>
        cases acted <;> exact ⟨⟨rfl, rfl, rfl, rfl, rfl⟩, by simp, .inr ⟨by simp, rfl⟩⟩
      | died acted =>
        have hlast : (w.pushes ++ [(⟨entry, phone, text, w.path, .died acted⟩ : Push)]).getLast?.map
            Push.entry = some entry := by
          rw [List.getLast?_concat]
          rfl
        cases acted <;> exact ⟨⟨rfl, rfl, rfl, rfl, rfl⟩, by simp,
          .inl ⟨rfl, congrArg (fun last => w.deaths ++ [last]) hlast⟩⟩

/-! ## A call of the store -/

/-- A call of the store goes through, fails without a trace, or is the last thing done. -/
theorem storeCall_cases (env : MapEnv) (f : OutboxStore → Except OutboxError (α × OutboxStore))
    (w : MapWorld) :
    let r := go (storeCall env f) w
    (∃ a db, f w.db = .ok (a, db) ∧ r = (.ok a, { w with calls := w.calls + 1, db })) ∨
      (∃ e, r = (.error (.store e), { w with calls := w.calls + 1 })) ∨
        ∃ db, (db = w.db ∨ ∃ a, f w.db = .ok (a, db)) ∧
          r = (.error .died, { w with calls := w.calls + 1, db }.die) := by
  simp only [storeCall, go_of]
  cases env.storeFate w.calls with
  | failed => exact .inr (.inl ⟨_, rfl⟩)
  | done =>
    cases hf : f w.db with
    | error e => exact .inr (.inl ⟨e, rfl⟩)
    | ok result => exact .inl ⟨result.1, result.2, rfl, rfl⟩
  | died written =>
    refine .inr (.inr ⟨_, ?_, rfl⟩)
    cases hf : f w.db with
    | error e => exact .inl (by simp [Except.toOption])
    | ok result =>
      cases written with
      | false => exact .inl rfl
      | true => exact .inr ⟨result.1, by simp [Except.toOption]⟩

theorem storeUpdate_cases (env : MapEnv) (f : OutboxStore → Except OutboxError OutboxStore)
    (w : MapWorld) :
    let r := go (storeUpdate env f) w
    (∃ db, f w.db = .ok db ∧ r = (.ok ⟨⟩, { w with calls := w.calls + 1, db })) ∨
      (∃ e, r = (.error (.store e), { w with calls := w.calls + 1 })) ∨
        ∃ db, (db = w.db ∨ f w.db = .ok db) ∧
          r = (.error .died, { w with calls := w.calls + 1, db }.die) := by
  have hof : ∀ a db, ((f w.db).map fun db' => (PUnit.unit, db')) = .ok (a, db) →
      f w.db = .ok db := by
    intro a db h
    cases hf : f w.db with
    | error e => simp [hf, Except.map] at h
    | ok db' => simpa [hf, Except.map] using h
  rcases storeCall_cases env (fun db => (f db).map fun db' => (PUnit.unit, db')) w with
    ⟨a, db, hf, h⟩ | h | ⟨db, hdb, h⟩
  · exact .inl ⟨db, hof a db hf, h⟩
  · exact .inr (.inl h)
  · exact .inr (.inr ⟨db, hdb.imp_right fun ⟨a, hf⟩ => hof a db hf, h⟩)

/-- `orWarn` ends only with the process; a failure costs its warning. -/
theorem orWarn_cases (env : MapEnv) (warning : Warning)
    (f : OutboxStore → Except OutboxError OutboxStore) (w : MapWorld) :
    let r := go (orWarn warning (storeUpdate env f)) w
    (∃ db, f w.db = .ok db ∧ r = (.ok ⟨⟩, { w with calls := w.calls + 1, db })) ∨
      r = (.ok ⟨⟩, { w with calls := w.calls + 1, warnings := w.warnings ++ [warning] }) ∨
        ∃ db, (db = w.db ∨ f w.db = .ok db) ∧
          r = (.error .died, { w with calls := w.calls + 1, db }.die) := by
  simp only [orWarn, go_bind, Attempt.outcome, go_of]
  rcases storeUpdate_cases env f w with ⟨db, hf, h⟩ | ⟨e, h⟩ | ⟨db, hdb, h⟩
  · rw [h]
    exact .inl ⟨db, hf, rfl⟩
  · rw [h]
    exact .inr (.inl rfl)
  · rw [h]
    exact .inr (.inr ⟨db, hdb, rfl⟩)

/-! ## Settling a push -/

/-- What a piece of the sending leaves: the books accounted for, and `ids` still clear unless the
process ended. -/
def Sound (ids : List ℕ) (r : Except SendError α) (w : MapWorld) : Prop :=
  w.Accounted ∧ (r = .error .died ∨ w.Clear ids)

theorem Sound.of_died {w w' : MapWorld} {r : Except SendError α} (hr : r = .error .died)
    (hshort : w.Short id) (hpushes : w'.pushes = w.pushes) (hwarnings : w'.warnings = w.warnings)
    (hdeaths : w'.deaths = w.deaths ++ [w.lastPushed])
    (hfresh : ∀ k, w'.db.Fresh k → w.db.Fresh k) : Sound ids r w' := by
  have hlapses := le_lapses_of_died hwarnings hdeaths
  refine ⟨hshort.accounted (pushCount_congr hpushes) hfresh hlapses fun _ => ?_, .inl hr⟩
  rcases hshort.last with hle | hlast
  · exact hle.trans (hlapses id)
  · exact (hshort.le id).trans (lt_lapses_of_died hwarnings (hlast ▸ hdeaths))

theorem fresh_of_steady {f : OutboxStore → Except OutboxError OutboxStore}
    (hf : OutboxStore.Steady f) {s s' : OutboxStore} (h : s' = s ∨ f s = .ok s') (k : ℕ)
    (hk : s'.Fresh k) : s.Fresh k := by
  rcases h with rfl | h
  · exact hk
  · exact (hf s s' h).2 k hk

/-- The call that settles a pushed entry makes the books accounted for in every outcome: it
settles the entry, it is warned of, or the process ends. -/
theorem meets_settle {f : OutboxStore → Except OutboxError OutboxStore} {warning : Warning}
    (hf : OutboxStore.Settles f id) (hlapse : warning.isLapse id) :
    Meets (fun w => w.Short id ∧ w.Clear ids) (orWarn warning (storeUpdate env f)) (Sound ids) := by
  rintro w ⟨hshort, hclear⟩
  rcases orWarn_cases env warning f w with ⟨db, hdb, h⟩ | h | ⟨db, hdb, h⟩
  · rw [h]
    obtain ⟨hsome, hfresh⟩ := hf.steady w.db db hdb
    exact ⟨hshort.accounted (fun _ => rfl) hfresh (fun _ => le_rfl)
        fun h => absurd h (hf.settled w.db db hdb hshort.isSome),
      .inr (hclear.mono (fun _ => rfl) (fun _ => le_rfl) hsome)⟩
  · rw [h]
    exact ⟨hshort.accounted (fun _ => rfl) (fun _ h => h) (le_lapses_of_warned rfl rfl)
        fun _ => (hshort.le id).trans (lt_lapses_of_warned hlapse rfl rfl),
      .inr (hclear.mono (fun _ => rfl) (le_lapses_of_warned rfl rfl) fun _ h => h)⟩
  · rw [h]
    exact .of_died rfl hshort rfl rfl rfl (fresh_of_steady hf.steady hdb)

theorem meets_warn (warning : Warning) :
    Meets (fun w => w.Accounted ∧ w.Clear ids) (warn warning) (Sound ids) := by
  rintro w ⟨hacc, hclear⟩
  exact ⟨hacc.mono (fun _ => rfl) (le_lapses_of_warned rfl rfl) fun _ h => h,
    .inr (hclear.mono (fun _ => rfl) (le_lapses_of_warned rfl rfl) fun _ h => h)⟩

theorem meets_steady (ids : List ℕ) {f : OutboxStore → Except OutboxError OutboxStore}
    {warning : Warning} (hf : OutboxStore.Steady f) :
    Meets (fun w => w.Accounted ∧ w.Clear ids) (orWarn warning (storeUpdate env f))
      (Sound ids) := by
  rintro w ⟨hacc, hclear⟩
  rcases orWarn_cases env warning f w with ⟨db, hdb, h⟩ | h | ⟨db, hdb, h⟩
  · rw [h]
    obtain ⟨hsome, hfresh⟩ := hf w.db db hdb
    exact ⟨hacc.mono (fun _ => rfl) (fun _ => le_rfl) hfresh,
      .inr (hclear.mono (fun _ => rfl) (fun _ => le_rfl) hsome)⟩
  · rw [h]
    exact meets_warn warning { w with calls := w.calls + 1 } ⟨⟨hacc.le, hacc.fresh⟩, hclear⟩
  · rw [h]
    exact ⟨hacc.mono (fun _ => rfl) (le_lapses_of_died rfl rfl) (fresh_of_steady hf hdb), .inl rfl⟩

/-- An update whose failure ends the sending. -/
theorem meets_storeUpdate (env : MapEnv) (ids : List ℕ)
    {f : OutboxStore → Except OutboxError OutboxStore} (hf : OutboxStore.Steady f) :
    Meets (fun w => w.Accounted ∧ w.Clear ids) (storeUpdate env f)
      fun r w => w.Accounted ∧ (r = .ok ⟨⟩ → w.Clear ids) := by
  rintro w ⟨hacc, hclear⟩
  rcases storeUpdate_cases env f w with ⟨db, hdb, h⟩ | ⟨e, h⟩ | ⟨db, hdb, h⟩
  · rw [h]
    obtain ⟨hsome, hfresh⟩ := hf w.db db hdb
    exact ⟨hacc.mono (fun _ => rfl) (fun _ => le_rfl) hfresh,
      fun _ => hclear.mono (fun _ => rfl) (fun _ => le_rfl) hsome⟩
  · rw [h]
    exact ⟨⟨hacc.le, hacc.fresh⟩, fun h => nomatch h⟩
  · rw [h]
    exact ⟨hacc.mono (fun _ => rfl) (le_lapses_of_died rfl rfl) (fresh_of_steady hf hdb),
      fun h => nomatch h⟩

/-! ## An entry -/

/-- A push was tried: the process ended, or what records the push comes next. -/
def Owed (id : ℕ) (ids : List ℕ) (r : Except SendError α) (w : MapWorld) : Prop :=
  (r = .error .died ∧ w.Accounted) ∨
    ((∀ e, r = .error e → ∃ e', e = .map e') ∧ w.Short id ∧ w.Clear ids)

theorem meets_pushMessage (hid : id ∉ ids) (phone text : String) :
    Meets (fun w => w.Accounted ∧ w.Clear (id :: ids)) (pushMessage env id phone text)
      (Owed id ids) := by
  rintro w ⟨hacc, hclear⟩
  obtain ⟨hpush, hsome⟩ := hclear id (by simp)
  have hclear : w.Clear ids := fun k hk => hclear k (List.mem_cons_of_mem _ hk)
  rcases pushMessage_cases env id phone text w with ⟨-, ⟨e, he⟩, hsame, -⟩ |
    ⟨-, -, hsent, -, ⟨hr, hdeaths⟩ | ⟨he, hdeaths⟩⟩
  · exact .inr ⟨fun e' h => ⟨e, by rw [he] at h; injection h with h; exact h.symm⟩,
      .of_accounted (hacc.same hsame) (by rw [hsame.pushCount]; exact hpush.trans (hsame.lapses id))
        (by rwa [hsame.db]), hclear.same hsame⟩
  · exact .inl ⟨hr, hacc.died hsent hdeaths⟩
  · exact .inr ⟨he, hacc.short hsent hpush hsome hdeaths, Clear.sent hclear hsent hid hdeaths⟩

theorem meets_recordSendOk (placeholder handle : String) (now : ℤ) :
    Meets (fun w => w.Short id ∧ w.Clear ids) (recordSendOk env id placeholder handle now)
      (Sound ids) :=
  meets_settle (OutboxStore.settles_completeSend id placeholder handle now)
    (by simp [Warning.isLapse])

theorem meets_recordSendErr (placeholder : String) (error : MapError) (now : ℤ) :
    Meets (fun w => w.Short id ∧ w.Clear ids) (recordSendErr env id placeholder error now)
      (Sound ids) := by
  have hfailed : Meets (fun w => w.Short id ∧ w.Clear ids) (warn (.pushFailed id))
      fun r w => r = .ok ⟨⟩ ∧ w.Short id ∧ w.Clear ids := by
    rintro w ⟨hshort, hclear⟩
    exact ⟨rfl, hshort.mono rfl rfl (le_lapses_of_warned rfl rfl),
      hclear.mono (fun _ => rfl) (le_lapses_of_warned rfl rfl) fun _ h => h⟩
  have hresolved : Meets (fun w => w.Short id ∧ w.Clear ids) (orWarn (.resolveFailed id)
      (storeUpdate env fun db =>
        db.resolve id (classifyPushError error).1 now (some error.text))) (Sound ids) :=
    meets_settle (OutboxStore.settles_resolve id _ now (some error.text))
      (by simp [Warning.isLapse])
  refine hfailed.bind (fun _ => ?_) fun e w h => nomatch h.1
  refine (hresolved.weaken (fun w h => h.2) fun _ _ h => h).bind (fun _ => ?_) ?_
  · exact (meets_steady ids (OutboxStore.steady_updateOutgoingStatus placeholder _)).weaken
      (fun w h => ⟨h.1, h.2.resolve_left (by simp)⟩) fun _ _ h => h
  · rintro e w ⟨hacc, he⟩
    exact ⟨hacc, he.imp_left fun h => by rw [h]⟩

theorem meets_outcome_pushMessage (hid : id ∉ ids) (phone text : String) :
    Meets (fun w => w.Accounted ∧ w.Clear (id :: ids))
      (Attempt.outcome SendError.map? (pushMessage env id phone text))
      fun r w => (r = .error .died ∧ w.Accounted) ∨
        ((∃ result, r = .ok result) ∧ w.Short id ∧ w.Clear ids) := by
  refine (meets_pushMessage hid phone text).outcome (fun a w h => ?_)
    (fun e e' w he h => ?_) fun e w he h => ?_
  · exact .inr ⟨⟨_, rfl⟩, (h.resolve_left (by simp)).2⟩
  · rcases h with ⟨h, -⟩ | ⟨-, h⟩
    · injection h with h
      rw [h] at he
      cases he
    · exact .inr ⟨⟨_, rfl⟩, h⟩
  · rcases h with ⟨h, hacc⟩ | ⟨hmap, -⟩
    · exact .inl ⟨by injection h with h; rw [h], hacc⟩
    · obtain ⟨e', rfl⟩ := hmap e rfl
      cases he

theorem meets_processEntry {entry : OutboxRow} (hid : entry.id ∉ ids) (now : ℤ) :
    Meets (fun w => w.Accounted ∧ w.Clear (entry.id :: ids)) (processEntry env now entry)
      (Sound ids) := by
  rw [processEntry]
  split
  · exact (meets_warn _).weaken
      (fun w h => ⟨h.1, fun k hk => h.2 k (List.mem_cons_of_mem _ hk)⟩) fun _ _ h => h
  · refine (meets_outcome_pushMessage hid _ _).bind (fun result => ?_) ?_
    · cases result with
      | ok handle =>
        exact (meets_recordSendOk _ handle now).weaken
          (fun w h => (h.resolve_left (by simp)).2) fun _ _ h => h
      | error error =>
        exact (meets_recordSendErr _ error now).weaken
          (fun w h => (h.resolve_left (by simp)).2) fun _ _ h => h
    · rintro e w (⟨h, hacc⟩ | ⟨⟨result, h⟩, -⟩)
      · exact ⟨hacc, .inl (by injection h with h; rw [h])⟩
      · cases h

/-- The queued entries owe nothing: each is worked off once. -/
theorem meets_entries (now : ℤ) (entries : List OutboxRow) :
    Meets (fun w => (entries.map (·.id)).Nodup ∧ w.Accounted ∧ w.Clear (entries.map (·.id)))
      (forM entries (processEntry env now)) fun _ w => w.Accounted := by
  let I : List OutboxRow → MapWorld → Prop := fun l w =>
    (l.map (·.id)).Nodup ∧ w.Accounted ∧ w.Clear (l.map (·.id))
  let E : SendError → MapWorld → Prop := fun _ w => w.Accounted
  have hbody : ∀ entry l, Meets (I (entry :: l)) (processEntry env now entry)
      (Split (fun _ => I l) E) := by
    intro entry l
    by_cases hnodup : ((entry :: l).map (·.id)).Nodup
    · obtain ⟨hid, hl⟩ := List.nodup_cons.1 hnodup
      refine (meets_processEntry hid now).weaken (fun w h => h.2) fun r w h => ?_
      cases r with
      | ok _ => exact ⟨hl, h.1, h.2.resolve_left (by simp)⟩
      | error _ => exact h.1
    · exact fun w h => absurd h.1 hnodup
  refine (Meets.forM (I := I) (E := E) hbody entries).weaken (fun w h => h) fun r w h => ?_
  cases r with
  | ok _ => exact h.2.1
  | error _ => exact h

theorem clear_pending {w : MapWorld} (h : w.Accounted) :
    w.Clear (w.db.pending.map (·.id)) := by
  intro k hk
  obtain ⟨row, hrow, rfl⟩ := List.mem_map.1 hk
  have hqueued := OutboxStore.statusOf_of_mem_pending hrow
  exact ⟨h.fresh _ (.inr hqueued), by rw [hqueued]; rfl⟩

theorem meets_drainOutbox (now : ℤ) :
    Meets Accounted (drainOutbox env now) fun _ w => w.Accounted := by
  have hpending : Meets Accounted (storeCall env fun db => .ok (db.pending, db))
      fun r w => w.Accounted ∧ ∀ pending, r = .ok pending →
        (pending.map (·.id)).Nodup ∧ w.Clear (pending.map (·.id)) := by
    intro w hacc
    rcases storeCall_cases env (fun db => .ok (db.pending, db)) w with
      ⟨pending, db, hdb, h⟩ | ⟨e, h⟩ | ⟨db, hdb, h⟩
    · rw [h]
      injection hdb with hdb
      obtain ⟨rfl, rfl⟩ := Prod.mk.inj hdb
      refine ⟨⟨hacc.le, hacc.fresh⟩, fun pending h => ?_⟩
      injection h with h
      subst h
      exact ⟨OutboxStore.nodup_pending w.db, clear_pending hacc⟩
    · rw [h]
      exact ⟨⟨hacc.le, hacc.fresh⟩, fun _ h => nomatch h⟩
    · rw [h]
      have heq : db = w.db := by
        rcases hdb with hdb | ⟨a, hdb⟩
        · exact hdb
        · injection hdb with hdb
          exact (Prod.mk.inj hdb).2.symm
      exact ⟨hacc.mono (fun _ => rfl) (le_lapses_of_died rfl rfl) fun k hk => heq ▸ hk,
        fun _ h => nomatch h⟩
  refine hpending.bind (fun pending => ?_) fun e w h => h.1
  split_ifs with hnil
  · exact Meets.pure fun w h => h.1
  · have hwalk : Keeps (fun w => (pending.map (·.id)).Nodup ∧ w.Accounted ∧
        w.Clear (pending.map (·.id))) (setFolder env .outbox) :=
      keeps_setFolder (fun w w' hsame h => ⟨h.1, h.2.1.same hsame, h.2.2.same hsame⟩) _
    refine Meets.bind (hwalk.weaken (fun w h => ?_) fun _ _ h => h)
      (fun _ => meets_entries now pending) fun _ _ h => h.2.1
    obtain ⟨hnodup, hclear⟩ := h.2 pending rfl
    exact ⟨hnodup, h.1, hclear⟩

/-! ## A text -/

/-- A pushed entry that is no longer to be sent owes nothing. -/
theorem MapWorld.Short.of_not_fresh {w : MapWorld} (h : w.Short id) (hid : ¬ w.db.Fresh id) :
    w.Accounted :=
  ⟨h.le, fun k hk => h.fresh k (fun heq => hid (heq ▸ hk)) hk⟩

theorem keeps_accounted_storeUpdate {f : OutboxStore → Except OutboxError OutboxStore}
    (hf : OutboxStore.Steady f) : Keeps Accounted (storeUpdate env f) :=
  (meets_storeUpdate env [] hf).weaken (fun w h => ⟨h, by simp [Clear]⟩) fun _ _ h => h.1

theorem keeps_accounted_orWarn {f : OutboxStore → Except OutboxError OutboxStore}
    {warning : Warning} (hf : OutboxStore.Steady f) :
    Keeps Accounted (orWarn warning (storeUpdate env f)) :=
  (meets_steady [] hf).weaken (fun w h => ⟨h, by simp [Clear]⟩) fun _ _ h => h.1

/-- The entry of the text is marked before it is pushed, so that no drain finds it. -/
theorem meets_sending (outboxId : ℕ) (now : ℤ) :
    Meets (fun w => w.Accounted ∧ w.Clear [outboxId])
      (storeUpdate env fun db => db.resolve outboxId .sending now none)
      fun r w => w.Accounted ∧ (r = .ok ⟨⟩ → w.Clear [outboxId] ∧ ¬ w.db.Fresh outboxId) := by
  intro w hw
  have hsettles := OutboxStore.settles_resolve outboxId .sending now none
  obtain ⟨hacc, hclear⟩ := meets_storeUpdate env [outboxId] hsettles.steady w hw
  refine ⟨hacc, fun hr => ⟨hclear hr, ?_⟩⟩
  rcases storeUpdate_cases env (fun db => db.resolve outboxId .sending now none) w with
    ⟨db, hdb, h⟩ | ⟨e, h⟩ | ⟨db, hdb, h⟩
  · rw [h]
    exact hsettles.settled w.db db hdb (hw.2 outboxId (by simp)).2
  · rw [h] at hr
    cases hr
  · rw [h] at hr
    cases hr

theorem meets_enqueueSend (msg : NewMessage) (command payload : String) (now : ℤ) :
    Meets Accounted (storeCall env fun db => db.enqueueSend msg command payload now)
      fun r w => w.Accounted ∧ ∀ rowid outboxId, r = .ok (rowid, outboxId) →
        w.Clear [outboxId] := by
  intro w hacc
  have hfresh : ∀ {rowid outboxId db}, w.db.enqueueSend msg command payload now
      = .ok ((rowid, outboxId), db) → ∀ k, db.Fresh k → w.db.Fresh k := by
    intro rowid outboxId db hdb k hk
    obtain ⟨-, -, hnone, hstatus⟩ := OutboxStore.statusOf_enqueueSend hdb
    rw [OutboxStore.Fresh, hstatus] at hk
    split_ifs at hk with heq
    · exact .inl (heq ▸ hnone)
    · exact hk
  rcases storeCall_cases env (fun db => db.enqueueSend msg command payload now) w with
    ⟨⟨rowid, outboxId⟩, db, hdb, h⟩ | ⟨e, h⟩ | ⟨db, hdb, h⟩
  · rw [h]
    refine ⟨hacc.mono (fun _ => rfl) (fun _ => le_rfl) (hfresh hdb), fun rowid' id h k hk => ?_⟩
    injection h with h
    obtain ⟨-, -, hnone, hstatus⟩ := OutboxStore.statusOf_enqueueSend hdb
    obtain rfl : k = outboxId := by rw [List.mem_singleton.1 hk, ← (Prod.mk.inj h).2]
    exact ⟨hacc.fresh k (.inl hnone), by rw [hstatus, if_pos rfl]; rfl⟩
  · rw [h]
    exact ⟨⟨hacc.le, hacc.fresh⟩, by rintro _ _ ⟨⟩⟩
  · rw [h]
    refine ⟨hacc.mono (fun _ => rfl) (le_lapses_of_died rfl rfl) fun k hk => ?_,
      by rintro _ _ ⟨⟩⟩
    rcases hdb with rfl | ⟨⟨rowid, outboxId⟩, hdb⟩
    · exact hk
    · exact hfresh hdb k hk

/-- Only the directories, the books and the stream change with a push. -/
theorem db_pushMessage (env : MapEnv) (entry : ℕ) (phone text : String) (w : MapWorld) :
    (go (pushMessage env entry phone text) w).2.db = w.db := by
  rcases pushMessage_cases env entry phone text w with ⟨-, -, hsame, -⟩ | ⟨-, -, hsent, -⟩
  · exact hsame.db
  · exact hsent.db

theorem meets_pushSending (outboxId : ℕ) (phone text : String) :
    Meets (fun w => w.Accounted ∧ w.Clear [outboxId] ∧ ¬ w.db.Fresh outboxId)
      (Attempt.outcome SendError.map? (pushMessage env outboxId phone text))
      fun _ w => w.Accounted := by
  have hkeeps : Keeps (fun w => ¬ w.db.Fresh outboxId)
      (Attempt.outcome SendError.map? (pushMessage env outboxId phone text)) :=
    Keeps.outcome fun w hw => by
      simp only [db_pushMessage]
      exact hw
  have hid : outboxId ∉ ([] : List ℕ) := List.not_mem_nil
  refine ((meets_outcome_pushMessage hid phone text).and hkeeps).weaken
    (fun w h => ⟨⟨h.1, h.2.1⟩, h.2.2⟩) fun r w h => ?_
  rcases h with ⟨⟨-, hacc⟩ | ⟨-, hshort, -⟩, hid⟩
  · exact hacc
  · exact hshort.of_not_fresh hid

theorem meets_sendSms (number message : String) (now : ℤ) :
    Meets Accounted (sendSms env number message now) fun _ w => w.Accounted := by
  rw [sendSms]
  refine (meets_enqueueSend _ _ _ now).bind ?_ fun e w h => h.1
  rintro ⟨rowid, outboxId⟩
  have hwalk : Keeps (fun w => w.Accounted ∧ w.Clear [outboxId]) (setFolder env .outbox) :=
    keeps_setFolder (fun w w' hsame h => ⟨h.1.same hsame, h.2.same hsame⟩) _
  refine Meets.bind (hwalk.weaken (fun w h => ⟨h.1, h.2 _ _ rfl⟩) fun _ _ h => h) (fun _ => ?_)
    fun _ _ h => h.1
  refine (meets_sending outboxId now).bind (fun _ => ?_) fun _ _ h => h.1
  refine Meets.bind ((meets_pushSending outboxId number message).weaken
    (fun w h => ⟨h.1, h.2 rfl⟩) fun _ _ h => h) (fun result => ?_) fun _ _ h => h
  cases result with
  | ok handle =>
    exact Keeps.bind
      (keeps_accounted_storeUpdate (OutboxStore.settles_completeSend outboxId _ handle now).steady)
      fun _ => Meets.pure fun _ h => h
  | error error =>
    exact Keeps.bind
      (keeps_accounted_orWarn (OutboxStore.settles_resolve outboxId _ now _).steady)
      fun _ => Keeps.bind
        (keeps_accounted_orWarn (OutboxStore.steady_updateOutgoingStatus _ _))
        fun _ => Meets.throw fun _ h => h

/-! ## Runs -/

theorem accounted_step {w w' : MapWorld} {event : MapEvent} (hw : w.Accounted)
    (hstep : w.step env event = some w') : w'.Accounted := by
  cases event with
  | connect =>
    injection hstep with hstep
    subst hstep
    exact ⟨hw.le, hw.fresh⟩
  | send number message now =>
    injection hstep with hstep
    exact hstep ▸ meets_sendSms number message now w hw
  | drain now =>
    injection hstep with hstep
    exact hstep ▸ meets_drainOutbox now w hw
  | browse folder =>
    injection hstep with hstep
    exact hstep ▸ keeps_setFolder (fun _ _ hsame h => h.same hsame) folder w hw
  | openMessageFolders =>
    injection hstep with hstep
    exact hstep ▸ keeps_openMessageFolders (fun _ _ hsame h => h.same hsame) w hw
  | elsewhere store =>
    injection hstep with hstep
    subst hstep
    exact ⟨hw.le, hw.fresh⟩

end

/-- However the session, the store and the phone fail, an entry is pushed once, and once more for
each time the call that would have settled it was warned of or the process died before another
push; while it is queued, it is owed a push. -/
theorem entry_pushes_bounded (env : MapEnv) (foreignKeys : Bool) (events : List MapEvent) (id : ℕ)
    {w : MapWorld} (hrun : (mapSession env).run (.start foreignKeys) events = some w) :
    w.pushCount id ≤ 1 + w.lapses id ∧
      (w.db.statusOf id = some .queued → w.pushCount id ≤ w.lapses id) := by
  have hstart : (MapWorld.start foreignKeys).Accounted :=
    ⟨fun _ => Nat.zero_le _, fun _ _ => Nat.zero_le _⟩
  have hacc : w.Accounted :=
    (mapSession env).run_invariant (fun _ _ _ => accounted_step) hstart hrun
  exact ⟨Nat.add_comm .. ▸ hacc.le id, fun h => hacc.fresh id (.inr h)⟩

/-- The phone takes every text, but the entry is neither marked before the first push nor settled
after it. -/
def forgetfulStore : MapEnv where
  reply _ := .ok (some "20")
  storeFate call := if call = 4 ∨ call = 13 then .failed else .done
  streamEnded := "end of file"

theorem entry_pushes_bounded_twice : ∃ w,
    (mapSession forgetfulStore).run (.start true)
        [.connect, .send "15550100" "hello" 0, .drain 1, .drain 2] = some w ∧
      w.pushCount 1 = 2 ∧ w.pushCount 1 ≤ 1 + w.lapses 1 := by
  refine ⟨_, rfl, ?_, (entry_pushes_bounded forgetfulStore true
    [.connect, .send "15550100" "hello" 0, .drain 1, .drain 2] 1 rfl).1⟩
  decide +kernel

end AnalogConnect
