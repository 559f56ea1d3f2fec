import AnalogConnect.Proofs.MapSession

/-!
# The outbox says what was sent

Every push carries what its entry says, an entry is sent only where the phone gave a push of it a
handle, and a message only under such a handle (`Truthful`). `listed` carries what a drain knows of
the entries it works off.
-/

namespace AnalogConnect

open Attempt

namespace MapWorld

variable {w w' : MapWorld} {id : ℕ} {listed : List (ℕ × String)}

/-- The phone took a push of the entry, under this handle. -/
def Acked (w : MapWorld) (id : ℕ) (handle : String) : Prop :=
  ∃ push ∈ w.pushes, push.entry = id ∧ push.reply = .ok (some handle)

structure Truthful (listed : List (ℕ × String)) (w : MapWorld) : Prop where
  pushed : ∀ push ∈ w.pushes, w.db.payloadOf push.entry = some (payload push.phone push.text)
  acked : ∀ k, w.db.statusOf k = some .sent → ∃ handle, w.Acked k handle
  marked : ∀ handle, w.db.stateAt handle = some .sentUnconfirmed → ∃ k, w.Acked k handle
  listed : ∀ entry ∈ listed, w.db.payloadOf entry.1 = some entry.2

theorem acked_congr (hpushes : w'.pushes = w.pushes) : w'.Acked = w.Acked := by
  unfold Acked
  rw [hpushes]

theorem Truthful.update {f : OutboxStore → Except OutboxError OutboxStore}
    {sent : ℕ → String → Prop} (h : w.Truthful listed) (hf : OutboxStore.Records f sent)
    (hsent : ∀ k handle, sent k handle → w.Acked k handle) (hpushes : w'.pushes = w.pushes)
    (hdb : w'.db = w.db ∨ f w.db = .ok w'.db) : w'.Truthful listed := by
  have hpayload : ∀ k, w'.db.payloadOf k = w.db.payloadOf k := fun k =>
    hdb.elim (fun heq => by rw [heq]) fun hok => hf.payloadOf _ _ hok k
  refine ⟨fun push hpush => ?_, fun k hk => ?_, fun handle hstate => ?_, fun entry hentry => ?_⟩
  · rw [hpayload]
    exact h.pushed push (hpushes ▸ hpush)
  · rw [acked_congr hpushes]
    have hold := hdb.elim (fun heq => .inl (heq ▸ hk)) fun hok => hf.statusOf _ _ hok k hk
    exact hold.elim (h.acked k) fun ⟨handle, hhandle⟩ => ⟨handle, hsent k handle hhandle⟩
  · rw [acked_congr hpushes]
    have hold := hdb.elim (fun heq => .inl (heq ▸ hstate)) fun hok =>
      hf.stateAt _ _ hok handle hstate
    exact hold.elim (h.marked handle) fun ⟨k, hk⟩ => ⟨k, hsent k handle hk⟩
  · rw [hpayload]
    exact h.listed entry hentry

/-- Where neither the outbox nor the pushes change, the rest does not matter. -/
theorem Truthful.congr (h : w.Truthful listed) (hdb : w'.db = w.db)
    (hpushes : w'.pushes = w.pushes) : w'.Truthful listed :=
  have hqueued : OutgoingStatus.queued ≠ .sentUnconfirmed := by decide
  h.update (OutboxStore.records_updateOutgoingStatus "" hqueued)
    (fun _ _ hk => hk.elim) hpushes (.inl hdb)

theorem Truthful.same (h : w.Truthful listed) (hsame : SameBooks w w') : w'.Truthful listed :=
  h.congr hsame.db hsame.pushes

end MapWorld

section

variable {env : MapEnv} {id : ℕ} {listed : List (ℕ × String)}

open MapWorld

/-! ## A statement -/

end

end AnalogConnect
