import AnalogConnect.Library.Hex
import AnalogConnect.Library.Runs

/-!
# Media sessions

The grants of the call's audio, the registry that holds the current one, and the parties that claim
it. A section under the registry's lock is one step. A claim is three: it fetches the grant under
the lock, is authorized by it, and then sets its flag, and other parties take steps in between.
A party here is one claim and the lease it leads to; times are nanoseconds.
-/

namespace AnalogConnect

inductive MediaSessionAuthError
  | invalidLifetime
  | randomUnavailable
deriving DecidableEq

/-- `decode_hex`, of `n` bytes; a refused text gives zeros. -/
def decodeHex (n : ℕ) (encoded : String) : List UInt8 × Bool :=
  if encoded.utf8ByteSize ≠ n * 2 || !(encoded.toList.all fun c => c.toNat < 128) then
    (List.replicate n 0, false)
  else
    match Hex.decode encoded.toList with
    | some decoded => (decoded, true)
    | none => (List.replicate n 0, false)

def encodeHex (bytes : List UInt8) : String := String.ofList (Hex.encode bytes)

/-! ## Grants -/

structure MediaSessionGrant where
  token : List UInt8
  expiresAt : ℕ
  revoked : Bool
  claimed : Bool
deriving DecidableEq

structure MediaSessionEnrollment where
  sessionId : String
  token : String
  lifetimeSeconds : ℕ
deriving DecidableEq

namespace MediaSessionGrant

/-- A new grant, unless the random source fails. -/
def issue (entropy : Option (Vector UInt8 48)) (lifetime now : ℕ) :
    Except MediaSessionAuthError (MediaSessionGrant × MediaSessionEnrollment) :=
  if lifetime < 1000000000 || lifetime > 300000000000 then .error .invalidLifetime
  else
    match entropy with
    | none => .error .randomUnavailable
    | some entropy =>
      let token := entropy.toList.drop 16
      .ok
        ({ token, expiresAt := now + lifetime, revoked := false, claimed := false },
          { sessionId := encodeHex (entropy.toList.take 16)
            token := encodeHex token
            lifetimeSeconds := lifetime / 1000000000 })

def authorize (grant : MediaSessionGrant) (presented : String) (now : ℕ) : Bool :=
  let (candidate, validEncoding) := decodeHex 32 presented
  validEncoding && grant.token = candidate && now < grant.expiresAt && !grant.revoked

def revoke (grant : MediaSessionGrant) : MediaSessionGrant := { grant with revoked := true }

/-- A store to the flag `claimed`. -/
def setClaimed (claimed : Bool) (grant : MediaSessionGrant) : MediaSessionGrant :=
  { grant with claimed }

end MediaSessionGrant

/-! ## The registry and its parties -/

/-- The session the registry holds; its grant is the place among those issued. -/
structure ActiveSession where
  sessionId : List UInt8
  grant : ℕ
deriving DecidableEq

def ActiveSession.idMatches (active : ActiveSession) (sessionId : String) : Bool :=
  let (candidateId, validId) := decodeHex 16 sessionId
  validId && active.sessionId = candidateId

/-- How far a party's claim has come. -/
inductive ClaimPhase
  | idle
  | fetched (grant : ℕ) (token : String) (now : ℕ)
  | authorized (grant : ℕ)
  | leased (grant : ℕ)
deriving DecidableEq

structure MediaSessionState where
  grants : List MediaSessionGrant
  active : Option ActiveSession
  party : ℕ → ClaimPhase

inductive MediaSessionEvent
  | issue (entropy : Option (Vector UInt8 48)) (lifetime now : ℕ)
  | revoke (sessionId : String)
  | fetch (party : ℕ) (sessionId token : String) (now : ℕ)
  | authorize (party : ℕ)
  | compareExchange (party : ℕ)
  | drop (party : ℕ)

namespace MediaSessionState

def start : MediaSessionState := ⟨[], none, fun _ => .idle⟩

def setParty (s : MediaSessionState) (party : ℕ) (phase : ClaimPhase) : MediaSessionState :=
  { s with party := fun p => if p = party then phase else s.party p }

/-- The session held, if any, is taken out and its grant revoked. -/
def retire (s : MediaSessionState) : MediaSessionState :=
  match s.active with
  | none => s
  | some previous =>
    { s with grants := s.grants.modify previous.grant .revoke, active := none }

/-- `MediaSessionRegistry::issue`. -/
def issue (s : MediaSessionState) (entropy : Option (Vector UInt8 48)) (lifetime now : ℕ) :
    Except MediaSessionAuthError MediaSessionEnrollment × MediaSessionState :=
  match MediaSessionGrant.issue entropy lifetime now with
  | .error error => (.error error, s)
  | .ok (grant, enrollment) =>
    (.ok enrollment,
      { s.retire with
        grants := s.retire.grants ++ [grant]
        active := some ⟨(decodeHex 16 enrollment.sessionId).1, s.grants.length⟩ })

/-- `MediaSessionRegistry::revoke`. -/
def revoke (s : MediaSessionState) (sessionId : String) : Bool × MediaSessionState :=
  if s.active.any fun active => active.idMatches sessionId then (true, s.retire) else (false, s)

/-- The part of `MediaSessionRegistry::claim` under the lock. -/
def fetch (s : MediaSessionState) (sessionId : String) : Option ℕ :=
  (s.active.filter fun active => active.idMatches sessionId).map ActiveSession.grant

/-- `MediaSessionLease::is_active`, of the party's lease. -/
def leaseIsActive (s : MediaSessionState) (party : ℕ) : Bool :=
  match s.party party with
  | .leased grant => s.grants[grant]?.any fun grant => !grant.revoked
  | _ => false

def step (s : MediaSessionState) : MediaSessionEvent → Option MediaSessionState
  | .issue entropy lifetime now => some (s.issue entropy lifetime now).2
  | .revoke sessionId => some (s.revoke sessionId).2
  | .fetch party sessionId token now =>
    if s.party party = .idle then
      match s.fetch sessionId with
      | none => some s
      | some grant => some (s.setParty party (.fetched grant token now))
    else none
  | .authorize party =>
    match s.party party with
    | .fetched grant token now =>
      if s.grants[grant]?.any fun grant => grant.authorize token now then
        some (s.setParty party (.authorized grant))
      else some (s.setParty party .idle)
    | _ => none
  | .compareExchange party =>
    match s.party party with
    | .authorized grant =>
      if s.grants[grant]?.any fun grant => !grant.claimed then
        some ({ s with grants := s.grants.modify grant (.setClaimed true) }.setParty party
          (.leased grant))
      else some (s.setParty party .idle)
    | _ => none
  | .drop party =>
    match s.party party with
    | .leased grant =>
      some ({ s with grants := s.grants.modify grant (.setClaimed false) }.setParty party .idle)
    | _ => none

end MediaSessionState

/-- Issues, revocations, claims and drops, in any interleaving. -/
def mediaSessions : Lts MediaSessionState MediaSessionEvent := ⟨MediaSessionState.step⟩

end AnalogConnect
