import GreenticRunner.IngressKeys
import GreenticRunner.KeyProofs
import GreenticRunner.Markers
import GreenticRunner.Transition
import GreenticRunner.VersionedMap

/-! # Sessions over a store of one session per user

    `SessionStoreHost` of `storage/session.rs`: a session lives in the slot of a user id
    derived from its whole key, or, where an older runner wrote it, in the slot of its hint
    alone.  `get` takes no lock; every other call takes the lock of its session.

    * `lookupEntryFor`, `shown` — what `get` returns of a store nobody writes to;
    * `HostCall`, `hostCallStep` — the calls, one store operation at a time, with a log of
      the writes in the order they take place. -/

namespace Greentic.Engine

open Transition Markers VersionedMap

/-! ## Keys -/

/-- A segment behind its length in bytes. -/
def lenSegment (s : String) : String := s!"{s.utf8ByteSize}:{s}"

/-- `session_identity`. -/
def sessionIdentity (key : SessionKey) : String :=
  let hint := key.sessionHint.getD ""
  lenSegment key.tenantKey ++ "|" ++ lenSegment key.packId ++ "|" ++ lenSegment key.flowId ++
    "|" ++ lenSegment hint

/-- The text of the slot an older runner used. -/
def legacyIdentity (key : SessionKey) : String :=
  key.sessionHint.getD s!"{key.tenantKey}::{key.packId}::{key.flowId}"

/-- `user_id_from_key`. -/
def userIdFromKey (sha256 : List UInt8 → List UInt8) (key : SessionKey) : String :=
  deriveUserId sha256 (sessionIdentity key)

/-- `legacy_user_id_from_key`. -/
def legacyUserIdFromKey (sha256 : List UInt8 → List UInt8) (key : SessionKey) : String :=
  deriveUserId sha256 (legacyIdentity key)

/-- `tenant_ctx_from_key`: the environment and the tenant. -/
def tenantCtxFromKey (ids : IdChecks) (key : SessionKey) : Except RunnerError (String × String) :=
  match splitOnce "::".toList key.tenantKey.toList with
  | none => .error (.session s!"invalid tenant descriptor '{key.tenantKey}'")
  | some (env, tenant) =>
      match ids.env (String.ofList env) with
      | some err => .error (.session err)
      | none =>
          match ids.tenant (String.ofList tenant) with
          | some err => .error (.session err)
          | none => .ok (String.ofList env, String.ofList tenant)

/-- The TTL is stored in whole seconds. -/
def SessionSnapshot.persisted (s : SessionSnapshot) : SessionSnapshot :=
  { s with ttl := s.ttl / 10 ^ 9 * 10 ^ 9 }

/-- `encode_snapshot`, read back by `decode_snapshot`. -/
def encodeSnapshot (records : RecordChecks) (s : SessionSnapshot) :
    Except RunnerError SessionSnapshot :=
  match records.flow s.key.flowId with
  | some err => .error (.session err)
  | none =>
      match records.pack s.key.packId with
      | some err => .error (.session err)
      | none => .ok s.persisted

/-! ## The store -/

/-- A store that keeps one session per user id: where it keeps the session of a user of a
    tenant.  Whether the tenants share their users is its own business. -/
structure Backing (Slot : Type) where
  place : String → String → String → Slot
  perUser : ∀ {env tenant user env' tenant' user'},
    place env tenant user = place env' tenant' user' → user = user'

/-- The stored sessions, with their store keys. -/
abbrev Sessions (Slot : Type) : Type := Slot → Option (Nat × SessionSnapshot)

/-- The two slots of a session. -/
structure Slots (Slot : Type) where
  own : Slot
  legacy : Slot

section Store

variable {Slot : Type} [DecidableEq Slot]

/-- `update_session`: a session that was removed stays removed. -/
def Sessions.update (st : Sessions Slot) (sl : Slot) (storeKey : Nat) (s : SessionSnapshot) :
    Sessions Slot :=
  if (st sl).any (·.1 == storeKey) then Function.update st sl (some (storeKey, s)) else st

/-- `remove_session`. -/
def Sessions.remove (st : Sessions Slot) (sl : Slot) (storeKey : Nat) : Sessions Slot :=
  if (st sl).any (·.1 == storeKey) then Function.update st sl none else st

/-- `lookup_entry_for`: the session of the slot, if it is the one of the key. -/
def lookupEntryFor (st : Sessions Slot) (key : SessionKey) (sl : Slot) :
    Option (Nat × SessionSnapshot) :=
  (st sl).filter (·.2.key = key)

/-- What `get` returns while nobody writes. -/
def shown (st : Sessions Slot) (sl : Slots Slot) (key : SessionKey) : Option SessionSnapshot :=
  ((lookupEntryFor st key sl.own).or (lookupEntryFor st key sl.legacy)).map (·.2)

end Store

/-! ## Calls -/

inductive HostRequest where
  | get (key : SessionKey)
  | put (snapshot : SessionSnapshot)
  | updateCas (snapshot : SessionSnapshot) (expectedRevision : Nat)
  | touch (key : SessionKey) (ttl : Nat)
  | delete (key : SessionKey)

def HostRequest.key : HostRequest → SessionKey
  | .get key => key
  | .put s => s.key
  | .updateCas s _ => s.key
  | .touch key _ => key
  | .delete key => key

def HostRequest.locked : HostRequest → Bool
  | .get _ => false
  | _ => true

inductive HostAnswer where
  | found (snapshot : Option SessionSnapshot)
  | swapped (won : Bool)
  | unit

/-- Where a call is: before its lock, at a store operation, or at its end, with the number of
    writes at that moment. -/
inductive HostPhase (Slot : Type) where
  | queued
  | lookup
  | lookupLegacy
  | upsert (snapshot : SessionSnapshot) (sl : Slot)
  | store (snapshot : SessionSnapshot) (sl : Slot) (existing : Option Nat)
  | remove (storeKey : Nat)
  | findLegacy
  | removeLegacy (storeKey : Nat)
  | done (answer : Except RunnerError HostAnswer) (ended : Nat)

/-- A call, with the number of writes there were at its start. -/
structure HostCall (Slot : Type) where
  request : HostRequest
  since : Nat
  phase : HostPhase Slot

/-- The lock of the session is taken. -/
def HostPhase.holding {Slot : Type} : HostPhase Slot → Bool
  | .queued => false
  | .done _ _ => false
  | _ => true

def HostCall.holding {Slot : Type} (c : HostCall Slot) : Bool :=
  c.request.locked && c.phase.holding

/-- The writes; a move is one out of the old slot. -/
abbrev Written : Type := Write SessionKey SessionSnapshot

structure HostState (Slot : Type) where
  sessions : Sessions Slot
  nextKey : Nat
  calls : List (HostCall Slot)
  log : List Written

inductive HostMove where
  | begin (request : HostRequest)
  | advance (i : Nat)

section Host

variable {Slot : Type} [DecidableEq Slot] (ids : IdChecks) (records : RecordChecks)
  (sha256 : List UInt8 → List UInt8) (backing : Backing Slot)

/-- The two slots of a key, once its tenant is accepted. -/
def slotsOf (key : SessionKey) : Except RunnerError (Slots Slot) :=
  (tenantCtxFromKey ids key).map fun ctx =>
    ⟨backing.place ctx.1 ctx.2 (userIdFromKey sha256 key),
      backing.place ctx.1 ctx.2 (legacyUserIdFromKey sha256 key)⟩

/-- The key has no second slot. -/
def oneSlot (key : SessionKey) : Bool :=
  legacyUserIdFromKey sha256 key == userIdFromKey sha256 key

/-- Where a call starts once it has its lock. -/
def HostRequest.enter (ended : Nat) (request : HostRequest) : HostPhase Slot :=
  match slotsOf ids sha256 backing request.key, request with
  | .error err, _ => .done (.error err) ended
  | .ok sl, .put s => .upsert s sl.own
  | .ok _, _ => .lookup

/-- The call goes on with what `lookup_entry` returned, and the slot it was in. -/
def HostRequest.found (ended : Nat) : HostRequest → Option (Slot × SessionSnapshot) → HostPhase Slot
  | .get _, r => .done (.ok (.found (r.map (·.2)))) ended
  | .updateCas _ _, none => .done (.ok (.swapped false)) ended
  | .updateCas s expected, some (sl, entry) =>
      if entry.revision = expected then .upsert { s with revision := saturatingSucc expected } sl
      else .done (.ok (.swapped false)) ended
  | .touch _ ttl, some (sl, entry) => .upsert { entry with ttl := ttl } sl
  | _, _ => .done (.ok .unit) ended

/-- The write of a stored snapshot. -/
def HostRequest.write (i : Nat) : HostRequest → SessionSnapshot → Written
  | .updateCas _ expected, s => .swap i s.key expected s
  | .touch _ _, s => .touch i s.key s
  | _, s => .put i s.key s

/-- Where a call goes on after its write. -/
def HostRequest.stored (ended : Nat) : HostRequest → HostPhase Slot
  | .put _ => .findLegacy
  | .updateCas _ _ => .done (.ok (.swapped true)) ended
  | _ => .done (.ok .unit) ended

/-- The write that a removal of the old slot is. -/
def HostRequest.drop (i : Nat) : HostRequest → Written
  | .put s => .move i s.key
  | request => .delete i request.key

/-- The next store operation of the call `i` with a key of slots `sl`. -/
def HostCall.advance (s : HostState Slot) (i : Nat) (sl : Slots Slot) (c : HostCall Slot) :
    Option (HostState Slot × HostPhase Slot) :=
  let ended := s.log.length
  match c.phase with
  | .queued => none
  | .lookup =>
      match lookupEntryFor s.sessions c.request.key sl.own, c.request with
      | some (storeKey, _), .delete _ => some (s, .remove storeKey)
      | none, .delete _ => some (s, .findLegacy)
      | some (_, entry), request => some (s, request.found ended (some (sl.own, entry)))
      | none, request =>
          if oneSlot sha256 request.key then some (s, request.found ended none)
          else some (s, .lookupLegacy)
  | .lookupLegacy =>
      let r := lookupEntryFor s.sessions c.request.key sl.legacy
      some (s, c.request.found ended (r.map fun e => (sl.legacy, e.2)))
  | .upsert snapshot slot =>
      match encodeSnapshot records snapshot with
      | .error err => some (s, .done (.error err) ended)
      | .ok data => some (s, .store data slot ((s.sessions slot).map (·.1)))
  | .store data slot (some storeKey) => some
      ({ s with
          sessions := s.sessions.update slot storeKey data
          log := s.log ++ [c.request.write i data] }, c.request.stored (ended + 1))
  | .store data slot none => some
      ({ s with
          sessions := Function.update s.sessions slot (some (s.nextKey, data))
          nextKey := s.nextKey + 1
          log := s.log ++ [c.request.write i data] }, c.request.stored (ended + 1))
  | .remove storeKey => some
      ({ s with
          sessions := s.sessions.remove sl.own storeKey
          log := s.log ++ [.delete i c.request.key] }, .findLegacy)
  | .findLegacy =>
      if oneSlot sha256 c.request.key then some (s, .done (.ok .unit) ended)
      else
        match lookupEntryFor s.sessions c.request.key sl.legacy with
        | some (storeKey, _) => some (s, .removeLegacy storeKey)
        | none => some (s, .done (.ok .unit) ended)
  | .removeLegacy storeKey => some
      ({ s with
          sessions := s.sessions.remove sl.legacy storeKey
          log := s.log ++ [c.request.drop i] }, .done (.ok .unit) (ended + 1))
  | .done _ _ => none

/-- Another call has the lock that the call waits for. -/
def HostState.blocked (s : HostState Slot) (c : HostCall Slot) : Bool :=
  c.request.locked && s.calls.any fun d =>
    d.holding && userIdFromKey sha256 d.request.key == userIdFromKey sha256 c.request.key

/-- The next step of the call `i`: its lock, or a store operation. -/
def HostCall.move (s : HostState Slot) (i : Nat) (c : HostCall Slot) :
    Option (HostState Slot × HostPhase Slot) :=
  match c.phase, slotsOf ids sha256 backing c.request.key with
  | .queued, _ =>
      if s.blocked sha256 c then none
      else some (s, c.request.enter ids sha256 backing s.log.length)
  | _, .ok sl => c.advance records sha256 s i sl
  | _, .error _ => none

/-- The start of a call, or one step of one call. -/
def hostCallStep (s : HostState Slot) : HostMove → Option (HostState Slot)
  | .begin request => some { s with calls := s.calls ++ [⟨request, s.log.length, .queued⟩] }
  | .advance i => do
      let c ← s.calls[i]?
      let (s', phase) ← c.move ids records sha256 backing s i
      return { s' with calls := s.calls.set i { c with phase := phase } }

end Host

end Greentic.Engine
