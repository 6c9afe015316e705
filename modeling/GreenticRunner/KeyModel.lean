import GreenticRunner.Segments

/-! # The key space of the agent runtime

    The key builders of `tenant.rs`, `state_kv.rs`, `tools.rs`, `cost.rs`,
    `graph/kv_checkpoint.rs`, `serve.rs` and `dispatch_ledger.rs`, and the checks on
    the ids that go into them.

    * `stateKey` … `dispatchKey` — the builders;
    * `KeyObject` — what a key stands for, with the checks its ids have passed. -/

namespace Greentic.Aw

/-- The part of a tenant context the keys are built from. -/
structure TenantContext where
  tenantId : String
  envId : String
  deriving DecidableEq

/-! ## Checks on ids -/

/-- `char::is_control`. -/
def isControl (c : Char) : Bool := c.toNat < 32 || (127 ≤ c.toNat && c.toNat < 160)

/-- The text contains `..`. -/
def hasDots : List Char → Bool
  | '.' :: '.' :: _ => true
  | _ :: rest => hasDots rest
  | [] => false

/-- `MAX_ID_LEN`. -/
def maxIdLen : Nat := 256

/-- `MAX_SESSION_ID_LEN`. -/
def maxSessionIdLen : Nat := 512

/-- `MAX_DISPATCH_ID_LEN`. -/
def maxDispatchIdLen : Nat := 64

/-- `validate_scope_id`. -/
def validateScopeId (kind id : String) : Except String Unit :=
  if id.isEmpty then .error s!"{kind} id is empty"
  else if id.utf8ByteSize > maxIdLen then
    .error s!"{kind} id is longer than {maxIdLen} bytes"
  else if (id.toList.any fun c => c == '/' || c == '\\' || c == ':') || hasDots id.toList ||
      id.toList.any isControl then
    .error s!"{kind} id contains a forbidden character"
  else .ok ()

/-- `validate_session_id`. -/
def validateSessionId (id : String) : Except String Unit :=
  if id.isEmpty then .error "session id is empty"
  else if id.utf8ByteSize > maxSessionIdLen then .error "session id is too long"
  else if id.toList.any isControl then .error "session id contains a forbidden character"
  else .ok ()

/-- `char::is_ascii_alphanumeric`. -/
def isAsciiAlphanumeric (c : Char) : Bool :=
  ('0' ≤ c && c ≤ '9') || ('a' ≤ c && c ≤ 'z') || ('A' ≤ c && c ≤ 'Z')

/-- `valid_dispatch_id`. -/
def validDispatchId (value : String) : Bool :=
  !value.isEmpty && value.utf8ByteSize ≤ maxDispatchIdLen &&
    value.toList.all fun c => isAsciiAlphanumeric c || c == '_' || c == '-'

/-! ## Key builders -/

/-- `key_prefix`. -/
def TenantContext.keyPrefix (t : TenantContext) : String := "aw:" ++ t.tenantId ++ ":" ++ t.envId

/-- `state_key`. -/
def stateKey (t : TenantContext) (sessionId : String) : String :=
  t.keyPrefix ++ ":" ++ sessionId ++ ":state"

/-- `lock_key`. -/
def lockKey (t : TenantContext) (sessionId : String) : String :=
  t.keyPrefix ++ ":" ++ sessionId ++ ":lock"

/-- `tools::ledger_key`. -/
def toolLedgerKey (t : TenantContext) (sessionId callId : String) : String :=
  t.keyPrefix ++ ":" ++ toString sessionId.utf8ByteSize ++ "." ++ sessionId ++ ":tool_calls:" ++
    toString callId.utf8ByteSize ++ "." ++ callId

/-- The key of the token meter of a day. -/
def tokenKey (t : TenantContext) (day : String) : String := t.keyPrefix ++ ":cost:tokens:" ++ day

/-- `run_key` of the graph checkpoints. -/
def runKey (t : TenantContext) (runId : String) : String := t.keyPrefix ++ ":" ++ runId ++ ":graph"

/-- `visit_key` of the graph checkpoints. -/
def visitKey (t : TenantContext) (runId nodeId : String) (attempt : Nat) : String :=
  t.keyPrefix ++ ":" ++ runId ++ ":graph:visit:" ++ nodeId ++ ":" ++ toString attempt

/-- `serve::ledger_key`. -/
def serveLedgerKey (tenant env : String) (dispatchId : Option String) : Option String :=
  (dispatchId.filter validDispatchId).map fun id => tenant ++ ":" ++ env ++ ":" ++ id

/-- `dispatch_key`. -/
def dispatchKey (key : String) : String := "aw:dispatch:" ++ key

/-! ## What keys stand for -/

/-- What is stored under a key. -/
inductive KeyObject where
  | state (t : TenantContext) (sessionId : String)
  | lock (t : TenantContext) (sessionId : String)
  | toolCall (t : TenantContext) (sessionId callId : String)
  | tokens (t : TenantContext) (day : String)
  | run (t : TenantContext) (runId : String)
  | visit (t : TenantContext) (runId nodeId : String) (attempt : Nat)
  | dispatch (t : TenantContext) (dispatchId : String)
  deriving DecidableEq

namespace KeyObject

/-- Its tenant and environment. -/
def scope : KeyObject → TenantContext
  | state t _ | lock t _ | toolCall t _ _ | tokens t _ | run t _ | visit t _ _ _ | dispatch t _ => t

/-- Its key; `serve::ledger_key` gives none for an id that is not well formed. -/
def key? : KeyObject → Option String
  | state t s => some (stateKey t s)
  | lock t s => some (lockKey t s)
  | toolCall t s c => some (toolLedgerKey t s c)
  | tokens t d => some (tokenKey t d)
  | run t r => some (runKey t r)
  | visit t r n a => some (visitKey t r n a)
  | dispatch t i => (serveLedgerKey t.tenantId t.envId (some i)).map dispatchKey

/-- The ids have passed their checks: scope ids and session ids are accepted, run and
    node ids have no separator, a call id is not empty, a day is eight digits and a
    dispatch id is well formed. -/
def Accepted (x : KeyObject) : Prop :=
  validateScopeId "tenant" x.scope.tenantId = .ok () ∧
    validateScopeId "env" x.scope.envId = .ok () ∧
    match x with
    | state _ s | lock _ s => validateSessionId s = .ok ()
    | toolCall _ s c => validateSessionId s = .ok () ∧ c ≠ ""
    | tokens _ d => d.toList.length = 8 ∧ ∀ c ∈ d.toList, c.isDigit = true
    | run _ r => ':' ∉ r.toList
    | visit _ r n a => ':' ∉ r.toList ∧ ':' ∉ n.toList ∧ a < 2 ^ 32
    | dispatch _ i => (serveLedgerKey x.scope.tenantId x.scope.envId (some i)).isSome

end KeyObject

end Greentic.Aw
