import GreenticRunner.StepModel

/-! # Ingress messages

    `StateMachineRuntime::handle` and `build_flow_definitions` of
    `engine/runtime.rs`: an inbound envelope becomes one step of the flow machine,
    over flows of one adapter step each.

    * `handle` — one message;
    * `retained` — a session host that returns what was written last. -/

namespace Greentic.Engine

open FinMaps Resumption

/-- `PACK_FLOW_ADAPTER`. -/
def packFlowAdapter : String := "pack_flow"

/-- `DEFAULT_ENV`. -/
def defaultEnv : String := "local"

/-- Where the reply to a message goes. -/
structure ReplyScope where
  conversation : String
  thread : Option String
  replyTo : Option String
  correlation : Option String
  deriving DecidableEq

/-- A JSON object of the fields that are there. -/
def presentFields (fields : List (String × Option Json)) : Json :=
  .obj (fields.filterMap fun f => f.2.map fun v => (f.1, v))

/-- `serde_json::to_value`: fields in key order, absent ones skipped. -/
def ReplyScope.toValue (s : ReplyScope) : Json :=
  presentFields [
    ("conversation", some (.str s.conversation)),
    ("correlation", s.correlation.map Json.str),
    ("reply_to", s.replyTo.map Json.str),
    ("thread", s.thread.map Json.str)]

/-- An inbound message. -/
structure IngressEnvelope where
  tenant : String
  env : Option String
  packId : Option String
  flowId : String
  flowType : Option String
  action : Option String
  sessionHint : Option String
  provider : Option String
  messagingEndpointId : Option String
  channel : Option String
  conversation : Option String
  user : Option String
  entryNode : Option String
  activityId : Option String
  timestamp : Option String
  payload : Json
  metadata : Option Json
  replyScope : Option ReplyScope

namespace IngressEnvelope

/-- `serde_json::to_value`: fields in key order, absent ones skipped. -/
def toValue (e : IngressEnvelope) : Json :=
  presentFields [
    ("action", e.action.map Json.str),
    ("activity_id", e.activityId.map Json.str),
    ("channel", e.channel.map Json.str),
    ("conversation", e.conversation.map Json.str),
    ("entry_node", e.entryNode.map Json.str),
    ("env", e.env.map Json.str),
    ("flow_id", some (.str e.flowId)),
    ("flow_type", e.flowType.map Json.str),
    ("messaging_endpoint_id", e.messagingEndpointId.map Json.str),
    ("metadata", e.metadata),
    ("pack_id", e.packId.map Json.str),
    ("payload", some e.payload),
    ("provider", e.provider.map Json.str),
    ("reply_scope", e.replyScope.map ReplyScope.toValue),
    ("session_hint", e.sessionHint.map Json.str),
    ("tenant", some (.str e.tenant)),
    ("timestamp", e.timestamp.map Json.str),
    ("user", e.user.map Json.str)]

/-- `canonical_session_hint`. -/
def canonicalSessionHint (e : IngressEnvelope) : String :=
  let provider := e.provider.getD "provider"
  let channel := e.channel.getD "channel"
  let conversation := e.conversation.getD "conversation"
  let user := e.user.getD "user"
  s!"{e.tenant}:{provider}:{channel}:{conversation}:{user}"

end IngressEnvelope

/-- `EnvId::from_str` and `TenantId::from_str` of the types crate: the error of an id
    that is not accepted. -/
structure IdChecks where
  env : String → Option String
  tenant : String → Option String

/-- `tenant_ctx`, as far as the step reads it. -/
def IngressEnvelope.tenantCtx (ids : IdChecks) (e : IngressEnvelope) : Except RunnerError TenantCtx :=
  let envRaw := e.env.getD defaultEnv
  match ids.env envRaw with
  | some err => .error (.session s!"invalid env id `{envRaw}`: {err}")
  | none =>
      match ids.tenant e.tenant with
      | some err => .error (.session s!"invalid tenant id `{e.tenant}`: {err}")
      | none => .ok ⟨envRaw, e.tenant, none⟩

/-- The request `run_flow_result` makes of an envelope; errors are `anyhow` texts. -/
def IngressEnvelope.request (ids : IdChecks) (e : IngressEnvelope) : Except String Request :=
  match e.tenantCtx ids with
  | .error err => .error err.display
  | .ok tenant =>
      match e.packId with
      | none => .error "pack_id missing; ingress must specify pack_id for multi-pack flows"
      | some packId => .ok
          ⟨tenant, packId, e.flowId, some (e.sessionHint.getD e.canonicalSessionHint), e.toValue⟩

/-- The part of a flow descriptor that is registered. -/
structure FlowDescriptor where
  packId : String
  id : String

/-- `build_flow_definitions`. -/
def buildFlowDefinitions (flows : List FlowDescriptor) : List FlowDefinition :=
  flows.map fun d =>
    ⟨d.packId, d.id, [.adapter ⟨packFlowAdapter, d.id, .str payloadFromLastInput⟩]⟩

/-- The machine of `StateMachineRuntime`. -/
def packMachine (flows : List FlowDescriptor) (sha256Hex : List UInt8 → String) : StateMachine where
  flows := buildFlowDefinitions flows
  adapters := [packFlowAdapter]
  policy := .default
  sha256Hex := sha256Hex

/-- `handle`: the step of the request, and the response in its outcome. -/
def handle (sm : StateMachine) (ids : IdChecks) (e : IngressEnvelope) : Prog Op Op.Res String Json :=
  match e.request ids with
  | .error err => .fail err
  | .ok q => do
      let (outcome, _) ← (q.step sm).mapError fun err => s!"flow execution failed: {err.display}"
      return (outcome.get? "response").getD outcome

/-! ## Session hosts -/

/-- A snapshot without the revision, which the host keeps. -/
def SessionSnapshot.content (s : SessionSnapshot) : SessionSnapshot := { s with revision := 0 }

/-- The sessions of a host. -/
abbrev SessionStore : Type := SessionKey → Option SessionSnapshot

/-- A session host that returns from `get` what was written last, or an error; a
    write that was reported as failed may have taken effect. -/
def retained (i : Op) (s : SessionStore × StepMemory) (r : i.Res) (s' : SessionStore × StepMemory) :
    Prop :=
  s'.2 = s.2.remember i r ∧
    match i, r with
    | .get key, .ok found => s'.1 = s.1 ∧ found.map (·.content) = s.1 key
    | .put session, .ok () => s'.1 = Function.update s.1 session.key (some session.content)
    | .put session, .error _ =>
        s'.1 = s.1 ∨ s'.1 = Function.update s.1 session.key (some session.content)
    | .updateCas session _, .ok true =>
        s'.1 = Function.update s.1 session.key (some session.content)
    | .updateCas _ _, .ok false => s'.1 = s.1
    | .updateCas session _, .error _ =>
        s'.1 = s.1 ∨ s'.1 = Function.update s.1 session.key (some session.content)
    | _, _ => s'.1 = s.1

/-- The sessions of the in-memory host. -/
def Hosts.contents (h : Hosts) : SessionStore := fun key => (h.sessions key).map (·.snapshot.content)

end Greentic.Engine
