import GreenticRunner.AgentNode
import GreenticRunner.FlowEngine

/-! # The walk of a turn

    `drive_flow_tracked` walks a flow from node to node until a node parks the turn,
    ends it or fails.  Three pieces of turn state and four maps of await markers go
    along in the `ExecutionState`, and a PARKED turn keeps them in its `FlowSnapshot`.

    * `evaluateCustomRouting` — the decision of a node, in its context;
    * `visit`, `Turn` — one round of the loop, and a whole turn with its visits;
    * `Produced` — the snapshots that any number of turns leave.

    What a node of another kind hands back, the answers of the agents, the outcome of a
    dispatch and the rendered payloads are given from outside, visit by visit. -/

namespace Greentic.FlowWalk

open Engine Transition

open Drive (JumpControl CustomRoutingDecision NodeOutput branchTarget)

/-! ## Flows -/

/-- `DwAgentDispatch`. -/
inductive DwAgentDispatch where
  | nats
  | inProcess
  deriving DecidableEq

/-- The kinds of node: those that keep a marker, and the others. -/
inductive NodeKind where
  | approvalCall (target : String)
  | dwAgent (agentId : String) (conversational : Bool)
  | other
  deriving DecidableEq

inductive Routing where
  | next (node : String)
  | ends
  | reply
  | branch (onStatus : List (String × String)) (default : Option String)
  | custom (raw : Json)

structure HostNode where
  kind : NodeKind
  payloadExpr : Json
  routing : Routing

structure HostFlow where
  start : Option String
  nodes : List (String × HostNode)

namespace HostFlow

def node? (flow : HostFlow) (id : String) : Option HostNode :=
  (flow.nodes.find? (·.1 == id)).map (·.2)

/-- The start node, or the first one. -/
def entry? (flow : HostFlow) : Option String := flow.start.or (flow.nodes.head?.map (·.1))

end HostFlow

/-- The engine: its flows, the dispatch mode, who it dispatches for, and the functions that are
    given (`evaluate_simple_condition` compares floating-point numbers). -/
structure Host where
  flows : String → Option HostFlow
  mode : DwAgentDispatch
  ctx : DispatchContext
  defaultEnv : String
  sha256 : List UInt8 → List UInt8
  requiresHuman : Json → Bool
  failureText : Json → String
  isNodeId : String → Bool
  evaluateSimpleCondition : String → Json → Bool

/-- The node that a flow has under an id. -/
def Host.node? (host : Host) (flowId node : String) : Option HostNode :=
  (host.flows flowId).bind (·.node? node)

/-! ## State -/

/-- `PendingCardAnswers`. -/
structure PendingCardAnswers where
  nodeId : String
  answers : List (String × Json)

/-- The part of `ExecutionState` that a submit and the awaits use. -/
structure ExecutionState where
  entry : Json
  redirectCount : Nat
  parkTurns : NodeMap Nat
  pendingAgentAwait : NodeMap Unit
  pendingApprovalAwait : NodeMap (Option String)
  pendingApprovalToken : NodeMap String
  pendingToolAwait : NodeMap Unit
  pendingCardAnswers : Option PendingCardAnswers
  resumedAt : Option String

namespace ExecutionState

/-- `ExecutionState::new`. -/
def new (input : Json) : ExecutionState := ⟨input, 0, [], [], [], [], [], none, none⟩

/-- What the approval gates see. -/
def gate (s : ExecutionState) : GateState :=
  ⟨s.entry, s.pendingApprovalAwait, s.pendingApprovalToken⟩

def putGate (s : ExecutionState) (g : GateState) : ExecutionState :=
  { s with
    pendingApprovalAwait := g.pendingApprovalAwait
    pendingApprovalToken := g.pendingApprovalToken }

/-- What a conversational agent sees. -/
def agent (s : ExecutionState) (node : String) : AgentState :=
  ⟨s.entry, (s.pendingAgentAwait.get node).isSome, (s.parkTurns.get node).getD 0⟩

def putAgent (s : ExecutionState) (node : String) (t : AgentState) : ExecutionState :=
  { s with
    pendingAgentAwait :=
      if t.pendingAgentAwait then s.pendingAgentAwait.insert node ()
      else s.pendingAgentAwait.remove node
    parkTurns :=
      if t.parkTurns = 0 then s.parkTurns.remove node else s.parkTurns.insert node t.parkTurns }

end ExecutionState

/-- `FlowSnapshot`. -/
structure FlowSnapshot where
  packId : String
  flowId : String
  nextFlow : Option String
  nextNode : String
  awaitingSubmit : Bool
  state : ExecutionState

/-- The flow that a snapshot resumes. -/
def FlowSnapshot.resumeFlow (snapshot : FlowSnapshot) : String :=
  snapshot.nextFlow.getD snapshot.flowId

/-! ## Submits -/

/-- The fields of an object. -/
def objectFields : Json → List (String × Json)
  | .obj fields => fields
  | _ => []

theorem get?_objectFields (v : Option Json) (name : String) :
    (Json.obj (objectFields (v.getD .null))).get? name = v.bind (·.get? name) := by
  cases v with
  | none => rfl
  | some v =>
      cases v with
      | obj fields => rfl
      | null => rfl
      | bool b => rfl
      | num t => rfl
      | str t => rfl
      | arr items => rfl

/-- `resolve_entry_metadata`. -/
def resolveEntryMetadata (entry : Json) : Option Json :=
  (pointer entry "input" "metadata").or (entry.get? "metadata")

/-- `alias_input_to_entry`. -/
def aliasInputToEntry (entry : Json) : Json :=
  match entry with
  | .obj fields =>
      if (entry.get? "input").isSome then entry else .obj (Json.setField fields "input" entry)
  | _ => entry

/-- `SUBMIT_MARKER_KEY`. -/
def submitMarkerKey : String := "greentic_submit"

/-- `submitted_fields`. -/
def submittedFields (entry : Json) : List (String × Json) :=
  let insert := fun (m : List (String × Json)) (f : String × Json) => Json.setField m f.1 f.2
  let metadata := (objectFields ((resolveEntryMetadata entry).getD .null)).filter fun f =>
    f.1 ≠ "action" && f.1 ≠ submitMarkerKey
  let envelope := (objectFields (((entry.get? "input").filter Json.isObject).getD entry)).filter
    fun f => f.1 ≠ "metadata" && f.1 ≠ "text"
  -- The envelope is inserted last: on a collision it wins.
  envelope.foldl insert (metadata.foldl insert [])

/-- `DeclaredAnswerFields`. -/
inductive DeclaredAnswerFields where
  | absent
  | malformed
  | declared (fields : List String)

/-- `declared_answer_fields`, of the raw input mapping of a card. -/
def declaredAnswerFields (payloadExpr : Json) : DeclaredAnswerFields :=
  match payloadExpr.get? "answer_fields" with
  | none => .absent
  | some (.arr entries) =>
      match entries.mapM Json.asStr? with
      | some fields => .declared fields
      | none => .malformed
  | some _ => .malformed

/-- The answers that a card takes of what was submitted. -/
def allowedAnswers (payloadExpr : Json) (answers : List (String × Json)) : List (String × Json) :=
  match declaredAnswerFields payloadExpr with
  | .declared fields => answers.filter fun f => fields.contains f.1
  | .malformed => answers
  | .absent => answers

/-- The payload of a card with its answers; one that is not an object takes none. -/
def answeredPayload (payloadExpr : Json) (answers : List (String × Json)) : Json → Json
  | .obj fields => .obj (Json.setField fields "answers" (.obj (allowedAnswers payloadExpr answers)))
  | v => v

/-- `attach_pending_card_answers`: whether the submit was for this node, its output and the state. -/
def attachPendingCardAnswers (s : ExecutionState) (nodeId : String) (node : HostNode)
    (output : NodeOutput) : Bool × NodeOutput × ExecutionState :=
  match s.pendingCardAnswers with
  | none => (false, output, s)
  | some pending =>
      if pending.nodeId = nodeId then
        (true, { output with payload := answeredPayload node.payloadExpr pending.answers output.payload },
          { s with pendingCardAnswers := none })
      else (false, output, s)

/-- A change of the field of an object. -/
def mapField (name : String) (f : Json → Json) : Json → Json
  | .obj fields => .obj (fields.map fun p => if p.1 = name then (p.1, f p.2) else p)
  | v => v

/-- An object without its action. -/
def removeAction : Json → Json
  | .obj fields => .obj (fields.filter fun p => p.1 ≠ "action")
  | v => v

/-- `consume_routing_action`. -/
def consumeRoutingAction (entry : Json) : Json :=
  mapField "metadata" removeAction (mapField "input" (mapField "metadata" removeAction) entry)

/-- The state after a node has routed: the submit that was delivered to it and the resume are
    spent. -/
def ExecutionState.spend (s : ExecutionState) (owned : Bool) : ExecutionState :=
  { s with
    entry := if owned then consumeRoutingAction s.entry else s.entry
    resumedAt := none }

/-! ## Routing -/

/-- What a routing context has beside the entry and the output: the outputs of the nodes so far
    and the event of the node. -/
structure Scope where
  nodes : Json
  event : String

/-- `build_routing_context`. -/
def buildRoutingContext (output : NodeOutput) (s : ExecutionState) (scope : Scope) : Json :=
  let entry := aliasInputToEntry s.entry
  let metadata := objectFields ((resolveEntryMetadata entry).getD .null)
  let text := ((pointer entry "input" "text").or (entry.get? "text")).filter (!·.isNull)
  let response := match text with
    | some text => Json.setField metadata "text" text
    | none => metadata
  -- The payload comes first, so the five names below are reserved.
  let ctx := Json.setField (objectFields output.payload) "entry" entry
  let ctx := Json.setField ctx "in" entry
  let ctx := Json.setField ctx "node" scope.nodes
  let ctx := Json.setField ctx "response" (.obj response)
  .obj (Json.setField ctx "event" (.str scope.event))

/-- The text that `resolve_dotted_path` gives for a value. -/
def dottedText : Json → String
  | .str s => s
  | v => v.render

/-- `response.action` of a routing context. -/
def responseAction (ctx : Json) : Option Json := pointer ctx "response" "action"

/-- The target of one route, if it is taken. -/
def routeTarget (host : Host) (ctx : Json) (resumedAt : Option String) (nodeId : String)
    (route : Json) : Option String :=
  let target := ((route.get? "to").bind Json.asStr?).filter host.isNodeId
  if (route.get? "on_message").bind Json.asBool? = some true then
    -- Taken only by the card that this turn resumed, and without an action.
    if resumedAt = some nodeId ∧ (responseAction ctx).all (fun v => trimmed (dottedText v) = "") then
      target
    else none
  else
    match (route.get? "condition").bind Json.asStr? with
    | some condition => if host.evaluateSimpleCondition condition ctx then target else none
    | none => target

/-- Whether a route that does not match parks the run. -/
def isConditional (route : Json) : Bool :=
  (route.get? "on_message").bind Json.asBool? = some true ||
    ((route.get? "condition").bind Json.asStr?).isSome

/-- What a decision was evaluated with. -/
structure RoutingView where
  context : Json
  resumedAt : Option String

/-- `evaluate_custom_routing`. -/
def evaluateCustomRouting (host : Host) (raw : Json) (view : RoutingView) (nodeId : String) :
    CustomRoutingDecision :=
  match raw with
  | .arr routes =>
      match routes.findSome? (routeTarget host view.context view.resumedAt nodeId) with
      | some target => .next target
      | none => if routes.any isConditional then .wait else .ends
  | _ => .ends

/-- Where a node routes, and what the decision was evaluated with where it is a custom one. -/
def route (host : Host) (nodeId : String) (output : NodeOutput) (s : ExecutionState) (scope : Scope) :
    Routing → CustomRoutingDecision × Option RoutingView
  | .next n => (.next n, none)
  | .ends => (.ends, none)
  | .reply => (.ends, none)
  | .branch onStatus default =>
      match branchTarget onStatus default output with
      | some target => (.next target, none)
      | none => (.ends, none)
  | .custom raw =>
      let view : RoutingView := ⟨buildRoutingContext output s scope, s.resumedAt⟩
      (evaluateCustomRouting host raw view nodeId, some view)

/-! ## Nodes -/

/-- `DispatchOutcome`. -/
structure DispatchOutcome where
  output : NodeOutput
  control : Drive.NodeControl

/-- `DispatchOutcome::complete`, of a payload without metadata. -/
def DispatchOutcome.complete (payload : Json) : DispatchOutcome := ⟨⟨payload, .null⟩, .continues⟩

/-- What a visit is given from outside: the payload that was rendered for the node, what a node of
    another kind or an agent hands back, the dispatch handler, the random bytes of a gate, and the
    rest of the routing context. -/
structure Answer where
  payload : Json
  outcome : Except String DispatchOutcome
  agent : Except String Json
  handler : Option (RemoteDispatch → Except String Unit)
  token : Vector UInt8 32
  nonce : Vector UInt8 16
  scope : Scope

/-- `RemoteDispatchHandler::dispatch`: a request that was sent is awaited by its mode. -/
def dispatched (send : RemoteDispatch → Except String Unit) (request : RemoteDispatch) :
    Except String RemoteDispatchAction :=
  (send request).map fun _ =>
    if request.await then .awaitingResponse request.correlationId else .dispatched

/-- The output of a node that awaits; a gate that stays parked names no dispatch. -/
def pendingPayload (correlationId : List Char) : Json :=
  if correlationId = [] then .obj [("pending", .bool true)]
  else .obj [("correlation_id", .str (String.ofList correlationId)), ("pending", .bool true)]

/-- What a gate is entered with. -/
def gateVisit (host : Host) (flowId nodeId target : String) (s : ExecutionState) (a : Answer) :
    GateVisit where
  node := nodeId
  entry := s.entry
  target := target
  payload := a.payload
  ctx := { host.ctx with flowId }
  defaultEnv := host.defaultEnv
  token := a.token
  nonce := a.nonce
  handler := a.handler.map dispatched

/-- What the flow does with the answer of a gate. -/
def gateOutcome : NodeControl → DispatchOutcome
  | .complete payload outcome =>
      ⟨⟨payload, (outcome.map fun o => Json.obj [("outcome", .str o)]).getD .null⟩, .continues⟩
  | .awaitHere correlationId => ⟨⟨pendingPayload correlationId, .null⟩, .awaitHere⟩

/-- The request of an agent node: `{"await": true, "input": payload}`. -/
def agenticDispatch (host : Host) (flowId agentId : String) (payload : Json) : RemoteDispatch where
  tenant := host.ctx.tenant
  env := host.defaultEnv
  runtime := "agentic"
  target := agentId
  operation := ""
  await := true
  correlationId := publishedId host.ctx.sessionId host.ctx.packId flowId host.ctx.replyScope none
  input := payload
  deadlineMs := none
  decisionToken := none

/-- `execute_remote_dispatch`, for an agent node. -/
def executeRemoteDispatch (host : Host) (flowId agentId : String) (a : Answer) (payload : Json)
    (resumeAtSelf : Bool) : Except String DispatchOutcome :=
  match a.handler with
  | none => .error "agentic.call node dispatched but no RemoteDispatchHandler configured"
  | some send =>
      (dispatched send (agenticDispatch host flowId agentId payload)).map fun action =>
        match action with
        | .awaitingResponse correlationId =>
            ⟨⟨pendingPayload correlationId, .null⟩, if resumeAtSelf then .awaitHere else .wait⟩
        | .dispatched =>
            .complete (.obj [
              ("correlation_id", .str (String.ofList
                (agenticDispatch host flowId agentId payload).correlationId)),
              ("dispatched", .bool true)])

/-- `terminated_by` of the output of an agent. -/
def terminatedBy (payload : Json) : Option String := (payload.get? "terminated_by").bind Json.asStr?

/-- `execute_dw_agent` and what the node makes of its output. -/
def executeInProcess (s : ExecutionState) (nodeId : String) (conversational : Bool)
    (agent : Except String Json) : Except String DispatchOutcome × ExecutionState :=
  -- `take_tool_await`, whatever the inbound is.
  let s := { s with pendingToolAwait := s.pendingToolAwait.remove nodeId }
  match agent with
  | .error e => (.error e, s)
  | .ok payload =>
      if terminatedBy payload = some "awaiting_tool_input" then
        (.ok ⟨⟨payload, .null⟩, .loopHere⟩,
          { s with pendingToolAwait := s.pendingToolAwait.insert nodeId () })
      else if conversational then
        let turns := min ((s.parkTurns.get nodeId).getD 0 + 1) (2 ^ 32 - 1)
        if terminatedBy payload = some "conversation_ended" ∨ maxParkTurns ≤ turns then
          (.ok (.complete payload), { s with parkTurns := s.parkTurns.remove nodeId })
        else
          (.ok ⟨⟨payload, .null⟩, .loopHere⟩, { s with parkTurns := s.parkTurns.insert nodeId turns })
      else (.ok (.complete payload), s)

/-- The conversational branch of `dispatch_node`. -/
def executeNats (host : Host) (flowId nodeId agentId : String) (s : ExecutionState) (a : Answer) :
    Except String DispatchOutcome × ExecutionState :=
  match executeConversational host.failureText a.payload (s.agent nodeId) with
  | (.awaitHere input, t) =>
      (executeRemoteDispatch host flowId agentId a input true, s.putAgent nodeId t)
  | (.loopHere payload, t) => (.ok ⟨⟨payload, .null⟩, .loopHere⟩, s.putAgent nodeId t)
  | (.complete payload, t) => (.ok (.complete payload), s.putAgent nodeId t)

/-- `dispatch_node`. -/
def dispatchNode (host : Host) (flowId nodeId : String) (kind : NodeKind) (s : ExecutionState)
    (a : Answer) : Except String DispatchOutcome × ExecutionState :=
  match kind with
  | .approvalCall target =>
      let r := executeApprovalCall host.sha256 host.requiresHuman s.gate
        (gateVisit host flowId nodeId target s a)
      (r.result.map gateOutcome, s.putGate r.state)
  | .dwAgent agentId conversational =>
      match host.mode with
      | .nats =>
          if conversational then executeNats host flowId nodeId agentId s a
          else (executeRemoteDispatch host flowId agentId a a.payload false, s)
      | .inProcess => executeInProcess s nodeId conversational a.agent
  | .other => (a.outcome, s)

/-- `apply_jump`: where a jump leads, unless it is refused. -/
def applyJump (host : Host) (s : ExecutionState) (jump : JumpControl) :
    Option (String × String × ExecutionState) :=
  let target := trimmed jump.flow
  if target = "" then none
  else
    (host.flows target).bind fun flow =>
      let node := match jump.node with
        | some node => if (flow.node? node).isSome then some node else none
        | none => flow.entry?
      node.bind fun node =>
        if jump.maxRedirects.getD 3 ≤ s.redirectCount then none
        else some (target, node, { s with redirectCount := s.redirectCount + 1 })

/-! ## Turns -/

/-- One visit of a turn: what the node handed back, what was recorded, and what its routing was
    evaluated with. -/
structure VisitRecord where
  flowId : String
  nodeId : String
  returned : Json
  output : Json
  control : Drive.NodeControl
  routed : Option RoutingView

/-- A turn under way. -/
structure Walk where
  flowId : String
  nodeId : String
  state : ExecutionState
  visits : List VisitRecord

inductive Progress where
  | walking (w : Walk)
  | parked (visits : List VisitRecord) (snapshot : FlowSnapshot)
  | completed (visits : List VisitRecord)
  | failed (visits : List VisitRecord)

namespace Progress

/-- The visits of a turn, the first one first. -/
def visits : Progress → List VisitRecord
  | .walking w => w.visits
  | .parked visits _ => visits
  | .completed visits => visits
  | .failed visits => visits

/-- The state that a turn goes on with, or left in its snapshot. -/
def state? : Progress → Option ExecutionState
  | .walking w => some w.state
  | .parked _ snapshot => some snapshot.state
  | .completed _ => none
  | .failed _ => none

/-- The snapshot that a turn left. -/
def snapshot? : Progress → Option FlowSnapshot
  | .parked _ snapshot => some snapshot
  | _ => none

end Progress

/-- The snapshot of a park in a flow.  The flow of the step is the current one, so it names no
    other flow to resume. -/
def park (host : Host) (flowId nextNode : String) (awaitingSubmit : Bool) (s : ExecutionState) :
    FlowSnapshot :=
  ⟨host.ctx.packId, flowId, none, nextNode, awaitingSubmit, s⟩

/-- What the control of a node does with the turn: the last part of a round of the loop.  `owned`
    says that the pending submit was for this node. -/
def follow (host : Host) (w : Walk) (node : HostNode) (a : Answer) (outcome : DispatchOutcome)
    (owned : Bool) (output : NodeOutput) (s : ExecutionState) : Progress :=
  let record := fun routed =>
    w.visits ++ [⟨w.flowId, w.nodeId, outcome.output.payload, output.payload, outcome.control, routed⟩]
  match outcome.control with
  | .continues =>
      let (decision, routed) := route host w.nodeId output s a.scope node.routing
      match decision with
      | .next n => .walking ⟨w.flowId, n, s.spend owned, record routed⟩
      | .ends => .completed (record routed)
      | .wait => .parked (record routed) (park host w.flowId w.nodeId true (s.spend owned))
  | .wait =>
      let (decision, routed) := route host w.nodeId output s a.scope node.routing
      match decision with
      | .next n => .parked (record routed) (park host w.flowId n false s)
      | _ => .failed (record routed)
  | .loopHere => .parked (record none) (park host w.flowId w.nodeId false s)
  | .awaitHere => .parked (record none) (park host w.flowId w.nodeId false s)
  | .jump jump =>
      match applyJump host s jump with
      | some (flowId, nodeId, s) => .walking ⟨flowId, nodeId, s, record none⟩
      | none => .failed (record none)
  | .respond => .completed (record none)

/-- One round of the loop of `drive_flow_tracked`. -/
def visit (host : Host) (w : Walk) (a : Answer) : Progress :=
  match host.node? w.flowId w.nodeId with
  | none => .failed w.visits
  | some node =>
      match dispatchNode host w.flowId w.nodeId node.kind w.state a with
      | (.error _, _) => .failed w.visits
      | (.ok outcome, s) =>
          let (owned, output, s) := attachPendingCardAnswers s w.nodeId node outcome.output
          follow host w node a outcome owned output s

/-- A round, or a failure beside the nodes: a template that does not render, the step budget. -/
def step (host : Host) : Progress → Option Answer → Option Progress
  | .walking w, some a => some (visit host w a)
  | .walking w, none => some (.failed w.visits)
  | _, _ => none

/-- What a turn may come to. -/
def Turn (host : Host) (w : Walk) (p : Progress) : Prop := Reach (step host) Any (.walking w) p

/-- `execute_once`. -/
def execute (flowId nodeId : String) (entry : Json) : Walk := ⟨flowId, nodeId, .new entry, []⟩

/-- `resume_with_options`. -/
def resume (snapshot : FlowSnapshot) (input : Json) : Walk where
  flowId := snapshot.resumeFlow
  nodeId := snapshot.nextNode
  visits := []
  state := { snapshot.state with
    entry := input
    redirectCount := 0
    -- `pending_from_snapshot` and `resumed_card_node`.
    pendingCardAnswers :=
      if snapshot.awaitingSubmit then some ⟨snapshot.nextNode, submittedFields input⟩ else none
    resumedAt := if snapshot.awaitingSubmit then some snapshot.nextNode else none }

/-- The snapshots that the engine leaves: of a fresh execution, started anywhere, or of a turn that
    resumes one of them. -/
inductive Produced (host : Host) : FlowSnapshot → Prop where
  | fresh {flowId nodeId : String} {entry : Json} {p : Progress} {snapshot : FlowSnapshot}
      (h : Turn host (execute flowId nodeId entry) p) (hp : p.snapshot? = some snapshot) :
      Produced host snapshot
  | resumed {last : FlowSnapshot} {input : Json} {p : Progress} {snapshot : FlowSnapshot}
      (hlast : Produced host last) (h : Turn host (resume last input) p)
      (hp : p.snapshot? = some snapshot) : Produced host snapshot

/-! ## Rounds -/

variable {host : Host}

/-- A round fails at its node, or its node hands something back that the flow follows. -/
theorem visit_cases (host : Host) (w : Walk) (a : Answer) :
    visit host w a = .failed w.visits ∨
    ∃ node outcome s owned output s', host.node? w.flowId w.nodeId = some node ∧
      dispatchNode host w.flowId w.nodeId node.kind w.state a = (.ok outcome, s) ∧
      attachPendingCardAnswers s w.nodeId node outcome.output = (owned, output, s') ∧
      visit host w a = follow host w node a outcome owned output s' := by
  unfold visit
  split
  next => exact .inl rfl
  next node hnode =>
    split
    next => exact .inl rfl
    next outcome s hd => exact .inr ⟨node, outcome, s, _, _, _, hnode, hd, rfl, rfl⟩

theorem route_view {nodeId : String} {output : NodeOutput} {s : ExecutionState} {scope : Scope}
    {routing : Routing} {view : RoutingView}
    (h : (route host nodeId output s scope routing).2 = some view) :
    view = ⟨buildRoutingContext output s scope, s.resumedAt⟩ := by
  unfold route at h
  split at h
  next => exact nomatch h
  next => exact nomatch h
  next => exact nomatch h
  next =>
    split at h
    next => exact nomatch h
    next => exact nomatch h
  next => exact (Option.some.inj h).symm

/-- A node that is followed is recorded, with what its routing was evaluated with. -/
theorem follow_visits (host : Host) (w : Walk) (node : HostNode) (a : Answer)
    (outcome : DispatchOutcome) (owned : Bool) (output : NodeOutput) (s : ExecutionState) :
    ∃ routed, (follow host w node a outcome owned output s).visits = w.visits ++
        [⟨w.flowId, w.nodeId, outcome.output.payload, output.payload, outcome.control, routed⟩] ∧
      ∀ view, routed = some view → view = ⟨buildRoutingContext output s a.scope, s.resumedAt⟩ := by
  unfold follow
  cases hc : outcome.control with
  | continues =>
      simp only
      split
      next => exact ⟨_, rfl, fun _ => route_view⟩
      next => exact ⟨_, rfl, fun _ => route_view⟩
      next => exact ⟨_, rfl, fun _ => route_view⟩
  | wait =>
      simp only
      split
      next => exact ⟨_, rfl, fun _ => route_view⟩
      next => exact ⟨_, rfl, fun _ => route_view⟩
  | loopHere => exact ⟨_, rfl, fun _ h => nomatch h⟩
  | awaitHere => exact ⟨_, rfl, fun _ h => nomatch h⟩
  | jump jump =>
      simp only
      split
      next => exact ⟨_, rfl, fun _ h => nomatch h⟩
      next => exact ⟨_, rfl, fun _ h => nomatch h⟩
  | respond => exact ⟨_, rfl, fun _ h => nomatch h⟩

/-- What a turn keeps: it holds at the start, and every round keeps it. -/
theorem Turn.inv {I : Progress → Prop} {w₀ : Walk} {p : Progress} (h0 : I (.walking w₀))
    (hvisit : ∀ w a, I (.walking w) → I (visit host w a))
    (hfail : ∀ w, I (.walking w) → I (.failed w.visits)) (h : Turn host w₀ p) : I p := by
  refine Reach.inv h0 ?_ h
  intro p l p' hp _ hs
  cases p with
  | walking w =>
      cases l with
      | some a =>
          cases hs
          exact hvisit w a hp
      | none =>
          cases hs
          exact hfail w hp
  | parked visits snapshot => exact nomatch hs
  | completed visits => exact nomatch hs
  | failed visits => exact nomatch hs

/-- A walk without a visit is where the turn began. -/
theorem Turn.unvisited {w₀ w : Walk} (h : Turn host w₀ (.walking w)) (hw : w.visits = []) :
    w = w₀ := by
  have hinv : ∀ w', Progress.walking w = .walking w' → w'.visits = [] → w' = w₀ := by
    refine Turn.inv (I := fun p => ∀ w, p = .walking w → w.visits = [] → w = w₀) ?_ ?_ ?_ h
    · intro w hw _
      cases hw
      rfl
    · intro w a _ w' hvisit hw'
      rcases visit_cases host w a with hf | ⟨node, outcome, s, owned, output, s', _, _, _, hf⟩
      · rw [hf] at hvisit
        exact nomatch hvisit
      · -- The round has recorded its node.
        obtain ⟨routed, hr, _⟩ := follow_visits host w node a outcome owned output s'
        rw [← hf, hvisit] at hr
        exact absurd (hr.symm.trans hw') (by simp)
    · intro w _ w' hw'
      exact nomatch hw'
  exact hinv w rfl hw

end Greentic.FlowWalk
