import GreenticRunner.ApprovalGate
import GreenticRunner.StepModel

/-! # The flow engine: nodes, nested flows and retries

    `runner/engine.rs` and the pack-flow adapter of `engine/runtime.rs`, as far as a failure
    decides what runs again: the markers an error carries, the loop over the nodes of a flow
    with its nested `flow.call` runs and its jumps, the two retry loops, and the clear or keep
    of the park.

    * `executeLoop`, `executeSurfacing`, `resumeSurfacing` — a fresh and a resumed run;
    * `callTracedUnlocked`, `handleMessage` — the adapter call and its retries.

    What a node does, which output it has, how templates render and what a custom routing
    decides are answers from outside: each is an operation. -/

namespace Greentic.Drive

open Resumption Greentic.Engine

/-! ## Errors -/

/-- An `anyhow::Error`: an error of the outside, one in a context, one marked as preceding every
    effect of its node, a terminal one, or one made terminal after effects. -/
inductive FlowError where
  | plain (message : String)
  | elapsed (message : String)
  | io (message : String) (transient : Bool)
  | transient (message : String)
  | context (message : String) (inner : FlowError)
  | preEffect (inner : FlowError)
  | terminal (message : String)
  | afterEffects (original : FlowError)

namespace FlowError

/-- `to_string`: the outermost message. -/
def display : FlowError → String
  | .plain m => m
  | .elapsed m => m
  | .io m _ => m
  | .transient m => m
  | .context m _ => m
  | .preEffect e => e.display
  | .terminal m => m
  | .afterEffects e => e.display

/-- The sources of an error; the two wrappers skip the error they wrap. -/
def sources : FlowError → List FlowError
  | .context _ e => e :: e.sources
  | .preEffect e => e.sources
  | .afterEffects e => e.sources
  | _ => []

/-- `chain`. -/
def chain (e : FlowError) : List FlowError := e :: e.sources

/-- The walk of `error_causes` over an error, and over its sources. -/
def walk : FlowError → List FlowError × List FlowError
  | .context m e => (.context m e :: e.walk.1, e.walk.1)
  | .preEffect e => (.preEffect e :: (e.walk.1 ++ e.walk.2), e.walk.2)
  | .afterEffects e => (.afterEffects e :: e.walk.2, e.walk.2)
  | e => ([e], [])

/-- `error_causes`: it looks through the pre-effect wrappers. -/
def causes (e : FlowError) : List FlowError := e.walk.1

def isPreEffectError : FlowError → Bool
  | .preEffect _ => true
  | _ => false

/-- `is_pre_effect_error`. -/
def isPreEffect (e : FlowError) : Bool := e.chain.any isPreEffectError

def isAfterEffectsError : FlowError → Bool
  | .afterEffects _ => true
  | _ => false

/-- `is_after_effects_failure`. -/
def isAfterEffects (e : FlowError) : Bool := e.causes.any isAfterEffectsError

def isTerminalError : FlowError → Bool
  | .terminal _ => true
  | .afterEffects _ => true
  | _ => false

/-- `is_terminal_flow_error`. -/
def isTerminal (e : FlowError) : Bool := e.causes.any isTerminalError

/-- The types that are transient. -/
def isTransientError : FlowError → Bool
  | .elapsed _ => true
  | .transient _ => true
  | .io _ retryable => retryable
  | _ => false

/-- The words that make a message a transient one. -/
def transientWords : List String := ["transient", "unavailable", "internal", "timeout"]

/-- `should_retry`: a terminal marker wins. -/
def shouldRetry (e : FlowError) : Bool :=
  !e.isTerminal && (e.causes.any isTransientError ||
    transientWords.any fun word => decide (word.toList <:+: e.display.toLower.toList))

/-- `{:#}`: the messages of the chain. -/
def chainText (e : FlowError) : String := ": ".intercalate (e.chain.map display)

end FlowError

/-- `terminal_after_effects`. -/
def terminalAfterEffects (err : FlowError) (effectsPerformed : Bool) : FlowError :=
  if !effectsPerformed || err.isAfterEffects then err else .afterEffects err

/-! ## Flows -/

inductive NodeKind where
  | exec | packComponent | providerInvoke | flowCall | flowGoto | builtinEmit
  | builtinStateGet | builtinStateSet | varSet | wait | dwAgent | dwAgentGraph
  | sorlaCall | operalaCall | agenticCall | telcoXCall | approvalCall | mcp | a2a | mediaCreate
  deriving DecidableEq

/-- `performs_external_effect`. -/
def NodeKind.performsExternalEffect : NodeKind → Bool
  | .providerInvoke | .flowCall | .dwAgent | .dwAgentGraph | .sorlaCall | .operalaCall
  | .agenticCall | .telcoXCall | .approvalCall | .mcp | .a2a | .mediaCreate => true
  | _ => false

/-- `may_have_partial_effect_on_failure`: a nested run classifies its own failure. -/
def NodeKind.mayHavePartialEffectOnFailure (kind : NodeKind) : Bool :=
  kind != .flowCall && kind.performsExternalEffect

inductive Routing where
  | next (node : String)
  | ends
  | reply
  | branch (onStatus : List (String × String)) (default : Option String)
  | custom

structure HostNode where
  kind : NodeKind
  routing : Routing

structure HostFlow where
  id : String
  start : Option String
  nodes : List (String × HostNode)
  varsInit : List String
  requiredVars : List String

namespace HostFlow

def node? (flow : HostFlow) (id : String) : Option HostNode :=
  (flow.nodes.find? (·.1 == id)).map (·.2)

/-- The start node, or the first one. -/
def entry? (flow : HostFlow) : Option String := flow.start.or (flow.nodes.head?.map (·.1))

/-- `seed_vars_and_collect_missing_required`: what has no default. -/
def missingVars (flow : HostFlow) : List String :=
  flow.requiredVars.filter fun name => !flow.varsInit.contains name

end HostFlow

structure NodeOutput where
  payload : Json
  «meta» : Json

/-- A jump to another flow. -/
structure JumpControl where
  flow : String
  node : Option String
  maxRedirects : Option Nat

inductive NodeControl where
  | continues
  | wait
  | loopHere
  | awaitHere
  | jump (jump : JumpControl)
  | respond

inductive CustomRoutingDecision where
  | next (node : String)
  | ends
  | wait

/-- The part of a parked flow that says where it goes on. -/
structure ParkedFlow where
  packId : String
  flowId : String
  nextFlow : Option String
  nextNode : String
  deriving DecidableEq

inductive FlowStatus where
  | completed
  | waiting (snapshot : ParkedFlow)

/-! ## Operations -/

/-- The operations; the depth is the one of `flow.call`.  `turn` and `attempt` start a turn of
    the state machine's retry and an attempt of the engine's, `collect` is the output of a nested
    run that completed, and `paused` notes that one waits.  A parked flow has a number. -/
inductive FlowOp where
  | turn (n : Nat)
  | fetch
  | resolve
  | load (packId flowId : String)
  | attempt (depth n : Nat)
  | render (depth : Nat) (node : String)
  | dispatch (depth : Nat) (node : String) (kind : NodeKind) (payload : Json)
  | collect (depth : Nat) (flowId : String)
  | paused (depth : Nat) (flowId : String)
  | varsOut (depth : Nat) (node : String)
  | custom (depth : Nat) (node : String)
  | clear
  | save (snapshot : ParkedFlow)

@[reducible] def FlowOp.Res : FlowOp → Type
  | .turn _ => Unit
  | .fetch => Except RunnerError (Option (Nat × ParkedFlow))
  | .resolve => Except RunnerError String
  | .load _ _ => Except FlowError HostFlow
  | .attempt _ _ => Unit
  | .render _ _ => Except FlowError Json
  | .dispatch _ _ _ _ => Except FlowError (NodeOutput × NodeControl)
  | .collect _ _ => NodeOutput
  | .paused _ _ => Unit
  | .varsOut _ _ => Except FlowError Unit
  | .custom _ _ => CustomRoutingDecision
  | .clear => Unit
  | .save _ => Unit

/-- A part of the handling of a message; errors are values. -/
abbrev Turn (α : Type) : Type := Prog FlowOp FlowOp.Res Empty α

/-! ## One run of a flow -/

/-- `MAX_FLOW_CALL_DEPTH`. -/
def maxFlowCallDepth : Nat := 16

/-- `MAX_STEPS_PER_TURN`. -/
def maxStepsPerTurn : Nat := 10000

/-- The status text of a value. -/
def statusOf : Json → Option String
  | .str text => some text
  | .num text => some text
  | .bool flag => some (if flag then "true" else "false")
  | _ => none

/-- `branch_target`. -/
def branchTarget (onStatus : List (String × String)) (default : Option String)
    (output : NodeOutput) : Option String :=
  let status := ((output.payload.get? "status").bind statusOf).or
    ((output.meta.get? "status").bind statusOf)
  (status.bind fun status => (onStatus.find? (·.1 == status)).map (·.2)).or default

/-- Where a node routes. -/
def route (depth : Nat) (node : String) (output : NodeOutput) : Routing → Turn CustomRoutingDecision
  | .next n => .ret (.next n)
  | .ends => .ret .ends
  | .reply => .ret .ends
  | .branch onStatus default =>
      match branchTarget onStatus default output with
      | some target => .ret (.next target)
      | none => .ret .ends
  | .custom => Prog.perform (FlowOp.custom depth node)

/-- Where a run is. -/
structure Cursor where
  flow : HostFlow
  flowId : String
  node : String
  redirects : Nat

/-- The node a jump goes to. -/
def jumpNode (flow : HostFlow) (target : String) : Option String → Except FlowError String
  | some node =>
      if (flow.node? node).isSome then .ok node else .error (.terminal s!"unknown_node:{node}")
  | none =>
      match flow.entry? with
      | some node => .ok node
      | none => .error (.terminal s!"jump_failed: flow {target} has no start node")

/-- The jump to a flow. -/
def jumpTo (packId : String) (redirects : Nat) (jump : JumpControl) (target : String) :
    Turn (Except FlowError Cursor) :=
  if target = "" then .ret (.error (.terminal "missing_flow"))
  else do
    match ← Prog.perform (FlowOp.load packId target) with
    | .error e => return .error (.context s!"unknown_flow:{target}" e)
    | .ok flow =>
        match jumpNode flow target jump.node with
        | .error e => return .error e
        | .ok node =>
            if jump.maxRedirects.getD 3 ≤ redirects then return .error (.terminal "redirect_limit")
            else return .ok ⟨flow, target, node, redirects + 1⟩

/-- `apply_jump`. -/
def applyJump (packId : String) (redirects : Nat) (jump : JumpControl) :
    Turn (Except FlowError Cursor) :=
  jumpTo packId redirects jump (trimmed jump.flow)

/-- What follows a node: the run ends, waits, or goes on. -/
def follow (packId : String) (depth : Nat) (cur : Cursor) (node : HostNode) (output : NodeOutput)
    (control : NodeControl) : Turn (Except FlowError (FlowStatus ⊕ Cursor)) := do
  let parked (next : String) : FlowStatus := .waiting ⟨packId, cur.flowId, none, next⟩
  match ← Prog.perform (FlowOp.varsOut depth cur.node) with
  | .error e => return .error e
  | .ok () =>
      match control with
      | .continues =>
          match ← route depth cur.node output node.routing with
          | .next n => return .ok (.inr { cur with node := n })
          | .ends => return .ok (.inl .completed)
          | .wait => return .ok (.inl (parked cur.node))
      | .wait =>
          match ← route depth cur.node output node.routing with
          | .next n => return .ok (.inl (parked n))
          | _ => return .error (.plain
              s!"session.wait node {cur.node} requires a non-empty route")
      | .loopHere => return .ok (.inl (parked cur.node))
      | .awaitHere => return .ok (.inl (parked cur.node))
      | .jump jump =>
          match ← applyJump packId cur.redirects jump with
          | .error e => return .error e
          | .ok cur => return .ok (.inr cur)
      | .respond => return .ok (.inl .completed)

/-- `dispatch_node`: a nested run, or what the outside does. -/
def dispatchNode (depth : Nat) (call : Json → Turn (Except FlowError NodeOutput)) (node : String)
    (kind : NodeKind) (payload : Json) : Turn (Except FlowError (NodeOutput × NodeControl)) :=
  match kind with
  | .flowCall => do
      match ← call payload with
      | .error e => return .error e
      | .ok output => return .ok (output, .continues)
  | kind => Prog.perform (FlowOp.dispatch depth node kind payload)

/-- The loop of `drive_flow_tracked`, with the flag it leaves behind on both ways out. -/
def driveLoop (packId : String) (depth : Nat) (call : Json → Turn (Except FlowError NodeOutput)) :
    Nat → Cursor → Bool → Turn (Except FlowError FlowStatus × Bool)
  | 0, cur, effects => .ret (.error (.terminal
      s!"flow_step_limit_exceeded: flow `{cur.flow.id}` ran more than {maxStepsPerTurn} nodes in one turn (routing cycle?)"),
      effects)
  | fuel + 1, cur, effects =>
      match cur.flow.node? cur.node with
      | none => .ret (.error (.plain s!"node {cur.node} not found"), effects)
      | some node => do
          match ← Prog.perform (FlowOp.render depth cur.node) with
          | .error e => return (.error (.context "failed to render node input template" e), effects)
          | .ok payload =>
              match ← dispatchNode depth call cur.node node.kind payload with
              | .error e =>
                  -- A failure proven to precede every effect leaves the flag alone.
                  return (.error e, effects ||
                    (node.kind.mayHavePartialEffectOnFailure && !e.isPreEffect))
              | .ok (output, control) =>
                  let effects := effects || node.kind.performsExternalEffect
                  match ← follow packId depth cur node output control with
                  | .error e => return (.error e, effects)
                  | .ok (.inl status) => return (.ok status, effects)
                  | .ok (.inr next) => driveLoop packId depth call fuel next effects

/-- The flow id in the payload of a `flow.call`, an object or an array of its fields. -/
def flowCallPayload (payload : Json) : Except FlowError String :=
  let invalid : FlowError := .context "invalid payload for flow.call node" (.plain "invalid")
  let flowId : Except FlowError String := match payload with
    | .obj _ =>
        match payload.get? "flow_id", payload.get? "flow" with
        | some (.str id), none => .ok id
        | none, some (.str id) => .ok id
        | _, _ => .error invalid
    | .arr [.str id] => .ok id
    | .arr [.str id, _] => .ok id
    | _ => .error invalid
  match flowId with
  | .error e => .error e
  | .ok id =>
      if trimmed id = "" then .error (.terminal "flow.call requires a non-empty flow_id")
      else .ok id

/-- `execute_flow_call`; `run` is absent at the deepest level. -/
def flowCall (depth : Nat) (run : Option (String → Turn (Except FlowError FlowStatus)))
    (payload : Json) : Turn (Except FlowError NodeOutput) :=
  match flowCallPayload payload, run with
  | .error e, _ => .ret (.error e)
  | .ok flowId, none => .ret (.error (.terminal
      s!"flow.call nesting exceeds {maxFlowCallDepth} levels (calling {flowId})"))
  | .ok flowId, some run => do
      match ← run flowId with
      | .error e => return .error (.context s!"flow.call failed for {flowId}" e)
      | .ok .completed =>
          let output ← Prog.perform (FlowOp.collect depth flowId)
          return .ok output
      | .ok (.waiting _) =>
          Prog.perform (FlowOp.paused (depth + 1) flowId)
          return .error (.terminal s!"flow.call cannot pause (flow {flowId} waiting)")

/-- `execute_once`. -/
def executeOnce (packId flowId : String)
    (drive : HostFlow → String → Turn (Except FlowError FlowStatus)) :
    Turn (Except FlowError FlowStatus) := do
  match ← Prog.perform (FlowOp.load packId flowId) with
  | .error e => return .error e
  | .ok flow =>
      if flow.missingVars.isEmpty then drive flow flowId
      else
        let names := ", ".intercalate flow.missingVars
        return .error (.terminal s!"required flow variable not provided: {names}")

/-- The loop of `execute_with_options`, with the attempts that are left. -/
def executeLoop (depth : Nat) (once : Turn (Except FlowError FlowStatus)) :
    Nat → Nat → Turn (Except FlowError FlowStatus)
  | 0, n => do
      Prog.perform (FlowOp.attempt depth n)
      once
  | more + 1, n => do
      Prog.perform (FlowOp.attempt depth n)
      match ← once with
      | .ok status => return .ok status
      | .error e => if e.shouldRetry then executeLoop depth once more (n + 1) else return .error e

/-- `drive_flow`: a failure is made terminal once a node of the run performed an effect. -/
def driveWith (packId : String) (depth : Nat)
    (run : Option (String → Turn (Except FlowError FlowStatus))) (from? : Option String)
    (flow : HostFlow) (flowId : String) : Turn (Except FlowError FlowStatus) :=
  match from?.or flow.entry? with
  | none => .ret (.error (.terminal s!"flow {flow.id} has no start node"))
  | some node => do
      let (res, effects) ← driveLoop packId depth (flowCall depth run) maxStepsPerTurn
        ⟨flow, flowId, node, 0⟩ false
      match res with
      | .ok status => return .ok status
      | .error e => return .error (terminalAfterEffects e effects)

/-- `drive_flow` with the levels of `flow.call` that are left; a nested run has one attempt. -/
def driveFlow (packId : String) : Nat → Nat → Option String → HostFlow → String →
    Turn (Except FlowError FlowStatus)
  | 0, depth => driveWith packId depth none
  | left + 1, depth => driveWith packId depth (some fun flowId =>
      executeLoop (depth + 1) (executeOnce packId flowId (driveFlow packId left (depth + 1) none))
        0 1)

/-! ## Messages -/

/-- A message: the flow and the entry node it names, and the attempts of the two loops beyond
    the first. -/
structure FlowMessage where
  flowId : String
  entryNode : Option String
  flowRetries : Nat
  turnRetries : Nat

/-- The entry node of a message is a node of its flow. -/
def checkEntry (msg : FlowMessage) (packId : String) : Turn (Except FlowError Unit) :=
  match msg.entryNode with
  | none => .ret (.ok ())
  | some node => do
      match ← Prog.perform (FlowOp.load packId msg.flowId) with
      | .error e => return .error e
      | .ok flow =>
          if (flow.node? node).isSome then return .ok ()
          else return .error (.terminal s!"flow {msg.flowId} has no node `{node}`")

/-- A fresh run; a failure is rendered, so the run counts as completed. -/
def executeSurfacing (msg : FlowMessage) (packId : String) : Turn (Except FlowError FlowStatus) := do
  match ← checkEntry msg packId with
  | .error e => return .error e
  | .ok () =>
      let drive := driveFlow packId maxFlowCallDepth 0 msg.entryNode
      match ← executeLoop 0 (executeOnce packId msg.flowId drive) msg.flowRetries 1 with
      | .ok status => return .ok status
      | .error _ => return .ok .completed

/-- `resume_surfacing_failures`: a failure after effects is rendered. -/
def resumeSurfacing (snapshot : ParkedFlow) : Turn (Except FlowError FlowStatus) := do
  let flowId := snapshot.nextFlow.getD snapshot.flowId
  match ← Prog.perform (FlowOp.load snapshot.packId flowId) with
  | .error e => return .error e
  | .ok flow =>
      match ← driveFlow snapshot.packId maxFlowCallDepth 0 (some snapshot.nextNode) flow flowId with
      | .ok status => return .ok status
      | .error e => if e.isAfterEffects then return .ok .completed else return .error e

/-- `classify_flow_error`. -/
def classifyFlowError (e : FlowError) : RunnerError :=
  if e.isTerminal then .flowTerminal e.chainText else .adapterCall e.chainText

/-- The run of a message: of the parked flow, or a fresh one. -/
def runMessage (msg : FlowMessage) (packId : String) :
    Option (Nat × ParkedFlow) → Turn (Except FlowError FlowStatus)
  | some (_, snapshot) => resumeSurfacing snapshot
  | none => executeSurfacing msg packId

/-- `call_traced_unlocked`; the writes of the resume store succeed. -/
def callTracedUnlocked (msg : FlowMessage) : Turn (Except RunnerError Unit) := do
  match ← Prog.perform FlowOp.fetch with
  | .error e => return .error e
  | .ok parked =>
      match ← Prog.perform FlowOp.resolve with
      | .error e => return .error e
      | .ok packId =>
          match ← runMessage msg packId parked with
          | .error e => return .error (classifyFlowError e)
          | .ok .completed =>
              Prog.perform FlowOp.clear
              return .ok ()
          | .ok (.waiting snapshot) =>
              Prog.perform (FlowOp.save snapshot)
              return .ok ()

/-- `retry_with_jitter` around the adapter call, with the attempts that are left. -/
def retryTurns (msg : FlowMessage) : Nat → Nat → Turn (Except RunnerError Unit)
  | 0, n => do
      Prog.perform (FlowOp.turn n)
      callTracedUnlocked msg
  | more + 1, n => do
      Prog.perform (FlowOp.turn n)
      match ← callTracedUnlocked msg with
      | .ok () => return .ok ()
      | .error e => if e.isTerminal then return .error e else retryTurns msg more (n + 1)

def handleMessage (msg : FlowMessage) : Turn (Except RunnerError Unit) :=
  retryTurns msg msg.turnRetries 1

end Greentic.Drive
