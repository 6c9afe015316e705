import GreenticRunner.ConversationModel
import GreenticRunner.KeyModel
import GreenticRunner.ResumptionLogic

/-! # The agent loop

    `loop.rs` of the agent runtime with the effectful part of `flow_suspend.rs`,
    `guardrail.rs` and `tools.rs`: one turn of an agent (`run_step`), from the
    configuration to the save of the conversation.

    * `runCall`, `runCalls` — one tool call and one batch of them;
    * `planActObserve` — the loop;
    * `runStep` — the turn.

    Prompts and tool schemas only reach the model, whose answers are arbitrary, and
    are left out; so are observers, metering, telemetry, run traces, memory
    ingestion and measured durations, which the turn never reads. -/

namespace Greentic.Aw

open Resumption

/-! ## Configuration -/

/-- `ToolRef`, by what the allow-list compares. -/
structure ToolRef where
  extensionId : String
  toolName : String
  deriving DecidableEq

/-- `GuardrailMode`. -/
inductive GuardrailMode where
  | enforce
  | monitor
  deriving DecidableEq

/-- `GuardrailRef`. -/
structure GuardrailRef where
  capId : String
  mode : GuardrailMode
  config : Json

/-- `AgentLimits`, by what the loop reads; the timeout is in nanoseconds. -/
structure AgentLimits where
  maxIter : Nat
  timeout : Nat
  maxHistoryTurns : Nat
  dailyTokenCapPerTenant : Option Nat

/-- `AgentLimits::default`. -/
def AgentLimits.default : AgentLimits := ⟨8, 60 * 10 ^ 9, 20, none⟩

/-- `AgentConfig`, by what the loop reads; the memory bindings are only tested for
    presence. -/
structure AgentConfig where
  tools : List ToolRef
  guardrails : List GuardrailRef
  limits : AgentLimits
  longTerm : Bool
  shortTerm : Bool
  conversational : Bool
  onTextWhileParked : ParkedTextPolicy
  openingMessage : Option String

/-- `AgentInput`. -/
structure AgentInput where
  text : String
  conversational : Bool
  resumePayload : Option Json
  attachments : List Json

/-- What a runtime is built with; `sha256` is the digest of the `sha2` crate. -/
structure AgentRuntime where
  longTermMemory : Bool
  shortTermMemory : Bool
  sha256 : List UInt8 → List UInt8

/-! ## Errors and outputs -/

/-- `StateError`. -/
inductive StateError where
  | redis (reason : String)
  | schemaIncompatible (found supported : Nat)
  | decode (reason : String)
  | lockTimeout (wait : Nat)
  | lockLost

/-- `ConfigError`. -/
inductive ConfigError where
  | agentNotFound (agentId : String)
  | misconfigured (reason : String)
  | internal (reason : String)

/-- `LlmError`. -/
inductive LlmError where
  | serviceUnavailable
  | badRequest (reason : String)
  | rateLimited (reason : String)
  | transport (reason : String)
  | decode (reason : String)

/-- `GuardrailDirection`. -/
inductive GuardrailDirection where
  | inbound
  | outbound
  deriving DecidableEq

/-- `GuardrailDenyInfo`. -/
structure GuardrailDenyInfo where
  code : String
  message : String
  details : Option String

/-- `AgentError`, as far as a step returns it. -/
inductive AgentError where
  | stateLoad (e : StateError)
  | stateUnavailable (e : StateError)
  | llmProviderUnavailable
  | llm (e : LlmError)
  | config (e : ConfigError)
  | tokenBudgetExceeded
  | creditBudgetExceeded
  | lockTimeout
  | lockLost
  | guardrailDenied (direction : GuardrailDirection) (info : GuardrailDenyInfo)

/-- `AgentError::from_state_error`. -/
def AgentError.fromStateError (error : StateError) : AgentError :=
  match error with
  | .redis _ => .stateUnavailable error
  | other => .stateLoad other

/-- `StepUsage`. -/
structure StepUsage where
  tokensIn : Nat
  tokensOut : Nat
  iterations : Nat

/-- `AgentOutput`. -/
structure AgentOutput where
  reply : String
  trail : List AgentStep
  terminatedBy : TerminationReason
  usage : StepUsage
  pendingPresentation : Option Json
  sideTurn : Bool

/-! ## Operations -/

/-- `ResolvedGuardrail`. -/
structure ResolvedGuardrail where
  extensionId : String
  capId : String
  mandatory : Bool
  mode : GuardrailMode
  config : Json

/-- `GuardrailInput`. -/
structure GuardrailInput where
  direction : GuardrailDirection
  content : String
  agentId : String
  sessionId : String
  tenantId : String
  envId : String
  context : Option String

/-- How the evaluation of one guardrail ended: a verdict, an error, or a panic of the
    blocking task the chain runs on. -/
inductive Evaluation where
  | accept
  | update (content : String)
  | deny (info : GuardrailDenyInfo)
  | error (reason : String)
  | panic

/-- `LlmResponse`. -/
structure LlmResponse where
  content : Option String
  toolCalls : List ToolCallRecord
  tokensIn : Nat
  tokensOut : Nat

/-- How a call of the model ended within what was left of the step's time. -/
inductive Completion where
  | response (r : LlmResponse)
  | error (e : LlmError)
  | timedOut

/-- `FlowInvokeOutcome`. -/
inductive FlowInvokeOutcome where
  | completed (result : Json)
  | waiting (snapshot presentation : Json)

/-- How a dispatch ended: the remote references after it and its result (the text of
    its error; `none` when it outlasted the step). -/
structure Dispatched where
  a2a : Json
  result : Option (Except String Json)

/-- The atomic operations.  `ledgerGet` and `ledgerRecord` also name the call they are
    for, which the ledger is not told; `chain` marks the start of a guardrail chain
    run and has no effect. -/
inductive Op where
  | agentConfig (agentId : String)
  | tokensUsed
  | overBudget
  | acquireLock
  | load
  | save (state : ConversationState)
  | refresh
  | release
  | utcNow
  | elapsed
  | mandatoryGuardrails
  | capabilityRegistry
  | chain (direction : GuardrailDirection) (content : String)
  | evaluate (guardrail : ResolvedGuardrail) (input : GuardrailInput)
  | complete (history : List ChatMessage)
  | newUuid (seen : List String)
  | recallLongTerm (query : String) (limit : Nat)
  | remember (key value : String)
  | recall (key : String)
  | ledgerGet (call : ToolCallRecord) (id : String)
  | ledgerRecord (call : ToolCallRecord) (id : String) (result : Json)
  | dispatch (call : ToolCallRecord) (a2a : Json)
  | invokeFlow (flowRef : String) (call : ToolCallRecord)
  | resumeFlow (flowRef : String) (snapshot payload : Json)

/-- The answer of each operation; a flow call is answered `none` when no flow catalog
    is wired. -/
@[reducible] def Op.Res : Op → Type
  | .agentConfig _ => Except ConfigError AgentConfig
  | .tokensUsed => Except StateError Nat
  | .overBudget => Bool
  | .acquireLock => Except StateError Unit
  | .load => Except StateError ConversationState
  | .save _ => Except StateError Unit
  | .refresh => Except StateError Unit
  | .release => Unit
  | .utcNow => Int
  | .elapsed => Nat
  | .mandatoryGuardrails => Except String (List GuardrailRef)
  | .capabilityRegistry => String → Option String
  | .chain _ _ => Unit
  | .evaluate _ _ => Evaluation
  | .complete _ => Completion
  | .newUuid _ => String
  | .recallLongTerm _ _ => Except String Json
  | .remember _ _ => Except String Unit
  | .recall _ => Except String (Option String)
  | .ledgerGet _ _ => Except StateError (Option Json)
  | .ledgerRecord _ _ _ => Except StateError Unit
  | .dispatch _ _ => Dispatched
  | .invokeFlow _ _ => Option FlowInvokeOutcome
  | .resumeFlow _ _ _ => Option FlowInvokeOutcome

/-- A part of a turn. -/
abbrev Turn (α : Type) : Type := Prog Op Op.Res AgentError α

/-! ## Text -/

/-- `char::is_whitespace`. -/
def isWhitespace (c : Char) : Bool :=
  let n := c.toNat
  (9 ≤ n && n ≤ 13) || n == 0x20 || n == 0x85 || n == 0xA0 || n == 0x1680 ||
    (0x2000 ≤ n && n ≤ 0x200A) || n == 0x2028 || n == 0x2029 || n == 0x202F || n == 0x205F ||
    n == 0x3000

/-- `str::trim`, on characters. -/
def trim (s : List Char) : List Char :=
  ((s.dropWhile isWhitespace).reverse.dropWhile isWhitespace).reverse

/-- `str::strip_prefix("flow:")`. -/
def flowRef? (extensionId : String) : Option String :=
  match extensionId.toList with
  | 'f' :: 'l' :: 'o' :: 'w' :: ':' :: rest => some (String.ofList rest)
  | _ => none

/-! ## Guardrails -/

/-- `GuardrailRunCtx`. -/
structure GuardrailRunCtx where
  agentId : String
  sessionId : String
  tenantId : String
  envId : String

/-- `GuardrailObservation`; `blocked` is its action. -/
structure GuardrailObservation where
  capId : String
  extensionId : String
  direction : GuardrailDirection
  code : String
  blocked : Bool

/-- `ChainOutcome`. -/
inductive ChainOutcome where
  | pass (content : String) (observations : List GuardrailObservation)
  | denied (info : GuardrailDenyInfo) (direction : GuardrailDirection)
      (observation : GuardrailObservation)

/-- The denial of a guardrail that could not be evaluated. -/
def unavailable (details : Option Json) : GuardrailDenyInfo :=
  ⟨"internal", "A required guardrail is unavailable.", details.map (·.render)⟩

/-- `resolve_one`; `registry` is the capability registry of the extension runtime,
    from a capability id to the extension that offers it. -/
def resolveOne (registry : String → Option String) (isMandatory : Bool)
    (guardrail : GuardrailRef) : Option ResolvedGuardrail :=
  (registry guardrail.capId).map fun extensionId =>
    ⟨extensionId, guardrail.capId, isMandatory, guardrail.mode, guardrail.config⟩

/-- `assemble_chain`. -/
def assembleChain (registry : String → Option String) (mandatory agent : List GuardrailRef) :
    Except (List String) (List ResolvedGuardrail) :=
  let unresolved := mandatory.filter fun g => (resolveOne registry true g).isNone
  if unresolved.isEmpty then
    .ok (mandatory.filterMap (resolveOne registry true) ++
      agent.filterMap (resolveOne registry false))
  else .error (unresolved.map (·.capId))

/-- The input one guardrail is evaluated on. -/
def guardrailInput (ctx : GuardrailRunCtx) (direction : GuardrailDirection)
    (g : ResolvedGuardrail) (content : String) : GuardrailInput :=
  ⟨direction, content, ctx.agentId, ctx.sessionId, ctx.tenantId, ctx.envId,
    if g.config.isNull then none else some g.config.render⟩

/-- `run_chain`. -/
def runChain (ctx : GuardrailRunCtx) (direction : GuardrailDirection) :
    List ResolvedGuardrail → String → List GuardrailObservation → Turn ChainOutcome
  | [], content, observations => return .pass content observations
  | g :: rest, content, observations => do
      match ← Prog.perform (Op.evaluate g (guardrailInput ctx direction g content)) with
      | .accept => runChain ctx direction rest content observations
      | .update newContent => runChain ctx direction rest newContent observations
      | .deny info =>
          match g.mode with
          | .enforce =>
              return .denied info direction ⟨g.capId, g.extensionId, direction, info.code, true⟩
          | .monitor =>
              runChain ctx direction rest content
                (observations ++ [⟨g.capId, g.extensionId, direction, info.code, false⟩])
      | .error _ =>
          if g.mandatory then
            return .denied (unavailable none) direction
              ⟨g.capId, g.extensionId, direction, "internal", true⟩
          else runChain ctx direction rest content observations
      -- the blocking task failed: the chain fails closed
      | .panic =>
          return .denied (unavailable none) direction ⟨"", "", direction, "internal", true⟩

/-- `run_chain_blocking`, with a denial as the error the loop returns for it. -/
def runChainBlocking (ctx : GuardrailRunCtx) (chain : List ResolvedGuardrail)
    (direction : GuardrailDirection) (content : String) : Turn String := do
  Prog.perform (Op.chain direction content)
  match ← runChain ctx direction chain content [] with
  | .pass content _ => return content
  | .denied info direction _ => .fail (.guardrailDenied direction info)

/-- The guardrail chain of a step. -/
def guardrailChain (config : AgentConfig) : Turn (List ResolvedGuardrail) := do
  let registry ← Prog.perform Op.capabilityRegistry
  match ← Prog.perform Op.mandatoryGuardrails with
  | .error _ =>
      .fail (.guardrailDenied .inbound
        (unavailable (some (.obj [("policy_unavailable", .bool true)]))))
  | .ok mandatory =>
      match assembleChain registry mandatory config.guardrails with
      | .error unresolved =>
          .fail (.guardrailDenied .inbound (unavailable
            (some (.obj [("unresolved_mandatory", .arr (unresolved.map .str))]))))
      | .ok chain => return chain

/-! ## Tools -/

/-- `HOST_EXTENSION_ID`. -/
def hostExtensionId : String := "host"

/-- `END_CONVERSATION_TOOL`. -/
def endConversationTool : String := "end_conversation"

/-- `RECALL_MEMORY_TOOL`. -/
def recallMemoryTool : String := "recall_memory"

/-- `REMEMBER_TOOL`. -/
def rememberTool : String := "remember"

/-- `RECALL_TOOL`. -/
def recallTool : String := "recall"

/-- `MALFORMED_ARGS_KEY`. -/
def malformedArgsKey : String := "__malformed_arguments"

/-- `TOOL_LIMIT` of `long_term.rs`. -/
def toolLimit : Nat := 10

/-- `is_host_tool`. -/
def isHostTool (call : ToolCallRecord) (toolName : String) : Bool :=
  call.extensionId == hostExtensionId && call.toolName == toolName

/-- `is_tool_allowed`. -/
def isToolAllowed (call : ToolCallRecord) (allowed : List ToolRef) : Bool :=
  allowed.any fun t => t.extensionId == call.extensionId && t.toolName == call.toolName

/-- `ensure_unique_call_ids`; `seen` are the ids of the calls before. -/
def ensureUniqueCallIds : List String → List ToolCallRecord → Turn (List ToolCallRecord)
  | _, [] => return []
  | seen, call :: rest => do
      if (trim call.callId.toList).isEmpty || seen.contains call.callId then
        let id := "call_" ++ (← Prog.perform (Op.newUuid seen))
        let calls ← ensureUniqueCallIds (id :: seen) rest
        return { call with callId := id } :: calls
      else
        let calls ← ensureUniqueCallIds (call.callId :: seen) rest
        return call :: calls

/-- One byte in lowercase hexadecimal. -/
def hexByte (b : UInt8) : String :=
  String.ofList [Json.hexDigit (b.toNat / 16), Json.hexDigit (b.toNat % 16)]

/-- `ledger_call_id`. -/
def AgentRuntime.ledgerCallId (rt : AgentRuntime) (call : ToolCallRecord) : String :=
  let digest := rt.sha256 (call.extensionId.toUTF8.toList ++ [0x1f] ++
    call.toolName.toUTF8.toList ++ [0x1f] ++ call.args.render.toUTF8.toList)
  s!"{call.callId}:{String.join ((digest.take 8).map hexByte)}"

/-- A text argument of a call, empty when it is missing or no text. -/
def textArg (call : ToolCallRecord) (name : String) : String :=
  ((call.args.get? name).bind Json.asStr?).getD ""

/-- `Value::as_u64`, on the text of a number. -/
def asU64? : Json → Option Nat
  | .num text => text.toNat?.filter (· < 2 ^ 64)
  | _ => none

/-- `host_recall_memory`. -/
def hostRecallMemory (call : ToolCallRecord) : Turn Json := do
  let limit := ((call.args.get? "limit").bind asU64?).getD toolLimit
  match ← Prog.perform (Op.recallLongTerm (textArg call "query") limit) with
  | .ok facts => return .obj [("facts", facts)]
  | .error e => return errorValue e

/-- `host_remember`. -/
def hostRemember (call : ToolCallRecord) : Turn Json := do
  let key := textArg call "key"
  let value := textArg call "value"
  if key.isEmpty then return errorValue "missing 'key'"
  else if value.isEmpty then return errorValue "missing 'value'"
  else
    match ← Prog.perform (Op.remember key value) with
    | .ok _ => return .obj [("ok", .bool true)]
    | .error e => return errorValue e

/-- `host_recall`. -/
def hostRecall (call : ToolCallRecord) : Turn Json := do
  let key := textArg call "key"
  if key.isEmpty then return errorValue "missing 'key'"
  else
    match ← Prog.perform (Op.recall key) with
    | .ok (some value) => return .obj [("value", .str value)]
    | .ok none => return .obj [("value", .null)]
    | .error e => return errorValue e

/-! ## The state of a step -/

/-- What stays fixed in a step once its message was received. -/
structure StepEnv where
  rt : AgentRuntime
  config : AgentConfig
  ctx : GuardrailRunCtx
  chain : List ResolvedGuardrail
  convActive : Bool
  sidePending : Bool

/-- `long_term_active`. -/
def StepEnv.ltActive (x : StepEnv) : Bool := x.rt.longTermMemory && x.config.longTerm

/-- `short_term_active`. -/
def StepEnv.stActive (x : StepEnv) : Bool := x.rt.shortTermMemory && x.config.shortTerm

/-- The variables of the loop. -/
structure StepState where
  state : ConversationState
  trail : List AgentStep
  tokensIn : Nat
  tokensOut : Nat
  terminatedBy : TerminationReason
  iterations : Nat
  reply : String
  turnHadToolError : Bool
  suspension : Option Json
  stepTimedOut : Bool

/-- The state before the loop. -/
def StepState.start (state : ConversationState) (trail : List AgentStep) : StepState :=
  ⟨state, trail, 0, 0, .maxIterations, 0, "", false, none, false⟩

/-- The result of a call in the history. -/
def StepState.answer (l : StepState) (call : ToolCallRecord) (content : Json) : StepState :=
  { l with state := l.state.push (.tool call.callId content) }

/-- The trail of a call that ran or failed. -/
def StepState.record (l : StepState) (call : ToolCallRecord) (result : Json) : StepState :=
  { l with trail := l.trail ++ [.toolCall call.toolName call.callId call.args result] }

/-- A call that failed: its error is both its result and its trail. -/
def StepState.failed (l : StepState) (call : ToolCallRecord) (err : Json) : StepState :=
  { (l.answer call err).record call err with turnHadToolError := true }

/-- `refuse_behind_suspension`. -/
def StepState.refuseBehindSuspension (l : StepState) (call : ToolCallRecord) : StepState :=
  (l.answer call (errorValue behindSuspensionError)).record call
    (errorValue behindSuspensionError)

/-! ## One tool call -/

/-- A call that was dispatched and returned. -/
def settleCall (x : StepEnv) (l : StepState) (call : ToolCallRecord) (result : Json) :
    Turn StepState := do
  if isErrorResult result then
    return (l.answer call (capToolResult result)).record call result
  else
    let _ ← Prog.perform (Op.ledgerRecord call (x.rt.ledgerCallId call) result)
    return (l.answer call (capToolResult result)).record call result

/-- A flow tool that parked on the user; the result stays open under the cancel
    policy. -/
def parkCall (x : StepEnv) (l : StepState) (call : ToolCallRecord)
    (flowRef : String) (snapshot presentation : Json) : Turn StepState := do
  let expiry := PendingToolCall.expiryFrom (← Prog.perform Op.utcNow)
  let parkedAt ← Prog.perform Op.utcNow
  let pending : PendingToolCall :=
    ⟨call.callId, call.toolName, call.extensionId, call.args, flowRef, snapshot, l.iterations,
      expiry, some presentation, some parkedAt, 0, 0⟩
  let l := { l with state := { l.state with pendingTool := some pending } }
  let l := if x.config.onTextWhileParked = .sideTurn then l.answer call awaitingPlaceholder else l
  return { l with suspension := some presentation }

/-- `dispatch_flow_tool_interactive` and what the loop does with it. -/
def dispatchFlow (x : StepEnv) (l : StepState) (call : ToolCallRecord) (flowRef : String) :
    Turn StepState := do
  match ← Prog.perform (Op.invokeFlow flowRef call) with
  | none => settleCall x l call (errorValue s!"unknown flow tool '{flowRef}'")
  | some (.completed value) => settleCall x l call value
  | some (.waiting snapshot presentation) => parkCall x l call flowRef snapshot presentation

/-- The dispatch of a call of any other tool. -/
def dispatchTool (x : StepEnv) (l : StepState) (call : ToolCallRecord) : Turn StepState := do
  let d ← Prog.perform (Op.dispatch call l.state.a2a)
  let l := { l with state := { l.state with a2a := d.a2a } }
  match d.result with
  | some (.ok result) => settleCall x l call result
  | some (.error e) => return l.failed call (errorValue e)
  | none =>
      return { l with stepTimedOut := true }.failed call
        (errorValue "tool dispatch error: tool call exceeded the step timeout")

/-- The dispatch of a call. -/
def dispatchCall (x : StepEnv) (l : StepState) (call : ToolCallRecord) : Turn StepState :=
  match flowRef? call.extensionId with
  | some flowRef => dispatchFlow x l call flowRef
  | none => dispatchTool x l call

/-- An allowed call: a recorded result is reused. -/
def allowedCall (x : StepEnv) (l : StepState) (call : ToolCallRecord) : Turn StepState := do
  match ← Prog.perform (Op.ledgerGet call (x.rt.ledgerCallId call)) with
  | .ok (some cached) =>
      if isErrorResult cached then dispatchCall x l call
      else
        return { l.answer call (capToolResult cached) with
          trail := l.trail ++ [.toolCallReused call.toolName call.callId] }
  | .ok none => dispatchCall x l call
  | .error _ => dispatchCall x l call

/-- A call of a host built-in. -/
def hostCall (l : StepState) (call : ToolCallRecord) (run : Turn Json) : Turn StepState := do
  let result ← run
  return (l.answer call result).record call result

/-- The body of the loop over a batch of calls. -/
def runCall (x : StepEnv) (l : StepState) (call : ToolCallRecord) : Turn StepState :=
  if l.stepTimedOut then
    return l.answer call (errorValue "step timed out before this tool ran")
  else
    match call.args.get? malformedArgsKey with
    | some raw =>
        return l.failed call (.obj [
          ("error", .str ("tool arguments were not valid JSON; re-issue the call with a valid " ++
            "JSON object")),
          ("received", raw)])
    | none =>
        if l.suspension.isSome || (x.sidePending && (flowRef? call.extensionId).isSome) then
          return l.refuseBehindSuspension call
        else if x.ltActive && isHostTool call recallMemoryTool then
          hostCall l call (hostRecallMemory call)
        else if x.stActive && isHostTool call rememberTool then
          hostCall l call (hostRemember call)
        else if x.stActive && isHostTool call recallTool then
          hostCall l call (hostRecall call)
        else if isToolAllowed call x.config.tools then allowedCall x l call
        else
          return { l.answer call (errorValue "tool not allowed for this agent") with
            trail := l.trail ++ [.toolCallBlocked call.toolName "not in allow-list"]
            turnHadToolError := true }

/-- A batch of calls. -/
def runCalls (x : StepEnv) : List ToolCallRecord → StepState → Turn StepState
  | [], l => return l
  | call :: rest, l => do
      let l ← runCall x l call
      runCalls x rest l

/-! ## The loop -/

/-- `ensure_lock_held`. -/
def ensureLockHeld : Turn Unit := do
  match ← Prog.perform Op.refresh with
  | .ok _ => return ()
  | .error .lockLost => .fail .lockLost
  | .error _ => return ()

/-- The closing message of an `end_conversation` call. -/
def closingMessage (endCall : ToolCallRecord) (content : Option String) : String :=
  (((endCall.args.get? "final_message").bind Json.asStr?).filter fun s => !s.isEmpty).getD
    (content.getD "")

/-- The model ended the conversation; after a failed tool it stays open. -/
def endConversation (l : StepState) (endCall : ToolCallRecord) (content : Option String) :
    StepState :=
  { l.record endCall (.obj [("ok", .bool true)]) with
    reply := closingMessage endCall content
    terminatedBy := if l.turnHadToolError then .finalReply else .conversationEnded }

/-- A batch of calls and what follows it; the flag says whether the loop goes on. -/
def act (x : StepEnv) (l : StepState) (content : Option String) (calls : List ToolCallRecord) :
    Turn (StepState × Bool) := do
  let l ← runCalls x calls
    { l with state := l.state.push (.assistant (content.getD "") calls), stepTimedOut := false }
  if l.stepTimedOut then return ({ l with terminatedBy := .timeout }, false)
  else if l.suspension.isSome then
    return ({ l with reply := content.getD "", terminatedBy := .awaitingToolInput }, false)
  else return (l, true)

/-- What the loop does with a response of the model. -/
def respond (x : StepEnv) (l : StepState) (response : LlmResponse) :
    Turn (StepState × Bool) := do
  let l := { l with
    tokensIn := l.tokensIn + response.tokensIn
    tokensOut := l.tokensOut + response.tokensOut
    trail := l.trail ++ [.llmCall (response.content.getD "") response.tokensIn
      response.tokensOut] }
  if response.toolCalls.isEmpty then
    return ({ l with reply := response.content.getD "", terminatedBy := .finalReply }, false)
  else
    let calls ← ensureUniqueCallIds [] response.toolCalls
    match (if x.convActive then calls.find? (isHostTool · endConversationTool) else none) with
    | some endCall => return (endConversation l endCall response.content, false)
    | none => act x l response.content calls

/-- The state of a step as it is saved. -/
def StepState.bounded (x : StepEnv) (l : StepState) : ConversationState :=
  l.state.truncateHistory x.config.limits.maxHistoryTurns

/-- The history so far is saved unless the lock is gone. -/
def saveIfHeld (x : StepEnv) (l : StepState) : Turn Unit := do
  match ← Prog.perform Op.refresh with
  | .error .lockLost => return ()
  | _ =>
      let _ ← Prog.perform (Op.save (l.bounded x))
      return ()

/-- The model failed. -/
def llmFailed (x : StepEnv) (l : StepState) (e : LlmError) : Turn (StepState × Bool) := do
  saveIfHeld x l
  match e with
  | .serviceUnavailable => .fail .llmProviderUnavailable
  | other => .fail (.llm other)

/-- One round of the loop. -/
def iteration (x : StepEnv) (l : StepState) : Turn (StepState × Bool) := do
  ensureLockHeld
  if x.config.limits.timeout ≤ (← Prog.perform Op.elapsed) then
    return ({ l with terminatedBy := .timeout }, false)
  else
    let l := { l with state := l.bounded x }
    match ← Prog.perform (Op.complete l.state.messages) with
    | .timedOut => return ({ l with terminatedBy := .timeout }, false)
    | .error e => llmFailed x l e
    | .response response => respond x l response

/-- The loop over the iterations from `iter` on. -/
def planActObserve (x : StepEnv) : Nat → Nat → StepState → Turn StepState
  | 0, _, l => return l
  | n + 1, iter, l => do
      let (l, again) ← iteration x { l with iterations := iter + 1 }
      if again then planActObserve x n (iter + 1) l else return l

/-! ## The end of a step -/

/-- The end of a side turn, when the step is one. -/
def StepState.finishSideTurn (x : StepEnv) (l : StepState) : StepState × Bool :=
  if x.sidePending then
    let (state, terminatedBy, suspension, shown) :=
      l.state.finishSideTurn l.terminatedBy l.suspension
    ({ l with state, terminatedBy, suspension }, shown)
  else (l, false)

/-- The last save and the output. -/
def saveAndReturn (x : StepEnv) (l : StepState) (sideTurn : Bool) : Turn AgentOutput := do
  let state := l.bounded x
  ensureLockHeld
  let _ ← Prog.perform (Op.save state)
  return ⟨l.reply, l.trail, l.terminatedBy, ⟨l.tokensIn, l.tokensOut, l.iterations⟩,
    l.suspension, sideTurn⟩

/-- The end of a step with a final reply: the outbound chain, then the reply. -/
def finishReply (x : StepEnv) (l : StepState) : Turn AgentOutput := do
  let reply ← runChainBlocking x.ctx x.chain .outbound l.reply
  let (l, sideTurn) := l.finishSideTurn x
  saveAndReturn x { l with
    state := l.state.push (.assistant reply [])
    trail := l.trail ++ [.reply reply]
    reply := reply } sideTurn

/-- The end of a step. -/
def finish (x : StepEnv) (l : StepState) : Turn AgentOutput :=
  match l.terminatedBy with
  | .finalReply => finishReply x l
  | .conversationEnded => finishReply x l
  | _ =>
      let (l, sideTurn) := l.finishSideTurn x
      saveAndReturn x l sideTurn

/-! ## The resume of a parked flow -/

/-- The end of a resume that completed. -/
def resumeCompleted (l : StepState) (pending : PendingToolCall) (result : Json) :
    Turn StepState := do
  let _ ← Prog.perform (Op.ledgerRecord pending.call pending.callId result)
  return { l with
    state := l.state.patchToolResult pending.callId result
    trail := l.trail ++ [.toolCall pending.toolName pending.callId pending.args result] }

/-- The end of a resume that parked again. -/
def resumeWaiting (l : StepState) (pending : PendingToolCall) (snapshot presentation : Json) :
    Turn StepState := do
  let now ← Prog.perform Op.utcNow
  let pending := { pending with
    flowSnapshot := snapshot
    expiresAt := PendingToolCall.expiryFrom now
    presentation := some presentation
    sideTurns := 0 }
  return { l with
    state := { l.state with pendingTool := some pending }
    suspension := some presentation }

/-- `resume_pending`. -/
def resumePending (l : StepState) (pending : PendingToolCall) (payload : Json) :
    Turn StepState := do
  match ← Prog.perform (Op.resumeFlow pending.flowRef pending.flowSnapshot payload) with
  | none => resumeCompleted l pending (errorValue s!"unknown flow tool '{pending.flowRef}'")
  | some (.completed result) => resumeCompleted l pending result
  | some (.waiting snapshot presentation) => resumeWaiting l pending snapshot presentation

/-- `u32::saturating_add`. -/
def saturatingAdd32 (a b : Nat) : Nat := min (a + b) (2 ^ 32 - 1)

/-- Files sent with the answer: the resumed call announces them, or they wait on it. -/
def StepState.noteAttachments (l : StepState) (resumed : PendingToolCall) (count : Nat) :
    StepState :=
  match l.state.pendingTool, l.suspension with
  | some pending, some _ =>
      { l with state := { l.state with
          pendingTool := some { pending with
            unannouncedAttachments :=
              saturatingAdd32 pending.unannouncedAttachments (min count (2 ^ 32 - 1)) } } }
  | _, _ =>
      { l with
        state := l.state.announceUnreadAttachments resumed.callId
          (resumed.unannouncedAttachments + count) }

/-- The part of a step before the loop that resumes a parked flow. -/
def resumeStep (l : StepState) (pending : PendingToolCall) (payload : Json) (count : Nat) :
    Turn StepState := do
  let l ← resumePending { l with iterations := pending.iterationsUsed } pending payload
  let l := if l.suspension.isSome then { l with terminatedBy := .awaitingToolInput } else l
  return l.noteAttachments pending count

/-- The number of rounds of the loop. -/
def rounds (config : AgentConfig) (firstIter : Nat) (l : StepState) : Nat :=
  if l.suspension.isSome then 0
  else if 0 < firstIter then max config.limits.maxIter (saturatingAdd32 firstIter 1) - firstIter
  else config.limits.maxIter

/-! ## The turn -/

/-- The opening message of a first turn without text. -/
def opening? (config : AgentConfig) (message : AgentInput) (state : ConversationState) :
    Option String :=
  if state.messages.isEmpty && (trim message.text.toList).isEmpty then
    (config.openingMessage.map fun s => String.ofList (trim s.toList)).filter fun s => !s.isEmpty
  else none

/-- A step that resumes a parked flow. -/
def resumeTurn (x : StepEnv) (state : ConversationState) (pending : PendingToolCall)
    (payload : Json) (message : AgentInput) : Turn AgentOutput := do
  let l ← resumeStep (.start state []) pending payload message.attachments.length
  let l ← planActObserve x (rounds x.config pending.iterationsUsed l) pending.iterationsUsed l
  finish x l

/-- A step that answers a message: the inbound chain, then the loop. -/
def messageTurn (x : StepEnv) (state : ConversationState) (trail : List AgentStep)
    (message : AgentInput) : Turn AgentOutput := do
  let userText ← runChainBlocking x.ctx x.chain .inbound message.text
  let l := StepState.start (state.push (.user userText message.attachments)) trail
  let l ← planActObserve x (rounds x.config 0 l) 0 l
  finish x l

/-- A step once the parked call was dealt with. -/
def converseTaken (rt : AgentRuntime) (config : AgentConfig) (ctx : GuardrailRunCtx)
    (message : AgentInput) (state : ConversationState) (taken : Taken) : Turn AgentOutput := do
  let chain ← guardrailChain config
  let convActive := message.conversational || config.conversational
  match taken with
  | .nothing => messageTurn ⟨rt, config, ctx, chain, convActive, false⟩ state [] message
  | .resume pending payload =>
      resumeTurn ⟨rt, config, ctx, chain, convActive, false⟩ state pending payload message
  | .cancelled step => messageTurn ⟨rt, config, ctx, chain, convActive, false⟩ state [step] message
  | .side => messageTurn ⟨rt, config, ctx, chain, convActive, true⟩ state [] message

/-- A step after the opening message was ruled out. -/
def converse (rt : AgentRuntime) (config : AgentConfig) (ctx : GuardrailRunCtx)
    (message : AgentInput) (state : ConversationState) : Turn AgentOutput := do
  let now ← Prog.perform Op.utcNow
  let (state, taken) := state.takePending message.resumePayload now config.onTextWhileParked
  converseTaken rt config ctx message state taken

/-- The opening message as the reply of a step. -/
def openConversation (state : ConversationState) (opening : String) : Turn AgentOutput := do
  let _ ← Prog.perform (Op.save (state.push (.assistant opening [])))
  return ⟨opening, [], .finalReply, ⟨0, 0, 0⟩, none, false⟩

/-- A step while it holds the session lock. -/
def underLock (rt : AgentRuntime) (config : AgentConfig) (ctx : GuardrailRunCtx)
    (message : AgentInput) : Turn AgentOutput := do
  match ← Prog.perform Op.load with
  | .error e => .fail (.fromStateError e)
  | .ok state =>
      match opening? config message state with
      | some opening => openConversation state opening
      | none => converse rt config ctx message state

/-- The daily token cap. -/
def checkTokenCap (config : AgentConfig) : Turn Unit :=
  match config.limits.dailyTokenCapPerTenant with
  | none => return ()
  | some cap => do
      match ← Prog.perform Op.tokensUsed with
      | .error e => .fail (.stateLoad e)
      | .ok used => if cap ≤ used then .fail .tokenBudgetExceeded else return ()

/-- The budgets, checked before the lock is taken. -/
def checkBudgets (config : AgentConfig) : Turn Unit := do
  checkTokenCap config
  if ← Prog.perform Op.overBudget then .fail .creditBudgetExceeded else return ()

/-- The error of a lock that could not be taken. -/
def lockError : StateError → AgentError
  | .lockTimeout _ => .lockTimeout
  | other => .fromStateError other

/-- `run_step`: the lock is released on every way out. -/
def runStep (rt : AgentRuntime) (tenant : TenantContext) (sessionId agentId : String)
    (message : AgentInput) : Turn AgentOutput := do
  match ← Prog.perform (Op.agentConfig agentId) with
  | .error e => .fail (.config e)
  | .ok config =>
      checkBudgets config
      match ← Prog.perform Op.acquireLock with
      | .error e => .fail (lockError e)
      | .ok _ =>
          (underLock rt config ⟨agentId, sessionId, tenant.tenantId, tenant.envId⟩ message).ensure
            Op.release

end Greentic.Aw
