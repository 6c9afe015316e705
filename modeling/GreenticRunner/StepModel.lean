import GreenticRunner.FinMap
import GreenticRunner.Json
import GreenticRunner.ResumptionLogic

/-! # The flow state machine of the runner host

    `engine/state_machine.rs`, `engine/host.rs`, `engine/policy.rs` and the two
    in-memory hosts of `engine/shims`.  One `step` loads the session, works on a
    private copy of it and writes the state host and the session host at its end;
    every host operation, telemetry event and adapter call is one atomic operation.

    * `step`, `runSteps`, `executeAdapterStep`, `retryWithJitter` — the program;
    * `Hosts`, `exec` — `InMemorySessionHost` and `InMemoryStateHost` over a clock;
    * `StepMemory` — a ghost of what one step has loaded, called and written.

    The turn lock around an adapter call only removes interleavings and is left
    out. -/

namespace Greentic.Engine

open FinMaps Resumption

/-! ## Sessions -/

/-- The identity of a session. -/
structure SessionKey where
  tenantKey : String
  packId : String
  flowId : String
  sessionHint : Option String
  deriving DecidableEq

/-- The part of a tenant context the step reads. -/
structure TenantCtx where
  env : String
  tenant : String
  traceId : Option String

namespace SessionKey

/-- `SessionKey::new`. -/
def new (tenant : TenantCtx) (packId flowId : String) (sessionHint : Option String) : SessionKey :=
  ⟨s!"{tenant.env}::{tenant.tenant}", packId, flowId, sessionHint⟩

/-- `stable_session_id`. -/
def stableSessionId (key : SessionKey) : Option String := key.sessionHint

/-- `InMemoryStateHost::key_of`: the hint is not part of it. -/
def keyOf (key : SessionKey) : String := s!"{key.tenantKey}:{key.packId}:{key.flowId}"

end SessionKey

/-- Position in the flow and in the outbox. -/
structure SessionCursor where
  position : Nat
  outboxSeq : Nat

/-- The key of an outbox entry. -/
structure OutboxKey where
  seq : Nat
  hash : String
  deriving DecidableEq

/-- A recorded adapter response. -/
structure SessionOutboxEntry where
  seq : Nat
  hash : String
  response : Json

/-- A session that waits for input; the time of the wait is never read. -/
structure WaitState where
  reason : String

/-- What a session host stores. -/
structure SessionSnapshot where
  key : SessionKey
  sessionId : String
  revision : Nat
  cursor : SessionCursor
  state : Json
  outbox : FinMap OutboxKey SessionOutboxEntry
  waiting : Option WaitState
  lastOutcome : Option Json
  ttl : Nat

/-- `SessionSnapshot::new`; the TTL is an hour, in nanoseconds. -/
def SessionSnapshot.new (key : SessionKey) (sessionId : String) : SessionSnapshot :=
  ⟨key, sessionId, 0, ⟨0, 0⟩, .obj [], .empty, none, none, 3600 * 10 ^ 9⟩

/-- `revision == 0 && outbox.is_empty()`. -/
def SessionSnapshot.isNew (s : SessionSnapshot) : Bool :=
  s.revision == 0 && s.outbox.keys.card == 0

/-- `u64::saturating_add(1)`. -/
def saturatingSucc (n : Nat) : Nat := min (n + 1) (2 ^ 64 - 1)

/-! ## Flows, policy, errors -/

/-- A call of a registered adapter. -/
structure AdapterCall where
  adapter : String
  operation : String
  payload : Json

/-- One step of a flow. -/
inductive FlowStep where
  | adapter (call : AdapterCall)
  | awaitInput (reason : String)
  | complete (outcome : Json)

/-- A registered flow, under its pack and its id. -/
structure FlowDefinition where
  packId : String
  id : String
  steps : List FlowStep

/-- The limits of a state machine. -/
structure Policy where
  maxAttempts : Nat
  maxEgressAdapters : Nat
  maxPayloadBytes : Nat

/-- `Policy::default`. -/
def Policy.default : Policy := ⟨5, 32, 512 * 1024⟩

/-- Errors of the runner stack. -/
inductive RunnerError where
  | flowNotFound (flowId : String)
  | adapterMissing (adapter : String)
  | adapterCall (reason : String)
  | session (reason : String)
  | state (reason : String)
  | policy (reason : String)
  | telemetry (reason : String)
  | secrets (reason : String)
  | serialization (reason : String)
  | postEffectPersistence (reason : String)
  | flowTerminal (reason : String)
  deriving DecidableEq

namespace RunnerError

/-- `is_terminal`: re-running the same adapter call is pointless or unsafe. -/
def isTerminal : RunnerError → Bool
  | .postEffectPersistence _ | .flowTerminal _ => true
  | _ => false

/-- The message of a `RunnerError`. -/
def display : RunnerError → String
  | .flowNotFound flowId => s!"flow '{flowId}' not registered"
  | .adapterMissing adapter => s!"adapter '{adapter}' not registered"
  | .adapterCall reason => s!"adapter call failed: {reason}"
  | .session reason => s!"session error: {reason}"
  | .state reason => s!"state error: {reason}"
  | .policy reason => s!"policy violation: {reason}"
  | .telemetry reason => s!"telemetry error: {reason}"
  | .secrets reason => s!"secret error: {reason}"
  | .serialization reason => s!"serialization error: {reason}"
  | .postEffectPersistence reason => s!"persisting flow state after execution failed: {reason}"
  | .flowTerminal reason => s!"adapter call failed: {reason}"

end RunnerError

/-- A `StateMachine` without its hosts; `sha256Hex` is the digest of the `sha2`
    crate, printed in hexadecimal. -/
structure StateMachine where
  flows : List FlowDefinition
  adapters : List String
  policy : Policy
  sha256Hex : List UInt8 → String

/-- The flow registered last under a pack and an id. -/
def StateMachine.flow (sm : StateMachine) (packId flowId : String) : Option FlowDefinition :=
  sm.flows.reverse.find? fun f => f.packId == packId && f.id == flowId

/-! ## Operations -/

/-- The span a telemetry event belongs to. -/
structure SpanContext where
  traceId : Option String
  spanId : Option String

/-- The atomic operations; `seq` is the outbox position an adapter is called for
    (it is not passed to the adapter). -/
inductive Op where
  | get (key : SessionKey)
  | put (snapshot : SessionSnapshot)
  | updateCas (snapshot : SessionSnapshot) (expectedRevision : Nat)
  | setJson (key : SessionKey) (value : Json)
  | emit (span : SpanContext) (fields : List (String × String))
  | callAdapter (seq : Nat) (call : AdapterCall)
  | generateSessionId

/-- Per-node outputs, in key order. -/
abbrev NodeOutputs : Type := List (String × Json)

/-- The answer of each operation. -/
@[reducible] def Op.Res : Op → Type
  | .get _ => Except RunnerError (Option SessionSnapshot)
  | .put _ => Except RunnerError Unit
  | .updateCas _ _ => Except RunnerError Bool
  | .setJson _ _ => Except RunnerError Unit
  | .emit _ _ => Except RunnerError Unit
  | .callAdapter _ _ => Except RunnerError (Json × NodeOutputs)
  | .generateSessionId => String

/-- A part of a step. -/
abbrev Exec (α : Type) : Type := Prog Op Op.Res RunnerError α

/-! ## The step -/

/-- `PAYLOAD_FROM_LAST_INPUT`. -/
def payloadFromLastInput : String := "$ingress"

/-- `{"status": "done", "response": response}`. -/
def doneOutcome (response : Json) : Json :=
  .obj [("response", response), ("status", .str "done")]

/-- The fields of the session state, an empty object when it is none. -/
def stateFields : Json → List (String × Json)
  | .obj fields => fields
  | _ => []

/-- `update_state_input`. -/
def updateStateInput (session : SessionSnapshot) (input : Json) : SessionSnapshot :=
  { session with state := .obj (Json.setField (stateFields session.state) "last_input" input) }

/-- `update_state_adapter`. -/
def updateStateAdapter (session : SessionSnapshot) (call : AdapterCall) (response : Json) :
    SessionSnapshot :=
  let fields := stateFields session.state
  let fields := Json.setField fields "last_adapter" (.str call.adapter)
  let fields := Json.setField fields "last_operation" (.str call.operation)
  { session with state := .obj (Json.setField fields "last_response" response) }

/-- `resolve_adapter_payload`. -/
def resolveAdapterPayload (callPayload : Json) (session : SessionSnapshot) : Json :=
  match callPayload with
  | .str token =>
      if token = payloadFromLastInput then
        match session.state with
        | .obj _ => (session.state.get? "last_input").getD .null
        | _ => .null
      else callPayload
  | other => other

/-- The eight bytes of a `u64`, most significant first. -/
def toBeBytes (n : Nat) : List UInt8 :=
  (List.range 8).map fun i => UInt8.ofNat (n / 256 ^ (7 - i))

/-- `stable_hash`. -/
def StateMachine.stableHash (sm : StateMachine) (seq : Nat) (payload : String) : String :=
  sm.sha256Hex (toBeBytes seq ++ payload.toUTF8.toList)

/-- The outbox key of a call at `seq` with the resolved payload. -/
def StateMachine.outboxKey (sm : StateMachine) (seq : Nat) (payload : Json) : OutboxKey :=
  ⟨seq, sm.stableHash seq payload.render⟩

/-- `ensure_policy_budget`. -/
def StateMachine.ensurePolicyBudget (sm : StateMachine) (flow : FlowDefinition) :
    Except RunnerError Unit :=
  if flow.steps.length > sm.policy.maxEgressAdapters then
    .error (.policy
      s!"flow has {flow.steps.length} steps exceeding budget {sm.policy.maxEgressAdapters}")
  else .ok ()

/-- `retry_with_jitter` around one adapter call; `left` more attempts may follow a
    failed one. -/
def retryWithJitter (seq : Nat) (call : AdapterCall) : Nat → Exec (Json × NodeOutputs)
  | 0 => do Prog.ofExcept (← Prog.perform (Op.callAdapter seq call))
  | left + 1 => do
      match ← Prog.perform (Op.callAdapter seq call) with
      | .ok value => return value
      | .error e => if e.isTerminal then .fail e else retryWithJitter seq call left

/-- The cursor after an adapter step. -/
def SessionCursor.advance (c : SessionCursor) : SessionCursor :=
  ⟨c.position + 1, saturatingSucc c.outboxSeq⟩

/-- The session after a recorded response was replayed. -/
def SessionSnapshot.replayed (s : SessionSnapshot) (response : Json) : SessionSnapshot :=
  { s with
    cursor := s.cursor.advance
    waiting := none
    lastOutcome := some (doneOutcome response) }

/-- The session after an adapter responded. -/
def SessionSnapshot.responded (s : SessionSnapshot) (key : OutboxKey) (call : AdapterCall)
    (response : Json) : SessionSnapshot :=
  let s' := { s with
    cursor := s.cursor.advance
    waiting := none
    outbox := s.outbox.insert key ⟨key.seq, key.hash, response⟩ }
  { updateStateAdapter s' call response with lastOutcome := some (doneOutcome response) }

/-- `execute_adapter_step`: the session after it, its outcome and node outputs. -/
def executeAdapterStep (sm : StateMachine) (flow : FlowDefinition) (tenant : TenantCtx)
    (session : SessionSnapshot) (call : AdapterCall) :
    Exec (SessionSnapshot × Json × NodeOutputs) := do
  if call.adapter ∉ sm.adapters then .fail (.adapterMissing call.adapter)
  else
    let resolvedPayload := resolveAdapterPayload call.payload session
    if resolvedPayload.render.utf8ByteSize > sm.policy.maxPayloadBytes then
      .fail (.policy s!"payload exceeds max size {sm.policy.maxPayloadBytes} bytes")
    else
      let seq := session.cursor.outboxSeq
      let key := sm.outboxKey seq resolvedPayload
      let span : SpanContext := ⟨tenant.traceId, some s!"{flow.id}:{seq}"⟩
      let fields := [("adapter", call.adapter), ("operation", call.operation)]
      match session.outbox.get? key with
      | some entry =>
          Prog.ofExcept (← Prog.perform (Op.emit span (fields ++ [("dedup", "hit")])))
          return (session.replayed entry.response, doneOutcome entry.response, [])
      | none =>
          Prog.ofExcept (← Prog.perform (Op.emit span (fields ++ [("phase", "start")])))
          let (response, flowNodes) ← retryWithJitter seq { call with payload := resolvedPayload }
            (sm.policy.maxAttempts - 1)
          let session := session.responded key call response
          Prog.ofExcept (← Prog.perform (Op.emit span (fields ++ [("phase", "finish")])))
          return (session, doneOutcome response, flowNodes)

/-- The outcome of a step that waits for input. -/
def pendingOutcome (reason : String) (lastOutcome : Option Json) : Json :=
  let pending := [("reason", Json.str reason), ("status", Json.str "pending")]
  match lastOutcome.bind (·.get? "response") with
  | some response => .obj (Json.setField pending "response" response)
  | none => .obj pending

/-- The loop of `step` over the steps from the cursor on. -/
def runSteps (sm : StateMachine) (flow : FlowDefinition) (tenant : TenantCtx) :
    List FlowStep → SessionSnapshot → NodeOutputs →
    Exec (SessionSnapshot × Json × NodeOutputs)
  | [], session, nodeOutputs =>
      return (session, session.lastOutcome.getD (.obj [("status", .str "done")]), nodeOutputs)
  | .adapter call :: rest, session, nodeOutputs => do
      let (session, outcome, flowNodes) ← executeAdapterStep sm flow tenant session call
      runSteps sm flow tenant rest { session with lastOutcome := some outcome }
        (flowNodes.foldl (fun m f => Json.setField m f.1 f.2) nodeOutputs)
  | .awaitInput reason :: _, session, nodeOutputs =>
      let pending := pendingOutcome reason session.lastOutcome
      return ({ session with waiting := some ⟨reason⟩, lastOutcome := some pending }, pending,
        nodeOutputs)
  | .complete outcome :: _, session, nodeOutputs =>
      let done := Json.obj [("result", outcome), ("status", .str "done")]
      return ({ session with
        cursor := { session.cursor with position := flow.steps.length }
        lastOutcome := some done }, done, nodeOutputs)

/-- A session that waited moves past the step it waited at. -/
def wake (flow : FlowDefinition) (session : SessionSnapshot) : SessionSnapshot :=
  match session.waiting with
  | none => session
  | some _ =>
      match flow.steps[session.cursor.position]? with
      | some (.awaitInput _) => { session with
          cursor := { session.cursor with position := session.cursor.position + 1 }
          waiting := none }
      | _ => { session with waiting := none }

/-- The session a step works on: the loaded one, or a new one. -/
def openSession (key : SessionKey) : Option SessionSnapshot → Exec SessionSnapshot
  | some snapshot => return snapshot
  | none => do
      match key.stableSessionId with
      | some id => return .new key id
      | none => return .new key (← Prog.perform Op.generateSessionId)

/-- The end of a step: the state host first, then the session host. -/
def commit (isNew : Bool) (expectedRevision : Nat) (session : SessionSnapshot) (outcome : Json)
    (nodeOutputs : NodeOutputs) : Exec (Json × NodeOutputs) := do
  Prog.ofExcept (← Prog.perform (Op.setJson session.key session.state))
  if isNew then
    Prog.ofExcept (← Prog.perform (Op.put session))
    return (outcome, nodeOutputs)
  else
    match ← Prog.perform (Op.updateCas session expectedRevision) with
    | .error e => .fail e
    | .ok false => .fail (.session "compare-and-swap failure")
    | .ok true => return (outcome, nodeOutputs)

/-- `StateMachine::step`. -/
def step (sm : StateMachine) (tenant : TenantCtx) (packId flowId : String)
    (sessionHint : Option String) (input : Json) : Exec (Json × NodeOutputs) := do
  match sm.flow packId flowId with
  | none => .fail (.flowNotFound flowId)
  | some flow =>
      Prog.ofExcept (sm.ensurePolicyBudget flow)
      let key := SessionKey.new tenant packId flowId sessionHint
      let found ← Prog.ofExcept (← Prog.perform (Op.get key))
      let session ← openSession key found
      let isNew := session.isNew
      let expectedRevision := session.revision
      let session := wake flow (updateStateInput session input)
      let (session, outcome, nodeOutputs) ← runSteps sm flow tenant
        (flow.steps.drop session.cursor.position) session []
      commit isNew expectedRevision session outcome nodeOutputs

/-! ## The ghost of a step -/

/-- An adapter call that returned: its outbox position, its resolved payload and
    the response. -/
structure Response where
  seq : Nat
  payload : Json
  response : Json

/-- A ghost of one step: what it loaded, the adapter calls that returned, the state
    it wrote, whether it committed, and its operations. -/
structure StepMemory where
  loaded : Option (Option SessionSnapshot)
  called : List Response
  stateSet : Option Json
  committed : Bool
  history : List (Event Op Op.Res)

/-- The memory a step starts with. -/
def StepMemory.fresh : StepMemory := ⟨none, [], none, false, []⟩

/-- The ghost after an operation. -/
def StepMemory.remember (m : StepMemory) (i : Op) (r : i.Res) : StepMemory :=
  let m := { m with history := m.history ++ [⟨i, r⟩] }
  match i, r with
  | .get _, .ok found => { m with loaded := some found }
  | .callAdapter seq call, .ok v => { m with called := m.called ++ [⟨seq, call.payload, v.1⟩] }
  | .setJson _ value, .ok () => { m with stateSet := some value }
  | .put _, .ok () => { m with committed := true }
  | .updateCas _ _, .ok true => { m with committed := true }
  | _, _ => m

/-- The adapter calls of a step, returned or not: outbox position and payload. -/
def StepMemory.invoked (m : StepMemory) : List (Nat × Json) :=
  m.history.filterMap fun ev => match ev.1 with
    | .callAdapter seq call => some (seq, call.payload)
    | _ => none

section Remember

variable (m : StepMemory)

/-- A read of the session is what the step has loaded. -/
@[simp] theorem StepMemory.remember_get (key : SessionKey) (found : Option SessionSnapshot) :
    m.remember (.get key) (.ok found) =
      { m with history := m.history ++ [⟨.get key, .ok found⟩], loaded := some found } := rfl

/-- A session that was put commits the step. -/
@[simp] theorem StepMemory.remember_put (session : SessionSnapshot) :
    m.remember (.put session) (.ok ()) =
      { m with history := m.history ++ [⟨.put session, .ok ()⟩], committed := true } := rfl

@[simp] theorem StepMemory.remember_updateCas (session : SessionSnapshot) (expected : Nat)
    (b : Bool) : m.remember (.updateCas session expected) (.ok b) =
      { m with
        history := m.history ++ [⟨.updateCas session expected, .ok b⟩]
        committed := m.committed || b } := by
  cases b
  · show { m with history := _ } = _
    rw [Bool.or_false]
  · show { m with history := _, committed := true } = _
    rw [Bool.or_true]

/-- The state the step has written. -/
@[simp] theorem StepMemory.remember_setJson (key : SessionKey) (value : Json) :
    m.remember (.setJson key value) (.ok ()) =
      { m with history := m.history ++ [⟨.setJson key value, .ok ()⟩], stateSet := some value } :=
  rfl

/-- A span is noted and changes nothing else. -/
@[simp] theorem StepMemory.remember_emit (span : SpanContext) (fields : List (String × String))
    (r : Except RunnerError Unit) : m.remember (.emit span fields) r =
      { m with history := m.history ++ [⟨.emit span fields, r⟩] } := rfl

@[simp] theorem StepMemory.remember_generateSessionId (id : String) :
    m.remember .generateSessionId id =
      { m with history := m.history ++ [⟨.generateSessionId, id⟩] } := rfl

@[simp] theorem StepMemory.remember_callAdapter_ok (seq : Nat) (call : AdapterCall)
    (v : Json × NodeOutputs) : m.remember (.callAdapter seq call) (.ok v) =
      { m with
        history := m.history ++ [⟨.callAdapter seq call, .ok v⟩]
        called := m.called ++ [⟨seq, call.payload, v.1⟩] } := rfl

/-- A failed adapter call has no result to remember. -/
@[simp] theorem StepMemory.remember_callAdapter_error (seq : Nat) (call : AdapterCall)
    (e : RunnerError) : m.remember (.callAdapter seq call) (.error e) =
      { m with history := m.history ++ [⟨.callAdapter seq call, .error e⟩] } := rfl

end Remember

/-! ## The in-memory hosts -/

/-- An entry of `InMemorySessionHost`. -/
structure SessionEntry where
  snapshot : SessionSnapshot
  cas : Nat
  expiresAt : Nat

/-- What `get` returns of an entry. -/
def SessionEntry.loaded (e : SessionEntry) : SessionSnapshot := { e.snapshot with revision := e.cas }

/-- A snapshot that reached the session host, and what the step that wrote it had
    loaded. -/
structure Commit where
  base : Option SessionSnapshot
  snapshot : SessionSnapshot

/-- Both hosts, over a clock.  Ghosts: the commits in order, and how many steps are
    between their state write and their commit. -/
structure Hosts where
  sessions : SessionKey → Option SessionEntry
  states : String → Option Json
  clock : Nat
  commits : List Commit
  writing : Nat

/-- Hosts nobody has used. -/
def Hosts.empty : Hosts := ⟨fun _ => none, fun _ => none, 0, [], 0⟩

/-- The hosts and the ghost of one step. -/
abbrev World : Type := Hosts × StepMemory

/-- The entry `get` finds at time `t`; an expired one is gone. -/
def Hosts.live (h : Hosts) (t : Nat) (key : SessionKey) : Option SessionEntry :=
  (h.sessions key).filter fun e => !(e.expiresAt < t)

/-- The entry `put` stores at time `t`. -/
def putEntry (t : Nat) (snapshot : SessionSnapshot) : SessionEntry :=
  ⟨{ snapshot with revision := 0 }, 0, t + snapshot.ttl⟩

/-- The entry a successful `update_cas` stores at time `t`. -/
def casEntry (t : Nat) (snapshot : SessionSnapshot) (expectedRevision : Nat) : SessionEntry :=
  ⟨{ snapshot with revision := saturatingSucc expectedRevision }, saturatingSucc expectedRevision,
    t + snapshot.ttl⟩

/-- `update_cas` finds the revision it expects. -/
def Hosts.casOk (h : Hosts) (snapshot : SessionSnapshot) (expectedRevision : Nat) : Bool :=
  match h.sessions snapshot.key with
  | some e => e.cas == expectedRevision
  | none => false

/-- The hosts after a commit of `entry` by a step that loaded `base`. -/
def Hosts.store (h : Hosts) (base : Option SessionSnapshot) (entry : SessionEntry) : Hosts :=
  { h with
    sessions := Function.update h.sessions entry.snapshot.key (some entry)
    commits := h.commits ++ [⟨base, entry.snapshot⟩] }

/-- The answers an operation may get at time `t`; telemetry and adapters answer
    anything. -/
def answers (t : Nat) (s : World) : (i : Op) → i.Res → Prop
  | .get key, r => r = .ok ((s.1.live t key).map SessionEntry.loaded)
  | .put _, r => r = .ok ()
  | .updateCas snapshot expected, r => r = .ok (s.1.casOk snapshot expected)
  | .setJson _ _, r => r = .ok ()
  | .emit _ _, _ => True
  | .callAdapter _ _, _ => True
  | .generateSessionId, _ => True

/-- What an operation does to the hosts at time `t`. -/
def effect (t : Nat) (s : World) : Op → Hosts
  | .get key => { s.1 with sessions := Function.update s.1.sessions key (s.1.live t key) }
  | .put snapshot =>
      { s.1.store (s.2.loaded.getD none) (putEntry t snapshot) with writing := s.1.writing - 1 }
  | .updateCas snapshot expected =>
      let h := if s.1.casOk snapshot expected then
          s.1.store (s.2.loaded.getD none) (casEntry t snapshot expected)
        else s.1
      { h with writing := h.writing - 1 }
  | .setJson key value => { s.1 with
      states := Function.update s.1.states key.keyOf (some value)
      writing := s.1.writing + 1 }
  | _ => s.1

/-- One atomic operation, at some moment `t` with `C t`. -/
def execAt (C : Nat → World → Op → Prop) (i : Op) (s : World) (r : i.Res) (s' : World) : Prop :=
  ∃ t, s.1.clock ≤ t ∧ C t s i ∧ answers t s i r ∧
    s' = ({ effect t s i with clock := t }, s.2.remember i r)

/-- One atomic operation, at any moment. -/
def exec (i : Op) (s : World) (r : i.Res) (s' : World) : Prop :=
  execAt (fun _ _ _ => True) i s r s'

/-- A load at time `t` finds no expired entry. -/
def Kept (t : Nat) (s : World) (i : Op) : Prop :=
  ∀ key, i = .get key → s.1.live t key = s.1.sessions key

/-- The ghost remembers every operation. -/
theorem execAt_memory {C : Nat → World → Op → Prop} (i : Op) (s : World) (r : i.Res) (s' : World)
    (h : execAt C i s r s') : s'.2 = s.2.remember i r := by
  obtain ⟨t, -, -, -, rfl⟩ := h
  rfl

/-- The hosts answer at the time of the clock; telemetry succeeds and `adapter`
    answers the calls. -/
def handler (adapter : AdapterCall → Except RunnerError (Json × NodeOutputs)) :
    Handler Op Op.Res World
  | .get key, s => next s (.get key) (.ok ((s.1.live s.1.clock key).map SessionEntry.loaded))
  | .put session, s => next s (.put session) (.ok ())
  | .updateCas session expected, s =>
      next s (.updateCas session expected) (.ok (s.1.casOk session expected))
  | .setJson key value, s => next s (.setJson key value) (.ok ())
  | .emit span fields, s => next s (.emit span fields) (.ok ())
  | .callAdapter seq call, s => next s (.callAdapter seq call) (adapter call)
  | .generateSessionId, s => next s .generateSessionId "sess-0"
where
  /-- The answer and the world after it. -/
  next (s : World) (i : Op) (r : i.Res) : i.Res × World :=
    (r, effect s.1.clock s i, s.2.remember i r)

/-! ## Requests -/

/-- The arguments of one call of `step`. -/
structure Request where
  tenant : TenantCtx
  packId : String
  flowId : String
  sessionHint : Option String
  input : Json

/-- The session a request belongs to. -/
def Request.key (q : Request) : SessionKey :=
  SessionKey.new q.tenant q.packId q.flowId q.sessionHint

/-- A step as a thread. -/
abbrev StepThread : Type := Main Op Op.Res RunnerError Unit (Json × NodeOutputs)

/-- The call of `step`. -/
def Request.step (sm : StateMachine) (q : Request) : Exec (Json × NodeOutputs) :=
  Engine.step sm q.tenant q.packId q.flowId q.sessionHint q.input

end Greentic.Engine
