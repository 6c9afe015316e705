import GreenticRunner.GraphState
import GreenticRunner.Resumption

/-! # The durable graph executor

    `graph/executor.rs` as resumption programs: every store operation, every
    call of an injected closure and every access to the memory the branches of
    one call share is one atomic operation, so that a crash or another drive can
    fall between any two of them.

    * `runParallelRegion`, `resumeParallel`, `driveFrontier`, `driveBranch` —
      the parallel regions;
    * `visitEffect`, `resolveDecision`, `nextLinear`, `findJoinForParallel` — the
      helpers;
    * `exec` — what each operation does to the store and to the call's memory.

    The arms for agent, tool, router and supervisor nodes are the same in the
    trunk and in a branch up to the trail entry and one error text; they are
    written once (`visitAgent` … `visitSupervisor`) and called from both. -/

namespace Greentic

open FinMaps Resumption

/-! ## Requests, results, errors -/

/-- Request to the agent-turn closure. -/
structure AgentTurnRequest where
  nodeId : String
  systemPrompt : String
  model : String
  state : GraphRunState
  provider : Option String
  tools : List String
  agentRef : Option String
  inheritFrom : Option String

/-- Result of the agent-turn closure. -/
structure AgentTurnResult where
  reply : String
  resolved : Bool
  deriving DecidableEq

/-- Request to the tool closure. -/
structure ToolCallRequest where
  nodeId : String
  toolName : String
  state : GraphRunState

/-- Request to the supervisor closure. -/
structure SupervisorRequest where
  nodeId : String
  systemPrompt : String
  model : String
  routes : List SupervisorRoute
  state : GraphRunState
  provider : Option String
  agentRef : Option String

/-- Result of the supervisor closure. -/
structure SupervisorResult where
  branch : String
  rawReply : String
  deriving DecidableEq

/-- Request to the approval closure. -/
structure ApprovalRequest where
  runId : String
  nodeId : String
  tenant : String
  title : String
  mode : String
  riskThreshold : Option F64
  confidenceThreshold : Option F64
  deadlineMs : Option Nat
  state : GraphRunState

/-- Result of the approval closure. -/
inductive ApprovalOutcome where
  | awaiting
  | decided (branch : String)
  deriving DecidableEq

/-- Errors of `start` and `resume`. -/
inductive GraphExecError where
  | iterationCap (runId : String)
  | unknownNode (id : String)
  | unknownRun (id : String)
  | alreadyCompleted (id : String)
  | graph (e : GraphError)
  | checkpoint (e : CheckpointError)
  | agentTurn (message : String)
  | tool (message : String)
  | supervisor (message : String)
  deriving DecidableEq

/-- The message of a `GraphExecError`. -/
def GraphExecError.display : GraphExecError → String
  | .iterationCap runId => s!"graph run {runId} exceeded the node-visit cap"
  | .unknownNode id => s!"unknown node `{id}` (cursor corrupt or graph changed)"
  | .unknownRun id => s!"unknown run `{id}`"
  | .alreadyCompleted id => s!"run `{id}` already completed"
  | .graph e => e.display
  | .checkpoint e => e.display
  | .agentTurn m => s!"agent turn failed: {m}"
  | .tool m => s!"tool call failed: {m}"
  | .supervisor m => s!"supervisor routing failed: {m}"

/-- The final result of a drive. -/
structure GraphRunOutcome where
  status : RunStatus
  reply : String
  trail : List Json

/-- What one branch drive returns. -/
structure BranchOutcome where
  branch : String
  visits : Visits
  trail : List Json

/-- The run a call works on. -/
structure RunRef where
  tenantId : String
  runId : String

/-- `MAX_NODE_VISITS`. -/
def maxNodeVisits : Nat := 64

/-- The part of `FrontierCheckpoint` that never changes inside a region. -/
structure FrontierCheckpoint where
  runId : String
  graph : GraphConfig
  parallelNode : String
  trunkState : GraphRunState
  trunkVisits : Visits

/-! ## Operations -/

/-- Where a node is visited. -/
inductive Place where
  | trunk
  | branch (slot : Nat)
  deriving DecidableEq

/-- The atomic operations.  The closures' `attempt` is the visit they are called
    for (it is not passed to them); `visit` marks the head of a loop iteration
    and does nothing. -/
inductive Op where
  | load
  | save (rec : GraphRunRecord)
  | loadNodeVisit (nodeId : String) (attempt : Nat)
  | recordNodeVisit (nodeId : String) (attempt : Nat) (result : Json)
  | agentTurn (attempt : Nat) (req : AgentTurnRequest)
  | tool (attempt : Nat) (req : ToolCallRequest)
  | supervisor (attempt : Nat) (req : SupervisorRequest)
  | approval (attempt : Nat) (req : ApprovalRequest)
  | openFrontier (frontier : List BranchCursor)
  | checkpointFrontier (coord : FrontierCheckpoint)
  | seedVisits (n : Nat)
  | fetchAdd
  | saveSlot (coord : FrontierCheckpoint) (slot : Nat) (bc : BranchCursor)
  | recordBranchVisits (visits : Visits)
  | readFrontier
  | collectBranchVisits
  | visit (place : Place) (nodeId : String) (attempt : Nat)

/-- The answer of each operation. -/
@[reducible] def Op.Res : Op → Type
  | .load => Option GraphRunRecord
  | .save _ => Except CheckpointError Unit
  | .loadNodeVisit _ _ => Option Json
  | .recordNodeVisit _ _ _ => Except CheckpointError NodeVisitOutcome
  | .agentTurn _ _ => Except GraphExecError AgentTurnResult
  | .tool _ _ => Except GraphExecError Json
  | .supervisor _ _ => Except GraphExecError SupervisorResult
  | .approval _ _ => Except GraphExecError ApprovalOutcome
  | .openFrontier _ => Unit
  | .checkpointFrontier _ => Except CheckpointError Unit
  | .seedVisits _ => Unit
  | .fetchAdd => Nat
  | .saveSlot _ _ _ => Except CheckpointError Unit
  | .recordBranchVisits _ => Unit
  | .readFrontier => List BranchCursor
  | .collectBranchVisits => Visits
  | .visit _ _ _ => Unit

/-- A sequential part of the executor. -/
abbrev Exec (α : Type) : Type := Prog Op Op.Res GraphExecError α

/-- A part of the executor that may fan out branches. -/
abbrev Drive (α : Type) : Type := Main Op Op.Res GraphExecError BranchOutcome α

/-! ## Records -/

/-- A position of the trunk or of a branch: the loop variables of `drive` and
    `drive_branch`. -/
structure Point where
  cursor : String
  state : GraphRunState
  visits : Visits

/-- The attempt the next visit of the cursor node will have. -/
def Point.attempt (pt : Point) : Nat := pt.visits.count pt.cursor + 1

/-- `build_record_with_frontier`. -/
def buildRecordWithFrontier (runId : String) (cfg : GraphConfig) (pt : Point)
    (status : RunStatus) (frontier : Option (List BranchCursor)) : GraphRunRecord :=
  ⟨runId, cfg, pt.cursor, pt.state, status, pt.visits, frontier⟩

/-- `build_record`. -/
def buildRecord (runId : String) (cfg : GraphConfig) (pt : Point) (status : RunStatus) :
    GraphRunRecord :=
  buildRecordWithFrontier runId cfg pt status none

/-- The position a record stores. -/
def GraphRunRecord.point (rec : GraphRunRecord) : Point := ⟨rec.cursor, rec.state, rec.visits⟩

/-- The record of a region whose slots are `frontier`. -/
def FrontierCheckpoint.record (coord : FrontierCheckpoint) (frontier : List BranchCursor)
    (status : RunStatus) : GraphRunRecord :=
  buildRecordWithFrontier coord.runId coord.graph
    ⟨coord.parallelNode, coord.trunkState, coord.trunkVisits⟩ status (some frontier)

/-- `store.save(..).await?`. -/
def saveRecord (rec : GraphRunRecord) : Drive Unit := do
  match ← Main.perform (Op.save rec) with
  | .ok () => return ()
  | .error e => .fail (.checkpoint e)

/-! ## Pure helpers -/

/-- `next_linear`: the first outgoing edge. -/
def nextLinear (cfg : GraphConfig) (id : String) : Except GraphExecError String :=
  match cfg.graph.edgesFrom id with
  | e :: _ => .ok e.to_
  | [] => .error (.graph (.invalid s!"node '{id}' has no outgoing edge"))

/-- One popped node of `find_join_for_parallel`: stop at a join or at an unknown
    node, else push the successors. -/
def expandJoin (cfg : GraphConfig) (current : String) :
    Except (Except GraphExecError String) (List String) :=
  match cfg.graph.node current with
  | none => .error (.error (.unknownNode current))
  | some n =>
      if n.kind = .join then .error (.ok current)
      else .ok ((cfg.graph.edgesFrom current).map (·.to_))

/-- `find_join_for_parallel`: the first join the search from the branch targets
    meets. -/
def findJoinForParallel (cfg : GraphConfig) (parallelNode : String) :
    Except GraphExecError String :=
  match Worklist.search (expandJoin cfg) (2 * cfg.graph.edges.length + 1)
      ((cfg.graph.edgesFrom parallelNode).map (·.to_)).reverse [] with
  | some r => r
  | none => .error (.graph (.invalid
      s!"parallel node '{parallelNode}' has no reachable join node"))

/-- One trail entry; the fields are in key order. -/
def trailEntry (node kind : String) (attempt : Nat) (replayed : Bool)
    (branches : List (String × Json)) : Json :=
  .obj ([("attempt", .num s!"{attempt}")] ++ branches ++
    [("kind", .str kind), ("node", .str node), ("replayed", .bool replayed)])

/-- `rebuild_trail_from_state`. -/
def rebuildTrailFromState (state : GraphRunState) : List Json :=
  state.messages.map fun m =>
    let kind := match m.role with
      | .user => "user"
      | .assistant => "agent"
      | .tool => "tool"
    .obj [("content", .str m.content), ("kind", .str kind)]

/-- `serde_json::to_value` of an agent result. -/
def AgentTurnResult.toValue (r : AgentTurnResult) : Json :=
  .obj [("reply", .str r.reply), ("resolved", .bool r.resolved)]

/-- `serde_json::from_value` to an agent result. -/
def AgentTurnResult.fromValue (v : Json) : Except GraphExecError AgentTurnResult :=
  match v with
  | .obj _ =>
      match (v.get? "reply").bind Json.asStr?, (v.get? "resolved").bind Json.asBool? with
      | some reply, some resolved => .ok ⟨reply, resolved⟩
      | none, _ => .error (.checkpoint (.serde "missing or invalid field `reply`"))
      | _, none => .error (.checkpoint (.serde "missing or invalid field `resolved`"))
  | .arr [.str reply, .bool resolved] => .ok ⟨reply, resolved⟩
  | _ => .error (.checkpoint (.serde "invalid type: expected struct AgentTurnResult"))

/-- `serde_json::to_value` of a supervisor result. -/
def SupervisorResult.toValue (r : SupervisorResult) : Json :=
  .obj [("branch", .str r.branch), ("raw_reply", .str r.rawReply)]

/-- `serde_json::from_value` to a supervisor result. -/
def SupervisorResult.fromValue (v : Json) : Except GraphExecError SupervisorResult :=
  match v with
  | .obj _ =>
      match (v.get? "branch").bind Json.asStr?, (v.get? "raw_reply").bind Json.asStr? with
      | some branch, some rawReply => .ok ⟨branch, rawReply⟩
      | none, _ => .error (.checkpoint (.serde "missing or invalid field `branch`"))
      | _, none => .error (.checkpoint (.serde "missing or invalid field `raw_reply`"))
  | .arr [.str branch, .str rawReply] => .ok ⟨branch, rawReply⟩
  | _ => .error (.checkpoint (.serde "invalid type: expected struct SupervisorResult"))

/-- The ledger row of an approval decision. -/
def decisionValue (branch : String) : Json := .obj [("decision", .str branch)]

/-- `resolve_decision`: a decision already in the ledger wins. -/
def resolveDecision (cfg : GraphConfig) (nodeId branch nextCursor : String)
    (outcome : NodeVisitOutcome) : Except GraphExecError (String × Bool × String) :=
  match outcome with
  | .recorded => .ok (branch, false, nextCursor)
  | .replayed stored =>
      match (stored.get? "decision").bind Json.asStr? with
      | none => .error (.graph (.invalid
          s!"approval node '{nodeId}': stored decision record is malformed"))
      | some storedBranch =>
          if storedBranch = branch then .ok (branch, true, nextCursor)
          else
            match cfg.graph.branchTarget nodeId storedBranch with
            | some next => .ok (storedBranch, true, next)
            | none => .error (.graph (.invalid
                s!"approval node '{nodeId}': stored decision branch '{storedBranch}' does not match any outgoing edge"))

/-! ## One node visit -/

/-- `visit_effect`: load the recorded result, or invoke the closure and record. -/
def visitEffect (nodeId : String) (attempt : Nat) (invoke : Exec Json) : Exec (Json × Bool) := do
  match ← Prog.perform (Op.loadNodeVisit nodeId attempt) with
  | some cached => return (cached, true)
  | none =>
      let value ← invoke
      -- recorded BEFORE the checkpoint; a concurrent duplicate's value wins
      match ← Prog.perform (Op.recordNodeVisit nodeId attempt value) with
      | .error e => .fail (.checkpoint e)
      | .ok .recorded => return (value, false)
      | .ok (.replayed stored) => return (stored, true)

/-- What an agent result does to the position. -/
def afterAgent (cfg : GraphConfig) (pt : Point) (raw : Json) : Except GraphExecError Point := do
  let result ← AgentTurnResult.fromValue raw
  let state := { pt.state with iterations := pt.state.iterations + 1 }
  let state := state.pushMessage .assistant result.reply
  let state := if result.resolved then { state with resolved := true } else state
  let next ← nextLinear cfg pt.cursor
  return ⟨next, state, pt.visits.insert pt.cursor pt.attempt⟩

/-- What a tool result does to the position. -/
def afterTool (cfg : GraphConfig) (pt : Point) (raw : Json) : Except GraphExecError Point := do
  let next ← nextLinear cfg pt.cursor
  return ⟨next, pt.state.pushMessage .tool raw.render,
    pt.visits.insert pt.cursor pt.attempt⟩

/-- What a router visit does to the position. -/
def afterRouter (cfg : GraphConfig) (pt : Point) : Except GraphExecError Point := do
  let next ← (route cfg.graph pt.cursor pt.state).mapError .graph
  return ⟨next, pt.state, pt.visits.insert pt.cursor pt.attempt⟩

/-- What a supervisor result does to the position: its branch must be a declared
    route with an outgoing edge. -/
def afterSupervisor (cfg : GraphConfig) (routes : List SupervisorRoute)
    (message : String → String → String) (pt : Point) (raw : Json) :
    Except GraphExecError (Point × String) := do
  let result ← SupervisorResult.fromValue raw
  match routes.any fun r => r.branch = result.branch,
      cfg.graph.branchTarget pt.cursor result.branch with
  | true, some next =>
      return (⟨next, pt.state.pushMessage .assistant result.rawReply,
        pt.visits.insert pt.cursor pt.attempt⟩, result.branch)
  | _, _ => .error (.graph (.invalid (message pt.cursor result.branch)))

/-- The label a branch adds to its trail entries. -/
def branchField : Option String → List (String × Json)
  | none => []
  | some label => [("branch", .str label)]

/-- The agent arm of `drive` (`label = none`) and of `drive_branch`. -/
def visitAgent (cfg : GraphConfig) (label : Option String) (pt : Point)
    (systemPrompt model : String) (tools : List String)
    (provider agentRef inheritFrom : Option String) : Exec (Point × Json) := do
  let req : AgentTurnRequest :=
    ⟨pt.cursor, systemPrompt, model, pt.state, provider, tools, agentRef, inheritFrom⟩
  let (raw, replayed) ← visitEffect pt.cursor pt.attempt do
    match ← Prog.perform (Op.agentTurn pt.attempt req) with
    | .ok r => return r.toValue
    | .error e => .fail (.agentTurn
        s!"node '{pt.cursor}' attempt {pt.attempt}: {e.display}")
  let pt' ← Prog.ofExcept (afterAgent cfg pt raw)
  return (pt', trailEntry pt.cursor "agent" pt.attempt replayed (branchField label))

/-- The tool arm. -/
def visitTool (cfg : GraphConfig) (label : Option String) (pt : Point) (toolName : String) :
    Exec (Point × Json) := do
  let req : ToolCallRequest := ⟨pt.cursor, toolName, pt.state⟩
  let (raw, replayed) ← visitEffect pt.cursor pt.attempt do
    match ← Prog.perform (Op.tool pt.attempt req) with
    | .ok v => return v
    | .error e => .fail (.tool s!"node '{pt.cursor}' attempt {pt.attempt}: {e.display}")
  let pt' ← Prog.ofExcept (afterTool cfg pt raw)
  return (pt', trailEntry pt.cursor "tool" pt.attempt replayed (branchField label))

/-- The router arm. -/
def visitRouter (cfg : GraphConfig) (label : Option String) (pt : Point) :
    Exec (Point × Json) := do
  let pt' ← Prog.ofExcept (afterRouter cfg pt)
  return (pt', trailEntry pt.cursor "router" pt.attempt false (branchField label))

/-- The error text of the supervisor arm, in the trunk and in a branch. -/
def supervisorMessage : Option String → String → String → String
  | none, cursor, branch =>
      s!"supervisor node '{cursor}': branch '{branch}' returned by supervisor does not match any declared route or outgoing edge"
  | some _, cursor, branch =>
      s!"supervisor node '{cursor}': branch '{branch}' does not match any declared route or outgoing edge"

/-- The supervisor arm. -/
def visitSupervisor (cfg : GraphConfig) (label : Option String) (pt : Point)
    (systemPrompt model : String) (routes : List SupervisorRoute)
    (provider agentRef : Option String) : Exec (Point × Json) := do
  let req : SupervisorRequest :=
    ⟨pt.cursor, systemPrompt, model, routes, pt.state, provider, agentRef⟩
  let (raw, replayed) ← visitEffect pt.cursor pt.attempt do
    match ← Prog.perform (Op.supervisor pt.attempt req) with
    | .ok r => return r.toValue
    | .error e => .fail (.supervisor
        s!"node '{pt.cursor}' attempt {pt.attempt}: {e.display}")
  let (pt', chosen) ← Prog.ofExcept
    (afterSupervisor cfg routes (supervisorMessage label) pt raw)
  let path := match label with
    | none => []
    | some l => [("branch_path", Json.str l)]
  return (pt', trailEntry pt.cursor "supervisor" pt.attempt replayed
    (("branch", .str chosen) :: path))

/-! ## Parallel regions -/

/-- `drive_branch`: drive ONE branch from its position to the join (exclusive).
    The fuel counts the visits that can pass the cap check: every iteration
    raises the shared counter, so the `maxNodeVisits + 1`st is refused. -/
def driveBranch (run : RunRef) (cfg : GraphConfig) (joinId : String) (slot : Nat)
    (label : String) (coord : FrontierCheckpoint) :
    Nat → Point → List Json → Exec BranchOutcome
  | fuel, pt, trail => do
      if pt.cursor = joinId then
        -- reached the join: park without executing it
        match ← Prog.perform (Op.saveSlot coord slot ⟨label, pt.cursor, pt.state, true, pt.visits⟩) with
        | .error e => .fail (.checkpoint e)
        | .ok () => return ⟨label, pt.visits, trail⟩
      else
        -- global visit cap: count this visit BEFORE executing
        let total ← Prog.perform Op.fetchAdd
        if total > maxNodeVisits then
          .fail (.iterationCap run.runId)
        else
          match fuel with
          | 0 => .fail (.iterationCap run.runId)
          | fuel + 1 =>
              match cfg.graph.node pt.cursor with
              | none => .fail (.unknownNode pt.cursor)
              | some node =>
                  Prog.perform (Op.visit (.branch slot) pt.cursor pt.attempt)
                  let (pt', entry) ← match node.kind with
                    | .agent systemPrompt model tools provider agentRef inheritFrom =>
                        visitAgent cfg (some label) pt systemPrompt model tools provider agentRef
                          inheritFrom
                    | .tool toolName => visitTool cfg (some label) pt toolName
                    | .router _ => visitRouter cfg (some label) pt
                    | .supervisor systemPrompt model routes provider agentRef =>
                        visitSupervisor cfg (some label) pt systemPrompt model routes provider
                          agentRef
                    | .respond => Prog.fail (.graph (.invalid
                        s!"respond node '{pt.cursor}' inside parallel branch '{label}' is not allowed"))
                    | .parallel | .join => Prog.fail (.graph (.invalid
                        s!"branch '{label}' reached unexpected '{node.kind.kindName}' node '{pt.cursor}'"))
                    | .approval .. => Prog.fail (.graph (.invalid
                        s!"approval node '{pt.cursor}' inside parallel branch '{label}': not supported in v1 (parallel-branch approval parking is unimplemented)"))
                  -- durably persist this branch's progress after every node
                  match ← Prog.perform (Op.saveSlot coord slot
                      ⟨label, pt'.cursor, pt'.state, false, pt'.visits⟩) with
                  | .error e => .fail (.checkpoint e)
                  | .ok () =>
                      Prog.perform (Op.recordBranchVisits pt'.visits)
                      driveBranch run cfg joinId slot label coord fuel pt' (trail ++ [entry])

/-- The loop over the settled branches: first error, trail and visits so far. -/
def foldResults : List (Except GraphExecError BranchOutcome) →
    Option GraphExecError × List Json × Visits → Option GraphExecError × List Json × Visits
  | [], acc => acc
  | .ok outcome :: rest, (firstErr, trail, visits) =>
      foldResults rest (firstErr, trail ++ outcome.trail, visits.extend outcome.visits)
  | .error e :: rest, (firstErr, trail, visits) =>
      foldResults rest (firstErr.or (some e), trail, visits)

/-- `scratchpad.branches.<label> = branch scratchpad`. -/
def mergeScratchpad (trunk : Json) (label : String) (branch : Json) : Json :=
  if branch.isNull then trunk
  else
    let fields := match trunk with
      | .obj fields => fields
      | _ => []
    let branches := match (Json.obj fields).get? "branches" with
      | some v => v
      | none => .obj []
    let branches := match branches with
      | .obj inner => Json.obj (Json.setField inner label branch)
      | other => other
    .obj (Json.setField fields "branches" branches)

/-- Merge one parked branch into the trunk state. -/
def mergeBranch (snapshotLen : Nat) (merged : GraphRunState) (bc : BranchCursor) :
    GraphRunState where
  messages := merged.messages ++ bc.state.messages.drop snapshotLen
  resolved := merged.resolved || bc.state.resolved
  iterations := max merged.iterations bc.state.iterations
  scratchpad := mergeScratchpad merged.scratchpad bc.branch bc.state.scratchpad

/-- The visits the branches already made before a resume, summed over the
    frontier. -/
def resumedBranchVisits (trunkVisits : Visits) (frontier : List BranchCursor) : Nat :=
  (frontier.map fun bc =>
    ∑ k ∈ bc.visits.keys, (bc.visits.count k - trunkVisits.count k)).sum

/-- The branch programs of a frontier; parked branches have none. -/
def branchPrograms (run : RunRef) (cfg : GraphConfig) (joinId : String)
    (coord : FrontierCheckpoint) (frontier : List BranchCursor) :
    List (Prog Op Op.Res GraphExecError BranchOutcome) :=
  (frontier.zipIdx.filter fun x => !x.1.parked).map fun x =>
    driveBranch run cfg joinId x.2 x.1.branch coord maxNodeVisits
      ⟨x.1.cursor, x.1.state, coord.trunkVisits.extend x.1.visits⟩ []

/-- The part of a region's checkpoints that never changes. -/
def frontierCoord (run : RunRef) (cfg : GraphConfig) (trunk : Point) : FrontierCheckpoint :=
  ⟨run.runId, cfg, trunk.cursor, trunk.state, trunk.visits⟩

/-- The merge of `drive_frontier`: all branches are parked at the join. -/
def mergeFrontier (run : RunRef) (cfg : GraphConfig) (joinId : String) (trunk : Point)
    (trail : List Json) (mergedVisits : Visits) : Drive (Point × List Json) := do
  let ordered := (← Main.perform Op.readFrontier).insertionSort fun a b => a.branch ≤ b.branch
  let mergedState := ordered.foldl (mergeBranch trunk.state.messages.length) trunk.state
  let mergedVisits := ordered.foldl (fun m bc => m.maxMerge bc.visits) mergedVisits
  let collected ← Main.perform Op.collectBranchVisits
  let mergedVisits := collected.extend mergedVisits
  let nextCursor ← Main.ofExcept (nextLinear cfg joinId)
  let merged : Point := ⟨nextCursor, mergedState, mergedVisits⟩
  saveRecord (buildRecord run.runId cfg merged .running)
  return (merged, trail)

/-- `drive_frontier` after `join_all`: ALL branches have settled; the terminal
    status of a cap is written once, here. -/
def settleFrontier (run : RunRef) (cfg : GraphConfig) (joinId : String) (trunk : Point)
    (results : List (Except GraphExecError BranchOutcome)) : Drive (Point × List Json) :=
  match foldResults results (none, [], trunk.visits) with
  | (some (.iterationCap id), _, _) => do
      let lastFrontier ← Main.perform Op.readFrontier
      saveRecord ((frontierCoord run cfg trunk).record lastFrontier .failed)
      .fail (.iterationCap id)
  | (some e, _, _) => .fail e
  | (none, trail, mergedVisits) => mergeFrontier run cfg joinId trunk trail mergedVisits

/-- `drive_frontier`: drive the branches concurrently to the join, then merge
    deterministically. -/
def driveFrontier (run : RunRef) (cfg : GraphConfig) (joinId : String) (trunk : Point)
    (frontier : List BranchCursor) (persistBeforeDriving : Bool) :
    Drive (Point × List Json) := do
  let coord := frontierCoord run cfg trunk
  Main.perform (Op.openFrontier frontier)
  if persistBeforeDriving then
    match ← Main.perform (Op.checkpointFrontier coord) with
    | .ok () => pure ()
    | .error e => Main.fail (.checkpoint e)
  Main.perform (Op.seedVisits (trunk.visits.total + resumedBranchVisits trunk.visits frontier))
  let results ← Main.joinAll (branchPrograms run cfg joinId coord frontier)
  settleFrontier run cfg joinId trunk results

/-- The branch edges of a parallel node, sorted by label. -/
def branchEdges (cfg : GraphConfig) (parallelNode : String) : List (String × String) :=
  ((cfg.graph.edgesFrom parallelNode).filterMap fun e => e.branch.map fun b => (b, e.to_))
    |>.insertionSort fun a b => a.1 ≤ b.1

/-- The initial frontier: one isolated copy of the trunk state per branch. -/
def initialFrontier (cfg : GraphConfig) (trunk : Point) : List BranchCursor :=
  (branchEdges cfg trunk.cursor).map fun x => ⟨x.1, x.2, trunk.state, false, .empty⟩

/-- `run_parallel_region`. -/
def runParallelRegion (run : RunRef) (cfg : GraphConfig) (trunk : Point) :
    Drive (Point × List Json) := do
  let joinId ← Main.ofExcept (findJoinForParallel cfg trunk.cursor)
  driveFrontier run cfg joinId trunk (initialFrontier cfg trunk) true

/-! ## The trunk -/

/-- `drive`: the core node-visiting loop.  The fuel is what is left of
    `0..MAX_NODE_VISITS`. -/
def drive (run : RunRef) (cfg : GraphConfig) : Nat → Point → List Json → Drive GraphRunOutcome
  | 0, pt, _ => do
      -- cap exhausted: mark as Failed first, then propagate the error
      saveRecord (buildRecord run.runId cfg pt .failed)
      .fail (.iterationCap run.runId)
  | fuel + 1, pt, trail => do
      match cfg.graph.node pt.cursor with
      | none => .fail (.unknownNode pt.cursor)
      | some node =>
          Main.perform (Op.visit .trunk pt.cursor pt.attempt)
          match node.kind with
          | .agent systemPrompt model tools provider agentRef inheritFrom =>
              let (pt', entry) ← Main.lift (visitAgent cfg none pt systemPrompt model tools
                provider agentRef inheritFrom)
              saveRecord (buildRecord run.runId cfg pt' .running)
              drive run cfg fuel pt' (trail ++ [entry])
          | .tool toolName =>
              let (pt', entry) ← Main.lift (visitTool cfg none pt toolName)
              saveRecord (buildRecord run.runId cfg pt' .running)
              drive run cfg fuel pt' (trail ++ [entry])
          | .router _ =>
              let (pt', entry) ← Main.lift (visitRouter cfg none pt)
              saveRecord (buildRecord run.runId cfg pt' .running)
              drive run cfg fuel pt' (trail ++ [entry])
          | .supervisor systemPrompt model routes provider agentRef =>
              let (pt', entry) ← Main.lift (visitSupervisor cfg none pt systemPrompt model
                routes provider agentRef)
              saveRecord (buildRecord run.runId cfg pt' .running)
              drive run cfg fuel pt' (trail ++ [entry])
          | .respond =>
              let trail := trail ++ [trailEntry pt.cursor "respond" pt.attempt false []]
              let visits := pt.visits.insert pt.cursor pt.attempt
              saveRecord (buildRecord run.runId cfg { pt with visits := visits } .succeeded)
              return ⟨.succeeded, lastAssistantMessage pt.state, trail⟩
          | .parallel =>
              let (pt', regionTrail) ← runParallelRegion run cfg pt
              drive run cfg fuel pt' (trail ++ regionTrail)
          | .join =>
              -- consumed by the parallel arm; a direct arrival passes through
              let next ← Main.ofExcept (nextLinear cfg pt.cursor)
              drive run cfg fuel { pt with cursor := next } trail
          | .approval title mode riskThreshold confidenceThreshold deadlineMs =>
              let req : ApprovalRequest := ⟨run.runId, pt.cursor, run.tenantId, title, mode,
                riskThreshold, confidenceThreshold, deadlineMs, pt.state⟩
              match ← Main.perform (Op.approval pt.attempt req) with
              | .error e => .fail e
              | .ok .awaiting =>
                  -- park AT this node, without a ledgered visit
                  saveRecord (buildRecord run.runId cfg pt .awaitingInput)
                  return ⟨.awaitingInput, lastAssistantMessage pt.state, trail⟩
              | .ok (.decided branch) =>
                  match cfg.graph.branchTarget pt.cursor branch with
                  | none => .fail (.graph (.invalid
                      s!"approval node '{pt.cursor}': decision branch '{branch}' does not match any outgoing edge"))
                  | some nextCursor =>
                      match ← Main.perform
                          (Op.recordNodeVisit pt.cursor pt.attempt (decisionValue branch)) with
                      | .error e => .fail (.checkpoint e)
                      | .ok outcome =>
                          let (branch, replayed, nextCursor) ← Main.ofExcept
                            (resolveDecision cfg pt.cursor branch nextCursor outcome)
                          let entry := trailEntry pt.cursor "approval" pt.attempt replayed
                            [("branch", .str branch)]
                          let pt' : Point :=
                            ⟨nextCursor, pt.state, pt.visits.insert pt.cursor pt.attempt⟩
                          saveRecord (buildRecord run.runId cfg pt' .running)
                          drive run cfg fuel pt' (trail ++ [entry])

/-- `resume_parallel`: finish the region, then continue the trunk. -/
def resumeParallel (run : RunRef) (cfg : GraphConfig) (trunk : Point)
    (frontier : List BranchCursor) : Drive GraphRunOutcome := do
  let joinId ← Main.ofExcept (findJoinForParallel cfg trunk.cursor)
  let (pt, _) ← driveFrontier run cfg joinId trunk frontier false
  drive run cfg maxNodeVisits pt []

/-- `drive_from_record`. -/
def driveFromRecord (run : RunRef) (rec : GraphRunRecord) : Drive GraphRunOutcome := do
  let cfg ← Main.ofExcept (rec.graph.fromJson.mapError .graph)
  match rec.frontier with
  | some frontier => resumeParallel run cfg rec.point frontier
  | none => drive run cfg maxNodeVisits rec.point []

/-- The position of a fresh run. -/
def startPoint (cfg : GraphConfig) (userText : String) : Point :=
  ⟨cfg.graph.entry, GraphRunState.default.pushMessage .user userText, .empty⟩

/-- `start`. -/
def start (run : RunRef) (cfg : GraphConfig) (userText : String) : Drive GraphRunOutcome := do
  match ← Main.perform Op.load with
  | some existing =>
      match existing.status with
      | .running | .awaitingInput => driveFromRecord run existing
      | .succeeded | .failed => .fail (.alreadyCompleted run.runId)
  | none =>
      saveRecord (buildRecord run.runId cfg (startPoint cfg userText) .running)
      drive run cfg maxNodeVisits (startPoint cfg userText) []

/-- `resume`. -/
def resume (run : RunRef) : Drive GraphRunOutcome := do
  match ← Main.perform Op.load with
  | none => .fail (.unknownRun run.runId)
  | some rec =>
      match rec.status with
      | .succeeded | .failed =>
          return ⟨rec.status, lastAssistantMessage rec.state, rebuildTrailFromState rec.state⟩
      | .running | .awaitingInput => driveFromRecord run rec

/-! ## What the operations do -/

/-- The memory of one call: the state its branches share, and a ghost history of
    its operations, each with the store it met. -/
structure CallMemory where
  frontier : List BranchCursor
  branchVisits : Visits
  globalVisits : Nat
  history : List (RunStore × Event Op Op.Res)

/-- The memory a call starts with. -/
def CallMemory.fresh : CallMemory := ⟨[], .empty, 0, []⟩

/-- The store and the memory of one call. -/
abbrev World : Type := RunStore × CallMemory

/-- How the injected closures may answer. -/
structure Closures where
  agentTurn : AgentTurnRequest → Except GraphExecError AgentTurnResult → Prop
  tool : ToolCallRequest → Except GraphExecError Json → Prop
  supervisor : SupervisorRequest → Except GraphExecError SupervisorResult → Prop
  approval : ApprovalRequest → Except GraphExecError ApprovalOutcome → Prop

/-- Closures that may answer anything at any time. -/
def Closures.arbitrary : Closures :=
  ⟨fun _ _ => True, fun _ _ => True, fun _ _ => True, fun _ _ => True⟩

/-- The slot write of `save_slot`. -/
def slotWritten (m : CallMemory) (slot : Nat) (bc : BranchCursor) : List BranchCursor :=
  m.frontier.set slot bc

/-- The answers an operation may get. -/
def answers (run : RunRef) (C : Closures) (s : World) : (i : Op) → i.Res → Prop
  | .load, r => r = s.1.record
  | .save rec, r => r = (s.1.save rec).map fun _ => ()
  | .loadNodeVisit n a, r => r = s.1.ledger n a
  | .recordNodeVisit n a v, r => r = (s.1.recordNodeVisit run.runId n a v).map (·.1)
  | .agentTurn _ req, r => C.agentTurn req r
  | .tool _ req, r => C.tool req r
  | .supervisor _ req, r => C.supervisor req r
  | .approval _ req, r => C.approval req r
  | .openFrontier _, _ => True
  | .checkpointFrontier coord, r =>
      r = (s.1.save (coord.record s.2.frontier .running)).map fun _ => ()
  | .seedVisits _, _ => True
  | .fetchAdd, r => r = s.2.globalVisits + 1
  | .saveSlot coord slot bc, r =>
      r = (s.1.save (coord.record (slotWritten s.2 slot bc) .running)).map fun _ => ()
  | .recordBranchVisits _, _ => True
  | .readFrontier, r => r = s.2.frontier
  | .collectBranchVisits, r => r = s.2.branchVisits
  | .visit _ _ _, _ => True

/-- The store after a save that may have failed. -/
def storeAfter (st : RunStore) : Except CheckpointError RunStore → RunStore
  | .ok st' => st'
  | .error _ => st

/-- The state an operation leaves, before the call notes it in its history. -/
def effect (run : RunRef) (s : World) : Op → World
  | .save rec => (storeAfter s.1 (s.1.save rec), s.2)
  | .recordNodeVisit n a v =>
      (storeAfter s.1 ((s.1.recordNodeVisit run.runId n a v).map (·.2)), s.2)
  | .openFrontier frontier => (s.1, { s.2 with frontier := frontier, branchVisits := .empty })
  | .checkpointFrontier coord =>
      (storeAfter s.1 (s.1.save (coord.record s.2.frontier .running)), s.2)
  | .seedVisits n => (s.1, { s.2 with globalVisits := n })
  | .fetchAdd => (s.1, { s.2 with globalVisits := s.2.globalVisits + 1 })
  | .saveSlot coord slot bc =>
      (storeAfter s.1 (s.1.save (coord.record (slotWritten s.2 slot bc) .running)),
        { s.2 with frontier := slotWritten s.2 slot bc })
  | .recordBranchVisits visits =>
      (s.1, { s.2 with branchVisits := s.2.branchVisits.extend visits })
  | _ => s

/-- Note an event and the store it met in the history. -/
def note (met : RunStore) (s : World) (e : Event Op Op.Res) : World :=
  (s.1, { s.2 with history := s.2.history ++ [(met, e)] })

/-- One atomic operation. -/
def exec (run : RunRef) (C : Closures) (i : Op) (s : World) (r : i.Res) (s' : World) : Prop :=
  answers run C s i r ∧ s' = note s.1 (effect run s i) ⟨i, r⟩

/-! ## Closures that are functions of their request -/

/-- Deterministic closures. -/
structure Effects where
  agentTurn : AgentTurnRequest → Except GraphExecError AgentTurnResult
  tool : ToolCallRequest → Except GraphExecError Json
  supervisor : SupervisorRequest → Except GraphExecError SupervisorResult
  approval : ApprovalRequest → Except GraphExecError ApprovalOutcome

namespace Effects

/-- The answers deterministic closures may give. -/
def closures (f : Effects) : Closures :=
  ⟨fun req r => r = f.agentTurn req, fun req r => r = f.tool req,
    fun req r => r = f.supervisor req, fun req r => r = f.approval req⟩

/-- The answer of every operation. -/
def answer (run : RunRef) (f : Effects) (s : World) : (i : Op) → i.Res
  | .load => s.1.record
  | .save rec => (s.1.save rec).map fun _ => ()
  | .loadNodeVisit n a => s.1.ledger n a
  | .recordNodeVisit n a v => (s.1.recordNodeVisit run.runId n a v).map (·.1)
  | .agentTurn _ req => f.agentTurn req
  | .tool _ req => f.tool req
  | .supervisor _ req => f.supervisor req
  | .approval _ req => f.approval req
  | .openFrontier _ => ()
  | .checkpointFrontier coord =>
      (s.1.save (coord.record s.2.frontier .running)).map fun _ => ()
  | .seedVisits _ => ()
  | .fetchAdd => s.2.globalVisits + 1
  | .saveSlot coord slot bc =>
      (s.1.save (coord.record (slotWritten s.2 slot bc) .running)).map fun _ => ()
  | .recordBranchVisits _ => ()
  | .readFrontier => s.2.frontier
  | .collectBranchVisits => s.2.branchVisits
  | .visit _ _ _ => ()

/-- Run every operation against deterministic closures. -/
def handler (run : RunRef) (f : Effects) : Handler Op Op.Res World :=
  fun i s => (f.answer run s i, note s.1 (effect run s i) ⟨i, f.answer run s i⟩)

/-- The handler performs exactly the operations of the semantics. -/
theorem handler_exec (run : RunRef) (f : Effects) (i : Op) (s : World) :
    exec run f.closures i s (f.handler run i s).1 (f.handler run i s).2 := by
  refine ⟨?_, rfl⟩
  cases i <;> first | rfl | trivial

end Effects

/-- What some closures may answer, arbitrary ones may answer too. -/
theorem exec_arbitrary {run : RunRef} {C : Closures} {i : Op} {s s' : World} {r : i.Res}
    (h : exec run C i s r s') : exec run .arbitrary i s r s' := by
  refine ⟨?_, h.2⟩
  cases i <;> first | exact h.1 | trivial

end Greentic
