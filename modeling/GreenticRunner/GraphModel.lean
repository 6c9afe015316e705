import GreenticRunner.Worklist

/-! # The agent-graph data model and its validation

    `graph/model.rs`: node kinds, edges, the bare graph, the eleven validation
    rules and the schema-versioned envelope.  A `GraphConfig` here is the parsed
    document; `GraphConfig.fromJson` is `from_json` after the parser, that is
    the schema gate followed by `Graph.validate`. -/

namespace Greentic

/-- An `f64` that is only carried around, as its bit pattern. -/
abbrev F64 : Type := UInt64

/-- One routing choice on a supervisor node. -/
structure SupervisorRoute where
  branch : String
  description : String
  deriving DecidableEq

/-- The role a node plays in the graph, plus its per-kind configuration. -/
inductive NodeKind where
  | agent (systemPrompt model : String) (tools : List String)
      (provider agentRef inheritFrom : Option String)
  | tool (toolName : String)
  | router (maxIterations : Nat)
  | respond
  | supervisor (systemPrompt model : String) (routes : List SupervisorRoute)
      (provider agentRef : Option String)
  | parallel
  | join
  | approval (title mode : String) (riskThreshold confidenceThreshold : Option F64)
      (deadlineMs : Option Nat)
  deriving DecidableEq

namespace NodeKind

/-- `kind_name`: the serde tag. -/
def kindName : NodeKind → String
  | .agent .. => "agent"
  | .tool .. => "tool"
  | .router .. => "router"
  | .respond => "respond"
  | .supervisor .. => "supervisor"
  | .parallel => "parallel"
  | .join => "join"
  | .approval .. => "approval"

/-- `requires_v2`. -/
def requiresV2 : NodeKind → Bool
  | .supervisor .. | .parallel | .join | .approval .. => true
  | _ => false

end NodeKind

/-- A single node in the graph. -/
structure Node where
  id : String
  kind : NodeKind
  deriving DecidableEq

/-- A directed edge; `branch` names router, supervisor, parallel and approval
    exits. -/
structure Edge where
  from_ : String
  to_ : String
  branch : Option String
  deriving DecidableEq

/-- The bare execution graph. -/
structure Graph where
  entry : String
  nodes : List Node
  edges : List Edge
  deriving DecidableEq

/-- Run a check on every element, in order, up to the first error. -/
def checkAll {α : Type} (check : α → Except String Unit) : List α → Except String Unit
  | [] => .ok ()
  | x :: xs => do
      check x
      checkAll check xs

/-- Report the first element that occurred before. -/
def checkUnique (message : String → String) : List String → List String → Except String Unit
  | _, [] => .ok ()
  | seen, x :: xs =>
      if x ∈ seen then .error (message x) else checkUnique message (x :: seen) xs

/-- `{:?}` of a list of node ids. -/
def debugIds (ids : List String) : String :=
  "[" ++ String.intercalate ", " (ids.map fun s => "\"" ++ s ++ "\"") ++ "]"

namespace Graph

/-- Look up a node by id. -/
def node (g : Graph) (id : String) : Option Node := g.nodes.find? fun n => n.id == id

/-- Outgoing edges of a node, in declaration order. -/
def edgesFrom (g : Graph) (id : String) : List Edge := g.edges.filter fun e => e.from_ == id

/-- Incoming edges of a node. -/
def edgesTo (g : Graph) (id : String) : List Edge := g.edges.filter fun e => e.to_ == id

/-- The first outgoing edge with the given branch label, if any: the lookup the
    router, supervisor and approval arms share. -/
def branchTarget (g : Graph) (id branch : String) : Option String :=
  ((g.edgesFrom id).find? fun e => e.branch == some branch).map (·.to_)

/-- `validate_supervisor`. -/
def validateSupervisor (node : Node) (routes : List SupervisorRoute) (out : List Edge) :
    Except String Unit := do
  if routes.length < 2 then
    .error s!"supervisor '{node.id}' must have at least 2 routes, found {routes.length}"
  checkUnique (fun b => s!"supervisor '{node.id}' has duplicate route branch label '{b}'") []
    (routes.map (·.branch))
  checkAll (fun r =>
    match (out.filter fun e => e.branch == some r.branch).length with
    | 1 => .ok ()
    | 0 => .error s!"supervisor '{node.id}' route '{r.branch}' has no matching outgoing edge"
    | n => .error
        s!"supervisor '{node.id}' route '{r.branch}' has {n} matching outgoing edges (expected 1)")
    routes
  checkAll (fun e =>
    let branch := e.branch.getD ""
    if branch ∈ routes.map (·.branch) then .ok ()
    else .error
      s!"supervisor '{node.id}' has outgoing edge with undeclared branch label '{branch}'") out

/-- The loop of `walk_branch_to_join`; the fuel is what is left of `WALK_LIMIT`,
    `stack` has its top first, `found` is the join met so far. -/
def walkLoop (g : Graph) (parallelId startId : String) :
    Nat → List String → List String → Option String → Except String (String × List String)
  | _, [], visited, found =>
      match found with
      | some j => .ok (j, visited)
      | none => .error
          s!"parallel node '{parallelId}': branch starting at '{startId}' never reaches a join node"
  | 0, _ :: _, _, _ => .error
      s!"parallel node '{parallelId}': branch walk exceeded limit (possible cycle)"
  | fuel + 1, current :: stack, visited, found =>
      if current ∈ visited then walkLoop g parallelId startId fuel stack visited found
      else
        match g.node current with
        | none => .error
            s!"parallel node '{parallelId}': branch references unknown node '{current}'"
        | some n =>
            match n.kind with
            | .join =>
                match found with
                | none => walkLoop g parallelId startId fuel stack visited (some current)
                | some j =>
                    if j ≠ current then .error
                      s!"parallel node '{parallelId}': branch path reaches multiple join nodes ('{j}' and '{current}')"
                    else walkLoop g parallelId startId fuel stack visited found
            | .parallel => .error
                s!"parallel node '{parallelId}': nested parallel '{current}' is not allowed"
            | .respond => .error
                s!"parallel node '{parallelId}': respond node '{current}' inside a parallel branch is not allowed"
            | _ =>
                -- the successors are pushed in order, so the last one is popped first
                walkLoop g parallelId startId fuel
                  (((g.edgesFrom current).map (·.to_)).reverse ++ stack) (current :: visited) found

/-- `WALK_LIMIT`. -/
def walkLimit : Nat := 128

/-- `walk_branch_to_join`: the join and the nodes before it. -/
def walkBranchToJoin (g : Graph) (parallelId startId : String) :
    Except String (String × List String) :=
  walkLoop g parallelId startId walkLimit [startId] [] none

/-- The labels of a parallel node's edges: present, non-empty and unique. -/
def checkBranchLabels (parallelId : String) : List String → List Edge → Except String Unit
  | _, [] => .ok ()
  | seen, e :: out =>
      let label := e.branch.getD ""
      if label.isEmpty then .error
        s!"parallel node '{parallelId}' has an outgoing edge without a branch label"
      else if label ∈ seen then .error
        s!"parallel node '{parallelId}' has duplicate branch label '{label}'"
      else checkBranchLabels parallelId (label :: seen) out

/-- The walk of every branch edge: its label, its join and its nodes. -/
def walkBranches (g : Graph) (parallelId : String) :
    List Edge → Except String (List (String × String × List String))
  | [] => .ok []
  | e :: out => do
      let (joinId, visited) ← g.walkBranchToJoin parallelId e.to_
      let rest ← walkBranches g parallelId out
      return (e.branch.getD "", joinId, visited) :: rest

/-- Every branch reaches the join of branch 0. -/
def checkCommonJoin (parallelId commonJoin : String) :
    Nat → List (String × String × List String) → Except String Unit
  | _, [] => .ok ()
  | i, (_, j, _) :: rest =>
      if j ≠ commonJoin then .error
        s!"parallel node '{parallelId}': branches do not converge on the same join node (branch 0 → '{commonJoin}', branch {i} → '{j}')"
      else checkCommonJoin parallelId commonJoin (i + 1) rest

/-- No two branches share a node before the join. -/
def checkDisjoint (parallelId : String) :
    List (String × String × List String) → Except String Unit
  | [] => .ok ()
  | (label, _, visited) :: rest => do
      checkAll (fun (other, _, visited') =>
        let shared := visited.filter fun x => x ∈ visited'
        if shared.isEmpty then .ok ()
        else .error
          s!"parallel node '{parallelId}': branches '{label}' and '{other}' share node(s) {debugIds shared} before the join (branches must be node-disjoint)") rest
      checkDisjoint parallelId rest

/-- `validate_parallel`. -/
def validateParallel (g : Graph) (node : Node) (out : List Edge) : Except String Unit := do
  if out.length < 2 then
    .error s!"parallel node '{node.id}' must have at least 2 outgoing edges, found {out.length}"
  checkBranchLabels node.id [] out
  let branches ← g.walkBranches node.id out
  checkCommonJoin node.id ((branches.map (·.2.1)).headD "") 0 branches
  checkDisjoint node.id branches

/-- One popped node of `has_parallel_ancestor`: stop at a parallel predecessor,
    else push the predecessors. -/
def expandAncestors (g : Graph) (current : String) : Except Bool (List String) :=
  let preds := (g.edgesTo current).filterMap fun e => g.node e.from_
  if preds.any fun n => n.kind = .parallel then .error true else .ok (preds.map (·.id))

/-- `has_parallel_ancestor`: some node behind `id` is a parallel node.  Every
    edge is pushed at most once, which bounds the loop. -/
def hasParallelAncestor (g : Graph) (id : String) : Bool :=
  (Worklist.search g.expandAncestors (g.edges.length + 2) [id] []).getD false

/-- Rules 4 to 11, for one node. -/
def validateNode (g : Graph) (schemaVersion : Nat) (node : Node) : Except String Unit := do
  if node.kind.requiresV2 && schemaVersion < 2 then
    .error s!"node kind `{node.kind.kindName}` requires schemaVersion 2"
  let out := g.edgesFrom node.id
  match node.kind with
  | .agent .. | .tool .. =>
      if out.length ≠ 1 then
        .error s!"node '{node.id}' must have exactly 1 outgoing edge, found {out.length}"
  | .router .. =>
      let has := fun b => out.any fun e => e.branch == some b
      if !has "loop" || !has "resolved" then
        .error s!"router '{node.id}' must have both a 'loop' and a 'resolved' branch edge"
  | .respond =>
      if !out.isEmpty then
        .error s!"respond node '{node.id}' cannot have outgoing edges"
  | .supervisor _ _ routes _ _ => validateSupervisor node routes out
  | .parallel => g.validateParallel node out
  | .join =>
      let inc := g.edgesTo node.id
      if inc.length < 2 then
        .error s!"join node '{node.id}' must have at least 2 incoming edges, found {inc.length}"
      if out.length ≠ 1 then
        .error s!"join node '{node.id}' must have exactly 1 outgoing edge, found {out.length}"
      checkAll (fun e =>
        if g.hasParallelAncestor e.from_ then .ok ()
        else .error
          s!"join node '{node.id}' is reachable from node '{e.from_}' which is not on a parallel branch path") inc
  | .approval .. =>
      if out.isEmpty then
        .error s!"approval node '{node.id}' must have at least 1 outgoing edge, found 0"

/-- `Graph::validate`: rules 1 to 3, then rules 4 to 11 node by node. -/
def validate (g : Graph) (schemaVersion : Nat) : Except String Unit := do
  checkUnique (fun id => s!"duplicate node id '{id}'") [] (g.nodes.map (·.id))
  if (g.node g.entry).isNone then
    .error s!"entry node '{g.entry}' not found"
  checkAll (fun e =>
    if (g.node e.from_).isNone then .error s!"edge from unknown node '{e.from_}'"
    else if (g.node e.to_).isNone then .error s!"edge to unknown node '{e.to_}'"
    else .ok ()) g.edges
  checkAll (g.validateNode schemaVersion) g.nodes

end Graph

/-- Errors of parsing or validating a `GraphConfig`. -/
inductive GraphError where
  | invalid (message : String)
  | parse (message : String)
  | unsupportedSchemaVersion (version : Nat)
  deriving DecidableEq

/-- The message of a `GraphError`. -/
def GraphError.display : GraphError → String
  | .invalid m => s!"invalid graph: {m}"
  | .parse m => s!"graph JSON parse error: {m}"
  | .unsupportedSchemaVersion v => s!"unsupported graph schemaVersion {v}"

/-- The wire envelope of an agent graph. -/
structure GraphConfig where
  schemaVersion : Nat
  graph : Graph
  deriving DecidableEq

/-- `from_json` on the parsed document: the schema gate, then validation. -/
def GraphConfig.fromJson (cfg : GraphConfig) : Except GraphError GraphConfig :=
  if 1 ≤ cfg.schemaVersion ∧ cfg.schemaVersion ≤ 2 then
    match cfg.graph.validate cfg.schemaVersion with
    | .ok () => .ok cfg
    | .error m => .error (.invalid m)
  else .error (.unsupportedSchemaVersion cfg.schemaVersion)

/-- A document that `from_json` accepts. -/
def GraphConfig.Accepted (cfg : GraphConfig) : Prop := cfg.fromJson = .ok cfg

end Greentic
