import GreenticRunner.FinMap
import GreenticRunner.Json
import GreenticRunner.GraphModel

/-! # Run state, checkpoint records and the router

    `graph/state.rs`, `graph/checkpoint.rs` and `graph/router.rs`.  The JSON
    columns of a record (`graph_json`, `state_json`, `visits_json`,
    `frontier_json`) are kept decoded.  `RunStore` is what
    `InMemoryCheckpointStore` holds for ONE `(tenant, run_id)`: the record and
    the insert-if-absent visit ledger. -/

namespace Greentic

open FinMaps

/-- Speaker role of a message. -/
inductive GraphRole where
  | user
  | assistant
  | tool
  deriving DecidableEq

/-- A single turn in the conversation log. -/
structure GraphMessage where
  role : GraphRole
  content : String
  deriving DecidableEq

/-- Run-scoped state threaded through the executor. -/
structure GraphRunState where
  messages : List GraphMessage
  resolved : Bool
  iterations : Nat
  scratchpad : Json

namespace GraphRunState

/-- `GraphRunState::default`. -/
def default : GraphRunState := ⟨[], false, 0, .null⟩

/-- Append a message; messages are never replaced. -/
def pushMessage (s : GraphRunState) (role : GraphRole) (content : String) : GraphRunState :=
  { s with messages := s.messages ++ [⟨role, content⟩] }

end GraphRunState

/-- Per-node attempt counts (`HashMap<String, u32>`). -/
abbrev Visits : Type := FinMap String Nat

/-- Lifecycle state of a graph run. -/
inductive RunStatus where
  | running
  | awaitingInput
  | succeeded
  | failed
  deriving DecidableEq

/-- The two terminal states. -/
def RunStatus.terminal : RunStatus → Bool
  | .succeeded | .failed => true
  | _ => false

/-- One branch's position inside an in-flight parallel region. -/
structure BranchCursor where
  branch : String
  cursor : String
  state : GraphRunState
  parked : Bool
  visits : Visits

/-- Durable snapshot of one graph run. -/
structure GraphRunRecord where
  runId : String
  graph : GraphConfig
  cursor : String
  state : GraphRunState
  status : RunStatus
  visits : Visits
  frontier : Option (List BranchCursor)

/-- Errors of a checkpoint store. -/
inductive CheckpointError where
  | backend (message : String)
  | serde (message : String)
  deriving DecidableEq

/-- The message of a `CheckpointError`. -/
def CheckpointError.display : CheckpointError → String
  | .backend m => s!"checkpoint backend error: {m}"
  | .serde m => s!"checkpoint serialization error: {m}"

/-- Outcome of `record_node_visit`. -/
inductive NodeVisitOutcome where
  | recorded
  | replayed (stored : Json)

/-- `check_segment`: a key segment must not contain the delimiter. -/
def checkSegment (name value : String) : Except CheckpointError Unit :=
  if ':' ∈ value.toList then
    .error (.backend s!"invalid key segment: {name} '{value}' must not contain ':'")
  else .ok ()

/-- The visit ledger of one run, keyed by node and attempt. -/
abbrev Ledger : Type := String → Nat → Option Json

/-- What the store holds for one run. -/
structure RunStore where
  record : Option GraphRunRecord
  ledger : Ledger

namespace RunStore

/-- A run nobody has started. -/
def empty : RunStore := ⟨none, fun _ _ => none⟩

/-- `save`: create or overwrite the record. -/
def save (st : RunStore) (rec : GraphRunRecord) : Except CheckpointError RunStore := do
  checkSegment "run_id" rec.runId
  return { st with record := some rec }

/-- `record_node_visit`: insert if absent. -/
def recordNodeVisit (st : RunStore) (runId nodeId : String) (attempt : Nat) (result : Json) :
    Except CheckpointError (NodeVisitOutcome × RunStore) := do
  checkSegment "run_id" runId
  checkSegment "node_id" nodeId
  match st.ledger nodeId attempt with
  | some existing => return (.replayed existing, st)
  | none => return (.recorded,
      { st with ledger := fun n a =>
          if n = nodeId ∧ a = attempt then some result else st.ledger n a })

end RunStore

/-- `route`: the target of the router's selected edge. -/
def route (g : Graph) (routerId : String) (state : GraphRunState) : Except GraphError String :=
  match g.node routerId with
  | none => .error (.invalid s!"router '{routerId}' not found")
  | some node =>
      match node.kind with
      | .router maxIterations =>
          let branch :=
            if state.resolved || state.iterations ≥ maxIterations then "resolved" else "loop"
          match g.branchTarget routerId branch with
          | some t => .ok t
          | none => .error (.invalid s!"router '{routerId}' has no '{branch}' edge")
      | _ => .error (.invalid s!"node '{routerId}' is not a router")

/-- The most recent assistant message, or the empty string. -/
def lastAssistantMessage (state : GraphRunState) : String :=
  match state.messages.reverse.find? fun m => m.role = .assistant with
  | some m => m.content
  | none => ""

end Greentic
