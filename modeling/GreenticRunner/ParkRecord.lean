import GreenticRunner.FlowWalk
import GreenticRunner.SerdeFields

/-! # The stored form of a park

    `save_with_run` stores a parked run as the JSON text of a `FlowResumeRecord`, and a resume decodes
    it.  Some fields of the state are never written, which relies on the walk having EMPTIED them
    before every park; the others are written under the rules of their types.  One of the types cannot
    tell two of its values apart: `last_output` is an `Option<Value>`, and a null inside it reads back
    as nothing.

    * `encodeRecord`, `decodeRecord`, `decode_encode` — what is read back of what was written;
    * `drive_clean` — what every park has emptied;
    * `park_roundtrip_iff` — when a park is read back as it was. -/

namespace Greentic.ParkRecord

open AssocMaps Serde Transition

/-! ## The state -/

/-- `NodeOutput`. -/
structure NodeOutput where
  ok : Bool
  payload : Json
  metadata : Json
  created : List Json

/-- `PendingCardAnswers`. -/
structure PendingCardAnswers where
  nodeId : String
  answers : List (String × Json)

/-- `u32`. -/
abbrev U32 : Type := Fin (2 ^ 32)

/-- `ExecutionState`. -/
structure ExecutionState where
  entry : Json
  input : Json
  nodes : AssocMap String NodeOutput
  nodeOrder : List String
  egress : List Json
  lastOutput : Option Json
  redirectCount : U32
  vars : List (String × Json)
  parkTurns : AssocMap String U32
  pendingAgentAwait : AssocMap String Unit
  createdArtifacts : List Json
  pendingApprovalAwait : AssocMap String (Option String)
  pendingApprovalToken : AssocMap String String
  pendingToolAwait : AssocMap String Unit
  pendingCardAnswers : Option PendingCardAnswers
  resumedAt : Option String

/-- `FlowSnapshot`. -/
structure FlowSnapshot where
  packId : String
  flowId : String
  nextFlow : Option String
  nextNode : String
  awaitingSubmit : Bool
  state : ExecutionState

/-- `RunMarker`. -/
structure RunMarker where
  runId : String
  startedAt : String
  agentic : Bool
  seq : Fin (2 ^ 64)
  agentRef : Option String

/-- `FlowResumeRecord`. -/
structure FlowResumeRecord where
  snapshot : FlowSnapshot
  reason : Option String
  run : Option RunMarker

/-! ## What is written -/

/-- `NodeOutput` without the files it created. -/
def encodeNodeOutput (o : NodeOutput) : Json :=
  .obj [("ok", .bool o.ok), ("payload", o.payload), ("meta", o.metadata)]

def encodePending (p : PendingCardAnswers) : Json :=
  .obj [("node_id", .str p.nodeId), ("answers", .obj p.answers)]

/-- A vector that is left out when empty. -/
def unlessEmpty (order : List String) : Option Json :=
  if order.isEmpty then none else some (.arr (order.map .str))

/-- The fields of a state, without the files that it created. -/
def stateFields (s : ExecutionState) : List (String × Json) :=
  (("entry", s.entry) :: ("input", s.input) :: ("nodes", encodeMap encodeNodeOutput s.nodes) ::
    (optional "node_order" (unlessEmpty s.nodeOrder) ++
      ("egress", .arr s.egress) ::
        (optional "last_output" s.lastOutput ++
          ("redirect_count", encodeNat s.redirectCount) :: ("vars", .obj s.vars) ::
            ("park_turns", encodeMap (fun n : U32 => encodeNat n) s.parkTurns) ::
              ("pending_agent_await", encodeMap (fun _ => .null) s.pendingAgentAwait) ::
                ("pending_approval_await", encodeMap (encodeOption .str) s.pendingApprovalAwait) ::
                  ("pending_approval_token", encodeMap .str s.pendingApprovalToken) ::
                    ("pending_tool_await", encodeMap (fun _ => .null) s.pendingToolAwait) ::
                      (optional "pending_card_answers" (s.pendingCardAnswers.map encodePending) ++
                        (optional "resumed_at" (s.resumedAt.map .str) ++ [])))))

def encodeState (s : ExecutionState) : Json := .obj (stateFields s)

def encodeSnapshot (s : FlowSnapshot) : Json :=
  .obj (("pack_id", .str s.packId) :: ("flow_id", .str s.flowId) ::
    (optional "next_flow" (s.nextFlow.map .str) ++
      ("next_node", .str s.nextNode) :: ("awaiting_submit", .bool s.awaitingSubmit) ::
        ("state", encodeState s.state) :: []))

def encodeMarker (m : RunMarker) : Json :=
  .obj (("run_id", .str m.runId) :: ("started_at", .str m.startedAt) :: ("agentic", .bool m.agentic) ::
    ("seq", encodeNat m.seq) :: (optional "agent_ref" (m.agentRef.map .str) ++ []))

def encodeRecord (r : FlowResumeRecord) : Json :=
  .obj (("snapshot", encodeSnapshot r.snapshot) :: ("reason", encodeOption .str r.reason) ::
    (optional "run" (r.run.map encodeMarker) ++ []))

/-! ## What is read -/

/-- The fields of an object. -/
def fields? : Json → Option (List (String × Json))
  | .obj fields => some fields
  | _ => none

def decodeNodeOutput (v : Json) : Option NodeOutput := do
  let fields ← fields? v
  let ok ← required fields "ok" decodeBool
  let payload ← required fields "payload" some
  let metadata ← required fields "meta" some
  return ⟨ok, payload, metadata, []⟩

def decodePending (v : Json) : Option PendingCardAnswers := do
  let fields ← fields? v
  let nodeId ← required fields "node_id" decodeStr
  let answers ← required fields "answers" fields?
  return ⟨nodeId, answers⟩

def decodeState (v : Json) : Option ExecutionState := do
  let fields ← fields? v
  let entry ← withDefault fields "entry" some .null
  let input ← withDefault fields "input" some .null
  let nodes ← withDefault fields "nodes" (decodeMap decodeNodeOutput) .empty
  let nodeOrder ← withDefault fields "node_order" (decodeList decodeStr) []
  let egress ← withDefault fields "egress" (decodeList some) []
  let lastOutput ← withDefault fields "last_output" (decodeOption some) none
  let redirectCount ← withDefault fields "redirect_count" (decodeNat 32) 0
  let vars ← withDefault fields "vars" fields? []
  let parkTurns ← withDefault fields "park_turns" (decodeMap (decodeNat 32)) .empty
  let pendingAgentAwait ← withDefault fields "pending_agent_await" (decodeMap decodeUnit) .empty
  let pendingApprovalAwait ←
    withDefault fields "pending_approval_await" (decodeMap (decodeOption decodeStr)) .empty
  let pendingApprovalToken ← withDefault fields "pending_approval_token" (decodeMap decodeStr) .empty
  let pendingToolAwait ← withDefault fields "pending_tool_await" (decodeMap decodeUnit) .empty
  let pendingCardAnswers ← withDefault fields "pending_card_answers" (decodeOption decodePending) none
  let resumedAt ← withDefault fields "resumed_at" (decodeOption decodeStr) none
  return {
    entry, input, nodes, nodeOrder, egress, lastOutput, redirectCount, vars, parkTurns,
    pendingAgentAwait, createdArtifacts := [], pendingApprovalAwait, pendingApprovalToken,
    pendingToolAwait, pendingCardAnswers, resumedAt }

def decodeSnapshot (v : Json) : Option FlowSnapshot := do
  let fields ← fields? v
  let packId ← required fields "pack_id" decodeStr
  let flowId ← required fields "flow_id" decodeStr
  let nextFlow ← withDefault fields "next_flow" (decodeOption decodeStr) none
  let nextNode ← required fields "next_node" decodeStr
  let awaitingSubmit ← withDefault fields "awaiting_submit" decodeBool false
  let state ← required fields "state" decodeState
  return ⟨packId, flowId, nextFlow, nextNode, awaitingSubmit, state⟩

def decodeMarker (v : Json) : Option RunMarker := do
  let fields ← fields? v
  let runId ← required fields "run_id" decodeStr
  let startedAt ← required fields "started_at" decodeStr
  let agentic ← withDefault fields "agentic" decodeBool false
  let seq ← withDefault fields "seq" (decodeNat 64) 0
  let agentRef ← withDefault fields "agent_ref" (decodeOption decodeStr) none
  return ⟨runId, startedAt, agentic, seq, agentRef⟩

def decodeRecord (v : Json) : Option FlowResumeRecord := do
  let fields ← fields? v
  let snapshot ← required fields "snapshot" decodeSnapshot
  let reason ← withDefault fields "reason" (decodeOption decodeStr) none
  let run ← withDefault fields "run" (decodeOption decodeMarker) none
  return ⟨snapshot, reason, run⟩

/-! ## What is read back -/

/-- An output as it is read back. -/
def NodeOutput.written (o : NodeOutput) : NodeOutput := { o with created := [] }

/-- A state as it is read back: without files, and a null as last output is none. -/
def ExecutionState.written (s : ExecutionState) : ExecutionState :=
  { s with
    nodes := mapValues NodeOutput.written s.nodes
    lastOutput := s.lastOutput.filter fun v => !v.isNull
    createdArtifacts := [] }

def FlowResumeRecord.written (r : FlowResumeRecord) : FlowResumeRecord :=
  { r with snapshot := { r.snapshot with state := r.snapshot.state.written } }

/-- A node's output comes back as it was written. -/
theorem decodeNodeOutput_encode (o : NodeOutput) :
    decodeNodeOutput (encodeNodeOutput o) = some o.written := by
  simp (disch := decide) only [decodeNodeOutput, encodeNodeOutput, fields?, required_cons_self,
    required_cons_of_ne, Option.bind_eq_bind, Option.bind_some]
  rfl

/-- Pending answers come back. -/
theorem decodePending_encode (p : PendingCardAnswers) : decodePending (encodePending p) = some p := by
  simp (disch := decide) only [decodePending, encodePending, fields?, required_cons_self,
    required_cons_of_ne, Option.bind_eq_bind, Option.bind_some]
  rfl

theorem decodeStr_str (s : String) : decodeStr (.str s) = some s := rfl

theorem decodeOption_str (v : Option String) :
    (Option.map (decodeOption decodeStr) (v.map Json.str)).getD (some none) = some v := by
  cases v <;> rfl

/-- Pending answers that may be left out come back. -/
theorem decodeOption_pending (v : Option PendingCardAnswers) :
    (Option.map (decodeOption decodePending) (v.map encodePending)).getD (some none) = some v := by
  cases v with
  | none => rfl
  | some p =>
      show (decodePending (encodePending p)).map some = _
      rw [decodePending_encode]
      rfl

/-- The last output: null is nothing. -/
theorem decodeOption_value (v : Option Json) :
    (v.map (decodeOption some)).getD (some none) = some (v.filter fun w => !w.isNull) := by
  cases v with
  | none => rfl
  | some w => cases w <;> rfl

/-- A list left out when it is empty comes back. -/
theorem decodeList_unlessEmpty (order : List String) :
    ((unlessEmpty order).map (decodeList decodeStr)).getD (some []) = some order := by
  unfold unlessEmpty
  split
  · rename_i hempty
    rw [List.isEmpty_iff.mp hempty]
    rfl
  · rw [Option.map_some, Option.getD_some, decodeList_encode decodeStr_str, List.map_id']

theorem decodeList_values (items : List Json) : decodeList some (.arr items) = some items := by
  have h := decodeList_encode (fun v : Json => (rfl : some v = some (id v))) items
  rwa [List.map_id'] at h

/-- A map whose values come back comes back. -/
theorem decodeMap_same {α : Type} {encode : α → Json} {decode : Json → Option α}
    (h : ∀ a, decode (encode a) = some a) (m : AssocMap String α) :
    decodeMap decode (encodeMap encode m) = some m := by
  rw [decodeMap_encode (g := id) h, mapValues_id]

set_option linter.unusedSimpArgs false in
/-- **WHAT IS READ BACK OF A STATE.** -/
theorem decodeState_encode (s : ExecutionState) : decodeState (encodeState s) = some s.written := by
  have hoption : ∀ v : Option String,
      decodeOption decodeStr (encodeOption Json.str v) = some v :=
    decodeOption_encode (fun _ => nofun) decodeStr_str
  have hEntry : withDefault (stateFields s) "entry" some Json.null =
      some s.entry := by
    simp (disch := decide) only [stateFields, withDefault_nil, withDefault_cons_self,
      withDefault_cons_of_ne, withDefault_optional_self, withDefault_optional_of_ne]
  have hInput : withDefault (stateFields s) "input" some Json.null =
      some s.input := by
    simp (disch := decide) only [stateFields, withDefault_nil, withDefault_cons_self,
      withDefault_cons_of_ne, withDefault_optional_self, withDefault_optional_of_ne]
  have hNodes : withDefault (stateFields s) "nodes" (decodeMap decodeNodeOutput) .empty =
      some (mapValues NodeOutput.written s.nodes) := by
    simp (disch := decide) only [stateFields, withDefault_nil, withDefault_cons_self,
      withDefault_cons_of_ne, withDefault_optional_self, withDefault_optional_of_ne, decodeMap_encode decodeNodeOutput_encode]
  have hNodeOrder : withDefault (stateFields s) "node_order" (decodeList decodeStr) [] =
      some s.nodeOrder := by
    simp (disch := decide) only [stateFields, withDefault_nil, withDefault_cons_self,
      withDefault_cons_of_ne, withDefault_optional_self, withDefault_optional_of_ne, decodeList_unlessEmpty]
  have hEgress : withDefault (stateFields s) "egress" (decodeList some) [] =
      some s.egress := by
    simp (disch := decide) only [stateFields, withDefault_nil, withDefault_cons_self,
      withDefault_cons_of_ne, withDefault_optional_self, withDefault_optional_of_ne, decodeList_values]
  have hLastOutput : withDefault (stateFields s) "last_output" (decodeOption some) none =
      some (s.lastOutput.filter fun v => !v.isNull) := by
    simp (disch := decide) only [stateFields, withDefault_nil, withDefault_cons_self,
      withDefault_cons_of_ne, withDefault_optional_self, withDefault_optional_of_ne, decodeOption_value]
  have hRedirectCount : withDefault (stateFields s) "redirect_count" (decodeNat 32) 0 =
      some s.redirectCount := by
    simp (disch := decide) only [stateFields, withDefault_nil, withDefault_cons_self,
      withDefault_cons_of_ne, withDefault_optional_self, withDefault_optional_of_ne, decodeNat_encode]
  have hVars : withDefault (stateFields s) "vars" fields? [] =
      some s.vars := by
    simp (disch := decide) only [stateFields, withDefault_nil, withDefault_cons_self,
      withDefault_cons_of_ne, withDefault_optional_self, withDefault_optional_of_ne, fields?]
  have hParkTurns : withDefault (stateFields s) "park_turns" (decodeMap (decodeNat 32)) .empty =
      some s.parkTurns := by
    simp (disch := decide) only [stateFields, withDefault_nil, withDefault_cons_self,
      withDefault_cons_of_ne, withDefault_optional_self, withDefault_optional_of_ne,
      decodeMap_same (fun n : U32 => decodeNat_encode n)]
  have hPendingAgentAwait : withDefault (stateFields s) "pending_agent_await" (decodeMap decodeUnit) .empty =
      some s.pendingAgentAwait := by
    simp (disch := decide) only [stateFields, withDefault_nil, withDefault_cons_self,
      withDefault_cons_of_ne, withDefault_optional_self, withDefault_optional_of_ne,
      decodeMap_same (fun _ : Unit => (rfl : decodeUnit .null = some ()))]
  have hPendingApprovalAwait : withDefault (stateFields s) "pending_approval_await" (decodeMap (decodeOption decodeStr)) .empty =
      some s.pendingApprovalAwait := by
    simp (disch := decide) only [stateFields, withDefault_nil, withDefault_cons_self,
      withDefault_cons_of_ne, withDefault_optional_self, withDefault_optional_of_ne, decodeMap_same hoption]
  have hPendingApprovalToken : withDefault (stateFields s) "pending_approval_token" (decodeMap decodeStr) .empty =
      some s.pendingApprovalToken := by
    simp (disch := decide) only [stateFields, withDefault_nil, withDefault_cons_self,
      withDefault_cons_of_ne, withDefault_optional_self, withDefault_optional_of_ne, decodeMap_same decodeStr_str]
  have hPendingToolAwait : withDefault (stateFields s) "pending_tool_await" (decodeMap decodeUnit) .empty =
      some s.pendingToolAwait := by
    simp (disch := decide) only [stateFields, withDefault_nil, withDefault_cons_self,
      withDefault_cons_of_ne, withDefault_optional_self, withDefault_optional_of_ne,
      decodeMap_same (fun _ : Unit => (rfl : decodeUnit .null = some ()))]
  have hPendingCardAnswers : withDefault (stateFields s) "pending_card_answers" (decodeOption decodePending) none =
      some s.pendingCardAnswers := by
    simp (disch := decide) only [stateFields, withDefault_nil, withDefault_cons_self,
      withDefault_cons_of_ne, withDefault_optional_self, withDefault_optional_of_ne, decodeOption_pending]
  have hResumedAt : withDefault (stateFields s) "resumed_at" (decodeOption decodeStr) none =
      some s.resumedAt := by
    simp (disch := decide) only [stateFields, withDefault_nil, withDefault_cons_self,
      withDefault_cons_of_ne, withDefault_optional_self, withDefault_optional_of_ne, decodeOption_str]
  rw [decodeState, encodeState, fields?]
  dsimp only [Option.bind_eq_bind, Option.bind_some]
  rw [hEntry, hInput, hNodes, hNodeOrder, hEgress, hLastOutput, hRedirectCount, hVars, hParkTurns,
    hPendingAgentAwait, hPendingApprovalAwait, hPendingApprovalToken, hPendingToolAwait,
    hPendingCardAnswers, hResumedAt]
  rfl

/-- A snapshot comes back with its state as it was written. -/
theorem decodeSnapshot_encode (s : FlowSnapshot) :
    decodeSnapshot (encodeSnapshot s) = some { s with state := s.state.written } := by
  simp (disch := decide) only [decodeSnapshot, encodeSnapshot, fields?, required_cons_self,
    required_cons_of_ne, required_optional_of_ne, withDefault_nil, withDefault_cons_self,
    withDefault_cons_of_ne, withDefault_optional_self, withDefault_optional_of_ne,
    Option.bind_eq_bind, Option.bind_some, decodeState_encode, decodeStr_str, decodeOption_str]
  rfl

/-- A marker comes back. -/
theorem decodeMarker_encode (m : RunMarker) : decodeMarker (encodeMarker m) = some m := by
  simp (disch := decide) only [decodeMarker, encodeMarker, fields?, required_cons_self,
    required_cons_of_ne, withDefault_nil, withDefault_cons_self, withDefault_cons_of_ne,
    withDefault_optional_self, Option.bind_eq_bind, Option.bind_some, decodeStr_str, decodeNat_encode,
    decodeOption_str]
  rfl

/-- So does one that may be left out. -/
theorem decodeOption_marker (v : Option RunMarker) :
    (Option.map (decodeOption decodeMarker) (v.map encodeMarker)).getD (some none) = some v := by
  cases v with
  | none => rfl
  | some m =>
      show (decodeMarker (encodeMarker m)).map some = _
      rw [decodeMarker_encode]
      rfl

/-- **WHAT IS READ BACK OF A RECORD.** -/
theorem decode_encode (r : FlowResumeRecord) : decodeRecord (encodeRecord r) = some r.written := by
  have hoption : ∀ v : Option String,
      decodeOption decodeStr (encodeOption Json.str v) = some v :=
    decodeOption_encode (fun _ => nofun) decodeStr_str
  simp (disch := decide) only [decodeRecord, encodeRecord, fields?, required_cons_self, withDefault_nil,
    withDefault_cons_self, withDefault_cons_of_ne, withDefault_optional_self, Option.bind_eq_bind,
    Option.bind_some, decodeSnapshot_encode, hoption, decodeOption_marker]
  rfl

/-! ## Numbers -/

section Renumber

variable (f : String → String)

/-- The fields with `f` of every number. -/
def renumberFields (fields : List (String × Json)) : List (String × Json) :=
  fields.map fun p => (p.1, p.2.mapNumbers f)

def NodeOutput.renumber (o : NodeOutput) : NodeOutput :=
  { o with payload := o.payload.mapNumbers f, metadata := o.metadata.mapNumbers f }

def PendingCardAnswers.renumber (p : PendingCardAnswers) : PendingCardAnswers :=
  { p with answers := renumberFields f p.answers }

/-- A state with `f` of every number in its values. -/
def ExecutionState.renumber (s : ExecutionState) : ExecutionState :=
  { s with
    entry := s.entry.mapNumbers f
    input := s.input.mapNumbers f
    nodes := mapValues (NodeOutput.renumber f) s.nodes
    egress := s.egress.map (Json.mapNumbers f)
    lastOutput := s.lastOutput.map (Json.mapNumbers f)
    vars := renumberFields f s.vars
    pendingCardAnswers := s.pendingCardAnswers.map (PendingCardAnswers.renumber f) }

def FlowResumeRecord.renumber (r : FlowResumeRecord) : FlowResumeRecord :=
  { r with snapshot := { r.snapshot with state := r.snapshot.state.renumber f } }

variable {f}

/-- The numbers of a written output are those of the output. -/
theorem encodeNodeOutput_renumber (o : NodeOutput) :
    (encodeNodeOutput o).mapNumbers f = encodeNodeOutput (o.renumber f) := by
  rw [encodeNodeOutput, Json.mapNumbers_obj]
  rfl

theorem encodePending_renumber (p : PendingCardAnswers) :
    (encodePending p).mapNumbers f = encodePending (p.renumber f) := by
  simp [encodePending, PendingCardAnswers.renumber, renumberFields]

/-- The same for a map, value by value. -/
theorem encodeMap_mapNumbers {α β : Type} {encode : α → Json} {encode' : β → Json} {g : α → β}
    (h : ∀ a, (encode a).mapNumbers f = encode' (g a)) (m : AssocMap String α) :
    (encodeMap encode m).mapNumbers f = encodeMap encode' (mapValues g m) := by
  rw [encodeMap, Json.mapNumbers_obj, encodeMap, mapValues, List.map_map, List.map_map]
  refine congrArg Json.obj (List.map_congr_left ?_)
  intro p _
  exact congrArg (Prod.mk p.1) (h p.2)

theorem encodeMap_unnumbered {α : Type} {encode : α → Json} (h : ∀ a, (encode a).mapNumbers f = encode a)
    (m : AssocMap String α) : (encodeMap encode m).mapNumbers f = encodeMap encode m := by
  rw [encodeMap_mapNumbers (g := id) h, mapValues_id]

/-- A list of names has no numbers. -/
theorem unlessEmpty_mapNumbers (order : List String) :
    (unlessEmpty order).map (Json.mapNumbers f) = unlessEmpty order := by
  unfold unlessEmpty
  split
  · rfl
  · rw [Option.map_some, Json.mapNumbers_arr, List.map_map]
    rfl

/-- Nor has a string. -/
theorem map_str_mapNumbers (v : Option String) :
    (v.map Json.str).map (Json.mapNumbers f) = v.map Json.str := by
  cases v <;> rfl

/-- A number of a counter reads back. -/
def ReadsCounters (f : String → String) : Prop := ∀ n : Nat, n < 2 ^ 64 → f n.repr = n.repr

theorem encodeNat_mapNumbers (hf : ReadsCounters f) {n : Nat} (h : n < 2 ^ 64) :
    (encodeNat n).mapNumbers f = encodeNat n := by
  rw [encodeNat, Json.mapNumbers, hf n h]

/-- The numbers of a written state are those of the state. -/
theorem stateFields_renumber (hf : ReadsCounters f) (s : ExecutionState) :
    (stateFields s).map (fun p => (p.1, p.2.mapNumbers f)) = stateFields (s.renumber f) := by
  have hcount : ∀ n : U32, (encodeNat n).mapNumbers f = encodeNat n :=
    fun n => encodeNat_mapNumbers hf (Nat.lt_trans n.isLt (by decide))
  have hpending : Option.map (Json.mapNumbers f) (s.pendingCardAnswers.map encodePending) =
      (s.pendingCardAnswers.map (PendingCardAnswers.renumber f)).map encodePending := by
    cases s.pendingCardAnswers with
    | none => rfl
    | some p => exact congrArg some (encodePending_renumber p)
  have happroval : (encodeMap (encodeOption Json.str) s.pendingApprovalAwait).mapNumbers f =
      encodeMap (encodeOption Json.str) s.pendingApprovalAwait :=
    encodeMap_unnumbered (fun v => by cases v <;> rfl) _
  simp only [stateFields, List.map_cons, List.map_append, List.map_nil, mapNumbers_optional,
    unlessEmpty_mapNumbers, map_str_mapNumbers, hcount, hpending, happroval,
    encodeMap_mapNumbers encodeNodeOutput_renumber, encodeMap_unnumbered hcount,
    encodeMap_unnumbered (fun _ : Unit => (rfl : Json.null.mapNumbers f = .null)),
    encodeMap_unnumbered (fun s => (rfl : (Json.str s).mapNumbers f = .str s)), Json.mapNumbers_arr,
    Json.mapNumbers_obj, ExecutionState.renumber, renumberFields]

/-- The same for a snapshot. -/
theorem encodeSnapshot_renumber (hf : ReadsCounters f) (s : FlowSnapshot) :
    (encodeSnapshot s).mapNumbers f = encodeSnapshot { s with state := s.state.renumber f } := by
  have hstate : (encodeState s.state).mapNumbers f = encodeState (s.state.renumber f) := by
    rw [encodeState, Json.mapNumbers_obj, stateFields_renumber hf, encodeState]
  simp only [encodeSnapshot, Json.mapNumbers_obj, List.map_cons, List.map_append, List.map_nil,
    mapNumbers_optional, map_str_mapNumbers, hstate, Json.mapNumbers_str, Json.mapNumbers_bool]

/-- A marker has counters only. -/
theorem encodeMarker_renumber (hf : ReadsCounters f) (m : RunMarker) :
    (encodeMarker m).mapNumbers f = encodeMarker m := by
  simp only [encodeMarker, Json.mapNumbers_obj, List.map_cons, List.map_append, List.map_nil,
    mapNumbers_optional, map_str_mapNumbers, encodeNat_mapNumbers hf m.seq.isLt, Json.mapNumbers_str,
    Json.mapNumbers_bool]

/-- **THE RECORD WITH ITS NUMBERS READ BACK** is the form of a record. -/
theorem encodeRecord_renumber (hf : ReadsCounters f) (r : FlowResumeRecord) :
    (encodeRecord r).mapNumbers f = encodeRecord (r.renumber f) := by
  have hrun : Option.map (Json.mapNumbers f) (r.run.map encodeMarker) = r.run.map encodeMarker := by
    cases r.run with
    | none => rfl
    | some m => exact congrArg some (encodeMarker_renumber hf m)
  have hreason : (encodeOption Json.str r.reason).mapNumbers f = encodeOption Json.str r.reason := by
    cases r.reason <;> rfl
  simp only [encodeRecord, Json.mapNumbers_obj, List.map_cons, List.map_append, List.map_nil,
    mapNumbers_optional, hrun, hreason, encodeSnapshot_renumber hf, FlowResumeRecord.renumber]

end Renumber

/-! ## The rounds that lead to a park -/

namespace ExecutionState

/-- `ExecutionState::new`. -/
def new (input : Json) (vars : List (String × Json)) : ExecutionState where
  entry := input
  input := input
  nodes := .empty
  nodeOrder := []
  egress := []
  lastOutput := none
  redirectCount := 0
  vars := vars
  parkTurns := .empty
  pendingAgentAwait := .empty
  createdArtifacts := []
  pendingApprovalAwait := .empty
  pendingApprovalToken := .empty
  pendingToolAwait := .empty
  pendingCardAnswers := none
  resumedAt := none

/-- `record_node_output`. -/
def recordNodeOutput (s : ExecutionState) (nodeId : String) (output : NodeOutput) : ExecutionState :=
  { s with
    nodeOrder := s.nodeOrder.filter (· ≠ nodeId) ++ [nodeId]
    nodes := s.nodes.insert nodeId output }

/-- The id of a file. -/
def fileId (file : Json) : Option String := (file.get? "id").bind Json.asStr?

/-- `note_created_artifacts`. -/
def noteCreatedArtifacts (s : ExecutionState) (created : List Json) : ExecutionState :=
  { s with
    createdArtifacts := created.foldl (fun seen file =>
      if 20 ≤ seen.length then seen
      else if (fileId file).isSome && !seen.any (fun f => fileId f == fileId file) then seen ++ [file]
      else seen) s.createdArtifacts }

/-- `clear_egress`. -/
def clearEgress (s : ExecutionState) : ExecutionState := { s with egress := [], createdArtifacts := [] }

end ExecutionState

/-- What the dispatch of a node may change of the state. -/
structure Dispatched where
  egress : List Json
  vars : List (String × Json)
  parkTurns : AssocMap String U32
  pendingAgentAwait : AssocMap String Unit
  pendingApprovalAwait : AssocMap String (Option String)
  pendingApprovalToken : AssocMap String String
  pendingToolAwait : AssocMap String Unit

/-- What the control of a node and its routing decide. -/
inductive Next where
  | goto (nodeId : String)
  | ends
  | waits
  | session (target : String)
  | loops
  | awaits
  | jump (flowId nodeId : String) (payload : Json)
  | fails

/-- What a round is given from outside: what the dispatch of its node did and handed back, the mapping
    of a card, the variables after `vars_out`, and where it leads. -/
structure Visit where
  dispatched : Dispatched
  output : NodeOutput
  payloadExpr : Json
  vars : List (String × Json)
  next : Next

/-- A turn. -/
inductive Progress where
  | walking (flowId nodeId : String) (s : ExecutionState)
  | parked (snapshot : FlowSnapshot)
  | completed
  | failed

/-- `dispatch_node`. -/
def ExecutionState.dispatch (s : ExecutionState) (d : Dispatched) : ExecutionState :=
  { s with
    egress := d.egress
    vars := d.vars
    parkTurns := d.parkTurns
    pendingAgentAwait := d.pendingAgentAwait
    pendingApprovalAwait := d.pendingApprovalAwait
    pendingApprovalToken := d.pendingApprovalToken
    pendingToolAwait := d.pendingToolAwait }

/-- `attach_pending_card_answers`: whether the submit was for this node, its output and the state. -/
def attachPendingCardAnswers (s : ExecutionState) (nodeId : String) (payloadExpr : Json)
    (output : NodeOutput) : Bool × NodeOutput × ExecutionState :=
  match s.pendingCardAnswers with
  | none => (false, output, s)
  | some pending =>
      if pending.nodeId = nodeId then
        (true, { output with
          payload := FlowWalk.answeredPayload payloadExpr pending.answers output.payload },
          { s with pendingCardAnswers := none })
      else (false, output, s)

/-- The state after a node has routed. -/
def ExecutionState.spend (s : ExecutionState) (owned : Bool) : ExecutionState :=
  { s with
    entry := if owned then FlowWalk.consumeRoutingAction s.entry else s.entry
    resumedAt := none }

/-- `saturating_add`. -/
def increment (n : U32) : U32 := if h : n.val + 1 < 2 ^ 32 then ⟨n.val + 1, h⟩ else n

/-- The state after the output of a node was taken in. -/
def ExecutionState.take (s : ExecutionState) (nodeId : String) (output : NodeOutput)
    (vars : List (String × Json)) : ExecutionState :=
  { (s.noteCreatedArtifacts output.created).recordNodeOutput nodeId { output with created := [] } with
    lastOutput := some output.payload
    vars := vars }

/-- One round of the loop of `drive_flow_tracked`. -/
def round (packId flowId nodeId : String) (s : ExecutionState) (v : Visit) : Progress :=
  let (owned, output, s) :=
    attachPendingCardAnswers (s.dispatch v.dispatched) nodeId v.payloadExpr v.output
  let s := s.take nodeId output v.vars
  match v.next with
  | .goto n => .walking flowId n (s.spend owned)
  | .ends => .completed
  | .waits => .parked ⟨packId, flowId, none, nodeId, true, (s.spend owned).clearEgress⟩
  | .session target => .parked ⟨packId, flowId, none, target, false, s.clearEgress⟩
  | .loops => .parked ⟨packId, flowId, none, nodeId, false, s.clearEgress⟩
  | .awaits => .parked ⟨packId, flowId, none, nodeId, false, s.clearEgress⟩
  | .jump flow n payload =>
      -- `apply_jump`, of a jump that is not refused.
      .walking flow n { s with
        redirectCount := increment s.redirectCount
        input := payload
        lastOutput := some payload }
  | .fails => .failed

/-- `resume_with_options`. -/
def resume (snapshot : FlowSnapshot) (input : Json) : Progress :=
  .walking (snapshot.nextFlow.getD snapshot.flowId) snapshot.nextNode { snapshot.state with
    resumedAt := if snapshot.awaitingSubmit then some snapshot.nextNode else none
    redirectCount := 0
    input := input
    pendingCardAnswers :=
      if snapshot.awaitingSubmit then some ⟨snapshot.nextNode, FlowWalk.submittedFields input⟩ else none
    entry := input }

/-- What happens next. -/
inductive DriveEvent where
  | round (v : Visit)
  | resume (input : Json)

/-- The step of a run, over its rounds and the turns that resume it. -/
def drive (packId : String) : Progress → DriveEvent → Option Progress
  | .walking flowId nodeId s, .round v => some (round packId flowId nodeId s v)
  | .parked snapshot, .resume input => some (resume snapshot input)
  | _, _ => none

/-! ## What every park has emptied -/

/-- No output in the state holds files. -/
def CleanNodes (s : ExecutionState) : Prop := ∀ p ∈ s.nodes.entries, p.2.created = []

/-- Attaching the pending answers leaves the outputs. -/
theorem attach_nodes (s : ExecutionState) (nodeId : String) (payloadExpr : Json) (output : NodeOutput) :
    (attachPendingCardAnswers s nodeId payloadExpr output).2.2.nodes = s.nodes := by
  unfold attachPendingCardAnswers
  split
  · rfl
  · split
    · rfl
    · rfl

/-- A clean state stays clean as it takes an output. -/
theorem CleanNodes.take {s : ExecutionState} (h : CleanNodes s) (nodeId : String) (output : NodeOutput)
    (vars : List (String × Json)) : CleanNodes (s.take nodeId output vars) := by
  intro p hp
  rcases AssocMap.mem_insert hp with rfl | hold
  · rfl
  · exact h p hold

/-- What holds of a run: its outputs hold no files, and a park no emitted payload and no file. -/
def CleanRun : Progress → Prop
  | .walking _ _ s => CleanNodes s
  | .parked snapshot => CleanNodes snapshot.state ∧ snapshot.state.createdArtifacts = []
  | .completed => True
  | .failed => True

/-- One round of the loop keeps it clean. -/
theorem CleanRun.round {s : ExecutionState} (h : CleanNodes s) (packId flowId nodeId : String)
    (v : Visit) : CleanRun (round packId flowId nodeId s v) := by
  have hattached : CleanNodes
      (attachPendingCardAnswers (s.dispatch v.dispatched) nodeId v.payloadExpr v.output).2.2 := by
    rw [CleanNodes, attach_nodes]
    exact h
  have htaken := hattached.take nodeId
    (attachPendingCardAnswers (s.dispatch v.dispatched) nodeId v.payloadExpr v.output).2.1 v.vars
  unfold ParkRecord.round
  dsimp only
  cases v.next with
  | goto n => exact htaken
  | ends => trivial
  | waits => exact ⟨htaken, rfl⟩
  | session target => exact ⟨htaken, rfl⟩
  | loops => exact ⟨htaken, rfl⟩
  | awaits => exact ⟨htaken, rfl⟩
  | jump flow n payload => exact htaken
  | fails => trivial

/-- **EVERY PARK HAS EMPTIED WHAT IS NOT WRITTEN.** -/
theorem drive_clean {packId flowId nodeId : String} {input : Json} {vars : List (String × Json)}
    {p : Progress} (h : Reach (drive packId) Any (.walking flowId nodeId (.new input vars)) p) :
    CleanRun p := by
  refine Reach.inv ?_ ?_ h
  · intro p hp
    exact nomatch hp
  · intro p e p' hp _ hs
    cases p with
    | walking flow node s =>
        cases e with
        | round v =>
            cases hs
            exact CleanRun.round hp packId flow node v
        | resume input => exact nomatch hs
    | parked snapshot =>
        cases e with
        | round v => exact nomatch hs
        | resume input =>
            cases hs
            exact hp.1
    | completed => exact nomatch hs
    | failed => exact nomatch hs

/-! ## The round trip -/

/-- What `save_with_run` stores. -/
def save (r : FlowResumeRecord) : String := (encodeRecord r).render

/-- What `fetch_record` makes of it; `fromStr` reads a text as JSON. -/
def load (fromStr : String → Option Json) (text : String) : Option FlowResumeRecord :=
  (fromStr text).bind decodeRecord

/-- `serde_json::from_str`, of a text that was printed: it refuses to nest deeper than its limit, and
    reads numbers with `readNumber`. -/
def Rereads (fromStr : String → Option Json) (readNumber : String → String) (v : Json) : Prop :=
  fromStr v.render = if v.depth ≤ 127 then some (v.mapNumbers readNumber) else none

section RoundTrip

variable {f : String → String} {r : FlowResumeRecord}

/-- The outputs of a clean state come back as they were. -/
theorem written_nodes {s : ExecutionState} (h : CleanNodes s) :
    mapValues NodeOutput.written s.nodes = s.nodes := by
  unfold CleanNodes at h
  generalize s.nodes = nodes at h
  obtain ⟨entries, nodup⟩ := nodes
  have hsame : entries.map (fun p => (p.1, p.2.written)) = entries := by
    refine (List.map_congr_left ?_).trans (List.map_id _)
    rintro ⟨id, o⟩ hp
    have hcreated : o.created = [] := h (id, o) hp
    obtain ⟨ok, payload, metadata, created⟩ := o
    cases hcreated
    rfl
  simp only [mapValues, hsame]

/-- New numbers keep it clean. -/
theorem CleanNodes.renumber {s : ExecutionState} (h : CleanNodes s) : CleanNodes (s.renumber f) := by
  intro p hp
  obtain ⟨q, hq, rfl⟩ := List.mem_map.mp hp
  exact h q hq

/-- A state that is read back as it was. -/
theorem written_eq {s : ExecutionState} (h : CleanNodes s) (hfiles : s.createdArtifacts = [])
    (hlast : s.lastOutput ≠ some .null) : s.written = s := by
  have hfilter : s.lastOutput.filter (fun v => !v.isNull) = s.lastOutput := by
    cases hv : s.lastOutput with
    | none => rfl
    | some v =>
        rw [hv] at hlast
        cases v with
        | null => exact absurd rfl hlast
        | bool b => rfl
        | num t => rfl
        | str t => rfl
        | arr items => rfl
        | obj fields => rfl
  rw [ExecutionState.written, written_nodes h, hfilter, ← hfiles]

/-- New numbers make no output null. -/
theorem renumber_lastOutput (s : ExecutionState) :
    (s.renumber f).lastOutput = some .null ↔ s.lastOutput = some .null := by
  show s.lastOutput.map (Json.mapNumbers f) = some .null ↔ _
  cases s.lastOutput with
  | none => exact ⟨fun h => (nomatch h), fun h => (nomatch h)⟩
  | some v =>
      rw [Option.map_some, Option.some_inj, Json.mapNumbers_eq_null, Option.some_inj]

/-- What is read back is the record exactly if its last output is not null and its numbers are read as
    they are. -/
theorem written_renumber_eq_iff (h : CleanNodes r.snapshot.state)
    (hfiles : r.snapshot.state.createdArtifacts = []) :
    (r.renumber f).written = r ↔
      r.snapshot.state.lastOutput ≠ some .null ∧ r.snapshot.state.renumber f = r.snapshot.state := by
  have hstate : (r.renumber f).written = r ↔
      (r.snapshot.state.renumber f).written = r.snapshot.state := by
    obtain ⟨⟨packId, flowId, nextFlow, nextNode, awaitingSubmit, state⟩, reason, run⟩ := r
    constructor
    · intro heq
      exact congrArg (fun r => r.snapshot.state) heq
    · intro heq
      show FlowResumeRecord.mk ⟨packId, flowId, nextFlow, nextNode, awaitingSubmit,
        (state.renumber f).written⟩ reason run = _
      rw [heq]
  rw [hstate]
  constructor
  · intro heq
    have hlast : r.snapshot.state.lastOutput ≠ some .null := by
      intro hnull
      have hread := congrArg ExecutionState.lastOutput heq
      change ((r.snapshot.state.renumber f).lastOutput).filter _ = _ at hread
      rw [(renumber_lastOutput r.snapshot.state).mpr hnull, hnull] at hread
      exact nomatch hread
    refine ⟨hlast, ?_⟩
    rw [written_eq h.renumber hfiles fun hn => hlast ((renumber_lastOutput _).mp hn)] at heq
    exact heq
  · rintro ⟨hlast, hnumbers⟩
    rw [hnumbers]
    exact written_eq h hfiles hlast

/-- **A PARK IS READ BACK AS IT WAS** exactly if its last output is not null, its numbers are read as
    they are, and its record does not nest deeper than `from_str` reads. -/
theorem park_roundtrip_iff {fromStr : String → Option Json} (hf : ReadsCounters f)
    {packId flowId nodeId : String} {input : Json} {vars : List (String × Json)}
    {snapshot : FlowSnapshot}
    (h : Reach (drive packId) Any (.walking flowId nodeId (.new input vars)) (.parked snapshot))
    (reason : Option String) (run : Option RunMarker)
    (hread : Rereads fromStr f (encodeRecord ⟨snapshot, reason, run⟩)) :
    load fromStr (save ⟨snapshot, reason, run⟩) = some ⟨snapshot, reason, run⟩ ↔
      snapshot.state.lastOutput ≠ some .null ∧ snapshot.state.renumber f = snapshot.state ∧
        (encodeRecord ⟨snapshot, reason, run⟩).depth ≤ 127 := by
  obtain ⟨hclean, hfiles⟩ := drive_clean h
  rw [load, save, hread]
  by_cases hdepth : (encodeRecord ⟨snapshot, reason, run⟩).depth ≤ 127
  · have hiff := written_renumber_eq_iff (f := f) (r := ⟨snapshot, reason, run⟩) hclean hfiles
    rw [if_pos hdepth, Option.bind_some, encodeRecord_renumber hf, decode_encode, Option.some_inj, hiff]
    constructor
    · rintro ⟨hlast, hnumbers⟩
      exact ⟨hlast, hnumbers, hdepth⟩
    · rintro ⟨hlast, hnumbers, -⟩
      exact ⟨hlast, hnumbers⟩
  · rw [if_neg hdepth, Option.bind_none]
    constructor
    · exact fun hnone => (nomatch hnone)
    · rintro ⟨-, -, hle⟩
      exact absurd hle hdepth

end RoundTrip

/-- A node hands a value back, and the turn waits for the session. -/
def waitVisit (payload : Json) : Visit where
  dispatched := ⟨[], [], .empty, .empty, .empty, .empty, .empty⟩
  output := ⟨true, payload, .null, []⟩
  payloadExpr := .null
  vars := []
  next := .session "after"

/-- The park that it leaves. -/
def waitSnapshot (payload : Json) : FlowSnapshot :=
  ⟨"pack", "main", none, "after", false, { ExecutionState.new .null [] with
    nodes := ⟨[("ask", ⟨true, payload, .null, []⟩)], List.nodup_singleton _⟩
    nodeOrder := ["ask"]
    lastOutput := some payload }⟩

theorem waitSnapshot_reached (payload : Json) :
    Reach (drive "pack") Any (.walking "main" "ask" (.new .null [])) (.parked (waitSnapshot payload)) :=
  Reach.start.next (l := .round (waitVisit payload)) rfl trivial

/-- A reader of the text of one value. -/
def readsOne (v : Json) (text : String) : Option Json := if text = v.render then some v else none

theorem rereads_readsOne {v : Json} (hdepth : v.depth ≤ 127) (hnumbers : v.mapNumbers id = v) :
    Rereads (readsOne v) id v := by
  rw [Rereads, readsOne, if_pos rfl, if_pos hdepth, hnumbers]

/-- A text that was handed back is still there. -/
theorem park_roundtrip_text :
    load (readsOne (encodeRecord ⟨waitSnapshot (.str "hi"), none, none⟩))
      (save ⟨waitSnapshot (.str "hi"), none, none⟩) = some ⟨waitSnapshot (.str "hi"), none, none⟩ :=
  (park_roundtrip_iff (fun _ _ => rfl) (waitSnapshot_reached (.str "hi")) none none
    (rereads_readsOne (by decide) rfl)).mpr ⟨nofun, rfl, by decide⟩

/-- A null that was handed back is read back as nothing. -/
theorem null_output_forgotten :
    ¬ ∀ (fromStr : String → Option Json) (readNumber : String → String)
      (packId flowId nodeId : String) (input : Json) (vars : List (String × Json))
      (snapshot : FlowSnapshot) (reason : Option String) (run : Option RunMarker),
      ReadsCounters readNumber →
      Reach (drive packId) Any (.walking flowId nodeId (.new input vars)) (.parked snapshot) →
      Rereads fromStr readNumber (encodeRecord ⟨snapshot, reason, run⟩) →
        load fromStr (save ⟨snapshot, reason, run⟩) = some ⟨snapshot, reason, run⟩ := by
  intro h
  have hsame := h (readsOne (encodeRecord ⟨waitSnapshot .null, none, none⟩)) id "pack" "main" "ask" .null []
    (waitSnapshot .null) none none (fun _ _ => rfl) (waitSnapshot_reached .null)
    (rereads_readsOne (by decide) rfl)
  rw [load, save, readsOne, if_pos rfl, Option.bind_some, decode_encode, Option.some_inj] at hsame
  have hlast := congrArg (fun r => r.snapshot.state.lastOutput) hsame
  exact nomatch hlast

end Greentic.ParkRecord
