import GreenticRunner.AgentModel
import GreenticRunner.Correlation
import GreenticRunner.Transition

/-! # Approval gates

    `execute_approval_call` of `runner/engine.rs`, the `decision_token` of
    `runner/approval_token.rs`, and the admission of responses in
    `runner/runtime_session_resumer.rs`.

    * `admitResponseWith` — what the resumer does with a response;
    * `visit` — the visits of a flow's gates, with the log of what each one did;
    * `approval_gate` — a gate is decided by its own token, once. -/

namespace Greentic.Engine

open TextCodec

/-! ## Maps from node ids -/

/-- A map from node ids. -/
abbrev NodeMap (α : Type) : Type := List (String × α)

namespace NodeMap

variable {α : Type}

def get (m : NodeMap α) (node : String) : Option α := (m.find? fun f => f.1 == node).map (·.2)

def remove (m : NodeMap α) (node : String) : NodeMap α := m.filter fun f => f.1 ≠ node

def insert (m : NodeMap α) (node : String) (v : α) : NodeMap α := (node, v) :: m.remove node

theorem get_remove_self (m : NodeMap α) (node : String) : (m.remove node).get node = none := by
  rw [get, remove, List.find?_eq_none.mpr]
  · rfl
  · intro f hf
    have hne := of_decide_eq_true (List.mem_filter.mp hf).2
    simpa using hne

theorem get_remove_of_ne {node node' : String} (h : node' ≠ node) (m : NodeMap α) :
    (m.remove node).get node' = m.get node' := by
  have hfound : ∀ f : String × α,
      decide (decide (f.1 ≠ node) = true ∧ (f.1 == node') = true) = (f.1 == node') := by
    intro f
    by_cases hf : f.1 = node'
    · simp [hf, h]
    · simp [hf]
  rw [get, remove, List.find?_filter, funext hfound, get]

@[simp] theorem get_insert_self (m : NodeMap α) (node : String) (v : α) :
    (m.insert node v).get node = some v := by
  rw [get, insert, List.find?_cons_of_pos (by simp)]
  rfl

theorem get_insert_of_ne {node node' : String} (h : node' ≠ node) (m : NodeMap α) (v : α) :
    (m.insert node v).get node' = m.get node' := by
  rw [get, insert, List.find?_cons_of_neg (by simpa using h.symm), ← get, get_remove_of_ne h]

end NodeMap

/-! ## Tokens -/

/-- `Value::pointer` of two keys. -/
def pointer (v : Json) (key inner : String) : Option Json := (v.get? key).bind (·.get? inner)

/-- `str::eq_ignore_ascii_case`. -/
def eqIgnoreAsciiCase (a b : String) : Bool := a.toList.map Char.toLower == b.toList.map Char.toLower

/-- `str::trim`. -/
def trimmed (s : String) : String := String.ofList (Aw.trim s.toList)

section Token

variable (sha256 : List UInt8 → List UInt8)

/-- `approval_token::fingerprint`. -/
def fingerprint (token : String) : String :=
  String.ofList (hexEncode (sha256 token.toUTF8.data.toList))

/-- The token of `approval_token::issue`, of its random bytes. -/
def issuedToken (bytes : Vector UInt8 32) : String := String.ofList (encode64 bytes.toList)

/-- `approval_token::verify`. -/
def verify (presented : Option String) (stored : String) : Bool :=
  match (presented.map trimmed).filter (· ≠ "") with
  | none => false
  | some token =>
      match hexDecode stored.toList with
      | none => false
      | some bytes => bytes == sha256 token.toUTF8.data.toList

end Token

/-- `approval_token::from_response`. -/
def fromResponse (response : Json) : Option String :=
  (pointer response "output" "decision_token").bind Json.asStr?

/-- An output without its token. -/
def stripOutput : Json → Json
  | .obj output => .obj (NodeMap.remove output "decision_token")
  | v => v

/-- `approval_token::strip_from_response`. -/
def stripFromResponse : Json → Json
  | .obj fields => .obj (fields.map fun f => (f.1, if f.1 = "output" then stripOutput f.2 else f.2))
  | v => v

/-! ## Parked gates -/

/-- `ParkedApproval`. -/
structure ParkedApproval where
  correlationId : Option String
  tokenFingerprint : Option String
  deriving DecidableEq

/-- The part of `ExecutionState` that the gates use. -/
structure GateState where
  entry : Json
  pendingApprovalAwait : NodeMap (Option String)
  pendingApprovalToken : NodeMap String

namespace GateState

/-- `mark_approval_await`. -/
def markApprovalAwait (s : GateState) (node : String) (parked : ParkedApproval) : GateState :=
  { s with
    pendingApprovalAwait := s.pendingApprovalAwait.insert node parked.correlationId
    pendingApprovalToken :=
      match parked.tokenFingerprint with
      | some fingerprint => s.pendingApprovalToken.insert node fingerprint
      | none => s.pendingApprovalToken.remove node }

/-- `take_approval_await`. -/
def takeApprovalAwait (s : GateState) (node : String) : Option (ParkedApproval × GateState) :=
  (s.pendingApprovalAwait.get node).map fun correlationId =>
    (⟨correlationId, s.pendingApprovalToken.get node⟩,
      { s with
        pendingApprovalAwait := s.pendingApprovalAwait.remove node
        pendingApprovalToken := s.pendingApprovalToken.remove node })

/-- `pending_approvals`. -/
def pendingApprovals (s : GateState) : List ParkedApproval :=
  s.pendingApprovalAwait.map fun f => ⟨f.2, s.pendingApprovalToken.get f.1⟩

/-- The state of a flow that is resumed with an entry. -/
def entered (s : GateState) (entry : Json) : GateState := { s with entry }

/-- What the gate of a node is parked on. -/
def parked (s : GateState) (node : String) : Option ParkedApproval :=
  (s.pendingApprovalAwait.get node).map fun correlationId =>
    ⟨correlationId, s.pendingApprovalToken.get node⟩

end GateState

/-- `entry_is_approval_response`. -/
def entryIsApprovalResponse (entry : Json) : Bool := (entry.get? "ok").isSome

/-- `response_authenticates`. -/
def responseAuthenticates (sha256 : List UInt8 → List UInt8) (response : Json)
    (parked : ParkedApproval) : Bool :=
  match parked.tokenFingerprint with
  | none => true
  | some fingerprint => verify sha256 (fromResponse response) fingerprint

/-- `approval_outcome_from_entry`. -/
def approvalOutcomeFromEntry (entry : Json) : String :=
  if ((pointer entry "error" "code").bind Json.asStr?).any (eqIgnoreAsciiCase · "timeout") then
    "timeout"
  -- A failed envelope is never a pass, whatever its output says.
  else if (entry.get? "ok").bind Json.asBool? == some false then "denied"
  else if ((pointer entry "output" "decision").bind Json.asStr?).any
      (eqIgnoreAsciiCase · "approved") then "approved"
  else "denied"

/-! ## A visit of a gate -/

/-- `RemoteDispatch`. -/
structure RemoteDispatch where
  tenant : String
  env : String
  runtime : String
  target : String
  operation : String
  await : Bool
  correlationId : List Char
  input : Json
  deadlineMs : Option Nat
  decisionToken : Option String

/-- `RemoteDispatchAction`. -/
inductive RemoteDispatchAction where
  | awaitingResponse (correlationId : List Char)
  | dispatched

/-- The part of `FlowContext` that a dispatch reads. -/
structure DispatchContext where
  tenant : String
  packId : String
  flowId : String
  sessionId : Option String
  replyScope : Option ReplyScope

/-- What a node hands back to the flow. -/
inductive NodeControl where
  | complete (payload : Json) (outcome : Option String)
  | awaitHere (correlationId : List Char)

/-- What a gate is entered with: its rendered payload, the random bytes it draws, and the
    dispatch handler of the engine. -/
structure GateVisit where
  node : String
  entry : Json
  target : String
  payload : Json
  ctx : DispatchContext
  defaultEnv : String
  token : Vector UInt8 32
  nonce : Vector UInt8 16
  handler : Option (RemoteDispatch → Except String RemoteDispatchAction)

/-- `APPROVAL_RUNTIME`. -/
def approvalRuntime : String := "approval"

/-- The dispatch that a gate publishes. -/
def GateVisit.dispatch (v : GateVisit) : RemoteDispatch where
  tenant := v.ctx.tenant
  env := v.defaultEnv
  runtime := approvalRuntime
  target := v.target
  operation := ((v.payload.get? "operation").bind Json.asStr?).getD ""
  await := ((v.payload.get? "await").bind Json.asBool?).getD true
  correlationId := publishedId v.ctx.sessionId v.ctx.packId v.ctx.flowId v.ctx.replyScope (some v.nonce)
  input := (v.payload.get? "input").getD .null
  deadlineMs := (v.payload.get? "deadline_ms").bind Aw.asU64?
  decisionToken := some (issuedToken v.token)

/-- A visit: what was dispatched, the answer of the node and the state it leaves. -/
structure VisitResult where
  sent : Option RemoteDispatch
  result : Except String NodeControl
  state : GateState

/-- `execute_remote_dispatch_with_token`, for a gate. -/
def GateVisit.remote (v : GateVisit) : Option RemoteDispatch × Except String NodeControl :=
  match v.handler with
  | none => (none, .error
      "approval.call node dispatched but no RemoteDispatchHandler configured")
  | some handler =>
      (some v.dispatch, (handler v.dispatch).map fun action =>
        match action with
        | .awaitingResponse correlationId => .awaitHere correlationId
        | .dispatched => .complete (.obj [
            ("correlation_id", .str (String.ofList v.dispatch.correlationId)),
            ("dispatched", .bool true)]) none)

/-- The answer of a gate that needs no human. -/
def autoApproved : NodeControl :=
  .complete (.obj [("error", .null), ("ok", .bool true),
    ("output", .obj [("auto", .bool true), ("decision", .str "approved")])]) (some "approved")

/-- `execute_approval_call`.  `requiresHuman` is `approval_requires_human`, which compares
    floating-point numbers. -/
def executeApprovalCall (sha256 : List UInt8 → List UInt8) (requiresHuman : Json → Bool)
    (s : GateState) (v : GateVisit) : VisitResult :=
  match s.takeApprovalAwait v.node with
  | some (parked, taken) =>
      if entryIsApprovalResponse s.entry && responseAuthenticates sha256 s.entry parked then
        -- Taking the mark spent the token.
        let response := stripFromResponse s.entry
        ⟨none, .ok (.complete response (some (approvalOutcomeFromEntry response))), taken⟩
      else
        -- A user activity or a refused response: the original id and fingerprint stay.
        ⟨none, .ok (.awaitHere []), taken.markApprovalAwait v.node parked⟩
  | none =>
      if !requiresHuman ((v.payload.get? "input").getD .null) then ⟨none, .ok autoApproved, s⟩
      else
        match v.remote with
        | (sent, .ok (.awaitHere correlationId)) =>
            let id := some (String.ofList correlationId)
            ⟨sent, .ok (.awaitHere correlationId), s.markApprovalAwait v.node
              ⟨id.filter (· ≠ ""), some (fingerprint sha256 (issuedToken v.token))⟩⟩
        | (sent, result) => ⟨sent, result, s⟩

/-! ## Admission -/

/-- `AdmissionMode`. -/
inductive AdmissionMode where
  | lenient
  | strict
  deriving DecidableEq

/-- `Admission`. -/
inductive Admission where
  | resume
  | wrongGate
  | badToken
  deriving DecidableEq

/-- `admit_response_with`. -/
def admitResponseWith (sha256 : List UInt8 → List UInt8) (mode : AdmissionMode)
    (correlationId : String) (response : Json) (parked : Option (List ParkedApproval)) :
    Admission :=
  let nonced := (splitDispatchNonce correlationId.toList).2.isSome
  let strict := nonced && mode == .strict
  match parked with
  | none => if strict then .wrongGate else .resume
  | some parked =>
      let candidates := parked.filter fun park =>
        !nonced || (match park.correlationId with
          | some recorded => recorded == correlationId
          | none => !strict)
      if candidates.isEmpty then (if nonced then .wrongGate else .resume)
      else if candidates.any (responseAuthenticates sha256 response) then .resume
      else .badToken

/-- `RuntimeDispatchResponse`. -/
structure RuntimeDispatchResponse where
  ok : Bool
  output : Json
  events : Json
  error : Json

/-- The entry that `decode_response` makes of a response. -/
def RuntimeDispatchResponse.entry (r : RuntimeDispatchResponse) : Json :=
  .obj [("error", r.error), ("events", r.events), ("ok", .bool r.ok), ("output", r.output)]

/-! ## Flows with gates -/

/-- What a visit of a gate did. -/
inductive GateEvent where
  | asked (node : String)
  | decided (node : String) (outcome : String)
  | other (node : String)
  deriving DecidableEq

/-- A flow: the state of its gates and the log of their visits, last one first. -/
structure GatedFlow where
  state : GateState
  log : List GateEvent

section Flow

variable (sha256 : List UInt8 → List UInt8) (requiresHuman : Json → Bool)

/-- The log entry of a visit: a parked gate that completes is decided, a gate that was not
    parked and is parked now has asked. -/
def GateVisit.event (s : GateState) (v : GateVisit) (r : VisitResult) : GateEvent :=
  match s.parked v.node, r.result with
  | some _, .ok (.complete _ outcome) => .decided v.node (outcome.getD "")
  | none, .ok (.awaitHere _) => .asked v.node
  | _, _ => .other v.node

/-- A message or a response resumes the flow at a gate, or the flow comes to it. -/
def visited (f : GatedFlow) (v : GateVisit) : VisitResult :=
  executeApprovalCall sha256 requiresHuman (f.state.entered v.entry) v

/-- The snapshot of a parked flow holds its gates as the visit left them. -/
def visit (f : GatedFlow) (v : GateVisit) : Option GatedFlow :=
  let r := visited sha256 requiresHuman f v
  some ⟨r.state, v.event f.state r :: f.log⟩

end Flow

/-- A flow that has not come to a gate yet. -/
def GatedFlow.start : GatedFlow := ⟨⟨.null, [], []⟩, []⟩

/-! ## What a visit does -/

namespace GateState

/-- A node that is marked is parked. -/
theorem parked_mark_self (s : GateState) (node : String) (p : ParkedApproval) :
    (s.markApprovalAwait node p).parked node = some p := by
  obtain ⟨id, fp⟩ := p
  cases fp with
  | none => simp [parked, markApprovalAwait, NodeMap.get_remove_self]
  | some fp => simp [parked, markApprovalAwait]

/-- No other node is. -/
theorem parked_mark_of_ne {node node' : String} (h : node' ≠ node) (s : GateState)
    (p : ParkedApproval) : (s.markApprovalAwait node p).parked node' = s.parked node' := by
  obtain ⟨id, fp⟩ := p
  cases fp with
  | none => simp [parked, markApprovalAwait, NodeMap.get_insert_of_ne h, NodeMap.get_remove_of_ne h]
  | some fp => simp [parked, markApprovalAwait, NodeMap.get_insert_of_ne h]

/-- Taking a mark takes the gate out of the maps, and nothing else. -/
theorem take_eq (s : GateState) (node : String) :
    s.takeApprovalAwait node = (s.parked node).map fun p =>
      (p, { s with
        pendingApprovalAwait := s.pendingApprovalAwait.remove node
        pendingApprovalToken := s.pendingApprovalToken.remove node }) := by
  rw [takeApprovalAwait, parked]
  cases s.pendingApprovalAwait.get node with
  | none => rfl
  | some id => rfl

/-- The state without the gate of a node. -/
def without (s : GateState) (node : String) : GateState :=
  { s with
    pendingApprovalAwait := s.pendingApprovalAwait.remove node
    pendingApprovalToken := s.pendingApprovalToken.remove node }

/-- A node that goes on is parked no more. -/
theorem parked_without_self (s : GateState) (node : String) : (s.without node).parked node = none := by
  simp [parked, without, NodeMap.get_remove_self]

theorem parked_without_of_ne {node node' : String} (h : node' ≠ node) (s : GateState) :
    (s.without node).parked node' = s.parked node' := by
  simp [parked, without, NodeMap.get_remove_of_ne h]

end GateState

section Visit

variable {sha256 : List UInt8 → List UInt8} {requiresHuman : Json → Bool} {s : GateState}
  {v : GateVisit} {p : ParkedApproval}

/-- A parked gate that is given its token. -/
theorem executeApprovalCall_accepted (hp : s.parked v.node = some p)
    (ha : (entryIsApprovalResponse s.entry && responseAuthenticates sha256 s.entry p) = true) :
    executeApprovalCall sha256 requiresHuman s v = ⟨none, .ok (.complete (stripFromResponse s.entry)
      (some (approvalOutcomeFromEntry (stripFromResponse s.entry)))), s.without v.node⟩ := by
  rw [executeApprovalCall, s.take_eq, hp]
  simp only [Option.map_some, ha, if_true]
  rfl

/-- A parked gate that is given anything else. -/
theorem executeApprovalCall_refused (hp : s.parked v.node = some p)
    (ha : (entryIsApprovalResponse s.entry && responseAuthenticates sha256 s.entry p) = false) :
    executeApprovalCall sha256 requiresHuman s v
      = ⟨none, .ok (.awaitHere []), (s.without v.node).markApprovalAwait v.node p⟩ := by
  rw [executeApprovalCall, s.take_eq, hp]
  simp only [Option.map_some, ha, Bool.false_eq_true, if_false]
  rfl

/-- A gate that is not parked: it asks, and is parked under the fingerprint of the token it
    was issued, or it does not park. -/
theorem executeApprovalCall_free (hp : s.parked v.node = none) :
    (∃ id c, (executeApprovalCall sha256 requiresHuman s v).result = .ok (.awaitHere c) ∧
      (executeApprovalCall sha256 requiresHuman s v).state = s.markApprovalAwait v.node
        ⟨id, some (fingerprint sha256 (issuedToken v.token))⟩) ∨
      ((∀ c, (executeApprovalCall sha256 requiresHuman s v).result ≠ .ok (.awaitHere c)) ∧
        (executeApprovalCall sha256 requiresHuman s v).state = s) := by
  rw [executeApprovalCall, s.take_eq, hp, Option.map_none]
  simp only
  split
  next => exact .inr ⟨fun c h => (nomatch h), rfl⟩
  next =>
    split
    next sent c _ => exact .inl ⟨_, c, rfl, rfl⟩
    next sent result hnot _ =>
      exact .inr ⟨fun c h => hnot c h, rfl⟩

end Visit

/-! ## Tokens that authenticate -/

/-- The fingerprint determines the digest. -/
theorem fingerprint_inj {sha256 : List UInt8 → List UInt8} {a b : String}
    (h : fingerprint sha256 a = fingerprint sha256 b) :
    sha256 a.toUTF8.data.toList = sha256 b.toUTF8.data.toList := by
  have hlist := congrArg String.toList h
  rw [fingerprint, fingerprint, String.toList_ofList, String.toList_ofList] at hlist
  have hdecoded := congrArg hexDecode hlist
  rw [hexDecode_encode, hexDecode_encode] at hdecoded
  exact Option.some.inj hdecoded

/-- A stored fingerprint of an issued token is matched by the token, up to white space
    around it. -/
theorem verify_fingerprint {sha256 : List UInt8 → List UInt8} {token : String}
    (hempty : sha256 token.toUTF8.data.toList ≠ sha256 []) (presented : Option String) :
    verify sha256 presented (fingerprint sha256 token) = true ↔
      ∃ t, presented = some t ∧ fingerprint sha256 (trimmed t) = fingerprint sha256 token := by
  have hdecode : hexDecode (fingerprint sha256 token).toList
      = some (sha256 token.toUTF8.data.toList) := by
    rw [fingerprint, String.toList_ofList, hexDecode_encode]
  cases presented with
  | none => exact ⟨fun h => (nomatch h), fun ⟨t, h, _⟩ => nomatch h⟩
  | some t =>
      by_cases hblank : trimmed t = ""
      · -- A blank token is refused, and its digest is not that of an issued one.
        have hfalse : verify sha256 (some t) (fingerprint sha256 token) = false := by
          simp [verify, hblank, Option.filter]
        rw [hfalse]
        refine ⟨fun h => (nomatch h), ?_⟩
        rintro ⟨t', ht, heq⟩
        cases ht
        rw [hblank] at heq
        exact absurd (fingerprint_inj heq).symm hempty
      · have heval : verify sha256 (some t) (fingerprint sha256 token)
            = (sha256 token.toUTF8.data.toList == sha256 (trimmed t).toUTF8.data.toList) := by
          simp [verify, hblank, Option.filter, hdecode]
        rw [heval, beq_iff_eq]
        constructor
        · intro h
          exact ⟨t, rfl, by rw [fingerprint, fingerprint, h]⟩
        · rintro ⟨t', ht, heq⟩
          cases ht
          exact (fingerprint_inj heq).symm

/-! ## Outcomes -/

theorem stripFromResponse_get? (response : Json) (key : String) :
    (stripFromResponse response).get? key
      = (response.get? key).map fun v => if key = "output" then stripOutput v else v := by
  cases response with
  | obj fields =>
      induction fields with
      | nil => rfl
      | cons f fields ih =>
          simp only [stripFromResponse, Json.get?, List.map_cons] at ih ⊢
          by_cases hf : f.1 = key
          · simp [hf]
          · rw [List.find?_cons_of_neg (by simpa using hf),
              List.find?_cons_of_neg (by simpa using hf), ih]
  | null => rfl
  | bool b => rfl
  | num t => rfl
  | str t => rfl
  | arr items => rfl

theorem stripOutput_get? (output : Json) {key : String} (hkey : key ≠ "decision_token") :
    (stripOutput output).get? key = output.get? key := by
  cases output with
  | obj fields => exact NodeMap.get_remove_of_ne hkey fields
  | null => rfl
  | bool b => rfl
  | num t => rfl
  | str t => rfl
  | arr items => rfl

/-- The outcome does not depend on the token. -/
theorem outcome_strip (response : Json) :
    approvalOutcomeFromEntry (stripFromResponse response) = approvalOutcomeFromEntry response := by
  have hok : (stripFromResponse response).get? "ok" = response.get? "ok" := by
    rw [stripFromResponse_get?]
    simp
  have herror : pointer (stripFromResponse response) "error" "code"
      = pointer response "error" "code" := by
    rw [pointer, stripFromResponse_get?, pointer]
    simp
  have hdecision : pointer (stripFromResponse response) "output" "decision"
      = pointer response "output" "decision" := by
    rw [pointer, stripFromResponse_get?, pointer]
    cases response.get? "output" with
    | none => rfl
    | some output => exact stripOutput_get? output (by decide)
  rw [approvalOutcomeFromEntry, approvalOutcomeFromEntry, hok, herror, hdecision]

/-- What an approval takes. -/
theorem outcome_approved {response : Json} (h : approvalOutcomeFromEntry response = "approved") :
    (response.get? "ok").bind Json.asBool? ≠ some false ∧
      (∀ code, (pointer response "error" "code").bind Json.asStr? = some code →
        eqIgnoreAsciiCase code "timeout" = false) ∧
      ∃ decision, (pointer response "output" "decision").bind Json.asStr? = some decision ∧
        eqIgnoreAsciiCase decision "approved" = true := by
  unfold approvalOutcomeFromEntry at h
  split at h
  next => exact absurd h (by decide)
  next htimeout =>
    split at h
    next => exact absurd h (by decide)
    next hok =>
      split at h
      next hdecision =>
        refine ⟨fun heq => hok (by rw [heq]; rfl), ?_, ?_⟩
        · intro code hcode
          rw [hcode, Option.any_some] at htimeout
          exact Bool.eq_false_iff.mpr htimeout
        · obtain ⟨decision, hd, heq⟩ := (Option.any_eq_true _ _).mp hdecision
          exact ⟨decision, hd, heq⟩
      next => exact absurd h (by decide)

/-! ## Whole runs -/

section Run

variable {sha256 : List UInt8 → List UInt8} {requiresHuman : Json → Bool} {f : GatedFlow}

/-- Every stored fingerprint is that of an issued token, and a gate that is parked has asked
    since it was last decided. -/
structure Gated (sha256 : List UInt8 → List UInt8) (f : GatedFlow) : Prop where
  issued : ∀ node p fp, f.state.parked node = some p → p.tokenFingerprint = some fp →
    ∃ bytes, fp = fingerprint sha256 (issuedToken bytes)
  asked : ∀ node p, f.state.parked node = some p → ∀ l l' o,
    f.log = l ++ .decided node o :: l' → .asked node ∈ l
  once : ∀ node l m l' o o', f.log = l ++ .decided node o :: m ++ .decided node o' :: l' →
    .asked node ∈ m

/-- A parked gate has asked, or was parked and is not decided now; a decided gate was
    parked. -/
theorem Gated.next (h : Gated sha256 f) {state : GateState} {ev : GateEvent}
    (hissued : ∀ node p fp, state.parked node = some p → p.tokenFingerprint = some fp →
      ∃ bytes, fp = fingerprint sha256 (issuedToken bytes))
    (hkeep : ∀ node p, state.parked node = some p → ev = .asked node ∨
      ((∃ p', f.state.parked node = some p') ∧ ∀ o, ev ≠ .decided node o))
    (hdecided : ∀ node o, ev = .decided node o → ∃ p, f.state.parked node = some p) :
    Gated sha256 ⟨state, ev :: f.log⟩ := by
  refine ⟨hissued, ?_, ?_⟩
  · intro node p hp l l' o hlog
    rcases List.cons_eq_append_iff.mp hlog with ⟨hl, heq⟩ | ⟨l₀, rfl, hrest⟩
    · rcases hkeep node p hp with hev | ⟨-, hnot⟩
      · exact nomatch hev.symm.trans (List.head_eq_of_cons_eq heq).symm
      · exact absurd (List.head_eq_of_cons_eq heq).symm (hnot o)
    · rcases hkeep node p hp with rfl | ⟨⟨p', hp'⟩, -⟩
      · exact List.mem_cons_self ..
      · exact List.mem_cons_of_mem _ (h.asked node p' hp' l₀ l' o hrest)
  · intro node l m l' o o' hlog
    rw [List.append_assoc] at hlog
    rcases List.cons_eq_append_iff.mp hlog with ⟨hl, heq⟩ | ⟨l₀, rfl, hrest⟩
    · -- The newest entry decides the gate: it was parked, so it has asked since.
      obtain ⟨p, hp⟩ := hdecided node o (List.head_eq_of_cons_eq heq).symm
      exact h.asked node p hp m l' o' (List.tail_eq_of_cons_eq heq).symm
    · exact h.once node l₀ m l' o o' (by rw [List.append_assoc]; exact hrest)

/-- Every visit keeps the invariant. -/
theorem Gated.visit (h : Gated sha256 f) {v : GateVisit} {f' : GatedFlow}
    (hv : visit sha256 requiresHuman f v = some f') : Gated sha256 f' := by
  cases hv
  have hsame : ∀ node, (f.state.entered v.entry).parked node = f.state.parked node := fun _ => rfl
  cases hp : f.state.parked v.node with
  | some p =>
      cases ha : entryIsApprovalResponse v.entry && responseAuthenticates sha256 v.entry p with
      | true =>
          have hrun : visited sha256 requiresHuman f v = _ := executeApprovalCall_accepted hp ha
          rw [hrun]
          simp only [GateVisit.event, hp]
          have hothers : ∀ node q, ((f.state.entered v.entry).without v.node).parked node = some q →
              node ≠ v.node ∧ f.state.parked node = some q := by
            intro node q hq
            by_cases hn : node = v.node
            · rw [hn, GateState.parked_without_self] at hq
              exact nomatch hq
            · rw [GateState.parked_without_of_ne hn, hsame] at hq
              exact ⟨hn, hq⟩
          refine h.next ?_ ?_ ?_
          · intro node q fp hq
            exact h.issued node q fp (hothers node q hq).2
          · intro node q hq
            obtain ⟨hn, hq'⟩ := hothers node q hq
            exact .inr ⟨⟨q, hq'⟩, fun o hev => hn (GateEvent.decided.inj hev).1.symm⟩
          · intro node o hev
            exact ⟨p, (GateEvent.decided.inj hev).1 ▸ hp⟩
      | false =>
          have hrun : visited sha256 requiresHuman f v = _ := executeApprovalCall_refused hp ha
          rw [hrun]
          simp only [GateVisit.event, hp]
          have hall : ∀ node, (((f.state.entered v.entry).without v.node).markApprovalAwait
              v.node p).parked node = f.state.parked node := by
            intro node
            by_cases hn : node = v.node
            · rw [hn, GateState.parked_mark_self, hp]
            · rw [GateState.parked_mark_of_ne hn, GateState.parked_without_of_ne hn, hsame]
          refine h.next ?_ ?_ ?_
          · intro node q fp hq
            rw [hall] at hq
            exact h.issued node q fp hq
          · intro node q hq
            rw [hall] at hq
            exact .inr ⟨⟨q, hq⟩, fun o hev => nomatch hev⟩
          · intro node o hev
            exact nomatch hev
  | none =>
      rcases @executeApprovalCall_free sha256 requiresHuman (f.state.entered v.entry) v hp
        with ⟨id, c, hr, hs⟩ | ⟨hr, hs⟩
      · have hev : v.event f.state (visited sha256 requiresHuman f v) = .asked v.node := by
          rw [GateVisit.event, hp, visited, hr]
        rw [hev, visited, hs]
        refine h.next ?_ ?_ ?_
        · intro node q fp hq hfp
          by_cases hn : node = v.node
          · rw [hn, GateState.parked_mark_self] at hq
            cases hq
            cases hfp
            exact ⟨v.token, rfl⟩
          · rw [GateState.parked_mark_of_ne hn, hsame] at hq
            exact h.issued node q fp hq hfp
        · intro node q hq
          by_cases hn : node = v.node
          · exact .inl (by rw [hn])
          · rw [GateState.parked_mark_of_ne hn, hsame] at hq
            exact .inr ⟨⟨q, hq⟩, fun o heq => nomatch heq⟩
        · intro node o heq
          exact nomatch heq
      · have hev : v.event f.state (visited sha256 requiresHuman f v) = .other v.node := by
          unfold GateVisit.event
          rw [hp]
          split
          next heq _ => exact nomatch heq
          next hawait => exact absurd hawait (hr _)
          next => rfl
        rw [hev, visited, hs]
        refine h.next ?_ ?_ ?_
        · intro node q fp hq
          exact h.issued node q fp hq
        · intro node q hq
          exact .inr ⟨⟨q, hq⟩, fun o heq => nomatch heq⟩
        · intro node o heq
          exact nomatch heq

/-- Every visit of every run was gated. -/
theorem Gated.reach (h : Transition.Reach (Engine.visit sha256 requiresHuman) Transition.Any
    GatedFlow.start f) : Gated sha256 f := by
  refine h.inv ⟨?_, ?_, ?_⟩ fun _ _ _ hg _ hv => hg.visit hv
  · intro node p fp hp
    exact nomatch hp
  · intro node p hp
    exact nomatch hp
  · intro node l m l' o o' hlog
    exact absurd hlog.symm (by simp [GatedFlow.start])

end Run

/-! ## Gates -/

/-- An entry carries the token of the given fingerprint, up to white space around it. -/
def CarriesToken (sha256 : List UInt8 → List UInt8) (entry : Json) (fp : String) : Prop :=
  (entry.get? "ok").isSome ∧
    ∃ t, fromResponse entry = some t ∧ fingerprint sha256 (trimmed t) = fp

section Gate

variable {sha256 : List UInt8 → List UInt8} {requiresHuman : Json → Bool} {f : GatedFlow}

/-- An entry decides a gate exactly when it carries the gate's token. -/
theorem accepted_iff (h : Gated sha256 f)
    (hempty : ∀ bytes, sha256 (issuedToken bytes).toUTF8.data.toList ≠ sha256 [])
    {node : String} {p : ParkedApproval} {fp : String} (hp : f.state.parked node = some p)
    (hfp : p.tokenFingerprint = some fp) (entry : Json) :
    (entryIsApprovalResponse entry && responseAuthenticates sha256 entry p) = true ↔
      CarriesToken sha256 entry fp := by
  obtain ⟨bytes, rfl⟩ := h.issued node p fp hp hfp
  have hauth : responseAuthenticates sha256 entry p = verify sha256 (fromResponse entry)
      (fingerprint sha256 (issuedToken bytes)) := by
    rw [responseAuthenticates, hfp]
  rw [Bool.and_eq_true, hauth, verify_fingerprint (hempty bytes)]
  rfl

/-- A response that is admitted to the only pending gate is one that the gate accepts. -/
theorem admitted_authenticates {mode : AdmissionMode} {id : String} {response : Json}
    {p : ParkedApproval}
    (h : admitResponseWith sha256 mode id response (some [p]) = .resume) :
    responseAuthenticates sha256 response p = true := by
  unfold admitResponseWith at h
  simp only at h
  split at h
  next hnone =>
    split at h
    next => exact nomatch h
    next hnonced => simp [hnonced] at hnone
  next hsome =>
    split at h
    next hany =>
      obtain ⟨q, hq, hauth⟩ := List.any_eq_true.mp hany
      rw [List.mem_singleton.mp (List.mem_of_mem_filter hq)] at hauth
      exact hauth
    next => exact nomatch h

/-- A gate is decided by an entry exactly when the entry carries its token; any other entry
    leaves it parked as it was, with nothing dispatched; it is decided again only after it has
    asked again; an approval is an approval of a response that has not failed; and what the
    resumer admits to the only pending gate is accepted by it. -/
theorem approval_gate
    (hempty : ∀ bytes, sha256 (issuedToken bytes).toUTF8.data.toList ≠ sha256 [])
    (h : Transition.Reach (visit sha256 requiresHuman) Transition.Any GatedFlow.start f) :
    (∀ v p fp, f.state.parked v.node = some p → p.tokenFingerprint = some fp →
      ((∃ payload outcome, (visited sha256 requiresHuman f v).result
          = .ok (.complete payload outcome)) ↔ CarriesToken sha256 v.entry fp) ∧
      (¬ CarriesToken sha256 v.entry fp →
        (∃ id, (visited sha256 requiresHuman f v).result = .ok (.awaitHere id)) ∧
          (visited sha256 requiresHuman f v).sent = none ∧
          (visited sha256 requiresHuman f v).state.parked v.node = some p) ∧
      ∀ payload, (visited sha256 requiresHuman f v).result
          = .ok (.complete payload (some "approved")) →
        (v.entry.get? "ok").bind Json.asBool? ≠ some false ∧
          (∀ code, (pointer v.entry "error" "code").bind Json.asStr? = some code →
            eqIgnoreAsciiCase code "timeout" = false) ∧
          ∃ decision, (pointer v.entry "output" "decision").bind Json.asStr? = some decision ∧
            eqIgnoreAsciiCase decision "approved" = true) ∧
    (∀ node l m l' o o', f.log = l ++ .decided node o :: m ++ .decided node o' :: l' →
      .asked node ∈ m) ∧
    ∀ mode id response p fp v, f.state.pendingApprovals = [p] → p.tokenFingerprint = some fp →
      admitResponseWith sha256 mode id (RuntimeDispatchResponse.entry response)
        (some f.state.pendingApprovals) = .resume →
      f.state.parked v.node = some p → v.entry = response.entry →
      ∃ payload outcome, (visited sha256 requiresHuman f v).result
        = .ok (.complete payload outcome) := by
  have hg := Gated.reach h
  refine ⟨?_, hg.once, ?_⟩
  · intro v p fp hp hfp
    have hiff := accepted_iff hg hempty hp hfp v.entry
    by_cases hc : CarriesToken sha256 v.entry fp
    · have hrun : visited sha256 requiresHuman f v = _ :=
        executeApprovalCall_accepted hp (hiff.mpr hc)
      rw [hrun]
      refine ⟨⟨fun _ => hc, fun _ => ⟨_, _, rfl⟩⟩, fun hnot => absurd hc hnot, ?_⟩
      intro payload heq
      have happroved := (NodeControl.complete.inj (Except.ok.inj heq)).2
      rw [outcome_strip] at happroved
      exact outcome_approved (Option.some.inj happroved)
    · have hfalse := Bool.eq_false_iff.mpr (mt hiff.mp hc)
      have hrun : visited sha256 requiresHuman f v = _ := executeApprovalCall_refused hp hfalse
      rw [hrun]
      refine ⟨⟨fun ⟨_, _, heq⟩ => (nomatch heq), fun h => absurd h hc⟩, fun _ => ?_, ?_⟩
      · exact ⟨⟨_, rfl⟩, rfl, GateState.parked_mark_self ..⟩
      · intro payload heq
        exact nomatch heq
  · intro mode id response p fp v hpending hfp hadmit hp hentry
    rw [hpending] at hadmit
    have hok : entryIsApprovalResponse v.entry = true := by
      rw [hentry]
      rfl
    have hauth : responseAuthenticates sha256 v.entry p = true := by
      rw [hentry]
      exact admitted_authenticates hadmit
    have hrun : visited sha256 requiresHuman f v = _ :=
      executeApprovalCall_accepted hp (Bool.and_eq_true_iff.mpr ⟨hok, hauth⟩)
    rw [hrun]
    exact ⟨_, _, rfl⟩

end Gate

/-- SHA-256 on the empty text and on the token of zero bytes. -/
def gateDigest (bytes : List UInt8) : List UInt8 :=
  if bytes = [] then [
    227, 176, 196, 66, 152, 252, 28, 20, 154, 251, 244, 200, 153, 111, 185, 36,
    39, 174, 65, 228, 100, 155, 147, 76, 164, 149, 153, 27, 120, 82, 184, 85]
  else if bytes = (issuedToken (Vector.replicate 32 0)).toUTF8.data.toList then [
    15, 0, 115, 133, 182, 249, 212, 183, 238, 178, 116, 134, 5, 175, 225, 169,
    132, 160, 163, 191, 163, 240, 20, 208, 158, 42, 120, 76, 233, 229, 205, 26]
  else []

theorem issuedToken_ne_empty (bytes : Vector UInt8 32) :
    (issuedToken bytes).toUTF8.data.toList ≠ [] := by
  intro hnil
  have hdata : (issuedToken bytes).toByteArray.data = #[] := Array.toList_eq_nil_iff.mp hnil
  have hempty : issuedToken bytes = "" := String.toByteArray_inj.mp (ByteArray.ext hdata)
  have hlist := congrArg String.toList hempty
  rw [issuedToken, String.toList_ofList] at hlist
  refine encode64_ne_nil ?_ hlist
  intro hbytes
  have hlen := congrArg List.length hbytes
  rw [Vector.length_toList] at hlen
  exact nomatch hlen

/-- No token has the digest of the empty one. -/
theorem gateDigest_nonempty (bytes : Vector UInt8 32) :
    gateDigest (issuedToken bytes).toUTF8.data.toList ≠ gateDigest [] := by
  rw [gateDigest, if_neg (issuedToken_ne_empty bytes), gateDigest, if_pos rfl]
  split
  next => decide
  next => decide

/-- A gate of a flow, entered by a user message. -/
def askVisit : GateVisit where
  node := "gate"
  entry := .obj [("text", .str "please")]
  target := "ops"
  payload := .obj [("input", .obj [])]
  ctx := ⟨"acme", "weather", "main", some "room-7", none⟩
  defaultEnv := "local"
  token := Vector.replicate 32 0
  nonce := Vector.replicate 16 0
  handler := some fun d => .ok (.awaitingResponse d.correlationId)

/-- The response that carries the token. -/
def decisionVisit : GateVisit :=
  { askVisit with
    entry := .obj [("ok", .bool true), ("output", .obj [("decision", .str "approved"),
      ("decision_token", .str (issuedToken (Vector.replicate 32 0)))])] }

def askedFlow : GatedFlow := ((visit gateDigest (fun _ => true) .start askVisit).getD .start)

theorem askedFlow_reach : Transition.Reach (visit gateDigest fun _ => true) Transition.Any
    GatedFlow.start askedFlow := .next .start rfl trivial

theorem decisionVisit_carries : CarriesToken gateDigest decisionVisit.entry
    (fingerprint gateDigest (issuedToken (Vector.replicate 32 0))) :=
  ⟨rfl, _, rfl, by decide +kernel⟩

theorem approval_gate_asked :
    askedFlow.state.parked "gate" ≠ none ∧
      ∃ payload outcome, (visited gateDigest (fun _ => true) askedFlow decisionVisit).result
        = .ok (.complete payload outcome) := by
  refine ⟨nofun, ?_⟩
  obtain ⟨hgate, -⟩ := approval_gate gateDigest_nonempty askedFlow_reach
  exact (hgate decisionVisit _ _ rfl rfl).1.mpr decisionVisit_carries

end Greentic.Engine
