import GreenticRunner.FlowWalk

/-! # A submit is spent at the card it was made for

    A turn that resumes a card brings a submit: the action in the entry, the node that was
    resumed, and the fields that are waiting for its output.  Each of the three is cleared
    at its own point of the round, so what a LATER node can still see depends on the way
    the resumed node was left.

    * `dispatchNode_frame`, `attachPendingCardAnswers_owned` — the submit in one round;
    * `Turn.submitted` — what is left of it as the turn goes on;
    * `submit_spent` — only the resumed node routes on it and takes its answers. -/

namespace Greentic.FlowWalk

open Engine Transition

/-! ## The action of an entry -/

/-- An entry without an action, at both places that the action of a submit is read from. -/
structure NoAction (entry : Json) : Prop where
  wrapped : (pointer entry "input" "metadata").bind (·.get? "action") = none
  bare : (entry.get? "metadata").bind (·.get? "action") = none

/-- The action that a routing context finds in an entry. -/
def routingAction (entry : Json) : Option Json :=
  (resolveEntryMetadata (aliasInputToEntry entry)).bind (·.get? "action")

/-- The field that is mapped. -/
theorem mapField_get?_self (name : String) (f : Json → Json) (v : Json) :
    (mapField name f v).get? name = (v.get? name).map f := by
  cases v with
  | obj fields =>
      induction fields with
      | nil => rfl
      | cons p rest ih =>
          by_cases hp : p.1 = name
          · simp [mapField, Json.get?, hp]
          · simp only [mapField, Json.get?, List.map_cons, if_neg hp] at ih ⊢
            rw [List.find?_cons_of_neg (by simpa using hp),
              List.find?_cons_of_neg (by simpa using hp)]
            exact ih
  | null => rfl
  | bool b => rfl
  | num t => rfl
  | str t => rfl
  | arr items => rfl

/-- The other fields. -/
theorem mapField_get?_of_ne {name key : String} (h : key ≠ name) (f : Json → Json) (v : Json) :
    (mapField name f v).get? key = v.get? key := by
  cases v with
  | obj fields =>
      induction fields with
      | nil => rfl
      | cons p rest ih =>
          simp only [mapField, Json.get?, List.map_cons] at ih ⊢
          have hkey : (if p.1 = name then (p.1, f p.2) else p).1 = p.1 := by split <;> rfl
          by_cases hp : p.1 = key
          · have hne : p.1 ≠ name := hp ▸ h
            rw [if_neg hne, List.find?_cons_of_pos (by simpa using hp),
              List.find?_cons_of_pos (by simpa using hp)]
          · rw [List.find?_cons_of_neg (by rw [hkey]; simpa using hp),
              List.find?_cons_of_neg (by simpa using hp)]
            exact ih
  | null => rfl
  | bool b => rfl
  | num t => rfl
  | str t => rfl
  | arr items => rfl

/-- No action is left. -/
theorem removeAction_get? (v : Json) : (removeAction v).get? "action" = none := by
  cases v with
  | obj fields =>
      show ((fields.filter fun p => p.1 ≠ "action").find? fun f => f.1 == "action").map (·.2) = none
      rw [List.find?_eq_none.mpr]
      · rfl
      · intro p hp
        have hne := of_decide_eq_true (List.mem_filter.mp hp).2
        simpa using hne
  | null => rfl
  | bool b => rfl
  | num t => rfl
  | str t => rfl
  | arr items => rfl

/-- Consuming leaves no action at either place. -/
theorem consumeRoutingAction_noAction (entry : Json) : NoAction (consumeRoutingAction entry) := by
  constructor
  · rw [pointer, consumeRoutingAction, mapField_get?_of_ne (by decide), mapField_get?_self]
    cases entry.get? "input" with
    | none => rfl
    | some input =>
        rw [Option.map_some, Option.bind_some, mapField_get?_self]
        cases input.get? "metadata" with
        | none => rfl
        | some metadata => exact removeAction_get? metadata
  · rw [consumeRoutingAction, mapField_get?_self]
    cases (mapField "input" (mapField "metadata" removeAction) entry).get? "metadata" with
    | none => rfl
    | some metadata => exact removeAction_get? metadata

/-- An entry without an action, under its alias. -/
theorem NoAction.alias {entry : Json} (h : NoAction entry) : NoAction (aliasInputToEntry entry) := by
  unfold aliasInputToEntry
  split
  next fields =>
    split
    next => exact h
    next =>
      -- The alias is the entry itself under `input`.
      constructor
      · rw [pointer, Json.get?_setField_self, Option.bind_some]
        exact h.bare
      · rw [Json.get?_setField_of_ne (by decide)]
        exact h.bare
  next => exact h

/-- It routes by no action. -/
theorem NoAction.routingAction {entry : Json} (h : NoAction entry) : routingAction entry = none := by
  have ha := h.alias
  rw [FlowWalk.routingAction, resolveEntryMetadata]
  cases hw : pointer (aliasInputToEntry entry) "input" "metadata" with
  | some metadata =>
      have hm := ha.wrapped
      rw [hw] at hm
      exact hm
  | none => exact ha.bare

/-- `response.action` of a routing context is the action of the entry. -/
theorem buildRoutingContext_action (output : Drive.NodeOutput) (s : ExecutionState) (scope : Scope) :
    responseAction (buildRoutingContext output s scope) = routingAction s.entry := by
  unfold buildRoutingContext
  rw [responseAction, pointer, Json.get?_setField_of_ne (by decide), Json.get?_setField_self,
    Option.bind_some]
  -- The text of the envelope is another field of the response.
  split
  next text _ =>
    rw [Json.get?_setField_of_ne (by decide), get?_objectFields]
    rfl
  next =>
    rw [get?_objectFields]
    rfl

/-! ## One round -/

/-- What a node leaves of the submit: all of it. -/
structure SameSubmit (s s' : ExecutionState) : Prop where
  entry : s'.entry = s.entry
  resumedAt : s'.resumedAt = s.resumedAt
  pending : s'.pendingCardAnswers = s.pendingCardAnswers

variable {host : Host}

/-- An agent over NATS leaves the submit as it was. -/
theorem executeNats_frame (flowId nodeId agentId : String) (s : ExecutionState) (a : Answer) :
    SameSubmit s (executeNats host flowId nodeId agentId s a).2 := by
  unfold executeNats
  split
  next => exact ⟨rfl, rfl, rfl⟩
  next => exact ⟨rfl, rfl, rfl⟩
  next => exact ⟨rfl, rfl, rfl⟩

/-- So does one in process. -/
theorem executeInProcess_frame (s : ExecutionState) (nodeId : String) (talks : Bool)
    (agent : Except String Json) : SameSubmit s (executeInProcess s nodeId talks agent).2 := by
  unfold executeInProcess
  simp only
  split
  next => exact ⟨rfl, rfl, rfl⟩
  next =>
    split
    next => exact ⟨rfl, rfl, rfl⟩
    next =>
      split
      next =>
        split
        next => exact ⟨rfl, rfl, rfl⟩
        next => exact ⟨rfl, rfl, rfl⟩
      next => exact ⟨rfl, rfl, rfl⟩

/-- A node touches its markers only. -/
theorem dispatchNode_frame {flowId nodeId : String} {kind : NodeKind} {s s' : ExecutionState}
    {a : Answer} {result : Except String DispatchOutcome}
    (hd : dispatchNode host flowId nodeId kind s a = (result, s')) : SameSubmit s s' := by
  have h : SameSubmit s (dispatchNode host flowId nodeId kind s a).2 := by
    unfold dispatchNode
    split
    next => exact ⟨rfl, rfl, rfl⟩
    next =>
      split
      next =>
        split
        next => exact executeNats_frame ..
        next => exact ⟨rfl, rfl, rfl⟩
      next => exact executeInProcess_frame ..
    next => exact ⟨rfl, rfl, rfl⟩
  rwa [hd] at h

/-- And a jump. -/
theorem applyJump_frame {s s' : ExecutionState} {jump : Drive.JumpControl} {flowId nodeId : String}
    (hj : applyJump host s jump = some (flowId, nodeId, s')) : SameSubmit s s' := by
  unfold applyJump at hj
  simp only at hj
  split at hj
  next => exact nomatch hj
  next =>
    obtain ⟨flow, _, hflow⟩ := Option.bind_eq_some_iff.mp hj
    obtain ⟨node, _, hnode⟩ := Option.bind_eq_some_iff.mp hflow
    split at hnode
    next => exact nomatch hnode
    next =>
      cases hnode
      exact ⟨rfl, rfl, rfl⟩

/-- Nothing of the submit is left to route on. -/
structure Quiet (s : ExecutionState) : Prop where
  resumedAt : s.resumedAt = none
  action : NoAction s.entry

theorem SameSubmit.quiet {s s' : ExecutionState} (h : SameSubmit s s') (hq : Quiet s) : Quiet s' :=
  ⟨h.resumedAt ▸ hq.resumedAt, h.entry ▸ hq.action⟩

theorem Quiet.spend {s : ExecutionState} (h : Quiet s) (owned : Bool) : Quiet (s.spend owned) := by
  refine ⟨rfl, ?_⟩
  cases owned with
  | true => exact consumeRoutingAction_noAction s.entry
  | false => exact h.action

theorem quiet_spend_owned (s : ExecutionState) : Quiet (s.spend true) :=
  ⟨rfl, consumeRoutingAction_noAction s.entry⟩

/-- A control that the resumed node routes by, or ends the turn with. -/
def Routes (control : Drive.NodeControl) : Prop := control = .continues ∨ control = .respond

/-- The state that a round leaves: the pending answers are as they were, what was quiet stays so,
    and a node that owned the submit and routed has spent it. -/
theorem follow_state {w : Walk} {node : HostNode} {a : Answer} {outcome : DispatchOutcome}
    {owned : Bool} {output : Drive.NodeOutput} {s t : ExecutionState}
    (h : (follow host w node a outcome owned output s).state? = some t) :
    t.pendingCardAnswers = s.pendingCardAnswers ∧ (Quiet s → Quiet t) ∧
      (owned = true → Routes outcome.control → Quiet t) := by
  have hsame : ∀ {t}, SameSubmit s t → ¬ Routes outcome.control →
      t.pendingCardAnswers = s.pendingCardAnswers ∧ (Quiet s → Quiet t) ∧
        (owned = true → Routes outcome.control → Quiet t) := by
    intro t ht hr
    exact ⟨ht.pending, ht.quiet, fun _ h => absurd h hr⟩
  have hspend : (s.spend owned).pendingCardAnswers = s.pendingCardAnswers ∧
      (Quiet s → Quiet (s.spend owned)) ∧
        (owned = true → Routes outcome.control → Quiet (s.spend owned)) := by
    refine ⟨rfl, fun hq => hq.spend owned, ?_⟩
    rintro rfl _
    exact quiet_spend_owned s
  unfold follow at h
  cases hc : outcome.control with
  | continues =>
      simp only [hc] at h
      split at h
      next =>
        cases h
        exact hc ▸ hspend
      next => exact nomatch h
      next =>
        cases h
        exact hc ▸ hspend
  | wait =>
      simp only [hc] at h
      split at h
      next =>
        cases h
        exact hc ▸ hsame ⟨rfl, rfl, rfl⟩ (by rw [hc]; rintro (h | h) <;> exact nomatch h)
      next => exact nomatch h
  | loopHere =>
      simp only [hc] at h
      cases h
      exact hc ▸ hsame ⟨rfl, rfl, rfl⟩ (by rw [hc]; rintro (h | h) <;> exact nomatch h)
  | awaitHere =>
      simp only [hc] at h
      cases h
      exact hc ▸ hsame ⟨rfl, rfl, rfl⟩ (by rw [hc]; rintro (h | h) <;> exact nomatch h)
  | jump jump =>
      simp only [hc] at h
      split at h
      next flowId nodeId s' hj =>
        cases h
        exact hc ▸ hsame (applyJump_frame hj) (by rw [hc]; rintro (h | h) <;> exact nomatch h)
      next => exact nomatch h
  | respond =>
      simp only [hc] at h
      exact nomatch h

theorem attachPendingCardAnswers_none {s : ExecutionState} {nodeId : String} {node : HostNode}
    {output : Drive.NodeOutput} (h : s.pendingCardAnswers = none) :
    attachPendingCardAnswers s nodeId node output = (false, output, s) := by
  unfold attachPendingCardAnswers
  rw [h]

/-- The node that the submit was made for takes it. -/
theorem attachPendingCardAnswers_owned {s : ExecutionState} {node : HostNode}
    {output : Drive.NodeOutput} {pending : PendingCardAnswers}
    (h : s.pendingCardAnswers = some pending) :
    attachPendingCardAnswers s pending.nodeId node output = (true,
      { output with payload := answeredPayload node.payloadExpr pending.answers output.payload },
      { s with pendingCardAnswers := none }) := by
  unfold attachPendingCardAnswers
  rw [h]
  exact if_pos rfl

/-! ## Whole turns -/

/-- The visit of the resumed node: it is of that node, it takes the answers that the card allows,
    and its routing sees the submit. -/
structure Resumed (host : Host) (snapshot : FlowSnapshot) (input : Json) (v : VisitRecord) : Prop where
  flowId : v.flowId = snapshot.resumeFlow
  nodeId : v.nodeId = snapshot.nextNode
  output : ∃ node, host.node? snapshot.resumeFlow snapshot.nextNode = some node ∧
    v.output = answeredPayload node.payloadExpr (submittedFields input) v.returned
  routed : ∀ view, v.routed = some view →
    view.resumedAt = some snapshot.nextNode ∧ responseAction view.context = routingAction input

/-- The resumed node was left by its routing, or ended the turn. -/
def Routed (visits : List VisitRecord) : Prop := ∀ v, visits.head? = some v → Routes v.control

/-- What is left of a submit as the turn goes on. -/
structure Submitted (host : Host) (snapshot : FlowSnapshot) (input : Json) (p : Progress) :
    Prop where
  unvisited : ∀ w, p = .walking w → w.visits = [] → w = resume snapshot input
  first : ∀ v, p.visits.head? = some v → Resumed host snapshot input v
  output : ∀ v ∈ p.visits.tail, v.output = v.returned
  routed : Routed p.visits → ∀ v ∈ p.visits.tail, ∀ view, v.routed = some view →
    responseAction view.context = none ∧ view.resumedAt = none
  parked : p.snapshot? ≠ none → p.visits ≠ []
  pending : ∀ s, p.state? = some s → p.visits ≠ [] → s.pendingCardAnswers = none
  quiet : Routed p.visits → ∀ s, p.state? = some s → p.visits ≠ [] → Quiet s

variable {snapshot : FlowSnapshot} {input : Json}

/-- A walk that fails. -/
theorem Submitted.fail {w : Walk} (h : Submitted host snapshot input (.walking w)) :
    Submitted host snapshot input (.failed w.visits) where
  unvisited := fun _ hw => nomatch hw
  first := h.first
  output := h.output
  routed := h.routed
  parked := fun hne => absurd rfl hne
  pending := fun _ hs => nomatch hs
  quiet := fun _ _ hs => nomatch hs

/-- The first round of the turn. -/
theorem Submitted.first_round (hs : snapshot.awaitingSubmit = true) {node : HostNode} {a : Answer}
    {outcome : DispatchOutcome} {s s' : ExecutionState} {owned : Bool} {output : Drive.NodeOutput}
    (hn : host.node? snapshot.resumeFlow snapshot.nextNode = some node)
    (hd : dispatchNode host snapshot.resumeFlow snapshot.nextNode node.kind
      (resume snapshot input).state a = (.ok outcome, s))
    (ha : attachPendingCardAnswers s snapshot.nextNode node outcome.output = (owned, output, s')) :
    Submitted host snapshot input
      (follow host (resume snapshot input) node a outcome owned output s') := by
  have hframe := dispatchNode_frame hd
  have hpending : s.pendingCardAnswers = some ⟨snapshot.nextNode, submittedFields input⟩ := by
    rw [hframe.pending]
    exact if_pos hs
  have hresumed : s.resumedAt = some snapshot.nextNode := by
    rw [hframe.resumedAt]
    exact if_pos hs
  have hentry : s.entry = input := hframe.entry
  rw [attachPendingCardAnswers_owned hpending] at ha
  cases ha
  obtain ⟨routed, hvisits, hview⟩ := follow_visits host (resume snapshot input) node a outcome true
    { outcome.output with
      payload := answeredPayload node.payloadExpr (submittedFields input) outcome.output.payload }
    { s with pendingCardAnswers := none }
  constructor
  · intro w hw hnil
    rw [hw] at hvisits
    exact absurd (hvisits.symm.trans hnil) (List.cons_ne_nil _ _)
  · intro v hv
    rw [hvisits] at hv
    cases hv
    refine ⟨rfl, rfl, ⟨node, hn, rfl⟩, fun view hr => ?_⟩
    rw [hview view hr]
    refine ⟨hresumed, ?_⟩
    rw [buildRoutingContext_action]
    exact congrArg routingAction hentry
  · intro v hv
    rw [hvisits] at hv
    exact nomatch hv
  · intro _ v hv
    rw [hvisits] at hv
    exact nomatch hv
  · intro _ hnil
    exact absurd (hvisits.symm.trans hnil) (List.cons_ne_nil _ _)
  · intro t ht _
    exact (follow_state ht).1
  · intro hr t ht _
    refine (follow_state ht).2.2 rfl ?_
    rw [hvisits] at hr
    exact hr _ rfl

/-- A later round: nothing is pending, and what is quiet stays so. -/
theorem Submitted.later_round {w : Walk} (h : Submitted host snapshot input (.walking w))
    (hw : w.visits ≠ []) {node : HostNode} {a : Answer} {outcome : DispatchOutcome}
    {s s' : ExecutionState} {owned : Bool} {output : Drive.NodeOutput}
    (hd : dispatchNode host w.flowId w.nodeId node.kind w.state a = (.ok outcome, s))
    (ha : attachPendingCardAnswers s w.nodeId node outcome.output = (owned, output, s')) :
    Submitted host snapshot input (follow host w node a outcome owned output s') := by
  have hframe := dispatchNode_frame hd
  have hpending : s.pendingCardAnswers = none := by
    rw [hframe.pending]
    exact h.pending w.state rfl hw
  rw [attachPendingCardAnswers_none hpending] at ha
  cases ha
  obtain ⟨routed, hvisits, hview⟩ := follow_visits host w node a outcome false outcome.output s
  obtain ⟨v₀, rest, hrest⟩ := List.exists_cons_of_ne_nil hw
  have hfirst := h.first
  have houtput := h.output
  have hrouted := h.routed
  have hquiet := h.quiet
  simp only [Progress.visits, hrest] at hfirst houtput hrouted hquiet
  rw [hrest, List.cons_append] at hvisits
  -- Whether the resumed node routed is about the first visit.
  have hsame : ∀ vs, Routed (v₀ :: vs) → Routed (v₀ :: rest) := fun _ hr => hr
  constructor
  · intro w' hw' hnil
    rw [hw'] at hvisits
    exact absurd (hvisits.symm.trans hnil) (List.cons_ne_nil _ _)
  · intro v hv
    rw [hvisits] at hv
    exact hfirst v hv
  · intro v hv
    rw [hvisits, List.tail_cons] at hv
    rcases List.mem_append.mp hv with hv | hv
    · exact houtput v hv
    · rw [List.mem_singleton.mp hv]
  · intro hr v hv view hview'
    rw [hvisits] at hr hv
    rw [List.tail_cons] at hv
    rcases List.mem_append.mp hv with hv | hv
    · exact hrouted (hsame _ hr) v hv view hview'
    · rw [List.mem_singleton.mp hv] at hview'
      have hq : Quiet s := hframe.quiet (hquiet (hsame _ hr) w.state rfl (List.cons_ne_nil _ _))
      rw [hview view hview', buildRoutingContext_action]
      exact ⟨hq.action.routingAction, hq.resumedAt⟩
  · intro _ hnil
    exact absurd (hvisits.symm.trans hnil) (List.cons_ne_nil _ _)
  · intro t ht _
    rw [(follow_state ht).1]
    exact hpending
  · intro hr t ht _
    rw [hvisits] at hr
    refine (follow_state ht).2.1 (hframe.quiet ?_)
    exact hquiet (hsame _ hr) w.state rfl (List.cons_ne_nil _ _)

/-- A turn on a snapshot that awaits a submit. -/
theorem Turn.submitted (hs : snapshot.awaitingSubmit = true) {p : Progress}
    (h : Turn host (resume snapshot input) p) : Submitted host snapshot input p := by
  refine Turn.inv ?_ ?_ ?_ h
  · constructor
    · intro w hw _
      cases hw
      rfl
    · exact fun _ hv => nomatch hv
    · exact fun _ hv => nomatch hv
    · exact fun _ _ hv => nomatch hv
    · exact fun hne => absurd rfl hne
    · exact fun _ _ hne => absurd rfl hne
    · exact fun _ _ _ hne => absurd rfl hne
  · intro w a hw
    rcases visit_cases host w a with hf | ⟨node, outcome, s, owned, output, s', hn, hd, ha, hf⟩
    · rw [hf]
      exact hw.fail
    · rw [hf]
      by_cases hnil : w.visits = []
      · cases hw.unvisited w rfl hnil
        exact Submitted.first_round hs hn hd ha
      · exact hw.later_round hnil hd ha
  · exact fun w hw => hw.fail

/-- The state of a run that parks. -/
theorem Progress.state_of_snapshot {p : Progress} {snapshot : FlowSnapshot}
    (h : p.snapshot? = some snapshot) : p.state? = some snapshot.state := by
  cases p with
  | parked visits last =>
      cases h
      rfl
  | walking w => exact nomatch h
  | completed visits => exact nomatch h
  | failed visits => exact nomatch h

/-- **A SUBMIT IS SPENT AT THE CARD IT WAS MADE FOR**: in a turn that resumes a card, the
    first visit is the one of the card, and its output takes the submitted fields that the card
    allows; every other output is as the node handed it back, and no snapshot keeps pending
    answers.  If the card was left by its routing, or ended the turn, then no later decision is
    evaluated with an action or with the resumed node, and no snapshot keeps either. -/
theorem submit_spent (host : Host) {snapshot : FlowSnapshot} (hs : snapshot.awaitingSubmit = true)
    {input : Json} {p : Progress} (h : Turn host (resume snapshot input) p) :
    (∀ v, p.visits.head? = some v → Resumed host snapshot input v) ∧
    (∀ v ∈ p.visits.tail, v.output = v.returned) ∧
    (∀ s, p.snapshot? = some s → s.state.pendingCardAnswers = none) ∧
    (Routed p.visits →
      (∀ v ∈ p.visits.tail, ∀ view, v.routed = some view →
        responseAction view.context = none ∧ view.resumedAt = none) ∧
      ∀ s, p.snapshot? = some s → s.state.resumedAt = none ∧ NoAction s.state.entry) := by
  have hinv := h.submitted hs
  refine ⟨hinv.first, hinv.output, ?_, fun hr => ⟨hinv.routed hr, ?_⟩⟩
  · intro s hp
    have hne := hinv.parked (by rw [hp]; exact Option.some_ne_none s)
    exact hinv.pending s.state (Progress.state_of_snapshot hp) hne
  · intro s hp
    have hne := hinv.parked (by rw [hp]; exact Option.some_ne_none s)
    have hq := hinv.quiet hr s.state (Progress.state_of_snapshot hp) hne
    exact ⟨hq.resumedAt, hq.action⟩

/-- Two cards that go on by the action `next`; the first declares that it has no inputs. -/
def cardHost : Host where
  flows := fun id =>
    if id = "main" then
      some ⟨none, [
        ("intro", ⟨.other, .obj [("answer_fields", .arr [])],
          .custom (.arr [.obj [("condition", .str "response.action == next"), ("to", .str "form")]])⟩),
        ("form", ⟨.other, .null,
          .custom (.arr [.obj [("condition", .str "response.action == next"), ("to", .str "intro")]])⟩)]⟩
    else none
  mode := .nats
  ctx := ⟨"acme", "pack", "main", some "chat", none⟩
  defaultEnv := "dev"
  sha256 := fun bytes => bytes
  requiresHuman := fun _ => true
  failureText := fun _ => "failed"
  isNodeId := fun _ => true
  evaluateSimpleCondition := fun _ ctx => ((responseAction ctx).bind Json.asStr?) == some "next"

/-- A card that is rendered. -/
def rendered : Answer where
  payload := .null
  outcome := .ok (.complete (.obj [("ok", .bool true)]))
  agent := .error "no agent"
  handler := none
  token := Vector.replicate 32 0
  nonce := Vector.replicate 16 0
  scope := ⟨.null, "on_success"⟩

/-- A run that waits for the submit of a card. -/
def waitingAt (nodeId : String) : FlowSnapshot := ⟨"pack", "main", none, nodeId, true, .new .null⟩

/-- A submit with a name. -/
def nameSubmit : Json := .obj [("metadata", .obj [("action", .str "next"), ("name", .str "Ada")])]

/-- The submit of the example is spent at its first card. -/
theorem submit_spent_cards :
    ∃ p s, Turn cardHost (resume (waitingAt "intro") nameSubmit) p ∧ p.snapshot? = some s ∧
      routingAction nameSubmit ≠ none ∧ s.state.resumedAt = none ∧ NoAction s.state.entry := by
  have hturn : ∃ p, Turn cardHost (resume (waitingAt "intro") nameSubmit) p ∧
      (p.snapshot?.isSome && p.visits.all fun v => v.control matches .continues) = true :=
    Reach.of_test [some rendered, some rendered] (by decide +kernel)
  obtain ⟨p, hp, htest⟩ := hturn
  obtain ⟨hsome, hall⟩ := Bool.and_eq_true_iff.mp htest
  obtain ⟨s, hs⟩ := Option.isSome_iff_exists.mp hsome
  have hrouted : Routed p.visits := by
    intro v hv
    have hcontinues := List.all_eq_true.mp hall v (List.mem_of_mem_head? hv)
    cases hc : v.control with
    | continues => exact .inl rfl
    | wait => simp [hc] at hcontinues
    | loopHere => simp [hc] at hcontinues
    | awaitHere => simp [hc] at hcontinues
    | jump jump => simp [hc] at hcontinues
    | respond => simp [hc] at hcontinues
  have hsubmit : (waitingAt "intro").awaitingSubmit = true := rfl
  obtain ⟨_, _, _, hquiet⟩ := submit_spent cardHost hsubmit hp
  refine ⟨p, s, hp, hs, ?_, (hquiet hrouted).2 s hs⟩
  have hsome : (routingAction nameSubmit).isSome = true := by decide +kernel
  exact Option.isSome_iff_ne_none.mp hsome

/-- The name that was submitted is no answer of a card that declares no inputs. -/
theorem declared_drops_name :
    ∃ p v f, Turn cardHost (resume (waitingAt "intro") nameSubmit) p ∧
      p.visits.head? = some v ∧ f ∈ submittedFields nameSubmit ∧
      pointer v.output "answers" f.1 ≠ some f.2 := by
  have hturn : ∃ p, Turn cardHost (resume (waitingAt "intro") nameSubmit) p ∧
      p.visits.head?.any (fun v => (pointer v.output "answers" "name").isNone) = true :=
    Reach.of_test [some rendered] (by decide +kernel)
  obtain ⟨p, hp, htest⟩ := hturn
  obtain ⟨v, hv, hnone⟩ := (Option.any_eq_true _ _).mp htest
  have hfield : (submittedFields nameSubmit).head?.map (·.1) = some "name" := by decide +kernel
  obtain ⟨f, hf, hname⟩ := Option.map_eq_some_iff.mp hfield
  refine ⟨p, v, f, hp, hv, List.mem_of_mem_head? hf, ?_⟩
  rw [hname, Option.isNone_iff_eq_none.mp hnone]
  exact Option.some_ne_none f.2 |>.symm

end Greentic.FlowWalk
