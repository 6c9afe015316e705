import GreenticRunner.FlowWalk

/-! # Await markers name only the parked node

    An approval gate, a conversational agent and an agent parked on a `flow:` tool each
    leave a marker in a map of the state, keyed by the bare node id.  The ids repeat
    across flows, and jumps carry the state from flow to flow, so a marker that outlived
    its node could be read by ANOTHER node.

    * `dispatchNode_settled` — a node that does not park leaves no marker;
    * `Turn.kept` — in a turn, only the node that was resumed ever sees a marker;
    * `markers_at_parked_node` — so every snapshot of every run of turns names its next
      node only. -/

namespace Greentic.FlowWalk

open Engine Transition

/-! ## Maps with one key -/

/-- The keys of a map. -/
def keys {α : Type} (m : NodeMap α) : List String := m.map (·.1)

section Keys

variable {α : Type} {m : NodeMap α} {node : String}

/-- A map that has at most one node. -/
def Only (node : String) (m : NodeMap α) : Prop := ∀ k ∈ keys m, k = node

theorem only_nil (node : String) : Only node ([] : NodeMap α) :=
  fun _ h => nomatch h

/-- Removing the only entry leaves none. -/
theorem Only.remove (h : Only node m) : m.remove node = [] := by
  rw [NodeMap.remove, List.filter_eq_nil_iff]
  intro f hf
  have hkey : f.1 = node := h f.1 (List.mem_map_of_mem hf)
  simp [hkey]

theorem Only.insert (h : Only node m) (v : α) : m.insert node v = [(node, v)] := by
  rw [NodeMap.insert, h.remove]

theorem only_singleton (node : String) (v : α) : Only node [(node, v)] := by
  intro k hk
  simpa [keys] using hk

/-- A map with the keys of one that has at most one node, and no entry there. -/
theorem Only.eq_nil (h : Only node m) (hget : m.get node = none) : m = [] := by
  cases m with
  | nil => rfl
  | cons f rest =>
      have hkey : f.1 = node := h f.1 (by simp [keys])
      rw [NodeMap.get, List.find?_cons_of_pos (by simp [hkey])] at hget
      cases hget

end Keys

/-! ## The markers of a state -/

/-- A state without a marker. -/
structure Unmarked (s : ExecutionState) : Prop where
  approval : s.pendingApprovalAwait = []
  token : s.pendingApprovalToken = []
  agent : s.pendingAgentAwait = []
  tool : s.pendingToolAwait = []

/-- The markers of a state are those of one node. -/
structure AwaitsOnly (nodeId : String) (s : ExecutionState) : Prop where
  approval : ∀ k ∈ keys s.pendingApprovalAwait, k = nodeId
  token : ∀ k ∈ keys s.pendingApprovalToken, k = nodeId
  awaited : ∀ k ∈ keys s.pendingApprovalToken, k ∈ keys s.pendingApprovalAwait
  agent : ∀ k ∈ keys s.pendingAgentAwait, k = nodeId
  tool : ∀ k ∈ keys s.pendingToolAwait, k = nodeId

/-- Whether a node of a kind may leave a marker of each sort. -/
structure KindOf (host : Host) (kind : NodeKind) (s : ExecutionState) : Prop where
  approval : s.pendingApprovalAwait ≠ [] → ∃ target, kind = .approvalCall target
  agent : s.pendingAgentAwait ≠ [] → host.mode = .nats ∧ ∃ id, kind = .dwAgent id true
  tool : s.pendingToolAwait ≠ [] → host.mode = .inProcess ∧ ∃ id talks, kind = .dwAgent id talks

/-- The markers of a state are those of one node, and of its kind. -/
structure Marks (host : Host) (flowId nodeId : String) (s : ExecutionState) : Prop where
  only : AwaitsOnly nodeId s
  kind : ∀ node, host.node? flowId nodeId = some node → KindOf host node.kind s

variable {host : Host} {flowId nodeId : String} {s s' : ExecutionState} {a : Answer}

/-- A state without markers awaits nothing. -/
theorem Unmarked.awaitsOnly (h : Unmarked s) (nodeId : String) : AwaitsOnly nodeId s where
  approval := by rw [h.approval]; exact only_nil nodeId
  token := by rw [h.token]; exact only_nil nodeId
  awaited := by rw [h.token]; exact fun _ h => nomatch h
  agent := by rw [h.agent]; exact only_nil nodeId
  tool := by rw [h.tool]; exact only_nil nodeId

theorem Unmarked.kindOf (h : Unmarked s) (host : Host) (kind : NodeKind) : KindOf host kind s where
  approval := fun hne => absurd h.approval hne
  agent := fun hne => absurd h.agent hne
  tool := fun hne => absurd h.tool hne

theorem Unmarked.marks (h : Unmarked s) (host : Host) (flowId nodeId : String) :
    Marks host flowId nodeId s :=
  ⟨h.awaitsOnly nodeId, fun node _ => h.kindOf host node.kind⟩

/-- Without an await there is no token. -/
theorem AwaitsOnly.token_nil (h : AwaitsOnly nodeId s) (ha : s.pendingApprovalAwait = []) :
    s.pendingApprovalToken = [] := by
  cases ht : s.pendingApprovalToken with
  | nil => rfl
  | cons f rest =>
      have hmem := h.awaited f.1 (by simp [ht, keys])
      rw [ha] at hmem
      exact nomatch hmem

namespace KindOf

variable {kind : NodeKind}

/-- No approval is awaited at another kind of node. -/
theorem approval_nil (h : KindOf host kind s) (hk : ∀ target, kind ≠ .approvalCall target) :
    s.pendingApprovalAwait = [] := by
  by_contra hne
  obtain ⟨target, ht⟩ := h.approval hne
  exact hk target ht

/-- No agent is. -/
theorem agent_nil (h : KindOf host kind s)
    (hk : host.mode ≠ .nats ∨ ∀ id, kind ≠ .dwAgent id true) : s.pendingAgentAwait = [] := by
  by_contra hne
  obtain ⟨hmode, id, hid⟩ := h.agent hne
  rcases hk with hk | hk
  · exact hk hmode
  · exact hk id hid

/-- No tool is. -/
theorem tool_nil (h : KindOf host kind s)
    (hk : host.mode ≠ .inProcess ∨ ∀ id talks, kind ≠ .dwAgent id talks) :
    s.pendingToolAwait = [] := by
  by_contra hne
  obtain ⟨hmode, id, talks, hid⟩ := h.tool hne
  rcases hk with hk | hk
  · exact hk hmode
  · exact hk id talks hid

end KindOf

/-! ## Nodes -/

/-- A control that parks the turn at the node itself. -/
def Parks (control : Drive.NodeControl) : Prop := control = .awaitHere ∨ control = .loopHere

/-- What a node makes of the markers: it parks with its own, or it leaves none. -/
def Settled (host : Host) (nodeId : String) (kind : NodeKind) (s : ExecutionState)
    (control : Drive.NodeControl) : Prop :=
  Unmarked s ∨ (Parks control ∧ AwaitsOnly nodeId s ∧ KindOf host kind s)

/-- An approval gate. -/
theorem executeApprovalCall_settled {g : GateState} {v : GateVisit} {sha256 : List UInt8 → List UInt8}
    {requiresHuman : Json → Bool} {control : NodeControl}
    (hawait : Only v.node g.pendingApprovalAwait) (htoken : Only v.node g.pendingApprovalToken)
    (hfree : g.pendingApprovalAwait = [] → g.pendingApprovalToken = [])
    (hr : (executeApprovalCall sha256 requiresHuman g v).result = .ok control) :
    ((executeApprovalCall sha256 requiresHuman g v).state.pendingApprovalAwait = [] ∧
      (executeApprovalCall sha256 requiresHuman g v).state.pendingApprovalToken = []) ∨
    ((∃ c, control = .awaitHere c) ∧
      ∃ id, (executeApprovalCall sha256 requiresHuman g v).state.pendingApprovalAwait
        = [(v.node, id)] ∧
      Only v.node (executeApprovalCall sha256 requiresHuman g v).state.pendingApprovalToken) := by
  cases hp : g.parked v.node with
  | some p =>
      cases hauth : entryIsApprovalResponse g.entry && responseAuthenticates sha256 g.entry p with
      | true =>
          rw [executeApprovalCall_accepted hp hauth]
          exact .inl ⟨hawait.remove, htoken.remove⟩
      | false =>
          rw [executeApprovalCall_refused hp hauth] at hr ⊢
          have hnil : Only v.node (g.pendingApprovalAwait.remove v.node) := by
            rw [hawait.remove]; exact only_nil _
          refine .inr ⟨⟨[], (Except.ok.inj hr).symm⟩, p.correlationId, hnil.insert _, ?_⟩
          dsimp only [GateState.markApprovalAwait, GateState.without]
          rw [htoken.remove]
          cases p.tokenFingerprint with
          | some f => exact only_singleton _ _
          | none => exact only_nil _
  | none =>
      -- Not parked: the map has no entry at its only node, so it is empty.
      have hget : g.pendingApprovalAwait.get v.node = none := by
        rw [GateState.parked, Option.map_eq_none_iff] at hp
        exact hp
      have hempty := hawait.eq_nil hget
      rcases @executeApprovalCall_free sha256 requiresHuman g v hp with
        ⟨id, c, hres, hstate⟩ | ⟨hnot, hstate⟩
      · rw [hres] at hr
        rw [hstate]
        refine .inr ⟨⟨c, (Except.ok.inj hr).symm⟩, id, hawait.insert _, ?_⟩
        show Only v.node (NodeMap.insert g.pendingApprovalToken v.node _)
        rw [htoken.insert]
        exact only_singleton _ _
      · rw [hstate]
        exact .inl ⟨hempty, hfree hempty⟩

/-- A consumed response leaves nothing to await. -/
theorem consumeResponse_taken (failureText : Json → String) (t : AgentState) :
    (consumeResponse failureText t).2.pendingAgentAwait = false := by
  unfold consumeResponse
  simp only
  split
  next =>
    split
    next => rfl
    next =>
      split
      next => rfl
      next => rfl
  next => rfl

/-- A conversational agent keeps its mark only where it awaits. -/
theorem executeConversational_taken (failureText : Json → String) (payload : Json) (t : AgentState) :
    (∃ input, (executeConversational failureText payload t).1 = .awaitHere input) ∨
      (executeConversational failureText payload t).2.pendingAgentAwait = false := by
  unfold executeConversational
  split
  next => exact .inr (consumeResponse_taken failureText t)
  next => exact .inl ⟨payload, rfl⟩

/-- A dispatch of an agent node that was sent is awaited, where it was asked to be. -/
theorem executeRemoteDispatch_control {agentId : String} {payload : Json} {atSelf : Bool}
    {outcome : DispatchOutcome}
    (h : executeRemoteDispatch host flowId agentId a payload atSelf = .ok outcome) :
    outcome.control = if atSelf then .awaitHere else .wait := by
  unfold executeRemoteDispatch at h
  split at h
  next => exact nomatch h
  next send _ =>
    unfold dispatched at h
    cases hsend : send (agenticDispatch host flowId agentId payload) with
    | error e =>
        rw [hsend] at h
        exact nomatch h
    | ok _ =>
        have hawait : (agenticDispatch host flowId agentId payload).await = true := rfl
        simp only [hsend, Except.map, hawait, if_true] at h
        rw [← Except.ok.inj h]

section Dispatch

variable {kind : NodeKind} {outcome : DispatchOutcome}

/-- An approval node awaits itself, or nothing. -/
theorem approvalCall_settled {target : String} (ho : AwaitsOnly nodeId s)
    (hk : KindOf host (.approvalCall target) s)
    (hd : dispatchNode host flowId nodeId (.approvalCall target) s a = (.ok outcome, s')) :
    Settled host nodeId (.approvalCall target) s' outcome.control := by
  have hagent : s.pendingAgentAwait = [] := hk.agent_nil (.inr fun _ h => nomatch h)
  have htool : s.pendingToolAwait = [] := hk.tool_nil (.inr fun _ _ h => nomatch h)
  unfold dispatchNode at hd
  simp only [Prod.mk.injEq] at hd
  obtain ⟨hres, rfl⟩ := hd
  obtain ⟨control, hr, hout⟩ : ∃ control, (executeApprovalCall host.sha256 host.requiresHuman s.gate
      (gateVisit host flowId nodeId target s a)).result = .ok control ∧
        gateOutcome control = outcome := by
    cases hr : (executeApprovalCall host.sha256 host.requiresHuman s.gate
        (gateVisit host flowId nodeId target s a)).result with
    | error e =>
        rw [hr] at hres
        exact nomatch hres
    | ok control =>
        rw [hr] at hres
        exact ⟨control, rfl, Except.ok.inj hres⟩
  rcases executeApprovalCall_settled (g := s.gate)
      (v := gateVisit host flowId nodeId target s a) ho.approval ho.token ho.token_nil hr with
    ⟨hawait, htoken⟩ | ⟨⟨c, rfl⟩, id, hawait, htoken⟩
  · exact .inl ⟨hawait, htoken, hagent, htool⟩
  · have hkeys : keys (executeApprovalCall host.sha256 host.requiresHuman s.gate
        (gateVisit host flowId nodeId target s a)).state.pendingApprovalAwait = [nodeId] := by
      rw [hawait]
      rfl
    refine .inr ⟨.inl ?_, ⟨?_, htoken, ?_, ?_, ?_⟩, ?_, ?_, ?_⟩
    · rw [← hout]
      rfl
    · intro k hmem
      exact List.mem_singleton.mp (hkeys ▸ hmem)
    · intro k hmem
      show k ∈ keys (executeApprovalCall _ _ _ _).state.pendingApprovalAwait
      rw [hkeys]
      exact List.mem_singleton.mpr (htoken k hmem)
    · show ∀ k ∈ keys s.pendingAgentAwait, k = nodeId
      exact ho.agent
    · show ∀ k ∈ keys s.pendingToolAwait, k = nodeId
      exact ho.tool
    · exact fun _ => ⟨target, rfl⟩
    · exact fun hne => absurd hagent hne
    · exact fun hne => absurd htool hne

/-- So does an agent over NATS. -/
theorem executeNats_settled {id : String} (hm : host.mode = .nats) (ho : AwaitsOnly nodeId s)
    (hk : KindOf host (.dwAgent id true) s)
    (hd : executeNats host flowId nodeId id s a = (.ok outcome, s')) :
    Settled host nodeId (.dwAgent id true) s' outcome.control := by
  have hawait : s.pendingApprovalAwait = [] := hk.approval_nil fun _ h => nomatch h
  have htoken : s.pendingApprovalToken = [] := ho.token_nil hawait
  have htool : s.pendingToolAwait = [] := hk.tool_nil (.inl (by rw [hm]; exact fun h => nomatch h))
  have htaken := executeConversational_taken host.failureText a.payload (s.agent nodeId)
  have hput : ∀ t : AgentState, t.pendingAgentAwait = false → Unmarked (s.putAgent nodeId t) := by
    intro t ht
    refine ⟨hawait, htoken, ?_, htool⟩
    show (if t.pendingAgentAwait then _ else s.pendingAgentAwait.remove nodeId) = []
    rw [if_neg (by rw [ht]; exact Bool.false_ne_true), Only.remove ho.agent]
  unfold executeNats at hd
  split at hd
  next input t heq =>
    simp only [Prod.mk.injEq] at hd
    obtain ⟨hres, rfl⟩ := hd
    refine .inr ⟨.inl (executeRemoteDispatch_control hres),
      ⟨ho.approval, ho.token, ho.awaited, ?_, ho.tool⟩, ?_, ?_, ?_⟩
    · show Only nodeId (if t.pendingAgentAwait then s.pendingAgentAwait.insert nodeId ()
        else s.pendingAgentAwait.remove nodeId)
      rw [Only.insert ho.agent, Only.remove ho.agent]
      split
      next => exact only_singleton _ _
      next => exact only_nil _
    · exact fun hne => absurd hawait hne
    · exact fun _ => ⟨hm, id, rfl⟩
    · exact fun hne => absurd htool hne
  next payload t heq =>
    simp only [Prod.mk.injEq] at hd
    obtain ⟨_, rfl⟩ := hd
    rw [heq] at htaken
    rcases htaken with ⟨_, h⟩ | h
    · exact nomatch h
    · exact .inl (hput t h)
  next payload t heq =>
    simp only [Prod.mk.injEq] at hd
    obtain ⟨_, rfl⟩ := hd
    rw [heq] at htaken
    rcases htaken with ⟨_, h⟩ | h
    · exact nomatch h
    · exact .inl (hput t h)

/-- And an agent in process. -/
theorem executeInProcess_settled {id : String} {talks : Bool} (hm : host.mode = .inProcess)
    (ho : AwaitsOnly nodeId s) (hk : KindOf host (.dwAgent id talks) s)
    (hd : executeInProcess s nodeId talks a.agent = (.ok outcome, s')) :
    Settled host nodeId (.dwAgent id talks) s' outcome.control := by
  have hawait : s.pendingApprovalAwait = [] := hk.approval_nil fun _ h => nomatch h
  have htoken : s.pendingApprovalToken = [] := ho.token_nil hawait
  have hagent : s.pendingAgentAwait = [] :=
    hk.agent_nil (.inl (by rw [hm]; exact fun h => nomatch h))
  have htool : s.pendingToolAwait.remove nodeId = [] := Only.remove ho.tool
  unfold executeInProcess at hd
  simp only [htool] at hd
  split at hd
  next => exact nomatch hd
  next payload =>
    split at hd
    next =>
      cases hd
      refine .inr ⟨.inr rfl, ⟨ho.approval, ho.token, ho.awaited, ho.agent, ?_⟩, ?_, ?_, ?_⟩
      · exact only_singleton nodeId ()
      · exact fun hne => absurd hawait hne
      · exact fun hne => absurd hagent hne
      · exact fun _ => ⟨hm, id, talks, rfl⟩
    next =>
      split at hd
      next =>
        split at hd
        next =>
          cases hd
          exact .inl ⟨hawait, htoken, hagent, rfl⟩
        next =>
          cases hd
          exact .inl ⟨hawait, htoken, hagent, rfl⟩
      next =>
        cases hd
        exact .inl ⟨hawait, htoken, hagent, rfl⟩

/-- **A NODE THAT DOES NOT PARK LEAVES NO MARKER**, and one that parks only its own. -/
theorem dispatchNode_settled (ho : AwaitsOnly nodeId s) (hk : KindOf host kind s)
    (hd : dispatchNode host flowId nodeId kind s a = (.ok outcome, s')) :
    Settled host nodeId kind s' outcome.control := by
  cases kind with
  | approvalCall target => exact approvalCall_settled ho hk hd
  | dwAgent id talks =>
      unfold dispatchNode at hd
      cases hm : host.mode with
      | nats =>
          simp only [hm] at hd
          cases talks with
          | true => exact executeNats_settled hm ho hk hd
          | false =>
              simp only [Bool.false_eq_true, if_false, Prod.mk.injEq] at hd
              obtain ⟨_, rfl⟩ := hd
              have hawait := hk.approval_nil fun _ h => nomatch h
              exact .inl ⟨hawait, ho.token_nil hawait, hk.agent_nil (.inr fun _ h => nomatch h),
                hk.tool_nil (.inl (by rw [hm]; exact fun h => nomatch h))⟩
      | inProcess =>
          simp only [hm] at hd
          exact executeInProcess_settled hm ho hk hd
  | other =>
      unfold dispatchNode at hd
      simp only [Prod.mk.injEq] at hd
      obtain ⟨_, rfl⟩ := hd
      have hawait := hk.approval_nil fun _ h => nomatch h
      exact .inl ⟨hawait, ho.token_nil hawait, hk.agent_nil (.inr fun _ h => nomatch h),
        hk.tool_nil (.inr fun _ _ h => nomatch h)⟩

end Dispatch

/-! ## Turns -/

/-- The answers of a card leave the markers. -/
theorem attachPendingCardAnswers_settled {node : HostNode} {output output' : Drive.NodeOutput}
    {owned : Bool} {control : Drive.NodeControl} (h : Settled host nodeId node.kind s control)
    (ha : attachPendingCardAnswers s nodeId node output = (owned, output', s')) :
    Settled host nodeId node.kind s' control := by
  unfold attachPendingCardAnswers at ha
  split at ha
  next =>
    cases ha
    exact h
  next =>
    split at ha
    next =>
      cases ha
      rcases h with h | ⟨hp, ho, hk⟩
      · exact .inl ⟨h.approval, h.token, h.agent, h.tool⟩
      · exact .inr ⟨hp, ⟨ho.approval, ho.token, ho.awaited, ho.agent, ho.tool⟩,
          ⟨hk.approval, hk.agent, hk.tool⟩⟩
    next =>
      cases ha
      exact h

/-- What holds of the markers as a turn goes on: it walks with those of the resumed node only, at
    that node, and what it parks is marked by the node it parked at. -/
def Kept (host : Host) : Progress → Prop
  | .walking w => Marks host w.flowId w.nodeId w.state ∧ (w.visits ≠ [] → Unmarked w.state)
  | .parked _ snapshot =>
      Marks host snapshot.flowId snapshot.nextNode snapshot.state ∧ snapshot.nextFlow = none
  | .completed _ => True
  | .failed _ => True

/-- A node that goes on awaits nothing. -/
theorem Settled.unmarked {kind : NodeKind} {control : Drive.NodeControl}
    (h : Settled host nodeId kind s control) (hc : ¬ Parks control) : Unmarked s := by
  rcases h with h | ⟨hp, _⟩
  · exact h
  · exact absurd hp hc

/-- A node that parks marks itself. -/
theorem Settled.marks {node : HostNode} {control : Drive.NodeControl}
    (h : Settled host nodeId node.kind s control) (hn : host.node? flowId nodeId = some node) :
    Marks host flowId nodeId s := by
  rcases h with h | ⟨_, ho, hk⟩
  · exact h.marks host flowId nodeId
  · refine ⟨ho, fun node' hn' => ?_⟩
    rw [hn] at hn'
    cases hn'
    exact hk

/-- A jump leaves a state without markers. -/
theorem applyJump_unmarked {jump : Drive.JumpControl} {flowId' nodeId' : String} (h : Unmarked s)
    (hj : applyJump host s jump = some (flowId', nodeId', s')) : Unmarked s' := by
  unfold applyJump at hj
  simp only at hj
  split at hj
  next => exact nomatch hj
  next =>
    obtain ⟨flow, _, hflow⟩ := Option.bind_eq_some_iff.mp hj
    obtain ⟨node, _, hnode⟩ := Option.bind_eq_some_iff.mp hflow
    split at hnode
    next => exact nomatch hnode
    next =>
      cases hnode
      exact ⟨h.approval, h.token, h.agent, h.tool⟩

/-- The control of a node keeps the markers where they belong. -/
theorem follow_kept {w : Walk} {node : HostNode} {outcome : DispatchOutcome} {owned : Bool}
    {output : Drive.NodeOutput} (hn : host.node? w.flowId w.nodeId = some node)
    (h : Settled host w.nodeId node.kind s outcome.control) :
    Kept host (follow host w node a outcome owned output s) := by
  have hmarks : Marks host w.flowId w.nodeId s := h.marks hn
  unfold follow
  cases hc : outcome.control with
  | continues =>
      have hu : Unmarked s := h.unmarked (by rw [hc]; rintro (h | h) <;> exact nomatch h)
      have hu' : Unmarked (s.spend owned) := ⟨hu.approval, hu.token, hu.agent, hu.tool⟩
      simp only
      split
      next n _ => exact ⟨hu'.marks _ _ _, fun _ => hu'⟩
      next => exact trivial
      next => exact ⟨hu'.marks _ _ _, rfl⟩
  | wait =>
      have hu : Unmarked s := h.unmarked (by rw [hc]; rintro (h | h) <;> exact nomatch h)
      simp only
      split
      next n _ => exact ⟨hu.marks _ _ _, rfl⟩
      next => exact trivial
  | loopHere => exact ⟨hmarks, rfl⟩
  | awaitHere => exact ⟨hmarks, rfl⟩
  | jump jump =>
      have hu : Unmarked s := h.unmarked (by rw [hc]; rintro (h | h) <;> exact nomatch h)
      simp only
      split
      next flowId' nodeId' s' hj =>
        have hu' := applyJump_unmarked hu hj
        exact ⟨hu'.marks _ _ _, fun _ => hu'⟩
      next => exact trivial
  | respond => exact trivial

/-- One round keeps the markers where they belong. -/
theorem visit_kept {w : Walk} (h : Kept host (.walking w)) (a : Answer) :
    Kept host (visit host w a) := by
  rcases visit_cases host w a with hf | ⟨node, outcome, s, owned, output, s', hnode, hd, ha, hf⟩
  · rw [hf]
    exact trivial
  · rw [hf]
    have hs := dispatchNode_settled h.1.only (h.1.kind node hnode) hd
    exact follow_kept hnode (attachPendingCardAnswers_settled hs ha)

/-- **A TURN KEEPS THE MARKERS WHERE THEY BELONG.** -/
theorem Turn.kept {w : Walk} {p : Progress} (h0 : Kept host (.walking w)) (h : Turn host w p) :
    Kept host p := by
  refine Turn.inv h0 ?_ ?_ h
  · exact fun w a hw => visit_kept hw a
  · exact fun _ _ => trivial

theorem execute_kept (host : Host) (flowId nodeId : String) (entry : Json) :
    Kept host (.walking (execute flowId nodeId entry)) :=
  ⟨Unmarked.marks ⟨rfl, rfl, rfl, rfl⟩ _ _ _, fun h => absurd rfl h⟩

/-- A run that resumes its snapshot. -/
theorem resume_kept {visits : List VisitRecord} {snapshot : FlowSnapshot}
    (h : Kept host (.parked visits snapshot)) (input : Json) :
    Kept host (.walking (resume snapshot input)) := by
  obtain ⟨⟨ho, hk⟩, hflow⟩ := h
  have hresume : snapshot.resumeFlow = snapshot.flowId := by rw [FlowSnapshot.resumeFlow, hflow]; rfl
  refine ⟨⟨⟨ho.approval, ho.token, ho.awaited, ho.agent, ho.tool⟩, ?_⟩, fun h => absurd rfl h⟩
  intro node hn
  have hkind := hk node (by rw [← hresume]; exact hn)
  exact ⟨hkind.approval, hkind.agent, hkind.tool⟩

/-- The snapshot of a run that parks. -/
theorem kept_of_snapshot {p : Progress} {snapshot : FlowSnapshot} (h : Kept host p)
    (hp : p.snapshot? = some snapshot) : Kept host (.parked p.visits snapshot) := by
  cases p with
  | parked visits last =>
      cases hp
      exact h
  | walking w => exact nomatch hp
  | completed visits => exact nomatch hp
  | failed visits => exact nomatch hp

/-- Every snapshot that was produced. -/
theorem Produced.kept {snapshot : FlowSnapshot} (h : Produced host snapshot) :
    Kept host (.parked [] snapshot) := by
  induction h with
  | fresh h hp => exact kept_of_snapshot (h.kept (execute_kept _ _ _ _)) hp
  | resumed hlast h hp ih => exact kept_of_snapshot (h.kept (resume_kept ih _)) hp

/-- **AWAIT MARKERS NAME ONLY THE PARKED NODE**: over every run of turns, in every snapshot
    the four maps have no key but the next node, and a token is of an await that is there.  A
    turn comes to a node with a marker only where it resumes that very node of that very flow: a
    fresh execution, or a node that is reached in another way, never sees one. -/
theorem markers_at_parked_node (host : Host) :
    (∀ snapshot, Produced host snapshot → AwaitsOnly snapshot.nextNode snapshot.state) ∧
    (∀ flowId nodeId entry w, Turn host (execute flowId nodeId entry) (.walking w) →
      Unmarked w.state) ∧
    ∀ last input w, Produced host last → Turn host (resume last input) (.walking w) →
      ¬ Unmarked w.state → w.visits = [] ∧ w.flowId = last.flowId ∧ w.nodeId = last.nextNode := by
  refine ⟨fun snapshot h => h.kept.1.only, ?_, ?_⟩
  · intro flowId nodeId entry w h
    by_cases hw : w.visits = []
    · rw [h.unvisited hw]
      exact ⟨rfl, rfl, rfl, rfl⟩
    · exact (h.kept (execute_kept _ _ _ _)).2 hw
  · intro last input w hlast h hmarked
    have hw : w.visits = [] := by
      by_contra hne
      exact hmarked ((h.kept (resume_kept hlast.kept _)).2 hne)
    have hflow : last.nextFlow = none := hlast.kept.2
    rw [h.unvisited hw]
    refine ⟨rfl, ?_, rfl⟩
    show last.nextFlow.getD last.flowId = last.flowId
    rw [hflow]
    rfl

/-- A flow with one gate. -/
def gateHost : Host where
  flows := fun id =>
    if id = "main" then some ⟨none, [("gate", ⟨.approvalCall "manager", .null, .ends⟩)]⟩ else none
  mode := .nats
  ctx := ⟨"acme", "pack", "main", some "chat", none⟩
  defaultEnv := "dev"
  sha256 := gateDigest
  requiresHuman := fun _ => true
  failureText := fun _ => "failed"
  isNodeId := fun _ => true
  evaluateSimpleCondition := fun _ _ => false

/-- A request that is sent. -/
def sentAnswer : Answer where
  payload := .null
  outcome := .error "no component"
  agent := .error "no agent"
  handler := some fun _ => .ok ()
  token := Vector.replicate 32 0
  nonce := Vector.replicate 16 0
  scope := ⟨.null, "on_success"⟩

/-- The approval of the example parks, and awaits its own node. -/
theorem markers_at_parked_node_gate :
    ∃ snapshot, Produced gateHost snapshot ∧ ¬ Unmarked snapshot.state ∧
      AwaitsOnly snapshot.nextNode snapshot.state ∧ Unmarked (ExecutionState.new .null) ∧
      (resume snapshot .null).flowId = snapshot.flowId := by
  have hturn : ∃ p, Turn gateHost (execute "main" "gate" .null) p ∧
      p.snapshot?.any (fun s => s.state.pendingApprovalAwait.length == 1) = true :=
    Reach.of_test [some sentAnswer] (by decide +kernel)
  obtain ⟨p, hp, htest⟩ := hturn
  obtain ⟨snapshot, hs, hlen⟩ := (Option.any_eq_true _ _).mp htest
  have hproduced : Produced gateHost snapshot := .fresh hp hs
  have hmarked : ¬ Unmarked snapshot.state := by
    intro hu
    rw [hu.approval] at hlen
    exact nomatch hlen
  obtain ⟨honly, hfresh, hresumed⟩ := markers_at_parked_node gateHost
  refine ⟨snapshot, hproduced, hmarked, honly snapshot hproduced,
    hfresh "main" "gate" .null _ .start, ?_⟩
  refine (hresumed snapshot .null _ hproduced .start fun hu => hmarked ?_).2.1
  exact ⟨hu.approval, hu.token, hu.agent, hu.tool⟩

end Greentic.FlowWalk
