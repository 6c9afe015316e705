import GreenticRunner.GraphSystemProofs

/-! # Validated graphs do not get stuck

    Every position a drive can come to is a node of the graph, every ledger row is
    one its node can use, and every cursor of a branch is inside the walk that
    validation made; so none of the structural errors is ever produced.

    * `Setup.Fault.not_structural` … — no reason for an error is structural;
    * `validated_never_stuck` — the result, for every reachable system. -/

namespace Greentic

open FinMaps CountedPath Resumption

/-- `UnknownNode` and `Graph(Invalid)`. -/
def GraphExecError.Structural : GraphExecError → Prop
  | .unknownNode _ => True
  | .graph (.invalid _) => True
  | _ => False

/-- Supervisors answer declared routes, approvals answer labels that have an edge
    and do not report a structural error of their own. -/
structure Closures.WellRouted (C : Closures) (cfg : GraphConfig) : Prop where
  supervisor : ∀ req r, C.supervisor req (.ok r) →
    (req.routes.any fun x => x.branch = r.branch) = true
  approval : ∀ req b, C.approval req (.ok (.decided b)) →
    ∃ t, cfg.graph.branchTarget req.nodeId b = some t
  ask : ∀ req e, C.approval req (.error e) → ¬ e.Structural

/-- No approval node lies on a parallel branch. -/
def GraphConfig.NoApprovalOnBranch (cfg : GraphConfig) : Prop :=
  ∀ p n, cfg.graph.node p = some n → n.kind = .parallel → ∀ e ∈ cfg.graph.edgesFrom p,
    ∀ J W, cfg.graph.walkBranchToJoin p e.to_ = .ok (J, W) →
      ∀ x ∈ W, ∀ m, cfg.graph.node x = some m → m.kind.isApproval = false

/-! ## Rows a node can use -/

theorem AgentTurnResult.fromValue_toValue (r : AgentTurnResult) :
    AgentTurnResult.fromValue r.toValue = .ok r := rfl

theorem SupervisorResult.fromValue_toValue (r : SupervisorResult) :
    SupervisorResult.fromValue r.toValue = .ok r := rfl

theorem storedDecision_decisionValue (b : String) : storedDecision (decisionValue b) = some b := rfl

/-- The row of a visit of the node `id`. -/
def RowOk (cfg : GraphConfig) (id : String) (raw : Json) : NodeKind → Prop
  | .agent .. => ∃ r, AgentTurnResult.fromValue raw = .ok r
  | .supervisor _ _ routes _ _ => ∃ r, SupervisorResult.fromValue raw = .ok r ∧
      (routes.any fun x => x.branch = r.branch) = true
  | .approval .. => ∃ b t, storedDecision raw = some b ∧ cfg.graph.branchTarget id b = some t
  | _ => True

/-- Every row is one its node can use. -/
def RowsOk (cfg : GraphConfig) (L : Ledger) : Prop :=
  ∀ id a raw n, L id a = some raw → cfg.graph.node id = some n → RowOk cfg id raw n.kind

section Rows

variable {run : RunRef} {C : Closures} {cfg : GraphConfig}

/-- What well-routed closures answer is a usable row. -/
theorem Answered.rowOk (hC : C.WellRouted cfg) {pt : Point} {kind : NodeKind} {v : Json}
    (h : Answered run C cfg pt kind v) : RowOk cfg pt.cursor v kind := by
  cases h with
  | effect i r hi hr hv =>
      cases kind with
      | agent _ _ _ _ _ _ =>
          cases hi
          cases r with
          | error e => exact nomatch hv
          | ok res => cases hv; exact ⟨res, res.fromValue_toValue⟩
      | tool _ => trivial
      | supervisor _ _ routes _ _ =>
          cases hi
          cases r with
          | error e => exact nomatch hv
          | ok res => cases hv; exact ⟨res, res.fromValue_toValue, hC.supervisor _ res hr⟩
      | router _ => exact nomatch hi
      | respond => exact nomatch hi
      | parallel => exact nomatch hi
      | join => exact nomatch hi
      | approval _ _ _ _ _ => exact nomatch hi
  | decision req b t hreq hb ht hv =>
      cases kind with
      | approval _ _ _ _ _ => exact ⟨b, t, by rw [hv]; rfl, ht⟩
      | agent _ _ _ _ _ _ => exact nomatch hreq
      | tool _ => exact nomatch hreq
      | supervisor _ _ _ _ _ => exact nomatch hreq
      | router _ => exact nomatch hreq
      | respond => exact nomatch hreq
      | parallel => exact nomatch hreq
      | join => exact nomatch hreq

/-- One more usable row. -/
theorem RowsOk.add {L : Ledger} (h : RowsOk cfg L) {id : String} {a : Nat} {v : Json} {n : Node}
    (hn : cfg.graph.node id = some n) (hv : RowOk cfg id v n.kind) : RowsOk cfg (L.add id a v) := by
  intro id' a' raw n' hraw hn'
  unfold Ledger.add at hraw
  by_cases hkey : id' = id ∧ a' = a
  · rw [if_pos hkey] at hraw
    cases hraw
    obtain ⟨rfl, -⟩ := hkey
    rw [hn] at hn'
    cases hn'
    exact hv
  · rw [if_neg hkey] at hraw
    exact h id' a' raw n' hraw hn'

/-- A usable row leads on. -/
theorem effectAfter_ok (hcfg : cfg.Accepted) (label : Option String) {pt : Point} {raw : Json}
    {n : Node} (hn : cfg.graph.node pt.cursor = some n) (hk : n.kind.isEffect = true)
    (hraw : RowOk cfg pt.cursor raw n.kind) :
    ∃ pt', effectAfter cfg label pt raw n.kind = .ok pt' := by
  obtain ⟨_, _, _, _, _, _, hkind⟩ | ⟨_, hkind⟩ | ⟨_, _, routes, _, _, hkind⟩ :=
    NodeKind.effect_cases hk
  · rw [hkind] at hraw ⊢
    obtain ⟨r, hr⟩ := hraw
    obtain ⟨e, -, ht⟩ := hcfg.next_linear hn (Or.inl (by rw [hkind]; rfl))
    simp only [effectAfter, afterAgent, bind, Except.bind, hr, ht]
    exact ⟨_, rfl⟩
  · rw [hkind]
    obtain ⟨e, -, ht⟩ := hcfg.next_linear hn (Or.inr (Or.inl (by rw [hkind]; rfl)))
    simp only [effectAfter, afterTool, bind, Except.bind, ht]
    exact ⟨_, rfl⟩
  · rw [hkind] at hraw ⊢
    obtain ⟨r, hr, hany⟩ := hraw
    obtain ⟨e, -, ht⟩ := hcfg.supervisor_edge hn hkind hany
    rw [effectAfter, afterSupervisor_of hr hany ht]
    exact ⟨_, rfl⟩

end Rows

/-! ## The track -/

/-- A node of the graph. -/
def AtNode (cfg : GraphConfig) (id : String) : Prop := ∃ n, cfg.graph.node id = some n

theorem AtNode.edge {cfg : GraphConfig} (hcfg : cfg.Accepted) {id : String} {e : Edge}
    (he : e ∈ cfg.graph.edgesFrom id) : AtNode cfg e.to_ :=
  Option.isSome_iff_exists.mp (hcfg.edge_node he)

/-- A trunk step leads to a node. -/
theorem TrunkStep.atNode {cfg : GraphConfig} (hcfg : cfg.Accepted) {O : Oracle} {pt pt' : Point}
    (h : TrunkStep cfg O pt pt') : AtNode cfg pt'.cursor := by
  cases h with
  | work h =>
      obtain ⟨e, he, state, news, heq, -⟩ := h.advanced
      rw [heq]
      exact AtNode.edge hcfg he
  | approval n raw b next hn hk hr hb ht heq =>
      obtain ⟨e, he, het⟩ := Graph.branchTarget_mem ht
      rw [heq, Point.advance, ← het]
      exact AtNode.edge hcfg he
  | join n next hn hk ht heq =>
      obtain ⟨e, he, het⟩ := nextLinear_mem ht
      rw [heq, ← het]
      exact AtNode.edge hcfg he
  | region n J next ends hn hk hJ hends ht hcap heq =>
      obtain ⟨e, he, het⟩ := nextLinear_mem ht
      rw [heq, mergeRegion, ← het]
      exact AtNode.edge hcfg he

/-- Cursors are nodes and rows are usable. -/
def safetyTrack (run : RunRef) {cfg : GraphConfig} (hcfg : cfg.Accepted) {C : Closures}
    (hC : C.WellRouted cfg) : Track run cfg C where
  Tracked := True
  Present := False
  Good := RowsOk cfg
  On := fun _ pt => AtNode cfg pt.cursor
  Start := fun _ => True
  mono := fun _ h => h
  start := fun _ => Option.isSome_iff_exists.mp hcfg.entry_node
  step := fun _ _ h => h.atNode hcfg
  write := fun hg _ hn hv _ _ _ => hg.add hn (hv.rowOk hC)

/-! ## No reason is structural -/

namespace Setup

variable {S : Setup} {L : Ledger} {pt : Point} {e : GraphExecError}

theorem Fault.not_structural {label : Option String} (h : S.Fault label L pt e)
    (hL : RowsOk S.cfg L) (hpt : AtNode S.cfg pt.cursor) : ¬ e.Structural := by
  cases h with
  | unknown hn he =>
      obtain ⟨n, hn'⟩ := hpt
      rw [hn] at hn'
      cases hn'
  | closure n i r hn hi hr he hmiss =>
      rcases closureError_kind he with ⟨m, hm⟩ | ⟨m, hm⟩ | ⟨m, hm⟩ <;> subst hm <;> exact id
  | after n raw hn hk hrow he =>
      obtain ⟨pt', hok⟩ := effectAfter_ok S.accepted label hn hk (hL _ _ _ _ hrow hn)
      rw [hok] at he
      cases he
  | router n hn hk he =>
      obtain ⟨m, hkind⟩ := NodeKind.router_of hk
      obtain ⟨x, -, ht⟩ := S.accepted.route_ok hn hkind pt.state
      simp only [afterRouter, bind, Except.bind, ht] at he
      cases he
  | segment n c hn hk hbad he => subst he; exact id

theorem TrunkFault.not_structural (hC : S.C.WellRouted S.cfg) (h : S.TrunkFault L pt e)
    (hL : RowsOk S.cfg L) (hpt : AtNode S.cfg pt.cursor) : ¬ e.Structural := by
  cases h with
  | visit h => exact h.not_structural hL hpt
  | ask n req hn hreq hr => exact hC.ask req e hr
  | noEdge n req b m hn hreq hr ht he =>
      obtain ⟨t, ht'⟩ := hC.approval req b hr
      rw [askRequest_node hreq, ht] at ht'
      cases ht'
  | badRow n raw m hn hk hrow hbad he =>
      have hok := hL _ _ _ _ hrow hn
      obtain ⟨_, _, _, _, _, hkind⟩ := NodeKind.approval_of hk
      rw [hkind] at hok
      obtain ⟨b, t, hb, ht⟩ := hok
      exact absurd ht (hbad b t hb)
  | join n hn hk he =>
      obtain ⟨x, -, ht⟩ := S.accepted.next_linear hn (Or.inr (Or.inr (by rw [hk]; rfl)))
      rw [ht] at he
      cases he
  | findJoin n hn hk he =>
      obtain ⟨J, hJ⟩ := S.accepted.region hn hk
      rw [GraphConfig.find_join hJ] at he
      cases he

/-- A branch that halted before the join is at a node it can visit. -/
theorem Halted.not_structural (hno : S.cfg.NoApprovalOnBranch) {s : World} {P : Point} {n : Node}
    {J : String} {x : String × String} {m : Nat} (hn : S.cfg.graph.node P.cursor = some n)
    (hk : n.kind = .parallel) (hJ : findJoinForParallel S.cfg P.cursor = .ok J)
    (hx : x ∈ branchEdges S.cfg P.cursor)
    (hp : Steps (BranchStep S.cfg (rowAt s.1.ledger)) (branchStart P x) m pt)
    (hL : RowsOk S.cfg s.1.ledger) (h : S.Halted s P J x pt e) : ¬ e.Structural := by
  cases h with
  | capped hcap hover he => subst he; exact id
  | unsaved c hbad he => subst he; exact id
  | fault hne h =>
      obtain ⟨J', hR⟩ := S.accepted.region hn hk
      have heq : J' = J := Except.ok.inj ((GraphConfig.find_join hR).symm.trans hJ)
      subst heq
      have hw := GraphConfig.branch_walk hR hx
      have hmem := (branch_inside hR hx hp).mem_walk hne
      obtain ⟨node, hnode, h1, h2, h3⟩ := hw.inner pt.cursor hmem
      cases h with
      | visit h => exact h.not_structural hL ⟨node, hnode⟩
      | kind n' msg hn' hk' he =>
          rw [hnode] at hn'
          cases hn'
          -- the walk has no join, fan-out or respond node, and no approval by assumption
          obtain ⟨edge, hedge, hxe⟩ :=
            List.mem_map.mp ((GraphConfig.branchEdges_perm hR).mem_iff.mp hx)
          have hwalk := hR.walk edge hedge
          have hto : edge.to_ = x.2 := by rw [← hxe]
          rw [hto] at hwalk
          have happ := hno P.cursor n hn hk edge hedge J' _ (by rw [hto]; exact hwalk) pt.cursor
            hmem node hnode
          cases hkind : node.kind <;> rw [hkind] at hk' h1 h2 h3 happ <;>
            simp_all [NodeKind.isEffect, NodeKind.isRouter, NodeKind.isApproval]

/-- No explained error is structural. -/
theorem Explained.not_structural (hC : S.C.WellRouted S.cfg) (hno : S.cfg.NoApprovalOnBranch)
    (hOn : ∀ L pt, S.T.On L pt → AtNode S.cfg pt.cursor) (hGood : ∀ L, S.T.Good L → RowsOk S.cfg L)
    {s : World} (h : S.Explained s e) : ¬ e.Structural := by
  cases h with
  | refused hload he => subst he; exact id
  | unsaved c hbad he => subst he; exact id
  | trunk X k m pt came hm kept h =>
      exact h.not_structural hC (hGood _ came.store.good) (hOn _ _ came.on)
  | leave X k P n J came hn hk hJ he =>
      obtain ⟨n', hn', hk'⟩ := findJoin_join hJ
      obtain ⟨x, -, ht⟩ := S.accepted.next_linear hn' (Or.inr (Or.inr (by rw [hk']; rfl)))
      rw [ht] at he
      exact nomatch he
  | branch X k P J frontier i x bc came hJ kept hf hall hx hbc h hcap =>
      obtain ⟨n, hn, hk⟩ := hf.node
      obtain ⟨J', hJ', hslots⟩ := hf.slots
      obtain ⟨bc', hbc', hslot⟩ := Region.forall₂_at hslots hx
      rw [hbc] at hbc'
      cases hbc'
      obtain ⟨m, hp⟩ := hslot.path
      exact h.not_structural hno hn hk hJ (List.mem_of_getElem? hx) hp (hGood _ came.store.good)
  | cap X k pt came hex kept he => subst he; exact id

/-- No result of a branch is structural. -/
theorem Settles.not_structural (hno : S.cfg.NoApprovalOnBranch)
    (hGood : ∀ L, S.T.Good L → RowsOk S.cfg L) {s : World}
    (h : S.Settles s (.error e)) : ¬ e.Structural := by
  obtain ⟨X, k, P, n, J, x, m, pt, came, hn, hk, hJ, hx, hp, hh⟩ := h e rfl
  exact hh.not_structural hno hn hk hJ hx hp (hGood _ came.store.good)

end Setup

/-- **VALIDATED GRAPHS NEVER GET STRUCTURALLY STUCK.**  In every system of calls on
    one run, whatever the interleaving, no call and no branch of a call fails with
    `UnknownNode` or `Graph(Invalid)`; and the join that `find_join_for_parallel`
    returns is the one on which all branch walks of validation end. -/
theorem validated_never_stuck (run : RunRef) (cfg : GraphConfig) (C : Closures)
    (hcfg : cfg.Accepted) (hno : cfg.NoApprovalOnBranch) (hC : C.WellRouted cfg) :
    (∀ c : System, Pool.Reach (exec run C) (Call run fun g _ => g = cfg) ⟨.empty, []⟩ c →
      ∀ (j : Nat) (m : CallMemory) (p : Drive GraphRunOutcome),
        c.threads[j]? = some (some (m, p)) →
        (∀ e, p.outcome? = some (.error e) → ¬ e.Structural) ∧
        ∀ ws k (i : Nat) w e, p = .fork ws k → ws[i]? = some w →
          w.outcome? = some (.error e) → ¬ e.Structural) ∧
    ∀ p n, cfg.graph.node p = some n → n.kind = .parallel →
      ∃ J, findJoinForParallel cfg p = .ok J ∧
        ∀ e ∈ cfg.graph.edgesFrom p, ∃ W, cfg.graph.walkBranchToJoin p e.to_ = .ok (J, W) := by
  refine ⟨?_, ?_⟩
  · intro c hr j m p hj
    let S := sharedSetup hcfg (safetyTrack run hcfg hC)
    have hS : S.Serves fun g _ => g = cfg := ⟨trivial, fun g _ hg => Or.inr ⟨hg, trivial⟩⟩
    have hst : StoreOk S.T RunStore.empty :=
      ⟨fun _ _ _ _ h => (nomatch h), fun _ _ h => (nomatch h), fun h => h.elim⟩
    have hc := (Setup.reach hS id (Setup.systemOk_idle hst) hr).1
    refine ⟨?_, ?_⟩
    · intro e he
      rcases hc.outcome hj he with ⟨hres, -⟩ | ⟨herr, -⟩
      · cases hres with
        | error _ h => exact h.not_structural hC hno (fun _ _ h => h) fun _ h => h
      · cases herr
        exact id
    · intro ws k i w e hp hi he
      subst hp
      exact (hc.worker hj hi he).not_structural hno fun _ h => h
  · intro p n hn hk
    obtain ⟨J, hJ⟩ := hcfg.region hn hk
    exact ⟨J, GraphConfig.find_join hJ, fun e he => ⟨_, hJ.walk e he⟩⟩

/-- A fan-out over two tools, then the reply. -/
def forkJoin : GraphConfig where
  schemaVersion := 2
  graph :=
    { entry := "fan"
      nodes := [⟨"fan", .parallel⟩, ⟨"left", .tool "t"⟩, ⟨"right", .tool "t"⟩, ⟨"meet", .join⟩,
        ⟨"end", .respond⟩]
      edges := [⟨"fan", "left", some "a"⟩, ⟨"fan", "right", some "b"⟩, ⟨"left", "meet", none⟩,
        ⟨"right", "meet", none⟩, ⟨"meet", "end", none⟩] }

/-- Closures that always answer; a supervisor takes its first route. -/
def firstRoute : Effects where
  agentTurn := fun _ => .ok ⟨"", true⟩
  tool := fun _ => .ok .null
  supervisor := fun req => match req.routes with
    | r :: _ => .ok ⟨r.branch, ""⟩
    | [] => .error (.supervisor "no route")
  approval := fun _ => .ok .awaiting

theorem firstRoute_wellRouted (cfg : GraphConfig) : firstRoute.closures.WellRouted cfg where
  supervisor := by
    intro req r h
    have h' : Except.ok r = firstRoute.supervisor req := h
    unfold firstRoute at h'
    dsimp only at h'
    cases hr : req.routes with
    | nil => rw [hr] at h'; exact nomatch h'
    | cons x xs => rw [hr] at h'; cases h'; simp
  approval := by
    intro req b h
    cases h
  ask := by
    intro req e h
    cases h

/-- The fan-out over two tools never gets stuck, and its join is `meet`. -/
theorem forkJoin_never_stuck :
    forkJoin.Accepted ∧ forkJoin.NoApprovalOnBranch ∧
    (∀ c : System, Pool.Reach (exec ⟨"t", "r"⟩ firstRoute.closures)
      (Call ⟨"t", "r"⟩ fun g _ => g = forkJoin) ⟨.empty, []⟩ c →
      ∀ (j : Nat) (m : CallMemory) (p : Drive GraphRunOutcome),
        c.threads[j]? = some (some (m, p)) → ∀ e, p.outcome? = some (.error e) → ¬ e.Structural) ∧
    ∃ J, findJoinForParallel forkJoin "fan" = .ok J := by
  have hcfg : forkJoin.Accepted := rfl
  have hno : forkJoin.NoApprovalOnBranch := by
    intro p n _ _ e _ J W _ x _ m hm
    exact (by decide : ∀ n ∈ forkJoin.graph.nodes, n.kind.isApproval = false) m
      (Graph.node_mem hm).1
  have h := validated_never_stuck ⟨"t", "r"⟩ forkJoin firstRoute.closures hcfg hno
    (firstRoute_wellRouted forkJoin)
  refine ⟨hcfg, hno, ?_, ?_⟩
  · intro c hr j m p hj
    exact (h.1 c hr j m p hj).1
  · obtain ⟨J, hJ, -⟩ := h.2 "fan" ⟨"fan", .parallel⟩ rfl rfl
    exact ⟨J, hJ⟩

end Greentic
