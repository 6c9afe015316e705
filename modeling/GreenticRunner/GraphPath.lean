import GreenticRunner.CountedPath
import GreenticRunner.GraphValidProofs

/-! # The path a run follows

    What a drive does next is DETERMINED by its position and the ledger rows it
    reads: the abstract machine below has positions as states and takes the rows
    from an `Oracle`.  `BranchStep` moves one branch, `TrunkStep` moves the trunk
    and takes a whole parallel region in one step.

    * `BranchStep.det`, `TrunkStep.det` — one line from every position;
    * `BranchStep.mono`, `TrunkStep.mono` — more rows, more steps;
    * `branch_inside` — a branch stays inside its validated walk. -/

namespace Greentic

open FinMaps CountedPath

/-- The row a visit will find, if any. -/
abbrev Oracle : Type := Point → Option Json

variable {cfg : GraphConfig} {pt pt' : Point} {O : Oracle}

/-- The row of the next visit in a ledger. -/
def rowAt (L : Ledger) : Oracle := fun pt => L pt.cursor pt.attempt

/-- `O'` has every row of `O`. -/
def Oracle.le (O O' : Oracle) : Prop := ∀ pt raw, O pt = some raw → O' pt = some raw

/-- `L'` has every row of `L`. -/
def Ledger.le (L L' : Ledger) : Prop := ∀ n a raw, L n a = some raw → L' n a = some raw

theorem Ledger.le.oracle {L L' : Ledger} (h : Ledger.le L L') : (rowAt L).le (rowAt L') :=
  fun pt raw hr => h pt.cursor pt.attempt raw hr

theorem Ledger.le.trans {L L' L'' : Ledger} (h1 : Ledger.le L L') (h2 : Ledger.le L' L'') :
    Ledger.le L L'' :=
  fun n a raw hr => h2 n a raw (h1 n a raw hr)

theorem Ledger.le.refl (L : Ledger) : Ledger.le L L := fun _ _ _ hr => hr

/-! ## Steps -/

/-- Agent, tool and supervisor nodes: an effect whose result is ledgered. -/
def NodeKind.isEffect : NodeKind → Bool
  | .agent .. | .tool _ | .supervisor .. => true
  | _ => false

/-- Router nodes. -/
def NodeKind.isRouter : NodeKind → Bool
  | .router _ => true
  | _ => false

/-- Approval nodes. -/
def NodeKind.isApproval : NodeKind → Bool
  | .approval .. => true
  | _ => false

theorem NodeKind.router_of {kind : NodeKind} (h : kind.isRouter = true) :
    ∃ maxIterations, kind = .router maxIterations := by
  cases kind <;> first | exact ⟨_, rfl⟩ | simp [NodeKind.isRouter] at h

theorem NodeKind.approval_of {kind : NodeKind} (h : kind.isApproval = true) :
    ∃ title mode riskThreshold confidenceThreshold deadlineMs,
      kind = .approval title mode riskThreshold confidenceThreshold deadlineMs := by
  cases kind <;> first | exact ⟨_, _, _, _, _, rfl⟩ | simp [NodeKind.isApproval] at h

theorem NodeKind.effect_cases {kind : NodeKind} (h : kind.isEffect = true) :
    (∃ systemPrompt model tools provider agentRef inheritFrom,
      kind = .agent systemPrompt model tools provider agentRef inheritFrom) ∨
    (∃ toolName, kind = .tool toolName) ∨
    ∃ systemPrompt model routes provider agentRef,
      kind = .supervisor systemPrompt model routes provider agentRef := by
  cases kind <;> first
    | exact Or.inl ⟨_, _, _, _, _, _, rfl⟩
    | exact Or.inr (Or.inl ⟨_, rfl⟩)
    | exact Or.inr (Or.inr ⟨_, _, _, _, _, rfl⟩)
    | simp [NodeKind.isEffect] at h

/-- What a ledgered result does at an effect node. -/
def effectAfter (cfg : GraphConfig) (label : Option String) (pt : Point) (raw : Json) :
    NodeKind → Except GraphExecError Point
  | .agent .. => afterAgent cfg pt raw
  | .tool _ => afterTool cfg pt raw
  | .supervisor _ _ routes _ _ =>
      (afterSupervisor cfg routes (supervisorMessage label) pt raw).map (·.1)
  | _ => .error (.unknownNode pt.cursor)

/-- The position after a visit of the cursor node that continues at `next`. -/
def Point.advance (pt : Point) (next : String) (state : GraphRunState) : Point :=
  ⟨next, state, pt.visits.insert pt.cursor pt.attempt⟩

/-- The decision a ledger row holds. -/
def storedDecision (raw : Json) : Option String := (raw.get? "decision").bind Json.asStr?

/-- One visit inside a branch, or of the same kinds in the trunk. -/
inductive BranchStep (cfg : GraphConfig) (O : Oracle) (pt pt' : Point) : Prop where
  | effect (n : Node) (raw : Json) (hn : cfg.graph.node pt.cursor = some n)
      (hk : n.kind.isEffect = true) (hO : O pt = some raw)
      (ha : effectAfter cfg none pt raw n.kind = .ok pt')
  | router (n : Node) (hn : cfg.graph.node pt.cursor = some n) (hk : n.kind.isRouter = true)
      (ha : afterRouter cfg pt = .ok pt')

/-- The position a branch starts at: its own copy of the trunk state. -/
def branchStart (P : Point) (x : String × String) : Point := ⟨x.2, P.state, P.visits⟩

/-- The position a frontier slot stores. -/
def slotPoint (P : Point) (bc : BranchCursor) : Point :=
  ⟨bc.cursor, bc.state, P.visits.extend bc.visits⟩

/-- The slot of a branch that has come to the join. -/
structure BranchEnd (cfg : GraphConfig) (O : Oracle) (P : Point) (J : String)
    (x : String × String) (bc : BranchCursor) : Prop where
  label : bc.branch = x.1
  cursor : bc.cursor = J
  path : ∃ m, Steps (BranchStep cfg O) (branchStart P x) m ⟨bc.cursor, bc.state, bc.visits⟩

/-- The visits a branch has made beyond those of the trunk. -/
def spent (P : Point) (visits : Visits) : Nat := visits.total - P.visits.total

/-- The visits of all branches. -/
def spentAll (P : Point) (ends : List BranchCursor) : Nat :=
  (ends.map fun bc => spent P bc.visits).sum

/-- The deterministic merge at the join. -/
def mergeRegion (P : Point) (ends : List BranchCursor) (next : String) : Point where
  cursor := next
  state := ends.foldl (mergeBranch P.state.messages.length) P.state
  visits := ends.foldl (fun m bc => m.maxMerge bc.visits) P.visits

/-- The merge keeps the larger count of every node. -/
theorem mergeRegion_visits (P : Point) (ends : List BranchCursor) (next : String) :
    (mergeRegion P ends next).visits = (ends.map (·.visits)).foldl FinMap.maxMerge P.visits := by
  rw [List.foldl_map]
  rfl

/-- One step of the trunk; a region is one step and keeps to the visit cap. -/
inductive TrunkStep (cfg : GraphConfig) (O : Oracle) (pt pt' : Point) : Prop where
  | work (h : BranchStep cfg O pt pt')
  | approval (n : Node) (raw : Json) (b next : String)
      (hn : cfg.graph.node pt.cursor = some n) (hk : n.kind.isApproval = true)
      (hO : O pt = some raw) (hb : storedDecision raw = some b)
      (ht : cfg.graph.branchTarget pt.cursor b = some next)
      (heq : pt' = pt.advance next pt.state)
  | join (n : Node) (next : String) (hn : cfg.graph.node pt.cursor = some n)
      (hk : n.kind = .join) (ht : nextLinear cfg pt.cursor = .ok next)
      (heq : pt' = { pt with cursor := next })
  | region (n : Node) (J next : String) (ends : List BranchCursor)
      (hn : cfg.graph.node pt.cursor = some n) (hk : n.kind = .parallel)
      (hJ : findJoinForParallel cfg pt.cursor = .ok J)
      (hends : List.Forall₂ (BranchEnd cfg O pt J) (branchEdges cfg pt.cursor) ends)
      (ht : nextLinear cfg J = .ok next)
      (hcap : spentAll pt ends = 0 ∨ pt.visits.total + spentAll pt ends ≤ maxNodeVisits)
      (heq : pt' = mergeRegion pt ends next)

/-! ## More rows, more steps -/

/-- More rows, more steps. -/
theorem BranchStep.mono {O O' : Oracle} (hO : O.le O')
    (h : BranchStep cfg O pt pt') : BranchStep cfg O' pt pt' := by
  cases h with
  | effect n raw hn hk hr ha => exact .effect n raw hn hk (hO pt raw hr) ha
  | router n hn hk ha => exact .router n hn hk ha

/-- The same for the end of a branch. -/
theorem BranchEnd.mono {O O' : Oracle} (hO : O.le O') {P : Point}
    {J : String} {x : String × String} {bc : BranchCursor} (h : BranchEnd cfg O P J x bc) :
    BranchEnd cfg O' P J x bc := by
  obtain ⟨hl, hc, m, hp⟩ := h
  exact ⟨hl, hc, m, hp.mono fun _ _ => BranchStep.mono hO⟩

/-- And for the trunk. -/
theorem TrunkStep.mono {O O' : Oracle} (hO : O.le O')
    (h : TrunkStep cfg O pt pt') : TrunkStep cfg O' pt pt' := by
  cases h with
  | work h => exact .work (h.mono hO)
  | approval n raw b next hn hk hr hb ht heq =>
      exact .approval n raw b next hn hk (hO pt raw hr) hb ht heq
  | join n next hn hk ht heq => exact .join n next hn hk ht heq
  | region n J next ends hn hk hJ hends ht hcap heq =>
      exact .region n J next ends hn hk hJ (hends.imp fun _ _ => BranchEnd.mono hO) ht hcap heq

/-! ## Kinds -/

/-- The kind of the node a branch step leaves. -/
theorem BranchStep.kind
    (h : BranchStep cfg O pt pt') :
    ∃ n, cfg.graph.node pt.cursor = some n ∧ (n.kind.isEffect = true ∨ n.kind.isRouter = true) := by
  cases h with
  | effect n raw hn hk _ _ => exact ⟨n, hn, Or.inl hk⟩
  | router n hn hk _ => exact ⟨n, hn, Or.inr hk⟩

/-- A branch ends at a node that is neither an effect nor a router. -/
theorem branch_end {pt : Point} {n : Node}
    (hn : cfg.graph.node pt.cursor = some n) (hk : n.kind.isEffect = false)
    (hk' : n.kind.isRouter = false) : End (BranchStep cfg O) pt := by
  intro pt' h
  obtain ⟨n', hn', hor⟩ := h.kind
  rw [hn] at hn'
  cases hn'
  rcases hor with h1 | h1
  · rw [hk] at h1; exact nomatch h1
  · rw [hk'] at h1; exact nomatch h1

/-- A branch ends at a join. -/
theorem branch_end_join {pt : Point} {n : Node}
    (hn : cfg.graph.node pt.cursor = some n) (hk : n.kind = .join) :
    End (BranchStep cfg O) pt :=
  branch_end hn (by rw [hk]; rfl) (by rw [hk]; rfl)

/-- The trunk ends at a respond node. -/
theorem trunk_end_respond {pt : Point} {n : Node}
    (hn : cfg.graph.node pt.cursor = some n) (hk : n.kind = .respond) :
    End (TrunkStep cfg O) pt := by
  intro pt' h
  cases h with
  | work h => exact branch_end hn (by rw [hk]; rfl) (by rw [hk]; rfl) _ h
  | approval n' _ _ _ hn' hk' _ _ _ _ =>
      rw [hn] at hn'; cases hn'; rw [hk] at hk'; exact nomatch hk'
  | join n' _ hn' hk' _ _ => rw [hn] at hn'; cases hn'; rw [hk] at hk'; exact nomatch hk'
  | region n' _ _ _ hn' hk' _ _ _ _ _ =>
      rw [hn] at hn'; cases hn'; rw [hk] at hk'; exact nomatch hk'

/-! ## Where a step leads -/

/-- The next node is behind an edge. -/
theorem nextLinear_mem {id t : String} (h : nextLinear cfg id = .ok t) :
    ∃ e ∈ cfg.graph.edgesFrom id, e.to_ = t := by
  unfold nextLinear at h
  cases he : cfg.graph.edgesFrom id with
  | nil => rw [he] at h; exact nomatch h
  | cons e rest => rw [he] at h; cases h; exact ⟨e, List.mem_cons_self .., rfl⟩

/-- A router follows its `resolved` or its `loop` edge. -/
theorem route_target {g : Graph} {id t : String} {state : GraphRunState}
    (h : route g id state = .ok t) :
    ∃ label, (label = "resolved" ∨ label = "loop") ∧ g.branchTarget id label = some t := by
  unfold route at h
  cases hn : g.node id with
  | none => rw [hn] at h; exact nomatch h
  | some n =>
      rw [hn] at h
      dsimp only at h
      cases hk : n.kind with
      | router m =>
          rw [hk] at h
          dsimp only at h
          cases hb : g.branchTarget id
              (if state.resolved || state.iterations ≥ m then "resolved" else "loop") with
          | none => rw [hb] at h; exact nomatch h
          | some u =>
              rw [hb] at h
              cases h
              refine ⟨_, ?_, hb⟩
              split
              · exact Or.inl rfl
              · exact Or.inr rfl
      | agent _ _ _ _ _ _ => rw [hk] at h; exact nomatch h
      | tool _ => rw [hk] at h; exact nomatch h
      | respond => rw [hk] at h; exact nomatch h
      | supervisor _ _ _ _ _ => rw [hk] at h; exact nomatch h
      | parallel => rw [hk] at h; exact nomatch h
      | join => rw [hk] at h; exact nomatch h
      | approval _ _ _ _ _ => rw [hk] at h; exact nomatch h

/-- A visit that went through: it follows an edge, counts itself and only
    appends messages. -/
def Advanced (cfg : GraphConfig) (pt pt' : Point) : Prop :=
  ∃ e ∈ cfg.graph.edgesFrom pt.cursor, ∃ state news,
    pt' = pt.advance e.to_ state ∧ state.messages = pt.state.messages ++ news

theorem afterAgent_advanced {raw : Json}
    (h : afterAgent cfg pt raw = .ok pt') : Advanced cfg pt pt' := by
  simp only [afterAgent, bind, Except.bind] at h
  cases hr : AgentTurnResult.fromValue raw with
  | error e => rw [hr] at h; exact nomatch h
  | ok r =>
      rw [hr] at h
      dsimp only at h
      cases hnx : nextLinear cfg pt.cursor with
      | error e => rw [hnx] at h; exact nomatch h
      | ok next =>
          rw [hnx] at h
          cases h
          obtain ⟨e, he, het⟩ := nextLinear_mem hnx
          refine ⟨e, he, _, [⟨.assistant, r.reply⟩], by rw [het]; rfl, ?_⟩
          split <;> rfl

theorem afterTool_advanced {raw : Json}
    (h : afterTool cfg pt raw = .ok pt') : Advanced cfg pt pt' := by
  simp only [afterTool, bind, Except.bind] at h
  cases hnx : nextLinear cfg pt.cursor with
  | error e => rw [hnx] at h; exact nomatch h
  | ok next =>
      rw [hnx] at h
      cases h
      obtain ⟨e, he, het⟩ := nextLinear_mem hnx
      exact ⟨e, he, _, [⟨.tool, raw.render⟩], by rw [het]; rfl, rfl⟩

theorem afterRouter_advanced
    (h : afterRouter cfg pt = .ok pt') : Advanced cfg pt pt' := by
  simp only [afterRouter, bind, Except.bind] at h
  cases hnx : route cfg.graph pt.cursor pt.state with
  | error e => rw [hnx] at h; exact nomatch h
  | ok next =>
      rw [hnx] at h
      cases h
      obtain ⟨label, -, ht⟩ := route_target hnx
      obtain ⟨e, he, het⟩ := Graph.branchTarget_mem ht
      exact ⟨e, he, pt.state, [], by rw [het]; rfl, (List.append_nil _).symm⟩

/-- The decoded answer, the declared route and its edge behind a supervisor
    step. -/
theorem afterSupervisor_ok {routes : List SupervisorRoute}
    {message : String → String → String} {pt : Point} {raw : Json} {x : Point × String}
    (h : afterSupervisor cfg routes message pt raw = .ok x) :
    ∃ result next, SupervisorResult.fromValue raw = .ok result ∧
      (routes.any fun r => r.branch = result.branch) = true ∧
      cfg.graph.branchTarget pt.cursor result.branch = some next ∧
      x = (pt.advance next (pt.state.pushMessage .assistant result.rawReply), result.branch) := by
  simp only [afterSupervisor, bind, Except.bind] at h
  cases hr : SupervisorResult.fromValue raw with
  | error e => rw [hr] at h; exact nomatch h
  | ok r =>
      rw [hr] at h
      dsimp only at h
      split at h
      · rename_i next hany htgt
        cases h
        exact ⟨r, next, rfl, hany, htgt, rfl⟩
      · exact nomatch h

/-- The answer of a supervisor step does not depend on the error text. -/
theorem afterSupervisor_of {routes : List SupervisorRoute}
    {message : String → String → String} {pt : Point} {raw : Json} {result : SupervisorResult}
    {next : String} (hr : SupervisorResult.fromValue raw = .ok result)
    (hany : (routes.any fun r => r.branch = result.branch) = true)
    (ht : cfg.graph.branchTarget pt.cursor result.branch = some next) :
    afterSupervisor cfg routes message pt raw =
      .ok (pt.advance next (pt.state.pushMessage .assistant result.rawReply), result.branch) := by
  simp only [afterSupervisor, bind, Except.bind, hr, hany, ht]
  rfl

/-- An effect goes on along an edge. -/
theorem effectAfter_advanced {label : Option String}
    {raw : Json} {kind : NodeKind} (h : effectAfter cfg label pt raw kind = .ok pt') :
    Advanced cfg pt pt' := by
  cases kind with
  | agent _ _ _ _ _ _ => exact afterAgent_advanced h
  | tool _ => exact afterTool_advanced h
  | supervisor _ _ routes _ _ =>
      rw [effectAfter] at h
      cases hs : afterSupervisor cfg routes (supervisorMessage label) pt raw with
      | error e => rw [hs] at h; exact nomatch h
      | ok x =>
          rw [hs] at h
          cases h
          obtain ⟨r, next, -, -, ht, hx⟩ := afterSupervisor_ok hs
          obtain ⟨e, he, het⟩ := Graph.branchTarget_mem ht
          exact ⟨e, he, _, [⟨.assistant, r.rawReply⟩], by rw [hx, het], rfl⟩
  | router _ => exact nomatch h
  | respond => exact nomatch h
  | parallel => exact nomatch h
  | join => exact nomatch h
  | approval _ _ _ _ _ => exact nomatch h

/-- Where an effect leads does not depend on the branch it is in. -/
theorem effectAfter_label {label : Option String} (label' : Option String)
    {raw : Json} {kind : NodeKind}
    (h : effectAfter cfg label pt raw kind = .ok pt') :
    effectAfter cfg label' pt raw kind = .ok pt' := by
  cases kind with
  | agent _ _ _ _ _ _ => exact h
  | tool _ => exact h
  | supervisor _ _ routes _ _ =>
      rw [effectAfter] at h
      cases hs : afterSupervisor cfg routes (supervisorMessage label) pt raw with
      | error e => rw [hs] at h; exact nomatch h
      | ok x =>
          rw [hs] at h
          obtain ⟨r, next, hr, hany, ht, hx⟩ := afterSupervisor_ok hs
          rw [effectAfter, afterSupervisor_of hr hany ht, ← hx]
          exact h
  | router _ => exact nomatch h
  | respond => exact nomatch h
  | parallel => exact nomatch h
  | join => exact nomatch h
  | approval _ _ _ _ _ => exact nomatch h

/-- So does every step of a branch. -/
theorem BranchStep.advanced
    (h : BranchStep cfg O pt pt') : Advanced cfg pt pt' := by
  cases h with
  | effect n raw hn hk hr ha => exact effectAfter_advanced ha
  | router n hn hk ha => exact afterRouter_advanced ha

/-! ## One line from every position -/

/-- The rows decide the step. -/
theorem BranchStep.det (cfg : GraphConfig) (O : Oracle) : Deterministic (BranchStep cfg O) := by
  intro a b c hb hc
  cases hb with
  | effect n raw hn hk hr ha =>
      cases hc with
      | effect n' raw' hn' hk' hr' ha' =>
          rw [hn] at hn'; cases hn'
          rw [hr] at hr'; cases hr'
          rw [ha] at ha'
          exact Except.ok.inj ha'
      | router n' hn' hk' ha' =>
          rw [hn] at hn'; cases hn'
          cases hkind : n.kind <;> rw [hkind] at hk hk' <;> simp_all [NodeKind.isEffect,
            NodeKind.isRouter]
  | router n hn hk ha =>
      cases hc with
      | effect n' raw' hn' hk' hr' ha' =>
          rw [hn] at hn'; cases hn'
          cases hkind : n.kind <;> rw [hkind] at hk hk' <;> simp_all [NodeKind.isEffect,
            NodeKind.isRouter]
      | router n' hn' hk' ha' =>
          rw [ha] at ha'
          exact Except.ok.inj ha'

/-- Two slots of one branch at the join hold the same label, state and visits. -/
theorem BranchEnd.unique {P : Point} {J : String} {n : Node}
    (hn : cfg.graph.node J = some n) (hk : n.kind = .join) {x : String × String}
    {bc bc' : BranchCursor} (h : BranchEnd cfg O P J x bc) (h' : BranchEnd cfg O P J x bc') :
    bc.branch = bc'.branch ∧ bc.state = bc'.state ∧ bc.visits = bc'.visits := by
  obtain ⟨hl, hc, m, hp⟩ := h
  obtain ⟨hl', hc', m', hp'⟩ := h'
  have hend := Steps.end_unique (BranchStep.det cfg O) hp hp'
    (branch_end_join (by rw [hc]; exact hn) hk) (branch_end_join (by rw [hc']; exact hn) hk)
  have heq := Point.mk.inj hend.2
  exact ⟨hl.trans hl'.symm, heq.2.1, heq.2.2⟩

/-- And the ends of all branches. -/
theorem ends_unique {P : Point} {J : String} {n : Node}
    (hn : cfg.graph.node J = some n) (hk : n.kind = .join) :
    ∀ {xs : List (String × String)} {ends ends' : List BranchCursor},
      List.Forall₂ (BranchEnd cfg O P J) xs ends → List.Forall₂ (BranchEnd cfg O P J) xs ends' →
      ∀ (s : GraphRunState) (v : Visits),
        ends.foldl (mergeBranch P.state.messages.length) s =
          ends'.foldl (mergeBranch P.state.messages.length) s ∧
        ends.foldl (fun m bc => m.maxMerge bc.visits) v =
          ends'.foldl (fun m bc => m.maxMerge bc.visits) v := by
  intro xs
  induction xs with
  | nil => intro ends ends' h h' s v; cases h; cases h'; exact ⟨rfl, rfl⟩
  | cons x xs ih =>
      intro ends ends' h h' s v
      cases h with
      | cons hbc hrest =>
          cases h' with
          | cons hbc' hrest' =>
              rename_i bc _ bc' _
              obtain ⟨hl, hs, hv⟩ := hbc.unique hn hk hbc'
              have hm : mergeBranch P.state.messages.length s bc
                  = mergeBranch P.state.messages.length s bc' := by
                rw [mergeBranch, mergeBranch, hl, hs]
              rw [List.foldl_cons, List.foldl_cons, List.foldl_cons, List.foldl_cons, hm, hv]
              exact ih hrest hrest' _ _

/-- The join a region search returns is a join node. -/
theorem findJoin_join {p J : String}
    (h : findJoinForParallel cfg p = .ok J) : ∃ n, cfg.graph.node J = some n ∧ n.kind = .join := by
  unfold findJoinForParallel at h
  cases hs : Worklist.search (expandJoin cfg) (2 * cfg.graph.edges.length + 1)
      ((cfg.graph.edgesFrom p).map (·.to_)).reverse [] with
  | none => rw [hs] at h; exact nomatch h
  | some r =>
      rw [hs] at h
      dsimp only at h
      subst h
      obtain ⟨x, hx, y, hxy, hy⟩ := Worklist.search_stop _ _ _ hs
      unfold expandJoin at hy
      cases hn : cfg.graph.node y with
      | none => rw [hn] at hy; exact nomatch hy
      | some n =>
          rw [hn] at hy
          dsimp only at hy
          by_cases hk : n.kind = .join
          · rw [if_pos hk] at hy
            cases hy
            exact ⟨n, hn, hk⟩
          · rw [if_neg hk] at hy; exact nomatch hy

/-- And the step of the trunk. -/
theorem TrunkStep.det (cfg : GraphConfig) (O : Oracle) : Deterministic (TrunkStep cfg O) := by
  intro a b c hb hc
  have hwork : ∀ {n : Node}, cfg.graph.node a.cursor = some n → n.kind.isEffect = false →
      n.kind.isRouter = false → ∀ {d : Point}, BranchStep cfg O a d → b = c := by
    intro n hn h1 h2 d hd
    exact absurd hd (branch_end hn h1 h2 d)
  cases hb with
  | work hb =>
      obtain ⟨n, hn, hor⟩ := hb.kind
      cases hc with
      | work hc => exact BranchStep.det cfg O a b c hb hc
      | approval n' _ _ _ hn' hk' _ _ _ _ =>
          rw [hn] at hn'; cases hn'
          cases hkind : n.kind <;> rw [hkind] at hk' hor <;> simp_all [NodeKind.isEffect,
            NodeKind.isRouter, NodeKind.isApproval]
      | join n' _ hn' hk' _ _ =>
          exact hwork hn' (by rw [hk']; rfl) (by rw [hk']; rfl) hb
      | region n' _ _ _ hn' hk' _ _ _ _ _ =>
          exact hwork hn' (by rw [hk']; rfl) (by rw [hk']; rfl) hb
  | approval n raw br next hn hk hr hbr ht heq =>
      cases hc with
      | work hc =>
          obtain ⟨n', hn', hor⟩ := hc.kind
          rw [hn] at hn'; cases hn'
          cases hkind : n.kind <;> rw [hkind] at hk hor <;> simp_all [NodeKind.isEffect,
            NodeKind.isRouter, NodeKind.isApproval]
      | approval n' raw' br' next' hn' hk' hr' hbr' ht' heq' =>
          rw [hr] at hr'; cases hr'
          rw [hbr] at hbr'; cases hbr'
          rw [ht] at ht'; cases ht'
          rw [heq, heq']
      | join n' _ hn' hk' _ _ =>
          rw [hn] at hn'; cases hn'; rw [hk'] at hk; exact nomatch hk
      | region n' _ _ _ hn' hk' _ _ _ _ _ =>
          rw [hn] at hn'; cases hn'; rw [hk'] at hk; exact nomatch hk
  | join n next hn hk ht heq =>
      cases hc with
      | work hc => exact hwork hn (by rw [hk]; rfl) (by rw [hk]; rfl) hc
      | approval n' _ _ _ hn' hk' _ _ _ _ =>
          rw [hn] at hn'; cases hn'; rw [hk] at hk'; exact nomatch hk'
      | join n' next' hn' hk' ht' heq' =>
          rw [ht] at ht'; cases ht'
          rw [heq, heq']
      | region n' _ _ _ hn' hk' _ _ _ _ _ =>
          rw [hn] at hn'; cases hn'; rw [hk] at hk'; exact nomatch hk'
  | region n J next ends hn hk hJ hends ht hcap heq =>
      cases hc with
      | work hc => exact hwork hn (by rw [hk]; rfl) (by rw [hk]; rfl) hc
      | approval n' _ _ _ hn' hk' _ _ _ _ =>
          rw [hn] at hn'; cases hn'; rw [hk] at hk'; exact nomatch hk'
      | join n' _ hn' hk' _ _ => rw [hn] at hn'; cases hn'; rw [hk] at hk'; exact nomatch hk'
      | region n' J' next' ends' hn' hk' hJ' hends' ht' hcap' heq' =>
          rw [hJ] at hJ'; cases hJ'
          rw [ht] at ht'; cases ht'
          obtain ⟨nj, hnj, hkj⟩ := findJoin_join hJ
          obtain ⟨hst, hvs⟩ := ends_unique hnj hkj hends hends' a.state a.visits
          rw [heq, heq', mergeRegion, mergeRegion, hst, hvs]

/-! ## Visit counts only grow -/

/-- No visit is forgotten. -/
theorem Advanced.grown (h : Advanced cfg pt pt') :
    pt.visits.le pt'.visits := by
  obtain ⟨e, -, state, news, heq, -⟩ := h
  rw [heq]
  exact pt.visits.le_insert_succ pt.cursor

/-- Each step is one visit more. -/
theorem Advanced.total (h : Advanced cfg pt pt') :
    pt'.visits.total = pt.visits.total + 1 := by
  obtain ⟨e, -, state, news, heq, -⟩ := h
  rw [heq]
  exact pt.visits.total_insert_succ pt.cursor

/-- After a visit its attempt is counted. -/
theorem Advanced.counted (h : Advanced cfg pt pt') :
    pt'.visits.count pt.cursor = pt.attempt := by
  obtain ⟨e, -, state, news, heq, -⟩ := h
  rw [heq]
  exact FinMap.count_insert_self ..

/-- No visit is forgotten on the way. -/
theorem branch_grown {a b : Point} {m : Nat}
    (h : Steps (BranchStep cfg O) a m b) : a.visits.le b.visits := by
  induction h with
  | refl => exact FinMap.le.refl a.visits
  | tail _ hs ih => exact ih.trans hs.advanced.grown

/-- A branch path of `m` visits counts `m` visits. -/
theorem branch_total {a b : Point} {m : Nat}
    (h : Steps (BranchStep cfg O) a m b) : b.visits.total = a.visits.total + m := by
  induction h with
  | refl => rfl
  | tail _ hs ih => rw [hs.advanced.total, ih, Nat.add_assoc]

/-- A trunk step never loses a visit. -/
theorem TrunkStep.grown
    (h : TrunkStep cfg O pt pt') : pt.visits.le pt'.visits := by
  cases h with
  | work h => exact h.advanced.grown
  | approval n raw b next hn hk hr hb ht heq => rw [heq]; exact pt.visits.le_insert_succ pt.cursor
  | join n next hn hk ht heq => rw [heq]; exact FinMap.le.refl _
  | region n J next ends hn hk hJ hends ht hcap heq =>
      rw [heq, mergeRegion_visits]
      exact (FinMap.le_foldl_maxMerge _ _).1

theorem trunk_grown {a b : Point} {m : Nat}
    (h : Steps (TrunkStep cfg O) a m b) : a.visits.le b.visits := by
  induction h with
  | refl => exact FinMap.le.refl a.visits
  | tail _ hs ih => exact ih.trans hs.grown

/-! ## A branch stays inside its walk -/

/-- A position of the branch with walk `W` of the region entered at `P`. -/
structure Inside (P : Point) (W : List String) (J : String) (b : Point) : Prop where
  cursor : b.cursor ∈ W ∨ b.cursor = J
  grown : P.visits.le b.visits
  outside : ∀ k, k ∉ W → b.visits.get? k = P.visits.get? k
  messages : ∃ news, b.state.messages = P.state.messages ++ news

/-- A branch stays inside its region. -/
theorem Inside.step {P b b' : Point} {t J : String}
    {W : List String} (hw : Graph.WalkOk cfg.graph t J W) (h : Inside P W J b)
    (hs : BranchStep cfg O b b') : Inside P W J b' := by
  have hadv := hs.advanced
  have hin : b.cursor ∈ W := by
    rcases h.cursor with hin | heq
    · exact hin
    · obtain ⟨n, hn, hk⟩ := hw.join_kind
      exact absurd hs (branch_end_join (by rw [heq]; exact hn) hk b')
  obtain ⟨e, he, state, news, heq, hmsg⟩ := hadv
  refine ⟨?_, h.grown.trans hs.advanced.grown, ?_, ?_⟩
  · rw [heq]
    exact hw.closed b.cursor hin e he
  · intro k hk
    have hne : k ≠ b.cursor := fun hc => hk (hc ▸ hin)
    rw [heq]
    show (b.visits.insert b.cursor b.attempt).get? k = P.visits.get? k
    rw [FinMap.insert_get?, if_neg hne]
    exact h.outside k hk
  · obtain ⟨old, hold⟩ := h.messages
    refine ⟨old ++ news, ?_⟩
    rw [heq]
    show state.messages = P.state.messages ++ (old ++ news)
    rw [hmsg, hold, List.append_assoc]

/-- **A BRANCH STAYS INSIDE ITS WALK** and touches only its own counts. -/
theorem branch_inside {P b : Point} {J : String} {m : Nat}
    (hr : Graph.RegionOk cfg.graph P.cursor J) {x : String × String}
    (hx : x ∈ branchEdges cfg P.cursor)
    (hp : Steps (BranchStep cfg O) (branchStart P x) m b) :
    Inside P (cfg.graph.branchWalk P.cursor x.2) J b := by
  have hw := GraphConfig.branch_walk hr hx
  refine hp.invariant (fun b b' h hs => h.step hw hs) ⟨hw.start, FinMap.le.refl _, ?_, ?_⟩
  · intro k _
    rfl
  · exact ⟨[], (List.append_nil _).symm⟩

/-- Before the join a branch is inside its walk. -/
theorem Inside.mem_walk {P b : Point} {W : List String} {J : String} (h : Inside P W J b)
    (hne : b.cursor ≠ J) : b.cursor ∈ W := by
  rcases h.cursor with hin | heq
  · exact hin
  · exact absurd heq hne

/-! ## The visits of a merged region -/

/-- Weaken a relation between two lists, knowing where the left element is. -/
theorem forall₂_imp_mem {α β : Type} {R S : α → β → Prop} :
    ∀ {xs : List α} {ys : List β}, (∀ x y, x ∈ xs → R x y → S x y) → List.Forall₂ R xs ys →
      List.Forall₂ S xs ys := by
  intro xs
  induction xs with
  | nil => intro ys _ h; cases h; exact .nil
  | cons x xs ih =>
      intro ys hRS h
      cases h with
      | cons hxy hrest =>
          exact .cons (hRS _ _ (List.mem_cons_self ..) hxy)
            (ih (fun x y hx => hRS x y (List.mem_cons_of_mem _ hx)) hrest)

theorem total_merge_aux {P : Point} {J : String} {W : String × String → List String} :
    ∀ {xs : List (String × String)} {ends : List BranchCursor},
      List.Forall₂ (fun x (bc : BranchCursor) =>
        Inside P (W x) J ⟨bc.cursor, bc.state, bc.visits⟩) xs ends →
      xs.Pairwise (fun x y => ∀ z ∈ W x, z ∉ W y) →
      ∀ m : Visits, P.visits.le m → (∀ x ∈ xs, ∀ k ∈ W x, m.count k = P.visits.count k) →
        (ends.foldl (fun m bc => m.maxMerge bc.visits) m).total = m.total + spentAll P ends := by
  intro xs
  induction xs with
  | nil => intro ends h _ m _ _; cases h; rfl
  | cons x xs ih =>
      intro ends h hpw m hm hfree
      cases h with
      | cons hbc hrest =>
          rename_i bc ends
          obtain ⟨hx, hxs⟩ := List.pairwise_cons.mp hpw
          have hout : ∀ k, k ∉ W x → bc.visits.count k = P.visits.count k := by
            intro k hk
            have hget : bc.visits.get? k = P.visits.get? k := hbc.outside k hk
            rw [FinMap.count, FinMap.count, hget]
          have htot : (m.maxMerge bc.visits).total + P.visits.total
              = m.total + bc.visits.total := by
            refine FinMap.total_maxMerge hm hbc.grown ?_
            intro k
            by_cases hk : k ∈ W x
            · exact Or.inl (hfree x (List.mem_cons_self ..) k hk)
            · exact Or.inr (hout k hk)
          have hle : P.visits.total ≤ bc.visits.total := hbc.grown.total_le
          rw [List.foldl_cons, ih hrest hxs (m.maxMerge bc.visits)
            (hm.trans (FinMap.le_maxMerge_left _ _)) ?_]
          · show (m.maxMerge bc.visits).total + spentAll P ends
              = m.total + (spent P bc.visits + spentAll P ends)
            rw [spent]
            omega
          · intro y hy k hk
            have hkx : k ∉ W x := fun hc => hx y hy k hc hk
            rw [FinMap.count_maxMerge, hfree y (List.mem_cons_of_mem _ hy) k hk, hout k hkx,
              Nat.max_self]

/-- **NO VISIT IS LOST OR COUNTED TWICE** at the join: the merged counts are the
    trunk's plus what every branch spent. -/
theorem mergeRegion_total {P : Point} {J : String}
    (hr : Graph.RegionOk cfg.graph P.cursor J) {ends : List BranchCursor}
    (hends : List.Forall₂ (BranchEnd cfg O P J) (branchEdges cfg P.cursor) ends)
    (next : String) :
    (mergeRegion P ends next).visits.total = P.visits.total + spentAll P ends := by
  have hin : List.Forall₂ (fun x (bc : BranchCursor) =>
      Inside P (cfg.graph.branchWalk P.cursor x.2) J ⟨bc.cursor, bc.state, bc.visits⟩)
      (branchEdges cfg P.cursor) ends := by
    refine forall₂_imp_mem ?_ hends
    intro x bc hx h
    obtain ⟨-, -, m, hp⟩ := h
    exact branch_inside hr hx hp
  exact total_merge_aux (W := fun x => cfg.graph.branchWalk P.cursor x.2) hin
    (GraphConfig.branch_disjoint hr) P.visits (FinMap.le.refl _) fun _ _ _ _ => rfl

end Greentic
