import GreenticRunner.GraphCrashProofs

/-! # Walks over the graph

    Where the trunk of a run may go is a question about the graph alone, once its closures may
    answer anything.  What decides the edge out of a node is whether an agent has resolved the
    run, how many agents have answered, and, at a region, how many visits are left.

    * `Spot`, `WorkEdge`, `TrunkEdge` — the places and the edges of a walk;
    * `BranchStep.workEdge`, `TrunkStep.trunkEdge` — every step of a run is an edge;
    * `WorkEdge.lift`, `lift_branch`, `lift_region` — every edge is a step of a run whose
      closures answer with what they are told to. -/

namespace Greentic

open FinMaps CountedPath Resumption

/-- A place of a walk: the node, whether an agent has resolved the run, how many agents have
    answered and how many visits were made. -/
structure Spot where
  node : String
  resolved : Bool
  iterations : Nat
  visits : Nat

/-- One visit of the node, and on to `next`. -/
def Spot.visited (p : Spot) (next : String) : Spot :=
  { p with node := next, visits := p.visits + 1 }

/-- The store takes the id of the node, so a visit of it can be recorded. -/
abbrev Storable (id : String) : Prop := checkSegment "node_id" id = .ok ()

/-- The edges out of an agent, a tool, a router or a supervisor: an agent may resolve the run
    or not, a supervisor may choose any of its routes, a router chooses as `route` does. -/
inductive WorkEdge (cfg : GraphConfig) (p : Spot) : Spot → Prop where
  | agent (n : Node) (systemPrompt model : String) (tools : List String)
      (provider agentRef inheritFrom : Option String) (resolves : Bool) (next : String)
      (hn : cfg.graph.node p.node = some n)
      (hk : n.kind = .agent systemPrompt model tools provider agentRef inheritFrom)
      (hid : Storable p.node) (ht : nextLinear cfg p.node = .ok next) :
      WorkEdge cfg p ⟨next, p.resolved || resolves, p.iterations + 1, p.visits + 1⟩
  | tool (n : Node) (toolName next : String) (hn : cfg.graph.node p.node = some n)
      (hk : n.kind = .tool toolName) (hid : Storable p.node)
      (ht : nextLinear cfg p.node = .ok next) : WorkEdge cfg p (p.visited next)
  | router (n : Node) (maxIterations : Nat) (next : String)
      (hn : cfg.graph.node p.node = some n) (hk : n.kind = .router maxIterations)
      (ht : cfg.graph.branchTarget p.node
        (if p.resolved || p.iterations ≥ maxIterations then "resolved" else "loop") = some next) :
      WorkEdge cfg p (p.visited next)
  | supervisor (n : Node) (systemPrompt model : String) (routes : List SupervisorRoute)
      (provider agentRef : Option String) (r : SupervisorRoute) (next : String)
      (hn : cfg.graph.node p.node = some n)
      (hk : n.kind = .supervisor systemPrompt model routes provider agentRef)
      (hid : Storable p.node) (hr : r ∈ routes)
      (ht : cfg.graph.branchTarget p.node r.branch = some next) : WorkEdge cfg p (p.visited next)

/-- The visits of the branches of a region entered at `p`. -/
def Spot.spent (p : Spot) (ends : List Spot) : Nat := (ends.map fun e => e.visits - p.visits).sum

/-- The place behind a region whose branches have come to `ends`. -/
def Spot.merged (p : Spot) (ends : List Spot) (next : String) : Spot where
  node := next
  resolved := p.resolved || ends.any (·.resolved)
  iterations := (ends.map (·.iterations)).foldl max p.iterations
  visits := p.visits + p.spent ends

/-- The edges of the trunk: those of its own nodes, and one edge over a region, all of whose
    branches have a walk to the join, within the visit cap. -/
inductive TrunkEdge (cfg : GraphConfig) (p : Spot) : Spot → Prop where
  | work {q : Spot} (h : WorkEdge cfg p q) : TrunkEdge cfg p q
  | approval (n : Node) (label next : String) (hn : cfg.graph.node p.node = some n)
      (hk : n.kind.isApproval = true) (hid : Storable p.node)
      (ht : cfg.graph.branchTarget p.node label = some next) : TrunkEdge cfg p (p.visited next)
  | join (n : Node) (next : String) (hn : cfg.graph.node p.node = some n) (hk : n.kind = .join)
      (ht : nextLinear cfg p.node = .ok next) : TrunkEdge cfg p { p with node := next }
  | region (n : Node) (J next : String) (ends : List Spot) (hn : cfg.graph.node p.node = some n)
      (hk : n.kind = .parallel) (hJ : findJoinForParallel cfg p.node = .ok J)
      (hends : List.Forall₂ (fun (x : String × String) (e : Spot) => e.node = J ∧
        ∃ k, Steps (WorkEdge cfg) { p with node := x.2 } k e) (branchEdges cfg p.node) ends)
      (hcap : p.spent ends = 0 ∨ p.visits + p.spent ends ≤ maxNodeVisits)
      (ht : nextLinear cfg J = .ok next) : TrunkEdge cfg p (p.merged ends next)

/-- Where every walk starts. -/
def entrySpot (cfg : GraphConfig) : Spot := ⟨cfg.graph.entry, false, 0, 0⟩

/-- A walk leads from the entry to `p`. -/
def Walked (cfg : GraphConfig) (p : Spot) : Prop :=
  Relation.ReflTransGen (TrunkEdge cfg) (entrySpot cfg) p

/-! ## Every step of a run is an edge -/

/-- The place of a position. -/
def Point.spot (pt : Point) : Spot :=
  ⟨pt.cursor, pt.state.resolved, pt.state.iterations, pt.visits.total⟩

section Sound

variable {cfg : GraphConfig} {O : Oracle} {pt pt' : Point}

theorem advance_spot (next : String) (state : GraphRunState)
    (hr : state.resolved = pt.state.resolved) (hi : state.iterations = pt.state.iterations) :
    (pt.advance next state).spot = pt.spot.visited next := by
  have hvisits : (pt.visits.insert pt.cursor pt.attempt).total = pt.visits.total + 1 :=
    pt.visits.total_insert_succ pt.cursor
  show Spot.mk next state.resolved state.iterations _ = _
  rw [hr, hi]
  exact congrArg (Spot.mk next _ _) hvisits

theorem afterAgent_spot {raw : Json} (h : afterAgent cfg pt raw = .ok pt') :
    ∃ resolves next, nextLinear cfg pt.cursor = .ok next ∧ pt'.spot =
      ⟨next, pt.state.resolved || resolves, pt.state.iterations + 1, pt.visits.total + 1⟩ := by
  rw [afterAgent] at h
  cases hres : AgentTurnResult.fromValue raw with
  | error e => rw [hres] at h; cases h
  | ok result =>
      cases hnx : nextLinear cfg pt.cursor with
      | error e => rw [hres, hnx] at h; cases h
      | ok next =>
          have hvisits : (pt.visits.insert pt.cursor pt.attempt).total = pt.visits.total + 1 :=
            pt.visits.total_insert_succ pt.cursor
          rw [hres, hnx] at h
          cases h
          refine ⟨result.resolved, next, rfl, ?_⟩
          cases hb : result.resolved with
          | false =>
              rw [Bool.or_false]
              exact congrArg (Spot.mk next _ _) hvisits
          | true =>
              rw [Bool.or_true]
              exact congrArg (Spot.mk next _ _) hvisits

theorem afterTool_spot {raw : Json} (h : afterTool cfg pt raw = .ok pt') :
    ∃ next, nextLinear cfg pt.cursor = .ok next ∧ pt'.spot = pt.spot.visited next := by
  rw [afterTool] at h
  cases hnx : nextLinear cfg pt.cursor with
  | error e => rw [hnx] at h; cases h
  | ok next =>
      rw [hnx] at h
      cases h
      exact ⟨next, rfl, advance_spot next _ rfl rfl⟩

/-- A router goes where its label leads. -/
theorem route_router {n : Node} {maxIterations : Nat} (hn : cfg.graph.node pt.cursor = some n)
    (hk : n.kind = .router maxIterations) {next : String} :
    route cfg.graph pt.cursor pt.state = .ok next ↔ cfg.graph.branchTarget pt.cursor
      (if pt.state.resolved || pt.state.iterations ≥ maxIterations then "resolved" else "loop")
        = some next := by
  rw [route, hn]
  dsimp only
  rw [hk]
  dsimp only
  generalize (if pt.state.resolved || pt.state.iterations ≥ maxIterations then "resolved"
    else "loop") = label
  cases cfg.graph.branchTarget pt.cursor label with
  | none => exact ⟨fun h => (by cases h), fun h => (by cases h)⟩
  | some t => exact ⟨fun h => congrArg some (Except.ok.inj h), fun h => congrArg Except.ok (Option.some.inj h)⟩

/-- A step of a branch, over rows under keys that the store takes, is an edge. -/
theorem BranchStep.workEdge (hO : ∀ raw, O pt = some raw → Storable pt.cursor)
    (h : BranchStep cfg O pt pt') : WorkEdge cfg pt.spot pt'.spot := by
  cases h with
  | effect n raw hn hk hrow ha =>
      have hid := hO raw hrow
      obtain ⟨_, _, _, _, _, _, hkind⟩ | ⟨toolName, hkind⟩ | ⟨_, _, routes, _, _, hkind⟩ :=
        NodeKind.effect_cases hk
      · rw [hkind, effectAfter] at ha
        obtain ⟨resolves, next, hnx, hspot⟩ := afterAgent_spot ha
        rw [hspot]
        exact .agent n _ _ _ _ _ _ resolves next hn hkind hid hnx
      · rw [hkind, effectAfter] at ha
        obtain ⟨next, hnx, hspot⟩ := afterTool_spot ha
        rw [hspot]
        exact .tool n toolName next hn hkind hid hnx
      · rw [hkind, effectAfter] at ha
        cases hs : afterSupervisor cfg routes (supervisorMessage none) pt raw with
        | error e => rw [hs] at ha; cases ha
        | ok x =>
            rw [hs] at ha
            cases ha
            obtain ⟨result, next, -, hany, ht, hx⟩ := afterSupervisor_ok hs
            obtain ⟨r, hr, hb⟩ := List.any_eq_true.mp hany
            have hb' : r.branch = result.branch := of_decide_eq_true hb
            have hspot : x.1.spot = pt.spot.visited next := by
              rw [hx]
              exact advance_spot next _ rfl rfl
            show WorkEdge cfg pt.spot x.1.spot
            rw [hspot]
            exact .supervisor n _ _ routes _ _ r next hn hkind hid hr (by rw [hb']; exact ht)
  | router n hn hk ha =>
      obtain ⟨maxIterations, hkind⟩ := NodeKind.router_of hk
      rw [afterRouter] at ha
      cases hroute : route cfg.graph pt.cursor pt.state with
      | error e => rw [hroute] at ha; cases ha
      | ok next =>
          rw [hroute] at ha
          cases ha
          have hspot : (pt.advance next pt.state).spot = pt.spot.visited next :=
            advance_spot next _ rfl rfl
          show WorkEdge cfg pt.spot (pt.advance next pt.state).spot
          rw [hspot]
          exact .router n maxIterations next hn hkind ((route_router hn hkind).mp hroute)

/-- A path of a branch is a walk. -/
theorem branch_walked (hO : ∀ pt raw, O pt = some raw → Storable pt.cursor) {m : Nat}
    (h : Steps (BranchStep cfg O) pt m pt') : Steps (WorkEdge cfg) pt.spot m pt'.spot := by
  induction h with
  | refl => exact .refl
  | tail _ hs ih => exact ih.tail (hs.workEdge fun raw hr => hO _ raw hr)

/-- The place of a slot. -/
def BranchCursor.spot (bc : BranchCursor) : Spot := (Point.mk bc.cursor bc.state bc.visits).spot

theorem spent_spot (ends : List BranchCursor) :
    pt.spot.spent (ends.map BranchCursor.spot) = spentAll pt ends := by
  rw [Spot.spent, List.map_map]
  rfl

/-- The merge at the join leads to the place behind the region. -/
theorem mergeRegion_spot {J : String} (hr : Graph.RegionOk cfg.graph pt.cursor J)
    {ends : List BranchCursor}
    (hends : List.Forall₂ (BranchEnd cfg O pt J) (branchEdges cfg pt.cursor) ends) (next : String) :
    (mergeRegion pt ends next).spot = pt.spot.merged (ends.map BranchCursor.spot) next := by
  obtain ⟨-, hres, hiter, -⟩ := mergeRegion_fields (P := pt) ends next
  rw [Point.spot, Spot.merged, spent_spot, hres, hiter, mergeRegion_total hr hends next,
    List.any_map, List.map_map]
  rfl

/-- **EVERY STEP OF THE TRUNK IS AN EDGE**, over rows under keys that the store takes. -/
theorem TrunkStep.trunkEdge (hcfg : cfg.Accepted)
    (hO : ∀ pt raw, O pt = some raw → Storable pt.cursor) (h : TrunkStep cfg O pt pt') :
    TrunkEdge cfg pt.spot pt'.spot := by
  cases h with
  | work h => exact .work (h.workEdge fun raw hr => hO pt raw hr)
  | approval n raw b next hn hk hr hb ht heq =>
      rw [heq, advance_spot next pt.state rfl rfl]
      exact .approval n b next hn hk (hO pt raw hr) ht
  | join n next hn hk ht heq =>
      rw [heq]
      exact .join n next hn hk ht
  | region n J next ends hn hk hJ hends ht hcap heq =>
      obtain ⟨J', hr⟩ := hcfg.region hn hk
      have hJJ : J' = J := by
        have hfound := GraphConfig.find_join hr
        rw [hJ] at hfound
        exact (Except.ok.inj hfound).symm
      subst hJJ
      rw [heq, mergeRegion_spot hr hends next]
      refine .region n J' next _ hn hk hJ ?_ (by rw [spent_spot]; exact hcap) ht
      refine List.forall₂_map_right_iff.mpr (hends.imp ?_)
      intro x bc hend
      obtain ⟨-, hc, m, hp⟩ := hend
      exact ⟨hc, m, branch_walked hO hp⟩

end Sound

/-! ## Scripted closures -/

/-- What a closure is to answer: whether its agent resolves the run, the route its supervisor
    chooses. -/
structure Choice where
  resolves : Bool
  branch : String

/-- The row of the answer, at a node of the kind. -/
def Choice.row (c : Choice) : NodeKind → Json
  | .agent .. => (AgentTurnResult.mk "" c.resolves).toValue
  | .supervisor .. => (SupervisorResult.mk c.branch "").toValue
  | _ => .null

/-- What the closures are to answer, by the node and the number of messages so far. -/
abbrev Script : Type := String → Nat → Option Choice

/-- Closures that keep to a script, and fail where it ends. -/
def Script.effects (α : Script) : Effects where
  agentTurn := fun req => match α req.nodeId req.state.messages.length with
    | some c => .ok ⟨"", c.resolves⟩
    | none => .error (.agentTurn "")
  tool := fun req => match α req.nodeId req.state.messages.length with
    | some _ => .ok .null
    | none => .error (.tool "")
  supervisor := fun req => match α req.nodeId req.state.messages.length with
    | some c => .ok ⟨c.branch, ""⟩
    | none => .error (.supervisor "")
  approval := fun _ => .ok .awaiting

/-- The number of messages at a position. -/
def Point.told (pt : Point) : Nat := pt.state.messages.length

/-- The rows of the answers, under keys that the store takes. -/
def Script.rows (α : Script) (cfg : GraphConfig) : Oracle := fun pt =>
  match cfg.graph.node pt.cursor with
  | some n =>
      if (checkSegment "node_id" pt.cursor).isOk then (α pt.cursor pt.told).map (·.row n.kind) else none
  | none => none

/-- `α'` has every answer of `α`. -/
def Script.le (α α' : Script) : Prop := ∀ id l c, α id l = some c → α' id l = some c

/-- One more answer. -/
def Script.add (α : Script) (id : String) (l : Nat) (c : Choice) : Script :=
  fun id' l' => if id' = id ∧ l' = l then some c else α id' l'

section Scripts

variable {cfg : GraphConfig} {pt pt' : Point} {q : Spot} {α α' : Script} {c : Choice}

theorem Script.rows_eq {n : Node} (hn : cfg.graph.node pt.cursor = some n) (hid : Storable pt.cursor)
    (hα : α pt.cursor pt.told = some c) : α.rows cfg pt = some (c.row n.kind) := by
  rw [rows, hn]
  dsimp only
  rw [hid, hα]
  rfl

theorem Script.rows_storable {raw : Json} (h : α.rows cfg pt = some raw) :
    Storable pt.cursor ∧ ∃ n c, cfg.graph.node pt.cursor = some n ∧ α pt.cursor pt.told = some c ∧
      raw = c.row n.kind := by
  rw [rows] at h
  cases hn : cfg.graph.node pt.cursor with
  | none => rw [hn] at h; cases h
  | some n =>
      rw [hn] at h
      dsimp only at h
      cases hid : checkSegment "node_id" pt.cursor with
      | error e => rw [hid] at h; cases h
      | ok u =>
          rw [hid] at h
          obtain ⟨c, hc, hraw⟩ := Option.map_eq_some_iff.mp h
          exact ⟨hid, n, c, rfl, hc, hraw.symm⟩

theorem Script.le.rows (h : α.le α') : (α.rows cfg).le (α'.rows cfg) := by
  intro pt raw hraw
  obtain ⟨hid, n, c, hn, hc, rfl⟩ := rows_storable hraw
  exact rows_eq hn hid (h _ _ _ hc)

/-- A visit that goes on at `pt'` when its closure answers `c`. -/
inductive Visited (cfg : GraphConfig) (pt : Point) (c : Choice) (pt' : Point) : Prop where
  | effect (n : Node) (hn : cfg.graph.node pt.cursor = some n) (hk : n.kind.isEffect = true)
      (hid : Storable pt.cursor) (ha : effectAfter cfg none pt (c.row n.kind) n.kind = .ok pt')
      (hm : pt'.told = pt.told + 1)
  | router (n : Node) (hn : cfg.graph.node pt.cursor = some n) (hk : n.kind.isRouter = true)
      (ha : afterRouter cfg pt = .ok pt') (hm : pt'.told = pt.told)

/-- Such a visit is a step over the rows of a script with that answer. -/
theorem Visited.step (h : Visited cfg pt c pt') (hα : α pt.cursor pt.told = some c) :
    BranchStep cfg (α.rows cfg) pt pt' := by
  cases h with
  | effect n hn hk hid ha hm => exact .effect n _ hn hk (Script.rows_eq hn hid hα) ha
  | router n hn hk ha hm => exact .router n hn hk ha

/-- **EVERY EDGE IS A VISIT** with the right answer. -/
theorem WorkEdge.lift (h : WorkEdge cfg pt.spot q) :
    ∃ c pt', Visited cfg pt c pt' ∧ pt'.spot = q := by
  cases h with
  | agent n systemPrompt model tools provider agentRef inheritFrom resolves next hn hk hid ht =>
      have ht' : nextLinear cfg pt.cursor = .ok next := ht
      have hvisits := pt.visits.total_insert_succ pt.cursor
      cases resolves with
      | false =>
          refine ⟨⟨false, ""⟩, pt.advance next ({ pt.state with iterations :=
            pt.state.iterations + 1 }.pushMessage .assistant ""), ?_, ?_⟩
          · refine .effect n hn (by rw [hk]; rfl) hid ?_ List.length_append
            rw [hk, effectAfter, Choice.row, afterAgent, AgentTurnResult.fromValue_toValue, ht']
            rfl
          · show Spot.mk next pt.state.resolved (pt.state.iterations + 1) _ = _
            rw [Point.spot, Bool.or_false]
            exact congrArg _ hvisits
      | true =>
          refine ⟨⟨true, ""⟩, pt.advance next { { pt.state with iterations :=
            pt.state.iterations + 1 }.pushMessage .assistant "" with resolved := true }, ?_, ?_⟩
          · refine .effect n hn (by rw [hk]; rfl) hid ?_ List.length_append
            rw [hk, effectAfter, Choice.row, afterAgent, AgentTurnResult.fromValue_toValue, ht']
            rfl
          · show Spot.mk next true (pt.state.iterations + 1) _ = _
            rw [Point.spot, Bool.or_true]
            exact congrArg _ hvisits
  | tool n toolName next hn hk hid ht =>
      have ht' : nextLinear cfg pt.cursor = .ok next := ht
      refine ⟨⟨false, ""⟩, pt.advance next (pt.state.pushMessage .tool Json.null.render), ?_,
        advance_spot next _ rfl rfl⟩
      refine .effect n hn (by rw [hk]; rfl) hid ?_ List.length_append
      rw [hk, effectAfter, afterTool, ht']
      rfl
  | router n maxIterations next hn hk ht =>
      have hn' : cfg.graph.node pt.cursor = some n := hn
      refine ⟨⟨false, ""⟩, pt.advance next pt.state, ?_, advance_spot next _ rfl rfl⟩
      refine .router n hn (by rw [hk]; rfl) ?_ rfl
      have hroute : route cfg.graph pt.cursor pt.state = .ok next := (route_router hn' hk).mpr ht
      rw [afterRouter, hroute]
      rfl
  | supervisor n systemPrompt model routes provider agentRef r next hn hk hid hr ht =>
      refine ⟨⟨false, r.branch⟩, pt.advance next (pt.state.pushMessage .assistant ""), ?_,
        advance_spot next _ rfl rfl⟩
      refine .effect n hn (by rw [hk]; rfl) hid ?_ List.length_append
      have hany : (routes.any fun r' => r'.branch = r.branch) = true :=
        List.any_eq_true.mpr ⟨r, hr, decide_eq_true rfl⟩
      rw [hk, effectAfter, Choice.row, afterSupervisor_of
        (SupervisorResult.fromValue_toValue ⟨r.branch, ""⟩) hany ht]
      rfl

/-- **EVERY WALK OF A BRANCH IS A PATH** over the rows of some script, which ends with it. -/
theorem lift_branch {k : Nat} (h : Steps (WorkEdge cfg) pt.spot k q) :
    ∃ (α : Script) (pt' : Point), Steps (BranchStep cfg (α.rows cfg)) pt k pt' ∧ pt'.spot = q ∧
      ∀ id l c, α id l = some c → l < pt'.told := by
  -- the answers of later visits are at later messages, so they do not meet the earlier ones
  induction h with
  | refl => exact ⟨fun _ _ => none, pt, .refl, rfl, fun _ _ _ hc => by cases hc⟩
  | tail _ he ih =>
      obtain ⟨α, pt₁, hpath, rfl, hend⟩ := ih
      obtain ⟨c, pt₂, hvisit, rfl⟩ := he.lift
      cases hvisit with
      | router n hn hk ha hm =>
          refine ⟨α, pt₂, hpath.tail (.router n hn hk ha), rfl, ?_⟩
          intro id l c' hc'
          rw [hm]
          exact hend id l c' hc'
      | effect n hn hk hid ha hm =>
          have hle : α.le (α.add pt₁.cursor pt₁.told c) := by
            intro id l c' hc'
            have hlt := hend id l c' hc'
            rw [Script.add, if_neg (fun heq => by omega)]
            exact hc'
          refine ⟨α.add pt₁.cursor pt₁.told c, pt₂, ?_, rfl, ?_⟩
          · refine (hpath.mono fun _ _ => BranchStep.mono hle.rows).tail ?_
            exact .effect n _ hn hk (Script.rows_eq hn hid (if_pos ⟨rfl, rfl⟩)) ha
          · intro id l c' hc'
            rw [Script.add] at hc'
            split at hc'
            · rename_i heq
              omega
            · have := hend id l c' hc'
              omega

end Scripts

section Regions

variable {cfg : GraphConfig} {P : Point} {J : String}

/-- The script for the nodes in `W`. -/
def Script.on (α : Script) (W : List String) : Script :=
  fun id l => if id ∈ W then α id l else none

/-- A branch reads the rows of its own nodes only. -/
theorem branch_on (hr : Graph.RegionOk cfg.graph P.cursor J) {x : String × String}
    (hx : x ∈ branchEdges cfg P.cursor) {α : Script} {m : Nat} {b : Point}
    (hp : Steps (BranchStep cfg (α.rows cfg)) (branchStart P x) m b) :
    Steps (BranchStep cfg ((α.on (cfg.graph.branchWalk P.cursor x.2)).rows cfg))
      (branchStart P x) m b := by
  induction hp with
  | refl => exact .refl
  | tail hp hs ih =>
      refine ih.tail ?_
      cases hs with
      | router n hn hk ha => exact .router n hn hk ha
      | effect n raw hn hk hO ha =>
          obtain ⟨hid, n', c, hn', hc, rfl⟩ := Script.rows_storable hO
          refine .effect n _ hn hk (Script.rows_eq hn' hid ?_) ha
          have hmem := (branch_inside hr hx hp).mem_walk (by
            intro heq
            obtain ⟨nj, hnj, hkj⟩ := (GraphConfig.branch_walk hr hx).join_kind
            rw [heq, hnj] at hn
            cases hn
            rw [hkj] at hk
            cases hk)
          rw [Script.on, if_pos hmem]
          exact hc

/-- **ALL BRANCHES OF A REGION** have their walks as paths over the rows of one script. -/
theorem lift_branches (hr : Graph.RegionOk cfg.graph P.cursor J) :
    ∀ {xs : List (String × String)} {ends : List Spot}, (∀ x ∈ xs, x ∈ branchEdges cfg P.cursor) →
      xs.Pairwise (fun x y => ∀ z ∈ cfg.graph.branchWalk P.cursor x.2,
        z ∉ cfg.graph.branchWalk P.cursor y.2) →
      List.Forall₂ (fun (x : String × String) (e : Spot) => e.node = J ∧
        ∃ k, Steps (WorkEdge cfg) { P.spot with node := x.2 } k e) xs ends →
      ∃ (α : Script) (slots : List BranchCursor),
        List.Forall₂ (BranchEnd cfg (α.rows cfg) P J) xs slots ∧
        slots.map BranchCursor.spot = ends ∧ ∀ id l c, α id l = some c →
          (∃ bc ∈ slots, l < bc.state.messages.length) ∧
          ∃ x ∈ xs, id ∈ cfg.graph.branchWalk P.cursor x.2 := by
  intro xs
  induction xs with
  | nil =>
      intro ends _ _ h
      cases h
      exact ⟨fun _ _ => none, [], .nil, rfl, fun _ _ _ hc => by cases hc⟩
  | cons x xs ih =>
      intro ends hmem hpw h
      cases h with
      | cons hx hrest =>
          rename_i e ends
          obtain ⟨hJ, k, hwalk⟩ := hx
          obtain ⟨hxw, hxs⟩ := List.pairwise_cons.mp hpw
          have hwalk' : Steps (WorkEdge cfg) (branchStart P x).spot k e := hwalk
          obtain ⟨α₁, b, hpath, hspot, hend⟩ := lift_branch hwalk'
          obtain ⟨α₂, slots, hslots, hspots, hscript⟩ :=
            ih (fun y hy => hmem y (List.mem_cons_of_mem _ hy)) hxs hrest
          -- each node asks the script of the branch it is on
          let W := cfg.graph.branchWalk P.cursor x.2
          let α : Script := fun id l => if id ∈ W then α₁ id l else α₂ id l
          have hle₁ : (α₁.on W).le α := by
            intro id l c hc
            rw [Script.on] at hc
            split at hc
            · rename_i hin
              exact (if_pos hin).trans hc
            · cases hc
          have hle₂ : α₂.le α := by
            intro id l c hc
            obtain ⟨-, y, hy, hin⟩ := hscript id l c hc
            exact (if_neg fun hin' => hxw y hy id hin' hin).trans hc
          have hb : BranchEnd cfg (α.rows cfg) P J x (parkedSlot x.1 b) := by
            refine ⟨rfl, ?_, k, ?_⟩
            · rw [← hJ, ← hspot]
              rfl
            · exact (branch_on hr (hmem x (List.mem_cons_self ..)) hpath).mono
                fun _ _ => BranchStep.mono hle₁.rows
          refine ⟨α, parkedSlot x.1 b :: slots,
            .cons hb (hslots.imp fun _ _ => BranchEnd.mono hle₂.rows), ?_, ?_⟩
          · rw [List.map_cons, hspots]
            exact congrArg (· :: ends) hspot
          · intro id l c hc
            by_cases hin : id ∈ W
            · have hc₁ : α₁ id l = some c := (if_pos hin).symm.trans hc
              exact ⟨⟨_, List.mem_cons_self .., hend id l c hc₁⟩, x, List.mem_cons_self .., hin⟩
            · have hc₂ : α₂ id l = some c := (if_neg hin).symm.trans hc
              obtain ⟨⟨bc, hbc, hlt⟩, y, hy, hiny⟩ := hscript id l c hc₂
              exact ⟨⟨bc, List.mem_cons_of_mem _ hbc, hlt⟩, y, List.mem_cons_of_mem _ hy, hiny⟩

/-- The merge keeps the messages of every branch. -/
theorem told_le_merge {O : Oracle} (hr : Graph.RegionOk cfg.graph P.cursor J)
    {ends : List BranchCursor}
    (hends : List.Forall₂ (BranchEnd cfg O P J) (branchEdges cfg P.cursor) ends) (next : String)
    {bc : BranchCursor} (hbc : bc ∈ ends) :
    bc.state.messages.length ≤ (mergeRegion P ends next).told := by
  obtain ⟨hmsgs, -⟩ := mergeRegion_fields (P := P) ends next
  obtain ⟨i, hi⟩ := List.mem_iff_getElem?.mp hbc
  obtain ⟨x, hx, -, -, m, hp⟩ := Region.forall₂_at hends.flip hi
  obtain ⟨news, hnews⟩ := (branch_inside hr (List.mem_of_getElem? hx) hp).messages
  have hnews' : bc.state.messages = P.state.messages ++ news := hnews
  have hsub : news.length ≤
      (ends.flatMap fun bc => bc.state.messages.drop P.state.messages.length).length := by
    refine List.Sublist.length_le ?_
    have := List.sublist_flatten_of_mem (List.mem_map.mpr ⟨bc, hbc, rfl⟩ :
      bc.state.messages.drop P.state.messages.length ∈
        ends.map fun bc => bc.state.messages.drop P.state.messages.length)
    rw [hnews', List.drop_left] at this
    exact this
  rw [Point.told, hmsgs, List.length_append, hnews', List.length_append]
  omega

/-- **EVERY EDGE OVER A REGION IS A STEP** over the rows of a script, which ends with it. -/
theorem lift_region (hcfg : cfg.Accepted) {n : Node} (hn : cfg.graph.node P.cursor = some n)
    (hk : n.kind = .parallel) (hJ : findJoinForParallel cfg P.cursor = .ok J) {next : String}
    {ends : List Spot}
    (hends : List.Forall₂ (fun (x : String × String) (e : Spot) => e.node = J ∧
      ∃ k, Steps (WorkEdge cfg) { P.spot with node := x.2 } k e) (branchEdges cfg P.cursor) ends)
    (hcap : P.spot.spent ends = 0 ∨ P.spot.visits + P.spot.spent ends ≤ maxNodeVisits)
    (ht : nextLinear cfg J = .ok next) :
    ∃ (α : Script) (slots : List BranchCursor),
      List.Forall₂ (BranchEnd cfg (α.rows cfg) P J) (branchEdges cfg P.cursor) slots ∧
      (spentAll P slots = 0 ∨ P.visits.total + spentAll P slots ≤ maxNodeVisits) ∧
      (mergeRegion P slots next).spot = P.spot.merged ends next ∧
      ∀ id l c, α id l = some c → l < (mergeRegion P slots next).told := by
  obtain ⟨J', hr⟩ := hcfg.region hn hk
  have hJJ : J' = J := by
    have hfound := GraphConfig.find_join hr
    rw [hJ] at hfound
    exact (Except.ok.inj hfound).symm
  subst hJJ
  obtain ⟨α, slots, hslots, rfl, hscript⟩ :=
    lift_branches hr (fun _ hx => hx) (GraphConfig.branch_disjoint hr) hends
  rw [spent_spot] at hcap
  refine ⟨α, slots, hslots, hcap, mergeRegion_spot hr hslots next, ?_⟩
  intro id l c hc
  obtain ⟨⟨bc, hbc, hlt⟩, -⟩ := hscript id l c hc
  exact Nat.lt_of_lt_of_le hlt (told_le_merge hr hslots next hbc)

end Regions

end Greentic
