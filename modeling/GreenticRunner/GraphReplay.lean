import GreenticRunner.GraphDuplicateProofs

/-! # The rows deterministic closures leave

    With closures that are functions of their request, what a visit finds is known before
    it is made: the row the ledger already has, or else the answer of the closure.  The
    oracle `Effects.recorded` says so, and over it there is ONE line of positions, whatever
    the schedule and wherever calls were cut.

    * `Replayed` — every row of a ledger is the one the oracle names;
    * `Replayed.trunk_step` — a step over such a ledger is a step of the line;
    * `Setup.BranchFault.no_step` — where a visit fails the line has no step. -/

namespace Greentic

open FinMaps CountedPath Resumption

/-! ## What the closures would record -/

namespace Effects

/-- No closure ever fails. -/
structure NonFailing (f : Effects) : Prop where
  agentTurn : ∀ req, ∃ r, f.agentTurn req = .ok r
  tool : ∀ req, ∃ v, f.tool req = .ok v
  supervisor : ∀ req, ∃ r, f.supervisor req = .ok r
  approval : ∀ req, ∃ o, f.approval req = .ok o

/-- The ledger value of the answer to an operation. -/
def value (f : Effects) : Op → Option Json
  | .agentTurn _ req => (f.agentTurn req).toOption.map AgentTurnResult.toValue
  | .tool _ req => (f.tool req).toOption
  | .supervisor _ req => (f.supervisor req).toOption.map SupervisorResult.toValue
  | _ => none

/-- The ledger value of the answer to an approval request, if it has an edge. -/
def decision (f : Effects) (cfg : GraphConfig) (pt : Point) (req : ApprovalRequest) : Option Json :=
  match f.approval req with
  | .ok (.decided b) => (cfg.graph.branchTarget pt.cursor b).map fun _ => decisionValue b
  | _ => none

/-- The row the visit at `pt` would add. -/
def row (f : Effects) (run : RunRef) (cfg : GraphConfig) (pt : Point) : Option Json :=
  match cfg.graph.node pt.cursor with
  | none => none
  | some n => ((effectOp pt n.kind).bind f.value).or ((askRequest run pt n.kind).bind (f.decision cfg pt))

/-- The row the visit at `pt` goes on with: the one in the ledger, or the one it would add,
    under a key the store accepts. -/
def recorded (f : Effects) (run : RunRef) (cfg : GraphConfig) (L : Ledger) : Oracle := fun pt =>
  (L pt.cursor pt.attempt).or
    (if (checkSegment "run_id" run.runId).isOk && (checkSegment "node_id" pt.cursor).isOk
      then f.row run cfg pt else none)

variable {f : Effects} {run : RunRef} {cfg : GraphConfig} {pt : Point} {n : Node} {v : Json}

theorem value_of_allows {i : Op} {r : i.Res} (hr : f.closures.allows i r)
    (hv : closureValue i r = some v) : f.value i = some v := by
  cases i with
  | agentTurn a req =>
      cases r with
      | error e => exact nomatch hv
      | ok res =>
          cases hv
          have hres : Except.ok res = f.agentTurn req := hr
          rw [value, ← hres]
          rfl
  | tool a req =>
      cases r with
      | error e => exact nomatch hv
      | ok res =>
          cases hv
          have hres : Except.ok v = f.tool req := hr
          rw [value, ← hres]
          rfl
  | supervisor a req =>
      cases r with
      | error e => exact nomatch hv
      | ok res =>
          cases hv
          have hres : Except.ok res = f.supervisor req := hr
          rw [value, ← hres]
          rfl
  | _ => exact nomatch hv

/-- What the closures answered is the row they would add. -/
theorem row_of_answered (hn : cfg.graph.node pt.cursor = some n)
    (h : Answered run f.closures cfg pt n.kind v) : f.row run cfg pt = some v := by
  rw [row, hn]
  dsimp only
  cases h with
  | effect i r hi hr hv => rw [hi, Option.bind_some, value_of_allows hr hv, Option.some_or]
  | decision req b t hreq hb ht hv =>
      have hans : Except.ok (.decided b) = f.approval req := hb
      have hnone : effectOp pt n.kind = none := by
        cases hk : n.kind <;> rw [hk] at hreq <;> first | rfl | exact nomatch hreq
      rw [hnone, Option.bind_none, Option.none_or, hreq, Option.bind_some, decision, ← hans, hv]
      dsimp only
      rw [ht]
      rfl

theorem recorded_of_row {L : Ledger} {raw : Json} (h : L pt.cursor pt.attempt = some raw) :
    f.recorded run cfg L pt = some raw := by
  rw [recorded, h, Option.some_or]

/-- An answer is recorded where there was no row and the store accepts the key. -/
theorem recorded_of_answered {L : Ledger} (hn : cfg.graph.node pt.cursor = some n)
    (h : Answered run f.closures cfg pt n.kind v) (hrun : checkSegment "run_id" run.runId = .ok ())
    (hnode : checkSegment "node_id" pt.cursor = .ok ()) (hnone : L pt.cursor pt.attempt = none) :
    f.recorded run cfg L pt = some v := by
  rw [recorded, hnone, hrun, hnode, row_of_answered hn h]
  rfl

end Effects

/-! ## The positions of a line -/

/-- Nodes whose visits are ledgered. -/
def NodeKind.ledgered (kind : NodeKind) : Bool := kind.isEffect || kind.isApproval

/-- A position of the line from `X`: the trunk's after `k` steps, or one on a branch of the
    region entered there. -/
inductive Met (cfg : GraphConfig) (O : Oracle) (X : Point) (k : Nat) (P : Point) : Point → Prop where
  | trunk (h : Steps (TrunkStep cfg O) X k P) : Met cfg O X k P P
  | branch {n : Node} {x : String × String} {m : Nat} {pt : Point}
      (h : Steps (TrunkStep cfg O) X k P) (hn : cfg.graph.node P.cursor = some n)
      (hk : n.kind = .parallel) (hx : x ∈ branchEdges cfg P.cursor)
      (hp : Steps (BranchStep cfg O) (branchStart P x) m pt) : Met cfg O X k P pt

section Line

variable {cfg : GraphConfig} {O : Oracle} {X P P' pt pt' : Point} {k k' : Nat} {n : Node}

theorem Met.path (h : Met cfg O X k P pt) : Steps (TrunkStep cfg O) X k P := by
  cases h with
  | trunk h => exact h
  | branch h _ _ _ _ => exact h

/-- A position of a region counts at least the visits of the trunk. -/
theorem Met.grown (h : Met cfg O X k P pt) : P.visits.le pt.visits := by
  cases h with
  | trunk h => exact FinMap.le.refl _
  | @branch _ x m _ h hn hk hx hp =>
      have hle : (branchStart P x).visits.le pt.visits := branch_grown hp
      exact hle

theorem NodeKind.ledgered_ne {kind : NodeKind} (hk : kind.ledgered = true) :
    kind ≠ .parallel ∧ kind ≠ .join := by
  constructor <;> rintro rfl <;> exact nomatch hk

/-- Before the end of its branch a position has a next step. -/
theorem branch_next {J : String} {x : String × String} {bc : BranchCursor} {m : Nat}
    (hend : BranchEnd cfg O P J x bc) {nj : Node} (hnj : cfg.graph.node J = some nj)
    (hkj : nj.kind = .join) (hp : Steps (BranchStep cfg O) (branchStart P x) m pt)
    (hne : pt.cursor ≠ J) :
    ∃ d q, BranchStep cfg O pt q ∧ Steps (BranchStep cfg O) q d ⟨bc.cursor, bc.state, bc.visits⟩ := by
  obtain ⟨-, hc, m', hp'⟩ := hend
  obtain ⟨-, hrest⟩ := Steps.to_end (BranchStep.det cfg O) hp hp'
    (branch_end_join (by rw [hc]; exact hnj) hkj)
  rcases hrest.cases_head with ⟨-, heq⟩ | ⟨d, q, -, hq, hqe⟩
  · exact absurd (by rw [heq]; exact hc) hne
  · exact ⟨d, q, hq, hqe⟩

/-- The trunk step out of a region or of a ledgered node counts every visit on the way. -/
theorem Met.counted (h : Met cfg O X k P pt) (hn : cfg.graph.node pt.cursor = some n)
    (hk : n.kind.ledgered = true) {Q : Point} (hs : TrunkStep cfg O P Q) :
    pt.attempt ≤ Q.visits.count pt.cursor := by
  obtain ⟨hnp, hnj⟩ := NodeKind.ledgered_ne hk
  cases h with
  | trunk h =>
      cases hs with
      | work hs => rw [hs.advanced.counted]
      | approval n' raw b next hn' hk' hr hb ht heq =>
          rw [heq]
          exact Nat.le_of_eq (FinMap.count_insert_self ..).symm
      | join n' next hn' hk' ht heq =>
          rw [hn] at hn'
          cases hn'
          exact absurd hk' hnj
      | region n' J next ends hn' hk' hJ hends ht hcap heq =>
          rw [hn] at hn'
          cases hn'
          exact absurd hk' hnp
  | branch h hnP hkP hx hp =>
      rename_i nP x m
      cases hs with
      | work hs =>
          exact absurd hs (branch_end hnP (by rw [hkP]; rfl) (by rw [hkP]; rfl) _)
      | approval n' raw b next hn' hk' hr hb ht heq =>
          rw [hnP] at hn'
          cases hn'
          rw [hkP] at hk'
          exact nomatch hk'
      | join n' next hn' hk' ht heq =>
          rw [hnP] at hn'
          cases hn'
          rw [hkP] at hk'
          exact nomatch hk'
      | region n' J next ends hn' hk' hJ hends ht hcap heq =>
          -- the branch goes on from `pt` to its end, and the merge keeps its counts
          obtain ⟨nj, hnodeJ, hkindJ⟩ := findJoin_join hJ
          obtain ⟨i, hi⟩ := List.mem_iff_getElem?.mp hx
          obtain ⟨bc, hbc, hend⟩ := Region.forall₂_at hends hi
          have hne : pt.cursor ≠ J := by
            intro hc
            rw [hc, hnodeJ] at hn
            cases hn
            exact hnj hkindJ
          obtain ⟨d, q, hq, hqe⟩ := branch_next hend hnodeJ hkindJ hp hne
          have hcount : pt.attempt ≤ bc.visits.count pt.cursor := by
            rw [← hq.advanced.counted]
            exact (branch_grown hqe).count_le pt.cursor
          have hmerge : bc.visits.le Q.visits := by
            rw [heq, mergeRegion_visits]
            exact (FinMap.le_foldl_maxMerge _ _).2 _
              (List.mem_map.mpr ⟨bc, List.mem_of_getElem? hbc, rfl⟩)
          exact Nat.le_trans hcount (hmerge.count_le pt.cursor)

/-- A later position of the line has a later attempt. -/
theorem Met.attempt_lt (h : Met cfg O X k P pt) (h' : Met cfg O X k' P' pt') (hlt : k < k')
    (hn : cfg.graph.node pt.cursor = some n) (hk : n.kind.ledgered = true)
    (hc : pt'.cursor = pt.cursor) : pt.attempt < pt'.attempt := by
  obtain ⟨d, hd⟩ := Nat.exists_eq_add_of_lt hlt
  have hpath : Steps (TrunkStep cfg O) P (d + 1) P' := by
    refine Steps.split (TrunkStep.det cfg O) h.path ?_
    rw [← Nat.add_assoc, ← hd]
    exact h'.path
  rcases hpath.cases_head with ⟨h0, -⟩ | ⟨e, Q, -, hs, hrest⟩
  · exact nomatch h0
  have hle : pt.attempt ≤ pt'.visits.count pt.cursor :=
    calc pt.attempt ≤ Q.visits.count pt.cursor := h.counted hn hk hs
      _ ≤ P'.visits.count pt.cursor := (trunk_grown hrest).count_le _
      _ ≤ pt'.visits.count pt.cursor := h'.grown.count_le _
  rw [show pt'.attempt = pt'.visits.count pt.cursor + 1 by rw [Point.attempt, hc]]
  omega

/-- On one branch a later position of the same node has a later attempt. -/
theorem branch_attempt_lt {a : Point} {m d : Nat} (hp : Steps (BranchStep cfg O) a m pt)
    (hp' : Steps (BranchStep cfg O) a (m + (d + 1)) pt') (hc : pt'.cursor = pt.cursor) :
    pt.attempt < pt'.attempt := by
  rcases (Steps.split (BranchStep.det cfg O) hp hp').cases_head with ⟨h0, -⟩ | ⟨e, q, -, hq, hrest⟩
  · exact nomatch h0
  have hle : pt.attempt ≤ pt'.visits.count pt.cursor := by
    rw [← hq.advanced.counted]
    exact (branch_grown hrest).count_le _
  rw [show pt'.attempt = pt'.visits.count pt.cursor + 1 by rw [Point.attempt, hc]]
  omega

/-- Two branches of one region share no node before the join. -/
theorem branches_apart {J : String} (hr : Graph.RegionOk cfg.graph P.cursor J)
    {x y : String × String} (hx : x ∈ branchEdges cfg P.cursor) (hy : y ∈ branchEdges cfg P.cursor)
    (hxy : x ≠ y) {z : String} (hz : z ∈ cfg.graph.branchWalk P.cursor x.2) :
    z ∉ cfg.graph.branchWalk P.cursor y.2 := by
  have : Std.Symm fun a b : String × String =>
      ∀ z ∈ cfg.graph.branchWalk P.cursor a.2, z ∉ cfg.graph.branchWalk P.cursor b.2 :=
    ⟨fun a b h z hz hz' => h z hz' hz⟩
  exact (GraphConfig.branch_disjoint hr).forall hx hy hxy z hz

/-- **A ROW HAS ONE READER**: two positions of the line at the same ledgered node and attempt
    are the same position. -/
theorem met_unique (hcfg : cfg.Accepted) (h : Met cfg O X k P pt) (h' : Met cfg O X k' P' pt')
    (hn : cfg.graph.node pt.cursor = some n) (hk : n.kind.ledgered = true)
    (hc : pt'.cursor = pt.cursor) (ha : pt'.attempt = pt.attempt) : pt' = pt := by
  rcases Nat.lt_trichotomy k k' with hlt | heq | hgt
  · have := h.attempt_lt h' hlt hn hk hc
    omega
  · subst heq
    have hP : P = P' := Steps.unique (TrunkStep.det cfg O) h.path h'.path
    subst hP
    obtain ⟨hnp, hnj⟩ := NodeKind.ledgered_ne hk
    cases h with
    | trunk h =>
        cases h' with
        | trunk h' => rfl
        | branch h' hn' hk' hx hp =>
            rw [hn] at hn'
            cases hn'
            exact absurd hk' hnp
    | branch h hnP hkP hx hp =>
        cases h' with
        | trunk h' =>
            rw [hc, hn] at hnP
            cases hnP
            exact absurd hkP hnp
        | branch h' hnP' hkP' hx' hp' =>
            rename_i nP x m nP' x' m'
            by_cases hxx : x = x'
            · subst hxx
              rcases Nat.lt_trichotomy m m' with hlt | heq | hgt
              · obtain ⟨d, rfl⟩ := Nat.exists_eq_add_of_lt hlt
                have := branch_attempt_lt hp hp' hc
                omega
              · subst heq
                exact Steps.unique (BranchStep.det cfg O) hp' hp
              · obtain ⟨d, rfl⟩ := Nat.exists_eq_add_of_lt hgt
                have := branch_attempt_lt hp' hp hc.symm
                omega
            · -- different branches are at different nodes
              obtain ⟨J, hr⟩ := hcfg.region hnP hkP
              have hne : ∀ {z : String}, z = pt.cursor → z ≠ J := by
                intro z hz hJ
                obtain ⟨nj, hnodeJ, hkindJ⟩ := (GraphConfig.branch_walk hr hx).join_kind
                rw [← hz, hJ, hnodeJ] at hn
                cases hn
                exact hnj hkindJ
              have hin := (branch_inside hr hx hp).mem_walk (hne rfl)
              have hin' := (branch_inside hr hx' hp').mem_walk (hne hc)
              rw [hc] at hin'
              exact absurd hin' (branches_apart hr hx hx' hxx hin)
  · have := h'.attempt_lt h hgt (by rw [hc]; exact hn) hk hc.symm
    omega

end Line

/-- Only visits of ledgered nodes are answered. -/
theorem Answered.ledgered {run : RunRef} {C : Closures} {cfg : GraphConfig} {pt : Point}
    {kind : NodeKind} {v : Json} (h : Answered run C cfg pt kind v) : kind.ledgered = true := by
  cases h with
  | effect i r hi hr hv => cases kind <;> first | rfl | exact nomatch hi
  | decision req b t hreq hb ht hv => cases kind <;> first | rfl | exact nomatch hreq

/-! ## Ledgers over which runs keep to the line -/

section Replays

variable {run : RunRef} {cfg : GraphConfig} {f : Effects} {L₀ L : Ledger} {X : Point}

/-- `L` has the rows of `L₀`, and every other row is the one of a position of the line. -/
structure Replayed (run : RunRef) (cfg : GraphConfig) (f : Effects) (L₀ : Ledger) (X : Point)
    (L : Ledger) : Prop where
  old : Ledger.le L₀ L
  rows : ∀ id a raw, L id a = some raw → L₀ id a = some raw ∨
    ∃ k P pt n, Met cfg (f.recorded run cfg L₀) X k P pt ∧ pt.cursor = id ∧ pt.attempt = a ∧
      cfg.graph.node id = some n ∧ n.kind.ledgered = true ∧ f.recorded run cfg L₀ pt = some raw

theorem Replayed.refl : Replayed run cfg f L₀ X L₀ :=
  ⟨Ledger.le.refl _, fun _ _ _ h => Or.inl h⟩

/-- **THE ROW A POSITION OF THE LINE READS** is the one the oracle names. -/
theorem Replayed.agrees (hcfg : cfg.Accepted) (h : Replayed run cfg f L₀ X L) {k : Nat}
    {P pt : Point} {n : Node} {raw : Json} (hm : Met cfg (f.recorded run cfg L₀) X k P pt)
    (hn : cfg.graph.node pt.cursor = some n) (hk : n.kind.ledgered = true)
    (hrow : rowAt L pt = some raw) : f.recorded run cfg L₀ pt = some raw := by
  rcases h.rows _ _ _ hrow with hold | ⟨k', P', q, n', hm', hc, ha, hn', hk', hq⟩
  · exact Effects.recorded_of_row hold
  · rw [← met_unique hcfg hm hm' hn hk hc ha]
    exact hq

/-- A step of a branch, or of the trunk at the same kinds of nodes. -/
theorem Replayed.branch_step (hcfg : cfg.Accepted) (h : Replayed run cfg f L₀ X L) {k : Nat}
    {P pt pt' : Point} (hm : Met cfg (f.recorded run cfg L₀) X k P pt)
    (hs : BranchStep cfg (rowAt L) pt pt') : BranchStep cfg (f.recorded run cfg L₀) pt pt' := by
  cases hs with
  | effect n raw hn hk hO ha =>
      exact .effect n raw hn hk (h.agrees hcfg hm hn (by rw [NodeKind.ledgered, hk]; rfl) hO) ha
  | router n hn hk ha => exact .router n hn hk ha

/-- A path of a branch of the line. -/
theorem Replayed.branch_steps (hcfg : cfg.Accepted) (h : Replayed run cfg f L₀ X L) {k m : Nat}
    {P pt : Point} {n : Node} {x : String × String}
    (hP : Steps (TrunkStep cfg (f.recorded run cfg L₀)) X k P)
    (hn : cfg.graph.node P.cursor = some n) (hk : n.kind = .parallel)
    (hx : x ∈ branchEdges cfg P.cursor)
    (hp : Steps (BranchStep cfg (rowAt L)) (branchStart P x) m pt) :
    Steps (BranchStep cfg (f.recorded run cfg L₀)) (branchStart P x) m pt := by
  induction hp with
  | refl => exact .refl
  | tail _ hs ih => exact ih.tail (h.branch_step hcfg (.branch hP hn hk hx ih) hs)

/-- **A STEP OVER THE LEDGER IS A STEP OF THE LINE.** -/
theorem Replayed.trunk_step (hcfg : cfg.Accepted) (h : Replayed run cfg f L₀ X L) {k : Nat}
    {P P' : Point} (hP : Steps (TrunkStep cfg (f.recorded run cfg L₀)) X k P)
    (hs : TrunkStep cfg (rowAt L) P P') : TrunkStep cfg (f.recorded run cfg L₀) P P' := by
  cases hs with
  | work hs => exact .work (h.branch_step hcfg (.trunk hP) hs)
  | approval n raw b next hn hk hO hb ht heq =>
      refine .approval n raw b next hn hk (h.agrees hcfg (.trunk hP) hn ?_ hO) hb ht heq
      rw [NodeKind.ledgered, hk, Bool.or_true]
  | join n next hn hk ht heq => exact .join n next hn hk ht heq
  | region n J next ends hn hk hJ hends ht hcap heq =>
      refine .region n J next ends hn hk hJ (forall₂_imp_mem ?_ hends) ht hcap heq
      intro x bc hx hend
      obtain ⟨hl, hc, m, hp⟩ := hend
      exact ⟨hl, hc, m, h.branch_steps hcfg hP hn hk hx hp⟩

/-- The row of a new answer. -/
theorem Replayed.add (h : Replayed run cfg f L₀ X L) {k : Nat} {P pt : Point} {n : Node} {v : Json}
    (hm : Met cfg (f.recorded run cfg L₀) X k P pt) (hn : cfg.graph.node pt.cursor = some n)
    (hv : Answered run f.closures cfg pt n.kind v) (hrun : checkSegment "run_id" run.runId = .ok ())
    (hnode : checkSegment "node_id" pt.cursor = .ok ()) (hnone : L pt.cursor pt.attempt = none) :
    Replayed run cfg f L₀ X (L.add pt.cursor pt.attempt v) := by
  have hold : L₀ pt.cursor pt.attempt = none := by
    cases hc : L₀ pt.cursor pt.attempt with
    | none => rfl
    | some raw =>
        rw [h.old _ _ _ hc] at hnone
        exact nomatch hnone
  refine ⟨h.old.trans (Ledger.le_add v hnone), ?_⟩
  intro id a raw hrow
  unfold Ledger.add at hrow
  by_cases hkey : id = pt.cursor ∧ a = pt.attempt
  · rw [if_pos hkey] at hrow
    cases hrow
    obtain ⟨rfl, rfl⟩ := hkey
    refine Or.inr ⟨k, P, pt, n, hm, rfl, rfl, hn, ?_,
      Effects.recorded_of_answered hn hv hrun hnode hold⟩
    exact hv.ledgered
  · rw [if_neg hkey] at hrow
    exact h.rows id a raw hrow

end Replays

/-! ## Visits that fail -/

/-- Every row is under a key that `record_node_visit` accepts. -/
def Ledger.WellKeyed (run : RunRef) (L : Ledger) : Prop :=
  ∀ id a raw, L id a = some raw →
    checkSegment "run_id" run.runId = .ok () ∧ checkSegment "node_id" id = .ok ()

/-- The store only ever holds such rows. -/
theorem Ledger.WellKeyed.exec {run : RunRef} {C : Closures} {i : Op} {s s' : World} {r : i.Res}
    (h : Ledger.WellKeyed run s.1.ledger) (he : exec run C i s r s') :
    Ledger.WellKeyed run s'.1.ledger := by
  obtain ⟨-, rfl⟩ := he
  have hsave : ∀ rec, Ledger.WellKeyed run (storeAfter s.1 (s.1.save rec)).ledger := by
    intro rec
    rcases save_cases s.1 rec with ⟨-, heq⟩ | ⟨c, -, heq⟩
    · rw [heq]
      exact h
    · rw [heq]
      exact h
  cases i with
  | save rec => exact hsave rec
  | checkpointFrontier coord => exact hsave _
  | saveSlot coord slot bc => exact hsave _
  | recordNodeVisit id a v =>
      show Ledger.WellKeyed run
        (storeAfter s.1 ((s.1.recordNodeVisit run.runId id a v).map (·.2))).ledger
      rcases recordNodeVisit_cases s.1 run.runId id a v with
        ⟨h1, h2, ⟨hnone, heq⟩ | ⟨row, hrow, heq⟩⟩ | ⟨c, hbad, heq⟩
      · rw [heq]
        intro id' a' raw hraw
        by_cases hkey : id' = id ∧ a' = a
        · rw [hkey.1]
          exact ⟨h1, h2⟩
        · refine h id' a' raw ?_
          have hraw' : (if id' = id ∧ a' = a then some v else s.1.ledger id' a') = some raw := hraw
          rw [if_neg hkey] at hraw'
          exact hraw'
      · rw [heq]
        exact h
      · rw [heq]
        exact h
  | _ => exact h

section Failures

variable {S : Setup} {f : Effects} {L₀ L : Ledger} {X P pt q : Point} {k : Nat}

/-- The closure of the visit at `pt` does not fail. -/
def Effects.AnswersAt (f : Effects) (cfg : GraphConfig) (pt : Point) : Prop :=
  ∀ n i r e, cfg.graph.node pt.cursor = some n → effectOp pt n.kind = some i →
    f.closures.allows i r → closureError pt i r ≠ some e

/-- Closures that never fail do not fail an operation. -/
theorem Effects.NonFailing.answersAt (hf : f.NonFailing) (cfg : GraphConfig) (pt : Point) :
    f.AnswersAt cfg pt := by
  intro n i r e _ _ hr he
  cases i with
  | agentTurn a req =>
      obtain ⟨res, hres⟩ := hf.agentTurn req
      have hr' : r = f.agentTurn req := hr
      rw [hr', hres] at he
      exact nomatch he
  | tool a req =>
      obtain ⟨res, hres⟩ := hf.tool req
      have hr' : r = f.tool req := hr
      rw [hr', hres] at he
      exact nomatch he
  | supervisor a req =>
      obtain ⟨res, hres⟩ := hf.supervisor req
      have hr' : r = f.supervisor req := hr
      rw [hr', hres] at he
      exact nomatch he
  | _ => exact nomatch he

/-- No row is recorded under a key the store refuses. -/
theorem Effects.recorded_of_bad {run : RunRef} {cfg : GraphConfig}
    (hL₀ : Ledger.WellKeyed run L₀) (hbad : checkSegment "run_id" run.runId ≠ .ok () ∨
      checkSegment "node_id" pt.cursor ≠ .ok ()) : f.recorded run cfg L₀ pt = none := by
  have hnone : L₀ pt.cursor pt.attempt = none := by
    cases hrow : L₀ pt.cursor pt.attempt with
    | none => rfl
    | some raw =>
        obtain ⟨h1, h2⟩ := hL₀ _ _ _ hrow
        rcases hbad with hb | hb
        · exact absurd h1 hb
        · exact absurd h2 hb
  rw [recorded, hnone, Option.none_or]
  refine if_neg ?_
  intro hok
  obtain ⟨h1, h2⟩ := Bool.and_eq_true_iff.mp hok
  have hunit : ∀ {r : Except CheckpointError Unit}, r.isOk = true → r = .ok () := by
    intro r hr
    cases r with
    | error c => exact nomatch hr
    | ok u => rfl
  rcases hbad with hb | hb
  · exact hb (hunit h1)
  · exact hb (hunit h2)

/-- A visit that failed has no step on the line. -/
theorem Setup.Fault.no_step (hC : S.C = f.closures) (hf : f.AnswersAt S.cfg pt)
    (hL₀ : Ledger.WellKeyed S.run L₀) {label : Option String} {e : GraphExecError}
    (hrow : ∀ n raw, S.cfg.graph.node pt.cursor = some n → n.kind.ledgered = true →
      rowAt L pt = some raw → f.recorded S.run S.cfg L₀ pt = some raw)
    (h : S.Fault label L pt e) : ¬ BranchStep S.cfg (f.recorded S.run S.cfg L₀) pt q := by
  intro hs
  cases h with
  | unknown hn he =>
      obtain ⟨n, hn', -⟩ := hs.kind
      rw [hn] at hn'
      exact nomatch hn'
  | closure n i r hn hi hr he hmiss =>
      rw [hC] at hr
      exact hf n i r e hn hi hr he
  | after n raw hn hk hraw he =>
      have hO := hrow n raw hn (by rw [NodeKind.ledgered, hk]; rfl) hraw
      cases hs with
      | effect n' raw' hn' hk' hO' ha =>
          rw [hn] at hn'
          cases hn'
          rw [hO] at hO'
          cases hO'
          rw [effectAfter_label label ha] at he
          exact nomatch he
      | router n' hn' hk' ha =>
          rw [hn] at hn'
          cases hn'
          obtain ⟨maxIterations, hkind⟩ := NodeKind.router_of hk'
          rw [hkind] at hk
          exact nomatch hk
  | router n hn hk he =>
      cases hs with
      | effect n' raw' hn' hk' hO' ha =>
          rw [hn] at hn'
          cases hn'
          obtain ⟨maxIterations, hkind⟩ := NodeKind.router_of hk
          rw [hkind] at hk'
          exact nomatch hk'
      | router n' hn' hk' ha =>
          rw [he] at ha
          exact nomatch ha
  | segment n c hn hk hbad he =>
      cases hs with
      | effect n' raw' hn' hk' hO' ha =>
          rw [Effects.recorded_of_bad hL₀ hbad] at hO'
          exact nomatch hO'
      | router n' hn' hk' ha =>
          rw [hn] at hn'
          cases hn'
          obtain ⟨maxIterations, hkind⟩ := NodeKind.router_of hk'
          rw [hkind] at hk
          rcases hk with hk | hk
          · exact nomatch hk
          · exact nomatch hk

/-- **A BRANCH THAT FAILS IN A REGION FAILS ALONE**: the line has no step there. -/
theorem Setup.BranchFault.no_step (hC : S.C = f.closures) (hf : f.AnswersAt S.cfg pt)
    (hL₀ : Ledger.WellKeyed S.run L₀) {label : String} {e : GraphExecError}
    (hrow : ∀ n raw, S.cfg.graph.node pt.cursor = some n → n.kind.ledgered = true →
      rowAt L pt = some raw → f.recorded S.run S.cfg L₀ pt = some raw)
    (h : S.BranchFault label L pt e) : ¬ BranchStep S.cfg (f.recorded S.run S.cfg L₀) pt q := by
  cases h with
  | kind n m hn hk he => exact branch_end hn hk.1 hk.2 q
  | visit h => exact h.no_step hC hf hL₀ hrow

end Failures

/-! ## The track -/

/-- The line from `X` over the rows of `L₀` and the answers of the closures. -/
def replayTrack (run : RunRef) {cfg : GraphConfig} (hcfg : cfg.Accepted) (f : Effects) (L₀ : Ledger)
    (X : Point) (tracked : Prop) : Track run cfg f.closures where
  Tracked := tracked
  Present := False
  Good := Replayed run cfg f L₀ X
  On := fun _ pt => ∃ k, Steps (TrunkStep cfg (f.recorded run cfg L₀)) X k pt
  Start := fun text => startPoint cfg text = X
  mono := fun _ h => h
  start := fun h => ⟨0, h ▸ .refl⟩
  step := by
    intro L pt pt' hg hon hs
    obtain ⟨k, hp⟩ := hon
    exact ⟨k + 1, hp.tail (hg.trunk_step hcfg hp hs)⟩
  write := by
    intro L pt n v hg hreach hn hv hrun hnode hnone
    rcases hreach with ⟨k, hp⟩ | ⟨P, nP, x, m, ⟨k, hp⟩, hnP, hkP, hx, hsteps⟩
    · exact hg.add (.trunk hp) hn hv hrun hnode hnone
    · exact hg.add (.branch hp hnP hkP hx (hg.branch_steps hcfg hp hnP hkP hx hsteps)) hn hv hrun
        hnode hnone

end Greentic
