import GreenticRunner.GraphScheduleProofs

/-! # Crashes and resumes

    A call may be cut after any of its operations, and the next call goes on from what the
    store holds then.  With deterministic closures every call on the run keeps to ONE line of
    positions, the one an uninterrupted run follows to its end, so a resume that is not cut
    ends where that run ended.

    * `Ending` — the line ends at a respond node before the cap;
    * `crash_resume_equivalent` — the result;
    * `gate_asked_again` — an approval is asked again, although its decision is recorded. -/

namespace Greentic

open FinMaps CountedPath Resumption

/-! ## Calls that are cut -/

/-- The stores that finitely many calls leave one after another, each of them cut after any
    of its operations or run to its end. -/
inductive CutTo (run : RunRef) (cfg : GraphConfig) (text : String) (C : Closures) : RunStore → Prop where
  | fresh : CutTo run cfg text C .empty
  | call {st st' : RunStore} {p q : Drive GraphRunOutcome} {es : List (Event Op Op.Res)}
      {m : CallMemory} (h : CutTo run cfg text C st)
      (hc : Call run (fun g t => g = cfg ∧ t = text) (.fresh, p))
      (hr : Run (exec run C) p (st, .fresh) es q (st', m)) : CutTo run cfg text C st'

theorem exec_sub (run : RunRef) (C : Closures) (i : Op) (s : World) (r : i.Res) (s' : World)
    (h : exec run C i s r s') : exec run C i s r s' := h

theorem tight_step_of_false (run : RunRef) (cfg : GraphConfig) (C : Closures) (h : False) :
    ∀ s r s', exec run C .fetchAdd s r s' → s.2.globalVisits < maxNodeVisits →
      s.2.globalVisits + passes cfg s.2.history < maxNodeVisits := h.elim

/-- One call that has the store to itself. -/
def soloSetup {run : RunRef} {cfg : GraphConfig} (hcfg : cfg.Accepted) {C : Closures}
    (T : Track run cfg C) : Setup where
  run := run
  cfg := cfg
  accepted := hcfg
  C := C
  T := T
  solo := True
  tight := False
  step := exec run C
  sub := exec_sub run C
  tight_step := tight_step_of_false run cfg C

/-- The ledger of a run nobody has started. -/
def noRows : Ledger := fun _ _ => none

/-- The oracle of a fresh run. -/
abbrev freshOracle (run : RunRef) (cfg : GraphConfig) (f : Effects) : Oracle :=
  f.recorded run cfg noRows

/-- The calls of a run that starts with `text`. -/
def crashSetup (run : RunRef) {cfg : GraphConfig} (hcfg : cfg.Accepted) (f : Effects)
    (text : String) : Setup :=
  soloSetup hcfg (replayTrack run hcfg f noRows (startPoint cfg text) True)

section Calls

variable {run : RunRef} {cfg : GraphConfig} {f : Effects} {text : String} (hcfg : cfg.Accepted)

theorem crashSetup_serves : (crashSetup run hcfg f text).Serves fun g t => g = cfg ∧ t = text := by
  refine ⟨trivial, ?_⟩
  rintro g t ⟨rfl, rfl⟩
  exact Or.inr ⟨rfl, rfl⟩

/-- **EVERY CUT LEAVES** a store that keeps to the line. -/
theorem CutTo.storeOk {st : RunStore} (h : CutTo run cfg text f.closures st) :
    StoreOk (crashSetup run hcfg f text).T st := by
  induction h with
  | fresh => exact ⟨.refl, fun _ _ hr => (nomatch hr), fun h => h.elim⟩
  | call h hc hr ih =>
      exact Run.preserves (I := fun w => StoreOk (crashSetup run hcfg f text).T w.1)
        Setup.worldRely_refl (fun _ _ _ _ _ htold => htold.store) hr
        (Setup.call_sat (crashSetup_serves hcfg) ih hc) ih

/-- The effect closures of a history were called for visits without a row. -/
def FreshEffects (h : History) : Prop :=
  ∀ e ∈ h, ∀ id a, e.2.1.effectAt = some (id, a) → e.1.ledger id a = none

/-- Every call that has the store to itself asks only for visits without a row. -/
theorem call_freshEffects {st st' : RunStore} {m : CallMemory} {p q : Drive GraphRunOutcome}
    {es : List (Event Op Op.Res)} (hst : StoreOk (crashSetup run hcfg f text).T st)
    (hc : Call run (fun g t => g = cfg ∧ t = text) (.fresh, p))
    (hr : Run (exec run f.closures) p (st, .fresh) es q (st', m)) : FreshEffects m.history := by
  refine Run.preserves (I := fun w => FreshEffects w.2.history) Setup.worldRely_refl ?_ hr
    (Setup.call_sat (crashSetup_serves hcfg) hst hc) fun _ he => (nomatch he)
  intro s ev s' hI _ htold e he id a hat
  rw [htold.noted] at he
  rcases List.mem_append.mp he with hold | hnew
  · exact hI e hold id a hat
  · obtain rfl := List.mem_singleton.mp hnew
    have hfact := htold.fact
    obtain ⟨i, r⟩ := ev
    cases i with
    | agentTurn a' req => cases hat; exact hfact trivial
    | tool a' req => cases hat; exact hfact trivial
    | supervisor a' req => cases hat; exact hfact trivial
    | _ => exact nomatch hat

end Calls

/-! ## A line that ends -/

section Line

variable {run : RunRef} {cfg : GraphConfig} {f : Effects} {L : Ledger} {X F pt q : Point} {k : Nat}

/-- The line from `X` ends at the respond node of `F`, in fewer steps than the cap. -/
structure Ending (cfg : GraphConfig) (O : Oracle) (X : Point) (k : Nat) (F : Point) : Prop where
  path : Steps (TrunkStep cfg O) X k F
  respond : AtRespond cfg F
  short : k < maxNodeVisits

theorem Ending.stops {O : Oracle} (h : Ending cfg O X k F) : End (TrunkStep cfg O) F := by
  obtain ⟨n, hn, hk⟩ := h.respond
  exact trunk_end_respond hn hk

/-- A position of the line is on the way to its end. -/
theorem Ending.to_end {O : Oracle} (h : Ending cfg O X k F) {i : Nat}
    (hp : Steps (TrunkStep cfg O) X i pt) : i ≤ k ∧ Steps (TrunkStep cfg O) pt (k - i) F :=
  Steps.to_end (TrunkStep.det cfg O) hp h.path h.stops

/-- A respond node of the line is its end. -/
theorem Ending.unique {O : Oracle} (h : Ending cfg O X k F) {i : Nat}
    (hp : Steps (TrunkStep cfg O) X i pt) (hpt : AtRespond cfg pt) : pt = F := by
  obtain ⟨n, hn, hk⟩ := hpt
  exact (Steps.end_unique (TrunkStep.det cfg O) hp h.path (trunk_end_respond hn hk) h.stops).2

/-- Before its end the line goes on. -/
theorem Ending.next {O : Oracle} (h : Ending cfg O X k F) {i : Nat} {n : Node}
    (hp : Steps (TrunkStep cfg O) X i pt) (hn : cfg.graph.node pt.cursor = some n)
    (hk : n.kind ≠ .respond) : ∃ q, TrunkStep cfg O pt q := by
  rcases (h.to_end hp).2.cases_head with ⟨-, heq⟩ | ⟨d, q, -, hq, -⟩
  · obtain ⟨n', hn', hk'⟩ := h.respond
    rw [← heq, hn] at hn'
    cases hn'
    exact absurd hk' hk
  · exact ⟨q, hq⟩

/-- The region at a parallel node of the line. -/
theorem Ending.region {O : Oracle} (h : Ending cfg O X k F) {i : Nat} {n : Node} {J : String}
    (hp : Steps (TrunkStep cfg O) X i pt) (hn : cfg.graph.node pt.cursor = some n)
    (hk : n.kind = .parallel) (hJ : findJoinForParallel cfg pt.cursor = .ok J) :
    ∃ next ends, List.Forall₂ (BranchEnd cfg O pt J) (branchEdges cfg pt.cursor) ends ∧
      nextLinear cfg J = .ok next ∧
      (spentAll pt ends = 0 ∨ pt.visits.total + spentAll pt ends ≤ maxNodeVisits) := by
  obtain ⟨q, hq⟩ := h.next hp hn (by rw [hk]; exact nofun)
  cases hq with
  | work hq => exact absurd hq (branch_end hn (by rw [hk]; rfl) (by rw [hk]; rfl) _)
  | approval n' raw b next hn' hk' hr hb ht heq =>
      rw [hn] at hn'; cases hn'; rw [hk] at hk'; exact nomatch hk'
  | join n' next hn' hk' ht heq => rw [hn] at hn'; cases hn'; rw [hk] at hk'; exact nomatch hk'
  | region n' J' next ends hn' hk' hJ' hends ht hcap heq =>
      rw [hJ] at hJ'
      cases hJ'
      exact ⟨next, ends, hends, ht, hcap⟩

/-- A path over a ledger that keeps to the line is a part of the line. -/
theorem Replayed.trunk_steps (hcfg : cfg.Accepted) {L₀ : Ledger} (h : Replayed run cfg f L₀ X L)
    {i j : Nat} {A B : Point} (hA : Steps (TrunkStep cfg (f.recorded run cfg L₀)) X i A)
    (hp : Steps (TrunkStep cfg (rowAt L)) A j B) :
    Steps (TrunkStep cfg (f.recorded run cfg L₀)) X (i + j) B := by
  induction hp with
  | refl => exact hA
  | tail _ hs ih => exact ih.tail (h.trunk_step hcfg ih hs)

/-- No call runs out of trunk visits on the line. -/
theorem Ending.not_capped (hcfg : cfg.Accepted) {L₀ : Ledger}
    (h : Ending cfg (f.recorded run cfg L₀) X k F) (hrep : Replayed run cfg f L₀ X L) {i j : Nat}
    {A B : Point} (hA : Steps (TrunkStep cfg (f.recorded run cfg L₀)) X i A)
    (hp : Steps (TrunkStep cfg (rowAt L)) A j B) : j < maxNodeVisits := by
  have hle := (h.to_end (hrep.trunk_steps hcfg hA hp)).1
  have := h.short
  omega

/-- Relate two lists through a third one. -/
theorem forall₂_through {α β γ : Type} {R : α → β → Prop} {S : α → γ → Prop} {T : β → γ → Prop} :
    ∀ {xs : List α} {ys : List β} {zs : List γ}, (∀ x ∈ xs, ∀ y z, R x y → S x z → T y z) →
      List.Forall₂ R xs ys → List.Forall₂ S xs zs → List.Forall₂ T ys zs := by
  intro xs
  induction xs with
  | nil => intro ys zs _ h1 h2; cases h1; cases h2; exact .nil
  | cons x xs ih =>
      intro ys zs hT h1 h2
      cases h1 with
      | cons hy hys =>
          cases h2 with
          | cons hz hzs =>
              exact .cons (hT x (List.mem_cons_self ..) _ _ hy hz)
                (ih (fun x hx => hT x (List.mem_cons_of_mem _ hx)) hys hzs)

/-- A region whose branches end within the cap does not need more visits. -/
theorem Replayed.not_over (hcfg : cfg.Accepted) {L₀ : Ledger} (hrep : Replayed run cfg f L₀ X L)
    {i : Nat} {n : Node} {J : String} (hp : Steps (TrunkStep cfg (f.recorded run cfg L₀)) X i pt)
    (hn : cfg.graph.node pt.cursor = some n) (hk : n.kind = .parallel)
    (hJ : findJoinForParallel cfg pt.cursor = .ok J) {ends : List BranchCursor}
    (hends : List.Forall₂ (BranchEnd cfg (f.recorded run cfg L₀) pt J)
      (branchEdges cfg pt.cursor) ends)
    (hcap : spentAll pt ends = 0 ∨ pt.visits.total + spentAll pt ends ≤ maxNodeVisits) :
    ¬ Over cfg L pt J := by
  rintro ⟨pts, hpts, ⟨b₀, hb₀, hne₀⟩, hlt⟩
  obtain ⟨nj, hnj, hkj⟩ := findJoin_join hJ
  -- each position is on the way to the end of its branch
  have hle : List.Forall₂ (fun (b : Point) (bc : BranchCursor) =>
      spent pt b.visits + (if b.cursor = J then 0 else 1) ≤ spent pt bc.visits) pts ends := by
    refine forall₂_through ?_ hpts hends
    rintro x hx b bc ⟨m, hb⟩ hend
    have hb' := hrep.branch_steps hcfg hp hn hk hx hb
    have htotal : b.visits.total = (branchStart pt x).visits.total + m := branch_total hb'
    have hstart : (branchStart pt x).visits = pt.visits := rfl
    have hend' := hend
    obtain ⟨-, hc, m', hbc⟩ := hend'
    have htotal' : bc.visits.total = (branchStart pt x).visits.total + m' := branch_total hbc
    rw [hstart] at htotal htotal'
    rw [spent, spent, htotal, htotal']
    split
    · have := (Steps.to_end (BranchStep.det cfg _) hb' hbc
        (branch_end_join (by rw [hc]; exact hnj) hkj)).1
      omega
    · rename_i hne
      obtain ⟨d, q, hq, hqe⟩ := branch_next hend hnj hkj hb' hne
      have htq : bc.visits.total = q.visits.total + d := branch_total hqe
      have := hq.advanced.total
      omega
  have hsum : (pts.map fun b => spent pt b.visits + if b.cursor = J then 0 else 1).sum
      ≤ spentAll pt ends :=
    List.Forall₂.sum_le_sum (List.forall₂_map_left_iff.mpr (List.forall₂_map_right_iff.mpr hle))
  have hone : 1 ≤ (pts.map fun b => spent pt b.visits + if b.cursor = J then 0 else 1).sum := by
    refine Nat.le_trans ?_ (List.le_sum_of_mem (List.mem_map.mpr ⟨b₀, hb₀, rfl⟩))
    rw [if_neg hne₀]
    omega
  omega

/-- No region of the line needs more visits than the cap allows. -/
theorem Ending.not_over (hcfg : cfg.Accepted) {L₀ : Ledger}
    (h : Ending cfg (f.recorded run cfg L₀) X k F) (hrep : Replayed run cfg f L₀ X L) {i : Nat}
    {n : Node} {J : String} (hp : Steps (TrunkStep cfg (f.recorded run cfg L₀)) X i pt)
    (hn : cfg.graph.node pt.cursor = some n) (hk : n.kind = .parallel)
    (hJ : findJoinForParallel cfg pt.cursor = .ok J) : ¬ Over cfg L pt J := by
  obtain ⟨next, ends, hends, -, hcap⟩ := h.region hp hn hk hJ
  exact hrep.not_over hcfg hp hn hk hJ hends hcap

theorem askRequest_approval {kind : NodeKind} {req : ApprovalRequest}
    (h : askRequest run pt kind = some req) : kind.isApproval = true := by
  cases kind <;> first | rfl | exact nomatch h

/-- What the oracle of a fresh run says at an approval node. -/
theorem freshOracle_decision {n : Node} {req : ApprovalRequest} {raw : Json}
    (hn : cfg.graph.node pt.cursor = some n) (hreq : askRequest run pt n.kind = some req)
    (h : freshOracle run cfg f pt = some raw) : ∃ b t, f.approval req = .ok (.decided b) ∧
      cfg.graph.branchTarget pt.cursor b = some t ∧ raw = decisionValue b := by
  have hrow : f.row run cfg pt = some raw := by
    rw [freshOracle, Effects.recorded, noRows, Option.none_or] at h
    split at h
    · exact h
    · cases h
  have hnone : effectOp pt n.kind = none := by
    obtain ⟨_, _, _, _, _, hkind⟩ := NodeKind.approval_of (askRequest_approval hreq)
    rw [hkind]
    rfl
  rw [Effects.row, hn] at hrow
  dsimp only at hrow
  rw [hnone, Option.bind_none, Option.none_or, hreq, Option.bind_some, Effects.decision] at hrow
  split at hrow
  · rename_i b hb
    obtain ⟨t, ht, rfl⟩ := Option.map_eq_some_iff.mp hrow
    exact ⟨b, t, hb, ht, rfl⟩
  · cases hrow

end Line

/-! ## Nothing goes wrong on it -/

section Faults

variable {S : Setup} {f : Effects} {L : Ledger} {X F pt q : Point} {k i : Nat} {e : GraphExecError}

/-- Only effects, routers and approvals fail at their own visit. -/
theorem Setup.Fault.kind_ne {label : Option String} (h : S.Fault label L pt e) {n : Node}
    {kind : NodeKind} (hn : S.cfg.graph.node pt.cursor = some n) (hk : n.kind = kind)
    (hne : kind = .respond ∨ kind = .parallel ∨ kind = .join) : False := by
  subst hk
  have hkinds : n.kind.isEffect = false ∧ n.kind.isRouter = false ∧ n.kind.isApproval = false ∧
      effectOp pt n.kind = none := by
    rcases hne with h | h | h <;> rw [h] <;> exact ⟨rfl, rfl, rfl, rfl⟩
  obtain ⟨h1, h2, h3, h4⟩ := hkinds
  cases h with
  | unknown hn' he => rw [hn] at hn'; exact nomatch hn'
  | closure n' i r hn' hi hr he hmiss => rw [hn] at hn'; cases hn'; rw [h4] at hi; exact nomatch hi
  | after n' raw hn' hk' hraw he => rw [hn] at hn'; cases hn'; rw [h1] at hk'; exact nomatch hk'
  | router n' hn' hk' he => rw [hn] at hn'; cases hn'; rw [h2] at hk'; exact nomatch hk'
  | segment n' c hn' hk' hbad he =>
      rw [hn] at hn'
      cases hn'
      rw [h1, h3] at hk'
      rcases hk' with h | h
      · exact nomatch h
      · exact nomatch h

/-- A trunk visit that failed has no step on the line. -/
theorem Setup.TrunkFault.no_step (hC : S.C = f.closures) (hf : f.NonFailing)
    (hrow : ∀ n raw, S.cfg.graph.node pt.cursor = some n → n.kind.ledgered = true →
      rowAt L pt = some raw → freshOracle S.run S.cfg f pt = some raw)
    (h : S.TrunkFault L pt e) : ¬ TrunkStep S.cfg (freshOracle S.run S.cfg f) pt q := by
  have hL₀ : Ledger.WellKeyed S.run noRows := fun _ _ _ hr => (by cases hr)
  intro hs
  cases hs with
  | work hs =>
      cases h with
      | visit h => exact h.no_step hC (hf.answersAt S.cfg pt) hL₀ hrow hs
      | ask n req hn hreq hr =>
          obtain ⟨_, _, _, _, _, hkind⟩ := NodeKind.approval_of (askRequest_approval hreq)
          exact branch_end hn (by rw [hkind]; rfl) (by rw [hkind]; rfl) q hs
      | noEdge n req b m hn hreq hr ht he =>
          obtain ⟨_, _, _, _, _, hkind⟩ := NodeKind.approval_of (askRequest_approval hreq)
          exact branch_end hn (by rw [hkind]; rfl) (by rw [hkind]; rfl) q hs
      | badRow n raw m hn hk hraw hbad he =>
          obtain ⟨_, _, _, _, _, hkind⟩ := NodeKind.approval_of hk
          exact branch_end hn (by rw [hkind]; rfl) (by rw [hkind]; rfl) q hs
      | join n hn hk he => exact branch_end hn (by rw [hk]; rfl) (by rw [hk]; rfl) q hs
      | findJoin n hn hk he => exact branch_end hn (by rw [hk]; rfl) (by rw [hk]; rfl) q hs
  | approval n raw b next hn hk hO hb ht heq =>
      obtain ⟨title, mode, risk, confidence, deadline, hkind⟩ := NodeKind.approval_of hk
      cases h with
      | visit h =>
          cases h with
          | unknown hn' he => rw [hn] at hn'; cases hn'
          | closure n' i r hn' hi hr he hmiss =>
              rw [hn] at hn'; cases hn'; rw [hkind] at hi; cases hi
          | after n' raw' hn' hk' hraw he =>
              rw [hn] at hn'; cases hn'; rw [hkind] at hk'; cases hk'
          | router n' hn' hk' he =>
              rw [hn] at hn'; cases hn'; rw [hkind] at hk'; cases hk'
          | segment n' c hn' hk' hbad he =>
              rw [freshOracle, Effects.recorded_of_bad hL₀ hbad] at hO
              cases hO
      | ask n' req hn' hreq hr =>
          rw [hC] at hr
          obtain ⟨o, ho⟩ := hf.approval req
          have hans : Except.error e = f.approval req := hr
          rw [ho] at hans
          cases hans
      | noEdge n' req b' m hn' hreq hr ht' he =>
          rw [hC] at hr
          obtain ⟨c, t, hc, ht'', -⟩ := freshOracle_decision hn' hreq hO
          have hans : Except.ok (.decided b') = f.approval req := hr
          rw [hc] at hans
          cases hans
          rw [ht'] at ht''
          cases ht''
      | badRow n' raw' m hn' hk' hraw hbad he =>
          have hO' := hrow n' raw' hn' (by rw [NodeKind.ledgered, hk', Bool.or_true]) hraw
          rw [hO] at hO'
          cases hO'
          exact hbad b next hb ht
      | join n' hn' hk' he => rw [hn] at hn'; cases hn'; rw [hk'] at hk; cases hk
      | findJoin n' hn' hk' he => rw [hn] at hn'; cases hn'; rw [hk'] at hk; cases hk
  | join n next hn hk ht heq =>
      cases h with
      | visit h => exact h.kind_ne hn hk (by simp)
      | ask n' req hn' hreq hr => rw [hn] at hn'; cases hn'; rw [hk] at hreq; cases hreq
      | noEdge n' req b m hn' hreq hr ht' he =>
          rw [hn] at hn'; cases hn'; rw [hk] at hreq; cases hreq
      | badRow n' raw m hn' hk' hraw hbad he =>
          rw [hn] at hn'; cases hn'; rw [hk] at hk'; cases hk'
      | join n' hn' hk' he => rw [ht] at he; cases he
      | findJoin n' hn' hk' he => rw [hn] at hn'; cases hn'; rw [hk] at hk'; cases hk'
  | region n J next ends hn hk hJ hends ht hcap heq =>
      cases h with
      | visit h => exact h.kind_ne hn hk (by simp)
      | ask n' req hn' hreq hr => rw [hn] at hn'; cases hn'; rw [hk] at hreq; cases hreq
      | noEdge n' req b m hn' hreq hr ht' he =>
          rw [hn] at hn'; cases hn'; rw [hk] at hreq; cases hreq
      | badRow n' raw m hn' hk' hraw hbad he =>
          rw [hn] at hn'; cases hn'; rw [hk] at hk'; cases hk'
      | join n' hn' hk' he => rw [hn] at hn'; cases hn'; rw [hk] at hk'; cases hk'
      | findJoin n' hn' hk' he => rw [hJ] at he; cases he

/-- Nothing fails at a respond node. -/
theorem Setup.TrunkFault.not_respond (h : S.TrunkFault L pt e) (hpt : AtRespond S.cfg pt) : False := by
  obtain ⟨n, hn, hk⟩ := hpt
  cases h with
  | visit h => exact h.kind_ne hn hk (by simp)
  | ask n' req hn' hreq hr => rw [hn] at hn'; cases hn'; rw [hk] at hreq; exact nomatch hreq
  | noEdge n' req b m hn' hreq hr ht he =>
      rw [hn] at hn'; cases hn'; rw [hk] at hreq; exact nomatch hreq
  | badRow n' raw m hn' hk' hraw hbad he =>
      rw [hn] at hn'; cases hn'; rw [hk] at hk'; exact nomatch hk'
  | join n' hn' hk' he => rw [hn] at hn'; cases hn'; rw [hk] at hk'; exact nomatch hk'
  | findJoin n' hn' hk' he => rw [hn] at hn'; cases hn'; rw [hk] at hk'; exact nomatch hk'

end Faults

section Outcomes

variable {run : RunRef} {cfg : GraphConfig} {hcfg : cfg.Accepted} {f : Effects} {text : String}
  {F : Point} {k : Nat} {s : World}

/-- The track of the calls is the line. -/
theorem on_line {L : Ledger} {pt : Point} (h : (crashSetup run hcfg f text).T.On L pt) :
    ∃ i, Steps (TrunkStep cfg (freshOracle run cfg f)) (startPoint cfg text) i pt := h

/-- **NO ERROR CAN BE EXPLAINED** on a line that ends. -/
theorem Ending.not_explained (h : Ending cfg (freshOracle run cfg f) (startPoint cfg text) k F)
    (hf : f.NonFailing) (hrun : checkSegment "run_id" run.runId = .ok ())
    (hrep : Replayed run cfg f noRows (startPoint cfg text) s.1.ledger)
    (hload : loadedRecord s.2.history ≠ some none) {e : GraphExecError}
    (hex : (crashSetup run hcfg f text).Explained s e) : False := by
  cases hex with
  | refused hl he => exact hload hl
  | unsaved c hbad he => exact hbad hrun
  | trunk X k' m pt came hm kept hfault =>
      obtain ⟨i, hp⟩ := on_line came.on
      rcases (h.to_end hp).2.cases_head with ⟨-, rfl⟩ | ⟨d, q, -, hq, -⟩
      · exact hfault.not_respond h.respond
      · have hrow : ∀ n raw, cfg.graph.node pt.cursor = some n → n.kind.ledgered = true →
            rowAt s.1.ledger pt = some raw → freshOracle run cfg f pt = some raw :=
          fun n raw hn hk hraw => hrep.agrees hcfg (.trunk hp) hn hk hraw
        exact Setup.TrunkFault.no_step (S := crashSetup run hcfg f text) rfl hf hrow hfault hq
  | leave X k' P n J came hn hk hJ he =>
      obtain ⟨i, hp⟩ := on_line came.on
      obtain ⟨next, ends, -, hnext, -⟩ := h.region hp hn hk hJ
      have he' : nextLinear cfg J = .error e := he
      rw [hnext] at he'
      exact nomatch he'
  | branch X k' P J frontier i x bc came hJ kept hfr hall hx hbc hhalt hcap =>
      obtain ⟨i', hp⟩ := on_line came.on
      obtain ⟨n, hn, hk⟩ := hfr.node
      obtain ⟨J', hJ', hslots⟩ := hfr.slots
      cases hhalt with
      | capped hc hover he => exact h.not_over hcfg hrep hp hn hk hJ hover
      | unsaved c hbad he => exact hbad hrun
      | fault hne hfault =>
          -- the branch goes on from its slot to the join
          obtain ⟨bc', hbc', hslot⟩ := Region.forall₂_at hslots hx
          rw [hbc] at hbc'
          cases hbc'
          obtain ⟨m, hpath⟩ := hslot.path
          have hmem := List.mem_of_getElem? hx
          have hpath' := hrep.branch_steps hcfg hp hn hk hmem hpath
          obtain ⟨next, ends, hends, -, -⟩ := h.region hp hn hk hJ
          obtain ⟨nj, hnj, hkj⟩ := findJoin_join hJ
          obtain ⟨b, -, hend⟩ := Region.forall₂_at hends hx
          obtain ⟨d, q, hq, -⟩ := branch_next hend hnj hkj hpath' hne
          have hrow : ∀ n raw, cfg.graph.node (slotPoint P bc).cursor = some n →
              n.kind.ledgered = true → rowAt s.1.ledger (slotPoint P bc) = some raw →
              freshOracle run cfg f (slotPoint P bc) = some raw :=
            fun n' raw hn' hk' hraw => hrep.agrees hcfg (.branch hp hn hk hmem hpath') hn' hk' hraw
          have hL₀ : Ledger.WellKeyed run noRows := fun _ _ _ hr => (nomatch hr)
          exact Setup.BranchFault.no_step (S := crashSetup run hcfg f text) rfl (hf.answersAt cfg _)
            hL₀ hrow hfault hq
  | cap X k' pt came hexh kept he =>
      obtain ⟨i, hX⟩ := on_line came.origin
      rcases hexh with hle | ⟨n, J, hn, hk, hJ, -, hover⟩
      · exact absurd (h.not_capped hcfg hrep hX came.path) (Nat.not_lt.mpr hle)
      · obtain ⟨j, hp⟩ := on_line came.on
        exact h.not_over hcfg hrep hp hn hk hJ hover

/-- A record of the line is not exhausted. -/
theorem Ending.not_exhausted (h : Ending cfg (freshOracle run cfg f) (startPoint cfg text) k F)
    (hcfg : cfg.Accepted) {L : Ledger} (hrep : Replayed run cfg f noRows (startPoint cfg text) L)
    {On : Point → Prop} {pt : Point} {i : Nat}
    (hOn : ∀ p, On p → ∃ j, Steps (TrunkStep cfg (freshOracle run cfg f)) (startPoint cfg text) j p)
    (hp : Steps (TrunkStep cfg (freshOracle run cfg f)) (startPoint cfg text) i pt) :
    ¬ Exhausted cfg On L pt := by
  rintro (⟨X, j, hX, hpath, hle⟩ | ⟨n, J, hn, hk, hJ, hover⟩)
  · obtain ⟨i', hX'⟩ := hOn X hX
    exact absurd (h.not_capped hcfg hrep hX' hpath) (Nat.not_lt.mpr hle)
  · exact h.not_over hcfg hrep hp hn hk hJ hover

/-- A settled call has loaded what the store held when it began. -/
theorem loaded_of_run {C : Closures} {st : RunStore}
    {cont : Option GraphRunRecord → Drive GraphRunOutcome} {es : List (Event Op Op.Res)}
    {q : Drive GraphRunOutcome} {r : Except GraphExecError GraphRunOutcome}
    (h : Run (exec run C) (.call .load cont) (st, .fresh) es q s) (hq : q.outcome? = some r) :
    loadedRecord s.2.history = some st.record := by
  obtain ⟨rfl, -, -⟩ | ⟨a, s₁, es₁, he, -, hrest⟩ := Run.of_call h
  · exact nomatch hq
  · refine Run.invariant (I := fun w => loadedRecord w.2.history = some st.record) ?_ hrest ?_
    · intro i w a' w' hw hex
      rw [exec_history hex, loadedRecord_snoc hw]
    · rw [exec_history he]
      exact congrArg some he.1

/-- A call that found no record starts at the start of the line. -/
theorem Setup.Origin.point_of_fresh (X : (crashSetup run hcfg f text).Origin)
    (h : X.loaded = none) : X.point = startPoint cfg text := by
  obtain ⟨loaded, point, link⟩ := X
  cases h
  obtain ⟨text', htext, rfl⟩ := link
  exact htext

/-- **AN UNINTERRUPTED RUN THAT SUCCEEDS** follows the line to its end. -/
theorem ending_of_run {es : List (Event Op Op.Res)} {reply : String} {trail : List Json}
    {st : RunStore} {m : CallMemory} (hcfg : cfg.Accepted)
    (h : Run (exec run f.closures) (start run cfg text) (RunStore.empty, CallMemory.fresh) es
      (.ret ⟨.succeeded, reply, trail⟩) (st, m)) :
    ∃ k F, Ending cfg (freshOracle run cfg f) (startPoint cfg text) k F ∧
      st.record = some (finalRecord run cfg F) ∧ reply = lastAssistantMessage F.state ∧
      checkSegment "run_id" run.runId = .ok () := by
  let S := crashSetup run hcfg f text
  have hempty : StoreOk S.T RunStore.empty := CutTo.storeOk hcfg .fresh
  have hcall : Call run (fun g t => g = cfg ∧ t = text) (.fresh, start run cfg text) :=
    .start cfg text ⟨rfl, rfl⟩
  have hst : StoreOk S.T st := CutTo.storeOk hcfg (.call .fresh hcall h)
  have hloads : loadedRecord m.history = some none := loaded_of_run h rfl
  have hverdict : S.CallVerdict (st, m) (.ok ⟨.succeeded, reply, trail⟩) :=
    (Run.sat Setup.worldRely_refl h (Setup.call_sat (crashSetup_serves hcfg) hempty hcall)).result
      Setup.worldRely_refl rfl
  generalize ho : (⟨.succeeded, reply, trail⟩ : GraphRunOutcome) = o at hverdict
  rcases hverdict with ⟨hres, -⟩ | ⟨herr, -⟩
  · cases hres with
    | succeeded X k F st' trail came hk hF hlast kept =>
        cases ho
        have hloaded : X.loaded = none := Option.some.inj (came.loads.symm.trans hloads)
        have hrecord : st.record = some (finalRecord run cfg F) := kept trivial
        have hX : X.point = startPoint cfg text := X.point_of_fresh hloaded
        have hpath : Steps (TrunkStep cfg (rowAt st.ledger)) (startPoint cfg text) k F := by
          rw [← hX]
          exact came.path
        have hline := Replayed.trunk_steps hcfg hst.good .refl hpath
        rw [Nat.zero_add] at hline
        rw [hloaded] at hk
        exact ⟨k, F, ⟨hline, hF, hk⟩, hrecord, rfl, (hst.record trivial _ hrecord).2.1⟩
    | parked X k pt n req reply trail came hn hreq hr kept => cases ho
    | stored st' rec trail hh hterm hrec =>
        have hh' : m.history = [(st', ⟨.load, some rec⟩)] := hh
        rw [hh'] at hloads
        exact nomatch hloads
  · exact nomatch herr

/-- A call that has only loaded the record has changed nothing. -/
theorem store_of_load {C : Closures} {st : RunStore}
    {cont : Option GraphRunRecord → Drive GraphRunOutcome} {es : List (Event Op Op.Res)}
    {q : Drive GraphRunOutcome} (h : Run (exec run C) (.call .load cont) (st, .fresh) es q s)
    (hone : s.2.history.length = 1) : s.1 = st := by
  obtain ⟨-, rfl, -⟩ | ⟨a, s₁, es₁, he, -, hrest⟩ := Run.of_call h
  · rfl
  · have hI : 1 ≤ s.2.history.length ∧ (s.2.history.length = 1 → s.1 = st) := by
      refine Run.invariant
        (I := fun w => 1 ≤ w.2.history.length ∧ (w.2.history.length = 1 → w.1 = st)) ?_ hrest ?_
      · intro i w a' w' hw hex
        rw [exec_history hex, List.length_append, List.length_singleton]
        exact ⟨Nat.le_add_left _ _, fun hc => absurd hw.1 (by omega)⟩
      · rw [exec_history he, exec_silent he rfl]
        exact ⟨Nat.le_refl _, fun _ => rfl⟩
    exact hI.2 hone

/-- No approval of the line is left open. -/
theorem Ending.not_parked (h : Ending cfg (freshOracle run cfg f) (startPoint cfg text) k F)
    {pt : Point} {i : Nat} {n : Node} {req : ApprovalRequest}
    (hp : Steps (TrunkStep cfg (freshOracle run cfg f)) (startPoint cfg text) i pt)
    (hn : cfg.graph.node pt.cursor = some n) (hreq : askRequest run pt n.kind = some req)
    (hans : f.approval req = .ok .awaiting) : False := by
  obtain ⟨_, _, _, _, _, hkind⟩ := NodeKind.approval_of (askRequest_approval hreq)
  obtain ⟨q, hq⟩ := h.next hp hn (by rw [hkind]; exact nofun)
  cases hq with
  | work hq => exact branch_end hn (by rw [hkind]; rfl) (by rw [hkind]; rfl) q hq
  | approval n' raw b next hn' hk' hO hb ht heq =>
      obtain ⟨c, t, hc, -, -⟩ := freshOracle_decision hn hreq hO
      rw [hans] at hc
      exact nomatch hc
  | join n' next hn' hk' ht heq => rw [hn] at hn'; cases hn'; rw [hkind] at hk'; exact nomatch hk'
  | region n' J next ends hn' hk' hJ hends ht hcap heq =>
      rw [hn] at hn'; cases hn'; rw [hkind] at hk'; exact nomatch hk'

/-- **A RESUME THAT IS NOT CUT** ends where the uninterrupted run ended. -/
theorem Ending.resumed (h : Ending cfg (freshOracle run cfg f) (startPoint cfg text) k F)
    (hcfg : cfg.Accepted) (hf : f.NonFailing) (hrun : checkSegment "run_id" run.runId = .ok ())
    {st : RunStore} (hst : StoreOk (crashSetup run hcfg f text).T st) (hrec : st.record ≠ none)
    {es : List (Event Op Op.Res)} {q : Drive GraphRunOutcome}
    (hr : Run (exec run f.closures) (resume run) (st, .fresh) es q s)
    {r : Except GraphExecError GraphRunOutcome} (hq : q.outcome? = some r) :
    (∃ trail, r = .ok ⟨.succeeded, lastAssistantMessage F.state, trail⟩) ∧
      s.1.record = some (finalRecord run cfg F) := by
  let S := crashSetup run hcfg f text
  have hloads : loadedRecord s.2.history = some st.record := loaded_of_run hr hq
  have hsat : (resume run).Sat S.worldRely S.step S.Told S.Settles S.Verdict (st, .fresh) :=
    Setup.resume_sat trivial hst
  have hst' : StoreOk S.T s.1 :=
    Run.preserves (I := fun w => StoreOk S.T w.1) Setup.worldRely_refl
      (fun _ _ _ _ _ htold => htold.store) hr hsat hst
  have hrep : Replayed run cfg f noRows (startPoint cfg text) s.1.ledger := hst'.good
  have hres := ((Run.sat Setup.worldRely_refl hr hsat).result Setup.worldRely_refl hq).1
  cases hres with
  | succeeded X k' F' st' trail came hk hF hlast kept =>
      obtain ⟨i, hp⟩ := on_line came.on
      obtain rfl := h.unique hp hF
      exact ⟨⟨trail, rfl⟩, kept trivial⟩
  | parked X k' pt n req reply trail came hn hreq hans kept =>
      obtain ⟨i, hp⟩ := on_line came.on
      have hans' : Except.ok .awaiting = f.approval req := hans
      exact (h.not_parked hp hn hreq hans'.symm).elim
  | stored st' rec trail hh hterm hok =>
      have hsame : s.1 = st := store_of_load hr (by rw [hh]; rfl)
      have hstored : st.record = some rec := by
        rw [hh] at hloads
        exact (Option.some.inj hloads).symm
      obtain ⟨-, -, hstatus⟩ := hok
      cases hs : rec.status with
      | succeeded =>
          rw [hs] at hstatus
          obtain ⟨F', hon, hF', rfl⟩ := hstatus
          obtain ⟨i, hp⟩ := on_line hon
          obtain rfl := h.unique hp hF'
          exact ⟨⟨trail, rfl⟩, by rw [hsame]; exact hstored⟩
      | failed =>
          rw [hs] at hstatus
          obtain ⟨i, hp⟩ := on_line hstatus.1
          exact absurd hstatus.2 (h.not_exhausted hcfg hrep (fun p hp => on_line hp) hp)
      | running => rw [hs] at hterm; exact nomatch hterm
      | awaitingInput => rw [hs] at hterm; exact nomatch hterm
  | error e hex =>
      refine (h.not_explained hf hrun hrep ?_ hex).elim
      rw [hloads]
      exact fun hc => hrec (Option.some.inj hc)

end Outcomes

/-! ## Crash-resume equivalence -/

/-- Operations that write to the store. -/
def Op.isWrite : Op → Bool
  | .recordNodeVisit _ _ _ => true
  | i => i.isSave

section Writes

variable {run : RunRef} {C : Closures} {i : Op} {s s' : World} {r : i.Res}

/-- No operation removes the record. -/
theorem exec_record (h : s.1.record ≠ none) (he : exec run C i s r s') : s'.1.record ≠ none := by
  obtain ⟨-, rfl⟩ := he
  have hsave : ∀ rec, (storeAfter s.1 (s.1.save rec)).record ≠ none := by
    intro rec
    rcases save_cases s.1 rec with ⟨-, heq⟩ | ⟨c, -, heq⟩
    · rw [heq]
      exact nofun
    · rw [heq]
      exact h
  cases i with
  | save rec => exact hsave rec
  | checkpointFrontier coord => exact hsave _
  | saveSlot coord slot bc => exact hsave _
  | recordNodeVisit id a v =>
      show (storeAfter s.1 ((s.1.recordNodeVisit run.runId id a v).map (·.2))).record ≠ none
      rcases recordNodeVisit_cases s.1 run.runId id a v with
        ⟨-, -, ⟨-, heq⟩ | ⟨row, -, heq⟩⟩ | ⟨c, -, heq⟩
      · rw [heq]
        exact h
      · rw [heq]
        exact h
      · rw [heq]
        exact h
  | _ => exact h

/-- A call that has written to the store leaves a record. -/
theorem call_leaves_record {starts : GraphConfig → String → Prop}
    (hrun : checkSegment "run_id" run.runId = .ok ()) {st : RunStore} {p q : Drive GraphRunOutcome}
    (hc : Call run starts (.fresh, p)) {es : List (Event Op Op.Res)}
    (h : Run (exec run C) p (st, .fresh) es q s) (hwrite : ∃ e ∈ es, e.1.isWrite = true) :
    s.1.record ≠ none := by
  have hkeep : ∀ {p q : Drive GraphRunOutcome} {s s' : World} {es : List (Event Op Op.Res)},
      Run (exec run C) p s es q s' → s.1.record ≠ none → s'.1.record ≠ none :=
    fun hr hs => Run.invariant (I := fun w => w.1.record ≠ none) (fun _ _ _ _ => exec_record) hr hs
  obtain ⟨e, he, hw⟩ := hwrite
  cases hrec : st.record with
  | some rec => exact hkeep h (by rw [hrec]; exact nofun)
  | none =>
      cases hc with
      | resume =>
          -- without a record a resume only loads
          obtain ⟨-, -, rfl⟩ | ⟨a, s₁, es₁, hload, rfl, hrest⟩ := Run.of_call h
          · exact nomatch he
          · obtain rfl : a = none := hload.1.trans hrec
            obtain ⟨-, -, rfl⟩ := Run.of_fail hrest
            cases List.mem_singleton.mp he
            exact nomatch hw
      | start cfg text hs =>
          obtain ⟨-, -, rfl⟩ | ⟨a, s₁, es₁, hload, rfl, hrest⟩ := Run.of_call h
          · exact nomatch he
          · obtain rfl : a = none := hload.1.trans hrec
            obtain ⟨-, -, rfl⟩ | ⟨b, s₂, es₂, hsave, rfl, hrest'⟩ := Run.of_call hrest
            · cases List.mem_singleton.mp he
              exact nomatch hw
            · refine hkeep hrest' ?_
              rw [hsave.2]
              show (storeAfter s₁.1 (s₁.1.save _)).record ≠ none
              rw [save_ok hrun]
              exact nofun

end Writes

/-- **CRASH-RESUME EQUIVALENCE.**  For every validated graph and closures that are functions of
    their request and never fail: if an uninterrupted start succeeds, then whatever finite
    sequence of calls is cut wherever, branches of a region stepped in any order, the next
    resume that is not cut succeeds with the same reply and leaves the same final record, with
    its state, visit counts and cursor; such a resume exists; a call that was cut after one of
    its store operations leaves a record to resume from; and no agent, tool or supervisor
    closure is ever called for a visit that has a ledger row. -/
theorem crash_resume_equivalent (run : RunRef) (cfg : GraphConfig) (f : Effects) (text : String)
    (hcfg : cfg.Accepted) (hf : f.NonFailing) (es₁ : List (Event Op Op.Res)) (reply : String)
    (trail : List Json) (st₁ : RunStore) (m₁ : CallMemory)
    (hfree : Run (exec run f.closures) (start run cfg text) (RunStore.empty, CallMemory.fresh) es₁
      (.ret ⟨.succeeded, reply, trail⟩) (st₁, m₁)) :
    ∃ last : GraphRunRecord, st₁.record = some last ∧ last.status = .succeeded ∧
      ∀ st, CutTo run cfg text f.closures st →
        (∀ p es q st' m, Call run (fun g t => g = cfg ∧ t = text) (.fresh, p) →
          Run (exec run f.closures) p (st, .fresh) es q (st', m) →
          FreshEffects m.history ∧
            ((∃ e ∈ es, e.1.isWrite = true) → st'.record ≠ none)) ∧
        (st.record ≠ none →
          (∃ es q s r, Run (exec run f.closures) (resume run) (st, .fresh) es q s ∧
            q.outcome? = some r) ∧
          ∀ es q s r, Run (exec run f.closures) (resume run) (st, .fresh) es q s →
            q.outcome? = some r →
            (∃ trail', r = .ok ⟨.succeeded, reply, trail'⟩) ∧ s.1.record = some last) := by
  obtain ⟨k, F, hend, hrecord, rfl, hrun⟩ := ending_of_run hcfg hfree
  refine ⟨finalRecord run cfg F, hrecord, rfl, ?_⟩
  intro st hcut
  have hst := hcut.storeOk hcfg
  refine ⟨?_, ?_⟩
  · intro p es q st' m hc hr
    exact ⟨call_freshEffects hcfg hst hc hr, call_leaves_record hrun hc hr⟩
  · intro hrec
    refine ⟨?_, ?_⟩
    · refine Run.settles ?_ (resume run) (st, CallMemory.fresh)
      intro i s
      exact ⟨_, _, f.handler_exec run i s⟩
    · intro es q s r hr hq
      exact hend.resumed hcfg hf hrun hst hrec hr hq

/-! ## Calls on fixed graphs -/

theorem ret_of_outcome {p : Drive GraphRunOutcome} {o : GraphRunOutcome}
    (h : p.outcome? = some (.ok o)) : p = .ret o := by
  cases p with
  | ret a => cases h; rfl
  | fail e => cases h
  | call i k => cases h
  | fork ws k => cases h

/-- The first `n` steps of a start of the two tools, the first branch before the second. -/
def startedTools (n m : Nat) : Drive GraphRunOutcome × World :=
  play (leftFirst echoing ⟨"t", "r"⟩ n m)
    (start ⟨"t", "r"⟩ forkJoin "go", (RunStore.empty, CallMemory.fresh))

/-- The resume after a cut between the row of the first tool and its slot. -/
def resumedTools : Drive GraphRunOutcome × World :=
  play (leftFirst echoing ⟨"t", "r"⟩ 9 14)
    (resume ⟨"t", "r"⟩, ((startedTools 11 0).2.1, CallMemory.fresh))

theorem startedTools_run (n m : Nat) :
    ∃ es, Run (exec ⟨"t", "r"⟩ echoing.closures) (start ⟨"t", "r"⟩ forkJoin "go")
      (RunStore.empty, CallMemory.fresh) es (startedTools n m).1 (startedTools n m).2 :=
  play_sound _ (leftFirst_exec echoing ⟨"t", "r"⟩ n m) _ _

/-- The resume of the two tools calls only the second one, and ends as the uninterrupted run. -/
theorem crash_resume_equivalent_tools : ∃ last r, (startedTools 14 14).2.1.record = some last ∧
    resumedTools.1.outcome? = some r ∧ resumedTools.2.1.record = some last ∧
    FreshEffects resumedTools.2.2.history := by
  have hfree : (startedTools 14 14).1.outcome?.map (fun r => r.toOption.map (·.status))
      = some (some .succeeded) := by decide +kernel
  obtain ⟨r₁, hr₁, hok⟩ := Option.map_eq_some_iff.mp hfree
  obtain ⟨o, ho, hstatus⟩ := Option.map_eq_some_iff.mp hok
  obtain rfl := toOption_eq_some.mp ho
  obtain ⟨status, reply, trail⟩ := o
  obtain rfl : status = .succeeded := hstatus
  obtain ⟨es₁, hrun₁⟩ := startedTools_run 14 14
  rw [ret_of_outcome hr₁] at hrun₁
  obtain ⟨last, hlast, -, hall⟩ := crash_resume_equivalent ⟨"t", "r"⟩ forkJoin echoing "go" rfl
    echoing_nonFailing es₁ reply trail _ _ hrun₁
  obtain ⟨es₂, hrun₂⟩ := startedTools_run 11 0
  have hcut : CutTo ⟨"t", "r"⟩ forkJoin "go" echoing.closures (startedTools 11 0).2.1 :=
    .call .fresh (.start forkJoin "go" ⟨rfl, rfl⟩) hrun₂
  have hrec : (startedTools 11 0).2.1.record ≠ none := by
    have hsome : (startedTools 11 0).2.1.record.isSome = true := by decide +kernel
    intro hc
    rw [hc] at hsome
    exact nomatch hsome
  obtain ⟨es₃, hrun₃⟩ := play_sound _ (leftFirst_exec echoing ⟨"t", "r"⟩ 9 14) (resume ⟨"t", "r"⟩)
    ((startedTools 11 0).2.1, CallMemory.fresh)
  have hsettled : resumedTools.1.outcome?.isSome = true := by decide +kernel
  obtain ⟨r, hr⟩ := Option.isSome_iff_exists.mp hsettled
  obtain ⟨hcalls, hends⟩ := hall _ hcut
  exact ⟨last, r, hlast, hr, ((hends hrec).2 es₃ _ _ r hrun₃ hr).2,
    (hcalls _ es₃ _ _ _ .resume hrun₃).1⟩

/-- Closures whose approvals are granted. -/
def granting : Effects := { echoing with approval := fun _ => .ok (.decided "yes") }

/-- A start of the gate, for `n` operations. -/
def startedGrant (n : Nat) : Drive GraphRunOutcome × World :=
  play (leftFirst granting ⟨"t", "r"⟩ n 0)
    (start ⟨"t", "r"⟩ gate "", (RunStore.empty, CallMemory.fresh))

/-- The resume after a cut between the recorded decision and its checkpoint, up to its question. -/
def askedGrant : Drive GraphRunOutcome × World :=
  play (leftFirst granting ⟨"t", "r"⟩ 3 0)
    (resume ⟨"t", "r"⟩, ((startedGrant 5).2.1, CallMemory.fresh))

/-- The visits with a ledger row for which a closure was called. -/
def askedWithRow (h : History) : Bool :=
  h.any fun e => match e.2.1.askedAt with
    | some (id, a) => (e.1.ledger id a).isSome
    | none => false

/-- **AN APPROVAL IS ASKED AGAIN**: the uninterrupted start succeeds, but after a cut between the
    recorded decision and its checkpoint the resume calls the approval closure for a visit that
    has a ledger row. -/
theorem gate_asked_again : gate.Accepted ∧ granting.NonFailing ∧
    (∃ es o s, Run (exec ⟨"t", "r"⟩ granting.closures) (start ⟨"t", "r"⟩ gate "")
      (RunStore.empty, CallMemory.fresh) es (.ret o) s ∧ o.status = .succeeded) ∧
    ∃ st es q s, CutTo ⟨"t", "r"⟩ gate "" granting.closures st ∧
      Run (exec ⟨"t", "r"⟩ granting.closures) (resume ⟨"t", "r"⟩) (st, .fresh) es q s ∧
      ∃ e ∈ s.2.history, ∃ id a, e.2.1.askedAt = some (id, a) ∧ e.1.ledger id a ≠ none := by
  have hnon : granting.NonFailing :=
    ⟨fun _ => ⟨_, rfl⟩, fun _ => ⟨_, rfl⟩, fun _ => ⟨_, rfl⟩, fun _ => ⟨_, rfl⟩⟩
  have hstarted : ∀ n, ∃ es, Run (exec ⟨"t", "r"⟩ granting.closures) (start ⟨"t", "r"⟩ gate "")
      (RunStore.empty, CallMemory.fresh) es (startedGrant n).1 (startedGrant n).2 :=
    fun n => play_sound _ (leftFirst_exec granting ⟨"t", "r"⟩ n 0) _ _
  refine ⟨rfl, hnon, ?_, ?_⟩
  · have hfree : (startedGrant 9).1.outcome?.map (fun r => r.toOption.map (·.status))
        = some (some .succeeded) := by decide +kernel
    obtain ⟨r, hr, hok⟩ := Option.map_eq_some_iff.mp hfree
    obtain ⟨o, ho, hstatus⟩ := Option.map_eq_some_iff.mp hok
    obtain rfl := toOption_eq_some.mp ho
    obtain ⟨es, hrun⟩ := hstarted 9
    rw [ret_of_outcome hr] at hrun
    exact ⟨es, o, _, hrun, hstatus⟩
  · obtain ⟨es, hrun⟩ := hstarted 5
    obtain ⟨es', hrun'⟩ := play_sound _ (leftFirst_exec granting ⟨"t", "r"⟩ 3 0)
      (resume ⟨"t", "r"⟩) ((startedGrant 5).2.1, CallMemory.fresh)
    refine ⟨_, es', _, _, .call .fresh (.start gate "" ⟨rfl, rfl⟩) hrun, hrun', ?_⟩
    have htest : askedWithRow askedGrant.2.2.history = true := by decide +kernel
    obtain ⟨e, he, hrow⟩ := List.any_eq_true.mp htest
    refine ⟨e, he, ?_⟩
    split at hrow
    · rename_i id a hat
      refine ⟨id, a, hat, ?_⟩
      intro hc
      rw [hc] at hrow
      exact nomatch hrow
    · exact nomatch hrow

end Greentic
