import GreenticRunner.GraphWalk

/-! # Every walk is a run

    Each edge of a walk is made by one more `resume` call, which is left where it has stored
    its next checkpoint.  So the trunk of some run comes to every place of every walk, and a
    graph keeps its joins inside their regions exactly if no walk comes to one.

    * `visit_may`, `approval_may`, `region_may` — the calls that go on to the next position;
    * `walkTrack`, `walked_stands` — every run follows a walk, every walk is a run;
    * `trunk_avoids_joins` — what this says of the joins. -/

namespace Greentic

open FinMaps CountedPath Resumption

/-! ## The rows of a script -/

/-- Every row is of a visit that `pt` has counted. -/
def Counted (L : Ledger) (pt : Point) : Prop :=
  ∀ id a raw, L id a = some raw → a ≤ pt.visits.count id

section Rows

variable {run : RunRef} {cfg : GraphConfig} {L : Ledger} {P pt pt' : Point} {α : Script} {raw : Json}

/-- A later visit has no row yet. -/
theorem Counted.fresh (h : Counted L P) (hle : P.visits.le pt.visits) :
    L pt.cursor pt.attempt = none := by
  cases hrow : L pt.cursor pt.attempt with
  | none => rfl
  | some raw =>
      have hcount := h _ _ _ hrow
      have hgrown := hle.count_le pt.cursor
      rw [Point.attempt] at hcount
      omega

theorem Counted.mono (h : Counted L pt) (hle : pt.visits.le pt'.visits) : Counted L pt' :=
  fun id a raw hrow => Nat.le_trans (h id a raw hrow) (hle.count_le id)

/-- The row of the visit that was made. -/
theorem Counted.add (h : Counted L pt) {v : Json} {next : String} {state : GraphRunState}
    (hpt : pt' = pt.advance next state) (hle : pt.visits.le pt'.visits) :
    Counted (L.add pt.cursor pt.attempt v) pt' := by
  intro id a raw hrow
  rw [Ledger.add] at hrow
  split at hrow
  · rename_i hkey
    rw [hkey.1, hkey.2, hpt, Point.advance, FinMap.count_insert_self]
  · exact h.mono hle id a raw hrow

/-- The closures record what the script says. -/
theorem Script.recorded_of_rows (hrun : checkSegment "run_id" run.runId = .ok ()) {n : Node}
    (hn : cfg.graph.node pt.cursor = some n) (hk : n.kind.isEffect = true)
    (hrow : α.rows cfg pt = some raw) (hnone : L pt.cursor pt.attempt = none) :
    α.effects.recorded run cfg L pt = some raw := by
  obtain ⟨hid, n', c, hn', hc, rfl⟩ := rows_storable hrow
  rw [hn] at hn'
  cases hn'
  have hc' : α pt.cursor pt.state.messages.length = some c := hc
  have hvalue : (effectOp pt n.kind).bind α.effects.value = some (c.row n.kind) := by
    obtain ⟨_, _, _, _, _, _, hkind⟩ | ⟨_, hkind⟩ | ⟨_, _, _, _, _, hkind⟩ :=
        NodeKind.effect_cases hk <;>
      simp [hkind, effectOp, Effects.value, effects, hc', Choice.row, Except.toOption]
  rw [Effects.recorded, hnone, hrun, hid, Option.none_or]
  show α.effects.row run cfg pt = some (c.row n.kind)
  rw [Effects.row, hn]
  dsimp only
  rw [hvalue, Option.some_or]

/-- Where the script ends, the closures fail and nothing is recorded. -/
theorem Script.told_of_recorded (h : α.effects.recorded run cfg L pt = some raw)
    (hnone : L pt.cursor pt.attempt = none) : ∃ c, α pt.cursor pt.told = some c := by
  cases hα : α pt.cursor pt.told with
  | some c => exact ⟨c, rfl⟩
  | none =>
      have hα' : α pt.cursor pt.state.messages.length = none := hα
      have hrow : α.effects.row run cfg pt = none := by
        rw [Effects.row]
        cases hn : cfg.graph.node pt.cursor with
        | none => rfl
        | some n =>
            dsimp only
            cases n.kind <;> simp [effectOp, askRequest, Effects.value, Effects.decision, effects,
              hα', Except.toOption]
      rw [Effects.recorded, hnone, Option.none_or, hrow, ite_self] at h
      cases h

/-- A branch path over the rows of the script, as the region's ledger will have them. -/
theorem branch_recorded (hrun : checkSegment "run_id" run.runId = .ok ()) (hL : Counted L P)
    {x : String × String} {m : Nat} {b : Point}
    (hp : Steps (BranchStep cfg (α.rows cfg)) (branchStart P x) m b) :
    Steps (BranchStep cfg (α.effects.recorded run cfg L)) (branchStart P x) m b := by
  induction hp with
  | refl => exact .refl
  | tail hp hs ih =>
      refine ih.tail ?_
      cases hs with
      | router n hn hk ha => exact .router n hn hk ha
      | effect n raw hn hk hO ha =>
          have hle : (branchStart P x).visits.le _ := branch_grown hp
          exact .effect n raw hn hk
            (Script.recorded_of_rows hrun hn hk hO (hL.fresh hle)) ha

end Rows

/-! ## A region that keeps to its script -/

section Region

variable {run : RunRef} {cfg : GraphConfig} {f : Effects} {st : RunStore} {P Q : Point} {n : Node}
  {J : String}

theorem ret_of_ok {α : Type} {p : Drive α} {a : α} (h : p.outcome? = some (.ok a)) : p = .ret a := by
  cases p with
  | ret b => cases h; rfl
  | fail e => cases h
  | call i k => cases h
  | fork ws k => cases h

/-- Where the region has a step and its closures answer, nothing goes wrong in it. -/
theorem Region.Lost.not_of_step (hcfg : cfg.Accepted)
    (hrun : checkSegment "run_id" run.runId = .ok ()) (hst : Ledger.WellKeyed run st.ledger)
    (hn : cfg.graph.node P.cursor = some n) (hk : n.kind = .parallel)
    (hJ : findJoinForParallel cfg P.cursor = .ok J) {ends : List BranchCursor}
    (hends : List.Forall₂ (BranchEnd cfg (f.recorded run cfg st.ledger) P J)
      (branchEdges cfg P.cursor) ends)
    (hcap : spentAll P ends = 0 ∨ P.visits.total + spentAll P ends ≤ maxNodeVisits) {next : String}
    (ht : nextLinear cfg J = .ok next)
    (hans : ∀ pt q, BranchStep cfg (f.recorded run cfg st.ledger) pt q → P.visits.le pt.visits →
      f.AnswersAt cfg pt) {e₀ : RunStore × Event Op Op.Res} {s : World} {e : GraphExecError}
    {solo : Prop} (hrep : Replayed run cfg f st.ledger P s.1.ledger)
    (h : Region.Lost (lineSetup run hcfg f st.ledger P solo) P J (World.after e₀ s) e) : False := by
  cases h with
  | unsaved hbad => exact hbad hrun
  | capped hc hover => exact hrep.not_over hcfg .refl hn hk hJ hends hcap hover
  | leave he =>
      have hnext : nextLinear cfg J = .error e := he
      rw [ht] at hnext
      cases hnext
  | fault x m pt hx hp hne hfault =>
      have hmet : Steps (BranchStep cfg (f.recorded run cfg st.ledger)) (branchStart P x) m pt :=
        hrep.branch_steps hcfg .refl hn hk hx hp
      obtain ⟨i, hi⟩ := List.mem_iff_getElem?.mp hx
      obtain ⟨bc, -, hend⟩ := Region.forall₂_at hends hi
      obtain ⟨nj, hnj, hkj⟩ := findJoin_join hJ
      obtain ⟨d, q, hstep, -⟩ := branch_next hend hnj hkj hmet hne
      have hgrown : (branchStart P x).visits.le pt.visits := branch_grown hmet
      refine hfault.no_step (q := q) rfl (hans pt q hstep hgrown) hst ?_ hstep
      intro n' raw hn' hk' hrow
      exact hrep.agrees hcfg (.branch .refl hn hk hx hmet) hn' hk' hrow

/-- **A REGION COMES TO ITS END** and stores the merged position. -/
theorem region_run (hcfg : cfg.Accepted) (hrun : checkSegment "run_id" run.runId = .ok ())
    (hst : Ledger.WellKeyed run st.ledger) (hn : cfg.graph.node P.cursor = some n)
    (hk : n.kind = .parallel) (hJ : findJoinForParallel cfg P.cursor = .ok J)
    {ends : List BranchCursor}
    (hends : List.Forall₂ (BranchEnd cfg (f.recorded run cfg st.ledger) P J)
      (branchEdges cfg P.cursor) ends)
    (hcap : spentAll P ends = 0 ∨ P.visits.total + spentAll P ends ≤ maxNodeVisits) {next : String}
    (ht : nextLinear cfg J = .ok next)
    (hans : ∀ pt q, BranchStep cfg (f.recorded run cfg st.ledger) pt q → P.visits.le pt.visits →
      f.AnswersAt cfg pt) :
    ∃ es trail s, Run (exec run f.closures)
        (driveFrontier run cfg J P (initialFrontier cfg P) true) (st, CallMemory.fresh) es
        (.ret (mergeRegion P ends next, trail)) s ∧
      Replayed run cfg f st.ledger P s.1.ledger ∧
      (lineSetup run hcfg f st.ledger P True).Kept 0 (mergeRegion P ends next) s.1 := by
  have hfr := (Setup.initialFrontier_ok (S := lineSetup run hcfg f st.ledger P True)
    (O := rowAt st.ledger) hn hk hJ).1
  have hserve : ∀ i s, ∃ r s', exec run f.closures i s r s' :=
    fun i s => ⟨_, _, f.handler_exec run i s⟩
  obtain ⟨es, q, s, r, hruns, hq⟩ := Run.settles hserve
    (driveFrontier run cfg J P (initialFrontier cfg P) true) (st, CallMemory.fresh)
  obtain ⟨hrep, hpost, hout⟩ :=
    region_outcome True (fun hp => by cases hp) hcfg hn hk hJ hfr hruns hq
  cases r with
  | error e => exact (hout.not_of_step hcfg hrun hst hn hk hJ hends hcap ht hans hrep).elim
  | ok v =>
      have hpath : Steps (TrunkStep cfg (rowAt s.1.ledger)) P 1 v.1 := hpost.came.path
      have hv : v.1 = mergeRegion P ends next := by
        cases hpath with
        | tail h0 hs =>
            cases h0
            exact TrunkStep.det cfg _ _ _ _ (hrep.trunk_step hcfg .refl hs)
              (.region n J next ends hn hk hJ hends ht hcap rfl)
      obtain ⟨pt, trail⟩ := v
      dsimp only at hv
      subst hv
      refine ⟨es, trail, s, ?_, hrep, hpost.kept trivial⟩
      rw [← ret_of_ok hq]
      exact hruns

end Region

/-! ## The ledger after a scripted region -/

/-- The trunk never loses a message. -/
theorem TrunkStep.told_le {cfg : GraphConfig} {O : Oracle} {pt pt' : Point}
    (h : TrunkStep cfg O pt pt') : pt.told ≤ pt'.told := by
  cases h with
  | work h =>
      obtain ⟨e, -, state, news, heq, hmsg⟩ := h.advanced
      rw [heq, Point.told, Point.told]
      show pt.state.messages.length ≤ state.messages.length
      rw [hmsg, List.length_append]
      omega
  | approval n raw b next hn hk hr hb ht heq => rw [heq]; exact Nat.le_refl _
  | join n next hn hk ht heq => rw [heq]; exact Nat.le_refl _
  | region n J next ends hn hk hJ hends ht hcap heq =>
      obtain ⟨hmsg, -⟩ := mergeRegion_fields (P := pt) ends next
      rw [heq, Point.told, Point.told, hmsg, List.length_append]
      omega

theorem trunk_told_le {cfg : GraphConfig} {O : Oracle} {a b : Point} {m : Nat}
    (h : Steps (TrunkStep cfg O) a m b) : a.told ≤ b.told := by
  induction h with
  | refl => exact Nat.le_refl _
  | tail _ hs ih => exact Nat.le_trans ih hs.told_le

theorem branch_told_le {cfg : GraphConfig} {O : Oracle} {a b : Point} {m : Nat}
    (h : Steps (BranchStep cfg O) a m b) : a.told ≤ b.told := by
  induction h with
  | refl => exact Nat.le_refl _
  | tail _ hs ih => exact Nat.le_trans ih (TrunkStep.work hs).told_le

section Ledgers

variable {run : RunRef} {cfg : GraphConfig} {L L' : Ledger} {P Q : Point} {α : Script}

/-- Where the script ends before `Q`, no visit from `Q` on has a row yet. -/
theorem Replayed.counted (hrep : Replayed run cfg α.effects L P L') (hL : Counted L P)
    (hs : TrunkStep cfg (α.effects.recorded run cfg L) P Q)
    (hα : ∀ id l c, α id l = some c → l < Q.told) : Counted L' Q := by
  intro id a raw hrow
  rcases hrep.rows id a raw hrow with hold | ⟨k, P', pt, n, hm, rfl, rfl, hn, hk, hrec⟩
  · exact Nat.le_trans (hL id a raw hold) (hs.grown.count_le id)
  · rcases hm.path.cases_head with ⟨rfl, rfl⟩ | ⟨d, Q', rfl, hs', hrest⟩
    · exact hm.counted hn hk hs
    · -- a position behind `Q` has all the messages of `Q`, and the script is silent there
      obtain rfl : Q' = Q := TrunkStep.det cfg _ _ _ _ hs' hs
      have hgrown : P.visits.le pt.visits := (hs.grown.trans (trunk_grown hrest)).trans hm.grown
      obtain ⟨c, hc⟩ := Script.told_of_recorded hrec (hL.fresh hgrown)
      have hlt := hα _ _ _ hc
      have hle : Q'.told ≤ pt.told := by
        refine Nat.le_trans (trunk_told_le hrest) ?_
        cases hm with
        | trunk _ => exact Nat.le_refl _
        | branch _ _ _ _ hp =>
            have hstart : (branchStart P' _).told ≤ pt.told := branch_told_le hp
            exact hstart
      omega

/-- The closures of a script answer where it has an answer. -/
theorem Script.answersAt {pt : Point} {c : Choice} (hc : α pt.cursor pt.told = some c) :
    α.effects.AnswersAt cfg pt := by
  have hc' : α pt.cursor pt.state.messages.length = some c := hc
  intro n i r e hn hi hr he
  cases hk : n.kind with
  | agent systemPrompt model tools provider agentRef inheritFrom =>
      rw [hk] at hi
      cases hi
      have hr' : r = .ok ⟨"", c.resolves⟩ := by
        have hans : r = α.effects.agentTurn _ := hr
        rw [hans, effects]
        simp only [hc']
      rw [hr'] at he
      cases he
  | tool toolName =>
      rw [hk] at hi
      cases hi
      have hr' : r = .ok .null := by
        have hans : r = α.effects.tool _ := hr
        rw [hans, effects]
        simp only [hc']
      rw [hr'] at he
      cases he
  | supervisor systemPrompt model routes provider agentRef =>
      rw [hk] at hi
      cases hi
      have hr' : r = .ok ⟨c.branch, ""⟩ := by
        have hans : r = α.effects.supervisor _ := hr
        rw [hans, effects]
        simp only [hc']
      rw [hr'] at he
      cases he
  | router _ => rw [hk] at hi; cases hi
  | respond => rw [hk] at hi; cases hi
  | parallel => rw [hk] at hi; cases hi
  | join => rw [hk] at hi; cases hi
  | approval _ _ _ _ _ => rw [hk] at hi; cases hi

/-- They answer wherever a region entered at `P` has a step. -/
theorem Script.answers_steps (hL : Counted L P) {pt q : Point}
    (hs : BranchStep cfg (α.effects.recorded run cfg L) pt q) (hle : P.visits.le pt.visits) :
    α.effects.AnswersAt cfg pt := by
  cases hs with
  | effect n raw hn hk hO ha =>
      obtain ⟨c, hc⟩ := told_of_recorded hO (hL.fresh hle)
      exact answersAt hc
  | router n hn hk ha =>
      obtain ⟨maxIterations, hkind⟩ := NodeKind.router_of hk
      intro n' i r e hn' hi hr he
      rw [hn] at hn'
      cases hn'
      rw [hkind] at hi
      cases hi

end Ledgers

/-! ## Calls that come to a position -/

/-- The store holds the position, and no row of a later visit. -/
structure Stands (run : RunRef) (cfg : GraphConfig) (pt : Point) (st : RunStore) : Prop where
  record : ∃ rec, st.record = some rec ∧ rec.frontier = none ∧ rec.status.terminal = false ∧
    rec.graph = cfg ∧ rec.point = pt
  counted : Counted st.ledger pt

section Calls

variable {run : RunRef} {cfg : GraphConfig} {st : RunStore} {s : World} {pt pt' : Point} {n : Node}
  {Q : Drive GraphRunOutcome → World → Prop}

theorem call_may {α : Type} {i : Op} {r : i.Res} {k : i.Res → Drive α} {Q : Drive α → World → Prop}
    (h : answers run .arbitrary s i r)
    (hrest : Main.May (exec run .arbitrary) (k r) (note s.1 (effect run s i) ⟨i, r⟩) Q) :
    Main.May (exec run .arbitrary) (.call i k) s Q :=
  .call ⟨h, rfl⟩ hrest

/-- A call may store a record of the run. -/
theorem save_may {α : Type} {rec : GraphRunRecord} {k : Unit → Drive α} {Q : Drive α → World → Prop}
    (hrun : checkSegment "run_id" rec.runId = .ok ())
    (h : ∀ m, Main.May (exec run .arbitrary) (k ()) (⟨some rec, s.1.ledger⟩, m) Q) :
    Main.May (exec run .arbitrary) (saveRecord rec >>= k) s Q := by
  have hsave : s.1.save rec = .ok ⟨some rec, s.1.ledger⟩ := save_ok hrun
  have heffect : effect run s (Op.save rec) = (⟨some rec, s.1.ledger⟩, s.2) := by
    show (storeAfter s.1 (s.1.save rec), s.2) = _
    rw [hsave]
    rfl
  refine call_may (i := Op.save rec) (r := Except.ok ()) ?_ ?_
  · show Except.ok () = (s.1.save rec).map fun _ => ()
    rw [hsave]
    rfl
  · rw [heffect]
    exact h _

section Recorded

variable (hrun : checkSegment "run_id" run.runId = .ok ())

include hrun

/-- A call may record a visit that has no row. -/
theorem record_may {α : Type} {id : String} {attempt : Nat} {v : Json}
    {k : Except CheckpointError NodeVisitOutcome → Drive α} {Q : Drive α → World → Prop}
    (hid : Storable id)
    (hnone : s.1.ledger id attempt = none)
    (h : ∀ m, Main.May (exec run .arbitrary) (k (.ok .recorded))
      (⟨s.1.record, s.1.ledger.add id attempt v⟩, m) Q) :
    Main.May (exec run .arbitrary) (.call (Op.recordNodeVisit id attempt v) k) s Q := by
  have hrec : s.1.recordNodeVisit run.runId id attempt v
      = .ok (.recorded, ⟨s.1.record, s.1.ledger.add id attempt v⟩) := by
    rw [RunStore.recordNodeVisit, hrun, hid]
    dsimp only [bind, Except.bind]
    rw [hnone]
    rfl
  have heffect : effect run s (Op.recordNodeVisit id attempt v)
      = (⟨s.1.record, s.1.ledger.add id attempt v⟩, s.2) := by
    show (storeAfter s.1 ((s.1.recordNodeVisit run.runId id attempt v).map (·.2)), s.2) = _
    rw [hrec]
    rfl
  refine call_may (r := Except.ok .recorded) ?_ ?_
  · show _ = (s.1.recordNodeVisit run.runId id attempt v).map (·.1)
    rw [hrec]
    rfl
  · rw [heffect]
    exact h _

/-- An effect without a row may have any answer of its closure recorded. -/
theorem visitEffect_may {α β : Type} {i : Op} {a : i.Res} {g : i.Res → Exec Json} {v : Json} {id : String}
    {attempt : Nat} {f : Json × Bool → Exec β} {k : β → Drive α} {Q : Drive α → World → Prop}
    (hid : Storable id)
    (hnone : s.1.ledger id attempt = none) (hask : ∀ s, answers run .arbitrary s i a)
    (hkeep : ∀ s, effect run s i = s) (hg : g a = .ret v)
    (h : ∀ m, Main.May (exec run .arbitrary) (Main.lift (f (v, false)) >>= k)
      (⟨s.1.record, s.1.ledger.add id attempt v⟩, m) Q) :
    Main.May (exec run .arbitrary) (Main.lift (visitEffect id attempt (.call i g) >>= f) >>= k) s Q := by
  refine call_may (i := Op.loadNodeVisit id attempt) (r := (none : Option Json)) hnone.symm ?_
  refine call_may (i := i) (r := a) (hask _) ?_
  beta_reduce
  rw [hkeep, hg]
  exact record_may (s := (s.1, _)) hrun hid hnone h

/-- The agent arm, with any answer of its closure. -/
theorem visitAgent_may {α : Type} {systemPrompt model : String} {tools : List String}
    {provider agentRef inheritFrom : Option String} {resolves : Bool} {k : Point × Json → Drive α}
    {Q : Drive α → World → Prop}
    (hid : Storable pt.cursor) (hnone : s.1.ledger pt.cursor pt.attempt = none)
    (ha : afterAgent cfg pt (AgentTurnResult.mk "" resolves).toValue = .ok pt')
    (h : ∀ v entry m, Main.May (exec run .arbitrary) (k (pt', entry))
      (⟨s.1.record, s.1.ledger.add pt.cursor pt.attempt v⟩, m) Q) :
    Main.May (exec run .arbitrary)
      (Main.lift (visitAgent cfg none pt systemPrompt model tools provider agentRef inheritFrom) >>= k)
      s Q := by
  refine visitEffect_may (i := Op.agentTurn pt.attempt ⟨pt.cursor, systemPrompt, model, pt.state,
    provider, tools, agentRef, inheritFrom⟩) (a := Except.ok ⟨"", resolves⟩) hrun hid hnone
    (fun _ => trivial) (fun _ => rfl) rfl ?_
  intro m
  show Main.May _ (Main.lift (Prog.ofExcept (afterAgent cfg pt _) >>= _) >>= k) _ Q
  rw [ha]
  exact h _ _ m

/-- The tool arm. -/
theorem visitTool_may {α : Type} {toolName : String} {k : Point × Json → Drive α}
    {Q : Drive α → World → Prop}
    (hid : Storable pt.cursor) (hnone : s.1.ledger pt.cursor pt.attempt = none)
    (ha : afterTool cfg pt .null = .ok pt')
    (h : ∀ v entry m, Main.May (exec run .arbitrary) (k (pt', entry))
      (⟨s.1.record, s.1.ledger.add pt.cursor pt.attempt v⟩, m) Q) :
    Main.May (exec run .arbitrary) (Main.lift (visitTool cfg none pt toolName) >>= k) s Q := by
  refine visitEffect_may (i := Op.tool pt.attempt ⟨pt.cursor, toolName, pt.state⟩)
    (a := Except.ok Json.null) hrun hid hnone (fun _ => trivial) (fun _ => rfl) rfl ?_
  intro m
  show Main.May _ (Main.lift (Prog.ofExcept (afterTool cfg pt _) >>= _) >>= k) _ Q
  rw [ha]
  exact h _ _ m

/-- The supervisor arm. -/
theorem visitSupervisor_may {α : Type} {systemPrompt model branch : String}
    {routes : List SupervisorRoute} {provider agentRef : Option String} {k : Point × Json → Drive α}
    {chosen : String} {Q : Drive α → World → Prop}
    (hid : Storable pt.cursor) (hnone : s.1.ledger pt.cursor pt.attempt = none)
    (ha : afterSupervisor cfg routes (supervisorMessage none) pt (SupervisorResult.mk branch "").toValue
      = .ok (pt', chosen))
    (h : ∀ v entry m, Main.May (exec run .arbitrary) (k (pt', entry))
      (⟨s.1.record, s.1.ledger.add pt.cursor pt.attempt v⟩, m) Q) :
    Main.May (exec run .arbitrary)
      (Main.lift (visitSupervisor cfg none pt systemPrompt model routes provider agentRef) >>= k) s Q := by
  refine visitEffect_may (i := Op.supervisor pt.attempt ⟨pt.cursor, systemPrompt, model, routes, pt.state,
    provider, agentRef⟩) (a := Except.ok ⟨branch, ""⟩) hrun hid hnone (fun _ => trivial)
    (fun _ => rfl) rfl ?_
  intro m
  show Main.May _ (Main.lift (Prog.ofExcept (afterSupervisor cfg routes _ pt _) >>= _) >>= k) _ Q
  rw [ha]
  exact h _ _ m

/-- What the trunk stores after a visit. -/
theorem save_stands {fuel : Nat} {trail : List Json}
    (hc : Counted s.1.ledger pt')
    (h : ∀ st m, Stands run cfg pt' st →
      Main.May (exec run .arbitrary) (drive run cfg fuel pt' trail) (st, m) Q) :
    Main.May (exec run .arbitrary) (do
      saveRecord (buildRecord run.runId cfg pt' .running)
      drive run cfg fuel pt' trail) s Q := by
  refine save_may hrun fun m => h _ m ⟨⟨_, rfl, rfl, rfl, rfl, rfl⟩, hc⟩

/-- **ONE VISIT OF THE TRUNK** stores the position behind an edge. -/
theorem visit_may {fuel : Nat} {trail : List Json} {c : Choice}
    (hc : Counted s.1.ledger pt)
    (hv : Visited cfg pt c pt') (h : ∀ trail st m, Stands run cfg pt' st →
      Main.May (exec run .arbitrary) (drive run cfg fuel pt' trail) (st, m) Q) :
    Main.May (exec run .arbitrary) (drive run cfg (fuel + 1) pt trail) s Q := by
  have hstep : BranchStep cfg (Script.rows (fun _ _ => some c) cfg) pt pt' := hv.step rfl
  have hle : pt.visits.le pt'.visits := (TrunkStep.work hstep).grown
  obtain ⟨e, -, state, news, hpt, -⟩ := hstep.advanced
  have hfresh : s.1.ledger pt.cursor pt.attempt = none := hc.fresh (FinMap.le.refl _)
  have hadd : ∀ v entry m, Main.May (exec run .arbitrary) (do
      saveRecord (buildRecord run.runId cfg pt' .running)
      drive run cfg fuel pt' (trail ++ [entry]))
      (⟨s.1.record, s.1.ledger.add pt.cursor pt.attempt v⟩, m) Q := by
    intro v entry m
    exact save_stands (s := (_, m)) hrun (hc.add hpt hle) (h _)
  cases hv with
  | router n hn hk ha hm =>
      obtain ⟨maxIterations, hkind⟩ := NodeKind.router_of hk
      rw [drive, hn]
      dsimp only
      refine call_may (i := Op.visit .trunk pt.cursor pt.attempt) (r := ()) trivial ?_
      rw [hkind]
      dsimp only
      rw [visitRouter, ha]
      exact save_stands hrun (hc.mono hle) (h _)
  | effect n hn hk hid ha hm =>
      rw [drive, hn]
      dsimp only
      refine call_may (i := Op.visit .trunk pt.cursor pt.attempt) (r := ()) trivial ?_
      obtain ⟨_, _, _, _, _, _, hkind⟩ | ⟨_, hkind⟩ | ⟨_, _, routes, _, _, hkind⟩ :=
        NodeKind.effect_cases hk
      · rw [hkind] at ha ⊢
        exact visitAgent_may (s := (s.1, _)) hrun hid hfresh ha hadd
      · rw [hkind] at ha ⊢
        exact visitTool_may (s := (s.1, _)) hrun hid hfresh ha hadd
      · rw [hkind, effectAfter] at ha
        rw [hkind]
        cases hs : afterSupervisor cfg routes (supervisorMessage none) pt _ with
        | error e => rw [hs] at ha; cases ha
        | ok x =>
            rw [hs] at ha
            cases ha
            exact visitSupervisor_may (s := (s.1, _)) hrun hid hfresh hs hadd

/-- An approval, with any decision that has an edge. -/
theorem approval_may {fuel : Nat} {trail : List Json} {label next : String}
    (hc : Counted s.1.ledger pt)
    (hn : cfg.graph.node pt.cursor = some n) (hk : n.kind.isApproval = true) (hid : Storable pt.cursor)
    (ht : cfg.graph.branchTarget pt.cursor label = some next)
    (h : ∀ trail st m, Stands run cfg (pt.advance next pt.state) st →
      Main.May (exec run .arbitrary) (drive run cfg fuel (pt.advance next pt.state) trail) (st, m) Q) :
    Main.May (exec run .arbitrary) (drive run cfg (fuel + 1) pt trail) s Q := by
  have hle : pt.visits.le (pt.advance next pt.state).visits := pt.visits.le_insert_succ pt.cursor
  obtain ⟨title, mode, riskThreshold, confidenceThreshold, deadlineMs, hkind⟩ :=
    NodeKind.approval_of hk
  rw [drive, hn]
  dsimp only
  refine call_may (i := Op.visit .trunk pt.cursor pt.attempt) (r := ()) trivial ?_
  rw [hkind]
  refine call_may (i := Op.approval pt.attempt ⟨run.runId, pt.cursor, run.tenantId, title, mode,
    riskThreshold, confidenceThreshold, deadlineMs, pt.state⟩) (r := Except.ok (.decided label))
    trivial ?_
  dsimp only [Main.bind]
  rw [ht]
  refine record_may (s := (s.1, _)) hrun hid (hc.fresh (FinMap.le.refl _)) fun m => ?_
  exact save_stands (s := (_, m)) hrun (hc.add rfl hle) (h _)

end Recorded

/-- A `resume` call drives the trunk from the position it finds. -/
theorem resume_may (hcfg : cfg.Accepted) (hst : Stands run cfg pt st)
    (h : ∀ rec, Main.May (exec run .arbitrary) (drive run cfg maxNodeVisits pt [])
      (World.after (st, ⟨Op.load, some rec⟩) (st, .fresh)) Q) :
    Main.May (exec run .arbitrary) (resume run) (st, .fresh) Q := by
  obtain ⟨rec, hrec, hfront, hlive, hgraph, rfl⟩ := hst.record
  refine call_may (i := Op.load) (r := some rec) hrec.symm ?_
  have hdrive : driveFromRecord run rec = drive run cfg maxNodeVisits rec.point [] := by
    have hok : cfg.fromJson = .ok cfg := hcfg
    rw [driveFromRecord, hgraph, hok, hfront]
    rfl
  cases hs : rec.status with
  | succeeded => rw [hs] at hlive; cases hlive
  | failed => rw [hs] at hlive; cases hlive
  | running =>
      dsimp only [Main.bind]
      rw [hs]
      dsimp only
      rw [hdrive]
      exact h rec
  | awaitingInput =>
      dsimp only [Main.bind]
      rw [hs]
      dsimp only
      rw [hdrive]
      exact h rec

/-- A region whose branches keep to a script stores the position behind it. -/
theorem region_may (hcfg : cfg.Accepted) (hrun : checkSegment "run_id" run.runId = .ok ())
    (hst : Stands run cfg pt st) (hkeys : Ledger.WellKeyed run st.ledger) {J next : String}
    (hn : cfg.graph.node pt.cursor = some n) (hk : n.kind = .parallel)
    (hJ : findJoinForParallel cfg pt.cursor = .ok J) {α : Script} {slots : List BranchCursor}
    (hslots : List.Forall₂ (BranchEnd cfg (α.rows cfg) pt J) (branchEdges cfg pt.cursor) slots)
    (hcap : spentAll pt slots = 0 ∨ pt.visits.total + spentAll pt slots ≤ maxNodeVisits)
    (ht : nextLinear cfg J = .ok next)
    (hα : ∀ id l c, α id l = some c → l < (mergeRegion pt slots next).told) :
    Main.May (exec run .arbitrary) (resume run) (st, .fresh)
      fun _ t => Stands run cfg (mergeRegion pt slots next) t.1 := by
  have hends : List.Forall₂ (BranchEnd cfg (α.effects.recorded run cfg st.ledger) pt J)
      (branchEdges cfg pt.cursor) slots := by
    refine hslots.imp fun x bc hend => ?_
    obtain ⟨hlabel, hcur, m, hp⟩ := hend
    exact ⟨hlabel, hcur, m, branch_recorded hrun hst.counted hp⟩
  have hstep : TrunkStep cfg (α.effects.recorded run cfg st.ledger) pt (mergeRegion pt slots next) :=
    .region n J next slots hn hk hJ hends ht hcap rfl
  obtain ⟨es, trail, s, hregion, hrep, hkept⟩ := region_run hcfg hrun hkeys hn hk hJ hends hcap ht
    fun pt' q hs hle => Script.answers_steps hst.counted hs hle
  refine resume_may hcfg hst fun rec => ?_
  let loaded : RunStore × Event Op Op.Res := (st, ⟨Op.load, some rec⟩)
  let visited : RunStore × Event Op Op.Res := (st, ⟨Op.visit .trunk pt.cursor pt.attempt, ()⟩)
  show Main.May _ (drive run cfg (63 + 1) pt []) _ _
  rw [drive, hn]
  dsimp only
  refine call_may (i := Op.visit .trunk pt.cursor pt.attempt) (r := ()) trivial ?_
  rw [hk]
  dsimp only
  rw [runParallelRegion, hJ]
  have hrun₁ := Run.map (fun w => World.after loaded (World.after visited w))
    (fun i w r w' he => exec_after run _ loaded i _ r _ (exec_after run _ visited i w r w' (exec_arbitrary he)))
    hregion
  refine Main.May.run (hrun₁.bind _) (Main.May.done ?_)
  obtain ⟨rec', hrec', hfront, hlive, hgraph, hpath⟩ := hkept
  rcases hpath.cases_head with ⟨-, heq⟩ | ⟨d, _, hd, -⟩
  · exact ⟨⟨rec', hrec', hfront, hlive, hgraph, heq⟩, hrep.counted hst.counted hstep hα⟩
  · omega

/-- **EVERY EDGE IS MADE BY A CALL** that finds the position in front of it. -/
theorem edge_may (hcfg : cfg.Accepted) (hrun : checkSegment "run_id" run.runId = .ok ())
    (hst : Stands run cfg pt st) (hkeys : Ledger.WellKeyed run st.ledger) (hoff : ¬ IsJoin cfg pt.cursor)
    {q : Spot} (he : TrunkEdge cfg pt.spot q) :
    Main.May (exec run .arbitrary) (resume run) (st, .fresh)
      fun _ t => ∃ pt', pt'.spot = q ∧ Stands run cfg pt' t.1 := by
  cases he with
  | work he =>
      obtain ⟨c, pt', hv, hspot⟩ := he.lift
      refine resume_may hcfg hst fun rec => ?_
      exact visit_may (s := (st, _)) hrun hst.counted hv
        fun trail st' m hst' => .done ⟨pt', hspot, hst'⟩
  | approval n label next hn hk hid ht =>
      refine resume_may hcfg hst fun rec => ?_
      exact approval_may (s := (st, _)) hrun hst.counted hn hk hid ht
        fun trail st' m hst' => .done ⟨_, advance_spot next pt.state rfl rfl, hst'⟩
  | join n next hn hk ht => exact absurd ⟨n, hn, hk⟩ hoff
  | region n J next ends hn hk hJ hends hcap ht =>
      obtain ⟨α, slots, hslots, hcap', hspot, hα⟩ := lift_region hcfg hn hk hJ hends hcap ht
      obtain ⟨es, p, t, hr, hst'⟩ := region_may hcfg hrun hst hkeys hn hk hJ hslots hcap' ht hα
      exact ⟨es, p, t, hr, _, hspot, hst'⟩

/-- A `start` call stores the entry. -/
theorem start_may (hrun : checkSegment "run_id" run.runId = .ok ()) :
    Main.May (exec run .arbitrary) (start run cfg "") (RunStore.empty, .fresh)
      fun _ t => Stands run cfg (startPoint cfg "") t.1 := by
  refine call_may (i := Op.load) (r := (none : Option GraphRunRecord)) rfl ?_
  refine save_may hrun fun m => .done ⟨⟨_, rfl, rfl, rfl, rfl, rfl⟩, ?_⟩
  intro id a raw hrow
  cases hrow

end Calls

/-! ## Runs and walks -/

section Walks

variable {run : RunRef} {cfg : GraphConfig} {C : Closures}

/-- The trunk is where a walk leads. -/
def walkTrack (run : RunRef) {cfg : GraphConfig} (hcfg : cfg.Accepted) (C : Closures) :
    Track run cfg C where
  Tracked := True
  Present := False
  Good := Ledger.WellKeyed run
  On := fun _ pt => Walked cfg pt.spot
  Start := fun _ => True
  mono := fun _ h => h
  start := fun _ => .refl
  step := fun hgood h hs => h.tail (hs.trunkEdge hcfg fun _ _ hrow => (hgood _ _ _ hrow).2)
  write := by
    intro L pt n v hgood _ _ _ hrun hid _ id a raw hrow
    rw [Ledger.add] at hrow
    split at hrow
    · rename_i hkey
      rw [hkey.1]
      exact ⟨hrun, hid⟩
    · exact hgood id a raw hrow

/-- The cursor of a stored record is where a walk leads. -/
theorem RecordOk.walked {hcfg : cfg.Accepted} {L : Ledger} {rec : GraphRunRecord}
    (h : RecordOk (walkTrack run hcfg C) L rec) : ∃ p, Walked cfg p ∧ p.node = rec.cursor := by
  have h2 := h.2.2
  cases hst : rec.status with
  | succeeded =>
      rw [hst] at h2
      obtain ⟨F, hF, -, hrec⟩ := h2
      rw [hrec]
      exact ⟨F.spot, hF, rfl⟩
  | failed => rw [hst] at h2; exact ⟨rec.point.spot, h2.1, rfl⟩
  | running => rw [hst] at h2; exact ⟨rec.point.spot, h2.1, rfl⟩
  | awaitingInput => rw [hst] at h2; exact ⟨rec.point.spot, h2.1, rfl⟩

/-- No trunk visit of any call is at a join, and no stored record has its cursor on one. -/
def OffJoins (cfg : GraphConfig) (c : System) : Prop :=
  (∀ (j : Nat) (m : CallMemory) (p : Drive GraphRunOutcome),
    c.threads[j]? = some (some (m, p)) → ∀ e ∈ m.history, ∀ id attempt,
      e.2.1 = .visit .trunk id attempt → ¬ IsJoin cfg id) ∧
  ∀ rec, c.store.record = some rec → ¬ IsJoin cfg rec.cursor

/-- The systems of calls on a run of the graph. -/
abbrev RunsTo (run : RunRef) (cfg : GraphConfig) (C : Closures) (c : System) : Prop :=
  Pool.Reach (exec run C) (Call run fun g _ => g = cfg) ⟨.empty, []⟩ c

theorem walkTrack_serves (hcfg : cfg.Accepted) :
    (sharedSetup hcfg (walkTrack run hcfg C)).Serves fun g _ => g = cfg :=
  ⟨trivial, fun _ _ hg => Or.inr ⟨hg, trivial⟩⟩

theorem walkTrack_empty (hcfg : cfg.Accepted) : StoreOk (walkTrack run hcfg C) RunStore.empty :=
  ⟨fun _ _ _ h => (by cases h), fun _ _ h => (by cases h), fun h => h.elim⟩

theorem RunsTo.storeOk (hcfg : cfg.Accepted) {c : System} (hr : RunsTo run cfg C c) :
    StoreOk (walkTrack run hcfg C) c.store :=
  (Setup.reach (walkTrack_serves hcfg) id (Setup.systemOk_idle (walkTrack_empty hcfg)) hr).1.1

/-- Where no walk comes to a join, no run does. -/
theorem RunsTo.offJoins (hcfg : cfg.Accepted) (hoff : ∀ p, Walked cfg p → ¬ IsJoin cfg p.node)
    {c : System} (hr : RunsTo run cfg C c) : OffJoins cfg c := by
  refine ⟨?_, ?_⟩
  · intro j m p hj
    refine Setup.reach_history (S := sharedSetup hcfg (walkTrack run hcfg C))
      (I := fun s => ∀ e ∈ s.2.history, ∀ id attempt, e.2.1 = .visit .trunk id attempt →
        ¬ IsJoin cfg id) (walkTrack_serves hcfg) id ?_ ?_ ?_
      (Setup.systemOk_idle (walkTrack_empty hcfg)) rfl hr hj
    · intro st e he
      cases he
    · -- the operation that was just noted is a trunk visit where a walk leads
      intro s ev s' hI _ htold e he id attempt hop
      rw [htold.noted] at he
      rcases List.mem_append.mp he with hold | hnew
      · exact hI e hold id attempt hop
      · have heq : e = (s.1, ev) := List.mem_singleton.mp hnew
        subst heq
        have hfact := htold.fact
        rw [hop] at hfact
        obtain ⟨X, k, pt, m, hcame, hcur, -⟩ := hfact
        rw [← hcur]
        exact hoff pt.spot hcame.on
    · intro a b m _ hI
      exact hI
  · intro rec hrec
    obtain ⟨p, hp, hnode⟩ := ((hr.storeOk hcfg).record trivial rec hrec).walked
    rw [← hnode]
    exact hoff p hp

/-- **EVERY WALK IS A RUN**, as long as no run comes to a join. -/
theorem walked_stands (hcfg : cfg.Accepted) (hrun : checkSegment "run_id" run.runId = .ok ())
    (hoff : ∀ c, RunsTo run cfg .arbitrary c → OffJoins cfg c) {p : Spot} (hp : Walked cfg p) :
    ∃ c pt, RunsTo run cfg .arbitrary c ∧ pt.spot = p ∧ Stands run cfg pt c.store := by
  induction hp with
  | refl =>
      have hidle : RunsTo run cfg .arbitrary ⟨.empty, []⟩ := .refl
      obtain ⟨c, q, m, hr, hst⟩ := hidle.may (Call.start cfg "" rfl) (start_may hrun)
      exact ⟨c, startPoint cfg "", hr, rfl, hst⟩
  | tail _ he ih =>
      obtain ⟨c, pt, hr, rfl, hst⟩ := ih
      obtain ⟨rec, hrec, -, -, -, hpoint⟩ := hst.record
      have hnj : ¬ IsJoin cfg pt.cursor := by
        rw [← hpoint]
        exact (hoff c hr).2 rec hrec
      obtain ⟨d, q, m, hr', pt', hspot, hst'⟩ :=
        hr.may .resume (edge_may hcfg hrun hst (hr.storeOk hcfg).good hnj he)
      exact ⟨d, pt', hr', hspot, hst'⟩

/-- **THE TRUNK KEEPS OFF JOINS** in every run of every run id with any closures exactly if
    no walk over the graph comes to one. -/
theorem trunk_avoids_joins (cfg : GraphConfig) (hcfg : cfg.Accepted) :
    (∀ run C c, RunsTo run cfg C c → OffJoins cfg c) ↔ ∀ p, Walked cfg p → ¬ IsJoin cfg p.node := by
  constructor
  · intro h p hp
    obtain ⟨c, pt, hr, rfl, hst⟩ :=
      @walked_stands ⟨"", ""⟩ cfg hcfg rfl (fun c hr => h _ _ c hr) p hp
    obtain ⟨rec, hrec, -, -, -, hpoint⟩ := hst.record
    have hnj := (h _ _ c hr).2 rec hrec
    rw [show rec.cursor = pt.cursor from congrArg Point.cursor hpoint] at hnj
    exact hnj
  · intro h run C c hr
    exact hr.offJoins hcfg h

end Walks

/-! ## Two graphs that differ in a limit -/

section Inversion

variable {cfg : GraphConfig} {p q : Spot} {n : Node}

/-- Where an edge of the trunk leads, by the kind of the node that it leaves. -/
theorem TrunkEdge.leads (hn : cfg.graph.node p.node = some n) (h : TrunkEdge cfg p q) :
    match n.kind with
    | .parallel => ∃ J, findJoinForParallel cfg p.node = .ok J ∧ nextLinear cfg J = .ok q.node
    | .router maxIterations => cfg.graph.branchTarget p.node
        (if p.resolved || p.iterations ≥ maxIterations then "resolved" else "loop") = some q.node
    | .respond => False
    | _ => True := by
  have hsame : ∀ {n' : Node}, cfg.graph.node p.node = some n' → n' = n :=
    fun hn' => Option.some.inj (hn'.symm.trans hn)
  cases h with
  | region n' J next ends hn' hk hJ hends hcap ht =>
      rw [← hsame hn', hk]
      exact ⟨J, hJ, ht⟩
  | approval n' label next hn' hk hid ht =>
      obtain ⟨_, _, _, _, _, hkind⟩ := NodeKind.approval_of hk
      rw [← hsame hn', hkind]
      trivial
  | join n' next hn' hk ht =>
      rw [← hsame hn', hk]
      trivial
  | work h =>
      cases h with
      | agent n' _ _ _ _ _ _ _ _ hn' hk _ _ => rw [← hsame hn', hk]; trivial
      | tool n' _ _ hn' hk _ _ => rw [← hsame hn', hk]; trivial
      | router n' _ _ hn' hk ht => rw [← hsame hn', hk]; exact ht
      | supervisor n' _ _ _ _ _ _ _ hn' hk _ _ _ => rw [← hsame hn', hk]; trivial

end Inversion

/-- `loopBack` with a router that never takes its loop. -/
def loopNever : GraphConfig where
  schemaVersion := 2
  graph :=
    { loopBack.graph with
      nodes := [⟨"fan", .parallel⟩, ⟨"left", .tool "t"⟩, ⟨"right", .tool "t"⟩, ⟨"meet", .join⟩,
        ⟨"again", .router 0⟩, ⟨"end", .respond⟩] }

/-- The walks over `loopNever` leave its region for good. -/
theorem loopNever_walked {p : Spot} (h : Walked loopNever p) :
    p.node = "fan" ∨ p.node = "again" ∨ p.node = "end" := by
  have hfan : loopNever.graph.node "fan" = some ⟨"fan", .parallel⟩ := rfl
  have hagain : loopNever.graph.node "again" = some ⟨"again", .router 0⟩ := rfl
  have hend : loopNever.graph.node "end" = some ⟨"end", .respond⟩ := rfl
  have hjoin : findJoinForParallel loopNever "fan" = .ok "meet" := rfl
  have hmeet : nextLinear loopNever "meet" = .ok "again" := rfl
  have hout : loopNever.graph.branchTarget "again" "resolved" = some "end" := rfl
  induction h with
  | refl => exact Or.inl rfl
  | tail _ he ih =>
      rcases ih with hp | hp | hp
      · rw [← hp] at hfan
        obtain ⟨J, hJ, ht⟩ := he.leads hfan
        rw [hp, hjoin] at hJ
        cases hJ
        rw [hmeet] at ht
        exact Or.inr (Or.inl (Except.ok.inj ht).symm)
      · rw [← hp] at hagain
        have ht := he.leads hagain
        dsimp only at ht
        rw [decide_eq_true (Nat.zero_le _), Bool.or_true, if_pos rfl, hp, hout] at ht
        exact Or.inr (Or.inr (Option.some.inj ht).symm)
      · rw [← hp] at hend
        exact (he.leads hend).elim

/-- A walk over `loopBack` takes the loop and comes to the join. -/
theorem loopBack_walked : ∃ p, Walked loopBack p ∧ IsJoin loopBack p.node := by
  have htool : ∀ (id tool next : String), loopBack.graph.node id = some ⟨id, .tool tool⟩ →
      Storable id → nextLinear loopBack id = .ok next → ∀ visits,
      WorkEdge loopBack ⟨id, false, 0, visits⟩ ⟨next, false, 0, visits + 1⟩ :=
    fun id tool next hn hid ht visits => .tool ⟨id, .tool tool⟩ tool next hn rfl hid ht
  have hregion : TrunkEdge loopBack (entrySpot loopBack) ⟨"again", false, 0, 2⟩ := by
    refine .region ⟨"fan", .parallel⟩ "meet" "again" [⟨"meet", false, 0, 1⟩, ⟨"meet", false, 0, 1⟩]
      rfl rfl rfl ?_ (Or.inr (by decide)) rfl
    exact .cons ⟨rfl, 1, Steps.single (htool "left" "t" "meet" rfl rfl rfl 0)⟩
      (.cons ⟨rfl, 1, Steps.single (htool "right" "t" "meet" rfl rfl rfl 0)⟩ .nil)
  have hloop : TrunkEdge loopBack ⟨"again", false, 0, 2⟩ ⟨"left", false, 0, 3⟩ :=
    .work (.router ⟨"again", .router 1⟩ 1 "left" rfl rfl rfl)
  have hleft : TrunkEdge loopBack ⟨"left", false, 0, 3⟩ ⟨"meet", false, 0, 4⟩ :=
    .work (htool "left" "t" "meet" rfl rfl rfl 3)
  exact ⟨_, ((Relation.ReflTransGen.single hregion).tail hloop).tail hleft, ⟨"meet", .join⟩, rfl, rfl⟩

/-- The limit of the router decides: no run of `loopNever` comes to a join, some run of
    `loopBack` does. -/
theorem trunk_avoids_joins_limit :
    loopNever.Accepted ∧ loopBack.Accepted ∧
    (∀ run C c, RunsTo run loopNever C c → OffJoins loopNever c) ∧
    ¬ ∀ run C c, RunsTo run loopBack C c → OffJoins loopBack c := by
  refine ⟨rfl, rfl, (trunk_avoids_joins loopNever rfl).mpr ?_, fun h => ?_⟩
  · intro p hp ⟨n, hn, hk⟩
    rcases loopNever_walked hp with hnode | hnode | hnode <;>
    · rw [hnode] at hn
      cases hn
      cases hk
  · obtain ⟨p, hp, hjoin⟩ := loopBack_walked
    exact (trunk_avoids_joins loopBack rfl).mp h p hp hjoin

end Greentic
