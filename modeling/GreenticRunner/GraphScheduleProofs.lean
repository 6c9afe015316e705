import GreenticRunner.GraphReplay

/-! # Parallel regions do not depend on the schedule

    `drive_frontier` runs its branches concurrently and merges them; the reference below
    runs them ONE AFTER ANOTHER in label order, each from its own copy of the trunk state
    and over the ledger the region starts with.  With deterministic closures the two agree,
    whatever the interleaving and however far the branches had come before.

    * `runBranch`, `sequentialEnds`, `sequentialRegion` — the reference;
    * `schedule_independent` — every run of a region gives the result of the reference. -/

namespace Greentic

open FinMaps CountedPath Resumption

/-! ## The branches one after another -/

/-- One visit of a branch. -/
def branchNext (cfg : GraphConfig) (O : Oracle) (pt : Point) : Option Point :=
  match cfg.graph.node pt.cursor with
  | none => none
  | some n =>
      if n.kind.isEffect then (O pt).bind fun raw => (effectAfter cfg none pt raw n.kind).toOption
      else if n.kind.isRouter then (afterRouter cfg pt).toOption
      else none

/-- A branch, from `pt` to the join, in at most `fuel` visits. -/
def runBranch (cfg : GraphConfig) (O : Oracle) (joinId : String) : Nat → Point → Option Point
  | 0, pt => if pt.cursor = joinId then some pt else none
  | fuel + 1, pt =>
      if pt.cursor = joinId then some pt
      else (branchNext cfg O pt).bind (runBranch cfg O joinId fuel)

/-- The slot of a branch that has come to the join at `pt`. -/
def parkedSlot (label : String) (pt : Point) : BranchCursor :=
  ⟨label, pt.cursor, pt.state, true, pt.visits⟩

/-- The branches one after another, each from an isolated copy of the trunk state. -/
def sequentialEnds (cfg : GraphConfig) (O : Oracle) (joinId : String) (trunk : Point) :
    List (String × String) → Option (List BranchCursor)
  | [] => some []
  | x :: xs =>
      (runBranch cfg O joinId maxNodeVisits (branchStart trunk x)).bind fun pt =>
        (sequentialEnds cfg O joinId trunk xs).map fun ends => parkedSlot x.1 pt :: ends

/-- The ends of all branches of the region entered at `trunk`, in label order. -/
def regionEnds (cfg : GraphConfig) (O : Oracle) (joinId : String) (trunk : Point) :
    Option (List BranchCursor) :=
  sequentialEnds cfg O joinId trunk (branchEdges cfg trunk.cursor)

/-- The region with its branches run one after another; a run id the store refuses ends it. -/
def sequentialRegion (run : RunRef) (cfg : GraphConfig) (O : Oracle) (joinId : String)
    (trunk : Point) : Option Point :=
  if (checkSegment "run_id" run.runId).isOk then
    (regionEnds cfg O joinId trunk).bind fun ends =>
      (nextLinear cfg joinId).toOption.map fun next => mergeRegion trunk ends next
  else none

section Reference

variable {cfg : GraphConfig} {O : Oracle} {J : String} {P pt q : Point}

theorem toOption_eq_some {ε α : Type} {r : Except ε α} {a : α} : r.toOption = some a ↔ r = .ok a := by
  cases r with
  | error e => simp [Except.toOption]
  | ok b => simp [Except.toOption]

theorem branchNext_iff : branchNext cfg O pt = some q ↔ BranchStep cfg O pt q := by
  constructor
  · intro h
    rw [branchNext] at h
    cases hn : cfg.graph.node pt.cursor with
    | none => rw [hn] at h; exact nomatch h
    | some n =>
        rw [hn] at h
        dsimp only at h
        split at h
        · rename_i hk
          obtain ⟨raw, hO, ha⟩ := Option.bind_eq_some_iff.mp h
          exact .effect n raw hn hk hO (toOption_eq_some.mp ha)
        · split at h
          · rename_i hk
            exact .router n hn hk (toOption_eq_some.mp h)
          · exact nomatch h
  · intro h
    cases h with
    | effect n raw hn hk hO ha =>
        rw [branchNext, hn]
        dsimp only
        rw [if_pos hk, hO, Option.bind_some]
        exact toOption_eq_some.mpr ha
    | router n hn hk ha =>
        obtain ⟨maxIterations, hkind⟩ := NodeKind.router_of hk
        have hne : n.kind.isEffect = false := by rw [hkind]; rfl
        rw [branchNext, hn]
        dsimp only
        rw [hne, if_neg Bool.false_ne_true, if_pos hk]
        exact toOption_eq_some.mpr ha

/-- A branch that runs alone follows its path to the join. -/
theorem runBranch_sound : ∀ {fuel : Nat} {pt : Point}, runBranch cfg O J fuel pt = some q →
    q.cursor = J ∧ ∃ m, Steps (BranchStep cfg O) pt m q := by
  intro fuel
  induction fuel with
  | zero =>
      intro pt h
      rw [runBranch] at h
      split at h
      · rename_i hJ
        cases h
        exact ⟨hJ, 0, .refl⟩
      · exact nomatch h
  | succ fuel ih =>
      intro pt h
      rw [runBranch] at h
      split at h
      · rename_i hJ
        cases h
        exact ⟨hJ, 0, .refl⟩
      · obtain ⟨pt', hnext, hrest⟩ := Option.bind_eq_some_iff.mp h
        obtain ⟨hJ, m, hp⟩ := ih hrest
        exact ⟨hJ, 1 + m, (Steps.single (branchNext_iff.mp hnext)).trans hp⟩

/-- A path to the join is the run of the branch alone. -/
theorem runBranch_complete {nj : Node} (hnj : cfg.graph.node J = some nj) (hkj : nj.kind = .join)
    (hq : q.cursor = J) : ∀ {fuel m : Nat} {pt : Point}, Steps (BranchStep cfg O) pt m q → m ≤ fuel →
      runBranch cfg O J fuel pt = some q := by
  intro fuel
  induction fuel with
  | zero =>
      intro m pt hp hm
      obtain rfl : m = 0 := Nat.le_zero.mp hm
      cases hp
      rw [runBranch, if_pos hq]
  | succ fuel ih =>
      intro m pt hp hm
      rcases hp.cases_head with ⟨-, rfl⟩ | ⟨d, pt', rfl, hs, hrest⟩
      · rw [runBranch, if_pos hq]
      · have hne : pt.cursor ≠ J := by
          intro hc
          exact branch_end_join (by rw [hc]; exact hnj) hkj _ hs
        rw [runBranch, if_neg hne, branchNext_iff.mpr hs, Option.bind_some]
        exact ih hrest (by omega)

/-- The reference runs every branch to its end. -/
theorem sequentialEnds_each : ∀ {xs : List (String × String)} {ends : List BranchCursor},
    sequentialEnds cfg O J P xs = some ends → List.Forall₂ (fun x bc => ∃ pt,
      runBranch cfg O J maxNodeVisits (branchStart P x) = some pt ∧ bc = parkedSlot x.1 pt)
      xs ends := by
  intro xs
  induction xs with
  | nil => intro ends h; cases h; exact .nil
  | cons y ys ih =>
      intro ends h
      rw [sequentialEnds] at h
      obtain ⟨pt, hpt, hrest⟩ := Option.bind_eq_some_iff.mp h
      obtain ⟨ends', hends', rfl⟩ := Option.map_eq_some_iff.mp hrest
      exact .cons ⟨pt, hpt, rfl⟩ (ih hends')

/-- The ends of a region step are the ends of the reference. -/
theorem sequentialEnds_of_ends {nj : Node} (hnj : cfg.graph.node J = some nj)
    (hkj : nj.kind = .join) : ∀ {xs : List (String × String)} {ends : List BranchCursor},
      List.Forall₂ (BranchEnd cfg O P J) xs ends → (∀ bc ∈ ends, spent P bc.visits ≤ maxNodeVisits) →
      ∃ ends', sequentialEnds cfg O J P xs = some ends' ∧
        List.Forall₂ (BranchEnd cfg O P J) xs ends' := by
  intro xs
  induction xs with
  | nil => intro ends _ _; exact ⟨[], rfl, .nil⟩
  | cons x xs ih =>
      intro ends h hspent
      cases h with
      | cons hbc hrest =>
          rename_i bc ends
          obtain ⟨ends', hends', hall⟩ := ih hrest fun b hb => hspent b (List.mem_cons_of_mem _ hb)
          obtain ⟨hl, hc, m, hp⟩ := hbc
          have hm : m ≤ maxNodeVisits := by
            have htotal : bc.visits.total = P.visits.total + m := branch_total hp
            have := hspent bc (List.mem_cons_self ..)
            rw [spent, htotal] at this
            omega
          have hrun := runBranch_complete hnj hkj hc hp hm
          refine ⟨parkedSlot x.1 ⟨bc.cursor, bc.state, bc.visits⟩ :: ends', ?_,
            .cons ⟨rfl, hc, m, hp⟩ hall⟩
          rw [sequentialEnds, hrun, Option.bind_some, hends']
          rfl

theorem spent_le_spentAll {ends : List BranchCursor} {bc : BranchCursor} (h : bc ∈ ends) :
    spent P bc.visits ≤ spentAll P ends :=
  List.le_sum_of_mem (List.mem_map.mpr ⟨bc, h, rfl⟩)

/-- **A REGION STEP IS THE REFERENCE.** -/
theorem sequentialRegion_of_step {run : RunRef} {n : Node} (hn : cfg.graph.node P.cursor = some n)
    (hk : n.kind = .parallel) (hJ : findJoinForParallel cfg P.cursor = .ok J)
    (hrun : checkSegment "run_id" run.runId = .ok ()) (h : TrunkStep cfg O P q) :
    sequentialRegion run cfg O J P = some q := by
  cases h with
  | work h => exact absurd h (branch_end hn (by rw [hk]; rfl) (by rw [hk]; rfl) _)
  | approval n' raw b next hn' hk' hr hb ht heq =>
      rw [hn] at hn'; cases hn'; rw [hk] at hk'; exact nomatch hk'
  | join n' next hn' hk' ht heq => rw [hn] at hn'; cases hn'; rw [hk] at hk'; exact nomatch hk'
  | region n' J' next ends hn' hk' hJ' hends ht hcap heq =>
      rw [hJ] at hJ'
      cases hJ'
      obtain ⟨nj, hnj, hkj⟩ := findJoin_join hJ
      obtain ⟨ends', hends', hall⟩ := sequentialEnds_of_ends hnj hkj hends (by
        intro bc hbc
        have := spent_le_spentAll (P := P) hbc
        omega)
      obtain ⟨hst, hvs⟩ := ends_unique hnj hkj hall hends P.state P.visits
      rw [sequentialRegion, hrun, regionEnds, hends', ht]
      show some (mergeRegion P ends' next) = some q
      rw [heq, mergeRegion, mergeRegion, hst, hvs]

/-- What the merge makes of the ends: the new messages in label order, `resolved` if one is,
    the most iterations, and the pointwise maximum of the visit counts. -/
theorem mergeRegion_fields (ends : List BranchCursor) (next : String) :
    (mergeRegion P ends next).state.messages = P.state.messages ++
        ends.flatMap (fun bc => bc.state.messages.drop P.state.messages.length) ∧
      (mergeRegion P ends next).state.resolved
        = (P.state.resolved || ends.any fun bc => bc.state.resolved) ∧
      (mergeRegion P ends next).state.iterations
        = (ends.map fun bc => bc.state.iterations).foldl max P.state.iterations ∧
      ∀ id, (mergeRegion P ends next).visits.count id
        = (ends.map fun bc => bc.visits.count id).foldl max (P.visits.count id) := by
  have hstate : ∀ (n : Nat) (s : GraphRunState),
      (ends.foldl (mergeBranch n) s).messages
          = s.messages ++ ends.flatMap (fun bc => bc.state.messages.drop n) ∧
        (ends.foldl (mergeBranch n) s).resolved
          = (s.resolved || ends.any fun bc => bc.state.resolved) ∧
        (ends.foldl (mergeBranch n) s).iterations
          = (ends.map fun bc => bc.state.iterations).foldl max s.iterations := by
    intro n
    induction ends with
    | nil => intro s; simp
    | cons bc ends ih =>
        intro s
        obtain ⟨h1, h2, h3⟩ := ih (mergeBranch n s bc)
        rw [List.foldl_cons, h1, h2, h3]
        simp [mergeBranch, List.append_assoc, Bool.or_assoc]
  obtain ⟨h1, h2, h3⟩ := hstate P.state.messages.length P.state
  refine ⟨h1, h2, h3, ?_⟩
  intro id
  rw [mergeRegion_visits, FinMap.count_foldl_maxMerge, List.map_map]
  rfl

end Reference

/-! ## Every schedule -/

/-- The same world with one more operation at the beginning of the history. -/
def World.after (e : RunStore × Event Op Op.Res) (s : World) : World :=
  (s.1, { s.2 with history := e :: s.2.history })

/-- What a call did before its next operation does not change that operation. -/
theorem exec_after (run : RunRef) (C : Closures) (e : RunStore × Event Op Op.Res) (i : Op)
    (s : World) (r : i.Res) (s' : World) (h : exec run C i s r s') :
    exec run C i (World.after e s) r (World.after e s') := by
  obtain ⟨hans, rfl⟩ := h
  refine ⟨?_, ?_⟩
  · cases i <;> exact hans
  · cases i <;> rfl

section Region

variable {run : RunRef} {cfg : GraphConfig} {f : Effects} {st : RunStore} {P : Point} {n : Node}
  {J : String} {frontier : List BranchCursor} {persist : Bool}

/-- Calls that keep to the line from `P`, whatever record is stored, with others on the store
    or alone. -/
def lineSetup (run : RunRef) {cfg : GraphConfig} (hcfg : cfg.Accepted) (f : Effects) (L₀ : Ledger)
    (P : Point) (solo : Prop) : Setup :=
  { sharedSetup hcfg (replayTrack run hcfg f L₀ P False) with solo := solo }

/-- The record of a region. -/
def openRecord (run : RunRef) (cfg : GraphConfig) (P : Point) (frontier : List BranchCursor) :
    GraphRunRecord :=
  buildRecordWithFrontier run.runId cfg P .running (some frontier)

/-- A run of a region is the run of a call that has loaded the region's record, so its result
    is that of `driveFrontier_outcome`, over a ledger that keeps to the line from `P`. -/
theorem region_outcome (solo : Prop) (hsolo : persist = false → ¬ solo) (hcfg : cfg.Accepted)
    (hn : cfg.graph.node P.cursor = some n)
    (hk : n.kind = .parallel) (hJ : findJoinForParallel cfg P.cursor = .ok J)
    (hfr : FrontierOk cfg (rowAt st.ledger) P frontier) {es : List (Event Op Op.Res)}
    {q : Drive (Point × List Json)} {s : World}
    (hrun : Run (exec run f.closures) (driveFrontier run cfg J P frontier persist)
      (st, CallMemory.fresh) es q s) {r : Except GraphExecError (Point × List Json)}
    (hq : q.outcome? = some r) :
    Replayed run cfg f st.ledger P s.1.ledger ∧
      Region.Outcome (lineSetup run hcfg f st.ledger P solo)
        (Setup.recordOrigin _ (openRecord run cfg P frontier)) 0 P J
        (World.after (st, ⟨.load, some (openRecord run cfg P frontier)⟩) s) r := by
  let S := lineSetup run hcfg f st.ledger P solo
  let loaded : RunStore × Event Op Op.Res := (st, ⟨.load, some (openRecord run cfg P frontier)⟩)
  have hst : StoreOk S.T st := ⟨.refl, fun h => h.elim, fun h => h.elim⟩
  have hcame : S.Came (S.recordOrigin (openRecord run cfg P frontier)) 0 P
      (World.after loaded (st, CallMemory.fresh)) := ⟨hst, rfl, ⟨0, .refl⟩, .refl⟩
  obtain ⟨J', hJ', hslots⟩ := hfr.slots
  have hbooked : visitsMade [loaded] + baseVisits [loaded]
      = P.visits.total + spentSlots P frontier + passes cfg [loaded] := by
    show 0 + (P.visits.total + resumedBranchVisits P.visits frontier) = _
    rw [resumedBranchVisits_eq hslots, Nat.zero_add]
    rfl
  have hsat := driveFrontier_outcome (S := S) hn hk hJ persist hcame hfr hbooked Setup.quiet_load
    fun hp h => absurd h (hsolo hp)
  have hrun' := Run.map (World.after loaded) (exec_after run f.closures loaded) hrun
  refine ⟨?_, (Run.sat Setup.worldRely_refl hrun' hsat).result Setup.worldRely_refl hq⟩
  have hstore : StoreOk S.T (World.after loaded s).1 :=
    Run.preserves (I := fun w => StoreOk S.T w.1) Setup.worldRely_refl
      (fun _ _ _ _ _ htold => htold.store) hrun' hsat hst
  exact hstore.good

/-- A region that is lost for another reason than the cap has no result in the reference. -/
theorem Region.Lost.sequential_none (hcfg : cfg.Accepted) (hf : f.NonFailing)
    (hst : Ledger.WellKeyed run st.ledger) (hn : cfg.graph.node P.cursor = some n) (hk : n.kind = .parallel)
    (hJ : findJoinForParallel cfg P.cursor = .ok J) {e₀ : RunStore × Event Op Op.Res} {s : World} {e : GraphExecError}
    (h : Region.Lost (lineSetup run hcfg f st.ledger P False) P J (World.after e₀ s) e)
    (hrep : Replayed run cfg f st.ledger P s.1.ledger) (hload : e₀.2.1 = .load)
    (hcap : ¬ CapExceeded s.2.history) :
    sequentialRegion run cfg (f.recorded run cfg st.ledger) J P = none := by
  rw [sequentialRegion]
  cases h with
  | unsaved hbad =>
      refine if_neg ?_
      intro hok
      cases hc : checkSegment "run_id" run.runId with
      | error c => rw [hc] at hok; exact nomatch hok
      | ok u => exact hbad hc
  | capped hc hover =>
      obtain ⟨e', he', c, heq, hlt⟩ := hc
      rcases List.mem_cons.mp he' with rfl | hmem
      · rw [heq] at hload
        exact nomatch hload
      · exact absurd ⟨e', hmem, c, heq, hlt⟩ hcap
  | leave he =>
      have hnext : nextLinear cfg J = .error e := he
      rw [hnext]
      split
      · cases regionEnds cfg (f.recorded run cfg st.ledger) J P with
        | none => rfl
        | some ends => rfl
      · rfl
  | fault x m pt hx hp hne hfault =>
      have hmet : Steps (BranchStep cfg (f.recorded run cfg st.ledger)) (branchStart P x) m pt :=
        hrep.branch_steps hcfg .refl hn hk hx hp
      -- the reference would have to leave `pt`, where the branch failed
      have hnone : regionEnds cfg (f.recorded run cfg st.ledger) J P = none := by
        rw [Option.eq_none_iff_forall_ne_some]
        intro ends hends
        obtain ⟨i, hi⟩ := List.mem_iff_getElem?.mp hx
        obtain ⟨bc, -, q, hq, -⟩ := Region.forall₂_at (sequentialEnds_each hends) hi
        obtain ⟨hqJ, m', hpq⟩ := runBranch_sound hq
        obtain ⟨nj, hnj, hkj⟩ := findJoin_join hJ
        have hend : BranchEnd cfg (f.recorded run cfg st.ledger) P J x (parkedSlot x.1 q) :=
          ⟨rfl, hqJ, m', hpq⟩
        obtain ⟨d, q', hstep, -⟩ := branch_next hend hnj hkj hmet hne
        refine hfault.no_step (q := q') rfl (hf.answersAt cfg pt) hst ?_ hstep
        intro n' raw hn' hk' hrow
        exact hrep.agrees hcfg (.branch .refl hn hk hx hmet) hn' hk' hrow
      rw [hnone]
      split
      · rfl
      · rfl

/-- What the reference is made of. -/
theorem sequentialRegion_some {O : Oracle} {pt : Point}
    (h : sequentialRegion run cfg O J P = some pt) :
    ∃ ends next, regionEnds cfg O J P = some ends ∧ nextLinear cfg J = .ok next ∧
      pt = mergeRegion P ends next := by
  rw [sequentialRegion] at h
  split at h
  · obtain ⟨ends, hends, hrest⟩ := Option.bind_eq_some_iff.mp h
    obtain ⟨next, hnext, rfl⟩ := Option.map_eq_some_iff.mp hrest
    exact ⟨ends, next, hends, toOption_eq_some.mp hnext, rfl⟩
  · exact nomatch h

/-- Every branch ends with the messages of the trunk and its own new ones. -/
theorem regionEnds_messages {O : Oracle} (hcfg : cfg.Accepted)
    (hn : cfg.graph.node P.cursor = some n) (hk : n.kind = .parallel) {ends : List BranchCursor}
    (hends : regionEnds cfg O J P = some ends) :
    ∀ bc ∈ ends, ∃ news, bc.state.messages = P.state.messages ++ news := by
  intro bc hbc
  obtain ⟨i, hi⟩ := List.mem_iff_getElem?.mp hbc
  obtain ⟨x, hx, pt, hpt, rfl⟩ := Region.forall₂_at (sequentialEnds_each hends).flip hi
  obtain ⟨-, m, hp⟩ := runBranch_sound hpt
  obtain ⟨J', hr⟩ := hcfg.region hn hk
  exact (branch_inside hr (List.mem_of_getElem? hx) hp).messages

/-- **SCHEDULE INDEPENDENCE.**  Over every validated graph, parallel node, trunk state and visit
    counts, with closures that are functions of their request and never fail, from a fresh
    frontier or from any frontier a resume may continue, and under every interleaving of the
    branches that the cap does not stop: `drive_frontier` returns exactly what the branches run
    one after another in label order give, each from its own copy of the trunk state.  The
    messages are the trunk's and then every branch's new ones in label order, `resolved` is the
    disjunction, `iterations` the maximum and the visit counts the pointwise maximum. -/
theorem schedule_independent (run : RunRef) (cfg : GraphConfig) (f : Effects) (hcfg : cfg.Accepted)
    (hf : f.NonFailing) (st : RunStore) (hst : Ledger.WellKeyed run st.ledger) (P : Point) (n : Node)
    (hn : cfg.graph.node P.cursor = some n) (hk : n.kind = .parallel) (J : String)
    (hJ : findJoinForParallel cfg P.cursor = .ok J) (frontier : List BranchCursor)
    (hfr : frontier = initialFrontier cfg P ∨ FrontierOk cfg (rowAt st.ledger) P frontier)
    (persist : Bool) (es : List (Event Op Op.Res)) (q : Drive (Point × List Json)) (s : World)
    (hrun : Run (exec run f.closures) (driveFrontier run cfg J P frontier persist)
      (st, CallMemory.fresh) es q s) (hcap : ¬ CapExceeded s.2.history)
    (r : Except GraphExecError (Point × List Json)) (hq : q.outcome? = some r) :
    r.toOption.map (·.1) = sequentialRegion run cfg (f.recorded run cfg st.ledger) J P ∧
      ∀ pt trail, r = .ok (pt, trail) → ∃ ends,
        regionEnds cfg (f.recorded run cfg st.ledger) J P = some ends ∧
        nextLinear cfg J = .ok pt.cursor ∧
        (∀ bc ∈ ends, ∃ news, bc.state.messages = P.state.messages ++ news) ∧
        pt.state.messages = P.state.messages ++
          ends.flatMap (fun bc => bc.state.messages.drop P.state.messages.length) ∧
        pt.state.resolved = (P.state.resolved || ends.any fun bc => bc.state.resolved) ∧
        pt.state.iterations
          = (ends.map fun bc => bc.state.iterations).foldl max P.state.iterations ∧
        ∀ id, pt.visits.count id
          = (ends.map fun bc => bc.visits.count id).foldl max (P.visits.count id) := by
  let O := f.recorded run cfg st.ledger
  have hfr' : FrontierOk cfg (rowAt st.ledger) P frontier := by
    rcases hfr with rfl | hfr
    · exact (Setup.initialFrontier_ok (S := lineSetup run hcfg f st.ledger P False) hn hk hJ).1
    · exact hfr
  obtain ⟨hrep, hpost, hout⟩ := region_outcome False (fun _ h => h) hcfg hn hk hJ hfr' hrun hq
  have heq : r.toOption.map (·.1) = sequentialRegion run cfg O J P := by
    cases r with
    | ok v =>
        have hpath : Steps (TrunkStep cfg (rowAt s.1.ledger)) P 1 v.1 := hpost.came.path
        cases hpath with
        | tail h0 hs =>
            cases h0
            exact (sequentialRegion_of_step hn hk hJ hout (hrep.trunk_step hcfg .refl hs)).symm
    | error e => exact (hout.sequential_none hcfg hf hst hn hk hJ hrep rfl hcap).symm
  refine ⟨heq, ?_⟩
  rintro pt trail rfl
  obtain ⟨ends, next, hends, hnext, rfl⟩ := sequentialRegion_some heq.symm
  obtain ⟨hmsgs, hres, hiter, hvis⟩ := mergeRegion_fields (P := P) ends next
  exact ⟨ends, hends, hnext, regionEnds_messages hcfg hn hk hends, hmsgs, hres, hiter, hvis⟩

end Region

/-! ## Two tools -/

/-- Closures that answer with the node they are called for. -/
def echoing : Effects where
  agentTurn := fun req => .ok ⟨req.nodeId, true⟩
  tool := fun req => .ok (.str req.nodeId)
  supervisor := fun req => .ok ⟨req.nodeId, req.nodeId⟩
  approval := fun _ => .ok .awaiting

theorem echoing_nonFailing : echoing.NonFailing where
  agentTurn := fun _ => ⟨_, rfl⟩
  tool := fun _ => ⟨_, rfl⟩
  supervisor := fun _ => ⟨_, rfl⟩
  approval := fun _ => ⟨_, rfl⟩

/-- The region of the two tools, with the second branch first. -/
def rightFirst : Drive (Point × List Json) × World :=
  play (leftFirst echoing ⟨"t", "r"⟩ 0 11 ++ leftFirst echoing ⟨"t", "r"⟩ 12 0)
    (driveFrontier ⟨"t", "r"⟩ forkJoin "meet" (startPoint forkJoin "go")
      (initialFrontier forkJoin (startPoint forkJoin "go")) true, (RunStore.empty, CallMemory.fresh))

/-- The counter granted every visit of a history. -/
def granted (h : History) : Bool :=
  h.all fun e => match e.2 with
    | ⟨.fetchAdd, r⟩ => r ≤ maxNodeVisits
    | _ => true

theorem granted_spec {h : History} (hg : granted h = true) : ¬ CapExceeded h := by
  rintro ⟨e, he, r, heq, hlt⟩
  have htest := List.all_eq_true.mp hg e he
  rw [heq] at htest
  have hle : r ≤ maxNodeVisits := of_decide_eq_true htest
  exact Nat.not_lt.mpr hle hlt

/-- The second branch runs first, and its message still comes second. -/
theorem schedule_independent_right : ∃ r, rightFirst.1.outcome? = some r ∧
    r.toOption.map (·.1) = sequentialRegion ⟨"t", "r"⟩ forkJoin
      (echoing.recorded ⟨"t", "r"⟩ forkJoin RunStore.empty.ledger) "meet" (startPoint forkJoin "go") ∧
    r.toOption.map (fun v => v.1.state.messages.map (·.content)) =
      some ["go", "\"left\"", "\"right\""] := by
  have hout : rightFirst.1.outcome?.map (fun r => r.toOption.map
      fun v => v.1.state.messages.map (·.content)) = some (some ["go", "\"left\"", "\"right\""]) := by
    decide +kernel
  obtain ⟨r, hr, hmsgs⟩ := Option.map_eq_some_iff.mp hout
  have hplay : ∀ x ∈ leftFirst echoing ⟨"t", "r"⟩ 0 11 ++ leftFirst echoing ⟨"t", "r"⟩ 12 0,
      ∀ i s, exec ⟨"t", "r"⟩ echoing.closures i s (x.2 i s).1 (x.2 i s).2 := by
    intro x hx i s
    rcases List.mem_append.mp hx with hx | hx
    · exact leftFirst_exec echoing _ 0 11 x hx i s
    · exact leftFirst_exec echoing _ 12 0 x hx i s
  obtain ⟨es, hrun⟩ := play_sound _ hplay
    (driveFrontier ⟨"t", "r"⟩ forkJoin "meet" (startPoint forkJoin "go")
      (initialFrontier forkJoin (startPoint forkJoin "go")) true) (RunStore.empty, CallMemory.fresh)
  have hcap : ¬ CapExceeded rightFirst.2.2.history := granted_spec (by decide +kernel)
  exact ⟨r, hr, (schedule_independent ⟨"t", "r"⟩ forkJoin echoing rfl echoing_nonFailing RunStore.empty
    (fun _ _ _ h => (nomatch h)) (startPoint forkJoin "go") ⟨"fan", .parallel⟩ rfl rfl "meet"
    (by decide +kernel) _ (.inl rfl) true es _ _ hrun hcap r hr).1, hmsgs⟩

end Greentic
