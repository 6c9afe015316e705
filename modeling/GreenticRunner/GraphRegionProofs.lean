import GreenticRunner.GraphBranchProofs

/-! # A parallel region

    `drive_frontier` opens the frontier, seeds the visit counter, drives all
    unparked branches concurrently and merges.  Whatever the schedule, its result
    is the `TrunkStep.region` step of the ledger, and its errors are explained.

    * `mergedVisits_eq` — the three folds over the visit counts agree;
    * `Region.init` — the invariant holds when the branches start;
    * `driveFrontier_outcome`, `driveFrontier_sat` — the whole region. -/

namespace Greentic

open FinMaps CountedPath Resumption

/-! ## The pure folds -/

/-- Every entry of the folded counts is the trunk's or a branch's. -/
theorem foldResults_spec : ∀ (rs : List (Except GraphExecError BranchOutcome))
    (err : Option GraphExecError) (trail : List Json) (v : Visits),
    (∀ e, (foldResults rs (err, trail, v)).1 = some e → err = some e ∨ .error e ∈ rs) ∧
    ((foldResults rs (err, trail, v)).1 = none → err = none ∧
      ∀ r ∈ rs, ∃ o, r = .ok o) ∧
    ∀ key, (foldResults rs (err, trail, v)).2.2.get? key = v.get? key ∨
      ∃ o, .ok o ∈ rs ∧ (foldResults rs (err, trail, v)).2.2.get? key = o.visits.get? key := by
  intro rs
  induction rs with
  | nil =>
      intro err trail v
      refine ⟨fun e h => Or.inl h, fun h => ⟨h, fun r hr => (nomatch hr)⟩, fun key => Or.inl rfl⟩
  | cons r rs ih =>
      intro err trail v
      cases r with
      | ok o =>
          obtain ⟨h1, h2, h3⟩ := ih err (trail ++ o.trail) (v.extend o.visits)
          rw [show foldResults (.ok o :: rs) (err, trail, v)
            = foldResults rs (err, trail ++ o.trail, v.extend o.visits) from rfl]
          refine ⟨?_, ?_, ?_⟩
          · intro e he
            rcases h1 e he with h | h
            · exact Or.inl h
            · exact Or.inr (List.mem_cons_of_mem _ h)
          · intro hnone
            obtain ⟨herr, hall⟩ := h2 hnone
            refine ⟨herr, ?_⟩
            intro r hr
            rcases List.mem_cons.mp hr with heq | hmem
            · exact ⟨o, heq⟩
            · exact hall r hmem
          · intro key
            rcases h3 key with h | ⟨o', ho', h⟩
            · rw [FinMap.extend_get?] at h
              cases ho : o.visits.get? key with
              | some w =>
                  rw [ho] at h
                  exact Or.inr ⟨o, List.mem_cons_self .., h.trans ho.symm⟩
              | none => rw [ho] at h; exact Or.inl h
            · exact Or.inr ⟨o', List.mem_cons_of_mem _ ho', h⟩
      | error e =>
          obtain ⟨h1, h2, h3⟩ := ih (err.or (some e)) trail v
          rw [show foldResults (.error e :: rs) (err, trail, v)
            = foldResults rs (err.or (some e), trail, v) from rfl]
          refine ⟨?_, ?_, ?_⟩
          · intro e' he'
            rcases h1 e' he' with h | h
            · cases err with
              | none =>
                  have heq : e = e' := Option.some.inj h
                  exact Or.inr (heq ▸ List.mem_cons_self ..)
              | some e₀ => exact Or.inl h
            · exact Or.inr (List.mem_cons_of_mem _ h)
          · intro hnone
            obtain ⟨herr, -⟩ := h2 hnone
            cases err <;> exact nomatch herr
          · intro key
            rcases h3 key with h | ⟨o', ho', h⟩
            · exact Or.inl h
            · exact Or.inr ⟨o', List.mem_cons_of_mem _ ho', h⟩

/-- **THE THREE FOLDS AGREE**: outcomes, slots and the shared map give the
    pointwise maximum of the trunk and the slots. -/
theorem mergedVisits_eq {P : Point} {ends : List BranchCursor} {mv collected : Visits}
    (hmv : ∀ key, mv.get? key = P.visits.get? key ∨
      ∃ bc ∈ ends, mv.get? key = bc.visits.get? key)
    (hle : ∀ bc ∈ ends, P.visits.le bc.visits)
    (hcol : ∀ key, (collected.get? key).isSome → ∃ bc ∈ ends, (bc.visits.get? key).isSome) :
    collected.extend (ends.foldl (fun m bc => m.maxMerge bc.visits) mv)
      = ends.foldl (fun m bc => m.maxMerge bc.visits) P.visits := by
  have hmap : ∀ v : Visits, ends.foldl (fun m bc => m.maxMerge bc.visits) v
      = (ends.map (·.visits)).foldl FinMap.maxMerge v := by
    intro v
    rw [List.foldl_map]
  have hstart : (ends.map (·.visits)).foldl FinMap.maxMerge mv
      = (ends.map (·.visits)).foldl FinMap.maxMerge P.visits := by
    refine FinMap.foldl_maxMerge_start ?_
    intro key
    rcases hmv key with h | ⟨bc, hbc, h⟩
    · exact Or.inl h
    · exact Or.inr ⟨bc.visits, List.mem_map.mpr ⟨bc, hbc, rfl⟩, h, hle bc hbc⟩
  rw [hmap, hmap, hstart]
  ext1 key
  rw [FinMap.extend_get?]
  cases hm : ((ends.map (·.visits)).foldl FinMap.maxMerge P.visits).get? key with
  | some w => rfl
  | none =>
      cases hc : collected.get? key with
      | none => rfl
      | some c =>
          -- a collected key is a key of some slot, hence of the merge
          obtain ⟨bc, hbc, hsome⟩ := hcol key (by rw [hc]; rfl)
          obtain ⟨v, hv⟩ := Option.isSome_iff_exists.mp hsome
          obtain ⟨w, hw, -⟩ := (FinMap.le_foldl_maxMerge (ends.map (·.visits)) P.visits).2 bc.visits
            (List.mem_map.mpr ⟨bc, hbc, rfl⟩) key v hv
          rw [hm] at hw
          exact nomatch hw

/-- The seed of the shared counter counts what the slots have spent. -/
theorem resumedBranchVisits_eq {cfg : GraphConfig} {O : Oracle} {P : Point} {J : String} :
    ∀ {xs : List (String × String)} {frontier : List BranchCursor},
      List.Forall₂ (SlotOk cfg O P J) xs frontier →
      resumedBranchVisits P.visits frontier = spentSlots P frontier := by
  intro xs
  induction xs with
  | nil => intro frontier h; cases h; rfl
  | cons x xs ih =>
      intro frontier h
      cases h with
      | cons hbc hrest =>
          rename_i bc frontier
          have hone : ∑ k ∈ bc.visits.keys, (bc.visits.count k - P.visits.count k)
              = spent P (slotPoint P bc).visits := by
            rw [slotPoint, spent]
            rcases hbc.full with ⟨hempty, -⟩ | hle
            · rw [hempty, FinMap.extend_empty, Nat.sub_self]
              rfl
            · rw [hle.extend_eq, FinMap.sum_growth hle]
          have hih := ih hrest
          rw [resumedBranchVisits, List.map_cons, List.sum_cons, hone, spentSlots, List.map_cons,
            List.sum_cons]
          rw [resumedBranchVisits, spentSlots] at hih
          rw [hih]

/-! ## Errors that are not the cap -/

theorem nextLinear_error {cfg : GraphConfig} {id : String} {e : GraphExecError}
    (h : nextLinear cfg id = .error e) : ∃ m, e = .graph (.invalid m) := by
  unfold nextLinear at h
  cases he : cfg.graph.edgesFrom id with
  | nil => rw [he] at h; cases h; exact ⟨_, rfl⟩
  | cons e rest => rw [he] at h; exact nomatch h

theorem fromValue_error {raw : Json} {e : GraphExecError}
    (h : AgentTurnResult.fromValue raw = .error e) : ∃ c, e = .checkpoint c := by
  unfold AgentTurnResult.fromValue at h
  split at h
  · split at h
    · exact nomatch h
    · cases h; exact ⟨_, rfl⟩
    · cases h; exact ⟨_, rfl⟩
  · exact nomatch h
  · cases h; exact ⟨_, rfl⟩

theorem supervisorFromValue_error {raw : Json} {e : GraphExecError}
    (h : SupervisorResult.fromValue raw = .error e) : ∃ c, e = .checkpoint c := by
  unfold SupervisorResult.fromValue at h
  split at h
  · split at h
    · exact nomatch h
    · cases h; exact ⟨_, rfl⟩
    · cases h; exact ⟨_, rfl⟩
  · exact nomatch h
  · cases h; exact ⟨_, rfl⟩

/-- What the arms can report for a row they read. -/
theorem effectAfter_error {cfg : GraphConfig} {label : Option String} {pt : Point} {raw : Json}
    {kind : NodeKind} (hk : kind.isEffect = true) {e : GraphExecError}
    (h : effectAfter cfg label pt raw kind = .error e) :
    (∃ c, e = .checkpoint c) ∨ ∃ m, e = .graph (.invalid m) := by
  cases kind with
  | agent _ _ _ _ _ _ =>
      simp only [effectAfter, afterAgent, bind, Except.bind] at h
      cases hr : AgentTurnResult.fromValue raw with
      | error e' => rw [hr] at h; cases h; exact Or.inl (fromValue_error hr)
      | ok r =>
          rw [hr] at h
          dsimp only at h
          cases hn : nextLinear cfg pt.cursor with
          | error e' => rw [hn] at h; cases h; exact Or.inr (nextLinear_error hn)
          | ok t => rw [hn] at h; cases h
  | tool _ =>
      simp only [effectAfter, afterTool, bind, Except.bind] at h
      cases hn : nextLinear cfg pt.cursor with
      | error e' => rw [hn] at h; cases h; exact Or.inr (nextLinear_error hn)
      | ok t => rw [hn] at h; cases h
  | supervisor _ _ routes _ _ =>
      simp only [effectAfter, afterSupervisor, bind, Except.bind] at h
      cases hr : SupervisorResult.fromValue raw with
      | error e' => rw [hr] at h; cases h; exact Or.inl (supervisorFromValue_error hr)
      | ok r =>
          rw [hr] at h
          dsimp only at h
          split at h
          · cases h
          · cases h; exact Or.inr ⟨_, rfl⟩
  | router _ => cases hk
  | respond => cases hk
  | parallel => cases hk
  | join => cases hk
  | approval _ _ _ _ _ => cases hk

theorem afterRouter_error {cfg : GraphConfig} {pt : Point} {e : GraphExecError}
    (h : afterRouter cfg pt = .error e) : ∃ g, e = .graph g := by
  simp only [afterRouter, bind, Except.bind] at h
  cases hr : route cfg.graph pt.cursor pt.state with
  | error g => rw [hr] at h; cases h; exact ⟨g, rfl⟩
  | ok t => rw [hr] at h; cases h

theorem closureError_kind {pt : Point} {i : Op} {r : i.Res} {e : GraphExecError}
    (h : closureError pt i r = some e) :
    (∃ m, e = .agentTurn m) ∨ (∃ m, e = .tool m) ∨ ∃ m, e = .supervisor m := by
  unfold closureError at h
  split at h
  · cases h; exact Or.inl ⟨_, rfl⟩
  · cases h; exact Or.inr (Or.inl ⟨_, rfl⟩)
  · cases h; exact Or.inr (Or.inr ⟨_, rfl⟩)
  · exact nomatch h

/-- Only the shared counter reports the cap in a branch. -/
theorem Setup.BranchFault.not_cap {S : Setup} {label : String} {L : Ledger} {pt : Point}
    {id : String} (h : S.BranchFault label L pt (.iterationCap id)) : False := by
  cases h with
  | visit h =>
      cases h with
      | unknown hn he => exact nomatch he
      | closure n i r hn hi hr he hmiss =>
          rcases closureError_kind he with ⟨m, hm⟩ | ⟨m, hm⟩ | ⟨m, hm⟩ <;> exact nomatch hm
      | after n raw hn hk hrow he =>
          rcases effectAfter_error hk he with ⟨c, hc⟩ | ⟨m, hm⟩
          · exact nomatch hc
          · exact nomatch hm
      | router n hn hk he =>
          obtain ⟨g, hg⟩ := afterRouter_error he
          exact nomatch hg
      | segment n c hn hk hbad he => exact nomatch he
  | kind n m hn hk he => exact nomatch he

/-! ## The branches start -/

theorem sumOver_list {frontier : List BranchCursor} {G : Nat → Ghost} {f : Ghost → Nat}
    {h : BranchCursor → Nat} (hf : ∀ i bc, frontier[i]? = some bc → f (G i) = h bc) :
    sumOver frontier.length f G = (frontier.map h).sum := by
  rw [sumOver, Finset.sum_range, ← List.sum_ofFn]
  refine congrArg List.sum (List.ext_getElem (by simp) ?_)
  intro i hi hi'
  have hlt : i < frontier.length := by simpa using hi
  rw [List.getElem_ofFn, List.getElem_map]
  exact hf i _ (List.getElem?_eq_getElem hlt)

namespace Region

variable {S : Setup} {R : Region S}

/-- The ghosts a frontier starts with. -/
def startGhost (R : Region S) (frontier : List BranchCursor) (i : Nat) : Ghost :=
  match frontier[i]? with
  | some bc => ⟨slotPoint R.P bc, if bc.parked then .parked else .head⟩
  | none => ⟨R.P, .head⟩

theorem startGhost_eq {frontier : List BranchCursor} {i : Nat} {bc : BranchCursor}
    (h : frontier[i]? = some bc) :
    R.startGhost frontier i = ⟨slotPoint R.P bc, if bc.parked then .parked else .head⟩ := by
  rw [startGhost, h]

/-- Two lists related element by element, at an index. -/
theorem forall₂_at {α β : Type} {r : α → β → Prop} {xs : List α} {ys : List β}
    (h : List.Forall₂ r xs ys) {i : Nat} {x : α} (hx : xs[i]? = some x) :
    ∃ y, ys[i]? = some y ∧ r x y := by
  obtain ⟨hlen, hall⟩ := List.forall₂_iff_get.mp h
  obtain ⟨hi, hxi⟩ := List.getElem?_eq_some_iff.mp hx
  refine ⟨ys.get ⟨i, hlen ▸ hi⟩, List.getElem?_eq_getElem (hlen ▸ hi), ?_⟩
  have := hall i hi (hlen ▸ hi)
  rw [List.get_eq_getElem, hxi] at this
  exact this

/-- **THE BRANCHES START** with the region invariant. -/
theorem init {s : World} {frontier : List BranchCursor} (came : S.Came R.X R.k R.P s)
    (hfr : s.2.frontier = frontier)
    (hslots : List.Forall₂ (SlotOk S.cfg (rowAt s.1.ledger) R.P R.J) R.edges frontier)
    (hcap : spentSlots R.P frontier = 0 ∨
      R.P.visits.total + spentSlots R.P frontier ≤ maxNodeVisits)
    (hworkers : ∀ i bc, frontier[i]? = some bc → bc.parked = false → R.workers i)
    (hseed : s.2.globalVisits = R.P.visits.total + spentSlots R.P frontier)
    (hbv : s.2.branchVisits = .empty)
    (booked : visitsMade s.2.history + baseVisits s.2.history
      = R.P.visits.total + spentSlots R.P frontier + passes S.cfg s.2.history)
    (quiet : Quiet S.run S.cfg s.2.history)
    (kept : S.solo → s.1.record = some (S.regionRecord R.P frontier .running))
    (named : S.solo → checkSegment "run_id" S.run.runId = .ok ()) :
    R.Inv s (R.startGhost frontier) := by
  have hlen : frontier.length = R.edges.length := hslots.length_eq.symm
  have hused : sumOver R.edges.length (Ghost.used R.P) (R.startGhost frontier)
      = spentSlots R.P frontier := by
    rw [← hlen]
    refine sumOver_list ?_
    intro i bc hbc
    rw [startGhost_eq hbc, Ghost.used]
    cases bc.parked <;> rfl
  have hseen : sumOver R.edges.length (Ghost.seen R.P) (R.startGhost frontier)
      = spentSlots R.P frontier := by
    rw [← hlen]
    refine sumOver_list ?_
    intro i bc hbc
    rw [startGhost_eq hbc, Ghost.seen]
    cases bc.parked <;> rfl
  have hfly : sumOver R.edges.length Ghost.flying (R.startGhost frontier) = 0 := by
    refine Finset.sum_eq_zero ?_
    intro i hi
    rw [← hlen] at hi
    have hlt := Finset.mem_range.mp hi
    rw [startGhost_eq (List.getElem?_eq_getElem hlt), Ghost.flying]
    cases (frontier[i]).parked <;> rfl
  have href : sumOver R.edges.length Ghost.refused (R.startGhost frontier) = 0 := by
    refine Finset.sum_eq_zero ?_
    intro i hi
    rw [← hlen] at hi
    have hlt := Finset.mem_range.mp hi
    rw [startGhost_eq (List.getElem?_eq_getElem hlt), Ghost.refused]
    cases (frontier[i]).parked <;> rfl
  refine ⟨came, by rw [hfr]; exact hlen, ?_, ?_, ?_, ⟨?_, ?_, ?_, ?_⟩, ?_, quiet, ?_, named⟩
  · intro i x hx
    obtain ⟨bc, hbc, hs⟩ := forall₂_at hslots hx
    refine ⟨bc, by rw [hfr]; exact hbc, hs.label, by rw [startGhost_eq hbc], ?_, ?_, hs.full, ?_⟩
    · rw [startGhost_eq hbc]
      cases bc.parked <;> simp
    · rw [startGhost_eq hbc]
      intro hp
      refine hs.parked ?_
      cases hb : bc.parked with
      | true => rfl
      | false => rw [hb] at hp; cases hp
    · rw [startGhost_eq hbc]
      exact hs.path
  · intro i hi
    rw [← hlen] at hi
    rw [startGhost_eq (List.getElem?_eq_getElem hi)]
    cases (frontier[i]).parked <;> trivial
  · intro i hi hnw
    rw [← hlen] at hi
    have hbc := List.getElem?_eq_getElem hi
    rw [startGhost_eq hbc]
    cases hb : (frontier[i]).parked with
    | true => rfl
    | false => exact absurd (hworkers i _ hbc hb) hnw
  · rw [hused, href]
    exact hseed
  · rw [hused]
    exact hcap
  · intro _
    exact Or.inl hfly
  · rw [hseen]
    omega
  · intro key hkey
    rw [hbv] at hkey
    cases hkey
  · intro hs
    rw [hfr]
    exact kept hs

/-! ## The branches have settled -/

/-- An operation of the trunk that only reads keeps the invariant. -/
theorem Inv.readOp {s s' : World} {G : Nat → Ghost} (h : R.Inv s G) {i : Op} {r : i.Res}
    (he : S.step i s r s') (hsil : i.silent = true) (hstill : i.still = true)
    (hvisit : i.isVisit = false) (hdec : i.decides = false) : R.Inv s' G := by
  have hst := exec_silent (S.sub _ _ _ _ he) hsil
  have hmem := exec_still (S.sub _ _ _ _ he) hstill
  obtain ⟨hmade, hpass⟩ := h.books r hvisit
  have hload : loadedRecord s'.2.history = loadedRecord s.2.history := by
    obtain ⟨l, hl⟩ := h.came.loaded
    rw [hmem]
    exact (loadedRecord_snoc hl _).trans hl.symm
  refine ⟨h.came.mono (by rw [hst]; exact Ledger.le.refl _) (by rw [hst]; exact h.came.store) hload,
    by rw [hmem]; exact h.len, ?_, ?_, h.idle, ?_, by rw [hmem]; exact h.noted, ?_, ?_, h.named⟩
  · intro l x hx
    rw [hmem, hst]
    exact h.slots l x hx
  · intro l hl
    refine phaseOk_mono (h.phases l hl) (by rw [hst]; exact Ledger.le.refl _) ?_ ?_
    · intro e he
      rw [hmem]
      exact List.mem_append_left _ he
    · intro _ _ hrow
      rw [hst]
      exact hrow
  · rw [hmem]
    dsimp only
    rw [hmade, hpass]
    exact h.count
  · rw [hmem]
    exact quiet_snoc (not_pending hdec _ _)
  · intro hs
    rw [hst, hmem]
    exact h.kept hs

/-- When every branch is parked, the frontier holds the ends of the branch
    paths. -/
theorem Inv.ends {s : World} {G : Nat → Ghost} (h : R.Inv s G)
    (hparked : ∀ i, i < R.edges.length → (G i).phase = .parked) :
    List.Forall₂ (BranchEnd S.cfg (rowAt s.1.ledger) R.P R.J) R.edges s.2.frontier ∧
      (∀ bc ∈ s.2.frontier, R.P.visits.le bc.visits) ∧
      (∀ i bc, s.2.frontier[i]? = some bc → bc.visits = (G i).pt.visits) ∧
      spentAll R.P s.2.frontier = sumOver R.edges.length (Ghost.used R.P) G ∧
      spentAll R.P s.2.frontier = sumOver R.edges.length (Ghost.seen R.P) G := by
  have hfull : ∀ i bc, s.2.frontier[i]? = some bc →
      R.P.visits.le bc.visits ∧ bc.visits = (G i).pt.visits ∧
        ∃ x, R.edges[i]? = some x ∧ R.Slot s.1.ledger (G i) x bc := by
    intro i bc hbc
    have hi : i < R.edges.length := by
      rw [← h.len]
      exact (List.getElem?_eq_some_iff.mp hbc).1
    obtain ⟨bc', hbc', hs⟩ := h.slots i _ (List.getElem?_eq_getElem hi)
    rw [hbc] at hbc'
    cases hbc'
    have hpk := hs.parked.mpr (hparked i hi)
    rcases hs.full with ⟨-, hno⟩ | hle
    · rw [hpk] at hno; exact nomatch hno
    · refine ⟨hle, ?_, _, List.getElem?_eq_getElem hi, hs⟩
      have hv : R.P.visits.extend bc.visits = (G i).pt.visits := congrArg Point.visits hs.point
      rw [← hv, hle.extend_eq]
  have hphase : ∀ i bc, s.2.frontier[i]? = some bc → (G i).phase = .parked := by
    intro i bc hbc
    exact hparked i (by rw [← h.len]; exact (List.getElem?_eq_some_iff.mp hbc).1)
  refine ⟨?_, ?_, fun i bc hbc => (hfull i bc hbc).2.1, ?_, ?_⟩
  · refine List.forall₂_iff_get.mpr ⟨h.len.symm, ?_⟩
    intro i hi hi'
    obtain ⟨hle, hv, x, hx, hs⟩ := hfull i _ (List.getElem?_eq_getElem hi')
    rw [List.getElem?_eq_getElem hi] at hx
    cases hx
    have hcur : (s.2.frontier[i]).cursor = R.J := by
      have hj := hs.join (hphase i _ (List.getElem?_eq_getElem hi'))
      rw [← hs.point] at hj
      exact hj
    obtain ⟨m, hp⟩ := hs.path
    refine ⟨hs.label, hcur, m, ?_⟩
    rw [← hs.point, slotPoint, hle.extend_eq] at hp
    exact hp
  · intro bc hbc
    obtain ⟨i, hi⟩ := List.mem_iff_getElem?.mp hbc
    exact (hfull i bc hi).1
  · rw [spentAll, ← h.len]
    refine (sumOver_list ?_).symm
    intro i bc hbc
    rw [Ghost.used, hphase i bc hbc, (hfull i bc hbc).2.1]
    rfl
  · rw [spentAll, ← h.len]
    refine (sumOver_list ?_).symm
    intro i bc hbc
    rw [Ghost.seen, hphase i bc hbc, (hfull i bc hbc).2.1]
    rfl

/-- A stuck branch has halted for a reason the state shows. -/
theorem Inv.halted {s : World} {G : Nat → Ghost} (h : R.Inv s G) {i : Nat}
    {x : String × String} (hx : R.edges[i]? = some x) {e : GraphExecError}
    (hst : R.Stuck x.1 (G i) e) : S.Halted s R.P R.J x (G i).pt e := by
  have hph := h.phases i (List.getElem?_eq_some_iff.mp hx).1
  cases hst with
  | capped hp he =>
      unfold PhaseOk at hph
      rw [hp] at hph
      exact .capped hph.1 hph.2 he
  | unsaved c hbad he => exact .unsaved c hbad he
  | fault hne hp hf => exact .fault hne (hf s hph)

/-- A region one of whose branches is stuck explains the error. -/
theorem Inv.explain {s : World} {G : Nat → Ghost} (h : R.Inv s G)
    (hall : ∀ i x, R.edges[i]? = some x →
      (G i).phase = .parked ∨ ∃ e, R.Stuck x.1 (G i) e)
    {i : Nat} {x : String × String} (hx : R.edges[i]? = some x) {e : GraphExecError}
    (hst : R.Stuck x.1 (G i) e) (hcap : ∀ id, e ≠ .iterationCap id) : S.Explained s e := by
  have hslot : ∀ l y b, R.edges[l]? = some y → s.2.frontier[l]? = some b →
      R.Slot s.1.ledger (G l) y b := by
    intro l y b hy hb
    obtain ⟨b', hb', hs⟩ := h.slots l y hy
    rw [hb] at hb'
    cases hb'
    exact hs
  obtain ⟨bc, hbc, hs⟩ := h.slots i x hx
  refine .branch R.X R.k R.P R.J s.2.frontier i x bc h.came R.hJ h.kept h.frontierOk ?_ hx hbc ?_ hcap
  · intro l y b hy hb
    have hsl := hslot l y b hy hb
    rcases hall l y hy with hp | ⟨e', he'⟩
    · exact Or.inl (hsl.parked.mpr hp)
    · refine Or.inr ⟨e', ?_⟩
      rw [hsl.point]
      exact h.halted hy he'
  · rw [hs.point]
    exact h.halted hx hst

/-! ## The merge -/

/-- The postcondition of a region: the trunk is one step further, or the error is
    explained. -/
def Post (S : Setup) (X : S.Origin) (k : Nat) (s : World) :
    Except GraphExecError (Point × List Json) → Prop
  | .ok (pt, _) => S.Here X (k + 1) pt 0 0 s
  | .error e => S.Explained s e ∧ Quiet S.run S.cfg s.2.history

/-- Why a region entered at `P` has no result: what happened in it, and nowhere else. -/
inductive Lost (S : Setup) (P : Point) (J : String) (s : World) (e : GraphExecError) : Prop where
  | unsaved (hbad : checkSegment "run_id" S.run.runId ≠ .ok ())
  | capped (hcap : CapExceeded s.2.history) (hover : Over S.cfg s.1.ledger P J)
  | leave (he : nextLinear S.cfg J = .error e)
  | fault (x : String × String) (m : Nat) (pt : Point) (hx : x ∈ branchEdges S.cfg P.cursor)
      (hp : Steps (BranchStep S.cfg (rowAt s.1.ledger)) (branchStart P x) m pt)
      (hne : pt.cursor ≠ J) (h : S.BranchFault x.1 s.1.ledger pt e)

/-- The postcondition of a region that also says which errors come from it: its last
    checkpoint was taken, or something in it went wrong. -/
def Outcome (S : Setup) (X : S.Origin) (k : Nat) (P : Point) (J : String) (s : World)
    (r : Except GraphExecError (Point × List Json)) : Prop :=
  Post S X k s r ∧ match r with
    | .ok _ => checkSegment "run_id" S.run.runId = .ok ()
    | .error e => Lost S P J s e

/-- A region one of whose branches is stuck is lost. -/
theorem Inv.lost {s : World} {G : Nat → Ghost} (h : R.Inv s G) {i : Nat} {x : String × String}
    (hx : R.edges[i]? = some x) {e : GraphExecError} (hst : R.Stuck x.1 (G i) e) :
    Lost S R.P R.J s e := by
  cases h.halted hx hst with
  | capped hcap hover he => exact .capped hcap hover
  | unsaved c hbad he => exact .unsaved hbad
  | fault hne hf =>
      obtain ⟨bc, -, hs⟩ := h.slots i x hx
      obtain ⟨m, hp⟩ := hs.path
      exact .fault x m _ (List.mem_of_getElem? hx) hp hne hf

/-- The frontier is already in label order. -/
theorem Inv.sorted {s : World} {G : Nat → Ghost} (h : R.Inv s G) :
    s.2.frontier.insertionSort (fun a b => a.branch ≤ b.branch) = s.2.frontier := by
  refine List.Pairwise.insertionSort_eq ?_
  have hlabel : ∀ i (hi : i < s.2.frontier.length),
      (s.2.frontier[i]).branch = (R.edges.get ⟨i, h.len ▸ hi⟩).1 := by
    intro i hi
    obtain ⟨bc, hbc, hs⟩ := h.slots i _ (List.getElem?_eq_getElem (h.len ▸ hi))
    rw [List.getElem?_eq_getElem hi] at hbc
    cases hbc
    exact hs.label
  refine List.pairwise_iff_getElem.mpr ?_
  intro i j hi hj hij
  rw [hlabel i hi, hlabel j hj]
  exact List.pairwise_iff_getElem.mp (GraphConfig.branch_sorted R.P.cursor) i j
    (h.len ▸ hi) (h.len ▸ hj) hij

/-- **THE MERGE IS THE REGION STEP** of the ledger. -/
theorem Inv.merge_step {s : World} {G : Nat → Ghost} (h : R.Inv s G)
    (hparked : ∀ i, i < R.edges.length → (G i).phase = .parked) {mv : Visits}
    (hmv : ∀ key, mv.get? key = R.P.visits.get? key ∨
      ∃ i, i < R.edges.length ∧ mv.get? key = (G i).pt.visits.get? key)
    {next : String} (hnext : nextLinear S.cfg R.J = .ok next) :
    TrunkStep S.cfg (rowAt s.1.ledger) R.P
        ⟨next, s.2.frontier.foldl (mergeBranch R.P.state.messages.length) R.P.state,
          s.2.branchVisits.extend (s.2.frontier.foldl (fun m bc => m.maxMerge bc.visits) mv)⟩ ∧
      visitsMade s.2.history + baseVisits s.2.history
        = (s.2.branchVisits.extend
          (s.2.frontier.foldl (fun m bc => m.maxMerge bc.visits) mv)).total +
          passes S.cfg s.2.history := by
  obtain ⟨hends, hle, hvis, hspent, hseen⟩ := h.ends hparked
  have hmem : ∀ i, i < R.edges.length → ∃ bc ∈ s.2.frontier, bc.visits = (G i).pt.visits := by
    intro i hi
    have hi' : i < s.2.frontier.length := by rw [h.len]; exact hi
    exact ⟨_, List.getElem_mem hi', hvis i _ (List.getElem?_eq_getElem hi')⟩
  have heq : s.2.branchVisits.extend (s.2.frontier.foldl (fun m bc => m.maxMerge bc.visits) mv)
      = (mergeRegion R.P s.2.frontier next).visits := by
    refine mergedVisits_eq ?_ hle ?_
    · intro key
      rcases hmv key with hk | ⟨i, hi, hk⟩
      · exact Or.inl hk
      · obtain ⟨bc, hbc, hv⟩ := hmem i hi
        exact Or.inr ⟨bc, hbc, by rw [hk, hv]⟩
    · intro key hkey
      obtain ⟨i, hi, hsome⟩ := h.noted key hkey
      obtain ⟨bc, hbc, hv⟩ := hmem i hi
      exact ⟨bc, hbc, by rw [hv]; exact hsome⟩
  rw [heq]
  refine ⟨.region R.node R.J next s.2.frontier R.hnode R.hkind R.hJ hends hnext ?_ rfl, ?_⟩
  · rw [hspent]
    exact h.count.cap
  · rw [mergeRegion_total R.ok hends, hseen]
    have := h.count.made_eq
    omega

theorem mergeFrontier_sat {s : World} {G : Nat → Ghost} (h : R.Inv s G)
    (hparked : ∀ i, i < R.edges.length → (G i).phase = .parked) {mv : Visits}
    (hmv : ∀ key, mv.get? key = R.P.visits.get? key ∨
      ∃ i, i < R.edges.length ∧ mv.get? key = (G i).pt.visits.get? key) (trail : List Json) :
    (mergeFrontier S.run S.cfg R.J R.P trail mv).Sat S.worldRely S.step S.Told S.Settles
      (Outcome S R.X R.k R.P R.J) s := by
  intro s₁ hr₁ r₁ s₂ he₁
  have h₁ := h.rely hr₁
  have hread : r₁ = s₁.2.frontier := (S.sub _ _ _ _ he₁).1
  have h₂ := h₁.readOp he₁ rfl rfl rfl rfl
  have hm₂ := exec_still (S.sub _ _ _ _ he₁) rfl
  refine ⟨S.told_silent he₁ rfl h₁.came.store h₁.quiet trivial, ?_⟩
  intro s₃ hr₃ r₃ s₄ he₃
  have h₃ := h₂.rely hr₃
  have hcol : r₃ = s₃.2.branchVisits := (S.sub _ _ _ _ he₃).1
  have h₄ := h₃.readOp he₃ rfl rfl rfl rfl
  have hm₄ := exec_still (S.sub _ _ _ _ he₃) rfl
  refine ⟨S.told_silent he₃ rfl h₃.came.store h₃.quiet trivial, ?_⟩
  have hfr : r₁ = s₄.2.frontier := by rw [hread, hm₄, hr₃.2, hm₂]
  have hbv : r₃ = s₄.2.branchVisits := by rw [hcol, hm₄]
  show (Main.bind (Main.ofExcept (nextLinear S.cfg R.J)) _).Sat _ _ _ _ _ _
  cases hnext : nextLinear S.cfg R.J with
  | error e =>
      intro s₅ hr₅
      have h₅ := h₄.rely hr₅
      exact ⟨⟨.leave R.X R.k R.P R.node R.J h₅.came R.hnode R.hkind R.hJ hnext, h₅.quiet⟩,
        .leave hnext⟩
  | ok next =>
      rw [hfr, h₄.sorted, hbv]
      have hstep : ∀ s₅, S.worldRely s₄ s₅ → TrunkStep S.cfg (rowAt s₅.1.ledger) R.P _ :=
        fun s₅ hr₅ => ((h₄.merge_step hparked hmv hnext).1).mono hr₅.1.1.oracle
      refine Setup.saveRecord_sat ?_ ?_ ?_
      · intro s₅ hr₅
        have h₅ := h₄.rely hr₅
        refine .ofQuiet rfl h₅.came.store ?_ h₅.quiet
        intro hseg
        exact recordOk_trunk hseg (h₅.came.step (hstep s₅ hr₅)).on (Or.inl rfl)
      · intro s₅ hr₅ hseg s₆ hr₆
        have h₅ := h₄.rely hr₅
        have hcame := h₅.came.step (hstep s₅ hr₅)
        have hbook := (h₄.merge_step hparked hmv hnext).2
        refine ⟨Setup.Here.rely (hcame.saved ?_ hseg) hr₆, hseg⟩
        rw [hr₅.2]
        exact hbook
      · intro s' c hbad hq
        exact ⟨⟨.unsaved c hbad rfl, hq⟩, .unsaved hbad⟩

/-- The results of the branches, as the ghosts explain them. -/
structure Settled (R : Region S) (G : Nat → Ghost)
    (rs : List (Except GraphExecError BranchOutcome)) : Prop where
  failed : ∀ e, .error e ∈ rs → ∃ i x, R.edges[i]? = some x ∧ R.Stuck x.1 (G i) e
  done : ∀ o, .ok o ∈ rs → ∃ i, i < R.edges.length ∧ o.visits = (G i).pt.visits
  parked : (∀ r ∈ rs, ∃ o, r = .ok o) → ∀ i, i < R.edges.length → (G i).phase = .parked
  all : ∀ i x, R.edges[i]? = some x → (G i).phase = .parked ∨ ∃ e, R.Stuck x.1 (G i) e

/-- A region that exceeded the cap: the failed record, then the error. -/
theorem failFrontier_sat {s : World} {G : Nat → Ghost} (h : R.Inv s G) {i : Nat}
    (hi : i < R.edges.length) (hp : (G i).phase = .capped) :
    (Main.perform Op.readFrontier >>= fun lastFrontier =>
      saveRecord ((frontierCoord S.run S.cfg R.P).record lastFrontier .failed) >>= fun _ =>
        (Main.fail (.iterationCap S.run.runId) : Drive (Point × List Json))).Sat S.worldRely S.step
      S.Told S.Settles (Outcome S R.X R.k R.P R.J) s := by
  have hover : ∀ {s' : World}, R.Inv s' G →
      CapExceeded s'.2.history ∧ Over S.cfg s'.1.ledger R.P R.J := by
    intro s' h'
    have hph := h'.phases i hi
    unfold PhaseOk at hph
    rw [hp] at hph
    exact hph
  have hrec : ∀ {s' : World} (frontier : List BranchCursor), R.Inv s' G →
      checkSegment "run_id" S.run.runId = .ok () →
      RecordOk S.T s'.1.ledger ((frontierCoord S.run S.cfg R.P).record frontier .failed) := by
    intro s' frontier h' hseg
    exact ⟨⟨rfl, rfl⟩, hseg, h'.came.on, Or.inr ⟨R.node, R.J, R.hnode, R.hkind, R.hJ, (hover h').2⟩⟩
  intro s₁ hr₁ r₁ s₂ he₁
  have h₁ := h.rely hr₁
  have h₂ := h₁.readOp he₁ rfl rfl rfl rfl
  refine ⟨S.told_silent he₁ rfl h₁.came.store h₁.quiet trivial, ?_⟩
  refine Setup.saveRecord_sat (k := fun _ => Main.fail (.iterationCap S.run.runId)) ?_ ?_ ?_
  · intro s₃ hr₃
    have h₃ := h₂.rely hr₃
    exact .ofQuiet rfl h₃.came.store (hrec r₁ h₃) h₃.quiet
  · intro s₃ hr₃ hseg s₄ hr₄
    have h₃ := h₂.rely hr₃
    have hl := h₃.came.loads
    have hcame : S.Came R.X R.k R.P (Setup.savedWorld s₃
        ((frontierCoord S.run S.cfg R.P).record r₁ .failed)) :=
      h₃.came.mono (Ledger.le.refl _) (h₃.came.store.save (hrec r₁ h₃ hseg))
        ((loadedRecord_snoc hl _).trans hl.symm)
    obtain ⟨⟨e, he, hr⟩, hov⟩ := hover h₃
    have hcap : CapExceeded s₄.2.history := by
      rw [hr₄.2]
      exact ⟨e, List.mem_append_left _ he, hr⟩
    refine ⟨⟨.cap R.X R.k R.P (hcame.rely hr₄)
      (Or.inr ⟨R.node, R.J, R.hnode, R.hkind, R.hJ, hcap, hov.mono hr₄.1.1⟩) ?_ rfl, ?_⟩,
      .capped hcap (hov.mono hr₄.1.1)⟩
    · intro hs
      rw [hr₄.1.2.2 hs]
      exact ⟨_, rfl, rfl⟩
    · rw [hr₄.2]
      exact quiet_snoc (not_pending rfl _ _)
  · intro s' c hbad hq
    exact ⟨⟨.unsaved c hbad rfl, hq⟩, .unsaved hbad⟩

theorem settleFrontier_sat {s : World} {G : Nat → Ghost} (h : R.Inv s G)
    {rs : List (Except GraphExecError BranchOutcome)} (hrs : R.Settled G rs) :
    (settleFrontier S.run S.cfg R.J R.P rs).Sat S.worldRely S.step S.Told S.Settles
      (Outcome S R.X R.k R.P R.J) s := by
  obtain ⟨herr, hnone, hkeys⟩ := foldResults_spec rs none [] R.P.visits
  unfold settleFrontier
  generalize foldResults rs (none, [], R.P.visits) = folded at herr hnone hkeys ⊢
  obtain ⟨err, trail, mv⟩ := folded
  dsimp only at herr hnone hkeys
  cases err with
  | none =>
      obtain ⟨-, hall⟩ := hnone rfl
      refine mergeFrontier_sat h (hrs.parked hall) ?_ trail
      intro key
      rcases hkeys key with hk | ⟨o, ho, hk⟩
      · exact Or.inl hk
      · obtain ⟨i, hi, hv⟩ := hrs.done o ho
        exact Or.inr ⟨i, hi, by rw [hk, hv]⟩
  | some e =>
      have hmem : .error e ∈ rs := by
        rcases herr e rfl with hc | hm
        · exact nomatch hc
        · exact hm
      obtain ⟨i, x, hx, hst⟩ := hrs.failed e hmem
      have hexp : (∀ id, e ≠ .iterationCap id) → ∀ s', S.worldRely s s' →
          Outcome S R.X R.k R.P R.J s' (.error e) := by
        intro hcap s' hr
        exact ⟨⟨(h.rely hr).explain hrs.all hx hst hcap, (h.rely hr).quiet⟩,
          (h.rely hr).lost hx hst⟩
      cases e with
      | iterationCap id =>
          have hi : i < R.edges.length := (List.getElem?_eq_some_iff.mp hx).1
          have hcap : (G i).phase = .capped ∧ id = S.run.runId := by
            cases hst with
            | capped hp he => cases he; exact ⟨hp, rfl⟩
            | unsaved c hbad he => exact nomatch he
            | fault hne hp hf => exact (hf s (h.phases i hi)).not_cap.elim
          obtain ⟨hp, hid⟩ := hcap
          subst hid
          exact failFrontier_sat h hi hp
      | unknownNode id => exact hexp (by simp)
      | unknownRun id => exact hexp (by simp)
      | alreadyCompleted id => exact hexp (by simp)
      | graph g => exact hexp (by simp)
      | checkpoint c => exact hexp (by simp)
      | agentTurn m => exact hexp (by simp)
      | tool m => exact hexp (by simp)
      | supervisor m => exact hexp (by simp)

end Region

/-! ## The whole region -/

/-- The slots whose branches run, with their places. -/
def unparked (frontier : List BranchCursor) : List (BranchCursor × Nat) :=
  frontier.zipIdx.filter fun x => !x.1.parked

theorem unparked_get {frontier : List BranchCursor} {i : Nat} {x : BranchCursor × Nat}
    (h : (unparked frontier)[i]? = some x) : frontier[x.2]? = some x.1 ∧ x.1.parked = false := by
  have hmem := List.mem_of_getElem? h
  obtain ⟨h1, h2⟩ := List.mem_filter.mp hmem
  refine ⟨List.mk_mem_zipIdx_iff_getElem?.mp h1, ?_⟩
  simpa using h2

theorem unparked_inj {frontier : List BranchCursor} {i j : Nat} {x y : BranchCursor × Nat}
    (hi : (unparked frontier)[i]? = some x) (hj : (unparked frontier)[j]? = some y)
    (heq : x.2 = y.2) : i = j := by
  have hnd : ((unparked frontier).map (·.2)).Nodup := by
    refine List.Nodup.sublist (List.Sublist.map _ (List.filter_sublist (l := frontier.zipIdx))) ?_
    rw [List.zipIdx_map_snd]
    exact List.nodup_range'
  have hi' : ((unparked frontier).map (·.2))[i]? = some x.2 := by rw [List.getElem?_map, hi]; rfl
  have hj' : ((unparked frontier).map (·.2))[j]? = some x.2 := by
    rw [List.getElem?_map, hj, heq]
    rfl
  exact (List.getElem?_inj (List.getElem?_eq_some_iff.mp hi').1 hnd).mp (hi'.trans hj'.symm)

theorem unparked_mem {frontier : List BranchCursor} {j : Nat} {bc : BranchCursor}
    (h : frontier[j]? = some bc) (hp : bc.parked = false) :
    ∃ i : Nat, (unparked frontier)[i]? = some (bc, j) := by
  have hmem : (bc, j) ∈ unparked frontier := by
    refine List.mem_filter.mpr ⟨List.mk_mem_zipIdx_iff_getElem?.mpr h, ?_⟩
    simpa using hp
  exact List.mem_iff_getElem?.mp hmem

section Whole

variable {S : Setup} {X : S.Origin} {P : Point} {k : Nat} {J : String} {node : Node}
  {frontier : List BranchCursor}

/-- An opened region before its branches start. -/
structure Opened (S : Setup) (X : S.Origin) (k : Nat) (P : Point) (frontier : List BranchCursor)
    (s : World) : Prop where
  came : S.Came X k P s
  ok : FrontierOk S.cfg (rowAt s.1.ledger) P frontier
  memory : s.2.frontier = frontier ∧ s.2.branchVisits = .empty
  booked : visitsMade s.2.history + baseVisits s.2.history
    = P.visits.total + spentSlots P frontier + passes S.cfg s.2.history
  quiet : Quiet S.run S.cfg s.2.history

theorem Opened.rely {s s' : World} (h : Opened S X k P frontier s) (hr : S.worldRely s s') :
    Opened S X k P frontier s' :=
  ⟨h.came.rely hr, h.ok.mono hr.1.1.oracle, by rw [hr.2]; exact h.memory,
    by rw [hr.2]; exact h.booked, by rw [hr.2]; exact h.quiet⟩

/-- An operation of the opening that leaves the opened slots alone. -/
theorem Opened.next {s s' : World} (h : Opened S X k P frontier s) {i : Op} {r : i.Res}
    (hhist : s'.2.history = s.2.history ++ [(s.1, ⟨i, r⟩)]) (hvisit : i.isVisit = false)
    (hdec : i.decides = false) (hL : s'.1.ledger = s.1.ledger) (hst : StoreOk S.T s'.1)
    (hmem : s'.2.frontier = frontier ∧ s'.2.branchVisits = .empty) :
    Opened S X k P frontier s' := by
  obtain ⟨l, hl⟩ := h.came.loaded
  have hp : i.isPass S.cfg = false := Op.isPass_of_not_visit S.cfg hvisit
  refine ⟨h.came.mono (by rw [hL]; exact Ledger.le.refl _) hst ?_, by rw [hL]; exact h.ok, hmem,
    ?_, ?_⟩
  · rw [hhist, loadedRecord_snoc hl, hl]
  · rw [hhist, visitsMade_snoc, passes_snoc, baseVisits_snoc hl]
    simp only [hvisit, hp]
    exact h.booked
  · rw [hhist]
    exact quiet_snoc (not_pending hdec _ _)

/-- The branches run, and the region settles. -/
theorem fork_sat (hn : S.cfg.graph.node P.cursor = some node) (hk : node.kind = .parallel)
    (hJ : findJoinForParallel S.cfg P.cursor = .ok J) {s : World}
    (h : Opened S X k P frontier s)
    (hseed : s.2.globalVisits = P.visits.total + resumedBranchVisits P.visits frontier)
    (kept : S.solo → s.1.record = some (S.regionRecord P frontier .running) ∧
      checkSegment "run_id" S.run.runId = .ok ()) :
    (Main.joinAll (branchPrograms S.run S.cfg J (frontierCoord S.run S.cfg P) frontier) >>=
      settleFrontier S.run S.cfg J P).Sat S.worldRely S.step S.Told S.Settles
      (Region.Outcome S X k P J) s := by
  obtain ⟨J', hJ', hslots⟩ := h.ok.slots
  have hJJ : J' = J := Except.ok.inj (hJ'.symm.trans hJ)
  subst hJJ
  let R : Region S := ⟨X, k, P, J', fun i => ∃ bc, frontier[i]? = some bc ∧ bc.parked = false,
    node, hn, hk, hJ⟩
  have hslots' : List.Forall₂ (SlotOk S.cfg (rowAt s.1.ledger) P J') R.edges frontier := hslots
  have hlen : R.edges.length = frontier.length := hslots'.length_eq
  have hinit : R.Inv s (R.startGhost frontier) :=
    Region.init h.came h.memory.1 hslots' h.ok.cap (fun i bc hbc hp => ⟨bc, hbc, hp⟩)
      (by rw [hseed, resumedBranchVisits_eq hslots]) h.memory.2 h.booked h.quiet
      (fun hs => (kept hs).1) (fun hs => (kept hs).2)
  -- worker `i` is the branch of the `i`-th unparked slot
  have hworker : ∀ {i : Nat} {w : Prog Op Op.Res GraphExecError BranchOutcome},
      (branchPrograms S.run S.cfg J' (frontierCoord S.run S.cfg P) frontier)[i]? = some w →
      ∃ bc j x, (unparked frontier)[i]? = some (bc, j) ∧ frontier[j]? = some bc ∧
        bc.parked = false ∧ R.edges[j]? = some x ∧ bc.branch = x.1 ∧
        w = driveBranch S.run S.cfg J' j bc.branch (frontierCoord S.run S.cfg P) maxNodeVisits
          (slotPoint P bc) [] := by
    intro i w hw
    unfold branchPrograms at hw
    rw [List.getElem?_map] at hw
    obtain ⟨y, hy, hyw⟩ := Option.map_eq_some_iff.mp hw
    obtain ⟨bc, j⟩ := y
    obtain ⟨hbc, hp⟩ := unparked_get hy
    have hj : j < R.edges.length := by
      rw [hlen]
      exact (List.getElem?_eq_some_iff.mp hbc).1
    obtain ⟨bc', hbc', hslot⟩ := Region.forall₂_at hslots' (List.getElem?_eq_getElem hj)
    rw [hbc] at hbc'
    cases hbc'
    exact ⟨bc, j, _, hy, hbc, hp, List.getElem?_eq_getElem hj, hslot.label, hyw.symm⟩
  have hwlen : (branchPrograms S.run S.cfg J' (frontierCoord S.run S.cfg P) frontier).length
      = (unparked frontier).length := by
    rw [branchPrograms, List.length_map]
    rfl
  let idx : Nat → Nat := fun i => (((unparked frontier)[i]?).map (·.2)).getD 0
  have hidx : ∀ {i : Nat} {y : BranchCursor × Nat}, (unparked frontier)[i]? = some y →
      idx i = y.2 := by
    intro i y hy
    show (((unparked frontier)[i]?).map (·.2)).getD 0 = y.2
    rw [hy]
    rfl
  let label : Nat → String := fun j => (R.edges[j]?.map (·.1)).getD ""
  have hlab : ∀ {j : Nat} {x : String × String}, R.edges[j]? = some x → label j = x.1 := by
    intro j x hx
    show (R.edges[j]?.map (·.1)).getD "" = x.1
    rw [hx]
    rfl
  -- the branch of worker `i`
  have hbranch : ∀ {i : Nat},
      i < (branchPrograms S.run S.cfg J' (frontierCoord S.run S.cfg P) frontier).length →
      ∃ x, R.edges[idx i]? = some x ∧ label (idx i) = x.1 := by
    intro i hi
    obtain ⟨bc, j, x, hy, -, -, hx, -, -⟩ := hworker (List.getElem?_eq_getElem hi)
    rw [hidx hy]
    exact ⟨x, hx, hlab hx⟩
  refine ⟨Ghost, R.Inv, R.startGhost frontier, idx, fun i => R.BranchPost (label (idx i)), ?_,
    hinit, ?_, ?_, ?_, ?_⟩
  · intro s s' G hG hr
    exact hG.rely hr
  · intro i j hi hj hij
    rw [hwlen] at hi hj
    have hi' := List.getElem?_eq_getElem hi
    have hj' := List.getElem?_eq_getElem hj
    rw [hidx hi', hidx hj'] at hij
    exact unparked_inj hi' hj' hij
  · intro i w hw
    obtain ⟨bc, j, x, hy, hbc, hp, hx, hlabel, hweq⟩ := hworker hw
    dsimp only
    rw [hidx hy, hlab hx, hweq, hlabel]
    have hghost : R.startGhost frontier j = ⟨slotPoint P bc, .head⟩ := by
      rw [Region.startGhost_eq hbc, hp]
      rfl
    rw [hghost]
    have hj : j < R.edges.length := (List.getElem?_eq_some_iff.mp hx).1
    refine Region.driveBranch_sat hj ⟨bc, hbc, hp⟩ hx maxNodeVisits (slotPoint P bc) []
      (Nat.le_add_left _ _) ?_
    obtain ⟨bc', hbc', hs⟩ := hinit.slots j x hx
    have hin := hs.inside (List.mem_of_getElem? hx)
    rw [hghost] at hin
    exact hin.grown
  · intro s' G i r hG hi hres e he
    subst he
    obtain ⟨x, hx, hlx⟩ := hbranch hi
    obtain ⟨bc, -, hs⟩ := hG.slots _ _ hx
    obtain ⟨m, hp⟩ := hs.path
    rw [hlx] at hres
    exact ⟨X, k, P, node, J', x, m, _, hG.came, hn, hk, hJ, List.mem_of_getElem? hx, hp,
      hG.halted hx hres⟩
  · intro s' G rs hG hrlen hres
    have hres' : ∀ {i : Nat} {r : Except GraphExecError BranchOutcome}, rs[i]? = some r →
        ∃ x, R.edges[idx i]? = some x ∧ R.BranchPost x.1 (G (idx i)) r := by
      intro i r hi
      obtain ⟨x, hx, hlx⟩ := hbranch (i := i) (by
        rw [← hrlen]
        exact (List.getElem?_eq_some_iff.mp hi).1)
      have hq := hres i r hi
      dsimp only at hq
      rw [hlx] at hq
      exact ⟨x, hx, hq⟩
    -- every branch that runs has a result
    have hrun : ∀ j, R.workers j → ∃ i r, rs[i]? = some r ∧ idx i = j := by
      intro j hj
      obtain ⟨bc, hbc, hp⟩ := hj
      obtain ⟨i, hy⟩ := unparked_mem hbc hp
      have hilt : i < rs.length := by
        rw [hrlen, hwlen]
        exact (List.getElem?_eq_some_iff.mp hy).1
      exact ⟨i, _, List.getElem?_eq_getElem hilt, hidx hy⟩
    refine Region.settleFrontier_sat hG ⟨?_, ?_, ?_, ?_⟩
    · intro e he
      obtain ⟨i, hi⟩ := List.mem_iff_getElem?.mp he
      obtain ⟨x, hx, hq⟩ := hres' hi
      exact ⟨_, x, hx, hq⟩
    · intro o ho
      obtain ⟨i, hi⟩ := List.mem_iff_getElem?.mp ho
      obtain ⟨x, hx, hq⟩ := hres' hi
      exact ⟨_, (List.getElem?_eq_some_iff.mp hx).1, hq.2⟩
    · intro hall j hj
      by_cases hwk : R.workers j
      · obtain ⟨i, r, hi, hij⟩ := hrun j hwk
        obtain ⟨o, ho⟩ := hall r (List.mem_of_getElem? hi)
        obtain ⟨x, -, hq⟩ := hres' hi
        rw [ho, hij] at hq
        exact hq.1
      · exact hG.idle j hj hwk
    · intro j x hx
      by_cases hwk : R.workers j
      · obtain ⟨i, r, hi, hij⟩ := hrun j hwk
        obtain ⟨y, hy, hq⟩ := hres' hi
        rw [hij] at hy hq
        rw [hx] at hy
        cases hy
        cases r with
        | ok o => exact Or.inl hq.1
        | error e => exact Or.inr ⟨e, hq⟩
      · exact Or.inl (hG.idle j (List.getElem?_eq_some_iff.mp hx).1 hwk)

/-- A parallel region, whatever the schedule of its branches and whatever the other
    calls do. -/
theorem driveFrontier_outcome (hn : S.cfg.graph.node P.cursor = some node)
    (hk : node.kind = .parallel) (hJ : findJoinForParallel S.cfg P.cursor = .ok J)
    (persist : Bool) {s : World} (came : S.Came X k P s)
    (hf : FrontierOk S.cfg (rowAt s.1.ledger) P frontier)
    (booked : visitsMade s.2.history + baseVisits s.2.history
      = P.visits.total + spentSlots P frontier + passes S.cfg s.2.history)
    (quiet : Quiet S.run S.cfg s.2.history)
    (kept : persist = false → S.solo →
      s.1.record = some (S.regionRecord P frontier .running) ∧
        checkSegment "run_id" S.run.runId = .ok ()) :
    (driveFrontier S.run S.cfg J P frontier persist).Sat S.worldRely S.step S.Told S.Settles
      (Region.Outcome S X k P J) s := by
  unfold driveFrontier
  intro s₁ hr₁ r₁ s₂ he₁
  have hex₁ := S.sub _ _ _ _ he₁
  have hst₁ := exec_silent hex₁ rfl
  have hmem₁ : s₂.2 = { s₁.2 with
      frontier := frontier
      branchVisits := .empty
      history := s₁.2.history ++ [(s₁.1, ⟨.openFrontier frontier, r₁⟩)] } := by
    rw [hex₁.2]; rfl
  have hq₁ : Quiet S.run S.cfg s₁.2.history := by rw [hr₁.2]; exact quiet
  have came₁ := came.rely hr₁
  have ho₂ : Opened S X k P frontier s₂ := by
    obtain ⟨l, hl⟩ := came₁.loaded
    refine ⟨came₁.mono (by rw [hst₁]; exact Ledger.le.refl _) (by rw [hst₁]; exact came₁.store) ?_,
      ?_, by rw [hmem₁]; exact ⟨rfl, rfl⟩, ?_, ?_⟩
    · rw [hmem₁]
      exact (loadedRecord_snoc hl _).trans hl.symm
    · rw [hst₁]
      exact hf.mono hr₁.1.1.oracle
    · rw [hmem₁]
      dsimp only
      rw [visitsMade_snoc, passes_snoc, baseVisits_snoc hl]
      simp only [Op.isVisit, Op.isPass]
      rw [hr₁.2]
      exact booked
    · rw [hmem₁]
      exact quiet_snoc (not_pending rfl _ _)
  refine ⟨S.told_silent he₁ rfl came₁.store hq₁ trivial, ?_⟩
  -- the seed of the counter, then the branches
  have hseed : ∀ s₃, Opened S X k P frontier s₃ →
      (S.solo → s₃.1.record = some (S.regionRecord P frontier .running) ∧
        checkSegment "run_id" S.run.runId = .ok ()) →
      (Main.perform (Op.seedVisits (P.visits.total + resumedBranchVisits P.visits frontier)) >>=
        fun _ => Main.joinAll (branchPrograms S.run S.cfg J (frontierCoord S.run S.cfg P) frontier)
          >>= settleFrontier S.run S.cfg J P).Sat S.worldRely S.step S.Told S.Settles
        (Region.Outcome S X k P J) s₃ := by
    intro s₃ ho₃ kept₃ s₄ hr₄ r₄ s₅ he₄
    have hex₄ := S.sub _ _ _ _ he₄
    have hst₄ := exec_silent hex₄ rfl
    have ho₄ := ho₃.rely hr₄
    have hmem₄ : s₅.2 = { s₄.2 with
        globalVisits := P.visits.total + resumedBranchVisits P.visits frontier
        history := s₄.2.history ++ [(s₄.1, ⟨.seedVisits _, r₄⟩)] } := by
      rw [hex₄.2]; rfl
    refine ⟨S.told_silent he₄ rfl ho₄.came.store ho₄.quiet trivial, ?_⟩
    refine fork_sat hn hk hJ (ho₄.next (exec_history hex₄) rfl rfl (by rw [hst₄])
      (by rw [hst₄]; exact ho₄.came.store) (by rw [hmem₄]; exact ho₄.memory))
      (by rw [hmem₄]) ?_
    intro hs
    rw [hst₄, hr₄.1.2.2 hs]
    exact kept₃ hs
  cases persist with
  | false =>
      refine hseed s₂ ho₂ ?_
      intro hs
      rw [hst₁, hr₁.1.2.2 hs]
      exact kept rfl hs
  | true =>
      intro s₃ hr₃ r₃ s₄ he₃
      have ho₃ := ho₂.rely hr₃
      have hex₃ := S.sub _ _ _ _ he₃
      have hrec : (frontierCoord S.run S.cfg P).record s₃.2.frontier .running
          = S.regionRecord P frontier .running := by
        rw [ho₃.memory.1]
        rfl
      have hr : r₃ = (s₃.1.save (S.regionRecord P frontier .running)).map fun _ => () := by
        rw [← hrec]
        exact hex₃.1
      have hst₃ : s₄.1 = storeAfter s₃.1 (s₃.1.save (S.regionRecord P frontier .running)) := by
        rw [← hrec, hex₃.2]
        rfl
      have hmem₃ := exec_still hex₃ rfl
      rcases save_cases s₃.1 (S.regionRecord P frontier .running) with
        ⟨hseg, heq⟩ | ⟨c, hseg, heq⟩
      · rw [heq] at hr hst₃
        have hok : StoreOk S.T s₄.1 := by
          rw [hst₃]
          exact ho₃.came.store.save (Region.recordOk_region hseg ho₃.came.on ho₃.ok)
        have hledger : s₄.1.ledger = s₃.1.ledger := by rw [hst₃]; rfl
        refine ⟨⟨by rw [hledger]; exact Ledger.le.refl _, hok, exec_history hex₃, trivial,
          ho₃.quiet.follows _⟩, ?_⟩
        rw [hr]
        refine hseed s₄ (ho₃.next (exec_history hex₃) rfl rfl hledger hok
          (by rw [hmem₃]; exact ho₃.memory)) ?_
        intro _
        exact ⟨by rw [hst₃]; rfl, hseg⟩
      · rw [heq] at hr hst₃
        have hst₃' : s₄.1 = s₃.1 := hst₃
        have hok : StoreOk S.T s₄.1 := by rw [hst₃']; exact ho₃.came.store
        refine ⟨⟨by rw [hst₃']; exact Ledger.le.refl _, hok, exec_history hex₃, trivial,
          ho₃.quiet.follows _⟩, ?_⟩
        rw [hr]
        intro s₅ hr₅
        refine ⟨⟨.unsaved c hseg rfl, ?_⟩, .unsaved hseg⟩
        rw [hr₅.2, exec_history hex₃]
        exact quiet_snoc (not_pending rfl _ _)

/-- **A PARALLEL REGION** is one step of the trunk, or its error is explained. -/
theorem driveFrontier_sat (hn : S.cfg.graph.node P.cursor = some node)
    (hk : node.kind = .parallel) (hJ : findJoinForParallel S.cfg P.cursor = .ok J)
    (persist : Bool) {s : World} (came : S.Came X k P s)
    (hf : FrontierOk S.cfg (rowAt s.1.ledger) P frontier)
    (booked : visitsMade s.2.history + baseVisits s.2.history
      = P.visits.total + spentSlots P frontier + passes S.cfg s.2.history)
    (quiet : Quiet S.run S.cfg s.2.history)
    (kept : persist = false → S.solo →
      s.1.record = some (S.regionRecord P frontier .running) ∧
        checkSegment "run_id" S.run.runId = .ok ()) :
    (driveFrontier S.run S.cfg J P frontier persist).Sat S.worldRely S.step S.Told S.Settles
      (Region.Post S X k) s :=
  Main.Sat.mono (fun _ _ h => h.1) (driveFrontier_outcome hn hk hJ persist came hf booked quiet kept)

end Whole

end Greentic
