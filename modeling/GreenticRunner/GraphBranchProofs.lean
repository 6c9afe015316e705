import GreenticRunner.GraphRegionModel

/-! # Driving one branch

    Every operation of `drive_branch` keeps the region invariant, and the branch
    ends parked at the join or stuck for a reason (`Stuck`).

    * `Region.frame` — an effect visit of a branch moves through its phases;
    * `driveBranch_sat` — the whole branch. -/

namespace Greentic

open FinMaps CountedPath Resumption

/-! ## Operations that touch only the history -/

/-- Operations that leave the memory the branches share alone. -/
def Op.still : Op → Bool
  | .openFrontier _ | .seedVisits _ | .fetchAdd | .saveSlot _ _ _ | .recordBranchVisits _ => false
  | _ => true

theorem exec_still {run : RunRef} {C : Closures} {i : Op} {s s' : World} {r : i.Res}
    (h : exec run C i s r s') (hi : i.still = true) :
    s'.2 = { s.2 with history := s.2.history ++ [(s.1, ⟨i, r⟩)] } := by
  rw [h.2]
  cases i <;> first | rfl | exact nomatch hi

/-- The closure call of an effect visit. -/
theorem effectOp_spec {pt : Point} {kind : NodeKind} {i : Op} (h : effectOp pt kind = some i) :
    i.silent = true ∧ i.still = true ∧ i.isVisit = false ∧ i.decides = false ∧
      i.askedAt = some (pt.cursor, pt.attempt) ∧ kind.isEffect = true := by
  cases kind <;> cases h <;> exact ⟨rfl, rfl, rfl, rfl, rfl, rfl⟩

theorem effectOp_fact {S : Setup} {pt : Point} {kind : NodeKind} {i : Op} {s : World}
    (h : effectOp pt kind = some i) (hrow : S.solo → rowAt s.1.ledger pt = none) :
    S.Fact s i := by
  cases kind <;> cases h <;> exact hrow

namespace Region

variable {S : Setup} {R : Region S} {pt : Point} {j : Nat}

/-- Appending an operation that is no visit leaves the book-keeping alone. -/
theorem Inv.books {s : World} {G : Nat → Ghost} (h : R.Inv s G) {i : Op} (r : i.Res)
    (hi : i.isVisit = false) :
    visitsMade (s.2.history ++ [(s.1, ⟨i, r⟩)]) + baseVisits (s.2.history ++ [(s.1, ⟨i, r⟩)])
        = visitsMade s.2.history + baseVisits s.2.history ∧
      passes S.cfg (s.2.history ++ [(s.1, ⟨i, r⟩)]) = passes S.cfg s.2.history := by
  obtain ⟨l, hl⟩ := h.came.loaded
  have hp : i.isPass S.cfg = false := Op.isPass_of_not_visit S.cfg hi
  rw [visitsMade_snoc, passes_snoc, baseVisits_snoc hl]
  simp only [hi, hp]
  exact ⟨rfl, rfl⟩

/-- A branch operation that changes neither the slots nor the counters. -/
theorem Inv.quietOp {s s' : World} {G : Nat → Ghost} (h : R.Inv s G) {g : Ghost}
    (hj : j < R.edges.length) (hw : R.workers j) {i : Op} {r : i.Res}
    (he : S.step i s r s') (hstill : i.still = true) (hvisit : i.isVisit = false)
    (hpend : ¬ Pending S.run S.cfg (s.1, ⟨i, r⟩)) (hL : Ledger.le s.1.ledger s'.1.ledger) (hst : StoreOk S.T s'.1)
    (hrec : s'.1.record = s.1.record)
    (hrows : ∀ l, l < R.edges.length → l ≠ j → S.solo → (G l).pt.cursor ≠ R.J →
      rowAt s.1.ledger (G l).pt = none → rowAt s'.1.ledger (G l).pt = none)
    (hpt : g.pt = (G j).pt) (hfly : g.phase.flying = (G j).phase.flying)
    (hshown : g.phase.shown = (G j).phase.shown)
    (href : g.phase.refused = (G j).phase.refused)
    (hnp : g.phase ≠ .parked) (hnp' : (G j).phase ≠ .parked) (hphase : R.PhaseOk s' g) :
    R.Inv s' (Function.update G j g) := by
  have hmem := exec_still (S.sub _ _ _ _ he) hstill
  obtain ⟨hmade, hpass⟩ := h.books r hvisit
  refine h.update hj hw (by rw [hmem]) hpend hL hst hrows (by rw [hmem]) (by rw [hmem]; simp)
    ?_ hphase ?_ ?_ ?_ ?_
  · intro x hx
    obtain ⟨bc, hbc, hs⟩ := h.slots j x hx
    refine ⟨bc, by rw [hmem]; exact hbc, hs.label, by rw [hpt]; exact hs.point, ?_, ?_, hs.full, ?_⟩
    · constructor
      · intro hp; exact absurd (hs.parked.mp hp) hnp'
      · intro hp; exact absurd hp hnp
    · intro hp; exact absurd hp hnp
    · obtain ⟨m, hp⟩ := (hs.mono hL).path
      exact ⟨m, by rw [hpt]; exact hp⟩
  · rw [hmem]
    dsimp only
    rw [hmade, hpass]
    exact h.count.same hj (by rw [hpt]) hfly hshown href
  · intro key hkey
    rw [hpt]
    exact hkey
  · intro key hkey
    rw [hmem] at hkey
    exact Or.inl hkey
  · intro hs
    rw [hrec, hmem]
    exact h.kept hs

/-! ## The phases of an effect visit -/

/-- The stages of a visit at `pt`, as phases of the branch. -/
def stages (pt : Point) : Stages Ghost where
  ready := fun g => g = ⟨pt, .visited⟩
  missed := fun g => g = ⟨pt, .missed⟩
  asked := fun v g => g = ⟨pt, .asked v⟩
  got := fun raw g => g = ⟨pt, .got raw⟩

/-- How one branch knows the region. -/
def anchor (R : Region S) (j : Nat) : Anchor World Ghost := workerAnchor R.Inv j

theorem frame_load (hj : j < R.edges.length) (hw : R.workers j) (pt : Point)
    {s s' : World} (hs : (R.anchor j).sees ⟨pt, .visited⟩ s) {r : Option Json}
    (he : S.step (.loadNodeVisit pt.cursor pt.attempt) s r s') :
    S.Told s ⟨.loadNodeVisit pt.cursor pt.attempt, r⟩ s' ∧
      ∃ x', (R.anchor j).moves ⟨pt, .visited⟩ s s' x' ∧
        (∀ raw, r = some raw → (stages pt).got raw x') ∧ (r = none → (stages pt).missed x') := by
  have hst := exec_silent (S.sub _ _ _ _ he) rfl
  have hr : r = s.1.ledger pt.cursor pt.attempt := (S.sub _ _ _ _ he).1
  obtain ⟨G₀, hG₀, hgj⟩ := hs
  refine ⟨S.told_silent he rfl hG₀.came.store hG₀.quiet trivial, ?_⟩
  have hmove : ∀ p : Phase, p.flying = 1 → p.shown = 1 → p.refused = 0 → p ≠ .parked →
      (pt.cursor ≠ R.J → R.PhaseOk s' ⟨pt, p⟩) →
      (R.anchor j).moves ⟨pt, .visited⟩ s s' ⟨pt, p⟩ := by
    intro p h1 h2 h3 h4 h5 G hG hgj
    have hph := hG.phases j hj
    rw [hgj] at hph
    refine hG.quietOp hj hw he rfl rfl (not_pending rfl _ _) (by rw [hst]; exact Ledger.le.refl _)
      (by rw [hst]; exact hG.came.store) (by rw [hst])
      (fun l _ _ _ _ hrow => by rw [hst]; exact hrow) (by rw [hgj])
      (by rw [hgj]; exact h1) (by rw [hgj]; exact h2) (by rw [hgj]; exact h3) h4
      (by rw [hgj]; simp) (h5 hph)
  cases r with
  | some raw =>
      refine ⟨⟨pt, .got raw⟩, hmove _ rfl rfl rfl (by simp) ?_, ?_, ?_⟩
      · intro hne
        exact ⟨hne, by rw [hst]; exact hr.symm⟩
      · intro raw' hraw; cases hraw; rfl
      · intro hno; exact nomatch hno
  | none =>
      refine ⟨⟨pt, .missed⟩, hmove _ rfl rfl rfl (by simp) ?_, ?_, ?_⟩
      · intro hne
        exact ⟨hne, fun _ => by rw [hst]; exact hr.symm⟩
      · intro raw' hraw; exact nomatch hraw
      · intro _; rfl

theorem frame_closure (hj : j < R.edges.length) (hw : R.workers j)
    {n : Node} (hn : S.cfg.graph.node pt.cursor = some n) {i : Op}
    (hi : effectOp pt n.kind = some i) {s s' : World}
    (hs : (R.anchor j).sees ⟨pt, .missed⟩ s) {r : i.Res} (he : S.step i s r s') :
    S.Told s ⟨i, r⟩ s' ∧ ∃ x', (R.anchor j).moves ⟨pt, .missed⟩ s s' x' ∧
      (∀ v, closureValue i r = some v → (stages pt).asked v x') ∧
      (closureValue i r = none → (stages pt).missed x') := by
  obtain ⟨hsil, hstill, hnv, hna, hat, hke⟩ := effectOp_spec hi
  have hst := exec_silent (S.sub _ _ _ _ he) hsil
  have hhist := exec_history (S.sub _ _ _ _ he)
  obtain ⟨G₀, hG₀, hgj⟩ := hs
  have hph₀ := hG₀.phases j hj
  rw [hgj] at hph₀
  refine ⟨S.told_silent he hsil hG₀.came.store hG₀.quiet (effectOp_fact hi hph₀.2), ?_⟩
  have hmove : ∀ p : Phase, p.flying = 1 → p.shown = 1 → p.refused = 0 → p ≠ .parked →
      (R.PhaseOk s ⟨pt, .missed⟩ → R.PhaseOk s' ⟨pt, p⟩) →
      (R.anchor j).moves ⟨pt, .missed⟩ s s' ⟨pt, p⟩ := by
    intro p h1 h2 h3 h4 h5 G hG hgj
    have hph := hG.phases j hj
    rw [hgj] at hph
    refine hG.quietOp hj hw he hstill hnv (not_pending hna _ _) (by rw [hst]; exact Ledger.le.refl _)
      (by rw [hst]; exact hG.came.store) (by rw [hst])
      (fun l _ _ _ _ hrow => by rw [hst]; exact hrow) (by rw [hgj])
      (by rw [hgj]; exact h1) (by rw [hgj]; exact h2) (by rw [hgj]; exact h3) h4
      (by rw [hgj]; simp) (h5 hph)
  cases hv : closureValue i r with
  | some v =>
      refine ⟨⟨pt, .asked v⟩, hmove _ rfl rfl rfl (by simp) ?_, ?_, ?_⟩
      · intro hph
        refine ⟨hph.1, ?_, n, hn, .effect i r hi (exec_allows (S.sub _ _ _ _ he)) hv⟩
        rw [hhist]
        exact invoked_now hat _ _ _
      · intro v' hv'; cases hv'; rfl
      · intro hno; exact nomatch hno
  | none =>
      refine ⟨⟨pt, .missed⟩, hmove _ rfl rfl rfl (by simp) ?_, ?_, ?_⟩
      · intro hph
        refine ⟨hph.1, ?_⟩
        rw [hst]
        exact hph.2
      · intro v' hv'; exact nomatch hv'
      · intro _; rfl

theorem frame_record (hj : j < R.edges.length) (hw : R.workers j)
    {n : Node} (hn : S.cfg.graph.node pt.cursor = some n) (hk : n.kind.isEffect = true)
    {v : Json} {s s' : World} (hs : (R.anchor j).sees ⟨pt, .asked v⟩ s)
    {r : Except CheckpointError NodeVisitOutcome}
    (he : S.step (.recordNodeVisit pt.cursor pt.attempt v) s r s') :
    S.Told s ⟨.recordNodeVisit pt.cursor pt.attempt v, r⟩ s' ∧
      ∃ x', (R.anchor j).moves ⟨pt, .asked v⟩ s s' x' ∧
        (r = .ok .recorded → (stages pt).got v x') ∧
        (∀ row, r = .ok (.replayed row) → (stages pt).got row x') ∧
        (∀ c, r = .error c → (stages pt).asked v x' ∧
          (checkSegment "run_id" S.run.runId ≠ .ok () ∨
            checkSegment "node_id" pt.cursor ≠ .ok ())) := by
  obtain ⟨G₀, hG₀, hgj⟩ := hs
  have hph₀ := hG₀.phases j hj
  rw [hgj] at hph₀
  obtain ⟨hne, hinv, n', hn', hans⟩ := hph₀
  rw [hn] at hn'
  cases hn'
  have hreach := hG₀.reached hj
  rw [hgj] at hreach
  obtain ⟨htold, hrec, hothers, hcases⟩ :=
    Setup.record_told hG₀.came.store hreach hn hans hinv he (hG₀.quiet.follows _)
  have hmove : ∀ p : Phase, p.flying = 1 → p.shown = 1 → p.refused = 0 → p ≠ .parked →
      R.PhaseOk s' ⟨pt, p⟩ → (R.anchor j).moves ⟨pt, .asked v⟩ s s' ⟨pt, p⟩ := by
    intro p h1 h2 h3 h4 h5 G hG hgj
    refine hG.quietOp hj hw he rfl rfl (not_pending_effect hn hk _ _ _ _) htold.grows htold.store
      hrec ?_ (by rw [hgj]) (by rw [hgj]; exact h1) (by rw [hgj]; exact h2)
      (by rw [hgj]; exact h3) h4 (by rw [hgj]; simp) h5
    intro l hl hlj _ hcl hrl
    have hcne := hG.cursor_ne hl hj hlj hcl (by rw [hgj]; exact hne)
    rw [hgj] at hcne
    rw [hothers _ hcne]
    exact hrl
  refine ⟨htold, ?_⟩
  rcases hcases with ⟨-, -, ⟨hr, -, hrow⟩ | ⟨row, hr, -, hrow⟩⟩ | ⟨c, hr, hbad⟩
  · -- a fresh row
    subst hr
    refine ⟨⟨pt, .got v⟩, hmove _ rfl rfl rfl (by simp) ⟨hne, hrow⟩, fun _ => rfl, ?_, ?_⟩
    · intro row hrow; exact nomatch hrow
    · intro c hc; exact nomatch hc
  · -- the row of a concurrent drive wins
    subst hr
    refine ⟨⟨pt, .got row⟩, hmove _ rfl rfl rfl (by simp) ⟨hne, hrow⟩, ?_, ?_, ?_⟩
    · intro hc; exact nomatch hc
    · intro row' hrow'; cases hrow'; rfl
    · intro c hc; exact nomatch hc
  · -- a malformed key
    subst hr
    refine ⟨⟨pt, .asked v⟩, hmove _ rfl rfl rfl (by simp) ?_, ?_, ?_, fun _ _ => ⟨rfl, hbad⟩⟩
    · refine ⟨hne, ?_, n, hn, hans⟩
      rw [htold.noted]
      exact hinv.snoc _
    · intro hc; exact nomatch hc
    · intro row' hrow'; exact nomatch hrow'

/-- **AN EFFECT VISIT OF A BRANCH** goes through its phases. -/
theorem frame (hj : j < R.edges.length) (hw : R.workers j) {n : Node}
    (hn : S.cfg.graph.node pt.cursor = some n) (hk : n.kind.isEffect = true) :
    EffectFrame S (R.anchor j) pt n (stages pt) where
  load := by
    intro x hx s hs r s' he
    cases hx
    exact frame_load hj hw pt hs he
  closure := by
    intro i hi x hx s hs r s' he
    cases hx
    exact frame_closure hj hw hn hi hs he
  record := by
    intro v x hx s hs r s' he
    cases hx
    exact frame_record hj hw hn hk hs he

/-! ## The shared counter -/

/-- A refused visit shows that the region needs too many. -/
theorem Inv.over {s : World} {G : Nat → Ghost} (h : R.Inv s G)
    (hj : j < R.edges.length) (hhead : (G j).phase = .head) (hne : (G j).pt.cursor ≠ R.J)
    (hover : maxNodeVisits < s.2.globalVisits + 1) : Over S.cfg s.1.ledger R.P R.J := by
  by_cases hcapped : ∃ i, i < R.edges.length ∧ (G i).phase = .capped
  · obtain ⟨i, hi, hp⟩ := hcapped
    have hph := h.phases i hi
    unfold PhaseOk at hph
    rw [hp] at hph
    exact hph.2
  · -- nobody was refused yet: the counter is what the branches were granted
    have hzero : sumOver R.edges.length Ghost.refused G = 0 := by
      refine Finset.sum_eq_zero ?_
      intro i hi
      have hnc : (G i).phase ≠ .capped := fun hc => hcapped ⟨i, Finset.mem_range.mp hi, hc⟩
      unfold Ghost.refused Phase.refused
      cases hp : (G i).phase <;> simp_all
    have hle : ∀ i ∈ Finset.range R.edges.length, Ghost.used R.P (G i) ≤
        spent R.P (G i).pt.visits + if (G i).pt.cursor = R.J then 0 else 1 := by
      intro i hi
      have hph := h.phases i (Finset.mem_range.mp hi)
      unfold PhaseOk at hph
      unfold Ghost.used Phase.flying
      cases hp : (G i).phase <;> rw [hp] at hph <;> simp_all
    have hlt : sumOver R.edges.length (Ghost.used R.P) G <
        ∑ i ∈ Finset.range R.edges.length,
          (spent R.P (G i).pt.visits + if (G i).pt.cursor = R.J then 0 else 1) := by
      refine Finset.sum_lt_sum hle ⟨j, Finset.mem_range.mpr hj, ?_⟩
      rw [if_neg hne, Ghost.used, hhead]
      exact Nat.lt_succ_self _
    refine ⟨List.ofFn fun i : Fin R.edges.length => (G i).pt, ?_,
      ⟨(G j).pt, List.mem_ofFn.mpr ⟨⟨j, hj⟩, rfl⟩, hne⟩, ?_⟩
    · refine List.forall₂_iff_get.mpr ⟨by simp [edges], ?_⟩
      intro i hi hi'
      obtain ⟨bc, -, hs⟩ := h.slots i _ (List.getElem?_eq_getElem hi)
      simp only [List.get_eq_getElem, List.getElem_ofFn]
      exact hs.path
    · have hc := h.count.counter_eq
      rw [List.map_ofFn, List.sum_ofFn]
      rw [Finset.sum_range] at hlt
      simp only [Function.comp_apply]
      omega

theorem fetchAdd_rule (hj : j < R.edges.length) (hw : R.workers j)
    (hne : pt.cursor ≠ R.J) {s s' : World} (hs : (R.anchor j).sees ⟨pt, .head⟩ s) {r : Nat}
    (he : S.step .fetchAdd s r s') :
    S.Told s ⟨.fetchAdd, r⟩ s' ∧
      (r ≤ maxNodeVisits → (R.anchor j).moves ⟨pt, .head⟩ s s' ⟨pt, .counted⟩ ∧
        spent R.P pt.visits < maxNodeVisits) ∧
      (¬ r ≤ maxNodeVisits → (R.anchor j).moves ⟨pt, .head⟩ s s' ⟨pt, .capped⟩) := by
  have hex := S.sub _ _ _ _ he
  have hr : r = s.2.globalVisits + 1 := hex.1
  have hst := exec_silent hex rfl
  have hs' : s'.2 = { s.2 with
      globalVisits := s.2.globalVisits + 1
      history := s.2.history ++ [(s.1, ⟨.fetchAdd, r⟩)] } := by
    rw [hex.2]; rfl
  obtain ⟨G₀, hG₀, hgj₀⟩ := hs
  have hmove : ∀ p : Phase, p ≠ .parked → (∀ G, R.Inv s G → G j = ⟨pt, .head⟩ →
      R.PhaseOk s' ⟨pt, p⟩ ∧ RegionCount S.tight R.P R.edges.length (s.2.globalVisits + 1)
        (visitsMade s.2.history + baseVisits s.2.history) (passes S.cfg s.2.history)
        (Function.update G j ⟨pt, p⟩)) →
      (R.anchor j).moves ⟨pt, .head⟩ s s' ⟨pt, p⟩ := by
    intro p hp hall G hG hgj
    obtain ⟨hphase, hcount⟩ := hall G hG hgj
    obtain ⟨hmade, hpass⟩ := hG.books (i := .fetchAdd) r rfl
    refine hG.update hj hw (exec_history hex) (not_pending rfl _ _) (by rw [hst]; exact Ledger.le.refl _)
      (by rw [hst]; exact hG.came.store) (fun l _ _ _ _ hrow => by rw [hst]; exact hrow)
      (by rw [hs']) (by rw [hs']; simp) ?_ hphase ?_ ?_ ?_ ?_
    · intro x hx
      obtain ⟨bc, hbc, hsl⟩ := hG.slots j x hx
      rw [hgj] at hsl
      refine ⟨bc, by rw [hs']; exact hbc, hsl.label, hsl.point, ?_, ?_, hsl.full, ?_⟩
      · constructor
        · intro hpk; exact nomatch hsl.parked.mp hpk
        · intro hpk; exact absurd hpk hp
      · intro hpk; exact absurd hpk hp
      · rw [hst]; exact hsl.path
    · rw [hs']
      dsimp only
      rw [hmade, hpass]
      exact hcount
    · intro key hkey
      rw [hgj] at hkey
      exact hkey
    · intro key hkey
      rw [hs'] at hkey
      exact Or.inl hkey
    · intro hsolo
      rw [hst, hs']
      exact hG.kept hsolo
  refine ⟨S.told_silent he rfl hG₀.came.store hG₀.quiet trivial, ?_, ?_⟩
  · intro hle
    have hfetch : ∀ G, R.Inv s G → G j = ⟨pt, .head⟩ →
        RegionCount S.tight R.P R.edges.length (s.2.globalVisits + 1)
        (visitsMade s.2.history + baseVisits s.2.history) (passes S.cfg s.2.history)
        (Function.update G j ⟨pt, .counted⟩) := by
      intro G hG hgj
      refine hG.count.fetch hj (by rw [hgj]) rfl (by rw [hgj]) (by rw [← hr]; exact hle) ?_
      intro ht
      refine S.tight_step ht s r s' he ?_
      omega
    refine ⟨hmove .counted (by simp) fun G hG hgj => ⟨hne, hfetch G hG hgj⟩, ?_⟩
    have hused := le_sumOver hj (Ghost.used R.P) (Function.update G₀ j ⟨pt, .counted⟩)
    rw [Function.update_self] at hused
    have hcap := (hfetch G₀ hG₀ hgj₀).cap
    have hu : Ghost.used R.P ⟨pt, .counted⟩ = spent R.P pt.visits + 1 := rfl
    omega
  · intro hgt
    refine hmove .capped (by simp) ?_
    intro G hG hgj
    refine ⟨?_, hG.count.refuse hj (by rw [hgj]) rfl (by rw [hgj])⟩
    have hov := hG.over hj (by rw [hgj]) (by rw [hgj]; exact hne) (by omega)
    refine ⟨⟨(s.1, ⟨.fetchAdd, r⟩), ?_, r, rfl, Nat.lt_of_not_le hgt⟩, by rw [hst]; exact hov⟩
    rw [hs']
    exact List.mem_append_right _ (List.mem_singleton_self _)

theorem visit_rule (hj : j < R.edges.length) (hw : R.workers j)
    {s s' : World} (hs : (R.anchor j).sees ⟨pt, .counted⟩ s) {r : Unit}
    (he : S.step (.visit (.branch j) pt.cursor pt.attempt) s r s') :
    S.Told s ⟨.visit (.branch j) pt.cursor pt.attempt, r⟩ s' ∧
      (R.anchor j).moves ⟨pt, .counted⟩ s s' ⟨pt, .visited⟩ := by
  have hex := S.sub _ _ _ _ he
  have hst := exec_silent hex rfl
  have hmem := exec_still hex rfl
  obtain ⟨G₀, hG₀, hgj₀⟩ := hs
  refine ⟨S.told_silent he rfl hG₀.came.store hG₀.quiet ?_, ?_⟩
  · exact (hG₀.count.execute (g := ⟨pt, .visited⟩) hj (by rw [hgj₀]) rfl (by rw [hgj₀])).2
  · intro G hG hgj
    have hph := hG.phases j hj
    rw [hgj] at hph
    obtain ⟨l, hl⟩ := hG.came.loaded
    refine hG.update hj hw (by rw [hmem]) (not_pending rfl _ _) (by rw [hst]; exact Ledger.le.refl _)
      (by rw [hst]; exact hG.came.store) (fun l _ _ _ _ hrow => by rw [hst]; exact hrow)
      (by rw [hmem]) (by rw [hmem]; simp) ?_ hph ?_ ?_ ?_ ?_
    · intro x hx
      obtain ⟨bc, hbc, hsl⟩ := hG.slots j x hx
      rw [hgj] at hsl
      refine ⟨bc, by rw [hmem]; exact hbc, hsl.label, hsl.point, ?_, ?_, hsl.full, ?_⟩
      · constructor
        · intro hpk; exact nomatch hsl.parked.mp hpk
        · intro hpk; exact nomatch hpk
      · intro hpk; exact nomatch hpk
      · rw [hst]; exact hsl.path
    · rw [hmem]
      dsimp only
      have hcount := (hG.count.execute (g := ⟨pt, .visited⟩) hj (by rw [hgj]) rfl
        (by rw [hgj])).1
      rw [visitsMade_snoc, passes_snoc, baseVisits_snoc hl]
      simp only [Op.isVisit, Op.isPass, if_true]
      rw [show visitsMade s.2.history + 1 + baseVisits s.2.history
        = visitsMade s.2.history + baseVisits s.2.history + 1 by omega]
      exact hcount
    · intro key hkey
      rw [hgj] at hkey
      exact hkey
    · intro key hkey
      rw [hmem] at hkey
      exact Or.inl hkey
    · intro hsolo
      rw [hst, hmem]
      exact hG.kept hsolo

/-! ## Checkpointing a branch -/

/-- `save_slot`: the branch has moved to the ghost `g` and writes its slot. -/
theorem saveSlot_rule (hj : j < R.edges.length) (hw : R.workers j) {g : Ghost}
    (g' : Ghost) {bc : BranchCursor} {s s' : World} (hs : (R.anchor j).sees g s)
    {r : Except CheckpointError Unit} (he : S.step (.saveSlot R.coord j bc) s r s')
    (hstep : ∀ G, R.Inv s G → G j = g →
      (∀ x, R.edges[j]? = some x → R.Slot s.1.ledger g' x bc) ∧ g'.phase.flying = 0 ∧
      g'.phase ≠ .capped ∧
      RegionCount S.tight R.P R.edges.length s.2.globalVisits
        (visitsMade s.2.history + baseVisits s.2.history) (passes S.cfg s.2.history)
        (Function.update G j g') ∧
      ∀ key, (g.pt.visits.get? key).isSome → (g'.pt.visits.get? key).isSome) :
    S.Told s ⟨.saveSlot R.coord j bc, r⟩ s' ∧ (R.anchor j).moves g s s' g' ∧
      ∀ c, r = .error c → checkSegment "run_id" S.run.runId ≠ .ok () := by
  have hex := S.sub _ _ _ _ he
  have hr : r = (s.1.save (R.coord.record (slotWritten s.2 j bc) .running)).map fun _ => () :=
    hex.1
  have hst : s'.1 = storeAfter s.1
      (s.1.save (R.coord.record (slotWritten s.2 j bc) .running)) := by
    rw [hex.2]; rfl
  have hmem : s'.2 = { s.2 with
      frontier := s.2.frontier.set j bc
      history := s.2.history ++ [(s.1, ⟨.saveSlot R.coord j bc, r⟩)] } := by
    rw [hex.2]; rfl
  have hslots : ∀ G, R.Inv s G → G j = g → ∀ i x, R.edges[i]? = some x →
      ∃ bc', (s.2.frontier.set j bc)[i]? = some bc' ∧
        R.Slot s.1.ledger (Function.update G j g' i) x bc' := by
    intro G hG hgj i x hx
    by_cases hij : i = j
    · subst hij
      refine ⟨bc, ?_, ?_⟩
      · rw [List.getElem?_set_self (by rw [hG.len]; exact hj)]
      · rw [Function.update_self]
        exact (hstep G hG hgj).1 x hx
    · rw [List.getElem?_set_ne (Ne.symm hij), Function.update_of_ne hij]
      exact hG.slots i x hx
  have hfr : ∀ G, R.Inv s G → G j = g →
      FrontierOk S.cfg (rowAt s.1.ledger) R.P (s.2.frontier.set j bc) := by
    intro G hG hgj
    refine frontierOk_of ?_ (hslots G hG hgj) (hstep G hG hgj).2.2.2.1.cap
    rw [List.length_set]
    exact hG.len
  obtain ⟨G₀, hG₀, hgj₀⟩ := hs
  have hledger : s'.1.ledger = s.1.ledger := by
    rw [hst]
    rcases save_cases s.1 (R.coord.record (slotWritten s.2 j bc) .running) with
      ⟨-, heq⟩ | ⟨c, -, heq⟩ <;> rw [heq] <;> rfl
  have hL : Ledger.le s.1.ledger s'.1.ledger := by rw [hledger]; exact Ledger.le.refl _
  have hok : StoreOk S.T s'.1 := by
    rw [hst]
    rcases save_cases s.1 (R.coord.record (slotWritten s.2 j bc) .running) with
      ⟨hseg, heq⟩ | ⟨c, -, heq⟩
    · rw [heq]
      exact hG₀.came.store.save (recordOk_region hseg hG₀.came.on (hfr G₀ hG₀ hgj₀))
    · rw [heq]
      exact hG₀.came.store
  refine ⟨⟨hL, hok, exec_history hex, trivial, hG₀.quiet.follows _⟩, ?_, ?_⟩
  · intro G hG hgj
    obtain ⟨hslot, hfly, hnc, hcount, hgrown⟩ := hstep G hG hgj
    obtain ⟨hmade, hpass⟩ := hG.books (i := .saveSlot R.coord j bc) r rfl
    refine hG.update hj hw (by rw [hmem]) (not_pending rfl _ _) hL hok
      (fun l _ _ _ _ hrow => by rw [rowAt, hledger]; exact hrow) (by rw [hmem]; simp) ?_ ?_ ?_ ?_
      ?_ ?_ ?_
    · intro l hlj
      rw [hmem]
      exact List.getElem?_set_ne (Ne.symm hlj)
    · intro x hx
      obtain ⟨bc', hbc', hsl⟩ := hslots G hG hgj j x hx
      rw [Function.update_self] at hsl
      exact ⟨bc', by rw [hmem]; exact hbc', by rw [hledger]; exact hsl⟩
    · unfold PhaseOk
      cases hp : g'.phase <;> rw [hp] at hfly hnc <;> trivial
    · rw [hmem]
      dsimp only
      rw [hmade, hpass]
      exact hcount
    · intro key hkey
      rw [hgj] at hkey
      exact hgrown key hkey
    · intro key hkey
      rw [hmem] at hkey
      exact Or.inl hkey
    · intro hsolo
      rw [hst, hmem, save_ok (hG.named hsolo)]
      rfl
  · intro c hc hseg
    rw [hr, save_ok hseg] at hc
    exact nomatch hc

theorem recordBranchVisits_rule (hj : j < R.edges.length) (hw : R.workers j)
    {s s' : World} (hs : (R.anchor j).sees ⟨pt, .head⟩ s) {r : Unit}
    (he : S.step (.recordBranchVisits pt.visits) s r s') :
    S.Told s ⟨.recordBranchVisits pt.visits, r⟩ s' ∧
      (R.anchor j).moves ⟨pt, .head⟩ s s' ⟨pt, .head⟩ := by
  have hex := S.sub _ _ _ _ he
  have hst := exec_silent hex rfl
  have hmem : s'.2 = { s.2 with
      branchVisits := s.2.branchVisits.extend pt.visits
      history := s.2.history ++ [(s.1, ⟨.recordBranchVisits pt.visits, r⟩)] } := by
    rw [hex.2]; rfl
  obtain ⟨G₀, hG₀, hgj₀⟩ := hs
  refine ⟨S.told_silent he rfl hG₀.came.store hG₀.quiet trivial, ?_⟩
  intro G hG hgj
  obtain ⟨hmade, hpass⟩ := hG.books (i := .recordBranchVisits pt.visits) r rfl
  refine hG.update hj hw (by rw [hmem]) (not_pending rfl _ _) (by rw [hst]; exact Ledger.le.refl _)
    (by rw [hst]; exact hG.came.store) (fun l _ _ _ _ hrow => by rw [hst]; exact hrow)
    (by rw [hmem]) (by rw [hmem]; simp) ?_ trivial ?_ ?_ ?_ ?_
  · intro x hx
    obtain ⟨bc, hbc, hsl⟩ := hG.slots j x hx
    rw [hgj] at hsl
    exact ⟨bc, by rw [hmem]; exact hbc, hsl.mono (by rw [hst]; exact Ledger.le.refl _)⟩
  · rw [hmem]
    dsimp only
    rw [hmade, hpass]
    exact hG.count.same hj (by rw [hgj]) (by rw [hgj]) (by rw [hgj]) (by rw [hgj])
  · intro key hkey
    rw [hgj] at hkey
    exact hkey
  · intro key hkey
    rw [hmem] at hkey
    dsimp only at hkey
    rw [FinMap.extend_get?] at hkey
    cases hv : pt.visits.get? key with
    | some v => exact Or.inr rfl
    | none => rw [hv] at hkey; exact Or.inl hkey
  · intro hsolo
    rw [hst, hmem]
    exact hG.kept hsolo

/-! ## The whole branch -/

/-- Why a branch has no result. -/
inductive Stuck (R : Region S) (label : String) (g : Ghost) (e : GraphExecError) : Prop where
  | capped (hp : g.phase = .capped) (he : e = .iterationCap S.run.runId)
  | unsaved (c : CheckpointError) (hbad : checkSegment "run_id" S.run.runId ≠ .ok ())
      (he : e = .checkpoint c)
  | fault (hne : g.pt.cursor ≠ R.J) (hp : g.phase ≠ .parked)
      (h : ∀ s, R.PhaseOk s g → S.BranchFault label s.1.ledger g.pt e)

/-- The outcome of a branch: parked at the join, or stuck. -/
def BranchPost (R : Region S) (label : String) (g : Ghost) :
    Except GraphExecError BranchOutcome → Prop
  | .ok o => g.phase = .parked ∧ o.visits = g.pt.visits
  | .error e => Stuck R label g e

/-- The outcome of one visit of a branch. -/
def MovePost (R : Region S) (label : String) (pt : Point) (g : Ghost) :
    Except GraphExecError (Point × Json) → Prop
  | .ok (pt', _) => g.pt = pt ∧ g.phase.flying = 1 ∧ g.phase.shown = 1 ∧ g.phase.refused = 0 ∧
      ∀ s, R.PhaseOk s g → BranchStep S.cfg (rowAt s.1.ledger) pt pt'
  | .error e => Stuck R label g e

/-- An effect visit of a branch is a branch step or a fault. -/
theorem movePost_of_visit {label : String} {n : Node} (hne : pt.cursor ≠ R.J)
    (hn : S.cfg.graph.node pt.cursor = some n) (hk : n.kind.isEffect = true) (g : Ghost)
    (r : Except GraphExecError (Point × Json))
    (h : VisitPost S (some label) pt n (stages pt) g r) : MovePost R label pt g r := by
  cases r with
  | ok v =>
      obtain ⟨raw, hgot, hafter⟩ := h
      cases hgot
      refine ⟨rfl, rfl, rfl, rfl, ?_⟩
      intro s hph
      exact .effect n raw hn hk hph.2 (effectAfter_label none hafter)
  | error e =>
      rcases h with herr | ⟨raw, hgot, hafter⟩
      · cases herr with
        | closure i r hx hi hr he =>
            cases hx
            exact .fault hne (by simp) fun s hph => .visit (.closure n i r hn hi hr he hph.2)
        | segment v c hx hbad he =>
            cases hx
            exact .fault hne (by simp) fun s hph =>
              .visit (.segment n c hn (Or.inl hk) hbad he)
      · cases hgot
        exact .fault hne (by simp) fun s hph => .visit (.after n raw hn hk hph.2 hafter)

theorem visitRouter_sat {label : String} {n : Node}
    (hne : pt.cursor ≠ R.J) (hn : S.cfg.graph.node pt.cursor = some n)
    (hk : n.kind.isRouter = true) :
    (visitRouter S.cfg (some label) pt).Sat (R.anchor j) S.step S.Told (MovePost R label pt)
      ⟨pt, .visited⟩ := by
  show (Prog.bind (Prog.ofExcept (afterRouter S.cfg pt)) _).Sat _ _ _ _ _
  cases ha : afterRouter S.cfg pt with
  | ok pt' => exact ⟨rfl, rfl, rfl, rfl, fun s _ => .router n hn hk ha⟩
  | error e => exact .fault hne (by simp) fun s _ => .visit (.router n hn hk ha)

/-- The slot of a branch after a step. -/
theorem Inv.step_slot {s : World} {G : Nat → Ghost} (hG : R.Inv s G)
    (hj : j < R.edges.length) {x : String × String} (hx : R.edges[j]? = some x) {pt' : Point}
    (hbs : BranchStep S.cfg (rowAt s.1.ledger) (G j).pt pt') (hfly : (G j).phase.flying = 1)
    (hshown : (G j).phase.shown = 1) (href : (G j).phase.refused = 0) :
    (∀ y, R.edges[j]? = some y →
      R.Slot s.1.ledger ⟨pt', .head⟩ y ⟨x.1, pt'.cursor, pt'.state, false, pt'.visits⟩) ∧
    RegionCount S.tight R.P R.edges.length s.2.globalVisits
      (visitsMade s.2.history + baseVisits s.2.history) (passes S.cfg s.2.history)
      (Function.update G j ⟨pt', .head⟩) ∧
    ∀ key, ((G j).pt.visits.get? key).isSome → (pt'.visits.get? key).isSome := by
  have hadv := hbs.advanced
  obtain ⟨bc, hbc, hsl⟩ := hG.slots j x hx
  have hin := hsl.inside (List.mem_of_getElem? hx)
  have hle : R.P.visits.le pt'.visits := hin.grown.trans hadv.grown
  have htot : R.P.visits.total ≤ (G j).pt.visits.total := hin.grown.total_le
  refine ⟨?_, ?_, ?_⟩
  · intro y hy
    rw [hx] at hy
    cases hy
    obtain ⟨m, hp⟩ := hsl.path
    refine ⟨rfl, ?_, by simp, by simp, Or.inr hle, m + 1, hp.tail hbs⟩
    show (⟨pt'.cursor, pt'.state, R.P.visits.extend pt'.visits⟩ : Point) = pt'
    rw [hle.extend_eq]
  · refine hG.count.save hj ?_ rfl hfly hshown href
    rw [spent, spent, hadv.total]
    omega
  · intro key hkey
    obtain ⟨v, hv⟩ := Option.isSome_iff_exists.mp hkey
    obtain ⟨w, hw', -⟩ := hadv.grown key v hv
    exact Option.isSome_iff_exists.mpr ⟨w, hw'⟩

/-- The slot of a branch that parks. -/
theorem Inv.park_slot {s : World} {G : Nat → Ghost} (hG : R.Inv s G)
    (hj : j < R.edges.length) {x : String × String} (hx : R.edges[j]? = some x)
    (hgj : G j = ⟨pt, .head⟩) (hJ : pt.cursor = R.J) :
    (∀ y, R.edges[j]? = some y →
      R.Slot s.1.ledger ⟨pt, .parked⟩ y ⟨x.1, pt.cursor, pt.state, true, pt.visits⟩) ∧
    RegionCount S.tight R.P R.edges.length s.2.globalVisits
      (visitsMade s.2.history + baseVisits s.2.history) (passes S.cfg s.2.history)
      (Function.update G j ⟨pt, .parked⟩) := by
  obtain ⟨bc, hbc, hsl⟩ := hG.slots j x hx
  rw [hgj] at hsl
  have hle : R.P.visits.le pt.visits := (hsl.inside (List.mem_of_getElem? hx)).grown
  refine ⟨?_, hG.count.same hj (by rw [hgj]) (by rw [hgj]; rfl) (by rw [hgj]; rfl)
    (by rw [hgj]; rfl)⟩
  intro y hy
  rw [hx] at hy
  cases hy
  refine ⟨rfl, ?_, by simp, fun _ => hJ, Or.inr hle, hsl.path⟩
  show (⟨pt.cursor, pt.state, R.P.visits.extend pt.visits⟩ : Point) = pt
  rw [hle.extend_eq]

/-- A step of a branch that is written to its slot. -/
theorem saveStep_sat (hj : j < R.edges.length) (hw : R.workers j) {x : String × String}
    (hx : R.edges[j]? = some x) {pt pt' : Point} {g : Ghost} (hpt : g.pt = pt)
    (hfly : g.phase.flying = 1) (hshown : g.phase.shown = 1) (href : g.phase.refused = 0)
    (hstep : ∀ s, R.PhaseOk s g → BranchStep S.cfg (rowAt s.1.ledger) pt pt')
    {rest : Exec BranchOutcome} {k : Except CheckpointError Unit → Exec BranchOutcome}
    (herr : ∀ c, k (.error c) = .fail (.checkpoint c))
    (hok : k (.ok ()) = .call (.recordBranchVisits pt'.visits) fun _ => rest)
    (hrest : Advanced S.cfg pt pt' →
      rest.Sat (R.anchor j) S.step S.Told (BranchPost R x.1) ⟨pt', .head⟩) :
    (Prog.call (.saveSlot R.coord j ⟨x.1, pt'.cursor, pt'.state, false, pt'.visits⟩) k).Sat
      (R.anchor j) S.step S.Told (BranchPost R x.1) g := by
  intro s hs r s' he
  obtain ⟨htold, hmv, hbad⟩ := saveSlot_rule hj hw ⟨pt', .head⟩ hs he (by
    intro G hG hgj
    have hph := hG.phases j hj
    rw [hgj] at hph
    have hbs := hstep s hph
    rw [← hpt, ← hgj] at hbs
    obtain ⟨h1, h2, h3⟩ := hG.step_slot hj hx hbs (by rw [hgj]; exact hfly)
      (by rw [hgj]; exact hshown) (by rw [hgj]; exact href)
    rw [hgj] at h3
    exact ⟨h1, rfl, by simp, h2, h3⟩)
  refine ⟨htold, ⟨pt', .head⟩, hmv, ?_⟩
  cases r with
  | error c => rw [herr]; exact .unsaved c (hbad c rfl) rfl
  | ok u =>
      -- the step itself is known since the region was seen
      obtain ⟨G, hG, hgj⟩ := hs
      have hph := hG.phases j hj
      rw [hgj] at hph
      have hadv := (hstep s hph).advanced
      rw [show k (.ok u) = k (.ok ()) from rfl, hok]
      intro t ht r t' he'
      obtain ⟨htold', hmv'⟩ := recordBranchVisits_rule hj hw ht he'
      exact ⟨htold', ⟨pt', .head⟩, hmv', hrest hadv⟩

/-- A branch that parks at the join. -/
theorem park_sat (hj : j < R.edges.length) (hw : R.workers j) {x : String × String}
    (hx : R.edges[j]? = some x) (hJ : pt.cursor = R.J) {trail : List Json}
    {k : Except CheckpointError Unit → Exec BranchOutcome}
    (herr : ∀ c, k (.error c) = .fail (.checkpoint c))
    (hok : k (.ok ()) = .ret ⟨x.1, pt.visits, trail⟩) :
    (Prog.call (.saveSlot R.coord j ⟨x.1, pt.cursor, pt.state, true, pt.visits⟩) k).Sat
      (R.anchor j) S.step S.Told (BranchPost R x.1) ⟨pt, .head⟩ := by
  intro s hs r s' he
  obtain ⟨htold, hmv, hbad⟩ := saveSlot_rule hj hw ⟨pt, .parked⟩ hs he (by
    intro G hG hgj
    obtain ⟨h1, h2⟩ := hG.park_slot hj hx hgj hJ
    exact ⟨h1, rfl, by simp, h2, fun _ h => h⟩)
  refine ⟨htold, ⟨pt, .parked⟩, hmv, ?_⟩
  cases r with
  | error c => rw [herr]; exact .unsaved c (hbad c rfl) rfl
  | ok u => rw [show k (.ok u) = k (.ok ()) from rfl, hok]; exact ⟨rfl, rfl⟩

/-- What a branch does after a visit. -/
theorem afterVisit_sat (hj : j < R.edges.length) (hw : R.workers j)
    {x : String × String} (hx : R.edges[j]? = some x)
    {rest : Point → Json → Exec BranchOutcome}
    (hrest : ∀ pt' entry, Advanced S.cfg pt pt' →
      (rest pt' entry).Sat (R.anchor j) S.step S.Told (BranchPost R x.1) ⟨pt', .head⟩)
    {f : Point × Json → Exec BranchOutcome}
    (hf : ∀ pt' entry, ∃ k : Except CheckpointError Unit → Exec BranchOutcome,
      f (pt', entry) =
        .call (.saveSlot R.coord j ⟨x.1, pt'.cursor, pt'.state, false, pt'.visits⟩) k ∧
      (∀ c, k (.error c) = .fail (.checkpoint c)) ∧
      k (.ok ()) = .call (.recordBranchVisits pt'.visits) fun _ => rest pt' entry)
    {p : Exec (Point × Json)} {g : Ghost}
    (hp : p.Sat (R.anchor j) S.step S.Told (MovePost R x.1 pt) g) :
    (p >>= f).Sat (R.anchor j) S.step S.Told (BranchPost R x.1) g := by
  refine Prog.Sat.bind ?_ ?_ hp
  · intro g' v hv
    obtain ⟨pt', entry⟩ := v
    obtain ⟨hpt, hfly, hshown, href, hstep⟩ := hv
    obtain ⟨k, hk, herr, hok⟩ := hf pt' entry
    rw [hk]
    exact saveStep_sat hj hw hx hpt hfly hshown href hstep herr hok (hrest pt' entry)
  · intro g' e h
    exact h

/-- **ONE BRANCH**: it keeps the region invariant whatever the other branches and
    the other calls do, and ends parked at the join or stuck for a reason. -/
theorem driveBranch_sat (hj : j < R.edges.length) (hw : R.workers j)
    {x : String × String} (hx : R.edges[j]? = some x) :
    ∀ (fuel : Nat) (pt : Point) (trail : List Json),
      maxNodeVisits ≤ spent R.P pt.visits + fuel → R.P.visits.le pt.visits →
      (driveBranch S.run S.cfg R.J j x.1 R.coord fuel pt trail).Sat (R.anchor j) S.step S.Told
        (BranchPost R x.1) ⟨pt, .head⟩ := by
  intro fuel
  induction fuel with
  | zero =>
      intro pt trail hfuel hle
      unfold driveBranch
      by_cases hJ : pt.cursor = R.J
      · rw [if_pos hJ]
        exact park_sat hj hw hx hJ (fun _ => rfl) rfl
      · rw [if_neg hJ]
        intro s hs r s' he
        obtain ⟨htold, hgrant, hrefuse⟩ := fetchAdd_rule hj hw hJ hs he
        by_cases hr : r ≤ maxNodeVisits
        · -- the fuel outlasts the shared counter
          have := (hgrant hr).2
          omega
        · refine ⟨htold, ⟨pt, .capped⟩, hrefuse hr, ?_⟩
          show Prog.Sat _ _ _ _ (if r > maxNodeVisits then _ else _) _
          rw [if_pos (Nat.lt_of_not_le hr)]
          exact .capped rfl rfl
  | succ fuel ih =>
      intro pt trail hfuel hle
      unfold driveBranch
      by_cases hJ : pt.cursor = R.J
      · rw [if_pos hJ]
        exact park_sat hj hw hx hJ (fun _ => rfl) rfl
      · rw [if_neg hJ]
        intro s hs r s' he
        obtain ⟨htold, hgrant, hrefuse⟩ := fetchAdd_rule hj hw hJ hs he
        by_cases hr : r ≤ maxNodeVisits
        · refine ⟨htold, ⟨pt, .counted⟩, (hgrant hr).1, ?_⟩
          show Prog.Sat _ _ _ _ (if r > maxNodeVisits then _ else _) _
          rw [if_neg (Nat.not_lt_of_le hr)]
          have hk : ∀ pt' entry, Advanced S.cfg pt pt' →
              (driveBranch S.run S.cfg R.J j x.1 R.coord fuel pt' (trail ++ [entry])).Sat
                (R.anchor j) S.step S.Told (BranchPost R x.1) ⟨pt', .head⟩ := by
            intro pt' entry hadv
            refine ih pt' _ ?_ (hle.trans hadv.grown)
            have htot := hle.total_le
            rw [spent, hadv.total]
            rw [spent] at hfuel
            omega
          cases hn : S.cfg.graph.node pt.cursor with
          | none =>
              exact .fault hJ (by simp) fun s _ => .visit (.unknown hn rfl)
          | some n =>
              intro t ht u t' he'
              obtain ⟨htold', hmv'⟩ := visit_rule hj hw ht he'
              refine ⟨htold', ⟨pt, .visited⟩, hmv', ?_⟩
              have heff : ∀ {p : Exec (Point × Json)}, n.kind.isEffect = true →
                  p.Sat (R.anchor j) S.step S.Told
                    (VisitPost S (some x.1) pt n (stages pt)) ⟨pt, .visited⟩ →
                  p.Sat (R.anchor j) S.step S.Told (MovePost R x.1 pt) ⟨pt, .visited⟩ :=
                fun hke hp => hp.mono (movePost_of_visit hJ hn hke)
              have hkind : ∀ m : String, n.kind.isEffect = false ∧ n.kind.isRouter = false →
                  (Prog.fail (.graph (.invalid m)) : Exec (Point × Json)).Sat (R.anchor j) S.step
                    S.Told (MovePost R x.1 pt) ⟨pt, .visited⟩ := by
                intro m hk'
                exact .fault hJ (by simp) fun s _ => .kind n m hn hk' rfl
              have hF := frame hj hw hn
              cases hkd : n.kind with
              | agent _ _ _ _ _ _ =>
                  have hke : n.kind.isEffect = true := by rw [hkd]; rfl
                  exact afterVisit_sat hj hw hx hk (fun _ _ => ⟨_, rfl, fun _ => rfl, rfl⟩)
                    (heff hke (visitAgent_sat (hF hke) hkd (some x.1) rfl))
              | tool _ =>
                  have hke : n.kind.isEffect = true := by rw [hkd]; rfl
                  exact afterVisit_sat hj hw hx hk (fun _ _ => ⟨_, rfl, fun _ => rfl, rfl⟩)
                    (heff hke (visitTool_sat (hF hke) hkd (some x.1) rfl))
              | router _ =>
                  exact afterVisit_sat hj hw hx hk (fun _ _ => ⟨_, rfl, fun _ => rfl, rfl⟩)
                    (visitRouter_sat hJ hn (by rw [hkd]; rfl))
              | supervisor _ _ _ _ _ =>
                  have hke : n.kind.isEffect = true := by rw [hkd]; rfl
                  exact afterVisit_sat hj hw hx hk (fun _ _ => ⟨_, rfl, fun _ => rfl, rfl⟩)
                    (heff hke (visitSupervisor_sat (hF hke) hkd (some x.1) rfl))
              | respond =>
                  exact afterVisit_sat hj hw hx hk (fun _ _ => ⟨_, rfl, fun _ => rfl, rfl⟩)
                    (hkind _ ⟨by rw [hkd]; rfl, by rw [hkd]; rfl⟩)
              | parallel =>
                  exact afterVisit_sat hj hw hx hk (fun _ _ => ⟨_, rfl, fun _ => rfl, rfl⟩)
                    (hkind _ ⟨by rw [hkd]; rfl, by rw [hkd]; rfl⟩)
              | join =>
                  exact afterVisit_sat hj hw hx hk (fun _ _ => ⟨_, rfl, fun _ => rfl, rfl⟩)
                    (hkind _ ⟨by rw [hkd]; rfl, by rw [hkd]; rfl⟩)
              | approval _ _ _ _ _ =>
                  exact afterVisit_sat hj hw hx hk (fun _ _ => ⟨_, rfl, fun _ => rfl, rfl⟩)
                    (hkind _ ⟨by rw [hkd]; rfl, by rw [hkd]; rfl⟩)
        · refine ⟨htold, ⟨pt, .capped⟩, hrefuse hr, ?_⟩
          show Prog.Sat _ _ _ _ (if r > maxNodeVisits then _ else _) _
          rw [if_pos (Nat.lt_of_not_le hr)]
          exact .capped rfl rfl

end Region

end Greentic
