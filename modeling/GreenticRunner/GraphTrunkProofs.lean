import GreenticRunner.GraphRegionProofs

/-! # The trunk

    `drive` is walked by induction on its fuel: at every head the call knows
    where it came from and what it has saved (`Here`), an iteration takes one
    `TrunkStep` of the ledger, and the loop ends in a `Verdict`.

    * `approval_sat` — the approval arm, which asks BEFORE it looks at the
      ledger;
    * `drive_sat`, `resumeParallel_sat`, `driveFromRecord_sat` — the loop and its
      entries;
    * `start_sat`, `resume_sat` — a whole call. -/

namespace Greentic

open FinMaps CountedPath Resumption

namespace Setup

variable {S : Setup} {X : S.Origin} {k d m : Nat} {pt : Point} {s : World}

/-! ## Operations of the trunk -/

/-- An operation that is no visit and no question and leaves the record alone. -/
theorem Here.op {s s' : World} (h : S.Here X k pt d m s) {i : Op} {r : i.Res}
    (he : S.step i s r s') (hvisit : i.isVisit = false) (hpend : ¬ Pending S.run S.cfg (s.1, ⟨i, r⟩))
    (hL : Ledger.le s.1.ledger s'.1.ledger) (hst : StoreOk S.T s'.1)
    (hrec : s'.1.record = s.1.record) : S.Here X k pt d m s' := by
  have hhist := exec_history (S.sub _ _ _ _ he)
  have hl := h.came.loads
  have hp : i.isPass S.cfg = false := Op.isPass_of_not_visit S.cfg hvisit
  refine ⟨h.came.mono hL hst (by rw [hhist, loadedRecord_snoc hl, hl]), ?_, ?_, ?_⟩
  · rw [hhist, visitsMade_snoc, passes_snoc, baseVisits_snoc hl]
    simp only [hvisit, hp]
    exact h.booked
  · rw [hhist]
    exact quiet_snoc hpend
  · intro hs
    obtain ⟨rec, hr, hrest⟩ := h.kept hs
    exact ⟨rec, by rw [hrec]; exact hr, hrest⟩

/-- The same for an operation that leaves the whole store alone. -/
theorem Here.silentOp {s s' : World} (h : S.Here X k pt d m s) {i : Op} {r : i.Res}
    (he : S.step i s r s') (hsil : i.silent = true) (hvisit : i.isVisit = false)
    (hdec : i.decides = false) : S.Here X k pt d m s' := by
  have hst := exec_silent (S.sub _ _ _ _ he) hsil
  exact h.op he hvisit (not_pending hdec _ _) (by rw [hst]; exact Ledger.le.refl _)
    (by rw [hst]; exact h.came.store) (by rw [hst])

/-- The head of an iteration: the visit is executed, and counted later unless it
    is a fan-out or a join. -/
theorem Here.visit {s s' : World} (h : S.Here X k pt 0 m s) {r : Unit}
    (he : S.step (.visit .trunk pt.cursor pt.attempt) s r s') :
    S.Told s ⟨.visit .trunk pt.cursor pt.attempt, r⟩ s' ∧
      S.Here X k pt (if (Op.visit .trunk pt.cursor pt.attempt).isPass S.cfg then 0 else 1) m s' := by
  have hst := exec_silent (S.sub _ _ _ _ he) rfl
  have hhist := exec_history (S.sub _ _ _ _ he)
  have hl := h.came.loads
  refine ⟨S.told_silent he rfl h.came.store h.quiet
    ⟨X, k, pt, m, h.came, rfl, rfl, h.kept, h.booked⟩, ?_, ?_, ?_, ?_⟩
  · exact h.came.mono (by rw [hst]; exact Ledger.le.refl _) (by rw [hst]; exact h.came.store)
      (by rw [hhist, loadedRecord_snoc hl, hl])
  · rw [hhist, visitsMade_snoc, passes_snoc, baseVisits_snoc hl]
    have hb := h.booked
    simp only [Op.isVisit, if_true]
    split <;> omega
  · rw [hhist]
    exact quiet_snoc (not_pending rfl _ _)
  · rw [hst]
    exact h.kept

/-- The stages of an effect visit of the trunk. -/
def trunkStages (S : Setup) (X : S.Origin) (k : Nat) (pt : Point) (m : Nat) (n : Node) :
    Stages World where
  ready := fun s => S.Here X k pt 1 m s
  missed := fun s => S.Here X k pt 1 m s ∧ (S.solo → rowAt s.1.ledger pt = none)
  asked := fun v s => S.Here X k pt 1 m s ∧ Invoked s.2.history pt.cursor pt.attempt ∧
    Answered S.run S.C S.cfg pt n.kind v
  got := fun raw s => S.Here X k pt 1 m s ∧ rowAt s.1.ledger pt = some raw

/-- An effect visit of the trunk moves through its stages. -/
theorem trunkFrame {n : Node} (hn : S.cfg.graph.node pt.cursor = some n)
    (hk : n.kind.isEffect = true) :
    EffectFrame S (threadAnchor S.worldRely) pt n (S.trunkStages X k pt m n) where
  load := by
    intro x hx s hs r s' he
    have h := Here.rely hx hs
    have hst := exec_silent (S.sub _ _ _ _ he) rfl
    have hr : r = s.1.ledger pt.cursor pt.attempt := (S.sub _ _ _ _ he).1
    have h' := h.silentOp he rfl rfl rfl
    refine ⟨S.told_silent he rfl h.came.store h.quiet trivial, s', rfl, ?_, ?_⟩
    · intro raw hraw
      refine ⟨h', ?_⟩
      rw [hst]
      exact hr.symm.trans hraw
    · intro hno
      refine ⟨h', fun _ => ?_⟩
      rw [hst]
      exact hr.symm.trans hno
  closure := by
    intro i hi x hx s hs r s' he
    obtain ⟨hsil, -, hnv, hna, hat, -⟩ := effectOp_spec hi
    have h := Here.rely hx.1 hs
    have hst := exec_silent (S.sub _ _ _ _ he) hsil
    have hmiss : S.solo → rowAt s.1.ledger pt = none := by
      intro hsolo
      rw [hs.1.2.2 hsolo]
      exact hx.2 hsolo
    have h' := h.silentOp he hsil hnv hna
    refine ⟨S.told_silent he hsil h.came.store h.quiet (effectOp_fact hi hmiss), s', rfl, ?_, ?_⟩
    · intro v hv
      refine ⟨h', ?_, .effect i r hi (exec_allows (S.sub _ _ _ _ he)) hv⟩
      rw [exec_history (S.sub _ _ _ _ he)]
      exact invoked_now hat _ _ _
    · intro _
      refine ⟨h', ?_⟩
      rw [hst]
      exact hmiss
  record := by
    intro v x hx s hs r s' he
    have h := Here.rely hx.1 hs
    have hinv : Invoked s.2.history pt.cursor pt.attempt := by rw [hs.2]; exact hx.2.1
    obtain ⟨htold, hrec, -, hcases⟩ := record_told h.came.store (Or.inl h.came.on) hn hx.2.2 hinv he
      (h.quiet.follows _)
    have h' := h.op he rfl (not_pending_effect hn hk _ _ _ _) htold.grows htold.store hrec
    refine ⟨htold, s', rfl, ?_, ?_, ?_⟩
    · intro hr
      rcases hcases with ⟨-, -, ⟨-, -, hrow⟩ | ⟨row, heq, -⟩⟩ | ⟨c, heq, -⟩
      · exact ⟨h', hrow⟩
      · rw [hr] at heq; exact nomatch heq
      · rw [hr] at heq; exact nomatch heq
    · intro row hr
      rcases hcases with ⟨-, -, ⟨heq, -⟩ | ⟨row', heq, -, hrow⟩⟩ | ⟨c, heq, -⟩
      · rw [hr] at heq; exact nomatch heq
      · rw [hr] at heq; cases heq; exact ⟨h', hrow⟩
      · rw [hr] at heq; exact nomatch heq
    · intro c hr
      rcases hcases with ⟨-, -, ⟨heq, -⟩ | ⟨row', heq, -⟩⟩ | ⟨c', -, hbad⟩
      · rw [hr] at heq; exact nomatch heq
      · rw [hr] at heq; exact nomatch heq
      · refine ⟨⟨h', ?_, hx.2.2⟩, hbad⟩
        rw [exec_history (S.sub _ _ _ _ he)]
        exact hinv.snoc _

/-! ## Faults of the trunk -/

theorem Fault.rely {label : Option String} {L L' : Ledger} {e : GraphExecError}
    (h : S.Fault label L pt e) (hL : Ledger.le L L') (hs : S.solo → L' = L) :
    S.Fault label L' pt e := by
  cases h with
  | unknown hn he => exact .unknown hn he
  | closure n i r hn hi hr he hmiss =>
      refine .closure n i r hn hi hr he ?_
      intro hsolo
      rw [hs hsolo]
      exact hmiss hsolo
  | after n raw hn hk hrow he => exact .after n raw hn hk (hL.oracle _ _ hrow) he
  | router n hn hk he => exact .router n hn hk he
  | segment n c hn hk hbad he => exact .segment n c hn hk hbad he

theorem TrunkFault.rely {L L' : Ledger} {e : GraphExecError} (h : S.TrunkFault L pt e)
    (hL : Ledger.le L L') (hs : S.solo → L' = L) : S.TrunkFault L' pt e := by
  cases h with
  | visit h => exact .visit (h.rely hL hs)
  | ask n req hn hreq hr => exact .ask n req hn hreq hr
  | noEdge n req b m hn hreq hr ht he => exact .noEdge n req b m hn hreq hr ht he
  | badRow n raw m hn hk hrow hbad he => exact .badRow n raw m hn hk (hL.oracle _ _ hrow) hbad he
  | join n hn hk he => exact .join n hn hk he
  | findJoin n hn hk he => exact .findJoin n hn hk he

/-- A fault of the trunk explains the error of the call. -/
theorem Here.fault {s s' : World} {e : GraphExecError} (h : S.Here X k pt d m s)
    (hm : m < maxNodeVisits) (hf : S.TrunkFault s.1.ledger pt e) (hr : S.worldRely s s') :
    S.Verdict s' (.error e) := by
  have h' := h.rely hr
  refine ⟨.error e (.trunk X k m pt h'.came hm h'.kept ?_), h'.quiet⟩
  exact hf.rely hr.1.1 fun hs => by rw [hr.1.2.2 hs]

/-! ## One visit, then its checkpoint -/

/-- The outcome of a visit that takes one step or fails. -/
def MovePost (S : Setup) (X : S.Origin) (k : Nat) (pt : Point) (m : Nat) (s : World) :
    Except GraphExecError (Point × Json) → Prop
  | .ok (pt', _) => S.Here X k pt 1 m s ∧ BranchStep S.cfg (rowAt s.1.ledger) pt pt'
  | .error e => S.Here X k pt 1 m s ∧ S.TrunkFault s.1.ledger pt e

theorem MovePost.rely {s s' : World} {r : Except GraphExecError (Point × Json)}
    (h : S.MovePost X k pt m s r) (hr : S.worldRely s s') : S.MovePost X k pt m s' r := by
  cases r with
  | ok v => exact ⟨h.1.rely hr, h.2.mono hr.1.1.oracle⟩
  | error e => exact ⟨h.1.rely hr, h.2.rely hr.1.1 fun hs => by rw [hr.1.2.2 hs]⟩

/-- An effect visit takes the step of its row. -/
theorem movePost_of_visit {n : Node} (hn : S.cfg.graph.node pt.cursor = some n)
    (hk : n.kind.isEffect = true) (s : World) (r : Except GraphExecError (Point × Json))
    (h : VisitPost S none pt n (S.trunkStages X k pt m n) s r) : S.MovePost X k pt m s r := by
  cases r with
  | ok v =>
      obtain ⟨raw, ⟨hh, hrow⟩, ha⟩ := h
      exact ⟨hh, .effect n raw hn hk hrow ha⟩
  | error e =>
      rcases h with herr | ⟨raw, ⟨hh, hrow⟩, ha⟩
      · cases herr with
        | closure i r hx hi hr he => exact ⟨hx.1, .visit (.closure n i r hn hi hr he hx.2)⟩
        | segment v c hx hbad he => exact ⟨hx.1, .visit (.segment n c hn (Or.inl hk) hbad he)⟩
      · exact ⟨hh, .visit (.after n raw hn hk hrow ha)⟩

theorem visitRouter_move {n : Node} (hn : S.cfg.graph.node pt.cursor = some n)
    (hk : n.kind.isRouter = true) (h : S.Here X k pt 1 m s) :
    (visitRouter S.cfg none pt).Sat (threadAnchor S.worldRely) S.step S.Told
      (S.MovePost X k pt m) s := by
  show (Prog.bind (Prog.ofExcept (afterRouter S.cfg pt)) _).Sat _ _ _ _ _
  cases ha : afterRouter S.cfg pt with
  | ok pt' => exact ⟨h, .router n hn hk ha⟩
  | error e => exact ⟨h, .visit (.router n hn hk ha)⟩

/-- A checkpoint of the next position, then the rest of the loop. -/
theorem saveNext_sat {cont : Drive GraphRunOutcome} (came : S.Came X k pt s)
    (booked : visitsMade s.2.history + baseVisits s.2.history
      = pt.visits.total + passes S.cfg s.2.history)
    (hfol : ∀ r, (checkSegment "run_id" S.run.runId = .ok () → r = .ok ()) →
      Follows S.run S.cfg s.2.history ⟨.save (S.checkpoint pt), r⟩)
    (hcont : ∀ s', S.Here X k pt 0 0 s' →
      cont.Sat S.worldRely S.step S.Told S.Settles S.Verdict s') :
    (saveRecord (S.checkpoint pt) >>= fun _ => cont).Sat S.worldRely S.step S.Told S.Settles
      S.Verdict s := by
  refine saveRecord_sat ?_ ?_ ?_
  · intro s₁ hr₁
    have came₁ := came.rely hr₁
    refine ⟨rfl, came₁.store, fun hseg => recordOk_trunk hseg came₁.on (Or.inl rfl), ?_⟩
    rw [hr₁.2]
    exact hfol
  · intro s₁ hr₁ hseg
    refine hcont _ ((came.rely hr₁).saved ?_ hseg)
    rw [hr₁.2]
    exact booked
  · intro s' c hbad hq
    exact ⟨.error _ (.unsaved c hbad rfl), hq⟩

/-- A visit of the trunk, its checkpoint, then the rest of the loop. -/
theorem visitArm_sat (hm : m < maxNodeVisits) {p : Exec (Point × Json)}
    (hp : p.Sat (threadAnchor S.worldRely) S.step S.Told (S.MovePost X k pt m) s)
    {rest : Point → Json → Drive GraphRunOutcome} {f : Point × Json → Drive GraphRunOutcome}
    (hf : ∀ pt' entry,
      f (pt', entry) = (saveRecord (S.checkpoint pt') >>= fun _ => rest pt' entry))
    (hrest : ∀ pt' entry s', S.Here X (k + 1) pt' 0 0 s' →
      (rest pt' entry).Sat S.worldRely S.step S.Told S.Settles S.Verdict s') :
    (Main.lift p >>= f).Sat S.worldRely S.step S.Told S.Settles S.Verdict s := by
  refine Main.Sat.bind worldRely_refl (Q := S.MovePost X k pt m) ?_ ?_
    (Main.Sat.lift (fun _ _ _ h hr => h.rely hr) hp)
  · intro s₁ v hv
    obtain ⟨pt', entry⟩ := v
    obtain ⟨h, hstep⟩ := hv
    have hb := h.booked
    rw [hf]
    refine saveNext_sat (h.came.step (.work hstep)) ?_ (fun _ _ => h.quiet.follows _)
      (hrest pt' entry)
    rw [hstep.advanced.total]
    omega
  · intro s₁ e hv
    exact hv.1.fault hm hv.2 (worldRely_refl _)

/-! ## The approval arm -/

theorem resolveDecision_ok {cfg : GraphConfig} {n b next b' nx : String} {rep : Bool}
    {o : NodeVisitOutcome} (ht : cfg.graph.branchTarget n b = some next)
    (h : resolveDecision cfg n b next o = .ok (b', rep, nx)) :
    (o = .recorded ∧ nx = next) ∨
      ∃ row c, o = .replayed row ∧ storedDecision row = some c ∧
        cfg.graph.branchTarget n c = some nx := by
  cases o with
  | recorded => cases h; exact Or.inl ⟨rfl, rfl⟩
  | replayed row =>
      have hdec : storedDecision row = (row.get? "decision").bind Json.asStr? := rfl
      simp only [resolveDecision] at h
      rw [← hdec] at h
      cases hc : storedDecision row with
      | none => rw [hc] at h; exact nomatch h
      | some c =>
          rw [hc] at h
          dsimp only at h
          refine Or.inr ⟨row, c, rfl, hc, ?_⟩
          by_cases hcb : c = b
          · rw [if_pos hcb] at h
            cases h
            rw [hcb]
            exact ht
          · rw [if_neg hcb] at h
            cases hnx : cfg.graph.branchTarget n c with
            | none => rw [hnx] at h; exact nomatch h
            | some u => rw [hnx] at h; cases h; rfl

theorem resolveDecision_error {cfg : GraphConfig} {n b next : String} {o : NodeVisitOutcome}
    {e : GraphExecError} (h : resolveDecision cfg n b next o = .error e) :
    ∃ row msg, o = .replayed row ∧ e = .graph (.invalid msg) ∧
      ∀ c t, storedDecision row = some c → cfg.graph.branchTarget n c ≠ some t := by
  cases o with
  | recorded => cases h
  | replayed row =>
      have hdec : storedDecision row = (row.get? "decision").bind Json.asStr? := rfl
      simp only [resolveDecision] at h
      rw [← hdec] at h
      cases hc : storedDecision row with
      | none =>
          rw [hc] at h
          cases h
          exact ⟨row, _, rfl, rfl, fun c t hno => by rw [hc] at hno; cases hno⟩
      | some c =>
          rw [hc] at h
          dsimp only at h
          by_cases hcb : c = b
          · rw [if_pos hcb] at h; cases h
          · rw [if_neg hcb] at h
            cases hnx : cfg.graph.branchTarget n c with
            | some u => rw [hnx] at h; cases h
            | none =>
                rw [hnx] at h
                cases h
                refine ⟨row, _, rfl, rfl, ?_⟩
                intro c' t hc' ht'
                rw [hc] at hc'
                cases hc'
                rw [hnx] at ht'
                cases ht'

/-- What it means for an answered question to have been asked again. -/
theorem askedAgain_inv {run : RunRef} {cfg : GraphConfig} {st : RunStore} {a₀ : Nat}
    {req : ApprovalRequest} {ans : Except GraphExecError ApprovalOutcome} {n : String} {a : Nat}
    {b : String} {row : Json} {t : String}
    (h : AskedAgain run cfg (st, ⟨.approval a₀ req, ans⟩) n a b row t) :
    ans = .ok (.decided b) ∧ n = req.nodeId ∧ a = a₀ ∧
      (∃ next, cfg.graph.branchTarget n b = some next) ∧ st.ledger n a = some row ∧
      (∃ c, storedDecision row = some c ∧ cfg.graph.branchTarget n c = some t) ∧
      checkSegment "run_id" run.runId = .ok () ∧ checkSegment "node_id" n = .ok () := by
  obtain ⟨req', c, next, heq, hn, hb, hrow, hc, ht, h1, h2⟩ := h
  cases heq
  exact ⟨rfl, hn.symm, rfl, ⟨next, hb⟩, hrow, ⟨c, hc, ht⟩, h1, h2⟩

/-- The approval at `pt` was just answered with `b`. -/
structure Decided (S : Setup) (X : S.Origin) (k : Nat) (pt : Point) (m : Nat)
    (req : ApprovalRequest) (b : String) (s : World) : Prop where
  came : S.Came X k pt s
  booked : visitsMade s.2.history + baseVisits s.2.history
    = pt.visits.total + 1 + passes S.cfg s.2.history
  kept : S.solo → S.Kept m pt s.1
  asked : ∃ st, s.2.history.getLast? = some (st, ⟨.approval pt.attempt req, .ok (.decided b)⟩) ∧
    Ledger.le st.ledger s.1.ledger

theorem Decided.rely {req : ApprovalRequest} {b : String} {s s' : World}
    (h : S.Decided X k pt m req b s) (hr : S.worldRely s s') : S.Decided X k pt m req b s' := by
  obtain ⟨st, hlast, hL⟩ := h.asked
  refine ⟨h.came.rely hr, by rw [hr.2]; exact h.booked, ?_, st, by rw [hr.2]; exact hlast,
    hL.trans hr.1.1⟩
  intro hs
  rw [hr.1.2.2 hs]
  exact h.kept hs

/-- The next operation after a decision: a row that was there is replayed. -/
theorem Decided.follows_record {req : ApprovalRequest} {b : String}
    (h : S.Decided X k pt m req b s) (hreq : req.nodeId = pt.cursor)
    {r : Except CheckpointError NodeVisitOutcome}
    (hr : r = (s.1.recordNodeVisit S.run.runId pt.cursor pt.attempt (decisionValue b)).map (·.1)) :
    Follows S.run S.cfg s.2.history
      ⟨.recordNodeVisit pt.cursor pt.attempt (decisionValue b), r⟩ := by
  obtain ⟨st, hlast, hL⟩ := h.asked
  refine ⟨?_, ?_⟩
  · intro e n a b' row t he hag
    rw [hlast] at he
    cases he
    obtain ⟨hans, hn, ha, -, hrow, -, h1, h2⟩ := askedAgain_inv hag
    cases hans
    rw [hreq] at hn
    subst hn
    subst ha
    have hnow : s.1.ledger pt.cursor pt.attempt = some row := hL _ _ _ hrow
    rcases recordNodeVisit_cases s.1 S.run.runId pt.cursor pt.attempt (decisionValue b) with
      ⟨-, -, ⟨hnone, -⟩ | ⟨row', hrow', heq⟩⟩ | ⟨c, hbad, -⟩
    · rw [hnow] at hnone; exact nomatch hnone
    · rw [hnow] at hrow'
      cases hrow'
      rw [hr, heq]
      rfl
    · rcases hbad with hb | hb
      · exact absurd h1 hb
      · exact absurd h2 hb
  · intro e n a row t he hov
    rw [hlast] at he
    cases he
    obtain ⟨v, node, c, heq, -⟩ := hov
    exact nomatch congrArg Sigma.fst heq

/-- A save after a row was recorded or replayed for the approval at `pt`. -/
theorem follows_save {st : RunStore} {v : Json}
    {o : Except CheckpointError NodeVisitOutcome}
    (hlast : s.2.history.getLast? = some (st, ⟨.recordNodeVisit pt.cursor pt.attempt v, o⟩))
    {t : String} (hrow : ∀ row c u, o = .ok (.replayed row) → storedDecision row = some c →
      S.cfg.graph.branchTarget pt.cursor c = some u → u = t)
    {r : Except CheckpointError Unit} (hr : r = .ok ()) :
    Follows S.run S.cfg s.2.history ⟨.save (S.checkpoint (pt.advance t pt.state)), r⟩ := by
  refine ⟨?_, ?_⟩
  · intro e n a b row t he hag
    rw [hlast] at he
    cases he
    obtain ⟨req, c, next, heq, -⟩ := hag
    exact nomatch congrArg Sigma.fst heq
  · intro e n a row u he hov
    rw [hlast] at he
    cases he
    obtain ⟨v', node, c, heq, -, -, hc, hu⟩ := hov
    cases heq
    subst hr
    exact ⟨_, rfl, rfl, rfl, (hrow row c u rfl hc hu).symm, FinMap.count_insert_self ..⟩

/-- The decision is recorded or replayed, and the trunk follows the ROW. -/
theorem recordDecision_sat {n : Node} (hn : S.cfg.graph.node pt.cursor = some n)
    (hk : n.kind.isApproval = true) (hm : m < maxNodeVisits) {req : ApprovalRequest}
    (hask : askRequest S.run pt n.kind = some req) (hreq : req.nodeId = pt.cursor)
    {b next : String} (ht : S.cfg.graph.branchTarget pt.cursor b = some next)
    (hb : S.C.approval req (.ok (.decided b))) (h : S.Decided X k pt m req b s)
    {rest : Point → Json → Drive GraphRunOutcome}
    (hrest : ∀ pt' entry s', S.Here X (k + 1) pt' 0 0 s' →
      (rest pt' entry).Sat S.worldRely S.step S.Told S.Settles S.Verdict s')
    {g : Except CheckpointError NodeVisitOutcome → Drive GraphRunOutcome}
    (gerr : ∀ c, g (.error c) = .fail (.checkpoint c))
    (gbad : ∀ o e, resolveDecision S.cfg pt.cursor b next o = .error e → g (.ok o) = .fail e)
    (gok : ∀ o b' rep nx, resolveDecision S.cfg pt.cursor b next o = .ok (b', rep, nx) →
      ∃ entry, g (.ok o) = (saveRecord (S.checkpoint (pt.advance nx pt.state)) >>=
        fun _ => rest (pt.advance nx pt.state) entry)) :
    (Main.call (.recordNodeVisit pt.cursor pt.attempt (decisionValue b)) g :
      Drive GraphRunOutcome).Sat S.worldRely S.step S.Told S.Settles S.Verdict s := by
  intro s₁ hr₁ r s₂ he
  have h₁ := h.rely hr₁
  have hans := (S.sub _ _ _ _ he).1
  have hhist := exec_history (S.sub _ _ _ _ he)
  have hinv : Invoked s₁.2.history pt.cursor pt.attempt := by
    obtain ⟨st, hlast, -⟩ := h₁.asked
    refine ⟨_, List.mem_of_getLast? hlast, ?_⟩
    show some (req.nodeId, pt.attempt) = _
    rw [hreq]
  obtain ⟨htold, hrec, -, hcases⟩ := record_told h₁.came.store (Or.inl h₁.came.on) hn
    (.decision req b next hask hb ht rfl) hinv he (h₁.follows_record hreq hans)
  refine ⟨htold, ?_⟩
  have hl := h₁.came.loads
  have hlast : s₂.2.history.getLast?
      = some (s₁.1, ⟨.recordNodeVisit pt.cursor pt.attempt (decisionValue b), r⟩) := by
    rw [hhist]
    exact List.getLast?_concat ..
  have hcame : S.Came X k pt s₂ :=
    h₁.came.mono htold.grows htold.store (by rw [hhist, loadedRecord_snoc hl, hl])
  have hbooked : visitsMade s₂.2.history + baseVisits s₂.2.history
      = pt.visits.total + 1 + passes S.cfg s₂.2.history := by
    rw [hhist, visitsMade_snoc, passes_snoc, baseVisits_snoc hl]
    simp only [Op.isVisit, Op.isPass]
    exact h₁.booked
  have hkept : S.solo → S.Kept m pt s₂.1 := by
    intro hs
    obtain ⟨rec, hrec', hrest'⟩ := h₁.kept hs
    exact ⟨rec, by rw [hrec]; exact hrec', hrest'⟩
  have hbook : ∀ nx, visitsMade s₂.2.history + baseVisits s₂.2.history
      = (pt.advance nx pt.state).visits.total + passes S.cfg s₂.2.history := by
    intro nx
    have htot : (pt.advance nx pt.state).visits.total = pt.visits.total + 1 :=
      pt.visits.total_insert_succ pt.cursor
    rw [htot]
    exact hbooked
  -- without a replayed decision that has an edge, nothing is pending
  have hhere : (∀ row c t, r = .ok (.replayed row) → storedDecision row = some c →
      S.cfg.graph.branchTarget pt.cursor c ≠ some t) → S.Here X k pt 1 m s₂ := by
    intro hno
    refine ⟨hcame, hbooked, ?_, hkept⟩
    intro e he hpend
    rw [hlast] at he
    cases he
    rcases hpend with ⟨n', a, b', row, t, req', c, nx, heq, -⟩ |
      ⟨n', a, row, t, v, node, c, heq, -, -, hc, htc⟩
    · cases congrArg Sigma.fst heq
    · cases heq
      exact hno row c t rfl hc htc
  rcases hcases with ⟨hs1, -, ⟨hr, -, hrow⟩ | ⟨row, hr, -, hrow⟩⟩ | ⟨c, hr, hbad⟩
  · subst hr
    obtain ⟨entry, hg⟩ := gok .recorded b false next rfl
    rw [hg]
    refine saveNext_sat (hcame.step (.approval n _ b next hn hk hrow rfl ht rfl)) (hbook next) ?_
      (hrest _ entry)
    intro r hr
    refine follows_save hlast ?_ (hr hs1)
    intro row c u hno
    cases hno
  · subst hr
    cases hres : resolveDecision S.cfg pt.cursor b next (.replayed row) with
    | error e =>
        rw [gbad _ _ hres]
        obtain ⟨row', msg, heq, he', hno⟩ := resolveDecision_error hres
        cases heq
        intro s₃ hr₃
        refine (hhere ?_).fault hm (.badRow n row msg hn hk hrow hno he') hr₃
        intro row' c t hrow' hc
        cases hrow'
        exact hno c t hc
    | ok v =>
        obtain ⟨b', rep, nx⟩ := v
        obtain ⟨entry, hg⟩ := gok _ _ _ _ hres
        rw [hg]
        rcases resolveDecision_ok ht hres with ⟨hno, -⟩ | ⟨row', c, heq, hc, htc⟩
        · cases hno
        · cases heq
          refine saveNext_sat (hcame.step (.approval n row c nx hn hk hrow hc htc rfl)) (hbook nx)
            ?_ (hrest _ entry)
          intro r hr
          refine follows_save hlast ?_ (hr hs1)
          intro row' c' u hrow' hc' hu
          cases hrow'
          rw [hc] at hc'
          cases hc'
          rw [htc] at hu
          exact (Option.some.inj hu).symm
  · subst hr
    rw [gerr]
    intro s₃ hr₃
    refine (hhere ?_).fault hm (.visit (.segment n c hn (Or.inr hk) hbad rfl)) hr₃
    intro row c t hno
    cases hno

/-- **THE APPROVAL ARM** asks first; an answer without an edge fails, an answer
    with one goes on to the ledger. -/
theorem approval_sat {n : Node} (hn : S.cfg.graph.node pt.cursor = some n)
    (hk : n.kind.isApproval = true) (hm : m < maxNodeVisits) {req : ApprovalRequest}
    (hask : askRequest S.run pt n.kind = some req) (hreq : req.nodeId = pt.cursor)
    (h : S.Here X k pt 1 m s) {rest : Point → Json → Drive GraphRunOutcome}
    (hrest : ∀ pt' entry s', S.Here X (k + 1) pt' 0 0 s' →
      (rest pt' entry).Sat S.worldRely S.step S.Told S.Settles S.Verdict s')
    {f : Except GraphExecError ApprovalOutcome → Drive GraphRunOutcome} {reply : String}
    {trail : List Json} (ferr : ∀ e, f (.error e) = .fail e)
    (fwait : f (.ok .awaiting) = (saveRecord (buildRecord S.run.runId S.cfg pt .awaitingInput) >>=
      fun _ => .ret ⟨.awaitingInput, reply, trail⟩))
    (fnone : ∀ b, S.cfg.graph.branchTarget pt.cursor b = none →
      ∃ msg, f (.ok (.decided b)) = .fail (.graph (.invalid msg)))
    (fsome : ∀ b next, S.cfg.graph.branchTarget pt.cursor b = some next →
      ∃ g, f (.ok (.decided b))
          = .call (.recordNodeVisit pt.cursor pt.attempt (decisionValue b)) g ∧
        (∀ c, g (.error c) = .fail (.checkpoint c)) ∧
        (∀ o e, resolveDecision S.cfg pt.cursor b next o = .error e → g (.ok o) = .fail e) ∧
        ∀ o b' rep nx, resolveDecision S.cfg pt.cursor b next o = .ok (b', rep, nx) →
          ∃ entry, g (.ok o) = (saveRecord (S.checkpoint (pt.advance nx pt.state)) >>=
            fun _ => rest (pt.advance nx pt.state) entry)) :
    (Main.call (.approval pt.attempt req) f : Drive GraphRunOutcome).Sat S.worldRely S.step S.Told S.Settles
      S.Verdict s := by
  intro s₁ hr₁ r s₂ he
  have h₁ := h.rely hr₁
  have hst := exec_silent (S.sub _ _ _ _ he) rfl
  have hhist := exec_history (S.sub _ _ _ _ he)
  have hallow : S.C.approval req r := exec_allows (S.sub _ _ _ _ he)
  refine ⟨S.told_silent he rfl h₁.came.store h₁.quiet trivial, ?_⟩
  have hl := h₁.came.loads
  have hcame : S.Came X k pt s₂ := h₁.came.mono (by rw [hst]; exact Ledger.le.refl _)
    (by rw [hst]; exact h₁.came.store) (by rw [hhist, loadedRecord_snoc hl, hl])
  have hbook : visitsMade s₂.2.history + baseVisits s₂.2.history
      = pt.visits.total + 1 + passes S.cfg s₂.2.history := by
    rw [hhist, visitsMade_snoc, passes_snoc, baseVisits_snoc hl]
    simp only [Op.isVisit, Op.isPass]
    exact h₁.booked
  have hkept : S.solo → S.Kept m pt s₂.1 := by rw [hst]; exact h₁.kept
  -- an answer that is no decision with an edge does not count as asked again
  have hhere : (∀ b next, r = .ok (.decided b) →
      S.cfg.graph.branchTarget pt.cursor b ≠ some next) → S.Here X k pt 1 m s₂ := by
    intro hno
    refine ⟨hcame, hbook, ?_, hkept⟩
    rw [hhist]
    refine quiet_snoc ?_
    intro hpend
    rcases hpend with ⟨n', a, b, row, t, hag⟩ | ⟨n', a, row, t, v, node, c, heq, -⟩
    rotate_left
    · cases congrArg Sigma.fst heq
    obtain ⟨hans, hn', -, ⟨next, htgt⟩, -⟩ := askedAgain_inv hag
    rw [hn', hreq] at htgt
    exact hno b next hans htgt
  cases r with
  | error e =>
      rw [ferr]
      intro s₃ hr₃
      refine (hhere ?_).fault hm (.ask n req hn hask hallow) hr₃
      intro b next hno
      cases hno
  | ok outcome =>
      cases outcome with
      | awaiting =>
          rw [fwait]
          have h₂ : S.Here X k pt 1 m s₂ := hhere (fun b next hno => (by cases hno))
          refine saveRecord_sat ?_ ?_ ?_
          · intro s₃ hr₃
            have h₃ := h₂.rely hr₃
            exact .ofQuiet rfl h₃.came.store
              (fun hseg => recordOk_trunk hseg h₃.came.on (Or.inr rfl)) h₃.quiet
          · intro s₃ hr₃ hseg s₄ hr₄
            have h₃ := h₂.rely hr₃
            have hl₃ := h₃.came.loads
            have hcame₄ : S.Came X k pt (savedWorld s₃ (buildRecord S.run.runId S.cfg pt
                .awaitingInput)) :=
              h₃.came.mono (Ledger.le.refl _)
                (h₃.came.store.save (recordOk_trunk hseg h₃.came.on (Or.inr rfl)))
                ((loadedRecord_snoc hl₃ _).trans hl₃.symm)
            refine ⟨.parked X k pt n req reply trail (hcame₄.rely hr₄) hn hask hallow ?_, ?_⟩
            · intro hs
              rw [hr₄.1.2.2 hs]
              exact ⟨_, rfl, rfl⟩
            rw [hr₄.2]
            exact quiet_snoc (not_pending rfl _ _)
          · intro s' c hbad hq
            exact ⟨.error _ (.unsaved c hbad rfl), hq⟩
      | decided b =>
          cases ht : S.cfg.graph.branchTarget pt.cursor b with
          | none =>
              obtain ⟨msg, hf⟩ := fnone b ht
              rw [hf]
              intro s₃ hr₃
              refine (hhere ?_).fault hm (.noEdge n req b msg hn hask hallow ht rfl) hr₃
              intro b' next hb' htgt
              cases hb'
              rw [ht] at htgt
              cases htgt
          | some next =>
              obtain ⟨g, hf, gerr, gbad, gok⟩ := fsome b next ht
              rw [hf]
              refine recordDecision_sat hn hk hm hask hreq ht hallow ?_ hrest gerr gbad gok
              exact ⟨hcame, hbook, hkept, s₁.1, by rw [hhist]; exact List.getLast?_concat ..,
                by rw [hst]; exact Ledger.le.refl _⟩

/-! ## The other arms -/

/-- The respond arm: the final record, then success. -/
theorem respond_sat {n : Node} (hn : S.cfg.graph.node pt.cursor = some n)
    (hk : n.kind = .respond) (hbound : k < maxNodeVisits + extraSteps X.loaded)
    (h : S.Here X k pt 1 m s) (trail : List Json) :
    (saveRecord (finalRecord S.run S.cfg pt) >>= fun _ =>
      (.ret ⟨.succeeded, lastAssistantMessage pt.state, trail⟩ : Drive GraphRunOutcome)).Sat
      S.worldRely S.step S.Told S.Settles S.Verdict s := by
  refine saveRecord_sat ?_ ?_ ?_
  · intro s₁ hr₁
    have h₁ := h.rely hr₁
    refine .ofQuiet rfl h₁.came.store ?_ h₁.quiet
    intro hseg
    exact ⟨⟨rfl, rfl⟩, hseg, pt, h₁.came.on, ⟨n, hn, hk⟩, rfl⟩
  · intro s₁ hr₁ hseg s₂ hr₂
    have h₁ := h.rely hr₁
    have hl := h₁.came.loads
    have hcame : S.Came X k pt (savedWorld s₁ (finalRecord S.run S.cfg pt)) :=
      h₁.came.mono (Ledger.le.refl _)
        (h₁.came.store.save ⟨⟨rfl, rfl⟩, hseg, pt, h₁.came.on, ⟨n, hn, hk⟩, rfl⟩)
        ((loadedRecord_snoc hl _).trans hl.symm)
    refine ⟨.succeeded X k pt s₁.1 trail (hcame.rely hr₂) hbound ⟨n, hn, hk⟩ ?_ ?_, ?_⟩
    · rw [hr₂.2]
      exact List.getLast?_concat ..
    · intro hs
      rw [hr₂.1.2.2 hs]
      rfl
    · rw [hr₂.2]
      exact quiet_snoc (not_pending rfl _ _)
  · intro s' c hbad hq
    exact ⟨.error _ (.unsaved c hbad rfl), hq⟩

/-- The cap: the failed record, then the error. -/
theorem cap_sat (hbound : maxNodeVisits ≤ k) (h : S.Here X k pt d m s) :
    (saveRecord (buildRecord S.run.runId S.cfg pt .failed) >>= fun _ =>
      (.fail (.iterationCap S.run.runId) : Drive GraphRunOutcome)).Sat
      S.worldRely S.step S.Told S.Settles S.Verdict s := by
  have hrec : ∀ s₁, S.Here X k pt d m s₁ → checkSegment "run_id" S.run.runId = .ok () →
      RecordOk S.T s₁.1.ledger (buildRecord S.run.runId S.cfg pt .failed) := by
    intro s₁ h₁ hseg
    exact ⟨⟨rfl, rfl⟩, hseg, h₁.came.on, Or.inl ⟨_, k, h₁.came.origin, h₁.came.path, hbound⟩⟩
  refine saveRecord_sat ?_ ?_ ?_
  · intro s₁ hr₁
    have h₁ := h.rely hr₁
    exact .ofQuiet rfl h₁.came.store (hrec s₁ h₁) h₁.quiet
  · intro s₁ hr₁ hseg s₂ hr₂
    have h₁ := h.rely hr₁
    have hl := h₁.came.loads
    have hcame : S.Came X k pt (savedWorld s₁ (buildRecord S.run.runId S.cfg pt .failed)) :=
      h₁.came.mono (Ledger.le.refl _) (h₁.came.store.save (hrec s₁ h₁ hseg))
        ((loadedRecord_snoc hl _).trans hl.symm)
    refine ⟨.error _ (.cap X k pt (hcame.rely hr₂) (Or.inl hbound) ?_ rfl), ?_⟩
    · intro hs
      rw [hr₂.1.2.2 hs]
      exact ⟨_, rfl, rfl⟩
    rw [hr₂.2]
    exact quiet_snoc (not_pending rfl _ _)
  · intro s' c hbad hq
    exact ⟨.error _ (.unsaved c hbad rfl), hq⟩

/-- A fresh frontier is one a region may start from. -/
theorem initialFrontier_ok {O : Oracle} {P : Point} {n : Node} {J : String}
    (hn : S.cfg.graph.node P.cursor = some n) (hk : n.kind = .parallel)
    (hJ : findJoinForParallel S.cfg P.cursor = .ok J) :
    FrontierOk S.cfg O P (initialFrontier S.cfg P) ∧
      spentSlots P (initialFrontier S.cfg P) = 0 := by
  have hpoint : ∀ x : String × String,
      slotPoint P ⟨x.1, x.2, P.state, false, .empty⟩ = branchStart P x := by
    intro x
    rw [slotPoint, FinMap.extend_empty]
    rfl
  have hspent : spentSlots P (initialFrontier S.cfg P) = 0 := by
    unfold spentSlots initialFrontier
    refine List.sum_eq_zero ?_
    intro x hx
    obtain ⟨bc, hbc, hx⟩ := List.mem_map.mp hx
    obtain ⟨y, -, hy⟩ := List.mem_map.mp hbc
    rw [← hx, ← hy, hpoint y]
    exact Nat.sub_self _
  refine ⟨⟨⟨n, hn, hk⟩, ⟨J, hJ, ?_⟩, Or.inl hspent⟩, hspent⟩
  unfold initialFrontier
  refine List.forall₂_map_right_iff.mpr (List.forall₂_same.mpr ?_)
  intro x _
  exact ⟨rfl, ⟨0, by rw [hpoint]; exact .refl⟩, fun hc => (by cases hc), Or.inl ⟨rfl, rfl⟩⟩

/-- The fan-out: the region, then the rest of the loop. -/
theorem parallel_sat {n : Node} (hn : S.cfg.graph.node pt.cursor = some n)
    (hk : n.kind = .parallel) (hm : m < maxNodeVisits) (h : S.Here X k pt 0 m s)
    {f : Point × List Json → Drive GraphRunOutcome}
    (hf : ∀ v s', S.Here X (k + 1) v.1 0 0 s' →
      (f v).Sat S.worldRely S.step S.Told S.Settles S.Verdict s') :
    (runParallelRegion S.run S.cfg pt >>= f).Sat S.worldRely S.step S.Told S.Settles S.Verdict s := by
  refine Main.Sat.bind worldRely_refl (Q := fun s r => Except.rec (motive := fun _ => Prop)
    (fun e => S.Verdict s (.error e)) (fun v => S.Here X (k + 1) v.1 0 0 s) r) ?_ ?_ ?_
  · intro s' v hv
    exact hf v s' hv
  · intro s' e he
    exact he
  · unfold runParallelRegion
    cases hJ : findJoinForParallel S.cfg pt.cursor with
    | error e =>
        intro s₁ hr₁
        exact h.fault hm (.findJoin n hn hk hJ) hr₁
    | ok J =>
        obtain ⟨hfr, hspent⟩ := initialFrontier_ok (O := rowAt s.1.ledger) hn hk hJ
        refine Main.Sat.mono ?_ (driveFrontier_sat hn hk hJ true h.came hfr ?_ h.quiet
          (fun hc => (by cases hc)))
        · intro s' r hr
          cases r with
          | ok v => exact hr
          | error e => exact ⟨.error e hr.1, hr.2⟩
        · rw [hspent]
          exact h.booked

/-- The trunk passes through a join. -/
theorem Here.pass {n : Node} (hn : S.cfg.graph.node pt.cursor = some n) (hk : n.kind = .join)
    {next : String} (ht : nextLinear S.cfg pt.cursor = .ok next)
    (h : S.Here X k pt 0 m s) : S.Here X (k + 1) { pt with cursor := next } 0 (m + 1) s := by
  refine ⟨h.came.step (.join n next hn hk ht rfl), h.booked, h.quiet, ?_⟩
  intro hs
  obtain ⟨rec, h1, h2, h3, h4, h5⟩ := h.kept hs
  exact ⟨rec, h1, h2, h3, h4, h5.tail ⟨n, next, hn, hk, ht, rfl⟩⟩

/-! ## The loop -/

theorem isPass_visit {n : Node} (hn : S.cfg.graph.node pt.cursor = some n) :
    (Op.visit .trunk pt.cursor pt.attempt).isPass S.cfg
      = (decide (n.kind = .parallel) || decide (n.kind = .join)) := by
  simp only [Op.isPass, hn]

/-- **THE TRUNK LOOP**: whatever the closures answer and the other calls do, every
    operation is explained and the loop ends in a verdict. -/
theorem drive_sat : ∀ (fuel k m : Nat) (pt : Point) (trail : List Json) (s : World),
    k + fuel = maxNodeVisits + extraSteps X.loaded → m + fuel ≤ maxNodeVisits →
    S.Here X k pt 0 m s →
    (drive S.run S.cfg fuel pt trail).Sat S.worldRely S.step S.Told S.Settles S.Verdict s := by
  intro fuel
  induction fuel with
  | zero =>
      intro k m pt trail s hk hm h
      exact cap_sat (by omega) h
  | succ fuel ih =>
      intro k m pt trail s hk hm h
      have hm' : m < maxNodeVisits := by omega
      have hnext : ∀ pt' entry s', S.Here X (k + 1) pt' 0 0 s' →
          (drive S.run S.cfg fuel pt' (trail ++ [entry])).Sat S.worldRely S.step S.Told S.Settles
            S.Verdict s' := by
        intro pt' entry s' h'
        exact ih (k + 1) 0 pt' _ s' (by omega) (by omega) h'
      unfold drive
      cases hn : S.cfg.graph.node pt.cursor with
      | none =>
          intro s₁ hr₁
          exact h.fault hm' (.visit (.unknown hn rfl)) hr₁
      | some n =>
          intro s₁ hr₁ u s₂ he
          obtain ⟨htold, h₂⟩ := (h.rely hr₁).visit he
          refine ⟨htold, ?_⟩
          rw [isPass_visit hn] at h₂
          have heff : ∀ {p : Exec (Point × Json)}, n.kind.isEffect = true →
              p.Sat (threadAnchor S.worldRely) S.step S.Told
                (VisitPost S none pt n (S.trunkStages X k pt m n)) s₂ →
              p.Sat (threadAnchor S.worldRely) S.step S.Told (S.MovePost X k pt m) s₂ :=
            fun hke hp => hp.mono (movePost_of_visit hn hke)
          have hF := trunkFrame (X := X) (k := k) (m := m) hn
          cases hkd : n.kind with
          | agent _ _ _ _ _ _ =>
              have hke : n.kind.isEffect = true := by rw [hkd]; rfl
              rw [hkd] at h₂
              exact visitArm_sat hm' (heff hke (visitAgent_sat (hF hke) hkd none h₂))
                (fun _ _ => rfl) hnext
          | tool _ =>
              have hke : n.kind.isEffect = true := by rw [hkd]; rfl
              rw [hkd] at h₂
              exact visitArm_sat hm' (heff hke (visitTool_sat (hF hke) hkd none h₂))
                (fun _ _ => rfl) hnext
          | router _ =>
              rw [hkd] at h₂
              exact visitArm_sat hm' (visitRouter_move hn (by rw [hkd]; rfl) h₂)
                (fun _ _ => rfl) hnext
          | supervisor _ _ _ _ _ =>
              have hke : n.kind.isEffect = true := by rw [hkd]; rfl
              rw [hkd] at h₂
              exact visitArm_sat hm' (heff hke (visitSupervisor_sat (hF hke) hkd none h₂))
                (fun _ _ => rfl) hnext
          | respond =>
              rw [hkd] at h₂
              exact respond_sat hn hkd (by omega) h₂ _
          | parallel =>
              rw [hkd] at h₂
              refine parallel_sat hn hkd hm' h₂ ?_
              intro v s' hv
              exact ih (k + 1) 0 v.1 _ s' (by omega) (by omega) hv
          | join =>
              rw [hkd] at h₂
              show (Main.bind (Main.ofExcept (nextLinear S.cfg pt.cursor)) _).Sat _ _ _ _ _ _
              cases ht : nextLinear S.cfg pt.cursor with
              | error e =>
                  intro s₃ hr₃
                  exact Here.fault h₂ hm' (.join n hn hkd ht) hr₃
              | ok next =>
                  exact ih (k + 1) (m + 1) _ trail s₂ (by omega) (by omega)
                    (Here.pass hn hkd ht h₂)
          | approval _ _ _ _ _ =>
              rw [hkd] at h₂
              refine approval_sat hn (by rw [hkd]; rfl) hm' (by rw [hkd]; rfl) rfl h₂ hnext
                (fun _ => rfl) rfl ?_ ?_
              · intro b hb
                simp only [Main.bind, hb]
                exact ⟨_, rfl⟩
              · intro b next hb
                simp only [Main.bind, hb]
                refine ⟨_, rfl, fun _ => rfl, ?_, ?_⟩
                · intro o e ho
                  simp only [Main.bind, ho]
                  rfl
                · intro o b' rep nx ho
                  simp only [Main.bind, ho]
                  exact ⟨_, rfl⟩

/-! ## A whole call -/

/-- A live record that was loaded first, and is still there when nobody else is. -/
structure Loaded (S : Setup) (rec : GraphRunRecord) (s : World) : Prop where
  store : StoreOk S.T s.1
  ok : RecordOk S.T s.1.ledger rec
  live : rec.status.terminal = false
  history : ∃ st, s.2.history = [(st, ⟨.load, some rec⟩)]
  kept : S.solo → s.1.record = some rec

/-- The call starts at the record it loaded. -/
def recordOrigin (S : Setup) (rec : GraphRunRecord) : S.Origin := ⟨some rec, rec.point, rfl⟩

theorem Loaded.came {rec : GraphRunRecord} (h : S.Loaded rec s) :
    S.Came (S.recordOrigin rec) 0 rec.point s := by
  obtain ⟨st, hh⟩ := h.history
  exact ⟨h.store, by rw [hh]; rfl, (h.ok.live h.live).1, .refl⟩

theorem quiet_load {st : RunStore} {r : Option GraphRunRecord} :
    Quiet S.run S.cfg [(st, ⟨.load, r⟩)] := by
  exact quiet_snoc (h := []) (not_pending rfl _ _)

/-- A resumed region, then the loop. -/
theorem resumeParallel_sat {rec : GraphRunRecord} (h : S.Loaded rec s)
    {frontier : List BranchCursor} (hfr : rec.frontier = some frontier) :
    (resumeParallel S.run S.cfg rec.point frontier).Sat S.worldRely S.step S.Told S.Settles S.Verdict s := by
  obtain ⟨hrun, hf⟩ := (h.ok.live h.live).2 frontier hfr
  obtain ⟨n, hn, hk⟩ := hf.node
  obtain ⟨J, hJ, hslots⟩ := hf.slots
  obtain ⟨st, hh⟩ := h.history
  have hq : Quiet S.run S.cfg s.2.history := by rw [hh]; exact quiet_load
  unfold resumeParallel
  rw [hJ]
  refine Main.Sat.bind worldRely_refl (Q := Region.Post S (S.recordOrigin rec) 0) ?_ ?_
    (driveFrontier_sat hn hk hJ false h.came hf ?_ hq ?_)
  · intro s' v hv
    refine drive_sat maxNodeVisits 1 0 v.1 [] s' ?_ (by omega) hv
    show 1 + maxNodeVisits = maxNodeVisits + if rec.frontier.isSome then 1 else 0
    rw [hfr]
    rfl
  · intro s' e he
    exact ⟨.error e he.1, he.2⟩
  · -- the visits counted in the slots were made before this call
    rw [hh]
    show 0 + (rec.visits.total + resumedBranchVisits rec.visits (rec.frontier.getD [])) = _
    rw [hfr]
    show 0 + (rec.visits.total + resumedBranchVisits rec.point.visits frontier) = _
    rw [resumedBranchVisits_eq hslots, Nat.zero_add]
    rfl
  · intro _ hs
    refine ⟨?_, h.ok.2.1⟩
    rw [h.kept hs]
    refine congrArg some ?_
    obtain ⟨⟨hid, hcfg⟩, -⟩ := h.ok
    cases rec
    simp only at hid hcfg hrun hfr
    rw [hid, hcfg, hrun, hfr]
    rfl

/-- `drive_from_record`: the stored graph is the run's graph. -/
theorem driveFromRecord_sat {rec : GraphRunRecord} (h : S.Loaded rec s) :
    (driveFromRecord S.run rec).Sat S.worldRely S.step S.Told S.Settles S.Verdict s := by
  have hg : rec.graph.fromJson = .ok S.cfg := by
    rw [h.ok.1.2]
    exact S.accepted
  obtain ⟨st, hh⟩ := h.history
  unfold driveFromRecord
  rw [hg]
  dsimp only [Main.ofExcept, bind, Main.bind]
  cases hfr : rec.frontier with
  | some frontier => exact resumeParallel_sat h hfr
  | none =>
      refine drive_sat (X := S.recordOrigin rec) maxNodeVisits 0 0 rec.point [] s ?_ (by omega)
        ⟨h.came, ?_, by rw [hh]; exact quiet_load, ?_⟩
      · show 0 + maxNodeVisits = maxNodeVisits + if rec.frontier.isSome then 1 else 0
        rw [hfr, Nat.zero_add]
        rfl
      · rw [hh]
        show 0 + (rec.visits.total + resumedBranchVisits rec.visits (rec.frontier.getD [])) = _
        rw [hfr, Nat.zero_add]
        rfl
      · intro hs
        exact ⟨rec, h.kept hs, hfr, h.live, h.ok.1.2, .refl⟩

/-- The first operation of a call. -/
theorem load_told {st : RunStore} (hst : StoreOk S.T st) {s₁ s₂ : World}
    (hr : S.worldRely (st, CallMemory.fresh) s₁) {r : Option GraphRunRecord}
    (he : S.step .load s₁ r s₂) :
    S.Told s₁ ⟨.load, r⟩ s₂ ∧ StoreOk S.T s₂.1 ∧ r = s₂.1.record ∧
      s₂.2.history = [(s₁.1, ⟨.load, r⟩)] := by
  have hex := S.sub _ _ _ _ he
  have hst₁ : StoreOk S.T s₁.1 := hr.1.2.1 hst
  have hst₂ := exec_silent hex rfl
  have hnil : s₁.2.history = [] := by rw [hr.2]; rfl
  have hq : Quiet S.run S.cfg s₁.2.history := by
    rw [hnil]
    intro e he
    exact nomatch he
  refine ⟨S.told_silent he rfl hst₁ hq trivial, by rw [hst₂]; exact hst₁, ?_, ?_⟩
  · rw [hst₂]
    exact hex.1
  · rw [exec_history hex, hnil, List.nil_append]

/-- **A RESUME CALL.** -/
theorem resume_sat (hT : S.T.Tracked) {st : RunStore} (hst : StoreOk S.T st) :
    (resume S.run).Sat S.worldRely S.step S.Told S.Settles S.Verdict (st, CallMemory.fresh) := by
  intro s₁ hr₁ r s₂ he
  obtain ⟨htold, hst₂, hrec, hh⟩ := load_told hst hr₁ he
  refine ⟨htold, ?_⟩
  cases r with
  | none =>
      intro s₃ hr₃
      refine ⟨.error _ (.refused (by rw [hr₃.2, hh]; rfl) rfl), ?_⟩
      rw [hr₃.2, hh]
      exact quiet_load
  | some rec =>
      have hok := hst₂.record hT rec hrec.symm
      have hstored : rec.status.terminal = true → ∀ s₃, S.worldRely s₂ s₃ → S.Verdict s₃
          (.ok ⟨rec.status, lastAssistantMessage rec.state, rebuildTrailFromState rec.state⟩) := by
        intro hterm s₃ hr₃
        refine ⟨.stored s₁.1 rec _ (by rw [hr₃.2]; exact hh) hterm (hok.mono hr₃.1.1), ?_⟩
        rw [hr₃.2, hh]
        exact quiet_load
      have hlive : rec.status.terminal = false →
          (driveFromRecord S.run rec).Sat S.worldRely S.step S.Told S.Settles S.Verdict s₂ :=
        fun hl => driveFromRecord_sat ⟨hst₂, hok, hl, ⟨_, hh⟩, fun _ => hrec.symm⟩
      dsimp only [Main.bind]
      cases hs : rec.status with
      | succeeded => rw [hs] at hstored; exact hstored rfl
      | failed => rw [hs] at hstored; exact hstored rfl
      | running => exact hlive (by rw [hs]; rfl)
      | awaitingInput => exact hlive (by rw [hs]; rfl)

/-- **A START CALL**: it goes on with a stored record, or begins the run. -/
theorem start_sat (hT : S.T.Tracked) {cfg : GraphConfig} {text : String}
    (hnew : S.T.Present ∨ (cfg = S.cfg ∧ S.T.Start text)) {st : RunStore}
    (hst : StoreOk S.T st) :
    (start S.run cfg text).Sat S.worldRely S.step S.Told S.Settles S.CallVerdict (st, CallMemory.fresh) := by
  intro s₁ hr₁ r s₂ he
  obtain ⟨htold, hst₂, hrec, hh⟩ := load_told hst hr₁ he
  refine ⟨htold, ?_⟩
  cases r with
  | some rec =>
      have hok := hst₂.record hT rec hrec.symm
      have hlive : rec.status.terminal = false →
          (driveFromRecord S.run rec).Sat S.worldRely S.step S.Told S.Settles S.CallVerdict s₂ :=
        fun hl => Main.Sat.mono (fun _ _ => Or.inl)
          (driveFromRecord_sat ⟨hst₂, hok, hl, ⟨_, hh⟩, fun _ => hrec.symm⟩)
      have hdone : rec.status.terminal = true → ∀ s₃, S.worldRely s₂ s₃ →
          S.CallVerdict s₃ (.error (.alreadyCompleted S.run.runId)) := by
        intro hterm s₃ hr₃
        exact Or.inr ⟨rfl, s₁.1, rec, by rw [hr₃.2]; exact hh, hterm⟩
      dsimp only [Main.bind]
      cases hs : rec.status with
      | succeeded => exact hdone (by rw [hs]; rfl)
      | failed => exact hdone (by rw [hs]; rfl)
      | running => exact hlive (by rw [hs]; rfl)
      | awaitingInput => exact hlive (by rw [hs]; rfl)
  | none =>
      rcases hnew with hp | ⟨hcfg, htext⟩
      · -- the record is there from the beginning
        have hsome := hst₂.present hp
        rw [← hrec] at hsome
        cases hsome
      · subst hcfg
        let X : S.Origin := ⟨none, startPoint S.cfg text, ⟨text, htext, rfl⟩⟩
        have hcame : S.Came X 0 (startPoint S.cfg text) s₂ :=
          ⟨hst₂, by rw [hh]; rfl, S.T.start htext, .refl⟩
        have hq : Quiet S.run S.cfg s₂.2.history := by rw [hh]; exact quiet_load
        refine Main.Sat.mono (fun _ _ => Or.inl) (saveNext_sat hcame (by rw [hh]; rfl) (fun _ _ => hq.follows _) ?_)
        intro s₃ h₃
        exact drive_sat maxNodeVisits 0 0 _ [] s₃ (Nat.zero_add _) (by omega) h₃

end Setup

end Greentic
