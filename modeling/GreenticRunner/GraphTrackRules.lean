import GreenticRunner.GraphTrack

/-! # Rules for single operations

    What one operation does to the knowledge of a call: the store invariant, the
    path, the visit book-keeping and the history.  Everything here is about ONE
    operation; the programs are walked in `GraphRegionProofs` and
    `GraphTrunkProofs`. -/

namespace Greentic

open FinMaps CountedPath Resumption

/-! ## The history -/

/-- What was loaded stays loaded. -/
theorem loadedRecord_snoc {h : History} {r : Option GraphRunRecord}
    (hl : loadedRecord h = some r) (e : RunStore × Event Op Op.Res) :
    loadedRecord (h ++ [e]) = some r := by
  cases h with
  | nil => exact nomatch hl
  | cons x xs =>
      obtain ⟨st, i, res⟩ := x
      cases i <;> exact hl

/-- So do the visits it had. -/
theorem baseVisits_snoc {h : History} {r : Option GraphRunRecord}
    (hl : loadedRecord h = some r) (e : RunStore × Event Op Op.Res) :
    baseVisits (h ++ [e]) = baseVisits h := by
  rw [baseVisits, baseVisits, loadedRecord_snoc hl, hl]

/-- The visits with one more operation. -/
theorem visitsMade_snoc (h : History) (e : RunStore × Event Op Op.Res) :
    visitsMade (h ++ [e]) = visitsMade h + if e.2.1.isVisit then 1 else 0 := by
  rw [visitsMade, visitsMade, List.countP_append, List.countP_singleton]

/-- The passes with one more operation. -/
theorem passes_snoc (cfg : GraphConfig) (h : History) (e : RunStore × Event Op Op.Res) :
    passes cfg (h ++ [e]) = passes cfg h + if e.2.1.isPass cfg then 1 else 0 := by
  rw [passes, passes, List.countP_append, List.countP_singleton]

/-- A pass is a visit. -/
theorem Op.isPass_of_not_visit (cfg : GraphConfig) {i : Op} (h : i.isVisit = false) :
    i.isPass cfg = false := by
  cases i <;> first | rfl | exact nomatch h

/-- What was asked stays asked. -/
theorem Invoked.snoc {h : History} {n : String} {a : Nat} (hi : Invoked h n a)
    (e : RunStore × Event Op Op.Res) : Invoked (h ++ [e]) n a := by
  obtain ⟨x, hx, hat⟩ := hi
  exact ⟨x, List.mem_append.mpr (Or.inl hx), hat⟩

/-- The closure that was just asked. -/
theorem invoked_now {i : Op} {n : String} {a : Nat} (hi : i.askedAt = some (n, a)) (h : History)
    (st : RunStore) (r : i.Res) : Invoked (h ++ [(st, ⟨i, r⟩)]) n a :=
  ⟨_, List.mem_append.mpr (Or.inr (List.mem_singleton.mpr rfl)), hi⟩

theorem askRequest_node {run : RunRef} {pt : Point} {kind : NodeKind} {req : ApprovalRequest}
    (h : askRequest run pt kind = some req) : req.nodeId = pt.cursor := by
  cases kind <;> first | (cases h; rfl) | exact nomatch h

/-- The operations that process an approval. -/
def Op.decides : Op → Bool
  | .approval _ _ | .recordNodeVisit _ _ _ => true
  | _ => false

section Questions

variable {run : RunRef} {cfg : GraphConfig}

/-- An operation that decides nothing leaves nothing pending. -/
theorem not_pending {i : Op} (hi : i.decides = false) (st : RunStore) (r : i.Res) :
    ¬ Pending run cfg (st, ⟨i, r⟩) := by
  intro h
  rcases h with ⟨n, a, b, row, t, req, c, next, heq, -⟩ | ⟨n, a, row, t, v, node, c, heq, -⟩
  · have hop : i = .approval a req := congrArg Sigma.fst heq
    rw [hop] at hi
    exact nomatch hi
  · have hop : i = .recordNodeVisit n a v := congrArg Sigma.fst heq
    rw [hop] at hi
    exact nomatch hi

/-- A row that is recorded at an effect node decides nothing. -/
theorem not_pending_effect {id : String} {node : Node} (hn : cfg.graph.node id = some node)
    (hk : node.kind.isEffect = true) (st : RunStore) (a : Nat) (v : Json)
    (r : Except CheckpointError NodeVisitOutcome) :
    ¬ Pending run cfg (st, ⟨.recordNodeVisit id a v, r⟩) := by
  intro h
  rcases h with ⟨n, a, b, row, t, req, c, next, heq, -⟩ |
    ⟨n, a, row, t, v, node', c, heq, hn', hk', -⟩
  · exact nomatch congrArg Sigma.fst heq
  · cases heq
    rw [hn] at hn'
    cases hn'
    cases hkind : node.kind <;> rw [hkind] at hk hk' <;>
      simp_all [NodeKind.isEffect, NodeKind.isApproval]

/-- So the history is quiet again. -/
theorem quiet_snoc {h : History} {e : RunStore × Event Op Op.Res} (he : ¬ Pending run cfg e) :
    Quiet run cfg (h ++ [e]) := by
  intro x hx
  rw [List.getLast?_concat] at hx
  cases hx
  exact he

/-- Nothing is demanded of an operation in a quiet history. -/
theorem Quiet.follows {h : History} (hq : Quiet run cfg h) (ev : Event Op Op.Res) :
    Follows run cfg h ev where
  replay := by
    intro e n a b row t hlast hask
    exact absurd (Or.inl ⟨n, a, b, row, t, hask⟩) (hq e hlast)
  advance := by
    intro e n a row t hlast hover
    exact absurd (Or.inr ⟨n, a, row, t, hover⟩) (hq e hlast)

end Questions

/-! ## The store operations -/

/-- Operations that leave the store alone. -/
def Op.silent : Op → Bool
  | .save _ | .recordNodeVisit _ _ _ | .checkpointFrontier _ | .saveSlot _ _ _ => false
  | _ => true

section Exec

variable {run : RunRef} {C : Closures} {i : Op} {s s' : World} {r : i.Res}

/-- Each operation is noted in the history. -/
theorem exec_history (h : exec run C i s r s') :
    s'.2.history = s.2.history ++ [(s.1, ⟨i, r⟩)] := by
  rw [h.2]
  cases i <;> rfl

theorem exec_silent (h : exec run C i s r s') (hi : i.silent = true) : s'.1 = s.1 := by
  rw [h.2]
  cases i <;> first | rfl | exact nomatch hi

end Exec

/-- A record of a run that the store takes. -/
theorem save_ok {st : RunStore} {rec : GraphRunRecord}
    (h : checkSegment "run_id" rec.runId = .ok ()) :
    st.save rec = .ok { st with record := some rec } := by
  rw [RunStore.save, h]
  rfl

/-- And of one that it does not. -/
theorem save_error {st : RunStore} {rec : GraphRunRecord} {c : CheckpointError}
    (h : checkSegment "run_id" rec.runId = .error c) : st.save rec = .error c := by
  rw [RunStore.save, h]
  rfl

/-- A save goes through or the run id is malformed. -/
theorem save_cases (st : RunStore) (rec : GraphRunRecord) :
    (checkSegment "run_id" rec.runId = .ok () ∧
      st.save rec = .ok { st with record := some rec }) ∨
    ∃ c, checkSegment "run_id" rec.runId ≠ .ok () ∧ st.save rec = .error c := by
  cases hc : checkSegment "run_id" rec.runId with
  | ok u => exact Or.inl ⟨rfl, save_ok hc⟩
  | error c => exact Or.inr ⟨c, by simp, save_error hc⟩

/-- A visit is recorded, replayed, or a key segment is malformed. -/
theorem recordNodeVisit_cases (st : RunStore) (runId n : String) (a : Nat) (v : Json) :
    (checkSegment "run_id" runId = .ok () ∧ checkSegment "node_id" n = .ok () ∧
      ((st.ledger n a = none ∧ st.recordNodeVisit runId n a v =
          .ok (.recorded, { st with ledger := Ledger.add st.ledger n a v })) ∨
        ∃ row, st.ledger n a = some row ∧
          st.recordNodeVisit runId n a v = .ok (.replayed row, st))) ∨
    ∃ c, (checkSegment "run_id" runId ≠ .ok () ∨ checkSegment "node_id" n ≠ .ok ()) ∧
      st.recordNodeVisit runId n a v = .error c := by
  cases h1 : checkSegment "run_id" runId with
  | error c =>
      refine Or.inr ⟨c, Or.inl (by simp), ?_⟩
      rw [RunStore.recordNodeVisit, h1]
      rfl
  | ok u =>
      cases h2 : checkSegment "node_id" n with
      | error c =>
          refine Or.inr ⟨c, Or.inr (by simp), ?_⟩
          rw [RunStore.recordNodeVisit, h1, h2]
          rfl
      | ok u' =>
          refine Or.inl ⟨rfl, rfl, ?_⟩
          cases hrow : st.ledger n a with
          | none =>
              refine Or.inl ⟨rfl, ?_⟩
              simp only [RunStore.recordNodeVisit, h1, h2, hrow]
              rfl
          | some row =>
              refine Or.inr ⟨row, rfl, ?_⟩
              simp only [RunStore.recordNodeVisit, h1, h2, hrow]
              rfl

/-- A new row only adds. -/
theorem Ledger.le_add {L : Ledger} {n : String} {a : Nat} (v : Json) (h : L n a = none) :
    Ledger.le L (L.add n a v) := by
  intro n' a' raw hraw
  unfold Ledger.add
  by_cases hk : n' = n ∧ a' = a
  · rw [hk.1, hk.2, h] at hraw
    exact nomatch hraw
  · rw [if_neg hk]
    exact hraw

/-- The row is there. -/
theorem Ledger.add_self (L : Ledger) (n : String) (a : Nat) (v : Json) :
    L.add n a v n a = some v := by
  unfold Ledger.add
  rw [if_pos ⟨rfl, rfl⟩]

/-- Those of other nodes are unchanged. -/
theorem Ledger.add_ne {L : Ledger} {n n' : String} (h : n' ≠ n) (a a' : Nat) (v : Json) :
    L.add n a v n' a' = L n' a' := by
  unfold Ledger.add
  rw [if_neg fun hc => h hc.1]

/-! ## A larger ledger -/

/-- A slot stays on its path as rows are added. -/
theorem SlotOk.mono {cfg : GraphConfig} {O O' : Oracle} (hO : O.le O') {P : Point} {J : String}
    {x : String × String} {bc : BranchCursor} (h : SlotOk cfg O P J x bc) :
    SlotOk cfg O' P J x bc := by
  obtain ⟨m, hp⟩ := h.path
  exact ⟨h.label, ⟨m, hp.mono fun _ _ => BranchStep.mono hO⟩, h.parked, h.full⟩

/-- So does a frontier. -/
theorem FrontierOk.mono {cfg : GraphConfig} {O O' : Oracle} (hO : O.le O') {P : Point}
    {frontier : List BranchCursor} (h : FrontierOk cfg O P frontier) :
    FrontierOk cfg O' P frontier := by
  obtain ⟨J, hJ, hslots⟩ := h.slots
  exact ⟨h.node, ⟨J, hJ, hslots.imp fun _ _ => SlotOk.mono hO⟩, h.cap⟩

/-- A region over the cap stays over it. -/
theorem Over.mono {cfg : GraphConfig} {L L' : Ledger} (hL : Ledger.le L L') {P : Point}
    {J : String} (h : Over cfg L P J) : Over cfg L' P J := by
  obtain ⟨pts, hpts, hrest⟩ := h
  refine ⟨pts, hpts.imp ?_, hrest⟩
  intro x b hb
  obtain ⟨m, hp⟩ := hb
  exact ⟨m, hp.mono fun _ _ => BranchStep.mono hL.oracle⟩

/-- And a run without visits left stays so. -/
theorem Exhausted.mono {cfg : GraphConfig} {On On' : Point → Prop} {L L' : Ledger} {pt : Point}
    (h : Exhausted cfg On L pt) (hL : Ledger.le L L') (hOn : ∀ p, On p → On' p) :
    Exhausted cfg On' L' pt := by
  rcases h with ⟨X, k, hX, hp, hk⟩ | ⟨n, J, hn, hk, hJ, hov⟩
  · exact Or.inl ⟨X, k, hOn X hX, hp.mono fun _ _ => TrunkStep.mono hL.oracle, hk⟩
  · exact Or.inr ⟨n, J, hn, hk, hJ, hov.mono hL⟩

section Tracks

variable {run : RunRef} {cfg : GraphConfig} {C : Closures} {T : Track run cfg C}

/-- A stored record stays what it is. -/
theorem RecordOk.mono {L L' : Ledger} (hL : Ledger.le L L') {rec : GraphRunRecord}
    (h : RecordOk T L rec) : RecordOk T L' rec := by
  refine ⟨h.1, h.2.1, ?_⟩
  have h2 := h.2.2
  cases hst : rec.status with
  | succeeded =>
      rw [hst] at h2
      obtain ⟨F, hF, hrest⟩ := h2
      exact ⟨F, T.mono hL hF, hrest⟩
  | failed =>
      rw [hst] at h2
      exact ⟨T.mono hL h2.1, h2.2.mono hL fun _ => T.mono hL⟩
  | running =>
      rw [hst] at h2
      exact ⟨T.mono hL h2.1, fun fr hfr => ⟨hst ▸ (h2.2 fr hfr).1, (h2.2 fr hfr).2.mono hL.oracle⟩⟩
  | awaitingInput =>
      rw [hst] at h2
      exact ⟨T.mono hL h2.1, fun fr hfr => ⟨hst ▸ (h2.2 fr hfr).1, (h2.2 fr hfr).2.mono hL.oracle⟩⟩

/-- What a live record says. -/
theorem RecordOk.live {L : Ledger} {rec : GraphRunRecord} (h : RecordOk T L rec)
    (hlive : rec.status.terminal = false) :
    T.On L rec.point ∧ ∀ frontier, rec.frontier = some frontier →
      rec.status = .running ∧ FrontierOk cfg (rowAt L) rec.point frontier := by
  have h2 := h.2.2
  cases hst : rec.status with
  | succeeded => rw [hst] at hlive; exact nomatch hlive
  | failed => rw [hst] at hlive; exact nomatch hlive
  | running => rw [hst] at h2; exact h2
  | awaitingInput => rw [hst] at h2; exact h2

theorem Track.on_steps {L : Ledger} (hg : T.Good L) {X pt : Point} {k : Nat} (hX : T.On L X)
    (h : Steps (TrunkStep cfg (rowAt L)) X k pt) : T.On L pt :=
  h.invariant (fun _ _ hon hs => T.step hg hon hs) hX

/-- A trunk checkpoint is right when its position is on the track. -/
theorem recordOk_trunk {L : Ledger} {pt : Point} {status : RunStatus}
    (hrun : checkSegment "run_id" run.runId = .ok ()) (hon : T.On L pt)
    (hst : status = .running ∨ status = .awaitingInput) :
    RecordOk T L (buildRecord run.runId cfg pt status) := by
  refine ⟨⟨rfl, rfl⟩, hrun, ?_⟩
  rcases hst with h | h
  · subst h
    exact ⟨hon, fun fr hfr => (nomatch hfr)⟩
  · subst h
    exact ⟨hon, fun fr hfr => (nomatch hfr)⟩

theorem StoreOk.save {st : RunStore} (h : StoreOk T st) {rec : GraphRunRecord}
    (hrec : RecordOk T st.ledger rec) : StoreOk T { st with record := some rec } :=
  ⟨h.good, fun _ r hr => by cases hr; exact hrec, fun _ => rfl⟩

/-- A row the closures caused keeps the store invariant. -/
theorem StoreOk.add {st : RunStore} (h : StoreOk T st) {pt : Point} {n : Node} {v : Json}
    (hr : Reached cfg T.On st.ledger pt) (hn : cfg.graph.node pt.cursor = some n)
    (hv : Answered run C cfg pt n.kind v) (hrun : checkSegment "run_id" run.runId = .ok ())
    (hnode : checkSegment "node_id" pt.cursor = .ok ())
    (hnone : st.ledger pt.cursor pt.attempt = none) :
    StoreOk T { st with ledger := Ledger.add st.ledger pt.cursor pt.attempt v } :=
  ⟨T.write h.good hr hn hv hrun hnode hnone,
    fun ht rec hrec => (h.record ht rec hrec).mono (Ledger.le_add v hnone), h.present⟩

end Tracks

/-! ## What the other calls may do -/

namespace Setup

variable (S : Setup)

/-- The rely condition on a call's world: its memory is its own. -/
def worldRely (s s' : World) : Prop := S.rely s.1 s'.1 ∧ s'.2 = s.2

variable {S}

theorem rely_refl (a : RunStore) : S.rely a a := ⟨Ledger.le.refl _, fun h => h, fun _ => rfl⟩

theorem rely_trans {a b c : RunStore} (h1 : S.rely a b) (h2 : S.rely b c) : S.rely a c :=
  ⟨h1.1.trans h2.1, fun h => h2.2.1 (h1.2.1 h), fun hs => (h2.2.2 hs).trans (h1.2.2 hs)⟩

theorem worldRely_refl (s : World) : S.worldRely s s := ⟨rely_refl _, rfl⟩

/-- A call that came to a position has come there also later. -/
theorem Came.mono {X : S.Origin} {pt : Point} {k : Nat} {s s' : World} (h : S.Came X k pt s)
    (hL : Ledger.le s.1.ledger s'.1.ledger) (hst : StoreOk S.T s'.1)
    (hl : loadedRecord s'.2.history = loadedRecord s.2.history) : S.Came X k pt s' := by
  exact ⟨hst, hl.trans h.loads, S.T.mono hL h.origin,
    h.path.mono fun _ _ => TrunkStep.mono hL.oracle⟩

/-- Whatever the others do. -/
theorem Came.rely {X : S.Origin} {pt : Point} {k : Nat} {s s' : World} (h : S.Came X k pt s)
    (hr : S.worldRely s s') : S.Came X k pt s' :=
  h.mono hr.1.1 (hr.1.2.1 h.store) (by rw [hr.2])

theorem Came.on {X : S.Origin} {pt : Point} {k : Nat} {s : World} (h : S.Came X k pt s) :
    S.T.On s.1.ledger pt :=
  S.T.on_steps h.store.good h.origin h.path

/-- One more trunk step. -/
theorem Came.step {X : S.Origin} {pt pt' : Point} {k : Nat} {s : World} (h : S.Came X k pt s)
    (hs : TrunkStep S.cfg (rowAt s.1.ledger) pt pt') : S.Came X (k + 1) pt' s :=
  ⟨h.store, h.loads, h.origin, h.path.tail hs⟩

theorem Came.loaded {X : S.Origin} {pt : Point} {k : Nat} {s : World} (h : S.Came X k pt s) :
    ∃ r, loadedRecord s.2.history = some r :=
  ⟨_, h.loads⟩

/-- The knowledge of the trunk at `pt`: `d` of its visits are executed but not
    counted yet, and the record is `m` join passes behind. -/
structure Here (S : Setup) (X : S.Origin) (k : Nat) (pt : Point) (d m : Nat) (s : World) : Prop where
  came : S.Came X k pt s
  booked : visitsMade s.2.history + baseVisits s.2.history
    = pt.visits.total + d + passes S.cfg s.2.history
  quiet : Quiet S.run S.cfg s.2.history
  kept : S.solo → S.Kept m pt s.1

/-- And it is where it was. -/
theorem Here.rely {X : S.Origin} {pt : Point} {k d m : Nat} {s s' : World} (h : S.Here X k pt d m s)
    (hr : S.worldRely s s') : S.Here X k pt d m s' := by
  refine ⟨h.came.rely hr, by rw [hr.2]; exact h.booked, by rw [hr.2]; exact h.quiet, ?_⟩
  intro hs
  rw [hr.1.2.2 hs]
  exact h.kept hs

/-! ## Told -/

/-- An operation that leaves the store alone, in a quiet history. -/
theorem told_silent {i : Op} {s s' : World} {r : i.Res} (he : S.step i s r s')
    (hi : i.silent = true) (hst : StoreOk S.T s.1) (hq : Quiet S.run S.cfg s.2.history)
    (hf : S.Fact s i) : S.Told s ⟨i, r⟩ s' := by
  have hstore := exec_silent (S.sub _ _ _ _ he) hi
  refine ⟨?_, ?_, exec_history (S.sub _ _ _ _ he), hf, hq.follows _⟩
  · rw [hstore]; exact Ledger.le.refl _
  · rw [hstore]; exact hst

/-! ## Recording a visit -/

/-- What a recorded visit does: the row is there afterwards, whoever wrote it. -/
theorem record_told {pt : Point} {s s' : World} {n : Node} {v : Json}
    (hst : StoreOk S.T s.1) (hr : Reached S.cfg S.T.On s.1.ledger pt)
    (hn : S.cfg.graph.node pt.cursor = some n) (hv : Answered S.run S.C S.cfg pt n.kind v)
    (hinv : Invoked s.2.history pt.cursor pt.attempt)
    {r : Except CheckpointError NodeVisitOutcome}
    (he : S.step (.recordNodeVisit pt.cursor pt.attempt v) s r s')
    (hfol : Follows S.run S.cfg s.2.history ⟨.recordNodeVisit pt.cursor pt.attempt v, r⟩) :
    S.Told s ⟨.recordNodeVisit pt.cursor pt.attempt v, r⟩ s' ∧ s'.1.record = s.1.record ∧
      (∀ pt' : Point, pt'.cursor ≠ pt.cursor → rowAt s'.1.ledger pt' = rowAt s.1.ledger pt') ∧
      ((checkSegment "run_id" S.run.runId = .ok () ∧ checkSegment "node_id" pt.cursor = .ok () ∧
        ((r = .ok .recorded ∧ rowAt s.1.ledger pt = none ∧ rowAt s'.1.ledger pt = some v) ∨
          ∃ row, r = .ok (.replayed row) ∧ rowAt s.1.ledger pt = some row ∧
            rowAt s'.1.ledger pt = some row)) ∨
      ∃ c, r = .error c ∧ (checkSegment "run_id" S.run.runId ≠ .ok () ∨
        checkSegment "node_id" pt.cursor ≠ .ok ())) := by
  have hex := S.sub _ _ _ _ he
  have hans : r = (s.1.recordNodeVisit S.run.runId pt.cursor pt.attempt v).map (·.1) := hex.1
  have hs' : s'.1 = storeAfter s.1
      ((s.1.recordNodeVisit S.run.runId pt.cursor pt.attempt v).map (·.2)) := by
    rw [hex.2]; rfl
  have hhist := exec_history hex
  rcases recordNodeVisit_cases s.1 S.run.runId pt.cursor pt.attempt v with
    ⟨h1, h2, ⟨hnone, heq⟩ | ⟨row, hrow, heq⟩⟩ | ⟨c, hbad, heq⟩
  · rw [heq] at hans hs'
    have hst' : s'.1 = { s.1 with ledger := Ledger.add s.1.ledger pt.cursor pt.attempt v } := hs'
    refine ⟨⟨?_, ?_, hhist, hinv, hfol⟩, by rw [hst'], ?_,
      Or.inl ⟨h1, h2, Or.inl ⟨hans, hnone, ?_⟩⟩⟩
    · rw [hst']; exact Ledger.le_add v hnone
    · rw [hst']; exact hst.add hr hn hv h1 h2 hnone
    · intro pt' hne
      rw [hst']
      exact Ledger.add_ne hne _ _ _
    · rw [hst']; exact Ledger.add_self ..
  · rw [heq] at hans hs'
    have hst' : s'.1 = s.1 := hs'
    refine ⟨⟨?_, ?_, hhist, hinv, hfol⟩, by rw [hst'], fun _ _ => by rw [hst'],
      Or.inl ⟨h1, h2, Or.inr ⟨row, hans, hrow, by rw [hst']; exact hrow⟩⟩⟩
    · rw [hst']; exact Ledger.le.refl _
    · rw [hst']; exact hst
  · rw [heq] at hans hs'
    have hst' : s'.1 = s.1 := hs'
    refine ⟨⟨?_, ?_, hhist, hinv, hfol⟩, by rw [hst'], fun _ _ => by rw [hst'],
      Or.inr ⟨c, hans, hbad⟩⟩
    · rw [hst']; exact Ledger.le.refl _
    · rw [hst']; exact hst

/-! ## Saving a record -/

/-- The checkpoint of a trunk position. -/
def checkpoint (S : Setup) (pt : Point) : GraphRunRecord :=
  buildRecord S.run.runId S.cfg pt .running

/-- The world after a record was saved. -/
def savedWorld (s : World) (rec : GraphRunRecord) : World :=
  ({ s.1 with record := some rec },
    { s.2 with history := s.2.history ++ [(s.1, ⟨.save rec, .ok ()⟩)] })

/-- A checkpointed position. -/
theorem Came.saved {X : S.Origin} {pt : Point} {k : Nat} {s : World} (h : S.Came X k pt s)
    (hbook : visitsMade s.2.history + baseVisits s.2.history
      = pt.visits.total + passes S.cfg s.2.history)
    (hseg : checkSegment "run_id" S.run.runId = .ok ()) :
    S.Here X k pt 0 0 (savedWorld s (S.checkpoint pt)) := by
  obtain ⟨l, hl⟩ := h.loaded
  refine ⟨h.mono (Ledger.le.refl _) (h.store.save (recordOk_trunk hseg h.on (Or.inl rfl))) ?_, ?_,
    quiet_snoc (not_pending rfl _ _), ?_⟩
  · exact (loadedRecord_snoc hl _).trans hl.symm
  · unfold savedWorld
    dsimp only
    rw [visitsMade_snoc, passes_snoc, baseVisits_snoc hl]
    simp only [Op.isVisit, Op.isPass, Nat.add_zero]
    exact hbook
  · intro _
    exact ⟨_, rfl, rfl, rfl, rfl, .refl⟩

/-- What must hold when a record is saved. -/
structure SavePre (S : Setup) (rec : GraphRunRecord) (s : World) : Prop where
  run : rec.runId = S.run.runId
  store : StoreOk S.T s.1
  record : checkSegment "run_id" S.run.runId = .ok () → RecordOk S.T s.1.ledger rec
  follows : ∀ r, (checkSegment "run_id" S.run.runId = .ok () → r = .ok ()) →
    Follows S.run S.cfg s.2.history ⟨.save rec, r⟩

/-- Nothing more is asked of a save in a quiet history. -/
theorem SavePre.ofQuiet {rec : GraphRunRecord} {s : World} (run : rec.runId = S.run.runId)
    (store : StoreOk S.T s.1)
    (record : checkSegment "run_id" S.run.runId = .ok () → RecordOk S.T s.1.ledger rec)
    (quiet : Quiet S.run S.cfg s.2.history) : S.SavePre rec s :=
  ⟨run, store, record, fun _ _ => quiet.follows _⟩

/-- The two outcomes of a save. -/
theorem save_outcome {rec : GraphRunRecord} {s s' : World} {r : Except CheckpointError Unit}
    (hrun : rec.runId = S.run.runId) (he : S.step (.save rec) s r s') :
    (checkSegment "run_id" S.run.runId = .ok () ∧ r = .ok () ∧ s' = savedWorld s rec) ∨
    ∃ c, checkSegment "run_id" S.run.runId ≠ .ok () ∧ r = .error c ∧
      s' = (s.1, { s.2 with history := s.2.history ++ [(s.1, ⟨.save rec, .error c⟩)] }) := by
  have hex := S.sub _ _ _ _ he
  have hr : r = (s.1.save rec).map fun _ => () := hex.1
  have hs' : s' = note s.1 (storeAfter s.1 (s.1.save rec), s.2) ⟨.save rec, r⟩ := hex.2
  rcases save_cases s.1 rec with ⟨hseg, heq⟩ | ⟨c, hseg, heq⟩
  · rw [heq] at hr hs'
    refine Or.inl ⟨hrun ▸ hseg, hr, ?_⟩
    rw [hs', hr]
    rfl
  · rw [heq] at hr hs'
    refine Or.inr ⟨c, hrun ▸ hseg, hr, ?_⟩
    rw [hs', hr]
    rfl

/-- `store.save(..).await?`. -/
theorem saveRecord_sat {α : Type} {rec : GraphRunRecord} {k : Unit → Drive α}
    {Q : World → Except GraphExecError α → Prop} {s : World}
    (hpre : ∀ s₁, S.worldRely s s₁ → S.SavePre rec s₁)
    (hok : ∀ s₁, S.worldRely s s₁ → checkSegment "run_id" S.run.runId = .ok () →
      (k ()).Sat S.worldRely S.step S.Told S.Settles Q (savedWorld s₁ rec))
    (herr : ∀ s' c, checkSegment "run_id" S.run.runId ≠ .ok () →
      Quiet S.run S.cfg s'.2.history → Q s' (.error (.checkpoint c))) :
    (saveRecord rec >>= k).Sat S.worldRely S.step S.Told S.Settles Q s := by
  intro s₁ hr₁ r s₂ he
  have hp := hpre s₁ hr₁
  have hhist := exec_history (S.sub _ _ _ _ he)
  rcases save_outcome hp.run he with ⟨hseg, hr, hs₂⟩ | ⟨c, hseg, hr, hs₂⟩
  · subst hr
    refine ⟨⟨?_, ?_, hhist, trivial, hp.follows _ fun _ => rfl⟩, ?_⟩
    · rw [hs₂]; exact Ledger.le.refl _
    · rw [hs₂]; exact hp.store.save (hp.record hseg)
    · rw [hs₂]
      exact hok s₁ hr₁ hseg
  · subst hr
    refine ⟨⟨?_, ?_, hhist, trivial, hp.follows _ fun hc => absurd hc hseg⟩, ?_⟩
    · rw [hs₂]; exact Ledger.le.refl _
    · rw [hs₂]; exact hp.store
    · intro s₃ hr₃
      refine herr s₃ c hseg ?_
      rw [hr₃.2, hs₂]
      exact quiet_snoc (not_pending rfl _ _)

end Setup

end Greentic
