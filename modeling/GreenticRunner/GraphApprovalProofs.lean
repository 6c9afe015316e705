import GreenticRunner.GraphJoinProofs

/-! # Approval decisions

    The approval arm asks its closure BEFORE it looks at the ledger, so a decision
    that is already recorded is honoured only if the closure answers, once more, a
    decision with an outgoing edge.

    * `approval_agreement` — every call that meets a recorded decision advances
      along its edge, in every reachable system;
    * `gate_parks_again` — without the condition a call parks in spite of it. -/

namespace Greentic

open FinMaps CountedPath Resumption

/-- An approval node that is asked about a visit with a ledger row answers a
    decision that has an outgoing edge. -/
def Agrees (cfg : GraphConfig) (s : World) : (i : Op) → i.Res → Prop
  | .approval a req, r => ∀ n, cfg.graph.node req.nodeId = some n → n.kind.isApproval = true →
      (s.1.ledger req.nodeId a).isSome →
      ∃ b t, r = .ok (.decided b) ∧ cfg.graph.branchTarget req.nodeId b = some t
  | _, _ => True

/-- The operations in which every approval agrees. -/
def agreeing (run : RunRef) (cfg : GraphConfig) (C : Closures) (i : Op) (s : World) (r : i.Res)
    (s' : World) : Prop :=
  exec run C i s r s' ∧ Agrees cfg s i r

/-! ## Recorded decisions -/

/-- The rows of approval nodes are decisions with an edge, under keys the store
    accepts. -/
def DecisionsOk (run : RunRef) (cfg : GraphConfig) (L : Ledger) : Prop :=
  ∀ id a row n, L id a = some row → cfg.graph.node id = some n → n.kind.isApproval = true →
    (checkSegment "run_id" run.runId = .ok () ∧ checkSegment "node_id" id = .ok ()) ∧
    ∃ b t, storedDecision row = some b ∧ cfg.graph.branchTarget id b = some t

section Decisions

variable {run : RunRef} {cfg : GraphConfig} {C : Closures}

theorem DecisionsOk.of_le {L L' : Ledger} (h : DecisionsOk run cfg L') (hL : Ledger.le L L') :
    DecisionsOk run cfg L :=
  fun id a row n hrow => h id a row n (hL id a row hrow)

/-- What an approval answers is a decision with an edge. -/
theorem Answered.decided {pt : Point} {kind : NodeKind} {v : Json} (hk : kind.isApproval = true)
    (h : Answered run C cfg pt kind v) :
    ∃ b t, storedDecision v = some b ∧ cfg.graph.branchTarget pt.cursor b = some t := by
  cases h with
  | effect i r hi hr hv =>
      obtain ⟨_, _, _, _, _, hkind⟩ := NodeKind.approval_of hk
      rw [hkind] at hi
      exact nomatch hi
  | decision req b t hreq hb ht hv =>
      rw [hv]
      exact ⟨b, t, storedDecision_decisionValue b, ht⟩

theorem DecisionsOk.add {L : Ledger} (h : DecisionsOk run cfg L) {pt : Point} {n : Node} {v : Json}
    (hn : cfg.graph.node pt.cursor = some n) (hv : Answered run C cfg pt n.kind v)
    (hrun : checkSegment "run_id" run.runId = .ok ())
    (hnode : checkSegment "node_id" pt.cursor = .ok ()) :
    DecisionsOk run cfg (L.add pt.cursor pt.attempt v) := by
  intro id a row n' hrow hn' hk
  unfold Ledger.add at hrow
  by_cases hkey : id = pt.cursor ∧ a = pt.attempt
  · rw [if_pos hkey] at hrow
    cases hrow
    obtain ⟨rfl, -⟩ := hkey
    rw [hn] at hn'
    cases hn'
    exact ⟨⟨hrun, hnode⟩, hv.decided hk⟩
  · rw [if_neg hkey] at hrow
    exact h id a row n' hrow hn' hk

end Decisions

/-- Every recorded decision has an edge. -/
def decisionTrack (run : RunRef) (cfg : GraphConfig) (C : Closures) : Track run cfg C where
  Tracked := True
  Present := False
  Good := DecisionsOk run cfg
  On := fun _ _ => True
  Start := fun _ => True
  mono := fun _ _ => trivial
  start := fun _ => trivial
  step := fun _ _ _ => trivial
  write := fun hg _ hn hv hrun hnode _ => hg.add hn hv hrun hnode

/-- Any number of calls over one store, whose approvals agree. -/
def decisionSetup (run : RunRef) {cfg : GraphConfig} (hcfg : cfg.Accepted) (C : Closures) :
    Setup where
  run := run
  cfg := cfg
  accepted := hcfg
  C := C
  T := decisionTrack run cfg C
  solo := False
  tight := False
  step := agreeing run cfg C
  sub := fun _ _ _ _ h => h.1
  tight_step := fun h => h.elim

/-! ## The history of a call -/

/-- Recorded decisions in a history: an approval that met one replays it, and a
    replayed one is followed. -/
structure DecisionsHeard (run : RunRef) (cfg : GraphConfig) (h : History) : Prop where
  asked : ∀ e ∈ h, ∀ a req n row, e.2.1 = .approval a req → cfg.graph.node req.nodeId = some n →
    n.kind.isApproval = true → e.1.ledger req.nodeId a = some row →
    ∃ b t, AskedAgain run cfg e req.nodeId a b row t
  replayed : ∀ e ∈ h, ∀ id a v n row, e.2 = ⟨.recordNodeVisit id a v, .ok (.replayed row)⟩ →
    cfg.graph.node id = some n → n.kind.isApproval = true → ∃ t, Overruled cfg e id a row t
  next : ∀ (i : Nat) e e', h[i]? = some e → h[i + 1]? = some e' →
    (∀ id a b row t, AskedAgain run cfg e id a b row t →
      e'.2 = ⟨.recordNodeVisit id a (decisionValue b), .ok (.replayed row)⟩) ∧
    ∀ id a row t, Overruled cfg e id a row t →
      ∃ rec, e'.2 = ⟨.save rec, .ok ()⟩ ∧ rec.status = .running ∧ rec.frontier = none ∧
        rec.cursor = t ∧ rec.visits.count id = a

section Histories

variable {run : RunRef} {cfg : GraphConfig} {C : Closures}

theorem decisionsHeard_nil : DecisionsHeard run cfg [] where
  asked := fun _ he => (nomatch he)
  replayed := fun _ he => (nomatch he)
  next := fun _ _ _ hi => (nomatch hi)

/-- An approval that agrees has been asked again when its row is recorded. -/
theorem askedAgain_of {s s' : World} {a : Nat} {req : ApprovalRequest} {n : Node} {row : Json}
    {r : Except GraphExecError ApprovalOutcome} (hd : DecisionsOk run cfg s.1.ledger)
    (hs : agreeing run cfg C (.approval a req) s r s')
    (hn : cfg.graph.node req.nodeId = some n) (hk : n.kind.isApproval = true)
    (hrow : s.1.ledger req.nodeId a = some row) :
    ∃ b t, AskedAgain run cfg (s.1, ⟨.approval a req, r⟩) req.nodeId a b row t := by
  obtain ⟨b, next, hr, ht⟩ := hs.2 n hn hk (by rw [hrow]; rfl)
  obtain ⟨⟨hrun, hnode⟩, c, t, hc, ht'⟩ := hd _ _ _ _ hrow hn hk
  exact ⟨b, t, req, c, next, by rw [hr], rfl, ht, hrow, hc, ht', hrun, hnode⟩

/-- A replayed row of an approval node overrules the answer. -/
theorem overruled_of {s s' : World} {id : String} {a : Nat} {v row : Json} {n : Node}
    (hd : DecisionsOk run cfg s.1.ledger)
    (hs : exec run C (.recordNodeVisit id a v) s (.ok (.replayed row)) s')
    (hn : cfg.graph.node id = some n) (hk : n.kind.isApproval = true) :
    ∃ t, Overruled cfg (s.1, ⟨.recordNodeVisit id a v, .ok (.replayed row)⟩) id a row t := by
  have hans : Except.ok (.replayed row) = (s.1.recordNodeVisit run.runId id a v).map (·.1) := hs.1
  have hrow : s.1.ledger id a = some row := by
    rcases recordNodeVisit_cases s.1 run.runId id a v with
      ⟨-, -, ⟨-, heq⟩ | ⟨row', hrow', heq⟩⟩ | ⟨c, -, heq⟩
    · rw [heq] at hans; exact nomatch hans
    · rw [heq] at hans; cases hans; exact hrow'
    · rw [heq] at hans; exact nomatch hans
  obtain ⟨-, c, t, hc, ht⟩ := hd _ _ _ _ hrow hn hk
  exact ⟨t, v, n, c, rfl, hn, hk, hc, ht⟩

/-- One more operation. -/
theorem DecisionsHeard.snoc {s s' : World} {ev : Event Op Op.Res}
    (h : DecisionsHeard run cfg s.2.history) (hd : DecisionsOk run cfg s.1.ledger)
    (hs : agreeing run cfg C ev.1 s ev.2 s') (hfol : Follows run cfg s.2.history ev) :
    DecisionsHeard run cfg (s.2.history ++ [(s.1, ev)]) where
  asked := by
    intro e he a req n row hop hn hk hrow
    rcases List.mem_append.mp he with hold | hnew
    · exact h.asked e hold a req n row hop hn hk hrow
    · cases List.mem_singleton.mp hnew
      obtain ⟨i, r⟩ := ev
      cases hop
      exact askedAgain_of hd hs hn hk hrow
  replayed := by
    intro e he id a v n row hop hn hk
    rcases List.mem_append.mp he with hold | hnew
    · exact h.replayed e hold id a v n row hop hn hk
    · cases List.mem_singleton.mp hnew
      cases hop
      exact overruled_of hd hs.1 hn hk
  next := by
    intro i e e' hi hi'
    rcases Nat.lt_or_ge (i + 1) s.2.history.length with hlt | hge
    · rw [List.getElem?_append_left hlt] at hi'
      rw [List.getElem?_append_left (Nat.lt_of_succ_lt hlt)] at hi
      exact h.next i e e' hi hi'
    · -- `e'` is the new operation and `e` the last one before it
      have hlen := (List.getElem?_eq_some_iff.mp hi').1
      rw [List.length_append, List.length_singleton] at hlen
      have heq : s.2.history.length = i + 1 := by omega
      rw [List.getElem?_append_left (by omega)] at hi
      rw [← heq, List.getElem?_concat_length] at hi'
      cases hi'
      have hlast : s.2.history.getLast? = some e := by
        rw [List.getLast?_eq_getElem?, heq]
        exact hi
      refine ⟨?_, ?_⟩
      · intro id a b row t hask
        exact hfol.replay e id a b row t hlast hask
      · intro id a row t hover
        exact hfol.advance e id a row t hlast hover

/-- An event of a history is its last one, or another one follows. -/
theorem next_or_last {h : History} {i : Nat} {e : RunStore × Event Op Op.Res}
    (hi : h[i]? = some e) : h.getLast? = some e ∧ h.length = i + 1 ∨ ∃ e', h[i + 1]? = some e' := by
  have hlt := (List.getElem?_eq_some_iff.mp hi).1
  rcases Nat.lt_or_ge (i + 1) h.length with hl | hl
  · exact Or.inr ⟨_, List.getElem?_eq_getElem hl⟩
  · have heq : h.length = i + 1 := by omega
    refine Or.inl ⟨?_, heq⟩
    rw [List.getLast?_eq_getElem?, heq]
    exact hi

end Histories

/-! ## Agreement -/

/-- A call that has settled has no recorded decision left to follow. -/
theorem Setup.CallVerdict.quiet {S : Setup} {s : World} {r : Except GraphExecError GraphRunOutcome}
    (h : S.CallVerdict s r) : Quiet S.run S.cfg s.2.history := by
  rcases h with h | ⟨-, st, rec, hh, -⟩
  · exact h.2
  · rw [hh]
    exact quiet_snoc (h := []) (not_pending rfl _ _)

/-- **A RECORDED DECISION IS FOLLOWED** by every call that processes its attempt, as
    long as approvals that are asked again answer a decision with an edge.  An
    approval that met the row of its attempt goes on to replay it, and a replayed
    row is followed by a running checkpoint at the target of the RECORDED decision
    that counts the attempt; the call does not settle before that. -/
theorem approval_agreement (run : RunRef) (cfg : GraphConfig) (C : Closures)
    (hcfg : cfg.Accepted) (c : System)
    (hr : Pool.Reach (agreeing run cfg C) (Call run fun g _ => g = cfg) ⟨.empty, []⟩ c)
    (j : Nat) (m : CallMemory) (p : Drive GraphRunOutcome)
    (hj : c.threads[j]? = some (some (m, p))) (id : String) (n : Node)
    (hn : cfg.graph.node id = some n) (hk : n.kind.isApproval = true) (a : Nat) (row : Json) :
    (∀ (i : Nat) e req, m.history[i]? = some e → e.2.1 = .approval a req → req.nodeId = id →
      e.1.ledger id a = some row →
      (m.history.length = i + 1 ∧ p.outcome? = none) ∨
      ∃ e' v, m.history[i + 1]? = some e' ∧
        e'.2 = ⟨.recordNodeVisit id a v, .ok (.replayed row)⟩) ∧
    ∀ (i : Nat) e v, m.history[i]? = some e →
      e.2 = ⟨.recordNodeVisit id a v, .ok (.replayed row)⟩ →
      ∃ b t, storedDecision row = some b ∧ cfg.graph.branchTarget id b = some t ∧
        ((m.history.length = i + 1 ∧ p.outcome? = none) ∨
        ∃ e' rec, m.history[i + 1]? = some e' ∧ e'.2 = ⟨.save rec, .ok ()⟩ ∧
          rec.status = .running ∧ rec.frontier = none ∧ rec.cursor = t ∧
          rec.visits.count id = a) := by
  let S := decisionSetup run hcfg C
  have hS : S.Serves fun g _ => g = cfg := ⟨trivial, fun g _ hg => Or.inr ⟨hg, trivial⟩⟩
  have hst : StoreOk S.T RunStore.empty :=
    ⟨fun _ _ _ _ h => (nomatch h), fun _ _ h => (nomatch h), fun h => h.elim⟩
  have hshared : ¬ S.solo := fun h => h
  have hc := (Setup.reach hS hshared (Setup.systemOk_idle hst) hr).1
  have hheard : DecisionsHeard run cfg m.history := by
    refine Setup.reach_history (S := S) (I := fun s => DecisionsHeard run cfg s.2.history) hS
      hshared (fun _ => decisionsHeard_nil) ?_ (fun _ _ _ _ h => h) (Setup.systemOk_idle hst) rfl hr hj
    intro s ev s' hI hs htold
    rw [htold.noted]
    have hgood : DecisionsOk run cfg s'.1.ledger := htold.store.good
    exact hI.snoc (hgood.of_le htold.grows) hs htold.follows
  -- a pending decision is the last thing a call did only while it is still running
  have hlive : ∀ e, m.history.getLast? = some e → Pending run cfg e → p.outcome? = none := by
    intro e hlast hpend
    cases hp : p.outcome? with
    | none => rfl
    | some r => exact absurd hpend ((hc.outcome hj hp).quiet e hlast)
  refine ⟨?_, ?_⟩
  · intro i e req hi hop hreq hrow
    subst hreq
    obtain ⟨b, t, hask⟩ := hheard.asked e (List.mem_of_getElem? hi) a req n row hop hn hk hrow
    rcases next_or_last hi with ⟨hlast, hlen⟩ | ⟨e', he'⟩
    · exact Or.inl ⟨hlen, hlive e hlast (Or.inl ⟨_, a, b, row, t, hask⟩)⟩
    · exact Or.inr ⟨e', decisionValue b, he', (hheard.next i e e' hi he').1 _ a b row t hask⟩
  · intro i e v hi hop
    obtain ⟨t, hover⟩ := hheard.replayed e (List.mem_of_getElem? hi) id a v n row hop hn hk
    have hedge : ∃ b, storedDecision row = some b ∧ cfg.graph.branchTarget id b = some t := by
      obtain ⟨-, -, b, -, -, -, hb, ht⟩ := hover
      exact ⟨b, hb, ht⟩
    obtain ⟨b, hb, ht⟩ := hedge
    refine ⟨b, t, hb, ht, ?_⟩
    rcases next_or_last hi with ⟨hlast, hlen⟩ | ⟨e', he'⟩
    · exact Or.inl ⟨hlen, hlive e hlast (Or.inr ⟨id, a, row, t, hover⟩)⟩
    · obtain ⟨rec, hrec⟩ := (hheard.next i e e' hi he').2 id a row t hover
      exact Or.inr ⟨e', rec, he', hrec⟩

/-! ## A gate -/

/-- One approval with two exits. -/
def gate : GraphConfig where
  schemaVersion := 2
  graph :=
    { entry := "gate"
      nodes := [⟨"gate", .approval "Ship it?" "manual" none none none⟩, ⟨"ship", .respond⟩,
        ⟨"stop", .respond⟩]
      edges := [⟨"gate", "ship", some "yes"⟩, ⟨"gate", "stop", some "no"⟩] }

/-- Closures whose approval always gives the same answer. -/
def saying (outcome : ApprovalOutcome) : Effects where
  agentTurn := fun _ => .ok ⟨"", true⟩
  tool := fun _ => .ok .null
  supervisor := fun _ => .error (.supervisor "no route")
  approval := fun _ => .ok outcome

/-- A start of the gate that crashes between the recorded decision `yes` and its
    checkpoint. -/
def cutStart : Drive GraphRunOutcome × World :=
  play (leftFirst (saying (.decided "yes")) ⟨"t", "r"⟩ 5 0)
    (start ⟨"t", "r"⟩ gate "", (RunStore.empty, CallMemory.fresh))

/-- The resume after it, for `n` operations. -/
def resumed (outcome : ApprovalOutcome) (n : Nat) : Drive GraphRunOutcome × World :=
  play (leftFirst (saying outcome) ⟨"t", "r"⟩ n 0)
    (resume ⟨"t", "r"⟩, (cutStart.2.1, CallMemory.fresh))

/-- The calls on the gate: the one that crashed and the resume. -/
def gateSystem (outcome : ApprovalOutcome) (n : Nat) : System :=
  ⟨(resumed outcome n).2.1, [none, some ((resumed outcome n).2.2, (resumed outcome n).1)]⟩

theorem gateSystem_reach {step : (i : Op) → World → i.Res → World → Prop}
    {outcome : ApprovalOutcome} {n : Nat}
    (hyes : ∀ i s, step i s ((saying (.decided "yes")).handler ⟨"t", "r"⟩ i s).1
      ((saying (.decided "yes")).handler ⟨"t", "r"⟩ i s).2)
    (hsay : ∀ i s, step i s ((saying outcome).handler ⟨"t", "r"⟩ i s).1
      ((saying outcome).handler ⟨"t", "r"⟩ i s).2) :
    Pool.Reach step (Call ⟨"t", "r"⟩ fun g _ => g = gate) ⟨.empty, []⟩
      (gateSystem outcome n) := by
  have hplay : ∀ (f : Effects), (∀ i s, step i s (f.handler ⟨"t", "r"⟩ i s).1
      (f.handler ⟨"t", "r"⟩ i s).2) → ∀ l m, ∀ x ∈ leftFirst f ⟨"t", "r"⟩ l m, ∀ i s,
        step i s (x.2 i s).1 (x.2 i s).2 := by
    intro f hf l m x hx i s
    rw [leftFirst_handler hx]
    exact hf i s
  have hnew : Call ⟨"t", "r"⟩ (fun g _ => g = gate) (CallMemory.fresh, start ⟨"t", "r"⟩ gate "") :=
    .start gate "" rfl
  exact (((Pool.Reach.first .empty hnew (hplay _ hyes 5 0)).tail (.crash 0)).spawned .resume).play (j := 1) rfl (hplay _ hsay n 0)

/-- The gate's approval agrees whenever its answer is one of the two exits. -/
theorem saying_agreeing {b t : String} (hb : gate.graph.branchTarget "gate" b = some t) (i : Op)
    (s : World) : agreeing ⟨"t", "r"⟩ gate .arbitrary i s
      ((saying (.decided b)).handler ⟨"t", "r"⟩ i s).1
      ((saying (.decided b)).handler ⟨"t", "r"⟩ i s).2 := by
  refine ⟨exec_arbitrary ((saying (.decided b)).handler_exec ⟨"t", "r"⟩ i s), ?_⟩
  cases i with
  | approval a req =>
      intro n hn hk _
      obtain ⟨hmem, hid⟩ := Graph.node_mem hn
      have hgate := (by decide : ∀ n ∈ gate.graph.nodes, n.kind.isApproval = true → n.id = "gate")
        n hmem hk
      exact ⟨b, t, rfl, by rw [← hid, hgate]; exact hb⟩
  | _ => trivial

/-- A resume of the gate that is told `no` replays the recorded `yes`. -/
theorem gate_replays_yes :
    gate.Accepted ∧ (gateSystem (.decided "no") 5).threads[1]? =
      some (some ((resumed (.decided "no") 5).2.2, (resumed (.decided "no") 5).1)) ∧
    ((∃ e, (resumed (.decided "no") 5).2.2.history[2]? = some e ∧
        e.2.1.askedAt = some ("gate", 1) ∧ e.1.ledger "gate" 1 = some (decisionValue "yes")) ∧
      ∀ (i : Nat) e req, (resumed (.decided "no") 5).2.2.history[i]? = some e →
        e.2.1 = .approval 1 req → req.nodeId = "gate" →
        e.1.ledger "gate" 1 = some (decisionValue "yes") →
        ((resumed (.decided "no") 5).2.2.history.length = i + 1 ∧
          (resumed (.decided "no") 5).1.outcome? = none) ∨
        ∃ e' v, (resumed (.decided "no") 5).2.2.history[i + 1]? = some e' ∧
          e'.2 = ⟨.recordNodeVisit "gate" 1 v, .ok (.replayed (decisionValue "yes"))⟩) :=
  ⟨rfl, rfl, ⟨_, rfl, rfl, rfl⟩,
    (approval_agreement ⟨"t", "r"⟩ gate .arbitrary rfl (gateSystem (.decided "no") 5)
      (gateSystem_reach (saying_agreeing (t := "ship") rfl) (saying_agreeing (t := "stop") rfl)) 1
      _ _ rfl "gate" _ rfl rfl 1 (decisionValue "yes")).1⟩

/-- **A RECORDED DECISION DOES NOT STOP A CALL FROM PARKING**: the decision `yes` is in
    the ledger when the resume asks, the closure answers `awaiting`, and the resume
    parks the run. -/
theorem gate_parks_again :
    gate.Accepted ∧ ∃ (c : System) (m : CallMemory) (p : Drive GraphRunOutcome),
      Pool.Reach (exec ⟨"t", "r"⟩ .arbitrary) (Call ⟨"t", "r"⟩ fun g _ => g = gate) ⟨.empty, []⟩ c ∧
      c.threads[1]? = some (some (m, p)) ∧
      (∃ e ∈ m.history, e.2.1.askedAt = some ("gate", 1) ∧
        e.1.ledger "gate" 1 = some (decisionValue "yes")) ∧
      (∃ reply trail, p.outcome? = some (.ok ⟨.awaitingInput, reply, trail⟩)) ∧
      ∃ rec, c.store.record = some rec ∧ rec.status = .awaitingInput ∧ rec.cursor = "gate" := by
  refine ⟨rfl, gateSystem .awaiting 4, _, _, gateSystem_reach ?_ ?_, rfl, ?_, ⟨_, _, rfl⟩,
    _, rfl, rfl, rfl⟩
  · exact fun i s => exec_arbitrary ((saying (.decided "yes")).handler_exec ⟨"t", "r"⟩ i s)
  · exact fun i s => exec_arbitrary ((saying .awaiting).handler_exec ⟨"t", "r"⟩ i s)
  · exact ⟨_, List.mem_of_getElem? (i := 2) rfl, rfl, rfl⟩

end Greentic
