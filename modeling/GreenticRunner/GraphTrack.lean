import GreenticRunner.GraphPath
import GreenticRunner.ResumptionLogic

/-! # What a call knows and what it guarantees

    The vocabulary of the executor's correctness proof.  A `Track` is a property
    `On` of trunk positions, kept by every `TrunkStep`, and a property `Good` of
    ledgers, kept by every row the closures can cause; the store invariant
    `StoreOk` says that the record lies on the track and that its branch slots
    lie on their branch paths.  A `Setup` fixes the run, the graph, the closures
    and the track.

    * `Told` — what holds at every operation of a call;
    * `Verdict` — what holds of its result: where a success came from, and why
      an error happened (`Explained`). -/

namespace Greentic

open FinMaps CountedPath Resumption

/-! ## Requests and answers -/

/-- The closure call of an effect node. -/
def effectOp (pt : Point) : NodeKind → Option Op
  | .agent systemPrompt model tools provider agentRef inheritFrom =>
      some (.agentTurn pt.attempt
        ⟨pt.cursor, systemPrompt, model, pt.state, provider, tools, agentRef, inheritFrom⟩)
  | .tool toolName => some (.tool pt.attempt ⟨pt.cursor, toolName, pt.state⟩)
  | .supervisor systemPrompt model routes provider agentRef =>
      some (.supervisor pt.attempt
        ⟨pt.cursor, systemPrompt, model, routes, pt.state, provider, agentRef⟩)
  | _ => none

/-- The question of an approval node. -/
def askRequest (run : RunRef) (pt : Point) : NodeKind → Option ApprovalRequest
  | .approval title mode riskThreshold confidenceThreshold deadlineMs =>
      some ⟨run.runId, pt.cursor, run.tenantId, title, mode, riskThreshold,
        confidenceThreshold, deadlineMs, pt.state⟩
  | _ => none

/-- The ledger value of a closure's answer. -/
def closureValue : (i : Op) → i.Res → Option Json
  | .agentTurn _ _, .ok r => some r.toValue
  | .tool _ _, .ok v => some v
  | .supervisor _ _, .ok r => some r.toValue
  | _, _ => none

/-- The error a failed closure turns into. -/
def closureError (pt : Point) : (i : Op) → i.Res → Option GraphExecError
  | .agentTurn _ _, .error e =>
      some (.agentTurn s!"node '{pt.cursor}' attempt {pt.attempt}: {e.display}")
  | .tool _ _, .error e =>
      some (.tool s!"node '{pt.cursor}' attempt {pt.attempt}: {e.display}")
  | .supervisor _ _, .error e =>
      some (.supervisor s!"node '{pt.cursor}' attempt {pt.attempt}: {e.display}")
  | _, _ => none

/-- The visit an effect closure is called for. -/
def Op.effectAt : Op → Option (String × Nat)
  | .agentTurn a req => some (req.nodeId, a)
  | .tool a req => some (req.nodeId, a)
  | .supervisor a req => some (req.nodeId, a)
  | _ => none

/-- The visit any closure is called for. -/
def Op.askedAt : Op → Option (String × Nat)
  | .approval a req => some (req.nodeId, a)
  | i => i.effectAt

/-- The answers the closures may give to an operation. -/
def Closures.allows (C : Closures) : (i : Op) → i.Res → Prop
  | .agentTurn _ req, r => C.agentTurn req r
  | .tool _ req, r => C.tool req r
  | .supervisor _ req, r => C.supervisor req r
  | .approval _ req, r => C.approval req r
  | _, _ => True

theorem exec_allows {run : RunRef} {C : Closures} {i : Op} {s s' : World} {r : i.Res}
    (h : exec run C i s r s') : C.allows i r := by
  cases i <;> first | exact h.1 | trivial

/-- `v` is what the closures answered for the visit at `pt`. -/
inductive Answered (run : RunRef) (C : Closures) (cfg : GraphConfig) (pt : Point)
    (kind : NodeKind) (v : Json) : Prop where
  | effect (i : Op) (r : i.Res) (hi : effectOp pt kind = some i) (hr : C.allows i r)
      (hv : closureValue i r = some v)
  | decision (req : ApprovalRequest) (b t : String) (hreq : askRequest run pt kind = some req)
      (hb : C.approval req (.ok (.decided b)))
      (ht : cfg.graph.branchTarget pt.cursor b = some t) (hv : v = decisionValue b)

/-! ## The history of a call -/

/-- The operations of a call, each with the store it met. -/
abbrev History : Type := List (RunStore × Event Op Op.Res)

def Op.isVisit : Op → Bool
  | .visit _ _ _ => true
  | _ => false

/-- A trunk visit that the visit counts do not record: a fan-out or a join. -/
def Op.isPass (cfg : GraphConfig) : Op → Bool
  | .visit .trunk n _ =>
      match cfg.graph.node n with
      | some node => node.kind = .parallel || node.kind = .join
      | none => false
  | _ => false

/-- The node visits a call has executed. -/
def visitsMade (h : History) : Nat := h.countP fun e => e.2.1.isVisit

/-- The fan-outs and joins among them. -/
def passes (cfg : GraphConfig) (h : History) : Nat := h.countP fun e => e.2.1.isPass cfg

/-- The visits counted in a loaded record. -/
def loadedVisits : Option GraphRunRecord → Nat
  | none => 0
  | some rec => rec.visits.total + resumedBranchVisits rec.visits (rec.frontier.getD [])

/-- What the call loaded first. -/
def loadedRecord : History → Option (Option GraphRunRecord)
  | (_, ⟨.load, r⟩) :: _ => some r
  | _ => none

/-- The visits counted before the call. -/
def baseVisits (h : History) : Nat := loadedVisits ((loadedRecord h).getD none)

/-- One more region precedes the trunk loop when the call loaded a frontier. -/
def extraSteps : Option GraphRunRecord → Nat
  | some rec => if rec.frontier.isSome then 1 else 0
  | none => 0

/-- Some closure was called for the visit. -/
def Invoked (h : History) (nodeId : String) (attempt : Nat) : Prop :=
  ∃ e ∈ h, e.2.1.askedAt = some (nodeId, attempt)

/-- The shared counter refused a visit. -/
def CapExceeded (h : History) : Prop :=
  ∃ e ∈ h, ∃ r, e.2 = ⟨.fetchAdd, r⟩ ∧ maxNodeVisits < r

/-- An approval that was asked AGAIN: its ledger row already held a decision for
    `t`, and the answer names a label with an edge. -/
def AskedAgain (run : RunRef) (cfg : GraphConfig) (e : RunStore × Event Op Op.Res)
    (n : String) (a : Nat) (b : String) (row : Json) (t : String) : Prop :=
  ∃ req c next, e.2 = ⟨.approval a req, .ok (.decided b)⟩ ∧ req.nodeId = n ∧
    cfg.graph.branchTarget n b = some next ∧ e.1.ledger n a = some row ∧
    storedDecision row = some c ∧ cfg.graph.branchTarget n c = some t ∧
    checkSegment "run_id" run.runId = .ok () ∧ checkSegment "node_id" n = .ok ()

/-- A decision of an approval node that met an EARLIER decision in the ledger. -/
def Overruled (cfg : GraphConfig) (e : RunStore × Event Op Op.Res) (n : String) (a : Nat)
    (row : Json) (t : String) : Prop :=
  ∃ v node c, e.2 = ⟨.recordNodeVisit n a v, .ok (.replayed row)⟩ ∧
    cfg.graph.node n = some node ∧ node.kind.isApproval = true ∧
    storedDecision row = some c ∧ cfg.graph.branchTarget n c = some t

/-- An approval with a recorded decision is being processed. -/
def Pending (run : RunRef) (cfg : GraphConfig) (e : RunStore × Event Op Op.Res) : Prop :=
  (∃ n a b row t, AskedAgain run cfg e n a b row t) ∨ ∃ n a row t, Overruled cfg e n a row t

/-- No approval with a recorded decision is being processed. -/
def Quiet (run : RunRef) (cfg : GraphConfig) (h : History) : Prop :=
  ∀ e, h.getLast? = some e → ¬ Pending run cfg e

/-- An approval that was asked again replays its row; a replayed row is followed:
    the next save is at the position after the recorded decision. -/
structure Follows (run : RunRef) (cfg : GraphConfig) (h : History) (ev : Event Op Op.Res) :
    Prop where
  replay : ∀ e n a b row t, h.getLast? = some e → AskedAgain run cfg e n a b row t →
    ev = ⟨.recordNodeVisit n a (decisionValue b), .ok (.replayed row)⟩
  advance : ∀ e n a row t, h.getLast? = some e → Overruled cfg e n a row t →
    ∃ rec, ev = ⟨.save rec, .ok ()⟩ ∧ rec.status = .running ∧ rec.frontier = none ∧
      rec.cursor = t ∧ rec.visits.count n = a

/-! ## Tracks and the store invariant -/

/-- A position of the trunk or of a branch of a region the trunk has entered. -/
def Reached (cfg : GraphConfig) (On : Ledger → Point → Prop) (L : Ledger) (pt : Point) : Prop :=
  On L pt ∨ ∃ P n x m, On L P ∧ cfg.graph.node P.cursor = some n ∧ n.kind = .parallel ∧
    x ∈ branchEdges cfg P.cursor ∧
    Steps (BranchStep cfg (rowAt L)) (branchStart P x) m pt

/-- The ledger after one more row. -/
def Ledger.add (L : Ledger) (nodeId : String) (attempt : Nat) (v : Json) : Ledger :=
  fun n a => if n = nodeId ∧ a = attempt then some v else L n a

/-- A property of trunk positions and one of ledgers that every call keeps; the
    stored record matters only when it is `Tracked`, and is there from the
    beginning when it is `Present`. -/
structure Track (run : RunRef) (cfg : GraphConfig) (C : Closures) where
  Tracked : Prop
  Present : Prop
  Good : Ledger → Prop
  On : Ledger → Point → Prop
  Start : String → Prop
  mono : ∀ {L L' : Ledger} {pt : Point}, Ledger.le L L' → On L pt → On L' pt
  start : ∀ {L : Ledger} {text : String}, Start text → On L (startPoint cfg text)
  step : ∀ {L : Ledger} {pt pt' : Point}, Good L → On L pt →
    TrunkStep cfg (rowAt L) pt pt' → On L pt'
  write : ∀ {L : Ledger} {pt : Point} {n : Node} {v : Json}, Good L → Reached cfg On L pt →
    cfg.graph.node pt.cursor = some n → Answered run C cfg pt n.kind v →
    checkSegment "run_id" run.runId = .ok () → checkSegment "node_id" pt.cursor = .ok () →
    L pt.cursor pt.attempt = none → Good (L.add pt.cursor pt.attempt v)

/-- A branch slot lies on its branch path; a parked one is at the join. -/
structure SlotOk (cfg : GraphConfig) (O : Oracle) (P : Point) (J : String)
    (x : String × String) (bc : BranchCursor) : Prop where
  label : bc.branch = x.1
  path : ∃ m, Steps (BranchStep cfg O) (branchStart P x) m (slotPoint P bc)
  parked : bc.parked = true → bc.cursor = J
  full : (bc.visits = .empty ∧ bc.parked = false) ∨ P.visits.le bc.visits

/-- The visits of all slots beyond those of the trunk. -/
def spentSlots (P : Point) (frontier : List BranchCursor) : Nat :=
  (frontier.map fun bc => spent P (slotPoint P bc).visits).sum

/-- A frontier that a resume may continue from. -/
structure FrontierOk (cfg : GraphConfig) (O : Oracle) (P : Point)
    (frontier : List BranchCursor) : Prop where
  node : ∃ n, cfg.graph.node P.cursor = some n ∧ n.kind = .parallel
  slots : ∃ J, findJoinForParallel cfg P.cursor = .ok J ∧
    List.Forall₂ (SlotOk cfg O P J) (branchEdges cfg P.cursor) frontier
  cap : spentSlots P frontier = 0 ∨ P.visits.total + spentSlots P frontier ≤ maxNodeVisits

/-- The record of a finished run. -/
def finalRecord (run : RunRef) (cfg : GraphConfig) (F : Point) : GraphRunRecord :=
  buildRecord run.runId cfg (F.advance F.cursor F.state) .succeeded

/-- A respond node. -/
def AtRespond (cfg : GraphConfig) (F : Point) : Prop :=
  ∃ n, cfg.graph.node F.cursor = some n ∧ n.kind = .respond

/-- Some visit of the region would exceed the cap: the branches have positions
    whose visits, with one more for each that is not at the join, are too many. -/
def Over (cfg : GraphConfig) (L : Ledger) (P : Point) (J : String) : Prop :=
  ∃ pts : List Point, List.Forall₂ (fun x b => ∃ m, Steps (BranchStep cfg (rowAt L))
      (branchStart P x) m b) (branchEdges cfg P.cursor) pts ∧ (∃ b ∈ pts, b.cursor ≠ J) ∧
    maxNodeVisits < P.visits.total +
      (pts.map fun b => spent P b.visits + if b.cursor = J then 0 else 1).sum

/-- A run that has used up its visits: as many trunk steps lead to `pt`, or the
    region at `pt` needs too many visits. -/
def Exhausted (cfg : GraphConfig) (On : Point → Prop) (L : Ledger) (pt : Point) : Prop :=
  (∃ X k, On X ∧ Steps (TrunkStep cfg (rowAt L)) X k pt ∧ maxNodeVisits ≤ k) ∨
    ∃ n J, cfg.graph.node pt.cursor = some n ∧ n.kind = .parallel ∧
      findJoinForParallel cfg pt.cursor = .ok J ∧ Over cfg L pt J

section Invariant

variable {run : RunRef} {cfg : GraphConfig} {C : Closures}

/-- What a stored record says, by its status. -/
def RecordOk (T : Track run cfg C) (L : Ledger) (rec : GraphRunRecord) : Prop :=
  (rec.runId = run.runId ∧ rec.graph = cfg) ∧ checkSegment "run_id" run.runId = .ok () ∧
  match rec.status with
  | .succeeded => ∃ F, T.On L F ∧ AtRespond cfg F ∧ rec = finalRecord run cfg F
  | .failed => T.On L rec.point ∧ Exhausted cfg (T.On L) L rec.point
  | .running | .awaitingInput => T.On L rec.point ∧
      ∀ frontier, rec.frontier = some frontier →
        rec.status = .running ∧ FrontierOk cfg (rowAt L) rec.point frontier

/-- The store invariant. -/
structure StoreOk (T : Track run cfg C) (st : RunStore) : Prop where
  good : T.Good st.ledger
  record : T.Tracked → ∀ rec, st.record = some rec → RecordOk T st.ledger rec
  present : T.Present → st.record.isSome

end Invariant

/-- Everything the proof is about.  `solo` calls have the store to themselves;
    `step` may restrict the operations, and when `tight` it refuses branch visits
    whose count plus the fan-outs and joins reaches the cap. -/
structure Setup where
  run : RunRef
  cfg : GraphConfig
  accepted : cfg.Accepted
  C : Closures
  T : Track run cfg C
  solo : Prop
  tight : Prop
  step : (i : Op) → World → i.Res → World → Prop
  sub : ∀ i s r s', step i s r s' → exec run C i s r s'
  tight_step : tight → ∀ s r s', step .fetchAdd s r s' → s.2.globalVisits < maxNodeVisits →
    s.2.globalVisits + passes cfg s.2.history < maxNodeVisits

namespace Setup

variable (S : Setup)

/-- What the other calls may do to the store. -/
def rely (a b : RunStore) : Prop :=
  Ledger.le a.ledger b.ledger ∧ (StoreOk S.T a → StoreOk S.T b) ∧ (S.solo → b = a)

/-- Where the call's path starts: at the loaded record, or at a fresh start. -/
structure Origin where
  loaded : Option GraphRunRecord
  point : Point
  link : match loaded with
    | some rec => point = rec.point
    | none => ∃ text, S.T.Start text ∧ point = startPoint S.cfg text

/-- The call has come from `X` to `pt` in `k` trunk steps. -/
structure Came (X : S.Origin) (k : Nat) (pt : Point) (s : World) : Prop where
  store : StoreOk S.T s.1
  loads : loadedRecord s.2.history = some X.loaded
  origin : S.T.On s.1.ledger X.point
  path : Steps (TrunkStep S.cfg (rowAt s.1.ledger)) X.point k pt

/-- A join the trunk passes through without a checkpoint. -/
def JoinPass (pt pt' : Point) : Prop :=
  ∃ n next, S.cfg.graph.node pt.cursor = some n ∧ n.kind = .join ∧
    nextLinear S.cfg pt.cursor = .ok next ∧ pt' = { pt with cursor := next }

/-- The stored record is `m` join passes behind `pt`. -/
def Kept (m : Nat) (pt : Point) (st : RunStore) : Prop :=
  ∃ rec, st.record = some rec ∧ rec.frontier = none ∧ rec.status.terminal = false ∧
    rec.graph = S.cfg ∧ Steps S.JoinPass rec.point m pt

/-- The record of an open region. -/
def regionRecord (P : Point) (frontier : List BranchCursor) (status : RunStatus) :
    GraphRunRecord :=
  buildRecordWithFrontier S.run.runId S.cfg P status (some frontier)

/-- Why a visit failed, in the trunk or in a branch. -/
inductive Fault (label : Option String) (L : Ledger) (pt : Point) (e : GraphExecError) :
    Prop where
  | unknown (hn : S.cfg.graph.node pt.cursor = none) (he : e = .unknownNode pt.cursor)
  | closure (n : Node) (i : Op) (r : i.Res) (hn : S.cfg.graph.node pt.cursor = some n)
      (hi : effectOp pt n.kind = some i) (hr : S.C.allows i r)
      (he : closureError pt i r = some e) (hmiss : S.solo → rowAt L pt = none)
  | after (n : Node) (raw : Json) (hn : S.cfg.graph.node pt.cursor = some n)
      (hk : n.kind.isEffect = true) (hrow : rowAt L pt = some raw)
      (he : effectAfter S.cfg label pt raw n.kind = .error e)
  | router (n : Node) (hn : S.cfg.graph.node pt.cursor = some n)
      (hk : n.kind.isRouter = true) (he : afterRouter S.cfg pt = .error e)
  | segment (n : Node) (c : CheckpointError) (hn : S.cfg.graph.node pt.cursor = some n)
      (hk : n.kind.isEffect = true ∨ n.kind.isApproval = true)
      (hbad : checkSegment "run_id" S.run.runId ≠ .ok () ∨
        checkSegment "node_id" pt.cursor ≠ .ok ()) (he : e = .checkpoint c)

/-- Why a branch failed. -/
inductive BranchFault (label : String) (L : Ledger) (pt : Point) (e : GraphExecError) :
    Prop where
  | visit (h : S.Fault (some label) L pt e)
  | kind (n : Node) (m : String) (hn : S.cfg.graph.node pt.cursor = some n)
      (hk : n.kind.isEffect = false ∧ n.kind.isRouter = false) (he : e = .graph (.invalid m))

/-- Why the trunk failed. -/
inductive TrunkFault (L : Ledger) (pt : Point) (e : GraphExecError) : Prop where
  | visit (h : S.Fault none L pt e)
  | ask (n : Node) (req : ApprovalRequest) (hn : S.cfg.graph.node pt.cursor = some n)
      (hreq : askRequest S.run pt n.kind = some req) (hr : S.C.approval req (.error e))
  | noEdge (n : Node) (req : ApprovalRequest) (b m : String)
      (hn : S.cfg.graph.node pt.cursor = some n)
      (hreq : askRequest S.run pt n.kind = some req)
      (hr : S.C.approval req (.ok (.decided b)))
      (ht : S.cfg.graph.branchTarget pt.cursor b = none) (he : e = .graph (.invalid m))
  | badRow (n : Node) (raw : Json) (m : String) (hn : S.cfg.graph.node pt.cursor = some n)
      (hk : n.kind.isApproval = true) (hrow : rowAt L pt = some raw)
      (hbad : ∀ b t, storedDecision raw = some b → S.cfg.graph.branchTarget pt.cursor b ≠ some t)
      (he : e = .graph (.invalid m))
  | join (n : Node) (hn : S.cfg.graph.node pt.cursor = some n) (hk : n.kind = .join)
      (he : nextLinear S.cfg pt.cursor = .error e)
  | findJoin (n : Node) (hn : S.cfg.graph.node pt.cursor = some n) (hk : n.kind = .parallel)
      (he : findJoinForParallel S.cfg pt.cursor = .error e)

/-- Why the branch `x` of the region entered at `P` has no result. -/
inductive Halted (s : World) (P : Point) (J : String) (x : String × String) (pt : Point)
    (e : GraphExecError) : Prop where
  | capped (hcap : CapExceeded s.2.history) (hover : Over S.cfg s.1.ledger P J)
      (he : e = .iterationCap S.run.runId)
  | unsaved (c : CheckpointError) (hbad : checkSegment "run_id" S.run.runId ≠ .ok ())
      (he : e = .checkpoint c)
  | fault (hne : pt.cursor ≠ J) (h : S.BranchFault x.1 s.1.ledger pt e)

/-- What is known of the result of a branch. -/
def Settles (s : World) (r : Except GraphExecError BranchOutcome) : Prop :=
  ∀ e, r = .error e → ∃ X k P n J x m pt, S.Came X k P s ∧
    S.cfg.graph.node P.cursor = some n ∧ n.kind = .parallel ∧
    findJoinForParallel S.cfg P.cursor = .ok J ∧ x ∈ branchEdges S.cfg P.cursor ∧
    Steps (BranchStep S.cfg (rowAt s.1.ledger)) (branchStart P x) m pt ∧ S.Halted s P J x pt e

/-- Where an error of a call comes from. -/
inductive Explained (s : World) (e : GraphExecError) : Prop where
  | refused (hload : loadedRecord s.2.history = some none) (he : e = .unknownRun S.run.runId)
  | unsaved (c : CheckpointError) (hbad : checkSegment "run_id" S.run.runId ≠ .ok ())
      (he : e = .checkpoint c)
  | trunk (X : S.Origin) (k m : Nat) (pt : Point) (came : S.Came X k pt s)
      (hm : m < maxNodeVisits) (kept : S.solo → S.Kept m pt s.1)
      (h : S.TrunkFault s.1.ledger pt e)
  | leave (X : S.Origin) (k : Nat) (P : Point) (n : Node) (J : String) (came : S.Came X k P s)
      (hn : S.cfg.graph.node P.cursor = some n) (hk : n.kind = .parallel)
      (hJ : findJoinForParallel S.cfg P.cursor = .ok J) (he : nextLinear S.cfg J = .error e)
  | branch (X : S.Origin) (k : Nat) (P : Point) (J : String) (frontier : List BranchCursor)
      (i : Nat) (x : String × String) (bc : BranchCursor) (came : S.Came X k P s)
      (hJ : findJoinForParallel S.cfg P.cursor = .ok J)
      (kept : S.solo → s.1.record = some (S.regionRecord P frontier .running))
      (hf : FrontierOk S.cfg (rowAt s.1.ledger) P frontier)
      (hall : ∀ (l : Nat) y b, (branchEdges S.cfg P.cursor)[l]? = some y → frontier[l]? = some b →
        b.parked = true ∨ ∃ e', S.Halted s P J y (slotPoint P b) e')
      (hx : (branchEdges S.cfg P.cursor)[i]? = some x) (hbc : frontier[i]? = some bc)
      (h : S.Halted s P J x (slotPoint P bc) e) (hcap : ∀ id, e ≠ .iterationCap id)
  | cap (X : S.Origin) (k : Nat) (pt : Point) (came : S.Came X k pt s)
      (hex : maxNodeVisits ≤ k ∨ ∃ n J, S.cfg.graph.node pt.cursor = some n ∧
        n.kind = .parallel ∧ findJoinForParallel S.cfg pt.cursor = .ok J ∧
        CapExceeded s.2.history ∧ Over S.cfg s.1.ledger pt J)
      (kept : S.solo → ∃ rec, s.1.record = some rec ∧ rec.point = pt)
      (he : e = .iterationCap S.run.runId)

/-- Where a result of a call comes from. -/
inductive Result (s : World) : Except GraphExecError GraphRunOutcome → Prop where
  | succeeded (X : S.Origin) (k : Nat) (F : Point) (st : RunStore) (trail : List Json)
      (came : S.Came X k F s) (hk : k < maxNodeVisits + extraSteps X.loaded)
      (hF : AtRespond S.cfg F)
      (hlast : s.2.history.getLast? = some (st, ⟨.save (finalRecord S.run S.cfg F), .ok ()⟩))
      (kept : S.solo → s.1.record = some (finalRecord S.run S.cfg F)) :
      Result s (.ok ⟨.succeeded, lastAssistantMessage F.state, trail⟩)
  | parked (X : S.Origin) (k : Nat) (pt : Point) (n : Node) (req : ApprovalRequest) (reply : String)
      (trail : List Json) (came : S.Came X k pt s) (hn : S.cfg.graph.node pt.cursor = some n)
      (hreq : askRequest S.run pt n.kind = some req) (hr : S.C.approval req (.ok .awaiting))
      (kept : S.solo → ∃ rec, s.1.record = some rec ∧ rec.point = pt) :
      Result s (.ok ⟨.awaitingInput, reply, trail⟩)
  | stored (st : RunStore) (rec : GraphRunRecord) (trail : List Json)
      (hh : s.2.history = [(st, ⟨.load, some rec⟩)]) (hst : rec.status.terminal = true)
      (hrec : RecordOk S.T s.1.ledger rec) :
      Result s (.ok ⟨rec.status, lastAssistantMessage rec.state, trail⟩)
  | error (e : GraphExecError) (h : S.Explained s e) : Result s (.error e)

/-- The postcondition of a resume call. -/
def Verdict (s : World) (r : Except GraphExecError GraphRunOutcome) : Prop :=
  S.Result s r ∧ Quiet S.run S.cfg s.2.history

/-- The postcondition of any call: a start call refuses a finished run. -/
def CallVerdict (s : World) (r : Except GraphExecError GraphRunOutcome) : Prop :=
  S.Verdict s r ∨ (r = .error (.alreadyCompleted S.run.runId) ∧
    ∃ st rec, s.2.history = [(st, ⟨.load, some rec⟩)] ∧ rec.status.terminal = true)

/-- What is known at an operation. -/
def Fact (s : World) : Op → Prop
  | .visit .trunk n a => ∃ X k pt m, S.Came X k pt s ∧ pt.cursor = n ∧ pt.attempt = a ∧
      (S.solo → S.Kept m pt s.1) ∧
      visitsMade s.2.history + baseVisits s.2.history = pt.visits.total + passes S.cfg s.2.history
  | .visit (.branch _) _ _ => S.tight →
      visitsMade s.2.history + baseVisits s.2.history < maxNodeVisits
  | .agentTurn a req => S.solo → s.1.ledger req.nodeId a = none
  | .tool a req => S.solo → s.1.ledger req.nodeId a = none
  | .supervisor a req => S.solo → s.1.ledger req.nodeId a = none
  | .recordNodeVisit n a _ => Invoked s.2.history n a
  | _ => True

/-- What holds at every operation of a call. -/
structure Told (s : World) (ev : Event Op Op.Res) (s' : World) : Prop where
  grows : Ledger.le s.1.ledger s'.1.ledger
  store : StoreOk S.T s'.1
  noted : s'.2.history = s.2.history ++ [(s.1, ev)]
  fact : S.Fact s ev.1
  follows : Follows S.run S.cfg s.2.history ev

end Setup

end Greentic
