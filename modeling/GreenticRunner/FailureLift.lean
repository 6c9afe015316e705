import GreenticRunner.ErrorRoutes
import GreenticRunner.AssocMap

/-! # Failures in the reply

    A node that fails with an error route hands its failure to that route.  When the run completes,
    a failure that NO ROUTE handled is lifted into the metadata of the reply.  The outputs of a run are
    kept by node id, over every flow that it jumps through and every turn; whether one of them was
    handled is read from the flow that the run completes in.

    * `firstUnhandledFailure_eq_none_iff`, `unlifted_iff` — when nothing is lifted;
    * `routed_failure_unlifted_iff` — a run in which every failure has its route. -/

namespace Greentic.FlowWalk

open Transition AssocMaps Engine

open Drive (NodeOutput)

/-! ## Outputs -/

/-- An output that is recorded; `flowId` is the flow it was produced in, which the engine does not
    keep. -/
structure Recorded where
  flowId : String
  ok : Bool
  output : NodeOutput

/-- The outputs of a run: `nodes` and `node_order`. -/
structure Outputs where
  nodes : AssocMap String Recorded
  order : List String

namespace Outputs

def empty : Outputs := ⟨.empty, []⟩

/-- `record_node_output`. -/
def record (o : Outputs) (nodeId : String) (r : Recorded) : Outputs :=
  ⟨o.nodes.insert nodeId r, o.order.filter (· ≠ nodeId) ++ [nodeId]⟩

/-- The outputs as they are searched: those of no known order by their ids, then the others as they
    were recorded. -/
def inOrder (o : Outputs) : List (String × Recorded) :=
  (o.nodes.entries.filter fun e => !o.order.contains e.1).mergeSort (fun a b => decide (a.1 ≤ b.1)) ++
    o.order.filterMap fun id => (o.nodes.get? id).map fun r => (id, r)

end Outputs

/-- Whether an id is the one of a node with an error route. -/
def errorRouted (host : Host) (flowId nodeId : String) : Bool :=
  (host.node? flowId nodeId).any (nodeHasErrorRoute ·.routing)

/-- `first_unhandled_failure`. -/
def Outputs.firstUnhandledFailure (o : Outputs) (host : Host) (flowId : String) :
    Option (String × Recorded) :=
  o.inOrder.find? fun e => !e.2.ok && !errorRouted host flowId e.1

/-! ## The lift -/

/-- `Map::entry` and `Entry::or_insert`. -/
def orInsert (fields : List (String × Json)) (name : String) (v : Json) : List (String × Json) :=
  if ((Json.obj fields).get? name).isSome then fields else Json.setField fields name v

/-- The object that an output is lifted in. -/
def replyFields : Json → List (String × Json)
  | .obj fields => fields
  | .null => []
  | v => [("payload", v)]

/-- A text of the `error` metadata of an output. -/
def errorText (failed : Recorded) (name fallback : String) : String :=
  ((pointer failed.output.meta "error" name).bind Json.asStr?).getD fallback

/-- `lift_node_error`. -/
def liftNodeError (output : Json) : Option (String × Recorded) → Json
  | none => output
  | some (nodeId, failed) =>
      let fields := replyFields output
      -- Metadata that is no object is replaced.
      let metadata := objectFields (((Json.obj fields).get? "metadata").getD .null)
      let metadata := orInsert metadata "error_kind" (.str (errorText failed "kind" "flow_node_failed"))
      let metadata := orInsert metadata "error_message" (.str (errorText failed "message" "flow node failed"))
      let metadata := orInsert metadata "node_id" (.str nodeId)
      .obj (Json.setField fields "metadata" (.obj metadata))

/-! ## Runs -/

/-- How a run completed: in which flow, what it replied, and its output before the lift. -/
structure Completion where
  flowId : String
  final : Json
  output : Json

/-- A run with its outputs. -/
structure Tracked where
  progress : Progress
  outputs : Outputs
  completed : Option Completion

/-- What happens next: a round whose node hands back a success or a failure, with what the run replies
    if it completes there; the resume of a park; a failure beside the nodes. -/
inductive TrackEvent where
  | round (a : Answer) (ok : Bool) (final : Json)
  | resume (input : Json)
  | fail

/-- The node and the output that a round records, if its node hands one back. -/
def roundOutput (host : Host) (w : Walk) (a : Answer) : Option (HostNode × NodeOutput) :=
  (host.node? w.flowId w.nodeId).bind fun node =>
    match dispatchNode host w.flowId w.nodeId node.kind w.state a with
    | (.error _, _) => none
    | (.ok outcome, s) => some (node, (attachPendingCardAnswers s w.nodeId node outcome.output).2.1)

/-- The routes of a custom routing. -/
def routesOf : Routing → List Json
  | .custom (.arr routes) => routes
  | _ => []

/-- The answer of a round, with the event that follows from its output. -/
def withEvent (a : Answer) (node : HostNode) (ok : Bool) (output : NodeOutput) : Answer :=
  { a with scope := ⟨a.scope.nodes, eventOf (routesOf node.routing) ok output⟩ }

/-- One round of a run that keeps its outputs. -/
def trackRound (host : Host) (s : Tracked) (w : Walk) (a : Answer) (ok : Bool) (final : Json) : Tracked :=
  match roundOutput host w a with
  | none => { s with progress := .failed w.visits }
  | some (node, output) =>
      let outputs := s.outputs.record w.nodeId ⟨w.flowId, ok, output⟩
      let progress := visit host w (withEvent a node ok output)
      match progress with
      | .completed _ =>
          let failure := outputs.firstUnhandledFailure host w.flowId
          ⟨progress, outputs, some ⟨w.flowId, final, liftNodeError final failure⟩⟩
      | _ => ⟨progress, outputs, s.completed⟩

/-- The step of a run. -/
def track (host : Host) (s : Tracked) : TrackEvent → Option Tracked
  | .round a ok final =>
      match s.progress with
      | .walking w => some (trackRound host s w a ok final)
      | _ => none
  | .resume input =>
      match s.progress with
      | .parked _ snapshot => some { s with progress := .walking (resume snapshot input) }
      | _ => none
  | .fail =>
      match s.progress with
      | .walking w => some { s with progress := .failed w.visits }
      | _ => none

/-- A run begins. -/
def Tracked.start (flowId nodeId : String) (entry : Json) : Tracked :=
  ⟨.walking (execute flowId nodeId entry), .empty, none⟩

/-- A step in which a failure comes from a node that has an error route in its flow. -/
def failsRouted (host : Host) (s : Tracked) : TrackEvent → Bool
  | .round _ ok _ =>
      match s.progress with
      | .walking w => ok || errorRouted host w.flowId w.nodeId
      | _ => true
  | _ => true

/-! ## What is searched -/

/-- The search goes through every output that is recorded. -/
theorem mem_inOrder (o : Outputs) (id : String) (r : Recorded) :
    (id, r) ∈ o.inOrder ↔ o.nodes.get? id = some r := by
  rw [Outputs.inOrder, List.mem_append, List.mem_mergeSort, List.mem_filter, List.mem_filterMap,
    ← AssocMap.get?_eq_some_iff]
  constructor
  · rintro (⟨h, -⟩ | ⟨id', -, h⟩)
    · exact h
    · obtain ⟨r', hr', heq⟩ := Option.map_eq_some_iff.mp h
      cases heq
      exact hr'
  · intro h
    by_cases hid : id ∈ o.order
    · exact .inr ⟨id, hid, by rw [h]; rfl⟩
    · exact .inl ⟨h, by simpa using hid⟩

/-- **Nothing is left unhandled when each failed output has the id of a node with an error route in the
    flow that is asked.** -/
theorem firstUnhandledFailure_eq_none_iff (o : Outputs) (host : Host) (flowId : String) :
    o.firstUnhandledFailure host flowId = none ↔
      ∀ id r, o.nodes.get? id = some r → r.ok = false → errorRouted host flowId id = true := by
  rw [Outputs.firstUnhandledFailure, List.find?_eq_none]
  constructor
  · intro h id r hr hok
    have hfail := h (id, r) ((mem_inOrder o id r).mpr hr)
    simpa [hok] using hfail
  · rintro h ⟨id, r⟩ hmem
    cases hok : r.ok with
    | true => simp
    | false => simp [h id r ((mem_inOrder o id r).mp hmem) hok]

/-! ## What is lifted -/

/-- The fields that are lifted. -/
def liftedFields : List String := ["error_kind", "error_message", "node_id"]

/-- A field of the metadata of an output. -/
def metaField (output : Json) (name : String) : Option Json := pointer output "metadata" name

/-- An output with nothing lifted into it. -/
def Unlifted (c : Completion) : Prop :=
  ∀ name ∈ liftedFields, metaField c.output name = metaField c.final name

theorem get?_orInsert_of_ne {name key : String} (h : key ≠ name) (fields : List (String × Json)) (v : Json) :
    (Json.obj (orInsert fields name v)).get? key = (Json.obj fields).get? key := by
  unfold orInsert
  split
  · rfl
  · exact Json.get?_setField_of_ne h fields v

theorem get?_orInsert_self (fields : List (String × Json)) (name : String) (v : Json) :
    (Json.obj (orInsert fields name v)).get? name = some (((Json.obj fields).get? name).getD v) := by
  unfold orInsert
  cases hfield : (Json.obj fields).get? name with
  | some w =>
      rw [Option.isSome_some, if_pos rfl, hfield]
      rfl
  | none =>
      rw [Option.isSome_none, if_neg (by decide), Json.get?_setField_self]
      rfl

/-- The metadata of the object that an output is lifted in is the one of the output. -/
theorem metaField_replyFields (output : Json) (name : String) :
    (Json.obj (objectFields (((Json.obj (replyFields output)).get? "metadata").getD .null))).get? name
      = metaField output name := by
  rw [get?_objectFields]
  cases output with
  | obj fields => rfl
  | null => rfl
  | bool b => rfl
  | num t => rfl
  | str t => rfl
  | arr items => rfl

/-- After a lift each of the fields is there, as it was where it was there before. -/
theorem metaField_lift (output : Json) (failure : String × Recorded) {name : String}
    (h : name ∈ liftedFields) :
    ∃ v, metaField (liftNodeError output (some failure)) name
      = some ((metaField output name).getD v) := by
  obtain ⟨nodeId, failed⟩ := failure
  simp only [liftedFields, List.mem_cons, List.not_mem_nil, or_false] at h
  rw [metaField, pointer, liftNodeError, Json.get?_setField_self, Option.bind_some]
  rcases h with rfl | rfl | rfl
  · refine ⟨.str (errorText failed "kind" "flow_node_failed"), ?_⟩
    rw [get?_orInsert_of_ne (by decide), get?_orInsert_of_ne (by decide), get?_orInsert_self,
      metaField_replyFields]
  · refine ⟨.str (errorText failed "message" "flow node failed"), ?_⟩
    rw [get?_orInsert_of_ne (by decide), get?_orInsert_self, get?_orInsert_of_ne (by decide),
      metaField_replyFields]
  · refine ⟨.str nodeId, ?_⟩
    rw [get?_orInsert_self, get?_orInsert_of_ne (by decide), get?_orInsert_of_ne (by decide),
      metaField_replyFields]

/-- A reply that has each of the fields already. -/
def carriesError (final : Json) : Bool := liftedFields.all fun name => (metaField final name).isSome

/-- **Nothing is lifted where no failure is, or where the reply has the fields already.** -/
theorem unlifted_iff (flowId : String) (final : Json) (failure : Option (String × Recorded)) :
    Unlifted ⟨flowId, final, liftNodeError final failure⟩ ↔
      failure = none ∨ carriesError final = true := by
  cases failure with
  | none => exact ⟨fun _ => .inl rfl, fun _ _ _ => rfl⟩
  | some failure =>
      constructor
      · intro h
        refine .inr (List.all_eq_true.mpr fun name hname => ?_)
        obtain ⟨v, hv⟩ := metaField_lift final failure hname
        rw [← h name hname]
        show (metaField (liftNodeError final (some failure)) name).isSome = true
        rw [hv]
        rfl
      · rintro (h | h)
        · exact nomatch h
        · intro name hname
          obtain ⟨v, hv⟩ := metaField_lift final failure hname
          obtain ⟨w, hw⟩ := Option.isSome_iff_exists.mp (List.all_eq_true.mp h name hname)
          show metaField (liftNodeError final (some failure)) name = metaField final name
          rw [hv, hw]
          rfl

/-! ## Runs in which every failure has its route -/

/-- What such a run keeps: a failure that is recorded has a route in the flow it was produced in, and
    the run has completed only where its progress says so, with the failure it found then. -/
structure TrackInv (host : Host) (s : Tracked) : Prop where
  routed : ∀ id r, s.outputs.nodes.get? id = some r → r.ok = false →
    errorRouted host r.flowId id = true
  lifted : ∀ c, s.completed = some c → (∃ visits, s.progress = .completed visits) ∧
    c.output = liftNodeError c.final (s.outputs.firstUnhandledFailure host c.flowId)

theorem TrackInv.running {host : Host} {s : Tracked} (h : TrackInv host s)
    (hp : ∀ visits, s.progress ≠ .completed visits) : s.completed = none := by
  cases hc : s.completed with
  | none => rfl
  | some c =>
      obtain ⟨⟨visits, hv⟩, -⟩ := h.lifted c hc
      exact absurd hv (hp visits)

/-- A round records a failure only of a node that has a route. -/
theorem TrackInv.round {host : Host} {s : Tracked} {w : Walk} (h : TrackInv host s)
    (hw : s.progress = .walking w) (a : Answer) (ok : Bool) (final : Json)
    (hok : (ok || errorRouted host w.flowId w.nodeId) = true) :
    TrackInv host (trackRound host s w a ok final) := by
  have hnone : s.completed = none := h.running fun visits hv => nomatch hw.symm.trans hv
  unfold trackRound
  split
  next =>
    refine ⟨h.routed, fun c hc => ?_⟩
    rw [hnone] at hc
    exact nomatch hc
  next node output _ =>
    have hrecord : ∀ id r, (s.outputs.record w.nodeId ⟨w.flowId, ok, output⟩).nodes.get? id = some r →
        r.ok = false → errorRouted host r.flowId id = true := by
      intro id r hr hfail
      by_cases hid : id = w.nodeId
      · subst hid
        have hself := (AssocMap.get?_insert_self s.outputs.nodes w.nodeId ⟨w.flowId, ok, output⟩).symm.trans hr
        cases hself
        rw [show ok = false from hfail, Bool.false_or] at hok
        exact hok
      · refine h.routed id r ?_ hfail
        exact (AssocMap.get?_insert_of_ne hid s.outputs.nodes _).symm.trans hr
    dsimp only
    split
    next visits hv =>
      refine ⟨hrecord, fun c hc => ?_⟩
      cases hc
      exact ⟨⟨visits, hv⟩, rfl⟩
    next =>
      refine ⟨hrecord, fun c hc => ?_⟩
      rw [hnone] at hc
      exact nomatch hc

theorem TrackInv.step {host : Host} {s s' : Tracked} {e : TrackEvent} (h : TrackInv host s)
    (hc : failsRouted host s e = true) (hs : track host s e = some s') : TrackInv host s' := by
  cases e with
  | round a ok final =>
      dsimp only [track] at hs
      dsimp only [failsRouted] at hc
      split at hs
      next w hw =>
        cases hs
        rw [hw] at hc
        exact h.round hw a ok final hc
      next => exact nomatch hs
  | resume input =>
      dsimp only [track] at hs
      split at hs
      next visits snapshot hp =>
        cases hs
        have hnone := h.running fun v hv => nomatch hp.symm.trans hv
        refine ⟨h.routed, fun c hc => ?_⟩
        exact nomatch hnone.symm.trans hc
      next => exact nomatch hs
  | fail =>
      dsimp only [track] at hs
      split at hs
      next w hp =>
        cases hs
        have hnone := h.running fun v hv => nomatch hp.symm.trans hv
        refine ⟨h.routed, fun c hc => ?_⟩
        exact nomatch hnone.symm.trans hc
      next => exact nomatch hs

/-- **A ROUTED FAILURE IS LIFTED FROM ANOTHER FLOW ONLY.**  Let every failure of a run come from a node
    that has an error route in its flow.  When the run completes, nothing is lifted into its output
    exactly when each failure that is still recorded and was produced in another flow has the id of a
    node with an error route in the flow that the run completes in, or the reply has the fields
    already. -/
theorem routed_failure_unlifted_iff (host : Host) (flowId nodeId : String) (entry : Json) {s : Tracked}
    (h : Reach (track host) (fun s e => failsRouted host s e = true) (.start flowId nodeId entry) s)
    {c : Completion} (hc : s.completed = some c) :
    Unlifted c ↔
      (∀ id r, s.outputs.nodes.get? id = some r → r.ok = false → r.flowId ≠ c.flowId →
        errorRouted host c.flowId id = true) ∨ carriesError c.final = true := by
  have hinv : TrackInv host s := by
    refine Reach.inv ?_ (fun _ _ _ hi hcond hstep => hi.step hcond hstep) h
    exact ⟨fun _ _ hr => (nomatch hr), fun _ hc => (nomatch hc)⟩
  obtain ⟨-, hout⟩ := hinv.lifted c hc
  obtain ⟨cflow, final, output⟩ := c
  dsimp only at hout ⊢
  subst hout
  rw [unlifted_iff, firstUnhandledFailure_eq_none_iff]
  refine or_congr_left ⟨fun hall id r hr hok _ => hall id r hr hok, fun hother id r hr hok => ?_⟩
  -- A failure of the flow that the run completes in has its route there.
  by_cases hflow : r.flowId = cflow
  · rw [← hflow]
    exact hinv.routed id r hr hok
  · exact hother id r hr hok hflow

/-- A call whose failure goes to `sorted`, in the same flow, or `leave`, which jumps to another. -/
def callHost (handler : String) : Host :=
  { bareHost.withConditions textOps with
    flows := fun id =>
      if id = "main" then
        some ⟨some "call", [
          ("call", ⟨.other, .null,
            .custom (.arr [.obj [("condition", .str "event == \"on_error\""), ("to", .str handler)]])⟩),
          ("sorted", ⟨.other, .null, .ends⟩),
          ("leave", ⟨.other, .null, .ends⟩)]⟩
      else if id = "other" then some ⟨some "bye", [("bye", ⟨.other, .null, .ends⟩)]⟩
      else none }

/-- A node that hands back an empty output. -/
def handsBack (control : Drive.NodeControl) : Answer where
  payload := .null
  outcome := .ok ⟨⟨.null, .null⟩, control⟩
  agent := .error "no agent"
  handler := none
  token := Vector.replicate 32 0
  nonce := Vector.replicate 16 0
  scope := ⟨.null, ""⟩

/-- The failure of a call that is sorted out in its own flow. -/
theorem routed_failure_unlifted_iff_sorted :
    ∃ s c, Reach (track (callHost "sorted")) (fun s e => failsRouted (callHost "sorted") s e = true)
        (.start "main" "call" .null) s ∧
      s.completed = some c ∧ (s.outputs.nodes.get? "call").any (!·.ok) = true ∧ Unlifted c := by
  have hrun : ∃ s, Reach (track (callHost "sorted"))
        (fun s e => failsRouted (callHost "sorted") s e = true) (.start "main" "call" .null) s ∧
      (s.completed.any (·.flowId == "main") && (s.outputs.nodes.get? "call").any (!·.ok) &&
        s.outputs.nodes.entries.all fun e => e.2.flowId == "main") = true :=
    Reach.of_test
      [.round (handsBack .continues) false .null, .round (handsBack .continues) true .null]
      (by decide +kernel)
  obtain ⟨s, hs, htest⟩ := hrun
  obtain ⟨hboth, hall⟩ := Bool.and_eq_true_iff.mp htest
  obtain ⟨hc, hfail⟩ := Bool.and_eq_true_iff.mp hboth
  obtain ⟨c, hc, hflow⟩ := (Option.any_eq_true _ _).mp hc
  refine ⟨s, c, hs, hc, hfail, ?_⟩
  rw [routed_failure_unlifted_iff (callHost "sorted") "main" "call" .null hs hc]
  refine .inl fun id r hr _ hne => absurd ?_ hne
  have hmem := (AssocMap.get?_eq_some_iff _ _ _).mp hr
  rw [eq_of_beq (List.all_eq_true.mp hall _ hmem), eq_of_beq hflow]

/-- Its error route leads to a jump, and the failure is in the reply of the other flow. -/
theorem routed_failure_lifted_after_jump :
    ∃ s c, Reach (track (callHost "leave")) (fun s e => failsRouted (callHost "leave") s e = true)
        (.start "main" "call" .null) s ∧
      s.completed = some c ∧ metaField c.final "node_id" = none ∧
      metaField c.output "node_id" = some (.str "call") := by
  have hrun : ∃ s, Reach (track (callHost "leave"))
        (fun s e => failsRouted (callHost "leave") s e = true) (.start "main" "call" .null) s ∧
      (s.completed.any fun c => (metaField c.final "node_id").isNone &&
        ((metaField c.output "node_id").bind Json.asStr?) == some "call") = true :=
    Reach.of_test
      [.round (handsBack .continues) false .null,
        .round (handsBack (.jump ⟨"other", none, none⟩)) true .null,
        .round (handsBack .continues) true .null]
      (by decide +kernel)
  obtain ⟨s, hs, htest⟩ := hrun
  obtain ⟨c, hc, htest⟩ := (Option.any_eq_true _ _).mp htest
  obtain ⟨hfinal, hout⟩ := Bool.and_eq_true_iff.mp htest
  refine ⟨s, c, hs, hc, Option.isNone_iff_eq_none.mp hfinal, ?_⟩
  obtain ⟨v, hv, htext⟩ := Option.bind_eq_some_iff.mp (eq_of_beq hout)
  cases v with
  | str t =>
      cases htext
      exact hv
  | null => exact nomatch htext
  | bool b => exact nomatch htext
  | num t => exact nomatch htext
  | arr items => exact nomatch htext
  | obj fields => exact nomatch htext

end Greentic.FlowWalk
