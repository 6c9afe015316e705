import GreenticRunner.ErrorRoutes

/-! # What a completed run replies

    An `emit.*` node pushes its payload to the egress of the turn AND hands the payload back, so the
    output of a terminal one reaches `finalize_reply` twice.  It is recognised by its value, not by its
    node: the terminal output is left out where it merely repeats the payload that was emitted last.

    * `deliver_egress` — the egress is what the emit nodes of the turn handed back, in order;
    * `reply_delivers_once` — the reply of every run that completes at a node. -/

namespace Greentic

/-! ## Equality of values -/

/-- The two texts of a floating-point zero, which are equal as numbers. -/
def Json.isZero (text : String) : Bool := text == "0.0" || text == "-0.0"

mutual

/-- `PartialEq` of `Value`. -/
def Json.same : Json → Json → Bool
  | .null, .null => true
  | .bool a, .bool b => a == b
  | .num a, .num b => a == b || (Json.isZero a && Json.isZero b)
  | .str a, .str b => a == b
  | .arr a, .arr b => sameItems a b
  | .obj a, .obj b => sameFields a b
  | _, _ => false

/-- The items of two arrays. -/
def Json.sameItems : List Json → List Json → Bool
  | [], [] => true
  | a :: as, b :: bs => Json.same a b && sameItems as bs
  | _, _ => false

/-- The fields of two objects. -/
def Json.sameFields : List (String × Json) → List (String × Json) → Bool
  | [], [] => true
  | (k, a) :: as, (j, b) :: bs => k == j && Json.same a b && sameFields as bs
  | _, _ => false

end

mutual

theorem Json.same_self : ∀ v : Json, v.same v = true
  | .null => rfl
  | .bool b => beq_self_eq_true b
  | .num t => by rw [same, beq_self_eq_true, Bool.true_or]
  | .str t => beq_self_eq_true t
  | .arr items => sameItems_self items
  | .obj fields => sameFields_self fields

theorem Json.sameItems_self : ∀ items : List Json, sameItems items items = true
  | [] => rfl
  | v :: rest => by rw [sameItems, same_self v, sameItems_self rest]; rfl

theorem Json.sameFields_self : ∀ fields : List (String × Json), sameFields fields fields = true
  | [] => rfl
  | (k, v) :: rest => by rw [sameFields, beq_self_eq_true, same_self v, sameFields_self rest]; rfl

end

namespace FlowWalk

open Engine Transition

/-! ## The reply -/

/-- What the terminal output adds to what was emitted. -/
def followUp (emitted : List Json) : Json → List Json
  | .null => []
  | .arr items => items
  | v => if emitted.getLast?.any (·.same v) then [] else [v]

/-- `finalize_reply`. -/
def finalizeReply (egress : List Json) (finalPayload : Option Json) : Json :=
  if egress.isEmpty then finalPayload.getD .null
  else .arr (egress ++ (finalPayload.map (followUp egress)).getD [])

/-! ## Runs -/

/-- A run with the egress of its turn, and its reply once it has completed. -/
structure Delivery where
  progress : Progress
  egress : List Json
  reply : Option Json

/-- What happens next: a round, with the response of a node that responds; the resume of a park; a
    failure beside the nodes. -/
inductive DeliveryEvent where
  | round (a : Answer) (response : Json)
  | resume (input : Json)
  | fail

variable (host : Host) (isEmit : String → String → Bool)

/-- Whether a node is a `BuiltinEmit`. -/
def emits (flowId nodeId : String) : Bool :=
  (host.node? flowId nodeId).any fun node => node.kind = .other && isEmit flowId nodeId

/-- The answer of a node: one that emits hands its payload back. -/
def emitAnswer (w : Walk) (a : Answer) : Answer :=
  if emits host isEmit w.flowId w.nodeId then { a with outcome := .ok (.complete a.payload) } else a

/-- `push_egress`, of a node that emits. -/
def pushEgress (egress : List Json) (w : Walk) (a : Answer) : List Json :=
  if emits host isEmit w.flowId w.nodeId then egress ++ [a.payload] else egress

/-- The reply of a turn that completes with its last visit: at a node, or by a response. -/
def completedReply (egress : List Json) (response : Json) (visits : List VisitRecord) : Option Json :=
  visits.getLast?.map fun last =>
    match last.control with
    | .respond => finalizeReply (egress ++ [response]) none
    | _ => finalizeReply egress (some last.output)

/-- One round of a run that keeps its egress. -/
def deliverRound (s : Delivery) (w : Walk) (a : Answer) (response : Json) : Delivery :=
  let egress := pushEgress host isEmit s.egress w a
  let progress := visit host w (emitAnswer host isEmit w a)
  match progress with
  | .completed visits => ⟨progress, egress, completedReply egress response visits⟩
  | _ => ⟨progress, egress, none⟩

/-- The step of a run.  A snapshot carries no egress. -/
def deliver (s : Delivery) : DeliveryEvent → Option Delivery
  | .round a response =>
      match s.progress with
      | .walking w => some (deliverRound host isEmit s w a response)
      | _ => none
  | .resume input =>
      match s.progress with
      | .parked _ snapshot => some ⟨.walking (resume snapshot input), [], none⟩
      | _ => none
  | .fail =>
      match s.progress with
      | .walking w => some ⟨.failed w.visits, s.egress, none⟩
      | _ => none

/-- A run begins. -/
def Delivery.start (flowId nodeId : String) (entry : Json) : Delivery :=
  ⟨.walking (execute flowId nodeId entry), [], none⟩

/-- What the emit nodes of a turn handed back, in the order of the visits. -/
def emittedOf (visits : List VisitRecord) : List Json :=
  (visits.filter fun r => emits host isEmit r.flowId r.nodeId).map (·.returned)

/-! ## The egress of a turn -/

variable {host isEmit}

theorem emittedOf_snoc (visits : List VisitRecord) (r : VisitRecord) :
    emittedOf host isEmit (visits ++ [r]) = emittedOf host isEmit visits ++
      if emits host isEmit r.flowId r.nodeId then [r.returned] else [] := by
  rw [emittedOf, List.filter_append, List.map_append]
  refine congrArg (_ ++ ·) ?_
  cases hemits : emits host isEmit r.flowId r.nodeId <;> simp [hemits]

/-- A node that emits hands back what it was given. -/
theorem dispatch_emit {w : Walk} {a : Answer} {node : HostNode} {outcome : DispatchOutcome}
    {s : ExecutionState} (hnode : host.node? w.flowId w.nodeId = some node)
    (hemits : emits host isEmit w.flowId w.nodeId = true)
    (hd : dispatchNode host w.flowId w.nodeId node.kind w.state (emitAnswer host isEmit w a) =
      (.ok outcome, s)) : outcome.output.payload = a.payload := by
  have hkind : node.kind = .other := by
    rw [emits, hnode, Option.any_some] at hemits
    exact of_decide_eq_true (Bool.and_eq_true_iff.mp hemits).1
  rw [hkind, emitAnswer, if_pos hemits] at hd
  cases hd
  rfl

/-- **ONE ROUND** adds its visit, and to the egress what the node emitted. -/
theorem visit_emitted (w : Walk) (a : Answer) :
    visit host w (emitAnswer host isEmit w a) = .failed w.visits ∨
    ∃ r, (visit host w (emitAnswer host isEmit w a)).visits = w.visits ++ [r] ∧
      pushEgress host isEmit (emittedOf host isEmit w.visits) w a =
        emittedOf host isEmit (w.visits ++ [r]) := by
  rcases visit_cases host w (emitAnswer host isEmit w a) with
    hf | ⟨node, outcome, s, owned, output, s', hnode, hd, -, hf⟩
  · exact .inl hf
  · obtain ⟨routed, hr, -⟩ :=
      follow_visits host w node (emitAnswer host isEmit w a) outcome owned output s'
    refine .inr ⟨_, hf ▸ hr, ?_⟩
    rw [emittedOf_snoc, pushEgress]
    by_cases hemits : emits host isEmit w.flowId w.nodeId = true
    · rw [if_pos hemits, if_pos hemits, dispatch_emit hnode hemits hd]
    · rw [if_neg hemits, if_neg hemits, List.append_nil]

/-- What holds of a run: the egress of a turn under way is what its emit nodes handed back, and the
    reply of a completed one is made of that and of its last output. -/
structure DeliveryInv (host : Host) (isEmit : String → String → Bool) (s : Delivery) : Prop where
  egress : ∀ w, s.progress = .walking w → s.egress = emittedOf host isEmit w.visits
  reply : ∀ visits last, s.progress = .completed visits → visits.getLast? = some last →
    last.control ≠ .respond →
      s.reply = some (finalizeReply (emittedOf host isEmit visits) (some last.output))

theorem DeliveryInv.round {s : Delivery} (h : DeliveryInv host isEmit s) {w : Walk}
    (hw : s.progress = .walking w) (a : Answer) (response : Json) :
    DeliveryInv host isEmit (deliverRound host isEmit s w a response) := by
  have hegress := h.egress w hw
  unfold deliverRound
  rw [hegress]
  rcases visit_emitted w a with hf | ⟨r, hr, hpush⟩
  · rw [hf]
    constructor
    · intro w' hw'
      exact nomatch hw'
    · intro visits last hp
      exact nomatch hp
  · rw [hpush]
    revert hr
    cases visit host w (emitAnswer host isEmit w a) with
    | walking w' =>
        intro hr
        constructor
        · intro w'' hw''
          cases hw''
          exact congrArg (emittedOf host isEmit) hr.symm
        · intro visits last hp
          exact nomatch hp
    | parked visits snapshot =>
        intro _
        constructor
        · intro w'' hw''
          exact nomatch hw''
        · intro visits last hp
          exact nomatch hp
    | failed visits =>
        intro _
        constructor
        · intro w'' hw''
          exact nomatch hw''
        · intro visits last hp
          exact nomatch hp
    | completed visits =>
        intro hr
        change visits = _ at hr
        subst hr
        constructor
        · intro w'' hw''
          exact nomatch hw''
        · intro visits last hp hlast hend
          cases hp
          show completedReply _ response _ = _
          rw [completedReply, hlast, Option.map_some]
          cases hcontrol : last.control with
          | respond => exact absurd hcontrol hend
          | continues => rfl
          | wait => rfl
          | loopHere => rfl
          | awaitHere => rfl
          | jump j => rfl

theorem DeliveryInv.step {s s' : Delivery} {e : DeliveryEvent} (h : DeliveryInv host isEmit s)
    (hs : deliver host isEmit s e = some s') : DeliveryInv host isEmit s' := by
  cases e with
  | round a response =>
      dsimp only [deliver] at hs
      split at hs
      next w hw =>
        cases hs
        exact h.round hw a response
      next => exact nomatch hs
  | resume input =>
      dsimp only [deliver] at hs
      split at hs
      next visits snapshot hp =>
        cases hs
        constructor
        · intro w hw
          cases hw
          rfl
        · intro visits last hp
          exact nomatch hp
      next => exact nomatch hs
  | fail =>
      dsimp only [deliver] at hs
      split at hs
      next w hp =>
        cases hs
        constructor
        · intro w hw
          exact nomatch hw
        · intro visits last hp
          exact nomatch hp
      next => exact nomatch hs

/-- **THE REPLY OF EVERY RUN**, in terms of its visits. -/
theorem deliver_egress {flowId nodeId : String} {entry : Json} {s : Delivery}
    (h : Reach (deliver host isEmit) Any (.start flowId nodeId entry) s) :
    DeliveryInv host isEmit s := by
  refine Reach.inv ?_ (fun _ _ _ hi _ hstep => hi.step hstep) h
  constructor
  · intro w hw
    cases hw
    rfl
  · intro visits last hp
    exact nomatch hp

/-- A terminal node that emits: its payload is the last one emitted, and is not added again. -/
theorem finalizeReply_emitted {emitted : List Json} {v : Json} (hlast : emitted.getLast? = some v)
    (hlist : ∀ items, v ≠ .arr items) : finalizeReply emitted (some v) = .arr emitted := by
  have hne : emitted.isEmpty = false := by
    cases emitted with
    | nil => exact nomatch hlast
    | cons x xs => rfl
  have hnothing : followUp emitted v = [] := by
    have hrepeat : emitted.getLast?.any (·.same v) = true := by
      rw [hlast, Option.any_some, Json.same_self]
    cases v with
    | null => rfl
    | arr items => exact absurd rfl (hlist items)
    | bool b => exact if_pos hrepeat
    | num t => exact if_pos hrepeat
    | str t => exact if_pos hrepeat
    | obj fields => exact if_pos hrepeat
  rw [finalizeReply, hne, if_neg (by decide), Option.map_some, Option.getD_some, hnothing,
    List.append_nil]

/-- **EVERY EMITTED MESSAGE IS DELIVERED ONCE.**  A run that completes at a node replies with its last
    output alone if its turn emitted nothing.  Otherwise it replies with what was emitted, in order,
    and after a node that does not emit with that node's output (its items if it is a list) unless it
    is null or repeats the last message; the payload of a terminal emit node is there once. -/
theorem reply_delivers_once {flowId nodeId : String} {entry : Json} {s : Delivery}
    (h : Reach (deliver host isEmit) Any (.start flowId nodeId entry) s) {visits : List VisitRecord}
    {last : VisitRecord} (hp : s.progress = .completed visits) (hlast : visits.getLast? = some last)
    (hend : last.control ≠ .respond) :
    (emittedOf host isEmit visits = [] → s.reply = some last.output) ∧
    (emittedOf host isEmit visits ≠ [] → emits host isEmit last.flowId last.nodeId = false →
      s.reply = some (.arr (emittedOf host isEmit visits ++
        followUp (emittedOf host isEmit visits) last.output))) ∧
    (emits host isEmit last.flowId last.nodeId = true → last.output = last.returned →
      (∀ items, last.returned ≠ .arr items) →
        (emittedOf host isEmit visits).getLast? = some last.returned ∧
        s.reply = some (.arr (emittedOf host isEmit visits))) := by
  rw [(deliver_egress h).reply visits last hp hlast hend]
  refine ⟨?_, ?_, ?_⟩
  · intro hnone
    rw [hnone]
    rfl
  · intro hsome _
    have hne : (emittedOf host isEmit visits).isEmpty = false := by
      rw [List.isEmpty_eq_false_iff]
      exact hsome
    rw [finalizeReply, hne, if_neg (by decide)]
    rfl
  · intro hemits hsame hlist
    obtain ⟨front, rfl⟩ := List.getLast?_eq_some_iff.mp hlast
    have hend : (emittedOf host isEmit (front ++ [last])).getLast? = some last.returned := by
      rw [emittedOf_snoc, if_pos hemits]
      exact List.getLast?_concat
    refine ⟨hend, ?_⟩
    rw [hsame, finalizeReply_emitted hend hlist]

/-- A node that says something, and one after it. -/
def sayHost (next : Routing) : Host :=
  { bareHost with
    flows := fun id =>
      if id = "main" then
        some ⟨some "say", [("say", ⟨.other, .null, next⟩), ("bye", ⟨.other, .null, .ends⟩)]⟩
      else none }

/-- The first one emits. -/
def sayEmits (_ nodeId : String) : Bool := nodeId == "say"

/-- A node is given a text, and hands it back. -/
def givenText (text : String) : Answer where
  payload := .str text
  outcome := .ok (.complete (.str text))
  agent := .error "no agent"
  handler := none
  token := Vector.replicate 32 0
  nonce := Vector.replicate 16 0
  scope := ⟨.null, ""⟩

/-- A terminal emit node says its text once, and a terminal node behind it adds its own. -/
theorem reply_delivers_once_said :
    (∃ s visits last, Reach (deliver (sayHost .ends) sayEmits) Any (.start "main" "say" .null) s ∧
      s.progress = .completed visits ∧ visits.getLast? = some last ∧ last.control ≠ .respond ∧
      emits (sayHost .ends) sayEmits last.flowId last.nodeId = true ∧
      s.reply = some (.arr (emittedOf (sayHost .ends) sayEmits visits))) ∧
    ∃ s visits last, Reach (deliver (sayHost (.next "bye")) sayEmits) Any (.start "main" "say" .null) s ∧
      s.progress = .completed visits ∧ visits.getLast? = some last ∧ last.control ≠ .respond ∧
      emittedOf (sayHost (.next "bye")) sayEmits visits = [.str "hi"] ∧
      s.reply = some (.arr [.str "hi", .str "bye"]) := by
  constructor
  · have hrun : Reach (deliver (sayHost .ends) sayEmits) Any (.start "main" "say" .null) _ :=
      Reach.start.next (l := .round (givenText "hi") .null) rfl trivial
    have honce := (reply_delivers_once hrun rfl rfl nofun).2.2 rfl rfl nofun
    exact ⟨_, _, _, hrun, rfl, rfl, nofun, rfl, honce.2⟩
  · have hsaid : Reach (deliver (sayHost (.next "bye")) sayEmits) Any (.start "main" "say" .null) _ :=
      Reach.start.next (l := .round (givenText "hi") .null) rfl trivial
    have hrun : Reach (deliver (sayHost (.next "bye")) sayEmits) Any (.start "main" "say" .null) _ :=
      hsaid.next (l := .round (givenText "bye") .null) rfl trivial
    have honce := (reply_delivers_once hrun rfl rfl nofun).2.1 (by decide) rfl
    exact ⟨_, _, _, hrun, rfl, rfl, nofun, rfl, honce⟩

/-- The reply that each message once, and the output of any other terminal node, make. -/
def onceEach (emitted : List Json) (terminalEmits : Bool) (output : Json) : Json :=
  if emitted.isEmpty then output
  else .arr (emitted ++
    if terminalEmits then []
    else match output with
      | .null => []
      | .arr items => items
      | v => [v])

/-- A terminal node that hands back what was said last adds nothing, though it emits nothing. -/
theorem repeated_output_left_out :
    ¬ ∀ host isEmit flowId nodeId entry s visits last,
      Reach (deliver host isEmit) Any (.start flowId nodeId entry) s →
      s.progress = .completed visits → visits.getLast? = some last → last.control ≠ .respond →
        s.reply = some (onceEach (emittedOf host isEmit visits)
          (emits host isEmit last.flowId last.nodeId) last.output) := by
  intro h
  have hfirst : Reach (deliver (sayHost (.next "bye")) sayEmits) Any (.start "main" "say" .null) _ :=
    Reach.start.next (l := .round (givenText "hi") .null) rfl trivial
  have hrun : Reach (deliver (sayHost (.next "bye")) sayEmits) Any (.start "main" "say" .null) _ :=
    hfirst.next (l := .round (givenText "hi") .null) rfl trivial
  have hclaimed := h _ _ _ _ _ _ _ _ hrun rfl rfl nofun
  have hreply : some (Json.arr [.str "hi"]) = some (Json.arr [.str "hi", .str "hi"]) := hclaimed
  cases hreply

end FlowWalk

end Greentic
