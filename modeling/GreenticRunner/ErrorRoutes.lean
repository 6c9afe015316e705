import GreenticRunner.FlowWalk
import GreenticRunner.Markers

/-! # Error routes

    A node whose custom routing names a port of the error family surfaces a failure as an output, which
    its routes then have to lead to that port.  Whether it names one is DETECTED by a scan for the port;
    where a failure goes is decided by evaluating the conditions, under an `event` that is picked among
    the ports that the conditions compare it with.

    * `splitAtFirstOperator_event` — both read a condition on the event alike;
    * `error_route_taken` — a failure follows its route, and a success does not. -/

namespace Greentic.FlowWalk

open Engine Markers

open Drive (NodeOutput CustomRoutingDecision)

/-! ## Ports -/

/-- `SUCCESS_EVENT_PORTS`. -/
def successEventPorts : List String := ["on_success", "on_complete", "on_submit"]

/-- `ERROR_EVENT_PORTS`. -/
def errorEventPorts : List String := ["on_error", "on_cancel", "on_timeout"]

/-- The condition of a route. -/
def conditionOf (route : Json) : Option String := (route.get? "condition").bind Json.asStr?

/-- A route that the scan takes for an error route. -/
def namesErrorPort (route : Json) : Bool :=
  ((route.get? "event").bind Json.asStr?).any (errorEventPorts.contains ·) ||
    (conditionOf route).any fun c => errorEventPorts.any fun port => decide (port.toList <:+: c.toList)

/-- `node_has_error_route`. -/
def nodeHasErrorRoute : Routing → Bool
  | .custom (.arr routes) => routes.any namesErrorPort
  | _ => false

/-- `str::trim_matches('"')`. -/
def trimQuotes (s : List Char) : List Char :=
  ((s.dropWhile (· == '"')).reverse.dropWhile (· == '"')).reverse

/-- `condition_event_eq`. -/
def conditionEventEq (condition : String) : Option String :=
  match splitOnce "==".toList condition.toList with
  | some (path, value) =>
      if Aw.trim path = "event".toList then some (String.ofList (trimQuotes (Aw.trim value))) else none
  | none => none

/-- `default_event`. -/
def defaultEvent (routes : List Json) (ports : List String) (fallback : String) : String :=
  let referenced := (routes.filterMap conditionOf).filterMap conditionEventEq
  (ports.find? (referenced.contains ·)).getD fallback

/-- `default_success_event`. -/
def defaultSuccessEvent (routes : List Json) : String :=
  defaultEvent routes successEventPorts "on_success"

/-- `default_error_event`. -/
def defaultErrorEvent (routes : List Json) : String := defaultEvent routes errorEventPorts "on_error"

/-- The `event` of a routing context: the outcome of the node, or else a port of its routes. -/
def eventOf (routes : List Json) (ok : Bool) (output : NodeOutput) : String :=
  ((output.meta.get? "outcome").bind Json.asStr?).getD
    (if ok then defaultSuccessEvent routes else defaultErrorEvent routes)

/-! ## Conditions -/

/-- `CONDITION_OPERATORS`. -/
def conditionOperators : List String := ["==", "!=", ">=", "<=", ">", "<", " contains "]

/-- The loop of `split_at_first_operator`: what was read, and whether it is in quotes. -/
def splitFrom (before : List Char) (inQuotes : Bool) :
    List Char → Option (String × List Char × List Char)
  | [] => none
  | c :: rest =>
      if c = '"' then splitFrom (before ++ [c]) (!inQuotes) rest
      else if inQuotes then splitFrom (before ++ [c]) inQuotes rest
      else
        match conditionOperators.find? fun op => decide (op.toList <+: c :: rest) with
        | some op => some (op, Aw.trim before, trimQuotes (Aw.trim ((c :: rest).drop op.length)))
        | none => splitFrom (before ++ [c]) inQuotes rest

/-- `split_at_first_operator`. -/
def splitAtFirstOperator (condition : String) : Option (String × List Char × List Char) :=
  splitFrom [] false condition.toList

/-- `resolve_dotted_path`. -/
def resolveDottedPath (ctx : Json) (path : List Char) : Option String :=
  ((path.splitOn '.').foldlM (fun (v : Json) part => v.get? (String.ofList part)) ctx).map dottedText

/-- What is given for a condition: the comparison of two texts as floating-point numbers, by operator,
    and `str::to_lowercase`. -/
structure ConditionOps where
  numeric : String → String → String → Bool
  lowercase : String → String

/-- `evaluate_simple_condition`. -/
def evaluateSimpleCondition (ops : ConditionOps) (condition : String) (ctx : Json) : Bool :=
  match splitAtFirstOperator condition with
  | none => false
  | some (op, path, expected) =>
      let actual := resolveDottedPath ctx path
      let expected := String.ofList expected
      if op = "==" then actual.any (eqIgnoreAsciiCase · expected)
      else if op = "!=" then !actual.any (eqIgnoreAsciiCase · expected)
      else if op = " contains " then
        actual.any fun a => decide ((ops.lowercase expected).toList <:+: (ops.lowercase a).toList)
      else actual.any fun a => ops.numeric op a expected

/-! ## Conditions on the event -/

/-- Trimming takes only white space away. -/
theorem mem_trim {s : List Char} {c : Char} (hc : c ∈ s) (hw : Aw.isWhitespace c = false) :
    c ∈ Aw.trim s := by
  have hkeep : ∀ l : List Char, c ∈ l → c ∈ l.dropWhile Aw.isWhitespace := by
    intro l hl
    induction l with
    | nil => exact hl
    | cons d l ih =>
        rw [List.dropWhile_cons]
        split
        next hd =>
          rcases List.mem_cons.mp hl with rfl | hl
          · rw [hw] at hd
            exact nomatch hd
          · exact ih hl
        next => exact hl
  rw [Aw.trim, List.mem_reverse]
  exact hkeep _ (List.mem_reverse.mpr (hkeep _ hc))

/-- A character that starts no operator and no quote, and does not go on with one. -/
def isPlain (c : Char) : Bool := !("\"=!<>c".toList.contains c)

/-- The path `event` is made of plain characters. -/
theorem plain_of_trim_event {path : List Char} (h : Aw.trim path = "event".toList) :
    ∀ c ∈ path, isPlain c = true := by
  intro c hc
  by_cases hw : Aw.isWhitespace c = true
  · -- None of those characters is white space.
    have hall : ("\"=!<>c".toList.all fun d => !Aw.isWhitespace d) = true := by decide +kernel
    have hcases : ∀ d ∈ "\"=!<>c".toList, Aw.isWhitespace d = false := by
      intro d hd
      rw [← Bool.not_eq_true']
      exact List.all_eq_true.mp hall d hd
    unfold isPlain
    rw [Bool.not_eq_true']
    by_contra hne
    rw [Bool.not_eq_false, List.contains_iff_mem] at hne
    rw [hcases c hne] at hw
    exact nomatch hw
  · have hmem := mem_trim hc (Bool.eq_false_iff.mpr hw)
    rw [h] at hmem
    have hall : "event".toList.all isPlain = true := by decide +kernel
    exact List.all_eq_true.mp hall c hmem

/-- No operator begins with a plain character. -/
theorem no_operator {c d : Char} {rest : List Char} (hc : isPlain c = true) (hd : d ≠ 'c') :
    (conditionOperators.find? fun op => decide (op.toList <+: c :: d :: rest)) = none := by
  rw [List.find?_eq_none]
  intro op hop
  have hne : ∀ x ∈ "\"=!<>c".toList, c ≠ x := by
    rintro x hx rfl
    unfold isPlain at hc
    rw [Bool.not_eq_true', List.contains_iff_mem.mpr hx] at hc
    exact nomatch hc
  simp only [conditionOperators, List.mem_cons, List.not_mem_nil, or_false] at hop
  rw [decide_eq_true_eq]
  rcases hop with rfl | rfl | rfl | rfl | rfl | rfl | rfl
  · exact fun h => hne '=' (by decide) (List.cons_prefix_cons.mp h).1.symm
  · exact fun h => hne '!' (by decide) (List.cons_prefix_cons.mp h).1.symm
  · exact fun h => hne '>' (by decide) (List.cons_prefix_cons.mp h).1.symm
  · exact fun h => hne '<' (by decide) (List.cons_prefix_cons.mp h).1.symm
  · exact fun h => hne '>' (by decide) (List.cons_prefix_cons.mp h).1.symm
  · exact fun h => hne '<' (by decide) (List.cons_prefix_cons.mp h).1.symm
  · exact fun h => hd (List.cons_prefix_cons.mp (List.cons_prefix_cons.mp h).2).1.symm

/-- Plain characters in front of `==` are read into the path. -/
theorem splitFrom_plain (path value before : List Char) (h : ∀ c ∈ path, isPlain c = true) :
    splitFrom before false (path ++ '=' :: '=' :: value)
      = some ("==", Aw.trim (before ++ path), trimQuotes (Aw.trim value)) := by
  induction path generalizing before with
  | nil =>
      rw [List.nil_append, List.append_nil]
      rfl
  | cons c path ih =>
      have hc := h c List.mem_cons_self
      have hquote : c ≠ '"' := by
        rintro rfl
        exact absurd hc (by decide)
      obtain ⟨d, rest, hrest, hd⟩ : ∃ d rest, path ++ '=' :: '=' :: value = d :: rest ∧ d ≠ 'c' := by
        cases path with
        | nil => exact ⟨'=', _, rfl, by decide⟩
        | cons d path =>
            refine ⟨d, _, rfl, ?_⟩
            rintro rfl
            exact absurd (h 'c' (by simp)) (by decide)
      have hnone : (conditionOperators.find? fun op => decide (op.toList <+: c :: d :: rest)) = none :=
        no_operator hc hd
      rw [← hrest] at hnone
      rw [List.cons_append, splitFrom, if_neg hquote, if_neg (by decide), hnone]
      show splitFrom (before ++ [c]) false (path ++ '=' :: '=' :: value) = _
      rw [ih (before ++ [c]) fun x hx => h x (List.mem_cons_of_mem _ hx), List.append_assoc]
      rfl

/-- **A condition that compares the event with a value is split there.** -/
theorem splitAtFirstOperator_event {condition value : String}
    (h : conditionEventEq condition = some value) :
    splitAtFirstOperator condition = some ("==", "event".toList, value.toList) := by
  unfold conditionEventEq at h
  split at h
  next path rest hsplit =>
    split at h
    next htrim =>
      cases h
      have hsame : path ++ "==".toList ++ rest = path ++ '=' :: '=' :: rest := by
        rw [List.append_assoc]
        rfl
      have hvalue : (String.ofList (trimQuotes (Aw.trim rest))).toList = trimQuotes (Aw.trim rest) :=
        String.toList_ofList
      rw [splitAtFirstOperator, splitOnce_eq hsplit, hsame,
        splitFrom_plain path rest [] (plain_of_trim_event htrim), List.nil_append, htrim, hvalue]
    next => exact nomatch h
  next => exact nomatch h

/-- The value of such a condition is a part of it. -/
theorem infix_of_conditionEventEq {condition value : String}
    (h : conditionEventEq condition = some value) : value.toList <:+: condition.toList := by
  have htrim : ∀ (p : Char → Bool) (l : List Char),
      ((l.dropWhile p).reverse.dropWhile p).reverse <:+: l := by
    intro p l
    have hend : ((l.dropWhile p).reverse.dropWhile p).reverse <+: l.dropWhile p := by
      rw [← List.reverse_suffix, List.reverse_reverse]
      exact List.dropWhile_suffix p
    exact hend.isInfix.trans (List.dropWhile_suffix p).isInfix
  unfold conditionEventEq at h
  split at h
  next path rest hsplit =>
    split at h
    next =>
      cases h
      rw [String.toList_ofList, splitOnce_eq hsplit]
      exact ((htrim _ _).trans (htrim _ _)).trans (List.suffix_append _ rest).isInfix
    next => exact nomatch h
  next => exact nomatch h

/-- Such a condition asks for the event of the context. -/
theorem evaluateSimpleCondition_event (ops : ConditionOps) {condition value event : String} {ctx : Json}
    (h : conditionEventEq condition = some value) (hctx : ctx.get? "event" = some (.str event)) :
    evaluateSimpleCondition ops condition ctx = eqIgnoreAsciiCase event value := by
  have hpath : resolveDottedPath ctx "event".toList = some event := by
    have hparts : "event".toList.splitOn '.' = ["event".toList] := by decide +kernel
    rw [resolveDottedPath, hparts]
    simp [hctx, dottedText]
  unfold evaluateSimpleCondition
  rw [splitAtFirstOperator_event h]
  simp only [hpath, String.ofList_toList, ↓reduceIte, Option.any_some]

/-! ## The port of a route -/

/-- The port that the condition of a route compares the event with. -/
def portOf (route : Json) : Option String := (conditionOf route).bind conditionEventEq

/-- Where a route leads, if that is the id of a node. -/
def leadsTo (host : Host) (route : Json) : Option String :=
  ((route.get? "to").bind Json.asStr?).filter host.isNodeId

/-- A route for a message that presses no button. -/
def onMessage (route : Json) : Bool := (route.get? "on_message").bind Json.asBool? = some true

/-- The scan finds the routes whose condition compares the event with an error port. -/
theorem nodeHasErrorRoute_of_port {routes : List Json} {r : Json} {port : String} (hr : r ∈ routes)
    (hport : portOf r = some port) (herr : port ∈ errorEventPorts) :
    nodeHasErrorRoute (.custom (.arr routes)) = true := by
  obtain ⟨condition, hcondition, heq⟩ := Option.bind_eq_some_iff.mp hport
  show routes.any namesErrorPort = true
  rw [List.any_eq_true]
  refine ⟨r, hr, ?_⟩
  have hscan : (errorEventPorts.any fun port => decide (port.toList <:+: condition.toList)) = true :=
    List.any_eq_true.mpr ⟨port, herr, decide_eq_true (infix_of_conditionEventEq heq)⟩
  rw [namesErrorPort, hcondition, Option.any_some, hscan, Bool.or_true]

theorem defaultEvent_mem (routes : List Json) {ports : List String} {fallback : String}
    (h : fallback ∈ ports) : defaultEvent routes ports fallback ∈ ports := by
  dsimp only [defaultEvent]
  cases hfind : ports.find? (((routes.filterMap conditionOf).filterMap conditionEventEq).contains ·) with
  | none => exact h
  | some port => exact List.mem_of_find?_eq_some hfind

/-- **Where the routes name a port of the family, the default event is the port of a route.** -/
theorem exists_port_defaultEvent {routes : List Json} {r : Json} {port fallback : String}
    {ports : List String} (hr : r ∈ routes) (hport : portOf r = some port) (hmem : port ∈ ports) :
    ∃ r' ∈ routes, portOf r' = some (defaultEvent routes ports fallback) := by
  have hreferenced : ∀ p : String, p ∈ (routes.filterMap conditionOf).filterMap conditionEventEq ↔
      ∃ r' ∈ routes, portOf r' = some p := by
    intro p
    rw [List.filterMap_filterMap, List.mem_filterMap]
    rfl
  dsimp only [defaultEvent]
  cases hfind : ports.find? (((routes.filterMap conditionOf).filterMap conditionEventEq).contains ·) with
  | none =>
      have hno := List.find?_eq_none.mp hfind port hmem
      rw [List.contains_iff_mem] at hno
      exact absurd ((hreferenced port).mpr ⟨r, hr, hport⟩) hno
  | some found =>
      have hfound := List.find?_some hfind
      rw [List.contains_iff_mem] at hfound
      exact (hreferenced found).mp hfound

/-! ## Decisions -/

section Decision

variable {host : Host} {ops : ConditionOps} {ctx : Json} {event : String} {resumedAt : Option String}
  {nodeId : String}

/-- A route on the event is taken under its own port, whatever the case of the letters. -/
theorem routeTarget_port {r : Json} {port : String}
    (hhost : host.evaluateSimpleCondition = evaluateSimpleCondition ops)
    (hctx : ctx.get? "event" = some (.str event)) (hport : portOf r = some port)
    (hmessage : onMessage r = false) :
    routeTarget host ctx resumedAt nodeId r
      = if eqIgnoreAsciiCase event port then leadsTo host r else none := by
  obtain ⟨condition, hcondition, heq⟩ := Option.bind_eq_some_iff.mp hport
  rw [conditionOf] at hcondition
  rw [onMessage, decide_eq_false_iff_not] at hmessage
  rw [routeTarget, if_neg hmessage, hcondition, hhost]
  show (if evaluateSimpleCondition ops condition ctx then leadsTo host r else none) = _
  rw [evaluateSimpleCondition_event ops heq hctx]

theorem evaluateCustomRouting_found {routes : List Json} {t : String}
    (h : routes.findSome? (routeTarget host ctx resumedAt nodeId) = some t) :
    evaluateCustomRouting host (.arr routes) ⟨ctx, resumedAt⟩ nodeId = .next t := by
  dsimp only [evaluateCustomRouting]
  rw [h]

/-- A decision for a node is the target of a route that is taken. -/
theorem exists_route_of_next {routes : List Json} {t : String}
    (h : evaluateCustomRouting host (.arr routes) ⟨ctx, resumedAt⟩ nodeId = .next t) :
    ∃ r ∈ routes, routeTarget host ctx resumedAt nodeId r = some t := by
  dsimp only [evaluateCustomRouting] at h
  split at h
  next target hfound =>
    cases h
    exact List.exists_of_findSome?_eq_some hfound
  next =>
    split at h
    · exact nomatch h
    · exact nomatch h

end Decision

/-- An engine that evaluates its conditions so. -/
def Host.withConditions (host : Host) (ops : ConditionOps) : Host :=
  { host with evaluateSimpleCondition := FlowWalk.evaluateSimpleCondition ops }

/-- What a node with these routes decides with. -/
def viewOf (routes : List Json) (s : ExecutionState) (nodes : Json) (ok : Bool) (output : NodeOutput) :
    RoutingView :=
  ⟨buildRoutingContext output s ⟨nodes, eventOf routes ok output⟩, s.resumedAt⟩

theorem viewOf_event (routes : List Json) (s : ExecutionState) (nodes : Json) (ok : Bool)
    (output : NodeOutput) :
    (viewOf routes s nodes ok output).context.get? "event" = some (.str (eventOf routes ok output)) :=
  Json.get?_setField_self _ _ _

/-- Without an outcome the event of a node is a port of the family of its success or failure, and no
    port of the other family is equal to it. -/
theorem event_family (routes : List Json) {output : NodeOutput}
    (hout : (output.meta.get? "outcome").bind Json.asStr? = none) (ok : Bool) :
    ∀ port ∈ (if ok then errorEventPorts else successEventPorts),
      eqIgnoreAsciiCase (eventOf routes ok output) port = false := by
  have hapart : ∀ a ∈ successEventPorts, ∀ b ∈ errorEventPorts,
      eqIgnoreAsciiCase a b = false ∧ eqIgnoreAsciiCase b a = false := by decide +kernel
  unfold eventOf
  rw [hout, Option.getD_none]
  intro port hport
  cases ok with
  | true => exact (hapart _ (defaultEvent_mem routes (by decide)) port hport).1
  | false => exact (hapart port hport _ (defaultEvent_mem routes (by decide))).2

/-- **A FAILURE FOLLOWS ITS ROUTE.**  Let a node emit no outcome of its own.  Where a condition compares
    the event with an error port, the node counts as one with an error route, and the event of a failure
    is the port of such a route; if that route leads somewhere, the run goes on, and goes there unless
    a route before it is taken.  Neither a success nor a failure takes a route on a port of the other
    family. -/
theorem error_route_taken (host : Host) (ops : ConditionOps) (routes : List Json) (s : ExecutionState)
    (nodes : Json) (nodeId : String) (output : NodeOutput)
    (hout : (output.meta.get? "outcome").bind Json.asStr? = none) :
    let engine := host.withConditions ops
    let decision := fun ok =>
      evaluateCustomRouting engine (.arr routes) (viewOf routes s nodes ok output) nodeId
    let taken := fun ok => routeTarget engine (viewOf routes s nodes ok output).context s.resumedAt nodeId
    ((∃ r ∈ routes, ∃ port ∈ errorEventPorts, portOf r = some port) →
      nodeHasErrorRoute (.custom (.arr routes)) = true ∧
      ∃ r ∈ routes, portOf r = some (eventOf routes false output)) ∧
    (∀ pre r post t, routes = pre ++ r :: post → portOf r = some (eventOf routes false output) →
      onMessage r = false → leadsTo engine r = some t →
        (∃ t', decision false = .next t') ∧
        ((∀ q ∈ pre, taken false q = none) → decision false = .next t)) ∧
    ∀ ok t, decision ok = .next t → ∃ r ∈ routes, taken ok r = some t ∧
      (onMessage r = false →
        ∀ port ∈ (if ok then errorEventPorts else successEventPorts), portOf r ≠ some port) := by
  intro engine decision taken
  have hevent : eventOf routes false output = defaultErrorEvent routes := by
    unfold eventOf
    rw [hout]
    rfl
  have hconditions : engine.evaluateSimpleCondition = evaluateSimpleCondition ops := rfl
  refine ⟨?_, ?_, ?_⟩
  · rintro ⟨r, hr, port, herr, hport⟩
    rw [hevent]
    exact ⟨nodeHasErrorRoute_of_port hr hport herr, exists_port_defaultEvent hr hport herr⟩
  · rintro pre r post t hroutes hport hmessage hleads
    have htaken : taken false r = some t := by
      have hself : eqIgnoreAsciiCase (eventOf routes false output) (eventOf routes false output) = true :=
        beq_self_eq_true _
      show routeTarget engine _ _ nodeId r = some t
      rw [routeTarget_port hconditions (viewOf_event routes s nodes false output) hport hmessage,
        if_pos hself, hleads]
    constructor
    · -- Some route is taken, so the decision is the target of the first one.
      have hsome : (routes.findSome? (taken false)).isSome := by
        rw [List.findSome?_isSome_iff]
        exact ⟨r, by simp [hroutes], by simp [htaken]⟩
      obtain ⟨t', ht'⟩ := Option.isSome_iff_exists.mp hsome
      exact ⟨t', evaluateCustomRouting_found ht'⟩
    · intro hpre
      have hfirst := List.findSome?_eq_some_iff.mpr ⟨pre, r, post, hroutes, htaken, hpre⟩
      exact evaluateCustomRouting_found hfirst
  · intro ok t hnext
    obtain ⟨r, hr, htaken⟩ := exists_route_of_next hnext
    refine ⟨r, hr, htaken, ?_⟩
    intro hmessage port hport hof
    have htarget : taken ok r
        = if eqIgnoreAsciiCase (eventOf routes ok output) port then leadsTo engine r else none :=
      routeTarget_port hconditions (viewOf_event routes s nodes ok output) hof hmessage
    rw [event_family routes hout ok port hport, if_neg (by decide)] at htarget
    exact nomatch htarget.symm.trans htaken

/-- An engine without flows, whose conditions compare no numbers. -/
def bareHost : Host where
  flows := fun _ => none
  mode := .nats
  ctx := ⟨"acme", "pack", "main", none, none⟩
  defaultEnv := "dev"
  sha256 := fun bytes => bytes
  requiresHuman := fun _ => false
  failureText := fun _ => ""
  isNodeId := fun id => id ≠ ""
  evaluateSimpleCondition := fun _ _ => false

/-- Operators for conditions that compare texts. -/
def textOps : ConditionOps := ⟨fun _ _ _ => false, String.toLower⟩

/-- A node that is asked again where its status says so, and else has an error route. -/
def retryRoutes : List Json :=
  [.obj [("condition", .str "status == \"retry\""), ("to", .str "again")],
    .obj [("condition", .str "event == \"on_error\""), ("to", .str "apology")]]

/-- Such a node fails. -/
theorem error_route_taken_retry :
    evaluateCustomRouting (bareHost.withConditions textOps) (.arr retryRoutes)
      (viewOf retryRoutes (.new .null) .null false ⟨.obj [("status", .str "down")], .null⟩) "call"
      = .next "apology" := by
  have htaken := (error_route_taken bareHost textOps retryRoutes (.new .null) .null "call"
    ⟨.obj [("status", .str "down")], .null⟩ rfl).2.1 (retryRoutes.take 1) retryRoutes[1] [] "apology" rfl
    (by decide +kernel) rfl (by decide +kernel)
  refine htaken.2 ?_
  decide +kernel

/-- It fails with the status under which it is asked again: the failure does not take the error
    route. -/
theorem failure_takes_an_earlier_route :
    nodeHasErrorRoute (.custom (.arr retryRoutes)) = true ∧
    evaluateCustomRouting (bareHost.withConditions textOps) (.arr retryRoutes)
      (viewOf retryRoutes (.new .null) .null false ⟨.obj [("status", .str "retry")], .null⟩) "call"
      = .next "again" ∧
    ∀ r ∈ retryRoutes, namesErrorPort r = true →
      leadsTo (bareHost.withConditions textOps) r ≠ some "again" := by
  refine ⟨?_, ?_, ?_⟩
  · decide +kernel
  · apply evaluateCustomRouting_found
    decide +kernel
  · decide +kernel

end Greentic.FlowWalk
