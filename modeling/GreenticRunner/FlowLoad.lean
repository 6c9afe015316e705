import GreenticRunner.ErrorRoutes

/-! # Loading a flow document

    A document reaches the engine through a typed intermediate form: its routes are read as `RouteIR`s,
    and what is left of them is collapsed to an end, a next node or a custom array.  A `RouteIR` has
    NO CONDITION, while the engine reads conditions off the array of a custom routing.

    * `loaded_next` — a loaded node goes where its FIRST ROUTE LEADS, whatever happened;
    * `routing_preserved_iff` — when that is where its document sends it. -/

namespace Greentic.FlowLoad

open FlowWalk Engine

open Drive (NodeOutput CustomRoutingDecision)

/-! ## The document -/

/-- `NodeDoc`; `raw` has the keys of the node in order. -/
structure NodeDoc where
  operation : Option String
  payload : Json
  raw : List (String × Json)
  routing : Json

/-- `FlowDoc`, as far as it is loaded. -/
structure FlowDoc where
  id : String
  flowType : String
  start : Option String
  parameters : Json
  nodes : List (String × NodeDoc)

/-! ## The intermediate form -/

/-- `RouteIR`; `target` is its field `to`. -/
structure RouteIR where
  target : Option String
  out : Bool

/-- `NodeIR`. -/
structure NodeIR where
  component : String
  payloadExpr : Json
  routes : List RouteIR

/-- `FlowIR`. -/
structure FlowIR where
  id : String
  flowType : String
  start : Option String
  parameters : Json
  nodes : List (String × NodeIR)

/-- `from_value` for an `Option<String>`. -/
def targetOf : Json → Option (Option String)
  | .null => some none
  | .str name => some (some name)
  | _ => none

/-- `from_value::<RouteIR>`: fields it does not know are ignored, and a sequence is read in the order of
    the fields. -/
def parseRoute : Json → Option RouteIR
  | .obj fields => do
      let target ← match Json.get? "to" (.obj fields) with
        | some v => targetOf v
        | none => some none
      let out ← match Json.get? "out" (.obj fields) with
        | some v => v.asBool?
        | none => some false
      return ⟨target, out⟩
  | .arr [target] => do return ⟨← targetOf target, false⟩
  | .arr [target, out] => do return ⟨← targetOf target, ← out.asBool?⟩
  | _ => none

/-- `parse_routes`. -/
def parseRoutes : Json → Option (List RouteIR)
  | .null => some []
  | .arr items => items.mapM parseRoute
  | _ => none

/-- `extract_node_payload`. -/
def extractNodePayload (node : NodeDoc) : Option (String × Json) :=
  match node.operation with
  | some operation => some (operation, node.payload)
  | none => node.raw.head?

/-- One node of `flow_doc_to_ir`. -/
def nodeToIr (node : NodeDoc) : Option NodeIR := do
  let (component, payloadExpr) ← extractNodePayload node
  let routes ← parseRoutes node.routing
  return ⟨component, payloadExpr, routes⟩

/-- `flow_doc_to_ir`. -/
def flowDocToIr (doc : FlowDoc) : Option FlowIR := do
  let nodes ← doc.nodes.mapM fun (id, node) => do return (id, ← nodeToIr node)
  return ⟨doc.id, doc.flowType, doc.start, doc.parameters, nodes⟩

/-! ## The flow -/

/-- The checks of the identifiers. -/
structure IdChecks where
  isFlowId : String → Bool
  isNodeId : String → Bool
  isComponentId : String → Bool

/-- `Node`, as far as the adapter sets it. -/
structure Node where
  component : String
  mapping : Json
  routing : Routing

/-- `FlowKind`. -/
inductive FlowKind where
  | messaging
  | event
  | componentConfig
  | job
  | http

/-- `Flow`, as far as the adapter sets it. -/
structure Flow where
  id : String
  kind : FlowKind
  entrypoints : List (String × Json)
  nodes : List (String × Node)
  extra : List (String × Json)

/-- `to_value` of a `RouteIR`. -/
def routeValue (r : RouteIR) : Json :=
  .obj [("to", match r.target with | some name => .str name | none => .null), ("out", .bool r.out)]

/-- `map_routing`. -/
def mapRouting (ids : IdChecks) (routes : List RouteIR) : Option Routing :=
  let custom := some (Routing.custom (.arr (routes.map routeValue)))
  match routes with
  | [] => some .ends
  | [route] =>
      if route.out || route.target = some "out" then some .ends
      else
        match route.target with
        | some name => if ids.isNodeId name then some (.next name) else none
        | none => custom
  | _ => custom

/-- `map_node`. -/
def mapNode (ids : IdChecks) (node : NodeIR) : Option Node := do
  guard (ids.isComponentId node.component)
  let routing ← mapRouting ids node.routes
  return ⟨node.component, node.payloadExpr, routing⟩

/-- `map_nodes`. -/
def mapNodes (ids : IdChecks) (nodes : List (String × NodeIR)) : Option (List (String × Node)) :=
  nodes.mapM fun (id, node) => do
    guard (ids.isNodeId id)
    return (id, ← mapNode ids node)

/-- `map_flow_kind`. -/
def mapFlowKind : String → Option FlowKind
  | "messaging" => some .messaging
  | "event" | "events" => some .event
  | "component-config" => some .componentConfig
  | "job" => some .job
  | "http" => some .http
  | _ => none

/-- `build_metadata`, the `extra` of it. -/
def buildMetadata (start : Option String) (parameters : Json) : List (String × Json) :=
  (start.map fun s => ("start", Json.str s)).toList ++
    if parameters.isNull then [] else [("parameters", parameters)]

/-- `flow_ir_to_flow`. -/
def flowIrToFlow (ids : IdChecks) (ir : FlowIR) : Option Flow := do
  guard (ids.isFlowId ir.id)
  let kind ← mapFlowKind ir.flowType
  let entrypoints := (ir.start.map fun s => ("default", Json.str s)).toList
  let nodes ← mapNodes ids ir.nodes
  return ⟨ir.id, kind, entrypoints, nodes, buildMetadata ir.start ir.parameters⟩

/-- A document as it is loaded. -/
def load (ids : IdChecks) (doc : FlowDoc) : Option Flow := (flowDocToIr doc).bind (flowIrToFlow ids)

/-! ## Where a node goes -/

/-- The routes that the default event of a node is picked from. -/
def routesOf : Routing → List Json
  | .custom (.arr routes) => routes
  | _ => []

/-- The step that the engine takes from a node. -/
def nextStep (host : Host) (s : ExecutionState) (nodes : Json) (nodeId : String) (ok : Bool)
    (output : NodeOutput) (routing : Routing) : CustomRoutingDecision :=
  (route host nodeId output s ⟨nodes, eventOf (routesOf routing) ok output⟩ routing).1

/-- Whether a route is open: it has no condition, or its condition holds. -/
def isOpen (host : Host) (view : RoutingView) (nodeId : String) (r : Json) : Bool :=
  if (r.get? "on_message").bind Json.asBool? = some true then
    decide (view.resumedAt = some nodeId ∧
      (responseAction view.context).all (fun v => trimmed (dottedText v) = ""))
  else
    match conditionOf r with
    | some condition => host.evaluateSimpleCondition condition view.context
    | none => true

/-- The target that a route names. -/
def targetName (r : Json) : String := ((r.get? "to").bind Json.asStr?).getD ""

/-- A route object that leads to a node: its target is a node's id, and there is no `out` in it. -/
structure LeadsToNode (ids : IdChecks) (r : Json) : Prop where
  object : ∃ fields, r = .obj fields
  target : r.get? "to" = some (.str (targetName r))
  out : r.get? "out" = none
  node : ids.isNodeId (targetName r) = true
  notOut : targetName r ≠ "out"

variable {ids : IdChecks} {host : Host} {nodeId : String}

theorem LeadsToNode.parse {r : Json} (h : LeadsToNode ids r) :
    parseRoute r = some ⟨some (targetName r), false⟩ := by
  obtain ⟨fields, hfields⟩ := h.object
  have htarget := h.target
  have hout := h.out
  rw [hfields] at htarget hout ⊢
  simp only [parseRoute, htarget, hout]
  rfl

theorem parseRoutes_leads {routes : List Json} (h : ∀ r ∈ routes, LeadsToNode ids r) :
    parseRoutes (.arr routes) = some (routes.map fun r => ⟨some (targetName r), false⟩) := by
  show routes.mapM parseRoute = _
  induction routes with
  | nil => rfl
  | cons r rest ih =>
      rw [List.mapM_cons, (h r List.mem_cons_self).parse,
        ih fun q hq => h q (List.mem_cons_of_mem _ hq)]
      rfl

/-- Such a route is taken exactly if it is open. -/
theorem LeadsToNode.taken {r : Json} (h : LeadsToNode ids r) (hids : host.isNodeId = ids.isNodeId)
    (view : RoutingView) :
    routeTarget host view.context view.resumedAt nodeId r =
      if isOpen host view nodeId r then some (targetName r) else none := by
  have htarget : ((r.get? "to").bind Json.asStr?).filter host.isNodeId = some (targetName r) := by
    rw [h.target, hids]
    simp [Json.asStr?, h.node]
  unfold routeTarget isOpen conditionOf
  dsimp only
  rw [htarget]
  split
  · split
    next hopen => rw [if_pos (decide_eq_true hopen)]
    next hopen => rw [if_neg (by simpa using hopen)]
  · cases (r.get? "condition").bind Json.asStr? <;> rfl

/-- The engine takes the first open route of the document. -/
theorem evaluate_document {nodeId : String} {routes : List Json} (h : ∀ r ∈ routes, LeadsToNode ids r)
    (hids : host.isNodeId = ids.isNodeId) (view : RoutingView) :
    evaluateCustomRouting host (.arr routes) view nodeId =
      match routes.find? (isOpen host view nodeId) with
      | some r => .next (targetName r)
      | none => if routes.any isConditional then .wait else .ends := by
  have hfind : routes.findSome? (routeTarget host view.context view.resumedAt nodeId) =
      (routes.find? (isOpen host view nodeId)).map targetName := by

    induction routes with
    | nil => rfl
    | cons r rest ih =>
        rw [List.findSome?_cons, List.find?_cons, (h r List.mem_cons_self).taken hids]
        cases isOpen host view _ r with
        | true => rfl
        | false => exact ih fun q hq => h q (List.mem_cons_of_mem _ hq)
  dsimp only [evaluateCustomRouting]
  rw [hfind]
  cases routes.find? (isOpen host view nodeId) <;> rfl

/-! ## A loaded node -/

theorem exists_of_mapM {α β : Type} {f : α → Option β} {l : List α} {l' : List β} {x : α}
    (h : l.mapM f = some l') (hx : x ∈ l) : ∃ y ∈ l', f x = some y := by
  induction l generalizing l' with
  | nil => exact nomatch hx
  | cons a rest ih =>
      rw [List.mapM_cons] at h
      obtain ⟨y, hy, h⟩ := Option.bind_eq_some_iff.mp h
      obtain ⟨ys, hys, h⟩ := Option.bind_eq_some_iff.mp h
      cases h
      rcases List.mem_cons.mp hx with rfl | hx
      · exact ⟨y, List.mem_cons_self, hy⟩
      · obtain ⟨z, hz, hfz⟩ := ih hys hx
        exact ⟨z, List.mem_cons_of_mem _ hz, hfz⟩

/-- Every node of a document is loaded, with what is left of its routes. -/
theorem load_node {doc : FlowDoc} {flow : Flow} {id : String} {node : NodeDoc}
    (h : load ids doc = some flow) (hm : (id, node) ∈ doc.nodes) :
    ∃ loaded routes, (id, loaded) ∈ flow.nodes ∧ parseRoutes node.routing = some routes ∧
      mapRouting ids routes = some loaded.routing := by
  obtain ⟨ir, hir, hflow⟩ := Option.bind_eq_some_iff.mp h
  obtain ⟨irNodes, hnodes, hir⟩ := Option.bind_eq_some_iff.mp hir
  cases hir
  obtain ⟨-, -, hflow⟩ := Option.bind_eq_some_iff.mp hflow
  obtain ⟨kind, -, hflow⟩ := Option.bind_eq_some_iff.mp hflow
  obtain ⟨flowNodes, hmap, hflow⟩ := Option.bind_eq_some_iff.mp hflow
  cases hflow
  obtain ⟨⟨id', nodeIr⟩, hmem, hto⟩ := exists_of_mapM hnodes hm
  obtain ⟨nodeIr', hnodeIr, heq⟩ := Option.bind_eq_some_iff.mp hto
  cases heq
  obtain ⟨parts, -, hnodeIr⟩ := Option.bind_eq_some_iff.mp hnodeIr
  obtain ⟨routes, hroutes, hnodeIr⟩ := Option.bind_eq_some_iff.mp hnodeIr
  cases hnodeIr
  obtain ⟨⟨id'', loaded⟩, hloaded, hone⟩ := exists_of_mapM hmap hmem
  obtain ⟨-, -, hone⟩ := Option.bind_eq_some_iff.mp hone
  obtain ⟨loaded', hnode, heq⟩ := Option.bind_eq_some_iff.mp hone
  cases heq
  obtain ⟨-, -, hnode⟩ := Option.bind_eq_some_iff.mp hnode
  obtain ⟨routing, hrouting, hnode⟩ := Option.bind_eq_some_iff.mp hnode
  cases hnode
  exact ⟨_, routes, hloaded, hroutes, hrouting⟩

/-- **A LOADED NODE GOES WHERE ITS FIRST ROUTE LEADS**, in every state and after every output. -/
theorem loaded_next (nodeId : String) {first : Json} {rest : List Json} {routing : Routing}
    (h : ∀ r ∈ first :: rest, LeadsToNode ids r) (hids : host.isNodeId = ids.isNodeId)
    (hrouting : mapRouting ids ((first :: rest).map fun r => ⟨some (targetName r), false⟩) =
      some routing) (s : ExecutionState) (nodes : Json) (ok : Bool) (output : NodeOutput) :
    nextStep host s nodes nodeId ok output routing = .next (targetName first) := by
  have hfirst := h first List.mem_cons_self
  cases rest with
  | nil =>
      simp [mapRouting, hfirst.notOut, hfirst.node] at hrouting
      cases hrouting
      rfl
  | cons second rest =>
      -- What is left of the first route has no condition, so that it is taken.
      cases hrouting
      have htaken (view : RoutingView) :
          routeTarget host view.context view.resumedAt nodeId
            (routeValue ⟨some (targetName first), false⟩) = some (targetName first) := by
        simp [routeTarget, routeValue, Json.get?, Json.asStr?, hids, hfirst.node]
      refine evaluateCustomRouting_found ?_
      show List.findSome? _ (_ :: _) = _
      rw [List.findSome?_cons, htaken ⟨_, _⟩]

/-- **ROUTING IS PRESERVED** for a state and an output exactly if some route of the document is open, and
    the first of these leads where the first route leads. -/
theorem routing_preserved_iff (doc : FlowDoc) {flow : Flow} {id : String} {node : NodeDoc}
    {first : Json} {rest : List Json} (hload : load ids doc = some flow) (hm : (id, node) ∈ doc.nodes)
    (hrouting : node.routing = .arr (first :: rest)) (h : ∀ r ∈ first :: rest, LeadsToNode ids r)
    (hids : host.isNodeId = ids.isNodeId) :
    ∃ loaded, (id, loaded) ∈ flow.nodes ∧
      ∀ (s : ExecutionState) (nodes : Json) (ok : Bool) (output : NodeOutput),
        nextStep host s nodes id ok output loaded.routing =
            evaluateCustomRouting host node.routing (viewOf (first :: rest) s nodes ok output) id ↔
          ∃ r, (first :: rest).find? (isOpen host (viewOf (first :: rest) s nodes ok output) id) =
            some r ∧ targetName r = targetName first := by
  obtain ⟨loaded, routes, hmem, hparse, hmap⟩ := load_node hload hm
  refine ⟨loaded, hmem, fun s nodes ok output => ?_⟩
  rw [hrouting, parseRoutes_leads h] at hparse
  cases hparse
  rw [loaded_next id h hids hmap, hrouting, evaluate_document h hids]
  cases hfind : (first :: rest).find?
      (isOpen host (viewOf (first :: rest) s nodes ok output) id) with
  | some r => simp [eq_comm]
  | none =>
      simp only [reduceCtorEq, false_and, exists_false, iff_false]
      split <;> exact fun h => nomatch h

/-! ## A menu -/

/-- Checks that accept every id. -/
def allIds : IdChecks := ⟨fun _ => true, bareHost.isNodeId, fun _ => true⟩

/-- One button leads to the news, anything else back. -/
def menuRoutes : List Json :=
  [.obj [("condition", .str "response.action == \"news\""), ("to", .str "news")],
    .obj [("to", .str "back")]]

def menuDoc : FlowDoc where
  id := "main"
  flowType := "messaging"
  start := some "menu"
  parameters := .null
  nodes := [("menu", ⟨some "card", .null, [], .arr menuRoutes⟩)]

theorem menu_leads : ∀ r ∈ menuRoutes, LeadsToNode allIds r := by
  intro r hr
  simp only [menuRoutes, List.mem_cons, List.not_mem_nil, or_false] at hr
  rcases hr with rfl | rfl <;>
    exact ⟨⟨_, rfl⟩, rfl, rfl, by decide, by decide⟩

theorem routing_preserved_menu :
    ∃ flow loaded, load allIds menuDoc = some flow ∧ ("menu", loaded) ∈ flow.nodes ∧
      (nextStep bareHost (.new .null) .null "menu" true ⟨.null, .null⟩ loaded.routing =
          evaluateCustomRouting bareHost (.arr menuRoutes)
            (viewOf menuRoutes (.new .null) .null true ⟨.null, .null⟩) "menu" ↔
        ∃ r, menuRoutes.find? (isOpen bareHost
          (viewOf menuRoutes (.new .null) .null true ⟨.null, .null⟩) "menu") = some r ∧
            targetName r = "news") := by
  have hids : bareHost.isNodeId = allIds.isNodeId := rfl
  obtain ⟨loaded, hmem, hiff⟩ := routing_preserved_iff menuDoc rfl List.mem_cons_self rfl
    menu_leads hids
  exact ⟨_, loaded, rfl, hmem, hiff (.new .null) .null true ⟨.null, .null⟩⟩

/-- Without an action the menu is left by its second route, so that its routing is not preserved. -/
theorem menu_routing_lost :
    ∃ flow loaded, load allIds menuDoc = some flow ∧ flow.nodes = [("menu", loaded)] ∧
      nextStep (bareHost.withConditions textOps) (.new .null) .null "menu" true ⟨.null, .null⟩
        loaded.routing = .next "news" ∧
      evaluateCustomRouting (bareHost.withConditions textOps) (.arr menuRoutes)
        (viewOf menuRoutes (.new .null) .null true ⟨.null, .null⟩) "menu" = .next "back" := by
  refine ⟨_, _, rfl, rfl, ?_, ?_⟩
  · have hids : (bareHost.withConditions textOps).isNodeId = allIds.isNodeId := rfl
    exact loaded_next "menu" menu_leads hids rfl _ _ _ _
  · apply evaluateCustomRouting_found
    decide +kernel

end Greentic.FlowLoad
