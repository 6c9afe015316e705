import GreenticRunner.AgentModel

/-! # The tools an agent shows the model

    `tools.rs` of the agent runtime: the allowed tools of an agent are looked up in the
    catalogs of their families.  One function lists those the model is shown, a second one
    those it is not.

    * `Partition` — each allowed tool is in exactly one of the two results;
    * `ContractOnly`, `mirrors_iff` — the tools the two functions disagree on. -/

namespace Greentic.Tools

open Aw (trim)

/-! ## Tools and catalogs -/

/-- `ToolRef`. -/
structure ToolRef where
  extensionId : String
  toolName : String
  description : Option String
  inputSchema : Option Json
  usageNote : Option String

/-- `LlmToolSchema`. -/
structure LlmToolSchema where
  extensionId : String
  toolName : String
  description : String
  parameters : Json

/-- `MissingTool`. -/
structure MissingTool where
  extensionId : String
  toolName : String
  reason : String

/-- An entry of a catalog: `McpToolEntry`, `ComponentToolEntry`, `FlowToolEntry`, `SorlaToolEntry`,
    and `PlaybookToolEntry` by what a listing reads of it. -/
structure ToolEntry where
  description : String
  parameters : Json

/-- `A2aToolCatalog`; an `A2aToolEntry` is its description. -/
structure A2aToolCatalog where
  tools : String → Option String
  errors : String → Option String

/-- `A2aToolCatalog::is_configured`. -/
def A2aToolCatalog.isConfigured (c : A2aToolCatalog) (agentId : String) : Bool :=
  (c.tools agentId).isSome || (c.errors agentId).isSome

/-- A tool as an extension describes it. -/
structure ToolDef where
  name : String
  description : String
  inputSchemaJson : String

/-- What the two functions are given besides the allowed tools: the listing of the extension
    runtime, `serde_json::from_str`, and the catalogs, by their `tool_entry`. -/
structure ToolSources where
  listTools : String → Except String (List ToolDef)
  fromStr : String → Option Json
  mcp : Option (String → String → Option ToolEntry)
  components : Option (String → String → Option ToolEntry)
  flows : Option (String → Option ToolEntry)
  playbooks : Option (String → Option ToolEntry)
  sorla : Option (String → String → Option ToolEntry)
  a2a : Option A2aToolCatalog

/-- `str::strip_prefix`. -/
def stripPrefix (pre s : String) : Option String :=
  if pre.toList.isPrefixOf s.toList then some (String.ofList (s.toList.drop pre.toList.length))
  else none

/-- `with_usage_note`. -/
def withUsageNote (description : String) (note : Option String) : String :=
  match note with
  | some n =>
      if (trim n.toList).isEmpty then description
      else description ++ "\n\n" ++ String.ofList (trim n.toList)
  | none => description

/-! ## The listing -/

/-- The schema of a tool that has both a description and parameters. -/
def ToolRef.schema (t : ToolRef) : Option String → Option Json → Option LlmToolSchema
  | some description, some parameters =>
      some ⟨t.extensionId, t.toolName, withUsageNote description t.usageNote, parameters⟩
  | _, _ => none

/-- The schema of a catalog entry. -/
def ToolRef.entrySchema (t : ToolRef) (entry : Option ToolEntry) : Option LlmToolSchema :=
  t.schema (entry.map (·.description)) (entry.map (·.parameters))

/-- The catalog first, the author's contract second. -/
def ToolRef.catalogFirst (t : ToolRef) (entry : Option ToolEntry) : Option LlmToolSchema :=
  t.schema ((entry.map (·.description)).or t.description)
    ((entry.map (·.parameters)).or t.inputSchema)

/-- The author's contract first, the catalog second. -/
def ToolRef.contractFirst (t : ToolRef) (entry : Option ToolEntry) : Option LlmToolSchema :=
  t.schema (t.description.or (entry.map (·.description)))
    (t.inputSchema.or (entry.map (·.parameters)))

/-- `{"type": "object", "properties": {}}`. -/
def emptySchema : Json := .obj [("properties", .obj []), ("type", .str "object")]

/-- A tool of an extension. -/
def ToolSources.extensionSchema (e : ToolSources) (t : ToolRef) : Option LlmToolSchema :=
  match e.listTools t.extensionId with
  | .ok defs =>
      match defs.find? fun d => d.name == t.toolName with
      | some d => t.schema (some d.description) (some ((e.fromStr d.inputSchemaJson).getD emptySchema))
      | none => none
  | .error _ => none

/-- A tool of an A2A agent: only a configured agent is one, its card describes it, and the schema
    can only come from the author's contract. -/
def ToolSources.a2aSchema (e : ToolSources) (t : ToolRef) (agentId : String) : Option LlmToolSchema :=
  match e.a2a.filter fun c => c.isConfigured agentId with
  | none => none
  | some catalog => t.schema ((catalog.tools agentId).or t.description) t.inputSchema

/-- The body of the loop of `list_tools_for_llm`. -/
def ToolSources.toolSchema (e : ToolSources) (t : ToolRef) : Option LlmToolSchema :=
  match stripPrefix "mcp:" t.extensionId with
  | some serverId => t.catalogFirst (e.mcp.bind fun c => c serverId t.toolName)
  | none =>
  match stripPrefix "component:" t.extensionId with
  | some componentRef => t.entrySchema (e.components.bind fun c => c componentRef t.toolName)
  | none =>
  match stripPrefix "sorla:" t.extensionId with
  | some pack => t.entrySchema (e.sorla.bind fun c => c pack t.toolName)
  | none =>
  match stripPrefix "flow:" t.extensionId with
  | some flowRef => t.contractFirst (e.flows.bind fun c => c flowRef)
  | none =>
  match stripPrefix "playbook:" t.extensionId with
  | some playbookId => t.catalogFirst (e.playbooks.bind fun c => c playbookId)
  | none =>
  match stripPrefix "a2a:" t.extensionId with
  | some agentId => e.a2aSchema t agentId
  | none => e.extensionSchema t

/-- `list_tools_for_llm`. -/
def ToolSources.listToolsForLlm (e : ToolSources) (allowed : List ToolRef) : List LlmToolSchema :=
  allowed.filterMap e.toolSchema

/-! ## The missing tools -/

/-- The reason a tool is missing for, unless it resolves. -/
def reasonUnless (resolvable : Bool) (reason : String) : Option String :=
  if resolvable then none else some reason

/-- Why a tool of an A2A agent is missing. -/
def ToolSources.a2aReason (e : ToolSources) (t : ToolRef) (agentId : String) : Option String :=
  match e.a2a.filter fun c => c.isConfigured agentId with
  | none => some "a2a agent is not configured for this worker"
  | some catalog =>
      let described := (catalog.tools agentId).isSome || t.description.isSome
      reasonUnless (described && t.inputSchema.isSome)
        "a2a agent card unavailable, or the agent config carries no input schema for it"

/-- Why a tool of an extension is missing. -/
def ToolSources.extensionReason (e : ToolSources) (t : ToolRef) : Option String :=
  match e.listTools t.extensionId with
  | .ok defs =>
      reasonUnless (defs.any fun d => d.name == t.toolName)
        "extension loaded but does not expose this tool"
  | .error err => some s!"extension failed to load: {err}"

/-- The body of the loop of `missing_tools`: why the tool is missing. -/
def ToolSources.missingReason (e : ToolSources) (t : ToolRef) : Option String :=
  match stripPrefix "mcp:" t.extensionId with
  | some serverId =>
      reasonUnless ((e.mcp.bind fun c => c serverId t.toolName).isSome ||
          (t.description.isSome && t.inputSchema.isSome))
        ("MCP tool not found in the tenant catalog, and the agent config carries no description + " ++
          "input schema for it")
  | none =>
  match stripPrefix "component:" t.extensionId with
  | some componentRef =>
      reasonUnless (e.components.bind fun c => c componentRef t.toolName).isSome
        "component tool not found in the catalog"
  | none =>
  match stripPrefix "sorla:" t.extensionId with
  | some pack =>
      reasonUnless (e.sorla.bind fun c => c pack t.toolName).isSome
        "sorla tool not found in the catalog"
  | none =>
  match stripPrefix "flow:" t.extensionId with
  | some flowRef =>
      reasonUnless (e.flows.bind fun c => c flowRef).isSome "flow tool not found in the catalog"
  | none =>
  match stripPrefix "playbook:" t.extensionId with
  | some playbookId =>
      reasonUnless (e.playbooks.bind fun c => c playbookId).isSome
        "playbook tool not found in the catalog"
  | none =>
  match stripPrefix "a2a:" t.extensionId with
  | some agentId => e.a2aReason t agentId
  | none => e.extensionReason t

/-- The report of a tool that is missing. -/
def ToolSources.missingTool (e : ToolSources) (t : ToolRef) : Option MissingTool :=
  (e.missingReason t).map fun reason => ⟨t.extensionId, t.toolName, reason⟩

/-- `missing_tools`. -/
def ToolSources.missingTools (e : ToolSources) (allowed : List ToolRef) : List MissingTool :=
  allowed.filterMap e.missingTool

/-! ## What the two results say together -/

/-- Each allowed tool is in exactly one of the two results, and these hold nothing else. -/
inductive Partition : List ToolRef → List LlmToolSchema → List MissingTool → Prop where
  | nil : Partition [] [] []
  | shown {t : ToolRef} {s : LlmToolSchema} {allowed : List ToolRef} {ss : List LlmToolSchema}
      {ms : List MissingTool} (hext : s.extensionId = t.extensionId) (hname : s.toolName = t.toolName)
      (h : Partition allowed ss ms) : Partition (t :: allowed) (s :: ss) ms
  | missing {t : ToolRef} {m : MissingTool} {allowed : List ToolRef} {ss : List LlmToolSchema}
      {ms : List MissingTool} (hext : m.extensionId = t.extensionId) (hname : m.toolName = t.toolName)
      (h : Partition allowed ss ms) : Partition (t :: allowed) ss (m :: ms)

/-- Each tool is listed or missing. -/
theorem Partition.length {allowed : List ToolRef} {ss : List LlmToolSchema} {ms : List MissingTool}
    (h : Partition allowed ss ms) : ss.length + ms.length = allowed.length := by
  induction h with
  | nil => rfl
  | shown _ _ _ ih => simp only [List.length_cons]; omega
  | missing _ _ _ ih => simp only [List.length_cons]; omega

/-- `missing_tools` mirrors `list_tools_for_llm` on the allowed tools. -/
structure ToolSources.Mirrors (e : ToolSources) (allowed : List ToolRef) : Prop where
  each : ∀ t ∈ allowed, (e.missingTool t).isSome = true ↔ e.toolSchema t = none
  partition : Partition allowed (e.listToolsForLlm allowed) (e.missingTools allowed)

/-- A `flow:` or `playbook:` tool with a full contract of its author that its catalog does not
    hold. -/
def ToolSources.ContractOnly (e : ToolSources) (t : ToolRef) : Prop :=
  t.description.isSome = true ∧ t.inputSchema.isSome = true ∧
    ((∃ flowRef, stripPrefix "flow:" t.extensionId = some flowRef ∧
        (e.flows.bind fun c => c flowRef) = none) ∨
      ∃ playbookId, stripPrefix "playbook:" t.extensionId = some playbookId ∧
        (e.playbooks.bind fun c => c playbookId) = none)

section Listing

variable {e : ToolSources} {t : ToolRef} {allowed : List ToolRef}

/-- Two prefixes that differ in their first character are not both there. -/
theorem stripPrefix_exclusive {p q s r : String} {a b : Char} (hp : p.toList.head? = some a)
    (hq : q.toList.head? = some b) (hab : a ≠ b) (h : stripPrefix p s = some r) :
    stripPrefix q s = none := by
  unfold stripPrefix at h ⊢
  split at h
  · rename_i hpre
    refine if_neg ?_
    intro hpre'
    obtain ⟨x, hx⟩ := List.isPrefixOf_iff_prefix.mp hpre
    obtain ⟨y, hy⟩ := List.isPrefixOf_iff_prefix.mp hpre'
    have hxs : s.toList.head? = some a := by rw [← hx, List.head?_append, hp]; rfl
    have hys : s.toList.head? = some b := by rw [← hy, List.head?_append, hq]; rfl
    rw [hxs] at hys
    exact hab (Option.some.inj hys)
  · exact nomatch h

@[simp] theorem isSome_reasonUnless (b : Bool) (reason : String) :
    (reasonUnless b reason).isSome = !b := by
  cases b <;> rfl

theorem ToolRef.schema_eq_none (t : ToolRef) (d : Option String) (p : Option Json) :
    t.schema d p = none ↔ (d.isSome && p.isSome) = false := by
  cases d <;> cases p <;> simp [ToolRef.schema]

theorem ToolRef.schema_named {d : Option String} {p : Option Json} {s : LlmToolSchema}
    (h : t.schema d p = some s) : s.extensionId = t.extensionId ∧ s.toolName = t.toolName := by
  cases d with
  | none => exact nomatch h
  | some d =>
      cases p with
      | none => exact nomatch h
      | some p =>
          cases h
          exact ⟨rfl, rfl⟩

/-- A missing tool is one the reason is given for. -/
theorem isSome_missingTool (t : ToolRef) : (e.missingTool t).isSome = (e.missingReason t).isSome :=
  Option.isSome_map

theorem catalogFirst_eq_none (t : ToolRef) (entry : Option ToolEntry) :
    t.catalogFirst entry = none ↔
      (entry.isSome || (t.description.isSome && t.inputSchema.isSome)) = false := by
  rw [ToolRef.catalogFirst, ToolRef.schema_eq_none]
  cases entry <;> simp

theorem contractFirst_eq_none (t : ToolRef) (entry : Option ToolEntry) :
    t.contractFirst entry = none ↔
      (entry.isSome || (t.description.isSome && t.inputSchema.isSome)) = false := by
  rw [ToolRef.contractFirst, ToolRef.schema_eq_none]
  cases entry <;> simp

theorem entrySchema_eq_none (t : ToolRef) (entry : Option ToolEntry) :
    t.entrySchema entry = none ↔ entry.isSome = false := by
  rw [ToolRef.entrySchema, ToolRef.schema_eq_none]
  cases entry <;> simp

/-- An agent has a reason exactly if it has no schema. -/
theorem a2a_mirrors (agentId : String) :
    (e.a2aReason t agentId).isSome = true ↔ e.a2aSchema t agentId = none := by
  rw [ToolSources.a2aReason, ToolSources.a2aSchema]
  cases e.a2a.filter fun c => c.isConfigured agentId with
  | none => simp
  | some catalog =>
      dsimp only
      rw [isSome_reasonUnless, ToolRef.schema_eq_none, Option.isSome_or, Bool.not_eq_true']

/-- So does an extension. -/
theorem extension_mirrors :
    (e.extensionReason t).isSome = true ↔ e.extensionSchema t = none := by
  rw [ToolSources.extensionReason, ToolSources.extensionSchema]
  cases e.listTools t.extensionId with
  | error err => simp
  | ok defs =>
      dsimp only
      rw [isSome_reasonUnless, ← List.isSome_find?]
      cases defs.find? fun d => d.name == t.toolName with
      | none => simp
      | some d => simp [ToolRef.schema]

/-- A tool of another family than `flow:` and `playbook:` is not one the contract alone would
    resolve. -/
theorem not_contractOnly (hflow : stripPrefix "flow:" t.extensionId = none)
    (hplaybook : stripPrefix "playbook:" t.extensionId = none) : ¬ e.ContractOnly t := by
  rintro ⟨-, -, ⟨flowRef, h, -⟩ | ⟨playbookId, h, -⟩⟩
  · rw [hflow] at h
    exact nomatch h
  · rw [hplaybook] at h
    exact nomatch h

theorem not_contractOnly_of_scheme {p r : String} {a : Char} (hp : p.toList.head? = some a)
    (hf : a ≠ 'f') (hpl : a ≠ 'p') (h : stripPrefix p t.extensionId = some r) :
    ¬ e.ContractOnly t :=
  not_contractOnly (stripPrefix_exclusive hp rfl hf h) (stripPrefix_exclusive hp rfl hpl h)

/-- A reason that looks at the catalog only, beside a listing that takes the author's contract too:
    they agree unless only the contract would resolve the tool. -/
theorem catalog_reason_iff {entry : Option ToolEntry} {listed : Option LlmToolSchema} {reason : String}
    (hlisted : listed = none ↔
      (entry.isSome || (t.description.isSome && t.inputSchema.isSome)) = false) :
    ((reasonUnless entry.isSome reason).isSome = true ↔ listed = none) ↔
      ¬ (t.description.isSome = true ∧ t.inputSchema.isSome = true ∧ entry = none) := by
  rw [hlisted, isSome_reasonUnless]
  cases entry <;> cases t.description <;> cases t.inputSchema <;> simp

/-- The families, one by one. -/
theorem each_iff (t : ToolRef) :
    ((e.missingTool t).isSome = true ↔ e.toolSchema t = none) ↔ ¬ e.ContractOnly t := by
  rw [isSome_missingTool, ToolSources.missingReason, ToolSources.toolSchema]
  cases hmcp : stripPrefix "mcp:" t.extensionId with
  | some serverId =>
      refine iff_of_true ?_ (not_contractOnly_of_scheme rfl (by decide) (by decide) hmcp)
      dsimp only
      rw [isSome_reasonUnless, catalogFirst_eq_none, Bool.not_eq_true']
  | none =>
  cases hcomponent : stripPrefix "component:" t.extensionId with
  | some componentRef =>
      refine iff_of_true ?_ (not_contractOnly_of_scheme rfl (by decide) (by decide) hcomponent)
      dsimp only
      rw [isSome_reasonUnless, entrySchema_eq_none, Bool.not_eq_true']
  | none =>
  cases hsorla : stripPrefix "sorla:" t.extensionId with
  | some pack =>
      refine iff_of_true ?_ (not_contractOnly_of_scheme rfl (by decide) (by decide) hsorla)
      dsimp only
      rw [isSome_reasonUnless, entrySchema_eq_none, Bool.not_eq_true']
  | none =>
  cases hflow : stripPrefix "flow:" t.extensionId with
  | some flowRef =>
      have hplaybook : stripPrefix "playbook:" t.extensionId = none :=
        stripPrefix_exclusive (a := 'f') (b := 'p') rfl rfl (by decide) hflow
      refine (catalog_reason_iff (contractFirst_eq_none t _)).trans (not_congr ?_)
      rw [ToolSources.ContractOnly, hflow, hplaybook]
      simp
  | none =>
  cases hplaybook : stripPrefix "playbook:" t.extensionId with
  | some playbookId =>
      refine (catalog_reason_iff (catalogFirst_eq_none t _)).trans (not_congr ?_)
      rw [ToolSources.ContractOnly, hflow, hplaybook]
      simp
  | none =>
  have hother : ¬ e.ContractOnly t := not_contractOnly hflow hplaybook
  cases stripPrefix "a2a:" t.extensionId with
  | some agentId => exact iff_of_true (a2a_mirrors agentId) hother
  | none => exact iff_of_true extension_mirrors hother

/-- A schema names the tool it is of. -/
theorem toolSchema_named {s : LlmToolSchema} (h : e.toolSchema t = some s) :
    s.extensionId = t.extensionId ∧ s.toolName = t.toolName := by
  have hbuilt : ∃ d p, t.schema d p = some s := by
    unfold ToolSources.toolSchema ToolSources.a2aSchema ToolSources.extensionSchema at h
    repeat' split at h
    all_goals first
      | exact ⟨_, _, h⟩
      | exact nomatch h
  obtain ⟨d, p, hs⟩ := hbuilt
  exact ToolRef.schema_named hs

/-- The results of the two functions partition the list when they agree on each tool. -/
theorem partition_of_each (h : ∀ t ∈ allowed, (e.missingTool t).isSome = true ↔ e.toolSchema t = none) :
    Partition allowed (e.listToolsForLlm allowed) (e.missingTools allowed) := by
  induction allowed with
  | nil => exact .nil
  | cons t allowed ih =>
      have hrest := ih fun t' ht => h t' (List.mem_cons_of_mem _ ht)
      have ht := h t (List.mem_cons_self ..)
      cases hs : e.toolSchema t with
      | some s =>
          have hnone : e.missingTool t = none := by
            rw [← Option.not_isSome_iff_eq_none, ht, hs]
            exact Option.some_ne_none s
          rw [ToolSources.listToolsForLlm, ToolSources.missingTools, List.filterMap_cons_some hs,
            List.filterMap_cons_none hnone]
          exact .shown (toolSchema_named hs).1 (toolSchema_named hs).2 hrest
      | none =>
          obtain ⟨m, hm⟩ := Option.isSome_iff_exists.mp (ht.mpr hs)
          rw [ToolSources.listToolsForLlm, ToolSources.missingTools, List.filterMap_cons_none hs,
            List.filterMap_cons_some hm]
          obtain ⟨reason, -, rfl⟩ := Option.map_eq_some_iff.mp hm
          exact .missing rfl rfl hrest

/-- MISSING TOOLS: whatever the catalogs hold and the extensions list, the two functions partition
    the allowed tools exactly when none of these is a `flow:` or `playbook:` tool that only its
    author's contract describes. -/
theorem mirrors_iff (e : ToolSources) (allowed : List ToolRef) :
    e.Mirrors allowed ↔ ∀ t ∈ allowed, ¬ e.ContractOnly t := by
  constructor
  · intro h t ht
    exact (each_iff t).mp (h.each t ht)
  · intro h
    have heach : ∀ t ∈ allowed, (e.missingTool t).isSome = true ↔ e.toolSchema t = none :=
      fun t ht => (each_iff t).mpr (h t ht)
    exact ⟨heach, partition_of_each heach⟩

end Listing

/-- No catalog, and no extension loads. -/
def noSources : ToolSources :=
  ⟨fun _ => .error "not loaded", fun _ => none, none, none, none, none, none, none⟩

/-- A flow bound with a full contract. -/
def contractFlow : ToolRef :=
  ⟨"flow:quote", "quote", some "Quotes a price", some (.obj [("type", .str "object")]), none⟩

/-- It is listed and reported missing. -/
theorem contractFlow_both : ¬ noSources.Mirrors [contractFlow] := by
  intro h
  have hlen := h.partition.length
  revert hlen
  decide +kernel

end Greentic.Tools
