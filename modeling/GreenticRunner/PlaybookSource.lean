import GreenticRunner.FinMap
import GreenticRunner.Json

/-! # Playbooks as agent tools

    A playbook is a procedure that an agent calls as a tool.  The catalog built
    for a call captures WHO is calling — tenant context, model reference, the
    tools held — and a turn started through it runs as that caller:

    - `fromSource` narrows each document's allow-list to the caller's tools;
    - `dispatch` puts the captured caller on the turn request;
    - `catalog` caches built catalogs for five minutes under `cacheKey`.

    The key is one string joined from some of the caller's data, so a later
    call may be served the catalog of an earlier caller.  The results say which
    one (`catalogs_served`) and exactly when that is harmless
    (`playbook_runs_as_caller`). -/

namespace Greentic.Playbook

open FinMaps

/-! ## The caller -/

/-- `VerifiedCaller`: the identity the messaging provider vouched for. -/
structure VerifiedCaller where
  userVerified : Bool := false
  sub : Option String := none
  groups : List String := []
  team : Option String := none
  role : Option String := none
  iss : Option String := none
  deriving DecidableEq

/-- `TenantContext`. -/
structure TenantContext where
  tenantId : String
  envId : String
  userEmail : Option String := none
  projectId : Option String := none
  caller : Option VerifiedCaller := none
  deriving DecidableEq

/-- `LlmProviderRef`. -/
structure LlmProviderRef where
  provider : String
  model : String
  credentialRef : Option String := none
  deriving DecidableEq

/-- `ToolRef`. -/
structure ToolRef where
  extensionId : String
  toolName : String
  description : Option String := none
  inputSchema : Option Json := none
  usageNote : Option String := none

/-- `GuardrailMode`. -/
inductive GuardrailMode where
  | enforce
  | monitor
  deriving DecidableEq

/-- `GuardrailRef`. -/
structure GuardrailRef where
  capId : String
  offerId : Option String := none
  config : Json := .null
  mode : GuardrailMode := .enforce

/-! ## Documents, entries and requests -/

/-- `PlaybookLlmTier`. -/
inductive PlaybookLlmTier where
  | fast
  | balanced
  | reasoning
  deriving DecidableEq

/-- `PlaybookLlmCapability`. -/
inductive PlaybookLlmCapability where
  | toolCalling
  | structuredOutput
  | vision
  | longContext
  deriving DecidableEq

/-- `PlaybookLlmRequirement`. -/
structure PlaybookLlmRequirement where
  tier : PlaybookLlmTier := .balanced
  requires : List PlaybookLlmCapability := []

/-- `PlaybookOperation`: one document as the host lists it. -/
structure PlaybookOperation where
  playbookId : String
  description : String
  parameters : Json
  instructions : String
  llm : PlaybookLlmRequirement
  allowList : List ToolRef
  guardrails : List GuardrailRef

/-- `PlaybookToolEntry`: a document with its tools narrowed. -/
structure PlaybookToolEntry where
  description : String
  parameters : Json
  instructions : String
  llm : PlaybookLlmRequirement
  tools : List ToolRef
  guardrails : List GuardrailRef

/-- `PlaybookTurnRequest`. -/
structure PlaybookTurnRequest where
  tenant : TenantContext
  playbookId : String
  instructions : String
  llm : PlaybookLlmRequirement
  tools : List ToolRef
  guardrails : List GuardrailRef
  callerLlm : LlmProviderRef
  input : Json

/-- `PlaybookToolCatalog`, less the turn effect, which is the same in every
    catalog of a source. -/
structure PlaybookToolCatalog where
  tools : FinMap String PlaybookToolEntry
  callerLlm : LlmProviderRef
  tenant : TenantContext
  fetchedAt : Nat

/-- Membership in the set of `(extension_id, tool_name)` pairs of the caller. -/
def held (callerTools : List ToolRef) (t : ToolRef) : Bool :=
  callerTools.any fun u => u.extensionId == t.extensionId && u.toolName == t.toolName

/-- The entry a document gets in the catalog of a caller. -/
def entryOf (callerTools : List ToolRef) (op : PlaybookOperation) : PlaybookToolEntry where
  description := op.description
  parameters := op.parameters
  instructions := op.instructions
  llm := op.llm
  tools := op.allowList.filter (held callerTools)
  guardrails := op.guardrails

/-- `PlaybookToolCatalog::from_source` at the clock reading `now`. -/
def fromSource (docs : List PlaybookOperation) (callerTools : List ToolRef)
    (callerLlm : LlmProviderRef) (tenant : TenantContext) (now : Nat) : PlaybookToolCatalog where
  -- one insertion per listed document: the last document of an id stays
  tools := docs.foldl (fun m op => m.insert op.playbookId (entryOf callerTools op)) .empty
  callerLlm := callerLlm
  tenant := tenant
  fetchedAt := now

/-- `json!` of an object with the one field `error`. -/
def errorValue (text : String) : Json := .obj [("error", .str text)]

/-- `PlaybookToolCatalog::dispatch`: the value the model observes and the turn
    request made, if any.  `fromStr` is `serde_json::from_str`, `turn` the
    host's effect. -/
def dispatch (fromStr : String → Except String Json)
    (turn : PlaybookTurnRequest → Except String String) (cat : PlaybookToolCatalog)
    (playbookId argsJson : String) : Json × Option PlaybookTurnRequest :=
  match cat.tools.get? playbookId with
  | none => (errorValue ("unknown playbook tool '" ++ playbookId ++ "'"), none)
  | some entry =>
      match fromStr argsJson with
      | .error e =>
          (errorValue ("invalid JSON args for playbook '" ++ playbookId ++ "': " ++ e), none)
      | .ok input =>
          let request : PlaybookTurnRequest :=
            { tenant := cat.tenant, playbookId := playbookId
              instructions := entry.instructions, llm := entry.llm, tools := entry.tools
              guardrails := entry.guardrails, callerLlm := cat.callerLlm, input := input }
          match turn request with
          | .ok reply => (.obj [("reply", .str reply)], some request)
          | .error e => (errorValue e, some request)

/-! ## The cached source -/

/-- `CATALOG_TTL`, in nanoseconds. -/
def catalogTtl : Nat := 5 * 60 * 1000000000

/-- `BTreeSet<String>` read in order: duplicates dropped, sorted by code
    point, which is the byte order of the UTF-8 text. -/
def sortedSet (xs : List String) : List String := xs.dedup.insertionSort (· ≤ ·)

/-- `PlaybookToolSource::cache_key`. -/
def cacheKey (tenant : TenantContext) (callerTools : List ToolRef) (callerLlm : LlmProviderRef) :
    String :=
  tenant.tenantId ++ ":" ++ tenant.envId ++ ":" ++ callerLlm.provider ++ "/" ++ callerLlm.model
    ++ ":" ++ String.intercalate ","
      (sortedSet (callerTools.map fun t => t.extensionId ++ "/" ++ t.toolName))

/-- One call of `PlaybookToolSource::catalog`: its arguments, and what the clock
    shows when the age of a cached catalog is taken and when one is built. -/
structure Call where
  tenant : TenantContext
  callerTools : List ToolRef
  callerLlm : LlmProviderRef
  checkedAt : Nat
  builtAt : Nat

namespace Call

/-- The key the call looks up. -/
def key (c : Call) : String := cacheKey c.tenant c.callerTools c.callerLlm

/-- The catalog the call builds when it finds none. -/
def built (docs : List PlaybookOperation) (c : Call) : PlaybookToolCatalog :=
  fromSource docs c.callerTools c.callerLlm c.tenant c.builtAt

end Call

/-- `PlaybookToolSource::catalog`: the cache after the call and the catalog
    returned. -/
def catalog (docs : List PlaybookOperation) (cache : FinMap String PlaybookToolCatalog)
    (c : Call) : FinMap String PlaybookToolCatalog × PlaybookToolCatalog :=
  match cache.get? c.key with
  | some snap =>
      if c.checkedAt - snap.fetchedAt < catalogTtl then (cache, snap)
      else (cache.insert c.key (c.built docs), c.built docs)
  | none => (cache.insert c.key (c.built docs), c.built docs)

/-- The catalogs returned to a sequence of calls. -/
def catalogs (docs : List PlaybookOperation) (cache : FinMap String PlaybookToolCatalog) :
    List Call → List PlaybookToolCatalog
  | [] => []
  | c :: rest => (catalog docs cache c).2 :: catalogs docs (catalog docs cache c).1 rest

/-! ## Which caller a catalog belongs to -/

/-- The document a catalog holds under an id: the last one listed. -/
def documentOf (docs : List PlaybookOperation) (playbookId : String) : Option PlaybookOperation :=
  docs.reverse.find? fun op => op.playbookId == playbookId

/-- The catalog maps each id to the narrowed form of its document. -/
theorem fromSource_entry (docs : List PlaybookOperation) (callerTools : List ToolRef)
    (llm : LlmProviderRef) (tenant : TenantContext) (now : Nat) (playbookId : String) :
    (fromSource docs callerTools llm tenant now).tools.get? playbookId
      = (documentOf docs playbookId).map (entryOf callerTools) := by
  unfold fromSource documentOf
  -- from the right: the document listed last decides
  induction docs using List.reverseRecOn with
  | nil => rfl
  | append_singleton docs op ih =>
      rw [List.foldl_append, List.reverse_append]
      by_cases h : op.playbookId = playbookId
      · simp [h]
      · have h' : playbookId ≠ op.playbookId := fun e => h e.symm
        simpa [h, h'] using ih

/-- A served call leaves the cache alone, any other one stores what it built. -/
theorem catalog_cases (docs : List PlaybookOperation) (cache : FinMap String PlaybookToolCatalog)
    (c : Call) :
    (∃ snap, cache.get? c.key = some snap ∧ c.checkedAt - snap.fetchedAt < catalogTtl
        ∧ catalog docs cache c = (cache, snap))
      ∨ ((∀ snap, cache.get? c.key = some snap → ¬ c.checkedAt - snap.fetchedAt < catalogTtl)
        ∧ catalog docs cache c = (cache.insert c.key (c.built docs), c.built docs)) := by
  unfold catalog
  cases hget : cache.get? c.key with
  | none =>
      refine Or.inr ⟨?_, rfl⟩
      rintro snap ⟨⟩
  | some snap =>
      by_cases hage : c.checkedAt - snap.fetchedAt < catalogTtl
      · exact Or.inl ⟨snap, rfl, hage, by simp [hage]⟩
      · refine Or.inr ⟨?_, by simp [hage]⟩
        rintro snap' ⟨⟩
        exact hage

/-- The first call of a sequence that looked up the key of `c`. -/
def firstWithKey (calls : List Call) (k : String) : Option Call :=
  calls.find? fun d => d.key == k

/-- The cache after `calls`: under each key, what its first call built. -/
def Holds (docs : List PlaybookOperation) (calls : List Call)
    (cache : FinMap String PlaybookToolCatalog) : Prop :=
  ∀ k, cache.get? k = (firstWithKey calls k).map (Call.built docs)

/-- No call finds a catalog of the sequence older than the TTL. -/
def WithinTtl (calls : List Call) : Prop :=
  ∀ c ∈ calls, ∀ d ∈ calls, d.checkedAt - c.builtAt < catalogTtl

theorem firstWithKey_snoc (calls : List Call) (c : Call) (k : String) :
    firstWithKey (calls ++ [c]) k
      = (firstWithKey calls k).or (if c.key = k then some c else none) := by
  unfold firstWithKey
  rw [List.find?_append]
  by_cases h : c.key = k <;> simp [h]

/-- **ONE CALL**: within the TTL a call is served the catalog of the first call
    with its key, itself included, and the cache keeps that shape. -/
theorem catalog_served {docs : List PlaybookOperation} {calls : List Call}
    {cache : FinMap String PlaybookToolCatalog} {c : Call} (h : Holds docs calls cache)
    (hfresh : ∀ d ∈ calls, c.checkedAt - d.builtAt < catalogTtl) :
    Holds docs (calls ++ [c]) (catalog docs cache c).1
      ∧ some (catalog docs cache c).2
        = (firstWithKey (calls ++ [c]) c.key).map (Call.built docs) := by
  have hkey := h c.key
  rcases catalog_cases docs cache c with ⟨snap, hget, -, hcat⟩ | ⟨hmiss, hcat⟩
  · rw [hcat]
    obtain ⟨d, hd, hsnap⟩ : ∃ d, firstWithKey calls c.key = some d ∧ d.built docs = snap := by
      rw [hget] at hkey
      exact Option.map_eq_some_iff.mp hkey.symm
    refine ⟨?_, ?_⟩
    · intro k
      rw [h k, firstWithKey_snoc]
      by_cases hk : c.key = k
      · subst hk
        simp [hd]
      · simp [hk]
    · simp [firstWithKey_snoc, hd, hsnap]
  · rw [hcat]
    -- a miss means that no earlier call had the key
    have hnone : firstWithKey calls c.key = none := by
      cases hf : firstWithKey calls c.key with
      | none => rfl
      | some d =>
          rw [hf] at hkey
          exact absurd (hfresh d (List.mem_of_find?_eq_some hf)) (hmiss _ hkey)
    refine ⟨?_, ?_⟩
    · intro k
      rw [firstWithKey_snoc, FinMap.insert_get?]
      by_cases hk : k = c.key
      · subst hk
        simp [hnone]
      · have hk' : c.key ≠ k := fun e => hk e.symm
        simp [hk, hk', h k]
    · simp [firstWithKey_snoc, hnone]

theorem firstWithKey_append {calls rest : List Call} {k : String}
    (h : (firstWithKey calls k).isSome) :
    firstWithKey (calls ++ rest) k = firstWithKey calls k := by
  unfold firstWithKey at h ⊢
  rw [List.find?_append]
  exact Option.or_of_isSome h

theorem firstWithKey_of_mem {calls : List Call} {c : Call} (h : c ∈ calls) :
    (firstWithKey calls c.key).isSome := by
  unfold firstWithKey
  rw [List.find?_isSome]
  exact ⟨c, h, by simp⟩

/-- **WHO SERVES A CALL**: in a sequence within the TTL, call `i` gets the
    catalog that the first call with its key built. -/
theorem catalogs_served (docs : List PlaybookOperation) :
    ∀ (rest calls : List Call) (cache : FinMap String PlaybookToolCatalog),
      Holds docs calls cache → WithinTtl (calls ++ rest) →
      ∀ (i : Nat) (c : Call), rest[i]? = some c →
        (catalogs docs cache rest)[i]?
          = (firstWithKey (calls ++ rest) c.key).map (Call.built docs) := by
  intro rest
  induction rest with
  | nil =>
      intro calls cache _ _ i c hi
      simp at hi
  | cons a rest ih =>
      intro calls cache h httl i c hi
      have hfresh : ∀ d ∈ calls, a.checkedAt - d.builtAt < catalogTtl := by
        intro d hd
        exact httl d (by simp [hd]) a (by simp)
      obtain ⟨hnext, hserved⟩ := catalog_served h hfresh
      have happ : calls ++ a :: rest = (calls ++ [a]) ++ rest := by simp
      cases i with
      | zero =>
          obtain rfl : a = c := by simpa using hi
          have hself : (firstWithKey (calls ++ [a]) a.key).isSome := firstWithKey_of_mem (by simp)
          rw [happ, firstWithKey_append hself, ← hserved]
          rfl
      | succ i =>
          rw [happ] at httl ⊢
          exact ih (calls ++ [a]) _ hnext httl i c (by simpa using hi)

/-! ## When a playbook runs as its caller -/

section

variable (fromStr : String → Except String Json)
  (turn : PlaybookTurnRequest → Except String String)

/-- A dispatch of the document `op` on `cat`, with any arguments that read as
    JSON, makes a turn request as the caller of `c`. -/
def RunsAs (c : Call) (cat : PlaybookToolCatalog) (op : PlaybookOperation) : Prop :=
  ∀ args input, fromStr args = .ok input →
    ∃ request, (dispatch fromStr turn cat op.playbookId args).2 = some request
      ∧ request.tenant = c.tenant
      ∧ request.callerLlm = c.callerLlm
      ∧ request.tools = op.allowList.filter (held c.callerTools)

/-- The request a readable dispatch makes, whatever the turn then answers. -/
theorem dispatch_request {cat : PlaybookToolCatalog} {playbookId args : String} {input : Json}
    {entry : PlaybookToolEntry} (hentry : cat.tools.get? playbookId = some entry)
    (hargs : fromStr args = .ok input) :
    (dispatch fromStr turn cat playbookId args).2
      = some { tenant := cat.tenant, playbookId := playbookId
               instructions := entry.instructions, llm := entry.llm, tools := entry.tools
               guardrails := entry.guardrails, callerLlm := cat.callerLlm, input := input } := by
  unfold dispatch
  rw [hentry, hargs]
  dsimp only
  split <;> rfl

/-- The two callers are the same for the document: the tenant context and the
    model reference agree, and they hold the same of its allow-list. -/
def SameCaller (d c : Call) (op : PlaybookOperation) : Prop :=
  d.tenant = c.tenant ∧ d.callerLlm = c.callerLlm
    ∧ ∀ t ∈ op.allowList, held d.callerTools t = held c.callerTools t

/-- Two filters of a list agree exactly when their tests agree on it. -/
theorem filter_eq_iff {α : Type} {p q : α → Bool} {l : List α} :
    l.filter p = l.filter q ↔ ∀ a ∈ l, p a = q a := by
  constructor
  · intro h a ha
    have hmem : a ∈ l.filter p ↔ a ∈ l.filter q := by rw [h]
    simp only [List.mem_filter, ha, true_and] at hmem
    exact Bool.eq_iff_iff.mpr hmem
  · exact List.filter_congr

theorem documentOf_id {docs : List PlaybookOperation} {playbookId : String}
    {op : PlaybookOperation} (h : documentOf docs playbookId = some op) :
    op.playbookId = playbookId := by
  have := List.find?_some h
  simpa using this

/-- The catalog that `d` built runs a document as `c` exactly when the two
    callers are the same for it. -/
theorem built_runsAs_iff {docs : List PlaybookOperation} {d c : Call} {playbookId : String}
    {op : PlaybookOperation} (hop : documentOf docs playbookId = some op)
    (hjson : ∃ args input, fromStr args = .ok input) :
    RunsAs fromStr turn c (d.built docs) op ↔ SameCaller d c op := by
  obtain rfl := documentOf_id hop
  have hentry : (d.built docs).tools.get? op.playbookId = some (entryOf d.callerTools op) := by
    unfold Call.built
    rw [fromSource_entry, hop]
    rfl
  constructor
  · intro h
    obtain ⟨args, input, hargs⟩ := hjson
    obtain ⟨request, hreq, htenant, hllm, htools⟩ := h args input hargs
    rw [dispatch_request fromStr turn hentry hargs] at hreq
    obtain rfl := Option.some.inj hreq
    exact ⟨htenant, hllm, filter_eq_iff.mp htools⟩
  · rintro ⟨htenant, hllm, htools⟩ args input hargs
    refine ⟨_, dispatch_request fromStr turn hentry hargs, htenant, hllm, ?_⟩
    exact filter_eq_iff.mpr htools

/-- **A PLAYBOOK RUNS AS ITS CALLER** exactly when the first call of the
    sequence that shares the key came from the same caller. -/
theorem playbook_runs_as_caller (hjson : ∃ args input, fromStr args = .ok input)
    (docs : List PlaybookOperation) (calls : List Call) (httl : WithinTtl calls)
    (i : Nat) (c : Call) (hi : calls[i]? = some c) (playbookId : String) (op : PlaybookOperation)
    (hop : documentOf docs playbookId = some op) :
    (∃ cat, (catalogs docs .empty calls)[i]? = some cat ∧ RunsAs fromStr turn c cat op)
      ↔ ∃ d, firstWithKey calls c.key = some d ∧ SameCaller d c op := by
  have hserved := catalogs_served docs calls [] .empty (fun _ => rfl) httl i c hi
  rw [List.nil_append] at hserved
  rw [hserved]
  constructor
  · rintro ⟨cat, hcat, hruns⟩
    obtain ⟨d, hd, rfl⟩ := Option.map_eq_some_iff.mp hcat
    exact ⟨d, hd, (built_runsAs_iff fromStr turn hop hjson).mp hruns⟩
  · rintro ⟨d, hd, hsame⟩
    refine ⟨d.built docs, by rw [hd]; rfl, ?_⟩
    exact (built_runsAs_iff fromStr turn hop hjson).mpr hsame

end

/-! ## Two users of one tenant -/

/-- `serde_json::from_str` on the empty object; every other text is refused. -/
def emptyObjectOnly (args : String) : Except String Json :=
  if args = "\x7b\x7d" then .ok (.obj []) else .error "expected value at line 1 column 1"

/-- A turn that answers. -/
def repliesDone (_ : PlaybookTurnRequest) : Except String String := .ok "done"

/-- A document that binds two tools. -/
def refund : PlaybookOperation where
  playbookId := "refund"
  description := "Issue a refund"
  parameters := .obj [("type", .str "object")]
  instructions := "Follow the refund policy."
  llm := { tier := .reasoning, requires := [.toolCalling] }
  allowList := [{ extensionId := "greentic.billing", toolName := "refund" },
    { extensionId := "greentic.crm", toolName := "note" }]
  guardrails := []

/-- The worker of the tenant `acme` called by a user. -/
def calledBy (email : String) (now : Nat) : Call where
  tenant := { tenantId := "acme", envId := "prod", userEmail := some email }
  callerTools := [{ extensionId := "greentic.billing", toolName := "refund" }]
  callerLlm := { provider := "openai", model := "gpt-4o-mini" }
  checkedAt := now
  builtAt := now

/-- Ada calls the playbook twice. -/
theorem playbook_runs_as_caller_twice :
    ∃ cat, (catalogs [refund] .empty [calledBy "ada@acme.test" 0, calledBy "ada@acme.test" 1])[1]?
        = some cat
      ∧ RunsAs emptyObjectOnly repliesDone (calledBy "ada@acme.test" 1) cat refund := by
  refine (playbook_runs_as_caller emptyObjectOnly repliesDone
    ⟨"\x7b\x7d", .obj [], by simp [emptyObjectOnly]⟩ [refund]
    [calledBy "ada@acme.test" 0, calledBy "ada@acme.test" 1] ?_ 1 _ rfl "refund" refund rfl).mpr ?_
  · intro c hc d hd
    simp only [List.mem_cons, List.not_mem_nil, or_false] at hc hd
    rcases hc with rfl | rfl <;> rcases hd with rfl | rfl <;> decide
  · refine ⟨calledBy "ada@acme.test" 0, by simp [firstWithKey, Call.key, calledBy], rfl, rfl, ?_⟩
    intro t _
    rfl

/-- A second user of the tenant: the playbook still runs as the first one. -/
theorem secondUser_runs_as_first :
    ∃ cat, (catalogs [refund] .empty [calledBy "ada@acme.test" 0, calledBy "bob@acme.test" 1])[1]?
        = some cat
      ∧ (∃ request, (dispatch emptyObjectOnly repliesDone cat "refund" "\x7b\x7d").2 = some request
        ∧ request.tenant.userEmail = some "ada@acme.test")
      ∧ ¬ RunsAs emptyObjectOnly repliesDone (calledBy "bob@acme.test" 1) cat refund := by
  have hjson : emptyObjectOnly "\x7b\x7d" = .ok (.obj []) := by simp [emptyObjectOnly]
  refine ⟨(calledBy "ada@acme.test" 0).built [refund], ?_, ?_, ?_⟩
  · simp [catalogs, catalog, Call.key, calledBy, cacheKey, Call.built, fromSource, catalogTtl]
  · exact ⟨_, dispatch_request emptyObjectOnly repliesDone rfl hjson, rfl⟩
  · have hop : documentOf [refund] "refund" = some refund := rfl
    rw [built_runsAs_iff emptyObjectOnly repliesDone hop ⟨_, _, hjson⟩]
    rintro ⟨h, -, -⟩
    simp [calledBy] at h

end Greentic.Playbook
