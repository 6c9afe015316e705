import GreenticRunner.AgentErrors
import GreenticRunner.DispatchBridge

/-! # Dispatches served by the agent runtime

    `serve.rs`: one dispatch is one agent step, unless its ledger entry shows that
    the same message was served before.

    * `resolveSessionId`, `stepSucceeded`, `outcomeOutput` — a dispatch as a step;
    * `invokeIdentified` — the ledger, the step and the record;
    * `redelivered_only_if_nothing_ran` — the bridge has a dispatch run again
      exactly when it ran nothing, up to texts of the model and the guardrails that
      carry one of the markers it searches for. -/

namespace Greentic.Bridge

open Resumption Aw

/-! ## Error texts -/

/-- `Display` of `StateError`. -/
def displayState : StateError → String
  | .redis reason => "redis error: " ++ reason
  | .schemaIncompatible found supported =>
      "schema version " ++ toString found ++ " not supported (max supported: "
        ++ toString supported ++ ")"
  | .decode reason => "decode error: " ++ reason
  | .lockTimeout wait => "lock acquisition timed out after " ++ debugDuration wait
  | .lockLost => "session lock no longer owned by this holder"

/-- `Display` of `LlmError`. -/
def displayLlm : LlmError → String
  | .serviceUnavailable => "provider returned 5xx after retries"
  | .badRequest reason => "provider returned 4xx: " ++ reason
  | .rateLimited reason => "provider rate limited: " ++ reason
  | .transport reason => "transport: " ++ reason
  | .decode reason => "decode: " ++ reason

/-- `Display` of `ConfigError`. -/
def displayConfig : ConfigError → String
  | .agentNotFound agentId => "agent_id " ++ agentId ++ " not found for tenant"
  | .misconfigured reason => "provider misconfigured: " ++ reason
  | .internal reason => "internal: " ++ reason

/-- `GuardrailDirection::as_str`. -/
def directionName : GuardrailDirection → String
  | .inbound => "inbound"
  | .outbound => "outbound"

/-- `Display` of `AgentError`. -/
def display : AgentError → String
  | .stateLoad e => "agent state load failed: " ++ displayState e
  | .stateUnavailable e => stateUnavailableMarker ++ ": " ++ displayState e
  | .llmProviderUnavailable => "llm provider unavailable"
  | .llm e => "llm error: " ++ displayLlm e
  | .config e => "config error: " ++ displayConfig e
  | .tokenBudgetExceeded => "daily token budget exceeded"
  | .creditBudgetExceeded => "credit budget exceeded"
  | .lockTimeout => "session lock could not be acquired within wait window"
  | .lockLost => "session lock was lost mid-step; aborting without saving"
  | .guardrailDenied direction info =>
      "guardrail denied (" ++ directionName direction ++ "): " ++ info.message

/-- The texts of the sources of an `AgentError`: those of its `#[from]` variants. -/
def sources : AgentError → List String
  | .stateLoad e => [displayState e]
  | .llm e => [displayLlm e]
  | .config e => [displayConfig e]
  | _ => []

/-- A text of the error itself carries a marker. -/
def carriesMarker (e : AgentError) : Bool := (display e :: sources e).any marked

/-- The context a failed step is reported with. -/
def stepContext (target : String) : String := "agentic step failed for agent '" ++ target ++ "'"

/-- The error chain of a failed step. -/
def stepFailed (target : String) (e : AgentError) : ErrorChain :=
  ⟨false, stepContext target, display e :: sources e⟩

/-! ## One dispatch -/

/-- `validate_target_id`. -/
def validateTargetId (id : String) : Except String Unit :=
  if id.isEmpty then .error "target is empty"
  else if maxIdLen < id.utf8ByteSize then
    .error ("target is longer than " ++ toString maxIdLen ++ " bytes")
  else if (id.toList.any fun c => c == '/' || c == '\\' || c == '?' || c == '#' || c == '%')
      || hasDots id.toList || id.toList.any fun c => isControl c || isWhitespace c then
    .error "target contains a forbidden character"
  else .ok ()

/-- What a dispatch is invoked with. -/
structure Dispatch where
  tenant : String
  env : String
  target : String
  input : Json
  idempotencyKey : Option String
  dispatchId : Option String

/-- The dispatch of a parsed request. -/
def ParsedRequest.dispatch (p : ParsedRequest) : Dispatch :=
  ⟨p.tenant, p.env, p.request.target, p.request.input, p.idempotency, p.dispatchId⟩

/-- `extract_user_text`. -/
def extractUserText (input : Json) : String :=
  ((((input.get? "user_text").or (input.get? "text")).bind Json.asStr?).or input.asStr?).getD ""

/-- `shorten_session_id`. -/
def shortenSessionId (sha256 : List UInt8 → List UInt8) (id : String) : String :=
  if id.utf8ByteSize ≤ maxSessionIdLen || id.toList.any isControl then id
  else "h:" ++ String.join ((sha256 id.toUTF8.toList).map hexByte)

/-- `resolve_session_id`. -/
def resolveSessionId (sha256 : List UInt8 → List UInt8) (input : Json)
    (idempotencyKey : Option String) : String :=
  shortenSessionId sha256 ((((((input.get? "session_id").bind Json.asStr?).or
    idempotencyKey).filter fun hint => !hint.isEmpty)).getD "agentic-dispatch")

/-- `step_succeeded`. -/
def stepSucceeded : TerminationReason → Bool
  | .timeout => false
  | .maxIterations => false
  | .error => false
  | .tokenBudgetExceeded => false
  | _ => true

/-- The serialized name of a `TerminationReason`. -/
def reasonName : TerminationReason → String
  | .finalReply => "final_reply"
  | .maxIterations => "max_iterations"
  | .timeout => "timeout"
  | .error => "error"
  | .tokenBudgetExceeded => "token_budget_exceeded"
  | .conversationEnded => "conversation_ended"
  | .awaitingToolInput => "awaiting_tool_input"

/-- The output of a dispatch; `trailValue` is the serialized trail. -/
def outcomeOutput (trailValue : List AgentStep → Json) (output : AgentOutput) : Json :=
  .obj [("reply", .str output.reply), ("terminated_by", .str (reasonName output.terminatedBy)),
    ("trail", trailValue output.trail)]

/-- `step_failure`. -/
def stepFailure (ok : Bool) (output : Json) : Option DispatchError :=
  if ok then none
  else
    let code := ((output.get? "terminated_by").bind Json.asStr?).getD "error"
    some ⟨code, "agent step ended without a reply: " ++ code⟩

/-- The operations of a dispatch: the ledger, and those of the step. -/
inductive ServeOp where
  | ledgerGet (key : String)
  | turn (op : Op)
  | ledgerRecord (key : String) (output : Json)

/-- The answer of each operation. -/
@[reducible] def ServeOp.Res : ServeOp → Type
  | .ledgerGet _ => Except StateError (Option Json)
  | .turn op => op.Res
  | .ledgerRecord _ _ => Except StateError Unit

/-- A part of a dispatch. -/
abbrev Serve (α : Type) : Type := Prog ServeOp ServeOp.Res ErrorChain α

/-- A check of an id: its text is the whole error. -/
def require (c : Except String Unit) : Serve Unit :=
  match c with
  | .ok _ => .ret ()
  | .error text => .fail ⟨false, text, []⟩

/-- A dispatch whose step has ended: a success is recorded under its key. -/
def settleStep (trailValue : List AgentStep → Json) (key : Option String) (output : AgentOutput) :
    Serve InvokeOutcome :=
  let value := outcomeOutput trailValue output
  let ok := stepSucceeded output.terminatedBy
  match ok, key with
  | true, some key => .call (.ledgerRecord key value) fun _ => .ret ⟨true, value, [], none⟩
  | _, _ => .ret ⟨ok, value, [], stepFailure ok value⟩

/-- The step of a dispatch, with the operations of the runtime. -/
def runtimeStep (rt : AgentRuntime) (d : Dispatch) (sessionId : String) : Serve AgentOutput :=
  ((runStep rt ⟨d.tenant, d.env⟩ sessionId d.target
      ⟨extractUserText d.input, ((d.input.get? "conversational").bind Json.asBool?).getD false,
        none, []⟩).mapOps ServeOp.turn fun _ r => r).mapError (stepFailed d.target)

/-- A dispatch that is not served from the ledger. -/
def invokeStep (rt : AgentRuntime) (trailValue : List AgentStep → Json) (d : Dispatch)
    (key : Option String) : Serve InvokeOutcome := do
  let sessionId := resolveSessionId rt.sha256 d.input d.idempotencyKey
  require (Aw.validateSessionId sessionId)
  let output ← runtimeStep rt d sessionId
  settleStep trailValue key output

/-- The ledger is asked before the step; a failed lookup runs the step. -/
def lookUp (rt : AgentRuntime) (trailValue : List AgentStep → Json) (d : Dispatch) :
    Serve InvokeOutcome :=
  match serveLedgerKey d.tenant d.env d.dispatchId with
  | none => invokeStep rt trailValue d none
  | some key => do
      match ← Prog.perform (ServeOp.ledgerGet key) with
      | .ok (some cached) => return ⟨true, cached, [], none⟩
      | .ok none => invokeStep rt trailValue d (some key)
      | .error _ => invokeStep rt trailValue d (some key)

/-- `invoke_identified`. -/
def invokeIdentified (rt : AgentRuntime) (trailValue : List AgentStep → Json) (d : Dispatch) :
    Serve InvokeOutcome := do
  require (Aw.validateScopeId "tenant" d.tenant)
  require (Aw.validateScopeId "env" d.env)
  require (validateTargetId d.target)
  lookUp rt trailValue d

/-! ## Texts without a marker -/

/-- A text without the separator lies on one side of it. -/
theorem infix_of_separated {m x y : List Char} {c : Char} (hc : c ∉ m)
    (h : m <:+: x ++ c :: y) : m <:+: x ∨ m <:+: y := by
  obtain ⟨s, t, hst⟩ := h
  rcases List.append_eq_append_iff.mp hst with ⟨z, hx, -⟩ | ⟨z, hsm, hcy⟩
  · exact Or.inl ⟨s, z, hx.symm⟩
  · cases z with
    | nil =>
        rw [List.append_nil] at hsm
        exact Or.inl ⟨s, [], by rw [List.append_nil, hsm]⟩
    | cons c' z =>
        -- the text ends behind the separator, so it begins behind it as well
        obtain ⟨rfl, rfl⟩ := List.cons.inj hcy
        rcases List.append_eq_append_iff.mp hsm with ⟨w, -, hm⟩ | ⟨w, -, hz⟩
        · exact absurd (hm ▸ List.mem_append_right w (List.mem_cons_self ..)) hc
        · cases w with
          | nil =>
              rw [List.nil_append] at hz
              exact absurd (hz ▸ List.mem_cons_self ..) hc
          | cons d w =>
              obtain ⟨-, rfl⟩ := List.cons.inj hz
              exact Or.inr ⟨w, t, rfl⟩

/-- A text that is not within another is not found. -/
theorem contains_false {text pattern : String} (h : ¬ pattern.toList <:+: text.toList) :
    contains text pattern = false := by
  unfold contains
  exact decide_eq_false h

/-- The target of a step has no whitespace. -/
theorem target_noSpace {target : String} (h : validateTargetId target = .ok ()) :
    ' ' ∉ target.toList := by
  unfold validateTargetId at h
  split at h
  · exact nomatch h
  · split at h
    · exact nomatch h
    · split at h
      · exact nomatch h
      · rename_i hok
        intro hin
        refine hok ?_
        have hany : (target.toList.any fun c => isControl c || isWhitespace c) = true := by
          rw [List.any_eq_true]
          exact ⟨' ', hin, by decide⟩
        rw [hany, Bool.or_true]

/-- The characters of the context, up to the quote. -/
theorem contextOpen_toList : "agentic step failed for agent '".toList
    = "agentic step failed for agent ".toList ++ ['\''] := by
  rw [← String.toList_push]
  rfl

theorem contextClose_toList : "'".toList = ['\''] := String.toList_ofList

/-- The characters of the whole context. -/
theorem stepContext_toList (target : String) : (stepContext target).toList
    = "agentic step failed for agent ".toList ++ '\'' :: (target.toList ++ ['\'']) := by
  unfold stepContext
  rw [String.toList_append, String.toList_append, contextOpen_toList, contextClose_toList,
    List.append_assoc, List.append_assoc, List.singleton_append]

/-- The context of a failed step carries no marker: the marker would lie before the
    quoted target or in it. -/
theorem stepContext_unmarked {target : String} (h : validateTargetId target = .ok ()) :
    marked (stepContext target) = false := by
  have hno : ∀ {marker : String} {letters opening : List Char}, marker.toList = letters →
      "agentic step failed for agent ".toList = opening → '\'' ∉ letters → ' ' ∈ letters →
      ¬ letters <:+: opening → contains (stepContext target) marker = false := by
    intro marker letters opening hmarker hprefix hquote hspace hopen
    refine contains_false ?_
    rw [stepContext_toList, hmarker, hprefix]
    intro hin
    rcases infix_of_separated hquote hin with hl | hr
    · exact hopen hl
    · have hmem := hr.subset hspace
      rcases List.mem_append.mp hmem with hmem | hmem
      · exact target_noSpace h hmem
      · exact absurd (List.mem_singleton.mp hmem) (by decide)
  have hlock : contains (stepContext target) lockContentionMarker = false :=
    hno String.toList_ofList String.toList_ofList (by decide) (by decide) (by decide)
  have hstate : contains (stepContext target) stateUnavailableMarker = false :=
    hno String.toList_ofList String.toList_ofList (by decide) (by decide) (by decide)
  unfold marked
  rw [hlock, hstate]
  rfl

/-- The context of a valid target hides no marker and adds none. -/
theorem isLockContention_stepFailed {target : String} (h : validateTargetId target = .ok ())
    (e : AgentError) : isLockContention (stepFailed target e) = carriesMarker e := by
  unfold isLockContention stepFailed carriesMarker
  rw [List.any_cons, stepContext_unmarked h]
  rfl

/-- A text is unmarked when the letters of neither marker are part of its own. -/
theorem marked_false {text : String} {letters lock state : List Char}
    (htext : text.toList = letters) (hlock : lockContentionMarker.toList = lock)
    (hstate : stateUnavailableMarker.toList = state)
    (hout : ¬ lock <:+: letters ∧ ¬ state <:+: letters) : marked text = false := by
  unfold marked
  rw [contains_false (by rw [htext, hlock]; exact hout.1),
    contains_false (by rw [htext, hstate]; exact hout.2)]
  rfl

theorem letters_append {s t : String} {cs ds : List Char} (hs : s.toList = cs)
    (ht : t.toList = ds) : (s ++ t).toList = cs ++ ds := by
  rw [String.toList_append, hs, ht]

/-- The runtime's own texts carry no marker. -/
theorem fixed_unmarked {e : AgentError} (h : Fixed e) : carriesMarker e = false := by
  have hone : ∀ e, sources e = [] → marked (display e) = false → carriesMarker e = false := by
    intro e hsources hmarked
    unfold carriesMarker
    rw [hsources, List.any_cons, hmarked]
    rfl
  have hlit : ∀ {letters : List Char}, (String.ofList letters).toList = letters :=
    String.toList_ofList
  cases h with
  | lockLost => exact hone _ rfl (marked_false hlit hlit hlit (by decide))
  | unavailable d details =>
      refine hone _ rfl ?_
      cases d
      · exact marked_false (letters_append (letters_append (letters_append hlit hlit) hlit) hlit)
          hlit hlit (by decide)
      · exact marked_false (letters_append (letters_append (letters_append hlit hlit) hlit) hlit)
          hlit hlit (by decide)

/-! ## What a dispatch ran -/

/-- The operations of the step among those of a dispatch. -/
def turnEvents (h : List (Event ServeOp ServeOp.Res)) : List Ev :=
  h.filterMap fun ev => match ev with
    | ⟨.turn op, r⟩ => some ⟨op, r⟩
    | _ => none

theorem turnEvents_snoc (h : List (Event ServeOp ServeOp.Res)) (op : Op) (r : op.Res) :
    turnEvents (h ++ [⟨.turn op, r⟩]) = turnEvents h ++ [⟨op, r⟩] := by
  simp [turnEvents, List.filterMap_append]

/-- How a dispatch ends: an error is one of its own checks, before the step, or the
    error of the step. -/
def ServeEnd (target : String) (h : List (Event ServeOp ServeOp.Res)) :
    Except ErrorChain InvokeOutcome → Prop
  | .ok _ => Calm (turnEvents h)
  | .error c => turnEvents h = [] ∨ (validateTargetId target = .ok () ∧
      ∃ e, c = stepFailed target e ∧ TurnEnd (α := AgentOutput) (turnEvents h) (.error e))

/-- Every operation of a dispatch is allowed. -/
abbrev anyServe : List (Event ServeOp ServeOp.Res) → Event ServeOp ServeOp.Res → Prop :=
  fun _ _ => True

/-- A check in front does not change how the rest ends. -/
theorem require_bind_end {α : Type}
    {ok : List (Event ServeOp ServeOp.Res) → Event ServeOp ServeOp.Res → Prop}
    {Q : List (Event ServeOp ServeOp.Res) → Except ErrorChain α → Prop}
    {h : List (Event ServeOp ServeOp.Res)} (c : Except String Unit) {p : Serve α}
    (herr : ∀ e, c ≠ .ok () → Q h (.error e)) (hok : c = .ok () → p.Traced ok Q h) :
    (require c >>= fun _ => p).Traced ok Q h := by
  cases c with
  | ok u => exact hok rfl
  | error text => exact herr _ (fun hc => nomatch hc)

/-- The reply has no further error of the turn. -/
theorem settleStep_end (trailValue : List AgentStep → Json) (key : Option String)
    (output : AgentOutput) (target : String) {h : List (Event ServeOp ServeOp.Res)}
    (hc : Calm (turnEvents h)) :
    (settleStep trailValue key output).Traced anyServe (ServeEnd target) h := by
  unfold settleStep
  dsimp only
  split
  · intro r
    refine ⟨trivial, ?_⟩
    show Calm (turnEvents (h ++ _))
    simpa [turnEvents, List.filterMap_append] using hc
  · exact hc

/-- The turn of a delivery ends as its history says. -/
theorem invokeStep_end (rt : AgentRuntime) (trailValue : List AgentStep → Json) (d : Dispatch)
    (key : Option String) (htarget : validateTargetId d.target = .ok ())
    {h : List (Event ServeOp ServeOp.Res)} (hnil : turnEvents h = []) :
    (invokeStep rt trailValue d key).Traced anyServe (ServeEnd d.target) h := by
  unfold invokeStep
  refine require_bind_end _ (fun e _ => Or.inl hnil) ?_
  intro _
  refine Prog.Traced.bind ?_ ?_ (?_ : (runtimeStep rt d _).Traced anyServe
    (fun h' r => match r with
      | .ok _ => Calm (turnEvents h')
      | .error c => ∃ e, c = stepFailed d.target e
          ∧ TurnEnd (α := AgentOutput) (turnEvents h') (.error e)) h)
  · intro h' output hc
    exact settleStep_end trailValue key output d.target hc
  · rintro h' c ⟨e, rfl, hend⟩
    exact Or.inr ⟨htarget, e, rfl, hend⟩
  · refine Prog.Traced.mapError (Q := fun h' r => TurnEnd (turnEvents h') r) ?_ ?_ ?_
    · intro h' output hend
      exact hend
    · intro h' e hend
      exact ⟨e, rfl, hend⟩
    · have hstep := runStep_turnEnd rt ⟨d.tenant, d.env⟩
        (resolveSessionId rt.sha256 d.input d.idempotencyKey) d.target
        ⟨extractUserText d.input, ((d.input.get? "conversational").bind Json.asBool?).getD false,
          none, []⟩
      rw [← hnil] at hstep
      exact Prog.Traced.mono (fun _ _ h => h.2) (Prog.Traced.mapOps (I := fun _ => True)
        turnEvents_snoc (fun _ _ _ _ => trivial) (fun _ _ _ _ _ => trivial) trivial hstep)

/-- **A DISPATCH** ends like its step, or before it. -/
theorem invokeIdentified_end (rt : AgentRuntime) (trailValue : List AgentStep → Json)
    (d : Dispatch) :
    (invokeIdentified rt trailValue d).Traced anyServe (ServeEnd d.target) [] := by
  unfold invokeIdentified
  refine require_bind_end _ (fun e _ => Or.inl rfl) fun _ => ?_
  refine require_bind_end _ (fun e _ => Or.inl rfl) fun _ => ?_
  refine require_bind_end _ (fun e _ => Or.inl rfl) fun htarget => ?_
  unfold lookUp
  split
  · exact invokeStep_end rt trailValue d _ htarget rfl
  · rw [Prog.perform_bind]
    intro answer
    refine ⟨trivial, ?_⟩
    rcases answer with e | cached
    · exact invokeStep_end rt trailValue d _ htarget rfl
    · cases cached with
      | none => exact invokeStep_end rt trailValue d _ htarget rfl
      | some value => exact fun ev hev => nomatch hev

/-! ## A request is redelivered only if nothing ran -/

/-- A delivery is busy exactly if its turn found the lock taken. -/
theorem handle_busy_iff {decode : List UInt8 → Except String RuntimeDispatchRequest}
    {msg : Message} {parsed : ParsedRequest} (hparse : parseRequest decode msg = .ok parsed)
    (r : Except ErrorChain InvokeOutcome) (sent : Except String Unit) :
    (handleMessageOutcome decode msg (fun _ => r) sent .redeliver).1 = .ok .busy
      ↔ ∃ c, r = .error c ∧ isLockContention c = true := by
  have hpublish : ∀ p, (publishResponse sent .handled p).1 ≠ .ok .busy := by
    intro p
    rcases publishResponse_cases sent .handled p with h | ⟨e, h⟩
    · rw [h]
      rintro ⟨⟩
    · rw [h]
      rintro ⟨⟩
  unfold handleMessageOutcome
  rw [hparse]
  cases r with
  | ok outcome =>
      refine ⟨fun h => absurd h (hpublish _), ?_⟩
      rintro ⟨c, hc, -⟩
      exact nomatch hc
  | error c =>
      dsimp only
      by_cases hcont : isLockContention c = true
      · rw [hcont]
        exact ⟨fun _ => ⟨c, rfl, hcont⟩, fun _ => rfl⟩
      · rw [Bool.not_eq_true] at hcont
        rw [hcont]
        refine ⟨fun h => absurd h (hpublish _), ?_⟩
        rintro ⟨c', hc', hcont'⟩
        cases hc'
        rw [hcont] at hcont'
        exact nomatch hcont'

/-- **REDELIVERED ONLY IF NOTHING RAN**: a request that is handed back had no effect,
    exactly when no fatal answer of the model or of a guardrail carries a marker. -/
theorem redelivered_only_if_nothing_ran
    (decode : List UInt8 → Except String RuntimeDispatchRequest) (msg : Message)
    (parsed : ParsedRequest) (hparse : parseRequest decode msg = .ok parsed) (rt : AgentRuntime)
    (trailValue : List AgentStep → Json) (h : List (Event ServeOp ServeOp.Res))
    (r : Except ErrorChain InvokeOutcome)
    (hran : (invokeIdentified rt trailValue parsed.dispatch).Ran h r)
    (sent : Except String Unit) :
    ((handleMessageOutcome decode msg (fun _ => r) sent .redeliver).1 = .ok .busy →
        ∀ ev ∈ turnEvents h, ¬ Effect ev)
      ↔ ∀ ev ∈ turnEvents h, ∀ e, fatal ev = some e → carriesMarker e = false := by
  have hend : ServeEnd parsed.dispatch.target h r :=
    Prog.Traced.ran hran (invokeIdentified_end rt trailValue parsed.dispatch)
  rw [handle_busy_iff hparse]
  constructor
  · intro hidle ev hev e he
    cases r with
    | ok outcome =>
        rw [hend ev hev] at he
        exact nomatch he
    | error c =>
        rcases hend with hnil | ⟨htarget, e', rfl, hend⟩
        · rw [hnil] at hev
          exact nomatch hev
        · rcases hend with ⟨hc, -⟩ | ⟨⟨-, honly⟩, ev', hev', heff⟩ | hstill
          · rw [hc ev hev] at he
            exact nomatch he
          · -- the fatal answer is the error of the step, which had an effect
            obtain rfl := honly ev hev e he
            by_contra hmark
            refine hidle ⟨_, rfl, ?_⟩ ev' hev' heff
            rw [isLockContention_stepFailed htarget]
            exact Bool.eq_true_of_not_eq_false hmark
          · rw [(hstill ev hev).1] at he
            exact nomatch he
  · rintro hclean ⟨c, rfl, hcont⟩
    rcases hend with hnil | ⟨htarget, e, rfl, hend⟩
    · rw [hnil]
      exact fun ev hev => nomatch hev
    · rw [isLockContention_stepFailed htarget] at hcont
      rcases hend with ⟨-, hfixed⟩ | ⟨⟨⟨ev, hev, he⟩, -⟩, -⟩ | hstill
      · rw [fixed_unmarked hfixed] at hcont
        exact nomatch hcont
      · rw [hclean ev hev e he] at hcont
        exact nomatch hcont
      · exact fun ev hev => (hstill ev hev).2

/-! ## A provider that quotes the marker -/

/-- A request of the tenant `acme`. -/
def asked : Message where
  header name := if name = tenantHeader then some "acme" else none
  payload := []

/-- The body of the request. -/
def ping : RuntimeDispatchRequest := ⟨"greeter", "", .obj [("user_text", .str "ping")]⟩

/-- `serde_json::from_slice` on the payload of the request. -/
def decodePing (_ : List UInt8) : Except String RuntimeDispatchRequest := .ok ping

/-- The request as it is parsed. -/
def askedRequest : ParsedRequest := ⟨"acme", "default", none, none, none, ping⟩

theorem asked_parsed : parseRequest decodePing asked = .ok askedRequest := by rfl

/-- An agent without tools and guardrails. -/
def greeter : AgentConfig :=
  ⟨[], [], .default, false, false, false, .cancel, none⟩

/-- A session without history, where the lock and the model answer as given. -/
def greeterTurn (lock : Except StateError Unit) (completion : Completion) : (op : Op) → op.Res
  | .agentConfig _ => .ok greeter
  | .tokensUsed => .ok 0
  | .overBudget => false
  | .acquireLock => lock
  | .load => .ok .empty
  | .save _ => .ok ()
  | .refresh => .ok ()
  | .release => ()
  | .utcNow => 0
  | .elapsed => 0
  | .mandatoryGuardrails => .ok []
  | .capabilityRegistry => fun _ => none
  | .chain _ _ => ()
  | .evaluate _ _ => .accept
  | .complete _ => completion
  | .newUuid _ => "0"
  | .recallLongTerm _ _ => .ok (.arr [])
  | .remember _ _ => .ok ()
  | .recall _ => .ok none
  | .ledgerGet _ _ => .ok none
  | .ledgerRecord _ _ _ => .ok ()
  | .dispatch _ _ => ⟨.obj [], none⟩
  | .invokeFlow _ _ => none
  | .resumeFlow _ _ _ => none

/-- The same with an empty dispatch ledger. -/
def greeterServe (lock : Except StateError Unit) (completion : Completion) :
    (op : ServeOp) → op.Res
  | .ledgerGet _ => .ok none
  | .turn op => greeterTurn lock completion op
  | .ledgerRecord _ _ => .ok ()

/-- A runtime without memories; its digest is never taken here. -/
def greeterRuntime : AgentRuntime := ⟨false, false, id⟩

/-- The dispatch of the request under these answers. -/
def greeterRun (lock : Except StateError Unit) (completion : Completion) :
    List (Event ServeOp ServeOp.Res) × Except ErrorChain InvokeOutcome :=
  (invokeIdentified greeterRuntime (fun _ => .arr []) askedRequest.dispatch).answered
    (greeterServe lock completion)

/-- The error is one the bridge hands back. -/
def contended : Except ErrorChain InvokeOutcome → Bool
  | .error c => isLockContention c
  | .ok _ => false

/-- The model was called or a state saved. -/
def effectful (h : List (Event ServeOp ServeOp.Res)) : Bool :=
  (turnEvents h).any fun ev => match ev with
    | ⟨.complete _, _⟩ => true
    | ⟨.save _, _⟩ => true
    | _ => false

/-- The test for an effect is sound. -/
theorem effectful_effect {h : List (Event ServeOp ServeOp.Res)} (he : effectful h = true) :
    ∃ ev ∈ turnEvents h, Effect ev := by
  obtain ⟨⟨op, r⟩, hev, htest⟩ := List.any_eq_true.mp he
  refine ⟨⟨op, r⟩, hev, ?_⟩
  cases op <;> first
    | exact trivial
    | exact nomatch htest

/-- And so is the one for a lock that was taken. -/
theorem contended_busy {r : Except ErrorChain InvokeOutcome} (hr : contended r = true)
    (sent : Except String Unit) :
    (handleMessageOutcome decodePing asked (fun _ => r) sent .redeliver).1 = .ok .busy := by
  rw [handle_busy_iff asked_parsed]
  cases r with
  | ok outcome => exact nomatch hr
  | error c => exact ⟨c, rfl, hr⟩

/-- A busy session: the request is handed back and nothing ran. -/
theorem redelivered_only_if_nothing_ran_busy :
    (handleMessageOutcome decodePing asked
        (fun _ => (greeterRun (.error (.lockTimeout 5000000000)) .timedOut).2) (.ok ())
        .redeliver).1 = .ok .busy
      ∧ ∀ ev ∈ turnEvents (greeterRun (.error (.lockTimeout 5000000000)) .timedOut).1,
        ¬ Effect ev := by
  have hbusy := contended_busy
    (r := (greeterRun (.error (.lockTimeout 5000000000)) .timedOut).2) (by decide +kernel) (.ok ())
  refine ⟨hbusy, ?_⟩
  refine (redelivered_only_if_nothing_ran decodePing asked askedRequest asked_parsed
    greeterRuntime (fun _ => .arr []) _ _ (Prog.ran_answered _ _) (.ok ())).mpr ?_ hbusy
  -- no answer of this run is fatal
  have hcalm : ((turnEvents (greeterRun (.error (.lockTimeout 5000000000)) .timedOut).1).all
      fun ev => (fatal ev).isNone) = true := by decide +kernel
  intro ev hev e he
  have hnone := List.all_eq_true.mp hcalm ev hev
  rw [he] at hnone
  exact nomatch hnone

/-- A provider that rejects the request with a text that quotes the marker. -/
def quoting : Completion :=
  .error (.badRequest "upstream: session lock could not be acquired")

/-- The model was called and the history saved, and the request is handed back. -/
theorem quotedMarker_redelivered :
    (invokeIdentified greeterRuntime (fun _ => .arr []) askedRequest.dispatch).Ran
        (greeterRun (.ok ()) quoting).1 (greeterRun (.ok ()) quoting).2
      ∧ (handleMessageOutcome decodePing asked (fun _ => (greeterRun (.ok ()) quoting).2) (.ok ())
        .redeliver).1 = .ok .busy
      ∧ ∃ ev ∈ turnEvents (greeterRun (.ok ()) quoting).1, Effect ev := by
  refine ⟨Prog.ran_answered _ _, ?_, ?_⟩
  · exact contended_busy (by decide +kernel) (.ok ())
  · exact effectful_effect (by decide +kernel)

end Greentic.Bridge
