import GreenticRunner.AgentModel
import GreenticRunner.ConversationProofs
import GreenticRunner.ResumptionTrace

/-! # The trace of a turn: tools and guardrails

    What the parts of a turn that touch neither the store nor the model do, on every
    answer they may get: which operations they perform and what they return.

    * `ensureUniqueCallIds_traced` — the ids of a batch differ;
    * `runCall_traced`, `runCalls_traced` — every call of a batch gets its result, up to
      one that parks;
    * `runChainBlocking_traced` — a chain passes a text through its guardrails. -/

namespace Greentic.Aw

open Resumption

/-- An operation of a turn with its answer. -/
abbrev Ev : Type := Event Op Op.Res

/-! ## Kinds of events -/

/-- The operations a tool call may perform; the ledger is used under the id of the call
    and never stores an error. -/
def ToolOp (rt : AgentRuntime) : Op → Prop
  | .newUuid _ => True
  | .utcNow => True
  | .recallLongTerm _ _ => True
  | .remember _ _ => True
  | .recall _ => True
  | .dispatch _ _ => True
  | .invokeFlow _ _ => True
  | .ledgerGet call id => id = rt.ledgerCallId call
  | .ledgerRecord call id result => id = rt.ledgerCallId call ∧ isErrorResult result = false
  | _ => False

/-- A flow tool parked on the user. -/
def InvokeParks : Ev → Prop
  | ⟨.invokeFlow _ _, some (.waiting _ _)⟩ => True
  | _ => False

/-- A flow parked with the snapshot `S`, at its first call or at a resume. -/
def Parks (S : Json) : Ev → Prop
  | ⟨.invokeFlow _ _, some (.waiting snapshot _)⟩ => snapshot = S
  | ⟨.resumeFlow _ _ _, some (.waiting snapshot _)⟩ => snapshot = S
  | _ => False

/-- The resume of the snapshot `S` completed. -/
def Completes (S : Json) : Ev → Prop
  | ⟨.resumeFlow _ snapshot _, some (.completed _)⟩ => snapshot = S
  | _ => False

/-- The model was called. -/
def IsComplete : Ev → Prop
  | ⟨.complete _, _⟩ => True
  | _ => False

/-- The outbound chain was started. -/
def StartsOutbound : Ev → Prop
  | ⟨.chain .outbound _, _⟩ => True
  | _ => False

/-- A guardrail denied a text in the direction `d`. -/
def Denies (d : GuardrailDirection) : Ev → Prop
  | ⟨.evaluate g input, .deny _⟩ => input.direction = d ∧ g.mode = .enforce
  | ⟨.evaluate g input, .error _⟩ => input.direction = d ∧ g.mandatory = true
  | ⟨.evaluate _ input, .panic⟩ => input.direction = d
  | _ => False

/-- An event that neither calls the model nor starts the outbound chain nor resumes a
    flow. -/
structure Quiet (e : Ev) : Prop where
  complete : ¬ IsComplete e
  outbound : ¬ StartsOutbound e
  resume : ∀ S, ¬ Completes S e

theorem ToolOp.quiet {rt : AgentRuntime} {e : Ev} (h : ToolOp rt e.1) : Quiet e := by
  obtain ⟨i, r⟩ := e
  cases i <;> first
    | exact False.elim h
    | exact ⟨fun h => h, fun h => h, fun _ h => h⟩

/-- The assumptions on what a turn is told: a stored conversation is well shaped, and a
    new uuid differs from the ids of the batch. -/
def Assumed : Ev → Prop
  | ⟨.load, .ok state⟩ => WellShaped state
  | ⟨.newUuid seen, uuid⟩ => "call_" ++ uuid ∉ seen
  | _ => True

/-- The assumptions on a whole trace. -/
def Given (h : List Ev) : Prop := ∀ e ∈ h, Assumed e

theorem Given.left {h evs : List Ev} (hg : Given (h ++ evs)) : Given h :=
  fun e he => hg e (List.mem_append_left _ he)

/-! ## Unique ids -/

/-- A call with a new id, in front of the others. -/
theorem keptCalls_cons {calls calls' : List ToolCallRecord} {c c' : ToolCallRecord}
    (hc : c' = { c with callId := c'.callId })
    (h : ∀ c ∈ calls', ∃ c₀ ∈ calls, c = { c₀ with callId := c.callId }) :
    ∀ d ∈ c' :: calls', ∃ d₀ ∈ c :: calls, d = { d₀ with callId := d.callId } := by
  intro d hd
  rcases List.mem_cons.mp hd with rfl | hd
  · exact ⟨c, List.mem_cons_self .., hc⟩
  · obtain ⟨d₀, hd₀, heq⟩ := h d hd
    exact ⟨d₀, List.mem_cons_of_mem _ hd₀, heq⟩

/-- The ids are made distinct, and the calls stay the same otherwise. -/
theorem ensureUniqueCallIds_traced {rt : AgentRuntime} {ok : List Ev → Ev → Prop}
    (hok : ∀ h e, ToolOp rt e.1 → ok h e) :
    ∀ (calls : List ToolCallRecord) (seen : List String) (h : List Ev),
      (ensureUniqueCallIds seen calls).Traced ok (fun h' r => ∃ evs calls', r = .ok calls' ∧
        h' = h ++ evs ∧ (∀ e ∈ evs, ToolOp rt e.1 ∧ ¬ InvokeParks e) ∧
        calls'.length = calls.length ∧
        (∀ c ∈ calls', ∃ c₀ ∈ calls, c = { c₀ with callId := c.callId }) ∧
        (Given h' → (callIds calls').Nodup ∧ ∀ id ∈ callIds calls', id ∉ seen)) h := by
  intro calls
  induction calls with
  | nil =>
      intro seen h
      refine ⟨[], [], rfl, (List.append_nil h).symm, (fun e he => nomatch he), rfl,
        (fun c hc => nomatch hc), ?_⟩
      intro _
      exact ⟨List.nodup_nil, (fun id hid => nomatch hid)⟩
  | cons call rest ih =>
      intro seen h
      rw [ensureUniqueCallIds]
      by_cases hre : ((trim call.callId.toList).isEmpty || seen.contains call.callId) = true
      · rw [if_pos hre, Prog.perform_bind]
        intro uuid
        refine ⟨hok _ _ trivial, ?_⟩
        refine Prog.Traced.bind ?_ ?_ (ih _ _)
        · rintro h' calls' ⟨evs, calls'', hr, rfl, hevs, hlen, hkept, hids⟩
          cases hr
          refine ⟨⟨.newUuid seen, uuid⟩ :: evs, _, rfl, by simp, ?_, by simp [hlen],
            keptCalls_cons rfl hkept, ?_⟩
          · intro e he
            rcases List.mem_cons.mp he with rfl | he
            · exact ⟨trivial, fun h => h⟩
            · exact hevs e he
          · intro hg
            obtain ⟨hnd, hfresh⟩ := hids hg
            have hnew : "call_" ++ uuid ∉ seen := hg ⟨.newUuid seen, uuid⟩ (by simp)
            refine ⟨List.nodup_cons.mpr ⟨?_, hnd⟩, ?_⟩
            · intro hmem
              exact hfresh _ hmem (List.mem_cons_self ..)
            · intro id hid
              rcases List.mem_cons.mp hid with rfl | hid
              · exact hnew
              · intro hs
                exact hfresh id hid (List.mem_cons_of_mem _ hs)
        · rintro h' e ⟨evs, calls'', hr, -⟩
          exact nomatch hr
      · rw [if_neg hre]
        have hnew : call.callId ∉ seen := by
          intro hmem
          apply hre
          rw [List.contains_iff_mem.mpr hmem, Bool.or_true]
        refine Prog.Traced.bind ?_ ?_ (ih _ _)
        · rintro h' calls' ⟨evs, calls'', hr, rfl, hevs, hlen, hkept, hids⟩
          cases hr
          refine ⟨evs, _, rfl, rfl, hevs, by simp [hlen], keptCalls_cons rfl hkept, ?_⟩
          intro hg
          obtain ⟨hnd, hfresh⟩ := hids hg
          refine ⟨List.nodup_cons.mpr ⟨?_, hnd⟩, ?_⟩
          · intro hmem
            exact hfresh _ hmem (List.mem_cons_self ..)
          · intro id hid
            rcases List.mem_cons.mp hid with rfl | hid
            · exact hnew
            · intro hs
              exact hfresh id hid (List.mem_cons_of_mem _ hs)
        · rintro h' e ⟨evs, calls'', hr, -⟩
          exact nomatch hr

/-! ## One tool call -/

/-- What one call of a batch does: it is answered, or it parks. -/
inductive Called (x : StepEnv) (l : StepState) (call : ToolCallRecord) (evs : List Ev)
    (l' : StepState) : Prop where
  | answered (content : Json)
      (messages : l'.state.messages = l.state.messages ++ [.tool call.callId content])
      (pending : l'.state.pendingTool = l.state.pendingTool)
      (suspension : l'.suspension = l.suspension) (reply : l'.reply = l.reply)
      (terminatedBy : l'.terminatedBy = l.terminatedBy)
      (timed : l'.stepTimedOut = true → l.stepTimedOut = true ∨ l.suspension = none)
      (quiet : ∀ e ∈ evs, ¬ InvokeParks e)
  | parked (p : PendingToolCall) (presentation : Json)
      (messages : l'.state.messages = l.state.messages ∨
        ∃ content, l'.state.messages = l.state.messages ++ [.tool call.callId content])
      (pending : l'.state.pendingTool = some p) (callId : p.callId = call.callId)
      (suspension : l'.suspension = some presentation) (before : l.suspension = none)
      (reply : l'.reply = l.reply) (terminatedBy : l'.terminatedBy = l.terminatedBy)
      (timed : l'.stepTimedOut = false)
      (parks : ∃ e ∈ evs, InvokeParks e ∧ Parks p.flowSnapshot e)

/-- The postcondition of one call. -/
def CalledPost (x : StepEnv) (l : StepState) (call : ToolCallRecord) (h : List Ev) (h' : List Ev)
    (r : Except AgentError StepState) : Prop :=
  ∃ evs l', r = .ok l' ∧ h' = h ++ evs ∧ (∀ e ∈ evs, ToolOp x.rt e.1) ∧ Called x l call evs l'

section Calls

variable {x : StepEnv} {ok : List Ev → Ev → Prop}

/-- A call that is answered at once. -/
theorem calledPost_answer {l l' : StepState} {call : ToolCallRecord} {h evs : List Ev}
    (content : Json) (hstate : l'.state.messages = l.state.messages ++ [.tool call.callId content])
    (hpend : l'.state.pendingTool = l.state.pendingTool)
    (hsus : l'.suspension = l.suspension) (hreply : l'.reply = l.reply)
    (hterm : l'.terminatedBy = l.terminatedBy)
    (htimed : l'.stepTimedOut = true → l.stepTimedOut = true ∨ l.suspension = none)
    (hops : ∀ e ∈ evs, ToolOp x.rt e.1 ∧ ¬ InvokeParks e) :
    CalledPost x l call h (h ++ evs) (.ok l') :=
  ⟨evs, l', rfl, rfl, fun e he => (hops e he).1,
    .answered content hstate hpend hsus hreply hterm htimed fun e he => (hops e he).2⟩

/-- A call whose result is there adds the call and its result. -/
theorem settleCall_traced (hok : ∀ h e, ToolOp x.rt e.1 → ok h e) {l l₀ : StepState}
    (call : ToolCallRecord) (result : Json) {h evs : List Ev}
    (hops : ∀ e ∈ evs, ToolOp x.rt e.1 ∧ ¬ InvokeParks e)
    (hm : l.state.messages = l₀.state.messages) (hp : l.state.pendingTool = l₀.state.pendingTool)
    (hs : l.suspension = l₀.suspension) (hr : l.reply = l₀.reply)
    (ht : l.terminatedBy = l₀.terminatedBy) (hto : l.stepTimedOut = l₀.stepTimedOut) :
    (settleCall x l call result).Traced ok (CalledPost x l₀ call h) (h ++ evs) := by
  have hl : ∀ evs', (∀ e ∈ evs', ToolOp x.rt e.1 ∧ ¬ InvokeParks e) →
      CalledPost x l₀ call h (h ++ evs')
        (.ok ((l.answer call (capToolResult result)).record call result)) := by
    intro evs' hevs'
    refine calledPost_answer (capToolResult result) ?_ hp hs hr ht ?_ hevs'
    · show l.state.messages ++ _ = _
      rw [hm]
    · intro h
      exact .inl (hto ▸ h)
  rw [settleCall]
  by_cases he : isErrorResult result = true
  · rw [if_pos he]
    exact hl evs hops
  · rw [if_neg he]
    intro r
    refine ⟨hok _ _ ⟨rfl, Bool.eq_false_iff.mpr he⟩, ?_⟩
    show CalledPost x l₀ call h (h ++ evs ++ [_]) _
    rw [List.append_assoc]
    refine hl _ ?_
    intro e hmem
    rcases List.mem_append.mp hmem with hmem | hmem
    · exact hops e hmem
    · rw [List.mem_singleton.mp hmem]
      exact ⟨⟨rfl, Bool.eq_false_iff.mpr he⟩, fun h => h⟩

/-- The events of a call so far, with one more. -/
theorem toolEvents_snoc {P : Ev → Prop} {evs : List Ev} {e : Ev} (hevs : ∀ e ∈ evs, P e)
    (he : P e) : ∀ e' ∈ evs ++ [e], P e' := by
  intro e' hmem
  rcases List.mem_append.mp hmem with hmem | hmem
  · exact hevs e' hmem
  · rw [List.mem_singleton.mp hmem]
    exact he

/-- A call that parks adds its pending call. -/
theorem parkCall_traced (hok : ∀ h e, ToolOp x.rt e.1 → ok h e) {l : StepState}
    (call : ToolCallRecord) (flowRef : String) (snapshot presentation : Json) {h evs : List Ev}
    (hops : ∀ e ∈ evs, ToolOp x.rt e.1) (hs : l.suspension = none) (ht : l.stepTimedOut = false)
    (hpark : ∃ e ∈ evs, InvokeParks e ∧ Parks snapshot e) :
    (parkCall x l call flowRef snapshot presentation).Traced ok (CalledPost x l call h)
      (h ++ evs) := by
  rw [parkCall, Prog.perform_bind]
  intro now
  refine ⟨hok _ _ trivial, ?_⟩
  intro parkedAt
  refine ⟨hok _ _ trivial, ?_⟩
  rw [List.append_assoc, List.append_assoc]
  have hops' := toolEvents_snoc (toolEvents_snoc hops (e := ⟨.utcNow, now⟩) trivial)
    (e := ⟨.utcNow, parkedAt⟩) trivial
  rw [List.append_assoc] at hops'
  obtain ⟨e, he, hinv, hp⟩ := hpark
  have hpark' : ∃ e ∈ evs ++ ([⟨.utcNow, now⟩] ++ [⟨.utcNow, parkedAt⟩]),
      InvokeParks e ∧ Parks snapshot e := ⟨e, List.mem_append_left _ he, hinv, hp⟩
  let p : PendingToolCall :=
    ⟨call.callId, call.toolName, call.extensionId, call.args, flowRef, snapshot, l.iterations,
      PendingToolCall.expiryFrom now, some presentation, some parkedAt, 0, 0⟩
  -- the placeholder is written under the side-turn policy only
  by_cases hpol : x.config.onTextWhileParked = .sideTurn
  · refine ⟨_, _, rfl, rfl, hops', .parked p presentation (.inr ⟨awaitingPlaceholder, ?_⟩) ?_ rfl
      rfl hs ?_ ?_ ?_ hpark'⟩
    all_goals simp only [hpol, if_true]
    all_goals first
      | rfl
      | exact ht
  · refine ⟨_, _, rfl, rfl, hops', .parked p presentation (.inl ?_) ?_ rfl rfl hs ?_ ?_ ?_ hpark'⟩
    all_goals simp only [hpol, if_false]
    all_goals first
      | rfl
      | exact ht

/-- A flow call settles or parks. -/
theorem dispatchFlow_traced (hok : ∀ h e, ToolOp x.rt e.1 → ok h e) {l : StepState}
    (call : ToolCallRecord) (flowRef : String) {h evs : List Ev}
    (hops : ∀ e ∈ evs, ToolOp x.rt e.1 ∧ ¬ InvokeParks e) (hs : l.suspension = none)
    (ht : l.stepTimedOut = false) :
    (dispatchFlow x l call flowRef).Traced ok (CalledPost x l call h) (h ++ evs) := by
  rw [dispatchFlow, Prog.perform_bind]
  intro r
  refine ⟨hok _ _ trivial, ?_⟩
  rw [List.append_assoc]
  rcases r with _ | result | ⟨snapshot, presentation⟩
  · exact settleCall_traced hok call _ (toolEvents_snoc hops ⟨trivial, fun h => h⟩)
      rfl rfl rfl rfl rfl rfl
  · exact settleCall_traced hok call _ (toolEvents_snoc hops ⟨trivial, fun h => h⟩)
      rfl rfl rfl rfl rfl rfl
  · refine parkCall_traced hok call flowRef snapshot presentation ?_ hs ht ?_
    · exact toolEvents_snoc (fun e he => (hops e he).1) trivial
    · exact ⟨_, List.mem_append_right _ (List.mem_singleton.mpr rfl), trivial, rfl⟩

/-- A tool call settles. -/
theorem dispatchTool_traced (hok : ∀ h e, ToolOp x.rt e.1 → ok h e) {l : StepState}
    (call : ToolCallRecord) {h evs : List Ev}
    (hops : ∀ e ∈ evs, ToolOp x.rt e.1 ∧ ¬ InvokeParks e) (hs : l.suspension = none) :
    (dispatchTool x l call).Traced ok (CalledPost x l call h) (h ++ evs) := by
  rw [dispatchTool, Prog.perform_bind]
  intro d
  refine ⟨hok _ _ trivial, ?_⟩
  rw [List.append_assoc]
  have hops' := toolEvents_snoc hops (e := ⟨.dispatch call l.state.a2a, d⟩) ⟨trivial, fun h => h⟩
  obtain ⟨a2a, result⟩ := d
  rcases result with _ | result | result
  · exact calledPost_answer _ rfl rfl rfl rfl rfl (fun _ => .inr hs) hops'
  · exact calledPost_answer _ rfl rfl rfl rfl rfl (fun h => .inl h) hops'
  · exact settleCall_traced hok call result hops' rfl rfl rfl rfl rfl rfl

/-- A call is one of the two. -/
theorem dispatchCall_traced (hok : ∀ h e, ToolOp x.rt e.1 → ok h e) {l : StepState}
    (call : ToolCallRecord) {h evs : List Ev}
    (hops : ∀ e ∈ evs, ToolOp x.rt e.1 ∧ ¬ InvokeParks e) (hs : l.suspension = none)
    (ht : l.stepTimedOut = false) :
    (dispatchCall x l call).Traced ok (CalledPost x l call h) (h ++ evs) := by
  rw [dispatchCall]
  split
  · exact dispatchFlow_traced hok call _ hops hs ht
  · exact dispatchTool_traced hok call hops hs

/-- An allowed call, after its look into the ledger. -/
theorem allowedCall_traced (hok : ∀ h e, ToolOp x.rt e.1 → ok h e) {l : StepState}
    (call : ToolCallRecord) {h : List Ev} (hs : l.suspension = none) (ht : l.stepTimedOut = false) :
    (allowedCall x l call).Traced ok (CalledPost x l call h) h := by
  rw [allowedCall, Prog.perform_bind]
  intro r
  refine ⟨hok _ _ rfl, ?_⟩
  have hops : ∀ e ∈ [(⟨.ledgerGet call (x.rt.ledgerCallId call), r⟩ : Ev)],
      ToolOp x.rt e.1 ∧ ¬ InvokeParks e := by
    intro e he
    rw [List.mem_singleton.mp he]
    exact ⟨rfl, fun h => h⟩
  rcases r with e | _ | cached
  · exact dispatchCall_traced hok call hops hs ht
  · exact dispatchCall_traced hok call hops hs ht
  · by_cases herr : isErrorResult cached = true
    · simp only [herr, if_true]
      exact dispatchCall_traced hok call hops hs ht
    · simp only [herr]
      exact calledPost_answer _ rfl rfl rfl rfl rfl (fun h => .inl h) hops

/-- A host built-in performs tool operations and returns a value. -/
def HostPost (rt : AgentRuntime) (h h' : List Ev) (r : Except AgentError Json) : Prop :=
  ∃ evs v, r = .ok v ∧ h' = h ++ evs ∧ ∀ e ∈ evs, ToolOp rt e.1 ∧ ¬ InvokeParks e

theorem hostPost_nil {rt : AgentRuntime} {h : List Ev} (v : Json) : HostPost rt h h (.ok v) :=
  ⟨[], v, rfl, (List.append_nil h).symm, fun _ he => nomatch he⟩

/-- A host tool that asks once. -/
theorem hostPost_one {rt : AgentRuntime} {h : List Ev} {e : Ev} (he : ToolOp rt e.1)
    (hp : ¬ InvokeParks e) (v : Json) : HostPost rt h (h ++ [e]) (.ok v) := by
  refine ⟨[e], v, rfl, rfl, ?_⟩
  intro e' he'
  rw [List.mem_singleton.mp he']
  exact ⟨he, hp⟩

/-- Recalling a memory asks once. -/
theorem hostRecallMemory_traced (hok : ∀ h e, ToolOp x.rt e.1 → ok h e) (call : ToolCallRecord)
    (h : List Ev) : (hostRecallMemory call).Traced ok (HostPost x.rt h) h := by
  rw [hostRecallMemory, Prog.perform_bind]
  intro r
  refine ⟨hok _ _ trivial, ?_⟩
  cases r <;> exact hostPost_one (e := ⟨.recallLongTerm _ _, _⟩) trivial (fun h => h) _

/-- So does remembering one. -/
theorem hostRemember_traced (hok : ∀ h e, ToolOp x.rt e.1 → ok h e) (call : ToolCallRecord)
    (h : List Ev) : (hostRemember call).Traced ok (HostPost x.rt h) h := by
  rw [hostRemember]
  split
  · exact hostPost_nil _
  · split
    · exact hostPost_nil _
    · rw [Prog.perform_bind]
      intro r
      refine ⟨hok _ _ trivial, ?_⟩
      cases r <;> exact hostPost_one (e := ⟨.remember _ _, _⟩) trivial (fun h => h) _

/-- And so does recalling a turn. -/
theorem hostRecall_traced (hok : ∀ h e, ToolOp x.rt e.1 → ok h e) (call : ToolCallRecord)
    (h : List Ev) : (hostRecall call).Traced ok (HostPost x.rt h) h := by
  rw [hostRecall]
  split
  · exact hostPost_nil _
  · rw [Prog.perform_bind]
    intro r
    refine ⟨hok _ _ trivial, ?_⟩
    rcases r with e | _ | value <;>
      exact hostPost_one (e := ⟨.recall _, _⟩) trivial (fun h => h) _

/-- A host tool settles its call. -/
theorem hostCall_traced {l : StepState} {call : ToolCallRecord} {run : Turn Json} {h : List Ev}
    (hrun : run.Traced ok (HostPost x.rt h) h) :
    (hostCall l call run).Traced ok (CalledPost x l call h) h := by
  rw [hostCall]
  refine Prog.Traced.bind ?_ ?_ hrun
  · rintro h' v ⟨evs, v', hr, rfl, hops⟩
    cases hr
    exact calledPost_answer _ rfl rfl rfl rfl rfl (fun h => .inl h) hops
  · rintro h' e ⟨evs, v', hr, -⟩
    exact nomatch hr

/-- **ONE TOOL CALL**: it is answered, or it parks and ends the turn. -/
theorem runCall_traced (hok : ∀ h e, ToolOp x.rt e.1 → ok h e) (l : StepState)
    (call : ToolCallRecord) (h : List Ev) :
    (runCall x l call).Traced ok (CalledPost x l call h) h := by
  have hnow : ∀ {l' : StepState} (content : Json),
      l'.state.messages = l.state.messages ++ [.tool call.callId content] →
      l'.state.pendingTool = l.state.pendingTool → l'.suspension = l.suspension →
      l'.reply = l.reply → l'.terminatedBy = l.terminatedBy →
      l'.stepTimedOut = l.stepTimedOut → CalledPost x l call h h (.ok l') := by
    intro l' content h1 h2 h3 h4 h5 h6
    have hpost : CalledPost x l call h (h ++ []) (.ok l') :=
      calledPost_answer content h1 h2 h3 h4 h5 (fun h => .inl (h6 ▸ h)) (fun _ he => nomatch he)
    rw [List.append_nil] at hpost
    exact hpost
  rw [runCall]
  split
  · exact hnow _ rfl rfl rfl rfl rfl rfl
  · rename_i hto
    split
    · exact hnow _ rfl rfl rfl rfl rfl rfl
    · split
      · exact hnow _ rfl rfl rfl rfl rfl rfl
      · rename_i hbehind
        have hs : l.suspension = none := by
          cases hsus : l.suspension with
          | none => rfl
          | some _ => rw [hsus] at hbehind; exact absurd rfl hbehind
        split
        · exact hostCall_traced (hostRecallMemory_traced hok call h)
        · split
          · exact hostCall_traced (hostRemember_traced hok call h)
          · split
            · exact hostCall_traced (hostRecall_traced hok call h)
            · split
              · exact allowedCall_traced hok call hs (Bool.eq_false_iff.mpr hto)
              · exact hnow _ rfl rfl rfl rfl rfl rfl

/-! ## A batch of calls -/

/-- What a batch does: every call is answered in order, or one parks; a parked call is
    answered by its placeholder or not at all. -/
inductive Batch (calls : List ToolCallRecord) (l : StepState) (evs : List Ev) (l' : StepState) :
    Prop where
  | answered (rs : List (String × Json))
      (messages : l'.state.messages = l.state.messages ++ toolResults rs)
      (ids : rs.map (·.1) = callIds calls)
      (pending : l'.state.pendingTool = l.state.pendingTool)
      (suspension : l'.suspension = l.suspension) (reply : l'.reply = l.reply)
      (terminatedBy : l'.terminatedBy = l.terminatedBy)
      (timed : l'.stepTimedOut = true → l.stepTimedOut = true ∨ l.suspension = none)
      (quiet : ∀ e ∈ evs, ¬ InvokeParks e)
  | parked (p : PendingToolCall) (presentation : Json) (rs : List (String × Json))
      (messages : l'.state.messages = l.state.messages ++ toolResults rs)
      (ids : rs.map (·.1) = callIds calls ∨ ∃ pre call post, calls = pre ++ call :: post ∧
        p.callId = call.callId ∧ rs.map (·.1) = callIds pre ++ callIds post)
      (pending : l'.state.pendingTool = some p) (suspension : l'.suspension = some presentation)
      (before : l.suspension = none) (reply : l'.reply = l.reply)
      (terminatedBy : l'.terminatedBy = l.terminatedBy) (timed : l'.stepTimedOut = false)
      (parks : ∃ e ∈ evs, InvokeParks e ∧ Parks p.flowSnapshot e)

/-- A batch whose first call is answered. -/
theorem Batch.cons_answered {call : ToolCallRecord} {rest : List ToolCallRecord}
    {l l₁ l' : StepState} {evs evs' : List Ev} (content : Json)
    (messages : l₁.state.messages = l.state.messages ++ [.tool call.callId content])
    (pending : l₁.state.pendingTool = l.state.pendingTool) (suspension : l₁.suspension = l.suspension)
    (reply : l₁.reply = l.reply) (terminatedBy : l₁.terminatedBy = l.terminatedBy)
    (timed : l₁.stepTimedOut = true → l.stepTimedOut = true ∨ l.suspension = none)
    (quiet : ∀ e ∈ evs, ¬ InvokeParks e) (h : Batch rest l₁ evs' l') :
    Batch (call :: rest) l (evs ++ evs') l' := by
  have hmsgs : ∀ rs, l'.state.messages = l₁.state.messages ++ toolResults rs →
      l'.state.messages = l.state.messages ++ toolResults ((call.callId, content) :: rs) := by
    intro rs hrs
    rw [hrs, messages, List.append_assoc]
    rfl
  cases h with
  | answered rs hm hids hp hs hr ht hto hq =>
      refine .answered ((call.callId, content) :: rs) (hmsgs rs hm) ?_ (hp.trans pending)
        (hs.trans suspension) (hr.trans reply) (ht.trans terminatedBy) ?_ ?_
      · show call.callId :: rs.map (·.1) = call.callId :: callIds rest
        rw [hids]
      · intro h
        rcases hto h with h | h
        · exact timed h
        · exact .inr (suspension ▸ h)
      · intro e he
        rcases List.mem_append.mp he with he | he
        · exact quiet e he
        · exact hq e he
  | parked p presentation rs hm hids hp hs hb hr ht hto hpark =>
      refine .parked p presentation ((call.callId, content) :: rs) (hmsgs rs hm) ?_ hp hs
        (suspension ▸ hb) (hr.trans reply) (ht.trans terminatedBy) hto ?_
      · rcases hids with hids | ⟨pre, c, post, hcalls, hid, hids⟩
        · refine .inl ?_
          show call.callId :: rs.map (·.1) = call.callId :: callIds rest
          rw [hids]
        · refine .inr ⟨call :: pre, c, post, by rw [hcalls]; rfl, hid, ?_⟩
          show call.callId :: rs.map (·.1) = call.callId :: (callIds pre ++ callIds post)
          rw [hids]
      · obtain ⟨e, he, h⟩ := hpark
        exact ⟨e, List.mem_append_right _ he, h⟩

/-- A batch whose first call parks: the others are only answered. -/
theorem Batch.cons_parked {call : ToolCallRecord} {rest : List ToolCallRecord}
    {l l₁ l' : StepState} {evs evs' : List Ev} {p : PendingToolCall} {presentation : Json}
    (messages : l₁.state.messages = l.state.messages ∨
      ∃ content, l₁.state.messages = l.state.messages ++ [.tool call.callId content])
    (pending : l₁.state.pendingTool = some p) (callId : p.callId = call.callId)
    (suspension : l₁.suspension = some presentation) (before : l.suspension = none)
    (reply : l₁.reply = l.reply) (terminatedBy : l₁.terminatedBy = l.terminatedBy)
    (timed : l₁.stepTimedOut = false) (parks : ∃ e ∈ evs, InvokeParks e ∧ Parks p.flowSnapshot e)
    (h : Batch rest l₁ evs' l') : Batch (call :: rest) l (evs ++ evs') l' := by
  have hparks : ∃ e ∈ evs ++ evs', InvokeParks e ∧ Parks p.flowSnapshot e := by
    obtain ⟨e, he, h⟩ := parks
    exact ⟨e, List.mem_append_left _ he, h⟩
  cases h with
  | parked _ _ _ _ _ _ _ hb =>
      rw [suspension] at hb
      exact nomatch hb
  | answered rs hm hids hp hs hr ht hto hq =>
      have htimed : l'.stepTimedOut = false := by
        cases hl : l'.stepTimedOut with
        | false => rfl
        | true =>
            rcases hto hl with h | h
            · rw [timed] at h; exact nomatch h
            · rw [suspension] at h; exact nomatch h
      rcases messages with hsame | ⟨content, hcontent⟩
      · refine .parked p presentation rs (by rw [hm, hsame]) (.inr ⟨[], call, rest, rfl, callId, hids⟩)
          (hp.trans pending) (hs.trans suspension) before (hr.trans reply)
          (ht.trans terminatedBy) htimed hparks
      · refine .parked p presentation ((call.callId, content) :: rs) ?_ (.inl ?_)
          (hp.trans pending) (hs.trans suspension) before (hr.trans reply)
          (ht.trans terminatedBy) htimed hparks
        · rw [hm, hcontent, List.append_assoc]
          rfl
        · show call.callId :: rs.map (·.1) = call.callId :: callIds rest
          rw [hids]

/-- **A BATCH OF CALLS**: each is answered, up to one that parks. -/
theorem runCalls_traced (hok : ∀ h e, ToolOp x.rt e.1 → ok h e) :
    ∀ (calls : List ToolCallRecord) (l : StepState) (h : List Ev),
      (runCalls x calls l).Traced ok (fun h' r => ∃ evs l', r = .ok l' ∧ h' = h ++ evs ∧
        (∀ e ∈ evs, ToolOp x.rt e.1) ∧ Batch calls l evs l') h := by
  intro calls
  induction calls with
  | nil =>
      intro l h
      refine ⟨[], l, rfl, (List.append_nil h).symm, (fun e he => nomatch he), ?_⟩
      exact .answered [] (List.append_nil _).symm rfl rfl rfl rfl rfl (fun h => .inl h)
        (fun e he => nomatch he)
  | cons call rest ih =>
      intro l h
      rw [runCalls]
      refine Prog.Traced.bind ?_ ?_ (runCall_traced hok l call h)
      · rintro h₁ l₁ ⟨evs, l₁', hr, rfl, hops, hcalled⟩
        cases hr
        refine Prog.Traced.mono ?_ (ih l₁ (h ++ evs))
        rintro h' r ⟨evs', l', hr, rfl, hops', hbatch⟩
        refine ⟨evs ++ evs', l', hr, List.append_assoc .., ?_, ?_⟩
        · intro e he
          rcases List.mem_append.mp he with he | he
          · exact hops e he
          · exact hops' e he
        · cases hcalled with
          | answered content h1 h2 h3 h4 h5 h6 h7 =>
              exact .cons_answered content h1 h2 h3 h4 h5 h6 h7 hbatch
          | parked p presentation h1 h2 h3 h4 h5 h6 h7 h8 h9 =>
              exact .cons_parked h1 h2 h3 h4 h5 h6 h7 h8 h9 hbatch
      · rintro h' e ⟨evs, l₁', hr, -⟩
        exact nomatch hr

end Calls

/-! ## The guardrail chain -/

/-- The events of a chain that passes `content` on as `content'`. -/
inductive Passes (ctx : GuardrailRunCtx) (d : GuardrailDirection) :
    List ResolvedGuardrail → String → List Ev → String → Prop where
  | nil (content : String) : Passes ctx d [] content [] content
  | accept {g : ResolvedGuardrail} {rest : List ResolvedGuardrail} {content content' : String}
      {evs : List Ev} (h : Passes ctx d rest content evs content') :
      Passes ctx d (g :: rest) content
        (⟨.evaluate g (guardrailInput ctx d g content), .accept⟩ :: evs) content'
  | update {g : ResolvedGuardrail} {rest : List ResolvedGuardrail}
      {content newContent content' : String} {evs : List Ev}
      (h : Passes ctx d rest newContent evs content') :
      Passes ctx d (g :: rest) content
        (⟨.evaluate g (guardrailInput ctx d g content), .update newContent⟩ :: evs) content'
  | monitored {g : ResolvedGuardrail} {rest : List ResolvedGuardrail} {content content' : String}
      {info : GuardrailDenyInfo} {evs : List Ev} (hg : g.mode = .monitor)
      (h : Passes ctx d rest content evs content') :
      Passes ctx d (g :: rest) content
        (⟨.evaluate g (guardrailInput ctx d g content), .deny info⟩ :: evs) content'
  | skipped {g : ResolvedGuardrail} {rest : List ResolvedGuardrail}
      {content content' reason : String} {evs : List Ev} (hg : g.mandatory = false)
      (h : Passes ctx d rest content evs content') :
      Passes ctx d (g :: rest) content
        (⟨.evaluate g (guardrailInput ctx d g content), .error reason⟩ :: evs) content'

/-- The evaluation of a guardrail. -/
def IsEvaluate : Ev → Prop
  | ⟨.evaluate _ _, _⟩ => True
  | _ => False

theorem IsEvaluate.quiet {e : Ev} (h : IsEvaluate e) : Quiet e := by
  obtain ⟨i, r⟩ := e
  cases i <;> first
    | exact False.elim h
    | exact ⟨fun h => h, fun h => h, fun _ h => h⟩

theorem IsEvaluate.not_parks {e : Ev} (h : IsEvaluate e) : ¬ InvokeParks e := by
  obtain ⟨i, r⟩ := e
  cases i <;> first
    | exact False.elim h
    | exact fun h => h

/-- What a chain does with a text. -/
def ChainPost (ctx : GuardrailRunCtx) (d : GuardrailDirection) (chain : List ResolvedGuardrail)
    (content : String) (h h' : List Ev) (r : Except AgentError ChainOutcome) : Prop :=
  ∃ evs, h' = h ++ evs ∧ (∀ e ∈ evs, IsEvaluate e) ∧
    ((∃ content' obs, r = .ok (.pass content' obs) ∧ Passes ctx d chain content evs content') ∨
      ∃ info obs, r = .ok (.denied info d obs) ∧ ∃ e ∈ evs, Denies d e)

/-- A chain of guardrails asks each of them at most once, in order. -/
theorem runChain_traced {ok : List Ev → Ev → Prop} (hok : ∀ h e, IsEvaluate e → ok h e)
    (ctx : GuardrailRunCtx) (d : GuardrailDirection) :
    ∀ (chain : List ResolvedGuardrail) (content : String) (obs : List GuardrailObservation)
      (h : List Ev),
      (runChain ctx d chain content obs).Traced ok (ChainPost ctx d chain content h) h := by
  intro chain
  induction chain with
  | nil =>
      intro content obs h
      exact ⟨[], (List.append_nil h).symm, (fun e he => nomatch he),
        .inl ⟨content, obs, rfl, .nil content⟩⟩
  | cons g rest ih =>
      intro content obs h
      rw [runChain, Prog.perform_bind]
      intro v
      refine ⟨hok _ _ trivial, ?_⟩
      -- one more event in front of what the rest of the chain does
      have hrest : ∀ (content₁ : String) (obs₁ : List GuardrailObservation),
          (∀ evs content', Passes ctx d rest content₁ evs content' →
            Passes ctx d (g :: rest) content
              (⟨.evaluate g (guardrailInput ctx d g content), v⟩ :: evs) content') →
          (runChain ctx d rest content₁ obs₁).Traced ok (ChainPost ctx d (g :: rest) content h)
            (h ++ [⟨.evaluate g (guardrailInput ctx d g content), v⟩]) := by
        intro content₁ obs₁ hpass
        refine Prog.Traced.mono ?_ (ih content₁ obs₁ _)
        rintro h' r ⟨evs, rfl, hevs, hcase⟩
        refine ⟨⟨.evaluate g (guardrailInput ctx d g content), v⟩ :: evs, by simp, ?_, ?_⟩
        · intro e he
          rcases List.mem_cons.mp he with rfl | he
          · exact trivial
          · exact hevs e he
        · rcases hcase with ⟨content', obs', hr, hp⟩ | ⟨info, obs', hr, e, he, hd⟩
          · exact .inl ⟨content', obs', hr, hpass evs content' hp⟩
          · exact .inr ⟨info, obs', hr, e, List.mem_cons_of_mem _ he, hd⟩
      have hdenied : ∀ (info : GuardrailDenyInfo) (o : GuardrailObservation),
          Denies d ⟨.evaluate g (guardrailInput ctx d g content), v⟩ →
          ChainPost ctx d (g :: rest) content h
            (h ++ [⟨.evaluate g (guardrailInput ctx d g content), v⟩])
            (.ok (.denied info d o)) := by
        intro info o hd
        refine ⟨_, rfl, ?_, .inr ⟨info, o, rfl, _, List.mem_singleton.mpr rfl, hd⟩⟩
        intro e he
        rw [List.mem_singleton.mp he]
        exact trivial
      cases v with
      | accept => exact hrest content obs fun evs content' h => .accept h
      | update newContent => exact hrest newContent obs fun evs content' h => .update h
      | deny info =>
          cases hm : g.mode with
          | enforce =>
              exact hdenied info _ ⟨rfl, hm⟩
          | monitor =>
              exact hrest content _ fun evs content' h => .monitored hm h
      | error reason =>
          cases hm : g.mandatory with
          | true =>
              simp only [if_true]
              exact hdenied _ _ ⟨rfl, hm⟩
          | false =>
              exact hrest content obs fun evs content' h => .skipped hm h
      | panic => exact hdenied _ _ rfl

/-- **THE CHAIN** passes a text through its guardrails, or a guardrail denied it. -/
theorem runChainBlocking_traced {ok : List Ev → Ev → Prop} (hok : ∀ h e, IsEvaluate e → ok h e)
    (ctx : GuardrailRunCtx) (chain : List ResolvedGuardrail) (d : GuardrailDirection)
    (content : String) {h : List Ev} (hstart : ok h ⟨.chain d content, ()⟩) :
    (runChainBlocking ctx chain d content).Traced ok (fun h' r => ∃ evs,
      h' = h ++ ⟨.chain d content, ()⟩ :: evs ∧ (∀ e ∈ evs, IsEvaluate e) ∧
      ((∃ content', r = .ok content' ∧ Passes ctx d chain content evs content') ∨
        ∃ info, r = .error (.guardrailDenied d info) ∧ ∃ e ∈ evs, Denies d e)) h := by
  rw [runChainBlocking, Prog.perform_bind]
  intro u
  refine ⟨hstart, ?_⟩
  refine Prog.Traced.bind ?_ ?_ (runChain_traced hok ctx d chain content [] _)
  · rintro h' out ⟨evs, rfl, hevs, hcase⟩
    have happ : h ++ [⟨.chain d content, u⟩] ++ evs = h ++ ⟨.chain d content, ()⟩ :: evs := by
      rw [List.append_assoc]
      rfl
    rw [happ]
    rcases hcase with ⟨content', obs, hr, hp⟩ | ⟨info, obs, hr, hd⟩
    · cases hr
      exact ⟨evs, rfl, hevs, .inl ⟨content', rfl, hp⟩⟩
    · cases hr
      exact ⟨evs, rfl, hevs, .inr ⟨info, rfl, hd⟩⟩
  · rintro h' e ⟨evs, -, -, ⟨content', obs, hr, -⟩ | ⟨info, obs, hr, -⟩⟩
    · exact nomatch hr
    · exact nomatch hr

end Greentic.Aw
