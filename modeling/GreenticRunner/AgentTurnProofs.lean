import GreenticRunner.AgentTrace

/-! # What a turn does

    One traversal of the whole turn, on every answer it may get.  `Guard` says what every
    single event of a turn satisfies after the events before it, `TurnPost` what its
    whole trace and its result satisfy.

    * `Done`, `Safe` — a snapshot whose resume has completed, and a conversation that
      does not hold such a snapshot;
    * `Working`, `Stopped` — the conversation in memory before a round of the loop and
      after the loop;
    * `planActObserve_traced`, `finish_traced`, `runStep_traced` — the loop, the end of a
      turn and the turn. -/

namespace Greentic.Aw

open Resumption

variable {h : List Ev} {x : StepEnv} {l : StepState} {rt : AgentRuntime}
  {state s : ConversationState}

/-! ## Snapshots that are done -/

/-- A resume of the snapshot `S` has completed, and no flow has parked with it since. -/
def Done (S : Json) (log : List Ev) : Prop :=
  ∃ l₁ e l₂, log = l₁ ++ e :: l₂ ∧ Completes S e ∧ ∀ e' ∈ l₂, ¬ Parks S e'

/-- The parked call of the conversation is not done. -/
def Safe (log : List Ev) (state : ConversationState) : Prop :=
  ∀ p, state.pendingTool = some p → ¬ Done p.flowSnapshot log

/-- A call is done after its completion, or if it was and is not parked again. -/
theorem done_snoc {S : Json} {log : List Ev} {e : Ev} :
    Done S (log ++ [e]) ↔ Completes S e ∨ (Done S log ∧ ¬ Parks S e) := by
  constructor
  · rintro ⟨l₁, e', l₂, heq, hc, hp⟩
    rcases concat_split heq with ⟨-, rfl, -⟩ | ⟨mid, rfl, hlog⟩
    · exact .inl hc
    · refine .inr ⟨⟨l₁, e', mid, hlog, hc, fun e he => hp e (List.mem_append_left _ he)⟩, ?_⟩
      exact hp e (List.mem_append_right _ (List.mem_singleton.mpr rfl))
  · rintro (hc | ⟨⟨l₁, e', l₂, rfl, hc, hp⟩, hne⟩)
    · exact ⟨log, e, [], rfl, hc, fun e' he => nomatch he⟩
    · refine ⟨l₁, e', l₂ ++ [e], by simp, hc, ?_⟩
      exact toolEvents_snoc hp hne

/-- Events that complete nothing leave it as it was. -/
theorem done_quiet {S : Json} {log : List Ev} :
    ∀ {evs : List Ev}, (∀ e ∈ evs, ¬ Completes S e) → Done S (log ++ evs) → Done S log := by
  intro evs
  induction evs using List.reverseRecOn with
  | nil => intro _ h; rw [List.append_nil] at h; exact h
  | append_singleton evs e ih =>
      intro hevs h
      rw [← List.append_assoc] at h
      rcases done_snoc.mp h with hc | ⟨hd, -⟩
      · exact absurd hc (hevs e (List.mem_append_right _ (List.mem_singleton.mpr rfl)))
      · exact ih (fun e he => hevs e (List.mem_append_left _ he)) hd

/-- A snapshot a flow has just parked with is not done. -/
theorem not_done_of_parks {S : Json} {log evs : List Ev} (hevs : ∀ e ∈ evs, ¬ Completes S e)
    (hp : ∃ e ∈ evs, Parks S e) : ¬ Done S (log ++ evs) := by
  induction evs using List.reverseRecOn with
  | nil =>
      obtain ⟨e, he, -⟩ := hp
      exact nomatch he
  | append_singleton evs e ih =>
      rw [← List.append_assoc]
      intro hd
      rcases done_snoc.mp hd with hc | ⟨hd, hne⟩
      · exact hevs e (List.mem_append_right _ (List.mem_singleton.mpr rfl)) hc
      · obtain ⟨e', he', hp'⟩ := hp
        rcases List.mem_append.mp he' with he' | he'
        · exact ih (fun e he => hevs e (List.mem_append_left _ he)) ⟨e', he', hp'⟩ hd
        · rw [List.mem_singleton.mp he'] at hp'
          exact hne hp'

theorem Safe.quiet {log evs : List Ev} (h : Safe log state)
    (hevs : ∀ e ∈ evs, ∀ S, ¬ Completes S e) : Safe (log ++ evs) state :=
  fun p hp hd => h p hp (done_quiet (fun e he => hevs e he _) hd)

theorem Safe.of_none {log : List Ev} (h : state.pendingTool = none) :
    Safe log state := by
  intro p hp
  rw [h] at hp
  exact nomatch hp

/-! ## What every event satisfies -/

/-- The conversation was loaded. -/
def Loaded (h : List Ev) : Prop := ∃ state, ⟨.load, .ok state⟩ ∈ h

/-- The conversations loaded in the trace are safe after the log `L` before it. -/
def PendingKept (L h : List Ev) : Prop := ∀ state, ⟨.load, .ok state⟩ ∈ h → Safe L state

/-- A resume that did not park again ended. -/
def ResumeEnds : Ev → Prop
  | ⟨.resumeFlow _ _ _, none⟩ => True
  | ⟨.resumeFlow _ _ _, some (.completed _)⟩ => True
  | _ => False

/-- An event of the checks before the lock is taken. -/
def IsCheck : Ev → Prop
  | ⟨.agentConfig _, _⟩ => True
  | ⟨.tokensUsed, _⟩ => True
  | ⟨.overBudget, _⟩ => True
  | _ => False

/-- The events before the conversation is loaded: the checks and the lock. -/
def LoadAfter (h : List Ev) : Prop :=
  ∃ h₀, h = h₀ ++ [⟨.acquireLock, .ok ()⟩] ∧ ∀ e ∈ h₀, IsCheck e

/-- The event just before a save: the check of the lock, or the load of a conversation
    that is opened. -/
def SaveAfter (h : List Ev) : Prop :=
  (∃ h₀ r, h = h₀ ++ [⟨.refresh, r⟩] ∧ r ≠ .error .lockLost) ∨
    ∃ h₀ state, h = h₀ ++ [⟨.load, .ok state⟩]

/-- What a turn guarantees of an event after the events `h`. -/
def Guard (rt : AgentRuntime) (h : List Ev) : Ev → Prop
  | ⟨.complete history, _⟩ => Given h → Paired history
  | ⟨.save state, _⟩ => (Given h → WellShaped state) ∧
      (∀ L, PendingKept L h → Safe (L ++ h) state) ∧ Loaded h ∧ SaveAfter h
  | ⟨.ledgerGet call id, _⟩ => id = rt.ledgerCallId call
  | ⟨.ledgerRecord call id result, _⟩ =>
      (id = rt.ledgerCallId call ∧ isErrorResult result = false) ∨ ∃ e ∈ h, ResumeEnds e
  | ⟨.resumeFlow _ snapshot _, _⟩ =>
      (∃ state p, ⟨.load, .ok state⟩ ∈ h ∧ state.pendingTool = some p ∧
        p.flowSnapshot = snapshot) ∧ ∀ e ∈ h, ∀ S, ¬ Completes S e
  | ⟨.acquireLock, _⟩ => ∀ e ∈ h, IsCheck e
  | ⟨.load, _⟩ => LoadAfter h
  | _ => True

/-- A tool operation is always allowed. -/
theorem guard_toolOp (h : List Ev) (e : Ev) (he : ToolOp rt e.1) :
    Guard rt h e := by
  obtain ⟨i, r⟩ := e
  cases i <;> first
    | exact False.elim he
    | exact trivial
    | exact he
    | exact .inl he

/-- So is a guardrail. -/
theorem guard_evaluate (h : List Ev) (e : Ev) (he : IsEvaluate e) :
    Guard rt h e := by
  obtain ⟨i, r⟩ := e
  cases i <;> first
    | exact False.elim he
    | exact trivial

/-! ## What a turn returns -/

/-- The chain was assembled from the configuration and the policy of the turn. -/
def Assembled (h : List Ev) (chain : List ResolvedGuardrail) : Prop :=
  ∃ agentId config registry mandatory, ⟨.agentConfig agentId, .ok config⟩ ∈ h ∧
    ⟨.capabilityRegistry, registry⟩ ∈ h ∧ ⟨.mandatoryGuardrails, .ok mandatory⟩ ∈ h ∧
    assembleChain registry mandatory config.guardrails = .ok chain

/-- A text of the model: the content of a response, or the final message of one of its
    calls. -/
def ModelText (h : List Ev) (text : String) : Prop :=
  ∃ history response, ⟨.complete history, .response response⟩ ∈ h ∧
    (text = response.content.getD "" ∨
      ∃ call ∈ response.toolCalls, (call.args.get? "final_message").bind Json.asStr? = some text)

/-- The last response of the model. -/
def LastResponse (h : List Ev) (response : LlmResponse) : Prop :=
  ∃ h₁ history h₂, h = h₁ ++ ⟨.complete history, .response response⟩ :: h₂ ∧
    ∀ e ∈ h₂, ¬ IsComplete e

/-- The reply was passed by the assembled chain, run outbound on a text of the model. -/
def Covered (h : List Ev) (reply : String) : Prop :=
  ∃ ctx chain text h₁ evs h₂, h = h₁ ++ ⟨.chain .outbound text, ()⟩ :: (evs ++ h₂) ∧
    Assembled h₁ chain ∧ ModelText h₁ text ∧ Passes ctx .outbound chain text evs reply

/-- The reply is the opening message of the configuration. -/
def Opening (h : List Ev) (reply : String) : Prop :=
  ∃ agentId config opening, ⟨.agentConfig agentId, .ok config⟩ ∈ h ∧
    config.openingMessage = some opening ∧ reply = String.ofList (trim opening.toList)

/-- Where the reply of a turn comes from. -/
inductive Replied (h : List Ev) (reply : String) : Prop where
  | opening (ho : Opening h reply) (hn : ∀ e ∈ h, ¬ IsComplete e)
  | guarded (hc : Covered h reply) (hn : ∀ e ∈ h, ¬ InvokeParks e)
  | silent (hr : reply = "") (hn : ∀ e ∈ h, ¬ InvokeParks e)
  | parked {response : LlmResponse} (hl : LastResponse h response)
      (hr : reply = response.content.getD "") (hp : ∃ e ∈ h, InvokeParks e)
      (hn : ∀ e ∈ h, ¬ StartsOutbound e)

/-- Since the last completed resume the conversation was saved, or the turn ended at an
    outbound denial or at a lock that could not be refreshed. -/
inductive Settled (h : List Ev) : Prop where
  | saved (h₁ : List Ev) (state : ConversationState) (r : Except StateError Unit) (h₂ : List Ev)
      (heq : h = h₁ ++ ⟨.save state, r⟩ :: h₂) (hn : ∀ e ∈ h₂, ∀ S, ¬ Completes S e)
  | denied (e : Ev) (he : e ∈ h) (hd : Denies .outbound e)
  | unlocked (er : StateError) (he : ⟨.refresh, .error er⟩ ∈ h)

/-- What the trace and the result of a turn satisfy. -/
structure TurnPost (h : List Ev) (r : Except AgentError AgentOutput) : Prop where
  settled : (∀ e ∈ h, ∀ S, ¬ Completes S e) ∨ Settled h
  replied : ∀ out, r = .ok out → Replied h out.reply

/-- Events that complete nothing leave a history settled. -/
theorem Settled.append {h evs : List Ev} (hs : Settled h)
    (hevs : ∀ e ∈ evs, ∀ S, ¬ Completes S e) : Settled (h ++ evs) := by
  cases hs with
  | saved h₁ state r h₂ heq hn =>
      refine .saved h₁ state r (h₂ ++ evs) (by rw [heq]; simp) ?_
      intro e he
      rcases List.mem_append.mp he with he | he
      · exact hn e he
      · exact hevs e he
  | denied e he hd => exact .denied e (List.mem_append_left _ he) hd
  | unlocked er he => exact .unlocked er (List.mem_append_left _ he)

/-! ## The conversation in memory -/

/-- The conversation in memory while nothing has parked in this turn. -/
structure Working (x : StepEnv) (h : List Ev) (state : ConversationState) : Prop where
  loaded : Loaded h
  chain : Assembled h x.chain
  paired : Given h → Paired state.messages
  safe : ∀ L, PendingKept L h → Safe (L ++ h) state
  unparked : ∀ e ∈ h, ¬ InvokeParks e
  unguarded : ∀ e ∈ h, ¬ StartsOutbound e

/-- The conversation ends with a reply. -/
def Final (r : TerminationReason) : Prop := r = .finalReply ∨ r = .conversationEnded

/-- How the loop ended. -/
inductive Ends (h : List Ev) (l : StepState) : Prop where
  | spoke (hf : Final l.terminatedBy) (ht : ModelText h l.reply) (hn : ∀ e ∈ h, ¬ InvokeParks e)
  | silent (hf : ¬ Final l.terminatedBy) (hr : l.reply = "") (hn : ∀ e ∈ h, ¬ InvokeParks e)
  | parked {response : LlmResponse} (hf : ¬ Final l.terminatedBy)
      (hl : LastResponse h response) (hr : l.reply = response.content.getD "")
      (hp : ∃ e ∈ h, InvokeParks e)

/-- The conversation in memory after the loop. -/
structure Stopped (x : StepEnv) (h : List Ev) (l : StepState) : Prop where
  loaded : Loaded h
  chain : Assembled h x.chain
  shaped : Given h → WellShaped l.state
  paired : Given h → Final l.terminatedBy → Paired l.state.messages
  safe : ∀ L, PendingKept L h → Safe (L ++ h) l.state
  unguarded : ∀ e ∈ h, ¬ StartsOutbound e
  ends : Ends h l

theorem Loaded.append (hl : Loaded h) (evs : List Ev) : Loaded (h ++ evs) := by
  obtain ⟨state, hs⟩ := hl
  exact ⟨state, List.mem_append_left _ hs⟩

/-- The chain stays assembled. -/
theorem Assembled.append {chain : List ResolvedGuardrail} (ha : Assembled h chain)
    (evs : List Ev) : Assembled (h ++ evs) chain := by
  obtain ⟨agentId, config, registry, mandatory, h1, h2, h3, h4⟩ := ha
  exact ⟨agentId, config, registry, mandatory, List.mem_append_left _ h1,
    List.mem_append_left _ h2, List.mem_append_left _ h3, h4⟩

theorem PendingKept.left {L h evs : List Ev} (hk : PendingKept L (h ++ evs)) : PendingKept L h :=
  fun state hs => hk state (List.mem_append_left _ hs)

/-- The last response stays the last one. -/
theorem LastResponse.append {h evs : List Ev} {response : LlmResponse} (hl : LastResponse h response)
    (hevs : ∀ e ∈ evs, ¬ IsComplete e) : LastResponse (h ++ evs) response := by
  obtain ⟨h₁, history, h₂, rfl, hn⟩ := hl
  refine ⟨h₁, history, h₂ ++ evs, by simp, ?_⟩
  intro e he
  rcases List.mem_append.mp he with he | he
  · exact hn e he
  · exact hevs e he

/-- What holds of two histories, holds of both together. -/
theorem forall_append {P : Ev → Prop} {h evs : List Ev} (h1 : ∀ e ∈ h, P e)
    (h2 : ∀ e ∈ evs, P e) : ∀ e ∈ h ++ evs, P e := by
  intro e he
  rcases List.mem_append.mp he with he | he
  · exact h1 e he
  · exact h2 e he

theorem forall_singleton {P : Ev → Prop} {e : Ev} (he : P e) : ∀ e' ∈ [e], P e' := by
  intro e' he'
  rw [List.mem_singleton.mp he']
  exact he

/-- The events in between do not matter. -/
theorem Working.append {h evs : List Ev}
    (hw : Working x h state) (hout : ∀ e ∈ evs, ¬ StartsOutbound e)
    (hcomp : ∀ e ∈ evs, ∀ S, ¬ Completes S e) (hpark : ∀ e ∈ evs, ¬ InvokeParks e) :
    Working x (h ++ evs) state where
  loaded := hw.loaded.append evs
  chain := hw.chain.append evs
  paired := fun hg => hw.paired hg.left
  safe := fun L hk => by
    rw [← List.append_assoc]
    exact (hw.safe L hk.left).quiet hcomp
  unparked := forall_append hw.unparked hpark
  unguarded := forall_append hw.unguarded hout

theorem Working.snoc {e : Ev}
    (hw : Working x h state) (hout : ¬ StartsOutbound e) (hcomp : ∀ S, ¬ Completes S e)
    (hpark : ¬ InvokeParks e) : Working x (h ++ [e]) state :=
  hw.append (forall_singleton hout) (forall_singleton hcomp) (forall_singleton hpark)

/-- A shorter history is still worked on. -/
theorem Working.truncate
    (hw : Working x h state) (n : Nat) : Working x h (state.truncateHistory n) where
  loaded := hw.loaded
  chain := hw.chain
  paired := fun hg => (hw.paired hg).truncateHistory n
  safe := hw.safe
  unparked := hw.unparked
  unguarded := hw.unguarded

/-- A plain message more. -/
theorem Working.push
    (hw : Working x h state) {m : ChatMessage} (hm : m.isPlain = true) :
    Working x h (state.push m) where
  loaded := hw.loaded
  chain := hw.chain
  paired := fun hg => (hw.paired hg).append (.single hm)
  safe := hw.safe
  unparked := hw.unparked
  unguarded := hw.unguarded

/-- The loop stopped without a park. -/
theorem Working.stopped (hw : Working x h l.state)
    (hends : Ends h l) : Stopped x h l where
  loaded := hw.loaded
  chain := hw.chain
  shaped := fun hg => .inl (hw.paired hg)
  paired := fun hg _ => hw.paired hg
  safe := hw.safe
  unguarded := hw.unguarded
  ends := hends

/-! ## The lock and the saves -/

/-- The lock check refreshes once. -/
theorem ensureLockHeld_traced (h : List Ev) :
    ensureLockHeld.Traced (Guard rt) (fun h' res => ∃ r, h' = h ++ [⟨.refresh, r⟩] ∧
      ((res = .ok () ∧ r ≠ .error .lockLost) ∨
        ∃ e er, res = .error e ∧ r = .error er)) h := by
  rw [ensureLockHeld, Prog.perform_bind]
  intro r
  refine ⟨trivial, ?_⟩
  rcases r with er | u
  · cases er with
    | lockLost => exact ⟨_, rfl, .inr ⟨_, _, rfl, rfl⟩⟩
    | _ => exact ⟨_, rfl, .inl ⟨rfl, fun h => nomatch h⟩⟩
  · exact ⟨_, rfl, .inl ⟨rfl, fun h => nomatch h⟩⟩

/-- A save right after the lock was checked. -/
theorem guard_save
    {r : Except StateError Unit} {r' : Except StateError Unit} (hl : Loaded h)
    (hshape : Given h → WellShaped state) (hsafe : ∀ L, PendingKept L h → Safe (L ++ h) state)
    (hr : r ≠ .error .lockLost) :
    Guard x.rt (h ++ [⟨.refresh, r⟩]) ⟨.save state, r'⟩ := by
  refine ⟨fun hg => hshape hg.left, ?_, hl.append _, .inl ⟨h, r, rfl, hr⟩⟩
  intro L hk
  rw [← List.append_assoc]
  exact (hsafe L hk.left).quiet (forall_singleton fun S h => h)

/-- The turn failed and is settled. -/
def FailedPost {α : Type} (h : List Ev) (r : Except AgentError α) : Prop :=
  ∃ err, r = .error err ∧ Settled h

/-- The save under the lock, which may be refused. -/
theorem saveIfHeld_traced (hw : Working x h l.state) :
    (saveIfHeld x l).Traced (Guard x.rt) (fun h' r => r = .ok () ∧ Settled h') h := by
  have hsave : ∀ r : Except StateError Unit, r ≠ .error .lockLost → ∀ r',
      Guard x.rt (h ++ [⟨.refresh, r⟩]) ⟨.save (l.bounded x), r'⟩ ∧
        Settled (h ++ [⟨.refresh, r⟩] ++ [⟨.save (l.bounded x), r'⟩]) := by
    intro r hr r'
    refine ⟨guard_save hw.loaded (fun hg => .inl ((hw.paired hg).truncateHistory _)) hw.safe hr, ?_⟩
    exact .saved _ _ _ [] rfl fun e he => nomatch he
  have hnext : ∀ r : Except StateError Unit, r ≠ .error .lockLost →
      (Prog.call (Op.save (l.bounded x)) fun _ => .ret () : Turn Unit).Traced (Guard x.rt)
        (fun h' r => r = .ok () ∧ Settled h') (h ++ [⟨.refresh, r⟩]) := by
    intro r hr r'
    exact ⟨(hsave r hr r').1, rfl, (hsave r hr r').2⟩
  rw [saveIfHeld, Prog.perform_bind]
  intro r
  refine ⟨trivial, ?_⟩
  rcases r with er | u
  · cases er with
    | lockLost =>
        exact ⟨rfl, .unlocked .lockLost (List.mem_append_right _ (List.mem_singleton.mpr rfl))⟩
    | redis _ => exact hnext _ (by intro h; exact nomatch h)
    | schemaIncompatible _ _ => exact hnext _ (by intro h; exact nomatch h)
    | decode _ => exact hnext _ (by intro h; exact nomatch h)
    | lockTimeout _ => exact hnext _ (by intro h; exact nomatch h)
  · exact hnext _ (by intro h; exact nomatch h)

theorem llmFailed_traced (hw : Working x h l.state)
    (e : LlmError) : (llmFailed x l e).Traced (Guard x.rt) FailedPost h := by
  cases e <;> refine Prog.Traced.bind ?_ ?_ (saveIfHeld_traced hw)
  all_goals exact fun h' _ hs => ⟨_, rfl, hs.2⟩

/-! ## The loop -/

/-- The variables of the loop before a round. -/
structure Idle (l : StepState) : Prop where
  reply : l.reply = ""
  suspension : l.suspension = none
  terminatedBy : l.terminatedBy = .maxIterations

/-- What a round of the loop does: it goes on, it stops, or the turn failed and is
    settled. -/
def RoundPost (x : StepEnv) (h' : List Ev) (r : Except AgentError (StepState × Bool)) : Prop :=
  (∃ l', r = .ok (l', true) ∧ Working x h' l'.state ∧ Idle l') ∨
    (∃ l', r = .ok (l', false) ∧ Stopped x h' l') ∨ FailedPost h' r

theorem not_final_timeout : ¬ Final .timeout := by
  rintro (h | h) <;> exact nomatch h

theorem not_final_awaiting : ¬ Final .awaitingToolInput := by
  rintro (h | h) <;> exact nomatch h

theorem not_final_maxIterations : ¬ Final .maxIterations := by
  rintro (h | h) <;> exact nomatch h

/-- The results of a batch answer its calls. -/
theorem paired_group {x : List ChatMessage} {content : String} {calls : List ToolCallRecord}
    {rs : List (String × Json)} (hx : Paired x) (hne : calls ≠ []) (hnd : (callIds calls).Nodup)
    (hids : rs.map (·.1) = callIds calls) :
    Paired (x ++ [.assistant content calls] ++ toolResults rs) := by
  have hgroup : Paired (.assistant content calls :: (toolResults rs ++ [])) :=
    .group hne ⟨by rw [hids], hnd⟩ .nil
  rw [List.append_nil] at hgroup
  rw [List.append_assoc]
  exact hx.append hgroup

/-- The results of a batch with a parked call: its result may be missing. -/
theorem wellShaped_parked {x : List ChatMessage} {content : String} {calls : List ToolCallRecord}
    {rs : List (String × Json)} {p : PendingToolCall} (hx : Paired x)
    (hne : calls ≠ []) (hnd : (callIds calls).Nodup) (hp : s.pendingTool = some p)
    (hm : s.messages = x ++ [.assistant content calls] ++ toolResults rs)
    (hids : rs.map (·.1) = callIds calls ∨ ∃ pre call post, calls = pre ++ call :: post ∧
      p.callId = call.callId ∧ rs.map (·.1) = callIds pre ++ callIds post) : WellShaped s := by
  rcases hids with hids | ⟨pre, call, post, hcalls, hid, hids⟩
  · refine .inl ?_
    rw [hm]
    exact paired_group hx hne hnd hids
  · refine .inr ⟨p, .assistant content calls :: toolResults rs, hp,
      ⟨content, calls, rs, rfl, hnd, ?_⟩, x, ?_, hx⟩
    · rw [hids, hid, hcalls]
      have hsplit : callIds (pre ++ call :: post) = callIds pre ++ call.callId :: callIds post := by
        simp [callIds]
      rw [hsplit]
      exact List.perm_middle.symm
    · rw [hm, List.append_assoc]
      rfl

/-- A response with calls runs them. -/
theorem act_traced {response : LlmResponse}
    {calls : List ToolCallRecord} (hw : Working x h l.state) (hi : Idle l)
    (hlast : LastResponse h response) (hne : calls ≠ [])
    (hnd : Given h → (callIds calls).Nodup) :
    (act x l response.content calls).Traced (Guard x.rt) (RoundPost x) h := by
  rw [act]
  refine Prog.Traced.bind ?_ ?_ (runCalls_traced guard_toolOp calls _ h)
  · rintro h' l' ⟨evs, l'', hr, rfl, hops, hbatch⟩
    cases hr
    have hquiet := fun e (he : e ∈ evs) => (hops e he).quiet
    have hcomp : ∀ e ∈ evs, ∀ S, ¬ Completes S e := fun e he => (hquiet e he).resume
    have hout : ∀ e ∈ evs, ¬ StartsOutbound e := fun e he => (hquiet e he).outbound
    cases hbatch with
    | answered rs hm hids hp hs hr ht hto hq =>
        have hs' : l'.suspension = none := hs.trans hi.suspension
        -- the batch is answered: the history is paired again
        have hw' : Working x (h ++ evs) l'.state := by
          refine ⟨hw.loaded.append evs, hw.chain.append evs, ?_, ?_,
            forall_append hw.unparked hq, forall_append hw.unguarded hout⟩
          · intro hg
            rw [hm]
            exact paired_group (hw.paired hg.left) hne (hnd hg.left) hids
          · intro L hk p hpend
            rw [hp] at hpend
            rw [← List.append_assoc]
            exact (hw.safe L hk.left).quiet hcomp p hpend
        by_cases htimed : l'.stepTimedOut = true
        · rw [if_pos htimed]
          refine .inr (.inl ⟨_, rfl, Working.stopped hw' ?_⟩)
          exact .silent not_final_timeout (hr.trans hi.reply) hw'.unparked
        · rw [if_neg htimed, hs']
          exact .inl ⟨l', rfl, hw', hr.trans hi.reply, hs', ht.trans hi.terminatedBy⟩
    | parked p presentation rs hm hids hp hs hb hr ht hto hpark =>
        rw [hto, hs]
        refine .inr (.inl ⟨_, rfl, hw.loaded.append evs, hw.chain.append evs, ?_, ?_, ?_,
          forall_append hw.unguarded hout, ?_⟩)
        · intro hg
          exact wellShaped_parked (hw.paired hg.left) hne (hnd hg.left) hp hm hids
        · intro _ hf
          exact absurd hf not_final_awaiting
        · intro L hk q hq
          have hqp : some p = some q := hp.symm.trans hq
          cases hqp
          obtain ⟨e, he, -, hpe⟩ := hpark
          rw [← List.append_assoc]
          exact not_done_of_parks (fun e he => hcomp e he _) ⟨e, he, hpe⟩
        · refine .parked not_final_awaiting (hlast.append fun e he => (hquiet e he).complete) rfl ?_
          obtain ⟨e, he, hinv, -⟩ := hpark
          exact ⟨e, List.mem_append_right _ he, hinv⟩
  · rintro h' e ⟨evs, l'', hr, -⟩
    exact nomatch hr

/-- The text of a closing message is a text of the model. -/
theorem closingMessage_cases (endCall : ToolCallRecord) (content : Option String) :
    closingMessage endCall content = content.getD "" ∨
      (endCall.args.get? "final_message").bind Json.asStr? =
        some (closingMessage endCall content) := by
  rw [closingMessage]
  cases hf : (endCall.args.get? "final_message").bind Json.asStr? with
  | none => exact .inl rfl
  | some s =>
      cases hs : s.isEmpty with
      | true => exact .inl (by simp [Option.filter, hs])
      | false => exact .inr (by simp [Option.filter, hs])

/-- A response is a reply, or runs its calls. -/
theorem respond_traced {response : LlmResponse}
    {history : List ChatMessage} (hw : Working x h l.state) (hi : Idle l) :
    (respond x l response).Traced (Guard x.rt) (RoundPost x)
      (h ++ [⟨.complete history, .response response⟩]) := by
  have hmem : ⟨.complete history, .response response⟩ ∈
      h ++ [(⟨.complete history, .response response⟩ : Ev)] :=
    List.mem_append_right _ (List.mem_singleton.mpr rfl)
  have hw' : Working x (h ++ [⟨.complete history, .response response⟩]) l.state :=
    hw.snoc (fun h => h) (fun _ h => h) (fun h => h)
  have hlast : LastResponse (h ++ [⟨.complete history, .response response⟩]) response :=
    ⟨h, history, [], rfl, fun e he => nomatch he⟩
  rw [respond]
  by_cases hcalls : response.toolCalls.isEmpty = true
  · rw [if_pos hcalls]
    refine .inr (.inl ⟨_, rfl, Working.stopped hw' ?_⟩)
    exact .spoke (.inl rfl) ⟨history, response, hmem, .inl rfl⟩ hw'.unparked
  · rw [if_neg hcalls]
    refine Prog.Traced.bind ?_ ?_ (ensureUniqueCallIds_traced guard_toolOp response.toolCalls [] _)
    · rintro h' calls ⟨evs, calls', hr, rfl, hops, hlen, hkept, hids⟩
      cases hr
      have hquiet := fun e (he : e ∈ evs) => (hops e he).1.quiet
      have hw'' := hw'.append (fun e he => (hquiet e he).outbound)
        (fun e he => (hquiet e he).resume) (fun e he => (hops e he).2)
      cases hend : (if x.convActive then calls.find? (isHostTool · endConversationTool)
          else none) with
      | some endCall =>
          have hin : endCall ∈ calls := by
            split at hend
            · exact List.mem_of_find?_eq_some hend
            · exact nomatch hend
          obtain ⟨c₀, hc₀, heq⟩ := hkept endCall hin
          have hargs : endCall.args = c₀.args := by rw [heq]
          refine .inr (.inl ⟨_, rfl, Working.stopped hw'' ?_⟩)
          refine .spoke ?_ ⟨history, response, List.mem_append_left _ hmem, ?_⟩ hw''.unparked
          · show Final (if l.turnHadToolError = true then _ else _)
            split
            · exact .inl rfl
            · exact .inr rfl
          · rcases closingMessage_cases endCall response.content with h | h
            · exact .inl h
            · rw [hargs] at h
              exact .inr ⟨c₀, hc₀, h⟩
      | none =>
          refine act_traced (l := { l with
              tokensIn := l.tokensIn + response.tokensIn
              tokensOut := l.tokensOut + response.tokensOut
              trail := _ }) hw'' ⟨hi.reply, hi.suspension, hi.terminatedBy⟩
            (hlast.append fun e he => (hquiet e he).complete) ?_ (fun hg => (hids hg).1)
          rintro rfl
          apply hcalls
          rw [List.isEmpty_iff, ← List.length_eq_zero_iff, ← hlen]
          rfl
    · rintro h' e ⟨evs, calls', hr, -⟩
      exact nomatch hr

/-- **ONE ROUND OF THE LOOP.** -/
theorem iteration_traced (hw : Working x h l.state)
    (hi : Idle l) : (iteration x l).Traced (Guard x.rt) (RoundPost x) h := by
  rw [iteration]
  refine Prog.Traced.bind ?_ ?_ (ensureLockHeld_traced h)
  · rintro h₁ u ⟨r, rfl, -⟩
    have hw₁ : Working x (h ++ [⟨.refresh, r⟩]) l.state :=
      hw.snoc (fun h => h) (fun _ h => h) (fun h => h)
    rw [Prog.perform_bind]
    intro n
    refine ⟨trivial, ?_⟩
    have hw₂ : Working x (h ++ [⟨.refresh, r⟩] ++ [⟨.elapsed, n⟩]) l.state :=
      hw₁.snoc (fun h => h) (fun _ h => h) (fun h => h)
    beta_reduce
    by_cases ht : x.config.limits.timeout ≤ n
    · rw [if_pos ht]
      refine .inr (.inl ⟨_, rfl, Working.stopped hw₂ ?_⟩)
      exact .silent not_final_timeout hi.reply hw₂.unparked
    · rw [if_neg ht, Prog.perform_bind]
      have hw₃ := hw₂.truncate x.config.limits.maxHistoryTurns
      intro c
      refine ⟨hw₃.paired, ?_⟩
      have hw₄ := hw₃.snoc (e := ⟨.complete _, c⟩) (fun h => h) (fun _ h => h) (fun h => h)
      cases c with
      | timedOut =>
          refine .inr (.inl ⟨_, rfl, Working.stopped hw₄ ?_⟩)
          exact .silent not_final_timeout hi.reply hw₄.unparked
      | error e =>
          refine Prog.Traced.mono ?_ (llmFailed_traced (l := { l with state := _ }) hw₄ e)
          intro h' r hpost
          exact .inr (.inr hpost)
      | response response =>
          exact respond_traced (l := { l with state := l.bounded x }) hw₃
            ⟨hi.reply, hi.suspension, hi.terminatedBy⟩
  · rintro h' e ⟨r, rfl, ⟨hr, -⟩ | ⟨_, er, hr, rfl⟩⟩
    · exact nomatch hr
    · exact .inr (.inr ⟨e, rfl, .unlocked er (by simp)⟩)

/-- **THE LOOP** stops, or the turn failed and is settled. -/
theorem planActObserve_traced :
    ∀ (n iter : Nat) (l : StepState) (h : List Ev), Working x h l.state → Idle l →
      (planActObserve x n iter l).Traced (Guard x.rt) (fun h' r =>
        (∃ l', r = .ok l' ∧ Stopped x h' l') ∨ FailedPost h' r) h := by
  intro n
  induction n with
  | zero =>
      intro iter l h hw hi
      refine .inl ⟨l, rfl, hw.stopped ?_⟩
      exact .silent (hi.terminatedBy ▸ not_final_maxIterations) hi.reply hw.unparked
  | succ n ih =>
      intro iter l h hw hi
      rw [planActObserve]
      refine Prog.Traced.bind ?_ ?_ (iteration_traced (l := { l with iterations := iter + 1 }) hw
        ⟨hi.reply, hi.suspension, hi.terminatedBy⟩)
      · rintro h' ⟨l', again⟩ (⟨l'', hr, hw', hi'⟩ | ⟨l'', hr, hs⟩ | ⟨e, hr, -⟩)
        · cases hr
          exact ih (iter + 1) l' h' hw' hi'
        · cases hr
          exact .inl ⟨l', rfl, hs⟩
        · exact nomatch hr
      · rintro h' e (⟨l'', hr, -⟩ | ⟨l'', hr, -⟩ | ⟨e', hr, hs⟩)
        · exact nomatch hr
        · exact nomatch hr
        · exact .inr ⟨e, rfl, hs⟩

/-! ## The end of a turn -/

/-- A turn that is settled, and where its reply comes from. -/
structure FinishPost (h : List Ev) (r : Except AgentError AgentOutput) : Prop where
  settled : Settled h
  replied : ∀ out, r = .ok out → Replied h out.reply

theorem FinishPost.turnPost {r : Except AgentError AgentOutput}
    (hp : FinishPost h r) : TurnPost h r :=
  ⟨.inr hp.settled, hp.replied⟩

/-- The last save of the turn. -/
theorem saveAndReturn_traced (sideTurn : Bool)
    (hl : Loaded h) (hshape : Given h → WellShaped l.state)
    (hsafe : ∀ L, PendingKept L h → Safe (L ++ h) l.state)
    (hreply : ∀ evs, (∀ e ∈ evs, Quiet e ∧ ¬ InvokeParks e) → Replied (h ++ evs) l.reply) :
    (saveAndReturn x l sideTurn).Traced (Guard x.rt) FinishPost h := by
  rw [saveAndReturn]
  refine Prog.Traced.bind ?_ ?_ (ensureLockHeld_traced h)
  · rintro h' u ⟨r, rfl, ⟨-, hr⟩ | ⟨e, er, he, -⟩⟩
    · rw [Prog.perform_bind]
      intro r'
      refine ⟨guard_save hl (fun hg => (hshape hg).truncateHistory _) hsafe hr, ?_, ?_⟩
      · exact .saved _ _ _ [] rfl fun e he => nomatch he
      · intro out hout
        cases hout
        rw [List.append_assoc]
        refine hreply _ (forall_append (forall_singleton ?_) (forall_singleton ?_))
        · exact ⟨⟨fun h => h, fun h => h, fun _ h => h⟩, fun h => h⟩
        · exact ⟨⟨fun h => h, fun h => h, fun _ h => h⟩, fun h => h⟩
    · exact nomatch he
  · rintro h' e ⟨r, rfl, ⟨he, -⟩ | ⟨e', er, he, rfl⟩⟩
    · exact nomatch he
    · refine ⟨.unlocked er (List.mem_append_right _ (List.mem_singleton.mpr rfl)), ?_⟩
      intro out hout
      exact nomatch hout

/-- What the end of a side turn changes. -/
theorem finishSideTurn_spec (x : StepEnv) (l : StepState) :
    (l.finishSideTurn x).1.reply = l.reply ∧
      (Paired l.state.messages → Paired (l.finishSideTurn x).1.state.messages) ∧
      ((l.finishSideTurn x).1.state = l.state ∨
        (l.finishSideTurn x).1.state.pendingTool = none) ∧
      (¬ Final l.terminatedBy → (l.finishSideTurn x).1.state = l.state) := by
  rw [StepState.finishSideTurn]
  by_cases hs : x.sidePending = true
  · rw [if_pos hs]
    obtain ⟨h1, h2⟩ := finishSideTurn_cases l.state l.terminatedBy l.suspension
    refine ⟨rfl, h1, h2, ?_⟩
    intro hf
    have hne : l.terminatedBy ≠ .conversationEnded := fun h => hf (.inr h)
    show (l.state.finishSideTurn l.terminatedBy l.suspension).1 = l.state
    rw [ConversationState.finishSideTurn, if_neg hne]
    split <;> rfl
  · rw [if_neg hs]
    exact ⟨rfl, fun h => h, .inl rfl, fun _ => rfl⟩

/-- The events of a chain run. -/
theorem chainEvents_cons (d : GuardrailDirection) (content : String) {evs : List Ev}
    (hevs : ∀ e ∈ evs, IsEvaluate e) : ∀ e ∈ (⟨.chain d content, ()⟩ :: evs : List Ev),
      ¬ InvokeParks e ∧ ∀ S, ¬ Completes S e := by
  intro e he
  rcases List.mem_cons.mp he with rfl | he
  · exact ⟨fun h => h, fun _ h => h⟩
  · exact ⟨(hevs e he).not_parks, (hevs e he).quiet.resume⟩

/-- A final reply is checked, saved and returned. -/
theorem finishReply_traced (hs : Stopped x h l)
    (hf : Final l.terminatedBy) : (finishReply x l).Traced (Guard x.rt) FinishPost h := by
  obtain ⟨hreply, hpaired, hstate, -⟩ := finishSideTurn_spec x l
  have hspoke : ModelText h l.reply ∧ ∀ e ∈ h, ¬ InvokeParks e := by
    cases hs.ends with
    | spoke _ ht hn => exact ⟨ht, hn⟩
    | silent hf' _ _ => exact absurd hf hf'
    | parked hf' _ _ _ => exact absurd hf hf'
  rw [finishReply]
  refine Prog.Traced.bind ?_ ?_ (runChainBlocking_traced guard_evaluate x.ctx x.chain .outbound
    l.reply (h := h) trivial)
  · rintro h' reply ⟨evs, rfl, hevs, ⟨content', hr, hpass⟩ | ⟨info, hr, -⟩⟩
    · cases hr
      have hchain := chainEvents_cons .outbound l.reply hevs
      refine saveAndReturn_traced _ (hs.loaded.append _) ?_ ?_ ?_
      · intro hg
        exact .inl ((hpaired (hs.paired hg.left hf)).append (.single rfl))
      · intro L hk
        rw [← List.append_assoc]
        refine Safe.quiet ?_ fun e he => (hchain e he).2
        intro p hp
        rcases hstate with hst | hst
        · exact hs.safe L hk.left p (hst ▸ hp)
        · have hnone : Safe (L ++ h) (l.finishSideTurn x).1.state := Safe.of_none hst
          exact hnone p hp
      · intro evs' hevs'
        refine .guarded ⟨x.ctx, x.chain, l.reply, h, evs, evs', ?_, hs.chain, hspoke.1, hpass⟩ ?_
        · rw [List.append_assoc]
          rfl
        · exact forall_append (forall_append hspoke.2 fun e he => (hchain e he).1)
            fun e he => (hevs' e he).2
    · exact nomatch hr
  · rintro h' e ⟨evs, rfl, hevs, ⟨content', hr, -⟩ | ⟨info, hr, e', he', hd⟩⟩
    · exact nomatch hr
    · refine ⟨.denied e' (List.mem_append_right _ (List.mem_cons_of_mem _ he')) hd, ?_⟩
      intro out hout
      exact nomatch hout

/-- The reply of a turn that ends without one of its own. -/
theorem Stopped.replied {h evs : List Ev} (hs : Stopped x h l)
    (hf : ¬ Final l.terminatedBy) (hevs : ∀ e ∈ evs, Quiet e ∧ ¬ InvokeParks e) :
    Replied (h ++ evs) l.reply := by
  cases hs.ends with
  | spoke hf' _ _ => exact absurd hf' hf
  | silent _ hr hn => exact .silent hr (forall_append hn fun e he => (hevs e he).2)
  | parked _ hl hr hp =>
      obtain ⟨e, he, hpe⟩ := hp
      exact .parked (hl.append fun e he => (hevs e he).1.complete) hr
        ⟨e, List.mem_append_left _ he, hpe⟩
        (forall_append hs.unguarded fun e he => (hevs e he).1.outbound)

/-- **THE END OF A TURN.** -/
theorem finish_traced (hs : Stopped x h l) :
    (finish x l).Traced (Guard x.rt) FinishPost h := by
  have hquiet : ¬ Final l.terminatedBy →
      (saveAndReturn x (l.finishSideTurn x).1 (l.finishSideTurn x).2).Traced (Guard x.rt)
        FinishPost h := by
    intro hf
    obtain ⟨hreply, -, -, hstate⟩ := finishSideTurn_spec x l
    refine saveAndReturn_traced _ hs.loaded ?_ ?_ ?_
    · rw [hstate hf]
      exact hs.shaped
    · rw [hstate hf]
      exact hs.safe
    · intro evs hevs
      rw [hreply]
      exact hs.replied hf hevs
  rw [finish]
  cases ht : l.terminatedBy with
  | finalReply => exact finishReply_traced hs (.inl ht)
  | conversationEnded => exact finishReply_traced hs (.inr ht)
  | _ => exact hquiet (by rw [ht]; rintro (h | h) <;> exact nomatch h)

/-! ## Turns that answer a message -/

/-- The loop and the end of a turn. -/
theorem loop_traced (hw : Working x h l.state)
    (hi : Idle l) (n iter : Nat) :
    (planActObserve x n iter l >>= finish x).Traced (Guard x.rt) FinishPost h := by
  refine Prog.Traced.bind ?_ ?_ (planActObserve_traced n iter l h hw hi)
  · rintro h' l' (⟨l'', hr, hs⟩ | ⟨e, hr, -⟩)
    · cases hr
      exact finish_traced hs
    · exact nomatch hr
  · rintro h' e (⟨l'', hr, -⟩ | ⟨e', hr, hs⟩)
    · exact nomatch hr
    · exact ⟨hs, fun out hout => nomatch hout⟩

/-- A turn for a message. -/
theorem messageTurn_traced
    (hw : Working x h state) (hn : ∀ e ∈ h, ∀ S, ¬ Completes S e) (trail : List AgentStep)
    (message : AgentInput) :
    (messageTurn x state trail message).Traced (Guard x.rt) TurnPost h := by
  rw [messageTurn]
  refine Prog.Traced.bind ?_ ?_ (runChainBlocking_traced guard_evaluate x.ctx x.chain .inbound
    message.text (h := h) trivial)
  · rintro h' text ⟨evs, rfl, hevs, -⟩
    have hchain := chainEvents_cons .inbound message.text hevs
    have hw' : Working x (h ++ ⟨.chain .inbound message.text, ()⟩ :: evs) state := by
      refine hw.append ?_ (fun e he => (hchain e he).2) (fun e he => (hchain e he).1)
      intro e he
      rcases List.mem_cons.mp he with rfl | he
      · exact fun h => h
      · exact (hevs e he).quiet.outbound
    refine Prog.Traced.mono (Q := FinishPost) (fun _ _ hp => hp.turnPost) ?_
    exact loop_traced (l := .start _ trail) (hw'.push rfl) ⟨rfl, rfl, rfl⟩ _ _
  · rintro h' e ⟨evs, rfl, hevs, -⟩
    refine ⟨.inl (forall_append hn fun e he => ?_), fun out hout => nomatch hout⟩
    exact (chainEvents_cons .inbound message.text hevs e he).2

/-! ## Turns that resume a parked flow -/

/-- A turn that found a parked call and an answer for it. -/
structure Resuming (x : StepEnv) (h : List Ev) (s : ConversationState) (p : PendingToolCall) :
    Prop where
  load : ⟨.load, .ok s⟩ ∈ h
  pending : s.pendingTool = some p
  chain : Assembled h x.chain
  quiet : ∀ e ∈ h, Quiet e ∧ ¬ InvokeParks e

/-- The history after the result of a resumed call was written into it. -/
theorem WellShaped.resumed {p : PendingToolCall} (h : WellShaped s)
    (hp : s.pendingTool = some p) (c : Json) :
    Paired ({ s with pendingTool := none }.patchToolResult p.callId c).messages := by
  rcases h with h | ⟨p', t, hp', ht, hup⟩
  · exact Paired.patch (s := { s with pendingTool := none }) h _ _
  · rw [hp] at hp'
    cases hp'
    exact PairedUpTo.patch (s := { s with pendingTool := none }) hup ht _

/-- The history of a call that parked again. -/
theorem WellShaped.reparked {p p' : PendingToolCall} (h : WellShaped s)
    (hp : s.pendingTool = some p) (hid : p'.callId = p.callId) :
    WellShaped { s with pendingTool := some p' } := by
  rcases h with h | ⟨q, t, hq, ht, hup⟩
  · exact .inl h
  · rw [hp] at hq
    cases hq
    exact .inr ⟨p', t, rfl, by rw [hid]; exact ht, hup⟩

/-- What the resume of a parked flow leaves: a conversation to go on with, or one that
    waits again. -/
def ResumePost (x : StepEnv) (h' : List Ev) (r : Except AgentError StepState) : Prop :=
  ∃ l, r = .ok l ∧ ((Working x h' l.state ∧ Idle l) ∨ (Stopped x h' l ∧ l.suspension.isSome))

theorem noteAttachments_none (h : l.suspension = none) (p : PendingToolCall)
    (count : Nat) : l.noteAttachments p count = { l with
      state := l.state.announceUnreadAttachments p.callId (p.unannouncedAttachments + count) } := by
  rw [StepState.noteAttachments]
  cases l.state.pendingTool <;> rw [h]

/-- The resume ended: the result of the call is recorded and written into the history. -/
theorem resumeCompleted_traced
    {p : PendingToolCall} (hr : Resuming x h s p) {e : Ev} (he : ResumeEnds e)
    (hout : ¬ StartsOutbound e) (hpark : ¬ InvokeParks e) (l : StepState) (hi : Idle l)
    (hl : l.state = { s with pendingTool := none }) (result : Json) (count : Nat) :
    (resumeCompleted l p result >>= fun l =>
      (return (if l.suspension.isSome then { l with terminatedBy := .awaitingToolInput }
        else l).noteAttachments p count : Turn StepState)).Traced (Guard x.rt) (ResumePost x)
      (h ++ [e]) := by
  intro r
  refine ⟨.inr ⟨e, List.mem_append_right _ (List.mem_singleton.mpr rfl), he⟩, ?_⟩
  refine ⟨_, rfl, .inl ?_⟩
  simp only [hi.suspension, Option.isSome_none, Bool.false_eq_true, if_false]
  rw [noteAttachments_none rfl]
  refine ⟨⟨?_, hr.chain.append _ |>.append _, ?_, ?_, ?_, ?_⟩, hi.reply, rfl,
    hi.terminatedBy⟩
  · exact ⟨s, List.mem_append_left _ (List.mem_append_left _ hr.load)⟩
  · intro hg
    refine Paired.announce ?_ _ _
    rw [hl]
    exact WellShaped.resumed (hg _ (List.mem_append_left _ (List.mem_append_left _ hr.load)))
      hr.pending _
  · intro L _
    refine Safe.of_none ?_
    simp only [announceUnreadAttachments_pendingTool, patchToolResult_pendingTool, hl]
  · exact forall_append (forall_append (fun e he => (hr.quiet e he).2) (forall_singleton hpark))
      (forall_singleton fun h => h)
  · exact forall_append (forall_append (fun e he => (hr.quiet e he).1.outbound)
      (forall_singleton hout)) (forall_singleton fun h => h)

/-- The flow parked again: the turn ends there. -/
theorem resumeWaiting_traced
    {p : PendingToolCall} (hr : Resuming x h s p) (snapshot presentation payload : Json)
    (l : StepState) (hi : Idle l) (hl : l.state = { s with pendingTool := none }) (count : Nat) :
    (resumeWaiting l p snapshot presentation >>= fun l =>
      (return (if l.suspension.isSome then { l with terminatedBy := .awaitingToolInput }
        else l).noteAttachments p count : Turn StepState)).Traced (Guard x.rt) (ResumePost x)
      (h ++ [⟨.resumeFlow p.flowRef p.flowSnapshot payload, some (.waiting snapshot presentation)⟩]) := by
  intro now
  refine ⟨trivial, _, rfl, .inr ⟨⟨?_, hr.chain.append _ |>.append _, ?_, ?_, ?_, ?_, ?_⟩, rfl⟩⟩
  · exact ⟨s, List.mem_append_left _ (List.mem_append_left _ hr.load)⟩
  · intro hg
    show WellShaped { l.state with pendingTool := _ }
    rw [hl]
    exact WellShaped.reparked (s := s) (hg _ (List.mem_append_left _ (List.mem_append_left _ hr.load)))
      hr.pending rfl
  · intro _ hf
    exact absurd hf not_final_awaiting
  · intro L _ q hq
    cases hq
    rw [List.append_assoc, ← List.append_assoc]
    refine not_done_of_parks ?_ ⟨_, List.mem_append_left _ (List.mem_singleton.mpr rfl), rfl⟩
    exact forall_append (forall_singleton fun h => h) (forall_singleton fun h => h)
  · exact forall_append (forall_append (fun e he => (hr.quiet e he).1.outbound)
      (forall_singleton fun h => h)) (forall_singleton fun h => h)
  · refine .silent not_final_awaiting hi.reply ?_
    exact forall_append (forall_append (fun e he => (hr.quiet e he).2)
      (forall_singleton fun h => h)) (forall_singleton fun h => h)

/-- The answer to a pending call. -/
theorem resumeStep_traced
    {p : PendingToolCall} (hr : Resuming x h s p) (payload : Json) (count : Nat) :
    (resumeStep (.start { s with pendingTool := none } []) p payload count).Traced (Guard x.rt)
      (ResumePost x) h := by
  intro r
  refine ⟨⟨⟨s, p, hr.load, hr.pending, rfl⟩, fun e he => (hr.quiet e he).1.resume⟩, ?_⟩
  rcases r with _ | result | ⟨snapshot, presentation⟩
  · exact resumeCompleted_traced hr (e := ⟨.resumeFlow _ _ payload, none⟩) trivial (fun h => h)
      (fun h => h) _ ⟨rfl, rfl, rfl⟩ rfl _ _
  · exact resumeCompleted_traced hr (e := ⟨.resumeFlow _ _ payload, some (.completed result)⟩)
      trivial (fun h => h) (fun h => h) _ ⟨rfl, rfl, rfl⟩ rfl _ _
  · exact resumeWaiting_traced hr _ _ _ _ ⟨rfl, rfl, rfl⟩ rfl _

/-- A turn for a pending call. -/
theorem resumeTurn_traced
    {p : PendingToolCall} (hr : Resuming x h s p) (payload : Json) (message : AgentInput) :
    (resumeTurn x { s with pendingTool := none } p payload message).Traced (Guard x.rt)
      TurnPost h := by
  rw [resumeTurn]
  refine Prog.Traced.bind ?_ ?_ (resumeStep_traced hr payload _)
  · rintro h' l ⟨l', hl, hcase⟩
    cases hl
    refine Prog.Traced.mono (Q := FinishPost) (fun _ _ hp => hp.turnPost) ?_
    rcases hcase with ⟨hw, hi⟩ | ⟨hs, hsus⟩
    · exact loop_traced hw hi _ _
    · -- a flow that parked again leaves no round to the loop
      rw [rounds, if_pos hsus]
      exact finish_traced hs
  · rintro h' e ⟨l', hl, -⟩
    exact nomatch hl

/-! ## The turn -/

/-- Quiet events keep the reply. -/
theorem Replied.append {h evs : List Ev} {reply : String} (hr : Replied h reply)
    (hevs : ∀ e ∈ evs, Quiet e ∧ ¬ InvokeParks e) : Replied (h ++ evs) reply := by
  cases hr with
  | opening ho hn =>
      obtain ⟨agentId, config, opening, h1, h2, h3⟩ := ho
      exact .opening ⟨agentId, config, opening, List.mem_append_left _ h1, h2, h3⟩
        (forall_append hn fun e he => (hevs e he).1.complete)
  | guarded hc hn =>
      obtain ⟨ctx, chain, text, h₁, evs', h₂, heq, ha, ht, hp⟩ := hc
      refine .guarded ⟨ctx, chain, text, h₁, evs', h₂ ++ evs, ?_, ha, ht, hp⟩
        (forall_append hn fun e he => (hevs e he).2)
      rw [heq]
      simp
  | silent hr hn => exact .silent hr (forall_append hn fun e he => (hevs e he).2)
  | parked hl hr hp hn =>
      obtain ⟨e, he, hpe⟩ := hp
      exact .parked (hl.append fun e he => (hevs e he).1.complete) hr
        ⟨e, List.mem_append_left _ he, hpe⟩
        (forall_append hn fun e he => (hevs e he).1.outbound)

/-- And the end of the turn. -/
theorem TurnPost.append {h evs : List Ev} {r : Except AgentError AgentOutput}
    (hp : TurnPost h r) (hevs : ∀ e ∈ evs, Quiet e ∧ ¬ InvokeParks e) : TurnPost (h ++ evs) r := by
  refine ⟨?_, fun out hout => (hp.replied out hout).append hevs⟩
  rcases hp.settled with hn | hs
  · exact .inl (forall_append hn fun e he => (hevs e he).1.resume)
  · exact .inr (hs.append fun e he => (hevs e he).1.resume)

theorem turnPost_error (hq : ∀ e ∈ h, Quiet e ∧ ¬ InvokeParks e) (e : AgentError) :
    TurnPost h (.error e) :=
  ⟨.inl fun e he => (hq e he).1.resume, fun _ hout => nomatch hout⟩

/-- The chain is read from the configuration. -/
theorem guardrailChain_traced {config : AgentConfig} {agentId : String}
    (hc : ⟨.agentConfig agentId, .ok config⟩ ∈ h)
    (hq : ∀ e ∈ h, Quiet e ∧ ¬ InvokeParks e) :
    (guardrailChain config).Traced (Guard rt) (fun h' r => (∃ evs, h' = h ++ evs) ∧
      (∀ e ∈ h', Quiet e ∧ ¬ InvokeParks e) ∧ ∀ chain, r = .ok chain → Assembled h' chain) h := by
  rw [guardrailChain, Prog.perform_bind]
  intro registry
  refine ⟨trivial, ?_⟩
  beta_reduce
  rw [Prog.perform_bind]
  intro r
  refine ⟨trivial, ?_⟩
  have hq' := forall_append (forall_append hq
    (forall_singleton (e := ⟨.capabilityRegistry, registry⟩)
      ⟨⟨fun h => h, fun h => h, fun _ h => h⟩, fun h => h⟩))
    (forall_singleton (e := ⟨.mandatoryGuardrails, r⟩)
      ⟨⟨fun h => h, fun h => h, fun _ h => h⟩, fun h => h⟩)
  have happ : ∃ evs, h ++ [⟨.capabilityRegistry, registry⟩] ++ [⟨.mandatoryGuardrails, r⟩] =
      h ++ evs := ⟨_, List.append_assoc ..⟩
  cases r with
  | error e => exact ⟨happ, hq', fun chain hr => nomatch hr⟩
  | ok mandatory =>
      cases hch : assembleChain registry mandatory config.guardrails with
      | error unresolved =>
          simp only [hch]
          exact ⟨happ, hq', fun chain hr => nomatch hr⟩
      | ok chain =>
          simp only [hch]
          refine ⟨happ, hq', ?_⟩
          intro chain' hr
          cases hr
          refine ⟨agentId, config, registry, mandatory, ?_, ?_, ?_, hch⟩
          · exact List.mem_append_left _ (List.mem_append_left _ hc)
          · exact List.mem_append_left _ (List.mem_append_right _ (List.mem_singleton.mpr rfl))
          · exact List.mem_append_right _ (List.mem_singleton.mpr rfl)

/-- The conversation a message is answered in, once the parked call was dealt with. -/
theorem working_taken {s s' : ConversationState}
    (hload : ⟨.load, .ok s⟩ ∈ h) (hchain : Assembled h x.chain)
    (hq : ∀ e ∈ h, Quiet e ∧ ¬ InvokeParks e) (hs : WellShaped s → Paired s'.messages)
    (hp : ∀ q, s'.pendingTool = some q →
      ∃ p, s.pendingTool = some p ∧ q.flowSnapshot = p.flowSnapshot) : Working x h s' where
  loaded := ⟨s, hload⟩
  chain := hchain
  paired := fun hg => hs (hg _ hload)
  safe := fun L hk q hqs => by
    obtain ⟨p, hsp, hsame⟩ := hp q hqs
    rw [hsame]
    exact (hk s hload).quiet (fun e he => (hq e he).1.resume) p hsp
  unparked := fun e he => (hq e he).2
  unguarded := fun e he => (hq e he).1.outbound

/-- The turn on a conversation whose pending call was taken. -/
theorem converseTaken_traced {config : AgentConfig} {agentId : String}
    {s s' : ConversationState} {taken : Taken}
    (hc : ⟨.agentConfig agentId, .ok config⟩ ∈ h) (hload : ⟨.load, .ok s⟩ ∈ h)
    (hq : ∀ e ∈ h, Quiet e ∧ ¬ InvokeParks e) (ctx : GuardrailRunCtx) (message : AgentInput)
    (hcases : TakenFrom s s' taken) :
    (converseTaken rt config ctx message s' taken).Traced (Guard rt) TurnPost h := by
  refine Prog.Traced.bind ?_ ?_ (guardrailChain_traced hc hq)
  · rintro h' chain ⟨⟨evs, rfl⟩, hq', hchain⟩
    have hload' := List.mem_append_left evs hload
    have hn := fun e he => (hq' e he).1.resume
    cases hcases with
    | nothing hs hp =>
        refine messageTurn_traced (x := ⟨rt, config, ctx, chain, _, false⟩) ?_ hn _ _
        refine working_taken hload' (hchain _ rfl) hq' ?_ ?_
        · rintro (hpaired | ⟨p, t, hp', -⟩)
          · rw [hs]
            exact hpaired
          · rw [hp] at hp'
            exact nomatch hp'
        · intro q hqs
          rw [hs, hp] at hqs
          exact nomatch hqs
    | @resume p payload hp hs =>
        cases hs
        exact resumeTurn_traced (x := ⟨rt, config, ctx, chain, _, false⟩)
          ⟨hload', hp, hchain _ rfl, hq'⟩ payload message
    | @cancelled step hp hs =>
        refine messageTurn_traced (x := ⟨rt, config, ctx, chain, _, false⟩) ?_ hn _ _
        refine working_taken hload' (hchain _ rfl) hq' hs ?_
        intro q hqs
        rw [hp] at hqs
        exact nomatch hqs
    | @side p p' hp hp' hsame hs =>
        refine messageTurn_traced (x := ⟨rt, config, ctx, chain, _, true⟩) ?_ hn _ _
        refine working_taken hload' (hchain _ rfl) hq' hs ?_
        intro q hqs
        rw [hp'] at hqs
        cases hqs
        exact ⟨p, hp, hsame⟩
  · rintro h' e ⟨-, hq', -⟩
    exact turnPost_error hq' e

/-- The turn on the loaded conversation. -/
theorem converse_traced {config : AgentConfig} {agentId : String}
    (hc : ⟨.agentConfig agentId, .ok config⟩ ∈ h)
    (hload : ⟨.load, .ok s⟩ ∈ h) (hq : ∀ e ∈ h, Quiet e ∧ ¬ InvokeParks e) (ctx : GuardrailRunCtx)
    (message : AgentInput) :
    (converse rt config ctx message s).Traced (Guard rt) TurnPost h := by
  rw [converse, Prog.perform_bind]
  intro now
  refine ⟨trivial, ?_⟩
  have hq' := forall_append hq (forall_singleton (e := ⟨.utcNow, now⟩)
    ⟨⟨fun h => h, fun h => h, fun _ h => h⟩, fun h => h⟩)
  exact converseTaken_traced (List.mem_append_left _ hc) (List.mem_append_left _ hload) hq' ctx
    message (takePending_cases s message.resumePayload now config.onTextWhileParked)

/-- An opening is said to an empty conversation only. -/
theorem opening?_some {config : AgentConfig} {message : AgentInput}
    {opening : String} (h : opening? config message s = some opening) :
    s.messages = [] ∧ ∃ text, config.openingMessage = some text ∧
      opening = String.ofList (trim text.toList) := by
  rw [opening?] at h
  split at h
  · rename_i hempty
    rw [Bool.and_eq_true] at hempty
    refine ⟨List.isEmpty_iff.mp hempty.1, ?_⟩
    cases hm : config.openingMessage with
    | none => rw [hm] at h; exact nomatch h
    | some text =>
        rw [hm] at h
        have := (Option.filter_eq_some_iff.mp h).1
        exact ⟨text, rfl, (Option.some.inj this).symm⟩
  · exact nomatch h

/-- The turn under its lock. -/
theorem underLock_traced {config : AgentConfig} {agentId : String}
    (hc : ⟨.agentConfig agentId, .ok config⟩ ∈ h) (hafter : LoadAfter h)
    (hq : ∀ e ∈ h, Quiet e ∧ ¬ InvokeParks e) (ctx : GuardrailRunCtx) (message : AgentInput) :
    (underLock rt config ctx message).Traced (Guard rt) TurnPost h := by
  rw [underLock, Prog.perform_bind]
  intro r
  refine ⟨hafter, ?_⟩
  have hq' := forall_append hq (forall_singleton (e := ⟨.load, r⟩)
    ⟨⟨fun h => h, fun h => h, fun _ h => h⟩, fun h => h⟩)
  cases r with
  | error e => exact turnPost_error hq' _
  | ok s =>
      have hload : ⟨.load, .ok s⟩ ∈ h ++ [(⟨.load, .ok s⟩ : Ev)] :=
        List.mem_append_right _ (List.mem_singleton.mpr rfl)
      cases ho : opening? config message s with
      | none =>
          simp only [ho]
          exact converse_traced (List.mem_append_left _ hc) hload hq' ctx message
      | some opening =>
          simp only [ho]
          obtain ⟨hempty, text, htext, heq⟩ := opening?_some ho
          rw [openConversation, Prog.perform_bind]
          intro r
          refine ⟨⟨?_, ?_, ⟨s, hload⟩, .inr ⟨h, s, rfl⟩⟩, ?_⟩
          · intro _
            refine .inl ?_
            show Paired (s.messages ++ [_])
            rw [hempty]
            exact .single rfl
          · intro L hk
            exact (hk s hload).quiet fun e he => (hq' e he).1.resume
          · have hq'' := forall_append hq' (forall_singleton (e := ⟨.save _, r⟩)
              ⟨⟨fun h => h, fun h => h, fun _ h => h⟩, fun h => h⟩)
            refine ⟨.inl fun e he => (hq'' e he).1.resume, ?_⟩
            intro out hout
            cases hout
            exact .opening ⟨agentId, config, text,
              List.mem_append_left _ (List.mem_append_left _ hc), htext, heq⟩
              fun e he => (hq'' e he).1.complete

/-- A check says nothing to the model. -/
theorem IsCheck.quiet {e : Ev} (h : IsCheck e) : Quiet e ∧ ¬ InvokeParks e := by
  obtain ⟨i, r⟩ := e
  cases i <;> first
    | exact False.elim h
    | exact ⟨⟨fun h => h, fun h => h, fun _ h => h⟩, fun h => h⟩

/-- The token cap is checked by checks only. -/
theorem checkTokenCap_traced (config : AgentConfig)
    (hc : ∀ e ∈ h, IsCheck e) : (checkTokenCap config).Traced (Guard rt)
      (fun h' _ => (∃ evs, h' = h ++ evs) ∧ ∀ e ∈ h', IsCheck e) h := by
  rw [checkTokenCap]
  split
  · exact ⟨⟨[], (List.append_nil h).symm⟩, hc⟩
  · rename_i cap _
    rw [Prog.perform_bind]
    intro r
    refine ⟨trivial, ?_⟩
    have hpost : (∃ evs, h ++ [⟨.tokensUsed, r⟩] = h ++ evs) ∧
        ∀ e ∈ h ++ [(⟨.tokensUsed, r⟩ : Ev)], IsCheck e :=
      ⟨⟨_, rfl⟩, forall_append hc (forall_singleton trivial)⟩
    cases r with
    | error e => exact hpost
    | ok used =>
        beta_reduce
        by_cases hcap : cap ≤ used
        · simp only [hcap, if_true]
          exact hpost
        · simp only [hcap, if_false]
          exact hpost

/-- So are the budgets. -/
theorem checkBudgets_traced (config : AgentConfig)
    (hc : ∀ e ∈ h, IsCheck e) : (checkBudgets config).Traced (Guard rt)
      (fun h' _ => (∃ evs, h' = h ++ evs) ∧ ∀ e ∈ h', IsCheck e) h := by
  rw [checkBudgets]
  refine Prog.Traced.bind ?_ (fun _ _ hp => hp) (checkTokenCap_traced config hc)
  rintro h' u ⟨⟨evs, rfl⟩, hc'⟩
  rw [Prog.perform_bind]
  intro exceeded
  refine ⟨trivial, ?_⟩
  have hpost : (∃ evs', h ++ evs ++ [⟨.overBudget, exceeded⟩] = h ++ evs') ∧
      ∀ e ∈ h ++ evs ++ [(⟨.overBudget, exceeded⟩ : Ev)], IsCheck e :=
    ⟨⟨_, List.append_assoc ..⟩, forall_append hc' (forall_singleton trivial)⟩
  cases exceeded <;> exact hpost

/-- **THE TURN**: on every answer it may get, each of its events is guarded, and its
    trace and result satisfy `TurnPost`. -/
theorem runStep_traced (rt : AgentRuntime) (tenant : TenantContext) (sessionId agentId : String)
    (message : AgentInput) :
    (runStep rt tenant sessionId agentId message).Traced (Guard rt) TurnPost [] := by
  rw [runStep, Prog.perform_bind]
  intro r
  refine ⟨trivial, ?_⟩
  have hc : ∀ e ∈ ([] ++ [⟨.agentConfig agentId, r⟩] : List Ev), IsCheck e :=
    forall_singleton trivial
  cases r with
  | error e => exact turnPost_error (fun e he => (hc e he).quiet) _
  | ok config =>
      refine Prog.Traced.bind ?_ ?_ (checkBudgets_traced config hc)
      · rintro h' u ⟨⟨evs, rfl⟩, hc'⟩
        rw [Prog.perform_bind]
        intro r
        refine ⟨hc', ?_⟩
        have hq := forall_append (fun e he => (hc' e he).quiet)
          (forall_singleton (e := ⟨.acquireLock, r⟩)
            ⟨⟨fun h => h, fun h => h, fun _ h => h⟩, fun h => h⟩)
        cases r with
        | error e => exact turnPost_error hq _
        | ok u =>
            refine Prog.Traced.ensure (Q := TurnPost) (fun _ _ _ _ => trivial) ?_
              (underLock_traced (List.mem_append_left _ (List.mem_append_left _
                (List.mem_singleton.mpr rfl))) ⟨_, rfl, hc'⟩ hq _ message)
            intro h res r hp
            exact hp.append (forall_singleton
              ⟨⟨fun h => h, fun h => h, fun _ h => h⟩, fun h => h⟩)
      · rintro h' e ⟨-, hc'⟩
        exact turnPost_error (fun e he => (hc' e he).quiet) e

end Greentic.Aw
