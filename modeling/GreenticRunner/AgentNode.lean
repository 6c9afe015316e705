import GreenticRunner.ApprovalGate

/-! # Conversational agents behind the broker

    The `DwAgent` branch of `dispatch_node` in `runner/engine.rs` for a conversational node
    in `Nats` mode: a user turn is dispatched and the node parks on itself; the response of
    the agent re-enters the node.

    * `responses_consumed_iff` — when every response is taken for a response;
    * `secondResponse_dispatched` — a response that is taken for a user turn. -/

namespace Greentic.Engine

open Transition

/-! ## The node -/

/-- `MAX_PARK_TURNS`. -/
def maxParkTurns : Nat := 100

/-- The part of `ExecutionState` that the node uses, its own entries of the two maps. -/
structure AgentState where
  entry : Json
  pendingAgentAwait : Bool
  parkTurns : Nat

/-- What the node hands back to the flow. -/
inductive AgentControl where
  | awaitHere (input : Json)
  | loopHere (payload : Json)
  | complete (payload : Json)

/-- `agent_error_envelope_reply`.  `failureText` is `user_facing_flow_failure_text`. -/
def agentErrorEnvelopeReply (failureText : Json → String) (entry : Json) : Json :=
  let error := (entry.get? "error").filter (!·.isNull)
  let output := entry.get? "output"
  let partialReply := ((output.bind (·.get? "reply")).bind Json.asStr?).filter (trimmed · ≠ "")
  let trail := if partialReply.isSome then output.bind (·.get? "trail") else none
  presentFields [("error", error), ("reply", some (.str (partialReply.getD (failureText entry)))),
    ("trail", trail)]

/-- The answer to the response of the agent. -/
def consumeResponse (failureText : Json → String) (s : AgentState) : AgentControl × AgentState :=
  let s := { s with pendingAgentAwait := false }
  if ((s.entry.get? "ok").bind Json.asBool?).getD false then
    let output := (s.entry.get? "output").getD .null
    if (output.get? "terminated_by").bind Json.asStr? = some "conversation_ended" then
      (.complete output, { s with parkTurns := 0 })
    else
      let turns := min (s.parkTurns + 1) (2 ^ 32 - 1)
      if maxParkTurns ≤ turns then (.complete output, { s with parkTurns := 0 })
      else (.loopHere output, { s with parkTurns := turns })
  -- A failed response does not count against the cap.
  else (.loopHere (agentErrorEnvelopeReply failureText s.entry), s)

/-- The branch of `dispatch_node`; a node that awaits dispatches its payload. -/
def executeConversational (failureText : Json → String) (payload : Json) (s : AgentState) :
    AgentControl × AgentState :=
  if (s.entry.get? "ok").isSome && s.pendingAgentAwait then consumeResponse failureText s
  else (.awaitHere payload, { s with pendingAgentAwait := true })

/-! ## A conversation -/

/-- What one message did. -/
structure AgentEvent where
  response : Bool
  dispatches : Nat
  consumed : Bool
  deriving DecidableEq

/-- A conversation: the parked state of the node, the dispatches that are not answered, how
    many there were, and the log, last message first. -/
structure AgentTalk where
  slot : Option AgentState
  unanswered : List Nat
  dispatches : Nat
  log : List AgentEvent

/-- A user message, or the response to a dispatch. -/
inductive Delivery where
  | user (entry payload : Json)
  | response (number : Nat) (r : RuntimeDispatchResponse) (payload : Json)

/-- The node is entered from its park, or by a flow that comes to it; the park that it leaves
    overwrites the slot. -/
def AgentTalk.enter (failureText : Json → String) (t : AgentTalk) (response : Bool)
    (entry payload : Json) : AgentTalk :=
  let s := t.slot.getD ⟨.null, false, 0⟩
  match executeConversational failureText payload { s with entry } with
  | (.awaitHere _, s') =>
      ⟨some s', t.dispatches :: t.unanswered, t.dispatches + 1, ⟨response, 1, false⟩ :: t.log⟩
  | (.loopHere _, s') => ⟨some s', t.unanswered, t.dispatches, ⟨response, 0, true⟩ :: t.log⟩
  | (.complete _, _) => ⟨none, t.unanswered, t.dispatches, ⟨response, 0, true⟩ :: t.log⟩

/-- One message.  A user message has no `ok`; a response answers a dispatch, once. -/
def deliver (failureText : Json → String) (t : AgentTalk) : Delivery → Option AgentTalk
  | .user entry payload =>
      if (entry.get? "ok").isSome then none else some (t.enter failureText false entry payload)
  | .response number r payload =>
      if number ∈ t.unanswered then
        some ({ t with unanswered := t.unanswered.erase number }.enter failureText true r.entry
          payload)
      else none

def AgentTalk.start : AgentTalk := ⟨none, [], 0, []⟩

/-- Responses are consumed and dispatch nothing, user messages dispatch once, and no more
    responses are consumed than there were dispatches. -/
structure Answered (t : AgentTalk) : Prop where
  response : ∀ e ∈ t.log, e.response = true → e.consumed = true ∧ e.dispatches = 0
  user : ∀ e ∈ t.log, e.response = false → e.dispatches = 1
  bound : t.log.countP (·.consumed) ≤ (t.log.map (·.dispatches)).sum

/-- No two responses without a user message between them. -/
def Alternating (log : List AgentEvent) : Prop :=
  ∀ l l' e e', log = l ++ e :: e' :: l' → e.response = true → e'.response = true → False

/-! ## What a message does -/

/-- The node is marked as awaiting its agent. -/
def AgentTalk.marked (t : AgentTalk) : Bool := t.slot.any (·.pendingAgentAwait)

section Enter

variable {failureText : Json → String} {t : AgentTalk} {entry payload : Json} {response : Bool}

/-- The answer to a response parks the node without its mark, or leaves the node. -/
theorem consumeResponse_cases (failureText : Json → String) (s : AgentState) :
    (∃ payload s', consumeResponse failureText s = (.loopHere payload, s') ∧
      s'.pendingAgentAwait = false) ∨
      ∃ payload s', consumeResponse failureText s = (.complete payload, s') := by
  unfold consumeResponse
  simp only
  split
  next =>
    split
    next => exact .inr ⟨_, _, rfl⟩
    next =>
      split
      next => exact .inr ⟨_, _, rfl⟩
      next => exact .inl ⟨_, _, rfl, rfl⟩
  next => exact .inl ⟨_, _, rfl, rfl⟩

/-- A response that finds the mark takes it. -/
theorem enter_consumed (hok : (entry.get? "ok").isSome = true) (hm : t.marked = true) :
    (t.enter failureText response entry payload).marked = false ∧
      (t.enter failureText response entry payload).log = ⟨response, 0, true⟩ :: t.log ∧
      (t.enter failureText response entry payload).dispatches = t.dispatches ∧
      (t.enter failureText response entry payload).unanswered = t.unanswered := by
  obtain ⟨s, hs, hpending⟩ := (Option.any_eq_true _ _).mp hm
  have hvisit : executeConversational failureText payload { s with entry }
      = consumeResponse failureText { s with entry } := by
    rw [executeConversational, if_pos]
    rw [hok, hpending]
    rfl
  unfold AgentTalk.enter
  rw [hs]
  simp only [Option.getD_some, hvisit]
  rcases consumeResponse_cases failureText { s with entry } with ⟨p, s', hc, hs'⟩ | ⟨p, s', hc⟩
  · rw [hc]
    exact ⟨hs', rfl, rfl, rfl⟩
  · rw [hc]
    exact ⟨rfl, rfl, rfl, rfl⟩

/-- Everything else is dispatched. -/
theorem enter_dispatched (h : ((entry.get? "ok").isSome && t.marked) = false) :
    (t.enter failureText response entry payload).marked = true ∧
      (t.enter failureText response entry payload).log = ⟨response, 1, false⟩ :: t.log ∧
      (t.enter failureText response entry payload).dispatches = t.dispatches + 1 ∧
      (t.enter failureText response entry payload).unanswered = t.dispatches :: t.unanswered := by
  have hpending : ((entry.get? "ok").isSome &&
      (t.slot.getD ⟨.null, false, 0⟩).pendingAgentAwait) = false := by
    cases hs : t.slot with
    | none => simp
    | some s =>
        rw [AgentTalk.marked, hs] at h
        exact h
  unfold AgentTalk.enter
  simp only [executeConversational, hpending, Bool.false_eq_true, if_false]
  exact ⟨rfl, trivial, trivial, trivial⟩

end Enter

/-! ## Whole conversations -/

/-- The newest message of a log with its predecessor. -/
theorem alternating_cons (e : AgentEvent) (log : List AgentEvent) :
    Alternating (e :: log) ↔
      Alternating log ∧ ¬ (e.response = true ∧ log.head?.any (·.response) = true) := by
  constructor
  · intro h
    constructor
    · intro l l' a b hlog
      exact h (e :: l) l' a b (by rw [hlog]; rfl)
    · rintro ⟨he, hhead⟩
      cases log with
      | nil => exact nomatch hhead
      | cons b l' => exact h [] l' e b rfl he hhead
  · rintro ⟨h, hhead⟩ l l' a b hlog ha hb
    cases l with
    | nil =>
        cases hlog
        exact hhead ⟨ha, hb⟩
    | cons d l =>
        cases hlog
        exact h l l' a b rfl ha hb

/-- The dispatches are counted, every consumed response has answered one of them, and the node
    is marked while the last message was a user message, up to the first response that
    follows another one. -/
structure Talked (t : AgentTalk) : Prop where
  count : (t.log.map (·.dispatches)).sum = t.dispatches
  answered : t.log.countP (·.response) + t.unanswered.length = t.dispatches
  consumed : ∀ e ∈ t.log, e.consumed = true → e.response = true
  user : ∀ e ∈ t.log, e.response = false → e.dispatches = 1
  marked : Alternating t.log → t.marked = t.log.head?.any (!·.response)
  response : Alternating t.log ↔ ∀ e ∈ t.log, e.response = true → e.consumed = true ∧ e.dispatches = 0

section Talk

variable {failureText : Json → String} {t t' : AgentTalk}

/-- A user message. -/
theorem Talked.user_enter (h : Talked t) {entry payload : Json}
    (hentry : (entry.get? "ok").isSome = false) :
    Talked (t.enter failureText false entry payload) := by
  have hnot : ((entry.get? "ok").isSome && t.marked) = false := by rw [hentry]; rfl
  obtain ⟨hmarked, hlog, hdispatches, hunanswered⟩ :=
    @enter_dispatched failureText t entry payload false hnot
  have halt : Alternating (⟨false, 1, false⟩ :: t.log) ↔ Alternating t.log := by
    rw [alternating_cons]
    simp
  refine ⟨?_, ?_, ?_, ?_, ?_, ?_⟩
  · rw [hlog, hdispatches, List.map_cons, List.sum_cons]
    show 1 + (t.log.map (·.dispatches)).sum = t.dispatches + 1
    rw [h.count]
    omega
  · rw [hlog, hdispatches, hunanswered, List.countP_cons_of_neg (by simp), List.length_cons,
      ← h.answered]
    omega
  · rw [hlog]
    exact List.forall_mem_cons.mpr ⟨nofun, h.consumed⟩
  · rw [hlog]
    exact List.forall_mem_cons.mpr ⟨fun _ => rfl, h.user⟩
  · intro _
    rw [hmarked, hlog]
    rfl
  · rw [hlog, halt, h.response, List.forall_mem_cons]
    exact ⟨fun hall => ⟨nofun, hall⟩, fun hall => hall.2⟩

/-- A response. -/
theorem Talked.response_enter (h : Talked t) {number : Nat} (hn : number ∈ t.unanswered)
    (r : RuntimeDispatchResponse) (payload : Json) :
    Talked ({ t with unanswered := t.unanswered.erase number }.enter failureText true r.entry
      payload) := by
  have hlen := List.length_erase_of_mem hn
  have hpos := List.length_pos_of_mem hn
  have hanswered := h.answered
  cases hm : t.marked with
  | true =>
      obtain ⟨hmarked, hlog, hdispatches, hunanswered⟩ := @enter_consumed failureText
        { t with unanswered := t.unanswered.erase number } r.entry payload true rfl hm
      -- The log before is alternating exactly with the new entry: the last one was the user's.
      have halt : Alternating (⟨true, 0, true⟩ :: t.log) ↔ Alternating t.log := by
        rw [alternating_cons]
        refine ⟨fun hall => hall.1, fun hall => ⟨hall, ?_⟩⟩
        rintro ⟨-, hhead⟩
        have hlast := h.marked hall
        rw [hm] at hlast
        cases hl : t.log.head? with
        | none =>
            rw [hl] at hlast
            exact nomatch hlast
        | some e =>
            rw [hl] at hlast hhead
            simp only [Option.any_some] at hlast hhead
            rw [hhead] at hlast
            exact nomatch hlast
      refine ⟨?_, ?_, ?_, ?_, ?_, ?_⟩
      · rw [hlog, hdispatches, List.map_cons, List.sum_cons]
        exact (Nat.zero_add _).trans h.count
      · rw [hlog, hdispatches, hunanswered, List.countP_cons_of_pos (by rfl)]
        show t.log.countP (·.response) + 1 + (t.unanswered.erase number).length = t.dispatches
        omega
      · rw [hlog]
        exact List.forall_mem_cons.mpr ⟨fun _ => rfl, h.consumed⟩
      · rw [hlog]
        exact List.forall_mem_cons.mpr ⟨nofun, h.user⟩
      · intro _
        rw [hmarked, hlog]
        rfl
      · rw [hlog, halt, h.response, List.forall_mem_cons]
        exact ⟨fun hall => ⟨fun _ => ⟨rfl, rfl⟩, hall⟩, fun hall => hall.2⟩
  | false =>
      have hnot : ((r.entry.get? "ok").isSome &&
          ({ t with unanswered := t.unanswered.erase number } : AgentTalk).marked) = false := by
        rw [Bool.and_eq_false_iff]
        exact .inr hm
      obtain ⟨hmarked, hlog, hdispatches, hunanswered⟩ := @enter_dispatched failureText
        { t with unanswered := t.unanswered.erase number } r.entry payload true hnot
      -- Nothing is marked although a dispatch is not answered: a response came before.
      have halt : ¬ Alternating (⟨true, 1, false⟩ :: t.log) := by
        rw [alternating_cons]
        rintro ⟨hall, hhead⟩
        have hlast := h.marked hall
        rw [hm] at hlast
        cases hl : t.log with
        | nil =>
            rw [hl] at hanswered
            have hcount := h.count
            rw [hl] at hcount
            simp only [List.countP_nil, List.map_nil, List.sum_nil] at hanswered hcount
            omega
        | cons e log =>
            rw [hl] at hlast hhead
            refine hhead ⟨rfl, ?_⟩
            simpa using hlast.symm
      refine ⟨?_, ?_, ?_, ?_, ?_, ?_⟩
      · rw [hlog, hdispatches, List.map_cons, List.sum_cons]
        show 1 + (t.log.map (·.dispatches)).sum = t.dispatches + 1
        rw [h.count]
        omega
      · rw [hlog, hdispatches, hunanswered, List.countP_cons_of_pos (by rfl), List.length_cons]
        show t.log.countP (·.response) + 1 + ((t.unanswered.erase number).length + 1)
          = t.dispatches + 1
        omega
      · rw [hlog]
        exact List.forall_mem_cons.mpr ⟨nofun, h.consumed⟩
      · rw [hlog]
        exact List.forall_mem_cons.mpr ⟨nofun, h.user⟩
      · intro hall
        rw [hlog] at hall
        exact absurd hall halt
      · rw [hlog]
        refine ⟨fun hall => absurd hall halt, fun hall => ?_⟩
        exact nomatch (List.forall_mem_cons.mp hall).1 rfl

theorem Talked.reach (h : Reach (deliver failureText) Any AgentTalk.start t) : Talked t := by
  have hnone : ∀ e, e ∉ AgentTalk.start.log := fun e => List.not_mem_nil
  refine h.inv ⟨rfl, rfl, fun e he => absurd he (hnone e), fun e he => absurd he (hnone e),
    fun _ => rfl, ?_⟩ ?_
  · refine ⟨fun _ e he => absurd he (hnone e), fun _ l l' e e' hlog => ?_⟩
    exact absurd hlog.symm (by simp [AgentTalk.start])
  · intro t d t' ht _ hd
    cases d with
    | user entry payload =>
        rw [deliver] at hd
        split at hd
        next => exact nomatch hd
        next hentry =>
          cases hd
          exact ht.user_enter (Bool.eq_false_iff.mpr hentry)
    | response number r payload =>
        rw [deliver] at hd
        split at hd
        next hn =>
          cases hd
          exact ht.response_enter hn r payload
        next => exact nomatch hd

/-- Every response is consumed and every user message dispatched once exactly when no two
    responses arrive without a user message between them. -/
theorem responses_consumed_iff (h : Reach (deliver failureText) Any AgentTalk.start t) :
    Answered t ↔ Alternating t.log := by
  have ht := Talked.reach h
  constructor
  · intro ha
    exact ht.response.mpr ha.response
  · intro halt
    refine ⟨ht.response.mp halt, ht.user, ?_⟩
    have hle : t.log.countP (·.consumed) ≤ t.log.countP (·.response) :=
      List.countP_mono_left fun e he hc => ht.consumed e he hc
    have hanswered := ht.answered
    rw [ht.count]
    omega

end Talk

/-- A user message and the answer of the agent. -/
def userText (text : String) : Delivery := .user (.obj [("text", .str text)]) .null

def agentReply (number : Nat) : Delivery :=
  .response number ⟨true, .obj [("reply", .str "well")], .arr [], .null⟩ .null

/-- One turn after another. -/
theorem responses_consumed_iff_turns :
    ∃ t, Reach (deliver fun _ => "") Any AgentTalk.start t ∧
      t.log = [⟨true, 0, true⟩, ⟨false, 1, false⟩, ⟨true, 0, true⟩, ⟨false, 1, false⟩] ∧
      Answered t := by
  obtain ⟨t, hreach, htest⟩ : ∃ t, Reach (deliver fun _ => "") Any AgentTalk.start t ∧
      (t.log == [⟨true, 0, true⟩, ⟨false, 1, false⟩, ⟨true, 0, true⟩, ⟨false, 1, false⟩])
        = true :=
    Reach.of_test [userText "hi", agentReply 0, userText "and", agentReply 1] (by decide +kernel)
  have hlog := eq_of_beq htest
  refine ⟨t, hreach, hlog, (responses_consumed_iff hreach).mpr ?_⟩
  rw [hlog]
  simp only [alternating_cons]
  refine ⟨⟨⟨⟨?_, ?_⟩, ?_⟩, ?_⟩, ?_⟩
  · intro l l' e e' h
    exact absurd h.symm (by simp)
  · decide
  · decide
  · decide
  · decide

/-- The user writes again while the agent is thinking: the response to the second message
    finds no mark and is dispatched as a user turn. -/
theorem secondResponse_dispatched :
    ∃ t, Reach (deliver fun _ => "") Any AgentTalk.start t ∧ ¬ Answered t := by
  obtain ⟨t, hreach, htest⟩ : ∃ t, Reach (deliver fun _ => "") Any AgentTalk.start t ∧
      (t.log == [⟨true, 1, false⟩, ⟨true, 0, true⟩, ⟨false, 1, false⟩, ⟨false, 1, false⟩])
        = true :=
    Reach.of_test [userText "hi", userText "hello?", agentReply 0, agentReply 1]
      (by decide +kernel)
  refine ⟨t, hreach, fun h => ?_⟩
  have hfirst := h.response ⟨true, 1, false⟩ (by rw [eq_of_beq htest]; simp) rfl
  exact nomatch hfirst

end Greentic.Engine
