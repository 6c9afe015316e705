import GreenticRunner.AgentModel
import GreenticRunner.AssocMap
import GreenticRunner.History

/-! # The conversation with remote agents

    What one conversation remembers of the remote agents it talks to: the context an agent named, and the task
    it left open.  The next call to the agent continues there.

    * `dispatch` — one call, with the messages it sent;
    * `lastTask`, `lastContext` — what the messages so far say is open;
    * `continued_iff` — the calls of a conversation continue exactly where the agents named a CONTEXT IN TIME. -/

namespace Greentic.A2a

open AssocMaps
open Greentic.Aw (TenantContext trim)

/-! ## Messages -/

/-- `Part`. -/
structure Part where
  text : Option String
  data : Option Json
  mediaType : Option String

/-- `Part::text`. -/
def Part.ofText (text : String) : Part := ⟨some text, none, none⟩

/-- `Part::data`. -/
def Part.ofData (data : Json) : Part := ⟨none, some data, none⟩

/-- The part is of one of the two media types of a card. -/
def isCardType (media : String) : Bool :=
  let media := (trim media.toList).map Char.toLower
  media == "application/vnd.microsoft.card.adaptive+json".toList ||
    media == "application/vnd.microsoft.card.adaptive".toList

/-- `Part::adaptive_card`. -/
def Part.adaptiveCard (part : Part) : Option Json :=
  part.mediaType.bind fun media => if isCardType media then part.data else none

/-- The `Message` that is sent. -/
structure Message where
  contextId : Option String
  taskId : Option String
  parts : List Part

/-- `TaskState`. -/
inductive TaskState
  | unspecified | submitted | working | completed | failed | canceled | inputRequired | rejected | authRequired
  deriving DecidableEq, Repr

/-- `TaskProgress`. -/
inductive TaskProgress
  | opened | done | ended
  deriving DecidableEq, Repr

/-- `TaskState::progress`. -/
def TaskState.progress : TaskState → TaskProgress
  | .submitted | .working | .inputRequired => .opened
  | .completed => .done
  | .failed | .canceled | .rejected | .authRequired | .unspecified => .ended

/-- `Task`. -/
structure Task where
  id : String
  contextId : Option String
  state : TaskState
  /-- The parts of `status.message`. -/
  status : Option (List Part)
  artifacts : List (List Part)

/-- `SendMessageResult`. -/
inductive SendMessageResult
  | message (contextId : Option String) (parts : List Part)
  | task (task : Task)

/-- `A2aOutcome`. -/
inductive A2aOutcome
  | answered (text : String) (card : Option Json)
  | inputRequired (question : Option String) (card : Option Json)
  | working (state : TaskState) (detail : Option String)
  | ended (state : TaskState) (detail : Option String)

/-- `A2aReply`. -/
structure A2aReply where
  outcome : A2aOutcome
  contextId : Option String
  taskId : Option String

/-- `SendError`. -/
inductive SendError
  | rejected (message : String)
  | failed (message : String)

/-- `into_message`. -/
def SendError.intoMessage : SendError → String
  | .rejected message => message
  | .failed message => message

/-! ## One message -/

/-- `message_parts`. -/
def messageParts (text : String) (answer : Option Json) : List Part :=
  let answer := answer.filter fun
    | .obj fields => !fields.isEmpty
    | _ => false
  (if !(trim text.toList).isEmpty || answer.isNone then [Part.ofText text] else []) ++
    (answer.map Part.ofData).toList

/-- `card_of`. -/
def cardOf (parts : List Part) : Option Json := parts.findSome? Part.adaptiveCard

/-- `reply_text`. -/
def replyText (agentId : String) (parts : List Part) (empty : String) : Except String String :=
  let texts := parts.filterMap Part.text
  if texts.isEmpty then .error ("a2a agent " ++ agentId ++ " " ++ empty) else .ok ("\n".intercalate texts)

/-- `structured_text`. -/
def structuredText (part : Part) : Option String :=
  if part.mediaType = some "application/json" then part.data.map Json.render else none

/-- `artifact_answer`. -/
def artifactAnswer (agentId : String) (parts : List Part) : Except String String :=
  let lines := parts.filterMap Part.text ++ parts.filterMap structuredText
  if lines.isEmpty then .error ("a2a agent " ++ agentId ++ " completed a task with no text artifact")
  else .ok ("\n".intercalate lines)

/-- `task_reply`. -/
def taskReply (agentId : String) (task : Task) : A2aReply where
  outcome :=
    let card := task.status.bind cardOf
    let detail := task.status.bind fun parts => (replyText agentId parts "").toOption
    match task.state.progress with
    | .done =>
        match artifactAnswer agentId task.artifacts.flatten with
        | .ok text => .answered text card
        | .error reason => .ended .completed (some reason)
    | .opened => if task.state = .inputRequired then .inputRequired detail card else .working task.state detail
    | .ended => .ended task.state detail
  contextId := task.contextId
  taskId := if task.state.progress = .opened then some task.id else none

/-- What comes of a message. -/
inductive Attempt
  /-- It is refused before it is posted. -/
  | unsent (reason : String)
  /-- No readable answer. -/
  | unreadable (reason : String)
  /-- An answer with another status than success: the code, and the status as the HTTP library writes it, the
  code with its reason phrase. -/
  | status (code : Nat) (display : String)
  /-- A JSON-RPC error. -/
  | error (message : String)
  | result (result : Option SendMessageResult)

/-- `is_auth_or_rate_limit`. -/
def isAuthOrRateLimit (code : Nat) : Bool := code == 401 || code == 403 || code == 429

/-- The answer to `send_once`. -/
def sendOnce (agentId : String) : Attempt → Except SendError A2aReply
  | .unsent reason => .error (.failed reason)
  | .unreadable reason => .error (.failed reason)
  | .status code display =>
      let message := "a2a agent " ++ agentId ++ " answered HTTP " ++ display
      if 400 ≤ code ∧ code < 500 ∧ !isAuthOrRateLimit code then .error (.rejected message)
      else .error (.failed message)
  | .error message => .error (.rejected ("a2a agent " ++ agentId ++ " returned an error: " ++ message))
  | .result (some (.message contextId parts)) =>
      match replyText agentId parts "replied with no text part" with
      | .error reason => .error (.failed reason)
      | .ok text => .ok ⟨.answered text (cardOf parts), contextId, none⟩
  | .result (some (.task task)) => .ok (taskReply agentId task)
  | .result none => .error (.failed ("a2a agent " ++ agentId ++ " returned neither a result nor an error"))

/-- `A2aContinuation`. -/
structure A2aContinuation where
  contextId : String
  taskId : Option String
  tenant : TenantContext
  lastUsedAt : Nat
  deriving DecidableEq

/-- The message of `send_once`, where it is posted. -/
def posted (parts : List Part) (prior : Option A2aContinuation) (attempt : Attempt) : List (Message × Attempt) :=
  match attempt with
  | .unsent _ => []
  | _ => [(⟨prior.map (·.contextId), prior.bind (·.taskId), parts⟩, attempt)]

/-- `send`: the messages with what came of them, and the result. -/
def send (agentId : String) (parts : List Part) (prior : Option A2aContinuation) (first second : Attempt) :
    List (Message × Attempt) × Except String A2aReply :=
  match sendOnce agentId first, prior with
  | .error (.rejected reason), some held =>
      if held.taskId.isSome then
        (posted parts prior first ++ posted parts (some { held with taskId := none }) second,
          (sendOnce agentId second).mapError SendError.intoMessage)
      else (posted parts prior first, .error reason)
  | result, _ => (posted parts prior first, result.mapError SendError.intoMessage)

/-! ## What is remembered -/

/-- `CONTINUATION_IDLE_TTL_SECS`, in nanoseconds. -/
def continuationIdleTtl : Nat := 60 * 60 * 1000000000

/-- `MAX_REMEMBERED_AGENTS`. -/
def maxRememberedAgents : Nat := 16

/-- `A2aContinuations`. -/
abbrev Continuations := AssocMap String A2aContinuation

namespace Continuations

/-- `belongs_to` and `is_fresh`. -/
def live (tenant : TenantContext) (now : Nat) (entry : A2aContinuation) : Bool :=
  decide (entry.tenant = tenant) && decide (now < entry.lastUsedAt + continuationIdleTtl)

/-- `resume`: a stale or foreign entry is removed. -/
def resume (m : Continuations) (tenant : TenantContext) (agentId : String) (now : Nat) :
    Option A2aContinuation × Continuations :=
  match m.get? agentId with
  | none => (none, m)
  | some entry => if live tenant now entry then (some entry, m) else (none, m.erase agentId)

/-- The least recently used entry of another agent, the first by name among equals. -/
def oldest (m : Continuations) (keep : String) : Option String :=
  ((((m.erase keep).entries.mergeSort fun a b => decide (a.1 ≤ b.1)).argmin fun e => e.2.lastUsedAt)).map (·.1)

/-- `evict_to_cap`, in so many rounds. -/
def evictRounds (keep : String) : Nat → Continuations → Continuations
  | 0, m => m
  | n + 1, m =>
      if maxRememberedAgents < m.size then
        match oldest m keep with
        | some agent => evictRounds keep n (m.erase agent)
        | none => m
      else m

/-- `evict_to_cap`: each round removes an entry. -/
def evictToCap (m : Continuations) (keep : String) : Continuations := evictRounds keep m.size m

/-- `remember`. -/
def remember (m : Continuations) (tenant : TenantContext) (agentId contextId : String) (taskId : Option String)
    (now : Nat) : Continuations :=
  evictToCap (m.insert agentId ⟨contextId, taskId, tenant, now⟩) agentId

end Continuations

/-- `dispatch_in_conversation` to a configured agent, given what comes of its messages. -/
def dispatch (tenant : TenantContext) (m : Continuations) (agentId : String) (parts : List Part) (now : Nat)
    (first second : Attempt) : Continuations × List (Message × Attempt) × Except String A2aOutcome :=
  let (prior, m) := Continuations.resume m tenant agentId now
  match send agentId parts prior first second with
  | (posts, .ok reply) =>
      match reply.contextId <|> prior.map (·.contextId) with
      | some contextId => (Continuations.remember m tenant agentId contextId reply.taskId now, posts, .ok reply.outcome)
      | none => (m.erase agentId, posts, .ok reply.outcome)
  | (posts, .error reason) => (m, posts, .error reason)

/-! ## A conversation -/

/-- A call of one conversation, with what comes of its messages. -/
structure Call where
  agentId : String
  parts : List Part
  now : Nat
  first : Attempt
  second : Attempt

/-- What passed between the conversation and an agent in one call. -/
structure Exchange where
  agentId : String
  now : Nat
  posts : List (Message × Attempt)

structure Conversation where
  memory : Continuations
  log : List Exchange

/-- One call more. -/
def talk (tenant : TenantContext) (s : Conversation) (c : Call) : Conversation where
  memory := (dispatch tenant s.memory c.agentId c.parts c.now c.first c.second).1
  log := s.log ++ [⟨c.agentId, c.now, (dispatch tenant s.memory c.agentId c.parts c.now c.first c.second).2.1⟩]

def converse (tenant : TenantContext) (calls : List Call) : Conversation := calls.foldl (talk tenant) ⟨.empty, []⟩

/-! ## What the messages say -/

/-- A reply that can be used: a task, or a message with a text. -/
def Attempt.reply? : Attempt → Option SendMessageResult
  | .result (some (.task task)) => some (.task task)
  | .result (some (.message contextId parts)) =>
      if (parts.filterMap Part.text).isEmpty then none else some (.message contextId parts)
  | _ => none

/-- The agent refused the request. -/
def Attempt.rejects : Attempt → Bool
  | .error _ => true
  | .status code _ => 400 ≤ code && code < 500 && !isAuthOrRateLimit code
  | _ => false

/-- The open task of a reply. -/
def SendMessageResult.openTask : SendMessageResult → Option String
  | .task t => if t.state.progress = .opened then some t.id else none
  | .message _ _ => none

/-- The context a reply names. -/
def SendMessageResult.context : SendMessageResult → Option String
  | .task t => t.contextId
  | .message contextId _ => contextId

/-- The reply that answers a call, to the last of its messages. -/
def answerOf (posts : List (Message × Attempt)) : Option SendMessageResult := posts.getLast?.bind (·.2.reply?)

def Exchange.reply? (e : Exchange) : Option SendMessageResult := answerOf e.posts

/-- The last reply of an agent, with its time. -/
def lastReply (agentId : String) (log : List Exchange) : Option (Nat × SendMessageResult) :=
  (log.filterMap fun e => if e.agentId = agentId then e.reply?.map (e.now, ·) else none).getLast?

/-- The task that the last reply of an agent left open. -/
def lastTask (agentId : String) (log : List Exchange) : Option String :=
  (lastReply agentId log).bind (·.2.openTask)

/-- The last context that an agent named. -/
def lastContext (agentId : String) (log : List Exchange) : Option String :=
  (log.filterMap fun e => if e.agentId = agentId then e.reply?.bind (·.context) else none).getLast?

/-- The messages of a call continue what the messages before it say: the first one names the open task and the
    context, and a second one leaves out the task, which the agent refused. -/
structure Right (before : List Exchange) (e : Exchange) : Prop where
  first : ∀ p ∈ e.posts.head?, p.1.taskId = lastTask e.agentId before ∧ p.1.contextId = lastContext e.agentId before
  second : ∀ p ∈ e.posts.tail, ∃ q, e.posts.head? = some q ∧ q.2.rejects = true ∧ q.1.taskId.isSome ∧
    p.1.contextId = q.1.contextId ∧ p.1.taskId = none
  two : e.posts.length ≤ 2

/-- An agent that a message goes to has named a context and replied in time, or it left no task open. -/
def InTime (before : List Exchange) (e : Exchange) : Prop :=
  e.posts ≠ [] →
    (lastContext e.agentId before = none → lastTask e.agentId before = none) ∧
    ((lastContext e.agentId before).isSome →
      ∀ r ∈ lastReply e.agentId before, e.now < r.1 + continuationIdleTtl)

/-! ## One call -/

variable {tenant : TenantContext} {agentId : String} {parts : List Part} {prior : Option A2aContinuation}
  {first second attempt : Attempt} {log : List Exchange} {e : Exchange}

theorem getLast?_filterMap_snoc {α β : Type} (f : α → Option β) (as : List α) (a : α) :
    ((as ++ [a]).filterMap f).getLast? = (f a <|> (as.filterMap f).getLast?) := by
  rw [List.filterMap_append]
  cases h : f a with
  | none => simp [h]
  | some b => simp [h]

theorem lastReply_snoc : lastReply agentId (log ++ [e]) =
    if e.agentId = agentId then (e.reply?.map (e.now, ·) <|> lastReply agentId log) else lastReply agentId log := by
  rw [lastReply, getLast?_filterMap_snoc]
  split <;> rfl

theorem lastContext_snoc : lastContext agentId (log ++ [e]) =
    if e.agentId = agentId then (e.reply?.bind (·.context) <|> lastContext agentId log)
    else lastContext agentId log := by
  rw [lastContext, getLast?_filterMap_snoc]
  split <;> rfl

/-- What an attempt comes to. -/
theorem sendOnce_cases (agentId : String) (a : Attempt) :
    (∃ reply r, sendOnce agentId a = .ok reply ∧ a.reply? = some r ∧ reply.contextId = r.context ∧
      reply.taskId = r.openTask ∧ a.rejects = false) ∨
    (∃ reason, sendOnce agentId a = .error (.rejected reason) ∧ a.reply? = none ∧ a.rejects = true) ∨
    ∃ reason, sendOnce agentId a = .error (.failed reason) ∧ a.reply? = none ∧ a.rejects = false := by
  cases a with
  | unsent reason => exact .inr (.inr ⟨reason, rfl, rfl, rfl⟩)
  | unreadable reason => exact .inr (.inr ⟨reason, rfl, rfl, rfl⟩)
  | error message => exact .inr (.inl ⟨_, rfl, rfl, rfl⟩)
  | status code display =>
      by_cases h : 400 ≤ code ∧ code < 500 ∧ !isAuthOrRateLimit code
      · refine .inr (.inl ⟨_, if_pos h, rfl, ?_⟩)
        simp [Attempt.rejects, h.1, h.2.1, (Bool.not_eq_true' _).mp h.2.2]
      · refine .inr (.inr ⟨_, if_neg h, rfl, ?_⟩)
        simpa [Attempt.rejects] using h
  | result result =>
      cases result with
      | none => exact .inr (.inr ⟨_, rfl, rfl, rfl⟩)
      | some r =>
          cases r with
          | task task => exact .inl ⟨_, _, rfl, rfl, rfl, rfl, rfl⟩
          | message contextId parts =>
              cases hempty : (parts.filterMap Part.text).isEmpty with
              | true =>
                  refine .inr (.inr ⟨"a2a agent " ++ agentId ++ " " ++ "replied with no text part", ?_, ?_, rfl⟩)
                  · simp only [sendOnce, replyText, hempty, if_true]
                  · simp [Attempt.reply?, hempty]
              | false =>
                  refine .inl ⟨⟨.answered ("\n".intercalate (parts.filterMap Part.text)) (cardOf parts), contextId,
                    none⟩, .message contextId parts, ?_, ?_, rfl, rfl, rfl⟩
                  · simp only [sendOnce, replyText, hempty, Bool.false_eq_true, if_false]
                  · simp [Attempt.reply?, hempty]

theorem posted_cases (parts : List Part) (prior : Option A2aContinuation) (a : Attempt) :
    (posted parts prior a = [] ∧ a.reply? = none ∧ a.rejects = false) ∨
      posted parts prior a = [(⟨prior.map (·.contextId), prior.bind (·.taskId), parts⟩, a)] := by
  cases a with
  | unsent reason => exact .inl ⟨rfl, rfl, rfl⟩
  | unreadable reason => exact .inr rfl
  | status code display => exact .inr rfl
  | error message => exact .inr rfl
  | result result => exact .inr rfl

/-- A call sends one message, or a second one without the task if the first was rejected. -/
theorem send_posts (agentId : String) (parts : List Part) (prior : Option A2aContinuation) (first second : Attempt) :
    (send agentId parts prior first second).1 = posted parts prior first ∨
    ∃ held, prior = some held ∧ held.taskId.isSome ∧ first.rejects = true ∧
      (send agentId parts prior first second).1 =
        posted parts prior first ++ posted parts (some { held with taskId := none }) second := by
  unfold send
  split
  next reason held hfirst =>
    split
    next htask =>
      refine .inr ⟨held, rfl, htask, ?_, rfl⟩
      rcases sendOnce_cases agentId first with ⟨_, _, h, -⟩ | ⟨_, -, -, h⟩ | ⟨_, h, -⟩
      · rw [h] at hfirst
        exact nomatch hfirst
      · exact h
      · rw [h] at hfirst
        exact nomatch hfirst
    next => exact .inl rfl
  next => exact .inl rfl

/-- The result of a call is the reply to its last message, if there is one. -/
theorem send_result (agentId : String) (parts : List Part) (prior : Option A2aContinuation)
    (first second : Attempt) :
    (∃ reply r, (send agentId parts prior first second).2 = .ok reply ∧
      answerOf (send agentId parts prior first second).1 = some r ∧ reply.contextId = r.context ∧
      reply.taskId = r.openTask) ∨
    ∃ reason, (send agentId parts prior first second).2 = .error reason ∧
      answerOf (send agentId parts prior first second).1 = none := by
  have honce : ∀ (prior : Option A2aContinuation) (a : Attempt) (before : List (Message × Attempt)),
      (∀ p ∈ before.getLast?, p.2.reply? = none) →
      (∃ reply r, (sendOnce agentId a).mapError SendError.intoMessage = .ok reply ∧
        answerOf (before ++ posted parts prior a) = some r ∧ reply.contextId = r.context ∧
        reply.taskId = r.openTask) ∨
      ∃ reason, (sendOnce agentId a).mapError SendError.intoMessage = .error reason ∧
        answerOf (before ++ posted parts prior a) = none := by
    intro prior a before hbefore
    have hanswer : answerOf (before ++ posted parts prior a) = a.reply? := by
      rcases posted_cases parts prior a with ⟨h, hreply, -⟩ | h
      · rw [h, List.append_nil, hreply, answerOf]
        cases hlast : before.getLast? with
        | none => rfl
        | some p => exact hbefore p hlast
      · rw [h, answerOf, List.getLast?_append_of_ne_nil _ (by simp)]
        rfl
    rw [hanswer]
    rcases sendOnce_cases agentId a with ⟨reply, r, h, hr, hc, ht, -⟩ | ⟨reason, h, hr, -⟩ | ⟨reason, h, hr, -⟩
    · exact .inl ⟨reply, r, by rw [h]; rfl, hr, hc, ht⟩
    · exact .inr ⟨reason, by rw [h]; rfl, hr⟩
    · exact .inr ⟨reason, by rw [h]; rfl, hr⟩
  have hsingle := honce prior first [] (by simp)
  rw [List.nil_append] at hsingle
  unfold send
  split
  next reason held hfirst =>
    have hreply : first.reply? = none := by
      rcases sendOnce_cases agentId first with ⟨_, _, h, -⟩ | ⟨_, -, h, -⟩ | ⟨_, -, h, -⟩
      · rw [h] at hfirst
        exact nomatch hfirst
      · exact h
      · exact h
    split
    next =>
      refine honce (some { held with taskId := none }) second _ fun p hp => ?_
      rcases posted_cases parts (some held) first with ⟨h, -, -⟩ | h
      · rw [h] at hp
        exact nomatch hp
      · rw [h] at hp
        rw [← Option.some.inj hp]
        exact hreply
    next =>
      rw [hfirst] at hsingle
      exact hsingle
  next => exact hsingle

/-! ## What is remembered of the agents -/

/-- Nothing is evicted while the agents fit. -/
theorem evictToCap_eq {m : Continuations} (h : m.size ≤ maxRememberedAgents) (keep : String) :
    Continuations.evictToCap m keep = m := by
  rw [Continuations.evictToCap]
  cases m.size with
  | zero => rfl
  | succ n => rw [Continuations.evictRounds, if_neg (Nat.not_lt.mpr h)]

/-- Only these agents are remembered. -/
def Knows (configured : List String) (m : Continuations) : Prop := ∀ e ∈ m.entries, e.1 ∈ configured

variable {configured : List String} {m : Continuations} {now : Nat}

theorem Knows.size_le (h : Knows configured m) : m.size ≤ configured.length := by
  have hsub : m.entries.map (·.1) ⊆ configured := by
    intro k hk
    obtain ⟨e, he, rfl⟩ := List.mem_map.mp hk
    exact h e he
  have hle := (List.Nodup.subperm m.nodup hsub).length_le
  rwa [List.length_map] at hle

theorem Knows.erase (h : Knows configured m) (k : String) : Knows configured (m.erase k) :=
  fun e he => h e (AssocMap.mem_erase he)

theorem Knows.insert (h : Knows configured m) {k : String} (hk : k ∈ configured) (v : A2aContinuation) :
    Knows configured (m.insert k v) := by
  intro e he
  rcases AssocMap.mem_insert he with rfl | he
  · exact hk
  · exact h e he

/-- The memory of a conversation says what its messages say: of an agent that named no context, nothing; of
    another one its context and its open task, unless they are too old. -/
structure Tracks (tenant : TenantContext) (configured : List String) (now : Nat) (log : List Exchange)
    (m : Continuations) : Prop where
  knows : Knows configured m
  unnamed : ∀ agentId, lastContext agentId log = none → m.get? agentId = none
  named : ∀ agentId c, lastContext agentId log = some c → ∃ t r, lastReply agentId log = some (t, r) ∧
    (m.get? agentId = some ⟨c, lastTask agentId log, tenant, t⟩ ∨
      (m.get? agentId = none ∧ t + continuationIdleTtl ≤ now))

theorem Tracks.later (h : Tracks tenant configured now log m) {later : Nat} (hle : now ≤ later) :
    Tracks tenant configured later log m := by
  refine ⟨h.knows, h.unnamed, fun agentId c hc => ?_⟩
  obtain ⟨t, r, hr, hget⟩ := h.named agentId c hc
  exact ⟨t, r, hr, hget.imp_right fun hold => ⟨hold.1, Nat.le_trans hold.2 hle⟩⟩

/-- What `resume` gives: the open conversation; or nothing, if no context was named or it is too old. -/
theorem Tracks.resume (h : Tracks tenant configured now log m) {later : Nat} (hle : now ≤ later) (agentId : String) :
    (∃ c t r, lastContext agentId log = some c ∧ lastReply agentId log = some (t, r) ∧
      later < t + continuationIdleTtl ∧
      Continuations.resume m tenant agentId later = (some ⟨c, lastTask agentId log, tenant, t⟩, m)) ∨
    ((Continuations.resume m tenant agentId later).1 = none ∧
      Tracks tenant configured later log (Continuations.resume m tenant agentId later).2 ∧
      (Continuations.resume m tenant agentId later).2.get? agentId = none ∧
      (lastContext agentId log = none ∨ ∃ c t r, lastContext agentId log = some c ∧
        lastReply agentId log = some (t, r) ∧ t + continuationIdleTtl ≤ later)) := by
  have hlater := h.later hle
  cases hcontext : lastContext agentId log with
  | none =>
      have hget := h.unnamed agentId hcontext
      right
      rw [Continuations.resume, hget]
      exact ⟨rfl, hlater, hget, .inl rfl⟩
  | some c =>
      obtain ⟨t, r, hr, hget | ⟨hget, hold⟩⟩ := h.named agentId c hcontext
      · by_cases hfresh : later < t + continuationIdleTtl
        · left
          refine ⟨c, t, r, rfl, hr, hfresh, ?_⟩
          rw [Continuations.resume, hget]
          simp [Continuations.live, hfresh]
        · right
          have hstale : Continuations.resume m tenant agentId later = (none, m.erase agentId) := by
            rw [Continuations.resume, hget]
            simp [Continuations.live, hfresh]
          rw [hstale]
          refine ⟨rfl, ⟨h.knows.erase _, fun other ho => ?_, fun other c' hc' => ?_⟩, by simp, .inr ⟨c, t, r, rfl, hr, ?_⟩⟩
          · by_cases hother : other = agentId
            · rw [hother]
              simp
            · rw [AssocMap.get?_erase_of_ne hother]
              exact h.unnamed other ho
          · by_cases hother : other = agentId
            · subst hother
              exact ⟨t, r, hr, .inr ⟨by simp, Nat.le_of_not_lt hfresh⟩⟩
            · rw [AssocMap.get?_erase_of_ne hother]
              exact hlater.named other c' hc'
          · exact Nat.le_of_not_lt hfresh
      · right
        rw [Continuations.resume, hget]
        exact ⟨rfl, hlater, hget, .inr ⟨c, t, r, rfl, hr, Nat.le_trans hold hle⟩⟩

/-- A call without a usable reply leaves what the messages say. -/
theorem Tracks.unanswered (h : Tracks tenant configured now log m) (he : e.reply? = none) :
    Tracks tenant configured now (log ++ [e]) m := by
  have hreply : ∀ a, lastReply a (log ++ [e]) = lastReply a log := by
    intro a
    rw [lastReply_snoc, he]
    split <;> rfl
  have hcontext : ∀ a, lastContext a (log ++ [e]) = lastContext a log := by
    intro a
    rw [lastContext_snoc, he]
    split <;> rfl
  refine ⟨h.knows, fun a ha => h.unnamed a (hcontext a ▸ ha), fun a c hc => ?_⟩
  rw [hreply, lastTask, hreply]
  exact h.named a c (hcontext a ▸ hc)

/-- A reply renews what is remembered of its agent. -/
theorem Tracks.answered (h : Tracks tenant configured now log m) {r : SendMessageResult} (he : e.reply? = some r)
    {m' : Continuations} (hknows : Knows configured m')
    (hself : m'.get? e.agentId = ((r.context <|> lastContext e.agentId log).map fun c => ⟨c, r.openTask, tenant, e.now⟩))
    (hother : ∀ a ≠ e.agentId, m'.get? a = m.get? a) : Tracks tenant configured now (log ++ [e]) m' := by
  refine ⟨hknows, fun a ha => ?_, fun a c hc => ?_⟩
  · rw [lastContext_snoc, he] at ha
    by_cases hae : a = e.agentId
    · subst hae
      rw [if_pos rfl, Option.bind_some] at ha
      rw [hself, ha]
      rfl
    · rw [if_neg (Ne.symm hae)] at ha
      rw [hother a hae]
      exact h.unnamed a ha
  · rw [lastContext_snoc, he] at hc
    rw [lastTask, lastReply_snoc, he]
    by_cases hae : a = e.agentId
    · subst hae
      rw [if_pos rfl, Option.bind_some] at hc
      rw [if_pos rfl]
      refine ⟨e.now, r, rfl, .inl ?_⟩
      rw [hself, hc]
      rfl
    · rw [if_neg (Ne.symm hae)] at hc ⊢
      rw [hother a hae]
      exact h.named a c hc

/-! ## A call of a conversation -/

/-- The exchange of a call. -/
def exchangeOf (tenant : TenantContext) (m : Continuations) (c : Call) : Exchange :=
  ⟨c.agentId, c.now, (dispatch tenant m c.agentId c.parts c.now c.first c.second).2.1⟩

theorem dispatch_posts (tenant : TenantContext) (m : Continuations) (c : Call) :
    (exchangeOf tenant m c).posts =
      (send c.agentId c.parts (Continuations.resume m tenant c.agentId c.now).1 c.first c.second).1 := by
  unfold exchangeOf dispatch
  generalize Continuations.resume m tenant c.agentId c.now = resumed
  obtain ⟨prior, m'⟩ := resumed
  simp only
  generalize send c.agentId c.parts prior c.first c.second = sent
  obtain ⟨posts, result⟩ := sent
  cases result with
  | error reason => rfl
  | ok reply =>
      simp only
      split <;> rfl

/-- The second message of a call is always right. -/
theorem send_second (agentId : String) (parts : List Part) (prior : Option A2aContinuation)
    (first second : Attempt) :
    (∀ p ∈ (send agentId parts prior first second).1.head?,
      p.1.taskId = prior.bind (·.taskId) ∧ p.1.contextId = prior.map (·.contextId)) ∧
    (∀ p ∈ (send agentId parts prior first second).1.tail, ∃ q,
      (send agentId parts prior first second).1.head? = some q ∧ q.2.rejects = true ∧ q.1.taskId.isSome ∧
        p.1.contextId = q.1.contextId ∧ p.1.taskId = none) ∧
    (send agentId parts prior first second).1.length ≤ 2 := by
  rcases send_posts agentId parts prior first second with h | ⟨held, rfl, htask, hrejects, h⟩
  · rw [h]
    rcases posted_cases parts prior first with ⟨hfirst, -⟩ | hfirst
    · rw [hfirst]
      simp
    · rw [hfirst]
      simp
  · rw [h]
    rcases posted_cases parts (some held) first with ⟨-, -, hno⟩ | hfirst
    · rw [hno] at hrejects
      exact nomatch hrejects
    · rw [hfirst]
      rcases posted_cases parts (some { held with taskId := none }) second with ⟨hsecond, -⟩ | hsecond
      · rw [hsecond]
        simp
      · rw [hsecond]
        simp [htask, hrejects]

/-- **A CALL CONTINUES** what the messages say exactly if its agent named a context in time. -/
theorem Tracks.right_iff (h : Tracks tenant configured now log m) {c : Call} (hle : now ≤ c.now) :
    Right log (exchangeOf tenant m c) ↔ InTime log (exchangeOf tenant m c) := by
  obtain ⟨hfirst, hsecond, htwo⟩ := send_second c.agentId c.parts
    (Continuations.resume m tenant c.agentId c.now).1 c.first c.second
  rw [← dispatch_posts] at hfirst hsecond htwo
  rcases h.resume hle c.agentId with ⟨context, t, r, hcontext, hreply, hfresh, hresume⟩ | ⟨hresume, -, -, hwhy⟩
  · rw [hresume] at hfirst
    constructor
    · rintro - -
      refine ⟨fun hnone => ?_, fun _ r' hr' => ?_⟩
      · rw [show lastContext (exchangeOf tenant m c).agentId log = some context from hcontext] at hnone
        exact nomatch hnone
      · rw [show lastReply (exchangeOf tenant m c).agentId log = some (t, r) from hreply] at hr'
        rw [← Option.some.inj hr']
        exact hfresh
    · intro _
      refine ⟨fun p hp => ?_, hsecond, htwo⟩
      obtain ⟨htask, hctx⟩ := hfirst p hp
      exact ⟨htask, hctx.trans hcontext.symm⟩
  · rw [hresume] at hfirst
    rcases hwhy with hnone | ⟨context, t, r, hcontext, hreply, hold⟩
    · constructor
      · intro hright hposts
        obtain ⟨p, ps, hp⟩ := List.exists_cons_of_ne_nil hposts
        have hhead : p ∈ (exchangeOf tenant m c).posts.head? := by rw [hp]; rfl
        refine ⟨fun _ => ?_, fun hsome => ?_⟩
        · rw [← (hright.first p hhead).1]
          exact (hfirst p hhead).1
        · rw [show lastContext (exchangeOf tenant m c).agentId log = none from hnone] at hsome
          exact nomatch hsome
      · intro htime
        refine ⟨fun p hp => ?_, hsecond, htwo⟩
        have hposts : (exchangeOf tenant m c).posts ≠ [] := by
          rintro hnil
          rw [hnil] at hp
          exact nomatch hp
        obtain ⟨htask, hctx⟩ := hfirst p hp
        exact ⟨htask.trans ((htime hposts).1 hnone).symm, hctx.trans hnone.symm⟩
    · -- Too old: the message names no context, though the agent did.
      constructor
      · intro hright hposts
        obtain ⟨p, ps, hp⟩ := List.exists_cons_of_ne_nil hposts
        have hhead : p ∈ (exchangeOf tenant m c).posts.head? := by rw [hp]; rfl
        have hctx := (hright.first p hhead).2
        rw [(hfirst p hhead).2, show lastContext (exchangeOf tenant m c).agentId log = some context from hcontext] at hctx
        exact nomatch hctx
      · intro htime
        refine ⟨fun p hp => ?_, hsecond, htwo⟩
        have hposts : (exchangeOf tenant m c).posts ≠ [] := by
          rintro hnil
          rw [hnil] at hp
          exact nomatch hp
        have hlt := (htime hposts).2 (by rw [show lastContext (exchangeOf tenant m c).agentId log = some context from hcontext]; rfl)
          (t, r) hreply
        exact absurd hlt (Nat.not_lt.mpr hold)

/-- A call in time keeps the memory in step with the messages. -/
theorem Tracks.talk (h : Tracks tenant configured now log m) (hcap : configured.length ≤ maxRememberedAgents)
    {c : Call} (hagent : c.agentId ∈ configured) (hle : now ≤ c.now) (htime : InTime log (exchangeOf tenant m c)) :
    Tracks tenant configured c.now (log ++ [exchangeOf tenant m c])
      (dispatch tenant m c.agentId c.parts c.now c.first c.second).1 := by
  have hposts := dispatch_posts tenant m c
  -- What is remembered when the messages are sent, and the context then.
  obtain ⟨prior, m₁, hresume, htracks, hprior⟩ : ∃ prior m₁, Continuations.resume m tenant c.agentId c.now = (prior, m₁) ∧
      Tracks tenant configured c.now log m₁ ∧ ((exchangeOf tenant m c).posts ≠ [] →
        prior.map (·.contextId) = lastContext c.agentId log) := by
    rcases h.resume hle c.agentId with ⟨context, t, r, hcontext, hreply, hfresh, hresume⟩ | ⟨hnone, htracks, -, hwhy⟩
    · exact ⟨_, _, hresume, h.later hle, fun _ => hcontext.symm⟩
    · refine ⟨_, _, Prod.ext hnone rfl, htracks, fun hne => ?_⟩
      rcases hwhy with hcontext | ⟨context, t, r, hcontext, hreply, hold⟩
      · exact hcontext.symm
      · have hlt := (htime hne).2 (by rw [show lastContext (exchangeOf tenant m c).agentId log = some context from hcontext]; rfl)
          (t, r) hreply
        exact absurd hlt (Nat.not_lt.mpr hold)
  rw [hresume] at hposts
  have hanswer : (exchangeOf tenant m c).reply? = answerOf (send c.agentId c.parts prior c.first c.second).1 := by
    rw [Exchange.reply?, hposts]
  rcases send_result c.agentId c.parts prior c.first c.second with
    ⟨reply, r, hresult, hr, hctx, htask⟩ | ⟨reason, hresult, hr⟩
  · have hsome := hanswer.trans hr
    have hne : (exchangeOf tenant m c).posts ≠ [] := by
      rintro hnil
      rw [Exchange.reply?, hnil] at hsome
      exact nomatch hsome
    have hmemory : (dispatch tenant m c.agentId c.parts c.now c.first c.second).1 =
        match (r.context <|> lastContext c.agentId log) with
        | some context => Continuations.remember m₁ tenant c.agentId context r.openTask c.now
        | none => m₁.erase c.agentId := by
      rw [← hprior hne, ← hctx, ← htask, dispatch, hresume]
      simp only
      generalize hsent : send c.agentId c.parts prior c.first c.second = sent at hresult
      obtain ⟨posts, result⟩ := sent
      rw [show result = .ok reply from hresult]
      simp only
      split <;> rfl
    rw [hmemory]
    cases hcontext : (r.context <|> lastContext c.agentId log) with
    | none =>
        refine htracks.answered hsome (htracks.knows.erase _) ?_ fun a ha => AssocMap.get?_erase_of_ne ha _
        rw [show (r.context <|> lastContext (exchangeOf tenant m c).agentId log) = none from hcontext]
        exact AssocMap.get?_erase_self _ _
    | some context =>
        have hknows := htracks.knows.insert hagent ⟨context, r.openTask, tenant, c.now⟩
        have hkeep : Continuations.remember m₁ tenant c.agentId context r.openTask c.now =
            m₁.insert c.agentId ⟨context, r.openTask, tenant, c.now⟩ :=
          evictToCap_eq (Nat.le_trans hknows.size_le hcap) _
        simp only
        rw [hkeep]
        refine htracks.answered hsome hknows ?_ fun a ha => AssocMap.get?_insert_of_ne ha _ _
        rw [show (r.context <|> lastContext (exchangeOf tenant m c).agentId log) = some context from hcontext]
        exact AssocMap.get?_insert_self _ _ _
  · have hmemory : (dispatch tenant m c.agentId c.parts c.now c.first c.second).1 = m₁ := by
      rw [dispatch, hresume]
      simp only
      generalize hsent : send c.agentId c.parts prior c.first c.second = sent at hresult
      obtain ⟨posts, result⟩ := sent
      rw [show result = .error reason from hresult]
    rw [hmemory]
    exact htracks.unanswered (hanswer.trans hr)

/-! ## The whole conversation -/

theorem converse_snoc (tenant : TenantContext) (calls : List Call) (c : Call) :
    converse tenant (calls ++ [c]) = talk tenant (converse tenant calls) c := by
  rw [converse, List.foldl_append]
  rfl

theorem Tracks.start : Tracks tenant configured now [] .empty where
  knows := by simp [Knows, AssocMap.empty]
  unnamed := fun _ _ => rfl
  named := by simp [lastContext]

/-- **AN OPEN TASK IS CONTINUED** exactly if every agent that a message goes to again has named a context in
    time, or left no task open. -/
theorem continued_iff (tenant : TenantContext) (configured : List String)
    (hcap : configured.length ≤ maxRememberedAgents) (calls : List Call)
    (hagents : ∀ c ∈ calls, c.agentId ∈ configured) (htimes : calls.Pairwise fun a b => a.now ≤ b.now) :
    History.Each Right (converse tenant calls).log ↔ History.Each InTime (converse tenant calls).log := by
  -- As long as all calls were in time, the memory is in step with the messages.
  suffices hboth : (History.Each Right (converse tenant calls).log ↔ History.Each InTime (converse tenant calls).log) ∧
      (History.Each InTime (converse tenant calls).log → ∀ now, (∀ c ∈ calls, c.now ≤ now) →
        Tracks tenant configured now (converse tenant calls).log (converse tenant calls).memory) from hboth.1
  induction calls using List.reverseRecOn with
  | nil =>
      exact ⟨⟨fun _ => History.each_nil, fun _ => History.each_nil⟩, fun _ now _ => .start⟩
  | append_singleton calls c ih =>
      obtain ⟨hbefore, -, hordered⟩ := List.pairwise_append.mp htimes
      obtain ⟨hiff, htracks⟩ := ih (fun a ha => hagents a (List.mem_append_left _ ha)) hbefore
      have hlog : (converse tenant (calls ++ [c])).log =
          (converse tenant calls).log ++ [exchangeOf tenant (converse tenant calls).memory c] := by
        rw [converse_snoc]
        rfl
      have hlate : ∀ a ∈ calls, a.now ≤ c.now := fun a ha => hordered a ha c (by simp)
      rw [hlog, History.each_snoc, History.each_snoc]
      refine ⟨?_, ?_⟩
      · constructor
        · rintro ⟨hrights, hright⟩
          have hin := hiff.mp hrights
          exact ⟨hin, ((htracks hin c.now hlate).right_iff (Nat.le_refl _)).mp hright⟩
        · rintro ⟨hin, htime⟩
          exact ⟨hiff.mpr hin, ((htracks hin c.now hlate).right_iff (Nat.le_refl _)).mpr htime⟩
      · rintro ⟨hin, htime⟩ now hnow
        have hstep := (htracks hin c.now hlate).talk hcap (hagents c (by simp)) (Nat.le_refl _) htime
        rw [converse_snoc]
        exact hstep.later (hnow c (by simp))

/-- A question that names its context is answered in its task. -/
theorem continued_question : ∃ calls : List Call,
    ((converse ⟨"acme", "prod"⟩ calls).log.map fun e => e.posts.map (·.1.taskId)) = [[none], [some "t-1"]] ∧
    History.Each Right (converse ⟨"acme", "prod"⟩ calls).log := by
  refine ⟨[⟨"recipe", [], 0, .result (some (.task ⟨"t-1", some "c-1", .inputRequired, none, []⟩)), .unsent ""⟩,
    ⟨"recipe", [], 60, .result none, .unsent ""⟩], rfl, ?_⟩
  refine (continued_iff ⟨"acme", "prod"⟩ ["recipe"] (by decide) _ (by simp) (by simp)).mpr ?_
  refine (History.each_pair _ _).mpr ⟨?_, ?_⟩
  · exact fun _ => ⟨fun _ => rfl, fun h => (nomatch h)⟩
  · refine fun _ => ⟨fun h => (nomatch h), fun _ r hr => ?_⟩
    cases Option.some.inj hr
    decide

/-- A question that names no context is not: the next message opens a new task. -/
theorem unnamed_task_lost : ¬ History.Each Right (converse ⟨"acme", "prod"⟩
    [⟨"recipe", [], 0, .result (some (.task ⟨"t-1", none, .inputRequired, none, []⟩)), .unsent ""⟩,
      ⟨"recipe", [], 60, .result none, .unsent ""⟩]).log := by
  intro h
  have hright := (History.each_pair _ _).mp h
  have htask := (hright.2.first _ rfl).1
  exact nomatch htask

end Greentic.A2a
