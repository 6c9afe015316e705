import GreenticRunner.ApprovalGate

/-! # The HTTP approval rail

    `runner/approval_http`: an approval is filed with the admin over HTTP and kept in memory
    with its decision token; one poller per runtime fetches the decisions, enforces the
    deadlines and spawns one resume for each approval.

    * `Rail`, `step` — dispatches, the poller, resume tasks and shutdown;
    * `Issued`, `RailInv` — every entry is in one place and belongs to its dispatch;
    * `flow_resumed_once`. -/

namespace Greentic.Approval

open Transition Engine

/-! ## Deadlines and answers -/

/-- `WithdrawReason`, as far as a deadline sets it. -/
inductive WithdrawReason where
  | timeout
  | pollCap
  deriving DecidableEq

/-- `Timing`, in milliseconds. -/
structure Timing where
  sendRetryDelays : List Nat
  fastInterval : Nat
  fastWindow : Nat
  slowInterval : Nat
  backoff : Nat
  maxWait : Nat

/-- `Timing::default`. -/
def Timing.default : Timing where
  sendRetryDelays := [1000, 4000, 10000]
  fastInterval := 5000
  fastWindow := 60000
  slowInterval := 15000
  backoff := 60000
  maxWait := 7 * 24 * 60 * 60 * 1000

/-- `effective_deadline`. -/
def effectiveDeadline (nodeDeadlineMs : Option Nat) (cap : Nat) : Nat × WithdrawReason :=
  let capMs := min cap (2 ^ 64 - 1)
  match nodeDeadlineMs with
  | some ms => if ms ≤ capMs then (ms, .timeout) else (capMs, .pollCap)
  | none => (capMs, .pollCap)

/-- An answer of the admin: none, or a status with what its body is. -/
inductive Answer (β : Type) where
  | transport (reason : String)
  | status (code : Nat) (body : β)

/-- `StatusCode::is_success`. -/
def isSuccess (code : Nat) : Bool := 200 ≤ code && code < 300

/-- `StatusCode::is_server_error`. -/
def isServerError (code : Nat) : Bool := 500 ≤ code && code < 600

/-- The text `approval_pending_cap` is in the body. -/
def pendingCapped (body : String) : Bool :=
  decide ("approval_pending_cap".toList <:+: body.toList)

/-- What one attempt of `send` does next. -/
inductive Sent where
  | recorded
  | retry (last : String)
  | refused (message : String)

/-- One attempt of `send`; `statusText` is the `Display` of a status. -/
def Answer.sent (statusText : Nat → String) : Answer String → Sent
  | .transport reason => .retry ("transport error: " ++ reason)
  | .status code body =>
      if isSuccess code then .recorded
      else if code = 429 then
        if pendingCapped body then
          .refused "approval inbox refused the request: this worker already has the maximum number of pending approvals (approval_pending_cap)"
        else .retry ("HTTP " ++ statusText code)
      else if isServerError code then .retry ("HTTP " ++ statusText code)
      else .refused ("approval inbox refused the request with HTTP " ++ statusText code)

/-- `ApprovalDecisionBody`. -/
structure DecisionBody where
  approved : Bool
  resolvedBy : Option String
  note : Option String

/-- `PollOutcome`. -/
inductive PollOutcome where
  | pending
  | decided (decision : DecisionBody)
  | unreadable
  | transient (reason : String)
  | gone (code : Nat)

/-- `fetch_decision`, on the answer of the admin. -/
def fetchDecision (statusText : Nat → String) : Answer (Option DecisionBody) → PollOutcome
  | .transport reason => .transient reason
  | .status code body =>
      if code = 204 then .pending
      else if code = 200 then
        match body with
        | some decision => .decided decision
        | none => .unreadable
      else if code = 429 || isServerError code then .transient ("HTTP " ++ statusText code)
      else .gone code

/-! ## Entries -/

/-- `Pending`. -/
structure Pending where
  tenant : TenantCtx
  env : String
  decisionToken : Option String
  registeredAt : Nat
  deadlineAt : Nat
  deadlineMs : Nat
  deadlineReason : WithdrawReason
  nextPollAt : Nat

/-- An approval this worker is waiting on, under its correlation id. -/
abbrev Entry : Type := List Char × Pending

/-- `collect_due`: what is past its deadline, what is due, and what stays. -/
def collectDue (pending : List Entry) (now : Nat) : List Entry × List (List Char) × List Entry :=
  let rest := pending.filter fun e => !decide (e.2.deadlineAt ≤ now)
  (pending.filter fun e => decide (e.2.deadlineAt ≤ now),
    (rest.filter fun e => decide (e.2.nextPollAt ≤ now)).map (·.1), rest)

/-- `reschedule`. -/
def reschedule (timing : Timing) (pending : List Entry) (correlationId : List Char) (now : Nat)
    (after : Option Nat) : List Entry :=
  pending.map fun e =>
    if e.1 = correlationId then
      let interval := after.getD
        (if now - e.2.registeredAt < timing.fastWindow then timing.fastInterval
          else timing.slowInterval)
      (e.1, { e.2 with nextPollAt := now + interval })
    else e

/-- `HashMap::remove`. -/
def removeEntry (pending : List Entry) (correlationId : List Char) : List Entry :=
  pending.filter fun e => !decide (e.1 = correlationId)

/-- An optional text. -/
def optText : Option String → Json
  | some text => .str text
  | none => .null

/-- The response of a decision, with the token of the entry. -/
def decisionResponse (decision : DecisionBody) (token : Option String) : RuntimeDispatchResponse where
  ok := true
  output := .obj ([("decision", .str (if decision.approved then "approved" else "denied"))] ++
    (match token with
      | some token => [("decision_token", .str token)]
      | none => []) ++
    [("note", optText decision.note), ("resolved_by", optText decision.resolvedBy)])
  events := .arr []
  error := .null

/-- The response of `build_timeout_response_message_with_token`. -/
def timeoutResponse (deadlineMs : Nat) (token : Option String) : RuntimeDispatchResponse where
  ok := false
  output := match token with
    | some token => .obj [("decision_token", .str token)]
    | none => .null
  events := .arr []
  error := .obj [("code", .str "timeout"),
    ("message", .str ("no response within " ++ toString deadlineMs ++ "ms"))]

/-! ## The rail -/

/-- How far a `dispatch` is. -/
inductive Phase where
  | sending (tenant : TenantCtx) (attempt : Nat)
  | accepted (tenant : TenantCtx)
  | registered
  | ended (result : Except String RemoteDispatchAction)
  | dropped

/-- A call of `HttpApprovalDispatcher::dispatch`; `late` if it registered after the shutdown had
    returned. -/
structure DispatchCall where
  request : RemoteDispatch
  phase : Phase
  late : Bool

/-- How far the `shutdown` is. -/
inductive Shutdown where
  | idle
  | cancelled
  | cleared
  | returned
  deriving DecidableEq

/-- Where the poller is in `run`. -/
inductive Poller where
  | top
  | work (expired : List Entry) (due : List (List Char))
  | withdrawing (entry : Entry) (expired : List Entry) (due : List (List Char))
  | polling (correlationId : List Char) (due : List (List Char))
  | sleeping
  | clearing
  | dropping
  | leaving

/-- The task of one `resume`; `live` once it has seen that nothing is cancelled. -/
structure ResumeTask (β : Type) where
  entry : Entry
  body : β
  live : Bool

/-- A call of the resumer. -/
structure Resumed where
  tenant : TenantCtx
  correlationId : List Char
  output : Json

/-- `Inner` with the calls, the poller and the tasks around it, and three logs: the requests
    dispatched, the ids the admin acknowledged and the calls of the resumer. -/
structure Rail (β : Type) where
  pending : List Entry
  resumer : Option Nat
  cancelled : Bool
  shutdown : Shutdown
  pollerStarted : Bool
  calls : List DispatchCall
  poller : Option Poller
  tasks : List (ResumeTask β)
  attaching : List Nat
  dispatched : List RemoteDispatch
  acknowledged : List (List Char)
  resumed : List Resumed

/-- `HttpApprovalDispatcher::new`. -/
def Rail.new {β : Type} : Rail β where
  pending := []
  resumer := none
  cancelled := false
  shutdown := .idle
  pollerStarted := false
  calls := []
  poller := none
  tasks := []
  attaching := []
  dispatched := []
  acknowledged := []
  resumed := []

/-- What the rail is given: its timing, the identifier checks, the texts of statuses and the
    wire form of a response. -/
structure Config (β : Type) where
  timing : Timing
  ids : IdChecks
  statusText : Nat → String
  encode : RuntimeDispatchResponse → β
  decode : β → Except String RuntimeDispatchResponse

section Moves

variable {β : Type} (cfg : Config β)

/-- What `dispatch` checks before it sends. -/
def dispatchChecks (cancelled : Bool) (request : RemoteDispatch) : Except String TenantCtx :=
  if request.runtime ≠ approvalRuntime then
    .error (request.runtime ++ ".call dispatched to the approval inbox, which serves only approval.call")
  else if cancelled then
    .error "approval inbox is shut down; this revision is no longer serving"
  else
    match cfg.ids.env request.env with
    | some error => .error ("invalid env for approval dispatch: " ++ error)
    | none =>
        match cfg.ids.tenant request.tenant with
        | some error => .error ("invalid tenant for approval dispatch: " ++ error)
        | none => .ok ⟨request.env, request.tenant, none⟩

/-- The first phase of a `dispatch`. -/
def firstPhase (cancelled : Bool) (request : RemoteDispatch) : Phase :=
  match dispatchChecks cfg cancelled request with
  | .ok tenant => .sending tenant 0
  | .error message => .ended (.error message)

/-- The phase after the admin answered an attempt of `send`. -/
def afterSend (tenant : TenantCtx) (attempt : Nat) (request : RemoteDispatch) : Sent → Phase
  | .recorded => if request.await then .accepted tenant else .ended (.ok .dispatched)
  | .refused message => .ended (.error message)
  | .retry last =>
      if attempt < cfg.timing.sendRetryDelays.length then .sending tenant (attempt + 1)
      else .ended (.error ("approval inbox did not record the request after " ++
        toString (cfg.timing.sendRetryDelays.length + 1) ++ " attempts (" ++ last ++ ")"))

/-- The entry that `dispatch` registers. -/
def entryOf (request : RemoteDispatch) (tenant : TenantCtx) (now : Nat) : Entry :=
  let deadline := effectiveDeadline request.deadlineMs cfg.timing.maxWait
  (request.correlationId,
    { tenant
      env := request.env
      decisionToken := request.decisionToken
      registeredAt := now
      deadlineAt := now + deadline.1
      deadlineMs := deadline.1
      deadlineReason := deadline.2
      nextPollAt := now + cfg.timing.fastInterval })

/-- `decode_response`, on the id, the tenant and the environment of an entry. -/
def decodeResponse (entry : Entry) (body : β) : Except String (List Char × Json) :=
  if entry.1 = [] then .error "dispatch response missing Greentic-Correlation-Id"
  else
    match cfg.ids.tenant (if entry.2.tenant.tenant = "" then "default" else entry.2.tenant.tenant) with
    | some error => .error ("invalid Greentic-Tenant header value: " ++ error)
    | none =>
        match cfg.ids.env (if entry.2.env = "" then "default" else entry.2.env) with
        | some error => .error ("invalid Greentic-Env header value: " ++ error)
        | none => (cfg.decode body).map fun response => (entry.1, response.entry)

/-- One thing that happens. -/
inductive Label where
  | dispatch (request : RemoteDispatch)
  | sent (call : Nat) (answer : Answer String)
  | register (call : Nat) (now : Nat)
  | ensurePoller (call : Nat)
  | abandon (call : Nat)
  | tick (now : Nat)
  | next
  | withdrawn
  | polled (answer : Answer (Option DecisionBody)) (now : Nat)
  | wake
  | leave
  | panic
  | runTask (task : Nat)
  | loseTask (task : Nat)
  | reorder (index : Nat)
  | attach (resumer : Nat)
  | attached (index : Nat)
  | shutdown
  | cancel
  | clear
  | dropResumer

namespace Rail

variable (s : Rail β)

/-- The call `k` is in another phase. -/
def setPhase (k : Nat) (call : DispatchCall) (phase : Phase) : Rail β :=
  { s with calls := s.calls.set k { call with phase } }

/-- `dispatch`, up to its first send. -/
def dispatch (request : RemoteDispatch) : Rail β :=
  { s with
    calls := s.calls ++ [⟨request, firstPhase cfg s.cancelled request, false⟩]
    dispatched := s.dispatched ++ [request] }

/-- The admin answered an attempt. -/
def answerSend (k : Nat) (call : DispatchCall) (tenant : TenantCtx) (attempt : Nat)
    (answer : Answer String) : Rail β :=
  let outcome := answer.sent cfg.statusText
  { s.setPhase k call (afterSend cfg tenant attempt call.request outcome) with
    acknowledged := s.acknowledged ++ (match outcome with
      | .recorded => [call.request.correlationId]
      | _ => []) }

/-- `HashMap::insert` of `register`. -/
def insert (k : Nat) (call : DispatchCall) (tenant : TenantCtx) (now : Nat) : Rail β :=
  { s.setPhase k { call with late := s.shutdown = .returned } .registered with
    pending := entryOf cfg call.request tenant now :: removeEntry s.pending call.request.correlationId }

/-- `ensure_poller`, and the answer of `dispatch`. -/
def ensurePoller (k : Nat) (call : DispatchCall) : Rail β :=
  let ended := s.setPhase k call (.ended (.ok (.awaitingResponse call.request.correlationId)))
  if s.pollerStarted || s.cancelled then ended
  else { ended with pollerStarted := true, poller := some .top }

/-- `spawn_resume`. -/
def spawnResume (entry : Entry) (response : RuntimeDispatchResponse) : Rail β :=
  { s with tasks := s.tasks ++ [⟨entry, cfg.encode response, false⟩] }

/-- The top of the loop of `run`. -/
def tick (now : Nat) : Rail β :=
  if s.cancelled then { s with poller := some .clearing }
  else
    let (expired, due, rest) := collectDue s.pending now
    { s with poller := some (.work expired due), pending := rest }

/-- The two `for` loops of `run`. -/
def next (expired : List Entry) (due : List (List Char)) : Rail β :=
  match expired, due with
  | entry :: expired, due =>
      -- a `break` drops what is left of the expired entries
      if s.cancelled then { s with poller := some (.work [] due) }
      else { s with poller := some (.withdrawing entry expired due) }
  | [], correlationId :: due =>
      if s.cancelled then { s with poller := some .sleeping }
      else { s with poller := some (.polling correlationId due) }
  | [], [] => { s with poller := some .sleeping }

/-- `poll_one`, after the answer. -/
def pollOne (correlationId : List Char) (due : List (List Char))
    (answer : Answer (Option DecisionBody)) (now : Nat) : Rail β :=
  let s := { s with poller := some (.work [] due) }
  match fetchDecision cfg.statusText answer with
  | .pending => { s with pending := reschedule cfg.timing s.pending correlationId now none }
  | .transient _ =>
      { s with pending := reschedule cfg.timing s.pending correlationId now (some cfg.timing.backoff) }
  | .gone _ | .unreadable => { s with pending := removeEntry s.pending correlationId }
  | .decided decision =>
      match s.pending.find? fun e => decide (e.1 = correlationId) with
      | none => s
      | some entry =>
          { s with pending := removeEntry s.pending correlationId }.spawnResume cfg entry
            (decisionResponse decision entry.2.decisionToken)

/-- `resume`, in two steps. -/
def runTask (i : Nat) (task : ResumeTask β) : Rail β :=
  if task.live then
    let ended := { s with tasks := s.tasks.eraseIdx i }
    match s.resumer, decodeResponse cfg task.entry task.body with
    | some _, .ok (correlationId, output) =>
        { ended with resumed := s.resumed ++ [⟨task.entry.2.tenant, correlationId, output⟩] }
    | _, _ => ended
  else if s.cancelled then { s with tasks := s.tasks.eraseIdx i }
  else { s with tasks := s.tasks.set i { task with live := true } }

end Rail

/-- One step of the rail. -/
def step (s : Rail β) : Label → Option (Rail β)
  | .dispatch request => some (s.dispatch cfg request)
  | .sent k answer =>
      match s.calls[k]? with
      | some ⟨request, .sending tenant attempt, late⟩ =>
          some (s.answerSend cfg k ⟨request, .sending tenant attempt, late⟩ tenant attempt answer)
      | _ => none
  | .register k now =>
      match s.calls[k]? with
      | some ⟨request, .accepted tenant, late⟩ =>
          some (s.insert cfg k ⟨request, .accepted tenant, late⟩ tenant now)
      | _ => none
  | .ensurePoller k =>
      match s.calls[k]? with
      | some ⟨request, .registered, late⟩ => some (s.ensurePoller k ⟨request, .registered, late⟩)
      | _ => none
  -- the caller drops the future at one of its awaits
  | .abandon k =>
      match s.calls[k]? with
      | some ⟨request, .sending tenant attempt, late⟩ =>
          some (s.setPhase k ⟨request, .sending tenant attempt, late⟩ .dropped)
      | _ => none
  | .tick now =>
      match s.poller with
      | some .top => some (s.tick now)
      | _ => none
  | .next =>
      match s.poller with
      | some (.work expired due) => some (s.next expired due)
      | _ => none
  | .withdrawn =>
      match s.poller with
      | some (.withdrawing entry expired due) =>
          some ({ s with poller := some (.work expired due) }.spawnResume cfg entry
            (timeoutResponse entry.2.deadlineMs entry.2.decisionToken))
      | _ => none
  | .polled answer now =>
      match s.poller with
      | some (.polling correlationId due) => some (s.pollOne cfg correlationId due answer now)
      | _ => none
  -- a wake by the cancellation is found at the top of the loop
  | .wake =>
      match s.poller with
      | some .sleeping => some { s with poller := some .top }
      | _ => none
  | .leave =>
      match s.poller with
      | some .clearing => some { s with poller := some .dropping, pending := [] }
      | some .dropping => some { s with poller := some .leaving, resumer := none }
      | some .leaving => some { s with poller := none, pollerStarted := false }
      | _ => none
  -- `PollerGuard` runs however the loop ends
  | .panic => if s.poller.isSome then some { s with poller := none, pollerStarted := false } else none
  | .runTask i => (s.tasks[i]?).map (s.runTask cfg i)
  | .loseTask i => if i < s.tasks.length then some { s with tasks := s.tasks.eraseIdx i } else none
  -- the map has no order
  | .reorder i => (s.pending[i]?).map fun e => { s with pending := e :: s.pending.eraseIdx i }
  | .attach n => if s.cancelled then none else some { s with attaching := s.attaching ++ [n] }
  | .attached i =>
      (s.attaching[i]?).map fun n =>
        { s with attaching := s.attaching.eraseIdx i, resumer := some n }
  | .shutdown =>
      match s.shutdown with
      | .idle => some { s with shutdown := .cancelled, cancelled := true }
      | .cancelled => some { s with shutdown := .cleared, pending := [] }
      | .cleared => some { s with shutdown := .returned, resumer := none }
      | .returned => none
  -- others may cancel the token or call `shutdown` too
  | .cancel => some { s with cancelled := true }
  | .clear => if s.cancelled then some { s with pending := [] } else none
  | .dropResumer => if s.cancelled then some { s with resumer := none } else none

/-- The correlation ids of the dispatches are pairwise different. -/
def Fresh (s : Rail β) : Label → Prop
  | .dispatch request => ∀ r ∈ s.dispatched, r.correlationId ≠ request.correlationId
  | _ => True

end Moves

/-! ## Every entry is in one place -/

/-- The entries that the poller has taken out of the map. -/
def Poller.held : Poller → List Entry
  | .work expired _ => expired
  | .withdrawing entry expired _ => entry :: expired
  | _ => []

/-- A call that has not registered its entry yet. -/
def DispatchCall.unregistered (call : DispatchCall) : Bool :=
  match call.phase with
  | .sending .. | .accepted _ => true
  | _ => false

/-- The entry has the correlation id `id`. -/
def named (id : List Char) (entry : Entry) : Bool := decide (entry.1 = id)

/-- The call is of `id` and will register an entry. -/
def owes (id : List Char) (call : DispatchCall) : Bool :=
  call.unregistered && decide (call.request.correlationId = id)

variable {β : Type}

/-- The entries in the map and those the poller has taken out of it. -/
def Rail.entries (s : Rail β) : List Entry := s.pending ++ s.poller.elim [] Poller.held

/-- How many places stand for the approval `id`. -/
def Rail.places (s : Rail β) (id : List Char) : Nat :=
  s.calls.countP (owes id) + s.entries.countP (named id) +
    s.tasks.countP (fun t => named id t.entry) +
    s.resumed.countP (fun r => decide (r.correlationId = id))

/-- The entry is the one of a dispatch that the admin acknowledged. -/
def Issued (cfg : Config β) (s : Rail β) (entry : Entry) : Prop :=
  ∃ r ∈ s.dispatched, r.correlationId = entry.1 ∧ r.await = true ∧ entry.1 ∈ s.acknowledged ∧
    entry.2.tenant = ⟨r.env, r.tenant, none⟩ ∧ entry.2.decisionToken = r.decisionToken ∧
    entry.2.deadlineMs = (effectiveDeadline r.deadlineMs cfg.timing.maxWait).1

/-- A response that this rail gives for an entry: a decision or a timeout. -/
def Answers (entry : Entry) (response : RuntimeDispatchResponse) : Prop :=
  (∃ decision, response = decisionResponse decision entry.2.decisionToken) ∨
    response = timeoutResponse entry.2.deadlineMs entry.2.decisionToken

/-- The call of the resumer is the one of an issued entry. -/
def Delivered (cfg : Config β) (s : Rail β) (r : Resumed) : Prop :=
  ∃ entry response, Issued cfg s entry ∧ Answers entry response ∧ r.correlationId = entry.1 ∧
    r.tenant = entry.2.tenant ∧ r.output = response.entry

/-- A call that will register is of a dispatched request, and acknowledged once it is past its
    sends. -/
def DispatchCall.Fine (s : Rail β) (call : DispatchCall) : Prop :=
  call.request ∈ s.dispatched ∧
    match call.phase with
    | .sending tenant _ => tenant = ⟨call.request.env, call.request.tenant, none⟩
    | .accepted tenant => tenant = ⟨call.request.env, call.request.tenant, none⟩ ∧
        call.request.await = true ∧ call.request.correlationId ∈ s.acknowledged
    | _ => True

/-- What holds in every state of the rail. -/
structure RailInv (cfg : Config β) (s : Rail β) : Prop where
  once : ∀ id, s.places id ≤ 1
  calls : ∀ c ∈ s.calls, c.Fine s
  entries : ∀ e ∈ s.entries, Issued cfg s e
  tasks : ∀ t ∈ s.tasks, Issued cfg s t.entry ∧ ∃ r, Answers t.entry r ∧ t.body = cfg.encode r
  resumed : ∀ r ∈ s.resumed, Delivered cfg s r
  started : s.pollerStarted = s.poller.isSome

section Kept

variable {cfg : Config β} {s s' : Rail β} {call : DispatchCall} {k : Nat}

theorem Issued.mono {entry : Entry} (h : Issued cfg s entry) (hd : s.dispatched ⊆ s'.dispatched)
    (ha : s.acknowledged ⊆ s'.acknowledged) : Issued cfg s' entry := by
  obtain ⟨r, hr, hid, haw, hack, hrest⟩ := h
  exact ⟨r, hd hr, hid, haw, ha hack, hrest⟩

theorem Delivered.mono {r : Resumed} (h : Delivered cfg s r) (hd : s.dispatched ⊆ s'.dispatched)
    (ha : s.acknowledged ⊆ s'.acknowledged) : Delivered cfg s' r := by
  obtain ⟨entry, response, hi, hrest⟩ := h
  exact ⟨entry, response, hi.mono hd ha, hrest⟩

/-- A call in flight stays fine. -/
theorem DispatchCall.Fine.mono (h : call.Fine s) (hd : s.dispatched ⊆ s'.dispatched)
    (ha : s.acknowledged ⊆ s'.acknowledged) : call.Fine s' := by
  obtain ⟨request, phase⟩ := call
  obtain ⟨hr, hp⟩ := h
  refine ⟨hd hr, ?_⟩
  cases phase with
  | accepted tenant => exact ⟨hp.1, hp.2.1, ha hp.2.2⟩
  | sending | registered | ended | dropped => exact hp

/-- Nothing stands for an id that no request had. -/
theorem RailInv.places_unknown (h : RailInv cfg s) {id : List Char}
    (hf : ∀ r ∈ s.dispatched, r.correlationId ≠ id) : s.places id = 0 := by
  have hissued : ∀ e, Issued cfg s e → ¬ named id e = true := by
    rintro e ⟨r, hr, hid, _⟩ hn
    exact hf r hr (hid.trans (of_decide_eq_true hn))
  have hcalls : s.calls.countP (owes id) = 0 := by
    rw [List.countP_eq_zero]
    intro c hc ho
    rw [owes, Bool.and_eq_true] at ho
    exact hf c.request (h.calls c hc).1 (of_decide_eq_true ho.2)
  have hentries : s.entries.countP (named id) = 0 := by
    rw [List.countP_eq_zero]
    exact fun e he => hissued e (h.entries e he)
  have htasks : s.tasks.countP (fun t => named id t.entry) = 0 := by
    rw [List.countP_eq_zero]
    exact fun t ht => hissued t.entry (h.tasks t ht).1
  have hresumed : s.resumed.countP (fun r => decide (r.correlationId = id)) = 0 := by
    rw [List.countP_eq_zero]
    intro r hr hn
    obtain ⟨e, _, hi, _, hid, _⟩ := h.resumed r hr
    exact hissued e hi (decide_eq_true (hid.symm.trans (of_decide_eq_true hn)))
  rw [Rail.places, hcalls, hentries, htasks, hresumed]

/-- What stays in place stays fine while the logs grow, so only what is new is to be checked. -/
theorem RailInv.grow (h : RailInv cfg s) (hd : s.dispatched ⊆ s'.dispatched)
    (ha : s.acknowledged ⊆ s'.acknowledged) (hone : ∀ id, s'.places id ≤ 1)
    (hc : ∀ c ∈ s'.calls, c ∈ s.calls ∨ c.Fine s')
    (he : ∀ e ∈ s'.entries, e ∈ s.entries ∨ Issued cfg s e)
    (ht : ∀ t ∈ s'.tasks, t ∈ s.tasks ∨
      Issued cfg s t.entry ∧ ∃ r, Answers t.entry r ∧ t.body = cfg.encode r)
    (hr : ∀ r ∈ s'.resumed, r ∈ s.resumed ∨ Delivered cfg s r)
    (hs : s'.pollerStarted = s'.poller.isSome) : RailInv cfg s' := by
  constructor
  · exact hone
  · intro c hm
    exact (hc c hm).elim (fun hold => (h.calls c hold).mono hd ha) id
  · intro e hm
    exact ((he e hm).elim (h.entries e) id).mono hd ha
  · intro t hm
    obtain ⟨hi, hb⟩ := (ht t hm).elim (h.tasks t) id
    exact ⟨hi.mono hd ha, hb⟩
  · intro r hm
    exact ((hr r hm).elim (h.resumed r) id).mono hd ha
  · exact hs

/-- Entries that go away, change their poll times or change places among themselves. -/
theorem RailInv.shift (h : RailInv cfg s) (hc : s'.calls = s.calls) (ht : s'.tasks = s.tasks)
    (hd : s'.dispatched = s.dispatched) (ha : s'.acknowledged = s.acknowledged)
    (hr : s'.resumed = s.resumed) (hin : ∀ e ∈ s'.entries, e ∈ s.entries ∨ Issued cfg s e)
    (hle : ∀ id, s'.entries.countP (named id) ≤ s.entries.countP (named id))
    (hs : s'.pollerStarted = s'.poller.isSome) : RailInv cfg s' := by
  refine h.grow (fun _ hm => hd ▸ hm) (fun _ hm => ha ▸ hm) ?_ ?_ hin ?_ ?_ hs
  · intro id
    have hid := hle id
    have hone := h.once id
    rw [Rail.places] at hone
    rw [Rail.places, hc, ht, hr]
    omega
  · exact fun c hm => .inl (hc ▸ hm)
  · exact fun t hm => .inl (ht ▸ hm)
  · exact fun r hm => .inl (hr ▸ hm)

/-- Entries that go away or change places. -/
theorem RailInv.fewer (h : RailInv cfg s) (hc : s'.calls = s.calls) (ht : s'.tasks = s.tasks)
    (hd : s'.dispatched = s.dispatched) (ha : s'.acknowledged = s.acknowledged)
    (hr : s'.resumed = s.resumed) (hsub : s'.entries.Subperm s.entries)
    (hs : s'.pollerStarted = s'.poller.isSome) : RailInv cfg s' :=
  h.shift hc ht hd ha hr (fun _ he => .inl (hsub.subset he)) (fun _ => hsub.countP_le _) hs

/-- A call goes on, and registers nothing that it did not owe before. -/
theorem RailInv.recall (h : RailInv cfg s) (hk : s.calls[k]? = some call) {phase : Phase}
    (hc : s'.calls = s.calls.set k { call with phase }) (ht : s'.tasks = s.tasks)
    (hd : s'.dispatched = s.dispatched) (ha : s.acknowledged ⊆ s'.acknowledged)
    (hr : s'.resumed = s.resumed) (he : s'.entries.Subperm s.entries)
    (hfine : DispatchCall.Fine s' { call with phase })
    (howed : call.unregistered = true ∨ DispatchCall.unregistered { call with phase } = false)
    (hs : s'.pollerStarted = s'.poller.isSome) : RailInv cfg s' := by
  refine h.grow (fun _ hm => hd ▸ hm) ha ?_ ?_ (fun _ hm => .inl (he.subset hm)) ?_ ?_ hs
  · intro id
    have hset := countP_set_add (owes id) hk { call with phase }
    have howes : owes id { call with phase } = true → owes id call = true := by
      rw [owes, owes, Bool.and_eq_true, Bool.and_eq_true]
      rintro ⟨hu, hid⟩
      exact ⟨howed.resolve_right (by rw [hu]; exact nofun), hid⟩
    have hle := he.countP_le (named id)
    have hone := h.once id
    rw [Rail.places] at hone
    rw [Rail.places, hc, ht, hr]
    split at hset <;> split at hset <;> first | omega | exact absurd (howes ‹_›) ‹_›
  · intro c hm
    rw [hc] at hm
    rcases mem_of_set hm with rfl | hold
    · exact .inr hfine
    · exact .inl hold
  · exact fun t hm => .inl (ht ▸ hm)
  · exact fun r hm => .inl (hr ▸ hm)

/-! ## Dispatches -/

/-- The tenant of a request that passes its checks. -/
theorem dispatchChecks_ok {cancelled : Bool} {request : RemoteDispatch} {tenant : TenantCtx}
    (h : dispatchChecks cfg cancelled request = .ok tenant) :
    tenant = ⟨request.env, request.tenant, none⟩ := by
  unfold dispatchChecks at h
  repeat' split at h
  all_goals cases h
  rfl

/-- A request under a new id. -/
theorem RailInv.dispatch (h : RailInv cfg s) {request : RemoteDispatch}
    (hf : ∀ r ∈ s.dispatched, r.correlationId ≠ request.correlationId) :
    RailInv cfg (s.dispatch cfg request) := by
  refine h.grow (List.subset_append_left _ _) (List.Subset.refl _) ?_ ?_ (fun _ hm => .inl hm)
    (fun _ hm => .inl hm) (fun _ hm => .inl hm) h.started
  · intro id
    have hone := h.once id
    rw [Rail.places] at hone
    show (s.calls ++ [_]).countP _ + s.entries.countP _ + s.tasks.countP _ + s.resumed.countP _ ≤ 1
    rw [List.countP_append, List.countP_singleton]
    by_cases hid : request.correlationId = id
    · -- nothing stands for the new id yet
      subst hid
      have hzero := h.places_unknown hf
      rw [Rail.places] at hzero
      split <;> omega
    · rw [owes, decide_eq_false hid, Bool.and_false, if_neg Bool.false_ne_true]
      omega
  · intro c hm
    rcases List.mem_append.mp hm with hold | hnew
    · exact .inl hold
    · rw [List.mem_singleton] at hnew
      subst hnew
      refine .inr ⟨List.mem_append_right _ (List.mem_singleton_self _), ?_⟩
      dsimp only [firstPhase]
      cases hok : dispatchChecks cfg s.cancelled request with
      | ok tenant => exact dispatchChecks_ok hok
      | error message => exact trivial

/-- The answer to a send. -/
theorem RailInv.answerSend (h : RailInv cfg s) {tenant : TenantCtx} {attempt : Nat}
    (hk : s.calls[k]? = some call) (hp : call.phase = .sending tenant attempt)
    (answer : Answer String) : RailInv cfg (s.answerSend cfg k call tenant attempt answer) := by
  have hunreg : call.unregistered = true := by rw [DispatchCall.unregistered, hp]
  obtain ⟨hreq, htenant⟩ := h.calls _ (List.mem_of_getElem? hk)
  rw [hp] at htenant
  refine h.recall hk rfl rfl rfl (List.subset_append_left _ _) rfl (List.Subperm.refl _) ?_
    (.inl hunreg) h.started
  refine ⟨hreq, ?_⟩
  dsimp only [Rail.answerSend]
  cases answer.sent cfg.statusText with
  | recorded =>
      rw [afterSend]
      by_cases hw : call.request.await = true
      · rw [if_pos hw]
        exact ⟨htenant, hw, List.mem_append_right _ (List.mem_singleton_self _)⟩
      · rw [if_neg hw]
        exact trivial
  | refused message => exact trivial
  | retry last =>
      rw [afterSend]
      by_cases hlt : attempt < cfg.timing.sendRetryDelays.length
      · rw [if_pos hlt]
        exact htenant
      · rw [if_neg hlt]
        exact trivial

theorem removeEntry_sublist (pending : List Entry) (id : List Char) :
    (removeEntry pending id).Sublist pending := List.filter_sublist

/-- An acknowledged request is awaited. -/
theorem RailInv.insert (h : RailInv cfg s) {tenant : TenantCtx} (hk : s.calls[k]? = some call)
    (hp : call.phase = .accepted tenant) (now : Nat) :
    RailInv cfg (s.insert cfg k call tenant now) := by
  obtain ⟨hreq, hfine⟩ := h.calls _ (List.mem_of_getElem? hk)
  rw [hp] at hfine
  obtain ⟨htenant, hawait, hack⟩ := hfine
  refine h.grow (List.Subset.refl _) (List.Subset.refl _) ?_ ?_ ?_ (fun _ hm => .inl hm)
    (fun _ hm => .inl hm) h.started
  · intro id
    -- what the call owed is now in the map
    have hset := countP_set_add (owes id) hk ⟨call.request, .registered, s.shutdown = .returned⟩
    have howed : owes id call = named id (entryOf cfg call.request tenant now) := by
      rw [owes, DispatchCall.unregistered, hp]
      rfl
    have hrem := (removeEntry_sublist s.pending call.request.correlationId).countP_le (p := named id)
    have hone := h.once id
    rw [Rail.places, Rail.entries, List.countP_append] at hone
    rw [howed, show owes id ⟨call.request, .registered, s.shutdown = .returned⟩ = false from rfl,
      if_neg Bool.false_ne_true] at hset
    show (s.calls.set k ⟨call.request, .registered, s.shutdown = .returned⟩).countP (owes id) +
      ((entryOf cfg call.request tenant now :: removeEntry s.pending call.request.correlationId) ++
        s.poller.elim [] Poller.held).countP (named id) + s.tasks.countP _ + s.resumed.countP _ ≤ 1
    rw [List.countP_append, List.countP_cons]
    omega
  · intro c hm
    rcases mem_of_set hm with rfl | hold
    · exact .inr ⟨hreq, trivial⟩
    · exact .inl hold
  · intro e hm
    rcases List.mem_append.mp hm with hp | hh
    · rcases List.mem_cons.mp hp with rfl | hold
      · exact .inr ⟨call.request, hreq, rfl, hawait, hack, htenant, rfl, rfl⟩
      · exact .inl (List.mem_append_left _ ((removeEntry_sublist _ _).subset hold))
    · exact .inl (List.mem_append_right _ hh)

/-- The poller is started. -/
theorem RailInv.ensurePoller (h : RailInv cfg s) (hk : s.calls[k]? = some call) :
    RailInv cfg (s.ensurePoller k call) := by
  have hfine : ∀ s' : Rail β, s'.dispatched = s.dispatched →
      DispatchCall.Fine s'
        { call with phase := .ended (.ok (.awaitingResponse call.request.correlationId)) } := by
    intro s' hd
    exact ⟨hd ▸ (h.calls _ (List.mem_of_getElem? hk)).1, trivial⟩
  unfold Rail.ensurePoller
  dsimp only
  split
  · exact h.recall hk rfl rfl rfl (List.Subset.refl _) rfl (List.Subperm.refl _) (hfine _ rfl)
      (.inr rfl) h.started
  · refine h.recall hk rfl rfl rfl (List.Subset.refl _) rfl ?_ (hfine _ rfl) (.inr rfl) rfl
    -- a new poller has taken nothing yet
    show (s.pending ++ []).Subperm (s.pending ++ _)
    rw [List.append_nil]
    exact (List.sublist_append_left _ _).subperm

/-! ## The poller -/

theorem collectDue_perm (pending : List Entry) (now : Nat) :
    ((collectDue pending now).2.2 ++ (collectDue pending now).1).Perm pending :=
  List.perm_append_comm.trans (List.filter_append_perm _ _)

/-- The poller collects what is due. -/
theorem RailInv.tick (h : RailInv cfg s) (hp : s.poller = some .top) (now : Nat) :
    RailInv cfg (s.tick now) := by
  have hstarted : s.pollerStarted = true := by rw [h.started, hp]; rfl
  have hentries : s.entries = s.pending := by
    rw [Rail.entries, hp]
    exact List.append_nil _
  unfold Rail.tick
  split
  · refine h.fewer rfl rfl rfl rfl rfl ?_ hstarted
    rw [hentries]
    show (s.pending ++ []).Subperm s.pending
    rw [List.append_nil]
  · refine h.fewer rfl rfl rfl rfl rfl ?_ hstarted
    rw [hentries]
    exact (collectDue_perm s.pending now).subperm

/-- It takes the next of them. -/
theorem RailInv.next (h : RailInv cfg s) {expired : List Entry} {due : List (List Char)}
    (hp : s.poller = some (.work expired due)) : RailInv cfg (s.next expired due) := by
  have hstarted : s.pollerStarted = true := by rw [h.started, hp]; rfl
  have hentries : s.entries = s.pending ++ expired := by
    rw [Rail.entries, hp]
    rfl
  have hdrop : (s.pending ++ []).Subperm s.entries := by
    rw [hentries]
    exact ((List.nil_sublist _).append_left _).subperm
  unfold Rail.next
  split
  · split
    · exact h.fewer rfl rfl rfl rfl rfl hdrop hstarted
    · refine h.fewer rfl rfl rfl rfl rfl ?_ hstarted
      rw [hentries]
      exact List.Subperm.refl _
  · split
    · exact h.fewer rfl rfl rfl rfl rfl hdrop hstarted
    · exact h.fewer rfl rfl rfl rfl rfl hdrop hstarted
  · exact h.fewer rfl rfl rfl rfl rfl hdrop hstarted

/-- An entry leaves the map or the poller and goes to a task of its own. -/
theorem RailInv.spawnResume (h : RailInv cfg s) {entry : Entry} {response : RuntimeDispatchResponse}
    (hc : s'.calls = s.calls) (ht : s'.tasks = s.tasks) (hd : s'.dispatched = s.dispatched)
    (ha : s'.acknowledged = s.acknowledged) (hr : s'.resumed = s.resumed)
    (hsub : (entry :: s'.entries).Subperm s.entries) (hanswers : Answers entry response)
    (hs : s'.pollerStarted = s'.poller.isSome) : RailInv cfg (s'.spawnResume cfg entry response) := by
  refine h.grow (fun _ hm => hd ▸ hm) (fun _ hm => ha ▸ hm) ?_ (fun c hm => .inl (hc ▸ hm))
    (fun e hm => .inl (hsub.subset (List.mem_cons_of_mem _ hm))) ?_ (fun r hm => .inl (hr ▸ hm)) hs
  · intro id
    have hle := hsub.countP_le (named id)
    have hone := h.once id
    rw [List.countP_cons] at hle
    rw [Rail.places] at hone
    show s'.calls.countP (owes id) + s'.entries.countP (named id) +
      (s'.tasks ++ [_]).countP (fun t : ResumeTask β => named id t.entry) + s'.resumed.countP _ ≤ 1
    rw [hc, ht, hr, List.countP_append, List.countP_singleton]
    dsimp only
    omega
  · intro t hm
    rcases List.mem_append.mp hm with hold | hnew
    · exact .inl (ht ▸ hold)
    · rw [List.mem_singleton] at hnew
      subst hnew
      exact .inr ⟨h.entries entry (hsub.subset List.mem_cons_self), response, hanswers, rfl⟩

/-- It withdraws one that has expired. -/
theorem RailInv.withdrawn (h : RailInv cfg s) {entry : Entry} {expired : List Entry}
    {due : List (List Char)} (hp : s.poller = some (.withdrawing entry expired due)) :
    RailInv cfg ({ s with poller := some (.work expired due) }.spawnResume cfg entry
      (timeoutResponse entry.2.deadlineMs entry.2.decisionToken)) := by
  have hstarted : s.pollerStarted = true := by rw [h.started, hp]; rfl
  refine h.spawnResume rfl rfl rfl rfl rfl ?_ (.inr rfl) hstarted
  show (entry :: (s.pending ++ expired)).Subperm (s.pending ++ _)
  rw [hp]
  exact List.perm_middle.symm.subperm

/-- A new time for an entry keeps its id. -/
theorem reschedule_named (timing : Timing) (pending : List Entry) (correlationId : List Char)
    (now : Nat) (after : Option Nat) (id : List Char) :
    (reschedule timing pending correlationId now after).countP (named id) =
      pending.countP (named id) := by
  rw [reschedule, List.countP_map]
  refine List.countP_congr fun e _ => ?_
  rw [Function.comp_apply]
  split <;> exact Iff.rfl

/-- A poll that leaves the entry in the map changes nothing but its next poll. -/
theorem reschedule_issued {timing : Timing} {pending : List Entry} {correlationId : List Char}
    {now : Nat} {after : Option Nat} (h : ∀ e ∈ pending, Issued cfg s e) :
    ∀ e ∈ reschedule timing pending correlationId now after, Issued cfg s e := by
  intro e he
  obtain ⟨old, hold, rfl⟩ := List.mem_map.mp he
  split
  · exact h old hold
  · exact h old hold

/-- An entry that is removed was there once. -/
theorem removeEntry_found {pending : List Entry} {correlationId : List Char} {entry : Entry}
    (h : pending.find? (fun e => decide (e.1 = correlationId)) = some entry) :
    (entry :: removeEntry pending correlationId).Subperm pending := by
  induction pending with
  | nil => exact nomatch h
  | cons e es ih =>
      rw [List.find?_cons] at h
      rw [removeEntry, List.filter_cons]
      split at h
      · rename_i hid
        cases h
        rw [hid]
        exact ((removeEntry_sublist es correlationId).cons_cons entry).subperm
      · rename_i hid
        rw [hid]
        exact ((List.Perm.swap e entry _).subperm).trans ((List.subperm_cons e).mpr (ih h))

/-- The poller asks for one decision. -/
theorem RailInv.pollOne (h : RailInv cfg s) {correlationId : List Char} {due : List (List Char)}
    (hp : s.poller = some (.polling correlationId due)) (answer : Answer (Option DecisionBody))
    (now : Nat) : RailInv cfg (s.pollOne cfg correlationId due answer now) := by
  have hstarted : s.pollerStarted = true := by rw [h.started, hp]; rfl
  have hentries : s.entries = s.pending := by
    rw [Rail.entries, hp]
    exact List.append_nil _
  have hpending : ∀ e ∈ s.pending, Issued cfg s e := fun e he => h.entries e (hentries ▸ he)
  -- a poll in flight holds no entry
  have hkeep : ∀ s' : Rail β, s'.poller = some (.work [] due) → s'.entries = s'.pending := by
    intro s' hw
    rw [Rail.entries, hw]
    exact List.append_nil _
  have hafter : ∀ after, RailInv cfg { s with
      poller := some (.work [] due)
      pending := reschedule cfg.timing s.pending correlationId now after } := by
    intro after
    refine h.shift rfl rfl rfl rfl rfl ?_ ?_ hstarted
    · rw [hkeep _ rfl]
      exact fun e he => .inr (reschedule_issued hpending e he)
    · intro id
      rw [hkeep _ rfl, hentries, reschedule_named]
  have hremove : RailInv cfg { s with
      poller := some (.work [] due)
      pending := removeEntry s.pending correlationId } := by
    refine h.fewer rfl rfl rfl rfl rfl ?_ hstarted
    rw [hkeep _ rfl, hentries]
    exact (removeEntry_sublist _ _).subperm
  unfold Rail.pollOne
  dsimp only
  split
  · exact hafter none
  · exact hafter (some cfg.timing.backoff)
  · exact hremove
  · exact hremove
  · rename_i decision _
    split
    · refine h.fewer rfl rfl rfl rfl rfl ?_ hstarted
      rw [hkeep _ rfl, hentries]
    · rename_i entry hfind
      refine h.spawnResume rfl rfl rfl rfl rfl ?_ (.inl ⟨decision, rfl⟩) hstarted
      rw [hkeep _ rfl, hentries]
      exact removeEntry_found hfind

/-! ## Tasks -/

/-- A task that is lost. -/
theorem RailInv.loseTask (h : RailInv cfg s) (i : Nat) :
    RailInv cfg { s with tasks := s.tasks.eraseIdx i } := by
  have hsub := List.eraseIdx_sublist s.tasks i
  refine h.grow (List.Subset.refl _) (List.Subset.refl _) ?_ (fun _ hm => .inl hm)
    (fun _ hm => .inl hm) (fun _ hm => .inl (hsub.subset hm)) (fun _ hm => .inl hm) h.started
  intro id
  have hone := h.once id
  have hle := hsub.countP_le (p := fun t => named id t.entry)
  rw [Rail.places] at hone
  show s.calls.countP _ + s.entries.countP _ + (s.tasks.eraseIdx i).countP _ + s.resumed.countP _ ≤ 1
  omega

theorem countP_eraseIdx_add {γ : Type} (p : γ → Bool) {xs : List γ} {i : Nat} {x : γ}
    (hi : xs[i]? = some x) : (xs.eraseIdx i).countP p + (if p x then 1 else 0) = xs.countP p := by
  obtain ⟨hlt, rfl⟩ := List.getElem?_eq_some_iff.mp hi
  rw [← (List.getElem_cons_eraseIdx_perm hlt).countP_eq p, List.countP_cons]

/-- What a task decodes is what it was spawned with. -/
theorem decodeResponse_ok (hwire : ∀ r r', cfg.decode (cfg.encode r) = .ok r' → r' = r)
    {entry : Entry} {response : RuntimeDispatchResponse} {id : List Char} {output : Json}
    (h : decodeResponse cfg entry (cfg.encode response) = .ok (id, output)) :
    id = entry.1 ∧ output = response.entry := by
  have hmap : (cfg.decode (cfg.encode response)).map (fun r => (entry.1, r.entry)) =
      .ok (id, output) := by
    unfold decodeResponse at h
    split at h
    · exact nomatch h
    · split at h
      · exact nomatch h
      · split at h
        · exact nomatch h
        · exact h
  cases hd : cfg.decode (cfg.encode response) with
  | error e =>
      rw [hd] at hmap
      exact nomatch hmap
  | ok r' =>
      rw [hd] at hmap
      cases hmap
      exact ⟨rfl, by rw [hwire _ _ hd]⟩

/-- A task resumes its flow. -/
theorem RailInv.runTask (hwire : ∀ r r', cfg.decode (cfg.encode r) = .ok r' → r' = r)
    (h : RailInv cfg s) {i : Nat} {task : ResumeTask β} (hi : s.tasks[i]? = some task) :
    RailInv cfg (s.runTask cfg i task) := by
  have htask := h.tasks task (List.mem_of_getElem? hi)
  unfold Rail.runTask
  dsimp only
  split
  · split
    · rename_i correlationId output hr hdec
      obtain ⟨hissued, response, hanswers, hbody⟩ := htask
      rw [hbody] at hdec
      obtain ⟨rfl, rfl⟩ := decodeResponse_ok hwire hdec
      have hsub := List.eraseIdx_sublist s.tasks i
      refine h.grow (List.Subset.refl _) (List.Subset.refl _) ?_ (fun _ hm => .inl hm)
        (fun _ hm => .inl hm) (fun _ hm => .inl (hsub.subset hm)) ?_ h.started
      · intro id
        -- the task is gone and the call of the resumer is there
        have hone := h.once id
        have htasks := countP_eraseIdx_add (fun t => named id t.entry) hi
        rw [Rail.places] at hone
        show s.calls.countP _ + s.entries.countP _ + (s.tasks.eraseIdx i).countP _ +
          (s.resumed ++ [_]).countP (fun r : Resumed => decide (r.correlationId = id)) ≤ 1
        rw [List.countP_append, List.countP_singleton]
        have hnamed : named id task.entry = decide (task.entry.1 = id) := rfl
        rw [hnamed] at htasks
        dsimp only
        omega
      · intro r hm
        rcases List.mem_append.mp hm with hold | hnew
        · exact .inl hold
        · rw [List.mem_singleton] at hnew
          subst hnew
          exact .inr ⟨task.entry, response, hissued, hanswers, rfl, rfl, rfl⟩
    · exact h.loseTask i
  · split
    · exact h.loseTask i
    · refine h.grow (List.Subset.refl _) (List.Subset.refl _) ?_ (fun _ hm => .inl hm)
        (fun _ hm => .inl hm) ?_ (fun _ hm => .inl hm) h.started
      · intro id
        have hone := h.once id
        have hset := countP_set_add (fun t => named id t.entry) hi { task with live := true }
        rw [Rail.places] at hone
        show s.calls.countP _ + s.entries.countP _ + (s.tasks.set i _).countP _ +
          s.resumed.countP _ ≤ 1
        dsimp only at hset
        omega
      · intro t hm
        rcases mem_of_set hm with rfl | hold
        · exact .inr htask
        · exact .inl hold

/-! ## Every step -/

/-- Steps of the poller that only change where it is. -/
theorem RailInv.atPoller (h : RailInv cfg s) (hp : s.poller.isSome = true) {p : Poller}
    (hheld : p.held = []) {pending : List Entry} (hpend : pending.Sublist s.pending)
    (resumer : Option Nat) :
    RailInv cfg { s with poller := some p, pending, resumer } := by
  refine h.fewer rfl rfl rfl rfl rfl ?_ (h.started.trans hp)
  show (pending ++ p.held).Subperm (s.pending ++ _)
  rw [hheld, List.append_nil]
  exact (hpend.trans (List.sublist_append_left _ _)).subperm

/-- The poller is gone, with what it held. -/
theorem RailInv.pollerGone (h : RailInv cfg s) :
    RailInv cfg { s with poller := none, pollerStarted := false } := by
  refine h.fewer rfl rfl rfl rfl rfl ?_ rfl
  show (s.pending ++ []).Subperm (s.pending ++ _)
  rw [List.append_nil]
  exact (List.sublist_append_left _ _).subperm

/-- The map is cleared or reordered, the resumer or the token changes. -/
theorem RailInv.rearranged (h : RailInv cfg s) {pending : List Entry}
    (hsub : pending.Subperm s.pending) (resumer : Option Nat) (cancelled : Bool)
    (shutdown : Shutdown) (attaching : List Nat) :
    RailInv cfg { s with pending, resumer, cancelled, shutdown, attaching } :=
  h.fewer rfl rfl rfl rfl rfl ((List.subperm_append_right _).mpr hsub) h.started

/-- A step keeps the invariant: ONE case per label. -/
theorem RailInv.step (hwire : ∀ r r', cfg.decode (cfg.encode r) = .ok r' → r' = r)
    (h : RailInv cfg s) {l : Label} (hf : Fresh s l) (hs : step cfg s l = some s') :
    RailInv cfg s' := by
  cases l with
  | dispatch request =>
      cases hs
      exact h.dispatch hf
  | sent k answer =>
      dsimp only [Approval.step] at hs
      split at hs
      · rename_i hk
        cases hs
        exact h.answerSend hk rfl answer
      · exact nomatch hs
  | register k now =>
      dsimp only [Approval.step] at hs
      split at hs
      · rename_i hk
        cases hs
        exact h.insert hk rfl now
      · exact nomatch hs
  | ensurePoller k =>
      dsimp only [Approval.step] at hs
      split at hs
      · rename_i hk
        cases hs
        exact h.ensurePoller hk
      · exact nomatch hs
  | abandon k =>
      dsimp only [Approval.step] at hs
      split at hs
      · rename_i hk
        cases hs
        exact h.recall hk rfl rfl rfl (List.Subset.refl _) rfl (List.Subperm.refl _)
          ⟨(h.calls _ (List.mem_of_getElem? hk)).1, trivial⟩ (.inr rfl) h.started
      · exact nomatch hs
  | tick now =>
      dsimp only [Approval.step] at hs
      split at hs
      · rename_i hp
        cases hs
        exact h.tick hp now
      · exact nomatch hs
  | next =>
      dsimp only [Approval.step] at hs
      split at hs
      · rename_i hp
        cases hs
        exact h.next hp
      · exact nomatch hs
  | withdrawn =>
      dsimp only [Approval.step] at hs
      split at hs
      · rename_i hp
        cases hs
        exact h.withdrawn hp
      · exact nomatch hs
  | polled answer now =>
      dsimp only [Approval.step] at hs
      split at hs
      · rename_i hp
        cases hs
        exact h.pollOne hp answer now
      · exact nomatch hs
  | wake =>
      dsimp only [Approval.step] at hs
      split at hs
      · rename_i hp
        cases hs
        exact h.atPoller (by rw [hp]; rfl) rfl (List.Sublist.refl _) _
      · exact nomatch hs
  | leave =>
      dsimp only [Approval.step] at hs
      split at hs
      · rename_i hp
        cases hs
        exact h.atPoller (by rw [hp]; rfl) rfl (List.nil_sublist _) _
      · rename_i hp
        cases hs
        exact h.atPoller (by rw [hp]; rfl) rfl (List.Sublist.refl _) _
      · cases hs
        exact h.pollerGone
      · exact nomatch hs
  | panic =>
      dsimp only [Approval.step] at hs
      split at hs
      · cases hs
        exact h.pollerGone
      · exact nomatch hs
  | runTask i =>
      obtain ⟨task, hi, rfl⟩ := Option.map_eq_some_iff.mp hs
      exact h.runTask hwire hi
  | loseTask i =>
      dsimp only [Approval.step] at hs
      split at hs
      · cases hs
        exact h.loseTask i
      · exact nomatch hs
  | reorder i =>
      obtain ⟨e, hi, rfl⟩ := Option.map_eq_some_iff.mp hs
      obtain ⟨hlt, rfl⟩ := List.getElem?_eq_some_iff.mp hi
      exact h.rearranged (List.getElem_cons_eraseIdx_perm hlt).subperm _ _ _ _
  | attach n =>
      dsimp only [Approval.step] at hs
      split at hs
      · exact nomatch hs
      · cases hs
        exact h.rearranged (List.Subperm.refl _) _ _ _ _
  | attached i =>
      obtain ⟨n, _, rfl⟩ := Option.map_eq_some_iff.mp hs
      exact h.rearranged (List.Subperm.refl _) _ _ _ _
  | shutdown =>
      dsimp only [Approval.step] at hs
      split at hs
      · cases hs
        exact h.rearranged (List.Subperm.refl _) _ _ _ _
      · cases hs
        exact h.rearranged (List.nil_sublist _).subperm _ _ _ _
      · cases hs
        exact h.rearranged (List.Subperm.refl _) _ _ _ _
      · exact nomatch hs
  | cancel =>
      cases hs
      exact h.rearranged (List.Subperm.refl _) _ _ _ _
  | clear =>
      dsimp only [Approval.step] at hs
      split at hs
      · cases hs
        exact h.rearranged (List.nil_sublist _).subperm _ _ _ _
      · exact nomatch hs
  | dropResumer =>
      dsimp only [Approval.step] at hs
      split at hs
      · cases hs
        exact h.rearranged (List.Subperm.refl _) _ _ _ _
      · exact nomatch hs

theorem RailInv.new : RailInv cfg (Rail.new : Rail β) := by
  constructor
  · exact fun _ => Nat.zero_le 1
  all_goals first | rfl | (intro x hx; exact nomatch hx)

/-! ## At most once, with its own token -/

/-- A decision carries its token. -/
theorem decisionResponse_token (decision : DecisionBody) (token : Option String) :
    fromResponse (decisionResponse decision token).entry = token := by
  cases token with
  | none => rfl
  | some token => rfl

/-- So does a timeout. -/
theorem timeoutResponse_token (deadlineMs : Nat) (token : Option String) :
    fromResponse (timeoutResponse deadlineMs token).entry = token := by
  cases token with
  | none => rfl
  | some token => rfl

/-- EACH APPROVAL IS RESUMED AT MOST ONCE, AND ONLY AS ITSELF: in every run whose dispatches have
    different correlation ids, the resumer is called at most once for each id; every call is the
    decision or the timeout of an acknowledged dispatch, under the tenant of that dispatch and with
    the token held for it; and every resume that was spawned is of an acknowledged dispatch. -/
theorem flow_resumed_once (hwire : ∀ r r', cfg.decode (cfg.encode r) = .ok r' → r' = r)
    (h : Reach (Approval.step cfg) Fresh Rail.new s) :
    (∀ id, s.resumed.countP (fun r => decide (r.correlationId = id)) ≤ 1) ∧
    (∀ r ∈ s.resumed, ∃ d ∈ s.dispatched, d.correlationId = r.correlationId ∧
      d.correlationId ∈ s.acknowledged ∧ r.tenant = ⟨d.env, d.tenant, none⟩ ∧
      fromResponse r.output = d.decisionToken ∧
      ((∃ decision, r.output = (decisionResponse decision d.decisionToken).entry) ∨
        r.output = (timeoutResponse (effectiveDeadline d.deadlineMs cfg.timing.maxWait).1
          d.decisionToken).entry)) ∧
    (∀ t ∈ s.tasks, ∃ d ∈ s.dispatched, d.correlationId = t.entry.1 ∧
      d.correlationId ∈ s.acknowledged) := by
  have hinv : RailInv cfg s := h.inv RailInv.new fun _ _ _ hi hf hs => hi.step hwire hf hs
  refine ⟨?_, ?_, ?_⟩
  · intro id
    have hone := hinv.once id
    rw [Rail.places] at hone
    omega
  · intro r hr
    obtain ⟨entry, response, ⟨d, hd, hid, -, hack, htenant, htoken, hms⟩, hanswers, hrid, hrt, hout⟩ :=
      hinv.resumed r hr
    refine ⟨d, hd, hid.trans hrid.symm, hid ▸ hack, hrt.trans htenant, ?_, ?_⟩
    · rw [hout, ← htoken]
      rcases hanswers with ⟨decision, rfl⟩ | rfl
      · exact decisionResponse_token decision _
      · exact timeoutResponse_token _ _
    · rw [hout, ← htoken, ← hms]
      exact hanswers.imp (fun ⟨decision, heq⟩ => ⟨decision, by rw [heq]⟩) (fun heq => by rw [heq])
  · intro t ht
    obtain ⟨⟨d, hd, hid, -, hack, -⟩, -⟩ := hinv.tasks t ht
    exact ⟨d, hd, hid, hid ▸ hack⟩

end Kept

/-! ## Two approvals -/

instance (s : Rail β) (l : Label) : Decidable (Fresh s l) := by
  cases l with
  | dispatch request => exact inferInstanceAs (Decidable (∀ r ∈ s.dispatched, _ ≠ _))
  | _ => exact .isTrue trivial

/-- The default timing, identifiers that are all valid, and responses that are their own wire
    form. -/
def plainConfig : Config RuntimeDispatchResponse where
  timing := .default
  ids := ⟨fun _ => none, fun _ => none⟩
  statusText := toString
  encode := id
  decode := .ok

/-- A refund that waits for an approval. -/
def refundRequest : RemoteDispatch where
  tenant := "acme"
  env := "prod"
  runtime := approvalRuntime
  target := "refund"
  operation := "approve"
  await := true
  correlationId := ['r', '1']
  input := .null
  deadlineMs := none
  decisionToken := some "tok"

/-- A payout that waits three seconds for one. -/
def payoutRequest : RemoteDispatch :=
  { refundRequest with
    target := "payout"
    correlationId := ['r', '2']
    deadlineMs := some 3000
    decisionToken := some "late" }

/-- The refund is filed at the second attempt, the payout after it.  The payout expires, the refund
    is polled twice, approved, and both flows are resumed. -/
def twoApprovals : List Label :=
  [.attach 0, .attached 0, .dispatch refundRequest, .sent 0 (.transport "connection refused"),
    .sent 0 (.status 201 ""), .dispatch payoutRequest, .register 0 0, .ensurePoller 0,
    .sent 1 (.status 201 ""), .register 1 100, .ensurePoller 1, .tick 5100, .next, .withdrawn, .next,
    .polled (.status 204 none) 5100, .next, .wake, .tick 20000, .next,
    .polled (.status 200 (some ⟨true, none, none⟩)) 20010, .runTask 0, .runTask 0, .runTask 0,
    .runTask 0]

theorem flow_resumed_once_two : ∃ s, Reach (step plainConfig) Fresh Rail.new s ∧
    s.resumed.map (fun r => (r.correlationId, fromResponse r.output)) =
      [(['r', '2'], some "late"), (['r', '1'], some "tok")] ∧
    (∀ id, s.resumed.countP (fun r => decide (r.correlationId = id)) ≤ 1) ∧
    ∀ r ∈ s.resumed, ∃ d ∈ s.dispatched, d.correlationId = r.correlationId ∧
      d.correlationId ∈ s.acknowledged ∧ fromResponse r.output = d.decisionToken := by
  have hrun : ∃ s, Reach (step plainConfig) Fresh Rail.new s ∧
      (s.resumed.map (fun r => (r.correlationId, fromResponse r.output)) ==
        [(['r', '2'], some "late"), (['r', '1'], some "tok")]) = true :=
    Reach.of_test twoApprovals (by decide +kernel)
  obtain ⟨s, hs, ht⟩ := hrun
  obtain ⟨honce, hown, -⟩ := flow_resumed_once (fun r r' h => (Except.ok.inj h).symm) hs
  refine ⟨s, hs, beq_iff_eq.mp ht, honce, ?_⟩
  intro r hr
  obtain ⟨d, hd, hid, hack, -, htoken, -⟩ := hown r hr
  exact ⟨d, hd, hid, hack, htoken⟩

end Greentic.Approval
