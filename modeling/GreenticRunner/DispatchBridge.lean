import GreenticRunner.AgentModel
import GreenticRunner.RecencyTable

/-! # The event bridge of the agent service

    `aw-event-bridge`: one request message is decoded, handed to the agent
    runtime and answered, and the durable consumer SETTLES it — acks it,
    terminates it or asks for another delivery.

    * `busyPolicy`, `settlement`, `settleDelivery`, `handleOne` — one delivery;
    * `handleMessageOutcome_cases`, `settleDelivery_error`, `handleOne_answered` —
      what each of them can do.

    Durations are nanoseconds.  The `saturating` operations of the source only
    differ from these above 500 years, beyond every bound they are compared to. -/

namespace Greentic.Bridge

open RecencyTable

/-! ## Messages -/

/-- A core NATS message: its headers and payload. -/
structure Message where
  header : String → Option String
  payload : List UInt8

/-- `RuntimeDispatchRequest`, by what the bridge reads. -/
structure RuntimeDispatchRequest where
  target : String
  operation : String
  input : Json

/-- `DispatchError`. -/
structure DispatchError where
  code : String
  message : String

/-- `RuntimeDispatchResponse`. -/
structure RuntimeDispatchResponse where
  ok : Bool
  output : Json
  events : List Json
  error : Option DispatchError

/-- `InvokeOutcome`. -/
structure InvokeOutcome where
  ok : Bool
  output : Json
  events : List Json
  error : Option DispatchError

/-- A response on the wire: its correlation and scope headers and its body. -/
structure Published where
  correlation : Option String
  scope : Option (String × String)
  response : RuntimeDispatchResponse

/-- `Rejection`. -/
structure Rejection where
  code : String
  message : String

/-- `ParsedRequest`. -/
structure ParsedRequest where
  tenant : String
  env : String
  correlation : Option String
  idempotency : Option String
  dispatchId : Option String
  request : RuntimeDispatchRequest

/-- An `anyhow::Error`: whether it is a `LockContention`, its text, and the texts
    of its causes. -/
structure ErrorChain where
  lockContention : Bool
  text : String
  causes : List String

/-! ## Headers -/

/-- `MAX_SCOPE_ID_LEN`. -/
def maxScopeIdLen : Nat := 128

def correlationHeader : String := "Greentic-Correlation-Id"

def tenantHeader : String := "Greentic-Tenant"

def envHeader : String := "Greentic-Env"

/-- `validate_scope_id` of the bridge. -/
def validateScopeId (kind value : String) : Except Rejection Unit :=
  let bad := value.isEmpty || maxScopeIdLen < value.utf8ByteSize || Aw.hasDots value.toList
    || value.toList.any fun c => c == ':' || c == '/' || c == '\\' || Aw.isControl c
      || Aw.isWhitespace c
  if bad then .error ⟨"invalid_request", "invalid " ++ kind ++ " id"⟩ else .ok ()

/-- `is_echoable_scope_id`. -/
def isEchoableScopeId (value : String) : Bool :=
  !value.isEmpty && value.utf8ByteSize ≤ maxScopeIdLen
    && value.toList.all fun c => Aw.isAsciiAlphanumeric c || c == '.' || c == '_' || c == '-'

/-- The environment of a request: a blank header is an absent one. -/
def envOr (env : Option String) : String :=
  (env.filter fun value => !(Aw.trim value.toList).isEmpty).getD "default"

/-- `response_scope`. -/
def responseScope (tenant env : Option String) : Option (String × String) :=
  match tenant with
  | none => none
  | some tenant =>
      if isEchoableScopeId tenant && isEchoableScopeId (envOr env) then some (tenant, envOr env)
      else none

/-- `parse_request`; `decode` is `serde_json::from_slice`. -/
def parseRequest (decode : List UInt8 → Except String RuntimeDispatchRequest) (msg : Message) :
    Except Rejection ParsedRequest := do
  let correlation := msg.header correlationHeader
  let idempotency := (msg.header "Greentic-Idempotency-Key").or correlation
  let dispatchId := (msg.header "Greentic-Dispatch-Id").filter Aw.validDispatchId
  let tenant := (msg.header tenantHeader).getD ""
  let env := envOr (msg.header envHeader)
  validateScopeId "tenant" tenant
  validateScopeId "env" env
  match decode msg.payload with
  | .error e => .error ⟨"invalid_request", "malformed dispatch request: " ++ e⟩
  | .ok request => .ok ⟨tenant, env, correlation, idempotency, dispatchId, request⟩

/-! ## One handling -/

/-- `LOCK_CONTENTION_MARKER`. -/
def lockContentionMarker : String := "session lock could not be acquired"

/-- `STATE_UNAVAILABLE_MARKER`. -/
def stateUnavailableMarker : String := "agent state temporarily unavailable"

/-- `str::contains`. -/
def contains (text pattern : String) : Bool := decide (pattern.toList <:+: text.toList)

/-- A text of an error chain carries one of the two markers. -/
def marked (text : String) : Bool :=
  contains text lockContentionMarker || contains text stateUnavailableMarker

/-- `is_lock_contention`. -/
def isLockContention (error : ErrorChain) : Bool :=
  error.lockContention || (error.text :: error.causes).any marked

/-- `BusyPolicy`. -/
inductive BusyPolicy where
  | redeliver
  | respond
  deriving DecidableEq

/-- `Disposition`. -/
inductive Disposition where
  | handled
  | busy
  | rejected
  deriving DecidableEq

/-- `error_response`. -/
def errorResponse (code message : String) : RuntimeDispatchResponse :=
  ⟨false, .null, [], some ⟨code, message⟩⟩

/-- `failure_response`. -/
def failureResponse (error : ErrorChain) : RuntimeDispatchResponse :=
  errorResponse (if isLockContention error then "session_busy" else "invoke_failed") error.text

/-- `publish_response`, with the answer of the publish. -/
def publishResponse (sent : Except String Unit) (disposition : Disposition) (p : Published) :
    Except String Disposition × List Published :=
  match sent with
  | .ok _ => (.ok disposition, [p])
  | .error e => (.error e, [])

/-- `handle_message_outcome`: the result and the responses published.  `invoked`
    is what the invoker answers, `sent` what the publish of the response does. -/
def handleMessageOutcome (decode : List UInt8 → Except String RuntimeDispatchRequest)
    (msg : Message) (invoked : ParsedRequest → Except ErrorChain InvokeOutcome)
    (sent : Except String Unit) (busy : BusyPolicy) :
    Except String Disposition × List Published :=
  match parseRequest decode msg with
  | .error rejection =>
      match msg.header correlationHeader with
      | none => (.ok .rejected, [])
      | some correlation =>
          publishResponse sent .rejected
            ⟨some correlation, responseScope (msg.header tenantHeader) (msg.header envHeader),
              errorResponse rejection.code rejection.message⟩
  | .ok parsed =>
      match invoked parsed with
      | .ok outcome =>
          publishResponse sent .handled
            ⟨parsed.correlation, some (parsed.tenant, parsed.env),
              ⟨outcome.ok, outcome.output, outcome.events, outcome.error⟩⟩
      | .error error =>
          if isLockContention error && busy == .redeliver then (.ok .busy, [])
          else
            publishResponse sent .handled
              ⟨parsed.correlation, some (parsed.tenant, parsed.env), failureResponse error⟩

/-- `publish_error_for_message`, when its publish succeeds. -/
def publishErrorForMessage (msg : Message) (code message : String) : List Published :=
  match msg.header correlationHeader with
  | none => []
  | some correlation =>
      [⟨some correlation, responseScope (msg.header tenantHeader) (msg.header envHeader),
        errorResponse code message⟩]

/-! ## Settlement -/

/-- One second. -/
def second : Nat := 1000000000

/-- `MAX_DELIVER`. -/
def maxDeliver : Nat := 6

/-- `CONSUMER_MAX_DELIVER`. -/
def consumerMaxDeliver : Nat := 100

/-- `ERROR_ATTEMPTS_CAP`. -/
def errorAttemptsCap : Nat := 4096

/-- `AckKind`, as far as a settlement uses it. -/
inductive AckKind where
  | ack
  | nak (delay : Nat)
  | term
  deriving DecidableEq

/-- `busy_redeliver_delay`: 5 s, doubled on each further delivery, up to 60 s. -/
def busyRedeliverDelay (delivered : Nat) : Nat :=
  min (5 * second * 2 ^ min (delivered - 1) 16) (60 * second)

/-- `handle_timeout_for`. -/
def handleTimeoutFor (stepTimeout : Option Nat) : Nat :=
  match stepTimeout with
  | none => 240 * second
  | some step => max (240 * second) (min (step + 5 * second + 30 * second) (30 * 60 * second))

/-- `busy_budget`. -/
def busyBudget (stepTimeout : Option Nat) : Nat := handleTimeoutFor stepTimeout + 60 * second

/-- `busy_policy`. -/
def busyPolicy (delivered age budget : Nat) : BusyPolicy :=
  if consumerMaxDeliver - 1 ≤ delivered ∨ budget < age + busyRedeliverDelay delivered then .respond
  else .redeliver

/-- `settlement`. -/
def settlement (result : Except String Disposition) (delivered errorAttempts : Nat) : AckKind :=
  match result with
  | .ok .handled => .ack
  | .ok .busy => .nak (busyRedeliverDelay delivered)
  | .ok .rejected => .term
  | .error _ =>
      if maxDeliver ≤ errorAttempts ∨ consumerMaxDeliver ≤ delivered then .term
      else .nak (2 * second)

/-- The failed attempts a settlement counts with, and the table that counts them:
    without a sequence to count under, the delivery is the last one. -/
def errorAttempt (table : Table Nat) (result : Except String Disposition)
    (sequence : Option Nat) : Nat × Table Nat :=
  match result, sequence with
  | .error _, some sequence =>
      ((table.record errorAttemptsCap sequence).count sequence,
        table.record errorAttemptsCap sequence)
  | .error _, none => (maxDeliver, table)
  | .ok _, _ => (0, table)

/-- `settle_delivery`. -/
def settleDelivery (table : Table Nat) (result : Except String Disposition)
    (sequence : Option Nat) (delivered : Nat) : AckKind × Table Nat :=
  let attempt := errorAttempt table result sequence
  match settlement result delivered attempt.1, sequence with
  | .nak delay, _ => (.nak delay, attempt.2)
  | kind, some sequence => (kind, attempt.2.clear sequence)
  | kind, none => (kind, attempt.2)

/-- The delivery metadata of a message. -/
structure Info where
  delivered : Nat
  sequence : Nat
  age : Nat

/-- How the handler of a delivery ended: in time, or cut off by its bound after
    it may have published a response. -/
inductive Handling where
  | finished (invoked : ParsedRequest → Except ErrorChain InvokeOutcome)
      (sent : Except String Unit)
  | elapsed (published : List Published)

/-- What a delivery did: the responses, the settlement, the table after it. -/
structure Delivered where
  result : Except String Disposition
  responses : List Published
  kind : AckKind
  table : Table Nat

/-- A number with a fraction of `unit`, without its trailing zeros. -/
def decimal (whole fraction unit : Nat) (suffix : String) : String :=
  let digits := (toString (unit + fraction)).toList.tail.rdropWhile (· == '0')
  if digits.isEmpty then toString whole ++ suffix
  else toString whole ++ "." ++ String.ofList digits ++ suffix

/-- `Debug` of a duration. -/
def debugDuration (d : Nat) : String :=
  if second ≤ d then decimal (d / second) (d % second) second "s"
  else if 1000000 ≤ d then decimal (d / 1000000) (d % 1000000) 1000000 "ms"
  else if 1000 ≤ d then decimal (d / 1000) (d % 1000) 1000 "µs"
  else toString d ++ "ns"

/-- The result of the handler under its time bound.  A cut off handler is
    answered and never run again. -/
def boundedResult (decode : List UInt8 → Except String RuntimeDispatchRequest) (msg : Message)
    (handling : Handling) (busy : BusyPolicy) (bound : Nat) :
    Except String Disposition × List Published :=
  match handling with
  | .finished invoked sent => handleMessageOutcome decode msg invoked sent busy
  | .elapsed published =>
      (.ok .rejected, published ++ publishErrorForMessage msg "timeout"
        ("agent request handling exceeded " ++ debugDuration bound))

/-- What a delivery is settled with. -/
structure Metadata where
  delivered : Nat
  sequence : Option Nat
  age : Nat

/-- The metadata of a delivery; where it cannot be read, the budget counts as
    spent. -/
def deliveryInfo (info : Option Info) : Metadata :=
  match info with
  | some info => ⟨info.delivered, some info.sequence, info.age⟩
  | none => ⟨consumerMaxDeliver, none, 0⟩

/-- The error response of a last delivery that failed (`publish_final_error`). -/
def finalError (msg : Message) (result : Except String Disposition) (kind : AckKind) :
    List Published :=
  match result, kind with
  | .error e, .term =>
      publishErrorForMessage msg "invoke_failed" ("agent request could not be completed: " ++ e)
  | _, _ => []

/-- The handling of a delivery under the busy policy its age and count give. -/
def handled (decode : List UInt8 → Except String RuntimeDispatchRequest) (msg : Message)
    (m : Metadata) (stepTimeout : Option Nat) (handling : Handling) :
    Except String Disposition × List Published :=
  boundedResult decode msg handling (busyPolicy m.delivered m.age (busyBudget stepTimeout))
    (handleTimeoutFor stepTimeout)

/-- `handle_one`. -/
def handleOne (decode : List UInt8 → Except String RuntimeDispatchRequest) (msg : Message)
    (table : Table Nat) (info : Option Info) (stepTimeout : Option Nat) (handling : Handling) :
    Delivered :=
  let m := deliveryInfo info
  let outcome := handled decode msg m stepTimeout handling
  let settled := settleDelivery table outcome.1 m.sequence m.delivered
  ⟨outcome.1, outcome.2 ++ finalError msg outcome.1 settled.1, settled.1, settled.2⟩

/-! ## What a delivery can do -/

/-- A response that echoes the correlation id was published. -/
def Answered (correlation : String) (responses : List Published) : Prop :=
  ∃ p ∈ responses, p.correlation = some correlation

theorem parseRequest_correlation {decode : List UInt8 → Except String RuntimeDispatchRequest}
    {msg : Message} {parsed : ParsedRequest} (h : parseRequest decode msg = .ok parsed) :
    parsed.correlation = msg.header correlationHeader := by
  unfold parseRequest at h
  dsimp only at h
  cases htenant : validateScopeId "tenant" ((msg.header tenantHeader).getD "") with
  | error e =>
      rw [htenant] at h
      exact nomatch h
  | ok _ =>
      cases henv : validateScopeId "env" (envOr (msg.header envHeader)) with
      | error e =>
          rw [htenant, henv] at h
          exact nomatch h
      | ok _ =>
          rw [htenant, henv] at h
          cases hdecode : decode msg.payload with
          | error e =>
              rw [hdecode] at h
              exact nomatch h
          | ok request =>
              rw [hdecode] at h
              cases h
              rfl

/-- A publish answers the request or fails the handling. -/
theorem publishResponse_cases (sent : Except String Unit) (d : Disposition) (p : Published) :
    publishResponse sent d p = (.ok d, [p]) ∨ ∃ e, publishResponse sent d p = (.error e, []) := by
  cases sent with
  | ok _ => exact Or.inl rfl
  | error e => exact Or.inr ⟨e, rfl⟩

section

variable (decode : List UInt8 → Except String RuntimeDispatchRequest) {msg : Message}
  {correlation : String}

/-- A handling ends busy, under the policy that allows it and with nothing
    published; it fails; or it has answered the request. -/
theorem handleMessageOutcome_cases
    (invoked : ParsedRequest → Except ErrorChain InvokeOutcome) (sent : Except String Unit)
    (busy : BusyPolicy) (hc : msg.header correlationHeader = some correlation) :
    (busy = .redeliver ∧ handleMessageOutcome decode msg invoked sent busy = (.ok .busy, []))
      ∨ (∃ e, (handleMessageOutcome decode msg invoked sent busy).1 = .error e)
      ∨ (∃ d, d ≠ .busy ∧ (handleMessageOutcome decode msg invoked sent busy).1 = .ok d
        ∧ Answered correlation (handleMessageOutcome decode msg invoked sent busy).2) := by
  have hpublish : ∀ (d : Disposition) (p : Published), d ≠ .busy →
      p.correlation = some correlation →
      (∃ e, (publishResponse sent d p).1 = .error e)
        ∨ ∃ d', d' ≠ .busy ∧ (publishResponse sent d p).1 = .ok d'
          ∧ Answered correlation (publishResponse sent d p).2 := by
    intro d p hd hp
    rcases publishResponse_cases sent d p with h | ⟨e, h⟩
    · rw [h]
      exact Or.inr ⟨d, hd, rfl, p, List.mem_singleton.mpr rfl, hp⟩
    · rw [h]
      exact Or.inl ⟨e, rfl⟩
  unfold handleMessageOutcome
  cases hparse : parseRequest decode msg with
  | error rejection =>
      simp only [hc]
      exact Or.inr (hpublish _ _ (by decide) rfl)
  | ok parsed =>
      have hecho : parsed.correlation = some correlation := by
        rw [parseRequest_correlation hparse, hc]
      cases hinvoked : invoked parsed with
      | ok outcome =>
          simp only [hinvoked]
          exact Or.inr (hpublish _ _ (by decide) hecho)
      | error error =>
          simp only [hinvoked]
          by_cases hbusy : (isLockContention error && busy == .redeliver) = true
          · rw [if_pos hbusy]
            refine Or.inl ⟨?_, rfl⟩
            exact eq_of_beq (Bool.and_eq_true_iff.mp hbusy).2
          · rw [if_neg hbusy]
            exact Or.inr (hpublish _ _ (by decide) hecho)

theorem publishErrorForMessage_answered (code message : String)
    (hc : msg.header correlationHeader = some correlation) :
    Answered correlation (publishErrorForMessage msg code message) := by
  unfold publishErrorForMessage
  rw [hc]
  exact ⟨_, List.mem_singleton.mpr rfl, rfl⟩

theorem Answered.left {xs ys : List Published} (h : Answered correlation xs) :
    Answered correlation (xs ++ ys) := by
  obtain ⟨p, hp, he⟩ := h
  exact ⟨p, List.mem_append_left ys hp, he⟩

theorem Answered.right {xs ys : List Published} (h : Answered correlation ys) :
    Answered correlation (xs ++ ys) := by
  obtain ⟨p, hp, he⟩ := h
  exact ⟨p, List.mem_append_right xs hp, he⟩

/-- The same under the time bound. -/
theorem boundedResult_cases (handling : Handling) (busy : BusyPolicy) (bound : Nat)
    (hc : msg.header correlationHeader = some correlation) :
    (busy = .redeliver ∧ (boundedResult decode msg handling busy bound).1 = .ok .busy)
      ∨ (∃ e, (boundedResult decode msg handling busy bound).1 = .error e)
      ∨ (∃ d, d ≠ .busy ∧ (boundedResult decode msg handling busy bound).1 = .ok d
        ∧ Answered correlation (boundedResult decode msg handling busy bound).2) := by
  cases handling with
  | finished invoked sent =>
      show (_ ∧ (handleMessageOutcome decode msg invoked sent busy).1 = _) ∨ _
      rcases handleMessageOutcome_cases decode invoked sent busy hc with
        ⟨hbusy, h⟩ | h
      · exact Or.inl ⟨hbusy, by rw [h]⟩
      · exact Or.inr h
  | elapsed published =>
      refine Or.inr (Or.inr ⟨.rejected, by decide, rfl, ?_⟩)
      exact (publishErrorForMessage_answered _ _ hc).right

/-- A busy session is only handed back while a further delivery is allowed. -/
theorem busyPolicy_redeliver {delivered age budget : Nat}
    (h : busyPolicy delivered age budget = .redeliver) : delivered + 1 < consumerMaxDeliver := by
  unfold busyPolicy at h
  split at h
  · exact nomatch h
  · rename_i hnot
    have hlt : ¬ consumerMaxDeliver - 1 ≤ delivered := fun hle => hnot (Or.inl hle)
    omega

/-- A failed handling is terminated and forgotten, or counted and handed back. -/
theorem settleDelivery_error (table : Table Nat) (e : String) (sequence : Option Nat)
    (delivered : Nat) :
    ((settleDelivery table (.error e) sequence delivered).1 = .term
        ∧ ∀ j, (settleDelivery table (.error e) sequence delivered).2.count j ≤ table.count j)
      ∨ ∃ seq, sequence = some seq ∧ delivered < consumerMaxDeliver
        ∧ (table.record errorAttemptsCap seq).count seq < maxDeliver
        ∧ settleDelivery table (.error e) sequence delivered
          = (.nak (2 * second), table.record errorAttemptsCap seq) := by
  cases sequence with
  | none => exact Or.inl ⟨rfl, fun j => Nat.le_refl _⟩
  | some seq =>
      unfold settleDelivery errorAttempt settlement
      dsimp only
      by_cases hlast : maxDeliver ≤ (table.record errorAttemptsCap seq).count seq
          ∨ consumerMaxDeliver ≤ delivered
      · rw [if_pos hlast]
        refine Or.inl ⟨rfl, ?_⟩
        intro j
        show ((table.record errorAttemptsCap seq).clear seq).count j ≤ _
        by_cases hj : j = seq
        · rw [hj, Table.count_clear_self]
          exact Nat.zero_le _
        · rw [Table.count_clear_ne _ hj]
          exact Table.count_record_le _ _ hj
      · rw [if_neg hlast]
        rw [not_or, Nat.not_le, Nat.not_le] at hlast
        exact Or.inr ⟨seq, rfl, hlast.2, hlast.1, rfl⟩

/-- Any other handling: a busy one is handed back and changes no count, the rest
    is settled for good. -/
theorem settleDelivery_ok (table : Table Nat) (d : Disposition) (sequence : Option Nat)
    (delivered : Nat) :
    (d = .busy ∧ settleDelivery table (.ok d) sequence delivered
        = (.nak (busyRedeliverDelay delivered), table))
      ∨ ((∀ delay, (settleDelivery table (.ok d) sequence delivered).1 ≠ .nak delay)
        ∧ ∀ j, (settleDelivery table (.ok d) sequence delivered).2.count j ≤ table.count j) := by
  have hclear : ∀ seq j, (table.clear seq).count j ≤ table.count j := by
    intro seq j
    by_cases hj : j = seq
    · rw [hj, Table.count_clear_self]
      exact Nat.zero_le _
    · rw [Table.count_clear_ne _ hj]
  cases d with
  | busy =>
      refine Or.inl ⟨rfl, ?_⟩
      cases sequence <;> rfl
  | handled =>
      refine Or.inr ?_
      cases sequence with
      | none => exact ⟨(fun _ h => nomatch h), fun j => Nat.le_refl _⟩
      | some seq => exact ⟨(fun _ h => nomatch h), fun j => hclear seq j⟩
  | rejected =>
      refine Or.inr ?_
      cases sequence with
      | none => exact ⟨(fun _ h => nomatch h), fun j => Nat.le_refl _⟩
      | some seq => exact ⟨(fun _ h => nomatch h), fun j => hclear seq j⟩

/-- **ONE DELIVERY** asks for another one only while there is one, or it has
    answered the request. -/
theorem handleOne_answered (table : Table Nat) (info : Option Info) (stepTimeout : Option Nat)
    (handling : Handling) (hc : msg.header correlationHeader = some correlation) :
    ((handleOne decode msg table info stepTimeout handling).result = .ok .busy
        ∧ (deliveryInfo info).delivered + 1 < consumerMaxDeliver)
      ∨ ((handleOne decode msg table info stepTimeout handling).result ≠ .ok .busy
        ∧ (∃ delay, (handleOne decode msg table info stepTimeout handling).kind = .nak delay)
        ∧ (deliveryInfo info).delivered < consumerMaxDeliver)
      ∨ ((handleOne decode msg table info stepTimeout handling).result ≠ .ok .busy
        ∧ Answered correlation (handleOne decode msg table info stepTimeout handling).responses) := by
  unfold handleOne
  dsimp only
  rcases boundedResult_cases decode handling
    (busyPolicy (deliveryInfo info).delivered (deliveryInfo info).age (busyBudget stepTimeout))
    (handleTimeoutFor stepTimeout) hc with ⟨hbusy, hres⟩ | ⟨e, hres⟩ | ⟨d, hd, hres, hans⟩
  · exact Or.inl ⟨hres, busyPolicy_redeliver hbusy⟩
  · -- a failed handling is answered exactly when it is terminated
    have hres' : (handled decode msg (deliveryInfo info) stepTimeout handling).1 = .error e := hres
    have hnot : (Except.error e : Except String Disposition) ≠ .ok .busy := by
      rintro ⟨⟩
    rw [hres']
    rcases settleDelivery_error table e (deliveryInfo info).sequence (deliveryInfo info).delivered
      with ⟨hterm, -⟩ | ⟨seq, -, hlt, -, hnak⟩
    · refine Or.inr (Or.inr ⟨hnot, ?_⟩)
      rw [hterm]
      exact (publishErrorForMessage_answered _ _ hc).right
    · refine Or.inr (Or.inl ⟨hnot, ⟨2 * second, ?_⟩, hlt⟩)
      rw [hnak]
  · have hres' : (handled decode msg (deliveryInfo info) stepTimeout handling).1 = .ok d := hres
    refine Or.inr (Or.inr ⟨?_, hans.left⟩)
    rw [hres']
    rintro ⟨⟩
    exact hd rfl

end

end Greentic.Bridge
