import GreenticRunner.AddressGuard
import GreenticRunner.AgentModel
import GreenticRunner.History
import GreenticRunner.Transition

/-! # The worker usage meter

    Every iteration of a model gives one event, and the meter posts it to the admin without waiting.  The
    posts run on their own tasks, and each part of a delivery that reads or writes shared state is a step:

    * `usage_accounted` — no event leaves the books, and at most `MAX_IN_FLIGHT` posts are under way;
    * `suspension_exact` — a delivery is turned away at the door exactly while the window of an earlier failure
      lasts, and no window is longer than `REJECTION_MAX`;
    * `dead_admin_rate` — an admin that only fails is asked at most `MAX_IN_FLIGHT` times in a window. -/

namespace Greentic.WorkerUsage

open Aw (trim)
open History Transition

/-! ## The target -/

def TURN_SURFACE : String := "turn"

def SECOND : Nat := 1000000000

def AUTH_SUSPENSION : Nat := 300 * SECOND

def MAX_RETRY_AFTER : Nat := 300 * SECOND

def DEFAULT_RETRY_AFTER : Nat := 60 * SECOND

def TRANSIENT_SUSPENSION : Nat := 30 * SECOND

def MAX_FIELD_BYTES : Nat := 256

def MAX_IN_FLIGHT : Nat := 32

def REJECTION_STREAK : Nat := 5

def REJECTION_BASE : Nat := 60 * SECOND

def REJECTION_MAX : Nat := 1800 * SECOND

structure WorkerUsageTarget where
  endpoint : String
  token : String
  tenantSlug : String
  deploymentId : String
  bundleId : String

inductive WorkerUsageError where
  | blank (field : String)
  | tooLong (field : String)
  | unsafeEndpoint (endpoint : String)
  | client (reason : String)

/-- `url::Host`. -/
inductive UrlHost where
  | domain (domain : String)
  | ip (ip : NetGuard.IpAddr)

/-- What the meter reads of a parsed URL. -/
structure Url where
  scheme : String
  host : Option UrlHost

/-- The text without the space around it. -/
def trimmed (value : String) : String := String.ofList (trim value.toList)

/-- What the admin takes as an id. -/
def IsId (id : String) : Prop := id ≠ "" ∧ id.utf8ByteSize ≤ MAX_FIELD_BYTES

abbrev Id := { id : String // IsId id }

def required (field value : String) : Except WorkerUsageError { v : String // v ≠ "" } :=
  if h : trimmed value = "" then .error (.blank field) else .ok ⟨trimmed value, h⟩

def requiredId (field value : String) : Except WorkerUsageError Id :=
  match required field value with
  | .error e => .error e
  | .ok v => if h : v.1.utf8ByteSize ≤ MAX_FIELD_BYTES then .ok ⟨v.1, v.2, h⟩ else .error (.tooLong field)

/-- `endpoint_is_safe`, behind `Url::parse`. -/
def endpointIsSafe (parse : String → Option Url) (endpoint : String) : Bool :=
  match parse endpoint with
  | none => false
  | some url =>
      if url.scheme = "https" then url.host.isSome
      else if url.scheme = "http" then
        match url.host with
        | some (.domain domain) => domain.toList.map Char.toLower == "localhost".toList
        | some (.ip ip) => ip.isLoopback
        | none => false
      else false

/-- A meter of one unit: its token goes to a safe endpoint, and its ids are ids the admin takes. -/
structure WorkerUsageMeter (parse : String → Option Url) where
  endpoint : String
  token : String
  tenantSlug : Id
  deploymentId : Id
  bundleId : Id
  safe : endpointIsSafe parse endpoint = true

/-- `WorkerUsageMeter::new`, with what the HTTP client's builder answers. -/
def WorkerUsageMeter.new (parse : String → Option Url) (client : Except String Unit)
    (target : WorkerUsageTarget) : Except WorkerUsageError (WorkerUsageMeter parse) := do
  let endpoint ← required "endpoint" target.endpoint
  let token ← required "token" target.token
  let tenantSlug ← requiredId "tenant_slug" target.tenantSlug
  let deploymentId ← requiredId "deployment_id" target.deploymentId
  let bundleId ← requiredId "bundle_id" target.bundleId
  if h : endpointIsSafe parse endpoint.1 = true then
    match client with
    | .error reason => .error (.client reason)
    | .ok () => .ok ⟨endpoint.1, token.1, tenantSlug, deploymentId, bundleId, h⟩
  else .error (.unsafeEndpoint endpoint.1)

/-! ## The event -/

structure WorkerUsageEvent where
  eventId : String
  occurredAt : String
  tenantSlug : String
  deploymentId : String
  bundleId : String
  agentId : String
  surface : String
  tokensIn : Nat
  tokensOut : Nat
  iterations : Nat
  durationMs : Nat
  model : Option String
  runId : Option String

/-- One call of `emit`, with the fresh id, the time as text, the run of the task, and whether a runtime
    is there to spawn on. -/
structure Emitted where
  tokensIn : Nat
  tokensOut : Nat
  agentId : String
  model : String
  eventId : String
  occurredAt : String
  runId : Option String
  onRuntime : Bool

variable {parse : String → Option Url}

def buildEvent (meter : WorkerUsageMeter parse) (e : Emitted) : Except String WorkerUsageEvent :=
  if trimmed e.agentId = "" then .error "empty agent_id"
  else if MAX_FIELD_BYTES < (trimmed e.agentId).utf8ByteSize then .error "agent_id longer than 256 bytes"
  else if MAX_FIELD_BYTES < (trimmed e.model).utf8ByteSize then .error "model longer than 256 bytes"
  else .ok {
    eventId := e.eventId
    occurredAt := e.occurredAt
    tenantSlug := meter.tenantSlug
    deploymentId := meter.deploymentId
    bundleId := meter.bundleId
    agentId := trimmed e.agentId
    surface := TURN_SURFACE
    tokensIn := e.tokensIn
    tokensOut := e.tokensOut
    iterations := 1
    durationMs := 0
    model := if trimmed e.model = "" then none else some (trimmed e.model)
    runId := e.runId.filter fun id => id ≠ "" ∧ id.utf8ByteSize ≤ MAX_FIELD_BYTES }

/-- An event the admin does not refuse for its form, on behalf of the meter's unit. -/
structure WorkerUsageEvent.Valid (meter : WorkerUsageMeter parse) (e : WorkerUsageEvent) : Prop where
  unit : e.tenantSlug = meter.tenantSlug ∧ e.deploymentId = meter.deploymentId ∧ e.bundleId = meter.bundleId
  ids : ∀ id ∈ [e.tenantSlug, e.deploymentId, e.bundleId, e.agentId], IsId id
  optional : ∀ id, e.model = some id ∨ e.runId = some id → IsId id
  turn : e.surface = TURN_SURFACE ∧ e.iterations = 1 ∧ e.durationMs = 0

/-- An event that is built is valid. -/
theorem buildEvent_valid {meter : WorkerUsageMeter parse} {e : Emitted} {event : WorkerUsageEvent}
    (h : buildEvent meter e = .ok event) : event.Valid meter := by
  rw [buildEvent] at h
  split at h
  · exact nomatch h
  next hagent =>
    split at h
    · exact nomatch h
    next hagentLong =>
      split at h
      · exact nomatch h
      next hmodelLong =>
        obtain rfl := Except.ok.inj h
        refine ⟨⟨rfl, rfl, rfl⟩, ?_, ?_, ⟨rfl, rfl, rfl⟩⟩
        · intro id hid
          simp only [List.mem_cons, List.not_mem_nil, or_false] at hid
          rcases hid with rfl | rfl | rfl | rfl
          · exact meter.tenantSlug.2
          · exact meter.deploymentId.2
          · exact meter.bundleId.2
          · exact ⟨hagent, by omega⟩
        · rintro id (hid | hid)
          · obtain ⟨hmodel, hid⟩ := Option.ite_none_left_eq_some.mp hid
            obtain rfl := Option.some.inj hid
            exact ⟨hmodel, by omega⟩
          · have hfilter := of_decide_eq_true (Option.filter_eq_some_iff.mp hid).2
            exact hfilter

/-! ## A delivery -/

/-- How a POST ends: no answer, or a status with its `Retry-After` where that reads as a number. -/
inductive Answer where
  | transport
  | status (code : Nat) (retryAfter : Option Nat)

/-- The suspension after `streak` refusals in a row. -/
def rejectionWindow (streak : Nat) : Nat :=
  min (REJECTION_BASE * 2 ^ min (streak / REJECTION_STREAK - 1) 16) REJECTION_MAX

/-- What `deliver` does with the answer: the streak of refusals after it, and the suspension it asks for. -/
def settle (streak : Nat) : Answer → Nat × Option Nat
  | .transport => (streak, some TRANSIENT_SUSPENSION)
  | .status code retryAfter =>
      if 200 ≤ code ∧ code < 300 then (0, none)
      else if code = 401 ∨ code = 403 then (streak, some AUTH_SUSPENSION)
      else if code = 429 then
        (streak, some (min ((retryAfter.map (· * SECOND)).getD DEFAULT_RETRY_AFTER) MAX_RETRY_AFTER))
      else if 400 ≤ code ∧ code < 500 then
        -- the counter is a `u32`
        let streak := (streak + 1) % 2 ^ 32
        (streak, if streak % REJECTION_STREAK = 0 then some (rejectionWindow streak) else none)
      else (streak, some TRANSIENT_SUSPENSION)

/-- `is_suspended`. -/
def isSuspended (suspendedUntil : Option Nat) (now : Nat) : Bool := suspendedUntil.any (now < ·)

/-- What `suspend` writes under the mutex, the clock read before. -/
def suspendedTo (suspendedUntil : Option Nat) (now window : Nat) : Nat :=
  match suspendedUntil with
  | some existing =>
      if isSuspended suspendedUntil now = true ∧ existing > now + window then existing else now + window
  | none => now + window

/-- Where a delivery stands.  `since` is when its POST started. -/
inductive Phase where
  | spawned
  /-- Turned away at the door, and to be counted. -/
  | refused
  /-- Past the door; the mutex is given back, the POST not started. -/
  | cleared
  | posting (since : Nat)
  /-- The answer asks for a suspension. -/
  | suspending (since window : Nat)
  /-- The clock is read, the mutex not taken. -/
  | locking (since read window : Nat)
  /-- It began a suspension and has the warning to write. -/
  | warning (window : Nat)
  | finished
  /-- The permit is back. -/
  | done
deriving DecidableEq

structure Task where
  event : WorkerUsageEvent
  phase : Phase

/-- What happened, in order. -/
inductive Note where
  | emitted
  /-- Outside of a runtime. -/
  | lost
  /-- The check at the door finds no suspension that lasts. -/
  | passed (t : Nat)
  | refused (t : Nat)
  | posted (t : Nat)
  /-- Counted as dropped because the endpoint is suspended. -/
  | dropped
  /-- A failure suspended the endpoint from the time it had read; `began` where no suspension was running. -/
  | suspended (read window : Nat) (began : Bool)
  /-- The warning, with the drops it reports. -/
  | warned (drops : Nat)
deriving DecidableEq

/-- The shared state of a meter, its deliveries, the clock, and the history. -/
structure Meter where
  suspendedUntil : Option Nat
  droppedWhileSuspended : Nat
  permits : Nat
  droppedSaturated : Nat
  skippedInvalid : Nat
  rejectedStreak : Nat
  tasks : List Task
  clock : Nat
  notes : List Note

def Meter.start : Meter := ⟨none, 0, MAX_IN_FLIGHT, 0, 0, 0, [], 0, []⟩

inductive Act where
  | pass (d : Nat)
  | emit (e : Emitted)
  /-- `is_suspended`. -/
  | enter (i : Nat)
  | drop (i : Nat)
  | post (i : Nat)
  | answer (i : Nat) (a : Answer)
  | readClock (i : Nat)
  | lock (i : Nat)
  | warn (i : Nat)
  | release (i : Nat)

variable (s : Meter)

/-- Task `i` moves on. -/
def Meter.move (i : Nat) (x : Task) (phase : Phase) (notes : List Note) : Meter :=
  { s with tasks := s.tasks.set i { x with phase }, notes := s.notes ++ notes }

/-- `emit`. -/
def emit (meter : WorkerUsageMeter parse) (e : Emitted) : Meter :=
  match buildEvent meter e with
  | .error _ => { s with skippedInvalid := s.skippedInvalid + 1, notes := s.notes ++ [.emitted] }
  | .ok event =>
      if e.onRuntime = false then { s with notes := s.notes ++ [.emitted, .lost] }
      else if s.permits = 0 then
        { s with droppedSaturated := s.droppedSaturated + 1, notes := s.notes ++ [.emitted] }
      else { s with
        permits := s.permits - 1
        tasks := s.tasks ++ [⟨event, .spawned⟩]
        notes := s.notes ++ [.emitted] }

/-- The start of `deliver`, under the mutex. -/
def enter (i : Nat) (x : Task) : Meter :=
  if isSuspended s.suspendedUntil s.clock then s.move i x .refused [.refused s.clock]
  else s.move i x .cleared [.passed s.clock]

/-- The answer to a POST. -/
def answered (i : Nat) (x : Task) (since : Nat) (a : Answer) : Meter :=
  let phase := match (settle s.rejectedStreak a).2 with
    | some window => .suspending since window
    | none => .finished
  { s.move i x phase [] with rejectedStreak := (settle s.rejectedStreak a).1 }

/-- `suspend`, under the mutex. -/
def locked (i : Nat) (x : Task) (read window : Nat) : Meter :=
  let running := isSuspended s.suspendedUntil read
  { s.move i x (if running then .finished else .warning window) [.suspended read window !running] with
    suspendedUntil := some (suspendedTo s.suspendedUntil read window) }

/-- One step of the meter or of one of its tasks. -/
def step (meter : WorkerUsageMeter parse) : Act → Option Meter
  | .pass d => some { s with clock := s.clock + d }
  | .emit e => some (emit s meter e)
  | .enter i => do
      let x ← s.tasks[i]?
      match x.phase with
      | .spawned => some (enter s i x)
      | _ => none
  | .drop i => do
      let x ← s.tasks[i]?
      match x.phase with
      | .refused =>
          some { s.move i x .finished [.dropped] with droppedWhileSuspended := s.droppedWhileSuspended + 1 }
      | _ => none
  | .post i => do
      let x ← s.tasks[i]?
      match x.phase with
      | .cleared => some (s.move i x (.posting s.clock) [.posted s.clock])
      | _ => none
  | .answer i a => do
      let x ← s.tasks[i]?
      match x.phase with
      | .posting since => some (answered s i x since a)
      | _ => none
  | .readClock i => do
      let x ← s.tasks[i]?
      match x.phase with
      | .suspending since window => some (s.move i x (.locking since s.clock window) [])
      | _ => none
  | .lock i => do
      let x ← s.tasks[i]?
      match x.phase with
      | .locking _ read window => some (locked s i x read window)
      | _ => none
  | .warn i => do
      let x ← s.tasks[i]?
      match x.phase with
      | .warning _ =>
          some { s.move i x .finished [.warned s.droppedWhileSuspended] with droppedWhileSuspended := 0 }
      | _ => none
  | .release i => do
      let x ← s.tasks[i]?
      match x.phase with
      | .finished => some { s.move i x .done [] with permits := s.permits + 1 }
      | _ => none

/-- The steps, with what each of them found. -/
inductive Stepped (meter : WorkerUsageMeter parse) : Act → Meter → Prop where
  | pass (d : Nat) : Stepped meter (.pass d) { s with clock := s.clock + d }
  | emit (e : Emitted) : Stepped meter (.emit e) (emit s meter e)
  | enter {i : Nat} {x : Task} (hi : s.tasks[i]? = some x) (hx : x.phase = .spawned) :
      Stepped meter (.enter i) (enter s i x)
  | drop {i : Nat} {x : Task} (hi : s.tasks[i]? = some x) (hx : x.phase = .refused) :
      Stepped meter (.drop i)
        { s.move i x .finished [.dropped] with droppedWhileSuspended := s.droppedWhileSuspended + 1 }
  | post {i : Nat} {x : Task} (hi : s.tasks[i]? = some x) (hx : x.phase = .cleared) :
      Stepped meter (.post i) (s.move i x (.posting s.clock) [.posted s.clock])
  | answer {i since : Nat} {x : Task} (hi : s.tasks[i]? = some x) (hx : x.phase = .posting since) (a : Answer) :
      Stepped meter (.answer i a) (answered s i x since a)
  | readClock {i since window : Nat} {x : Task} (hi : s.tasks[i]? = some x)
      (hx : x.phase = .suspending since window) :
      Stepped meter (.readClock i) (s.move i x (.locking since s.clock window) [])
  | lock {i since read window : Nat} {x : Task} (hi : s.tasks[i]? = some x)
      (hx : x.phase = .locking since read window) : Stepped meter (.lock i) (locked s i x read window)
  | warn {i window : Nat} {x : Task} (hi : s.tasks[i]? = some x) (hx : x.phase = .warning window) :
      Stepped meter (.warn i)
        { s.move i x .finished [.warned s.droppedWhileSuspended] with droppedWhileSuspended := 0 }
  | release {i : Nat} {x : Task} (hi : s.tasks[i]? = some x) (hx : x.phase = .finished) :
      Stepped meter (.release i) { s.move i x .done [] with permits := s.permits + 1 }

variable {s} {s' : Meter} {meter : WorkerUsageMeter parse} {a : Act}

/-- What a step can be. -/
theorem step_stepped (h : step s meter a = some s') : Stepped s meter a s' := by
  cases a with
  | pass d =>
      cases h
      exact .pass d
  | emit e =>
      cases h
      exact .emit e
  | enter i =>
      obtain ⟨x, hi, h⟩ := Option.bind_eq_some_iff.mp h
      split at h
      next hx =>
        cases h
        exact .enter hi hx
      · exact nomatch h
  | drop i =>
      obtain ⟨x, hi, h⟩ := Option.bind_eq_some_iff.mp h
      split at h
      next hx =>
        cases h
        exact .drop hi hx
      · exact nomatch h
  | post i =>
      obtain ⟨x, hi, h⟩ := Option.bind_eq_some_iff.mp h
      split at h
      next hx =>
        cases h
        exact .post hi hx
      · exact nomatch h
  | answer i a =>
      obtain ⟨x, hi, h⟩ := Option.bind_eq_some_iff.mp h
      split at h
      next hx =>
        cases h
        exact .answer hi hx a
      · exact nomatch h
  | readClock i =>
      obtain ⟨x, hi, h⟩ := Option.bind_eq_some_iff.mp h
      split at h
      next hx =>
        cases h
        exact .readClock hi hx
      · exact nomatch h
  | lock i =>
      obtain ⟨x, hi, h⟩ := Option.bind_eq_some_iff.mp h
      split at h
      next hx =>
        cases h
        exact .lock hi hx
      · exact nomatch h
  | warn i =>
      obtain ⟨x, hi, h⟩ := Option.bind_eq_some_iff.mp h
      split at h
      next hx =>
        cases h
        exact .warn hi hx
      · exact nomatch h
  | release i =>
      obtain ⟨x, hi, h⟩ := Option.bind_eq_some_iff.mp h
      split at h
      next hx =>
        cases h
        exact .release hi hx
      · exact nomatch h

/-! ## The books -/

def Task.holdsPermit (x : Task) : Bool := x.phase != .done

def Task.hasWarning (x : Task) : Bool :=
  match x.phase with
  | .warning _ => true
  | _ => false

def Note.isDropped : Note → Bool
  | .dropped => true
  | _ => false

def Note.isWarned : Note → Bool
  | .warned _ => true
  | _ => false

def Note.hasBegun : Note → Bool
  | .suspended _ _ began => began
  | _ => false

/-- The drops a warning reports. -/
def Note.drops : Note → Nat
  | .warned drops => drops
  | _ => 0

/-- Every event and every permit is somewhere. -/
structure Books (meter : WorkerUsageMeter parse) (s : Meter) : Prop where
  /-- Each delivery that is not over holds a permit. -/
  permits : s.permits + s.tasks.countP Task.holdsPermit = MAX_IN_FLIGHT
  /-- An event was skipped, dropped for want of a permit, lost outside of a runtime, or has its task. -/
  emitted : s.notes.count .emitted =
    s.skippedInvalid + s.droppedSaturated + s.notes.count .lost + s.tasks.length
  /-- A drop at the door waits for the next warning or was reported by one. -/
  dropped : s.notes.countP Note.isDropped = s.droppedWhileSuspended + (s.notes.map Note.drops).sum
  /-- Each suspension that began has its one warning. -/
  warned : s.notes.countP Note.hasBegun = s.notes.countP Note.isWarned + s.tasks.countP Task.hasWarning
  valid : ∀ x ∈ s.tasks, x.event.Valid meter

/-- A task moves on, and the notes and the counters with it. -/
theorem Books.moved (h : Books meter s) {i : Nat} {x : Task} (hi : s.tasks[i]? = some x) {phase : Phase}
    {notes : List Note} (htasks : s'.tasks = s.tasks.set i { x with phase })
    (hnotes : s'.notes = s.notes ++ notes)
    (hkept : s'.skippedInvalid = s.skippedInvalid ∧ s'.droppedSaturated = s.droppedSaturated)
    (hemitted : notes.count .emitted = 0 ∧ notes.count .lost = 0)
    (hpermits : s'.permits + (if Task.holdsPermit { x with phase } then 1 else 0) =
      s.permits + if x.holdsPermit then 1 else 0)
    (hdropped : s.droppedWhileSuspended + notes.countP Note.isDropped =
      s'.droppedWhileSuspended + (notes.map Note.drops).sum)
    (hwarned : notes.countP Note.hasBegun + (if x.hasWarning then 1 else 0) =
      notes.countP Note.isWarned + if Task.hasWarning { x with phase } then 1 else 0) : Books meter s' := by
  refine ⟨?_, ?_, ?_, ?_, ?_⟩
  · have hcount := countP_set_add Task.holdsPermit hi { x with phase }
    have := h.permits
    rw [htasks]
    omega
  · rw [htasks, hnotes, hkept.1, hkept.2, List.count_append, List.count_append, hemitted.1, hemitted.2,
      List.length_set]
    exact h.emitted
  · have := h.dropped
    rw [hnotes, List.countP_append, List.map_append, List.sum_append]
    omega
  · have hcount := countP_set_add Task.hasWarning hi { x with phase }
    have := h.warned
    rw [htasks, hnotes, List.countP_append, List.countP_append]
    omega
  · intro y hy
    rw [htasks] at hy
    rcases mem_of_set hy with rfl | hy
    · exact h.valid x (List.mem_of_getElem? hi)
    · exact h.valid y hy

/-- An emission. -/
theorem Books.emit (h : Books meter s) (e : Emitted) : Books meter (emit s meter e) := by
  obtain ⟨hpermits, hemitted, hdropped, hwarned, hvalid⟩ := h
  rw [WorkerUsage.emit]
  split
  · refine ⟨hpermits, ?_, ?_, ?_, hvalid⟩ <;> simp [Note.isDropped, Note.drops, Note.hasBegun, Note.isWarned] <;> omega
  next event hevent =>
    split
    · refine ⟨hpermits, ?_, ?_, ?_, hvalid⟩ <;> simp [Note.isDropped, Note.drops, Note.hasBegun, Note.isWarned] <;> omega
    · split
      · refine ⟨hpermits, ?_, ?_, ?_, hvalid⟩ <;> simp [Note.isDropped, Note.drops, Note.hasBegun, Note.isWarned] <;> omega
      next hfree =>
        refine ⟨?_, ?_, ?_, ?_, ?_⟩
        · simp [Task.holdsPermit]
          omega
        · simp
          omega
        · simp [Note.isDropped, Note.drops]
          omega
        · simp [Note.hasBegun, Note.isWarned, Task.hasWarning]
          omega
        · intro y hy
          rcases List.mem_append.mp hy with hy | hy
          · exact hvalid y hy
          · rw [List.mem_singleton.mp hy]
            exact buildEvent_valid hevent

/-- The meter as it starts. -/
theorem Books.start : Books meter .start := by
  refine ⟨rfl, rfl, rfl, rfl, ?_⟩
  intro x hx
  exact absurd hx List.not_mem_nil

/-- One step keeps the books. -/
theorem Books.step (h : Books meter s) (hs : WorkerUsage.step s meter a = some s') : Books meter s' := by
  cases step_stepped hs with
  | pass d => exact ⟨h.permits, h.emitted, h.dropped, h.warned, h.valid⟩
  | emit e => exact h.emit e
  | enter hi hx =>
      rw [enter]
      split
      · refine h.moved hi rfl rfl ⟨rfl, rfl⟩ ⟨rfl, rfl⟩ ?_ ?_ ?_ <;>
          simp [Meter.move, Task.holdsPermit, Task.hasWarning, Note.isDropped, Note.drops, Note.hasBegun,
            Note.isWarned, hx]
      · refine h.moved hi rfl rfl ⟨rfl, rfl⟩ ⟨rfl, rfl⟩ ?_ ?_ ?_ <;>
          simp [Meter.move, Task.holdsPermit, Task.hasWarning, Note.isDropped, Note.drops, Note.hasBegun,
            Note.isWarned, hx]
  | drop hi hx | post hi hx =>
      refine h.moved hi rfl rfl ⟨rfl, rfl⟩ ⟨rfl, rfl⟩ ?_ ?_ ?_ <;>
        simp [Meter.move, Task.holdsPermit, Task.hasWarning, Note.isDropped, Note.drops, Note.hasBegun,
          Note.isWarned, hx]
  | answer hi hx a =>
      refine h.moved hi rfl rfl ⟨rfl, rfl⟩ ⟨rfl, rfl⟩ ?_ rfl ?_
      · cases hasks : (settle s.rejectedStreak a).2 <;>
          simp [answered, Meter.move, Task.holdsPermit, hasks, hx]
      · cases hasks : (settle s.rejectedStreak a).2 <;> simp [Task.hasWarning, hx]
  | readClock hi hx =>
      refine h.moved hi rfl rfl ⟨rfl, rfl⟩ ⟨rfl, rfl⟩ ?_ rfl ?_ <;>
        simp [Meter.move, Task.holdsPermit, Task.hasWarning, hx]
  | lock hi hx =>
      refine h.moved hi rfl rfl ⟨rfl, rfl⟩ ⟨rfl, rfl⟩ ?_ rfl ?_
      · cases hrunning : isSuspended s.suspendedUntil _ <;>
          simp [locked, Meter.move, Task.holdsPermit, hx]
      · cases hrunning : isSuspended s.suspendedUntil _ <;>
          simp [Task.hasWarning, Note.hasBegun, Note.isWarned, hx]
  | warn hi hx =>
      refine h.moved hi rfl rfl ⟨rfl, rfl⟩ ⟨rfl, rfl⟩ ?_ ?_ ?_ <;>
        simp [Meter.move, Task.holdsPermit, Task.hasWarning, Note.isDropped, Note.drops, Note.hasBegun,
          Note.isWarned, hx]
  | release hi hx =>
      refine h.moved hi rfl rfl ⟨rfl, rfl⟩ ⟨rfl, rfl⟩ ?_ rfl ?_ <;>
        simp [Task.holdsPermit, Task.hasWarning, hx]

/-- The meters reached from the start, in any order of steps that all meet `C`. -/
abbrev Reached (meter : WorkerUsageMeter parse) (C : Meter → Act → Prop) : Meter → Prop :=
  Reach (fun s a => WorkerUsage.step s meter a) C .start

/-- So they hold in every run. -/
theorem Reached.books {C : Meter → Act → Prop} (h : Reached meter C s) : Books meter s :=
  Reach.inv Books.start (fun _ _ _ hi _ hs => hi.step hs) h

/-- The POSTs under way. -/
def Meter.inFlight (s : Meter) : Nat :=
  s.tasks.countP fun x => match x.phase with
    | .posting _ => true
    | _ => false

/-- NO EVENT LEAVES THE BOOKS of the meter in any interleaving: each one was skipped, dropped for want of a
    permit, lost outside of a runtime or handed to a task; the drops at the door are those of the warnings
    and of the counter; a suspension has one warning; at most `MAX_IN_FLIGHT` POSTs are under way, and what
    they carry is in the form the admin asks for. -/
theorem usage_accounted {parse : String → Option Url} (meter : WorkerUsageMeter parse) {s : Meter}
    (h : Reached meter Any s) :
    s.notes.count .emitted =
        s.skippedInvalid + s.droppedSaturated + s.notes.count .lost + s.tasks.length ∧
      s.notes.countP Note.isDropped = s.droppedWhileSuspended + (s.notes.map Note.drops).sum ∧
      s.notes.countP Note.hasBegun = s.notes.countP Note.isWarned + s.tasks.countP Task.hasWarning ∧
      s.permits + s.tasks.countP Task.holdsPermit = MAX_IN_FLIGHT ∧ s.inFlight ≤ MAX_IN_FLIGHT ∧
      ∀ x ∈ s.tasks, x.event.Valid meter := by
  have hbooks := h.books
  refine ⟨hbooks.emitted, hbooks.dropped, hbooks.warned, hbooks.permits, ?_, hbooks.valid⟩
  have hle : s.inFlight ≤ s.tasks.countP Task.holdsPermit := by
    refine List.countP_mono_left fun x _ hx => ?_
    cases hphase : x.phase <;> simp [hphase] at hx
    simp [Task.holdsPermit, hphase]
  have := hbooks.permits
  omega

/-- A meter, and an event of its unit. -/
def sampleParse (_ : String) : Option Url := some ⟨"https", some (.domain "admin")⟩

def sampleId : Id := ⟨"unit", by decide, by decide⟩

def sampleMeter : WorkerUsageMeter sampleParse := ⟨"https://admin", "token", sampleId, sampleId, sampleId, rfl⟩

def sampleEmitted : Emitted := ⟨10, 5, "agent", "", "event", "now", none, true⟩

/-- Three events; two are past the door when the POST of the first is not answered, and the third comes to the
    door after that. -/
def failedPost : List Act :=
  [.emit sampleEmitted, .emit sampleEmitted, .emit sampleEmitted, .enter 0, .enter 1, .post 0,
    .answer 0 .transport, .readClock 0, .lock 0, .warn 0, .release 0, .enter 2, .post 1, .drop 2]

/-- What it notes. -/
def failedPostNotes : List Note :=
  [.emitted, .emitted, .emitted, .passed 0, .passed 0, .posted 0, .suspended 0 TRANSIENT_SUSPENSION true,
    .warned 0, .refused 0, .posted 0, .dropped]

theorem failedPost_reached : ∃ s, Reached sampleMeter Any s ∧ s.notes = failedPostNotes := by
  have hrun : ∃ s, Reached sampleMeter Any s ∧ (s.notes == failedPostNotes) = true :=
    Reach.of_test failedPost rfl
  obtain ⟨s, hs, ht⟩ := hrun
  exact ⟨s, hs, eq_of_beq ht⟩

theorem usage_accounted_failed : ∃ s, Reached sampleMeter Any s ∧ s.notes.countP Note.isDropped = 1 ∧
    s.notes.countP Note.isDropped = s.droppedWhileSuspended + (s.notes.map Note.drops).sum ∧
    s.inFlight ≤ MAX_IN_FLIGHT := by
  obtain ⟨s, hs, hnotes⟩ := failedPost_reached
  obtain ⟨-, hdropped, -, -, hinFlight, -⟩ := usage_accounted sampleMeter hs
  exact ⟨s, hs, by rw [hnotes]; rfl, hdropped, hinFlight⟩

/-! ## The suspension -/

/-- No window is longer than that of a rejection. -/
theorem settle_window {streak window : Nat} {a : Answer} (h : (settle streak a).2 = some window) :
    window ≤ REJECTION_MAX := by
  cases a with
  | transport =>
      obtain rfl := Option.some.inj h
      decide
  | status code retryAfter =>
      simp only [settle] at h
      split at h
      · exact nomatch h
      · split at h
        · obtain rfl := Option.some.inj h
          decide
        · split at h
          · obtain rfl := Option.some.inj h
            exact Nat.le_trans (Nat.min_le_right ..) (by decide)
          · split at h
            · obtain ⟨-, h⟩ := Option.ite_none_right_eq_some.mp h
              obtain rfl := Option.some.inj h
              exact Nat.min_le_right ..
            · obtain rfl := Option.some.inj h
              decide

/-- The suspension holds for the window, is not shortened, and lasts no longer than one of the two. -/
theorem suspendedTo_spec (suspendedUntil : Option Nat) (read window : Nat) :
    read + window ≤ suspendedTo suspendedUntil read window ∧
      (∀ u, suspendedUntil = some u → u ≤ suspendedTo suspendedUntil read window) ∧
      (suspendedTo suspendedUntil read window = read + window ∨
        suspendedUntil = some (suspendedTo suspendedUntil read window)) := by
  cases suspendedUntil with
  | none => exact ⟨Nat.le_refl _, (fun u hu => nomatch hu), .inl rfl⟩
  | some existing =>
      rw [suspendedTo]
      split
      next h => exact ⟨Nat.le_of_lt h.2, fun u hu => Nat.le_of_eq (Option.some.inj hu).symm, .inr rfl⟩
      next h =>
        refine ⟨Nat.le_refl _, fun u hu => ?_, .inl rfl⟩
        obtain rfl := Option.some.inj hu
        simp only [isSuspended, Option.any_some, decide_eq_true_eq] at h
        omega

/-- A failure suspended the endpoint until `u` at least. -/
def Lasts (u : Nat) (n : Note) : Prop := ∃ read window began, n = .suspended read window began ∧ u ≤ read + window

/-- Why a note may stand behind the others. -/
def Just (before : List Note) : Note → Prop
  | .passed t => ∀ n ∈ before, ¬ Lasts (t + 1) n
  | .refused t => ∃ n ∈ before, Lasts (t + 1) n
  | .suspended _ window _ => window ≤ REJECTION_MAX
  | _ => True

/-- The suspension is the longest that a failure asked for. -/
structure Door (s : Meter) : Prop where
  each : Each Just s.notes
  longest : ∀ t, isSuspended s.suspendedUntil t = true ↔ ∃ n ∈ s.notes, Lasts (t + 1) n
  windows : ∀ x ∈ s.tasks, ∀ since read window,
    x.phase = .suspending since window ∨ x.phase = .locking since read window → window ≤ REJECTION_MAX

theorem lasts_suspended {u read window : Nat} {began : Bool} :
    Lasts u (.suspended read window began) ↔ u ≤ read + window := by
  constructor
  · rintro ⟨_, _, _, heq, hu⟩
    cases heq
    exact hu
  · intro hu
    exact ⟨_, _, _, rfl, hu⟩

/-- A note about something else. -/
theorem not_lasts {n : Note} (h : ∀ read window began, n ≠ .suspended read window began) (u : Nat) : ¬ Lasts u n := by
  rintro ⟨read, window, began, rfl, -⟩
  exact h _ _ _ rfl

/-- A step that notes nothing. -/
theorem Door.quiet (h : Door s) (hsus : s'.suspendedUntil = s.suspendedUntil) (hnotes : s'.notes = s.notes)
    (hwindows : ∀ x ∈ s'.tasks, ∀ since read window,
      x.phase = .suspending since window ∨ x.phase = .locking since read window → window ≤ REJECTION_MAX) :
    Door s' := by
  refine ⟨hnotes ▸ h.each, fun t => ?_, hwindows⟩
  rw [hsus, hnotes]
  exact h.longest t

/-- A step whose notes are no failures. -/
theorem Door.kept (h : Door s) (hsus : s'.suspendedUntil = s.suspendedUntil) {notes : List Note}
    (hnotes : s'.notes = s.notes ++ notes) (heach : Each Just (s.notes ++ notes))
    (hquiet : ∀ n ∈ notes, ∀ u, ¬ Lasts u n)
    (hwindows : ∀ x ∈ s'.tasks, ∀ since read window,
      x.phase = .suspending since window ∨ x.phase = .locking since read window → window ≤ REJECTION_MAX) :
    Door s' := by
  refine ⟨hnotes ▸ heach, fun t => ?_, hwindows⟩
  rw [hsus, h.longest, hnotes]
  constructor
  · rintro ⟨n, hn, hlasts⟩
    exact ⟨n, List.mem_append_left _ hn, hlasts⟩
  · rintro ⟨n, hn, hlasts⟩
    rcases List.mem_append.mp hn with hn | hn
    · exact ⟨n, hn, hlasts⟩
    · exact absurd hlasts (hquiet n hn _)

/-- The windows of the tasks, when one of them moves on. -/
theorem Door.moved (h : Door s) {i : Nat} {x : Task} {phase : Phase}
    (hphase : ∀ since read window, phase = .suspending since window ∨ phase = .locking since read window →
      window ≤ REJECTION_MAX) :
    ∀ y ∈ s.tasks.set i { x with phase }, ∀ since read window,
      y.phase = .suspending since window ∨ y.phase = .locking since read window → window ≤ REJECTION_MAX := by
  intro y hy since read window hy'
  rcases mem_of_set hy with rfl | hy
  · exact hphase since read window hy'
  · exact h.windows y hy since read window hy'

/-- The meter as it starts. -/
theorem Door.start : Door .start := by
  refine ⟨each_nil, fun t => ?_, ?_⟩
  · constructor
    · intro h
      exact nomatch h
    · rintro ⟨n, hn, -⟩
      exact nomatch hn
  · intro x hx
    exact absurd hx List.not_mem_nil

/-- An emission. -/
theorem Door.emit (h : Door s) (e : Emitted) : Door (emit s meter e) := by
  have hemitted : Each Just (s.notes ++ [.emitted]) := each_snoc.mpr ⟨h.each, trivial⟩
  have hquiet : ∀ u, ¬ Lasts u .emitted := not_lasts (by simp)
  rw [WorkerUsage.emit]
  split
  · exact h.kept rfl rfl hemitted (by simpa using hquiet) h.windows
  · split
    · have heach : Each Just ((s.notes ++ [.emitted]) ++ [.lost]) := each_snoc.mpr ⟨hemitted, trivial⟩
      refine h.kept rfl rfl (by simpa using heach) ?_ h.windows
      intro n hn
      rcases List.mem_pair.mp hn with rfl | rfl
      · exact hquiet
      · exact not_lasts (by simp)
    · split
      · exact h.kept rfl rfl hemitted (by simpa using hquiet) h.windows
      · refine h.kept rfl rfl hemitted (by simpa using hquiet) ?_
        intro y hy since read window hy'
        rcases List.mem_append.mp hy with hy | hy
        · exact h.windows y hy since read window hy'
        · rw [List.mem_singleton.mp hy] at hy'
          rcases hy' with hy' | hy' <;> exact nomatch hy'

/-- A task moves on with one note, which is no failure. -/
theorem Door.noted (h : Door s) {i : Nat} {x : Task} {phase : Phase} {n : Note}
    (htasks : s'.tasks = s.tasks.set i { x with phase }) (hnotes : s'.notes = s.notes ++ [n])
    (hsus : s'.suspendedUntil = s.suspendedUntil) (hjust : Just s.notes n) (hquiet : ∀ u, ¬ Lasts u n)
    (hphase : ∀ since read window, phase = .suspending since window ∨ phase = .locking since read window →
      window ≤ REJECTION_MAX) : Door s' := by
  refine h.kept hsus hnotes (each_snoc.mpr ⟨h.each, hjust⟩) ?_ (htasks ▸ h.moved hphase)
  intro m hm
  rw [List.mem_singleton.mp hm]
  exact hquiet

/-- A task at the door. -/
theorem Door.enter (h : Door s) (i : Nat) (x : Task) : Door (enter s i x) := by
  rw [WorkerUsage.enter]
  split
  next hsus =>
    -- the suspension that is running was asked for by a failure before
    refine h.noted rfl rfl rfl ((h.longest _).mp hsus) (not_lasts (by simp)) ?_
    rintro _ _ _ (hp | hp) <;> exact nomatch hp
  next hsus =>
    refine h.noted rfl rfl rfl (fun n hn hlasts => hsus ((h.longest _).mpr ⟨n, hn, hlasts⟩)) (not_lasts (by simp)) ?_
    rintro _ _ _ (hp | hp) <;> exact nomatch hp

/-- An answer. -/
theorem Door.answered (h : Door s) (i : Nat) (x : Task) (since : Nat) (a : Answer) :
    Door (answered s i x since a) := by
  refine h.quiet rfl (List.append_nil _) (h.moved ?_)
  intro since' read window hp
  cases hasks : (settle s.rejectedStreak a).2 with
  | none =>
      rw [hasks] at hp
      rcases hp with hp | hp <;> exact nomatch hp
  | some asked =>
      rw [hasks] at hp
      rcases hp with hp | hp
      · cases hp
        exact settle_window hasks
      · exact nomatch hp

/-- A suspension. -/
theorem Door.locked (h : Door s) {i since read window : Nat} {x : Task} (hi : s.tasks[i]? = some x)
    (hx : x.phase = .locking since read window) : Door (locked s i x read window) := by
  have hwindow := h.windows x (List.mem_of_getElem? hi) since read window (.inr hx)
  obtain ⟨hself, hkept, hone⟩ := suspendedTo_spec s.suspendedUntil read window
  refine ⟨each_snoc.mpr ⟨h.each, hwindow⟩, fun t => ?_, h.moved ?_⟩
  · constructor
    · intro ht
      have ht' : t < suspendedTo s.suspendedUntil read window := of_decide_eq_true ht
      rcases hone with heq | heq
      · exact ⟨_, List.mem_concat_self, lasts_suspended.mpr (by omega)⟩
      · -- an earlier failure asked for more
        have hsus : isSuspended s.suspendedUntil t = true := by
          rw [heq]
          exact decide_eq_true ht'
        obtain ⟨n, hn, hlasts⟩ := (h.longest t).mp hsus
        exact ⟨n, List.mem_append_left _ hn, hlasts⟩
    · rintro ⟨n, hn, hlasts⟩
      refine decide_eq_true (?_ : t < suspendedTo s.suspendedUntil read window)
      rcases List.mem_append.mp hn with hn | hn
      · have hsus := (h.longest t).mpr ⟨n, hn, hlasts⟩
        obtain ⟨u, hu, htu⟩ := (Option.any_eq_true _ _).mp hsus
        exact Nat.lt_of_lt_of_le (of_decide_eq_true htu) (hkept u hu)
      · rw [List.mem_singleton.mp hn] at hlasts
        have := lasts_suspended.mp hlasts
        omega
  · intro since' read' window' hp
    split at hp <;> rcases hp with hp | hp <;> exact nomatch hp

/-- One step keeps the door. -/
theorem Door.step (h : Door s) (hs : WorkerUsage.step s meter a = some s') : Door s' := by
  cases step_stepped hs with
  | pass d => exact ⟨h.each, h.longest, h.windows⟩
  | emit e => exact h.emit e
  | enter hi hx => exact h.enter _ _
  | drop hi hx =>
      refine h.noted rfl rfl rfl trivial (not_lasts (by simp)) ?_
      rintro _ _ _ (hp | hp) <;> exact nomatch hp
  | post hi hx =>
      refine h.noted rfl rfl rfl trivial (not_lasts (by simp)) ?_
      rintro _ _ _ (hp | hp) <;> exact nomatch hp
  | answer hi hx a => exact h.answered _ _ _ a
  | readClock hi hx =>
      refine h.quiet rfl (List.append_nil _) (h.moved ?_)
      rintro _ _ _ (hp | hp)
      · exact nomatch hp
      · cases hp
        exact h.windows _ (List.mem_of_getElem? hi) _ 0 _ (.inl hx)
  | lock hi hx => exact h.locked hi hx
  | warn hi hx =>
      refine h.noted rfl rfl rfl trivial (not_lasts (by simp)) ?_
      rintro _ _ _ (hp | hp) <;> exact nomatch hp
  | release hi hx =>
      refine h.quiet rfl (List.append_nil _) (h.moved ?_)
      rintro _ _ _ (hp | hp) <;> exact nomatch hp

/-- **THE DOOR IS SHUT EXACTLY WHILE A FAILURE LASTS**: in every interleaving a delivery passes the check at a
    time `t` only when the window of every failure before is over, it is turned away only inside such a
    window, and no answer of the admin asks for a window longer than half an hour. -/
theorem suspension_exact {parse : String → Option Url} (meter : WorkerUsageMeter parse) {s : Meter}
    (h : Reached meter Any s) {before after : List Note} {n : Note} (hn : s.notes = before ++ n :: after) :
    (∀ t, n = .passed t → ∀ r w b, .suspended r w b ∈ before → r + w ≤ t) ∧
      (∀ t, n = .refused t → ∃ r w b, .suspended r w b ∈ before ∧ t < r + w ∧ w ≤ REJECTION_MAX) := by
  have hdoor : Door s := Reach.inv Door.start (fun _ _ _ hi _ hs => hi.step hs) h
  have hjust := hdoor.each before n after hn
  constructor
  · rintro t rfl r w b hmem
    have hnot := mt lasts_suspended.mpr (hjust _ hmem)
    omega
  · rintro t rfl
    obtain ⟨_, hmem, r, w, b, rfl, hlasts⟩ := hjust
    -- the failure is a note of the history too
    obtain ⟨xs, ys, hsplit⟩ := List.append_of_mem hmem
    have hwindow : w ≤ REJECTION_MAX := hdoor.each xs (.suspended r w b) (ys ++ .refused t :: after) (by
      rw [hn, hsplit]
      simp)
    exact ⟨r, w, b, hmem, hlasts, hwindow⟩

/-- The check behind the failure turns away, and the POST that was past the door starts all the same; half a
    minute later the check passes. -/
def failedThenOpen : List Act :=
  failedPost ++ [.emit sampleEmitted, .pass TRANSIENT_SUSPENSION, .enter 3, .post 3]

theorem suspension_exact_failed : ∃ s, Reached sampleMeter Any s ∧
    s.notes = failedPostNotes ++ [.emitted, .passed TRANSIENT_SUSPENSION, .posted TRANSIENT_SUSPENSION] ∧
    (∃ r w b, .suspended r w b ∈ failedPostNotes.take 8 ∧ 0 < r + w ∧ w ≤ REJECTION_MAX) ∧
    ∀ r w b, .suspended r w b ∈ failedPostNotes ++ [.emitted] → r + w ≤ TRANSIENT_SUSPENSION := by
  have hrun : ∃ s, Reached sampleMeter Any s ∧ (s.notes ==
      failedPostNotes ++ [.emitted, .passed TRANSIENT_SUSPENSION, .posted TRANSIENT_SUSPENSION]) = true :=
    Reach.of_test failedThenOpen (by decide +kernel)
  obtain ⟨s, hs, htest⟩ := hrun
  have hnotes := eq_of_beq htest
  have hshut : s.notes = failedPostNotes.take 8 ++ .refused 0 :: ([.posted 0, .dropped, .emitted,
      .passed TRANSIENT_SUSPENSION, .posted TRANSIENT_SUSPENSION]) := hnotes
  have hopen : s.notes = (failedPostNotes ++ [.emitted]) ++ .passed TRANSIENT_SUSPENSION ::
      [.posted TRANSIENT_SUSPENSION] := hnotes
  exact ⟨s, hs, hnotes, (suspension_exact sampleMeter hs hshut).2 0 rfl,
    (suspension_exact sampleMeter hs hopen).1 _ rfl⟩

/-! ## An admin that only fails -/

/-- When the POST of a task started, until its failure is written down. -/
def Phase.since : Phase → Option Nat
  | .posting since => some since
  | .suspending since _ => some since
  | .locking since _ _ => some since
  | _ => none

/-- A POST that started at `t₀` or later and has not failed yet. -/
def Task.recent (t₀ : Nat) (x : Task) : Bool := x.phase.since.any (t₀ ≤ ·)

/-- A delivery past the door whose POST has not started. -/
def Task.cleared (x : Task) : Bool := x.phase == .cleared

/-- A POST that starts in the span from `t₀` that is `slack` shorter than a window. -/
def Note.inSpan (t₀ window slack : Nat) : Note → Bool
  | .posted t => decide (t₀ ≤ t ∧ t + slack < t₀ + window)
  | _ => false

/-- Each answer asks for `window` at least, and a failure is written down within `slack` of the time it has
    read. -/
def OnlyFails (window slack : Nat) (s : Meter) : Act → Prop
  | .answer _ a => ∃ w, (settle s.rejectedStreak a).2 = some w ∧ window ≤ w
  | .lock i => ∀ x since read w, s.tasks[i]? = some x → x.phase = .locking since read w → s.clock ≤ read + slack
  | _ => True

/-- The span from `t₀`, as far as the meter has come. -/
structure Spanned (t₀ window slack : Nat) (s : Meter) : Prop where
  /-- The rest of the span is suspended, or each of its POSTs is still under way. -/
  quiet : (∃ u, s.suspendedUntil = some u ∧ t₀ + window ≤ u + slack) ∨
    s.notes.countP (Note.inSpan t₀ window slack) ≤ s.tasks.countP (Task.recent t₀)
  few : s.notes.countP (Note.inSpan t₀ window slack) ≤ MAX_IN_FLIGHT
  /-- Until the span is over it has room for the POSTs that are to start. -/
  room : s.clock + slack < t₀ + window →
    s.notes.countP (Note.inSpan t₀ window slack) + s.tasks.countP Task.cleared ≤ MAX_IN_FLIGHT
  past : ∀ x ∈ s.tasks, ∀ since, x.phase.since = some since → since ≤ s.clock
  asked : ∀ x ∈ s.tasks, ∀ since read w,
    x.phase = .suspending since w ∨ x.phase = .locking since read w → window ≤ w

variable {t₀ window slack : Nat}

/-- The recent POSTs and those to start have a permit each. -/
theorem Task.recent_cleared_le (s : Meter) (t₀ : Nat) :
    s.tasks.countP (Task.recent t₀) + s.tasks.countP Task.cleared ≤ s.tasks.countP Task.holdsPermit := by
  induction s.tasks with
  | nil => exact Nat.le_refl _
  | cons x xs ih =>
      have hone : (if x.recent t₀ then 1 else 0) + (if x.cleared then 1 else 0) ≤ if x.holdsPermit then 1 else 0 := by
        cases hphase : x.phase <;> simp [Task.recent, Phase.since, Task.cleared, Task.holdsPermit, hphase] <;>
          split <;> omega
      rw [List.countP_cons, List.countP_cons, List.countP_cons]
      omega

/-- Where the POSTs of the span are all under way, they are few and there is room. -/
theorem Books.room (h : Books meter s) (hquiet : s.notes.countP (Note.inSpan t₀ window slack) ≤
    s.tasks.countP (Task.recent t₀)) :
    s.notes.countP (Note.inSpan t₀ window slack) + s.tasks.countP Task.cleared ≤ MAX_IN_FLIGHT := by
  have hle := Task.recent_cleared_le s t₀
  have hpermits := h.permits
  omega

/-- A task moves on, stays as recent as it was, and is not past the door for the first time. -/
theorem Spanned.moved (h : Spanned t₀ window slack s) {i : Nat} {x : Task} (hi : s.tasks[i]? = some x)
    {phase : Phase} (htasks : s'.tasks = s.tasks.set i { x with phase })
    (hnotes : s'.notes.countP (Note.inSpan t₀ window slack) = s.notes.countP (Note.inSpan t₀ window slack))
    (hsus : s'.suspendedUntil = s.suspendedUntil) (hclock : s'.clock = s.clock)
    (hsince : phase.since = x.phase.since) (hcleared : phase ≠ .cleared)
    (hasked : ∀ since read w, phase = .suspending since w ∨ phase = .locking since read w → window ≤ w) :
    Spanned t₀ window slack s' := by
  refine ⟨?_, hnotes ▸ h.few, ?_, ?_, ?_⟩
  · have hcount := countP_set_add (Task.recent t₀) hi { x with phase }
    have hsame : Task.recent t₀ { x with phase } = x.recent t₀ := by
      rw [Task.recent, Task.recent, hsince]
    rw [hsame] at hcount
    rw [hsus, hnotes, htasks, Nat.add_right_cancel hcount]
    exact h.quiet
  · intro hspan
    have hcount := countP_set_add Task.cleared hi { x with phase }
    have hnot : Task.cleared { x with phase } = false := beq_eq_false_iff_ne.mpr hcleared
    rw [hnot] at hcount
    have hroom := h.room (hclock ▸ hspan)
    rw [hnotes, htasks]
    simp only [Bool.false_eq_true, if_false] at hcount
    omega
  · intro y hy since hy'
    rw [htasks] at hy
    rw [hclock]
    rcases mem_of_set hy with rfl | hy
    · exact h.past x (List.mem_of_getElem? hi) since (hsince ▸ hy')
    · exact h.past y hy since hy'
  · intro y hy since read w hy'
    rw [htasks] at hy
    rcases mem_of_set hy with rfl | hy
    · exact hasked since read w hy'
    · exact h.asked y hy since read w hy'

theorem Spanned.emit (h : Spanned t₀ window slack s) (e : Emitted) : Spanned t₀ window slack (emit s meter e) := by
  have hone : (s.notes ++ [Note.emitted]).countP (Note.inSpan t₀ window slack) =
      s.notes.countP (Note.inSpan t₀ window slack) := by
    rw [List.countP_append]
    rfl
  have htwo : (s.notes ++ [Note.emitted, .lost]).countP (Note.inSpan t₀ window slack) =
      s.notes.countP (Note.inSpan t₀ window slack) := by
    rw [List.countP_append]
    rfl
  rw [WorkerUsage.emit]
  split
  · exact ⟨hone ▸ h.quiet, hone ▸ h.few, hone ▸ h.room, h.past, h.asked⟩
  · split
    · exact ⟨htwo ▸ h.quiet, htwo ▸ h.few, htwo ▸ h.room, h.past, h.asked⟩
    · split
      · exact ⟨hone ▸ h.quiet, hone ▸ h.few, hone ▸ h.room, h.past, h.asked⟩
      · refine ⟨?_, hone ▸ h.few, ?_, ?_, ?_⟩
        · have hquiet := hone ▸ h.quiet
          simpa [Task.recent, Phase.since] using hquiet
        · have hroom := hone ▸ h.room
          simpa [Task.cleared] using hroom
        · intro y hy since hy'
          rcases List.mem_append.mp hy with hy | hy
          · exact h.past y hy since hy'
          · rw [List.mem_singleton.mp hy] at hy'
            exact nomatch hy'
        · intro y hy since read w hy'
          rcases List.mem_append.mp hy with hy | hy
          · exact h.asked y hy since read w hy'
          · rw [List.mem_singleton.mp hy] at hy'
            rcases hy' with hy' | hy' <;> exact nomatch hy'

/-- A delivery that passes the check inside the span finds every POST of the span under way. -/
theorem Spanned.enter (h : Spanned t₀ window slack s) {i : Nat} {x : Task} (hi : s.tasks[i]? = some x)
    (hx : x.phase = .spawned) (hbooks : Books meter (enter s i x)) : Spanned t₀ window slack (enter s i x) := by
  rw [WorkerUsage.enter] at hbooks ⊢
  split
  · refine h.moved hi rfl ?_ rfl rfl (by rw [hx]; rfl) (fun heq => nomatch heq) ?_
    · rw [Meter.move, List.countP_append]
      rfl
    · rintro _ _ _ (hp | hp) <;> exact nomatch hp
  next hopen =>
    rw [if_neg hopen] at hbooks
    have hnotes : (s.move i x .cleared [.passed s.clock]).notes.countP (Note.inSpan t₀ window slack) =
        s.notes.countP (Note.inSpan t₀ window slack) := by
      rw [Meter.move, List.countP_append]
      rfl
    have hcount := countP_set_add (Task.recent t₀) hi { x with phase := .cleared }
    have hold : x.recent t₀ = false := by simp [Task.recent, Phase.since, hx]
    rw [hold, show Task.recent t₀ { x with phase := .cleared } = false from rfl] at hcount
    have hsame : (s.move i x .cleared [.passed s.clock]).tasks.countP (Task.recent t₀) =
        s.tasks.countP (Task.recent t₀) := by simpa [Meter.move] using hcount
    refine ⟨?_, hnotes ▸ h.few, fun hspan => ?_, ?_, ?_⟩
    · rcases h.quiet with hsus | hle
      · exact .inl hsus
      · exact .inr (hnotes ▸ hsame ▸ hle)
    · refine hbooks.room ?_
      rcases h.quiet with ⟨u, hu, hlate⟩ | hle
      · -- the rest of the span is suspended, so the door is shut
        refine absurd ?_ hopen
        rw [hu]
        have hclock : s.clock + slack < t₀ + window := hspan
        exact decide_eq_true (by omega)
      · exact hnotes ▸ hsame ▸ hle
    · intro y hy since hy'
      rcases mem_of_set hy with rfl | hy
      · exact nomatch hy'
      · exact h.past y hy since hy'
    · intro y hy since read w hy'
      rcases mem_of_set hy with rfl | hy
      · rcases hy' with hy' | hy' <;> exact nomatch hy'
      · exact h.asked y hy since read w hy'

/-- The POST of a delivery that is past the door takes the room that was left for it. -/
theorem Spanned.post (h : Spanned t₀ window slack s) {i : Nat} {x : Task} (hi : s.tasks[i]? = some x)
    (hx : x.phase = .cleared) : Spanned t₀ window slack (s.move i x (.posting s.clock) [.posted s.clock]) := by
  have hrecent := countP_set_add (Task.recent t₀) hi { x with phase := .posting s.clock }
  have hcleared := countP_set_add Task.cleared hi { x with phase := .posting s.clock }
  have hold : x.recent t₀ = false := by simp [Task.recent, Phase.since, hx]
  have hwas : x.cleared = true := by simp [Task.cleared, hx]
  rw [hold] at hrecent
  rw [hwas, show Task.cleared { x with phase := .posting s.clock } = false from rfl] at hcleared
  simp only [Bool.false_eq_true, if_false, if_true, Nat.add_zero] at hrecent hcleared
  have hnotes : (s.move i x (.posting s.clock) [.posted s.clock]).notes.countP (Note.inSpan t₀ window slack) =
      s.notes.countP (Note.inSpan t₀ window slack) +
        if Note.inSpan t₀ window slack (.posted s.clock) then 1 else 0 := by
    rw [Meter.move, List.countP_append, List.countP_singleton]
  refine ⟨?_, ?_, fun hspan => ?_, ?_, ?_⟩
  · refine h.quiet.imp id fun hle => ?_
    rw [hnotes]
    by_cases hspan : Note.inSpan t₀ window slack (.posted s.clock) = true
    · have hlate : t₀ ≤ s.clock := (of_decide_eq_true hspan).1
      have hnew : Task.recent t₀ { x with phase := .posting s.clock } = true := decide_eq_true hlate
      rw [hnew, if_pos rfl] at hrecent
      rw [if_pos hspan]
      exact hrecent.symm ▸ Nat.add_le_add_right hle 1
    · rw [if_neg hspan, Nat.add_zero]
      exact Nat.le_trans hle (Nat.le.intro hrecent.symm)
  · rw [hnotes]
    by_cases hspan : Note.inSpan t₀ window slack (.posted s.clock) = true
    · have hroom := h.room (of_decide_eq_true hspan).2
      rw [if_pos hspan]
      omega
    · rw [if_neg hspan]
      exact h.few
  · have hroom := h.room hspan
    rw [hnotes]
    show _ + (s.tasks.set i { x with phase := .posting s.clock }).countP Task.cleared ≤ _
    split <;> omega
  · intro y hy since hy'
    rcases mem_of_set hy with rfl | hy
    · cases hy'
      exact Nat.le_refl _
    · exact h.past y hy since hy'
  · intro y hy since read w hy'
    rcases mem_of_set hy with rfl | hy
    · rcases hy' with hy' | hy' <;> exact nomatch hy'
    · exact h.asked y hy since read w hy'

/-- The first failure that is written down behind `t₀` suspends the rest of the span. -/
theorem Spanned.locked (h : Spanned t₀ window slack s) {i since read w : Nat} {x : Task}
    (hi : s.tasks[i]? = some x) (hx : x.phase = .locking since read w) (hprompt : s.clock ≤ read + slack) :
    Spanned t₀ window slack (locked s i x read w) := by
  obtain ⟨hself, hkept, -⟩ := suspendedTo_spec s.suspendedUntil read w
  have hasked := h.asked x (List.mem_of_getElem? hi) since read w (.inr hx)
  have hpast := h.past x (List.mem_of_getElem? hi) since (by rw [hx]; rfl)
  have hnotes : (WorkerUsage.locked s i x read w).notes.countP (Note.inSpan t₀ window slack) =
      s.notes.countP (Note.inSpan t₀ window slack) := by
    rw [WorkerUsage.locked, Meter.move, List.countP_append]
    rfl
  have hcleared : (WorkerUsage.locked s i x read w).tasks.countP Task.cleared = s.tasks.countP Task.cleared := by
    have hcount := countP_set_add Task.cleared hi
      { x with phase := if isSuspended s.suspendedUntil read then .finished else .warning w }
    have hold : x.cleared = false := by simp [Task.cleared, hx]
    have hnew : Task.cleared { x with phase := if isSuspended s.suspendedUntil read then .finished else .warning w } =
        false := by
      rw [Task.cleared]
      split <;> rfl
    rw [hold, hnew] at hcount
    exact hcount
  refine ⟨?_, hnotes ▸ h.few, fun hspan => hnotes ▸ hcleared ▸ h.room hspan, ?_, ?_⟩
  · by_cases hrecent : t₀ ≤ since
    · exact .inl ⟨_, rfl, by omega⟩
    · rcases h.quiet with ⟨u, hu, hlate⟩ | hle
      · exact .inl ⟨_, rfl, Nat.le_trans hlate (Nat.add_le_add_right (hkept u hu) slack)⟩
      · refine .inr (hnotes ▸ Nat.le_trans hle ?_)
        have hold : x.recent t₀ = false := by simp [Task.recent, Phase.since, hx, hrecent]
        have hcount := countP_set_add (Task.recent t₀) hi
          { x with phase := if isSuspended s.suspendedUntil read then .finished else .warning w }
        rw [hold] at hcount
        exact Nat.le_trans (Nat.le_add_right _ _) (Nat.le_of_eq hcount.symm)
  · intro y hy t hy'
    rcases mem_of_set hy with rfl | hy
    · dsimp only at hy'
      split at hy' <;> exact nomatch hy'
    · exact h.past y hy t hy'
  · intro y hy t r v hy'
    rcases mem_of_set hy with rfl | hy
    · dsimp only at hy'
      split at hy' <;> rcases hy' with hy' | hy' <;> exact nomatch hy'
    · exact h.asked y hy t r v hy'

/-- One step keeps the span. -/
theorem Spanned.step (h : Spanned t₀ window slack s) (hbooks : Books meter s') (hc : OnlyFails window slack s a)
    (hs : WorkerUsage.step s meter a = some s') : Spanned t₀ window slack s' := by
  cases step_stepped hs with
  | pass d =>
      refine ⟨h.quiet, h.few, fun hspan => h.room ?_, fun x hx since hsince => ?_, h.asked⟩
      · have hlater : s.clock + d + slack < t₀ + window := hspan
        omega
      · exact Nat.le_trans (h.past x hx since hsince) (Nat.le_add_right ..)
  | emit e => exact h.emit e
  | enter hi hx => exact h.enter hi hx hbooks
  | drop hi hx =>
      refine h.moved hi rfl ?_ rfl rfl ?_ (fun heq => nomatch heq) ?_
      · rw [Meter.move, List.countP_append]
        rfl
      · rw [hx]
        rfl
      · rintro _ _ _ (hp | hp) <;> exact nomatch hp
  | post hi hx => exact h.post hi hx
  | answer hi hx a =>
      obtain ⟨w, hw, hle⟩ := hc
      refine h.moved hi rfl ?_ rfl rfl ?_ ?_ ?_
      · rw [answered, Meter.move, List.append_nil]
      · rw [hw, hx]
        rfl
      · rw [hw]
        intro heq
        cases heq
      · intro since read w' hp
        rw [hw] at hp
        rcases hp with hp | hp
        · cases hp
          exact hle
        · exact nomatch hp
  | readClock hi hx =>
      refine h.moved hi rfl ?_ rfl rfl ?_ (fun heq => nomatch heq) ?_
      · rw [Meter.move, List.append_nil]
      · rw [hx]
        rfl
      · rintro _ _ _ (hp | hp)
        · exact nomatch hp
        · cases hp
          exact h.asked _ (List.mem_of_getElem? hi) _ 0 _ (.inl hx)
  | lock hi hx => exact h.locked hi hx (hc _ _ _ _ hi hx)
  | warn hi hx =>
      refine h.moved hi rfl ?_ rfl rfl ?_ (fun heq => nomatch heq) ?_
      · rw [Meter.move, List.countP_append]
        rfl
      · rw [hx]
        rfl
      · rintro _ _ _ (hp | hp) <;> exact nomatch hp
  | release hi hx =>
      refine h.moved hi rfl ?_ rfl rfl ?_ (fun heq => nomatch heq) ?_
      · rw [Meter.move, List.append_nil]
      · rw [hx]
        rfl
      · rintro _ _ _ (hp | hp) <;> exact nomatch hp

/-- **A DEAD ADMIN IS LEFT ALONE**: when every answer asks for a suspension of `window` at least — no answer,
    an error of the server and a refused token ask for `TRANSIENT_SUSPENSION` (`settle`) — and a failure
    takes the mutex within `slack` of the time it has read, then at most `MAX_IN_FLIGHT` POSTs start in any
    span that is `slack` shorter than the window, however many events are emitted. -/
theorem dead_admin_rate {parse : String → Option Url} (meter : WorkerUsageMeter parse) {window slack : Nat}
    {s : Meter} (h : Reached meter (OnlyFails window slack) s) (t₀ : Nat) :
    s.notes.countP (Note.inSpan t₀ window slack) ≤ MAX_IN_FLIGHT := by
  have hboth : Books meter s ∧ Spanned t₀ window slack s := by
    refine Reach.inv (I := fun s => Books meter s ∧ Spanned t₀ window slack s) ⟨Books.start, ?_⟩ ?_ h
    · refine ⟨.inr (Nat.zero_le _), Nat.zero_le _, fun _ => Nat.zero_le _, ?_, ?_⟩
      · intro x hx
        exact absurd hx List.not_mem_nil
      · intro x hx
        exact absurd hx List.not_mem_nil
    · rintro s a s' ⟨hbooks, hspan⟩ hc hs
      have hbooks' := hbooks.step hs
      exact ⟨hbooks', hspan.step hbooks' hc hs⟩
  exact hboth.2.few

/-- The clock a delivery has read when it comes to the mutex. -/
def Phase.read : Phase → Option Nat
  | .locking _ read _ => some read
  | _ => none

theorem onlyFails_answer_iff {i : Nat} {a : Answer} :
    OnlyFails window slack s (.answer i a) ↔ (settle s.rejectedStreak a).2.any (window ≤ ·) = true := by
  rw [Option.any_eq_true]
  simp only [OnlyFails, decide_eq_true_eq]

theorem onlyFails_lock_iff {i : Nat} :
    OnlyFails window slack s (.lock i) ↔
      ∀ x ∈ s.tasks[i]?.toList, ∀ read ∈ x.phase.read.toList, s.clock ≤ read + slack := by
  constructor
  · intro h x hx read hread
    cases hphase : x.phase with
    | locking since read' w =>
        rw [hphase] at hread
        obtain rfl := List.mem_singleton.mp hread
        exact h x since read w (Option.mem_toList.mp hx) hphase
    | _ =>
        rw [hphase] at hread
        exact absurd hread List.not_mem_nil
  · intro h x since read w hi hx
    refine h x (Option.mem_toList.mpr hi) read ?_
    rw [hx]
    exact List.mem_singleton_self _

instance (window slack : Nat) (s : Meter) : (a : Act) → Decidable (OnlyFails window slack s a)
  | .answer _ _ => decidable_of_iff _ onlyFails_answer_iff.symm
  | .lock _ => decidable_of_iff _ onlyFails_lock_iff.symm
  | .pass _ | .emit _ | .enter _ | .drop _ | .post _ | .readClock _ | .warn _ | .release _ => .isTrue trivial

/-- Two are past the door before the first failure, one is dropped behind it, and the next POST starts when
    the window of the second failure is over. -/
def deadAdmin : List Act :=
  failedPost ++ [.pass SECOND, .answer 1 (.status 503 none), .readClock 1, .lock 1, .emit sampleEmitted,
    .pass TRANSIENT_SUSPENSION, .enter 3, .post 3]

theorem dead_admin_rate_failed : ∃ s, Reached sampleMeter (OnlyFails TRANSIENT_SUSPENSION SECOND) s ∧
    s.notes = failedPostNotes ++ [.suspended SECOND TRANSIENT_SUSPENSION false, .emitted,
      .passed (SECOND + TRANSIENT_SUSPENSION), .posted (SECOND + TRANSIENT_SUSPENSION)] ∧
    s.notes.countP (Note.inSpan 0 TRANSIENT_SUSPENSION SECOND) = 2 ∧
    ∀ t₀, s.notes.countP (Note.inSpan t₀ TRANSIENT_SUSPENSION SECOND) ≤ MAX_IN_FLIGHT := by
  have hrun : ∃ s, Reached sampleMeter (OnlyFails TRANSIENT_SUSPENSION SECOND) s ∧ (s.notes ==
      failedPostNotes ++ [.suspended SECOND TRANSIENT_SUSPENSION false, .emitted,
        .passed (SECOND + TRANSIENT_SUSPENSION), .posted (SECOND + TRANSIENT_SUSPENSION)]) = true :=
    Reach.of_test deadAdmin (by decide +kernel)
  obtain ⟨s, hs, htest⟩ := hrun
  have hnotes := eq_of_beq htest
  exact ⟨s, hs, hnotes, by rw [hnotes]; decide +kernel, dead_admin_rate sampleMeter hs⟩

end Greentic.WorkerUsage
