import GreenticRunner.Transition

/-! # The run audit of a conversation

    `run_outcome/turn.rs` and the audit of `PackFlowAdapter::call_traced_unlocked`: every turn
    of a conversation reports one outcome under the run it belongs to.  The run and the number
    of its last event are stored in a marker beside the parked flow; a failure is held back
    while the turn may be tried again, and reported after the turn lock is free.

    * `RunOk`, `Continues` — the events of a run, and a marker that goes on with it;
    * `run_numbered` — the events of a run are numbered 1, 2, … in the order of the lock;
    * `failure_after_completed` — but they may reach the sink in another order. -/

namespace Greentic.RunAudit

open Transition

/-! ## Markers and outcomes -/

/-- `RunKind`. -/
inductive RunKind where
  | flow
  | agentic
  deriving DecidableEq

/-- `RunStatus`. -/
inductive RunStatus where
  | completed
  | inProgress
  | technicalError
  deriving DecidableEq

/-- `RunMarker`. -/
structure RunMarker where
  runId : String
  startedAt : String
  agentic : Bool
  seq : Nat
  agentRef : Option String
  deriving DecidableEq

/-- `RunMarker::mint`, with a new ULID and the time. -/
def RunMarker.mint (runId startedAt : String) : RunMarker := ⟨runId, startedAt, false, 0, none⟩

/-- `WorkerIdentity`. -/
structure WorkerIdentity where
  id : Option String
  name : Option String
  version : Option String
  deriving DecidableEq

/-- `ObservedTurn`: whether an agentic node started, and the worker of the first one. -/
structure ObservedTurn where
  sawAgentic : Bool
  agentRef : Option String
  deriving DecidableEq

/-- `RunOutcome`. -/
structure RunOutcome where
  runId : String
  kind : RunKind
  status : RunStatus
  startedAt : String
  seq : Nat
  worker : WorkerIdentity
  deriving DecidableEq

/-- `TurnContext`. -/
structure TurnContext where
  marker : RunMarker
  pack : WorkerIdentity

namespace TurnContext

/-- The `seq` the event of the turn carries. -/
def seq (turn : TurnContext) : Nat := turn.marker.seq + 1

def agentRef (turn : TurnContext) (observed : ObservedTurn) : Option String :=
  turn.marker.agentRef.or observed.agentRef

/-- `marker_after`. -/
def markerAfter (turn : TurnContext) (observed : ObservedTurn) : RunMarker :=
  { turn.marker with
    agentic := turn.marker.agentic || observed.sawAgentic
    seq := turn.seq
    agentRef := turn.agentRef observed }

/-- `TurnContext::outcome`. -/
def outcome (turn : TurnContext) (observed : ObservedTurn) (status : RunStatus) : RunOutcome :=
  let agentic := turn.marker.agentic || observed.sawAgentic
  { runId := turn.marker.runId
    kind := if agentic then .agentic else .flow
    status
    startedAt := turn.marker.startedAt
    seq := turn.seq
    worker := if agentic then ⟨turn.agentRef observed, none, turn.pack.version⟩ else turn.pack }

/-- `TurnContext::completed`; a completed output with an `error_kind` is the failure it
    carries. -/
def completed (turn : TurnContext) (observed : ObservedTurn) (errorKind : Bool) : RunOutcome :=
  turn.outcome observed (if errorKind then .technicalError else .completed)

/-- `TurnContext::waiting`. -/
def waiting (turn : TurnContext) (observed : ObservedTurn) : RunOutcome :=
  turn.outcome observed .inProgress

/-- `TurnContext::failed`. -/
def failed (turn : TurnContext) (observed : ObservedTurn) : RunOutcome :=
  turn.outcome observed .technicalError

end TurnContext

/-! ## One attempt of a turn -/

/-- `TurnScope`. -/
structure TurnScope where
  marker : Option RunMarker
  pendingFailure : Option RunOutcome
  attempts : Nat

/-- `TurnScope::default`. -/
def TurnScope.default : TurnScope := ⟨none, none, 0⟩

/-- `RunOutcomeReporter::remember`. -/
def TurnScope.remember (scope : TurnScope) (marker : RunMarker) : TurnScope :=
  { scope with marker := some marker, attempts := scope.attempts + 1 }

/-- How an attempt ends: before its audit begins, with an error of the engine, at the end of the
    flow (with an `error_kind`?), or parked. -/
inductive Ending where
  | refused
  | failed (observed : ObservedTurn)
  | completed (observed : ObservedTurn) (errorKind : Bool)
  | waits (observed : ObservedTurn)

/-- What an attempt leaves: the parked flow with its marker, the scope of the turn, what it
    reported, whether it answered the message, and the run it minted. -/
structure Attempted where
  parked : Option (Option RunMarker)
  scope : TurnScope
  reported : Option RunOutcome
  answered : Bool
  minted : Option String

/-- The context of an attempt: the marker of an earlier attempt of the turn, else the one
    stored with the parked flow, else a new one. -/
def beginTurn (parked : Option (Option RunMarker)) (scope : TurnScope) (runId now : String)
    (pack : WorkerIdentity) : TurnContext :=
  ⟨(scope.marker.or parked.join).getD (.mint runId now), pack⟩

/-- `call_traced_unlocked` with a store whose writes succeed. -/
def callTraced (parked : Option (Option RunMarker)) (scope : TurnScope) (runId now : String)
    (pack : WorkerIdentity) (ending : Ending) : Attempted :=
  let turn := beginTurn parked scope runId now pack
  let minted := if (scope.marker.or parked.join).isNone then some runId else none
  let remembered := scope.remember turn.marker
  match ending with
  | .refused => ⟨parked, scope, none, false, none⟩
  | .failed observed =>
      -- the failure is held back, and a flow that was resumed stays parked with the next number
      ⟨parked.map fun _ => some (turn.markerAfter observed),
        { remembered with pendingFailure := some (turn.failed observed) }, none, false, minted⟩
  | .completed observed errorKind =>
      ⟨none, { remembered with pendingFailure := none }, some (turn.completed observed errorKind),
        true, minted⟩
  | .waits observed =>
      ⟨some (some (turn.markerAfter observed)), { remembered with pendingFailure := none },
        some (turn.waiting observed), true, minted⟩

/-! ## The turns of a conversation -/

/-- The turn that holds the lock. -/
structure Running where
  scope : TurnScope
  answered : Bool

/-- The audit of a conversation: the parked flow, the turn that holds the lock, the turns that
    held it before, in that order, each with the failure it has still to report, what the sink
    was handed (with the number of the turn), and the runs minted so far. -/
structure Audit where
  parked : Option (Option RunMarker)
  current : Option Running
  held : List (Option RunOutcome)
  recorded : List (Nat × RunOutcome)
  minted : List String

inductive Label where
  | acquire
  | attempt (runId now : String) (pack : WorkerIdentity) (ending : Ending)
  | release (late : Bool)
  | report (i : Nat)

namespace Audit

/-- One attempt of the turn that holds the lock. -/
def attempt (w : Audit) (scope : TurnScope) (runId now : String) (pack : WorkerIdentity)
    (ending : Ending) : Audit :=
  let a := callTraced w.parked scope runId now pack ending
  { w with
    parked := a.parked
    current := some ⟨a.scope, a.answered⟩
    recorded := w.recorded ++ (a.reported.map fun o => (w.held.length, o)).toList
    minted := a.minted.toList ++ w.minted }

/-- The lock is free again; a turn without an answer failed, and one with an answer may fail
    late. -/
def release (w : Audit) (r : Running) (late : Bool) : Audit :=
  { w with
    current := none
    held := w.held ++ [if !r.answered || late then r.scope.pendingFailure else none] }

/-- The end of `scoped`: the failure that was held back. -/
def report (w : Audit) (i : Nat) (o : RunOutcome) : Audit :=
  { w with
    held := w.held.set i none
    recorded := w.recorded ++ [(i, o)] }

end Audit

def step (w : Audit) : Label → Option Audit
  | .acquire =>
      match w.current with
      | none => some { w with current := some ⟨.default, false⟩ }
      | some _ => none
  | .attempt runId now pack ending =>
      match w.current with
      | some ⟨scope, false⟩ => some (w.attempt scope runId now pack ending)
      | _ => none
  | .release late =>
      match w.current with
      | some r => some (w.release r late)
      | none => none
  | .report i =>
      match w.held[i]? with
      | some (some o) => some (w.report i o)
      | _ => none

/-- A conversation whose flow may be parked with a marker from before. -/
def start (parked : Option (Option RunMarker)) : Audit := ⟨parked, none, [], [], []⟩

/-- The id is the one of the run parked at the start. -/
def OldRun (parked : Option (Option RunMarker)) (r : String) : Prop :=
  parked.join.map (·.runId) = some r

instance (parked : Option (Option RunMarker)) (r : String) : Decidable (OldRun parked r) :=
  inferInstanceAs (Decidable (_ = _))

/-- A ULID that was not drawn before. -/
def Fresh (parked : Option (Option RunMarker)) (w : Audit) : Label → Prop
  | .attempt runId _ _ _ => runId ∉ w.minted ∧ ¬ OldRun parked runId
  | _ => True

instance (parked : Option (Option RunMarker)) (w : Audit) (l : Label) :
    Decidable (Fresh parked w l) :=
  match l with
  | .attempt runId _ _ _ => inferInstanceAs (Decidable (runId ∉ w.minted ∧ ¬ OldRun parked runId))
  | .acquire => isTrue trivial
  | .release _ => isTrue trivial
  | .report _ => isTrue trivial

/-! ## The events of a run -/

/-- The events of a run, in the order of the list. -/
def eventsOf (log : List (Nat × RunOutcome)) (r : String) : List RunOutcome :=
  (log.map (·.2)).filter fun o => o.runId == r

/-- The events of a run are numbered from 1 on, the kind never goes back, and nothing follows
    its completion. -/
structure RunOk (es : List RunOutcome) : Prop where
  seqs : es.map (·.seq) = List.range' 1 es.length
  kinds : es.Pairwise fun a b => a.kind = .agentic → b.kind = .agentic
  ends : es.Pairwise fun a _ => a.status ≠ .completed

/-- The marker goes on with the run. -/
structure Continues (es : List RunOutcome) (m : RunMarker) : Prop where
  seq : m.seq = es.length
  sticky : ∀ e ∈ es, e.kind = .agentic → m.agentic = true
  goes : ∀ e ∈ es, e.status ≠ .completed

theorem runOk_nil : RunOk [] := ⟨rfl, .nil, .nil⟩

theorem continues_mint (runId now : String) : Continues [] (.mint runId now) :=
  ⟨rfl, (fun _ h => nomatch h), (fun _ h => nomatch h)⟩

section Turns

variable {es : List RunOutcome} {turn : TurnContext}

theorem outcome_agentic (observed : ObservedTurn) (status : RunStatus) :
    (turn.outcome observed status).kind = .agentic ↔
      (turn.markerAfter observed).agentic = true := by
  rw [TurnContext.outcome, TurnContext.markerAfter]
  dsimp only
  cases turn.marker.agentic || observed.sawAgentic <;> simp

/-- ONE MORE EVENT of a run whose marker goes on with it. -/
theorem RunOk.next (h : RunOk es) (hm : Continues es turn.marker) (observed : ObservedTurn)
    (status : RunStatus) : RunOk (es ++ [turn.outcome observed status]) := by
  constructor
  · rw [List.map_append, h.seqs, List.length_append, List.length_singleton, List.range'_concat,
      List.map_singleton, Nat.one_mul]
    congr 2
    show turn.marker.seq + 1 = 1 + es.length
    rw [hm.seq, Nat.add_comm]
  · refine List.pairwise_append.mpr ⟨h.kinds, List.pairwise_singleton _ _, ?_⟩
    intro a ha b hb hkind
    rw [List.mem_singleton.mp hb, outcome_agentic, TurnContext.markerAfter]
    simp [hm.sticky a ha hkind]
  · refine List.pairwise_append.mpr ⟨h.ends, List.pairwise_singleton _ _, ?_⟩
    intro a ha b _
    exact hm.goes a ha

/-- The marker stored after an event that does not complete the run goes on with it. -/
theorem Continues.next (hm : Continues es turn.marker) (observed : ObservedTurn)
    {status : RunStatus} (hs : status ≠ .completed) :
    Continues (es ++ [turn.outcome observed status]) (turn.markerAfter observed) := by
  constructor
  · rw [List.length_append, List.length_singleton, ← hm.seq]
    rfl
  · intro e he hkind
    rcases List.mem_append.mp he with he | he
    · rw [TurnContext.markerAfter]
      simp [hm.sticky e he hkind]
    · rw [List.mem_singleton.mp he] at hkind
      exact (outcome_agentic observed status).mp hkind
  · intro e he
    rcases List.mem_append.mp he with he | he
    · exact hm.goes e he
    · rw [List.mem_singleton.mp he]
      exact hs

end Turns

theorem eventsOf_snoc_self (log : List (Nat × RunOutcome)) (i : Nat) (o : RunOutcome) :
    eventsOf (log ++ [(i, o)]) o.runId = eventsOf log o.runId ++ [o] := by
  simp [eventsOf]

theorem eventsOf_snoc_of_ne (log : List (Nat × RunOutcome)) (i : Nat) {o : RunOutcome} {r : String}
    (h : o.runId ≠ r) : eventsOf (log ++ [(i, o)]) r = eventsOf log r := by
  simp [eventsOf, h]

/-! ## The reports to come -/

/-- The failures that turns have still to report, with the numbers of the turns from `k` on. -/
def unreported : Nat → List (Option RunOutcome) → List (Nat × RunOutcome)
  | _, [] => []
  | k, none :: held => unreported (k + 1) held
  | k, some o :: held => (k, o) :: unreported (k + 1) held

theorem unreported_append (k : Nat) (held held' : List (Option RunOutcome)) :
    unreported k (held ++ held') = unreported k held ++ unreported (k + held.length) held' := by
  induction held generalizing k with
  | nil => rfl
  | cons o held ih =>
      have hlen : k + 1 + held.length = k + (held.length + 1) := by omega
      cases o with
      | none => rw [List.cons_append, unreported, unreported, ih, List.length_cons, hlen]
      | some o =>
          rw [List.cons_append, unreported, unreported, ih, List.length_cons, hlen,
            List.cons_append]

/-- A report that was made is not to come. -/
theorem unreported_set (k : Nat) {held : List (Option RunOutcome)} {i : Nat} {o : RunOutcome}
    (h : held[i]? = some (some o)) :
    (unreported k held).Perm ((k + i, o) :: unreported k (held.set i none)) := by
  induction held generalizing k i with
  | nil => exact nomatch h
  | cons o' held ih =>
      cases i with
      | zero =>
          cases h
          exact List.Perm.refl _
      | succ i =>
          have hrest := ih (k + 1) (i := i) h
          have hk : k + 1 + i = k + (i + 1) := by omega
          rw [hk] at hrest
          cases o' with
          | none => exact hrest
          | some o' =>
              rw [unreported, List.set_cons_succ, unreported]
              exact (hrest.cons _).trans (List.Perm.swap _ _ _)

/-! ## The invariant -/

/-- A run the audit has heard of: minted, or parked at the start. -/
def Known (old : Option (Option RunMarker)) (minted : List String) (r : String) : Prop :=
  r ∈ minted ∨ OldRun old r

/-- A marker that goes on with a run that was minted. -/
structure Standing (old : Option (Option RunMarker)) (minted : List String)
    (log : List (Nat × RunOutcome)) (m : RunMarker) : Prop where
  known : Known old minted m.runId
  continues : m.runId ∈ minted → Continues (eventsOf log m.runId) m

/-- The stored marker goes on with its run. -/
def ParkedOk (old : Option (Option RunMarker)) (minted : List String)
    (log : List (Nat × RunOutcome)) (parked : Option (Option RunMarker)) : Prop :=
  ∀ m, parked = some (some m) → Standing old minted log m

/-- What a turn has done so far: it has not begun an attempt, its last attempt failed, or it
    has answered.  A failure that is held back is not an event yet, but the stored marker has
    its number. -/
inductive Phase (old : Option (Option RunMarker)) (minted : List String)
    (log : List (Nat × RunOutcome)) (parked : Option (Option RunMarker)) :
    Option Running → Prop where
  | free (h : ParkedOk old minted log parked) : Phase old minted log parked none
  | begun {scope : TurnScope} (h : ParkedOk old minted log parked) (hm : scope.marker = none)
      (hp : scope.pendingFailure = none) : Phase old minted log parked (some ⟨scope, false⟩)
  | failing {scope : TurnScope} (turn : TurnContext) (observed : ObservedTurn)
      (h : Standing old minted log turn.marker) (hm : scope.marker = some turn.marker)
      (hp : scope.pendingFailure = some (turn.failed observed))
      (hs : parked = none ∨ parked = some (some (turn.markerAfter observed))) :
      Phase old minted log parked (some ⟨scope, false⟩)
  | answered {scope : TurnScope} (h : ParkedOk old minted log parked)
      (hp : scope.pendingFailure = none) : Phase old minted log parked (some ⟨scope, true⟩)

/-- The turns that may have an event: those that held the lock, and one that has answered. -/
def Audit.ended (w : Audit) : Nat :=
  w.held.length + if w.current.any (·.answered) then 1 else 0

/-- The events of the conversation in the order of the turn lock. -/
structure Numbered (old : Option (Option RunMarker)) (w : Audit) (log : List (Nat × RunOutcome)) :
    Prop where
  perm : log.Perm (w.recorded ++ unreported 0 w.held)
  order : log.Pairwise fun a b => a.1 < b.1
  bound : ∀ e ∈ log, e.1 < w.ended
  known : ∀ e ∈ log, Known old w.minted e.2.runId
  runs : ∀ r ∈ w.minted, RunOk (eventsOf log r)
  phase : Phase old w.minted log w.parked w.current

section Steps

variable {old : Option (Option RunMarker)} {minted : List String}
  {log : List (Nat × RunOutcome)} {m : RunMarker}

theorem Known.mono {minted' : List String} (hsub : ∀ r ∈ minted, r ∈ minted') {r : String}
    (h : Known old minted r) : Known old minted' r := by
  rcases h with h | h
  · exact .inl (hsub r h)
  · exact .inr h

/-- A run that was not heard of has no events. -/
theorem eventsOf_unknown (hknown : ∀ e ∈ log, Known old minted e.2.runId) {r : String}
    (h : ¬ Known old minted r) : eventsOf log r = [] := by
  refine List.filter_eq_nil_iff.mpr ?_
  intro o ho heq
  obtain ⟨e, he, rfl⟩ := List.mem_map.mp ho
  exact h (beq_iff_eq.mp heq ▸ hknown e he)

/-- One event more, of a turn whose marker goes on with its run. -/
theorem runs_next {turn : TurnContext} (hm : Standing old minted log turn.marker)
    (hruns : ∀ r ∈ minted, RunOk (eventsOf log r)) (i : Nat) (observed : ObservedTurn)
    (status : RunStatus) :
    ∀ r ∈ minted, RunOk (eventsOf (log ++ [(i, turn.outcome observed status)]) r) := by
  intro r hr
  by_cases heq : turn.marker.runId = r
  · subst heq
    have hsnoc := eventsOf_snoc_self log i (turn.outcome observed status)
    rw [show (turn.outcome observed status).runId = turn.marker.runId from rfl] at hsnoc
    rw [hsnoc]
    exact (hruns _ hr).next (hm.continues hr) observed status
  · rw [eventsOf_snoc_of_ne log i (o := turn.outcome observed status) heq]
    exact hruns r hr

/-- The stored marker after such an event. -/
theorem Standing.next {turn : TurnContext} (hm : Standing old minted log turn.marker) (i : Nat)
    (observed : ObservedTurn) {status : RunStatus} (hs : status ≠ .completed) :
    Standing old minted (log ++ [(i, turn.outcome observed status)]) (turn.markerAfter observed) := by
  refine ⟨hm.known, ?_⟩
  intro hr
  have hsnoc := eventsOf_snoc_self log i (turn.outcome observed status)
  rw [show (turn.markerAfter observed).runId = (turn.outcome observed status).runId from rfl, hsnoc]
  exact (hm.continues hr).next observed hs

/-- The marker of an attempt: the run goes on, or it was minted. -/
theorem beginTurn_standing {parked : Option (Option RunMarker)} {scope : TurnScope}
    {runId : String} (hknown : ∀ e ∈ log, Known old minted e.2.runId)
    (hstored : ∀ m, scope.marker.or parked.join = some m → Standing old minted log m)
    (hfresh : ¬ Known old minted runId) (now : String) (pack : WorkerIdentity) :
    Standing old ((if (scope.marker.or parked.join).isNone then some runId else none).toList ++ minted)
      log (beginTurn parked scope runId now pack).marker := by
  rw [beginTurn]
  cases hm : scope.marker.or parked.join with
  | some m => exact hstored m hm
  | none =>
      refine ⟨.inl (List.mem_cons_self ..), fun _ => ?_⟩
      show Continues (eventsOf log runId) (.mint runId now)
      rw [eventsOf_unknown hknown hfresh]
      exact continues_mint runId now

/-- An event more in the order of the lock. -/
theorem order_next (horder : log.Pairwise fun a b => a.1 < b.1) {n : Nat}
    (hbound : ∀ e ∈ log, e.1 < n) (o : RunOutcome) :
    (log ++ [(n, o)]).Pairwise fun a b => a.1 < b.1 := by
  refine List.pairwise_append.mpr ⟨horder, List.pairwise_singleton _ _, ?_⟩
  intro a ha b hb
  rw [List.mem_singleton.mp hb]
  exact hbound a ha

theorem forall_next {P : Nat × RunOutcome → Prop} (h : ∀ e ∈ log, P e) {e : Nat × RunOutcome}
    (he : P e) : ∀ e' ∈ log ++ [e], P e' := by
  intro e' he'
  rcases List.mem_append.mp he' with he' | he'
  · exact h e' he'
  · rw [List.mem_singleton.mp he']
    exact he

/-- An event that is reported at once. -/
theorem perm_next {recorded later : List (Nat × RunOutcome)} (h : log.Perm (recorded ++ later))
    (e : Nat × RunOutcome) : (log ++ [e]).Perm (recorded ++ [e] ++ later) := by
  refine (h.append_right [e]).trans ?_
  rw [List.append_assoc, List.append_assoc]
  exact List.perm_append_comm.append_left recorded

variable {w w' : Audit}

/-- AN ATTEMPT of the turn that holds the lock. -/
theorem Numbered.attempt {scope : TurnScope} (h : Numbered old w log)
    (hcur : w.current = some ⟨scope, false⟩) {runId : String}
    (hfresh : ¬ Known old w.minted runId) (now : String) (pack : WorkerIdentity) (ending : Ending) :
    ∃ log', Numbered old (w.attempt scope runId now pack ending) log' := by
  have hended : w.ended = w.held.length := by rw [Audit.ended, hcur]; rfl
  have hbound : ∀ e ∈ log, e.1 < w.held.length := fun e he => hended ▸ h.bound e he
  -- the marker of the attempt goes on with its run
  have hstored : ∀ m, scope.marker.or w.parked.join = some m → Standing old w.minted log m := by
    intro m hm
    have hphase := h.phase
    rw [hcur] at hphase
    cases hphase with
    | begun hparked hnone _ =>
        rw [hnone, Option.none_or] at hm
        exact hparked m (Option.join_eq_some_iff.mp hm)
    | failing turn observed hs hmarker _ _ =>
        rw [hmarker, Option.some_or] at hm
        cases hm
        exact hs
  have hturn := beginTurn_standing h.known hstored hfresh now pack
  have hsub : ∀ minted : Option String, ∀ r ∈ w.minted, r ∈ minted.toList ++ w.minted :=
    fun _ _ hr => List.mem_append_right _ hr
  have hruns : ∀ r ∈ (if (scope.marker.or w.parked.join).isNone then some runId else none).toList ++
      w.minted, RunOk (eventsOf log r) := by
    intro r hr
    rcases List.mem_append.mp hr with hr | hr
    · split at hr
      · rw [List.mem_singleton.mp hr, eventsOf_unknown h.known hfresh]
        exact runOk_nil
      · exact nomatch hr
    · exact h.runs r hr
  have hknown : ∀ e ∈ log, Known old ((if (scope.marker.or w.parked.join).isNone then some runId
      else none).toList ++ w.minted) e.2.runId := fun e he => (h.known e he).mono (hsub _)
  cases ending with
  | refused =>
      refine ⟨log, ?_, h.order, ?_, h.known, h.runs, ?_⟩
      · show log.Perm (w.recorded ++ [] ++ unreported 0 w.held)
        rw [List.append_nil]
        exact h.perm
      · show ∀ e ∈ log, e.1 < w.held.length
        exact hbound
      · show Phase old w.minted log w.parked (some ⟨scope, false⟩)
        rw [← hcur]
        exact h.phase
  | failed observed =>
      refine ⟨log, ?_, h.order, ?_, hknown, hruns, ?_⟩
      · show log.Perm (w.recorded ++ [] ++ unreported 0 w.held)
        rw [List.append_nil]
        exact h.perm
      · show ∀ e ∈ log, e.1 < w.held.length
        exact hbound
      · refine .failing (beginTurn w.parked scope runId now pack) observed hturn rfl rfl ?_
        show w.parked.map _ = none ∨ w.parked.map _ = _
        cases w.parked with
        | none => exact .inl rfl
        | some _ => exact .inr rfl
  | completed observed errorKind =>
      refine ⟨log ++ [(w.held.length, (beginTurn w.parked scope runId now pack).completed observed
        errorKind)], ?_, order_next h.order hbound _, forall_next ?_ ?_,
        forall_next hknown hturn.known, runs_next hturn hruns _ _ _, ?_⟩
      · exact perm_next h.perm _
      · exact fun e he => Nat.lt_succ_of_lt (hbound e he)
      · exact Nat.lt_succ_self _
      · exact .answered (fun _ hm => nomatch hm) rfl
  | waits observed =>
      refine ⟨log ++ [(w.held.length, (beginTurn w.parked scope runId now pack).waiting observed)],
        ?_, order_next h.order hbound _, forall_next ?_ ?_,
        forall_next hknown hturn.known, runs_next hturn hruns _ _ _, ?_⟩
      · exact perm_next h.perm _
      · exact fun e he => Nat.lt_succ_of_lt (hbound e he)
      · exact Nat.lt_succ_self _
      · refine .answered ?_ rfl
        intro m hm
        cases hm
        exact hturn.next _ observed (by decide)

/-- THE LOCK is released: a failure that was held back becomes an event. -/
theorem Numbered.release {r : Running} (h : Numbered old w log) (hcur : w.current = some r)
    (late : Bool) : ∃ log', Numbered old (w.release r late) log' := by
  have hlen : ∀ o, (w.held ++ [o]).length = w.held.length + 1 := fun _ => by simp
  have hphase := h.phase
  rw [hcur] at hphase
  have hkeep : r.scope.pendingFailure = none → ParkedOk old w.minted log w.parked →
      ∃ log', Numbered old (w.release r late) log' := by
    intro hp hparked
    have hnone : (if !r.answered || late then r.scope.pendingFailure else none) = none := by
      rw [hp, ite_self]
    refine ⟨log, ?_, h.order, ?_, h.known, h.runs, .free hparked⟩
    · rw [Audit.release, hnone, unreported_append]
      show log.Perm (w.recorded ++ (unreported 0 w.held ++ []))
      rw [List.append_nil]
      exact h.perm
    · intro e he
      have hlt := h.bound e he
      rw [Audit.ended] at hlt ⊢
      rw [Audit.release, hlen]
      dsimp only
      have hone : (if w.current.any (·.answered) then 1 else 0) ≤ 1 := by split <;> omega
      omega
  cases hphase with
  | begun hparked _ hp => exact hkeep hp hparked
  | answered hparked hp => exact hkeep hp hparked
  | @failing scope turn observed hs hm hp hstored =>
      have hended : w.ended = w.held.length := by rw [Audit.ended, hcur]; rfl
      have hbound : ∀ e ∈ log, e.1 < w.held.length := fun e he => hended ▸ h.bound e he
      have hsome : (if !false || late then scope.pendingFailure else none) =
          some (turn.failed observed) := by
        rw [hp]
        rfl
      refine ⟨log ++ [(w.held.length, turn.failed observed)], ?_, order_next h.order hbound _,
        forall_next ?_ ?_, forall_next h.known hs.known, runs_next hs h.runs _ _ _, .free ?_⟩
      · rw [Audit.release]
        dsimp only
        rw [hsome, unreported_append, Nat.zero_add]
        show (log ++ [_]).Perm (w.recorded ++ (unreported 0 w.held ++ [_]))
        rw [← List.append_assoc]
        exact h.perm.append_right _
      · intro e he
        rw [Audit.ended, Audit.release, hlen]
        exact Nat.lt_succ_of_lt (hbound e he)
      · rw [Audit.ended, Audit.release, hlen]
        exact Nat.lt_succ_self _
      · intro m hm'
        rcases hstored with hnone | hsome
        · exact nomatch hnone ▸ hm'
        · cases hsome ▸ hm'
          exact hs.next _ observed (by decide)

/-- A REPORT changes nothing but where the event is. -/
theorem Numbered.report {i : Nat} {o : RunOutcome} (h : Numbered old w log)
    (hi : w.held[i]? = some (some o)) : Numbered old (w.report i o) log := by
  refine ⟨?_, h.order, ?_, h.known, h.runs, h.phase⟩
  · have hset := unreported_set 0 hi
    rw [Nat.zero_add] at hset
    refine h.perm.trans ?_
    show (w.recorded ++ unreported 0 w.held).Perm
      (w.recorded ++ [(i, o)] ++ unreported 0 (w.held.set i none))
    rw [List.append_assoc]
    exact hset.append_left _
  · intro e he
    have hlt := h.bound e he
    rw [Audit.ended] at hlt ⊢
    rw [Audit.report, List.length_set]
    exact hlt

theorem Numbered.step {l : Label} (h : Numbered old w log) (hc : Fresh old w l)
    (hs : step w l = some w') : ∃ log', Numbered old w' log' := by
  cases l with
  | acquire =>
      dsimp only [RunAudit.step] at hs
      split at hs
      · rename_i hcur
        cases hs
        have hparked : ParkedOk old w.minted log w.parked := by
          have hphase := h.phase
          rw [hcur] at hphase
          cases hphase with
          | free hparked => exact hparked
        refine ⟨log, h.perm, h.order, ?_, h.known, h.runs, .begun hparked rfl rfl⟩
        intro e he
        have hlt := h.bound e he
        rw [Audit.ended, hcur] at hlt
        exact hlt
      · exact nomatch hs
  | attempt runId now pack ending =>
      dsimp only [RunAudit.step] at hs
      split at hs
      · rename_i scope hcur
        cases hs
        refine h.attempt hcur ?_ now pack ending
        rintro (hk | hk)
        · exact hc.1 hk
        · exact hc.2 hk
      · exact nomatch hs
  | release late =>
      dsimp only [RunAudit.step] at hs
      split at hs
      · rename_i r hcur
        cases hs
        exact h.release hcur late
      · exact nomatch hs
  | report i =>
      dsimp only [RunAudit.step] at hs
      split at hs
      · rename_i o hi
        cases hs
        exact ⟨log, h.report hi⟩
      · exact nomatch hs

end Steps

/-! ## Every interleaving -/

theorem numbered_start (old : Option (Option RunMarker)) : Numbered old (start old) [] where
  perm := List.Perm.nil
  order := .nil
  bound := fun _ h => nomatch h
  known := fun _ h => nomatch h
  runs := fun _ h => nomatch h
  phase := .free fun m hm => ⟨.inr (by rw [OldRun, show old = some (some m) from hm]; rfl), fun h => nomatch h⟩

/-- What the sink was handed, and what it will be: `log` has these events in the order in which
    their turns held the lock. -/
structure Audited (w : Audit) (log : List (Nat × RunOutcome)) : Prop where
  /-- they are the events reported and the failures still to report -/
  events : log.Perm (w.recorded ++ unreported 0 w.held)
  /-- each turn has one at most -/
  order : log.Pairwise fun a b => a.1 < b.1
  /-- those of a run are 1, 2, …, its kind never goes back, and its completion is the last -/
  runs : ∀ r ∈ w.minted, RunOk (eventsOf log r)

/-- **RUN-AUDIT EVENTS ARE NUMBERED**: in every interleaving of the turns of a conversation, the
    events of a run, in the order in which their turns held the lock, have the numbers 1, 2, …,
    n; the kind never goes back from agentic to flow, and nothing follows the completion; no
    turn is reported twice. -/
theorem run_numbered {old : Option (Option RunMarker)} {w : Audit}
    (h : Reach step (Fresh old) (start old) w) :
    (∃ log, Audited w log) ∧ (w.recorded.map (·.1)).Nodup := by
  have hinv : ∃ log, Numbered old w log :=
    Reach.inv (I := fun w => ∃ log, Numbered old w log) ⟨[], numbered_start old⟩
      (fun s l s' hi hc hs => hi.elim fun _ hn => hn.step hc hs) h
  obtain ⟨log, hn⟩ := hinv
  refine ⟨⟨log, hn.perm, hn.order, hn.runs⟩, ?_⟩
  have hnodup : (log.map (·.1)).Nodup := by
    refine List.pairwise_map.mpr (hn.order.imp ?_)
    exact fun hlt => Nat.ne_of_lt hlt
  have hall := (hn.perm.map (·.1)).nodup_iff.mp hnodup
  rw [List.map_append] at hall
  exact (List.nodup_append.mp hall).1

/-! ## A failure that is reported late -/

/-- A turn that saw no agentic node. -/
def plainTurn : ObservedTurn := ⟨false, none⟩

/-- A pack without an identity. -/
def noPack : WorkerIdentity := ⟨none, none, none⟩

/-- A run parks; the next turn fails and frees the lock before it reports; the turn after it
    completes the run; then the failure is reported. -/
def lateReport : List Label :=
  [.acquire, .attempt "01A" "t" noPack (.waits plainTurn), .release false,
    .acquire, .attempt "01B" "t" noPack (.failed plainTurn), .release false,
    .acquire, .attempt "01C" "t" noPack (.completed plainTurn false), .release false, .report 1]

/-- The events of a test run as the sink was handed them: turn, number and status. -/
def handed (w : Audit) : List (Nat × Nat × RunStatus) :=
  w.recorded.map fun e => (e.1, e.2.seq, e.2.status)

/-- The sink was handed these events. -/
def handedLate (w : Audit) : Bool :=
  decide (handed w = [(0, 1, .inProgress), (2, 3, .completed), (1, 2, .technicalError)])

/-- The run has an event after its completion, in the order of the sink. -/
def reportsAgain (w : Audit) : Bool :=
  decide (w.minted = ["01A"] ∧
    ¬ (eventsOf w.recorded "01A").Pairwise fun a _ => a.status ≠ .completed)

theorem run_numbered_late : ∃ w, Reach step (Fresh none) (start none) w ∧ handedLate w = true ∧
    (∃ log, Audited w log) ∧ (w.recorded.map (·.1)).Nodup := by
  have hreach : ∃ w, Reach step (Fresh none) (start none) w ∧ handedLate w = true :=
    Reach.of_test lateReport (by decide +kernel)
  obtain ⟨w, hw, ht⟩ := hreach
  exact ⟨w, hw, ht, run_numbered hw⟩

/-- A FAILURE AFTER THE COMPLETION: the events reach the sink in another order. -/
theorem failure_after_completed : ¬ ∀ w, Reach step (Fresh none) (start none) w →
    ∀ r ∈ w.minted, (eventsOf w.recorded r).Pairwise fun a _ => a.status ≠ .completed := by
  intro h
  have hreach : ∃ w, Reach step (Fresh none) (start none) w ∧ reportsAgain w = true :=
    Reach.of_test lateReport (by decide +kernel)
  obtain ⟨w, hw, ht⟩ := hreach
  obtain ⟨hminted, hnot⟩ := of_decide_eq_true ht
  exact hnot (h w hw "01A" (by rw [hminted]; exact List.mem_singleton.mpr rfl))

end Greentic.RunAudit
