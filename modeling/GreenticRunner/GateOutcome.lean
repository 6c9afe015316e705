import GreenticRunner.FlowWalk

/-! # The outcome of an approval gate

    The routes of a gate look at its OUTCOME.  A gate that lets the flow go on has one, which is
    `approved` only by a decision that the gate accepts or because the request needs no human: except
    that a request which is not awaited is sent and forgotten.

    * `FailsClosed` — what a gate hands to the routes;
    * `gate_fails_closed_iff` — a gate fails closed exactly when it does not forget. -/

namespace Greentic.FlowWalk

open Engine

variable {sha256 : List UInt8 → List UInt8} {requiresHuman : Json → Bool} {s : GateState}
  {v : GateVisit}

/-- The input of a gate. -/
def gateInput (v : GateVisit) : Json := (v.payload.get? "input").getD .null

/-- The entry is a response that the parked gate accepts, and it approves. -/
def HumanDecision (sha256 : List UInt8 → List UInt8) (s : GateState) (v : GateVisit) : Prop :=
  ∃ p, s.parked v.node = some p ∧ entryIsApprovalResponse s.entry = true ∧
    responseAuthenticates sha256 s.entry p = true ∧
    ∃ decision, (pointer s.entry "output" "decision").bind Json.asStr? = some decision ∧
      eqIgnoreAsciiCase decision "approved" = true

/-- A gate that lets the flow go on says how it was decided, and approves only by a human's decision or
    when it needs none. -/
def FailsClosed (sha256 : List UInt8 → List UInt8) (requiresHuman : Json → Bool) (s : GateState)
    (v : GateVisit) : Prop :=
  ∀ payload outcome,
    (executeApprovalCall sha256 requiresHuman s v).result = .ok (.complete payload outcome) →
      (outcome = some "approved" ∨ outcome = some "denied" ∨ outcome = some "timeout") ∧
      (outcome = some "approved" →
        HumanDecision sha256 s v ∨ requiresHuman (gateInput v) = false)

/-- The gate is not parked and needs a human, and its request is sent without waiting for the answer. -/
structure Forgets (requiresHuman : Json → Bool) (s : GateState) (v : GateVisit)
    (sender : Option (RemoteDispatch → Except String Unit)) : Prop where
  free : s.parked v.node = none
  human : requiresHuman (gateInput v) = true
  forget : (v.payload.get? "await").bind Json.asBool? = some false
  sent : ∃ send, sender = some send ∧ send v.dispatch = .ok ()

theorem outcome_cases (entry : Json) :
    approvalOutcomeFromEntry entry = "approved" ∨ approvalOutcomeFromEntry entry = "denied" ∨
      approvalOutcomeFromEntry entry = "timeout" := by
  unfold approvalOutcomeFromEntry
  split
  next => exact .inr (.inr rfl)
  next =>
    split
    next => exact .inr (.inl rfl)
    next =>
      split
      next => exact .inl rfl
      next => exact .inr (.inl rfl)

/-- A parked gate fails closed. -/
theorem FailsClosed.parked {p : ParkedApproval} (hp : s.parked v.node = some p) :
    FailsClosed sha256 requiresHuman s v := by
  intro payload outcome hr
  by_cases ha : (entryIsApprovalResponse s.entry && responseAuthenticates sha256 s.entry p) = true
  · rw [executeApprovalCall_accepted hp ha] at hr
    obtain ⟨-, rfl⟩ := NodeControl.complete.inj (Except.ok.inj hr)
    rw [outcome_strip]
    refine ⟨?_, fun happroved => .inl ⟨p, hp, ?_⟩⟩
    · rcases outcome_cases s.entry with h | h | h <;> rw [h] <;> simp
    · obtain ⟨hok, hauth⟩ := Bool.and_eq_true_iff.mp ha
      exact ⟨hok, hauth, (outcome_approved (Option.some.inj happroved)).2.2⟩
  · rw [executeApprovalCall_refused hp (Bool.eq_false_iff.mpr ha)] at hr
    exact nomatch hr

/-- A gate that is not parked and needs no human approves at once. -/
theorem FailsClosed.auto (hp : s.parked v.node = none) (hh : requiresHuman (gateInput v) = false) :
    FailsClosed sha256 requiresHuman s v := by
  intro payload outcome hr
  rw [executeApprovalCall, s.take_eq, hp, Option.map_none] at hr
  simp only at hr
  rw [if_pos (by rw [Bool.not_eq_true']; exact hh)] at hr
  obtain ⟨-, rfl⟩ := NodeControl.complete.inj (Except.ok.inj hr)
  exact ⟨.inl rfl, fun _ => .inr hh⟩

/-- The answer of a gate that asks. -/
theorem executeApprovalCall_asks (hp : s.parked v.node = none)
    (hh : requiresHuman (gateInput v) = true) :
    (executeApprovalCall sha256 requiresHuman s v).result = v.remote.2 := by
  rw [executeApprovalCall, s.take_eq, hp, Option.map_none]
  simp only
  rw [if_neg (by rw [Bool.not_eq_true', Bool.not_eq_false]; exact hh)]
  split
  next sent c h => rw [h]
  next sent result _ h => rw [h]

/-- **A GATE FAILS CLOSED UNLESS IT FORGETS ITS REQUEST**: for every payload, every state and every entry,
    a gate that lets the flow go on sets the outcome to `approved`, `denied` or `timeout`, and
    `approved` only by a decision that the gate accepts or when the request needs no human, exactly
    unless it needs a human and is sent with `await: false`. -/
theorem gate_fails_closed_iff (sha256 : List UInt8 → List UInt8) (requiresHuman : Json → Bool)
    (s : GateState) (v : GateVisit) (sender : Option (RemoteDispatch → Except String Unit))
    (hv : v.handler = sender.map dispatched) :
    FailsClosed sha256 requiresHuman s v ↔ ¬ Forgets requiresHuman s v sender := by
  constructor
  · intro h hforget
    obtain ⟨send, hsender, hsent⟩ := hforget.sent
    have hawait : v.dispatch.await = false := by
      show ((v.payload.get? "await").bind Json.asBool?).getD true = false
      rw [hforget.forget]
      rfl
    have hr : (executeApprovalCall sha256 requiresHuman s v).result = v.remote.2 :=
      executeApprovalCall_asks hforget.free hforget.human
    rw [GateVisit.remote, hv, hsender] at hr
    simp only [Option.map_some, dispatched, hsent, hawait] at hr
    obtain ⟨hout, -⟩ := h _ _ hr
    simp at hout
  · intro hnot
    cases hp : s.parked v.node with
    | some p => exact .parked hp
    | none =>
        cases hh : requiresHuman (gateInput v) with
        | false => exact .auto hp hh
        | true =>
            intro payload outcome hr
            rw [executeApprovalCall_asks hp hh, GateVisit.remote, hv] at hr
            cases hsender : sender with
            | none =>
                rw [hsender] at hr
                exact nomatch hr
            | some send =>
                rw [hsender] at hr
                simp only [Option.map_some, dispatched] at hr
                cases hsent : send v.dispatch with
                | error e =>
                    rw [hsent] at hr
                    exact nomatch hr
                | ok u =>
                    rw [hsent] at hr
                    cases hawait : v.dispatch.await with
                    | true =>
                        simp only [Except.map, hawait, if_true] at hr
                        exact nomatch hr
                    | false =>
                        refine absurd ⟨hp, hh, ?_, send, hsender, hsent⟩ hnot
                        have hdefault : ((v.payload.get? "await").bind Json.asBool?).getD true = false :=
                          hawait
                        cases hb : (v.payload.get? "await").bind Json.asBool? with
                        | none =>
                            rw [hb] at hdefault
                            exact nomatch hdefault
                        | some b =>
                            rw [hb] at hdefault
                            exact congrArg some hdefault

/-- A gate whose request is not awaited. -/
def forgottenVisit : GateVisit :=
  { askVisit with
    payload := .obj [("await", .bool false), ("input", .obj [])]
    handler := some (dispatched fun _ => .ok ()) }

theorem gate_fails_closed_iff_asked :
    FailsClosed gateDigest (fun _ => true) askedFlow.state
      { decisionVisit with handler := some (dispatched fun _ => .ok ()) } := by
  refine (gate_fails_closed_iff gateDigest (fun _ => true) askedFlow.state _ (some fun _ => .ok ())
    rfl).mpr ?_
  intro hforget
  exact nomatch hforget.free

/-- The flow goes on behind a gate that was never decided. -/
theorem forgotten_gate_open :
    ¬ ∀ (sha256 : List UInt8 → List UInt8) (requiresHuman : Json → Bool) (s : GateState) (v : GateVisit)
      (sender : Option (RemoteDispatch → Except String Unit)), v.handler = sender.map dispatched →
        FailsClosed sha256 requiresHuman s v := by
  intro h
  have hclosed := h gateDigest (fun _ => true) ⟨.null, [], []⟩ forgottenVisit (some fun _ => .ok ()) rfl
  obtain ⟨hout, -⟩ := hclosed _ none rfl
  simp at hout

end Greentic.FlowWalk
