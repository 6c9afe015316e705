import GreenticRunner.FlowEngine
import GreenticRunner.ResumptionTrace

/-! # Effects are not repeated

    An event of a message is an EFFECT when a node of an effectful kind returned, or failed with
    an error that is not marked as preceding its effects.

    * `handleMessage_traced` — no retry after an effect, and a write at the end;
    * `effects_once` — over the resume store, in every run in which no nested flow pauses with
      the only effects of the message;
    * `paused_park_kept` — one that does. -/

namespace Greentic.Drive

open Resumption Greentic.Engine

/-! ## Markers -/

namespace FlowError

/-- Context does not change whether an error is terminal. -/
theorem isTerminal_context (m : String) (e : FlowError) :
    (FlowError.context m e).isTerminal = e.isTerminal := by
  rw [isTerminal, causes, walk, List.any_cons]
  rfl

/-- Nor whether it came after effects. -/
theorem isAfterEffects_context (m : String) (e : FlowError) :
    (FlowError.context m e).isAfterEffects = e.isAfterEffects := by
  rw [isAfterEffects, causes, walk, List.any_cons]
  rfl

/-- An error after effects is terminal. -/
theorem isTerminal_of_afterEffects {e : FlowError} (h : e.isAfterEffects = true) :
    e.isTerminal = true := by
  obtain ⟨x, hx, hafter⟩ := List.any_eq_true.mp h
  refine List.any_eq_true.mpr ⟨x, hx, ?_⟩
  cases x with
  | afterEffects _ => rfl
  | _ => exact nomatch hafter

theorem not_shouldRetry {e : FlowError} (h : e.shouldRetry = true) : e.isTerminal = false := by
  rw [shouldRetry, Bool.and_eq_true, Bool.not_eq_true'] at h
  exact h.1

end FlowError

/-- A failure with effects is marked as one. -/
theorem terminalAfterEffects_marked (e : FlowError) :
    (terminalAfterEffects e true).isAfterEffects = true := by
  rw [terminalAfterEffects]
  split
  next h => simpa using h
  next =>
    rw [FlowError.isAfterEffects, FlowError.causes, FlowError.walk, List.any_cons]
    rfl

/-! ## Events -/

/-- An event of the handling of a message. -/
abbrev Ev : Type := Event FlowOp FlowOp.Res

/-- A node of an effectful kind returned, or failed without the pre-effect mark; a `flow.call`
    that fails is not one of them, the effects of its nested run are. -/
def isEffect : Ev → Bool
  | ⟨.dispatch _ _ kind _, r⟩ => kind.performsExternalEffect &&
      match (r : Except FlowError (NodeOutput × NodeControl)) with
      | .ok _ => true
      | .error e => !e.isPreEffect
  | ⟨.collect _ _, _⟩ => true
  | _ => false

/-- The depth of an effect. -/
def depthOf : Ev → Nat
  | ⟨.dispatch depth _ _ _, _⟩ => depth
  | ⟨.collect depth _, _⟩ => depth
  | _ => 0

/-- A second or later attempt of one of the two loops starts. -/
def isRetry : Ev → Bool
  | ⟨.turn n, _⟩ => decide (1 < n)
  | ⟨.attempt _ n, _⟩ => decide (1 < n)
  | _ => false

/-- The park is cleared or replaced. -/
def isWrite : Ev → Bool
  | ⟨.clear, _⟩ => true
  | ⟨.save _, _⟩ => true
  | _ => false

/-- The history holds an effect. -/
def Eff (h : List Ev) : Prop := ∃ e ∈ h, isEffect e = true

/-- The history holds an effect of a depth below `d`. -/
def EffBelow (d : Nat) (h : List Ev) : Prop := ∃ e ∈ h, isEffect e = true ∧ depthOf e < d

/-- A nested flow pauses before any effect of the message, or when a flow that called it has
    one of its own. -/
def PausesEarly (h : List Ev) : FlowOp → Prop
  | .paused d _ => ¬ Eff h ∨ EffBelow d h
  | _ => True

/-- Every pause of the history is one of these. -/
def Calm (h : List Ev) : Prop :=
  ∀ pre e post, h = pre ++ e :: post → PausesEarly pre e.1

/-- No attempt of a loop starts after an effect. -/
def Fresh (h : List Ev) (e : Ev) : Prop := isRetry e = true → ¬ Eff h

/-- What was added to a history: its effects are at least as deep as `d`. -/
def Deep (d : Nat) (h h' : List Ev) : Prop :=
  ∃ evs, h' = h ++ evs ∧ ∀ e ∈ evs, isEffect e = true → d ≤ depthOf e

section Histories

variable {d : Nat} {h h' h'' : List Ev} {e : Ev}

theorem Deep.refl (d : Nat) (h : List Ev) : Deep d h h :=
  ⟨[], (List.append_nil h).symm, fun _ he => nomatch he⟩

/-- One stretch after the other. -/
theorem Deep.trans (h1 : Deep d h h') (h2 : Deep d h' h'') : Deep d h h'' := by
  obtain ⟨evs, rfl, hevs⟩ := h1
  obtain ⟨evs', rfl, hevs'⟩ := h2
  refine ⟨evs ++ evs', List.append_assoc .., ?_⟩
  intro x hx
  rcases List.mem_append.mp hx with hx | hx
  · exact hevs x hx
  · exact hevs' x hx

theorem Deep.weaken {d' : Nat} (hd : d' ≤ d) (hdeep : Deep d h h') : Deep d' h h' := by
  obtain ⟨evs, rfl, hevs⟩ := hdeep
  exact ⟨evs, rfl, fun x hx heff => Nat.le_trans hd (hevs x hx heff)⟩

/-- One more event, whose effect is deep enough. -/
theorem Deep.event (he : isEffect e = true → d ≤ depthOf e) : Deep d h (h ++ [e]) := by
  refine ⟨[e], rfl, ?_⟩
  intro x hx
  rw [List.mem_singleton.mp hx]
  exact he

theorem EffBelow.eff (hb : EffBelow d h) : Eff h := by
  obtain ⟨x, hx, heff, -⟩ := hb
  exact ⟨x, hx, heff⟩

theorem EffBelow.weaken {d' : Nat} (hd : d ≤ d') (hb : EffBelow d h) : EffBelow d' h := by
  obtain ⟨x, hx, heff, hlt⟩ := hb
  exact ⟨x, hx, heff, Nat.lt_of_lt_of_le hlt hd⟩

/-- Nothing is below depth zero. -/
theorem EffBelow.zero (hb : EffBelow 0 h) : False := by
  obtain ⟨x, -, -, hlt⟩ := hb
  exact Nat.not_lt_zero _ hlt

/-- It is still there later. -/
theorem EffBelow.later {d' : Nat} (hdeep : Deep d' h h') (hb : EffBelow d h) : EffBelow d h' := by
  obtain ⟨evs, rfl, -⟩ := hdeep
  obtain ⟨x, hx, hrest⟩ := hb
  exact ⟨x, List.mem_append_left _ hx, hrest⟩

/-- What is below the added effects was there before. -/
theorem EffBelow.before (hdeep : Deep d h h') (hb : EffBelow d h') : EffBelow d h := by
  obtain ⟨evs, rfl, hevs⟩ := hdeep
  obtain ⟨x, hx, heff, hlt⟩ := hb
  rcases List.mem_append.mp hx with hx | hx
  · exact ⟨x, hx, heff, hlt⟩
  · exact absurd hlt (Nat.not_lt.mpr (hevs x hx heff))

end Histories

/-! ## Rules -/

section Rules

variable {α β : Type} {h : List Ev} {P : List Ev → α → Prop} {P' : List Ev → β → Prop}

/-- The program ends with a value that satisfies `P`. -/
def Ends (P : List Ev → α → Prop) (h : List Ev) (r : Except Empty α) : Prop :=
  ∀ a, r = .ok a → P h a

/-- Every event is fresh, and the program ends with `P`. -/
abbrev Traces (p : Turn α) (P : List Ev → α → Prop) (h : List Ev) : Prop :=
  p.Traced Fresh (Ends P) h

/-- A turn that is done. -/
theorem traces_ret {a : α} (ha : P h a) : Traces (.ret a) P h := by
  intro b hb
  cases hb
  exact ha

/-- One turn after the other. -/
theorem Traces.andThen {p : Turn α} {f : α → Turn β} (hp : Traces p P h)
    (hf : ∀ h a, P h a → Traces (f a) P' h) : Traces (p >>= f) P' h :=
  Prog.Traced.bind (fun h' a ha => hf h' a (ha a rfl)) (fun _ e => e.elim) hp

/-- A weaker postcondition. -/
theorem Traces.weaken {P₁ : List Ev → α → Prop} {p : Turn α} (hp : Traces p P h)
    (hP : ∀ h a, P h a → P₁ h a) : Traces p P₁ h :=
  hp.mono fun _ _ hr a ha => hP _ a (hr a ha)

/-- An operation that starts no attempt. -/
theorem traces_op {i : FlowOp} {f : i.Res → Turn β} (hi : ∀ r, isRetry ⟨i, r⟩ = false)
    (hf : ∀ r, Traces (f r) P' (h ++ [⟨i, r⟩])) : Traces (Prog.perform i >>= f) P' h := by
  intro r
  refine ⟨?_, hf r⟩
  intro hretry
  rw [hi r] at hretry
  exact nomatch hretry

end Rules

/-! ## One run of a flow -/

/-- The error stops both loops, and clears the park where every pause was early. -/
def Marked (h : List Ev) (e : FlowError) : Prop :=
  e.isTerminal = true ∧ (Calm h → e.isAfterEffects = true)

/-- What holds between two nodes of a run of depth `d` that started at `h₀`: an effect of this
    run has set the flag, every other one has one of a calling run beside it. -/
structure Between (d : Nat) (h₀ h : List Ev) (flag : Bool) : Prop where
  deep : Deep d h₀ h
  own : flag = true → EffBelow (d + 1) h
  flagged : Eff h → flag = true ∨ EffBelow d h

/-- The end of a run, with its flag. -/
def LoopPost (d : Nat) (h₀ h : List Ev) (r : Except FlowError FlowStatus × Bool) : Prop :=
  Deep d h₀ h ∧
    (Eff h → r.2 = true ∨ EffBelow d h ∨ ∀ e, r.1 = .error e → Marked h e)

/-- The end of a run. -/
def RunPost (d : Nat) (h₀ h : List Ev) (r : Except FlowError FlowStatus) : Prop :=
  Deep d h₀ h ∧ (Eff h → EffBelow d h ∨ ∀ e, r = .error e → Marked h e)

/-- The end of a `flow.call` of a run of depth `d`. -/
def CallPost (d : Nat) (h₀ h : List Ev) : Except FlowError NodeOutput → Prop
  | .ok _ => Deep d h₀ h ∧ EffBelow (d + 1) h
  | .error e => Deep (d + 1) h₀ h ∧ (Eff h → EffBelow (d + 1) h ∨ Marked h e)

/-- Nothing but events that are no effects. -/
def Silent (h h' : List Ev) : Prop := ∃ evs, h' = h ++ evs ∧ ∀ e ∈ evs, isEffect e = false

section Runs

variable {packId : String} {d : Nat} {h₀ h h' : List Ev} {flag : Bool}

theorem Silent.refl (h : List Ev) : Silent h h :=
  ⟨[], (List.append_nil h).symm, fun _ he => nomatch he⟩

/-- One more event that has no effect. -/
theorem Silent.event {e : Ev} (he : isEffect e = false) : Silent h (h ++ [e]) := by
  refine ⟨[e], rfl, ?_⟩
  intro x hx
  rw [List.mem_singleton.mp hx]
  exact he

/-- One silent stretch after the other. -/
theorem Silent.trans {h'' : List Ev} (h1 : Silent h h') (h2 : Silent h' h'') : Silent h h'' := by
  obtain ⟨evs, rfl, hevs⟩ := h1
  obtain ⟨evs', rfl, hevs'⟩ := h2
  refine ⟨evs ++ evs', List.append_assoc .., ?_⟩
  intro x hx
  rcases List.mem_append.mp hx with hx | hx
  · exact hevs x hx
  · exact hevs' x hx

/-- A silent stretch is deep, whatever the depth. -/
theorem Silent.deep (hs : Silent h h') : Deep d h h' := by
  obtain ⟨evs, rfl, hevs⟩ := hs
  refine ⟨evs, rfl, ?_⟩
  intro x hx heff
  rw [hevs x hx] at heff
  exact nomatch heff

theorem EffBelow.silent (hb : EffBelow d h) (hs : Silent h h') : EffBelow d h' := by
  have hdeep : Deep d h h' := hs.deep
  exact hb.later hdeep

/-- And its effects were there before. -/
theorem Silent.eff (hs : Silent h h') (he : Eff h') : Eff h := by
  obtain ⟨evs, rfl, hevs⟩ := hs
  obtain ⟨x, hx, heff⟩ := he
  rcases List.mem_append.mp hx with hx | hx
  · exact ⟨x, hx, heff⟩
  · rw [hevs x hx] at heff
    exact nomatch heff

theorem Between.start (hpre : Eff h → EffBelow d h) : Between d h h false :=
  ⟨.refl d h, (fun hno => nomatch hno), fun he => .inr (hpre he)⟩

/-- A silent stretch inside the loop. -/
theorem Between.silent (hb : Between d h₀ h flag) (hs : Silent h h') : Between d h₀ h' flag where
  deep := hb.deep.trans hs.deep
  own := fun hf => (hb.own hf).silent hs
  flagged := by
    intro he
    rcases hb.flagged (hs.eff he) with hf | hbelow
    · exact .inl hf
    · exact .inr (hbelow.silent hs)

theorem Between.effect (hb : Between d h₀ h flag) (hdeep : Deep d h h')
    (hown : EffBelow (d + 1) h') : Between d h₀ h' true :=
  ⟨hb.deep.trans hdeep, fun _ => hown, fun _ => .inl rfl⟩

/-- Where the loop ends. -/
theorem Between.post (hb : Between d h₀ h flag) (r : Except FlowError FlowStatus) :
    LoopPost d h₀ h (r, flag) := by
  refine ⟨hb.deep, ?_⟩
  intro he
  rcases hb.flagged he with hf | hbelow
  · exact .inl hf
  · exact .inr (.inl hbelow)

/-- Routing has no effect. -/
theorem route_traced (node : String) (output : NodeOutput) (routing : Routing) :
    Traces (route d node output routing) (fun h' _ => Silent h h') h := by
  cases routing with
  | next n => exact traces_ret (.refl h)
  | ends => exact traces_ret (.refl h)
  | reply => exact traces_ret (.refl h)
  | branch onStatus default =>
      rw [route]
      split <;> exact traces_ret (.refl h)
  | custom => exact traces_op (fun _ => rfl) fun _ => traces_ret (.event rfl)

/-- A jump has none. -/
theorem jumpTo_traced (redirects : Nat) (jump : JumpControl) (target : String) :
    Traces (jumpTo packId redirects jump target) (fun h' _ => Silent h h') h := by
  unfold jumpTo
  split
  next => exact traces_ret (.refl h)
  next =>
    refine traces_op (fun _ => rfl) fun r => ?_
    have hs : Silent h (h ++ [⟨FlowOp.load packId target, r⟩]) := .event rfl
    cases r with
    | error e => exact traces_ret hs
    | ok flow =>
        dsimp only
        cases jumpNode flow target jump.node with
        | error e => exact traces_ret hs
        | ok node =>
            dsimp only
            split <;> exact traces_ret hs

/-- What follows a node has none. -/
theorem follow_traced (cur : Cursor) (node : HostNode) (output : NodeOutput)
    (control : NodeControl) :
    Traces (follow packId d cur node output control) (fun h' _ => Silent h h') h := by
  unfold follow
  refine traces_op (fun _ => rfl) fun r => ?_
  have hs : Silent h (h ++ [⟨FlowOp.varsOut d cur.node, r⟩]) := .event rfl
  cases r with
  | error e => exact traces_ret hs
  | ok u =>
      cases control with
      | continues =>
          refine (route_traced cur.node output node.routing).andThen fun h' next hr => ?_
          cases next <;> exact traces_ret (hs.trans hr)
      | wait =>
          refine (route_traced cur.node output node.routing).andThen fun h' next hr => ?_
          cases next <;> exact traces_ret (hs.trans hr)
      | loopHere => exact traces_ret hs
      | awaitHere => exact traces_ret hs
      | respond => exact traces_ret hs
      | jump j =>
          refine (jumpTo_traced cur.redirects j _).andThen fun h' r hr => ?_
          cases r <;> exact traces_ret (hs.trans hr)

/-- What a dispatched node leaves behind. -/
def DispatchPost (d : Nat) (h₀ : List Ev) (flag : Bool) (kind : NodeKind) (h : List Ev) :
    Except FlowError (NodeOutput × NodeControl) → Prop
  | .ok _ => Between d h₀ h (flag || kind.performsExternalEffect)
  | .error e => LoopPost d h₀ h
      (.error e, flag || (kind.mayHavePartialEffectOnFailure && !e.isPreEffect))

/-- A nested run keeps to what is asked of a `flow.call`. -/
def CallSpec (d : Nat) (call : Json → Turn (Except FlowError NodeOutput)) : Prop :=
  ∀ payload h, (Eff h → EffBelow (d + 1) h) → Traces (call payload) (CallPost d h) h

/-- A call of another flow, as one dispatch of the loop. -/
theorem Between.called (hb : Between d h₀ h flag) {r : Except FlowError NodeOutput}
    (hr : CallPost d h h' r) :
    DispatchPost d h₀ flag .flowCall h' (r.map fun output => (output, .continues)) := by
  cases r with
  | ok output =>
      show Between d h₀ h' (flag || true)
      rw [Bool.or_true]
      exact hb.effect hr.1 hr.2
  | error e =>
      obtain ⟨hdeep, heff⟩ := hr
      have hdeep' : Deep d h h' := hdeep.weaken (Nat.le_succ d)
      refine ⟨hb.deep.trans hdeep', ?_⟩
      intro he
      show (flag || false) = true ∨ _
      rw [Bool.or_false]
      rcases heff he with hbelow | hmarked
      · rcases hb.flagged (hbelow.before hdeep).eff with hf | hb'
        · exact .inl hf
        · exact .inr (.inl (hb'.later hdeep'))
      · refine .inr (.inr ?_)
        intro e' he'
        cases he'
        exact hmarked

/-- An event of a node that is no `flow.call`. -/
theorem Between.dispatched (hb : Between d h₀ h flag) {node : String} {kind : NodeKind}
    {payload : Json} (hkind : kind ≠ .flowCall)
    (r : Except FlowError (NodeOutput × NodeControl)) :
    DispatchPost d h₀ flag kind (h ++ [⟨.dispatch d node kind payload, r⟩]) r := by
  have hkinds : kind.mayHavePartialEffectOnFailure = kind.performsExternalEffect := by
    rw [NodeKind.mayHavePartialEffectOnFailure, bne_iff_ne.mpr hkind, Bool.true_and]
  -- an effect of the event itself is one of depth `d`
  have hown (heff : isEffect ⟨.dispatch d node kind payload, r⟩ = true) :
      Between d h₀ (h ++ [⟨.dispatch d node kind payload, r⟩]) true := by
    refine hb.effect (.event fun _ => Nat.le_refl d) ?_
    exact ⟨_, List.mem_append_right _ (List.mem_singleton.mpr rfl), heff, Nat.lt_succ_self d⟩
  have hsame (hno : isEffect ⟨.dispatch d node kind payload, r⟩ = false) :
      Between d h₀ (h ++ [⟨.dispatch d node kind payload, r⟩]) flag := hb.silent (.event hno)
  cases r with
  | ok out =>
      show Between d h₀ _ (flag || kind.performsExternalEffect)
      cases hp : kind.performsExternalEffect with
      | true =>
          rw [Bool.or_true]
          exact hown (by rw [isEffect, hp]; rfl)
      | false =>
          rw [Bool.or_false]
          exact hsame (by rw [isEffect, hp]; rfl)
  | error e =>
      show LoopPost d h₀ _ (.error e, flag || _)
      rw [hkinds]
      cases hp : kind.performsExternalEffect && !e.isPreEffect with
      | true =>
          rw [Bool.or_true]
          exact (hown hp).post _
      | false =>
          rw [Bool.or_false]
          exact (hsame hp).post _

/-- One dispatch: its effects are at its own depth. -/
theorem dispatchNode_traced {call : Json → Turn (Except FlowError NodeOutput)}
    (hcall : CallSpec d call) (hb : Between d h₀ h flag) (node : String) (kind : NodeKind)
    (payload : Json) :
    Traces (dispatchNode d call node kind payload) (DispatchPost d h₀ flag kind) h := by
  by_cases hkind : kind = .flowCall
  · subst hkind
    have hpre : Eff h → EffBelow (d + 1) h := by
      intro he
      rcases hb.flagged he with hf | hbelow
      · exact hb.own hf
      · exact hbelow.weaken (Nat.le_succ d)
    refine (hcall payload h hpre).andThen fun h' r hr => ?_
    have hpost := hb.called hr
    cases r with
    | error e => exact traces_ret hpost
    | ok output => exact traces_ret hpost
  · have heq : dispatchNode d call node kind payload =
        Prog.perform (FlowOp.dispatch d node kind payload) := by
      cases kind with
      | flowCall => exact absurd rfl hkind
      | _ => rfl
    rw [heq]
    exact traces_op (fun _ => rfl) fun r => traces_ret (hb.dispatched hkind r)

/-- **ONE RUN**: by induction on the nodes that are left of the budget. -/
theorem driveLoop_traced {call : Json → Turn (Except FlowError NodeOutput)}
    (hcall : CallSpec d call) : ∀ (fuel : Nat) {cur : Cursor} {flag : Bool} {h : List Ev},
      Between d h₀ h flag →
      Traces (driveLoop packId d call fuel cur flag) (LoopPost d h₀) h := by
  intro fuel
  induction fuel with
  | zero =>
      intro cur flag h hb
      exact traces_ret (hb.post _)
  | succ fuel ih =>
      intro cur flag h hb
      rw [driveLoop]
      cases cur.flow.node? cur.node with
      | none => exact traces_ret (hb.post _)
      | some node =>
          refine traces_op (fun _ => rfl) fun r => ?_
          have hrender : Between d h₀ (h ++ [⟨FlowOp.render d cur.node, r⟩]) flag :=
            hb.silent (.event rfl)
          cases r with
          | error e => exact traces_ret (hrender.post _)
          | ok payload =>
              refine (dispatchNode_traced hcall hrender cur.node node.kind payload).andThen ?_
              intro h₁ r hr
              cases r with
              | error e => exact traces_ret hr
              | ok out =>
                  have hb₁ : Between d h₀ h₁ (flag || node.kind.performsExternalEffect) := hr
                  refine (follow_traced cur node out.1 out.2).andThen ?_
                  intro h₂ r hs
                  have hb₂ := hb₁.silent hs
                  rcases r with e | status | next
                  · exact traces_ret (hb₂.post _)
                  · exact traces_ret (hb₂.post _)
                  · exact ih hb₂

/-- A nested run of depth `d` keeps to what is asked of a run. -/
def RunSpec (d : Nat) (run : String → Turn (Except FlowError FlowStatus)) : Prop :=
  ∀ flowId h, (Eff h → EffBelow d h) → Traces (run flowId) (RunPost d h) h

theorem Marked.context {e : FlowError} (hm : Marked h e) (m : String) : Marked h (.context m e) :=
  ⟨(e.isTerminal_context m).trans hm.1, fun hc => (e.isAfterEffects_context m).trans (hm.2 hc)⟩

/-- The failure of a `flow.call` whose nested flow waits: nothing marks it, so it is a marked
    one only while such pauses are early. -/
theorem paused_callPost {h₁ : List Ev} {flowId m : String} (hrun : Deep (d + 1) h h₁) :
    CallPost d h (h₁ ++ [⟨.paused (d + 1) flowId, ()⟩]) (.error (.terminal m)) := by
  have hquiet : Silent h₁ (h₁ ++ [⟨.paused (d + 1) flowId, ()⟩]) := .event rfl
  refine ⟨hrun.trans hquiet.deep, ?_⟩
  intro he
  by_cases hbelow : EffBelow (d + 1) h₁
  · exact .inl (hbelow.silent hquiet)
  · refine .inr ⟨rfl, ?_⟩
    intro hcalm
    rcases hcalm h₁ _ [] rfl with hno | hb
    · exact absurd (hquiet.eff he) hno
    · exact absurd hb hbelow

/-- A call of a flow runs it one level deeper. -/
theorem flowCall_traced {run : Option (String → Turn (Except FlowError FlowStatus))}
    (hrun : ∀ f, run = some f → RunSpec (d + 1) f) : CallSpec d (flowCall d run) := by
  intro payload h hpre
  have hnone (e : FlowError) : CallPost d h h (.error e) :=
    ⟨.refl _ h, fun he => .inl (hpre he)⟩
  unfold flowCall
  cases flowCallPayload payload with
  | error e => exact traces_ret (hnone e)
  | ok flowId =>
      cases run with
      | none => exact traces_ret (hnone _)
      | some f =>
          refine (hrun f rfl flowId h hpre).andThen fun h₁ r hr => ?_
          obtain ⟨hdeep, heff⟩ := hr
          rcases r with e | status
          · refine traces_ret ⟨hdeep, ?_⟩
            intro he
            rcases heff he with hbelow | hmarked
            · exact .inl hbelow
            · exact .inr ((hmarked e rfl).context _)
          · cases status with
            | completed =>
                refine traces_op (fun _ => rfl) fun output => traces_ret ⟨?_, ?_⟩
                · exact (hdeep.weaken (Nat.le_succ d)).trans (.event fun _ => Nat.le_refl d)
                · exact ⟨_, List.mem_append_right _ (List.mem_singleton.mpr rfl), rfl,
                    Nat.lt_succ_self d⟩
            | waiting snapshot =>
                exact traces_op (fun _ => rfl) fun _ => traces_ret (paused_callPost hdeep)

/-- A drive that fails after an effect says so in its error. -/
theorem driveWith_traced {run : Option (String → Turn (Except FlowError FlowStatus))}
    (hrun : ∀ f, run = some f → RunSpec (d + 1) f) (from? : Option String) (flow : HostFlow)
    (flowId : String) (hpre : Eff h → EffBelow d h) :
    Traces (driveWith packId d run from? flow flowId) (RunPost d h) h := by
  unfold driveWith
  cases from?.or flow.entry? with
  | none => exact traces_ret ⟨.refl d h, fun he => .inl (hpre he)⟩
  | some node =>
      refine (driveLoop_traced (flowCall_traced hrun) maxStepsPerTurn (.start hpre)).andThen ?_
      rintro h₁ ⟨res, flag⟩ ⟨hdeep, heff⟩
      cases res with
      | ok status => exact traces_ret ⟨hdeep, fun _ => .inr (fun _ hno => nomatch hno)⟩
      | error e =>
          refine traces_ret ⟨hdeep, ?_⟩
          intro he
          rcases heff he with hflag | hbelow | hmarked
          · have hflag' : flag = true := hflag
            subst hflag'
            refine .inr fun e' he' => ?_
            cases he'
            have hafter := terminalAfterEffects_marked e
            exact ⟨FlowError.isTerminal_of_afterEffects hafter, fun _ => hafter⟩
          · exact .inl hbelow
          · refine .inr fun e' he' => ?_
            cases he'
            have hm := hmarked e rfl
            cases flag with
            | false => exact hm
            | true =>
                have hafter := terminalAfterEffects_marked e
                exact ⟨FlowError.isTerminal_of_afterEffects hafter, fun _ => hafter⟩

theorem RunPost.after {r : Except FlowError FlowStatus} {h₁ : List Ev} (hs : Silent h h₁)
    (hr : RunPost d h₁ h' r) : RunPost d h h' r :=
  ⟨hs.deep.trans hr.1, hr.2⟩

/-- So does one attempt. -/
theorem executeOnce_traced {drive : HostFlow → String → Turn (Except FlowError FlowStatus)}
    (hdrive : ∀ flow flowId h, (Eff h → EffBelow d h) →
      Traces (drive flow flowId) (RunPost d h) h) (flowId : String) (hpre : Eff h → EffBelow d h) :
    Traces (executeOnce packId flowId drive) (RunPost d h) h := by
  unfold executeOnce
  refine traces_op (fun _ => rfl) fun r => ?_
  have hs : Silent h (h ++ [⟨FlowOp.load packId flowId, r⟩]) := .event rfl
  have hpre' : Eff (h ++ [⟨FlowOp.load packId flowId, r⟩]) →
      EffBelow d (h ++ [⟨FlowOp.load packId flowId, r⟩]) :=
    fun he => (hpre (hs.eff he)).silent hs
  cases r with
  | error e => exact traces_ret ⟨hs.deep, fun he => .inl (hpre' he)⟩
  | ok flow =>
      dsimp only
      split
      next => exact (hdrive flow flowId _ hpre').weaken fun _ _ hr => hr.after hs
      next => exact traces_ret ⟨hs.deep, fun he => .inl (hpre' he)⟩

/-- A loop of one attempt. -/
theorem executeLoop_one {once : Turn (Except FlowError FlowStatus)}
    (honce : ∀ h, (Eff h → EffBelow d h) → Traces once (RunPost d h) h)
    (hpre : Eff h → EffBelow d h) : Traces (executeLoop d once 0 1) (RunPost d h) h := by
  refine traces_op (fun _ => rfl) fun r => ?_
  have hs : Silent h (h ++ [⟨FlowOp.attempt d 1, r⟩]) := .event rfl
  refine (honce _ ?_).weaken fun _ _ hr => hr.after hs
  intro he
  exact (hpre (hs.eff he)).silent hs

/-- **EVERY DEPTH**: by induction on the levels that are left. -/
theorem driveFlow_traced : ∀ (left : Nat) {d : Nat} {h : List Ev} (from? : Option String)
    (flow : HostFlow) (flowId : String), (Eff h → EffBelow d h) →
      Traces (driveFlow packId left d from? flow flowId) (RunPost d h) h := by
  intro left
  induction left with
  | zero =>
      intro d h from? flow flowId hpre
      refine driveWith_traced ?_ from? flow flowId hpre
      intro f hf
      exact nomatch hf
  | succ left ih =>
      intro d h from? flow flowId hpre
      refine driveWith_traced ?_ from? flow flowId hpre
      intro f hf flowId' h' hpre'
      cases hf
      refine executeLoop_one ?_ hpre'
      intro h'' hpre''
      refine executeOnce_traced ?_ flowId' hpre''
      intro flow₁ flowId₁ h₁ hpre₁
      exact ih none flow₁ flowId₁ hpre₁

/-! ## Messages -/

theorem no_effBelow_zero (hno : ¬ Eff h) : Eff h → EffBelow 0 h := fun he => absurd he hno

/-- The failure of a top-level run with effects is marked. -/
theorem RunPost.top {h₀ h : List Ev} {e : FlowError} (hr : RunPost 0 h₀ h (.error e))
    (he : Eff h) : Marked h e := by
  rcases hr.2 he with hbelow | hmarked
  · exact hbelow.zero.elim
  · exact hmarked e rfl

/-- **THE ENGINE'S RETRY LOOP** starts an attempt only where there was no effect. -/
theorem executeLoop_traced {once : Turn (Except FlowError FlowStatus)}
    (honce : ∀ h, ¬ Eff h → Traces once (RunPost 0 h) h) : ∀ (more n : Nat) {h : List Ev},
      ¬ Eff h → Traces (executeLoop 0 once more n) (fun _ _ => True) h := by
  intro more
  induction more with
  | zero =>
      intro n h hno
      refine fun r => ⟨fun _ => hno, ?_⟩
      have hs : Silent h (h ++ [⟨FlowOp.attempt 0 n, r⟩]) := .event rfl
      exact (honce _ fun he => hno (hs.eff he)).weaken fun _ _ _ => trivial
  | succ more ih =>
      intro n h hno
      refine fun r => ⟨fun _ => hno, ?_⟩
      have hs : Silent h (h ++ [⟨FlowOp.attempt 0 n, r⟩]) := .event rfl
      refine (honce _ fun he => hno (hs.eff he)).andThen fun h₁ r hr => ?_
      cases r with
      | ok status => exact traces_ret trivial
      | error e =>
          dsimp only
          split
          next hretry =>
            refine ih (n + 1) fun he => ?_
            have hterminal := (hr.top he).1
            rw [FlowError.not_shouldRetry hretry] at hterminal
            exact nomatch hterminal
          next => exact traces_ret trivial

/-- What a run of a message ends with: an error behind an effect is terminal, and then a nested
    flow paused with the only effects. -/
def RunMessagePost (h : List Ev) (r : Except FlowError FlowStatus) : Prop :=
  ∀ e, r = .error e → Eff h → e.isTerminal = true ∧ ¬ Calm h

/-- The entry check has no effect. -/
theorem checkEntry_traced (msg : FlowMessage) :
    Traces (checkEntry msg packId) (fun h' _ => Silent h h') h := by
  unfold checkEntry
  cases msg.entryNode with
  | none => exact traces_ret (.refl h)
  | some node =>
      refine traces_op (fun _ => rfl) fun r => ?_
      have hs : Silent h (h ++ [⟨FlowOp.load packId msg.flowId, r⟩]) := .event rfl
      cases r with
      | error e => exact traces_ret hs
      | ok flow =>
          dsimp only
          split <;> exact traces_ret hs

/-- A fresh run. -/
theorem executeSurfacing_traced (msg : FlowMessage) (hno : ¬ Eff h) :
    Traces (executeSurfacing msg packId) RunMessagePost h := by
  refine (checkEntry_traced msg).andThen fun h₁ r hs => ?_
  have hno₁ : ¬ Eff h₁ := fun he => hno (hs.eff he)
  cases r with
  | error e => exact traces_ret fun _ _ he => absurd he hno₁
  | ok u =>
      refine (executeLoop_traced ?_ msg.flowRetries 1 hno₁).andThen fun h₂ r _ => ?_
      · intro h₂ hno₂
        refine executeOnce_traced ?_ msg.flowId (no_effBelow_zero hno₂)
        intro flow flowId h₃ hpre
        exact driveFlow_traced maxFlowCallDepth msg.entryNode flow flowId hpre
      · -- a failure is rendered: the run counts as completed
        cases r <;> exact traces_ret fun _ hno => nomatch hno

/-- A resumed run. -/
theorem resumeSurfacing_traced (snapshot : ParkedFlow) (hno : ¬ Eff h) :
    Traces (resumeSurfacing snapshot) RunMessagePost h := by
  refine traces_op (fun _ => rfl) fun r => ?_
  have hs : Silent h (h ++ [⟨FlowOp.load snapshot.packId
    (snapshot.nextFlow.getD snapshot.flowId), r⟩]) := .event rfl
  have hno₁ : ¬ Eff (h ++ [⟨FlowOp.load snapshot.packId
    (snapshot.nextFlow.getD snapshot.flowId), r⟩]) := fun he => hno (hs.eff he)
  cases r with
  | error e => exact traces_ret fun _ _ he => absurd he hno₁
  | ok flow =>
      refine (driveFlow_traced maxFlowCallDepth (some snapshot.nextNode) flow _
        (no_effBelow_zero hno₁)).andThen fun h₁ r hr => ?_
      cases r with
      | ok status => exact traces_ret fun _ hno => nomatch hno
      | error e =>
          dsimp only
          split
          next => exact traces_ret fun _ hno => nomatch hno
          next hnot =>
            refine traces_ret fun e' he' heff => ?_
            cases he'
            obtain ⟨hterminal, hafter⟩ := hr.top heff
            exact ⟨hterminal, fun hcalm => hnot (hafter hcalm)⟩

/-- What a message ends with: the park is written last, or there was no effect, or a nested
    flow paused with the only effects and the error is terminal. -/
def MessagePost (h : List Ev) : Except RunnerError Unit → Prop
  | .ok _ => ∃ pre e, h = pre ++ [e] ∧ isWrite e = true
  | .error e => Eff h → e.isTerminal = true ∧ ¬ Calm h

/-- One attempt at a message, fresh or resumed. -/
theorem runMessage_traced (msg : FlowMessage) (parked : Option (Nat × ParkedFlow))
    (hno : ¬ Eff h) : Traces (runMessage msg packId parked) RunMessagePost h := by
  cases parked with
  | none => exact executeSurfacing_traced msg hno
  | some p => exact resumeSurfacing_traced p.2 hno

/-- One message under its lock. -/
theorem callTracedUnlocked_traced (msg : FlowMessage) (hno : ¬ Eff h) :
    Traces (callTracedUnlocked msg) MessagePost h := by
  refine traces_op (fun _ => rfl) fun fetched => ?_
  have hs₁ : Silent h (h ++ [⟨FlowOp.fetch, fetched⟩]) := .event rfl
  cases fetched with
  | error e => exact traces_ret fun he => absurd (hs₁.eff he) hno
  | ok parked =>
      refine traces_op (fun _ => rfl) fun resolved => ?_
      have hs₂ := hs₁.trans (.event (e := ⟨FlowOp.resolve, resolved⟩) rfl)
      have hno₂ : ¬ Eff _ := fun he => hno (hs₂.eff he)
      cases resolved with
      | error e => exact traces_ret fun he => absurd he hno₂
      | ok packId =>
          refine (runMessage_traced msg parked hno₂).andThen fun h₁ r hr => ?_
          rcases r with e | status
          · refine traces_ret fun he => ?_
            obtain ⟨hterminal, hcalm⟩ := hr e rfl he
            refine ⟨?_, hcalm⟩
            rw [classifyFlowError, if_pos hterminal]
            rfl
          · cases status with
            | completed => exact traces_op (fun _ => rfl) fun _ => traces_ret ⟨_, _, rfl, rfl⟩
            | waiting s => exact traces_op (fun _ => rfl) fun _ => traces_ret ⟨_, _, rfl, rfl⟩

/-- **THE STATE MACHINE'S RETRY** starts a turn only where there was no effect. -/
theorem retryTurns_traced (msg : FlowMessage) : ∀ (more n : Nat) {h : List Ev}, ¬ Eff h →
    Traces (retryTurns msg more n) MessagePost h := by
  intro more
  induction more with
  | zero =>
      intro n h hno
      refine fun r => ⟨fun _ => hno, ?_⟩
      have hs : Silent h (h ++ [⟨FlowOp.turn n, r⟩]) := .event rfl
      exact callTracedUnlocked_traced msg fun he => hno (hs.eff he)
  | succ more ih =>
      intro n h hno
      refine fun r => ⟨fun _ => hno, ?_⟩
      have hs : Silent h (h ++ [⟨FlowOp.turn n, r⟩]) := .event rfl
      refine (callTracedUnlocked_traced msg fun he => hno (hs.eff he)).andThen fun h₁ r hr => ?_
      cases r with
      | ok u => exact traces_ret hr
      | error e =>
          dsimp only
          split
          next hterminal => exact traces_ret hr
          next hretry =>
            refine ih (n + 1) fun he => ?_
            exact hretry (hr he).1

/-- One message, from an empty history. -/
theorem handleMessage_traced (msg : FlowMessage) : Traces (handleMessage msg) MessagePost [] := by
  refine retryTurns_traced msg msg.turnRetries 1 ?_
  rintro ⟨e, he, -⟩
  exact nomatch he

end Runs

/-! ## Over the resume store -/

/-- The park of the message's session with its number, the highest number, and what happened. -/
structure ParkStore where
  slot : Option (Nat × ParkedFlow)
  saved : Nat
  log : List Ev

/-- What an operation does to the park; a fetch may fail, the writes succeed. -/
def Stores (s : ParkStore) : (i : FlowOp) → i.Res → ParkStore → Prop
  | .fetch, r, s' => (∀ x, r = .ok x → x = s.slot) ∧ s'.slot = s.slot ∧ s'.saved = s.saved
  | .clear, _, s' => s'.slot = none ∧ s'.saved = s.saved
  | .save snapshot, _, s' => s'.slot = some (s.saved + 1, snapshot) ∧ s'.saved = s.saved + 1
  | _, _, s' => s'.slot = s.slot ∧ s'.saved = s.saved

/-- One operation of the handling of a message. -/
def execMessage (i : FlowOp) (s : ParkStore) (r : i.Res) (s' : ParkStore) : Prop :=
  Stores s i r s' ∧ s'.log = s.log ++ [⟨i, r⟩]

/-- A park that the message resumed. -/
def Resumed (h : List Ev) (n : Nat) (x : ParkedFlow) : Prop :=
  (⟨.fetch, .ok (some (n, x))⟩ : Ev) ∈ h

/-- No loop starts an attempt after an effect. -/
def NotRepeated (h : List Ev) : Prop :=
  ∀ pre e post, h = pre ++ e :: post → isEffect e = true → ∀ e' ∈ post, isRetry e' = false

/-- The numbers of the parks, and the last write. -/
structure StoreOk (s : ParkStore) : Prop where
  slot : ∀ n x, s.slot = some (n, x) → n ≤ s.saved
  resumed : ∀ n x, Resumed s.log n x → n ≤ s.saved
  repeated : NotRepeated s.log
  last : ∀ pre e, s.log = pre ++ [e] → isWrite e = true →
    ∀ n x, Resumed s.log n x → ∀ y, s.slot ≠ some (n, y)

/-- One more event that is new. -/
theorem NotRepeated.snoc {h : List Ev} {e : Ev} (hn : NotRepeated h) (he : Fresh h e) :
    NotRepeated (h ++ [e]) := by
  intro pre x post hlog heff e' he'
  rcases concat_split hlog with ⟨-, -, rfl⟩ | ⟨mid, rfl, rfl⟩
  · exact nomatch he'
  · rcases List.mem_append.mp he' with hmem | hlast
    · exact hn pre x mid rfl heff e' hmem
    · rw [List.mem_singleton.mp hlast]
      rw [Bool.eq_false_iff]
      intro hretry
      exact he hretry ⟨x, List.mem_append_right _ (List.mem_cons_self ..), heff⟩

/-- What has been resumed was resumed before, or just now. -/
theorem resumed_snoc {h : List Ev} {e : Ev} {n : Nat} {x : ParkedFlow}
    (hr : Resumed (h ++ [e]) n x) : Resumed h n x ∨ e = ⟨.fetch, .ok (some (n, x))⟩ := by
  rcases List.mem_append.mp hr with hmem | hlast
  · exact .inl hmem
  · exact .inr (List.mem_singleton.mp hlast).symm

/-- An operation that is no write keeps the park. -/
theorem Stores.kept {s s' : ParkStore} {i : FlowOp} {r : i.Res} (h : Stores s i r s')
    (hi : isWrite ⟨i, r⟩ = false) : s'.slot = s.slot ∧ s'.saved = s.saved := by
  cases i with
  | clear => exact nomatch hi
  | save snapshot => exact nomatch hi
  | fetch => exact h.2
  | _ => exact h

/-- One event keeps the store. -/
theorem StoreOk.step {s s' : ParkStore} {i : FlowOp} {r : i.Res} (h : StoreOk s)
    (he : execMessage i s r s') (hf : Fresh s.log ⟨i, r⟩) : StoreOk s' := by
  obtain ⟨hst, hlog⟩ := he
  have hresumed : ∀ n x, Resumed s'.log n x → n ≤ s.saved := by
    intro n x hr
    rw [hlog] at hr
    rcases resumed_snoc hr with hold | hnew
    · exact h.resumed n x hold
    · obtain ⟨rfl, hr'⟩ := Sigma.mk.inj hnew
      cases hr'
      exact h.slot n x (hst.1 _ rfl).symm
  have hrepeated : NotRepeated s'.log := by
    rw [hlog]
    exact h.repeated.snoc hf
  have hlast (P : Ev → Prop) (hP : P ⟨i, r⟩) : ∀ pre e, s'.log = pre ++ [e] → P e := by
    intro pre e heq
    rw [hlog] at heq
    have hlast := (List.append_inj' heq rfl).2
    cases hlast
    exact hP
  cases hw : isWrite ⟨i, r⟩ with
  | false =>
      obtain ⟨hslot, hsaved⟩ := hst.kept hw
      refine ⟨?_, ?_, hrepeated, ?_⟩
      · rw [hslot, hsaved]
        exact h.slot
      · rw [hsaved]
        exact hresumed
      · intro pre e heq hwrite
        have hno : isWrite e = false := hlast (isWrite · = false) hw pre e heq
        rw [hno] at hwrite
        exact nomatch hwrite
  | true =>
      cases i with
      | clear =>
          obtain ⟨hslot, hsaved⟩ := hst
          refine ⟨?_, ?_, hrepeated, ?_⟩
          · intro n x hx
            rw [hslot] at hx
            exact nomatch hx
          · rw [hsaved]
            exact hresumed
          · intro pre e _ _ n x _ y hy
            rw [hslot] at hy
            exact nomatch hy
      | save snapshot =>
          obtain ⟨hslot, hsaved⟩ := hst
          refine ⟨?_, ?_, hrepeated, ?_⟩
          · intro n x hx
            rw [hslot] at hx
            cases hx
            rw [hsaved]
          · intro n x hr
            rw [hsaved]
            exact Nat.le_succ_of_le (hresumed n x hr)
          · intro pre e _ _ n x hr y hy
            rw [hslot] at hy
            cases hy
            exact absurd (hresumed _ x hr) (Nat.not_le.mpr (Nat.lt_succ_self _))
      | _ => exact nomatch hw

/-- The handling of a message as a thread. -/
abbrev MessageThread : Type := Main FlowOp FlowOp.Res Empty Unit (Except RunnerError Unit)

/-- **EFFECTS ARE NOT REPEATED.**  While a message is handled no loop starts an attempt after an
    effect; and when the handling ends behind one, no park that the message resumed can be
    fetched any more, if every nested flow paused before any effect, or behind one of a flow
    that called it. -/
theorem effects_once {msg : FlowMessage} {slot : Option (Nat × ParkedFlow)} {saved : Nat}
    (hslot : ∀ n x, slot = some (n, x) → n ≤ saved) {es : List Ev} {q : MessageThread}
    {t : ParkStore}
    (hrun : Run execMessage (Main.lift (handleMessage msg)) ⟨slot, saved, []⟩ es q t) :
    (∀ pre e post, t.log = pre ++ e :: post → isEffect e = true →
      ∀ e' ∈ post, isRetry e' = false) ∧
    (∀ r, q.outcome? = some r → Eff t.log → Calm t.log →
      ∀ n x, Resumed t.log n x → ∀ y, t.slot ≠ some (n, y)) := by
  have hstart : StoreOk ⟨slot, saved, []⟩ := by
    refine ⟨hslot, ?_, ?_, ?_⟩
    · intro n x hr
      exact nomatch hr
    · intro pre e post hlog
      simp at hlog
    · intro pre e hlog
      simp at hlog
  obtain ⟨hok, hpost⟩ := Prog.Traced.run (f := ParkStore.log) (I := StoreOk)
    (fun i s r s' he => he.2) (fun s ev s' hs he hf => hs.step he hf) hrun
    (handleMessage_traced msg) hstart
  refine ⟨hok.repeated, ?_⟩
  intro r hr heff hcalm n x hres y
  cases r with
  | error e => exact e.elim
  | ok res =>
      have hend := hpost _ hr res rfl
      cases res with
      | error e => exact absurd hcalm (hend heff).2
      | ok u =>
          obtain ⟨pre, e, hlog, hwrite⟩ := hend
          exact hok.last pre e hlog hwrite n x hres y

/-! ## A shop -/

/-- A handler that answers with `a` what the park does not answer. -/
def answering (a : (i : FlowOp) → i.Res) : Handler FlowOp FlowOp.Res ParkStore
  | .fetch, s => (.ok s.slot, { s with log := s.log ++ [⟨.fetch, .ok s.slot⟩] })
  | .clear, s => ((), { s with slot := none, log := s.log ++ [⟨.clear, ()⟩] })
  | .save x, s => ((), ⟨some (s.saved + 1, x), s.saved + 1, s.log ++ [⟨.save x, ()⟩]⟩)
  | i, s => (a i, { s with log := s.log ++ [⟨i, a i⟩] })

/-- The fixed answers are answers the store may give. -/
theorem answering_exec (a : (i : FlowOp) → i.Res) (i : FlowOp) (s : ParkStore) :
    execMessage i s (answering a i s).1 (answering a i s).2 := by
  cases i with
  | fetch =>
      refine ⟨⟨?_, rfl, rfl⟩, rfl⟩
      intro x hx
      exact (Except.ok.inj hx).symm
  | clear => exact ⟨⟨rfl, rfl⟩, rfl⟩
  | save x => exact ⟨⟨rfl, rfl⟩, rfl⟩
  | _ => exact ⟨⟨rfl, rfl⟩, rfl⟩

/-- A message played with such a handler. -/
def playMessage (a : (i : FlowOp) → i.Res) (n : Nat) (msg : FlowMessage) (s : ParkStore) :
    MessageThread × ParkStore :=
  play (List.replicate n (0, answering a)) (Main.lift (handleMessage msg), s)

/-- Playing a message is a run of it. -/
theorem playMessage_run {a : (i : FlowOp) → i.Res} {n : Nat} {msg : FlowMessage} {s : ParkStore}
    {t : MessageThread × ParkStore} (ht : t = playMessage a n msg s) :
    ∃ es, Run execMessage (Main.lift (handleMessage msg)) s es t.1 t.2 := by
  subst ht
  refine play_sound _ ?_ _ _
  intro x hx i s
  rw [List.eq_of_mem_replicate hx]
  exact answering_exec a i s

/-- The order flow calls the booking flow; the booking flow books and asks for a date. -/
def shopFlow (flowId : String) : HostFlow :=
  if flowId = "booking" then
    ⟨"booking", none, [("book", ⟨.sorlaCall, .next "ask"⟩), ("ask", ⟨.wait, .next "book"⟩)], [], []⟩
  else ⟨"order", none, [("pay", ⟨.mcp, .next "call"⟩), ("call", ⟨.flowCall, .ends⟩)], [], []⟩

/-- Every node returns. -/
def shopAnswers : (i : FlowOp) → i.Res
  | .turn _ => ()
  | .fetch => .ok none
  | .resolve => .ok "shop"
  | .load _ flowId => .ok (shopFlow flowId)
  | .attempt _ _ => ()
  | .render _ _ => .ok (.obj [("flow_id", .str "booking")])
  | .dispatch _ _ kind _ => .ok (⟨.null, .null⟩, if kind = .wait then .wait else .continues)
  | .collect _ _ => ⟨.null, .null⟩
  | .paused _ _ => ()
  | .varsOut _ _ => .ok ()
  | .custom _ _ => .ends
  | .clear => ()
  | .save _ => ()

/-- A flow that waits in front of a node of the order flow. -/
def parkedAt (node : String) : ParkStore := ⟨some (1, ⟨"shop", "order", none, node⟩), 1, []⟩

def orderMessage : FlowMessage := ⟨"order", none, 2, 4⟩

/-- A message that resumes the order flow in front of a node. -/
def orderFrom (node : String) : MessageThread × ParkStore :=
  playMessage shopAnswers 18 orderMessage (parkedAt node)

/-- The pauses of a history, as a test. -/
def calmFrom (pre : List Ev) : List Ev → Bool
  | [] => true
  | e :: rest =>
      (match e with
        | ⟨.paused d _, _⟩ =>
            !pre.any isEffect || pre.any fun e => isEffect e && decide (depthOf e < d)
        | _ => true) && calmFrom (pre ++ [e]) rest

/-- The test of the remaining events is sound. -/
theorem calmFrom_sound : ∀ {rest pre : List Ev}, calmFrom pre rest = true →
    ∀ mid e post, rest = mid ++ e :: post → PausesEarly (pre ++ mid) e.1 := by
  intro rest
  induction rest with
  | nil =>
      intro pre _ mid e post hrest
      simp at hrest
  | cons x rest ih =>
      intro pre htest mid e post hrest
      obtain ⟨hx, hrec⟩ := Bool.and_eq_true_iff.mp htest
      cases mid with
      | nil =>
          obtain ⟨rfl, -⟩ := List.cons.inj hrest
          rw [List.append_nil]
          obtain ⟨i, r⟩ := x
          cases i with
          | paused d flowId =>
              rcases Bool.or_eq_true_iff.mp hx with hno | hbelow
              · left
                rintro ⟨y, hy, heff⟩
                rw [List.any_eq_true.mpr ⟨y, hy, heff⟩] at hno
                exact nomatch hno
              · right
                obtain ⟨y, hy, htest⟩ := List.any_eq_true.mp hbelow
                obtain ⟨heff, hlt⟩ := Bool.and_eq_true_iff.mp htest
                exact ⟨y, hy, heff, of_decide_eq_true hlt⟩
          | _ => trivial
      | cons y mid =>
          obtain ⟨rfl, hrest'⟩ := List.cons.inj hrest
          have hmid := ih hrec mid e post hrest'
          rwa [List.append_assoc, List.singleton_append] at hmid

theorem calm_of_test {h : List Ev} (ht : calmFrom [] h = true) : Calm h :=
  fun pre e post hh => calmFrom_sound ht pre e post hh

/-- The message resumed a park, as a test. -/
def resumedTest (n : Nat) (x : ParkedFlow) : Ev → Bool
  | ⟨.fetch, .ok (some (m, y))⟩ => decide (m = n ∧ y = x)
  | _ => false

/-- The test for a resumed run is sound. -/
theorem resumed_of_test {h : List Ev} {n : Nat} {x : ParkedFlow}
    (ht : h.any (resumedTest n x) = true) : Resumed h n x := by
  obtain ⟨⟨i, r⟩, he, htest⟩ := List.any_eq_true.mp ht
  cases i with
  | fetch =>
      rcases r with e | _ | ⟨m, y⟩
      · exact nomatch htest
      · exact nomatch htest
      · obtain ⟨rfl, rfl⟩ := of_decide_eq_true htest
        exact he
  | _ => exact nomatch htest

/-- The call pauses, and the payment of the order flow has marked the failure: the park is
    cleared. -/
theorem effects_once_paid : Eff (orderFrom "pay").2.log ∧
    Resumed (orderFrom "pay").2.log 1 ⟨"shop", "order", none, "pay"⟩ ∧
    ∀ y, (orderFrom "pay").2.slot ≠ some (1, y) := by
  have heff : Eff (orderFrom "pay").2.log := List.any_eq_true.mp (by decide +kernel)
  have hcalm : Calm (orderFrom "pay").2.log := calm_of_test (by decide +kernel)
  have hres : Resumed (orderFrom "pay").2.log 1 ⟨"shop", "order", none, "pay"⟩ :=
    resumed_of_test (by decide +kernel)
  have hdone : (orderFrom "pay").1.outcome?.isSome = true := by decide +kernel
  obtain ⟨r, hr⟩ := Option.isSome_iff_exists.mp hdone
  have hslot : ∀ n x, (parkedAt "pay").slot = some (n, x) → n ≤ (parkedAt "pay").saved := by
    intro n x hx
    cases hx
    exact Nat.le_refl 1
  obtain ⟨es, hrun⟩ := playMessage_run (t := orderFrom "pay") rfl
  exact ⟨heff, hres, (effects_once hslot hrun).2 r hr heff hcalm 1 _ hres⟩

/-- The booking of the nested flow is the only effect, and the nested flow pauses: the failure is
    terminal but not marked, and the park that the message resumed is kept. -/
theorem paused_park_kept : ∃ es,
    Run execMessage (Main.lift (handleMessage orderMessage)) (parkedAt "call") es
      (orderFrom "call").1 (orderFrom "call").2 ∧
    (orderFrom "call").1.outcome?.isSome = true ∧ Eff (orderFrom "call").2.log ∧
    Resumed (orderFrom "call").2.log 1 ⟨"shop", "order", none, "call"⟩ ∧
    (orderFrom "call").2.slot = some (1, ⟨"shop", "order", none, "call"⟩) := by
  obtain ⟨es, hrun⟩ := playMessage_run (t := orderFrom "call") rfl
  refine ⟨es, hrun, by decide +kernel, List.any_eq_true.mp (by decide +kernel),
    resumed_of_test (by decide +kernel), by decide +kernel⟩

end Greentic.Drive
