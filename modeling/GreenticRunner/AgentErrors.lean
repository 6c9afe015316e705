import GreenticRunner.AgentTurnProofs

/-! # Where the error of a turn comes from

    A turn that fails is retried by its caller when nothing ran.  What ran is in
    its trace, and so is the answer that made it fail:

    * `Fixed` — the errors whose text the runtime writes itself;
    * `TurnEnd` — a failed turn had no effect, or it ends with the error of its only
      fatal answer, or with a fixed one;
    * `runStep_turnEnd` — the same for every turn. -/

namespace Greentic.Aw

open Resumption

variable {h : List Ev} {x : StepEnv} {l : StepState}

/-! ## Effects and fatal answers -/

/-- The model was called, a tool was dispatched, a flow was started or resumed, or a
    state was saved. -/
def Effect : Ev → Prop
  | ⟨.complete _, _⟩ => True
  | ⟨.dispatch _ _, _⟩ => True
  | ⟨.invokeFlow _ _, _⟩ => True
  | ⟨.resumeFlow _ _ _, _⟩ => True
  | ⟨.save _, _⟩ => True
  | _ => False

/-- The error a turn ends with once it is given this answer. -/
def fatal : Ev → Option AgentError
  | ⟨.complete _, .error .serviceUnavailable⟩ => some .llmProviderUnavailable
  | ⟨.complete _, .error e⟩ => some (.llm e)
  | ⟨.evaluate g input, .deny info⟩ =>
      if g.mode = .enforce ∧ input.direction = .outbound then some (.guardrailDenied .outbound info)
      else none
  | _ => none

/-- The errors with a text of the runtime's own. -/
inductive Fixed : AgentError → Prop where
  | lockLost : Fixed .lockLost
  | unavailable (d : GuardrailDirection) (details : Option Json) :
      Fixed (.guardrailDenied d (unavailable details))

/-- No answer was fatal. -/
def Calm (h : List Ev) : Prop := ∀ ev ∈ h, fatal ev = none

/-- No answer was fatal and nothing had an effect. -/
def Still (h : List Ev) : Prop := ∀ ev ∈ h, fatal ev = none ∧ ¬ Effect ev

/-- The one fatal answer gave the error `e`. -/
def Sole (h : List Ev) (e : AgentError) : Prop :=
  (∃ ev ∈ h, fatal ev = some e) ∧ ∀ ev ∈ h, ∀ e', fatal ev = some e' → e' = e

/-- Something had an effect. -/
def Effective (h : List Ev) : Prop := ∃ ev ∈ h, Effect ev

theorem Still.calm (hs : Still h) : Calm h := fun ev hev => (hs ev hev).1

theorem Calm.append {h evs : List Ev} (hc : Calm h) (hevs : Calm evs) : Calm (h ++ evs) :=
  forall_append hc hevs

theorem Calm.snoc {e : Ev} (hc : Calm h) (he : fatal e = none) : Calm (h ++ [e]) :=
  forall_append hc (forall_singleton he)

theorem Still.append {h evs : List Ev} (hs : Still h) (hevs : Still evs) : Still (h ++ evs) :=
  forall_append hs hevs

theorem Still.snoc {e : Ev} (hs : Still h) (he : fatal e = none ∧ ¬ Effect e) :
    Still (h ++ [e]) :=
  forall_append hs (forall_singleton he)

theorem Effective.left {h evs : List Ev} (h1 : Effective h) : Effective (h ++ evs) := by
  obtain ⟨ev, hev, he⟩ := h1
  exact ⟨ev, List.mem_append_left _ hev, he⟩

/-- A fatal answer after calm ones. -/
theorem Sole.after {h evs : List Ev} {e : AgentError} (hs : Sole evs e) (hc : Calm h) :
    Sole (h ++ evs) e := by
  obtain ⟨⟨ev, hev, he⟩, honly⟩ := hs
  refine ⟨⟨ev, List.mem_append_right _ hev, he⟩, ?_⟩
  intro ev' hev' e' he'
  rcases List.mem_append.mp hev' with hin | hin
  · rw [hc ev' hin] at he'
    exact nomatch he'
  · exact honly ev' hin e' he'

/-- Calm answers after a fatal one. -/
theorem Sole.before {h evs : List Ev} {e : AgentError} (hs : Sole h e) (hc : Calm evs) :
    Sole (h ++ evs) e := by
  obtain ⟨⟨ev, hev, he⟩, honly⟩ := hs
  refine ⟨⟨ev, List.mem_append_left _ hev, he⟩, ?_⟩
  intro ev' hev' e' he'
  rcases List.mem_append.mp hev' with hin | hin
  · exact honly ev' hin e' he'
  · rw [hc ev' hin] at he'
    exact nomatch he'

theorem Sole.cons {ev : Ev} {evs : List Ev} {e : AgentError} (hs : Sole evs e)
    (hev : fatal ev = none) : Sole (ev :: evs) e :=
  hs.after (h := [ev]) (forall_singleton hev)

/-- No answer to a tool operation is fatal. -/
theorem ToolOp.calm {rt : AgentRuntime} {e : Ev} (h : ToolOp rt e.1) : fatal e = none := by
  obtain ⟨i, r⟩ := e
  cases i <;> first
    | exact False.elim h
    | rfl

/-- How a part of a turn ends: it goes on with no fatal answer so far, or it ends with
    a fixed error, or with the error of its only fatal answer after an effect. -/
def PartEnd {α : Type} (h : List Ev) : Except AgentError α → Prop
  | .ok _ => Calm h
  | .error e => (Calm h ∧ Fixed e) ∨ (Sole h e ∧ Effective h)

/-- How a turn ends: like a part of it, or with an error before it had any effect. -/
def TurnEnd {α : Type} (h : List Ev) : Except AgentError α → Prop
  | .ok _ => Calm h
  | .error e => (Calm h ∧ Fixed e) ∨ (Sole h e ∧ Effective h) ∨ Still h

/-- How a part of the turn ends, the turn ends. -/
theorem PartEnd.turnEnd {α : Type} {r : Except AgentError α} (hp : PartEnd h r) :
    TurnEnd h r := by
  cases r with
  | ok a => exact hp
  | error e =>
      rcases hp with h1 | h2
      · exact Or.inl h1
      · exact Or.inr (Or.inl h2)

/-- Every operation is allowed. -/
abbrev anyOp : List Ev → Ev → Prop := fun _ _ => True

/-! ## The lock and the model -/

/-- The lock check ends the turn only with its own error. -/
theorem ensureLockHeld_end (hc : Calm h) :
    ensureLockHeld.Traced anyOp PartEnd h := by
  rw [ensureLockHeld, Prog.perform_bind]
  intro r
  have hc' : Calm (h ++ [⟨.refresh, r⟩]) := hc.snoc rfl
  refine ⟨trivial, ?_⟩
  rcases r with er | u
  · cases er with
    | lockLost => exact Or.inl ⟨hc', .lockLost⟩
    | _ => exact hc'
  · exact hc'

/-- The history is saved where the lock is held; no answer to that is fatal. -/
theorem saveIfHeld_calm (x : StepEnv) (l : StepState) (h : List Ev) :
    (saveIfHeld x l).Traced anyOp (fun h' r => r = .ok () ∧ ∃ evs, h' = h ++ evs ∧ Calm evs) h := by
  have hsave : ∀ r : Except StateError Unit,
      (Prog.call (Op.save (l.bounded x)) fun _ => .ret () : Turn Unit).Traced anyOp
        (fun h' r => r = .ok () ∧ ∃ evs, h' = h ++ evs ∧ Calm evs) (h ++ [⟨.refresh, r⟩]) := by
    intro r r'
    refine ⟨trivial, rfl, [⟨.refresh, r⟩, ⟨.save (l.bounded x), r'⟩], List.append_assoc .., ?_⟩
    exact forall_append (h := [⟨.refresh, r⟩]) (forall_singleton rfl) (forall_singleton rfl)
  rw [saveIfHeld, Prog.perform_bind]
  intro r
  refine ⟨trivial, ?_⟩
  rcases r with er | u
  · cases er with
    | lockLost => exact ⟨rfl, [_], rfl, forall_singleton rfl⟩
    | _ => exact hsave _
  · exact hsave _

/-- The model failed: its answer is the fatal one. -/
theorem llmFailed_end {history : List ChatMessage}
    {e : LlmError} (hc : Calm h) :
    (llmFailed x l e).Traced anyOp (fun h' r => ∃ e', r = .error e' ∧ Sole h' e' ∧ Effective h')
      (h ++ [⟨.complete history, .error e⟩]) := by
  have heffect : Effective (h ++ [⟨.complete history, .error e⟩]) :=
    ⟨_, List.mem_append_right _ (List.mem_singleton.mpr rfl), trivial⟩
  have hsole : ∀ err, fatal ⟨.complete history, .error e⟩ = some err →
      Sole (h ++ [⟨.complete history, .error e⟩]) err := by
    intro err herr
    refine Sole.after ⟨⟨_, List.mem_singleton.mpr rfl, herr⟩, ?_⟩ hc
    intro ev hev e' he'
    rw [List.mem_singleton.mp hev, herr] at he'
    exact (Option.some.inj he').symm
  cases e <;> refine Prog.Traced.bind ?_ ?_ (saveIfHeld_calm x l _)
  all_goals first
    | rintro h' u ⟨-, evs, rfl, hevs⟩
      exact ⟨_, rfl, (hsole _ rfl).before hevs, heffect.left⟩
    | rintro h' e' ⟨hr, -⟩
      exact nomatch hr

/-! ## The loop -/

/-- A round that ended without an error: a final reply was written by the model. -/
def Kept (h : List Ev) (l : StepState) : Prop :=
  Calm h ∧ (Final l.terminatedBy → Effective h)

/-- How a round ends. -/
def RoundEnd (h : List Ev) : Except AgentError (StepState × Bool) → Prop
  | .ok (l, _) => Kept h l
  | .error e => (Calm h ∧ Fixed e) ∨ (Sole h e ∧ Effective h)

/-- The answer to a response of the model: tools run, nothing is fatal. -/
theorem respond_end {response : LlmResponse}
    (hc : Calm h) (heff : Effective h) : (respond x l response).Traced anyOp RoundEnd h := by
  rw [respond]
  split
  · exact ⟨hc, fun _ => heff⟩
  · refine Prog.Traced.bind ?_ ?_
      (@ensureUniqueCallIds_traced x.rt _ (fun _ _ _ => trivial) response.toolCalls [] h)
    · rintro h' calls ⟨evs, calls', -, rfl, hevs, -⟩
      have hc' : Calm (h ++ evs) := hc.append fun e he => (hevs e he).1.calm
      split
      · exact ⟨hc', fun _ => heff.left⟩
      · rw [act]
        refine Prog.Traced.bind ?_ ?_ (runCalls_traced (fun _ _ _ => trivial) calls _ (h ++ evs))
        · rintro h'' l' ⟨evs', l'', -, rfl, hops, -⟩
          have hkept : ∀ l : StepState, Kept (h ++ evs ++ evs') l := by
            intro l
            exact ⟨hc'.append fun e he => (hops e he).calm, fun _ => heff.left.left⟩
          split
          · exact hkept _
          · split
            · exact hkept _
            · exact hkept _
        · rintro h'' e ⟨evs', l'', hr, -⟩
          cases hr
    · rintro h' e ⟨evs, calls', hr, -⟩
      cases hr

/-- One round of the loop. -/
theorem iteration_end (hc : Calm h) :
    (iteration x l).Traced anyOp RoundEnd h := by
  rw [iteration]
  refine Prog.Traced.bind ?_ ?_ (ensureLockHeld_end hc)
  · intro h' _ hc'
    rw [Prog.perform_bind]
    intro elapsed
    have hc₂ : Calm (h' ++ [⟨.elapsed, elapsed⟩]) := Calm.snoc hc' rfl
    refine ⟨trivial, ?_⟩
    beta_reduce
    split
    · exact ⟨hc₂, fun hf => absurd hf not_final_timeout⟩
    · rw [Prog.perform_bind]
      intro answer
      refine ⟨trivial, ?_⟩
      cases answer with
      | timedOut => exact ⟨hc₂.snoc rfl, fun hf => absurd hf not_final_timeout⟩
      | error e =>
          refine Prog.Traced.mono ?_ (llmFailed_end hc₂)
          rintro h'' r ⟨e', rfl, hend⟩
          exact Or.inr hend
      | response response =>
          refine respond_end (hc₂.snoc rfl) ?_
          exact ⟨_, List.mem_append_right _ (List.mem_singleton.mpr rfl), trivial⟩
  · intro h' e hr
    exact hr

/-- How the loop ends. -/
def LoopEnd (h : List Ev) : Except AgentError StepState → Prop
  | .ok l => Kept h l
  | .error e => (Calm h ∧ Fixed e) ∨ (Sole h e ∧ Effective h)

/-- **THE LOOP** ends with the error of its only fatal answer, or with a fixed one. -/
theorem planActObserve_end :
    ∀ (n iter : Nat) (l : StepState) (h : List Ev), Kept h l →
      (planActObserve x n iter l).Traced anyOp LoopEnd h := by
  intro n
  induction n with
  | zero =>
      intro iter l h hk
      exact hk
  | succ n ih =>
      intro iter l h hk
      rw [planActObserve]
      refine Prog.Traced.bind ?_ ?_ (iteration_end hk.1)
      · rintro h' ⟨l', again⟩ hk'
        cases again with
        | true => exact ih (iter + 1) l' h' hk'
        | false => exact hk'
      · intro h' e hr
        exact hr

/-! ## The guardrail chain -/

/-- How a chain ends: it passes, or it denies, and a denial of a reply in the words of
    a guardrail is its only fatal answer. -/
def ChainEnd (d : GuardrailDirection) (evs : List Ev) : ChainOutcome → Prop
  | .pass _ _ => Calm evs
  | .denied info d' _ => d' = d ∧ ((Calm evs ∧ (d = .inbound ∨ info = unavailable none))
      ∨ (d = .outbound ∧ Sole evs (.guardrailDenied .outbound info)))

/-- A guardrail that lets the text pass, in front of the chain. -/
theorem ChainEnd.cons {d : GuardrailDirection} {ev : Ev} {evs : List Ev} {out : ChainOutcome}
    (h : ChainEnd d evs out) (hev : fatal ev = none) : ChainEnd d (ev :: evs) out := by
  have hcalm : ∀ {evs : List Ev}, Calm evs → Calm (ev :: evs) := by
    intro evs hc
    exact Calm.append (h := [ev]) (forall_singleton hev) hc
  cases out with
  | pass content obs => exact hcalm h
  | denied info d' obs =>
      obtain ⟨hd, ⟨hc, hi⟩ | ⟨hout, hs⟩⟩ := h
      · exact ⟨hd, Or.inl ⟨hcalm hc, hi⟩⟩
      · exact ⟨hd, Or.inr ⟨hout, hs.cons hev⟩⟩

/-- A chain ends with the answer of its last guardrail. -/
theorem runChain_end (ctx : GuardrailRunCtx) (d : GuardrailDirection) :
    ∀ (chain : List ResolvedGuardrail) (content : String) (obs : List GuardrailObservation)
      (h : List Ev),
      (runChain ctx d chain content obs).Traced anyOp (fun h' r => ∃ evs out, h' = h ++ evs ∧
        (∀ e ∈ evs, IsEvaluate e) ∧ r = .ok out ∧ ChainEnd d evs out) h := by
  intro chain
  induction chain with
  | nil =>
      intro content obs h
      refine ⟨[], _, (List.append_nil h).symm, (fun e he => nomatch he), rfl, ?_⟩
      exact fun e he => nomatch he
  | cons g rest ih =>
      intro content obs h
      rw [runChain, Prog.perform_bind]
      intro v
      refine ⟨trivial, ?_⟩
      have hone : ∀ e ∈ [(⟨.evaluate g (guardrailInput ctx d g content), v⟩ : Ev)],
          IsEvaluate e := forall_singleton trivial
      -- an answer that is not fatal in front of what the rest of the chain does
      have hrest : ∀ (content₁ : String) (obs₁ : List GuardrailObservation),
          fatal ⟨.evaluate g (guardrailInput ctx d g content), v⟩ = none →
          (runChain ctx d rest content₁ obs₁).Traced anyOp (fun h' r => ∃ evs out, h' = h ++ evs ∧
            (∀ e ∈ evs, IsEvaluate e) ∧ r = .ok out ∧ ChainEnd d evs out)
            (h ++ [⟨.evaluate g (guardrailInput ctx d g content), v⟩]) := by
        intro content₁ obs₁ hcalm
        refine Prog.Traced.mono ?_ (ih content₁ obs₁ _)
        rintro h' r ⟨evs, out, rfl, hevs, rfl, hend⟩
        exact ⟨_ :: evs, out, by simp, forall_append hone hevs, rfl, hend.cons hcalm⟩
      have hdenied : ∀ (info : GuardrailDenyInfo) (o : GuardrailObservation),
          ChainEnd d [⟨.evaluate g (guardrailInput ctx d g content), v⟩] (.denied info d o) →
          ∃ evs out, h ++ [⟨.evaluate g (guardrailInput ctx d g content), v⟩] = h ++ evs ∧
            (∀ e ∈ evs, IsEvaluate e) ∧
            (.ok (.denied info d o) : Except AgentError ChainOutcome) = .ok out ∧
            ChainEnd d evs out := by
        intro info o hend
        exact ⟨_, _, rfl, hone, rfl, hend⟩
      cases v with
      | accept => exact hrest content obs rfl
      | update newContent => exact hrest newContent obs rfl
      | deny info =>
          cases hm : g.mode with
          | monitor =>
              refine hrest content _ ?_
              simp [fatal, hm]
          | enforce =>
              refine hdenied info _ ⟨rfl, ?_⟩
              cases d with
              | inbound => exact Or.inl ⟨forall_singleton (by simp [fatal, guardrailInput]), Or.inl rfl⟩
              | outbound =>
                  refine Or.inr ⟨rfl, ⟨_, List.mem_singleton.mpr rfl, ?_⟩, ?_⟩
                  · simp [fatal, guardrailInput, hm]
                  · intro ev hev e' he'
                    rw [List.mem_singleton.mp hev] at he'
                    simpa [fatal, guardrailInput, hm] using he'.symm
      | error reason =>
          cases hm : g.mandatory with
          | true =>
              simp only [if_true]
              exact hdenied _ _ ⟨rfl, Or.inl ⟨forall_singleton rfl, Or.inr rfl⟩⟩
          | false => exact hrest content obs rfl
      | panic => exact hdenied _ _ ⟨rfl, Or.inl ⟨forall_singleton rfl, Or.inr rfl⟩⟩

/-- How a chain run by the loop ends, after what happened before it. -/
def BlockingEnd (d : GuardrailDirection) (evs : List Ev) : Except AgentError String → Prop
  | .ok _ => Calm evs
  | .error e => (Calm evs ∧ (d = .inbound ∨ Fixed e)) ∨ (d = .outbound ∧ Sole evs e)

/-- A blocking chain, with its error. -/
theorem runChainBlocking_end (ctx : GuardrailRunCtx) (chain : List ResolvedGuardrail)
    (d : GuardrailDirection) (content : String) (h : List Ev) :
    (runChainBlocking ctx chain d content).Traced anyOp (fun h' r => ∃ evs, h' = h ++ evs ∧
      (∀ e ∈ evs, ¬ Effect e) ∧ BlockingEnd d evs r) h := by
  rw [runChainBlocking, Prog.perform_bind]
  intro u
  refine ⟨trivial, ?_⟩
  refine Prog.Traced.bind ?_ ?_ (runChain_end ctx d chain content [] _)
  · rintro h' out ⟨evs, out', rfl, hevs, hr, hend⟩
    cases hr
    have happ : h ++ [⟨.chain d content, u⟩] ++ evs = h ++ ⟨.chain d content, u⟩ :: evs := by
      rw [List.append_assoc]
      rfl
    have hquiet : ∀ e ∈ (⟨.chain d content, u⟩ :: evs : List Ev), ¬ Effect e := by
      refine forall_append (h := [⟨.chain d content, u⟩]) (forall_singleton fun h => h) ?_
      rintro ⟨i, r⟩ he heff
      have hev := hevs _ he
      cases i <;> first
        | exact hev
        | exact heff
    have hstart : fatal ⟨.chain d content, u⟩ = none := rfl
    have hend' := hend.cons hstart
    rw [happ]
    cases out with
    | pass content' obs => exact ⟨_, rfl, hquiet, hend'⟩
    | denied info d' obs =>
        refine ⟨_, rfl, hquiet, ?_⟩
        obtain ⟨rfl, ⟨hc, rfl | rfl⟩ | ⟨rfl, hs⟩⟩ := hend'
        · exact Or.inl ⟨hc, Or.inl rfl⟩
        · exact Or.inl ⟨hc, Or.inr (.unavailable _ _)⟩
        · exact Or.inr ⟨rfl, hs⟩
  · rintro h' e ⟨evs, out, -, -, hr, -⟩
    cases hr

/-! ## The turn -/

/-- The last save. -/
theorem saveAndReturn_end (sideTurn : Bool)
    (hc : Calm h) : (saveAndReturn x l sideTurn).Traced anyOp PartEnd h := by
  rw [saveAndReturn]
  refine Prog.Traced.bind ?_ ?_ (ensureLockHeld_end hc)
  · intro h' _ hc'
    rw [Prog.perform_bind]
    intro r
    exact ⟨trivial, Calm.snoc hc' rfl⟩
  · intro h' e hr
    exact hr

/-- A reply, saved and returned. -/
theorem finishReply_end (hc : Calm h)
    (heff : Effective h) : (finishReply x l).Traced anyOp PartEnd h := by
  rw [finishReply]
  refine Prog.Traced.bind ?_ ?_ (runChainBlocking_end x.ctx x.chain .outbound l.reply h)
  · rintro h' reply ⟨evs, rfl, -, hevs⟩
    exact saveAndReturn_end _ (hc.append hevs)
  · rintro h' e ⟨evs, rfl, -, ⟨hcalm, hd | hf⟩ | ⟨-, hs⟩⟩
    · cases hd
    · exact Or.inl ⟨hc.append hcalm, hf⟩
    · exact Or.inr ⟨hs.after hc, heff.left⟩

/-- The end of the turn, whatever the loop has left. -/
theorem finish_end (hk : Kept h l) :
    (finish x l).Traced anyOp PartEnd h := by
  unfold finish
  split
  · rename_i hr
    exact finishReply_end hk.1 (hk.2 (Or.inl hr))
  · rename_i hr
    exact finishReply_end hk.1 (hk.2 (Or.inr hr))
  · exact saveAndReturn_end _ hk.1

/-- The loop and the end of a turn. -/
theorem loop_end (hk : Kept h l) (n iter : Nat) :
    (planActObserve x n iter l >>= finish x).Traced anyOp PartEnd h := by
  refine Prog.Traced.bind ?_ ?_ (planActObserve_end n iter l h hk)
  · intro h' l' hk'
    exact finish_end hk'
  · intro h' e hr
    exact hr

/-- A turn for a message. -/
theorem messageTurn_end (state : ConversationState)
    (trail : List AgentStep) (message : AgentInput) (hs : Still h) :
    (messageTurn x state trail message).Traced anyOp TurnEnd h := by
  rw [messageTurn]
  refine Prog.Traced.bind ?_ ?_ (runChainBlocking_end x.ctx x.chain .inbound message.text h)
  · rintro h' text ⟨evs, rfl, -, hevs⟩
    refine Prog.Traced.mono (fun _ _ hp => PartEnd.turnEnd hp) (loop_end ?_ _ _)
    exact ⟨hs.calm.append hevs, fun hf => absurd hf not_final_maxIterations⟩
  · rintro h' e ⟨evs, rfl, hquiet, ⟨hcalm, -⟩ | ⟨hd, -⟩⟩
    · refine Or.inr (Or.inr (hs.append ?_))
      exact fun ev hev => ⟨hcalm ev hev, hquiet ev hev⟩
    · cases hd

/-- The resume of a parked flow: no answer to it is fatal, and no reply is final yet. -/
theorem resumePending_kept (l : StepState) (pending : PendingToolCall) (payload : Json)
    (hc : Calm h) :
    (resumePending l pending payload).Traced anyOp
      (fun h' r => ∃ l', r = .ok l' ∧ Calm h' ∧ l'.terminatedBy = l.terminatedBy) h := by
  have hcompleted : ∀ (h : List Ev) (result : Json), Calm h →
      (resumeCompleted l pending result).Traced anyOp
        (fun h' r => ∃ l', r = .ok l' ∧ Calm h' ∧ l'.terminatedBy = l.terminatedBy) h := by
    intro h result hc
    rw [resumeCompleted, Prog.perform_bind]
    intro r
    exact ⟨trivial, _, rfl, hc.snoc rfl, rfl⟩
  rw [resumePending, Prog.perform_bind]
  intro answer
  have hc' : Calm (h ++ [⟨.resumeFlow pending.flowRef pending.flowSnapshot payload, answer⟩]) :=
    hc.snoc rfl
  refine ⟨trivial, ?_⟩
  cases answer with
  | none => exact hcompleted _ _ hc'
  | some outcome =>
      cases outcome with
      | completed result => exact hcompleted _ _ hc'
      | waiting snapshot presentation =>
          show (resumeWaiting l pending snapshot presentation).Traced anyOp _ _
          rw [resumeWaiting, Prog.perform_bind]
          intro now
          exact ⟨trivial, _, rfl, hc'.snoc rfl, rfl⟩

/-- Noting attachments does not terminate the turn. -/
theorem noteAttachments_terminatedBy (l : StepState) (resumed : PendingToolCall) (count : Nat) :
    (l.noteAttachments resumed count).terminatedBy = l.terminatedBy := by
  unfold StepState.noteAttachments
  split <;> rfl

/-- A turn for a pending call. -/
theorem resumeTurn_end (state : ConversationState)
    (pending : PendingToolCall) (payload : Json) (message : AgentInput) (hc : Calm h) :
    (resumeTurn x state pending payload message).Traced anyOp PartEnd h := by
  rw [resumeTurn]
  refine Prog.Traced.bind ?_ ?_ (?_ : (resumeStep (.start state []) pending payload
    message.attachments.length).Traced anyOp LoopEnd h)
  · intro h' l hk
    exact loop_end hk _ _
  · intro h' e hr
    exact hr
  · rw [resumeStep]
    refine Prog.Traced.bind ?_ ?_ (resumePending_kept _ pending payload hc)
    · rintro h' l' ⟨l'', hr, hc', hterm⟩
      cases hr
      refine ⟨hc', ?_⟩
      intro hf
      exfalso
      rw [noteAttachments_terminatedBy] at hf
      split at hf
      · exact not_final_awaiting hf
      · rw [hterm] at hf
        exact not_final_maxIterations hf
    · rintro h' e ⟨l'', hr, -⟩
      cases hr

/-- Reading the chain has no effect. -/
theorem guardrailChain_end {config : AgentConfig} (hs : Still h) :
    (guardrailChain config).Traced anyOp (fun h' _ => Still h') h := by
  rw [guardrailChain, Prog.perform_bind]
  intro registry
  refine ⟨trivial, ?_⟩
  beta_reduce
  rw [Prog.perform_bind]
  intro r
  refine ⟨trivial, ?_⟩
  have hs' : Still (h ++ [⟨.capabilityRegistry, registry⟩] ++ [⟨.mandatoryGuardrails, r⟩]) :=
    (hs.snoc (e := ⟨.capabilityRegistry, registry⟩) ⟨rfl, fun h => h⟩).snoc ⟨rfl, fun h => h⟩
  cases r with
  | error e => exact hs'
  | ok mandatory =>
      cases hch : assembleChain registry mandatory config.guardrails with
      | error unresolved =>
          simp only [hch]
          exact hs'
      | ok chain =>
          simp only [hch]
          exact hs'

/-- The turn on the loaded conversation. -/
theorem converse_end {rt : AgentRuntime} {config : AgentConfig} {ctx : GuardrailRunCtx}
    {message : AgentInput} {state : ConversationState} (hs : Still h) :
    (converse rt config ctx message state).Traced anyOp TurnEnd h := by
  rw [converse, Prog.perform_bind]
  intro now
  have hs' : Still (h ++ [⟨.utcNow, now⟩]) := hs.snoc ⟨rfl, fun h => h⟩
  refine ⟨trivial, ?_⟩
  beta_reduce
  generalize state.takePending message.resumePayload now config.onTextWhileParked = took
  obtain ⟨state', taken⟩ := took
  show (converseTaken rt config ctx message state' taken).Traced anyOp TurnEnd _
  rw [converseTaken]
  refine Prog.Traced.bind ?_ ?_ (guardrailChain_end hs')
  · intro h' chain hs''
    cases taken with
    | nothing => exact messageTurn_end _ _ _ hs''
    | resume pending payload =>
        refine Prog.Traced.mono (fun _ _ hp => PartEnd.turnEnd hp) ?_
        exact resumeTurn_end _ _ _ _ hs''.calm
    | cancelled step => exact messageTurn_end _ _ _ hs''
    | side => exact messageTurn_end _ _ _ hs''
  · intro h' e hs''
    exact Or.inr (Or.inr hs'')

/-- The turn under its lock. -/
theorem underLock_end {rt : AgentRuntime} {config : AgentConfig} {ctx : GuardrailRunCtx}
    {message : AgentInput} (hs : Still h) :
    (underLock rt config ctx message).Traced anyOp TurnEnd h := by
  rw [underLock, Prog.perform_bind]
  intro r
  have hs' : Still (h ++ [⟨.load, r⟩]) := hs.snoc ⟨rfl, fun h => h⟩
  refine ⟨trivial, ?_⟩
  cases r with
  | error e => exact Or.inr (Or.inr hs')
  | ok state =>
      cases ho : opening? config message state with
      | some opening =>
          simp only [ho]
          rw [openConversation, Prog.perform_bind]
          intro r'
          exact ⟨trivial, hs'.calm.snoc rfl⟩
      | none =>
          simp only [ho]
          exact converse_end hs'

/-- The budget check has no effect. -/
theorem checkBudgets_end (config : AgentConfig) (hs : Still h) :
    (checkBudgets config).Traced anyOp (fun h' _ => Still h') h := by
  have hcap : (checkTokenCap config).Traced anyOp (fun h' _ => Still h') h := by
    rw [checkTokenCap.eq_def]
    split
    · exact hs
    · rw [Prog.perform_bind]
      intro r
      have hs' : Still (h ++ [⟨.tokensUsed, r⟩]) := hs.snoc ⟨rfl, fun h => h⟩
      refine ⟨trivial, ?_⟩
      cases r with
      | error e => exact hs'
      | ok used =>
          beta_reduce
          dsimp only
          split <;> exact hs'
  rw [checkBudgets]
  refine Prog.Traced.bind ?_ ?_ hcap
  · intro h' _ hs'
    rw [Prog.perform_bind]
    intro exceeded
    have hs'' : Still (h' ++ [⟨.overBudget, exceeded⟩]) := Still.snoc hs' ⟨rfl, fun h => h⟩
    refine ⟨trivial, ?_⟩
    beta_reduce
    split <;> exact hs''
  · intro h' e hs'
    exact hs'

/-- A release changes nothing about how a turn ended. -/
theorem TurnEnd.released {r : Except AgentError AgentOutput} (hp : TurnEnd h r)
    (u : Unit) : TurnEnd (h ++ [⟨.release, u⟩]) r := by
  have hcalm : Calm [(⟨.release, u⟩ : Ev)] := forall_singleton rfl
  cases r with
  | ok out => exact Calm.append hp hcalm
  | error e =>
      rcases hp with ⟨hc, hf⟩ | ⟨hs, heff⟩ | hs
      · exact Or.inl ⟨hc.append hcalm, hf⟩
      · exact Or.inr (Or.inl ⟨hs.before hcalm, heff.left⟩)
      · exact Or.inr (Or.inr (hs.snoc ⟨rfl, fun h => h⟩))

/-- **WHERE ERRORS COME FROM**: a turn that fails had no effect, or it ends with the
    error of its only fatal answer, or with an error of fixed text. -/
theorem runStep_turnEnd (rt : AgentRuntime) (tenant : TenantContext) (sessionId agentId : String)
    (message : AgentInput) :
    (runStep rt tenant sessionId agentId message).Traced anyOp TurnEnd [] := by
  rw [runStep, Prog.perform_bind]
  intro r
  have hs : Still ([] ++ [⟨.agentConfig agentId, r⟩]) :=
    Still.snoc (e := ⟨.agentConfig agentId, r⟩) (fun e he => (by cases he)) ⟨rfl, fun h => h⟩
  refine ⟨trivial, ?_⟩
  cases r with
  | error e => exact Or.inr (Or.inr hs)
  | ok config =>
      refine Prog.Traced.bind ?_ ?_ (checkBudgets_end config hs)
      · intro h' _ hs'
        rw [Prog.perform_bind]
        intro answer
        have hs'' : Still (h' ++ [⟨.acquireLock, answer⟩]) := Still.snoc hs' ⟨rfl, fun h => h⟩
        refine ⟨trivial, ?_⟩
        cases answer with
        | error e => exact Or.inr (Or.inr hs'')
        | ok _ =>
            refine Prog.Traced.ensure (fun _ _ _ _ => trivial) ?_ (underLock_end hs'')
            intro h res u hp
            exact hp.released u
      · intro h' e hs'
        exact Or.inr (Or.inr hs')

end Greentic.Aw
