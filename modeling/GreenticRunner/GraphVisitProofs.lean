import GreenticRunner.GraphTrackRules

/-! # One effect visit

    `visit_effect` and the agent, tool and supervisor arms, once for the trunk
    and for the branches: the stages a visit goes through (`Stages`) are
    predicates on whatever the caller knows, and an `EffectFrame` says how the
    load, the closure call and the record move between them. -/

namespace Greentic

open FinMaps CountedPath Resumption

/-- The stages of an effect visit: nothing read yet, no row found, the closure
    answered, the row is there. -/
structure Stages (π : Type) where
  ready : π → Prop
  missed : π → Prop
  asked : Json → π → Prop
  got : Json → π → Prop

/-- How the operations of a visit at `pt` move through the stages. -/
structure EffectFrame (S : Setup) {π : Type} (A : Anchor World π) (pt : Point) (n : Node)
    (st : Stages π) : Prop where
  load : ∀ x, st.ready x → ∀ s, A.sees x s → ∀ r s',
    S.step (.loadNodeVisit pt.cursor pt.attempt) s r s' →
    S.Told s ⟨.loadNodeVisit pt.cursor pt.attempt, r⟩ s' ∧ ∃ x', A.moves x s s' x' ∧
      (∀ raw, r = some raw → st.got raw x') ∧ (r = none → st.missed x')
  closure : ∀ i, effectOp pt n.kind = some i → ∀ x, st.missed x → ∀ s, A.sees x s → ∀ r s',
    S.step i s r s' → S.Told s ⟨i, r⟩ s' ∧ ∃ x', A.moves x s s' x' ∧
      (∀ v, closureValue i r = some v → st.asked v x') ∧ (closureValue i r = none → st.missed x')
  record : ∀ v x, st.asked v x → ∀ s, A.sees x s → ∀ r s',
    S.step (.recordNodeVisit pt.cursor pt.attempt v) s r s' →
    S.Told s ⟨.recordNodeVisit pt.cursor pt.attempt v, r⟩ s' ∧ ∃ x', A.moves x s s' x' ∧
      (r = .ok .recorded → st.got v x') ∧ (∀ row, r = .ok (.replayed row) → st.got row x') ∧
      (∀ c, r = .error c → st.asked v x' ∧ (checkSegment "run_id" S.run.runId ≠ .ok () ∨
        checkSegment "node_id" pt.cursor ≠ .ok ()))

section Visits

variable {S : Setup} {π : Type} {A : Anchor World π} {pt : Point} {n : Node} {st : Stages π}

/-- Why an effect visit has no result. -/
inductive VisitError (S : Setup) (pt : Point) (n : Node) (st : Stages π)
    (x : π) (e : GraphExecError) : Prop where
  | closure (i : Op) (r : i.Res) (hx : st.missed x) (hi : effectOp pt n.kind = some i)
      (hr : S.C.allows i r) (he : closureError pt i r = some e)
  | segment (v : Json) (c : CheckpointError) (hx : st.asked v x)
      (hbad : checkSegment "run_id" S.run.runId ≠ .ok () ∨
        checkSegment "node_id" pt.cursor ≠ .ok ()) (he : e = .checkpoint c)

/-- The outcome of a closure call. -/
def InvokePost (S : Setup) (pt : Point) (n : Node) (st : Stages π) (x : π) :
    Except GraphExecError Json → Prop
  | .ok v => st.asked v x
  | .error e => VisitError S pt n st x e

/-- The outcome of an effect visit before its result is applied. -/
def EffectPost (S : Setup) (pt : Point) (n : Node) (st : Stages π) (x : π) :
    Except GraphExecError (Json × Bool) → Prop
  | .ok (raw, _) => st.got raw x
  | .error e => VisitError S pt n st x e

/-- The outcome of an effect visit. -/
def VisitPost (S : Setup) (label : Option String) (pt : Point) (n : Node) (st : Stages π) (x : π) :
    Except GraphExecError (Point × Json) → Prop
  | .ok (pt', _) => ∃ raw, st.got raw x ∧ effectAfter S.cfg label pt raw n.kind = .ok pt'
  | .error e => VisitError S pt n st x e ∨
      ∃ raw, st.got raw x ∧ effectAfter S.cfg label pt raw n.kind = .error e

/-- `visit_effect`: whichever way the row came about, it is in the ledger. -/
theorem visitEffect_sat (F : EffectFrame S A pt n st) {invoke : Exec Json}
    (hinv : ∀ x, st.missed x → invoke.Sat A S.step S.Told (InvokePost S pt n st) x) {x : π}
    (hx : st.ready x) :
    (visitEffect pt.cursor pt.attempt invoke).Sat A S.step S.Told (EffectPost S pt n st) x := by
  intro s hs r s' he
  obtain ⟨htold, x', hmv, hsome, hnone⟩ := F.load x hx s hs r s' he
  refine ⟨htold, x', hmv, ?_⟩
  cases r with
  | some raw => exact hsome raw rfl
  | none =>
      show (invoke >>= fun value => _ : Exec (Json × Bool)).Sat A S.step S.Told _ x'
      refine Prog.Sat.bind ?_ ?_ (hinv x' (hnone rfl))
      · intro y v hy t ht r t' he'
        obtain ⟨htold', y', hmv', hrec, hrep, herr⟩ := F.record v y hy t ht r t' he'
        refine ⟨htold', y', hmv', ?_⟩
        cases r with
        | error c => exact .segment v c (herr c rfl).1 (herr c rfl).2 rfl
        | ok outcome =>
            cases outcome with
            | recorded => exact hrec rfl
            | replayed row => exact hrep row rfl
      · intro y e hy
        exact hy

/-- The result of a visit, applied to the position. -/
theorem effect_result {label : Option String} (after : Json → Except GraphExecError Point)
    (entry : Bool → Point → Json)
    (hafter : ∀ raw, after raw = effectAfter S.cfg label pt raw n.kind) {x : π} {p : Exec (Json × Bool)}
    (hp : p.Sat A S.step S.Told (EffectPost S pt n st) x) :
    (p >>= fun v => Prog.ofExcept (after v.1) >>= fun pt' =>
      (.ret (pt', entry v.2 pt') : Exec (Point × Json))).Sat A S.step S.Told
      (VisitPost S label pt n st) x := by
  refine Prog.Sat.bind ?_ ?_ hp
  · intro y v hy
    obtain ⟨raw, replayed⟩ := v
    cases ha : after raw with
    | ok pt' => exact ⟨raw, hy, by rw [← hafter, ha]⟩
    | error e => exact Or.inr ⟨raw, hy, by rw [← hafter, ha]⟩
  · intro y e hy
    exact Or.inl hy

/-- The agent arm. -/
theorem visitAgent_sat (F : EffectFrame S A pt n st) {systemPrompt model : String}
    {tools : List String} {provider agentRef inheritFrom : Option String}
    (hk : n.kind = .agent systemPrompt model tools provider agentRef inheritFrom)
    (label : Option String) {x : π} (hx : st.ready x) :
    (visitAgent S.cfg label pt systemPrompt model tools provider agentRef inheritFrom).Sat A
      S.step S.Told (VisitPost S label pt n st) x := by
  refine effect_result (afterAgent S.cfg pt)
    (fun replayed _ => trailEntry pt.cursor "agent" pt.attempt replayed
      (branchField label)) (by intro raw; rw [hk]; rfl) (visitEffect_sat F ?_ hx)
  intro y hy s hs r s' he
  have hop : effectOp pt n.kind = some (.agentTurn pt.attempt
      ⟨pt.cursor, systemPrompt, model, pt.state, provider, tools, agentRef, inheritFrom⟩) := by
    rw [hk]; rfl
  obtain ⟨htold, y', hmv, hok, herr⟩ := F.closure _ hop y hy s hs r s' he
  refine ⟨htold, y', hmv, ?_⟩
  cases r with
  | ok res => exact hok _ rfl
  | error e => exact .closure _ (Except.error e) (herr rfl) hop (exec_allows (S.sub _ _ _ _ he)) rfl

/-- The tool arm. -/
theorem visitTool_sat (F : EffectFrame S A pt n st) {toolName : String}
    (hk : n.kind = .tool toolName) (label : Option String) {x : π} (hx : st.ready x) :
    (visitTool S.cfg label pt toolName).Sat A S.step S.Told (VisitPost S label pt n st) x := by
  refine effect_result (afterTool S.cfg pt)
    (fun replayed _ => trailEntry pt.cursor "tool" pt.attempt replayed
      (branchField label)) (by intro raw; rw [hk]; rfl) (visitEffect_sat F ?_ hx)
  intro y hy s hs r s' he
  have hop : effectOp pt n.kind = some (.tool pt.attempt ⟨pt.cursor, toolName, pt.state⟩) := by
    rw [hk]; rfl
  obtain ⟨htold, y', hmv, hok, herr⟩ := F.closure _ hop y hy s hs r s' he
  refine ⟨htold, y', hmv, ?_⟩
  cases r with
  | ok res => exact hok _ rfl
  | error e => exact .closure _ (Except.error e) (herr rfl) hop (exec_allows (S.sub _ _ _ _ he)) rfl

/-- The supervisor arm. -/
theorem visitSupervisor_sat (F : EffectFrame S A pt n st) {systemPrompt model : String}
    {routes : List SupervisorRoute} {provider agentRef : Option String}
    (hk : n.kind = .supervisor systemPrompt model routes provider agentRef)
    (label : Option String) {x : π} (hx : st.ready x) :
    (visitSupervisor S.cfg label pt systemPrompt model routes provider agentRef).Sat A
      S.step S.Told (VisitPost S label pt n st) x := by
  refine Prog.Sat.bind (Q := EffectPost S pt n st) ?_ ?_ (visitEffect_sat F ?_ hx)
  · intro y v hy
    obtain ⟨raw, replayed⟩ := v
    show (Prog.bind (Prog.ofExcept (afterSupervisor S.cfg routes (supervisorMessage label) pt raw))
      _).Sat A S.step S.Told _ y
    cases ha : afterSupervisor S.cfg routes (supervisorMessage label) pt raw with
    | ok res => exact ⟨raw, hy, by rw [hk, effectAfter, ha]; rfl⟩
    | error e => exact Or.inr ⟨raw, hy, by rw [hk, effectAfter, ha]; rfl⟩
  · intro y e hy
    exact Or.inl hy
  · intro y hy s hs r s' he
    have hop : effectOp pt n.kind = some (.supervisor pt.attempt
        ⟨pt.cursor, systemPrompt, model, routes, pt.state, provider, agentRef⟩) := by
      rw [hk]; rfl
    obtain ⟨htold, y', hmv, hok, herr⟩ := F.closure _ hop y hy s hs r s' he
    refine ⟨htold, y', hmv, ?_⟩
    cases r with
    | ok res => exact hok _ rfl
    | error e => exact .closure _ (Except.error e) (herr rfl) hop (exec_allows (S.sub _ _ _ _ he)) rfl

end Visits

end Greentic
