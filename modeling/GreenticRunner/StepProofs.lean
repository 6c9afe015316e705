import GreenticRunner.StepModel

/-! # What one step does, in order

    Whatever the hosts, telemetry and adapters answer, a step loads the session
    once, calls only adapters that the loaded outbox has no entry for, and at its
    end writes the state host and then the session host, by `put` when what it
    loaded was new and by compare-and-swap otherwise.

    * `Ended` — what holds of it at the end;
    * `step_sat` — every step keeps to both. -/

namespace Greentic.Engine

open FinMaps Resumption

/-! ## What a step loaded -/

/-- The outbox a step starts from. -/
def baseOutbox (base : Option SessionSnapshot) : FinMap OutboxKey SessionOutboxEntry :=
  (base.map (·.outbox)).getD .empty

/-- The key a step stores its session under. -/
def baseKey (key : SessionKey) (base : Option SessionSnapshot) : SessionKey :=
  (base.map (·.key)).getD key

/-- A step commits by `put` when it loaded nothing, or revision 0 with an empty
    outbox. -/
def baseNew (base : Option SessionSnapshot) : Bool := (base.map (·.isNew)).getD true

/-- The revision a step expects. -/
def baseRevision (base : Option SessionSnapshot) : Nat := (base.map (·.revision)).getD 0

/-- The outbox has the entry of a response. -/
def Recorded (sm : StateMachine) (outbox : FinMap OutboxKey SessionOutboxEntry) (c : Response) :
    Prop :=
  outbox.get? (sm.outboxKey c.seq c.payload) =
    some ⟨c.seq, sm.stableHash c.seq c.payload.render, c.response⟩

/-- The working copy of a step that loaded `base`: it keeps the loaded outbox and
    has an entry for every call that returned. -/
structure Working (sm : StateMachine) (key : SessionKey) (base : Option SessionSnapshot)
    (m : StepMemory) (session : SessionSnapshot) : Prop where
  loaded : m.loaded = some base
  uncommitted : m.committed = false
  key : session.key = baseKey key base
  outbox : ∀ k e, (baseOutbox base).get? k = some e → session.outbox.get? k = some e
  called : ∀ c ∈ m.called, Recorded sm session.outbox c

/-- What holds of the ghost of a step at each of its operations. -/
def Fact (sm : StateMachine) (key : SessionKey) (m : StepMemory) : Op → Prop
  | .get k => k = key ∧ m = .fresh
  | .callAdapter seq call => m.stateSet = none ∧ m.committed = false ∧
      ∃ base, m.loaded = some base ∧ (baseOutbox base).get? (sm.outboxKey seq call.payload) = none
  | .setJson k v => m.stateSet = none ∧
      ∃ base session, Working sm key base m session ∧ k = session.key ∧ v = session.state
  | .put session => m.stateSet = some session.state ∧
      ∃ base, Working sm key base m session ∧ baseNew base = true
  | .updateCas session expected => m.stateSet = some session.state ∧
      ∃ base, Working sm key base m session ∧ baseNew base = false ∧ expected = baseRevision base
  | .emit _ _ | .generateSessionId =>
      m.stateSet = none ∧ m.committed = false ∧ m.loaded.isSome

/-- A write that was refused. -/
def Refused : Event Op Op.Res → Prop
  | ⟨.setJson _ _, .error _⟩ | ⟨.put _, .error _⟩ | ⟨.updateCas _ _, .error _⟩
  | ⟨.updateCas _ _, .ok false⟩ => True
  | _ => False

/-- What holds of the ghost of a step that has ended: a success has committed; a
    failure has not, and it wrote no state or its last write was refused. -/
def Ended (m : StepMemory) {α : Type} : Except RunnerError α → Prop
  | .ok _ => m.committed = true
  | .error _ => m.committed = false ∧
      (m.stateSet = none ∨ ∃ ev, m.history.getLast? = some ev ∧ Refused ev)

/-- The result of a part of a step that only works on the copy. -/
def WorkPost (sm : StateMachine) (key : SessionKey) (base : Option SessionSnapshot) {α : Type}
    (session : α → SessionSnapshot) (m : StepMemory) : Except RunnerError α → Prop
  | .ok a => Working sm key base m (session a) ∧ m.stateSet = none
  | .error _ => m.committed = false ∧ m.stateSet = none

/-! ## The copy -/

section Copy

variable {sm : StateMachine} {key : SessionKey} {base : Option SessionSnapshot} {m : StepMemory}
  {session session' : SessionSnapshot}

/-- A change of the copy that keeps its key and its outbox. -/
theorem Working.keep (h : Working sm key base m session) (hkey : session'.key = session.key)
    (hout : session'.outbox = session.outbox) : Working sm key base m session' :=
  ⟨h.loaded, h.uncommitted, hkey.trans h.key, by rw [hout]; exact h.outbox,
    by rw [hout]; exact h.called⟩

theorem Working.remember {m' : StepMemory} (h : Working sm key base m session)
    (h1 : m'.loaded = m.loaded) (h2 : m'.committed = m.committed) (h3 : m'.called = m.called) :
    Working sm key base m' session :=
  ⟨h1.trans h.loaded, h2.trans h.uncommitted, h.key, h.outbox, by rw [h3]; exact h.called⟩

/-- A call that returned gets its entry, which replaces none. -/
theorem Working.responded {m' : StepMemory} (h : Working sm key base m session) {seq : Nat}
    {payload : Json} (call : AdapterCall) (response : Json)
    (hmiss : session.outbox.get? (sm.outboxKey seq payload) = none) (h1 : m'.loaded = m.loaded)
    (h2 : m'.committed = m.committed) (h3 : m'.called = m.called ++ [⟨seq, payload, response⟩]) :
    Working sm key base m' (session.responded (sm.outboxKey seq payload) call response) := by
  have hkeep : ∀ k e, session.outbox.get? k = some e →
      (session.outbox.insert (sm.outboxKey seq payload)
        ⟨seq, sm.stableHash seq payload.render, response⟩).get? k = some e := by
    intro k e hk
    have hne : k ≠ sm.outboxKey seq payload := by
      intro heq
      rw [heq, hmiss] at hk
      exact nomatch hk
    rw [FinMap.insert_get?, if_neg hne]
    exact hk
  refine ⟨h1.trans h.loaded, h2.trans h.uncommitted, h.key,
    fun k e hk => hkeep k e (h.outbox k e hk), ?_⟩
  intro c hc
  rw [h3] at hc
  rcases List.mem_append.mp hc with hold | hnew
  · exact hkeep _ _ (h.called c hold)
  · have heq : c = ⟨seq, payload, response⟩ := List.mem_singleton.mp hnew
    subst heq
    show (session.outbox.insert (sm.outboxKey seq payload) _).get? _ = some _
    rw [FinMap.insert_get?, if_pos rfl]
    rfl

end Copy

/-! ## The parts of a step -/

section Parts

variable {τ : Type} {exec : (i : Op) → τ × StepMemory → i.Res → τ × StepMemory → Prop}

/-- The facts at an operation, and how it was performed, as a condition on
    operations. -/
def factOk (exec : (i : Op) → τ × StepMemory → i.Res → τ × StepMemory → Prop)
    (sm : StateMachine) (key : SessionKey) (s : τ × StepMemory) (ev : Event Op Op.Res)
    (s' : τ × StepMemory) : Prop :=
  Fact sm key s.2 ev.1 ∧ exec ev.1 s ev.2 s'

variable (hmem : ∀ i s r s', exec i s r s' → s'.2 = s.2.remember i r)
  {sm : StateMachine} {key : SessionKey} {base : Option SessionSnapshot}

include hmem

/-- One operation of a step. -/
theorem call_sat {α : Type} {i : Op} {k : i.Res → Exec α} {x : τ × StepMemory}
    {Q : τ × StepMemory → Except RunnerError α → Prop} (hf : Fact sm key x.2 i)
    (hk : ∀ r (y : τ × StepMemory), y.2 = x.2.remember i r →
      (k r).Sat (threadAnchor ownMemory) exec (factOk exec sm key) Q y) :
    (Prog.call i k).Sat (threadAnchor ownMemory) exec (factOk exec sm key) Q x := by
  intro s hs r s' he
  have hs2 : s.2 = x.2 := hs
  refine ⟨⟨?_, he⟩, s', rfl, hk r s' ?_⟩
  · show Fact sm key s.2 i
    rw [hs2]
    exact hf
  · rw [← hs2]
    exact hmem i s r s' he

/-- A telemetry event changes nothing. -/
theorem emit_sat {α : Type} {span : SpanContext} {fields : List (String × String)} {k : Exec α}
    {x : τ × StepMemory} {session : SessionSnapshot} {Q : τ × StepMemory → Except RunnerError α → Prop}
    (hw : Working sm key base x.2 session) (hset : x.2.stateSet = none)
    (hk : ∀ y : τ × StepMemory, Working sm key base y.2 session → y.2.stateSet = none →
      k.Sat (threadAnchor ownMemory) exec (factOk exec sm key) Q y)
    (herr : ∀ (y : τ × StepMemory) e, y.2.committed = false → y.2.stateSet = none → Q y (.error e)) :
    (Prog.call (Op.emit span fields) fun r => Prog.ofExcept r >>= fun _ => k).Sat
      (threadAnchor ownMemory) exec (factOk exec sm key) Q x := by
  refine call_sat hmem ⟨hset, hw.uncommitted, by rw [hw.loaded]; rfl⟩ ?_
  intro r y hy
  cases r with
  | ok u =>
      refine hk y ?_ (by rw [hy]; exact hset)
      rw [hy]
      exact hw.remember rfl rfl rfl
  | error e =>
      refine herr y e ?_ (by rw [hy]; exact hset)
      rw [hy]
      exact hw.uncommitted

/-- The attempts of an adapter call: only the one that returned is remembered. -/
theorem retryWithJitter_sat {seq : Nat} {call : AdapterCall} :
    ∀ (left : Nat) {x : τ × StepMemory} {session : SessionSnapshot},
      Working sm key base x.2 session → x.2.stateSet = none →
      (baseOutbox base).get? (sm.outboxKey seq call.payload) = none →
      (retryWithJitter seq call left).Sat (threadAnchor ownMemory) exec (factOk exec sm key)
        (fun y r => match r with
          | .ok v => ∃ m, Working sm key base m session ∧ y.2.stateSet = none ∧
              y.2.loaded = m.loaded ∧ y.2.committed = m.committed ∧
              y.2.called = m.called ++ [⟨seq, call.payload, v.1⟩]
          | .error _ => y.2.committed = false ∧ y.2.stateSet = none) x := by
  intro left
  induction left with
  | zero =>
      intro x session hw hset hmiss
      refine call_sat hmem ⟨hset, hw.uncommitted, base, hw.loaded, hmiss⟩ ?_
      intro r y hy
      cases r with
      | ok v => exact ⟨x.2, hw, by rw [hy]; exact hset, by rw [hy]; rfl, by rw [hy]; rfl, by rw [hy]; rfl⟩
      | error e => exact ⟨by rw [hy]; exact hw.uncommitted, by rw [hy]; exact hset⟩
  | succ left ih =>
      intro x session hw hset hmiss
      refine call_sat hmem ⟨hset, hw.uncommitted, base, hw.loaded, hmiss⟩ ?_
      intro r y hy
      cases r with
      | ok v => exact ⟨x.2, hw, by rw [hy]; exact hset, by rw [hy]; rfl, by rw [hy]; rfl, by rw [hy]; rfl⟩
      | error e =>
          show (if e.isTerminal = true then Prog.fail e else retryWithJitter seq call left).Sat _ _ _
            _ y
          split
          · exact ⟨by rw [hy]; exact hw.uncommitted, by rw [hy]; exact hset⟩
          · refine ih ?_ (by rw [hy]; exact hset) hmiss
            rw [hy]
            exact hw.remember rfl rfl rfl

/-- `execute_adapter_step` keeps the copy in order. -/
theorem executeAdapterStep_sat {flow : FlowDefinition} {tenant : TenantCtx} {call : AdapterCall}
    {x : τ × StepMemory} {session : SessionSnapshot} (hw : Working sm key base x.2 session)
    (hset : x.2.stateSet = none) :
    (executeAdapterStep sm flow tenant session call).Sat (threadAnchor ownMemory) exec
      (factOk exec sm key) (fun y r => WorkPost sm key base (fun v => v.1) y.2 r) x := by
  unfold executeAdapterStep
  split
  · exact ⟨hw.uncommitted, hset⟩
  · dsimp only
    split
    · exact ⟨hw.uncommitted, hset⟩
    · cases hhit : session.outbox.get?
          (sm.outboxKey session.cursor.outboxSeq (resolveAdapterPayload call.payload session)) with
      | some entry =>
          refine emit_sat hmem hw hset ?_ fun y e h1 h2 => ⟨h1, h2⟩
          intro y hwy hsety
          exact ⟨hwy.keep rfl rfl, hsety⟩
      | none =>
          refine emit_sat hmem hw hset ?_ fun y e h1 h2 => ⟨h1, h2⟩
          intro y hwy hsety
          -- the loaded outbox is part of the copy's, so it has no entry either
          have hmiss : (baseOutbox base).get? (sm.outboxKey session.cursor.outboxSeq
              (resolveAdapterPayload call.payload session)) = none := by
            cases hb : (baseOutbox base).get? (sm.outboxKey session.cursor.outboxSeq
                (resolveAdapterPayload call.payload session)) with
            | none => rfl
            | some e =>
                have := hw.outbox _ e hb
                rw [hhit] at this
                exact nomatch this
          refine Prog.Sat.bind ?_ ?_ (retryWithJitter_sat hmem _ hwy hsety hmiss)
          · intro z v hz
            obtain ⟨response, flowNodes⟩ := v
            obtain ⟨m, hwm, hsetz, h1, h2, h3⟩ := hz
            refine emit_sat hmem (hwm.responded call response hhit h1 h2 h3) hsetz ?_ fun y e h1 h2 => ⟨h1, h2⟩
            intro u hwu hsetu
            exact ⟨hwu, hsetu⟩
          · intro z e hz
            exact hz

/-- The loop keeps the copy in order. -/
theorem runSteps_sat {flow : FlowDefinition} {tenant : TenantCtx} :
    ∀ (steps : List FlowStep) {nodeOutputs : NodeOutputs} {x : τ × StepMemory}
      {session : SessionSnapshot}, Working sm key base x.2 session → x.2.stateSet = none →
      (runSteps sm flow tenant steps session nodeOutputs).Sat (threadAnchor ownMemory) exec
        (factOk exec sm key) (fun y r => WorkPost sm key base (fun v => v.1) y.2 r) x := by
  intro steps
  induction steps with
  | nil => intro nodeOutputs x session hw hset; exact ⟨hw, hset⟩
  | cons s rest ih =>
      intro nodeOutputs x session hw hset
      cases s with
      | adapter call =>
          refine Prog.Sat.bind ?_ ?_ (executeAdapterStep_sat hmem hw hset)
          · intro y v hy
            obtain ⟨session', outcome, flowNodes⟩ := v
            exact ih (hy.1.keep rfl rfl) hy.2
          · intro y e hy
            exact hy
      | awaitInput reason => exact ⟨hw.keep rfl rfl, hset⟩
      | complete outcome => exact ⟨hw.keep rfl rfl, hset⟩

/-- The session a step works on. -/
theorem openSession_sat {x : τ × StepMemory} (hl : x.2.loaded = some base)
    (hu : x.2.committed = false) (hc : x.2.called = []) (hset : x.2.stateSet = none) :
    (openSession key base).Sat (threadAnchor ownMemory) exec (factOk exec sm key)
      (fun y r => match r with
        | .ok session => (Working sm key base y.2 session ∧ y.2.stateSet = none) ∧
            session.isNew = baseNew base ∧ session.revision = baseRevision base
        | .error _ => False) x := by
  have hfresh : ∀ (y : τ × StepMemory) id, y.2.loaded = some none → y.2.committed = false →
      y.2.called = [] → Working sm key none y.2 (.new key id) := by
    intro y id h1 h2 h3
    refine ⟨h1, h2, rfl, fun k e hk => (nomatch hk), ?_⟩
    intro c hcm
    rw [h3] at hcm
    exact nomatch hcm
  cases base with
  | some b =>
      refine ⟨⟨⟨hl, hu, rfl, fun _ _ h => h, ?_⟩, hset⟩, rfl, rfl⟩
      intro c hcm
      rw [hc] at hcm
      exact nomatch hcm
  | none =>
      unfold openSession
      cases key.stableSessionId with
      | some id => exact ⟨⟨hfresh x id hl hu hc, hset⟩, rfl, rfl⟩
      | none =>
          refine call_sat hmem ⟨hset, hu, by rw [hl]; rfl⟩ ?_
          intro id y hy
          refine ⟨⟨hfresh y id ?_ ?_ ?_, ?_⟩, rfl, rfl⟩
          · rw [hy]; exact hl
          · rw [hy]; exact hu
          · rw [hy]; exact hc
          · rw [hy]; exact hset

/-- The end of a step. -/
theorem commit_sat {session : SessionSnapshot} {outcome : Json} {nodeOutputs : NodeOutputs}
    {x : τ × StepMemory} (hw : Working sm key base x.2 session) (hset : x.2.stateSet = none) :
    (commit (baseNew base) (baseRevision base) session outcome nodeOutputs).Sat
      (threadAnchor ownMemory) exec (factOk exec sm key) (fun y r => Ended y.2 r) x := by
  refine call_sat hmem ⟨hset, base, session, hw, rfl, rfl⟩ ?_
  intro r y hy
  cases r with
  | error e => exact ⟨by rw [hy]; exact hw.uncommitted, Or.inl (by rw [hy]; exact hset)⟩
  | ok u =>
      have hwy : Working sm key base y.2 session := by
        rw [hy]
        exact hw.remember rfl rfl rfl
      have hsety : y.2.stateSet = some session.state := by rw [hy]; rfl
      show (if baseNew base = true then _ else _ : Exec (Json × NodeOutputs)).Sat _ _ _ _ _
      cases hnew : baseNew base with
      | true =>
          refine call_sat hmem ⟨hsety, base, hwy, hnew⟩ ?_
          intro r z hz
          cases r with
          | ok u => show z.2.committed = true; rw [hz]; rfl
          | error e =>
              refine ⟨by rw [hz]; exact hwy.uncommitted, Or.inr ⟨⟨.put session, .error e⟩, ?_, trivial⟩⟩
              rw [hz]
              exact List.getLast?_concat
      | false =>
          refine call_sat hmem ⟨hsety, base, hwy, hnew, rfl⟩ ?_
          intro r z hz
          cases r with
          | error e =>
              refine ⟨by rw [hz]; exact hwy.uncommitted,
                Or.inr ⟨⟨.updateCas session (baseRevision base), .error e⟩, ?_, trivial⟩⟩
              rw [hz]
              exact List.getLast?_concat
          | ok b =>
              cases b with
              | true => show z.2.committed = true; rw [hz]; rfl
              | false =>
                  refine ⟨by rw [hz]; exact hwy.uncommitted,
                    Or.inr ⟨⟨.updateCas session (baseRevision base), .ok false⟩, ?_, trivial⟩⟩
                  rw [hz]
                  exact List.getLast?_concat

/-- **EVERY STEP** keeps to the facts at its operations and at its end. -/
theorem step_sat {tenant : TenantCtx} {packId flowId : String} {sessionHint : Option String}
    {input : Json} (hkey : key = SessionKey.new tenant packId flowId sessionHint)
    {x : τ × StepMemory} (hx : x.2 = .fresh) :
    (step sm tenant packId flowId sessionHint input).Sat (threadAnchor ownMemory) exec
      (factOk exec sm key) (fun y r => Ended y.2 r) x := by
  unfold step
  cases sm.flow packId flowId with
  | none => exact ⟨by rw [hx]; rfl, Or.inl (by rw [hx]; rfl)⟩
  | some flow =>
      dsimp only
      cases sm.ensurePolicyBudget flow with
      | error e => exact ⟨by rw [hx]; rfl, Or.inl (by rw [hx]; rfl)⟩
      | ok u =>
          refine call_sat hmem ⟨hkey.symm, hx⟩ ?_
          intro r y hy
          rw [hx] at hy
          cases r with
          | error e => exact ⟨by rw [hy]; rfl, Or.inl (by rw [hy]; rfl)⟩
          | ok found =>
              rw [← hkey]
              change (openSession key found >>= fun session => _).Sat _ _ _ _ _
              refine Prog.Sat.bind ?_ ?_ (openSession_sat hmem
                (by rw [hy]; rfl) (by rw [hy]; rfl) (by rw [hy]; rfl) (by rw [hy]; rfl))
              · intro z session hz
                obtain ⟨⟨hwz, hsetz⟩, hnew, hrev⟩ := hz
                rw [hnew, hrev]
                have hwake : Working sm key found z.2
                    (wake flow (updateStateInput session input)) := by
                  refine hwz.keep ?_ ?_
                  · unfold wake
                    split
                    · rfl
                    · split <;> rfl
                  · unfold wake
                    split
                    · rfl
                    · split <;> rfl
                refine Prog.Sat.bind ?_ ?_ (runSteps_sat hmem _ hwake hsetz)
                · intro u v hu
                  obtain ⟨session', outcome, nodeOutputs⟩ := v
                  exact commit_sat hmem hu.1 hu.2
                · intro u e hu
                  exact ⟨hu.1, Or.inl hu.2⟩
              · intro z e hz
                exact hz.elim

end Parts

/-! ## The executable hosts -/

theorem effect_clock (t : Nat) (s : World) (i : Op) : (effect t s i).clock = s.1.clock := by
  cases i with
  | updateCas session expected =>
      cases hcas : s.1.casOk session expected with
      | true => simp [effect, hcas, Hosts.store]
      | false => simp [effect, hcas]
  | _ => rfl

/-- At time 0 nothing has expired. -/
theorem live_zero (h : Hosts) (key : SessionKey) : h.live 0 key = h.sessions key := by
  unfold Hosts.live
  cases h.sessions key with
  | none => rfl
  | some e => simp

theorem kept_zero (s : World) (i : Op) : Kept 0 s i := fun key _ => live_zero s.1 key

/-- The handler answers as the hosts do, and time stands still. -/
theorem handler_exec {C : Nat → World → Op → Prop}
    (adapter : AdapterCall → Except RunnerError (Json × NodeOutputs)) (i : Op) (s : World)
    (hs : s.1.clock = 0) (hC : C 0 s i) :
    execAt C i s (handler adapter i s).1 (handler adapter i s).2 ∧
      (handler adapter i s).2.1.clock = 0 := by
  have hnext : ∀ r : i.Res, answers 0 s i r →
      execAt C i s (handler.next s i r).1 (handler.next s i r).2 ∧
        (handler.next s i r).2.1.clock = 0 := by
    intro r hr
    have hclock : (effect s.1.clock s i).clock = 0 := by rw [effect_clock, hs]
    refine ⟨⟨0, Nat.le_of_eq hs, hC, hr, ?_⟩, hclock⟩
    have hsame : ∀ h : Hosts, h.clock = 0 → h = { h with clock := 0 } := by
      intro h h0
      rw [← h0]
    show (effect s.1.clock s i, s.2.remember i r) = _
    rw [hs] at hclock ⊢
    exact congrArg (·, s.2.remember i r) (hsame _ hclock)
  cases i with
  | get key =>
      refine hnext _ ?_
      rw [hs]
      rfl
  | put session => exact hnext _ rfl
  | updateCas session expected => exact hnext _ rfl
  | setJson key value => exact hnext _ rfl
  | emit span fields => exact hnext _ trivial
  | callAdapter seq call => exact hnext _ trivial
  | generateSessionId => exact hnext _ trivial

/-- The schedule of `n` operations of one step. -/
def stepping (adapter : AdapterCall → Except RunnerError (Json × NodeOutputs)) (n : Nat) :
    List (Nat × Handler Op Op.Res World) :=
  List.replicate n (0, handler adapter)

/-- A scheduled part of a thread that begins at time 0 is a run. -/
theorem stepping_run {ε α : Type} {C : Nat → World → Op → Prop}
    (adapter : AdapterCall → Except RunnerError (Json × NodeOutputs)) (n : Nat)
    (p : Main Op Op.Res ε Unit α) (s : World) (hs : s.1.clock = 0)
    (hC : PlayMeets (fun i s => C 0 s i) (stepping adapter n) (p, s)) :
    ∃ es, Run (execAt C) p s es (play (stepping adapter n) (p, s)).1
      (play (stepping adapter n) (p, s)).2 := by
  refine play_run (I := fun s : World => s.1.clock = 0) (C := fun i s => C 0 s i) _ ?_ p s hs hC
  intro x hx i s hs hC
  rw [List.eq_of_mem_replicate hx]
  exact handler_exec adapter i s hs hC

end Greentic.Engine
