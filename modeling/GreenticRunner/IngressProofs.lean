import GreenticRunner.IngressModel
import GreenticRunner.StepProofs

/-! # What happens to an inbound message

    A pack flow has one step.  The first message of a session that is answered moves
    the stored cursor past it, and every later step of the session finds nothing left
    to run.

    * `message_reaches_flow` — an answered message was answered by the flow exactly
      when its session was not stored;
    * `execAt_retained` — the in-memory host is such a host;
    * `secondMessage_not_reached` — the second message of a session. -/

namespace Greentic.Engine

open FinMaps Resumption

/-! ## The input of a step -/

theorem resolve_ingress {session : SessionSnapshot} {input : Json} {fields : List (String × Json)}
    (hstate : session.state = .obj (Json.setField fields "last_input" input)) :
    resolveAdapterPayload (.str payloadFromLastInput) session = input := by
  simp only [resolveAdapterPayload, ↓reduceIte, hstate, Json.get?_setField_self, Option.getD_some]

/-! ## One step of a pack flow -/

/-- The flow of a pack descriptor. -/
def packFlow (packId id : String) : FlowDefinition :=
  ⟨packId, id, [.adapter ⟨packFlowAdapter, id, .str payloadFromLastInput⟩]⟩

/-- The flows of a pack machine have one step. -/
theorem packMachine_flow {flows : List FlowDescriptor} {sha256Hex : List UInt8 → String}
    {packId flowId : String} {flow : FlowDefinition}
    (h : (packMachine flows sha256Hex).flow packId flowId = some flow) :
    flow = packFlow packId flowId := by
  have hmem := List.mem_of_find?_eq_some h
  have hid := List.find?_some h
  simp only [Bool.and_eq_true, beq_iff_eq] at hid
  obtain ⟨d, -, hd⟩ := List.mem_map.mp (List.mem_reverse.mp hmem)
  subst hd
  obtain ⟨h1, h2⟩ := hid
  show (⟨d.packId, d.id, _⟩ : FlowDefinition) = _
  rw [show d.packId = packId from h1, show d.id = flowId from h2]
  rfl

/-- The one step is no wait. -/
theorem wake_pack (packId id : String) (session : SessionSnapshot) :
    wake (packFlow packId id) session = { session with waiting := none } := by
  unfold wake
  split
  · rename_i hwait
    rw [← hwait]
  · split
    · rename_i reason hstep
      exact nomatch List.mem_singleton.mp (List.mem_of_getElem? hstep)
    · rfl

/-- The copy a step of a pack flow works on. -/
def packCopy (session : SessionSnapshot) (input : Json) : SessionSnapshot :=
  { updateStateInput session input with waiting := none }

/-- A step that went on from `m` without calling an adapter. -/
structure Quiet (m m' : StepMemory) : Prop where
  loaded : m'.loaded = m.loaded
  invoked : m'.invoked = m.invoked
  kept : ∀ ev ∈ m.history, ev ∈ m'.history

theorem Quiet.trans {m m' m'' : StepMemory} (h : Quiet m m') (h' : Quiet m' m'') : Quiet m m'' :=
  ⟨h'.loaded.trans h.loaded, h'.invoked.trans h.invoked, fun ev hev => h'.kept ev (h.kept ev hev)⟩

/-- An operation that is no load and no adapter call. -/
theorem quiet_remember {m : StepMemory} {i : Op} {r : i.Res} (hget : ∀ key, i ≠ .get key)
    (hcall : ∀ seq call, i ≠ .callAdapter seq call) : Quiet m (m.remember i r) := by
  have hinv : ∀ m' : StepMemory, m'.history = m.history ++ [⟨i, r⟩] → m'.invoked = m.invoked := by
    intro m' hm
    rw [StepMemory.invoked, hm, List.filterMap_append]
    cases i with
    | callAdapter seq call => exact absurd rfl (hcall seq call)
    | _ => exact List.append_nil _
  have hkept : ∀ m' : StepMemory, m'.history = m.history ++ [⟨i, r⟩] →
      ∀ ev ∈ m.history, ev ∈ m'.history := by
    intro m' hm ev hev
    rw [hm]
    exact List.mem_append_left _ hev
  cases i with
  | get key => exact absurd rfl (hget key)
  | callAdapter seq call => exact absurd rfl (hcall seq call)
  | put session => cases r <;> exact ⟨rfl, hinv _ rfl, hkept _ rfl⟩
  | updateCas session expected =>
      cases r with
      | error e => exact ⟨rfl, hinv _ rfl, hkept _ rfl⟩
      | ok b => cases b <;> exact ⟨rfl, hinv _ rfl, hkept _ rfl⟩
  | setJson key value => cases r <;> exact ⟨rfl, hinv _ rfl, hkept _ rfl⟩
  | emit span fields => exact ⟨rfl, hinv _ rfl, hkept _ rfl⟩
  | generateSessionId => exact ⟨rfl, hinv _ rfl, hkept _ rfl⟩

/-- What is written at the end of a step of a pack flow: the cursor is past its one
    step. -/
def PackWrite (key : SessionKey) (m : StepMemory) (session : SessionSnapshot) : Prop :=
  1 ≤ session.cursor.position ∧ ∃ base, m.loaded = some base ∧ session.key = baseKey key base

section Pack

variable {τ : Type} {exec : (i : Op) → τ × StepMemory → i.Res → τ × StepMemory → Prop}

/-- The writes of a step, and how its operations were performed. -/
def packOk (exec : (i : Op) → τ × StepMemory → i.Res → τ × StepMemory → Prop) (key : SessionKey)
    (s : τ × StepMemory) (ev : Event Op Op.Res) (s' : τ × StepMemory) : Prop :=
  exec ev.1 s ev.2 s' ∧ match ev.1 with
    | .get k => k = key ∧ s.2 = .fresh
    | .put session | .updateCas session _ => PackWrite key s.2 session
    | _ => True

variable (hmem : ∀ i s r s', exec i s r s' → s'.2 = s.2.remember i r) {key : SessionKey}

include hmem

/-- One operation. -/
theorem packCall_sat {α : Type} {i : Op} {k : i.Res → Exec α} {x : τ × StepMemory}
    {Q : τ × StepMemory → Except RunnerError α → Prop}
    (hi : match i with
      | .get k => k = key ∧ x.2 = .fresh
      | .put session | .updateCas session _ => PackWrite key x.2 session
      | _ => True)
    (hk : ∀ r (y : τ × StepMemory), y.2 = x.2.remember i r →
      (k r).Sat (threadAnchor ownMemory) exec (packOk exec key) Q y) :
    (Prog.call i k).Sat (threadAnchor ownMemory) exec (packOk exec key) Q x := by
  intro s hs r s' he
  have hs2 : s.2 = x.2 := hs
  refine ⟨⟨he, ?_⟩, s', rfl, hk r s' ?_⟩
  · cases i with
    | get k => rw [hs2]; exact hi
    | put session => rw [hs2]; exact hi
    | updateCas session expected => rw [hs2]; exact hi
    | _ => trivial
  · rw [← hs2]
    exact hmem i s r s' he

/-- The attempts of the call: the one that returned is in the history. -/
theorem packRetry_sat {seq : Nat} {call : AdapterCall} :
    ∀ (left : Nat) (x : τ × StepMemory),
      (retryWithJitter seq call left).Sat (threadAnchor ownMemory) exec (packOk exec key)
        (fun y r => y.2.loaded = x.2.loaded ∧ y.2.committed = x.2.committed ∧
          ∀ v, r = .ok v → (⟨.callAdapter seq call, .ok v⟩ : Event Op Op.Res) ∈ y.2.history) x := by
  intro left
  induction left with
  | zero =>
      intro x
      refine packCall_sat hmem trivial ?_
      intro r y hy
      cases r with
      | ok v =>
          refine ⟨by rw [hy]; rfl, by rw [hy]; rfl, ?_⟩
          intro v' hv'
          cases hv'
          rw [hy]
          exact List.mem_append_right _ (List.mem_singleton.mpr rfl)
      | error e => exact ⟨by rw [hy]; rfl, by rw [hy]; rfl, fun v hv => nomatch hv⟩
  | succ left ih =>
      intro x
      refine packCall_sat hmem trivial ?_
      intro r y hy
      cases r with
      | ok v =>
          refine ⟨by rw [hy]; rfl, by rw [hy]; rfl, ?_⟩
          intro v' hv'
          cases hv'
          rw [hy]
          exact List.mem_append_right _ (List.mem_singleton.mpr rfl)
      | error e =>
          show (if e.isTerminal = true then Prog.fail e else retryWithJitter seq call left).Sat _ _ _
            _ y
          split
          · exact ⟨by rw [hy]; rfl, by rw [hy]; rfl, fun v hv => nomatch hv⟩
          · refine Prog.Sat.mono ?_ (ih y)
            intro z r hz
            refine ⟨?_, ?_, hz.2.2⟩
            · rw [hz.1, hy]
              rfl
            · rw [hz.2.1, hy]
              rfl

/-- The adapter step of a pack flow from a new session: the flow is called with the
    input of the step. -/
theorem packAdapter_sat {sm : StateMachine} {flow : FlowDefinition} {tenant : TenantCtx}
    {call : AdapterCall} {session : SessionSnapshot} {x : τ × StepMemory}
    (hopen : x.2.committed = false) :
    (executeAdapterStep sm flow tenant session call).Sat (threadAnchor ownMemory) exec
      (packOk exec key)
      (fun y r => y.2.loaded = x.2.loaded ∧ y.2.committed = false ∧
        ∀ v, r = .ok v → v.1.key = session.key ∧
          v.1.cursor.position = session.cursor.position + 1 ∧ (session.outbox = .empty →
            ∃ response nodes, v.2.1 = doneOutcome response ∧
              (⟨.callAdapter session.cursor.outboxSeq
                { call with payload := resolveAdapterPayload call.payload session },
                .ok (response, nodes)⟩ : Event Op Op.Res) ∈ y.2.history)) x := by
  unfold executeAdapterStep
  split
  · exact ⟨rfl, hopen, fun v hv => nomatch hv⟩
  · dsimp only
    split
    · exact ⟨rfl, hopen, fun v hv => nomatch hv⟩
    · cases hhit : session.outbox.get?
          (sm.outboxKey session.cursor.outboxSeq (resolveAdapterPayload call.payload session)) with
      | some entry =>
          refine packCall_sat hmem trivial ?_
          intro r y hy
          have hloaded : y.2.loaded = x.2.loaded := by rw [hy]; rfl
          have hcom : y.2.committed = false := by rw [hy]; exact hopen
          cases r with
          | error e => exact ⟨hloaded, hcom, fun v hv => nomatch hv⟩
          | ok u =>
              refine ⟨hloaded, hcom, ?_⟩
              intro v hv
              cases hv
              refine ⟨rfl, rfl, ?_⟩
              intro hempty
              rw [hempty] at hhit
              exact nomatch hhit
      | none =>
          refine packCall_sat hmem trivial ?_
          intro r y hy
          have hloaded : y.2.loaded = x.2.loaded := by rw [hy]; rfl
          have hcom : y.2.committed = false := by rw [hy]; exact hopen
          cases r with
          | error e => exact ⟨hloaded, hcom, fun v hv => nomatch hv⟩
          | ok u =>
              change (retryWithJitter session.cursor.outboxSeq _ _ >>= fun v => _).Sat _ _ _ _ y
              refine Prog.Sat.bind ?_ ?_ (packRetry_sat hmem _ y)
              · intro z v hz
                obtain ⟨response, flowNodes⟩ := v
                obtain ⟨h1, h2, h3⟩ := hz
                refine packCall_sat hmem trivial ?_
                intro r w hw
                have hloaded' : w.2.loaded = x.2.loaded := by
                  rw [hw]
                  exact h1.trans hloaded
                have hcom' : w.2.committed = false := by
                  rw [hw]
                  exact h2.trans hcom
                cases r with
                | error e => exact ⟨hloaded', hcom', fun v hv => nomatch hv⟩
                | ok u =>
                    refine ⟨hloaded', hcom', ?_⟩
                    intro v hv
                    cases hv
                    refine ⟨rfl, rfl, fun _ => ⟨response, flowNodes, rfl, ?_⟩⟩
                    rw [hw]
                    exact List.mem_append_left _ (h3 _ rfl)
              · intro z e hz
                exact ⟨hz.1.trans hloaded, hz.2.1.trans hcom, fun v hv => nomatch hv⟩

/-- The end of a step of a pack flow. -/
theorem packCommit_sat {isNew : Bool} {expected : Nat} {session : SessionSnapshot} {outcome : Json}
    {nodeOutputs : NodeOutputs} {x : τ × StepMemory} (hopen : x.2.committed = false)
    (hw : PackWrite key x.2 session) :
    (commit isNew expected session outcome nodeOutputs).Sat (threadAnchor ownMemory) exec
      (packOk exec key)
      (fun y r => match r with
        | .ok v => y.2.committed = true ∧ Quiet x.2 y.2 ∧ v.1 = outcome
        | .error _ => y.2.committed = false) x := by
  refine packCall_sat hmem trivial ?_
  intro r y hy
  have hq : Quiet x.2 y.2 := by
    rw [hy]
    exact quiet_remember (fun _ h => nomatch h) (fun _ _ h => nomatch h)
  cases r with
  | error e =>
      show y.2.committed = false
      rw [hy]
      exact hopen
  | ok u =>
      have hwy : PackWrite key y.2 session := by
        refine ⟨hw.1, ?_⟩
        rw [hq.loaded]
        exact hw.2
      have hopeny : y.2.committed = false := by rw [hy]; exact hopen
      cases isNew with
      | true =>
          refine packCall_sat hmem hwy ?_
          intro r z hz
          cases r with
          | error e =>
              show z.2.committed = false
              rw [hz]
              exact hopeny
          | ok u =>
              refine ⟨by rw [hz]; rfl, hq.trans ?_, rfl⟩
              rw [hz]
              exact quiet_remember (fun _ h => nomatch h) (fun _ _ h => nomatch h)
      | false =>
          refine packCall_sat hmem hwy ?_
          intro r z hz
          cases r with
          | error e =>
              show z.2.committed = false
              rw [hz]
              exact hopeny
          | ok b =>
              cases b with
              | false =>
                  show z.2.committed = false
                  rw [hz]
                  exact hopeny
              | true =>
                  refine ⟨by rw [hz]; rfl, hq.trans ?_, rfl⟩
                  rw [hz]
                  exact quiet_remember (fun _ h => nomatch h) (fun _ _ h => nomatch h)

/-- What a step of a pack flow has done at its end: from no session the flow was
    called with the input and its response is the outcome; from a session past the one
    step it was not called. -/
def PackEnd (flowId : String) (input : Json) (m : StepMemory) : Except RunnerError (Json × NodeOutputs) → Prop
  | .error _ => m.committed = false
  | .ok v => m.committed = true ∧ ∃ base, m.loaded = some base ∧
      (base = none → ∃ seq response nodes, v.1 = doneOutcome response ∧
        (⟨.callAdapter seq ⟨packFlowAdapter, flowId, input⟩, .ok (response, nodes)⟩ : Event Op Op.Res) ∈
          m.history) ∧
      (∀ b, base = some b → 1 ≤ b.cursor.position → m.invoked = [])

/-- The part of a step of a pack flow after the session is open. -/
theorem packBody_sat {sm : StateMachine} {tenant : TenantCtx} {packId flowId : String}
    (session : SessionSnapshot) {input : Json} {base : Option SessionSnapshot}
    {x : τ × StepMemory} (hopen : x.2.committed = false) (hloaded : x.2.loaded = some base)
    (hinv : x.2.invoked = []) (hkey : session.key = baseKey key base)
    (hnone : base = none → session.cursor.position = 0 ∧ session.outbox = .empty)
    (hsome : ∀ b, base = some b → session = b) {isNew : Bool} {expected : Nat} :
    ((runSteps sm (packFlow packId flowId) tenant
        ((packFlow packId flowId).steps.drop session.cursor.position)
        (packCopy session input) [] >>= fun v =>
          commit isNew expected v.1 v.2.1 v.2.2) : Exec (Json × NodeOutputs)).Sat
      (threadAnchor ownMemory) exec (packOk exec key) (fun y r => PackEnd flowId input y.2 r) x := by
  cases hpos : session.cursor.position with
  | zero =>
      change ((executeAdapterStep sm (packFlow packId flowId) tenant (packCopy session input)
        ⟨packFlowAdapter, flowId, .str payloadFromLastInput⟩ >>= fun v =>
          runSteps sm (packFlow packId flowId) tenant [] { v.1 with lastOutcome := some v.2.1 }
            (v.2.2.foldl (fun m f => Json.setField m f.1 f.2) [])) >>= fun v =>
              commit isNew expected v.1 v.2.1 v.2.2).Sat _ _ _ _ x
      refine Prog.Sat.bind (Q := fun y r => y.2.loaded = some base ∧ y.2.committed = false ∧
        ∀ v, r = .ok v → PackWrite key y.2 v.1 ∧ (base = none →
          ∃ seq response nodes, v.2.1 = doneOutcome response ∧
            (⟨.callAdapter seq ⟨packFlowAdapter, flowId, input⟩, .ok (response, nodes)⟩ :
              Event Op Op.Res) ∈ y.2.history)) ?_ ?_
        (Prog.Sat.bind ?_ ?_ (packAdapter_sat hmem hopen))
      · intro y v hy
        obtain ⟨hl, hc, hv⟩ := hy
        obtain ⟨hw, hnew⟩ := hv v rfl
        refine Prog.Sat.mono ?_ (packCommit_sat hmem hc hw)
        intro z r hz
        cases r with
        | error e => exact hz
        | ok w =>
            obtain ⟨h1, h2, h3⟩ := hz
            refine ⟨h1, base, h2.loaded.trans hl, ?_, ?_⟩
            · intro hb
              obtain ⟨seq, response, nodes, hr, hev⟩ := hnew hb
              exact ⟨seq, response, nodes, h3.trans hr, h2.kept _ hev⟩
            · intro b hb hp
              rw [← hsome b hb, hpos] at hp
              exact nomatch hp
      · intro y e hy
        exact hy.2.1
      · intro y v hy
        obtain ⟨hl, hc, hv⟩ := hy
        obtain ⟨hk, hp, hcall⟩ := hv v rfl
        refine ⟨hl.trans hloaded, hc, ?_⟩
        intro w hw
        cases hw
        refine ⟨⟨?_, base, hl.trans hloaded, hk.trans hkey⟩, ?_⟩
        · show 1 ≤ v.1.cursor.position
          rw [hp]
          exact Nat.succ_le_succ (Nat.zero_le _)
        · intro hb
          obtain ⟨response, nodes, hr, hev⟩ := hcall (hnone hb).2
          rw [show resolveAdapterPayload (.str payloadFromLastInput) (packCopy session input) = input
            from resolve_ingress rfl] at hev
          exact ⟨_, response, nodes, hr, hev⟩
      · intro y e hy
        exact ⟨hy.1.trans hloaded, hy.2.1, fun v hv => nomatch hv⟩
  | succ n =>
      have hdrop : (packFlow packId flowId).steps.drop (n + 1) = [] := List.drop_nil
      rw [hdrop]
      refine Prog.Sat.mono ?_ (packCommit_sat hmem hopen ?_)
      · intro y r hy
        cases r with
        | error e => exact hy
        | ok v =>
            obtain ⟨h1, h2, -⟩ := hy
            refine ⟨h1, base, h2.loaded.trans hloaded, ?_, fun _ _ _ => h2.invoked.trans hinv⟩
            intro hb
            have := (hnone hb).1
            rw [hpos] at this
            exact nomatch this
      · refine ⟨?_, base, hloaded, hkey⟩
        show 1 ≤ session.cursor.position
        rw [hpos]
        exact Nat.succ_le_succ (Nat.zero_le n)

/-- **ONE STEP OF A PACK FLOW.** -/
theorem packStep_sat {flows : List FlowDescriptor} {sha256Hex : List UInt8 → String} (q : Request)
    {x : τ × StepMemory} (hx : x.2 = .fresh) :
    (q.step (packMachine flows sha256Hex)).Sat (threadAnchor ownMemory) exec (packOk exec q.key)
      (fun y r => PackEnd q.flowId q.input y.2 r) x := by
  unfold Request.step step
  cases hflow : (packMachine flows sha256Hex).flow q.packId q.flowId with
  | none => show x.2.committed = false; rw [hx]; rfl
  | some flow =>
      rw [packMachine_flow hflow]
      dsimp only
      cases (packMachine flows sha256Hex).ensurePolicyBudget (packFlow q.packId q.flowId) with
      | error e => show x.2.committed = false; rw [hx]; rfl
      | ok u =>
          refine packCall_sat hmem ⟨rfl, hx⟩ ?_
          intro r y hy
          rw [hx] at hy
          cases r with
          | error e => show y.2.committed = false; rw [hy]; rfl
          | ok found =>
              have hopen : y.2.committed = false := by rw [hy]; rfl
              have hloaded : y.2.loaded = some found := by rw [hy]; rfl
              have hinv : y.2.invoked = [] := by rw [hy]; rfl
              simp only [wake_pack]
              cases found with
              | some b =>
                  exact packBody_sat hmem b hopen hloaded hinv rfl (fun h => nomatch h)
                    (fun b' hb => Option.some.inj hb)
              | none =>
                  change (openSession q.key none >>= fun session => _).Sat _ _ _ _ y
                  unfold openSession
                  cases q.key.stableSessionId with
                  | some id =>
                      exact packBody_sat hmem (.new q.key id) hopen hloaded hinv rfl (fun _ => ⟨rfl, rfl⟩)
                        (fun b hb => nomatch hb)
                  | none =>
                      refine packCall_sat hmem trivial ?_
                      intro id z hz
                      have hq : Quiet y.2 z.2 := by
                        rw [hz]
                        exact quiet_remember (fun _ h => nomatch h) (fun _ _ h => nomatch h)
                      exact packBody_sat hmem (.new q.key id) (by rw [hz]; exact hopen)
                        (hq.loaded.trans hloaded) (hq.invoked.trans hinv) rfl (fun _ => ⟨rfl, rfl⟩)
                        (fun b hb => nomatch hb)

end Pack

/-! ## One message after another -/

/-- A handled message: what the host held before it, its ghost and its answer. -/
structure Message where
  envelope : IngressEnvelope
  before : SessionStore
  memory : StepMemory
  result : Except String Json

/-- A message as a thread. -/
abbrev MessageThread : Type := Main Op Op.Res String Unit Json

/-- Messages handled one after another, which left the sessions `st`. -/
inductive Messages (sm : StateMachine) (ids : IdChecks) : SessionStore → List Message → Prop where
  | nil : Messages sm ids (fun _ => none) []
  | tail {st st' : SessionStore} {ms : List Message} {e : IngressEnvelope}
      {es : List (Event Op Op.Res)} {p : MessageThread} {m : StepMemory} {r : Except String Json}
      (hms : Messages sm ids st ms)
      (hrun : Run retained (Main.lift (handle sm ids e)) (st, .fresh) es p (st', m))
      (hr : p.outcome? = some r) : Messages sm ids st' (ms ++ [⟨e, st, m, r⟩])

/-- The flow was called with the message's own envelope and `v` is its response. -/
def Reached (msg : Message) (v : Json) : Prop :=
  ∃ seq nodes, (⟨.callAdapter seq ⟨packFlowAdapter, msg.envelope.flowId, msg.envelope.toValue⟩,
    .ok (v, nodes)⟩ : Event Op Op.Res) ∈ msg.memory.history

/-- The host held the session of the message when it arrived. -/
def Held (ids : IdChecks) (msg : Message) : Prop :=
  ∃ q s, msg.envelope.request ids = .ok q ∧ msg.before q.key = some s

/-- Two messages of one session. -/
def SameSession (ids : IdChecks) (u msg : Message) : Prop :=
  ∃ q q', u.envelope.request ids = .ok q ∧ msg.envelope.request ids = .ok q' ∧ q.key = q'.key

/-- Every stored session is under its key and past the one step of its flow. -/
def PastEnd (st : SessionStore) : Prop :=
  ∀ k s, st k = some s → s.key = k ∧ 1 ≤ s.cursor.position

/-- The sessions and the ghost of a message that began at `st`. -/
structure MessageInv (key : SessionKey) (st : SessionStore) (s : SessionStore × StepMemory) :
    Prop where
  past : PastEnd s.1
  start : s.2.history = [] → s.1 = st
  loaded : ∀ b, s.2.loaded = some b → b.map (·.content) = st key
  grows : ∀ k, (st k).isSome → (s.1 k).isSome
  committed : s.2.committed = true → (s.1 key).isSome

section Handling

variable {key : SessionKey} {st : SessionStore} {s s' : SessionStore × StepMemory}

theorem remember_history (m : StepMemory) (i : Op) (r : i.Res) : (m.remember i r).history ≠ [] := by
  have hne : m.history ++ [⟨i, r⟩] ≠ [] := List.append_ne_nil_of_right_ne_nil _ (List.cons_ne_nil _ _)
  cases i with
  | get key => cases r <;> exact hne
  | put session => cases r <;> exact hne
  | updateCas session expected =>
      cases r with
      | error e => exact hne
      | ok b => cases b <;> exact hne
  | setJson key value => cases r <;> exact hne
  | callAdapter seq call => cases r <;> exact hne
  | emit span fields => exact hne
  | generateSessionId => exact hne

/-- A write that may have taken effect. -/
theorem MessageInv.write (hst : PastEnd st) (hi : MessageInv key st s) {session : SessionSnapshot}
    (hw : PackWrite key s.2 session)
    (h1 : s'.1 = s.1 ∨ s'.1 = Function.update s.1 session.key (some session.content))
    (h2 : s'.2.history ≠ []) (h3 : s'.2.loaded = s.2.loaded)
    (h4 : s'.2.committed = s.2.committed ∨
      s'.1 = Function.update s.1 session.key (some session.content)) : MessageInv key st s' := by
  obtain ⟨hpos, base, hl, hk⟩ := hw
  have hkey : session.key = key := by
    rw [hk]
    cases base with
    | none => rfl
    | some b => exact (hst key _ (hi.loaded _ hl).symm).1
  rw [hkey] at h1 h4
  have hsome : ∀ k, (s.1 k).isSome → (s'.1 k).isSome := by
    intro k hk
    rcases h1 with h1 | h1
    · rw [h1]
      exact hk
    · rw [h1]
      by_cases hkk : k = key
      · rw [hkk, Function.update_self]
        rfl
      · rw [Function.update_of_ne hkk]
        exact hk
  refine ⟨?_, fun h => absurd h h2, by rw [h3]; exact hi.loaded, fun k h => hsome k (hi.grows k h), ?_⟩
  · rcases h1 with h1 | h1
    · rw [h1]
      exact hi.past
    · rw [h1]
      intro k t ht
      by_cases hkk : k = key
      · rw [hkk, Function.update_self] at ht
        cases ht
        exact ⟨hkey.trans hkk.symm, hpos⟩
      · rw [Function.update_of_ne hkk] at ht
        exact hi.past k t ht
  · intro hc
    rcases h4 with h4 | h4
    · rw [h4] at hc
      exact hsome key (hi.committed hc)
    · rw [h4, Function.update_self]
      rfl

/-- **ONE OPERATION** of a message. -/
theorem MessageInv.step (hst : PastEnd st) (hi : MessageInv key st s) {ev : Event Op Op.Res}
    (hok : packOk retained key s ev s') : MessageInv key st s' := by
  obtain ⟨i, r⟩ := ev
  obtain ⟨⟨hm, heff⟩, hfact⟩ := hok
  have hne : s'.2.history ≠ [] := by
    rw [hm]
    exact remember_history _ _ _
  have hframe : s'.1 = s.1 → s'.2.loaded = s.2.loaded → s'.2.committed = s.2.committed →
      MessageInv key st s' := by
    intro h1 h2 h3
    refine ⟨by rw [h1]; exact hi.past, fun h => absurd h hne, by rw [h2]; exact hi.loaded, ?_, ?_⟩
    · rw [h1]
      exact hi.grows
    · rw [h1, h3]
      exact hi.committed
  cases i with
  | get k =>
      obtain ⟨hk, hfresh⟩ : k = key ∧ s.2 = .fresh := hfact
      cases r with
      | error e => exact hframe heff (by rw [hm]; rfl) (by rw [hm]; rfl)
      | ok found =>
          obtain ⟨h1, h2⟩ : s'.1 = s.1 ∧ found.map (·.content) = s.1 k := heff
          refine ⟨by rw [h1]; exact hi.past, fun h => absurd h hne, ?_, ?_, ?_⟩
          · intro b hb
            rw [hm] at hb
            have hfound : found = b := Option.some.inj hb
            rw [← hfound, h2, hk, hi.start (by rw [hfresh]; rfl)]
          · rw [h1]
            exact hi.grows
          · intro hc
            rw [hm] at hc
            rw [h1]
            exact hi.committed hc
  | put session =>
      cases r with
      | error e =>
          exact hi.write hst hfact heff hne (by rw [hm]; rfl) (Or.inl (by rw [hm]; rfl))
      | ok u => exact hi.write hst hfact (Or.inr heff) hne (by rw [hm]; rfl) (Or.inr heff)
  | updateCas session expected =>
      cases r with
      | error e =>
          exact hi.write hst hfact heff hne (by rw [hm]; rfl) (Or.inl (by rw [hm]; rfl))
      | ok b =>
          cases b with
          | false => exact hframe heff (by rw [hm]; rfl) (by rw [hm]; rfl)
          | true => exact hi.write hst hfact (Or.inr heff) hne (by rw [hm]; rfl) (Or.inr heff)
  | setJson k v => cases r <;> exact hframe heff (by rw [hm]; rfl) (by rw [hm]; rfl)
  | emit span fields => exact hframe heff (by rw [hm]; rfl) (by rw [hm]; rfl)
  | callAdapter seq call => cases r <;> exact hframe heff (by rw [hm]; rfl) (by rw [hm]; rfl)
  | generateSessionId => exact hframe heff (by rw [hm]; rfl) (by rw [hm]; rfl)

/-- What one message does to the sessions, and what its answer rests on. -/
theorem message_spec {flows : List FlowDescriptor} {sha256Hex : List UInt8 → String} {ids : IdChecks}
    {e : IngressEnvelope} {q : Request} (hq : e.request ids = .ok q) {st' : SessionStore}
    {m : StepMemory} {es : List (Event Op Op.Res)} {p : MessageThread} (hst : PastEnd st)
    (hrun : Run retained (Main.lift (handle (packMachine flows sha256Hex) ids e)) (st, .fresh) es p
      (st', m)) :
    MessageInv q.key st (st', m) ∧ ∀ v, p.outcome? = some (.ok v) →
      ∃ w, PackEnd q.flowId q.input m (.ok w) ∧ v = (w.1.get? "response").getD w.1 := by
  have hsat : (Main.lift (handle (packMachine flows sha256Hex) ids e) : MessageThread).Sat ownMemory
      retained (packOk retained q.key) (fun _ _ => True) (fun s r => ∀ v, r = .ok v →
        ∃ w, PackEnd q.flowId q.input s.2 (.ok w) ∧ v = (w.1.get? "response").getD w.1)
      (st, .fresh) := by
    refine Main.Sat.lift ?_ ?_
    · intro s s' r hr hrely
      have hmem : s'.2 = s.2 := hrely
      rw [hmem]
      exact hr
    · unfold handle
      rw [hq]
      have hmemory : ∀ i s r s', retained i s r s' → s'.2 = s.2.remember i r :=
        fun i s r s' h => h.1
      have hstep : ((q.step (packMachine flows sha256Hex)).mapError fun err =>
          s!"flow execution failed: {err.display}").Sat (threadAnchor ownMemory) retained
          (packOk retained q.key) (fun y r => ∀ w, r = .ok w → PackEnd q.flowId q.input y.2 (.ok w))
          (st, .fresh) := by
        refine Prog.Sat.mapError ?_ ?_ (packStep_sat hmemory q rfl)
        · intro y w hw w' hw'
          cases hw'
          exact hw
        · intro y err _ w hw
          exact nomatch hw
      refine Prog.Sat.bind ?_ ?_ hstep
      · intro y w hw v hv
        cases hv
        exact ⟨w, hw w rfl, rfl⟩
      · intro y err _ v hv
        exact nomatch hv
  refine ⟨?_, ?_⟩
  · refine Run.preserves ownMemory_refl (fun s ev s' hi _ hok => hi.step hst hok) hrun hsat ?_
    refine ⟨hst, fun _ => rfl, ?_, fun _ h => h, ?_⟩
    · intro b hb
      exact nomatch hb
    · intro hc
      exact nomatch hc
  · intro v hv
    exact (Run.sat ownMemory_refl hrun hsat).result ownMemory_refl hv v rfl

/-- A request that is refused ends the message at once. -/
theorem message_refused {sm : StateMachine} {ids : IdChecks} {e : IngressEnvelope} {err : String}
    (he : e.request ids = .error err) {st' : SessionStore} {m : StepMemory}
    {es : List (Event Op Op.Res)} {p : MessageThread}
    (hrun : Run retained (Main.lift (handle sm ids e)) (st, .fresh) es p (st', m)) :
    st' = st ∧ p = .fail err := by
  have hfail : (Main.lift (handle sm ids e) : MessageThread) = .fail err := by
    unfold handle
    rw [he]
    rfl
  rw [hfail] at hrun
  generalize hc : ((st', m) : SessionStore × StepMemory) = c at hrun
  generalize hs : ((st, StepMemory.fresh) : SessionStore × StepMemory) = c₀ at hrun
  have hend : c = c₀ ∧ p = .fail err := by
    clear hc hs hfail
    induction hrun with
    | refl => exact ⟨rfl, rfl⟩
    | tail _ hstep ih =>
        rw [ih.2] at hstep
        cases hstep
  refine ⟨?_, hend.2⟩
  rw [← hc, ← hs] at hend
  exact congrArg Prod.fst hend.1

end Handling

/-- The request of an envelope carries the envelope itself. -/
theorem request_input {ids : IdChecks} {e : IngressEnvelope} {q : Request}
    (h : e.request ids = .ok q) : q.flowId = e.flowId ∧ q.input = e.toValue := by
  unfold IngressEnvelope.request at h
  split at h
  · exact nomatch h
  · split at h
    · exact nomatch h
    · cases h
      exact ⟨rfl, rfl⟩

/-- **AN ANSWERED MESSAGE REACHED THE FLOW EXACTLY WHEN ITS SESSION WAS NOT STORED**, and
    every answered message leaves its session stored for all later ones. -/
theorem message_reaches_flow {flows : List FlowDescriptor} {sha256Hex : List UInt8 → String}
    {ids : IdChecks} {st : SessionStore} {ms : List Message}
    (h : Messages (packMachine flows sha256Hex) ids st ms) :
    (∀ msg ∈ ms, ∀ v, msg.result = .ok v → (Reached msg v ↔ ¬ Held ids msg)) ∧
      ms.Pairwise fun u msg => SameSession ids u msg → ∀ v, u.result = .ok v → Held ids msg := by
  -- carried along: stored sessions are past the end, answered ones are stored
  have hinv : PastEnd st ∧ (∀ u ∈ ms, ∀ q v, u.envelope.request ids = .ok q → u.result = .ok v →
      (st q.key).isSome) ∧ (∀ msg ∈ ms, ∀ v, msg.result = .ok v → (Reached msg v ↔ ¬ Held ids msg)) ∧
      ms.Pairwise fun u msg => SameSession ids u msg → ∀ v, u.result = .ok v → Held ids msg := by
    induction h with
    | nil =>
        refine ⟨fun k s hs => (nomatch hs), fun u hu => (nomatch hu), fun u hu => (nomatch hu),
          List.Pairwise.nil⟩
    | @tail st st' ms e es p m r hms hrun hr ih =>
        obtain ⟨hpast, hheld, hreach, hpair⟩ := ih
        have hnewpair : List.Pairwise (fun u msg : Message =>
            SameSession ids u msg → ∀ v, u.result = .ok v → Held ids msg)
            (ms ++ [⟨e, st, m, r⟩]) := by
          refine List.pairwise_append.mpr ⟨hpair, List.pairwise_singleton .., ?_⟩
          intro u hu msg hmsg hsame v hv
          rw [List.mem_singleton.mp hmsg] at hsame ⊢
          obtain ⟨q, q', hq, hq', hkey⟩ := hsame
          have hsome := hheld u hu q v hq hv
          rw [hkey] at hsome
          obtain ⟨s, hs⟩ := Option.isSome_iff_exists.mp hsome
          exact ⟨q', s, hq', hs⟩
        cases hreq : e.request ids with
        | error err =>
            obtain ⟨hst, hp⟩ := message_refused hreq hrun
            have hr' : r = .error err := by
              rw [hp] at hr
              exact (Option.some.inj hr).symm
            refine ⟨by rw [hst]; exact hpast, ?_, ?_, hnewpair⟩
            · intro u hu q v hq hv
              rw [hst]
              rcases List.mem_append.mp hu with hold | hnew
              · exact hheld u hold q v hq hv
              · rw [List.mem_singleton.mp hnew, hr'] at hv
                exact nomatch hv
            · intro u hu v hv
              rcases List.mem_append.mp hu with hold | hnew
              · exact hreach u hold v hv
              · rw [List.mem_singleton.mp hnew, hr'] at hv
                exact nomatch hv
        | ok q =>
            obtain ⟨hi, hend⟩ := message_spec hreq hpast hrun
            refine ⟨hi.past, ?_, ?_, hnewpair⟩
            · intro u hu q' v hq' hv
              rcases List.mem_append.mp hu with hold | hnew
              · exact hi.grows _ (hheld u hold q' v hq' hv)
              · rw [List.mem_singleton.mp hnew] at hq' hv
                have hqq : q = q' := Except.ok.inj (hreq.symm.trans hq')
                subst hqq
                obtain ⟨w, hw, -⟩ := hend v (hr.trans (congrArg some hv))
                exact hi.committed hw.1
            · intro u hu v hv
              rcases List.mem_append.mp hu with hold | hnew
              · exact hreach u hold v hv
              · rw [List.mem_singleton.mp hnew] at hv ⊢
                obtain ⟨w, ⟨-, base, hl, hnone, hsome⟩, hvw⟩ := hend v (hr.trans (congrArg some hv))
                have hbase := hi.loaded base hl
                obtain ⟨hf, hin⟩ := request_input hreq
                rw [hf, hin] at hnone
                constructor
                · -- a call of the flow means the session was not stored
                  rintro ⟨seq, nodes, hev⟩ ⟨q', s, hq', hs⟩
                  have hqq : q = q' := Except.ok.inj (hreq.symm.trans hq')
                  subst hqq
                  have hs' : st q.key = some s := hs
                  rw [hs'] at hbase
                  obtain ⟨b, hb, hbs⟩ := Option.map_eq_some_iff.mp hbase
                  have hpos : 1 ≤ b.cursor.position := by
                    have := (hpast q.key s hs').2
                    rw [← hbs] at this
                    exact this
                  have hnil := hsome b hb hpos
                  have hcall : (seq, e.toValue) ∈ m.invoked :=
                    List.mem_filterMap.mpr ⟨_, hev, rfl⟩
                  rw [hnil] at hcall
                  exact nomatch hcall
                · intro hnot
                  have hb : base = none := by
                    cases base with
                    | none => rfl
                    | some b => exact absurd ⟨q, b.content, hreq, hbase.symm⟩ hnot
                  obtain ⟨seq, response, nodes, hout, hev⟩ := hnone hb
                  have hresp : v = response := by
                    rw [hvw, hout]
                    rfl
                  rw [hresp]
                  exact ⟨seq, nodes, hev⟩
  exact hinv.2.2

/-! ## The in-memory host -/

/-- A stored entry, seen in the contents. -/
theorem contents_store (h : Hosts) (base : Option SessionSnapshot) (e : SessionEntry) :
    (h.store base e).contents =
      Function.update h.contents e.snapshot.key (some e.snapshot.content) := by
  funext k
  by_cases hk : k = e.snapshot.key
  · subst hk
    simp [Hosts.contents, Hosts.store]
  · simp [Hosts.contents, Hosts.store, Function.update_of_ne hk]

/-- **THE IN-MEMORY HOST RETAINS** what it is given, as long as nothing expires. -/
theorem execAt_retained (i : Op) (s : World) (r : i.Res) (s' : World)
    (h : execAt Kept i s r s') :
    retained i (s.1.contents, s.2) r (s'.1.contents, s'.2) := by
  obtain ⟨t, -, hkept, ha, rfl⟩ := h
  refine ⟨rfl, ?_⟩
  cases i with
  | get key =>
      cases ha
      have hlive : s.1.live t key = s.1.sessions key := hkept key rfl
      refine ⟨?_, ?_⟩
      · funext k
        show (Function.update s.1.sessions key (s.1.live t key) k).map _ = _
        rw [hlive, Function.update_eq_self]
        rfl
      · rw [hlive]
        show ((s.1.sessions key).map SessionEntry.loaded).map _ = _
        rw [Option.map_map]
        rfl
  | put session =>
      cases ha
      exact contents_store s.1 none (putEntry t session)
  | updateCas session expected =>
      cases ha
      cases hcas : s.1.casOk session expected with
      | false =>
          show (effect t s (.updateCas session expected)).contents = s.1.contents
          simp only [effect, hcas]
          rfl
      | true =>
          show (effect t s (.updateCas session expected)).contents = _
          rw [effect, hcas]
          exact contents_store s.1 none (casEntry t session expected)
  | setJson key value => cases ha; rfl
  | emit span fields => cases r <;> rfl
  | callAdapter seq call => cases r <;> rfl
  | generateSessionId => rfl

/-- Ids that are always accepted. -/
def anyIds : IdChecks := ⟨fun _ => none, fun _ => none⟩

/-- A message of the chat session. -/
def chatMessage (text : String) : IngressEnvelope :=
  ⟨"demo", none, some "pack", "chat", none, none, some "room", none, none, none, none, none, none,
    none, none, .str text, none, none⟩

/-- The digest of the first message at outbox position 0. -/
def chatDigest (bytes : List UInt8) : String :=
  if bytes = toBeBytes 0 ++ (chatMessage "hi").toValue.render.toUTF8.toList then
    "e851e9d782e45071b4fa9950883cc3e1e463e52743baba126c4286a38ff29175"
  else ""

/-- The machine of one pack with one flow. -/
def chatMachine : StateMachine := packMachine [⟨"pack", "chat"⟩] chatDigest

/-- The flow answers with the payload it got. -/
def echoFlow (call : AdapterCall) : Except RunnerError (Json × NodeOutputs) :=
  .ok ((call.payload.get? "payload").getD .null, [])

/-- `n` operations of a message from the hosts `h`, at time 0. -/
def handled (text : String) (h : Hosts) (n : Nat) : MessageThread × World :=
  play (stepping echoFlow n) (Main.lift (handle chatMachine anyIds (chatMessage text)), (h, .fresh))

/-- A message that was played to its end is one more message. -/
theorem Messages.handled {h : Hosts} {ms : List Message}
    (hms : Messages chatMachine anyIds h.contents ms) (text : String) (n : Nat)
    (hclock : h.clock = 0) {r : Except String Json}
    (hr : (Engine.handled text h n).1.outcome? = some r) :
    Messages chatMachine anyIds (Engine.handled text h n).2.1.contents
      (ms ++ [⟨chatMessage text, h.contents, (Engine.handled text h n).2.2, r⟩]) := by
  obtain ⟨es, hrun⟩ := stepping_run echoFlow n
    (Main.lift (handle chatMachine anyIds (chatMessage text)) : MessageThread) (h, .fresh) hclock
    (playMeets_of_forall (fun i s => kept_zero s i) _ _)
  exact hms.tail (hrun.map (fun s : World => (s.1.contents, s.2)) execAt_retained) hr

/-- The session after the first message. -/
def answered : Hosts := (handled "hi" .empty 6).2.1

/-- **THE SECOND MESSAGE IS ANSWERED WITH THE FIRST ANSWER**: the flow is not called. -/
theorem secondMessage_not_reached :
    ∃ st ms msg, Messages chatMachine anyIds st ms ∧ msg ∈ ms ∧
      msg.envelope = chatMessage "bye" ∧ msg.result = .ok (.str "hi") ∧
      ∀ v, ¬ Reached msg v := by
  have hnil : Messages chatMachine anyIds Hosts.empty.contents [] := .nil
  have hfirst := hnil.handled "hi" 6 rfl (r := .ok (.str "hi")) rfl
  have hsecond := Messages.handled hfirst "bye" 3 rfl (h := answered) (r := .ok (.str "hi")) rfl
  refine ⟨_, _, _, hsecond, List.mem_append_right _ (List.mem_singleton.mpr rfl), rfl, rfl, ?_⟩
  rintro v ⟨seq, nodes, hev⟩
  have hcall : (seq, (chatMessage "bye").toValue) ∈ (Engine.handled "bye" answered 3).2.2.invoked :=
    List.mem_filterMap.mpr ⟨_, hev, rfl⟩
  have hnone : (Engine.handled "bye" answered 3).2.2.invoked = [] := rfl
  rw [hnone] at hcall
  exact nomatch hcall

/-- The first message reached the flow. -/
theorem firstMessage_reached :
    ∃ st msg, Messages chatMachine anyIds st [msg] ∧ msg.result = .ok (.str "hi") ∧
      (Reached msg (.str "hi") ↔ ¬ Held anyIds msg) ∧ ¬ Held anyIds msg := by
  have hnil : Messages chatMachine anyIds Hosts.empty.contents [] := .nil
  have hfirst := hnil.handled "hi" 6 rfl (r := .ok (.str "hi")) rfl
  refine ⟨_, _, hfirst, rfl, (message_reaches_flow hfirst).1 _ (List.mem_singleton.mpr rfl) _ rfl, ?_⟩
  rintro ⟨q, s, -, hs⟩
  exact nomatch hs

end Greentic.Engine
