import GreenticRunner.StepProofs

/-! # The outbox over consecutive steps

    Steps that run one after another, each to its end, over the in-memory hosts.
    The outbox entry of a call lives in the working copy until the one write at the
    end of the step, so a response survives exactly when the step that received it
    commits.

    * `outbox_exactly_once` — the property holds whenever no step fails after one of
      its calls returned and no session has expired when it is loaded;
    * `twoCalls_calls_again` — a flow of two adapters whose second one fails. -/

namespace Greentic.Engine

open FinMaps Resumption

/-! ## Sequences of steps -/

/-- A completed step: its request, its ghost at the end and its result. -/
structure Turn where
  request : Request
  memory : StepMemory
  result : Except RunnerError (Json × NodeOutputs)

/-- Completed steps, one after another, that left the hosts at `h`. -/
inductive Turns (C : Nat → World → Op → Prop) (sm : StateMachine) : Hosts → List Turn → Prop where
  | nil : Turns C sm .empty []
  | tail {h h' : Hosts} {ts : List Turn} {q : Request} {es : List (Event Op Op.Res)}
      {p : StepThread} {m : StepMemory}
      {r : Except RunnerError (Json × NodeOutputs)} (hts : Turns C sm h ts)
      (hrun : Run (execAt C) (Main.lift (q.step sm)) (h, .fresh) es p (h', m))
      (hr : p.outcome? = some r) : Turns C sm h' (ts ++ [⟨q, m, r⟩])

/-- A step that failed is retried: the next step is the same request. -/
def Retried (ts : List Turn) : Prop :=
  ts.IsChain fun t u => (∃ e, t.result = .error e) → u.request = t.request

/-- An adapter step at the position of `c`, with its payload and an outbox that holds all of `outbox`, answers
    the response and does not call the adapter. -/
def Replays (sm : StateMachine) (outbox : FinMap OutboxKey SessionOutboxEntry) (c : Response) : Prop :=
  ∀ (flow : FlowDefinition) (tenant : TenantCtx) (session : SessionSnapshot) (call : AdapterCall),
    (∀ k o, outbox.get? k = some o → session.outbox.get? k = some o) → call.adapter ∈ sm.adapters →
    session.cursor.outboxSeq = c.seq → resolveAdapterPayload call.payload session = c.payload →
    c.payload.render.utf8ByteSize ≤ sm.policy.maxPayloadBytes →
    executeAdapterStep sm flow tenant session call = (do
      Prog.ofExcept (← Prog.perform (Op.emit ⟨tenant.traceId, some s!"{flow.id}:{c.seq}"⟩
        [("adapter", call.adapter), ("operation", call.operation), ("dedup", "hit")]))
      return (session.replayed c.response, doneOutcome c.response, []))

/-- A call of `t` that returned is not invoked by `u`, which finds the response in
    the outbox it loads and replays it. -/
def Once (sm : StateMachine) (t u : Turn) : Prop :=
  u.request.key = t.request.key → ∀ c ∈ t.memory.called,
    (c.seq, c.payload) ∉ u.memory.invoked ∧
      ∀ base, u.memory.loaded = some base →
        Recorded sm (baseOutbox base) c ∧ Replays sm (baseOutbox base) c

/-- Adapter calls are exactly-once per session and outbox position. -/
def ExactlyOnce (sm : StateMachine) (ts : List Turn) : Prop := ts.Pairwise (Once sm)

/-- No step fails after one of its calls returned. -/
def CallsCommit (ts : List Turn) : Prop :=
  ∀ t ∈ ts, ∀ e, t.result = .error e → t.memory.called = []

/-- **A RECORDED RESPONSE IS REPLAYED**: the adapter is not called. -/
theorem Recorded.replays {sm : StateMachine} {outbox : FinMap OutboxKey SessionOutboxEntry} {c : Response}
    (hc : Recorded sm outbox c) : Replays sm outbox c := by
  intro flow tenant session call houtbox hadapter hseq hpayload hsize
  have hentry := houtbox _ _ hc
  unfold executeAdapterStep
  rw [if_neg (not_not_intro hadapter)]
  dsimp only
  rw [hpayload, if_neg (Nat.not_lt.mpr hsize), hseq, hentry]
  rfl

/-! ## One step -/

/-- The hosts and the ghost of a step of session `key` that began at `h`. -/
structure TurnInv (sm : StateMachine) (key : SessionKey) (h : Hosts) (s : World) : Prop where
  keyed : ∀ k e, s.1.sessions k = some e → e.snapshot.key = k
  others : ∀ k, k ≠ key → s.1.sessions k = h.sessions k
  base : ∀ b, s.2.loaded = some b → b = (h.sessions key).map SessionEntry.loaded
  stored : s.2.committed = false → s.1.sessions key = h.sessions key
  written : s.2.committed = true → ∃ e, s.1.sessions key = some e ∧
    (∀ k o, (baseOutbox ((h.sessions key).map SessionEntry.loaded)).get? k = some o →
      e.snapshot.outbox.get? k = some o) ∧
    ∀ c ∈ s.2.called, Recorded sm e.snapshot.outbox c
  invoked : ∀ c ∈ s.2.invoked,
    (baseOutbox ((h.sessions key).map SessionEntry.loaded)).get? (sm.outboxKey c.1 c.2) = none

section Step

variable {sm : StateMachine} {key : SessionKey} {h : Hosts} {s : World}

/-- An operation that leaves the hosts, the load and the commit as they are. -/
theorem TurnInv.frame (hi : TurnInv sm key h s) {s' : World}
    (h1 : s'.1.sessions = s.1.sessions) (h2 : s'.2.loaded = s.2.loaded)
    (h3 : s'.2.committed = s.2.committed) (h4 : s.2.committed = false)
    (h5 : ∀ c ∈ s'.2.invoked, c ∈ s.2.invoked ∨
      (baseOutbox ((h.sessions key).map SessionEntry.loaded)).get? (sm.outboxKey c.1 c.2) = none) :
    TurnInv sm key h s' := by
  refine ⟨?_, ?_, ?_, ?_, ?_, ?_⟩
  · intro k e hk
    rw [h1] at hk
    exact hi.keyed k e hk
  · intro k hk
    rw [h1]
    exact hi.others k hk
  · intro b hb
    rw [h2] at hb
    exact hi.base b hb
  · intro _
    rw [h1]
    exact hi.stored h4
  · intro hc
    rw [h3, h4] at hc
    exact nomatch hc
  · intro c hc
    rcases h5 c hc with hold | hnew
    · exact hi.invoked c hold
    · exact hnew

/-- A commit of a working copy. -/
theorem TurnInv.commit (hi : TurnInv sm key h s) {base : Option SessionSnapshot}
    {session : SessionSnapshot} (hw : Working sm key base s.2 session) {s' : World}
    {e : SessionEntry} (hkey : e.snapshot.key = session.key)
    (hout : e.snapshot.outbox = session.outbox)
    (h1 : s'.1.sessions = Function.update s.1.sessions e.snapshot.key (some e))
    (h2 : s'.2.loaded = s.2.loaded) (h3 : s'.2.called = s.2.called)
    (h4 : s'.2.committed = true) (h5 : s'.2.invoked = s.2.invoked) : TurnInv sm key h s' := by
  have hb := hi.base base hw.loaded
  have hek : e.snapshot.key = key := by
    rw [hkey, hw.key, hb]
    cases hk : h.sessions key with
    | none => rfl
    | some e' =>
        have hst := hi.stored hw.uncommitted
        rw [hk] at hst
        exact hi.keyed key e' hst
  rw [hek] at h1
  refine ⟨?_, ?_, ?_, ?_, ?_, ?_⟩
  · intro k e' hk
    rw [h1] at hk
    by_cases hkk : k = key
    · subst hkk
      rw [Function.update_self] at hk
      cases hk
      exact hek
    · rw [Function.update_of_ne hkk] at hk
      exact hi.keyed k e' hk
  · intro k hk
    rw [h1, Function.update_of_ne hk]
    exact hi.others k hk
  · intro b hb
    rw [h2] at hb
    exact hi.base b hb
  · intro hc
    rw [h4] at hc
    exact nomatch hc
  · intro _
    refine ⟨e, ?_, ?_, ?_⟩
    · rw [h1, Function.update_self]
    · intro k o ho
      rw [hout]
      rw [← hb] at ho
      exact hw.outbox k o ho
    · intro c hc
      rw [h3] at hc
      rw [hout]
      exact hw.called c hc
  · intro c hc
    rw [h5] at hc
    exact hi.invoked c hc

/-- **ONE OPERATION** of a step. -/
theorem TurnInv.step (hi : TurnInv sm key h s) {ev : Event Op Op.Res} {s' : World}
    (hf : Fact sm key s.2 ev.1) (he : execAt Kept ev.1 s ev.2 s') : TurnInv sm key h s' := by
  obtain ⟨i, r⟩ := ev
  obtain ⟨t, -, hkept, ha, rfl⟩ := he
  cases i with
  | get k =>
      obtain ⟨hk, hm⟩ : k = key ∧ s.2 = .fresh := hf
      subst hk
      have hlive : s.1.live t k = h.sessions k :=
        (hkept k rfl).trans (hi.stored (by rw [hm]; rfl))
      cases ha
      have hsame : Function.update s.1.sessions k (s.1.live t k) = s.1.sessions := by
        rw [hkept k rfl, Function.update_eq_self]
      refine ⟨?_, ?_, ?_, ?_, ?_, ?_⟩
      · intro k' e hk'
        exact hi.keyed k' e (by rw [← hsame]; exact hk')
      · intro k' hk'
        exact (congrFun hsame k').trans (hi.others k' hk')
      · intro b hb
        have hb' : some ((s.1.live t k).map SessionEntry.loaded) = some b := hb
        rw [← Option.some.inj hb', hlive]
      · intro hc
        exact (congrFun hsame k).trans (hi.stored hc)
      · intro hc
        have : s.2.committed = true := hc
        rw [hm] at this
        exact nomatch this
      · intro c hc
        refine hi.invoked c ?_
        rw [hm] at hc
        exact nomatch hc
  | put session =>
      obtain ⟨-, base, hw, -⟩ := hf
      cases ha
      refine hi.commit hw (e := putEntry t session) rfl rfl rfl rfl rfl rfl ?_
      simp [StepMemory.invoked]
  | updateCas session expected =>
      obtain ⟨-, base, hw, -, -⟩ := hf
      cases ha
      cases hcas : s.1.casOk session expected with
      | true =>
          refine hi.commit hw (e := casEntry t session expected) rfl rfl ?_ ?_ ?_ ?_ ?_
          · simp [effect, hcas, Hosts.store]
          · simp
          · simp
          · simp
          · simp [StepMemory.invoked]
      | false =>
          refine hi.frame ?_ ?_ ?_ hw.uncommitted ?_
          · simp [effect, hcas]
          · simp
          · simp
          · intro c hc
            exact Or.inl (by simpa [StepMemory.invoked] using hc)
  | setJson k v =>
      obtain ⟨-, base, session, hw, -, -⟩ := hf
      cases ha
      refine hi.frame rfl rfl rfl hw.uncommitted ?_
      intro c hc
      exact Or.inl (by simpa [StepMemory.invoked] using hc)
  | emit span fields =>
      obtain ⟨-, hu, -⟩ := hf
      refine hi.frame rfl rfl rfl hu ?_
      intro c hc
      exact Or.inl (by simpa [StepMemory.invoked] using hc)
  | generateSessionId =>
      obtain ⟨-, hu, -⟩ := hf
      refine hi.frame rfl rfl rfl hu ?_
      intro c hc
      exact Or.inl (by simpa [StepMemory.invoked] using hc)
  | callAdapter seq call =>
      obtain ⟨-, hu, base, hl, hmiss⟩ := hf
      rw [hi.base base hl] at hmiss
      have hnew : ∀ m : StepMemory, m.history = s.2.history ++ [⟨.callAdapter seq call, r⟩] →
          ∀ c ∈ m.invoked, c ∈ s.2.invoked ∨
            (baseOutbox ((h.sessions key).map SessionEntry.loaded)).get?
              (sm.outboxKey c.1 c.2) = none := by
        intro m hm c hc
        rw [StepMemory.invoked, hm, List.filterMap_append, List.mem_append] at hc
        rcases hc with hold | hlast
        · exact Or.inl hold
        · have hceq : c = (seq, call.payload) := by simpa using hlast
          subst hceq
          exact Or.inr hmiss
      cases r with
      | ok v => exact hi.frame rfl rfl rfl hu (hnew _ rfl)
      | error e => exact hi.frame rfl rfl rfl hu (hnew _ rfl)

end Step

/-! ## One step after another -/

section Runs

variable {C : Nat → World → Op → Prop} {sm : StateMachine}

/-- What `step_sat` says of a request. -/
theorem Request.step_sat (q : Request) (h : Hosts) :
    (Main.lift (q.step sm) : StepThread).Sat ownMemory
      (execAt C) (factOk (execAt C) sm q.key) (fun _ _ => True) (fun s r => Ended s.2 r)
      (h, .fresh) := by
  refine Main.Sat.lift ?_ (Engine.step_sat execAt_memory rfl rfl)
  intro s s' r hr hrely
  have hmem : s'.2 = s.2 := hrely
  rw [hmem]
  exact hr

end Runs

section Turns

variable {sm : StateMachine} {h h' : Hosts} {q : Request} {es : List (Event Op Op.Res)}
  {p : StepThread} {m : StepMemory}

/-- **ONE STEP** leaves the session host in order. -/
theorem turn_inv (hkeyed : ∀ k e, h.sessions k = some e → e.snapshot.key = k)
    (hrun : Run (execAt Kept) (Main.lift (q.step sm)) (h, .fresh) es p (h', m)) :
    TurnInv sm q.key h (h', m) := by
  refine Run.preserves ownMemory_refl ?_ hrun (q.step_sat h) ?_
  · intro s ev s' hi he hok
    exact hi.step hok.1 he
  · refine ⟨hkeyed, fun _ _ => rfl, ?_, fun _ => rfl, ?_, ?_⟩
    · intro b hb
      exact nomatch hb
    · intro hc
      exact nomatch hc
    · intro c hc
      exact nomatch hc

theorem turn_ended (hrun : Run (execAt Kept) (Main.lift (q.step sm)) (h, .fresh) es p (h', m))
    {r : Except RunnerError (Json × NodeOutputs)} (hr : p.outcome? = some r) : Ended m r :=
  (Run.sat ownMemory_refl hrun (q.step_sat h)).result ownMemory_refl hr

/-- The responses of a completed sequence, in the session host. -/
def Stored (sm : StateMachine) (h : Hosts) (t : Turn) : Prop :=
  ∀ c ∈ t.memory.called, ∃ e, h.sessions t.request.key = some e ∧ Recorded sm e.snapshot.outbox c

/-- What is stored stays stored. -/
theorem Stored.next {t : Turn} (ht : Stored sm h t) (hi : TurnInv sm q.key h (h', m)) :
    Stored sm h' t := by
  intro c hc
  obtain ⟨e, he, hrec⟩ := ht c hc
  by_cases hkey : t.request.key = q.key
  · rw [hkey] at he ⊢
    cases hcom : m.committed with
    | false => exact ⟨e, (hi.stored hcom).trans he, hrec⟩
    | true =>
        obtain ⟨e', he', hkeep, -⟩ := hi.written hcom
        refine ⟨e', he', hkeep _ _ ?_⟩
        rw [he]
        exact hrec
  · exact ⟨e, (hi.others _ hkey).trans he, hrec⟩

/-- A step does not invoke what is stored. -/
theorem Stored.once {t : Turn} (ht : Stored sm h t) (hi : TurnInv sm q.key h (h', m))
    (r : Except RunnerError (Json × NodeOutputs)) : Once sm t ⟨q, m, r⟩ := by
  intro hkey c hc
  obtain ⟨e, he, hrec⟩ := ht c hc
  have hbase : Recorded sm (baseOutbox ((h.sessions q.key).map SessionEntry.loaded)) c := by
    have hkey' : q.key = t.request.key := hkey
    rw [hkey', he]
    exact hrec
  refine ⟨?_, ?_⟩
  · intro hinv
    have hmiss := hi.invoked _ hinv
    rw [show _ = some _ from hbase] at hmiss
    exact nomatch hmiss
  · intro base hb
    rw [hi.base base hb]
    exact ⟨hbase, hbase.replays⟩

end Turns

/-- **CALLS ARE EXACTLY-ONCE** in every sequence of steps in which no step fails
    after one of its calls returned and no load finds an expired session. -/
theorem outbox_exactly_once {sm : StateMachine} {h : Hosts} {ts : List Turn}
    (hts : Turns Kept sm h ts) (hcommit : CallsCommit ts) : ExactlyOnce sm ts := by
  -- the invariant that carries the induction: all responses so far are stored
  have hinv : (∀ k e, h.sessions k = some e → e.snapshot.key = k) ∧ (∀ t ∈ ts, Stored sm h t) ∧
      ExactlyOnce sm ts := by
    induction hts with
    | nil =>
        refine ⟨?_, ?_, List.Pairwise.nil⟩
        · intro k e he
          exact nomatch he
        · intro t ht
          exact nomatch ht
    | @tail h h' ts q es p m r hts hrun hr ih =>
        obtain ⟨hkeyed, hstored, honce⟩ :=
          ih fun t ht e he => hcommit t (List.mem_append_left _ ht) e he
        have hi := turn_inv hkeyed hrun
        refine ⟨hi.keyed, ?_, ?_⟩
        · intro t ht
          rcases List.mem_append.mp ht with hold | hnew
          · exact (hstored t hold).next hi
          · have heq : t = ⟨q, m, r⟩ := List.mem_singleton.mp hnew
            subst heq
            intro c hc
            cases r with
            | error e =>
                have hnone := hcommit ⟨q, m, .error e⟩ ht e rfl
                rw [hnone] at hc
                exact nomatch hc
            | ok v =>
                obtain ⟨e, he, -, hrec⟩ := hi.written (turn_ended hrun hr)
                exact ⟨e, he, hrec c hc⟩
        · refine List.pairwise_append.mpr ⟨honce, List.pairwise_singleton .., ?_⟩
          intro t ht u hu
          rw [List.mem_singleton.mp hu]
          exact (hstored t ht).once hi r
  exact hinv.2.2

/-! ## A flow of two adapters -/

/-- `n` operations of a request's step from the hosts `h`, at time 0. -/
def played (adapter : AdapterCall → Except RunnerError (Json × NodeOutputs)) (sm : StateMachine)
    (q : Request) (h : Hosts) (n : Nat) :
    StepThread × World :=
  play (stepping adapter n) (Main.lift (q.step sm), (h, .fresh))

/-- A step that was played to its end is one more turn. -/
theorem Turns.played {sm : StateMachine} {h : Hosts} {ts : List Turn} (hts : Turns Kept sm h ts)
    (adapter : AdapterCall → Except RunnerError (Json × NodeOutputs)) (q : Request) (n : Nat)
    (hclock : h.clock = 0) {r : Except RunnerError (Json × NodeOutputs)}
    (hr : (played adapter sm q h n).1.outcome? = some r) :
    Turns Kept sm (played adapter sm q h n).2.1 (ts ++ [⟨q, (played adapter sm q h n).2.2, r⟩]) := by
  obtain ⟨es, hrun⟩ := stepping_run adapter n (Main.lift (q.step sm)) (h, .fresh) hclock
    (playMeets_of_forall (fun i s => kept_zero s i) _ _)
  exact hts.tail hrun hr

/-- The digests of the two payloads below. -/
def nullDigest (bytes : List UInt8) : String :=
  if bytes = toBeBytes 0 ++ "null".toUTF8.toList then
    "bc1f7cb2a2aae2f9398b1027daad093604e3e380c573d6901cd2e0536d1a3d84"
  else if bytes = toBeBytes 1 ++ "null".toUTF8.toList then
    "511c69bde8360ccdc08ddfc63cc9d63a540c54c2a9567a2ba23a3919c627e9e1"
  else ""

/-- Create a ticket, then mail it. -/
def twoCalls : StateMachine where
  flows := [⟨"pack", "ticket", [.adapter ⟨"crm", "create", .null⟩, .adapter ⟨"mail", "send", .null⟩]⟩]
  adapters := ["crm", "mail"]
  policy := .default
  sha256Hex := nullDigest

/-- The request that is retried. -/
def ticketRequest : Request := ⟨⟨"local", "demo", none⟩, "pack", "ticket", some "chat", .null⟩

/-- The ticket is created; the mail goes out when `up`. -/
def crmAndMail (up : Bool) (call : AdapterCall) : Except RunnerError (Json × NodeOutputs) :=
  if call.adapter = "crm" ∨ up then .ok (.str "done", []) else .error (.adapterCall "down")

/-- With the mail down, the ticket is created and the step fails. -/
def failedTicket : StepThread × World :=
  played (crmAndMail false) twoCalls ticketRequest .empty 10

/-- The retry. -/
def retriedTicket : StepThread × World :=
  played (crmAndMail false) twoCalls ticketRequest failedTicket.2.1 10

/-- **THE RETRY CREATES A SECOND TICKET.** -/
theorem twoCalls_calls_again :
    ∃ h ts, Turns Kept twoCalls h ts ∧ Retried ts ∧ ¬ ExactlyOnce twoCalls ts := by
  have hnil : Turns Kept twoCalls .empty [] := .nil
  have hfail := hnil.played (crmAndMail false) ticketRequest 10 rfl
    (r := .error (.adapterCall "down")) rfl
  have hts := hfail.played (crmAndMail false) ticketRequest 10 rfl
    (r := .error (.adapterCall "down")) rfl
  refine ⟨_, _, hts, ?_, ?_⟩
  · refine List.isChain_cons_cons.mpr ⟨fun _ => rfl, List.isChain_singleton _⟩
  · intro honce
    have hpair : Once twoCalls ⟨ticketRequest, failedTicket.2.2, .error (.adapterCall "down")⟩
        ⟨ticketRequest, retriedTicket.2.2, .error (.adapterCall "down")⟩ :=
      (List.pairwise_cons.mp honce).1 _ (List.mem_singleton.mpr rfl)
    have hcalled : failedTicket.2.2.called = [⟨0, .null, .str "done"⟩] := rfl
    have hinvoked : retriedTicket.2.2.invoked = (0, .null) :: List.replicate 5 (1, .null) := rfl
    refine (hpair rfl ⟨0, .null, .str "done"⟩ ?_).1 ?_
    · rw [hcalled]
      exact List.mem_singleton.mpr rfl
    · rw [hinvoked]
      exact List.mem_cons_self ..

/-- With the mail up both calls return once, and the next step of the session makes
    none. -/
theorem twoCalls_once :
    ∃ h t u, Turns Kept twoCalls h [t, u] ∧ t.memory.called.length = 2 ∧ CallsCommit [t, u] ∧
      ExactlyOnce twoCalls [t, u] := by
  have hnil : Turns Kept twoCalls .empty [] := .nil
  have hfirst := hnil.played (crmAndMail true) ticketRequest 9 rfl
    (r := .ok (doneOutcome (.str "done"), [])) rfl
  have hts := hfirst.played (crmAndMail true) ticketRequest 3 rfl
    (r := .ok (doneOutcome (.str "done"), [])) rfl
  have hok : ∀ (q q' : Request) (m m' : StepMemory) (v v' : Json × NodeOutputs),
      CallsCommit [⟨q, m, .ok v⟩, ⟨q', m', .ok v'⟩] := by
    intro q q' m m' v v' t ht e he
    rcases List.mem_cons.mp ht with rfl | ht
    · exact nomatch he
    · rw [List.mem_singleton.mp ht] at he
      exact nomatch he
  exact ⟨_, _, _, hts, rfl, hok _ _ _ _ _ _, outbox_exactly_once hts (hok _ _ _ _ _ _)⟩

end Greentic.Engine
