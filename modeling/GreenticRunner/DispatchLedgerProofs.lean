import GreenticRunner.DispatchServe
import GreenticRunner.FinMap
import GreenticRunner.Transition

/-! # One published dispatch, delivered any number of times

    Any number of deliveries of one request, interleaved at the operations of
    `invoke_identified` and dropped at any moment, over one dispatch ledger and one session
    lock.

    * `DeliveryGuard`, `DeliveryEnd` — what a delivery does, whatever it is answered;
    * `MissesStarted` — no delivery waits behind the lock with a lookup that found nothing
      while another one records;
    * `recorded_once`, `waiting_reruns` — once an output is recorded no delivery begins a
      step of its own, unless one was waiting. -/

namespace Greentic.Bridge

open Resumption Aw FinMaps

/-- An operation of a dispatch with its answer. -/
abbrev ServeEvent : Type := Event ServeOp ServeOp.Res

variable {key : String} {d : Dispatch} {h : List ServeEvent}

/-! ## The ledger and the lock -/

/-- The dispatch ledger, the session lock and the outputs recorded so far. -/
structure ServeStore where
  ledger : FinMap String Json
  locked : Bool
  recorded : List Json

/-- `DispatchLedger::record`. -/
def ServeStore.record (s : ServeStore) (key : String) (output : Json) : ServeStore :=
  { s with ledger := s.ledger.insert key output, recorded := s.recorded ++ [output] }

/-- The operations over them: those of the ledger succeed; a lock is taken when it is
    free or, where locks may lapse, after it has expired.  Everything else a step asks for
    may be answered in any way. -/
def serveStep (lapses : Bool) : (i : ServeOp) → ServeStore → i.Res → ServeStore → Prop
  | .ledgerGet key, s, r, s' => r = .ok (s.ledger.get? key) ∧ s' = s
  | .ledgerRecord key output, s, r, s' => r = .ok () ∧ s' = s.record key output
  | .turn .acquireLock, s, .ok _, s' =>
      (lapses = true ∨ s.locked = false) ∧ s' = { s with locked := true }
  | .turn .release, s, _, s' => s' = { s with locked := false }
  | .turn _, s, _, s' => s' = s

/-- One operation of a delivery, which remembers its events. -/
def execServe (lapses : Bool) (i : ServeOp) (s : ServeStore × List ServeEvent) (r : i.Res)
    (s' : ServeStore × List ServeEvent) : Prop :=
  serveStep lapses i s.1 r s'.1 ∧ s'.2 = s.2 ++ [⟨i, r⟩]

/-- A delivery as a thread. -/
abbrev DeliveryThread : Type := Main ServeOp ServeOp.Res ErrorChain Unit InvokeOutcome

/-- The deliveries of one request, on any worker. -/
inductive Delivering (trailValue : List AgentStep → Json) (d : Dispatch) :
    List ServeEvent × DeliveryThread → Prop where
  | intro (rt : AgentRuntime) :
      Delivering trailValue d ([], Main.lift (invokeIdentified rt trailValue d))

/-- The ledger, the lock and any number of deliveries. -/
abbrev ServeSystem : Type :=
  Pool ServeStore (List ServeEvent) ServeOp ServeOp.Res ErrorChain Unit InvokeOutcome

/-- The delivery took the session lock: its step has begun. -/
def Started (h : List ServeEvent) : Prop := ⟨.turn .acquireLock, .ok ()⟩ ∈ h

/-- The delivery looked the request up and found nothing. -/
def Missed (key : String) (h : List ServeEvent) : Prop := ⟨.ledgerGet key, .ok none⟩ ∈ h

/-- The delivery looked the request up and found an output. -/
def Found (key : String) (v : Json) (h : List ServeEvent) : Prop :=
  ⟨.ledgerGet key, .ok (some v)⟩ ∈ h

/-- While an output is recorded, no other delivery has found nothing and waits for the
    lock. -/
def MissesStarted (key : String) (c : ServeSystem) (j : Nat) : ServeEvent → Prop
  | ⟨.ledgerRecord _ _, _⟩ => ∀ i m p, i ≠ j → c.threads[i]? = some (some (m, p)) →
      Missed key m → p.outcome? = none → Started m
  | _ => True

/-! ## What a delivery does -/

/-- The checks of the ids pass. -/
def IdsValid (d : Dispatch) : Prop :=
  Aw.validateScopeId "tenant" d.tenant = .ok () ∧ Aw.validateScopeId "env" d.env = .ok () ∧
    validateTargetId d.target = .ok ()

/-- What a delivery guarantees of an event: the ledger is asked first and once, a step
    follows a lookup that found nothing, and a record follows a step. -/
def DeliveryGuard (d : Dispatch) (key : String) (h : List ServeEvent) : ServeEvent → Prop
  | ⟨.ledgerGet k, _⟩ => h = [] ∧ k = key ∧ IdsValid d
  | ⟨.turn _, _⟩ => h ≠ [] ∧ ∀ v, ¬ Found key v h
  | ⟨.ledgerRecord k _, _⟩ => k = key ∧ IdsValid d ∧ Started h ∧ ∀ v, ¬ Found key v h

/-- How a delivery ends: before the lookup only for an invalid id, and with the output it
    has found. -/
def DeliveryEnd (d : Dispatch) (key : String) (h : List ServeEvent)
    (r : Except ErrorChain InvokeOutcome) : Prop :=
  (h = [] → ¬ IdsValid d) ∧ ∀ v, Found key v h → r = .ok ⟨true, v, [], none⟩

/-- A delivery that goes on after a lookup that found nothing. -/
def Begun (key : String) (h : List ServeEvent) : Prop := h ≠ [] ∧ ∀ v, ¬ Found key v h

/-- One more event that finds no entry. -/
theorem Begun.snoc (hb : Begun key h) {ev : ServeEvent}
    (hev : ∀ v, ev ≠ ⟨.ledgerGet key, .ok (some v)⟩) : Begun key (h ++ [ev]) := by
  refine ⟨List.append_ne_nil_of_right_ne_nil _ (List.cons_ne_nil _ _), ?_⟩
  intro v hfound
  rcases List.mem_append.mp hfound with hfound | hfound
  · exact hb.2 v hfound
  · exact hev v (List.mem_singleton.mp hfound).symm

theorem Begun.ends (hb : Begun key h)
    (r : Except ErrorChain InvokeOutcome) : DeliveryEnd d key h r :=
  ⟨fun hnil => absurd hnil hb.1, fun v hfound => absurd hfound (hb.2 v)⟩

/-- A turn that took its lock has started. -/
theorem started_of_turn
    (hmem : (⟨.acquireLock, .ok ()⟩ : Ev) ∈ turnEvents h) : Started h := by
  obtain ⟨⟨op, r⟩, hev, heq⟩ := List.mem_filterMap.mp hmem
  cases op with
  | turn op =>
      cases heq
      exact hev
  | ledgerGet key => exact nomatch heq
  | ledgerRecord key output => exact nomatch heq

/-- A step that returned an output has taken the lock. -/
theorem runStep_locked (rt : AgentRuntime) (tenant : TenantContext) (sessionId agentId : String)
    (message : AgentInput) :
    (runStep rt tenant sessionId agentId message).Traced anyOp
      (fun h r => ∀ out, r = .ok out → ⟨.acquireLock, .ok ()⟩ ∈ h) [] := by
  rw [runStep, Prog.perform_bind]
  intro r
  refine ⟨trivial, ?_⟩
  cases r with
  | error e => exact fun out hout => (by cases hout)
  | ok config =>
      refine Prog.Traced.bind ?_ (fun _ _ _ out hout => (by cases hout))
        (Prog.Traced.any (Q := fun _ _ => True) (fun _ _ => trivial) _ _)
      intro h' _ _
      rw [Prog.perform_bind]
      intro r
      refine ⟨trivial, ?_⟩
      cases r with
      | error e => exact fun out hout => (by cases hout)
      | ok u =>
          refine Prog.Traced.weaken (fun _ _ _ => trivial) (Prog.Traced.mono ?_
            (Prog.Traced.stays (List.mem_append_right h' (List.mem_singleton.mpr rfl))))
          intro h r hmem out _
          exact hmem

/-- The turn of the delivery. -/
theorem runtimeStep_traced (rt : AgentRuntime) (d : Dispatch) (key sessionId : String)
    (hnil : turnEvents h = []) (hb : Begun key h) :
    (runtimeStep rt d sessionId).Traced (DeliveryGuard d key)
      (fun h' r => Begun key h' ∧ ∀ out, r = .ok out → Started h') h := by
  have hstep := runStep_locked rt ⟨d.tenant, d.env⟩ sessionId d.target
    ⟨extractUserText d.input, ((d.input.get? "conversational").bind Json.asBool?).getD false,
      none, []⟩
  rw [← hnil] at hstep
  have hkeep : ∀ (h : List ServeEvent) (op : Op) (r : op.Res), Begun key h →
      Begun key (h ++ [⟨.turn op, r⟩]) := by
    intro h op r hi
    refine hi.snoc ?_
    rintro v ⟨⟩
  have hguard : ∀ (h : List ServeEvent) (op : Op) (r : op.Res), Begun key h → True →
      DeliveryGuard d key h ⟨.turn op, r⟩ := fun _ _ _ hi _ => hi
  refine Prog.Traced.mapError ?_ ?_ (Prog.Traced.mapOps turnEvents_snoc hkeep hguard hb hstep)
  · rintro h' out ⟨hb', hlocked⟩
    exact ⟨hb', fun out' _ => started_of_turn (hlocked out rfl)⟩
  · rintro h' e ⟨hb', -⟩
    exact ⟨hb', fun out hout => nomatch hout⟩

/-- The reply is recorded and sent. -/
theorem settleStep_traced (trailValue : List AgentStep → Json)
    (hids : IdsValid d) (output : AgentOutput) (hb : Begun key h)
    (hs : Started h) :
    (settleStep trailValue (some key) output).Traced (DeliveryGuard d key) (DeliveryEnd d key)
      h := by
  unfold settleStep
  dsimp only
  split
  · rename_i _ key' _ hkey
    cases hkey
    intro r
    refine ⟨⟨rfl, hids, hs, hb.2⟩, Begun.ends (hb.snoc ?_) _⟩
    rintro v ⟨⟩
  · exact hb.ends _

/-- The turn, and its reply. -/
theorem invokeStep_traced (rt : AgentRuntime) (trailValue : List AgentStep → Json)
    (hids : IdsValid d) (hnil : turnEvents h = [])
    (hb : Begun key h) :
    (invokeStep rt trailValue d (some key)).Traced (DeliveryGuard d key) (DeliveryEnd d key)
      h := by
  unfold invokeStep
  refine require_bind_end _ (fun e _ => hb.ends _) fun _ => ?_
  refine Prog.Traced.bind ?_ ?_ (runtimeStep_traced rt d key _ hnil hb)
  · rintro h' output ⟨hb', hstarted⟩
    exact settleStep_traced trailValue hids output hb' (hstarted output rfl)
  · rintro h' e ⟨hb', -⟩
    exact hb'.ends _

/-- **A DELIVERY**, whatever it is answered: the ledger comes first, a step follows a
    lookup that found nothing, and an output that was found is returned. -/
theorem invokeIdentified_traced (rt : AgentRuntime) (trailValue : List AgentStep → Json)
    (hkey : serveLedgerKey d.tenant d.env d.dispatchId = some key) :
    (invokeIdentified rt trailValue d).Traced (DeliveryGuard d key) (DeliveryEnd d key) [] := by
  have hrejected : ¬ IdsValid d → ∀ e, DeliveryEnd d key [] (.error e) :=
    fun hids e => ⟨fun _ => hids, fun v hfound => nomatch hfound⟩
  unfold invokeIdentified
  refine require_bind_end _ (fun e hne => hrejected (fun h => hne h.1) e) fun htenant => ?_
  refine require_bind_end _ (fun e hne => hrejected (fun h => hne h.2.1) e) fun henv => ?_
  refine require_bind_end _ (fun e hne => hrejected (fun h => hne h.2.2) e) fun htarget => ?_
  have hids : IdsValid d := ⟨htenant, henv, htarget⟩
  -- nothing was found: the lookup is the only event, and no hit
  have hmiss : ∀ r : Except StateError (Option Json), (∀ v, r ≠ .ok (some v)) →
      (invokeStep rt trailValue d (some key)).Traced (DeliveryGuard d key) (DeliveryEnd d key)
        ([] ++ [⟨.ledgerGet key, r⟩]) := by
    intro r hr
    refine invokeStep_traced rt trailValue hids rfl ⟨List.cons_ne_nil _ _, ?_⟩
    intro v hfound
    cases List.mem_singleton.mp hfound
    exact hr v rfl
  unfold lookUp
  rw [hkey]
  dsimp only
  rw [Prog.perform_bind]
  intro answer
  refine ⟨⟨rfl, rfl, hids⟩, ?_⟩
  rcases answer with e | cached
  · exact hmiss _ (fun v hv => nomatch hv)
  · cases cached with
    | none => exact hmiss _ (fun v hv => nomatch hv)
    | some value =>
        refine ⟨(fun hnil => nomatch hnil), ?_⟩
        intro v hfound
        cases List.mem_singleton.mp hfound
        rfl

/-! ## The invariant -/

/-- What holds of one delivery: it asks the ledger first, one that found an output has done
    nothing else, and once an output is recorded it has found it or begun its step. -/
structure DeliveryInv (key : String) (st : ServeStore) (m : List ServeEvent) (p : DeliveryThread) :
    Prop where
  asked : m ≠ [] → Missed key m ∨ ∃ v, Found key v m
  found : ∀ v, Found key v m → v ∈ st.recorded ∧ m = [⟨.ledgerGet key, .ok (some v)⟩]
  caught : st.recorded ≠ [] → p.outcome? = none → m ≠ [] → (∃ v, Found key v m) ∨ Started m

/-- What holds of the ledger and the deliveries: the entry is a recorded output. -/
structure LedgerInv (d : Dispatch) (key : String) (c : ServeSystem) : Prop where
  entry : ∀ v, c.store.ledger.get? key = some v → v ∈ c.store.recorded
  kept : c.store.recorded ≠ [] → ∃ v, c.store.ledger.get? key = some v
  valid : c.store.recorded ≠ [] → IdsValid d
  threads : ∀ (i : Nat) (m : List ServeEvent) (p : DeliveryThread),
    c.threads[i]? = some (some (m, p)) → DeliveryInv key c.store m p

theorem DeliveryInv.fresh {st : ServeStore} {p : DeliveryThread} :
    DeliveryInv key st [] p :=
  ⟨fun hne => absurd rfl hne, (fun _ hv => nomatch hv), fun _ _ hne => absurd rfl hne⟩

/-- A ledger without the key. -/
theorem LedgerInv.empty {ledger : FinMap String Json}
    {locked : Bool} (hfresh : ledger.get? key = none) :
    LedgerInv d key ⟨⟨ledger, locked, []⟩, []⟩ := by
  refine ⟨?_, fun hne => absurd rfl hne, fun hne => absurd rfl hne, (fun i m p hi => nomatch hi)⟩
  intro v hv
  rw [hfresh] at hv
  exact nomatch hv

/-- One more delivery. -/
theorem LedgerInv.spawn {trailValue : List AgentStep → Json}
    {st : ServeStore} {ts : List (Option (List ServeEvent × DeliveryThread))}
    {t : List ServeEvent × DeliveryThread} (h : LedgerInv d key ⟨st, ts⟩)
    (hn : Delivering trailValue d t) : LedgerInv d key ⟨st, ts ++ [some t]⟩ := by
  obtain ⟨rt⟩ := hn
  refine ⟨h.entry, h.kept, h.valid, ?_⟩
  intro i m p hi
  rcases Transition.getElem?_of_snoc hi with ⟨-, hi⟩ | hi
  · cases hi
    exact .fresh
  · exact h.threads i m p hi

/-- A delivery that dies. -/
theorem LedgerInv.crash {st : ServeStore}
    {ts : List (Option (List ServeEvent × DeliveryThread))} (h : LedgerInv d key ⟨st, ts⟩)
    (j : Nat) : LedgerInv d key ⟨st, ts.set j none⟩ := by
  refine ⟨h.entry, h.kept, h.valid, ?_⟩
  intro i m p hi
  rcases Transition.getElem?_of_set hi with ⟨-, hi⟩ | ⟨-, hi⟩
  · exact nomatch hi
  · exact h.threads i m p hi

/-- One delivery moved and the entry and the outputs are as before. -/
theorem LedgerInv.moved {st st' : ServeStore}
    {ts : List (Option (List ServeEvent × DeliveryThread))} (h : LedgerInv d key ⟨st, ts⟩)
    (hledger : st'.ledger = st.ledger) (hrecorded : st'.recorded = st.recorded) {j : Nat}
    {m : List ServeEvent} {p : DeliveryThread} (hj : DeliveryInv key st m p) :
    LedgerInv d key ⟨st', ts.set j (some (m, p))⟩ := by
  have hframe : ∀ {m p}, DeliveryInv key st m p → DeliveryInv key st' m p := by
    intro m p hm
    exact ⟨hm.asked, hrecorded ▸ hm.found, hrecorded ▸ hm.caught⟩
  refine ⟨?_, ?_, ?_, ?_⟩
  · intro v hv
    show v ∈ st'.recorded
    rw [hrecorded]
    exact h.entry v (hledger ▸ hv)
  · intro hne
    show ∃ v, st'.ledger.get? key = some v
    rw [hledger]
    exact h.kept (hrecorded ▸ hne)
  · exact fun hne => h.valid (hrecorded ▸ hne)
  · intro i n q hi
    rcases Transition.getElem?_of_set hi with ⟨-, hi⟩ | ⟨-, hi⟩
    · cases hi
      exact hframe hj
    · exact hframe (h.threads i n q hi)

/-- An operation of a turn leaves the ledger. -/
theorem turn_frame {lapses : Bool} {op : Op} {st st' : ServeStore} {r : op.Res}
    (h : serveStep lapses (.turn op) st r st') :
    st'.ledger = st.ledger ∧ st'.recorded = st.recorded := by
  cases op with
  | acquireLock =>
      cases r with
      | error e =>
          cases h
          exact ⟨rfl, rfl⟩
      | ok u =>
          obtain ⟨-, rfl⟩ := h
          exact ⟨rfl, rfl⟩
  | _ =>
      cases h
      exact ⟨rfl, rfl⟩

theorem Found.mono {v : Json} (hf : Found key v h)
    (ev : ServeEvent) : Found key v (h ++ [ev]) := List.mem_append_left _ hf

/-- An operation of a turn keeps the invariant of its delivery. -/
theorem DeliveryInv.turn {st : ServeStore} {m : List ServeEvent}
    {p p' : DeliveryThread} (h : DeliveryInv key st m p) (hp : p.outcome? = none) {op : Op}
    {r : op.Res} (hg : DeliveryGuard d key m ⟨.turn op, r⟩) :
    DeliveryInv key st (m ++ [⟨.turn op, r⟩]) p' := by
  have hnot : ∀ v, ¬ Found key v (m ++ [⟨.turn op, r⟩]) := by
    have hbegun : Begun key m := hg
    refine (hbegun.snoc ?_).2
    rintro v ⟨⟩
  refine ⟨?_, fun v hv => absurd hv (hnot v), ?_⟩
  · intro _
    rcases h.asked hg.1 with hmiss | ⟨v, hv⟩
    · exact .inl (List.mem_append_left _ hmiss)
    · exact .inr ⟨v, hv.mono _⟩
  · intro hne _ _
    rcases h.caught hne hp hg.1 with ⟨v, hv⟩ | hs
    · exact .inl ⟨v, hv.mono _⟩
    · exact .inr (List.mem_append_left _ hs)

/-- So does the look into the ledger. -/
theorem DeliveryInv.looked {st : ServeStore}
    (hentry : ∀ v, st.ledger.get? key = some v → v ∈ st.recorded)
    (hkept : st.recorded ≠ [] → ∃ v, st.ledger.get? key = some v) (p : DeliveryThread) :
    DeliveryInv key st [⟨.ledgerGet key, .ok (st.ledger.get? key)⟩] p := by
  refine ⟨?_, ?_, ?_⟩
  · intro _
    cases hget : st.ledger.get? key with
    | none => exact .inl (List.mem_singleton.mpr rfl)
    | some v => exact .inr ⟨v, List.mem_singleton.mpr rfl⟩
  · intro v hv
    cases hget : st.ledger.get? key with
    | none =>
        rw [hget] at hv
        cases List.mem_singleton.mp hv
    | some w =>
        rw [hget] at hv
        cases List.mem_singleton.mp hv
        exact ⟨hentry v hget, rfl⟩
  · intro hne _ _
    obtain ⟨v, hv⟩ := hkept hne
    rw [hv]
    exact .inl ⟨v, List.mem_singleton.mpr rfl⟩

/-- An output is recorded while no other delivery waits. -/
theorem LedgerInv.record {st : ServeStore}
    {ts : List (Option (List ServeEvent × DeliveryThread))} (h : LedgerInv d key ⟨st, ts⟩)
    {j : Nat} {m : List ServeEvent} {p p' : DeliveryThread} (hj : ts[j]? = some (some (m, p)))
    {k : String} {output : Json} {r : Except StateError Unit}
    (hC : MissesStarted key ⟨st, ts⟩ j ⟨.ledgerRecord k output, r⟩)
    (hg : DeliveryGuard d key m ⟨.ledgerRecord k output, r⟩) :
    LedgerInv d key ⟨st.record k output,
      ts.set j (some (m ++ [⟨.ledgerRecord k output, r⟩], p'))⟩ := by
  obtain ⟨rfl, hids, hstarted, hnot⟩ := hg
  have hset : (st.ledger.insert k output).get? k = some output := if_pos rfl
  refine ⟨?_, fun _ => ⟨output, hset⟩, fun _ => hids, ?_⟩
  · intro v hv
    cases hset.symm.trans hv
    exact List.mem_append_right _ (List.mem_singleton.mpr rfl)
  · intro i n q hi
    rcases Transition.getElem?_of_set hi with ⟨-, hi⟩ | ⟨hne, hi⟩
    · -- the delivery that records has begun its step
      cases hi
      have hm := h.threads j m p hj
      refine ⟨?_, ?_, fun _ _ _ => .inr (List.mem_append_left _ hstarted)⟩
      · intro _
        rcases hm.asked (List.ne_nil_of_mem hstarted) with hmiss | ⟨v, hv⟩
        · exact .inl (List.mem_append_left _ hmiss)
        · exact .inr ⟨v, hv.mono _⟩
      · intro v hv
        rcases List.mem_append.mp hv with hv | hv
        · exact absurd hv (hnot v)
        · cases List.mem_singleton.mp hv
    · have hn := h.threads i n q hi
      refine ⟨hn.asked, fun v hv => ⟨List.mem_append_left _ (hn.found v hv).1,
        (hn.found v hv).2⟩, ?_⟩
      intro _ hq hnil
      rcases hn.asked hnil with hmiss | hfound
      · exact .inr (hC i n q hne hi hmiss hq)
      · exact .inl hfound

/-- **ONE STEP** keeps the invariant, where every record meets the condition. -/
theorem LedgerInv.step {lapses : Bool} {st st' : ServeStore}
    {ts : List (Option (List ServeEvent × DeliveryThread))} (h : LedgerInv d key ⟨st, ts⟩)
    {j : Nat} {m m' : List ServeEvent} {p p' : DeliveryThread} {i : ServeOp} {r : i.Res}
    (hj : ts[j]? = some (some (m, p))) (hp : p.outcome? = none)
    (he : execServe lapses i (st, m) r (st', m')) (hC : MissesStarted key ⟨st, ts⟩ j ⟨i, r⟩)
    (hg : DeliveryGuard d key m ⟨i, r⟩) : LedgerInv d key ⟨st', ts.set j (some (m', p'))⟩ := by
  have hm := h.threads j m p hj
  obtain ⟨hstore, rfl⟩ := he
  cases i with
  | ledgerGet k =>
      obtain ⟨hr, hst⟩ : r = .ok (st.ledger.get? k) ∧ st' = st := hstore
      subst hr hst
      obtain ⟨rfl, rfl, -⟩ := hg
      exact h.moved rfl rfl (DeliveryInv.looked h.entry h.kept p')
  | turn op =>
      obtain ⟨hledger, hrecorded⟩ := turn_frame hstore
      exact h.moved hledger hrecorded (hm.turn hp hg)
  | ledgerRecord k output =>
      obtain ⟨-, rfl⟩ := hstore
      exact h.record hj hC hg

/-! ## Once an output is recorded -/

/-- An output is recorded, and the delivery has done nothing but find one. -/
def Served (key : String) (j : Nat) (c : ServeSystem) : Prop :=
  c.store.recorded ≠ [] ∧ ∀ m p, c.threads[j]? = some (some (m, p)) → m = [] ∨ ∃ v, Found key v m

/-- The outputs recorded stay recorded. -/
theorem recorded_mono {lapses : Bool} {i : ServeOp} {st st' : ServeStore} {r : i.Res}
    (h : serveStep lapses i st r st') : st.recorded ⊆ st'.recorded := by
  cases i with
  | ledgerGet k =>
      obtain ⟨-, rfl⟩ := h
      exact fun _ hv => hv
  | turn op =>
      rw [(turn_frame h).2]
      exact fun _ hv => hv
  | ledgerRecord k output =>
      obtain ⟨-, rfl⟩ := h
      exact List.subset_append_left _ _

/-- A delivery that is served from the ledger stays so. -/
theorem Served.step {lapses : Bool} {st st' : ServeStore}
    {ts : List (Option (List ServeEvent × DeliveryThread))} (hinv : LedgerInv d key ⟨st, ts⟩)
    {k : Nat} (h : Served key k ⟨st, ts⟩) {j : Nat} {m m' : List ServeEvent}
    {p p' : DeliveryThread} {i : ServeOp} {r : i.Res} (hj : ts[j]? = some (some (m, p)))
    (he : execServe lapses i (st, m) r (st', m')) (hg : DeliveryGuard d key m ⟨i, r⟩) :
    Served key k ⟨st', ts.set j (some (m', p'))⟩ := by
  obtain ⟨hstore, rfl⟩ := he
  refine ⟨fun hnil => h.1 (List.subset_nil.mp (hnil ▸ recorded_mono hstore)), ?_⟩
  intro n q hn
  rcases Transition.getElem?_of_set hn with ⟨rfl, heq⟩ | ⟨-, hn⟩
  · cases heq
    have hidle := h.2 m p hj
    cases i with
    | ledgerGet k =>
        -- the lookup finds what was recorded
        obtain ⟨hr, hst⟩ : r = .ok (st.ledger.get? k) ∧ st' = st := hstore
        subst hr hst
        obtain ⟨rfl, rfl, -⟩ := hg
        obtain ⟨v, hv⟩ := hinv.kept h.1
        refine .inr ⟨v, ?_⟩
        rw [hv]
        exact List.mem_singleton.mpr rfl
    | turn op =>
        rcases hidle with rfl | ⟨v, hv⟩
        · exact absurd rfl hg.1
        · exact absurd hv (hg.2 v)
    | ledgerRecord k output =>
        obtain ⟨-, -, hstarted, hnot⟩ := hg
        rcases hidle with rfl | ⟨v, hv⟩
        · exact nomatch hstarted
        · exact absurd hv (hnot v)
  · exact h.2 n q hn

theorem execServe_log (lapses : Bool) (key : String) (i : ServeOp)
    (s : ServeStore × List ServeEvent) (r : i.Res) (s' : ServeStore × List ServeEvent)
    (h : execServe lapses i s r s') : id s'.2 = id s.2 ++ [⟨i, r⟩] ∧ key = key := ⟨h.2, rfl⟩

/-- A new delivery is guarded to its end. -/
theorem Delivering.traced {trailValue : List AgentStep → Json}
    (hkey : serveLedgerKey d.tenant d.env d.dispatchId = some key) (m : List ServeEvent)
    (p : DeliveryThread) (hn : Delivering trailValue d (m, p)) :
    ∃ q, p = Main.lift q ∧ q.Traced (DeliveryGuard d key) (DeliveryEnd d key) (id m) := by
  obtain ⟨rt⟩ := hn
  exact ⟨_, rfl, invokeIdentified_traced rt trailValue hkey⟩

section Runs

variable (trailValue : List AgentStep → Json) (lapses : Bool) (d : Dispatch) (key : String)

/-- The systems reachable from `c` where no delivery waits while an output is recorded. -/
abbrev ServeReach (c c' : ServeSystem) : Prop :=
  Pool.ReachIf (execServe lapses) (Delivering trailValue d) (MissesStarted key) c c'

/-- **EVERY REACHABLE SYSTEM** keeps the invariant. -/
theorem ledgerInv_reach (hkey : serveLedgerKey d.tenant d.env d.dispatchId = some key)
    {ledger : FinMap String Json} {locked : Bool} (hfresh : ledger.get? key = none)
    {c : ServeSystem} (hc : ServeReach trailValue lapses d key ⟨⟨ledger, locked, []⟩, []⟩ c) :
    LedgerInv d key c := by
  refine Pool.ReachIf.traced (execServe_log lapses key) (Delivering.traced hkey) ?_ ?_ ?_ .refl
    (LedgerInv.empty hfresh) hc
  · intro st ts t h hn
    exact h.spawn hn
  · intro st ts j m p i r st' m' p' h hj hp he hC hg
    exact h.step hj hp he hC hg
  · intro st ts j h
    exact h.crash j

/-- **RECORDED ONCE**: after an output is recorded, a delivery that has not begun a step
    begins none, and it returns a recorded output; provided that no delivery was waiting for
    the lock with a lookup that found nothing when an output was recorded. -/
theorem recorded_once (hkey : serveLedgerKey d.tenant d.env d.dispatchId = some key)
    (ledger : FinMap String Json) (locked : Bool) (hfresh : ledger.get? key = none)
    (c c' : ServeSystem) (hc : ServeReach trailValue lapses d key ⟨⟨ledger, locked, []⟩, []⟩ c)
    (hrecorded : c.store.recorded ≠ []) (hc' : ServeReach trailValue lapses d key c c') (j : Nat)
    (hidle : ∀ m p, c.threads[j]? = some (some (m, p)) → ¬ Started m ∧ p.outcome? = none)
    (m : List ServeEvent) (p : DeliveryThread) (hj : c'.threads[j]? = some (some (m, p))) :
    ¬ Started m ∧ ∀ r, p.outcome? = some r →
      ∃ v ∈ c'.store.recorded, r = .ok ⟨true, v, [], none⟩ := by
  have hinv := ledgerInv_reach trailValue lapses d key hkey hfresh hc
  have hserved : Served key j c := by
    refine ⟨hrecorded, ?_⟩
    intro m p hm
    obtain ⟨hnot, hp⟩ := hidle m p hm
    by_cases hnil : m = []
    · exact .inl hnil
    · rcases (hinv.threads j m p hm).caught hrecorded hp hnil with hfound | hstarted
      · exact .inr hfound
      · exact absurd hstarted hnot
  have hboth : LedgerInv d key c' ∧ Served key j c' := by
    refine Pool.ReachIf.traced (P := fun c => LedgerInv d key c ∧ Served key j c)
      (execServe_log lapses key) (Delivering.traced hkey) ?_ ?_ ?_ hc.reach ⟨hinv, hserved⟩ hc'
    · rintro st ts t ⟨h, hne, hs⟩ hn
      refine ⟨h.spawn hn, hne, ?_⟩
      obtain ⟨rt⟩ := hn
      intro m p hm
      rcases Transition.getElem?_of_snoc hm with ⟨-, hm⟩ | hm
      · cases hm
        exact .inl rfl
      · exact hs m p hm
    · rintro st ts j m p i r st' m' p' ⟨h, hserved⟩ hj hp he hC hg
      exact ⟨h.step hj hp he hC hg, hserved.step h hj he hg⟩
    · rintro st ts j ⟨h, hne, hs⟩
      refine ⟨h.crash j, hne, ?_⟩
      intro m p hm
      rcases Transition.getElem?_of_set hm with ⟨-, hm⟩ | ⟨-, hm⟩
      · exact nomatch hm
      · exact hs m p hm
  obtain ⟨hinv', hne', hserved'⟩ := hboth
  have hthread := hinv'.threads j m p hj
  refine ⟨?_, ?_⟩
  · intro hstarted
    rcases hserved' m p hj with rfl | ⟨v, hv⟩
    · exact nomatch hstarted
    · rw [(hthread.found v hv).2] at hstarted
      cases List.mem_singleton.mp hstarted
  · intro r hr
    obtain ⟨hchecked, hreturned⟩ : DeliveryEnd d key m r :=
      Pool.Reach.returned (execServe_log lapses key) (Delivering.traced hkey)
        (hc.reach.trans hc'.reach) hj hr
    rcases hserved' m p hj with rfl | ⟨v, hv⟩
    · exact absurd (hinv'.valid hne') (hchecked rfl)
    · exact ⟨v, (hthread.found v hv).1, hreturned v hv⟩

end Runs

/-! ## A delivery behind the lock -/

/-- A published request to the greeter. -/
def published : Dispatch :=
  ⟨"acme", "default", "greeter", .obj [("user_text", .str "ping")], none, some "m-1"⟩

/-- Its key in the ledger. -/
def publishedKey : String := "acme:default:m-1"

theorem published_key :
    serveLedgerKey published.tenant published.env published.dispatchId = some publishedKey := by
  decide +kernel

/-- The ledger, the lock and an agent that answers. -/
def serving : Handler ServeOp ServeOp.Res (ServeStore × List ServeEvent)
  | .ledgerGet key, (s, m) =>
      (.ok (s.ledger.get? key), (s, m ++ [⟨.ledgerGet key, .ok (s.ledger.get? key)⟩]))
  | .ledgerRecord key output, (s, m) =>
      (.ok (), (s.record key output, m ++ [⟨.ledgerRecord key output, .ok ()⟩]))
  | .turn .acquireLock, (s, m) =>
      if s.locked then
        (.error (.lockTimeout 0), (s, m ++ [⟨.turn .acquireLock, .error (.lockTimeout 0)⟩]))
      else (.ok (), ({ s with locked := true }, m ++ [⟨.turn .acquireLock, .ok ()⟩]))
  | .turn .release, (s, m) => ((), ({ s with locked := false }, m ++ [⟨.turn .release, ()⟩]))
  | .turn op, (s, m) =>
      let answer := greeterTurn (.ok ()) (.response ⟨some "pong", [], 0, 0⟩) op
      (answer, (s, m ++ [⟨.turn op, answer⟩]))

/-- The fixed answers are answers the store may give. -/
theorem serving_exec (i : ServeOp) (s : ServeStore × List ServeEvent) :
    execServe false i s (serving i s).1 (serving i s).2 := by
  obtain ⟨st, m⟩ := s
  cases i with
  | ledgerGet key => exact ⟨⟨rfl, rfl⟩, rfl⟩
  | ledgerRecord key output => exact ⟨⟨rfl, rfl⟩, rfl⟩
  | turn op =>
      cases op with
      | acquireLock =>
          cases hlocked : st.locked with
          | true =>
              simp only [serving, hlocked, if_true]
              exact ⟨rfl, rfl⟩
          | false =>
              simp only [serving, hlocked, Bool.false_eq_true, if_false]
              exact ⟨⟨.inr hlocked, rfl⟩, rfl⟩
      | _ => exact ⟨rfl, rfl⟩

/-- A delivery of the request. -/
def delivery : DeliveryThread :=
  Main.lift (invokeIdentified greeterRuntime (fun _ => .arr []) published)

theorem delivery_new : Delivering (fun _ => .arr []) published ([], delivery) := .intro _

/-- A delivery moves on by `n` operations. -/
def served (n : Nat) (c : DeliveryThread × ServeStore × List ServeEvent) :
    DeliveryThread × ServeStore × List ServeEvent := play (List.replicate n (0, serving)) c

/-- Nothing was delivered. -/
def undelivered : ServeStore := ⟨.empty, false, []⟩

/-- The first delivery asks the ledger. -/
def waiting : DeliveryThread × ServeStore × List ServeEvent :=
  served 1 (delivery, undelivered, [])

/-- The second delivery runs to its end. -/
def overtaking : DeliveryThread × ServeStore × List ServeEvent :=
  served 24 (delivery, waiting.2.1, [])

/-- The first delivery goes on. -/
def rerun : DeliveryThread × ServeStore × List ServeEvent :=
  served 3 (waiting.1, overtaking.2.1, waiting.2.2)

/-- `Started`, as a test. -/
def hasStarted (h : List ServeEvent) : Bool :=
  h.any fun ev => match ev with
    | ⟨.turn .acquireLock, .ok _⟩ => true
    | _ => false

/-- The test for a started turn is exact. -/
theorem hasStarted_iff : hasStarted h = true ↔ Started h := by
  constructor
  · intro ht
    obtain ⟨⟨i, r⟩, hev, htest⟩ := List.any_eq_true.mp ht
    cases i with
    | turn op =>
        cases op with
        | acquireLock =>
            cases r with
            | ok u => exact hev
            | error e => exact nomatch htest
        | _ => exact nomatch htest
    | ledgerGet key => exact nomatch htest
    | ledgerRecord key output => exact nomatch htest
  · intro hs
    exact List.any_eq_true.mpr ⟨_, hs, rfl⟩

/-- The test for a recorded reply is sound. -/
theorem recorded_of_test {st : ServeStore} (h : st.recorded.isEmpty = false) :
    st.recorded ≠ [] := by
  intro hnil
  rw [hnil] at h
  exact nomatch h

theorem notStarted_of_test (ht : hasStarted h = false) : ¬ Started h := by
  intro hs
  rw [hasStarted_iff.mpr hs] at ht
  exact nomatch ht

/-- Each step of the schedule gives an answer the store may give. -/
theorem serving_plays {n : Nat} : ∀ x ∈ List.replicate n (0, serving), ∀ i s,
    execServe false i s (x.2 i s).1 (x.2 i s).2 := by
  intro x hx i s
  rw [List.eq_of_mem_replicate hx]
  exact serving_exec i s

/-- The systems reachable with deliveries of the request, where locks do not lapse. -/
abbrev PublishedReach (c c' : ServeSystem) : Prop :=
  Pool.Reach (execServe false) (Delivering (fun _ => .arr []) published) c c'

/-- The first delivery asked and waits, the second one has recorded its output, and then
    the first one takes the lock: the request runs a second step. -/
theorem waiting_reruns : ∃ c c' : ServeSystem, PublishedReach ⟨undelivered, []⟩ c
      ∧ c.store.recorded ≠ [] ∧ PublishedReach c c'
      ∧ (∃ m p, c.threads[0]? = some (some (m, p)) ∧ ¬ Started m ∧ p.outcome? = none)
      ∧ ∃ m p, c'.threads[0]? = some (some (m, p)) ∧ Started m := by
  have h1 := (Pool.Reach.first undelivered delivery_new (serving_plays (n := 1))).spawned
    delivery_new
  have h2 := h1.play (j := 1) rfl (serving_plays (n := 24))
  have h0 : PublishedReach ⟨overtaking.2.1, [some (waiting.2.2, waiting.1),
      some (overtaking.2.2, overtaking.1)]⟩ ⟨overtaking.2.1, [some (waiting.2.2, waiting.1),
      some (overtaking.2.2, overtaking.1)]⟩ := .refl
  have h3 := h0.play (j := 0) rfl (serving_plays (n := 3))
  refine ⟨_, _, h2, recorded_of_test (by decide +kernel), h3, ?_, ?_⟩
  · exact ⟨waiting.2.2, waiting.1, rfl, notStarted_of_test (by decide +kernel), rfl⟩
  · exact ⟨rerun.2.2, rerun.1, rfl, hasStarted_iff.mp (by decide +kernel)⟩

/-- The first delivery has run to its end. -/
def answeredOnce : DeliveryThread × ServeStore × List ServeEvent :=
  served 24 (delivery, undelivered, [])

/-- It is delivered again. -/
def redelivered : DeliveryThread × ServeStore × List ServeEvent :=
  served 1 (delivery, answeredOnce.2.1, [])

/-- Delivered again after the record: the recorded output is returned without a step. -/
theorem recorded_once_redelivered :
    ¬ Started redelivered.2.2 ∧ ∀ r, redelivered.1.outcome? = some r →
      ∃ v ∈ redelivered.2.1.recorded, r = .ok ⟨true, v, [], none⟩ := by
  obtain ⟨es, hrun⟩ := play_sound (List.replicate 24 (0, serving)) serving_plays delivery
    (undelivered, [])
  obtain ⟨es', hrun'⟩ := play_sound (List.replicate 1 (0, serving)) serving_plays delivery
    (answeredOnce.2.1, [])
  have hfirst : ServeReach (fun _ => .arr []) false published publishedKey ⟨undelivered, []⟩
      ⟨undelivered, [some ([], delivery)]⟩ := .tail .refl (.spawn delivery_new) (by rintro j ev ⟨⟩)
  -- alone in the system, a delivery meets the condition whatever it does
  have halone : ∀ (st : ServeStore) (t : List ServeEvent × DeliveryThread) (ev : ServeEvent),
      MissesStarted publishedKey ⟨st, [some ([], delivery)].set 0 (some t)⟩ 0 ev := by
    rintro st t ⟨i, r⟩
    cases i with
    | ledgerRecord k output =>
        intro i m p hi hget
        cases i with
        | zero => exact absurd rfl hi
        | succ i => exact nomatch hget
    | _ => exact trivial
  have hend := hfirst.run (j := 0) rfl halone hrun
  have hagain : ServeReach (fun _ => .arr []) false published publishedKey
      ⟨answeredOnce.2.1, [some (answeredOnce.2.2, answeredOnce.1)]⟩
      ⟨answeredOnce.2.1, [some (answeredOnce.2.2, answeredOnce.1), some ([], delivery)]⟩ :=
    .tail .refl (.spawn delivery_new) (by rintro j ev ⟨⟩)
  have hlook : ServeReach (fun _ => .arr []) false published publishedKey
      ⟨answeredOnce.2.1, [some (answeredOnce.2.2, answeredOnce.1)]⟩
      ⟨redelivered.2.1, [some (answeredOnce.2.2, answeredOnce.1),
        some (redelivered.2.2, redelivered.1)]⟩ := by
    refine .tail hagain (.run (j := 1) rfl (.call ⟨⟨rfl, rfl⟩, rfl⟩)) ?_
    rintro j ev ⟨⟩
    exact trivial
  refine recorded_once (fun _ => .arr []) false published publishedKey published_key .empty false
    rfl _ _ hend (recorded_of_test (by decide +kernel)) hlook 1 ?_ _ _ rfl
  intro m p hget
  exact nomatch hget

end Greentic.Bridge
