import GreenticRunner.AgentTurnProofs

/-! # Turns of one session

    The turns of a session over its stored conversation, one after another and at the
    same time.

    * `Turns` — turns one after another;
    * `histories_paired` — every history the model is sent is paired. -/

namespace Greentic.Aw

open Resumption

/-! ## The stored conversation -/

/-- What an operation does to the stored conversation.  A conversation that has expired
    loads as the empty one; a save that failed may have been made. -/
def Stores : (i : Op) → ConversationState → i.Res → ConversationState → Prop
  | .load, s, r, s' => s' = s ∧ ∀ state, r = .ok state → state = s ∨ state = .empty
  | .save state, s, r, s' => s' = state ∨ (s' = s ∧ ∃ e, r = .error e)
  | _, s, _, s' => s' = s

/-- The stored conversation and the events of a turn. -/
abbrev TurnWorld : Type := ConversationState × List Ev

/-- One operation of a turn; `W` says which answers the outside may give. -/
def execTurn (W : Ev → Prop) (i : Op) (s : TurnWorld) (r : i.Res) (s' : TurnWorld) : Prop :=
  W ⟨i, r⟩ ∧ Stores i s.1 r s'.1 ∧ s'.2 = s.2 ++ [⟨i, r⟩]

/-- A turn as a thread. -/
abbrev TurnThread : Type := Main Op Op.Res AgentError Unit AgentOutput

/-- The turns of a session. -/
inductive Turning (rt : AgentRuntime) (tenant : TenantContext) (sessionId : String) :
    List Ev × TurnThread → Prop where
  | intro (agentId : String) (message : AgentInput) :
      Turning rt tenant sessionId
        ([], Main.lift (runStep rt tenant sessionId agentId message))

/-- The stored conversation and any number of turns. -/
abbrev AgentSystem : Type :=
  Pool ConversationState (List Ev) Op Op.Res AgentError Unit AgentOutput

/-- Turns one after another from an empty conversation, with the stored conversation and
    all events so far; `C` restricts the events of each turn. -/
inductive Turns (rt : AgentRuntime) (tenant : TenantContext) (sessionId : String)
    (W : Ev → Prop) (C : List Ev → Prop) : ConversationState → List Ev → Prop where
  | start : Turns rt tenant sessionId W C .empty []
  | turn {s s' : ConversationState} {log evs es : List Ev} {q : TurnThread}
      {r : Except AgentError AgentOutput} (h : Turns rt tenant sessionId W C s log)
      (agentId : String) (message : AgentInput)
      (hrun : Run (execTurn W) (Main.lift (runStep rt tenant sessionId agentId message)) (s, [])
        es q (s', evs))
      (hq : q.outcome? = some r) (hC : C evs) : Turns rt tenant sessionId W C s' (log ++ evs)

/-! ## An outside that grants everything -/

/-- A text longer than all of `seen`. -/
def longerThan : List String → String
  | [] => "u"
  | s :: seen => s ++ longerThan seen

theorem longerThan_pos (seen : List String) : 0 < (longerThan seen).length := by
  induction seen with
  | nil => decide
  | cons s seen ih =>
      rw [longerThan, String.length_append]
      exact Nat.lt_of_lt_of_le ih (Nat.le_add_left _ _)

/-- It is longer than every id seen. -/
theorem length_lt_longerThan {seen : List String} {s : String} (h : s ∈ seen) :
    s.length < (longerThan seen).length := by
  induction seen with
  | nil => exact nomatch h
  | cons s' seen ih =>
      rw [longerThan, String.length_append]
      rcases List.mem_cons.mp h with rfl | h
      · exact Nat.lt_add_of_pos_right (longerThan_pos seen)
      · exact Nat.lt_of_lt_of_le (ih h) (Nat.le_add_left _ _)

/-- Answers that grant every operation of the store, of the lock and of the budgets. -/
def granting (config : AgentConfig) (model : List ChatMessage → Completion)
    (verdict : GuardrailInput → Evaluation) (invoked resumed : Option FlowInvokeOutcome) :
    (i : Op) → i.Res
  | .agentConfig _ => .ok config
  | .tokensUsed => .ok 0
  | .overBudget => false
  | .acquireLock => .ok ()
  | .load => .ok .empty
  | .save _ => .ok ()
  | .refresh => .ok ()
  | .release => ()
  | .utcNow => 0
  | .elapsed => 0
  | .mandatoryGuardrails => .ok []
  | .capabilityRegistry => fun _ => some "guard"
  | .chain _ _ => ()
  | .evaluate _ input => verdict input
  | .complete history => model history
  | .newUuid seen => longerThan seen
  | .recallLongTerm _ _ => .ok .null
  | .remember _ _ => .ok ()
  | .recall _ => .ok none
  | .ledgerGet _ _ => .ok none
  | .ledgerRecord _ _ _ => .ok ()
  | .dispatch _ a2a => ⟨a2a, some (.ok .null)⟩
  | .invokeFlow _ _ => invoked
  | .resumeFlow _ _ _ => resumed

/-- A handler that answers with `a` what the stored conversation does not answer. -/
def answering (a : (i : Op) → i.Res) : Handler Op Op.Res TurnWorld
  | .load, s => (.ok s.1, (s.1, s.2 ++ [⟨.load, .ok s.1⟩]))
  | .save state, s => (.ok (), (state, s.2 ++ [⟨.save state, .ok ()⟩]))
  | i, s => (a i, (s.1, s.2 ++ [⟨i, a i⟩]))

/-- The fixed answers are answers the world may give. -/
theorem answering_exec {W : Ev → Prop} {a : (i : Op) → i.Res} (ha : ∀ i, W ⟨i, a i⟩)
    (hl : ∀ state, W ⟨.load, .ok state⟩) (hs : ∀ state, W ⟨.save state, .ok ()⟩) (i : Op)
    (s : TurnWorld) : execTurn W i s (answering a i s).1 (answering a i s).2 := by
  cases i with
  | load =>
      refine ⟨hl _, ⟨rfl, ?_⟩, rfl⟩
      intro state h
      cases h
      exact .inl rfl
  | save state => exact ⟨hs _, .inl rfl, rfl⟩
  | _ => exact ⟨ha _, rfl, rfl⟩

/-- A turn played with such a handler. -/
def playTurn (a : (i : Op) → i.Res) (n : Nat) (p : Turn AgentOutput) (s : ConversationState) :
    TurnThread × TurnWorld :=
  play (List.replicate n (0, answering a)) (Main.lift p, (s, []))

/-- Playing a turn is a run of it. -/
theorem playTurn_run {W : Ev → Prop} {a : (i : Op) → i.Res} (ha : ∀ i, W ⟨i, a i⟩)
    (hl : ∀ state, W ⟨.load, .ok state⟩) (hs : ∀ state, W ⟨.save state, .ok ()⟩) {n : Nat}
    {p : Turn AgentOutput} {s : ConversationState} {t : TurnThread × TurnWorld}
    (ht : t = playTurn a n p s) :
    ∃ es, Run (execTurn W) (Main.lift p) (s, []) es t.1 (t.2.1, t.2.2) := by
  subst ht
  refine play_sound _ ?_ _ _
  intro x hx i s
  rw [List.eq_of_mem_replicate hx]
  exact answering_exec ha hl hs i s

/-- One played turn more. -/
theorem Turns.played {rt : AgentRuntime} {tenant : TenantContext} {sessionId : String}
    {W : Ev → Prop} {C : List Ev → Prop} {a : (i : Op) → i.Res} (ha : ∀ i, W ⟨i, a i⟩)
    (hl : ∀ state, W ⟨.load, .ok state⟩) (hs : ∀ state, W ⟨.save state, .ok ()⟩)
    {s : ConversationState} {log : List Ev} (h : Turns rt tenant sessionId W C s log)
    (agentId : String) (message : AgentInput) (n : Nat)
    (hq : (playTurn a n (runStep rt tenant sessionId agentId message) s).1.outcome?.isSome)
    (hC : C (playTurn a n (runStep rt tenant sessionId agentId message) s).2.2) :
    Turns rt tenant sessionId W C
      (playTurn a n (runStep rt tenant sessionId agentId message) s).2.1
      (log ++ (playTurn a n (runStep rt tenant sessionId agentId message) s).2.2) := by
  obtain ⟨r, hr⟩ := Option.isSome_iff_exists.mp hq
  obtain ⟨es, hrun⟩ := playTurn_run (W := W) ha hl hs
    (p := runStep rt tenant sessionId agentId message) (n := n) (s := s) rfl
  exact h.turn agentId message hrun hr hC

/-! ## Paired histories -/

/-- The uuids the runtime draws differ from the ids of the batch they are drawn for. -/
def FreshUuids (W : Ev → Prop) : Prop :=
  ∀ seen uuid, W ⟨.newUuid seen, uuid⟩ → "call_" ++ uuid ∉ seen

/-- A turn was told of well-shaped conversations only, and every history it sent to the
    model is paired. -/
def SentPaired (h : List Ev) : Prop :=
  Given h ∧ ∀ history r, ⟨.complete history, r⟩ ∈ h → Paired history

/-- The stored conversation is well shaped, and every turn sent paired histories. -/
structure PairedInv (s : ConversationState) (ms : List (Option (List Ev))) : Prop where
  stored : WellShaped s
  sent : ∀ h, some h ∈ ms → SentPaired h

theorem wellShaped_empty : WellShaped .empty := .inl .nil

/-- What the model was given, after one more event. -/
theorem given_snoc {W : Ev → Prop} (hW : FreshUuids W) {s s' : TurnWorld} {ev : Ev}
    (hs : WellShaped s.1) (hg : Given s.2) (he : execTurn W ev.1 s ev.2 s') : Given s'.2 := by
  obtain ⟨hw, hst, hlog⟩ := he
  rw [hlog]
  refine forall_append hg (forall_singleton ?_)
  obtain ⟨i, r⟩ := ev
  cases i with
  | load =>
      cases r with
      | error e => exact trivial
      | ok state =>
          rcases hst.2 state rfl with rfl | rfl
          · exact hs
          · exact wellShaped_empty
  | newUuid seen => exact hW seen r hw
  | _ => exact trivial

/-- One event keeps the stored conversation well shaped. -/
theorem stored_step {W : Ev → Prop} {rt : AgentRuntime} {s s' : TurnWorld} {ev : Ev}
    (hs : WellShaped s.1) (hg : Given s.2) (he : execTurn W ev.1 s ev.2 s')
    (hok : Guard rt s.2 ev) : WellShaped s'.1 := by
  obtain ⟨-, hst, -⟩ := he
  obtain ⟨i, r⟩ := ev
  cases i with
  | load => rw [hst.1]; exact hs
  | save state =>
      rcases hst with heq | ⟨heq, -⟩
      · rw [heq]; exact hok.1 hg
      · rw [heq]; exact hs
  | _ => rw [show s'.1 = s.1 from hst]; exact hs

/-- One event keeps every sent history paired. -/
theorem SentPaired.step {W : Ev → Prop} (hW : FreshUuids W) {rt : AgentRuntime}
    {s s' : TurnWorld} {ev : Ev} (hs : WellShaped s.1) (hp : SentPaired s.2)
    (he : execTurn W ev.1 s ev.2 s') (hok : Guard rt s.2 ev) : SentPaired s'.2 := by
  refine ⟨given_snoc hW hs hp.1 he, ?_⟩
  intro history r hmem
  rw [he.2.2] at hmem
  rcases List.mem_append.mp hmem with hmem | hmem
  · exact hp.2 history r hmem
  · have hev : ⟨.complete history, r⟩ = ev := List.mem_singleton.mp hmem
    rw [← hev] at hok
    exact hok hp.1

/-- **ONE OPERATION** of one turn keeps the conversation well shaped and the histories
    paired. -/
theorem PairedInv.step {W : Ev → Prop} (hW : FreshUuids W) {rt : AgentRuntime}
    {s s' : ConversationState} {ms : List (Option (List Ev))} {j : Nat} {h h' : List Ev} {ev : Ev}
    (hi : PairedInv s ms) (hj : ms[j]? = some (some h))
    (he : execTurn W ev.1 (s, h) ev.2 (s', h')) (hok : Guard rt h ev) :
    PairedInv s' (ms.set j (some h')) := by
  have hp := hi.sent h (List.mem_of_getElem? hj)
  refine ⟨stored_step hi.stored hp.1 he hok, ?_⟩
  intro k hk
  rcases List.mem_or_eq_of_mem_set hk with hold | heq
  · exact hi.sent k hold
  · cases heq
    exact hp.step hW hi.stored he hok

theorem Turning.traced {rt : AgentRuntime} {tenant : TenantContext} {sessionId : String}
    (h : List Ev) (p : TurnThread) (hn : Turning rt tenant sessionId (h, p)) :
    ∃ q, p = Main.lift q ∧ q.Traced (Guard rt) TurnPost h := by
  cases hn with
  | intro agentId message => exact ⟨_, rfl, runStep_traced rt tenant sessionId agentId message⟩

/-- **EVERY HISTORY IS PAIRED**: whatever the turns of a session are asked and answered,
    in any order and interleaving, every history the model is sent has the results of
    each batch of calls right after it, each once, and no other result. -/
theorem histories_paired {W : Ev → Prop} (hW : FreshUuids W) {rt : AgentRuntime}
    {tenant : TenantContext} {sessionId : String} {c : AgentSystem}
    (hr : Pool.Reach (execTurn W) (Turning rt tenant sessionId) ⟨.empty, []⟩ c) {j : Nat}
    {h : List Ev} {p : TurnThread} (hj : c.threads[j]? = some (some (h, p)))
    {history : List ChatMessage} {r : Completion} (hm : ⟨.complete history, r⟩ ∈ h) :
    Paired history := by
  have hinv : PairedInv c.store c.memories := by
    refine Pool.Reach.traced (fun i s r s' he => he.2.2) Turning.traced ?_ ?_ ?_
      ⟨wellShaped_empty, fun h hh => nomatch hh⟩ hr
    · rintro st ms h p hi ⟨agentId, message⟩
      refine ⟨hi.stored, ?_⟩
      intro k hk
      rcases List.mem_append.mp hk with hk | hk
      · exact hi.sent k hk
      · cases List.mem_singleton.mp hk
        exact ⟨(fun e he => nomatch he), fun history r hm => nomatch hm⟩
    · intro st ms j h ev st' h' hi hj he hok
      exact hi.step hW hj he hok
    · intro st ms j hi
      refine ⟨hi.stored, ?_⟩
      intro k hk
      rcases List.mem_or_eq_of_mem_set hk with hold | heq
      · exact hi.sent k hold
      · exact nomatch heq
  exact (hinv.sent h (List.mem_of_getElem? (Pool.memories_get hj))).2 history r hm

/-! ## A batch with a repeated id -/

/-- A runtime without memories. -/
def plainRuntime (sha256 : List UInt8 → List UInt8) : AgentRuntime := ⟨false, false, sha256⟩

/-- An agent with one tool. -/
def oneTool (tool : ToolRef) (guardrails : List GuardrailRef) : AgentConfig :=
  ⟨[tool], guardrails, AgentLimits.default, false, false, false, .cancel, none⟩

/-- A plain message. -/
def plainInput (text : String) : AgentInput := ⟨text, false, none, []⟩

/-- The model calls `crm.find` twice under one id, then answers. -/
def twoFinds (history : List ChatMessage) : Completion :=
  if history.length = 1 then
    .response ⟨none, [⟨"a", "crm", "find", .null⟩, ⟨"a", "crm", "find", .null⟩], 0, 0⟩
  else .response ⟨some "found", [], 0, 0⟩

/-- The turns of the session `chat`. -/
abbrev ChatTurns (W : Ev → Prop) (C : List Ev → Prop) : ConversationState → List Ev → Prop :=
  Turns (plainRuntime fun _ => []) ⟨"demo", "prod"⟩ "chat" W C

/-- A turn of the session `chat`. -/
abbrev chatStep (message : AgentInput) : Turn AgentOutput :=
  runStep (plainRuntime fun _ => []) ⟨"demo", "prod"⟩ "chat" "desk" message

/-- The answers to an agent with that tool and no guardrails. -/
def findAnswers : (i : Op) → i.Res :=
  granting (oneTool ⟨"crm", "find"⟩ []) twoFinds (fun _ => .accept) none none

/-- The turn that asks for it. -/
def findTurn : TurnThread × TurnWorld :=
  playTurn findAnswers 25 (chatStep (plainInput "hi")) .empty

/-- The second history of the turn: the repeated id was replaced. -/
def findHistory : List ChatMessage :=
  [.user "hi" [],
    .assistant "" [⟨"a", "crm", "find", .null⟩, ⟨"call_au", "crm", "find", .null⟩],
    .tool "a" .null, .tool "call_au" .null]

/-- A turn played with granted operations, as the only turn of its session. -/
theorem playTurn_reach {W : Ev → Prop} {a : (i : Op) → i.Res} (ha : ∀ i, W ⟨i, a i⟩)
    (hl : ∀ state, W ⟨.load, .ok state⟩) (hs : ∀ state, W ⟨.save state, .ok ()⟩)
    (rt : AgentRuntime) (tenant : TenantContext) (sessionId agentId : String)
    (message : AgentInput) (n : Nat) :
    Pool.Reach (execTurn W) (Turning rt tenant sessionId) ⟨.empty, []⟩
      ⟨(playTurn a n (runStep rt tenant sessionId agentId message) .empty).2.1,
        [some ((playTurn a n (runStep rt tenant sessionId agentId message) .empty).2.2,
          (playTurn a n (runStep rt tenant sessionId agentId message) .empty).1)]⟩ := by
  have hspawn : Pool.Reach (execTurn W) (Turning rt tenant sessionId) ⟨.empty, []⟩
      ⟨.empty, [some ([], Main.lift (runStep rt tenant sessionId agentId message))]⟩ :=
    Pool.Reach.refl.spawned (.intro agentId message)
  obtain ⟨es, hrun⟩ := playTurn_run (W := W) ha hl hs
    (p := runStep rt tenant sessionId agentId message) (n := n) (s := .empty) rfl
  exact hspawn.run (j := 0) rfl hrun

/-- An event whose uuid, if it draws one, is fresh. -/
def Fresh : Ev → Prop
  | ⟨.newUuid seen, uuid⟩ => "call_" ++ uuid ∉ seen
  | _ => True

/-- The fixed answers use fresh ids. -/
theorem granting_fresh (config : AgentConfig) (model : List ChatMessage → Completion)
    (verdict : GuardrailInput → Evaluation) (invoked resumed : Option FlowInvokeOutcome) (i : Op) :
    Fresh ⟨i, granting config model verdict invoked resumed i⟩ := by
  cases i with
  | newUuid seen =>
      intro hmem
      have hlt := length_lt_longerThan hmem
      rw [String.length_append] at hlt
      exact absurd hlt (Nat.not_lt.mpr (Nat.le_add_left _ _))
  | _ => exact trivial

set_option maxRecDepth 10000 in

/-- The history of the search is sent, and is paired. -/
theorem findHistory_paired :
    ⟨.complete findHistory, .response ⟨some "found", [], 0, 0⟩⟩ ∈ findTurn.2.2 ∧
      Paired findHistory := by
  have hm : ⟨.complete findHistory, .response ⟨some "found", [], 0, 0⟩⟩ ∈ findTurn.2.2 :=
    List.mem_of_getElem? (i := 20) rfl
  refine ⟨hm, histories_paired (W := Fresh) (fun _ _ h => h) (playTurn_reach
    (granting_fresh _ _ _ _ _) (fun _ => trivial) (fun _ => trivial) _ _ _ _ _ _) (j := 0) rfl hm⟩

end Greentic.Aw
