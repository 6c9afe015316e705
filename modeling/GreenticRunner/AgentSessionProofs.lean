import GreenticRunner.AgentSession

/-! # Sessions: the ledger, resumed flows and replies

    What holds over every sequence of turns of a session, and of every single turn.

    * `ledger_coherent` — the ledger is used under the id of the call, as long as no
      resumed flow ends;
    * `resumed_once` — a flow is resumed to completion at most once, as long as no turn
      that completed one is denied outbound;
    * `reply_covered_iff` — when a reply was passed by the outbound chain. -/

namespace Greentic.Aw

open Resumption

/-! ## The tool ledger -/

/-- The ledger is read and written under the id of the call, and stores no error. -/
def LedgerOk (rt : AgentRuntime) : Ev → Prop
  | ⟨.ledgerGet call id, _⟩ => id = rt.ledgerCallId call
  | ⟨.ledgerRecord call id result, _⟩ => id = rt.ledgerCallId call ∧ isErrorResult result = false
  | _ => True

/-- What a guarded operation does to the ledger. -/
theorem ledgerOk_of_guard {rt : AgentRuntime} {h : List Ev} {e : Ev} (hg : Guard rt h e) :
    (∃ e' ∈ h, ResumeEnds e') ∨ LedgerOk rt e := by
  obtain ⟨i, r⟩ := e
  cases i with
  | ledgerGet call id => exact .inr hg
  | ledgerRecord call id result => exact hg.symm
  | _ => exact .inr trivial

/-- **THE LEDGER IS COHERENT** over every sequence of turns in which no resumed flow
    ends: it is read and written under the id of the call, and stores no error. -/
theorem ledger_coherent {rt : AgentRuntime} {tenant : TenantContext} {sessionId : String}
    {W : Ev → Prop} {s : ConversationState} {log : List Ev}
    (h : Turns rt tenant sessionId W (fun evs => ∀ e ∈ evs, ¬ ResumeEnds e) s log) :
    ∀ e ∈ log, LedgerOk rt e := by
  induction h with
  | start => exact fun e he => nomatch he
  | @turn s s' log evs es q r _ agentId message hrun hq hC ih =>
      have hinv := (Prog.Traced.run (f := Prod.snd)
        (I := fun w => (∃ e ∈ w.2, ResumeEnds e) ∨ ∀ e ∈ w.2, LedgerOk rt e)
        (fun i s r s' he => he.2.2) ?_ hrun (runStep_traced rt tenant sessionId agentId message)
        (.inr fun e he => nomatch he)).1
      · rcases hinv with ⟨e, he, hends⟩ | hok
        · exact absurd hends (hC e he)
        · exact forall_append ih hok
      · intro w ev w' hw he hg
        rw [he.2.2]
        rcases hw with ⟨e, hmem, hends⟩ | hok
        · exact .inl ⟨e, List.mem_append_left _ hmem, hends⟩
        · rcases ledgerOk_of_guard hg with ⟨e, hmem, hends⟩ | hev
          · exact .inl ⟨e, List.mem_append_left _ hmem, hends⟩
          · exact .inr (forall_append hok (forall_singleton hev))

/-- A resume that ends, as a test. -/
def endsResume : Ev → Bool
  | ⟨.resumeFlow _ _ _, none⟩ => true
  | ⟨.resumeFlow _ _ _, some (.completed _)⟩ => true
  | _ => false

theorem not_resumeEnds {evs : List Ev} (h : evs.any endsResume = false) :
    ∀ e ∈ evs, ¬ ResumeEnds e := by
  intro e he hends
  have hno := List.any_eq_false.mp h e he
  obtain ⟨i, r⟩ := e
  cases i with
  | resumeFlow _ _ _ =>
      rcases r with _ | _ | _
      · exact hno rfl
      · exact hno rfl
      · exact hends
  | _ => exact hends

/-- The result of a call, recorded. -/
def findRecord : Ev :=
  ⟨.ledgerRecord ⟨"a", "crm", "find", .null⟩ "a:" .null, .ok ()⟩

set_option maxRecDepth 10000 in
theorem findTurn_ledger : findRecord ∈ findTurn.2.2 ∧
    ∀ e ∈ findTurn.2.2, LedgerOk (plainRuntime fun _ => []) e := by
  refine ⟨List.mem_of_getElem? (i := 14) rfl, ?_⟩
  have hstart : ChatTurns (fun _ => True) (fun evs => ∀ e ∈ evs, ¬ ResumeEnds e) .empty [] := .start
  have hturn := hstart.played (a := findAnswers) (fun _ => trivial) (fun _ => trivial)
    (fun _ => trivial) "desk" (plainInput "hi") 25 (by decide +kernel)
    (not_resumeEnds (by decide +kernel))
  exact ledger_coherent hturn

/-! ## Resumed flows -/

/-- A flow was resumed from the snapshot `S`. -/
def Resumes (S : Json) : Ev → Prop
  | ⟨.resumeFlow _ snapshot _, _⟩ => snapshot = S
  | _ => False

/-- No snapshot is resumed again once its resume has completed. -/
def ResumedOnce (log : List Ev) : Prop :=
  ∀ pre e post, log = pre ++ e :: post → ∀ S, Resumes S e → ¬ Done S pre

/-- Every operation of the store and of the lock succeeds. -/
def Succeeds : Ev → Prop
  | ⟨.load, r⟩ => ∃ state, r = .ok state
  | ⟨.save _, r⟩ => r = .ok ()
  | ⟨.refresh, r⟩ => r = .ok ()
  | ⟨.acquireLock, r⟩ => r = .ok ()
  | _ => True

/-- No guardrail denies the reply of a turn that completed a resume. -/
def Undenied (evs : List Ev) : Prop :=
  (∃ e ∈ evs, ∃ S, Completes S e) → ∀ e ∈ evs, ¬ Denies .outbound e

/-- The conversation was saved. -/
def IsSave : Ev → Prop
  | ⟨.save _, _⟩ => True
  | _ => False

/-- One more event that resumes nothing done. -/
theorem resumedOnce_snoc {log : List Ev} {e : Ev} (h : ResumedOnce log)
    (he : ∀ S, Resumes S e → ¬ Done S log) : ResumedOnce (log ++ [e]) := by
  intro pre e' post heq
  rcases concat_split heq with ⟨rfl, rfl, -⟩ | ⟨mid, -, hlog⟩
  · exact he
  · exact h pre e' mid hlog

/-- What follows the last event of a kind follows every event of that kind. -/
theorem suffix_of_last {P : Ev → Prop} {h₁ h₂ h₁' h₂' : List Ev} {a b : Ev}
    (heq : h₁ ++ a :: h₂ = h₁' ++ b :: h₂') (hlast : ∀ e ∈ h₂, ¬ P e) (hb : P b) :
    ∃ t, h₂' = t ++ h₂ := by
  rcases List.append_eq_append_iff.mp heq with ⟨t, -, ht⟩ | ⟨t, -, ht⟩
  · cases t with
    | nil =>
        cases ht
        exact ⟨[], rfl⟩
    | cons x t =>
        cases ht
        exact absurd hb (hlast b (List.mem_append_right _ (List.mem_cons_self ..)))
  · cases t with
    | nil =>
        cases ht
        exact ⟨[], rfl⟩
    | cons x t =>
        cases ht
        exact ⟨t ++ [a], by simp⟩

/-- The stored conversation in the middle of a turn: as it was before the turn, or as it
    was saved last, without a snapshot that is done. -/
def LastSaved (L : List Ev) (s : ConversationState) (w : TurnWorld) : Prop :=
  (w.1 = s ∧ ∀ e ∈ w.2, ¬ IsSave e) ∨
    ∃ h₁ r h₂, w.2 = h₁ ++ ⟨.save w.1, r⟩ :: h₂ ∧ (∀ e ∈ h₂, ¬ IsSave e) ∧ Safe (L ++ h₁) w.1

/-- A turn after the log `L`, from the stored conversation `s`. -/
structure ResumeInv (L : List Ev) (s : ConversationState) (w : TurnWorld) : Prop where
  succeeds : ∀ e ∈ w.2, Succeeds e
  kept : PendingKept L w.2
  last : LastSaved L s w
  once : ResumedOnce (L ++ w.2)

/-- An event that saves nothing. -/
theorem LastSaved.snoc {L : List Ev} {s : ConversationState} {w w' : TurnWorld} {ev : Ev}
    (hl : LastSaved L s w) (hst : w'.1 = w.1) (hlog : w'.2 = w.2 ++ [ev]) (hev : ¬ IsSave ev) :
    LastSaved L s w' := by
  rcases hl with ⟨heq, hn⟩ | ⟨h₁, r, h₂, heq, hn, hsafe⟩
  · refine .inl ⟨hst.trans heq, ?_⟩
    rw [hlog]
    exact forall_append hn (forall_singleton hev)
  · refine .inr ⟨h₁, r, h₂ ++ [ev], ?_, forall_append hn (forall_singleton hev), ?_⟩
    · rw [hlog, heq, hst]
      simp
    · rw [hst]
      exact hsafe

/-- A conversation is loaded before it is saved. -/
theorem LoadAfter.not_saved {h : List Ev} (hl : LoadAfter h) : ∀ e ∈ h, ¬ IsSave e := by
  obtain ⟨h₀, rfl, hc⟩ := hl
  refine forall_append ?_ (forall_singleton fun h => h)
  intro e he hs
  have hcheck := hc e he
  obtain ⟨i, r⟩ := e
  cases i <;> first
    | exact False.elim hs
    | exact False.elim hcheck

/-- One more event. -/
theorem PendingKept.snoc {L h : List Ev} {e : Ev} (hk : PendingKept L h)
    (he : ∀ state, e = ⟨.load, .ok state⟩ → Safe L state) : PendingKept L (h ++ [e]) := by
  intro state hmem
  rcases List.mem_append.mp hmem with hmem | hmem
  · exact hk state hmem
  · exact he state (List.mem_singleton.mp hmem).symm

/-- A snapshot that is resumed is not done. -/
theorem not_done_of_guard {rt : AgentRuntime} {L h : List Ev} {e : Ev} (hk : PendingKept L h)
    (hg : Guard rt h e) {S : Json} (hS : Resumes S e) : ¬ Done S (L ++ h) := by
  obtain ⟨i, r⟩ := e
  cases i with
  | resumeFlow flowRef snapshot payload =>
      obtain ⟨⟨state, p, hload, hp, hsnap⟩, hn⟩ := hg
      have hsafe := hk state hload p hp
      rw [hsnap, show snapshot = S from hS] at hsafe
      intro hd
      exact hsafe (done_quiet (fun e he => hn e he S) hd)
  | _ => exact False.elim hS

/-- **ONE OPERATION** of a turn. -/
theorem ResumeInv.step {rt : AgentRuntime} {L : List Ev} {s : ConversationState}
    {w w' : TurnWorld} {ev : Ev} (hL : Safe L s) (hi : ResumeInv L s w)
    (he : execTurn Succeeds ev.1 w ev.2 w') (hg : Guard rt w.2 ev) : ResumeInv L s w' := by
  obtain ⟨hw, hst, hlog⟩ := he
  have hev : (⟨ev.1, ev.2⟩ : Ev) = ev := rfl
  rw [hev] at hlog
  have honce : ResumedOnce (L ++ w'.2) := by
    rw [hlog, ← List.append_assoc]
    exact resumedOnce_snoc hi.once fun S hS => not_done_of_guard hi.kept hg hS
  refine ⟨?_, ?_, ?_, honce⟩
  · rw [hlog]
    exact forall_append hi.succeeds (forall_singleton hw)
  · rw [hlog]
    refine hi.kept.snoc ?_
    rintro state rfl
    -- nothing was saved before the load: it finds the conversation of before the turn
    have hunsaved := hg.not_saved
    rcases hst.2 state rfl with rfl | rfl
    · rcases hi.last with ⟨heq, -⟩ | ⟨h₁, r, h₂, heq, -⟩
      · rw [heq]
        exact hL
      · refine absurd trivial (hunsaved ⟨.save w.1, r⟩ ?_)
        rw [heq]
        exact List.mem_append_right _ (List.mem_cons_self ..)
    · exact Safe.of_none rfl
  · obtain ⟨i, r⟩ := ev
    cases i with
    | save state =>
        have hsaved : w'.1 = state := by
          rcases hst with heq | ⟨-, e, herr⟩
          · exact heq
          · rw [show r = .ok () from hw] at herr
            exact nomatch herr
        refine .inr ⟨w.2, r, [], ?_, (fun e he => nomatch he), ?_⟩
        · rw [hlog, hsaved]
        · rw [hsaved]
          exact hg.2.1 L hi.kept
    | load => exact hi.last.snoc hst.1 hlog fun h => h
    | _ => exact hi.last.snoc hst hlog fun h => h

/-- After a turn the stored conversation holds no snapshot that is done. -/
theorem ResumeInv.safe {L evs : List Ev} {s s' : ConversationState}
    {r : Except AgentError AgentOutput} (hi : ResumeInv L s (s', evs)) (hL : Safe L s)
    (hp : TurnPost evs r) (hC : Undenied evs) : Safe (L ++ evs) s' := by
  have hquiet : (∀ e ∈ evs, ∀ S, ¬ Completes S e) → Safe (L ++ evs) s' := by
    intro hn
    rcases hi.last with ⟨heq, -⟩ | ⟨h₁, r, h₂, heq, -, hsafe⟩
    · rw [show s' = s from heq]
      exact hL.quiet hn
    · rw [show evs = _ from heq] at hn
      rw [show evs = _ from heq, ← List.append_assoc]
      exact hsafe.quiet fun e he => hn e (List.mem_append_right _ he)
  rcases hp.settled with hn | hset
  · exact hquiet hn
  · cases hset with
    | saved h₁' state r' h₂' heq' hn =>
        rcases hi.last with ⟨-, hunsaved⟩ | ⟨h₁, r, h₂, heq, hlast, hsafe⟩
        · refine absurd trivial (hunsaved ⟨.save state, r'⟩ ?_)
          rw [show (s', evs).2 = _ from heq']
          exact List.mem_append_right _ (List.mem_cons_self ..)
        · have heq₂ : evs = h₁ ++ ⟨.save s', r⟩ :: h₂ := heq
          obtain ⟨t, ht⟩ := suffix_of_last (P := IsSave) (heq₂.symm.trans heq') hlast trivial
          rw [heq₂, ← List.append_assoc]
          refine hsafe.quiet ?_
          intro e he
          rcases List.mem_cons.mp he with rfl | he
          · exact fun _ h => h
          · exact hn e (by rw [ht]; exact List.mem_append_right _ he)
    | denied e he hd =>
        refine hquiet ?_
        intro e' he' S hS
        exact hC ⟨e', he', S, hS⟩ e he hd
    | unlocked er he => exact nomatch hi.succeeds _ he

/-- **A FLOW IS RESUMED TO COMPLETION AT MOST ONCE** over every sequence of turns whose
    operations of the store and of the lock succeed, as long as no turn that completed a
    resume is denied outbound. -/
theorem resumed_once {rt : AgentRuntime} {tenant : TenantContext} {sessionId : String}
    {s : ConversationState} {log : List Ev}
    (h : Turns rt tenant sessionId Succeeds Undenied s log) : ResumedOnce log := by
  have hinv : Safe log s ∧ ResumedOnce log := by
    induction h with
    | start =>
        refine ⟨Safe.of_none rfl, ?_⟩
        intro pre e post heq
        exact absurd heq.symm (List.append_ne_nil_of_right_ne_nil _ (List.cons_ne_nil _ _))
    | @turn s s' log evs es q r _ agentId message hrun hq hC ih =>
        obtain ⟨hsafe, honce⟩ := ih
        have hstart : ResumeInv log s (s, []) := by
          refine ⟨(fun e he => nomatch he), (fun state hs => nomatch hs),
            .inl ⟨rfl, fun e he => nomatch he⟩, ?_⟩
          rw [List.append_nil]
          exact honce
        obtain ⟨hi, hpost⟩ := Prog.Traced.run (f := Prod.snd) (fun i s r s' he => he.2.2)
          (fun w ev w' hw he hg => ResumeInv.step hsafe hw he hg) hrun
          (runStep_traced rt tenant sessionId agentId message) hstart
        exact ⟨hi.safe hsafe (hpost r hq) hC, hi.once⟩
  exact hinv.2

/-! ## A form that is answered -/

/-- The snapshot the form parks with. -/
def formSnapshot : Json := .str "form"

/-- The model calls the form, then thanks. -/
def askForm (history : List ChatMessage) : Completion :=
  if history.length = 1 then .response ⟨none, [⟨"1", "flow:form", "form", .null⟩], 0, 0⟩
  else .response ⟨some "thanks", [], 0, 0⟩

/-- A guardrail that denies every outbound text. -/
def denyOutbound (input : GuardrailInput) : Evaluation :=
  match input.direction with
  | .inbound => .accept
  | .outbound => .deny ⟨"policy", "no", none⟩

/-- An agent with the form and one guardrail. -/
def formAnswers (verdict : GuardrailInput → Evaluation) : (i : Op) → i.Res :=
  granting (oneTool ⟨"flow:form", "form"⟩ [⟨"policy", .enforce, .null⟩]) askForm verdict
    (some (.waiting formSnapshot .null)) (some (.completed .null))

/-- One turn with the form. -/
def formTurn (verdict : GuardrailInput → Evaluation) (n : Nat) (message : AgentInput)
    (s : ConversationState) : TurnThread × TurnWorld :=
  playTurn (formAnswers verdict) n (chatStep message) s

theorem formAnswers_succeed (verdict : GuardrailInput → Evaluation) (i : Op) :
    Succeeds ⟨i, formAnswers verdict i⟩ := by
  cases i with
  | load => exact ⟨_, rfl⟩
  | save state => rfl
  | refresh => rfl
  | acquireLock => rfl
  | _ => exact trivial

/-- A turn of the example. -/
theorem formTurn_turns {C : List Ev → Prop} (verdict : GuardrailInput → Evaluation) (n : Nat)
    (message : AgentInput) {s : ConversationState} {log : List Ev}
    (h : ChatTurns Succeeds C s log) (hq : (formTurn verdict n message s).1.outcome?.isSome)
    (hC : C (formTurn verdict n message s).2.2) :
    ChatTurns Succeeds C (formTurn verdict n message s).2.1
      (log ++ (formTurn verdict n message s).2.2) :=
  h.played (formAnswers_succeed verdict) (fun state => ⟨state, rfl⟩) (fun _ => rfl) "desk"
    message n hq hC

/-- The answer to the form. -/
def formAnswer : AgentInput := ⟨"", false, some .null, []⟩

/-- The form is asked for. -/
def formAsked (verdict : GuardrailInput → Evaluation) : TurnThread × TurnWorld :=
  formTurn verdict 19 (plainInput "hi") .empty

/-- The form is answered. -/
def formAnswered (verdict : GuardrailInput → Evaluation) : TurnThread × TurnWorld :=
  formTurn verdict 19 formAnswer (formAsked verdict).2.1

/-- The form is answered again. -/
def formRepeated (verdict : GuardrailInput → Evaluation) : TurnThread × TurnWorld :=
  formTurn verdict 19 formAnswer (formAnswered verdict).2.1

/-- The form is asked for and answered twice. -/
def formLog (verdict : GuardrailInput → Evaluation) : List Ev :=
  [] ++ (formAsked verdict).2.2 ++ (formAnswered verdict).2.2 ++ (formRepeated verdict).2.2

/-- Three turns, when they return and meet `C`. -/
theorem formTurn_three {C : List Ev → Prop} {verdict : GuardrailInput → Evaluation}
    {n₁ n₂ n₃ : Nat} {m₁ m₂ m₃ : AgentInput} (t₁ t₂ t₃ : TurnThread × TurnWorld)
    (h₁ : t₁ = formTurn verdict n₁ m₁ .empty) (h₂ : t₂ = formTurn verdict n₂ m₂ t₁.2.1)
    (h₃ : t₃ = formTurn verdict n₃ m₃ t₂.2.1)
    (hq : t₁.1.outcome?.isSome ∧ t₂.1.outcome?.isSome ∧ t₃.1.outcome?.isSome)
    (hC : C t₁.2.2 ∧ C t₂.2.2 ∧ C t₃.2.2) :
    ChatTurns Succeeds C t₃.2.1 ([] ++ t₁.2.2 ++ t₂.2.2 ++ t₃.2.2) := by
  subst h₁ h₂ h₃
  exact formTurn_turns verdict n₃ m₃ (formTurn_turns verdict n₂ m₂
    (formTurn_turns verdict n₁ m₁ .start hq.1 hC.1) hq.2.1 hC.2.1) hq.2.2 hC.2.2

/-- All its turns. -/
theorem formLog_turns {C : List Ev → Prop} (verdict : GuardrailInput → Evaluation)
    (hq : (formAsked verdict).1.outcome?.isSome ∧ (formAnswered verdict).1.outcome?.isSome ∧
      (formRepeated verdict).1.outcome?.isSome)
    (hC : C (formAsked verdict).2.2 ∧ C (formAnswered verdict).2.2 ∧ C (formRepeated verdict).2.2) :
    ChatTurns Succeeds C (formRepeated verdict).2.1 (formLog verdict) :=
  formTurn_three (formAsked verdict) (formAnswered verdict) (formRepeated verdict) rfl rfl rfl hq hC

/-- The resume of the form. -/
def formResumed : Ev := ⟨.resumeFlow "form" formSnapshot .null, some (.completed .null)⟩

/-- The record of its result. -/
def formRecord : Ev :=
  ⟨.ledgerRecord ⟨"1", "flow:form", "form", .null⟩ "1" .null, .ok ()⟩

/-- The ledger is written under the bare id of a resumed call. -/
theorem formRecord_incoherent : ¬ ∀ s log, ChatTurns Succeeds (fun _ => True) s log →
    ∀ e ∈ log, LedgerOk (plainRuntime fun _ => []) e := by
  intro h
  have hturns : ChatTurns Succeeds (fun _ => True) _ (formLog denyOutbound) :=
    formLog_turns denyOutbound (by decide +kernel) ⟨trivial, trivial, trivial⟩
  have hmem : formRecord ∈ formLog denyOutbound := List.mem_of_getElem? (i := 27) rfl
  have hid := (h _ _ hturns _ hmem).1
  exact absurd hid (by decide)

/-- A part of the log around its `k`-th event. -/
theorem split_at {log : List Ev} {k : Nat} {e : Ev} (h : log[k]? = some e) :
    log = log.take k ++ e :: log.drop (k + 1) := by
  obtain ⟨hlt, heq⟩ := List.getElem?_eq_some_iff.mp h
  rw [← heq, ← List.drop_eq_getElem_cons hlt, List.take_append_drop]

/-- A flow that parks, as a test. -/
def waits : Ev → Bool
  | ⟨.invokeFlow _ _, some (.waiting _ _)⟩ => true
  | ⟨.resumeFlow _ _ _, some (.waiting _ _)⟩ => true
  | _ => false

theorem InvokeParks.waits {e : Ev} (h : InvokeParks e) : waits e = true := by
  obtain ⟨i, r⟩ := e
  cases i with
  | invokeFlow _ _ =>
      rcases r with _ | _ | _
      · exact False.elim h
      · exact False.elim h
      · rfl
  | _ => exact False.elim h

/-- The test for a parked call is sound. -/
theorem not_parks_of_waits {evs : List Ev} (h : evs.any waits = false) (S : Json) :
    ∀ e ∈ evs, ¬ Parks S e := by
  intro e he hp
  have hno := List.any_eq_false.mp h e he
  obtain ⟨i, r⟩ := e
  cases i with
  | invokeFlow _ _ =>
      rcases r with _ | _ | _
      · exact hp
      · exact hp
      · exact hno rfl
  | resumeFlow _ _ _ =>
      rcases r with _ | _ | _
      · exact hp
      · exact hp
      · exact hno rfl
  | _ => exact hp

/-- The reply to an answered form is denied, and the form is resumed again. -/
theorem formResumed_again :
    ¬ ∀ s log, ChatTurns Succeeds (fun _ => True) s log → ResumedOnce log := by
  intro h
  have hturns : ChatTurns Succeeds (fun _ => True) _ (formLog denyOutbound) :=
    formLog_turns denyOutbound (by decide +kernel) ⟨trivial, trivial, trivial⟩
  have hsecond : (formLog denyOutbound)[41]? = some formResumed := rfl
  have hfirst : ((formLog denyOutbound).take 41)[26]? = some formResumed := rfl
  exact h _ _ hturns _ _ _ (split_at hsecond) formSnapshot rfl
    ⟨_, formResumed, _, split_at hfirst, rfl, not_parks_of_waits (by decide +kernel) _⟩

/-- An evaluation that does not accept, as a test. -/
def refuses : Ev → Bool
  | ⟨.evaluate _ _, .accept⟩ => false
  | ⟨.evaluate _ _, _⟩ => true
  | _ => false

/-- So is the one for a refusal. -/
theorem undenied_of_refuses {evs : List Ev} (h : evs.any refuses = false) : Undenied evs := by
  intro _ e he hd
  have hno := List.any_eq_false.mp h e he
  obtain ⟨i, r⟩ := e
  cases i with
  | evaluate g input =>
      cases r with
      | accept => exact hd
      | update _ => exact hno rfl
      | deny _ => exact hno rfl
      | error _ => exact hno rfl
      | panic => exact hno rfl
  | _ => exact hd

theorem formResumed_once : formResumed ∈ formLog (fun _ => .accept) ∧
    ResumedOnce (formLog fun _ => .accept) := by
  refine ⟨List.mem_of_getElem? (i := 26) rfl, ?_⟩
  refine resumed_once (formLog_turns (fun _ => .accept) (by decide +kernel) ⟨?_, ?_, ?_⟩)
  · exact undenied_of_refuses (by decide +kernel)
  · exact undenied_of_refuses (by decide +kernel)
  · exact undenied_of_refuses (by decide +kernel)

/-! ## Replies -/

/-- A reply that is not empty and not the opening message was passed by the assembled
    chain, run outbound on a text of the model. -/
def ReplyCovered (h : List Ev) (reply : String) : Prop :=
  reply ≠ "" → ¬ Opening h reply → Covered h reply

/-- There is one last response. -/
theorem LastResponse.unique {h : List Ev} {r₁ r₂ : LlmResponse} (h₁ : LastResponse h r₁)
    (h₂ : LastResponse h r₂) : r₁ = r₂ := by
  obtain ⟨pre₁, history₁, post₁, heq₁, hn₁⟩ := h₁
  obtain ⟨pre₂, history₂, post₂, heq₂, hn₂⟩ := h₂
  have heq := heq₁.symm.trans heq₂
  -- each response is followed by the other or is the other
  rcases List.append_eq_append_iff.mp heq with ⟨t, -, ht⟩ | ⟨t, -, ht⟩
  · cases t with
    | nil =>
        cases ht
        rfl
    | cons x t =>
        cases ht
        exact absurd trivial (hn₁ _ (List.mem_append_right _ (List.mem_cons_self ..)))
  · cases t with
    | nil =>
        cases ht
        rfl
    | cons x t =>
        cases ht
        exact absurd trivial (hn₂ _ (List.mem_append_right _ (List.mem_cons_self ..)))

/-- A reply that was checked has a check. -/
theorem Covered.starts {h : List Ev} {reply : String} (hc : Covered h reply) :
    ∃ e ∈ h, StartsOutbound e := by
  obtain ⟨ctx, chain, text, h₁, evs, h₂, rfl, -⟩ := hc
  exact ⟨_, List.mem_append_right _ (List.mem_cons_self ..), trivial⟩

/-- The model said nothing, or the opening message, in the response whose call parked. -/
def ParkedSilent (h : List Ev) : Prop :=
  ∀ response, (∃ e ∈ h, InvokeParks e) → LastResponse h response →
    response.content.getD "" = "" ∨ Opening h (response.content.getD "")

/-- A reply is covered unless a call has parked with it. -/
theorem Replied.covered_iff {h : List Ev} {reply : String} (hr : Replied h reply) :
    ReplyCovered h reply ↔ ParkedSilent h := by
  cases hr with
  | opening ho hn =>
      refine ⟨?_, fun _ _ hno => absurd ho hno⟩
      rintro - response - ⟨h₁, history, h₂, rfl, -⟩
      exact absurd trivial (hn _ (List.mem_append_right _ (List.mem_cons_self ..)))
  | guarded hc hn =>
      refine ⟨?_, fun _ _ _ => hc⟩
      rintro - response ⟨e, he, hp⟩
      exact absurd hp (hn e he)
  | silent hr hn =>
      refine ⟨?_, fun _ hne => absurd hr hne⟩
      rintro - response ⟨e, he, hp⟩
      exact absurd hp (hn e he)
  | @parked response hl hr hp hn =>
      rw [hr]
      constructor
      · intro hcov response' _ hl'
        rw [hl'.unique hl]
        by_contra hno
        rw [not_or] at hno
        obtain ⟨e, he, hs⟩ := (hcov hno.1 hno.2).starts
        exact hn e he hs
      · intro hsilent hne hno
        rcases hsilent response hp hl with h | h
        · exact absurd h hne
        · exact absurd h hno

/-- **OUTBOUND COVERAGE**: the reply of a turn was passed by the outbound chain exactly
    when no call parked behind a text of the model. -/
theorem reply_covered_iff {rt : AgentRuntime} {tenant : TenantContext}
    {sessionId agentId : String} {message : AgentInput} {W : Ev → Prop} {s s' : ConversationState}
    {h es : List Ev} {q : TurnThread} {out : AgentOutput}
    (hrun : Run (execTurn W) (Main.lift (runStep rt tenant sessionId agentId message)) (s, []) es q
      (s', h)) (hq : q.outcome? = some (.ok out)) :
    ReplyCovered h out.reply ↔ ParkedSilent h := by
  have hpost := (Prog.Traced.run (f := Prod.snd) (I := fun _ => True) (fun i s r s' he => he.2.2)
    (fun _ _ _ _ _ _ => trivial) hrun (runStep_traced rt tenant sessionId agentId message)
    trivial).2 (.ok out) hq
  exact (hpost.replied out rfl).covered_iff

/-- The reply of a turn that returned. -/
def replyOf? (q : TurnThread) : Option String :=
  match q with
  | .ret out => some out.reply
  | _ => none

/-- The reply of a turn that ended. -/
theorem replyOf?_some {q : TurnThread} {reply : String} (h : replyOf? q = some reply) :
    ∃ out, q.outcome? = some (.ok out) ∧ out.reply = reply := by
  cases q with
  | ret out => exact ⟨out, rfl, Option.some.inj h⟩
  | _ => exact nomatch h

theorem findTurn_covered : ReplyCovered findTurn.2.2 "found" := by
  have hreply : replyOf? findTurn.1 = some "found" := by decide +kernel
  have hwaits : findTurn.2.2.any waits = false := by decide +kernel
  obtain ⟨es, hrun⟩ := playTurn_run (W := fun _ => True) (t := findTurn) (fun _ => trivial)
    (fun _ => trivial) (fun _ => trivial) rfl
  obtain ⟨out, hq, hout⟩ := replyOf?_some hreply
  rw [← hout]
  refine (reply_covered_iff hrun hq).mpr ?_
  rintro response ⟨e, he, hp⟩
  exact absurd hp.waits (List.any_eq_false.mp hwaits e he)

/-- The model asks for the form with a text. -/
def askAloud (_ : List ChatMessage) : Completion :=
  .response ⟨some "secret", [⟨"1", "flow:form", "form", .null⟩], 0, 0⟩

/-- The answers to it, behind a guardrail that denies every outbound text. -/
def aloudAnswers : (i : Op) → i.Res :=
  granting (oneTool ⟨"flow:form", "form"⟩ [⟨"policy", .enforce, .null⟩]) askAloud denyOutbound
    (some (.waiting formSnapshot .null)) none

/-- The turn that asks for the form. -/
def aloudTurn : TurnThread × TurnWorld :=
  playTurn aloudAnswers 19 (chatStep (plainInput "hi")) .empty

/-- An outbound chain or a configured opening message, as a test. -/
def outboundOrOpening : Ev → Bool
  | ⟨.chain .outbound _, _⟩ => true
  | ⟨.agentConfig _, .ok config⟩ => config.openingMessage.isSome
  | _ => false

theorem StartsOutbound.outboundOrOpening {e : Ev} (h : StartsOutbound e) :
    outboundOrOpening e = true := by
  obtain ⟨i, r⟩ := e
  cases i with
  | chain direction content =>
      cases direction with
      | inbound => exact False.elim h
      | outbound => rfl
  | _ => exact False.elim h

/-- The text beside a call that parks is returned, and no guardrail has seen it. -/
theorem aloud_uncovered : ∃ h es s' out, ∃ q : TurnThread,
    Run (execTurn fun _ => True) (Main.lift (chatStep (plainInput "hi"))) (.empty, []) es q
      (s', h) ∧ q.outcome? = some (.ok out) ∧ ¬ ReplyCovered h out.reply := by
  have hreply : replyOf? aloudTurn.1 = some "secret" := by decide +kernel
  have htest : aloudTurn.2.2.any outboundOrOpening = false := by decide +kernel
  obtain ⟨es, hrun⟩ := playTurn_run (W := fun _ => True) (t := aloudTurn) (fun _ => trivial)
    (fun _ => trivial) (fun _ => trivial) rfl
  obtain ⟨out, hq, hout⟩ := replyOf?_some hreply
  refine ⟨aloudTurn.2.2, es, aloudTurn.2.1, out, aloudTurn.1, hrun, hq, ?_⟩
  rw [hout]
  intro hcov
  have hno := List.any_eq_false.mp htest
  have hopening : ¬ Opening aloudTurn.2.2 "secret" := by
    rintro ⟨agentId, config, opening, hmem, ho, -⟩
    refine hno _ hmem ?_
    show config.openingMessage.isSome = true
    rw [ho]
    rfl
  obtain ⟨e, he, hs⟩ := (hcov (by decide) hopening).starts
  exact hno e he hs.outboundOrOpening

end Greentic.Aw
