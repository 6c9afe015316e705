import GreenticRunner.AgentSessionProofs
import GreenticRunner.TruncationProofs

/-! # Where the answer of a parked call lands

    The answer of a parked call is written to the LATEST assistant turn that makes a call of
    its id.  That is the turn the call was made in, as long as no turn in between makes
    another call of that id.

    * `Marked.answer` — the answer changes the result of the call and nothing else;
    * `answer_lands` — in every run of turns in which the model does not use the id again;
    * `reused_lands_late` — a side turn that does. -/

namespace Greentic.Aw

open Resumption

/-! ## The turn of a call -/

/-- The turn of the call `c` in a history: its results are `rs`, and no turn of `y`, what follows
    them, makes a call of that id. -/
structure MarkedAt (c content : String) (calls : List ToolCallRecord) (ms x : List ChatMessage)
    (rs : List (String × Json)) (y : List ChatMessage) : Prop where
  view : TurnView ms x.length x content calls rs y
  makes : c ∈ callIds calls
  later : ∀ m ∈ y, m.makesCall c = false

/-- The history holds the turn of the call. -/
def Marked (c content : String) (calls : List ToolCallRecord) (ms : List ChatMessage) : Prop :=
  ∃ x rs y, MarkedAt c content calls ms x rs y

/-- The results of a turn with the one of `c` replaced, or added when there is none. -/
def answerResult (rs : List (String × Json)) (c : String) (v : Json) : List (String × Json) :=
  match rs.findIdx? fun r => r.1 == c with
  | some j => rs.set j (c, v)
  | none => rs ++ [(c, v)]

/-- A result with a note about the files that came with the answer. -/
def noted (v : Json) (count : Nat) : Json := if count = 0 then v else announce v count

section Marks

variable {c content : String} {calls : List ToolCallRecord} {ms x y : List ChatMessage}
  {rs : List (String × Json)} {D : ConversationState → Prop}

theorem makesCall_iff : (ChatMessage.assistant content calls).makesCall c = true ↔
    c ∈ callIds calls := by
  rw [ChatMessage.makesCall, List.any_eq_true, callIds, List.mem_map]
  constructor
  · rintro ⟨call, hcall, hid⟩
    exact ⟨call, hcall, eq_of_beq hid⟩
  · rintro ⟨call, hcall, rfl⟩
    exact ⟨call, hcall, beq_self_eq_true _⟩

theorem latestAssistantWith_none (h : ∀ m ∈ ms, m.makesCall c = false) :
    latestAssistantWith c ms = none := by
  induction ms with
  | nil => rfl
  | cons m ms ih =>
      have hm := h m (List.mem_cons_self ..)
      rw [latestAssistantWith, ih fun n hn => h n (List.mem_cons_of_mem _ hn)]
      simp [hm]

namespace MarkedAt

/-- The turn is the latest one of that id. -/
theorem latest (h : MarkedAt c content calls ms x rs y) :
    latestAssistantWith c ms = some x.length := by
  have hrest : latestAssistantWith c (toolResults rs ++ y) = none := by
    rw [latestAssistantWith_toolResults, latestAssistantWith_none h.later]
    rfl
  rw [h.view.view]
  exact latestAssistantWith_append_none hrest x (makesCall_iff.mpr h.makes)

/-- The answer is written where the call was made. -/
theorem patch {s : ConversationState} (h : MarkedAt c content calls s.messages x rs y) (v : Json) :
    (s.patchToolResult c v).messages =
      x ++ .assistant content calls :: (toolResults (answerResult rs c v) ++ y) := by
  rw [ConversationState.patchToolResult, h.latest]
  dsimp only
  rw [h.view.existingResult_eq, answerResult]
  cases hj : rs.findIdx? fun r => r.1 == c with
  | none => exact h.view.insert_last_eq c v
  | some j =>
      obtain ⟨r, hr, -⟩ := findIdx?_result hj
      exact h.view.set_eq (List.getElem?_eq_some_iff.mp hr).1 c v

/-- The history after the answer holds the turn too. -/
theorem patched {s : ConversationState} (h : MarkedAt c content calls s.messages x rs y) (v : Json) :
    MarkedAt c content calls (s.patchToolResult c v).messages x (answerResult rs c v) y :=
  ⟨⟨h.patch v, rfl, h.view.stop⟩, h.makes, h.later⟩

end MarkedAt

/-- An answered call has its answer. -/
theorem findIdx?_answerResult (rs : List (String × Json)) (c : String) (v : Json) :
    ∃ j, (answerResult rs c v).findIdx? (fun r => r.1 == c) = some j ∧
      (answerResult rs c v)[j]? = some (c, v) ∧
      ∀ w, (answerResult rs c v).set j (c, w) = answerResult rs c w := by
  rw [answerResult]
  cases hj : rs.findIdx? fun r => r.1 == c with
  | none =>
      refine ⟨rs.length, ?_, ?_, ?_⟩
      · rw [List.findIdx?_append, hj]
        simp
      · simp
      · intro w
        rw [answerResult, hj]
        simp
  | some j =>
      obtain ⟨hlt, hr, hfirst⟩ := List.findIdx?_eq_some_iff_getElem.mp hj
      refine ⟨j, ?_, ?_, ?_⟩
      · refine List.findIdx?_eq_some_iff_getElem.mpr ⟨by simpa using hlt, by simp, ?_⟩
        intro i hi
        have := hfirst i hi
        simpa [List.getElem_set, Nat.ne_of_gt hi] using this
      · simp [hlt]
      · intro w
        rw [answerResult, hj]
        simp

/-- THE ANSWER of the call, with its note, changes the result of the call and nothing else. -/
theorem MarkedAt.answer {s : ConversationState} (h : MarkedAt c content calls s.messages x rs y)
    (v : Json) (count : Nat) :
    ((s.patchToolResult c v).announceUnreadAttachments c count).messages =
      x ++ .assistant content calls :: (toolResults (answerResult rs c (noted v count)) ++ y) := by
  have hp := h.patched v
  rw [ConversationState.announceUnreadAttachments, noted]
  by_cases hcount : count = 0
  · rw [if_pos hcount, if_pos hcount]
    exact h.patch v
  · rw [if_neg hcount, if_neg hcount, hp.latest]
    dsimp only
    rw [hp.view.existingResult_eq]
    obtain ⟨j, hj, hget, hset⟩ := findIdx?_answerResult rs c v
    have hlt := (List.getElem?_eq_some_iff.mp hget).1
    have hslot : (s.patchToolResult c v).messages[x.length + 1 + j]? = some (.tool c v) := by
      rw [← List.getElem?_drop, hp.view.drop_eq, List.getElem?_append_left (by simpa [toolResults])]
      simp [toolResults, hget]
    simp only [hj, Option.map_some, announceAt, hslot]
    rw [hp.view.set_eq hlt, hset]

/-! ## What a turn does around it -/

/-- One message more that makes no call of the id. -/
theorem Marked.push (h : Marked c content calls ms) {m : ChatMessage} (hm : m.makesCall c = false) :
    Marked c content calls (ms ++ [m]) := by
  obtain ⟨x, rs, y, ⟨hview, -, hstop⟩, hmakes, hlater⟩ := h
  by_cases hrun : y = [] ∧ m.isTool = true
  · -- the run of results goes on
    obtain ⟨rfl, htool⟩ := hrun
    obtain ⟨id, v, rfl⟩ : ∃ id v, m = .tool id v := by
      cases m with
      | tool id v => exact ⟨id, v, rfl⟩
      | _ => exact nomatch htool
    refine ⟨x, rs ++ [(id, v)], [], ⟨?_, rfl, fun _ h => nomatch h⟩, hmakes, hlater⟩
    rw [hview]
    simp [toolResults]
  · refine ⟨x, rs, y ++ [m], ⟨?_, rfl, ?_⟩, hmakes, ?_⟩
    · rw [hview]
      simp
    · cases y with
      | nil =>
          intro m' hm'
          cases hm'
          exact Bool.eq_false_iff.mpr fun h => hrun ⟨rfl, h⟩
      | cons n y => exact hstop
    · intro m' hm'
      rcases List.mem_append.mp hm' with hm' | hm'
      · exact hlater m' hm'
      · rw [List.mem_singleton.mp hm']
        exact hm

theorem Marked.append_results (h : Marked c content calls ms) (rs' : List (String × Json)) :
    Marked c content calls (ms ++ toolResults rs') := by
  induction rs' generalizing ms with
  | nil =>
      rw [toolResults, List.map_nil, List.append_nil]
      exact h
  | cons r rs' ih =>
      have hsplit : ms ++ toolResults (r :: rs') = (ms ++ [.tool r.1 r.2]) ++ toolResults rs' := by
        simp [toolResults]
      rw [hsplit]
      exact ih (h.push rfl)

/-- The placeholder goes to the results of the turn. -/
theorem Marked.placeholder {s s' : ConversationState} {p : PendingToolCall}
    (h : Marked c content calls s.messages) (hp : s.pendingTool = some p) (hc : p.callId = c)
    (hs : s.ensurePlaceholder = some s') : Marked c content calls s'.messages := by
  obtain ⟨x, rs, y, hat⟩ := h
  subst hc
  rw [ConversationState.ensurePlaceholder, hp] at hs
  dsimp only at hs
  rw [hat.latest] at hs
  dsimp only at hs
  cases he : existingResult s.messages x.length p.callId with
  | some slot =>
      rw [he] at hs
      cases hs
      exact ⟨x, rs, y, hat⟩
  | none =>
      rw [he] at hs
      cases hs
      exact ⟨x, (p.callId, awaitingPlaceholder) :: rs, y,
        ⟨hat.view.insert_first_eq _ _, rfl, hat.view.stop⟩, hat.makes, hat.later⟩

/-! ## Truncation around it -/

theorem prunedTurns_append (protectedId : Option String) (cut : Nat)
    (ts us : List (List ChatMessage)) :
    prunedTurns protectedId cut (ts ++ us) =
      prunedTurns protectedId cut ts ++ prunedTurns protectedId (cut - ts.length) us := by
  induction ts generalizing cut with
  | nil => simp [prunedTurns]
  | cons t ts ih =>
      cases cut with
      | zero => simp
      | succ cut =>
          rw [List.cons_append, prunedTurns_succ, prunedTurns_succ, ih, List.append_assoc,
            List.length_cons, Nat.add_sub_add_right]

/-- A turn that holds the protected call stays where it is. -/
theorem prunedTurns_held {protectedId : Option String} {t : List ChatMessage}
    (h : holdsCall protectedId t = true) (cut : Nat) (ts : List (List ChatMessage)) :
    ∃ cut', prunedTurns protectedId cut (t :: ts) = t ++ prunedTurns protectedId cut' ts := by
  cases cut with
  | zero => exact ⟨0, by simp⟩
  | succ cut =>
      refine ⟨cut, ?_⟩
      rw [prunedTurns_succ, pruneTurn, if_pos h]

/-- What is left of turns was there. -/
theorem prunedTurns_sublist (protectedId : Option String) (cut : Nat)
    (ts : List (List ChatMessage)) : (prunedTurns protectedId cut ts).Sublist ts.flatten := by
  induction ts generalizing cut with
  | nil => simp [prunedTurns]
  | cons t ts ih =>
      cases cut with
      | zero => simp
      | succ cut =>
          rw [prunedTurns_succ, List.flatten_cons]
          refine List.Sublist.append ?_ (ih cut)
          rw [pruneTurn]
          split
          · exact List.Sublist.refl _
          · exact List.filter_sublist

/-- What is left of later turns does not open with a result. -/
theorem prunedTurns_head (protectedId : Option String) (cut : Nat) {ts : List (List ChatMessage)}
    (h : ∀ t ∈ ts, opensWithUser t) :
    ∀ m ∈ (prunedTurns protectedId cut ts).head?, m.isTool = false := by
  induction ts generalizing cut with
  | nil => simp [prunedTurns]
  | cons t ts ih =>
      obtain ⟨u, span, rfl, hu⟩ := h t (List.mem_cons_self ..)
      have hnot : u.isTool = false := by
        cases u with
        | user _ _ => rfl
        | _ => cases hu
      cases cut with
      | zero =>
          intro m hm
          cases hm
          exact hnot
      | succ cut =>
          rw [prunedTurns_succ, pruneTurn]
          split
          · intro m hm
            cases hm
            exact hnot
          · intro m hm
            cases hf : (u :: span).filter ChatMessage.isSystem with
            | nil =>
                rw [hf] at hm
                exact ih cut (fun t ht => h t (List.mem_cons_of_mem _ ht)) m hm
            | cons n rest =>
                rw [hf] at hm
                have heq : n = m := Option.some.inj hm
                subst heq
                have hn : n ∈ (u :: span).filter ChatMessage.isSystem := by rw [hf]; simp
                have hsys := (List.mem_filter.mp hn).2
                cases n with
                | system _ => rfl
                | _ => cases hsys

/-- The turn of the history that the assistant message lies in. -/
theorem turn_of_assistant {ms x tail : List ChatMessage} {a : ChatMessage}
    (hms : ms = x ++ a :: tail) (ha : a.isSystem = false) :
    ∃ ts t₁ t₂ us, turnsOf ms = ts ++ (t₁ ++ a :: t₂) :: us ∧
      x = ms.takeWhile ChatMessage.isSystem ++ ts.flatten ++ t₁ ∧ tail = t₂ ++ us.flatten := by
  have hlead := lead_system ms
  have hflat := flatten_turnsOf ms
  generalize ms.takeWhile ChatMessage.isSystem = lead at hlead hflat ⊢
  -- the message lies behind the system messages in front
  obtain ⟨x', rfl, hx'⟩ : ∃ x', x = lead ++ x' ∧ (turnsOf ms).flatten = x' ++ a :: tail := by
    rcases List.append_eq_append_iff.mp (hflat.trans hms) with ⟨d, hd, hrest⟩ | ⟨d, hd, hrest⟩
    · exact ⟨d, hd, hrest⟩
    · cases d with
      | nil => exact ⟨[], by simpa using hd.symm, by simpa using hrest.symm⟩
      | cons b d =>
          have hb : a = b := (List.cons.inj hrest).1
          rw [hb, hlead b (by rw [hd]; simp)] at ha
          exact nomatch ha
  rcases List.flatten_eq_append_iff.mp hx' with ⟨ts, us, hts, rfl, hus⟩ | ⟨ts, t₁, b, t₂, us, hts, rfl, hus⟩
  · cases us with
    | nil => exact nomatch hus
    | cons u us =>
        -- a turn is not empty
        obtain ⟨v, span, rfl, -⟩ := ((turnRow_turnsOf ms).turn u (by rw [hts]; simp)).view
        obtain ⟨rfl, hspan⟩ := List.cons.inj hus
        exact ⟨ts, [], span, us, hts, by simp, hspan⟩
  · obtain ⟨rfl, hrest⟩ := List.cons.inj hus
    exact ⟨ts, t₁, t₂, us, hts, by simp, hrest⟩

/-- TRUNCATION keeps the turn and its results. -/
theorem Marked.truncate (h : Marked c content calls ms) (max : Nat) :
    Marked c content calls (truncateMessages (some c) max ms.length ms) := by
  obtain ⟨x, rs, y, ⟨hview, -, hstop⟩, hmakes, hlater⟩ := h
  obtain ⟨cut, -, hout, -⟩ := (truncated (some c) max ms).oldest
  obtain ⟨ts, t₁, t₂, us, hts, hx, htail⟩ := turn_of_assistant hview rfl
  have hrow := turnRow_turnsOf ms
  rw [hts] at hrow
  have hus : ∀ u ∈ us, opensWithUser u := by
    intro u hu
    refine hrow.user u ?_
    cases ts with
    | nil => exact hu
    | cons t ts => simp [hu]
  have hspan : ∀ m ∈ t₂, m.isUser = false := by
    obtain ⟨v, span, heq, -, hspan⟩ :=
      (hrow.turn (t₁ ++ .assistant content calls :: t₂) (by simp)).view
    intro m hm
    cases t₁ with
    | nil =>
        rw [← (List.cons.inj heq).2] at hspan
        exact hspan m hm
    | cons n t₁ =>
        rw [← (List.cons.inj heq).2] at hspan
        exact hspan m (by simp [hm])
  have hheld : holdsCall (some c) (t₁ ++ .assistant content calls :: t₂) = true := by
    refine List.any_eq_true.mpr ⟨.assistant content calls, by simp, ?_⟩
    rw [holdsProtected, makesCall_iff.mpr hmakes, Bool.true_or]
  -- the results lie in the turn
  obtain ⟨y₁, rfl, rfl⟩ : ∃ y₁, t₂ = toolResults rs ++ y₁ ∧ y = y₁ ++ us.flatten := by
    rcases List.append_eq_append_iff.mp htail with ⟨d, hd, hrest⟩ | ⟨d, hd, hrest⟩
    · exact ⟨d, hd, hrest⟩
    · cases d with
      | nil => exact ⟨[], by simpa using hd.symm, by simpa using hrest.symm⟩
      | cons m d =>
          -- the next turn would open with a result
          have hm : m ∈ toolResults rs := by rw [hd]; simp
          cases us with
          | nil => exact nomatch hrest
          | cons u us =>
              obtain ⟨v, span, rfl, hv⟩ := hus u (List.mem_cons_self ..)
              obtain ⟨rfl, -⟩ := List.cons.inj hrest
              rw [not_user_of_mem_toolResults hm] at hv
              exact nomatch hv
  obtain ⟨cut', hcut'⟩ := prunedTurns_held hheld (cut - ts.length) us
  refine ⟨ms.takeWhile ChatMessage.isSystem ++ prunedTurns (some c) cut ts ++ t₁, rs,
    y₁ ++ prunedTurns (some c) cut' us, ⟨?_, rfl, ?_⟩, hmakes, ?_⟩
  · rw [hout, pruned, hts, prunedTurns_append, hcut']
    simp
  · cases y₁ with
    | nil => exact prunedTurns_head (some c) cut' hus
    | cons n y₁ => exact hstop
  · intro m hm
    refine hlater m ?_
    rcases List.mem_append.mp hm with hm | hm
    · exact List.mem_append_left _ hm
    · exact List.mem_append_right _ ((prunedTurns_sublist _ _ _).mem hm)

/-! ## The conversation in a turn -/

/-- The event makes no call of the id `c`: no response of the model does, and no id that is made
    for a call without one is `c`. -/
def Avoids (c : String) : Ev → Prop
  | ⟨.complete _, .response response⟩ => ∀ call ∈ response.toolCalls, call.callId ≠ c
  | ⟨.newUuid _, uuid⟩ => "call_" ++ uuid ≠ c
  | _ => True

/-- As long as the call `c` is parked, the history holds its turn. -/
def Holds (c content : String) (calls : List ToolCallRecord) (s : ConversationState) : Prop :=
  ∀ p, s.pendingTool = some p → p.callId = c → Marked c content calls s.messages

/-- The events of a turn that made no call of the id; `D` holds of the conversations it loaded. -/
structure Away (c : String) (D : ConversationState → Prop) (h : List Ev) : Prop where
  avoids : ∀ e ∈ h, Avoids c e
  loads : ∀ s, ⟨.load, .ok s⟩ ∈ h → D s

/-- What a turn saves. -/
def HoldGuard (c content : String) (calls : List ToolCallRecord) (D : ConversationState → Prop)
    (h : List Ev) : Ev → Prop
  | ⟨.save state, _⟩ => Away c D h → Holds c content calls state
  | _ => True

theorem Away.left {h evs : List Ev} (ha : Away c D (h ++ evs)) :
    Away c D h :=
  ⟨fun e he => ha.avoids e (List.mem_append_left _ he),
    fun s hs => ha.loads s (List.mem_append_left _ hs)⟩

namespace Holds

variable {s : ConversationState}

theorem of_none (h : s.pendingTool = none) : Holds c content calls s := by
  intro p hp
  rw [h] at hp
  exact nomatch hp

theorem push (h : Holds c content calls s) {m : ChatMessage} (hm : m.makesCall c = false) :
    Holds c content calls (s.push m) :=
  fun p hp hc => (h p hp hc).push hm

/-- A shorter history still holds the call. -/
theorem truncate (h : Holds c content calls s) (n : Nat) :
    Holds c content calls (s.truncateHistory n) := by
  intro p hp hc
  have hmarked := (h p hp hc).truncate n
  have hid : s.pendingTool.map (·.callId) = some c := by
    rw [show s.pendingTool = some p from hp, Option.map_some, hc]
  rw [ConversationState.truncateHistory, hid]
  exact hmarked

/-- The conversation after the parked call was dealt with. -/
theorem taken (h : Holds c content calls s) (payload : Option Json) (now : Int)
    (policy : ParkedTextPolicy) : Holds c content calls (s.takePending payload now policy).1 := by
  rw [ConversationState.takePending]
  cases hp : s.pendingTool with
  | none => exact h
  | some p =>
      have hdone : Holds c content calls (s.resumeOrCancel p payload now).1 := by
        refine of_none ?_
        unfold ConversationState.resumeOrCancel
        split
        · simp [ConversationState.cancelPending]
        · split
          · rfl
          · simp [ConversationState.cancelPending]
      dsimp only
      split
      · split
        · rename_i s' hs'
          intro q hq hc
          cases hq
          have hc' : p.callId = c := hc
          show Marked c content calls s'.messages
          exact (h p hp hc').placeholder hp hc' hs'
        · exact hdone
      · exact hdone

end Holds

/-! ## The loop around it -/

/-- The conversation in memory after the events `h` of a turn. -/
def HeldAt (c content : String) (calls : List ToolCallRecord) (D : ConversationState → Prop)
    (h : List Ev) (s : ConversationState) : Prop :=
  Away c D h → Holds c content calls s

/-- Whatever happens next. -/
theorem HeldAt.append {h : List Ev} {s : ConversationState} (hs : HeldAt c content calls D h s)
    (evs : List Ev) : HeldAt c content calls D (h ++ evs) s :=
  fun ha => hs ha.left

theorem holdGuard_toolOp {rt : AgentRuntime} (h : List Ev) (e : Ev) (he : ToolOp rt e.1) :
    HoldGuard c content calls D h e := by
  obtain ⟨i, r⟩ := e
  cases i <;> first
    | exact False.elim he
    | exact trivial

theorem holdGuard_evaluate (h : List Ev) (e : Ev) (he : IsEvaluate e) :
    HoldGuard c content calls D h e := by
  obtain ⟨i, r⟩ := e
  cases i <;> first
    | exact False.elim he
    | exact trivial

/-- The ids of a batch are not `c`. -/
theorem ensureUniqueCallIds_avoids {ok : List Ev → Ev → Prop} (hok : ∀ h seen r,
    ok h ⟨.newUuid seen, r⟩) : ∀ (batch : List ToolCallRecord) (seen : List String) (h : List Ev),
      (ensureUniqueCallIds seen batch).Traced ok (fun h' r => (∃ evs, h' = h ++ evs) ∧
        ∀ batch', r = .ok batch' → (∀ e ∈ h', Avoids c e) →
          (∀ call ∈ batch, call.callId ≠ c) → c ∉ callIds batch') h := by
  intro batch
  induction batch with
  | nil =>
      intro seen h
      refine ⟨⟨[], (List.append_nil h).symm⟩, ?_⟩
      rintro batch' hr - -
      cases hr
      exact fun hc => (by cases hc)
  | cons call rest ih =>
      intro seen h
      rw [ensureUniqueCallIds]
      split
      · rw [Prog.perform_bind]
        intro uuid
        refine ⟨hok _ _ _, ?_⟩
        refine Prog.Traced.bind ?_ ?_ (ih _ _)
        · rintro h' batch' ⟨⟨evs, rfl⟩, hids⟩
          refine ⟨⟨_, List.append_assoc ..⟩, ?_⟩
          rintro batch'' hr ha hbatch hc
          cases hr
          rcases List.mem_cons.mp hc with hc | hc
          · exact ha ⟨.newUuid seen, uuid⟩ (by simp) hc.symm
          · exact hids batch' rfl ha (fun d hd => hbatch d (List.mem_cons_of_mem _ hd)) hc
        · rintro h' e ⟨⟨evs, rfl⟩, -⟩
          exact ⟨⟨_, List.append_assoc ..⟩, fun _ hr => (by cases hr)⟩
      · refine Prog.Traced.bind ?_ ?_ (ih _ _)
        · rintro h' batch' ⟨happ, hids⟩
          refine ⟨happ, ?_⟩
          rintro batch'' hr ha hbatch hc
          cases hr
          rcases List.mem_cons.mp hc with hc | hc
          · exact hbatch call (List.mem_cons_self ..) hc.symm
          · exact hids batch' rfl ha (fun d hd => hbatch d (List.mem_cons_of_mem _ hd)) hc
        · rintro h' e ⟨happ, -⟩
          exact ⟨happ, fun _ hr => (by cases hr)⟩

/-- The call a batch parks is one of its own. -/
theorem runCalls_parks (x : StepEnv) :
    ∀ (batch : List ToolCallRecord) (l : StepState) (h : List Ev),
      (runCalls x batch l).Traced (fun _ _ => True) (fun _ r => ∀ l', r = .ok l' →
        l'.state.pendingTool = l.state.pendingTool ∨
          ∃ p, l'.state.pendingTool = some p ∧ p.callId ∈ callIds batch) h := by
  intro batch
  induction batch with
  | nil =>
      intro l h l' hr
      cases hr
      exact .inl rfl
  | cons call rest ih =>
      intro l h
      rw [runCalls]
      refine Prog.Traced.bind ?_ ?_ (runCall_traced (fun _ _ _ => trivial) l call h)
      · rintro h₁ l₁ ⟨evs, l₁', hr, rfl, -, hcalled⟩
        cases hr
        refine Prog.Traced.mono ?_ (ih l₁ (h ++ evs))
        intro h' r hpost l' hr
        rcases hpost l' hr with hsame | ⟨p, hp, hid⟩
        · cases hcalled with
          | answered _ _ hpending => exact .inl (hsame.trans hpending)
          | parked p _ _ hpending hid =>
              exact .inr ⟨p, hsame.trans hpending, by rw [hid]; exact List.mem_cons_self ..⟩
        · exact .inr ⟨p, hp, List.mem_cons_of_mem _ hid⟩
      · rintro h' e ⟨evs, l₁', hr, -⟩
        cases hr

/-- The result of a part of the turn. -/
def HoldPost (c content : String) (calls : List ToolCallRecord) (D : ConversationState → Prop)
    (h' : List Ev) (r : Except AgentError (StepState × Bool)) : Prop :=
  ∀ l' again, r = .ok (l', again) → HeldAt c content calls D h' l'.state

/-- A BATCH of calls with other ids leaves the turn of `c` where it is. -/
theorem act_holds {x : StepEnv} {h : List Ev} {l : StepState} {text : Option String}
    {batch : List ToolCallRecord} (hl : HeldAt c content calls D h l.state)
    (hbatch : Away c D h → c ∉ callIds batch) :
    (act x l text batch).Traced (HoldGuard c content calls D) (HoldPost c content calls D) h := by
  rw [act]
  refine Prog.Traced.bind ?_ ?_ (Prog.Traced.weaken (fun _ _ hok => hok.1) (Prog.Traced.and
    (runCalls_traced holdGuard_toolOp batch _ h)
    (runCalls_parks x batch _ h)))
  · rintro h' l' ⟨⟨evs, l'', hr, rfl, -, hcalls⟩, hparks⟩
    cases hr
    have hheld : HeldAt c content calls D (h ++ evs) l'.state := by
      intro ha p hp hc
      have hnot := hbatch ha.left
      rcases hparks l' rfl with hsame | ⟨q, hq, hid⟩
      · have hmade : (ChatMessage.assistant (text.getD "") batch).makesCall c = false :=
          Bool.eq_false_iff.mpr fun h => hnot (makesCall_iff.mp h)
        have hbefore := (hl ha.left p (hsame.symm.trans hp) hc).push hmade
        cases hcalls with
        | answered rs hm =>
            rw [hm]
            exact hbefore.append_results rs
        | parked _ _ rs hm =>
            rw [hm]
            exact hbefore.append_results rs
      · -- the call that parked here has another id
        rw [hp] at hq
        cases hq
        rw [hc] at hid
        exact absurd hid hnot
    split
    · rintro l'' again ⟨⟩
      exact hheld
    · split
      · rintro l'' again ⟨⟩
        exact hheld
      · rintro l'' again ⟨⟩
        exact hheld
  · rintro h' e ⟨⟨evs, l'', hr, -⟩, -⟩
    cases hr

/-- A response keeps it. -/
theorem respond_holds {x : StepEnv} {h : List Ev} {l : StepState} {response : LlmResponse}
    {history : List ChatMessage} (hl : HeldAt c content calls D h l.state) :
    (respond x l response).Traced (HoldGuard c content calls D) (HoldPost c content calls D)
      (h ++ [⟨.complete history, .response response⟩]) := by
  rw [respond]
  split
  · rintro l' again ⟨⟩
    exact hl.append _
  · refine Prog.Traced.bind ?_ ?_ (ensureUniqueCallIds_avoids (c := c) (fun _ _ _ => trivial) _ _ _)
    · rintro h' batch ⟨⟨evs, rfl⟩, hids⟩
      cases (if x.convActive then batch.find? (isHostTool · endConversationTool) else none) with
      | some endCall =>
          rintro l' again ⟨⟩
          exact (hl.append _).append _
      | none =>
          refine act_holds (l := { l with
              tokensIn := l.tokensIn + response.tokensIn
              tokensOut := l.tokensOut + response.tokensOut
              trail := _ }) ((hl.append _).append _) ?_
          intro ha
          exact hids batch rfl ha.avoids
            (ha.avoids ⟨.complete history, .response response⟩ (by simp))
    · rintro h' e -
      exact fun _ _ hr => (by cases hr)

theorem ensureLockHeld_holds (h : List Ev) : ensureLockHeld.Traced (HoldGuard c content calls D)
    (fun h' _ => ∃ evs, h' = h ++ evs) h := by
  rw [ensureLockHeld, Prog.perform_bind]
  intro r
  refine ⟨trivial, ?_⟩
  rcases r with er | u
  · cases er <;> exact ⟨_, rfl⟩
  · exact ⟨_, rfl⟩

/-- A failure of the model saves the history as it was sent. -/
theorem llmFailed_holds {x : StepEnv} {h : List Ev} {l : StepState}
    (hl : HeldAt c content calls D h l.state) (e : LlmError) :
    (llmFailed x l e).Traced (HoldGuard c content calls D) (HoldPost c content calls D) h := by
  have hsave : ∀ r, (Prog.call (Op.save (l.bounded x)) fun _ => .ret () : Turn Unit).Traced
      (HoldGuard c content calls D) (fun _ _ => True) (h ++ [⟨.refresh, r⟩]) :=
    fun r r' => ⟨fun ha => (hl ha.left).truncate _, trivial⟩
  have hheld : (saveIfHeld x l).Traced (HoldGuard c content calls D) (fun _ _ => True) h := by
    rw [saveIfHeld, Prog.perform_bind]
    intro r
    refine ⟨trivial, ?_⟩
    rcases r with er | u
    · cases er with
      | lockLost => exact trivial
      | _ => exact hsave _
    · exact hsave _
  cases e <;> refine Prog.Traced.bind ?_ ?_ hheld
  all_goals exact fun _ _ _ _ _ hr => (by cases hr)

/-- ONE ROUND of the loop. -/
theorem iteration_holds {x : StepEnv} {h : List Ev} {l : StepState}
    (hl : HeldAt c content calls D h l.state) :
    (iteration x l).Traced (HoldGuard c content calls D) (HoldPost c content calls D) h := by
  rw [iteration]
  refine Prog.Traced.bind ?_ ?_ (ensureLockHeld_holds h)
  · rintro h₁ u ⟨evs, rfl⟩
    rw [Prog.perform_bind]
    intro n
    refine ⟨trivial, ?_⟩
    have hl₁ := (hl.append evs).append [⟨.elapsed, n⟩]
    beta_reduce
    split
    · rintro l' again ⟨⟩
      exact hl₁
    · rw [Prog.perform_bind]
      intro r
      refine ⟨trivial, ?_⟩
      have hl₂ : HeldAt c content calls D (h ++ evs ++ [⟨.elapsed, n⟩]) (l.bounded x) :=
        fun ha => (hl₁ ha).truncate _
      cases r with
      | timedOut =>
          rintro l' again ⟨⟩
          exact hl₂.append _
      | error e => exact llmFailed_holds (l := { l with state := _ }) (hl₂.append _) e
      | response response => exact respond_holds (l := { l with state := l.bounded x }) hl₂
  · rintro h' e -
    exact fun _ _ hr => (by cases hr)

/-- THE LOOP. -/
theorem planActObserve_holds {x : StepEnv} :
    ∀ (n iter : Nat) (l : StepState) (h : List Ev), HeldAt c content calls D h l.state →
      (planActObserve x n iter l).Traced (HoldGuard c content calls D)
        (fun h' r => ∀ l', r = .ok l' → HeldAt c content calls D h' l'.state) h := by
  intro n
  induction n with
  | zero =>
      rintro iter l h hl l' ⟨⟩
      exact hl
  | succ n ih =>
      intro iter l h hl
      rw [planActObserve]
      refine Prog.Traced.bind ?_ ?_ (iteration_holds (l := { l with iterations := iter + 1 }) hl)
      · rintro h' ⟨l', again⟩ hpost
        have hl' := hpost l' again rfl
        cases again with
        | true => exact ih (iter + 1) l' h' hl'
        | false =>
            rintro l'' ⟨⟩
            exact hl'
      · rintro h' e -
        exact fun _ hr => (by cases hr)

/-! ## The turn around it -/

theorem saveAndReturn_holds {x : StepEnv} {h : List Ev} {l : StepState} (sideTurn : Bool)
    (hl : HeldAt c content calls D h l.state) :
    (saveAndReturn x l sideTurn).Traced (HoldGuard c content calls D) (fun _ _ => True) h := by
  rw [saveAndReturn]
  refine Prog.Traced.bind ?_ (fun _ _ _ => trivial) (ensureLockHeld_holds h)
  rintro h' u ⟨evs, rfl⟩
  rw [Prog.perform_bind]
  intro r
  exact ⟨fun ha => (hl ha.left).truncate _, trivial⟩

theorem finishSideTurn_holds {x : StepEnv} {h : List Ev} {l : StepState}
    (hl : HeldAt c content calls D h l.state) :
    HeldAt c content calls D h (l.finishSideTurn x).1.state := by
  obtain ⟨-, -, hstate | hnone, -⟩ := finishSideTurn_spec x l
  · rw [hstate]
    exact hl
  · exact fun _ => .of_none hnone

/-- So does the end of the turn. -/
theorem finish_holds {x : StepEnv} {h : List Ev} {l : StepState}
    (hl : HeldAt c content calls D h l.state) :
    (finish x l).Traced (HoldGuard c content calls D) (fun _ _ => True) h := by
  have hreply : (finishReply x l).Traced (HoldGuard c content calls D) (fun _ _ => True) h := by
    rw [finishReply]
    refine Prog.Traced.bind ?_ (fun _ _ _ => trivial) (runChainBlocking_traced holdGuard_evaluate
      x.ctx x.chain .outbound l.reply (h := h) trivial)
    rintro h' reply ⟨evs, rfl, -⟩
    refine saveAndReturn_holds _ ?_
    exact fun ha => (finishSideTurn_holds hl ha.left).push rfl
  rw [finish]
  cases l.terminatedBy with
  | finalReply => exact hreply
  | conversationEnded => exact hreply
  | _ => exact saveAndReturn_holds _ (finishSideTurn_holds hl)

/-- And a turn for a message. -/
theorem messageTurn_holds {x : StepEnv} {h : List Ev} {s : ConversationState}
    (hs : HeldAt c content calls D h s) (trail : List AgentStep) (message : AgentInput) :
    (messageTurn x s trail message).Traced (HoldGuard c content calls D) (fun _ _ => True) h := by
  rw [messageTurn]
  refine Prog.Traced.bind ?_ (fun _ _ _ => trivial) (runChainBlocking_traced holdGuard_evaluate
    x.ctx x.chain .inbound message.text (h := h) trivial)
  rintro h' text ⟨evs, rfl, -⟩
  refine Prog.Traced.bind ?_ (fun _ _ _ => trivial) (planActObserve_holds _ _ _ _ ?_)
  · exact fun h' l hpost => finish_holds (hpost l rfl)
  · exact fun ha => (hs ha.left).push rfl

/-- A resume ends the call, or it stays parked under its id. -/
theorem resumeStep_holds {h : List Ev} {s : ConversationState} {p : PendingToolCall}
    (hs : HeldAt c content calls D h s) (hp : s.pendingTool = some p) (payload : Json) (count : Nat) :
    (resumeStep (.start { s with pendingTool := none } []) p payload count).Traced
      (HoldGuard c content calls D)
      (fun h' r => ∀ l', r = .ok l' → HeldAt c content calls D h' l'.state) h := by
  intro r
  refine ⟨trivial, ?_⟩
  have hended : ∀ (h' : List Ev) (result : Json) (l : StepState), l.suspension = none →
      l.state = { s with pendingTool := none } →
      (resumeCompleted l p result >>= fun l =>
        (return (if l.suspension.isSome then { l with terminatedBy := .awaitingToolInput }
          else l).noteAttachments p count : Turn StepState)).Traced (HoldGuard c content calls D)
        (fun h' r => ∀ l', r = .ok l' → HeldAt c content calls D h' l'.state) h' := by
    intro h' result l hsus hl r
    refine ⟨trivial, ?_⟩
    rintro l' ⟨⟩
    simp only [hsus, Option.isSome_none, Bool.false_eq_true, if_false]
    rw [noteAttachments_none rfl]
    exact fun _ => .of_none (by
      simp only [announceUnreadAttachments_pendingTool, patchToolResult_pendingTool, hl])
  rcases r with _ | result | ⟨snapshot, presentation⟩
  · exact hended _ _ _ rfl rfl
  · exact hended _ _ _ rfl rfl
  · -- the call waits again under its id
    intro now
    refine ⟨trivial, ?_⟩
    rintro l' ⟨⟩
    intro ha q hq hc
    cases hq
    exact hs ha.left.left p hp hc

theorem guardrailChain_holds (config : AgentConfig) (h : List Ev) :
    (guardrailChain config).Traced (HoldGuard c content calls D) (fun h' _ => ∃ evs, h' = h ++ evs)
      h := by
  rw [guardrailChain, Prog.perform_bind]
  intro registry
  refine ⟨trivial, ?_⟩
  beta_reduce
  rw [Prog.perform_bind]
  intro r
  refine ⟨trivial, ?_⟩
  cases r with
  | error e => exact ⟨_, List.append_assoc ..⟩
  | ok mandatory =>
      cases hch : assembleChain registry mandatory config.guardrails with
      | error unresolved =>
          simp only [hch]
          exact ⟨_, List.append_assoc ..⟩
      | ok chain =>
          simp only [hch]
          exact ⟨_, List.append_assoc ..⟩

theorem converseTaken_holds {rt : AgentRuntime} {config : AgentConfig} {h : List Ev}
    {s s' : ConversationState} {taken : Taken} (hs : HeldAt c content calls D h s)
    (hs' : HeldAt c content calls D h s') (hcases : TakenFrom s s' taken) (ctx : GuardrailRunCtx)
    (message : AgentInput) :
    (converseTaken rt config ctx message s' taken).Traced (HoldGuard c content calls D)
      (fun _ _ => True) h := by
  rw [converseTaken]
  refine Prog.Traced.bind ?_ (fun _ _ _ => trivial) (guardrailChain_holds config h)
  rintro h' chain ⟨evs, rfl⟩
  cases hcases with
  | nothing _ _ => exact messageTurn_holds (hs'.append evs) _ _
  | cancelled _ _ => exact messageTurn_holds (hs'.append evs) _ _
  | side _ _ _ _ => exact messageTurn_holds (hs'.append evs) _ _
  | @resume p payload hp heq =>
      cases heq
      refine Prog.Traced.bind ?_ (fun _ _ _ => trivial)
        (resumeStep_holds (hs.append evs) hp payload message.attachments.length)
      intro h' l hl
      refine Prog.Traced.bind ?_ (fun _ _ _ => trivial) (planActObserve_holds _ _ _ _ (hl l rfl))
      exact fun h' l hpost => finish_holds (hpost l rfl)

theorem underLock_holds {rt : AgentRuntime} {config : AgentConfig}
    (hD : ∀ s, D s → Holds c content calls s) (h : List Ev)
    (ctx : GuardrailRunCtx) (message : AgentInput) :
    (underLock rt config ctx message).Traced (HoldGuard c content calls D) (fun _ _ => True) h := by
  rw [underLock, Prog.perform_bind]
  intro r
  refine ⟨trivial, ?_⟩
  cases r with
  | error e => exact trivial
  | ok s =>
      have hs : HeldAt c content calls D (h ++ [⟨.load, .ok s⟩]) s :=
        fun ha => hD s (ha.loads s (List.mem_append_right _ (List.mem_singleton.mpr rfl)))
      cases ho : opening? config message s with
      | some opening =>
          simp only [ho]
          rw [openConversation, Prog.perform_bind]
          exact fun r => ⟨fun ha => (hs ha).push rfl, trivial⟩
      | none =>
          simp only [ho]
          rw [converse, Prog.perform_bind]
          intro now
          refine ⟨trivial, ?_⟩
          refine converseTaken_holds (hs.append _) ?_ (takePending_cases s message.resumePayload now
            config.onTextWhileParked) ctx message
          exact fun ha => (hs ha.left).taken _ _ _

theorem checkBudgets_holds (config : AgentConfig) (h : List Ev) :
    (checkBudgets config).Traced (HoldGuard c content calls D) (fun _ _ => True) h := by
  have hcap : (checkTokenCap config).Traced (HoldGuard c content calls D) (fun _ _ => True) h := by
    rw [checkTokenCap]
    split
    · exact trivial
    · rename_i cap _
      rw [Prog.perform_bind]
      intro r
      refine ⟨trivial, ?_⟩
      cases r with
      | error e => exact trivial
      | ok used =>
          beta_reduce
          by_cases hcap : cap ≤ used
          · simp only [hcap, if_true]
            exact trivial
          · simp only [hcap, if_false]
            exact trivial
  rw [checkBudgets]
  refine Prog.Traced.bind ?_ (fun _ _ _ => trivial) hcap
  intro h' u _
  rw [Prog.perform_bind]
  intro exceeded
  refine ⟨trivial, ?_⟩
  cases exceeded <;> exact trivial

/-- THE TURN: it saves a conversation that holds the turn of the parked call, as long as it
    makes no call of that id. -/
theorem runStep_holds (hD : ∀ s, D s → Holds c content calls s) (rt : AgentRuntime) (tenant : TenantContext) (sessionId agentId : String)
    (message : AgentInput) :
    (runStep rt tenant sessionId agentId message).Traced (HoldGuard c content calls D)
      (fun _ _ => True) [] := by
  rw [runStep, Prog.perform_bind]
  intro r
  refine ⟨trivial, ?_⟩
  cases r with
  | error e => exact trivial
  | ok config =>
      refine Prog.Traced.bind ?_ (fun _ _ _ => trivial) (checkBudgets_holds config _)
      intro h u _
      rw [Prog.perform_bind]
      intro r
      refine ⟨trivial, ?_⟩
      cases r with
      | error e => exact trivial
      | ok u =>
          exact Prog.Traced.ensure (Q := fun _ _ => True) (fun _ _ _ _ => trivial)
            (fun _ _ _ _ => trivial) (underLock_holds hD _ _ message)

end Marks

/-! ## Runs of turns -/

section Runs

variable {rt : AgentRuntime} {tenant : TenantContext} {sessionId c content : String}
  {calls : List ToolCallRecord}

/-- The stored conversation and the events of a turn that has made no call of the id. -/
structure AwayInv (c content : String) (calls : List ToolCallRecord) (w : TurnWorld) : Prop where
  stored : (∀ e ∈ w.2, Avoids c e) → Holds c content calls w.1
  away : (∀ e ∈ w.2, Avoids c e) → Away c (Holds c content calls) w.2

theorem AwayInv.step {W : Ev → Prop} {w w' : TurnWorld} {ev : Ev} (hi : AwayInv c content calls w)
    (he : execTurn W ev.1 w ev.2 w') (hok : HoldGuard c content calls (Holds c content calls) w.2 ev) :
    AwayInv c content calls w' := by
  obtain ⟨-, hst, hevs⟩ := he
  have hleft : (∀ e ∈ w'.2, Avoids c e) → ∀ e ∈ w.2, Avoids c e := by
    intro ha e hmem
    exact ha e (by rw [hevs]; exact List.mem_append_left _ hmem)
  constructor
  · intro ha
    have hs := hi.stored (hleft ha)
    obtain ⟨i, r⟩ := ev
    cases i with
    | load => rw [hst.1]; exact hs
    | save state =>
        rcases hst with heq | ⟨heq, -⟩
        · rw [heq]
          exact hok (hi.away (hleft ha))
        · rw [heq]
          exact hs
    | _ => rw [show w'.1 = w.1 from hst]; exact hs
  · intro ha
    refine ⟨ha, ?_⟩
    intro s hs
    rw [hevs] at hs
    rcases List.mem_append.mp hs with hs | hs
    · exact (hi.away (hleft ha)).loads s hs
    · obtain ⟨i, r⟩ := ev
      cases List.mem_singleton.mp hs
      rcases hst.2 s rfl with heq | heq
      · rw [heq]
        exact hi.stored (hleft ha)
      · rw [heq]
        exact .of_none rfl

/-- A turn that makes no call of the id keeps the turn of the parked call in the history. -/
theorem Holds.turn {W : Ev → Prop} {s s' : ConversationState} {evs es : List Ev} {q : TurnThread}
    (hs : Holds c content calls s) (agentId : String) (message : AgentInput)
    (hrun : Run (execTurn W) (Main.lift (runStep rt tenant sessionId agentId message)) (s, [])
      es q (s', evs)) (ha : ∀ e ∈ evs, Avoids c e) : Holds c content calls s' := by
  have hinv : AwayInv c content calls (s, []) :=
    ⟨fun _ => hs, fun _ => ⟨(fun _ he => nomatch he), (fun _ hl => nomatch hl)⟩⟩
  have hrun' := Prog.Traced.run (f := fun w : TurnWorld => w.2)
    (I := AwayInv c content calls) (fun i s r s' he => he.2.2)
    (fun w ev w' hi he hok => hi.step he hok) hrun
    (runStep_holds (fun _ hs => hs) rt tenant sessionId agentId message) hinv
  exact hrun'.1.stored ha

/-- Turns of a session in which the call `c` of the turn `content`, `calls` parked, and in which
    no turn since makes another call of that id. -/
inductive ParkedTurns (rt : AgentRuntime) (tenant : TenantContext) (sessionId : String)
    (W : Ev → Prop) (c content : String) (calls : List ToolCallRecord) :
    ConversationState → Prop where
  | parks {s : ConversationState} {log : List Ev} {p : PendingToolCall} {x : List ChatMessage}
      {rs : List (String × Json)} (h : Turns rt tenant sessionId W (fun _ => True) s log)
      (hp : s.pendingTool = some p) (hc : p.callId = c) (hmakes : c ∈ callIds calls)
      (hm : s.messages = x ++ .assistant content calls :: toolResults rs) :
      ParkedTurns rt tenant sessionId W c content calls s
  | turn {s s' : ConversationState} {evs es : List Ev} {q : TurnThread}
      {r : Except AgentError AgentOutput} (h : ParkedTurns rt tenant sessionId W c content calls s)
      (agentId : String) (message : AgentInput)
      (hrun : Run (execTurn W) (Main.lift (runStep rt tenant sessionId agentId message)) (s, [])
        es q (s', evs))
      (hq : q.outcome? = some r) (ha : ∀ e ∈ evs, Avoids c e) :
      ParkedTurns rt tenant sessionId W c content calls s'

theorem ParkedTurns.holds {W : Ev → Prop} {s : ConversationState}
    (h : ParkedTurns rt tenant sessionId W c content calls s) : Holds c content calls s := by
  induction h with
  | @parks s log p x rs _ hp hc hmakes hm =>
      intro q hq _
      refine ⟨x, rs, [], ⟨?_, rfl, fun _ h => nomatch h⟩, hmakes, fun _ h => nomatch h⟩
      rw [List.append_nil]
      exact hm
  | turn _ agentId message hrun _ ha ih => exact ih.turn agentId message hrun ha

/-- The answer `v` of the call went from the one history to the other: it is the result of the
    call right after its turn, and every other message is as it was. -/
def Lands (c content : String) (calls : List ToolCallRecord) (ms ms' : List ChatMessage)
    (v : Json) : Prop :=
  ∃ x rs y, MarkedAt c content calls ms x rs y ∧
    ms' = x ++ .assistant content calls :: (toolResults (answerResult rs c v) ++ y)

/-- The result of a resume that ended the call. -/
def resumeResult? (p : PendingToolCall) : Option FlowInvokeOutcome → Option Json
  | none => some (errorValue s!"unknown flow tool '{p.flowRef}'")
  | some (.completed result) => some result
  | some (.waiting _ _) => none

/-- The ways a parked call is answered. -/
structure AnswersLand (c content : String) (calls : List ToolCallRecord) (s : ConversationState)
    (p : PendingToolCall) : Prop where
  /-- it is cancelled before a message is answered -/
  cancelled : ∀ reason, Lands c content calls s.messages (s.cancelPending p reason).messages
    (noted (cancelledResult reason) p.unannouncedAttachments)
  /-- its flow is resumed and ends -/
  resumed : ∀ payload count answer es l result, resumeResult? p answer = some result →
    (resumeStep (.start { s with pendingTool := none } []) p payload count).Ran
      (⟨.resumeFlow p.flowRef p.flowSnapshot payload, answer⟩ :: es) (.ok l) →
    Lands c content calls s.messages l.state.messages
      (noted result (p.unannouncedAttachments + count))
  /-- the conversation ends in a side turn -/
  ended : ∀ env payload now policy s' text attachments n es l q,
    s.takePending payload now policy = (s', .side) →
    (planActObserve env n 0 (.start (s'.push (.user text attachments)) [])).Ran es (.ok l) →
    (∀ e ∈ es, Avoids c e) → l.state.pendingTool = some q → q.callId = c →
    Lands c content calls l.state.messages
      (l.state.finishSideTurn .conversationEnded l.suspension).1.messages
      (cancelledResult "the conversation ended")

/-- A resume that ended the call. -/
theorem resumeStep_ran {s : ConversationState} {p : PendingToolCall} {payload : Json} {count : Nat}
    {answer : Option FlowInvokeOutcome} {es : List Ev} {l : StepState} {result : Json}
    (hresult : resumeResult? p answer = some result)
    (hran : (resumeStep (.start { s with pendingTool := none } []) p payload count).Ran
      (⟨.resumeFlow p.flowRef p.flowSnapshot payload, answer⟩ :: es) (.ok l)) :
    l.state = ({ s with pendingTool := none }.patchToolResult p.callId
      result).announceUnreadAttachments p.callId (p.unannouncedAttachments + count) := by
  have hended : ∀ v, (resumeCompleted { StepState.start { s with pendingTool := none } [] with
        iterations := p.iterationsUsed } p v >>= fun l =>
        (return (if l.suspension.isSome then { l with terminatedBy := .awaitingToolInput }
          else l).noteAttachments p count : Turn StepState)).Ran es (.ok l) →
      l.state = ({ s with pendingTool := none }.patchToolResult p.callId
        v).announceUnreadAttachments p.callId (p.unannouncedAttachments + count) := by
    intro v hran
    cases hran with
    | call r hran =>
        cases hran
        rw [noteAttachments_none rfl]
        rfl
  cases hran with
  | call r hran =>
      rcases answer with _ | value | ⟨snapshot, presentation⟩
      · cases hresult
        exact hended _ hran
      · cases hresult
        exact hended _ hran
      · exact nomatch hresult

/-- **THE ANSWER LANDS**: in every run in which no turn since the park makes another call of the
    id, however the parked call is answered, the answer is the result of the call right after
    its turn, and every other message is as it was. -/
theorem answer_lands {W : Ev → Prop} {s : ConversationState} {p : PendingToolCall}
    (h : ParkedTurns rt tenant sessionId W c content calls s) (hp : s.pendingTool = some p)
    (hc : p.callId = c) : AnswersLand c content calls s p := by
  obtain ⟨x, rs, y, hat⟩ := h.holds p hp hc
  subst hc
  constructor
  · intro reason
    exact ⟨x, rs, y, hat, MarkedAt.answer (s := { s with pendingTool := none }) hat _ _⟩
  · intro payload count answer es l result hresult hran
    refine ⟨x, rs, y, hat, ?_⟩
    rw [resumeStep_ran hresult hran]
    exact MarkedAt.answer (s := { s with pendingTool := none }) hat _ _
  · intro env payload now policy s' text attachments n es l q hside hran ha hq hid
    have hs' : Holds p.callId content calls (s'.push (.user text attachments)) := by
      have htaken := h.holds.taken payload now policy
      rw [hside] at htaken
      exact htaken.push rfl
    have hloop := (planActObserve_holds (D := fun _ => True) (x := env) n 0
      (.start (s'.push (.user text attachments)) []) [] (fun _ => hs')).ran hran l rfl
    obtain ⟨x', rs', y', hat'⟩ := hloop ⟨ha, fun _ _ => trivial⟩ q hq hid
    refine ⟨x', rs', y', hat', ?_⟩
    rw [ConversationState.finishSideTurn, if_pos rfl, hq]
    dsimp only
    rw [hid]
    exact MarkedAt.patch (s := { l.state with pendingTool := none }) hat' _

end Runs

/-! ## A question beside the form -/

/-- An agent with the form and a lookup that answers questions while the form is open. -/
def asideConfig : AgentConfig :=
  ⟨[⟨"flow:form", "form"⟩, ⟨"crm", "find"⟩], [], AgentLimits.default, false, false, false,
    .sideTurn, none⟩

/-- The call of the form. -/
def formCall : ToolCallRecord := ⟨"1", "flow:form", "form", .null⟩

/-- The model calls the form; asked something else, it looks that up under the id `id`. -/
def askAside (id : String) (history : List ChatMessage) : Completion :=
  if history.length = 1 then .response ⟨none, [formCall], 0, 0⟩
  else if (history.getLast?.map ChatMessage.isUser) = some true then
    .response ⟨none, [⟨id, "crm", "find", .null⟩], 0, 0⟩
  else .response ⟨some "found", [], 0, 0⟩

/-- One turn of that agent. -/
def asideTurn (id : String) (s : ConversationState) : TurnThread × TurnWorld :=
  playTurn (granting asideConfig (askAside id) (fun _ => .accept)
    (some (.waiting formSnapshot .null)) (some (.completed .null))) 40
    (chatStep (plainInput "hi")) s

/-- The form is asked for. -/
def asideParked : ConversationState := (asideTurn "2" .empty).2.1

/-- The form is open, and the lookup of a side turn ran under the id `id`. -/
def asideAsked (id : String) : TurnThread × TurnWorld := asideTurn id asideParked

/-- The history after the side turn; `form` is the result of the form, `find` that of the lookup. -/
def asideHistory (id : String) (form find : Json) : List ChatMessage :=
  [.user "hi" [], .assistant "" [formCall], .tool "1" form, .user "hi" [],
    .assistant "" [⟨id, "crm", "find", .null⟩], .tool id find, .assistant "found" []]

/-- The event makes a call of the id. -/
def makes (c : String) : Ev → Bool
  | ⟨.complete _, .response response⟩ => response.toolCalls.any fun call => call.callId == c
  | ⟨.newUuid _, uuid⟩ => "call_" ++ uuid == c
  | _ => false

theorem avoids_of_makes {c : String} {evs : List Ev} (h : evs.any (makes c) = false) :
    ∀ e ∈ evs, Avoids c e := by
  intro e he
  have hnot : makes c e = false :=
    Bool.eq_false_iff.mpr fun ht => Bool.eq_false_iff.mp h (List.any_eq_true.mpr ⟨e, he, ht⟩)
  obtain ⟨i, r⟩ := e
  cases i with
  | complete history =>
      cases r with
      | response response =>
          intro call hcall heq
          apply Bool.eq_false_iff.mp hnot
          exact List.any_eq_true.mpr ⟨call, hcall, beq_iff_eq.mpr heq⟩
      | _ => exact trivial
  | newUuid seen => exact fun heq => Bool.eq_false_iff.mp hnot (beq_iff_eq.mpr heq)
  | _ => exact trivial

theorem asideParked_turns : ∃ log, ChatTurns (fun _ => True) (fun _ => True) asideParked log :=
  ⟨_, Turns.start.played (fun _ => trivial) (fun _ => trivial) (fun _ => trivial) "desk" _ 40
    (by decide +kernel) trivial⟩

set_option maxRecDepth 20000 in
theorem answer_lands_aside : ∃ p, (asideAsked "2").2.1.pendingTool = some p ∧ p.callId = "1" ∧
    AnswersLand "1" "" [formCall] (asideAsked "2").2.1 p := by
  obtain ⟨log, hturns⟩ := asideParked_turns
  have hmessages : asideParked.messages = [.user "hi" []] ++ .assistant "" [formCall] ::
      toolResults [("1", awaitingPlaceholder)] := rfl
  have hparked : ParkedTurns (plainRuntime fun _ => []) ⟨"demo", "prod"⟩ "chat" (fun _ => True) "1"
      "" [formCall] asideParked :=
    .parks hturns rfl rfl (List.mem_cons_self ..) hmessages
  obtain ⟨es, hrun⟩ := playTurn_run (W := fun _ => True) (fun _ => trivial) (fun _ => trivial)
    (fun _ => trivial) (t := asideAsked "2") rfl
  have hasked := hparked.turn "desk" (plainInput "hi") hrun rfl (avoids_of_makes (by decide +kernel))
  exact ⟨_, rfl, rfl, answer_lands hasked rfl rfl⟩

set_option maxRecDepth 20000 in
/-- A SIDE TURN under the id of the form: the answer of the form goes to the lookup, and the
    form stays open. -/
theorem reused_lands_late : ∃ log p,
    ChatTurns (fun _ => True) (fun _ => True) (asideAsked "1").2.1 log ∧
      asideParked.messages = (asideHistory "1" awaitingPlaceholder .null).take 3 ∧
      (asideAsked "1").2.1.messages = asideHistory "1" awaitingPlaceholder .null ∧
      (asideAsked "1").2.1.pendingTool = some p ∧ p.call = formCall ∧
      ∀ reason, ((asideAsked "1").2.1.cancelPending p reason).messages =
        asideHistory "1" awaitingPlaceholder (cancelledResult reason) := by
  obtain ⟨log, hturns⟩ := asideParked_turns
  refine ⟨_, _, hturns.played (fun _ => trivial) (fun _ => trivial) (fun _ => trivial) "desk" _ 40
    (by decide +kernel) trivial, rfl, rfl, rfl, rfl, fun _ => rfl⟩

end Greentic.Aw