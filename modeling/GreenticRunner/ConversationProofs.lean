import GreenticRunner.ConversationModel

/-! # The history keeps calls and results together

    A history is PAIRED when every assistant turn that makes calls is followed at once
    by one result for each of its calls, and there is no other result.

    * `Paired`, `OpenAt`, `WellShaped` — paired, one result short at the end, and what a
      stored conversation looks like;
    * `WellShaped.truncateHistory` — truncation removes whole turns only;
    * `WellShaped.patch`, `WellShaped.placeholder` — the result of a parked call closes
      the history again. -/

namespace Greentic.Aw

/-! ## Paired histories -/

/-- A message that makes no call and is no result. -/
def ChatMessage.isPlain : ChatMessage → Bool
  | .system _ => true
  | .user _ _ => true
  | .assistant _ toolCalls => toolCalls.isEmpty
  | .tool _ _ => false

/-- The results of calls, by call id. -/
def toolResults (rs : List (String × Json)) : List ChatMessage :=
  rs.map fun r => .tool r.1 r.2

/-- The ids of a batch of calls. -/
def callIds (calls : List ToolCallRecord) : List String := calls.map (·.callId)

/-- The results `rs` answer the calls, each once. -/
structure Answered (calls : List ToolCallRecord) (rs : List (String × Json)) : Prop where
  perm : (rs.map (·.1)).Perm (callIds calls)
  nodup : (callIds calls).Nodup

/-- Every assistant turn with calls is followed by one result for each of them, and
    there is no other result. -/
inductive Paired : List ChatMessage → Prop where
  | nil : Paired []
  | plain {m : ChatMessage} {rest : List ChatMessage} (hm : m.isPlain = true)
      (h : Paired rest) : Paired (m :: rest)
  | group {content : String} {calls : List ToolCallRecord} {rs : List (String × Json)}
      {rest : List ChatMessage} (hne : calls ≠ []) (ha : Answered calls rs) (h : Paired rest) :
      Paired (.assistant content calls :: (toolResults rs ++ rest))

/-- An assistant turn whose results lack exactly the one of `id`. -/
def OpenAt (id : String) (t : List ChatMessage) : Prop :=
  ∃ content calls rs, t = .assistant content calls :: toolResults rs ∧
    (callIds calls).Nodup ∧ (id :: rs.map (·.1)).Perm (callIds calls)

/-- A paired history, up to a last part `t`. -/
def PairedUpTo (t ms : List ChatMessage) : Prop := ∃ x, ms = x ++ t ∧ Paired x

/-- What a stored conversation looks like: paired, or only the result of the parked
    call is missing, at the end. -/
def WellShaped (s : ConversationState) : Prop :=
  Paired s.messages ∨
    ∃ p t, s.pendingTool = some p ∧ OpenAt p.callId t ∧ PairedUpTo t s.messages

/-- Two paired conversations, one after the other. -/
theorem Paired.append {a b : List ChatMessage} (ha : Paired a) (hb : Paired b) :
    Paired (a ++ b) := by
  induction ha with
  | nil => exact hb
  | plain hm _ ih => exact .plain hm ih
  | group hne hans _ ih =>
      rw [List.cons_append, List.append_assoc]
      exact .group hne hans ih

theorem Paired.single {m : ChatMessage} (hm : m.isPlain = true) : Paired [m] :=
  .plain hm .nil

/-- A paired history does not start with a result. -/
theorem Paired.head {ms : List ChatMessage} (h : Paired ms) :
    ∀ m ∈ ms.head?, m.isTool = false := by
  intro m hm
  cases h with
  | nil => exact nomatch hm
  | @plain n _ hn _ =>
      have : n = m := Option.some.inj hm
      subst this
      cases n with
      | tool _ _ => exact nomatch hn
      | _ => rfl
  | group _ _ _ =>
      have := Option.some.inj hm
      subst this
      rfl

theorem not_user_of_mem_toolResults {rs : List (String × Json)} {m : ChatMessage}
    (h : m ∈ toolResults rs) : m.isUser = false := by
  obtain ⟨r, -, rfl⟩ := List.mem_map.mp h
  rfl

/-- A paired history can be cut in front of a user message. -/
theorem Paired.cut_user {a b : List ChatMessage} {u : ChatMessage} (hu : u.isUser = true)
    (h : Paired (a ++ u :: b)) : Paired a ∧ Paired (u :: b) := by
  generalize hms : a ++ u :: b = ms at h
  induction h generalizing a with
  | nil => exact absurd hms (by simp)
  | @plain m rest hm hrest ih =>
      cases a with
      | nil =>
          cases hms
          exact ⟨.nil, .plain hm hrest⟩
      | cons m' a =>
          cases hms
          obtain ⟨h1, h2⟩ := ih rfl
          exact ⟨.plain hm h1, h2⟩
  | @group content calls rs rest hne ha hrest ih =>
      cases a with
      | nil =>
          cases hms
          exact nomatch hu
      | cons m' a =>
          have htail : a ++ u :: b = toolResults rs ++ rest := (List.cons.inj hms).2
          have hm' : m' = .assistant content calls := (List.cons.inj hms).1
          subst hm'
          rcases List.append_eq_append_iff.mp htail with ⟨c, hc1, hc2⟩ | ⟨c, hc1, hc2⟩
          · -- the user message would be a result
            cases c with
            | nil =>
                obtain ⟨h1, h2⟩ := ih (a := []) hc2
                rw [List.append_nil] at hc1
                rw [← hc1]
                have hgroup : Paired (.assistant content calls :: (toolResults rs ++ [])) :=
                  .group hne ha .nil
                rw [List.append_nil] at hgroup
                exact ⟨hgroup, h2⟩
            | cons v c =>
                have huv : u = v := (List.cons.inj hc2).1
                subst huv
                have hmem : u ∈ toolResults rs := by rw [hc1]; simp
                rw [not_user_of_mem_toolResults hmem] at hu
                exact nomatch hu
          · obtain ⟨h1, h2⟩ := ih hc2.symm
            rw [hc1]
            exact ⟨.group hne ha h1, h2⟩

/-- System messages are paired. -/
theorem Paired.of_system {a : List ChatMessage} (ha : ∀ m ∈ a, m.isSystem = true) :
    Paired a := by
  induction a with
  | nil => exact .nil
  | cons m a ih =>
      refine .plain ?_ (ih fun n hn => ha n (List.mem_cons_of_mem _ hn))
      have hm := ha m (List.mem_cons_self ..)
      cases m with
      | system _ => rfl
      | _ => exact nomatch hm

/-! ## Truncation -/

/-- What `oldest_removable_turn` finds: a span from `v` on, which is a user message or has
    only system messages before it, up to the user message `u`. -/
structure Removable (ms : List ChatMessage) (start stop : Nat) : Prop where
  view : ∃ x v span u y, ms = x ++ v :: span ++ u :: y ∧ u.isUser = true ∧
    v.isSystem = false ∧ x.length = start ∧ (x ++ v :: span).length = stop ∧
    ((∀ m ∈ x, m.isSystem = true) ∨ v.isUser = true)

theorem oldestRemovableTurn_spec (protectedId : Option String) :
    ∀ (rest pre : List ChatMessage) (turn : Option (Nat × Bool)) (start stop : Nat),
      (match turn with
        | none => ∀ m ∈ pre, m.isSystem = true
        | some (i, _) => ∃ x v span, pre = x ++ v :: span ∧ v.isSystem = false ∧ x.length = i ∧
            ((∀ m ∈ x, m.isSystem = true) ∨ v.isUser = true)) →
      oldestRemovableTurn protectedId pre.length turn rest = some (start, stop) →
      Removable (pre ++ rest) start stop := by
  intro rest
  induction rest with
  | nil =>
      intro pre turn start stop _ h
      cases turn <;> exact nomatch h
  | cons m rest ih =>
      intro pre turn start stop hturn h
      have hlen : (pre ++ [m]).length = pre.length + 1 := by simp
      have happ : pre ++ m :: rest = (pre ++ [m]) ++ rest := by simp
      rw [happ]
      cases turn with
      | none =>
          simp only [oldestRemovableTurn] at h
          by_cases hm : m.isSystem = true
          · rw [if_pos hm, ← hlen] at h
            refine ih _ none start stop ?_ h
            intro n hn
            rcases List.mem_append.mp hn with hn | hn
            · exact hturn n hn
            · rw [List.mem_singleton.mp hn]; exact hm
          · rw [if_neg hm, ← hlen] at h
            exact ih _ (some (pre.length, _)) start stop
              ⟨pre, m, [], rfl, Bool.eq_false_iff.mpr hm, rfl, .inl hturn⟩ h
      | some t =>
          obtain ⟨i, held⟩ := t
          obtain ⟨x, v, span, hpre, hv, hx, hstart⟩ := hturn
          simp only [oldestRemovableTurn] at h
          by_cases hm : m.isUser = true
          · have hnot : m.isSystem = false := by
              cases m with
              | user _ _ => rfl
              | _ => exact nomatch hm
            rw [if_pos hm] at h
            cases held with
            | true =>
                rw [if_pos rfl, ← hlen] at h
                exact ih _ (some (pre.length, _)) start stop
                  ⟨pre, m, [], rfl, hnot, rfl, .inr hm⟩ h
            | false =>
                have hres : (i, pre.length) = (start, stop) := Option.some.inj h
                cases hres
                refine ⟨x, v, span, m, rest, ?_, hm, hv, hx, by rw [hpre], hstart⟩
                rw [hpre]
                simp
          · rw [if_neg hm, ← hlen] at h
            refine ih _ (some (i, _)) start stop ⟨x, v, span ++ [m], ?_, hv, hx, hstart⟩ h
            rw [hpre, List.append_assoc]
            rfl

/-- The messages without a removable turn. -/
theorem removeTurn_eq {x span y : List ChatMessage} {start stop : Nat} (hx : x.length = start)
    (hs : (x ++ span).length = stop) :
    removeTurn (x ++ span ++ y) start stop = x ++ span.filter ChatMessage.isSystem ++ y := by
  have hdrop : (x ++ span).drop start = span := by rw [← hx]; exact List.drop_left
  have htake : (x ++ span ++ y).take start = x := by
    rw [List.append_assoc, ← hx]
    exact List.take_left
  rw [removeTurn, htake, ← hs, List.take_left, List.drop_left, hdrop]

/-- A round of the truncation removes a message. -/
theorem Removable.length_lt {ms : List ChatMessage} {start stop : Nat}
    (h : Removable ms start stop) : (removeTurn ms start stop).length < ms.length := by
  obtain ⟨x, v, span, u, y, rfl, -, hv, hx, hs, -⟩ := h.view
  have hle := List.length_filter_le ChatMessage.isSystem span
  rw [removeTurn_eq hx hs, List.filter_cons_of_neg (by rw [hv]; exact Bool.false_ne_true)]
  simp only [List.length_append, List.length_cons]
  omega

theorem Removable.of_oldest {protectedId : Option String} {ms : List ChatMessage}
    {start stop : Nat} (h : oldestRemovableTurn protectedId 0 none ms = some (start, stop)) :
    Removable ms start stop :=
  oldestRemovableTurn_spec protectedId ms [] none start stop (fun _ hm => nomatch hm) h

/-- The fuel of the truncation is enough: it stops at the limit, or when only protected
    turns are left. -/
theorem truncateMessages_stops (protectedId : Option String) (max : Nat) :
    ∀ (fuel : Nat) (ms : List ChatMessage), ms.length ≤ fuel →
      nonSystem (truncateMessages protectedId max fuel ms) ≤ max ∨
        oldestRemovableTurn protectedId 0 none (truncateMessages protectedId max fuel ms) =
          none := by
  intro fuel
  induction fuel with
  | zero =>
      intro ms h
      have : ms = [] := List.length_eq_zero_iff.mp (Nat.le_zero.mp h)
      subst this
      exact .inl (Nat.zero_le _)
  | succ fuel ih =>
      intro ms h
      simp only [truncateMessages]
      split
      · exact .inl ‹_›
      · cases hr : oldestRemovableTurn protectedId 0 none ms with
        | none => exact .inr hr
        | some span =>
            have hlt := (Removable.of_oldest hr).length_lt
            exact ih _ (by omega)

/-- Removing a turn keeps a history paired up to a last part without user messages. -/
theorem PairedUpTo.removeTurn {t ms : List ChatMessage} {start stop : Nat}
    (ht : ∀ m ∈ t, m.isUser = false) (h : PairedUpTo t ms) (hr : Removable ms start stop) :
    PairedUpTo t (removeTurn ms start stop) := by
  obtain ⟨p, hp, hpaired⟩ := h
  obtain ⟨x, v, span, u, y, hms, hu, hv, hx, hs, hstart⟩ := hr.view
  -- the user message after the span lies in the paired part
  have hsplit : ∃ y', p = x ++ v :: span ++ u :: y' ∧ y = y' ++ t := by
    have heq : p ++ t = (x ++ v :: span) ++ u :: y := by rw [← hp, hms]
    rcases List.append_eq_append_iff.mp heq with ⟨c, hc1, hc2⟩ | ⟨c, hc1, hc2⟩
    · have hmem : u ∈ t := by rw [hc2]; simp
      rw [ht u hmem] at hu
      exact nomatch hu
    · cases c with
      | nil =>
          have hmem : u ∈ t := by
            have : u :: y = t := by simpa using hc2
            rw [← this]; simp
          rw [ht u hmem] at hu
          exact nomatch hu
      | cons w c =>
          have huw : u = w := (List.cons.inj hc2).1
          subst huw
          exact ⟨c, hc1, (List.cons.inj hc2).2⟩
  obtain ⟨y', hy1, hy2⟩ := hsplit
  refine ⟨x ++ (v :: span).filter ChatMessage.isSystem ++ u :: y', ?_, ?_⟩
  · rw [hms, removeTurn_eq hx hs, hy2]
    simp
  · rw [hy1] at hpaired
    obtain ⟨h1, h2⟩ := hpaired.cut_user hu
    have hxp : Paired x := by
      rcases hstart with hsys | hv
      · exact Paired.of_system hsys
      · exact (h1.cut_user hv).1
    refine (hxp.append (Paired.of_system ?_)).append h2
    intro m hm
    exact (List.mem_filter.mp hm).2

/-- A shorter history stays paired. -/
theorem PairedUpTo.truncateMessages {t : List ChatMessage} (ht : ∀ m ∈ t, m.isUser = false)
    (protectedId : Option String) (max : Nat) :
    ∀ (fuel : Nat) (ms : List ChatMessage), PairedUpTo t ms →
      PairedUpTo t (truncateMessages protectedId max fuel ms) := by
  intro fuel
  induction fuel with
  | zero => intro ms h; exact h
  | succ fuel ih =>
      intro ms h
      simp only [Aw.truncateMessages]
      split
      · exact h
      · cases hr : oldestRemovableTurn protectedId 0 none ms with
        | none => exact h
        | some span =>
            exact ih _ (h.removeTurn ht (.of_oldest hr))

theorem pairedUpTo_nil {ms : List ChatMessage} : PairedUpTo [] ms ↔ Paired ms := by
  constructor
  · rintro ⟨x, rfl, hx⟩
    rw [List.append_nil]
    exact hx
  · intro h
    exact ⟨ms, (List.append_nil _).symm, h⟩

/-- So does a truncated conversation. -/
theorem Paired.truncateHistory {s : ConversationState} (h : Paired s.messages) (n : Nat) :
    Paired (s.truncateHistory n).messages :=
  pairedUpTo_nil.mp (PairedUpTo.truncateMessages (t := []) (fun _ hm => nomatch hm) _ _ _ _
    (pairedUpTo_nil.mpr h))

/-- No user has spoken since the open call. -/
theorem OpenAt.no_user {id : String} {t : List ChatMessage} (h : OpenAt id t) :
    ∀ m ∈ t, m.isUser = false := by
  obtain ⟨content, calls, rs, rfl, -, -⟩ := h
  intro m hm
  rcases List.mem_cons.mp hm with rfl | hm
  · rfl
  · exact not_user_of_mem_toolResults hm

@[simp] theorem truncateHistory_pendingTool (s : ConversationState) (n : Nat) :
    (s.truncateHistory n).pendingTool = s.pendingTool := rfl

/-- **TRUNCATION KEEPS THE SHAPE.** -/
theorem WellShaped.truncateHistory {s : ConversationState} (h : WellShaped s) (n : Nat) :
    WellShaped (s.truncateHistory n) := by
  rcases h with h | ⟨p, t, hp, ht, hup⟩
  · exact .inl (h.truncateHistory n)
  · exact .inr ⟨p, t, hp, ht, hup.truncateMessages ht.no_user _ _ _⟩

/-! ## Writing the result of a call -/

theorem latestAssistantWith_toolResults (id : String) (rs : List (String × Json))
    (rest : List ChatMessage) :
    latestAssistantWith id (toolResults rs ++ rest) =
      (latestAssistantWith id rest).map (· + rs.length) := by
  induction rs with
  | nil => cases h : latestAssistantWith id rest <;> simp [toolResults, h]
  | cons r rs ih =>
      show latestAssistantWith id (.tool r.1 r.2 :: (toolResults rs ++ rest)) = _
      rw [latestAssistantWith, ih]
      cases latestAssistantWith id rest with
      | none => rfl
      | some i =>
          simp only [Option.map_some, List.length_cons]
          congr 1

theorem latestAssistantWith_append_none {id : String} {rest : List ChatMessage}
    (h : latestAssistantWith id rest = none) (x : List ChatMessage) {m : ChatMessage}
    (hm : m.makesCall id = true) : latestAssistantWith id (x ++ m :: rest) = some x.length := by
  induction x with
  | nil =>
      rw [List.nil_append, latestAssistantWith, h]
      exact if_pos hm
  | cons n x ih =>
      rw [List.cons_append, latestAssistantWith, ih]
      rfl

theorem insertIdx_append_length {α : Type} (a b : List α) (c : α) :
    (a ++ b).insertIdx a.length c = a ++ c :: b := by
  induction a with
  | nil => rfl
  | cons d a ih =>
      rw [List.cons_append, List.length_cons, List.insertIdx_succ_cons, ih]
      rfl

/-- The turn that `latest_assistant_with` finds in a history: its calls, the results at
    `rs` after it, and what follows. -/
structure TurnView (ms : List ChatMessage) (pos : Nat) (x : List ChatMessage) (content : String)
    (calls : List ToolCallRecord) (rs : List (String × Json)) (y : List ChatMessage) : Prop where
  view : ms = x ++ .assistant content calls :: (toolResults rs ++ y)
  pos_eq : x.length = pos
  stop : ∀ m ∈ y.head?, m.isTool = false

theorem takeWhile_toolResults (rs : List (String × Json)) {y : List ChatMessage}
    (hy : ∀ m ∈ y.head?, m.isTool = false) :
    (toolResults rs ++ y).takeWhile ChatMessage.isTool = toolResults rs := by
  induction rs with
  | nil =>
      cases y with
      | nil => rfl
      | cons m y =>
          show (m :: y).takeWhile ChatMessage.isTool = []
          rw [List.takeWhile_cons_of_neg]
          rw [hy m rfl]
          exact Bool.false_ne_true
  | cons r rs ih =>
      show (ChatMessage.tool r.1 r.2 :: (toolResults rs ++ y)).takeWhile ChatMessage.isTool = _
      rw [List.takeWhile_cons_of_pos (by rfl), ih]
      rfl

namespace TurnView

variable {ms x y : List ChatMessage} {pos : Nat} {content : String}
  {calls : List ToolCallRecord} {rs : List (String × Json)}

theorem drop_eq (h : TurnView ms pos x content calls rs y) :
    ms.drop (pos + 1) = toolResults rs ++ y := by
  rw [h.view, ← h.pos_eq, List.append_cons]
  exact List.drop_left' (by simp)

/-- The results of a turn end where they end. -/
theorem toolRunEnd_eq (h : TurnView ms pos x content calls rs y) :
    toolRunEnd ms pos = pos + 1 + rs.length := by
  rw [toolRunEnd, h.drop_eq, takeWhile_toolResults rs h.stop]
  simp [toolResults]

theorem slice_eq (h : TurnView ms pos x content calls rs y) :
    (ms.take (toolRunEnd ms pos)).drop (pos + 1) = toolResults rs := by
  have hlen : (toolResults rs).length = pos + 1 + rs.length - (pos + 1) := by
    rw [toolResults, List.length_map]
    omega
  rw [List.drop_take, h.drop_eq, h.toolRunEnd_eq, ← hlen]
  exact List.take_left

/-- A result is found by its id. -/
theorem existingResult_eq (h : TurnView ms pos x content calls rs y) (id : String) :
    existingResult ms pos id = (rs.findIdx? fun r => r.1 == id).map (pos + 1 + ·) := by
  rw [existingResult, h.slice_eq, toolResults, List.findIdx?_map]
  rfl

/-- A result that replaces the one at `j`. -/
theorem set_eq (h : TurnView ms pos x content calls rs y) {j : Nat} (hj : j < rs.length)
    (id : String) (c : Json) :
    ms.set (pos + 1 + j) (.tool id c) =
      x ++ .assistant content calls :: (toolResults (rs.set j (id, c)) ++ y) := by
  have hlen : j < (toolResults rs).length := by simpa [toolResults] using hj
  rw [h.view, ← h.pos_eq, List.set_append_right _ _ (by omega)]
  have hidx : x.length + 1 + j - x.length = j + 1 := by omega
  rw [hidx, List.set_cons_succ, List.set_append_left _ _ hlen]
  simp only [toolResults, List.map_set]

/-- A result after the others. -/
theorem insert_last_eq (h : TurnView ms pos x content calls rs y) (id : String) (c : Json) :
    ms.insertIdx (toolRunEnd ms pos) (.tool id c) =
      x ++ .assistant content calls :: (toolResults (rs ++ [(id, c)]) ++ y) := by
  have hview : ms = (x ++ .assistant content calls :: toolResults rs) ++ y := by
    rw [h.view]
    simp
  have hlen : (x ++ ChatMessage.assistant content calls :: toolResults rs).length =
      toolRunEnd ms pos := by
    rw [h.toolRunEnd_eq, ← h.pos_eq]
    simp [toolResults]
    omega
  rw [← hlen, hview, insertIdx_append_length]
  simp [toolResults]

/-- A result before the others. -/
theorem insert_first_eq (h : TurnView ms pos x content calls rs y) (id : String) (c : Json) :
    ms.insertIdx (pos + 1) (.tool id c) =
      x ++ .assistant content calls :: (toolResults ((id, c) :: rs) ++ y) := by
  have hview : ms = (x ++ [.assistant content calls]) ++ (toolResults rs ++ y) := by
    rw [h.view]
    simp
  have hlen : (x ++ [ChatMessage.assistant content calls]).length = pos + 1 := by
    rw [← h.pos_eq]
    simp
  rw [← hlen, hview, insertIdx_append_length]
  simp [toolResults]

end TurnView

/-- In a paired history every call that is found is answered. -/
theorem Paired.view {ms : List ChatMessage} {id : String} {pos : Nat} (h : Paired ms)
    (hpos : latestAssistantWith id ms = some pos) :
    ∃ x content calls rs y, TurnView ms pos x content calls rs y ∧ Paired x ∧ Paired y ∧
      calls ≠ [] ∧ Answered calls rs ∧ id ∈ callIds calls := by
  induction h generalizing pos with
  | nil => exact nomatch hpos
  | @plain m rest hm hrest ih =>
      rw [latestAssistantWith] at hpos
      cases hl : latestAssistantWith id rest with
      | none =>
          rw [hl] at hpos
          -- a plain message makes no call
          have hmakes : m.makesCall id = false := by
            cases m with
            | assistant content calls =>
                have : calls = [] := List.isEmpty_iff.mp hm
                subst this
                rfl
            | _ => rfl
          simp only [hmakes] at hpos
          exact nomatch hpos
      | some i =>
          rw [hl] at hpos
          have hpi : i + 1 = pos := Option.some.inj hpos
          obtain ⟨x, content, calls, rs, y, hv, hx, hy, hne, ha, hid⟩ := ih hl
          refine ⟨m :: x, content, calls, rs, y, ⟨?_, ?_, hv.stop⟩, .plain hm hx, hy, hne, ha, hid⟩
          · rw [hv.view]; rfl
          · rw [List.length_cons, hv.pos_eq, hpi]
  | @group content calls rs rest hne ha hrest ih =>
      rw [latestAssistantWith, latestAssistantWith_toolResults] at hpos
      cases hl : latestAssistantWith id rest with
      | none =>
          rw [hl] at hpos
          by_cases hmakes : (ChatMessage.assistant content calls).makesCall id = true
          · simp only [Option.map_none, hmakes, if_true] at hpos
            have hpos0 : 0 = pos := Option.some.inj hpos
            refine ⟨[], content, calls, rs, rest, ⟨rfl, hpos0, hrest.head⟩, .nil, hrest, hne, ha, ?_⟩
            obtain ⟨c, hc, hcid⟩ := List.any_eq_true.mp hmakes
            exact List.mem_map.mpr ⟨c, hc, eq_of_beq hcid⟩
          · simp only [Option.map_none, hmakes] at hpos
            exact nomatch hpos
      | some i =>
          rw [hl] at hpos
          have hpi : i + rs.length + 1 = pos := Option.some.inj hpos
          obtain ⟨x, content', calls', rs', y, hv, hx, hy, hne', ha', hid⟩ := ih hl
          refine ⟨.assistant content calls :: (toolResults rs ++ x), content', calls', rs', y,
            ⟨?_, ?_, hv.stop⟩, .group hne ha hx, hy, hne', ha', hid⟩
          · rw [hv.view]; simp
          · rw [← hpi, ← hv.pos_eq]
            simp [toolResults]
            omega

/-- The open turn at the end of a history is the one that is found. -/
theorem OpenAt.view {x t : List ChatMessage} {id : String} (h : OpenAt id t) :
    latestAssistantWith id (x ++ t) = some x.length ∧ ∃ content calls rs,
      TurnView (x ++ t) x.length x content calls rs [] ∧ (callIds calls).Nodup ∧
        (id :: rs.map (·.1)).Perm (callIds calls) := by
  obtain ⟨content, calls, rs, rfl, hnd, hperm⟩ := h
  have hmem : id ∈ callIds calls := hperm.subset (List.mem_cons_self ..)
  obtain ⟨c, hc, hcid⟩ := List.mem_map.mp hmem
  have hmakes : (ChatMessage.assistant content calls).makesCall id = true :=
    List.any_eq_true.mpr ⟨c, hc, by rw [hcid]; exact beq_self_eq_true _⟩
  have hrest : latestAssistantWith id (toolResults rs) = none := by
    have := latestAssistantWith_toolResults id rs []
    rw [List.append_nil] at this
    exact this
  refine ⟨latestAssistantWith_append_none hrest x hmakes, content, calls, rs, ?_, hnd, hperm⟩
  exact ⟨by rw [List.append_nil], rfl, fun _ hm => nomatch hm⟩

/-- The turn `x ++ assistant :: results ++ y`, once it is answered. -/
theorem Paired.of_view {x y : List ChatMessage} {content : String} {calls : List ToolCallRecord}
    {rs : List (String × Json)} (hx : Paired x) (hy : Paired y) (hne : calls ≠ [])
    (ha : Answered calls rs) : Paired (x ++ .assistant content calls :: (toolResults rs ++ y)) :=
  hx.append (.group hne ha hy)

/-- Replacing the result of a call by another one of the same call. -/
theorem Answered.set {calls : List ToolCallRecord} {rs : List (String × Json)} {j : Nat}
    {id : String} (ha : Answered calls rs) (hj : ∃ r, rs[j]? = some r ∧ r.1 = id) (c : Json) :
    Answered calls (rs.set j (id, c)) := by
  obtain ⟨r, hr, hid⟩ := hj
  obtain ⟨hlt, hget⟩ := List.getElem?_eq_some_iff.mp hr
  have hsame : (rs.set j (id, c)).map (·.1) = rs.map (·.1) := by
    rw [List.map_set]
    have hlt' : j < (rs.map (·.1)).length := by rw [List.length_map]; exact hlt
    have : (rs.map (·.1))[j] = id := by rw [List.getElem_map, hget, hid]
    rw [← this]
    exact List.set_getElem_self hlt'
  exact ⟨hsame ▸ ha.perm, ha.nodup⟩

theorem findIdx?_result {rs : List (String × Json)} {id : String} {j : Nat}
    (h : (rs.findIdx? fun r => r.1 == id) = some j) : ∃ r, rs[j]? = some r ∧ r.1 = id := by
  obtain ⟨hlt, hr, -⟩ := List.findIdx?_eq_some_iff_getElem.mp h
  exact ⟨rs[j], List.getElem?_eq_getElem hlt, eq_of_beq hr⟩

/-- A call that is answered has a result. -/
theorem Answered.findIdx? {calls : List ToolCallRecord} {rs : List (String × Json)} {id : String}
    (ha : Answered calls rs) (hid : id ∈ callIds calls) :
    ∃ j, (rs.findIdx? fun r => r.1 == id) = some j := by
  have hmem : id ∈ rs.map (·.1) := ha.perm.mem_iff.mpr hid
  obtain ⟨r, hr, hrid⟩ := List.mem_map.mp hmem
  cases hf : rs.findIdx? fun r => r.1 == id with
  | some j => exact ⟨j, rfl⟩
  | none =>
      have := List.findIdx?_eq_none_iff.mp hf r hr
      rw [hrid, beq_self_eq_true] at this
      exact nomatch this

/-- The open call has no result. -/
theorem findIdx?_none_of_open {calls : List ToolCallRecord} {rs : List (String × Json)}
    {id : String} (hnd : (callIds calls).Nodup) (hperm : (id :: rs.map (·.1)).Perm (callIds calls)) :
    (rs.findIdx? fun r => r.1 == id) = none := by
  have hfresh : id ∉ rs.map (·.1) := (List.nodup_cons.mp (hperm.nodup_iff.mpr hnd)).1
  rw [List.findIdx?_eq_none_iff]
  intro r hr
  rw [beq_eq_false_iff_ne]
  rintro rfl
  exact hfresh (List.mem_map.mpr ⟨r, hr, rfl⟩)

theorem ne_nil_of_open {calls : List ToolCallRecord} {ids : List String} {id : String}
    (hperm : (id :: ids).Perm (callIds calls)) : calls ≠ [] := by
  rintro rfl
  exact nomatch hperm.length_eq

/-- **PATCHING A PAIRED HISTORY** leaves it paired. -/
theorem Paired.patch {s : ConversationState} (h : Paired s.messages) (id : String) (c : Json) :
    Paired (s.patchToolResult id c).messages := by
  rw [ConversationState.patchToolResult]
  cases hpos : latestAssistantWith id s.messages with
  | none => exact h
  | some pos =>
      obtain ⟨x, content, calls, rs, y, hv, hx, hy, hne, ha, hid⟩ := h.view hpos
      obtain ⟨j, hj⟩ := ha.findIdx? hid
      simp only [hv.existingResult_eq, hj, Option.map_some]
      obtain ⟨r, hr, hrid⟩ := findIdx?_result hj
      rw [hv.set_eq (List.getElem?_eq_some_iff.mp hr).1]
      exact .of_view hx hy hne (ha.set ⟨r, hr, hrid⟩ c)

/-- **PATCHING THE OPEN CALL** closes the history. -/
theorem PairedUpTo.patch {s : ConversationState} {t : List ChatMessage} {id : String}
    (h : PairedUpTo t s.messages) (ht : OpenAt id t) (c : Json) :
    Paired (s.patchToolResult id c).messages := by
  obtain ⟨x, hms, hx⟩ := h
  obtain ⟨hpos, content, calls, rs, hv, hnd, hperm⟩ := ht.view (x := x)
  have hnot : (rs.findIdx? fun r => r.1 == id) = none :=
    findIdx?_none_of_open hnd hperm
  rw [ConversationState.patchToolResult, hms, hpos]
  simp only [hv.existingResult_eq, hnot, Option.map_none]
  rw [hv.insert_last_eq]
  refine .of_view hx .nil (ne_nil_of_open hperm) ⟨?_, hnd⟩
  rw [List.map_append]
  exact (List.perm_append_comm).trans hperm

@[simp] theorem patchToolResult_pendingTool (s : ConversationState) (id : String) (c : Json) :
    (s.patchToolResult id c).pendingTool = s.pendingTool := by
  rw [ConversationState.patchToolResult]
  split
  · rfl
  · split <;> rfl

@[simp] theorem announceUnreadAttachments_pendingTool (s : ConversationState) (id : String)
    (n : Nat) : (s.announceUnreadAttachments id n).pendingTool = s.pendingTool := by
  rw [ConversationState.announceUnreadAttachments]
  split
  · rfl
  · split
    · rfl
    · split <;> rfl

/-- Announcing files changes the text of a result only. -/
theorem Paired.announce {s : ConversationState} (h : Paired s.messages) (id : String) (n : Nat) :
    Paired (s.announceUnreadAttachments id n).messages := by
  rw [ConversationState.announceUnreadAttachments]
  by_cases hn : n = 0
  · rw [if_pos hn]
    exact h
  rw [if_neg hn]
  cases hpos : latestAssistantWith id s.messages with
  | none => exact h
  | some pos =>
      obtain ⟨x, content, calls, rs, y, hv, hx, hy, hne, ha, hid⟩ := h.view hpos
      obtain ⟨j, hj⟩ := ha.findIdx? hid
      obtain ⟨r, hr, hrid⟩ := findIdx?_result hj
      have hlt := (List.getElem?_eq_some_iff.mp hr).1
      have hget : s.messages[pos + 1 + j]? = some (.tool r.1 r.2) := by
        rw [← List.getElem?_drop, hv.drop_eq, List.getElem?_append_left (by simpa [toolResults])]
        simp [toolResults, hr]
      simp only [hv.existingResult_eq, hj, Option.map_some, announceAt, hget]
      rw [hv.set_eq hlt]
      exact .of_view hx hy hne (ha.set ⟨r, hr, rfl⟩ _)

/-- **THE PLACEHOLDER** closes the history. -/
theorem WellShaped.placeholder {s s' : ConversationState} (h : WellShaped s)
    (hs : s.ensurePlaceholder = some s') :
    Paired s'.messages ∧ s'.pendingTool = s.pendingTool := by
  rw [ConversationState.ensurePlaceholder] at hs
  cases hp : s.pendingTool with
  | none => rw [hp] at hs; exact nomatch hs
  | some p =>
      simp only [hp] at hs
      rcases h with h | ⟨p', t, hp', ht, x, hms, hx⟩
      · cases hpos : latestAssistantWith p.callId s.messages with
        | none => rw [hpos] at hs; exact nomatch hs
        | some pos =>
            obtain ⟨x, content, calls, rs, y, hv, hx, hy, hne, ha, hid⟩ := h.view hpos
            obtain ⟨j, hj⟩ := ha.findIdx? hid
            simp only [hpos, hv.existingResult_eq, hj, Option.map_some] at hs
            cases hs
            exact ⟨h, hp⟩
      · rw [hp] at hp'
        cases hp'
        obtain ⟨hpos, content, calls, rs, hv, hnd, hperm⟩ := ht.view (x := x)
        have hnot := findIdx?_none_of_open hnd hperm
        simp only [hms, hpos, hv.existingResult_eq, hnot, Option.map_none] at hs
        cases hs
        refine ⟨?_, rfl⟩
        rw [hv.insert_first_eq]
        exact .of_view hx .nil (ne_nil_of_open hperm) ⟨hperm, hnd⟩

/-! ## The start and the end of a turn -/

/-- A cancelled call is answered. -/
theorem WellShaped.cancelPending {s : ConversationState} {p : PendingToolCall} (h : WellShaped s)
    (hp : s.pendingTool = some p) (reason : String) :
    Paired (s.cancelPending p reason).messages := by
  refine Paired.announce ?_ _ _
  rcases h with h | ⟨p', t, hp', ht, hup⟩
  · exact Paired.patch (s := { s with pendingTool := none }) h _ _
  · rw [hp] at hp'
    cases hp'
    exact PairedUpTo.patch (s := { s with pendingTool := none }) hup ht _

@[simp] theorem cancelPending_pendingTool (s : ConversationState) (p : PendingToolCall)
    (reason : String) : (s.cancelPending p reason).pendingTool = none := by
  simp [ConversationState.cancelPending]

/-- What `take_pending` leaves: a paired history, or the untouched one with the parked
    call taken out. -/
inductive TakenFrom (s s' : ConversationState) : Taken → Prop where
  | nothing (hs : s' = s) (hp : s.pendingTool = none) : TakenFrom s s' .nothing
  | resume {p : PendingToolCall} {payload : Json} (hp : s.pendingTool = some p)
      (hs : s' = { s with pendingTool := none }) : TakenFrom s s' (.resume p payload)
  | cancelled {step : AgentStep} (hp : s'.pendingTool = none)
      (hs : WellShaped s → Paired s'.messages) : TakenFrom s s' (.cancelled step)
  | side {p p' : PendingToolCall} (hp : s.pendingTool = some p) (hp' : s'.pendingTool = some p')
      (hsame : p'.flowSnapshot = p.flowSnapshot) (hs : WellShaped s → Paired s'.messages) :
      TakenFrom s s' .side

/-- A pending call is resumed, cancelled or left. -/
theorem resumeOrCancel_cases {s : ConversationState} {p : PendingToolCall}
    (hp : s.pendingTool = some p) (payload : Option Json) (now : Int) :
    TakenFrom s (s.resumeOrCancel p payload now).1 (s.resumeOrCancel p payload now).2 := by
  cases hexp : p.isExpired now with
  | true =>
      simp only [ConversationState.resumeOrCancel, hexp, if_true]
      exact .cancelled (cancelPending_pendingTool ..) fun h => h.cancelPending hp _
  | false =>
      cases payload with
      | some payload =>
          simp only [ConversationState.resumeOrCancel, hexp, Bool.false_eq_true, if_false]
          exact .resume hp rfl
      | none =>
          simp only [ConversationState.resumeOrCancel, hexp, Bool.false_eq_true, if_false]
          exact .cancelled (cancelPending_pendingTool ..) fun h => h.cancelPending hp _

/-- What is taken of a pending call. -/
theorem takePending_cases (s : ConversationState) (payload : Option Json) (now : Int)
    (policy : ParkedTextPolicy) :
    TakenFrom s (s.takePending payload now policy).1 (s.takePending payload now policy).2 := by
  rw [ConversationState.takePending]
  cases hp : s.pendingTool with
  | none => exact .nothing rfl hp
  | some p =>
      simp only
      split
      · cases he : s.ensurePlaceholder with
        | none => exact resumeOrCancel_cases hp payload now
        | some s' =>
            exact .side hp rfl rfl fun h => (h.placeholder he).1
      · exact resumeOrCancel_cases hp payload now

/-- A paired history stays paired at the end of a side turn, and no call parks there. -/
theorem finishSideTurn_cases (s : ConversationState) (r : TerminationReason) (c : Option Json) :
    (Paired s.messages → Paired (s.finishSideTurn r c).1.messages) ∧
      ((s.finishSideTurn r c).1 = s ∨ (s.finishSideTurn r c).1.pendingTool = none) := by
  rw [ConversationState.finishSideTurn]
  split
  · cases hp : s.pendingTool with
    | none => exact ⟨fun h => h, .inl rfl⟩
    | some p =>
        refine ⟨fun h => Paired.patch (s := { s with pendingTool := none }) h _ _, .inr ?_⟩
        simp
  · cases s.pendingTool.bind (·.presentation) with
    | none => exact ⟨fun h => h, .inl rfl⟩
    | some card => exact ⟨fun h => h, .inl rfl⟩

end Greentic.Aw
