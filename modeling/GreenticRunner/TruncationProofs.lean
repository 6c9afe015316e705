import GreenticRunner.ConversationProofs

/-! # What truncation removes

    A history is its system messages in front and then its TURNS: a turn runs from a user
    message, or from the first message that is no system message, up to the next user
    message.

    * `turnsOf`, `pruned` — the turns of a history, and the history without the oldest
      removable ones;
    * `Passed` — a front in which `oldest_removable_turn` finds nothing;
    * `truncateHistory_spec` — `truncate_history` removes the oldest removable turns, as few
      as the limit allows. -/

namespace Greentic.Aw

/-! ## Turns -/

/-- The turns of a history, oldest first. -/
def turnsOf (ms : List ChatMessage) : List (List ChatMessage) :=
  (ms.dropWhile ChatMessage.isSystem).splitBy fun _ m => !m.isUser

/-- The turn holds the protected call. -/
def holdsCall (protectedId : Option String) (turn : List ChatMessage) : Bool :=
  turn.any (holdsProtected protectedId)

/-- What is left of a turn: all of it when it holds the protected call, else its system messages. -/
def pruneTurn (protectedId : Option String) (turn : List ChatMessage) : List ChatMessage :=
  if holdsCall protectedId turn then turn else turn.filter ChatMessage.isSystem

/-- The turns, the first `cut` of them pruned. -/
def prunedTurns (protectedId : Option String) (cut : Nat) (ts : List (List ChatMessage)) :
    List ChatMessage :=
  ((ts.take cut).map (pruneTurn protectedId)).flatten ++ (ts.drop cut).flatten

/-- The history, the removable ones among its `cut` oldest turns removed. -/
def pruned (protectedId : Option String) (cut : Nat) (ms : List ChatMessage) :
    List ChatMessage :=
  ms.takeWhile ChatMessage.isSystem ++ prunedTurns protectedId cut (turnsOf ms)

/-- A turn opens with a message that is no system message and has no later user message. -/
structure IsTurn (t : List ChatMessage) : Prop where
  view : ∃ v span, t = v :: span ∧ v.isSystem = false ∧ ∀ m ∈ span, m.isUser = false

/-- The turn opens with a user message. -/
def opensWithUser (t : List ChatMessage) : Prop := ∃ u span, t = u :: span ∧ u.isUser = true

/-- Turns in a row: all but the first open with a user message. -/
structure TurnRow (ts : List (List ChatMessage)) : Prop where
  turn : ∀ t ∈ ts, IsTurn t
  user : ∀ t ∈ ts.tail, opensWithUser t

theorem ChatMessage.not_system_of_user {m : ChatMessage} (h : m.isUser = true) :
    m.isSystem = false := by
  cases m with
  | user _ _ => rfl
  | _ => exact nomatch h

section Turns

variable {protectedId : Option String} {ms pre t : List ChatMessage} {ts : List (List ChatMessage)}

/-- The turns, one after the other, are the history. -/
theorem flatten_turnsOf (ms : List ChatMessage) :
    ms.takeWhile ChatMessage.isSystem ++ (turnsOf ms).flatten = ms := by
  rw [turnsOf, List.flatten_splitBy, List.takeWhile_append_dropWhile]

theorem lead_system (ms : List ChatMessage) :
    ∀ m ∈ ms.takeWhile ChatMessage.isSystem, m.isSystem = true :=
  List.all_eq_true.mp List.all_takeWhile

/-- No user message follows the head of a span that splitting leaves whole. -/
theorem no_user_of_chain {v : ChatMessage} {span : List ChatMessage}
    (h : (v :: span).IsChain fun _ m => (!m.isUser) = true) : ∀ m ∈ span, m.isUser = false := by
  induction span generalizing v with
  | nil => exact fun _ hm => nomatch hm
  | cons w span ih =>
      rw [List.isChain_cons_cons] at h
      intro m hm
      rcases List.mem_cons.mp hm with rfl | hm
      · simpa using h.1
      · exact ih h.2 m hm

/-- Every piece after the first opens with the user message it was split at. -/
theorem user_of_chain {ts : List (List ChatMessage)}
    (h : ts.IsChain fun a b =>
      ∃ (_ : a ≠ []) (hb : b ≠ []), (!(b.head hb).isUser) = false) :
    ∀ t ∈ ts.tail, opensWithUser t := by
  induction ts with
  | nil => exact fun _ ht => nomatch ht
  | cons a ts ih =>
      cases ts with
      | nil => exact fun _ ht => nomatch ht
      | cons b ts =>
          rw [List.isChain_cons_cons] at h
          obtain ⟨⟨-, hb, hu⟩, hrest⟩ := h
          intro t ht
          rcases List.mem_cons.mp ht with rfl | ht
          · refine ⟨t.head hb, t.tail, (List.cons_head_tail hb).symm, ?_⟩
            simpa using hu
          · exact ih hrest t ht

/-- Each of them is a turn. -/
theorem turnRow_turnsOf (ms : List ChatMessage) : TurnRow (turnsOf ms) := by
  have huser : ∀ t ∈ (turnsOf ms).tail, opensWithUser t :=
    user_of_chain (List.isChain_getLast_head_splitBy (fun _ (m : ChatMessage) => !m.isUser) _)
  refine ⟨?_, huser⟩
  intro t ht
  have hne : t ≠ [] := List.ne_nil_of_mem_splitBy ht
  obtain ⟨v, span, rfl⟩ := List.exists_cons_of_ne_nil hne
  refine ⟨v, span, rfl, ?_, no_user_of_chain (List.isChain_of_mem_splitBy ht)⟩
  cases hts : turnsOf ms with
  | nil => exact nomatch hts ▸ ht
  | cons a rest =>
      rw [hts] at ht huser
      rcases List.mem_cons.mp ht with rfl | ht
      · -- the first turn opens where the system messages in front end
        have hrest : ms.dropWhile ChatMessage.isSystem = v :: (span ++ rest.flatten) := by
          have := List.flatten_splitBy (fun _ m => !m.isUser) (ms.dropWhile ChatMessage.isSystem)
          rw [← this]
          change (turnsOf ms).flatten = _
          rw [hts]
          rfl
        have hhead := List.head?_dropWhile_not ChatMessage.isSystem ms
        rw [hrest] at hhead
        simpa using hhead
      · obtain ⟨u, span', heq, hu⟩ := huser _ ht
        cases heq
        exact ChatMessage.not_system_of_user hu

/-! ## A settled front -/

/-- `oldest_removable_turn` passes over the front `pre` and stands in no turn, or in one that holds
    the protected call. -/
def Passed (protectedId : Option String) (pre : List ChatMessage) : Prop :=
  ∃ turn, (turn = none ∨ ∃ start, turn = some (start, true)) ∧ ∀ rest,
    oldestRemovableTurn protectedId 0 none (pre ++ rest) =
      oldestRemovableTurn protectedId pre.length turn rest

theorem oldestRemovableTurn_system (h : ∀ m ∈ pre, m.isSystem = true) (rest : List ChatMessage) :
    oldestRemovableTurn protectedId 0 none (pre ++ rest) =
      oldestRemovableTurn protectedId pre.length none rest := by
  induction pre using List.reverseRecOn generalizing rest with
  | nil => rfl
  | append_singleton pre m ih =>
      have hm := h m (by simp)
      rw [List.append_assoc, ih fun n hn => h n (by simp [hn])]
      simp [oldestRemovableTurn, hm]

/-- System messages after a turn belong to it. -/
theorem oldestRemovableTurn_skip {notes : List ChatMessage} (h : ∀ m ∈ notes, m.isUser = false)
    (i start : Nat) (held : Bool) (rest : List ChatMessage) :
    oldestRemovableTurn protectedId i (some (start, held)) (notes ++ rest) =
      oldestRemovableTurn protectedId (i + notes.length)
        (some (start, held || holdsCall protectedId notes)) rest := by
  induction notes generalizing i held with
  | nil => simp [holdsCall]
  | cons m notes ih =>
      have hm := h m (List.mem_cons_self ..)
      rw [List.cons_append, oldestRemovableTurn, if_neg (by simp [hm]),
        ih fun n hn => h n (List.mem_cons_of_mem _ hn)]
      simp only [holdsCall, List.any_cons, List.length_cons, Bool.or_assoc]
      congr 1
      omega

/-- The scan of a turn, up to the user message after it. -/
theorem oldestRemovableTurn_turn {turn : Option (Nat × Bool)}
    (hturn : turn = none ∨ ∃ start, turn = some (start, true)) (ht : IsTurn t)
    (hopen : turn = none ∨ opensWithUser t) (i : Nat) (rest : List ChatMessage) :
    oldestRemovableTurn protectedId i turn (t ++ rest) =
      oldestRemovableTurn protectedId (i + t.length) (some (i, holdsCall protectedId t)) rest := by
  obtain ⟨v, span, rfl, hv, hspan⟩ := ht.view
  have hfirst : oldestRemovableTurn protectedId i turn (v :: (span ++ rest)) =
      oldestRemovableTurn protectedId (i + 1) (some (i, holdsProtected protectedId v))
        (span ++ rest) := by
    rcases hturn with rfl | ⟨start, rfl⟩
    · rw [oldestRemovableTurn, if_neg (by simp [hv])]
    · rcases hopen with hnone | ⟨u, span', heq, hu⟩
      · cases hnone
      · cases heq
        rw [oldestRemovableTurn, if_pos hu, if_pos rfl]
  rw [List.cons_append, hfirst, oldestRemovableTurn_skip hspan]
  simp only [holdsCall, List.any_cons, List.length_cons]
  congr 1
  omega

/-- A turn opens with a user message, unless only system messages are before it. -/
def Opens (pre t : List ChatMessage) : Prop :=
  (∀ m ∈ pre, m.isSystem = true) ∨ opensWithUser t

/-- The search goes on behind turns that it may not remove. -/
theorem Passed.scan (h : Passed protectedId pre) (ht : IsTurn t) (hopen : Opens pre t)
    (rest : List ChatMessage) :
    oldestRemovableTurn protectedId 0 none (pre ++ t ++ rest) =
      oldestRemovableTurn protectedId (pre ++ t).length
        (some (pre.length, holdsCall protectedId t)) rest := by
  rw [List.append_assoc, List.length_append]
  rcases hopen with hsys | huser
  · rw [oldestRemovableTurn_system hsys]
    exact oldestRemovableTurn_turn (.inl rfl) ht (.inl rfl) _ _
  · obtain ⟨turn, hturn, hpass⟩ := h
    rw [hpass]
    exact oldestRemovableTurn_turn hturn ht (.inr huser) _ _

theorem Passed.of_system (h : ∀ m ∈ pre, m.isSystem = true) : Passed protectedId pre :=
  ⟨none, .inl rfl, oldestRemovableTurn_system h⟩

/-- Notes that a removed turn leaves do not matter. -/
theorem Passed.notes (h : Passed protectedId pre) {notes : List ChatMessage}
    (hn : ∀ m ∈ notes, m.isSystem = true) : Passed protectedId (pre ++ notes) := by
  obtain ⟨turn, hturn, hpass⟩ := h
  refine ⟨turn, hturn, ?_⟩
  intro rest
  rw [List.append_assoc, hpass, List.length_append]
  rcases hturn with rfl | ⟨start, rfl⟩
  · clear hpass
    generalize pre.length = i
    induction notes generalizing i with
    | nil => rfl
    | cons m notes ih =>
        rw [List.cons_append, oldestRemovableTurn, if_pos (hn m (List.mem_cons_self ..)),
          ih fun n hm => hn n (List.mem_cons_of_mem _ hm), List.length_cons]
        congr 1
        omega
  · have huser : ∀ m ∈ notes, m.isUser = false := by
      intro m hm
      have hsys := hn m hm
      cases m with
      | system _ => rfl
      | _ => cases hsys
    rw [oldestRemovableTurn_skip huser, Bool.true_or]

theorem Passed.held (h : Passed protectedId pre) (ht : IsTurn t) (hopen : Opens pre t)
    (hheld : holdsCall protectedId t = true) : Passed protectedId (pre ++ t) := by
  refine ⟨some (pre.length, true), .inr ⟨_, rfl⟩, ?_⟩
  intro rest
  rw [h.scan ht hopen, hheld]

/-- A turn that holds nothing protected is found, when another one follows. -/
theorem Passed.found (h : Passed protectedId pre) (ht : IsTurn t) (hopen : Opens pre t)
    (hheld : holdsCall protectedId t = false) {u rest : List ChatMessage} (hu : opensWithUser u) :
    oldestRemovableTurn protectedId 0 none (pre ++ t ++ (u ++ rest)) =
      some (pre.length, (pre ++ t).length) := by
  obtain ⟨v, span, rfl, hv⟩ := hu
  rw [h.scan ht hopen, hheld, List.cons_append, oldestRemovableTurn, if_pos hv, if_neg (by simp)]

/-- The newest turn is not found. -/
theorem Passed.newest (h : Passed protectedId pre) (ht : IsTurn t) (hopen : Opens pre t) :
    oldestRemovableTurn protectedId 0 none (pre ++ t) = none := by
  have := h.scan ht hopen []
  rw [List.append_nil] at this
  rw [this, oldestRemovableTurn]

/-- It finds nothing where it may remove none. -/
theorem Passed.nothing (h : Passed protectedId pre) :
    oldestRemovableTurn protectedId 0 none pre = none := by
  obtain ⟨turn, -, hpass⟩ := h
  have := hpass []
  rw [List.append_nil] at this
  rw [this, oldestRemovableTurn]

/-! ## The loop -/

@[simp] theorem prunedTurns_zero (ts : List (List ChatMessage)) :
    prunedTurns protectedId 0 ts = ts.flatten := rfl

theorem prunedTurns_succ (cut : Nat) (t : List ChatMessage) (ts : List (List ChatMessage)) :
    prunedTurns protectedId (cut + 1) (t :: ts) =
      pruneTurn protectedId t ++ prunedTurns protectedId cut ts := by
  simp [prunedTurns]

/-- What the loop does to the turns behind a settled front: some of the oldest are pruned, none of
    them while the limit was met. -/
structure Cut (protectedId : Option String) (max : Nat) (pre : List ChatMessage)
    (ts : List (List ChatMessage)) (out : List ChatMessage) (cut : Nat) : Prop where
  within : cut ≤ ts.length - 1
  out : out = pre ++ prunedTurns protectedId cut ts
  needed : ∀ k < cut, max < nonSystem (pre ++ prunedTurns protectedId k ts)

/-- Nothing is cut. -/
theorem Cut.zero (protectedId : Option String) (max : Nat) (pre : List ChatMessage) (ts : List (List ChatMessage)) :
    Cut protectedId max pre ts (pre ++ ts.flatten) 0 :=
  ⟨Nat.zero_le _, rfl, fun _ hk => nomatch hk⟩

/-- One more turn is cut, in front of those the loop cuts afterwards. -/
theorem Cut.cons {max cut : Nat} {u out : List ChatMessage}
    (hover : max < nonSystem (pre ++ (t :: u :: ts).flatten))
    (h : Cut protectedId max (pre ++ pruneTurn protectedId t) (u :: ts) out cut) :
    Cut protectedId max pre (t :: u :: ts) out (cut + 1) := by
  have hwithin := h.within
  refine ⟨?_, ?_, ?_⟩
  · simp only [List.length_cons] at hwithin ⊢
    omega
  · rw [h.out, prunedTurns_succ, List.append_assoc]
  · intro k hk
    cases k with
    | zero => exact hover
    | succ k =>
        rw [prunedTurns_succ, ← List.append_assoc]
        exact h.needed k (by omega)

/-- A history within its limit is kept. -/
theorem truncateMessages_within {max fuel : Nat} (h : nonSystem ms ≤ max) :
    truncateMessages protectedId max fuel ms = ms := by
  cases fuel with
  | zero => rfl
  | succ fuel => rw [truncateMessages, if_pos h]

theorem truncateMessages_none {max fuel : Nat}
    (h : oldestRemovableTurn protectedId 0 none ms = none) :
    truncateMessages protectedId max fuel ms = ms := by
  cases fuel with
  | zero => rfl
  | succ fuel =>
      rw [truncateMessages, h]
      split <;> rfl

/-- A round that removes the turn `t`. -/
theorem truncateMessages_round {max fuel : Nat} {u rest : List ChatMessage}
    (h : Passed protectedId pre) (ht : IsTurn t) (hopen : Opens pre t)
    (hheld : holdsCall protectedId t = false) (hu : opensWithUser u)
    (hover : ¬ nonSystem (pre ++ t ++ (u ++ rest)) ≤ max) :
    truncateMessages protectedId max (fuel + 1) (pre ++ t ++ (u ++ rest)) =
      truncateMessages protectedId max fuel (pre ++ pruneTurn protectedId t ++ (u ++ rest)) := by
  rw [truncateMessages, if_neg hover, h.found ht hopen hheld hu]
  dsimp only
  rw [removeTurn_eq rfl rfl, pruneTurn, hheld]
  rfl

theorem truncateMessages_cuts (max : Nat) {fuel : Nat} (h : Passed protectedId pre)
    (hrow : TurnRow ts) (hopen : ∀ t ∈ ts.head?, Opens pre t)
    (hfuel : (pre ++ ts.flatten).length ≤ fuel) :
    ∃ cut, Cut protectedId max pre ts
      (truncateMessages protectedId max fuel (pre ++ ts.flatten)) cut := by
  -- induction on the turns; a protected turn joins the front, a removed one leaves its notes there
  induction ts generalizing pre fuel with
  | nil =>
      have hnone := h.nothing
      rw [List.flatten_nil, List.append_nil, truncateMessages_none hnone]
      refine ⟨0, ?_⟩
      have := Cut.zero protectedId max pre []
      rwa [List.flatten_nil, List.append_nil] at this
  | cons t ts ih =>
      have ht := hrow.turn t (List.mem_cons_self ..)
      have hfirst : Opens pre t := hopen t rfl
      cases ts with
      | nil =>
          have hnone := h.newest ht hfirst
          rw [List.flatten_cons, List.flatten_nil, List.append_nil, truncateMessages_none hnone]
          refine ⟨0, ?_⟩
          have := Cut.zero protectedId max pre [t]
          rwa [List.flatten_cons, List.flatten_nil, List.append_nil] at this
      | cons u ts =>
          by_cases hover : nonSystem (pre ++ (t :: u :: ts).flatten) ≤ max
          · rw [truncateMessages_within hover]
            exact ⟨0, Cut.zero protectedId max pre _⟩
          have hu := hrow.user u (List.mem_cons_self ..)
          have hrest : TurnRow (u :: ts) :=
            ⟨fun t ht => hrow.turn t (List.mem_cons_of_mem _ ht),
              fun t ht => hrow.user t (List.mem_cons_of_mem _ ht)⟩
          have hopens : ∀ pre', ∀ t ∈ (u :: ts).head?, Opens pre' t := by
            intro pre' t ht
            cases ht
            exact .inr hu
          have hflat : pre ++ (t :: u :: ts).flatten = pre ++ t ++ (u :: ts).flatten := by simp
          cases hheld : holdsCall protectedId t with
          | true =>
              have hkept : pruneTurn protectedId t = t := by rw [pruneTurn, hheld]; rfl
              rw [hflat] at hfuel
              obtain ⟨cut, hcut⟩ := ih (h.held ht hfirst hheld) hrest (hopens _) hfuel
              refine ⟨cut + 1, Cut.cons (Nat.lt_of_not_le hover) ?_⟩
              rwa [hflat, hkept]
          | false =>
              have hnotes : ∀ m ∈ pruneTurn protectedId t, m.isSystem = true := by
                rw [pruneTurn, hheld]
                exact fun _ hm => (List.mem_filter.mp hm).2
              have hlt : (pruneTurn protectedId t).length < t.length := by
                obtain ⟨v, span, rfl, hv, -⟩ := ht.view
                have hle := List.length_filter_le ChatMessage.isSystem span
                rw [pruneTurn, hheld, if_neg Bool.false_ne_true,
                  List.filter_cons_of_neg (by rw [hv]; exact Bool.false_ne_true)]
                exact Nat.lt_succ_of_le hle
              cases fuel with
              | zero => simp at hfuel; simp [hfuel] at hlt
              | succ fuel =>
                  have hless : (pre ++ pruneTurn protectedId t ++ (u :: ts).flatten).length ≤ fuel := by
                    simp only [List.length_append, hflat] at hfuel ⊢
                    omega
                  obtain ⟨cut, hcut⟩ := ih (h.notes hnotes) hrest (hopens _) hless
                  refine ⟨cut + 1, Cut.cons (Nat.lt_of_not_le hover) ?_⟩
                  rw [hflat, List.flatten_cons] at hover ⊢
                  rw [truncateMessages_round h ht hfirst hheld hu hover]
                  exact hcut

/-- More fuel than messages changes nothing. -/
theorem truncateMessages_fuel (max : Nat) {fuel : Nat} (hfuel : ms.length ≤ fuel) :
    truncateMessages protectedId max fuel ms = truncateMessages protectedId max ms.length ms := by
  have hmore : ∀ (fuel k : Nat) (ms : List ChatMessage), ms.length ≤ fuel →
      truncateMessages protectedId max (fuel + k) ms = truncateMessages protectedId max fuel ms := by
    intro fuel
    induction fuel with
    | zero =>
        intro k ms h
        have : ms = [] := List.length_eq_zero_iff.mp (Nat.le_zero.mp h)
        subst this
        exact truncateMessages_within (Nat.zero_le _)
    | succ fuel ih =>
        intro k ms h
        rw [Nat.succ_add, truncateMessages, truncateMessages]
        split
        · rfl
        · cases hr : oldestRemovableTurn protectedId 0 none ms with
          | none => rfl
          | some span =>
              have hlt := (Removable.of_oldest hr).length_lt
              exact ih k _ (by omega)
  obtain ⟨k, rfl⟩ := Nat.exists_eq_add_of_le hfuel
  exact hmore _ k ms (Nat.le_refl _)

/-! ## What is left -/

theorem filter_pruneTurn (t : List ChatMessage) :
    (pruneTurn protectedId t).filter ChatMessage.isSystem = t.filter ChatMessage.isSystem := by
  rw [pruneTurn]
  split
  · rfl
  · rw [List.filter_filter]
    simp

theorem filter_prunedTurns (cut : Nat) (ts : List (List ChatMessage)) :
    (prunedTurns protectedId cut ts).filter ChatMessage.isSystem =
      ts.flatten.filter ChatMessage.isSystem := by
  induction ts generalizing cut with
  | nil => simp [prunedTurns]
  | cons t ts ih =>
      cases cut with
      | zero => rfl
      | succ cut =>
          rw [prunedTurns_succ, List.filter_append, filter_pruneTurn, ih, List.flatten_cons,
            List.filter_append]

/-- The newest turn is not pruned. -/
theorem newest_suffix {cut : Nat} (hcut : cut ≤ ts.length - 1) (h : ts.getLast? = some t) :
    t <:+ prunedTurns protectedId cut ts := by
  have hdrop : (ts.drop cut).getLast? = some t := by
    rw [List.getLast?_drop, if_neg, h]
    have hne : ts ≠ [] := by
      rintro rfl
      exact nomatch h
    have := List.length_pos_iff.mpr hne
    omega
  obtain ⟨init, hinit⟩ := List.getLast?_eq_some_iff.mp hdrop
  refine ⟨((ts.take cut).map (pruneTurn protectedId)).flatten ++ init.flatten, ?_⟩
  rw [prunedTurns, hinit, List.flatten_append, List.append_assoc, List.flatten_singleton]

/-- A turn that holds the protected call is not pruned. -/
theorem held_kept (cut : Nat) (ht : t ∈ ts) (hheld : holdsCall protectedId t = true) :
    t <:+: prunedTurns protectedId cut ts := by
  have hkept : pruneTurn protectedId t = t := by rw [pruneTurn, hheld]; rfl
  induction ts generalizing cut with
  | nil => exact nomatch ht
  | cons a ts ih =>
      cases cut with
      | zero =>
          rw [prunedTurns_zero]
          exact List.infix_of_mem_flatten ht
      | succ cut =>
          rw [prunedTurns_succ]
          rcases List.mem_cons.mp ht with rfl | ht
          · rw [hkept]
            exact (List.prefix_append _ _).isInfix
          · exact (ih cut ht).trans (List.suffix_append _ _).isInfix

/-- When nothing is found, every turn but the newest holds the protected call. -/
theorem Passed.all_held (h : Passed protectedId pre) (hrow : TurnRow ts)
    (hopen : ∀ t ∈ ts.head?, Opens pre t)
    (hnone : oldestRemovableTurn protectedId 0 none (pre ++ ts.flatten) = none) :
    ∀ t ∈ ts.dropLast, holdsCall protectedId t = true := by
  induction ts generalizing pre with
  | nil => exact fun _ ht => nomatch ht
  | cons t ts ih =>
      cases ts with
      | nil => exact fun _ ht => nomatch ht
      | cons u ts =>
          have ht := hrow.turn t (List.mem_cons_self ..)
          have hfirst : Opens pre t := hopen t rfl
          have hu := hrow.user u (List.mem_cons_self ..)
          have hflat : pre ++ (t :: u :: ts).flatten = pre ++ t ++ (u ++ ts.flatten) := by simp
          cases hheld : holdsCall protectedId t with
          | false =>
              rw [hflat, h.found ht hfirst hheld hu] at hnone
              exact nomatch hnone
          | true =>
              have hrest : TurnRow (u :: ts) :=
                ⟨fun t ht => hrow.turn t (List.mem_cons_of_mem _ ht),
                  fun t ht => hrow.user t (List.mem_cons_of_mem _ ht)⟩
              have hlater := ih (h.held ht hfirst hheld) hrest (by
                intro t ht
                cases ht
                exact .inr hu) (by rw [← hnone, hflat, List.flatten_cons])
              rw [List.dropLast_cons_cons]
              intro t' ht'
              rcases List.mem_cons.mp ht' with rfl | ht'
              · exact hheld
              · exact hlater t' ht'

end Turns

/-! ## The specification -/

/-- What `truncate_history` makes of the messages `ms`. -/
structure Truncated (protectedId : Option String) (max : Nat) (ms out : List ChatMessage) : Prop where
  /-- The removable ones among the oldest turns are removed, and none once the limit is met. -/
  oldest : ∃ cut ≤ (turnsOf ms).length - 1, out = pruned protectedId cut ms ∧
    ∀ k < cut, max < nonSystem (pruned protectedId k ms)
  system : out.filter ChatMessage.isSystem = ms.filter ChatMessage.isSystem
  newest : ∀ t, (turnsOf ms).getLast? = some t → t <:+ out
  held : ∀ t ∈ turnsOf ms, holdsCall protectedId t = true → t <:+: out
  done : nonSystem out ≤ max ∨ ∀ t ∈ (turnsOf out).dropLast, holdsCall protectedId t = true

theorem lead_settled (protectedId : Option String) (ms : List ChatMessage) :
    Passed protectedId (ms.takeWhile ChatMessage.isSystem) ∧
      ∀ t ∈ (turnsOf ms).head?, Opens (ms.takeWhile ChatMessage.isSystem) t :=
  ⟨Passed.of_system (lead_system ms), fun _ _ => .inl (lead_system ms)⟩

/-- What a truncation leaves. -/
theorem truncated (protectedId : Option String) (max : Nat) (ms : List ChatMessage) :
    Truncated protectedId max ms (truncateMessages protectedId max ms.length ms) := by
  obtain ⟨hlead, hopen⟩ := lead_settled protectedId ms
  have hrow := turnRow_turnsOf ms
  have hflat := flatten_turnsOf ms
  obtain ⟨cut, hcut⟩ := truncateMessages_cuts max hlead hrow hopen (Nat.le_refl _)
  rw [hflat] at hcut
  have hout : truncateMessages protectedId max ms.length ms = pruned protectedId cut ms := hcut.out
  refine ⟨⟨cut, hcut.within, hout, hcut.needed⟩, ?_, ?_, ?_, ?_⟩
  · rw [hout, pruned, List.filter_append, filter_prunedTurns, ← List.filter_append, hflat]
  · intro t ht
    rw [hout]
    exact (newest_suffix hcut.within ht).trans (List.suffix_append _ _)
  · intro t ht hheld
    rw [hout]
    exact (held_kept cut ht hheld).trans (List.suffix_append _ _).isInfix
  · rcases truncateMessages_stops protectedId max ms.length ms (Nat.le_refl _) with hle | hnone
    · exact .inl hle
    · obtain ⟨hlead', hopen'⟩ :=
        lead_settled protectedId (truncateMessages protectedId max ms.length ms)
      refine .inr (hlead'.all_held (turnRow_turnsOf _) hopen' ?_)
      rw [flatten_turnsOf]
      exact hnone

/-- TRUNCATION: on every conversation and limit the loop ends, whatever fuel it is given beyond the
    number of messages; it removes the oldest removable turns and nothing else, stops at the limit
    or with no removable turn left, and a paired history stays paired. -/
theorem truncateHistory_spec (s : ConversationState) (maxTurns : Nat) :
    Truncated (s.pendingTool.map (·.callId)) maxTurns s.messages
      (s.truncateHistory maxTurns).messages ∧
    (∀ fuel, s.messages.length ≤ fuel →
      truncateMessages (s.pendingTool.map (·.callId)) maxTurns fuel s.messages =
        (s.truncateHistory maxTurns).messages) ∧
    (Paired s.messages → Paired (s.truncateHistory maxTurns).messages) := by
  refine ⟨truncated _ _ _, ?_, fun h => h.truncateHistory maxTurns⟩
  intro fuel hfuel
  exact truncateMessages_fuel maxTurns hfuel

end Greentic.Aw
